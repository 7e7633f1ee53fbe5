import SpectralResponse.Table.Document
import SpectralResponse.Proofs.Except
import SpectralResponse.Proofs.Json.Documents
import SpectralResponse.Scalar.Double

/-!
# Calibration documents keep what they store

The document of a calibration file does not say of what kind a keyword is, nor of what shape a column:
the reader takes both from the value. What is written is nevertheless read back as it was, names and
kinds and shapes included. A whole number becomes an integer keyword because it was written without a
point, a real keyword has one even where it is a whole number, and lists in a column show themselves in
the first row; only a column of lists without rows cannot be told from a column of numbers without rows.

Reading what was written is shown part by part (`ofJson?_toJson`), from keywords and columns up to the
file, and so is that the text of each part keeps it (`legible_toJson`).

## What is proved

* `Catalog.ofList_entries` — the entries of a catalog make up this catalog.
* `CalibrationFile.ofJson?_toJson` — a file is read back from its value.
* `CalibrationFile.document_is_read_back` — a file is read back from its text, in either layout and
  wherever the text was found.
-/

namespace SpectralResponse

variable {α : Type}

/-! ### What a document can tell -/

/-- Every real number of the keyword has a property. -/
def Keyword.AllNumbers (P : α → Prop) : Keyword α → Prop
  | real value => P value
  | _ => True

/-- An integer of the keyword fits a 64-bit word. -/
def Keyword.FitsWord : Keyword α → Prop
  | integer value => Scalar.minWord ≤ value ∧ value ≤ Scalar.maxWord
  | _ => True

/-- Every number of the column has a property. -/
def Column.AllNumbers (P : α → Prop) : Column α → Prop
  | fixed values => ∀ x ∈ values, P x
  | lists rows => ∀ row ∈ rows, ∀ x ∈ row, P x

/-- Every real number of the table has a property. -/
structure Extension.AllNumbers (P : α → Prop) (t : Extension α) : Prop where
  /-- The keywords. -/
  keywords : ∀ e ∈ t.keywords.entries, e.2.AllNumbers P
  /-- The columns. -/
  columns : ∀ e ∈ t.columns.entries, e.2.AllNumbers P
  /-- The keywords of single columns. -/
  columnKeywords : ∀ e ∈ t.columnKeywords.entries, ∀ k ∈ e.2.entries, k.2.AllNumbers P

/-- A table that its document tells: integers fit a word, and a column of lists has rows. -/
structure Extension.IsTold (t : Extension α) : Prop where
  /-- The keywords. -/
  keywords : ∀ e ∈ t.keywords.entries, e.2.FitsWord
  /-- The columns. -/
  columns : ∀ e ∈ t.columns.entries, e.2 ≠ .lists []
  /-- The keywords of single columns. -/
  columnKeywords : ∀ e ∈ t.columnKeywords.entries, ∀ k ∈ e.2.entries, k.2.FitsWord

/-- Every real number of the file has a property. -/
def CalibrationFile.AllNumbers (P : α → Prop) (file : CalibrationFile α) : Prop :=
  ∀ t ∈ file.extensions, t.AllNumbers P

/-- A file all of whose tables are told by their documents. -/
def CalibrationFile.IsTold (file : CalibrationFile α) : Prop := ∀ t ∈ file.extensions, t.IsTold

/-! ### Catalogs -/

namespace Catalog

variable {β : Type}

/-- A name after all others has its place at the end. -/
theorem insertEntry_of_last {name : String} {entry : β} {entries : List (String × β)}
    (h : ∀ e ∈ entries, e.1 < name) : insertEntry name entry entries = entries ++ [(name, entry)] := by
  induction entries with
  | nil => rfl
  | cons head rest ih =>
    obtain ⟨other, present⟩ := head
    have hafter : other < name := h _ List.mem_cons_self
    have hbelow : ¬name < other := String.lt_asymm hafter
    have hother : name ≠ other := fun heq => String.lt_irrefl _ (heq ▸ hafter)
    rw [insertEntry, if_neg hbelow, if_neg hother,
      ih fun e he => h e (List.mem_cons_of_mem _ he), List.cons_append]

theorem entries_foldl_insert (rest : List (String × β)) (c : Catalog β)
    (h : (c.entries ++ rest).Pairwise (fun a b => a.1 < b.1)) :
    (rest.foldl (fun c (name, entry) => c.insert name entry) c).entries = c.entries ++ rest := by
  induction rest generalizing c with
  | nil => simp
  | cons head rest ih =>
    obtain ⟨name, entry⟩ := head
    have hlast : ∀ e ∈ c.entries, e.1 < name := fun e he =>
      (List.pairwise_append.1 h).2.2 e he (name, entry) List.mem_cons_self
    have hinsert : (c.insert name entry).entries = c.entries ++ [(name, entry)] :=
      insertEntry_of_last hlast
    rw [List.foldl_cons, ih (c.insert name entry) (by simpa [hinsert] using h), hinsert]
    simp

/-- The entries of a catalog, put in one after another, make up this catalog. -/
theorem ofList_entries (c : Catalog β) : ofList c.entries = c := by
  have hentries : (ofList c.entries).entries = c.entries :=
    entries_foldl_insert c.entries empty c.ascending
  generalize ofList c.entries = c' at hentries
  obtain ⟨entries, hasc⟩ := c
  obtain ⟨entries', hasc'⟩ := c'
  cases hentries
  rfl

end Catalog

/-! ### Reading what was written -/

/-- A list is read back if its items are. -/
theorem mapM_map_eq_some {β γ : Type} {read? : γ → Option β} {write : β → γ} {xs : List β}
    (h : ∀ x ∈ xs, read? (write x) = some x) : (xs.map write).mapM read? = some xs := by
  have hread : xs.mapM (read? ∘ write) = some (xs.map fun x => x) := mapM_eq_some h
  rw [List.mapM_map, hread, List.map_id']

theorem Catalog.ofJson?_toJson {β : Type} {item? : Json α → Option β} {entry : β → Json α}
    {c : Catalog β} (h : ∀ e ∈ c.entries, item? (entry e.2) = some e.2) :
    Catalog.ofJson? item? (c.toJson entry) = some c := by
  rw [Catalog.toJson, Catalog.ofJson?, mapM_map_eq_some, Option.map_some, Catalog.ofList_entries]
  intro e he
  simp [h e he]

variable [Scalar α]

theorem Keyword.ofJson?_toJson {k : Keyword α} (hword : k.FitsWord)
    (hfinite : k.AllNumbers fun x => Scalar.isFinite x) : Keyword.ofJson? k.toJson = some k := by
  cases k with
  | flag value => rfl
  | integer value =>
    have hword : Scalar.minWord ≤ value ∧ value ≤ Scalar.maxWord := hword
    simp [Keyword.toJson, Keyword.ofJson?, Json.asWord?, hword]
  | real value =>
    have hfinite : Scalar.isFinite value = true := hfinite
    simp [Keyword.toJson, Keyword.ofJson?, Json.asWord?, Json.asScalar?, hfinite]
  | text value => rfl

theorem asList?_reals {values : List α} (hfinite : ∀ x ∈ values, Scalar.isFinite x) :
    (Json.reals values).asList? Json.asScalar? = some values :=
  mapM_map_eq_some fun x hx => by simp [Json.asScalar?, hfinite x hx]

theorem Column.ofJson?_toJson {c : Column α} (hrows : c ≠ .lists [])
    (hfinite : c.AllNumbers fun x => Scalar.isFinite x) : Column.ofJson? c.toJson = some c := by
  cases c with
  | fixed values => rw [Column.toJson, Column.ofJson?, asList?_reals hfinite]
  | lists rows =>
    have hlists : (Json.list (rows.map Json.reals)).asList? (Json.asList? Json.asScalar?) = some rows :=
      mapM_map_eq_some fun row hrow => asList?_reals (hfinite row hrow)
    -- The first row is a list, so not all items are numbers.
    have hnumbers : (Json.list (rows.map Json.reals)).asList? (α := α) Json.asScalar? = none := by
      cases rows with
      | nil => exact absurd rfl hrows
      | cons row rows => rfl
    rw [Column.toJson, Column.ofJson?, hnumbers, hlists]
    rfl

/-- Without rows, a column of lists turns into one of numbers. -/
example : Column.ofJson? (Column.lists [] : Column α).toJson = some (.fixed []) := rfl

theorem Extension.ofJson?_toJson {t : Extension α} (htold : t.IsTold)
    (hfinite : t.AllNumbers fun x => Scalar.isFinite x) : Extension.ofJson? t.toJson = some t := by
  have hkeywords : Catalog.ofJson? Keyword.ofJson? (t.keywords.toJson Keyword.toJson) = some t.keywords :=
    Catalog.ofJson?_toJson fun e he =>
      Keyword.ofJson?_toJson (htold.keywords e he) (hfinite.keywords e he)
  have hcolumns : Catalog.ofJson? Column.ofJson? (t.columns.toJson Column.toJson) = some t.columns :=
    Catalog.ofJson?_toJson fun e he =>
      Column.ofJson?_toJson (htold.columns e he) (hfinite.columns e he)
  have hcolumnKeywords : Catalog.ofJson? (Catalog.ofJson? Keyword.ofJson?)
      (t.columnKeywords.toJson (Catalog.toJson Keyword.toJson)) = some t.columnKeywords :=
    Catalog.ofJson?_toJson fun e he => Catalog.ofJson?_toJson fun k hk =>
      Keyword.ofJson?_toJson (htold.columnKeywords e he k hk) (hfinite.columnKeywords e he k hk)
  simp [Extension.toJson, Extension.ofJson?, Json.memberAs?, Json.memberOr?, Json.member?,
    Json.asText?, hkeywords, hcolumns, hcolumnKeywords]

/-! ### Texts that keep the value -/

variable {realText : α → String}

theorem Keyword.legible_toJson {k : Keyword α} (hword : k.FitsWord)
    (htexts : k.AllNumbers fun x => Json.number? (realText x).toList = some (.real x, [])) :
    Json.Legible realText k.toJson := by
  cases k with
  | flag value => exact .bool value
  | integer value =>
    have hword : Scalar.minWord ≤ value ∧ value ≤ Scalar.maxWord := hword
    exact .whole hword.1 (Int.le_trans hword.2 (by decide))
  | real value => exact .real htexts
  | text value => exact .text value

theorem legible_reals {values : List α}
    (htexts : ∀ x ∈ values, Json.number? (realText x).toList = some (.real x, [])) :
    Json.Legible realText (Json.reals values) := by
  apply Json.Legible.list
  intro j hj
  obtain ⟨x, hx, rfl⟩ := List.mem_map.1 hj
  exact .real (htexts x hx)

theorem Column.legible_toJson {c : Column α}
    (htexts : c.AllNumbers fun x => Json.number? (realText x).toList = some (.real x, [])) :
    Json.Legible realText c.toJson := by
  cases c with
  | fixed values => exact legible_reals htexts
  | lists rows =>
    apply Json.Legible.list
    intro j hj
    obtain ⟨row, hrow, rfl⟩ := List.mem_map.1 hj
    exact legible_reals (htexts row hrow)

theorem Catalog.legible_toJson {β : Type} {entry : β → Json α} {c : Catalog β}
    (h : ∀ e ∈ c.entries, Json.Legible realText (entry e.2)) :
    Json.Legible realText (c.toJson entry) := by
  apply Json.Legible.object
  intro m hm
  obtain ⟨e, he, rfl⟩ := List.mem_map.1 hm
  exact h e he

theorem Extension.legible_toJson {t : Extension α} (htold : t.IsTold)
    (htexts : t.AllNumbers fun x => Json.number? (realText x).toList = some (.real x, [])) :
    Json.Legible realText t.toJson := by
  apply Json.Legible.object
  simp only [List.forall_mem_cons]
  refine ⟨.text t.name, Catalog.legible_toJson fun e he => ?_, Catalog.legible_toJson fun e he => ?_,
    Catalog.legible_toJson fun e he => Catalog.legible_toJson fun k hk => ?_, by simp⟩
  · exact Keyword.legible_toJson (htold.keywords e he) (htexts.keywords e he)
  · exact Column.legible_toJson (htexts.columns e he)
  · exact Keyword.legible_toJson (htold.columnKeywords e he k hk) (htexts.columnKeywords e he k hk)

/-! ### Files -/

namespace CalibrationFile

variable {file : CalibrationFile α}

/-- A file is read back from its value. -/
theorem ofJson?_toJson (htold : file.IsTold) (hfinite : file.AllNumbers fun x => Scalar.isFinite x) :
    ofJson? file.toJson = some file := by
  have hextensions : (file.extensions.map Extension.toJson).mapM Extension.ofJson? =
      some file.extensions :=
    mapM_map_eq_some fun t ht => Extension.ofJson?_toJson (htold t ht) (hfinite t ht)
  simp [toJson, ofJson?, Json.memberAs?, Json.memberOr?, Json.member?, Json.asText?, Json.asList?,
    hextensions]

theorem legible_toJson (htold : file.IsTold)
    (htexts : file.AllNumbers fun x => Json.number? (realText x).toList = some (.real x, [])) :
    Json.Legible realText file.toJson := by
  apply Json.Legible.object
  simp only [List.forall_mem_cons]
  refine ⟨.text file.origin, .list fun j hj => ?_, by simp⟩
  obtain ⟨t, ht, rfl⟩ := List.mem_map.1 hj
  exact Extension.legible_toJson (htold t ht) (htexts t ht)

/-- A document that names its origin is that of the file, wherever it was found. -/
theorem ofDocument_toJson (hnamed : file.origin ≠ "") (htold : file.IsTold)
    (hfinite : file.AllNumbers fun x => Scalar.isFinite x) (origin : String) :
    ofDocument origin (some file.toJson) = .ok file := by
  have hempty : file.origin.isEmpty = false := by simpa using hnamed
  simp [ofDocument, ofJson?_toJson htold hfinite, hempty]

/-- A file that names its origin is read back from its text, in either layout and wherever the text was
found. -/
theorem document_is_read_back (file : CalibrationFile α) (realText : α → String)
    (named : file.origin ≠ "") (told : file.IsTold)
    (finite : file.AllNumbers fun x => Scalar.isFinite x)
    (texts : file.AllNumbers fun x => Json.number? (realText x).toList = some (.real x, []))
    (origin : String) :
    ofText origin (file.toJson.render realText) = .ok file ∧
      ofText origin (file.toJson.pretty realText 0) = .ok file := by
  have hlegible : Json.Legible realText file.toJson := legible_toJson told texts
  have hdocument := ofDocument_toJson named told finite origin
  rw [ofText, ofText, Json.parse?_render hlegible, Json.parse?_pretty hlegible 0]
  exact ⟨hdocument, hdocument⟩

/-- A file with keywords of every kind and columns of both shapes; one real number is whole, and one text
is a numeral. -/
def allKinds : CalibrationFile Float where
  origin := "detector"
  extensions := [{
    name := "MATRIX"
    keywords := ⟨[("CHANNELS", .integer 2), ("EXPOSURE", .real 2), ("FINAL", .flag true),
      ("TELESCOP", .text "12")], by decide⟩
    columns := ⟨[("ENERG_LO", .fixed [0.5, 2]), ("F_CHAN", .fixed []),
      ("MATRIX", .lists [[], [2.5]])], by decide⟩
    columnKeywords := ⟨[("ENERG_LO", ⟨[("TUNIT", .text "keV\"\n")], by decide⟩)], by decide⟩ }]

theorem allKinds_allNumbers {P : Float → Prop} (h : ∀ x ∈ [(0.5 : Float), 2, 2.5], P x) :
    allKinds.AllNumbers P := by
  simp only [List.forall_mem_cons] at h
  intro t ht
  obtain rfl := List.mem_singleton.1 ht
  constructor <;> simp [Keyword.AllNumbers, Column.AllNumbers, h]

theorem allKinds_isTold : allKinds.IsTold := by
  intro t ht
  obtain rfl := List.mem_singleton.1 ht
  constructor <;> simp [Keyword.FitsWord, Scalar.minWord, Scalar.maxWord]

/-- A double is read from its document text if that is the text of a decimal with this value. -/
theorem number?_documentText {x : Float} (text : String) (d : Decimal)
    (htext : Double.documentText x = text)
    (hread : Json.number? (α := Float) text.toList = some (.real (Numeral.decimal false d).value, []))
    (hvalue : (Numeral.decimal false d).value = x) :
    Json.number? (Double.documentText x).toList = some (.real x, []) := by
  rw [htext, hread, hvalue]

theorem all_kinds_are_read_back :
    ofText "elsewhere" (allKinds.toJson.render Double.documentText) = .ok allKinds ∧
      ofText "elsewhere" (allKinds.toJson.pretty Double.documentText 0) = .ok allKinds := by
  have hfinite : ∀ x ∈ [(0.5 : Float), 2, 2.5], Scalar.isFinite x := by decide
  have htexts : ∀ x ∈ [(0.5 : Float), 2, 2.5],
      Json.number? (Double.documentText x).toList = some (.real x, []) := by
    simp only [List.forall_mem_cons]
    refine ⟨?_, ?_, ?_, by simp⟩
    · exact number?_documentText "0.5" ⟨5, -1⟩ (by decide +kernel) (by rfl) rfl
    · exact number?_documentText "2.0" ⟨20, -1⟩ (by decide +kernel) (by rfl) rfl
    · exact number?_documentText "2.5" ⟨25, -1⟩ (by decide +kernel) (by rfl) rfl
  exact document_is_read_back allKinds Double.documentText (by decide) allKinds_isTold
    (allKinds_allNumbers hfinite) (allKinds_allNumbers htexts) "elsewhere"

end CalibrationFile

end SpectralResponse
