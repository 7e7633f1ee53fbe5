import SpectralResponse.Text

/-!
# Catalogs

Entries under names, in ascending order of the names and at most one to a name. The order is part of
the type, so two catalogs with the same entries are equal. Entries are looked up without regard to the
case of letters, and the first name that matches counts.
-/

namespace SpectralResponse

/-- Entries in ascending order of their names. -/
structure Catalog (β : Type) where
  /-- The entries with their names. -/
  entries : List (String × β)
  /-- Each name comes before all later ones. -/
  ascending : entries.Pairwise (fun a b => a.1 < b.1)

namespace Catalog

variable {β : Type}

/-- The catalog without entries. -/
def empty : Catalog β := ⟨[], .nil⟩

instance : Inhabited (Catalog β) := ⟨empty⟩

/-- Puts an entry at its place in a list in order, in place of an entry of the same name. -/
def insertEntry (name : String) (entry : β) : List (String × β) → List (String × β)
  | [] => [(name, entry)]
  | (other, present) :: rest =>
    if name < other then (name, entry) :: (other, present) :: rest
    else if name = other then (name, entry) :: rest
    else (other, present) :: insertEntry name entry rest

theorem mem_insertEntry {name : String} {entry : β} {entries : List (String × β)} {e : String × β}
    (h : e ∈ insertEntry name entry entries) : e = (name, entry) ∨ e ∈ entries := by
  induction entries with
  | nil => simpa [insertEntry] using h
  | cons head rest ih =>
    unfold insertEntry at h
    split at h
    · simpa using h
    · split at h <;> grind

theorem ascending_insertEntry {name : String} {entry : β} {entries : List (String × β)}
    (h : entries.Pairwise (fun a b => a.1 < b.1)) :
    (insertEntry name entry entries).Pairwise (fun a b => a.1 < b.1) := by
  induction entries with
  | nil => simp [insertEntry]
  | cons head rest ih =>
    obtain ⟨other, present⟩ := head
    obtain ⟨above, tail⟩ := List.pairwise_cons.1 h
    unfold insertEntry
    split
    next below =>
      refine List.pairwise_cons.2 ⟨fun e he => ?_, h⟩
      rcases List.mem_cons.1 he with rfl | he
      · exact below
      · exact String.lt_trans below (above e he)
    next notBelow =>
      split
      next same =>
        subst same
        exact List.pairwise_cons.2 ⟨above, tail⟩
      next different =>
        refine List.pairwise_cons.2 ⟨fun e he => ?_, ih tail⟩
        rcases mem_insertEntry he with rfl | he
        · show other < name
          grind
        · exact above e he

/-- Puts in an entry, in place of an entry of the same name. -/
def insert (name : String) (entry : β) (c : Catalog β) : Catalog β :=
  ⟨insertEntry name entry c.entries, ascending_insertEntry c.ascending⟩

/-- Puts in entries one after another. -/
def ofList (entries : List (String × β)) : Catalog β :=
  entries.foldl (fun c (name, entry) => c.insert name entry) empty

/-- The entry of exactly this name. -/
def get? (name : String) (c : Catalog β) : Option β := (c.entries.find? (·.1 == name)).map Prod.snd

/-- The first entry whose name agrees up to the case of letters. -/
def find? (name : String) (c : Catalog β) : Option β :=
  (c.entries.find? fun e => Text.sameFolded e.1 name).map Prod.snd

end Catalog

end SpectralResponse
