import SpectralResponse.Proofs.Grid.Reversed
import SpectralResponse.Table.Basic

/-!
# Tables with their rows in reverse

The rows of a table are reversed by reversing all its columns together; keywords stay. What is looked up in
such a table is then the reverse of what was looked up before, or the same if it does not belong to rows.

## What is proved

* `fixedColumn_reverseRows`, `rowField_reverseRows` — columns and fields of the rows are found in reverse.
* `Column.row_reverse`, `RowField.row_reverse` — a row is found as far from the other end.
* `extension?_reverseRows` — tables are found under the same names.
-/

namespace SpectralResponse

variable {α : Type}

/-! ### Reversing rows -/

/-- The catalog with other entries under the same names. -/
def Catalog.map {β γ : Type} (f : β → γ) (c : Catalog β) : Catalog γ where
  entries := c.entries.map fun e => (e.1, f e.2)
  ascending := List.pairwise_map.2 c.ascending

/-- The cells of the rows in reverse. -/
def Column.reverse : Column α → Column α
  | .fixed values => .fixed values.reverse
  | .lists rows => .lists rows.reverse

/-- The field with the cells of the rows in reverse. -/
def RowField.reverse : RowField α → RowField α
  | .column cells => .column cells.reverse
  | .constant value => .constant value

/-- The table with its rows in reverse. -/
def Extension.reverseRows (t : Extension α) : Extension α := { t with columns := t.columns.map Column.reverse }

/-- The table has one of the names. -/
def Extension.isNamed (names : List String) (t : Extension α) : Bool :=
  names.any fun candidate => Text.sameFolded (Text.trim t.name) candidate

/-- The file with the rows of the tables of some names in reverse. -/
def CalibrationFile.reverseRows (file : CalibrationFile α) (names : List String) : CalibrationFile α where
  origin := file.origin
  extensions := file.extensions.map fun t => if t.isNamed names then t.reverseRows else t

/-! ### Cells -/

namespace Column

@[simp]
theorem rowCount_reverse (c : Column α) : c.reverse.rowCount = c.rowCount := by
  cases c with
  | fixed values => exact List.length_reverse
  | lists rows => exact List.length_reverse

/-- A row is found as far from the other end. -/
theorem row_reverse (c : Column α) {i : Nat} (h : i < c.rowCount) :
    c.reverse.row i = c.row (c.rowCount - 1 - i) := by
  cases c with
  | fixed values =>
    show values.reverse[i]?.toList = values[values.length - 1 - i]?.toList
    rw [List.getElem?_reverse h]
  | lists rows =>
    show rows.reverse[i]?.getD [] = rows[rows.length - 1 - i]?.getD []
    rw [List.getElem?_reverse h]

end Column

theorem Catalog.find?_map {β γ : Type} (f : β → γ) (c : Catalog β) (name : String) :
    (c.map f).find? name = (c.find? name).map f := by
  rw [Catalog.find?, Catalog.map, List.find?_map, Catalog.find?, Option.map_map, Option.map_map]
  rfl

/-! ### Look-up -/

namespace Extension

variable (t : Extension α) (name : String)

theorem column?_reverseRows : t.reverseRows.column? name = (t.column? name).map Column.reverse :=
  Catalog.find?_map _ _ _

/-- A column is found in reverse. -/
theorem fixedColumn?_reverseRows :
    Except.Alike (fun xs ys => xs = ys.map List.reverse) (t.reverseRows.fixedColumn? name : Except (Fault α) _)
      (t.fixedColumn? name : Except (Fault α) _) := by
  rw [fixedColumn?, fixedColumn?, column?_reverseRows]
  cases t.column? name with
  | none => exact .ok rfl
  | some cells =>
    cases cells with
    | fixed values => exact .ok rfl
    | lists rows => exact .error _ _

/-- A column that must be there is found in reverse. -/
theorem fixedColumn_reverseRows :
    Except.Alike (fun xs ys => xs = ys.reverse) (t.reverseRows.fixedColumn name : Except (Fault α) _)
      (t.fixedColumn name : Except (Fault α) _) := by
  rw [fixedColumn, fixedColumn]
  refine (t.fixedColumn?_reverseRows name).bind fun xs ys hxs => ?_
  rw [hxs]
  cases ys with
  | none => exact .error _ _
  | some values => exact .ok rfl

variable [Scalar α]

/-- A field is found with its cells in reverse. -/
theorem rowField_reverseRows :
    Except.Alike (fun f g => f = RowField.reverse g) (t.reverseRows.rowField name : Except (Fault α) _)
      (t.rowField name : Except (Fault α) _) := by
  have hfield : t.reverseRows.rowField? name = (t.rowField? name).map RowField.reverse := by
    rw [rowField?, rowField?, column?_reverseRows]
    cases t.column? name with
    | some cells => rfl
    | none =>
      show (t.scalar? name).map RowField.constant = _
      cases t.scalar? name <;> rfl
  rw [rowField, rowField, hfield]
  cases t.rowField? name with
  | none => exact .error _ _
  | some field => exact .ok rfl

end Extension

/-! ### Files -/

namespace CalibrationFile

variable (file : CalibrationFile α) (names : List String)

/-- Tables are found under the same names, with their rows in reverse if they have one of the names. -/
theorem extension?_reverseRows (candidates : List String) :
    (file.reverseRows names).extension? candidates =
      (file.extension? candidates).map fun t => if t.isNamed names then t.reverseRows else t := by
  have hname (t : Extension α) : (if t.isNamed names then t.reverseRows else t).name = t.name := by
    split
    · rfl
    · rfl
  simp only [extension?, reverseRows, List.map_findSome?, List.find?_map, Function.comp_def, hname]

/-- A table that is found has one of the names. -/
theorem exists_name_of_extension? {candidates : List String} {t : Extension α}
    (h : file.extension? candidates = some t) :
    ∃ candidate ∈ candidates, Text.sameFolded (Text.trim t.name) candidate = true := by
  obtain ⟨candidate, hmem, hfind⟩ := List.exists_of_findSome?_eq_some h
  have hname := List.find?_some hfind
  exact ⟨candidate, hmem, hname⟩

/-- A table that is found under the names has its rows in reverse. -/
theorem extension_reverseRows_self :
    Except.Alike (fun t' t => t' = Extension.reverseRows t) ((file.reverseRows names).extension names)
      (file.extension names) := by
  rw [extension, extension, extension?_reverseRows]
  cases htable : file.extension? names with
  | none => exact .error _ _
  | some t =>
    obtain ⟨candidate, hmem, hname⟩ := exists_name_of_extension? file htable
    have hnamed : t.isNamed names = true := List.any_eq_true.2 ⟨candidate, hmem, hname⟩
    rw [Option.map_some, if_pos hnamed]
    exact .ok rfl

/-- A table that is found under other names is the same. -/
theorem extension_reverseRows_of_disjoint {candidates : List String}
    (h : ∀ candidate ∈ candidates, ∀ name ∈ names, Text.sameFolded candidate name = false) :
    Except.Alike Eq ((file.reverseRows names).extension candidates) (file.extension candidates) := by
  rw [extension, extension, extension?_reverseRows]
  cases htable : file.extension? candidates with
  | none => exact .error _ _
  | some t =>
    obtain ⟨candidate, hmem, hname⟩ := exists_name_of_extension? file htable
    have hnamed : ¬ t.isNamed names = true := by
      intro hnamed
      obtain ⟨name, hmem', hname'⟩ := List.any_eq_true.1 hnamed
      have hdiffer := h candidate hmem name hmem'
      simp only [Text.sameFolded, beq_iff_eq, beq_eq_false_iff_ne] at hname hname' hdiffer
      exact hdiffer (hname.symm.trans hname')
    rw [Option.map_some, if_neg hnamed]
    exact .ok rfl

end CalibrationFile

/-! ### Tables of energy bins -/

variable [Scalar α]

/-- Where the energy bins of a table can be read, their ends are apart. -/
def Extension.EnergiesApart (t : Extension α) : Prop :=
  ∀ lo hi unit, t.fixedColumn "ENERG_LO" = .ok lo → t.fixedColumn "ENERG_HI" = .ok hi →
    t.columnUnit "ENERG_LO" .kev = .ok unit → EndsApart ((unit.binsInKev lo hi).map Bin.lo)

/-- Where the energy bins of the table under some names can be read, their ends are apart. -/
def CalibrationFile.EnergiesApart (file : CalibrationFile α) (names : List String) : Prop :=
  ∀ t, file.extension names = .ok t → t.EnergiesApart

end SpectralResponse
