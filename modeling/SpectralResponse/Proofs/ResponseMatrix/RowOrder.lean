import SpectralResponse.Proofs.ResponseMatrix.Groups
import SpectralResponse.Proofs.Table.Reversed

/-!
# Matrices stored from the other end

The rows of a matrix and the rows of its channel energies may be stored in either order, independently of each
other. When the rows of the matrix come from the other end, each row is read where it stands now, and all of
them are turned around together with the energy bins. When the rows of channel energies do, the numbers of the
channels tell, and energies and numbers are put in the same order as before. Either way the matrix is the same;
it only remembers the other direction.

## What is proved

* `GroupFields.HasRows.alike_readRow_reverse` — one row: it is read alike as far from the other end.
* `GroupFields.HasRows.alike_readRows_reverse` — all rows: they are read alike in reverse.
* `Redistribution.alike_read_reverse_energies`, `Redistribution.alike_read_reverse_bounds` — the same matrix is
  read, up to the direction it remembers.
-/

namespace SpectralResponse

variable {α : Type} [Scalar α]

/-! ### Rows of groups -/

omit [Scalar α] in
/-- The field has a cell for each of some rows, if it is stored row by row. -/
def RowField.HasRows (rows : Nat) : RowField α → Prop
  | .column cells => cells.rowCount = rows
  | .constant _ => True

omit [Scalar α] in
theorem RowField.row_reverse {rows : Nat} {field : RowField α} (h : field.HasRows rows) {i : Nat} (hi : i < rows) :
    field.reverse.row i = field.row (rows - 1 - i) := by
  cases field with
  | constant value => rfl
  | column cells =>
    obtain rfl : cells.rowCount = rows := h
    exact cells.row_reverse hi

namespace GroupFields

omit [Scalar α] in
/-- The fields with the cells of the rows in reverse. -/
def reverse (fields : GroupFields α) : GroupFields α :=
  ⟨fields.counts.reverse, fields.starts.reverse, fields.spans.reverse, fields.weights.reverse⟩

omit [Scalar α] in
/-- All fields have a cell for each row, if they are stored row by row. -/
structure HasRows (rows : Nat) (fields : GroupFields α) : Prop where
  /-- The numbers of groups. -/
  counts : fields.counts.HasRows rows
  /-- The first channels. -/
  starts : fields.starts.HasRows rows
  /-- The numbers of channels. -/
  spans : fields.spans.HasRows rows
  /-- The weights. -/
  weights : fields.weights.rowCount = rows

end GroupFields

/-- Whether a cell holds a number of things does not depend on its row. -/
theorem alike_countOfCell (field : String) (row row' : Nat) (value : α) :
    Except.Alike Eq (countOfCell field row value) (countOfCell field row' value) := by
  rw [countOfCell, countOfCell]
  split
  · exact .ok rfl
  · exact .error _ _

/-- The groups that are read do not depend on the number of the row. -/
theorem alike_readGroups (row row' : Nat) (offset : Int) (starts spans : List α) (left group used : Nat)
    (weights : List α) :
    Except.Alike Eq (readGroups row offset starts spans left group used weights)
      (readGroups row' offset starts spans left group used weights) := by
  induction left generalizing group used weights with
  | zero => exact .ok rfl
  | succ left ih =>
    rw [readGroups, readGroups]
    split
    · refine (alike_countOfCell "N_CHAN" row row' _).bind fun span' span hspan => ?_
      subst hspan
      dsimp only
      split
      · exact .error _ _
      split
      · exact .ok rfl
      · refine (ih _ _ _).bind fun rest' rest hrest => ?_
        subst hrest
        exact .ok rfl
    · exact .ok rfl

/-- A row is read as far from the other end. -/
theorem GroupFields.HasRows.alike_readRow_reverse {rows : Nat} {fields : GroupFields α} (h : fields.HasRows rows)
    (offset : Int) {i : Nat} (hi : i < rows) :
    Except.Alike Eq (fields.reverse.readRow offset i) (fields.readRow offset (rows - 1 - i)) := by
  have hweights : fields.weights.reverse.row i = fields.weights.row (rows - 1 - i) := by
    rw [← h.weights] at hi ⊢
    exact fields.weights.row_reverse hi
  rw [GroupFields.readRow, GroupFields.readRow]
  simp only [GroupFields.reverse, RowField.row_reverse h.counts hi, RowField.row_reverse h.starts hi,
    RowField.row_reverse h.spans hi, hweights]
  refine (alike_countOfCell "N_GRP" _ _ _).bind fun count' count hcount => ?_
  subst hcount
  exact alike_readGroups _ _ _ _ _ _ _ _ _

/-- All rows are read alike in reverse. -/
theorem GroupFields.HasRows.alike_readRows_reverse {rows : Nat} {fields : GroupFields α} (h : fields.HasRows rows)
    (offset : Int) :
    Except.Alike (fun xs ys => xs = ys.reverse) ((List.range rows).mapM (fields.reverse.readRow offset))
      ((List.range rows).mapM (fields.readRow offset)) := by
  have hrange : (List.range rows).reverse = (List.range rows).map (rows - 1 - ·) := by
    refine List.ext_getElem (by simp) fun i hi hi' => ?_
    simp
  have hback : Except.Alike (List.Forall₂ Eq) ((List.range rows).mapM (fields.reverse.readRow offset))
      ((List.range rows).reverse.mapM (fields.readRow offset)) := by
    refine Except.alike_mapM ?_
    rw [hrange, List.forall₂_map_right_iff, List.forall₂_same]
    exact fun i hi => h.alike_readRow_reverse offset (List.mem_range.1 hi)
  refine hback.trans (Except.alike_mapM_reverse _ _) fun xs ys zs hxs hys => ?_
  rw [List.forall₂_eq_eq_eq] at hxs
  rw [hxs, hys]

namespace Redistribution

/-! ### Matrices with their rows from the other end -/

omit [Scalar α] in
theorem requireFieldRows_reverse (origin name : String) (expected : Nat) (field : RowField α) :
    requireFieldRows origin name expected field.reverse = requireFieldRows origin name expected field := by
  cases field with
  | constant value => rfl
  | column cells =>
    show requireRows origin name expected cells.reverse = requireRows origin name expected cells
    rw [requireRows, requireRows, Column.rowCount_reverse]

omit [Scalar α] in
theorem hasRows_of_requireFieldRows {origin name : String} {expected : Nat} {field : RowField α}
    (h : requireFieldRows origin name expected field = .ok ()) : field.HasRows expected := by
  cases field with
  | constant value => trivial
  | column cells =>
    have hlen : requireLength (fun e a => (.matrix (.columnRows origin name e a) : Fault α)) expected
        cells.rowCount = .ok () := h
    exact (Except.requireLength_eq_ok.1 hlen).symm

/-- The fields of the groups are found with their cells in reverse, and they have a cell for each row. -/
theorem alike_groupFields_reverse (origin : String) (t : Extension α) (rows : Nat) :
    Except.Alike (fun f g => f = GroupFields.reverse g ∧ g.HasRows rows) (groupFields origin t.reverseRows rows)
      (groupFields origin t rows) := by
  unfold groupFields
  refine (t.rowField_reverseRows "N_GRP").bind fun counts' counts hcounts => ?_
  refine (t.rowField_reverseRows "F_CHAN").bind fun starts' starts hstarts => ?_
  refine (t.rowField_reverseRows "N_CHAN").bind fun spans' spans hspans => ?_
  subst hcounts hstarts hspans
  rw [Extension.column?_reverseRows]
  cases t.column? "MATRIX" with
  | none => exact .error _ _
  | some weights =>
    simp only [Option.map_some, requireFieldRows_reverse, requireRows, Column.rowCount_reverse]
    refine .bind_self_of_ok fun _ hcounts => .bind_self_of_ok fun _ hstarts => .bind_self_of_ok fun _ hspans => ?_
    refine .bind_self_of_ok fun _ hweights => .ok ⟨rfl, ?_⟩
    exact ⟨hasRows_of_requireFieldRows hcounts, hasRows_of_requireFieldRows hstarts,
      hasRows_of_requireFieldRows hspans, (Except.requireLength_eq_ok.1 hweights).symm⟩

/-- The rows that are stored do not depend on how the matrix was stored. -/
theorem alike_ofRawRows (source : MatrixSource) (energies channels : Grid α) (raw : List (List (RawGroup α)))
    (layout layout' : MatrixLayout α) :
    Noted.Alike (fun m' m => m' = { m with layout := layout' } ∧ m.layout = layout)
      (ofRawRows source energies channels raw layout') (ofRawRows source energies channels raw layout) := by
  unfold ofRawRows
  exact .lift_bind_self fun _ => .warnIf_bind (.warnIf_bind (.guard (.pure ⟨rfl, rfl⟩)))

omit [Scalar α] in
/-- The matrix as it is read when the rows of energy bins come from the other end. -/
def flipEnergies (m : Redistribution α) : Redistribution α :=
  { m with layout := { m.layout with energiesReversed := !m.layout.energiesReversed } }

omit [Scalar α] in
@[simp]
theorem flipEnergies_flipEnergies (m : Redistribution α) : m.flipEnergies.flipEnergies = m := by
  simp [flipEnergies]

omit [Scalar α] in
/-- The matrix as it is read when the rows of channel energies come from the other end. -/
def flipBounds (m : Redistribution α) : Redistribution α :=
  { m with layout := { m.layout with boundsReversed := !m.layout.boundsReversed } }

omit [Scalar α] in
@[simp]
theorem flipBounds_flipBounds (m : Redistribution α) : m.flipBounds.flipBounds = m := by simp [flipBounds]

/-- The rows are read where they stand now and turned around with the energy bins. -/
theorem alike_readOnAxes_reverse_energies (origin : String) (t : Extension α) (energy : Canonical α)
    (bounds : ChannelBounds α) (offset : Int) :
    Noted.Alike (fun m' m => m' = flipEnergies m) (readOnAxes origin t.reverseRows energy.flip bounds offset)
      (readOnAxes origin t energy bounds offset) := by
  unfold readOnAxes
  have hfields := alike_groupFields_reverse origin t energy.grid.length
  refine (Noted.Alike.lift hfields).bind fun fields' fields hfields => ?_
  obtain ⟨rfl, hrows⟩ := hfields
  refine (Noted.Alike.mapM_lift (hrows.alike_readRows_reverse offset)).bind fun xs ys hxs => ?_
  subst hxs
  refine .warnIf_bind ?_
  simp only [List.map_reverse, arrange_flip_reverse]
  refine (Noted.Alike.inDocument (alike_ofRawRows _ _ _ _ _ _)).bind fun m' m hm => .pure ?_
  obtain ⟨rfl, hlayout⟩ := hm
  rw [flipEnergies, hlayout]
  rfl

/-- The same matrix is read when the rows of energy bins come from the other end. -/
theorem alike_read_reverse_energies [Std.Asymm ((· < ·) : α → α → Prop)] {file : CalibrationFile α}
    (h : file.EnergiesApart ["SPECRESP MATRIX", "MATRIX"]) :
    Noted.Alike (fun m' m => m' = flipEnergies m) (read (file.reverseRows ["SPECRESP MATRIX", "MATRIX"]))
      (read file) := by
  have hother : ∀ candidate ∈ ["EBOUNDS"], ∀ name ∈ ["SPECRESP MATRIX", "MATRIX"],
      Text.sameFolded candidate name = false := by decide +kernel
  unfold read
  refine .lift_bind_of_ok (file.extension_reverseRows_self _) fun t' t ht ht' => ?_
  subst ht'
  refine .lift_bind_of_ok (file.extension_reverseRows_of_disjoint _ hother) fun bounds' bounds _ hbounds => ?_
  subst hbounds
  refine .lift_bind_of_ok (t.fixedColumn_reverseRows "ENERG_LO") fun lo' lo hlo hlo' => ?_
  refine .lift_bind_of_ok (t.fixedColumn_reverseRows "ENERG_HI") fun hi' hi hhi hhi' => ?_
  subst hlo' hhi'
  refine .lift_bind_of_ok (Except.alike_self (fun _ => rfl) (t.columnUnit "ENERG_LO" .kev)) fun unit _ hunit h' => ?_
  subst h'
  refine .lift_bind_of_ok (canonicalize_reverse (h t ht lo hi unit hlo hhi hunit)).mapError fun c' c _ hc => ?_
  subst hc
  refine .lift_bind_self fun bounds => ?_
  have hdeclared : t.reverseRows.integer? "DETCHANS" = t.integer? "DETCHANS" := rfl
  rw [hdeclared]
  cases t.integer? "DETCHANS" with
  | none => exact alike_readOnAxes_reverse_energies _ _ _ _ _
  | some declared => exact .warnIf_bind (alike_readOnAxes_reverse_energies _ _ _ _ _)

end Redistribution

/-! ### Channel energies with their rows from the other end -/

/-- The numbers of the channels are stored, and those of the first and the last row differ. -/
def Extension.NumbersApart (t : Extension α) : Prop :=
  ∃ numbers, t.column? "CHANNEL" = some (.fixed numbers) ∧ EndsApart numbers

namespace ChannelBounds

/-- Numbers with ends apart run downwards from one end and upwards from the other. -/
theorem numbersRunDown_reverse [Std.Asymm ((· < ·) : α → α → Prop)] {numbers : List α}
    (h : EndsApart numbers) : numbersRunDown numbers.reverse = !numbersRunDown numbers := by
  have heq (xs : List α) : numbersRunDown xs = runsDown (xs.map fun x => Bin.mk x x) := by
    cases xs with
    | nil => rfl
    | cons x xs => simp [numbersRunDown, runsDown, List.getLast?_map, Option.any_map]
  rw [heq, heq, List.map_reverse]
  refine runsDown_reverse ?_
  rwa [List.map_map, show Bin.lo ∘ (fun x : α => Bin.mk x x) = id from rfl, List.map_id]

omit [Scalar α] in
/-- The channel axis as it is read when the rows come from the other end. -/
def flip (bounds : ChannelBounds α) : ChannelBounds α := { bounds with rowsReversed := !bounds.rowsReversed }

/-- The same channel axis is read from either end. -/
theorem alike_read_reverse [Std.Asymm ((· < ·) : α → α → Prop)] {t : Extension α} (h : t.NumbersApart) :
    Except.Alike (fun b' b => b' = flip b) (read t.reverseRows) (read t) := by
  obtain ⟨numbers, hnumbers, hapart⟩ := h
  have hfound : t.fixedColumn? "CHANNEL" = (.ok (some numbers) : Except (Fault α) _) := by
    rw [Extension.fixedColumn?, hnumbers]
  have hfound' : t.reverseRows.fixedColumn? "CHANNEL" = (.ok (some numbers.reverse) : Except (Fault α) _) := by
    rw [Extension.fixedColumn?, Extension.column?_reverseRows, hnumbers]
    rfl
  have hturn (xs : List α) : (if numbersRunDown numbers.reverse then xs.reverse.reverse else xs.reverse) =
      if numbersRunDown numbers then xs.reverse else xs := by
    rw [numbersRunDown_reverse hapart]
    cases numbersRunDown numbers <;> simp
  unfold read
  refine (t.fixedColumn_reverseRows "E_MIN").bind fun eMin' eMin hmin => ?_
  refine (t.fixedColumn_reverseRows "E_MAX").bind fun eMax' eMax hmax => .bind_self fun unit => ?_
  subst hmin hmax
  refine Except.Alike.bind (R := fun x y => x = some numbers.reverse ∧ y = some numbers) ?_ fun x y hxy => ?_
  · rw [hfound, hfound']
    exact .ok ⟨rfl, rfl⟩
  obtain ⟨rfl, rfl⟩ := hxy
  simp only [Option.getD_some, List.length_reverse, hturn]
  refine .bind_self fun _ => .bind_self fun canonical => .ok ?_
  rw [numbersRunDown_reverse hapart]
  rfl

end ChannelBounds

/-- Where channel energies are stored, they have numbers with ends apart. -/
def CalibrationFile.NumbersApart (file : CalibrationFile α) : Prop :=
  ∀ t, file.extension ["EBOUNDS"] = .ok t → t.NumbersApart

namespace Redistribution

/-- The direction of the rows of channel energies is remembered, and nothing else depends on it. -/
theorem alike_readOnAxes_flip_bounds (origin : String) (t : Extension α) (energy : Canonical α)
    (bounds : ChannelBounds α) (offset : Int) :
    Noted.Alike (fun m' m => m' = flipBounds m) (readOnAxes origin t energy bounds.flip offset)
      (readOnAxes origin t energy bounds offset) := by
  unfold readOnAxes
  refine .lift_bind_self fun fields => ?_
  refine (Noted.Alike.mapM_lift (Except.alike_self (R := Eq) (fun _ => rfl) _)).bind fun xs ys hxs => ?_
  subst hxs
  refine .warnIf_bind ((Noted.Alike.inDocument (alike_ofRawRows _ _ _ _ _ _)).bind fun m' m hm => .pure ?_)
  obtain ⟨rfl, hlayout⟩ := hm
  rw [flipBounds, hlayout]
  rfl

/-- The same matrix is read when the rows of channel energies come from the other end. -/
theorem alike_read_reverse_bounds [Std.Asymm ((· < ·) : α → α → Prop)] {file : CalibrationFile α}
    (h : file.NumbersApart) :
    Noted.Alike (fun m' m => m' = flipBounds m) (read (file.reverseRows ["EBOUNDS"])) (read file) := by
  have hother : ∀ candidate ∈ ["SPECRESP MATRIX", "MATRIX"], ∀ name ∈ ["EBOUNDS"],
      Text.sameFolded candidate name = false := by decide +kernel
  unfold read
  refine .lift_bind_of_ok (file.extension_reverseRows_of_disjoint _ hother) fun t' t _ ht => ?_
  subst ht
  refine .lift_bind_of_ok (file.extension_reverseRows_self _) fun bounds' bounds hbounds hbounds' => ?_
  subst hbounds'
  refine .lift_bind_self fun lo => .lift_bind_self fun hi => .lift_bind_self fun unit => ?_
  refine .lift_bind_self fun energy => ?_
  refine .lift_bind_of_ok (ChannelBounds.alike_read_reverse (h bounds hbounds)) fun axis' axis _ haxis => ?_
  subst haxis
  have hoffset : channelOffset t' bounds.reverseRows axis.flip.firstChannel =
      channelOffset t' bounds axis.firstChannel := by
    rw [channelOffset, channelOffset, Extension.column?_reverseRows, Option.isSome_map]
    rfl
  rw [hoffset]
  cases t'.integer? "DETCHANS" with
  | none => exact alike_readOnAxes_flip_bounds _ _ _ _ _
  | some declared => exact .warnIf_bind (alike_readOnAxes_flip_bounds _ _ _ _ _)

end Redistribution

end SpectralResponse
