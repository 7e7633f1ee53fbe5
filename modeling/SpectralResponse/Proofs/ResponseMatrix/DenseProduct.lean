import SpectralResponse.Proofs.ResponseMatrix.WellFormed
import Mathlib.Algebra.BigOperators.Group.Finset.Basic

/-!
# Folding as a product

A matrix is folded group by group, straight into the output: each group adds to the stretch of the output that it
spans, groups may overlap, and energy bins with a value of zero are skipped. `foldInto` does this in place. It ends
without an outcome when a group reaches beyond the output, and with a fault when the lengths do not fit.

On a matrix whose groups lie inside the channels there always is an outcome, and what it adds is the product of the
input with the table of all rows: to each channel the sum, over the energy bins, of the value times what the dense row
has there.

## What is proved

* `perform_foldInto` — folding in place leaves what `fold?` gives, and the output as it was when that fails.
* `response_eq_product` — what a channel gets from the groups is its entry in the product with the dense rows.
* `fold_is_dense_product` — both, for every matrix whose groups lie inside the channels.
-/

namespace SpectralResponse

/-! ### Computing in place -/

/-- A computation that changes a row in place. Where it reaches beyond the row, there is no outcome. -/
abbrev RowEdit (α β : Type) := ExceptT (Fault α) (StateT (List α) Option) β

namespace RowEdit

variable {α : Type}

/-- Carries out a computation: its answer, and the row it leaves. -/
def perform {β : Type} (edit : RowEdit α β) (row : List α) : Option (Except (Fault α) β × List α) := edit.run.run row

/-- What comes after a computation that succeeds goes on from the row it leaves. -/
theorem perform_bind {β γ : Type} (edit : RowEdit α β) (f : β → RowEdit α γ) (row : List α) :
    (edit >>= f).perform row =
      match edit.perform row with
      | some (.ok b, next) => (f b).perform next
      | some (.error fault, next) => some (.error fault, next)
      | none => none := by
  simp only [perform, bind, ExceptT.bind, ExceptT.mk, ExceptT.run, StateT.run, StateT.bind]
  rcases edit row with _ | ⟨_ | _, _⟩ <;> rfl

theorem perform_get_bind {γ : Type} (f : List α → RowEdit α γ) (row : List α) :
    (get >>= f).perform row = (f row).perform row := rfl

/-- Goes on if a check passes. -/
def require (check : Except (Fault α) Unit) : RowEdit α Unit := liftM check

theorem perform_require_bind {γ : Type} (check : Except (Fault α) Unit) (f : Unit → RowEdit α γ) (row : List α) :
    (require check >>= f).perform row =
      match check with
      | .ok _ => (f ()).perform row
      | .error fault => some (.error fault, row) := by
  cases check <;> rfl

/-- Adds values to the stretch of the row from a position on. -/
def addSpan [Scalar α] (first : Nat) (values : List α) : RowEdit α Unit :=
  ExceptT.lift fun row => (addInside? first values row).map fun changed => ((), changed)

theorem perform_addSpan [Scalar α] (first : Nat) (values row : List α) :
    (addSpan first values).perform row = (addInside? first values row).map fun changed => (.ok (), changed) := by
  show (StateT.map Except.ok (fun row => (addInside? first values row).map fun changed => ((), changed)) :
    StateT (List α) Option (Except (Fault α) Unit)) row = _
  cases h : addInside? first values row <;> simp [StateT.map, h]

/-- A step for each element of a list, when each step changes the row and never fails. -/
theorem perform_forM {β : Type} {step : β → RowEdit α Unit} {step? : List α → β → Option (List α)}
    (hstep : ∀ x row, (step x).perform row = (step? row x).map fun changed => (.ok (), changed)) (xs : List β)
    (row : List α) : (xs.forM step).perform row = (xs.foldlM step? row).map fun changed => (.ok (), changed) := by
  induction xs generalizing row with
  | nil => rfl
  | cons x xs ih =>
    show (step x >>= fun _ => xs.forM step).perform row = _
    rw [perform_bind, hstep, List.foldlM_cons]
    cases step? row x with
    | none => rfl
    | some changed => exact ih changed

end RowEdit

/-! ### Folding in place -/

namespace Redistribution

section

variable {α : Type} [Scalar α]

/-- Adds the response of a row to the given value in place; a value of zero is skipped. -/
def foldRowInto (value : α) (groups : List (ResponseGroup α)) : RowEdit α Unit :=
  if value == 0 then pure ()
  else groups.forM fun g => RowEdit.addSpan g.first (g.weights.map (value * ·))

/-- Adds the response to one value for each energy bin to the row in place, which has one value for each channel. -/
def foldInto (m : Redistribution α) (input : List α) : RowEdit α Unit := do
  RowEdit.require (requireLength (fun e a => .matrix (.foldInput e a)) m.energyCount input.length)
  let output ← get
  RowEdit.require (requireLength (fun e a => .matrix (.foldOutput e a)) m.channelCount output.length)
  (input.zip m.rows).forM fun (value, groups) => foldRowInto value groups

theorem perform_foldRowInto (value : α) (groups : List (ResponseGroup α)) (row : List α) :
    (foldRowInto value groups).perform row = (foldRow? value groups row).map fun changed => (.ok (), changed) := by
  rw [foldRowInto, foldRow?]
  split
  · rfl
  · exact RowEdit.perform_forM (fun g row => RowEdit.perform_addSpan _ _ row) groups row

/-- Folding in place leaves what folding gives, or, if the lengths do not fit, the output as it was. -/
theorem perform_foldInto (m : Redistribution α) (input output : List α) :
    (m.foldInto input).perform output =
      match m.fold? input output with
      | .ok counts? => counts?.map fun counts => (.ok (), counts)
      | .error fault => some (.error fault, output) := by
  rw [foldInto, RowEdit.perform_require_bind, fold?]
  cases requireLength (fun e a => Fault.matrix (.foldInput e a)) m.energyCount input.length with
  | error fault => rfl
  | ok _ =>
    rw [RowEdit.perform_get_bind, RowEdit.perform_require_bind]
    cases requireLength (fun e a => Fault.matrix (α := α) (.foldOutput e a)) m.channelCount output.length with
    | error fault => rfl
    | ok _ =>
      exact RowEdit.perform_forM
        (fun (row : α × List (ResponseGroup α)) output => perform_foldRowInto row.1 row.2 output) _ output

end

/-! ### The product with the dense rows -/

variable {K : Type} [Field K] [LinearOrder K] [FloorRing K] [Roots K] {m : Redistribution K}

/-- The entry of the dense row of an energy bin at a channel. -/
def entry (m : Redistribution K) (bin channel : Nat) : K := (m.denseRow (m.rows.getD bin [])).getD channel 0

theorem entry_eq_responseAt {bin channel : Nat} (h : channel < m.channelCount) :
    m.entry bin channel = responseAt (m.rows.getD bin []) channel := by
  rw [entry, denseRow_eq_responseAt, List.getD_eq_getElem?_getD, List.getElem?_map, List.getElem?_range h]
  rfl

omit [LinearOrder K] [FloorRing K] [Roots K] in
/-- Values and rows that belong together are those of the same energy bin; where there is no row, there is no
response. -/
theorem sum_zip_rows (input : List K) (rows : List (List (ResponseGroup K))) (channel : Nat) :
    ((input.zip rows).map fun (value, groups) => value * responseAt groups channel).sum =
      ∑ bin ∈ Finset.range input.length, input.getD bin 0 * responseAt (rows.getD bin []) channel := by
  induction input generalizing rows with
  | nil => simp
  | cons value input ih =>
    cases rows with
    | nil => simp [responseAt]
    | cons groups rows =>
      rw [List.zip_cons_cons, List.map_cons, List.sum_cons, ih, List.length_cons, Finset.sum_range_succ', add_comm]
      rfl

/-- What a channel gets in all is its entry in the product of the input with the dense rows. -/
theorem response_eq_product {input : List K} (hinput : m.energyCount = input.length) {channel : Nat}
    (hchannel : channel < m.channelCount) :
    m.response input channel = ∑ bin ∈ Finset.range m.energyCount, input.getD bin 0 * m.entry bin channel := by
  rw [response, sum_zip_rows, hinput]
  exact Finset.sum_congr rfl fun bin _ => by rw [entry_eq_responseAt hchannel]

/-- When there is not a value for each energy bin or not a place for each channel, folding fails. -/
theorem exists_error_of_fold {input output : List K}
    (h : ¬ (m.energyCount = input.length ∧ m.channelCount = output.length)) :
    ∃ fault, m.fold input output = .error fault := by
  cases hfold : m.fold input output with
  | error fault => exact ⟨fault, rfl⟩
  | ok counts =>
    obtain ⟨⟨⟩, hinput, hfold⟩ := Except.bind_eq_ok.1 hfold
    obtain ⟨⟨⟩, houtput, -⟩ := Except.bind_eq_ok.1 hfold
    exact absurd ⟨Except.requireLength_eq_ok.1 hinput, Except.requireLength_eq_ok.1 houtput⟩ h

/-- Whatever groups the rows have, as long as these lie inside the channels: with a value for each energy bin and a
place for each channel, folding in place succeeds and has added to each channel the sum, over the energy bins, of the
value times the entry of the dense row. With other lengths it fails and leaves the output as it was. Both ways it
does what folding does. -/
theorem fold_is_dense_product (h : m.Inside) (input output : List K) :
    (m.energyCount = input.length ∧ m.channelCount = output.length → ∃ counts,
      (m.foldInto input).perform output = some (.ok (), counts) ∧ m.fold input output = .ok counts ∧
        counts.length = m.channelCount ∧
        ∀ channel < m.channelCount, counts.getD channel 0 =
          output.getD channel 0 + ∑ bin ∈ Finset.range m.energyCount, input.getD bin 0 * m.entry bin channel) ∧
      (¬ (m.energyCount = input.length ∧ m.channelCount = output.length) → ∃ fault,
        (m.foldInto input).perform output = some (.error fault, output) ∧ m.fold input output = .error fault) := by
  rw [perform_foldInto, h.fold?_eq]
  constructor
  · rintro ⟨hinput, houtput⟩
    obtain ⟨counts, hfold, hcounts⟩ := exists_fold hinput houtput
    refine ⟨counts, ?_, hfold, length_of_fold hfold, fun channel hchannel => ?_⟩
    · rw [hfold]
      rfl
    · have hplace : channel < output.length := houtput ▸ hchannel
      rw [List.getD_eq_getElem?_getD, hcounts, List.getD_eq_getElem?_getD, List.getElem?_eq_getElem hplace,
        response_eq_product hinput hchannel]
      rfl
  · intro hlengths
    obtain ⟨fault, hfold⟩ := exists_error_of_fold hlengths
    refine ⟨fault, ?_, hfold⟩
    rw [hfold]
    rfl

/-- Two energy bins and three channels; the groups of the first bin overlap and one of them is empty, and the second
bin has groups next to each other. -/
def layered : Redistribution ℚ :=
  ⟨.file, ⟨[⟨1, 2⟩, ⟨2, 3⟩]⟩, ⟨[⟨1, 2⟩, ⟨2, 3⟩, ⟨3, 4⟩]⟩,
    [[⟨0, [2, 1]⟩, ⟨1, [3, 5]⟩, ⟨3, []⟩], [⟨1, [4]⟩, ⟨2, [6]⟩]], .plain, {}⟩

/-- Overlapping groups add up, in the output as in the dense row. -/
theorem layered_groups_add_up :
    layered.Inside ∧ (layered.foldInto [10, 1]).perform [100, 100, 100] = some (.ok (), [120, 144, 156]) ∧
      layered.entry 0 1 = 4 := by
  have hinside : layered.Inside := by
    unfold Inside
    decide
  obtain ⟨counts, hinto, hfold, -⟩ := (fold_is_dense_product hinside [10, 1] [100, 100, 100]).1 ⟨rfl, rfl⟩
  have hcounts : layered.fold [10, 1] [100, 100, 100] = (.ok [120, 144, 156] : Except (Fault ℚ) (List ℚ)) :=
    Except.toOption_eq_some.1 (by decide +kernel)
  cases Except.ok.inj (hfold.symm.trans hcounts)
  exact ⟨hinside, hinto, by decide +kernel⟩

end Redistribution

end SpectralResponse
