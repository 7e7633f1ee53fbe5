import SpectralResponse.Proofs.Session.Uses

/-!
# Shared matrices

Whether other spectra name a matrix can be told in two ways: by its users, which are counted, and by the
number of spectra that name it. In a balanced session both tell the truth.

## What is proved

* `inUse_eq_iff_onlyNamedBy` — a matrix has as many users as one spectrum gives it exactly if no other
  spectrum names it.
* `onlyNamedBy_of_sharers` — a matrix that a spectrum names and that is not shared is named by no other.
-/

namespace SpectralResponse

/-- A live handle cuts the values in two; the values before and behind are those of the other handles. -/
theorem Arena.exists_others {kind : ProductKind} {β : Type} {a : Arena kind β} {id : Handle kind}
    {slot : Slot β} (h : a.slot? id = some slot) :
    ∃ before after, a.values = before ++ slot.value :: after ∧
      ∀ value, value ∈ before ++ after ↔
        ∃ other slot', other ≠ id ∧ a.slot? other = some slot' ∧ slot'.value = value := by
  obtain ⟨before, after, hvalues, hset⟩ := exists_values_setSlot h
  refine ⟨before, after, hvalues, fun value => ?_⟩
  have hothers : (a.setSlot id none).values = before ++ after := hset none
  rw [← hothers, mem_values_iff]
  constructor
  · rintro ⟨other, slot', hs', rfl⟩
    by_cases hid : other = id
    · rw [hid, slot?_setSlot_self h] at hs'
      cases hs'
    · rw [slot?_setSlot_of_ne hid] at hs'
      exact ⟨other, slot', hid, hs', rfl⟩
  · rintro ⟨other, slot', hid, hs', rfl⟩
    exact ⟨other, slot', by rw [slot?_setSlot_of_ne hid, hs'], rfl⟩

section

variable {kind : ProductKind} {β : Type} {a : Arena kind β} {id : Handle kind} {slot' : Slot β} {New : β → Prop}
  (h : (∃ slot, a.slot? id = some slot ∧ slot.value = slot'.value) ∨ a.slots.length ≤ id.index ∧ New slot'.value)

include h

/-- What stands under an old handle afterwards is what stood there. -/
theorem Arena.value_eq_of_origin {slot : Slot β} (hs : a.slot? id = some slot) : slot.value = slot'.value := by
  rcases h with ⟨slot₀, hs₀, hvalue⟩ | ⟨hindex, -⟩
  · cases hs.symm.trans hs₀
    exact hvalue
  · exact absurd (index_lt_of_slot? hs) (Nat.not_lt.2 hindex)

/-- What stands under a new handle is new. -/
theorem Arena.new_of_origin (hindex : a.slots.length ≤ id.index) : New slot'.value := by
  rcases h with ⟨slot, hs, -⟩ | ⟨-, hnew⟩
  · exact absurd (index_lt_of_slot? hs) (Nat.not_lt.2 hindex)
  · exact hnew

end

theorem Arena.values_entries {kind : ProductKind} {β : Type} (a : Arena kind β) :
    a.entries.map (fun entry => entry.2.value) = a.values := by
  rw [entries, values, List.map_filterMap]
  conv_rhs => rw [← List.zipIdx_map_fst 0 a.slots, List.filterMap_map]
  refine List.filterMap_congr fun entry _ => ?_
  cases h : entry.1 <;> simp [h]

variable {α : Type}

/-- The matrices that the pairs of a spectrum name. -/
def SpectrumRecord.matrices (r : SpectrumRecord α) : List MatrixId := r.pairs.map ResponsePair.matrix

theorem SpectrumRecord.matrixUses_eq_count (r : SpectrumRecord α) (id : MatrixId) :
    r.matrixUses id = r.matrices.count id := by
  rw [matrixUses, matrices, List.count, List.countP_map]
  rfl

namespace Session

variable {s : Session α} {id : SpectrumId} {slot : Slot (SpectrumRecord α)} {matrixId : MatrixId}

/-- The spectrum stands in the slot and names the matrix, which stands in the other slot. -/
structure Names (s : Session α) (id : SpectrumId) (slot : Slot (SpectrumRecord α)) (matrixId : MatrixId)
    (mslot : Slot (ResponseMatrix α)) : Prop where
  /-- Where the spectrum stands. -/
  spectrum : s.spectra.slot? id = some slot
  /-- Its pairs name the matrix. -/
  named : matrixId ∈ slot.value.matrices
  /-- Where the matrix stands. -/
  matrix : s.matrices.slot? matrixId = some mslot

/-- No spectrum but one names the matrix. -/
def OnlyNamedBy (s : Session α) (matrixId : MatrixId) (id : SpectrumId) : Prop :=
  ∀ other slot, s.spectra.slot? other = some slot → matrixId ∈ slot.value.matrices → other = id

/-- What a spectrum names is live. -/
theorem Balanced.exists_matrix (hb : s.Balanced) (hs : s.spectra.slot? id = some slot)
    (hm : matrixId ∈ slot.value.matrices) : ∃ mslot, s.matrices.slot? matrixId = some mslot := by
  obtain ⟨pair, hpair, rfl⟩ := List.mem_map.1 hm
  exact Arena.contains_iff.1 (hb.hasPair (List.mem_append_left _ (mem_pairs_of_slot? hs hpair))).2

theorem onlyNamedBy_iff {before after : List (SpectrumRecord α)}
    (h : ∀ r, r ∈ before ++ after ↔
      ∃ other slot', other ≠ id ∧ s.spectra.slot? other = some slot' ∧ slot'.value = r) :
    s.OnlyNamedBy matrixId id ↔ ∀ r ∈ before ++ after, matrixId ∉ r.matrices := by
  constructor
  · intro honly r hr hm
    obtain ⟨other, slot', hne, hs', rfl⟩ := (h r).1 hr
    exact hne (honly other slot' hs' hm)
  · intro hnone other slot' hs' hm
    by_contra hne
    exact hnone slot'.value ((h _).2 ⟨other, slot', hne, hs', rfl⟩) hm

/-- A matrix has as many users as one spectrum gives it exactly if no other spectrum names it. -/
theorem inUse_eq_iff_onlyNamedBy (hb : s.Balanced) (hs : s.spectra.slot? id = some slot)
    {mslot : Slot (ResponseMatrix α)} (hm : s.matrices.slot? matrixId = some mslot) :
    mslot.inUse = slot.value.matrixUses matrixId ↔ s.OnlyNamedBy matrixId id := by
  obtain ⟨before, after, hvalues, hothers⟩ := Arena.exists_others hs
  have hcount : mslot.inUse = slot.value.matrixUses matrixId +
      ((before ++ after).flatMap SpectrumRecord.matrices).count matrixId := by
    rw [hb.matrices.counts matrixId mslot hm, SpectrumRecord.matrixUses_eq_count, pairs, hvalues,
      List.append_nil, List.map_flatMap]
    simp only [List.flatMap_append, List.flatMap_cons, List.count_append]
    exact Nat.add_left_comm _ _ _
  rw [onlyNamedBy_iff hothers, hcount, Nat.add_eq_left, List.count_eq_zero, List.mem_flatMap]
  constructor
  · intro h r hr hm
    exact h ⟨r, hr, hm⟩
  · rintro h ⟨r, hr, hm⟩
    exact h r hr hm

/-- A matrix that a spectrum names and that is not shared is named by no other spectrum. -/
theorem onlyNamedBy_of_sharers (hs : s.spectra.slot? id = some slot) (hm : matrixId ∈ slot.value.matrices)
    (h : ¬ 1 < s.sharers matrixId) : s.OnlyNamedBy matrixId id := by
  obtain ⟨before, after, hvalues, hothers⟩ := Arena.exists_others hs
  have hsharers : s.sharers matrixId =
      (before ++ slot.value :: after).countP fun r => 0 < r.matrixUses matrixId := by
    rw [← hvalues, ← Arena.values_entries, List.countP_map]
    rfl
  rw [onlyNamedBy_iff hothers]
  intro r hr hm'
  have hself : 0 < slot.value.matrixUses matrixId := by
    rw [SpectrumRecord.matrixUses_eq_count]
    exact List.count_pos_iff.2 hm
  have hother : 0 < (before ++ after).countP fun r => 0 < r.matrixUses matrixId := by
    refine List.countP_pos_iff.2 ⟨r, hr, decide_eq_true ?_⟩
    rw [SpectrumRecord.matrixUses_eq_count]
    exact List.count_pos_iff.2 hm'
  rw [List.countP_append] at hother
  rw [hsharers, List.countP_append, List.countP_cons_of_pos (by simpa using hself)] at h
  omega

end Session

end SpectralResponse
