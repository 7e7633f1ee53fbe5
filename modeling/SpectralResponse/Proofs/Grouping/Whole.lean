import SpectralResponse.Proofs.Grouping.Proper
import Mathlib.Data.List.Sort

/-!
# What groups are made of

A grouping says twice which fine bins it uses: by the signs of its mask and by its groups. However it is
made, the two say the same: the groups hold every bin whose flag is not zero, and no other.

## What is proved

* `whole_ofMask`, `whole_leastCount`, `whole_identity` — however a grouping is made, it is proper and its groups
  hold exactly the bins that are not left out.
* `Whole.flatten_groups` — one group after another, these are the bins in order, each once.
-/

namespace SpectralResponse.Grouping

/-- The grouping is proper, and its groups hold the bins that are not left out. -/
structure Whole (g : Grouping) : Prop where
  /-- The groups are runs, one behind the other. -/
  proper : g.Proper
  /-- A bin stands in a group exactly if it is not left out. -/
  includes_iff : ∀ i, g.includes i = true ↔ ∃ group ∈ g.groups, i ∈ group

/-- The positions that some runs hold. -/
def positions (runs : List (Int × List Nat)) : List Nat := (runs.map Prod.snd).flatten

theorem mem_positions_prependBin {index : Nat} {sign : Int} {runs : List (Int × List Nat)} {i : Nat} :
    i ∈ positions (prependBin index sign runs) ↔ i = index ∨ i ∈ positions runs := by
  cases runs with
  | nil => simp [prependBin, positions]
  | cons first rest =>
    obtain ⟨next, run⟩ := first
    rw [prependBin]
    split
    · simp [positions]
    · simp [positions]

/-- The runs of a mask hold the positions with a flag. -/
theorem mem_positions_runsFrom {index : Nat} {mask : List Int} {i : Nat} :
    i ∈ positions (runsFrom index mask) ↔ index ≤ i ∧ ∃ flag, mask[i - index]? = some flag ∧ flag ≠ 0 := by
  induction mask generalizing index with
  | nil => simp [runsFrom, positions]
  | cons flag mask ih =>
    have hlater : (index + 1 ≤ i ∧ ∃ f, mask[i - (index + 1)]? = some f ∧ f ≠ 0) ↔
        i ≠ index ∧ index ≤ i ∧ ∃ f, (flag :: mask)[i - index]? = some f ∧ f ≠ 0 := by
      by_cases hlt : index + 1 ≤ i
      · have hsucc : i - index = i - (index + 1) + 1 := by omega
        rw [hsucc, List.getElem?_cons_succ]
        simp only [hlt, true_and]
        exact ⟨fun h => ⟨by omega, by omega, h⟩, fun h => h.2.2⟩
      · exact ⟨fun h => absurd h.1 hlt, fun h => absurd h.2.1 (by omega)⟩
    rw [runsFrom]
    split
    · rename_i hzero
      rw [ih, hlater]
      refine ⟨fun h => h.2, fun h => ⟨?_, h⟩⟩
      rintro rfl
      obtain ⟨-, f, hf, hne⟩ := h
      rw [Nat.sub_self, List.getElem?_cons_zero] at hf
      cases hf
      exact hne hzero
    · rename_i hflag
      rw [mem_positions_prependBin, ih, hlater]
      constructor
      · rintro (rfl | h)
        · exact ⟨Nat.le_refl _, flag, by simp, hflag⟩
        · exact h.2
      · intro h
        by_cases hi : i = index
        · exact .inl hi
        · exact .inr ⟨hi, h⟩

variable {α : Type} {g : Grouping}

theorem whole_ofMask {mask : List Int} (h : (ofMask mask : Except (Fault α) Grouping) = .ok g) : g.Whole := by
  refine ⟨(proper_ofMask h).1, fun i => ?_⟩
  obtain ⟨-, rfl⟩ := ofMask_eq_ok.1 h
  have hgroups : (∃ group ∈ (runsFrom 0 mask).map Prod.snd, i ∈ group) ↔ i ∈ positions (runsFrom 0 mask) :=
    List.mem_flatten.symm
  rw [hgroups, mem_positions_runsFrom, includes, List.getElem?_map, Nat.sub_zero]
  cases hflag : mask[i]? <;> simp

theorem whole_leastCount [Scalar α] {counts : List α} {usable : List Bool} {threshold : α}
    (h : leastCount counts usable threshold = .ok g) : g.Whole :=
  whole_ofMask (leastCount_eq_ok.1 h).2.2

theorem alternating_ne_zero (i : Nat) : alternating i ≠ 0 := by
  rw [alternating]
  split <;> decide

theorem whole_identity (count : Nat) : (identity count).Whole := by
  refine ⟨proper_identity count, fun i => ?_⟩
  have hsign := alternating_ne_zero i
  simp only [identity, includes, List.getElem?_map, List.mem_map, List.mem_range]
  constructor
  · intro h
    by_cases hi : i < count
    · exact ⟨[i], ⟨i, hi, rfl⟩, List.mem_singleton_self i⟩
    · rw [List.getElem?_eq_none (by simpa using hi)] at h
      cases h
  · rintro ⟨group, ⟨j, hj, rfl⟩, hi⟩
    rw [List.mem_singleton.1 hi] at hsign ⊢
    simp [hj, hsign]

/-- The ways in which a grouping is made. -/
inductive Made (α : Type) [Scalar α] : Grouping → Prop
  /-- Each bin is a group. -/
  | singles (count : Nat) : Made α (identity count)
  /-- The groups are those of a mask. -/
  | flags {mask : List Int} {g : Grouping} (h : (ofMask mask : Except (Fault α) Grouping) = .ok g) : Made α g
  /-- Each group holds a least count. -/
  | counts {counts : List α} {usable : List Bool} {threshold : α} {g : Grouping}
    (h : leastCount counts usable threshold = .ok g) : Made α g

theorem Made.whole [Scalar α] (h : Made α g) : g.Whole := by
  cases h with
  | singles count => exact whole_identity count
  | flags h => exact whole_ofMask h
  | counts h => exact whole_leastCount h

/-- Where there is a bin there is a group. -/
theorem Made.groups_ne_nil [Scalar α] (h : Made α g) (hpos : 0 < g.fineLength) : g.groups ≠ [] := by
  have hmask {mask : List Int} {g : Grouping} (h : (ofMask mask : Except (Fault α) Grouping) = .ok g) :
      g.groups ≠ [] := by
    obtain ⟨hsome, rfl⟩ := ofMask_eq_ok.1 h
    rwa [ne_eq, List.map_eq_nil_iff]
  cases h with
  | singles count =>
    rw [fineLength_identity] at hpos
    rw [identity, ne_eq, List.map_eq_nil_iff, List.range_eq_nil]
    exact hpos.ne'
  | flags h => exact hmask h
  | counts h => exact hmask (leastCount_eq_ok.1 h).2.2

/-- A bin of a group is not left out. -/
theorem Whole.includes_of_mem (h : g.Whole) {group : List Nat} (hgroup : group ∈ g.groups) {i : Nat}
    (hi : i ∈ group) : g.includes i = true := (h.includes_iff i).2 ⟨group, hgroup, hi⟩

/-- The groups, one after another, are the bins that are not left out, in order and each once. -/
theorem Whole.flatten_groups (h : g.Whole) : g.groups.flatten = (List.range g.fineLength).filter g.includes := by
  have hgroups : g.groups.flatten.Pairwise (· < ·) := by
    refine List.pairwise_flatten.2 ⟨fun group hgroup => ?_, h.proper.ascending⟩
    obtain ⟨start, more, rfl, -⟩ := h.proper.runs group hgroup
    exact List.pairwise_lt_range'
  refine hgroups.eq_of_mem_iff (List.pairwise_lt_range.filter _) fun i => ?_
  rw [List.mem_flatten, ← h.includes_iff, List.mem_filter, List.mem_range]
  refine ⟨fun hi => ⟨?_, hi⟩, fun hi => hi.2⟩
  obtain ⟨group, hgroup, hmem⟩ := (h.includes_iff i).1 hi
  exact ((h.proper.runs group hgroup).bounds i hmem).2

end SpectralResponse.Grouping
