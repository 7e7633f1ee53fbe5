import SpectralResponse.Proofs.Grouping.Means
import SpectralResponse.Proofs.Grouping.Runs
import SpectralResponse.Proofs.Scalar.Rational
import Mathlib.Algebra.BigOperators.Group.Finset.Basic

/-!
# Groups of a mask

The groups of a mask are its longest stretches of one sign. A grouping keeps the signs of its mask, and these are
as good as the mask: they are read as the same groups.

## What is proved

* `Made.ofMask_mask` — the signs that a grouping keeps are read as the same grouping.
* `Proper.sum_chosen` — the sums of some groups add up the values of their bins.
* `groups_are_longest_sign_runs` — when a mask is refused, and what its groups are.
-/

namespace SpectralResponse.Grouping

variable {α : Type} {g : Grouping}

/-- The signs of a mask are a mask of the same grouping. -/
theorem ofMask_mask_of_ofMask {mask : List Int} (h : (ofMask mask : Except (Fault α) Grouping) = .ok g) :
    (ofMask g.mask : Except (Fault α) Grouping) = .ok g := by
  obtain ⟨hsome, rfl⟩ := ofMask_eq_ok.1 h
  simp only [ofMask_eq_ok, runsFrom_map_sign, List.map_map, Function.comp_def, Int.sign_sign]
  exact ⟨hsome, trivial⟩

/-- However a grouping is made, the signs it keeps are a mask of the same grouping, unless there is no bin. -/
theorem Made.ofMask_mask [Scalar α] (h : Made α g) (hne : g ≠ identity 0) :
    (ofMask g.mask : Except (Fault α) Grouping) = .ok g := by
  cases h with
  | singles count =>
    have hread : runsFrom 0 ((List.range count).map alternating) =
        (List.range count).map fun i => (alternating i, [i]) := by
      rw [List.range_eq_range']
      exact runsFrom_alternating 0 count
    have hsome : count ≠ 0 := fun hzero => hne (by rw [hzero])
    simp only [ofMask_eq_ok, identity, hread, List.map_map, Function.comp_def, sign_alternating]
    exact ⟨by simpa using hsome, trivial⟩
  | flags h => exact ofMask_mask_of_ofMask h
  | counts h => exact ofMask_mask_of_ofMask (leastCount_eq_ok.1 h).2.2

/-! ### Sums over some groups -/

/-- The fine bins of the group with a given number. -/
def members (g : Grouping) (k : Nat) : Finset Nat := (g.groups[k]?.getD []).toFinset

theorem mem_members {i k : Nat} : i ∈ g.members k ↔ ∃ group, g.groups[k]? = some group ∧ i ∈ group := by
  rw [members, List.mem_toFinset]
  cases g.groups[k]? <;> simp

/-- Different groups have no fine bin in common. -/
theorem Proper.disjoint_members (hg : g.Proper) {j k : Nat} (hne : j ≠ k) :
    Disjoint (g.members j) (g.members k) := by
  rw [Finset.disjoint_left]
  intro i hj hk
  obtain ⟨a, ha, hia⟩ := mem_members.1 hj
  obtain ⟨b, hb, hib⟩ := mem_members.1 hk
  obtain ⟨hlt, rfl⟩ := List.getElem?_eq_some_iff.1 ha
  obtain ⟨hlt', rfl⟩ := List.getElem?_eq_some_iff.1 hb
  have hascending := List.pairwise_iff_getElem.1 hg.ascending
  rcases Nat.lt_or_gt_of_ne hne with hjk | hkj
  · exact Nat.lt_irrefl i (hascending j k hlt hlt' hjk i hia i hib)
  · exact Nat.lt_irrefl i (hascending k j hlt' hlt hkj i hib i hia)

section

variable {K : Type} [Field K] {values : List K}

/-- The sum of a group adds up the values of its fine bins. -/
theorem Proper.valueAt_sums (hg : g.Proper) (hlen : values.length = g.fineLength) (k : Nat) :
    valueAt (g.sums values) k = ∑ i ∈ g.members k, valueAt values i := by
  rw [valueAt, sums, List.getElem?_map, members]
  cases hk : g.groups[k]? with
  | none => rfl
  | some group =>
    have hrun := hg.runs group (List.mem_of_getElem? hk)
    have hpick : pick values group = group.map (valueAt values) :=
      pick_eq_map_valueAt fun i hi => hlen ▸ (hrun.bounds i hi).2
    obtain ⟨start, more, rfl, -⟩ := hrun
    rw [Option.map_some, Option.getD_some, Option.getD_some, hpick, List.sum_toFinset _ List.nodup_range']

/-- The sums of some groups add up the values of the fine bins of these groups. -/
theorem Proper.sum_chosen (hg : g.Proper) (hlen : values.length = g.fineLength) (chosen : Finset Nat) :
    ∑ k ∈ chosen, valueAt (g.sums values) k = ∑ i ∈ chosen.biUnion g.members, valueAt values i := by
  rw [Finset.sum_biUnion fun j _ k _ hne => hg.disjoint_members hne]
  exact Finset.sum_congr rfl fun k _ => hg.valueAt_sums hlen k

end

/-! ### Masks -/

theorem ofMask_eq_error_iff {mask : List Int} :
    (∃ fault, (ofMask mask : Except (Fault α) Grouping) = .error fault) ↔ ∀ flag ∈ mask, flag = 0 := by
  rw [← runsFrom_eq_nil_iff 0, ofMask]
  split
  · rename_i hnone
    exact iff_of_true ⟨_, rfl⟩ hnone
  · rename_i hsome
    refine iff_of_false ?_ hsome
    rintro ⟨fault, hfault⟩
    cases hfault

/-- A bin is left out when its flag is zero. -/
theorem includes_ofMask {mask : List Int} (h : (ofMask mask : Except (Fault α) Grouping) = .ok g) (i : Nat) :
    g.includes i = decide (signAt mask i ≠ 0) := by
  obtain ⟨-, rfl⟩ := ofMask_eq_ok.1 h
  rw [includes, List.getElem?_map, signAt]
  cases mask[i]? <;> simp [bne, Bool.beq_eq_decide_eq]

/-- A mask is refused exactly if all flags are zero. Else its groups are the longest stretches of bins whose flags
have one sign, in ascending order, and together they hold each bin with a flag once and no other. The signs that a
grouping keeps are read as the same grouping again, however it was made. The sums of any groups add up the values
of exactly their bins. -/
theorem groups_are_longest_sign_runs (α K : Type) [Scalar α] [Field K] [LinearOrder K] [FloorRing K] [Roots K]
    (mask : List Int) :
    ((∃ fault, (ofMask mask : Except (Fault α) Grouping) = .error fault) ↔ ∀ flag ∈ mask, flag = 0) ∧
    (∀ g, (ofMask mask : Except (Fault α) Grouping) = .ok g →
      (∀ group, group ∈ g.groups ↔ ∃ sign, IsSignRun (signAt mask) sign group) ∧
      g.groups.Pairwise Precedes ∧
      g.groups.flatten = (List.range mask.length).filter fun i => signAt mask i ≠ 0) ∧
    ∀ g, Made α g →
      (g ≠ identity 0 → (ofMask g.mask : Except (Fault α) Grouping) = .ok g) ∧
      ∀ values : List K, values.length = g.fineLength →
        ∃ sums, (g.sum values : Except (Fault K) (List K)) = .ok sums ∧
          ∀ chosen : Finset Nat,
            ∑ k ∈ chosen, valueAt sums k = ∑ i ∈ chosen.biUnion g.members, valueAt values i := by
  refine ⟨ofMask_eq_error_iff, fun g hmask => ?_, fun g hmade => ⟨hmade.ofMask_mask, fun values hlen => ?_⟩⟩
  · have hwhole := whole_ofMask hmask
    refine ⟨fun group => ?_, hwhole.proper.ascending, ?_⟩
    · obtain ⟨-, rfl⟩ := ofMask_eq_ok.1 hmask
      exact (reads_runsFrom 0 mask).mem_map_snd group
    · rw [hwhole.flatten_groups, (proper_ofMask hmask).2]
      exact List.filter_congr fun i _ => includes_ofMask hmask i
  · exact ⟨g.sums values, sum_eq_sums hlen, hmade.whole.proper.sum_chosen hlen⟩

/-- Flags of different size, with a change of sign and a bin that is left out. -/
def mixedFlags : List Int := [2, 1, 0, 5, -1, -3]

theorem mixed_flags_are_decoded :
    (∃ fault, (ofMask [0, 0] : Except (Fault ℚ) Grouping) = .error fault) ∧
    ∃ g, (ofMask mixedFlags : Except (Fault ℚ) Grouping) = .ok g ∧ g.groups = [[0, 1], [3], [4, 5]] ∧
      (∃ sign, IsSignRun (signAt mixedFlags) sign [4, 5]) ∧
      (ofMask g.mask : Except (Fault ℚ) Grouping) = .ok g ∧
      ∃ sums, (g.sum [1, 2, 3, 4, 5, 6] : Except (Fault ℚ) (List ℚ)) = .ok sums ∧
        ∑ k ∈ {0, 2}, valueAt sums k = (1 + 2) + (5 + 6) := by
  obtain ⟨hrefused, -⟩ := groups_are_longest_sign_runs ℚ ℚ [0, 0]
  obtain ⟨-, hread, hmade⟩ := groups_are_longest_sign_runs ℚ ℚ mixedFlags
  have hmask : (ofMask mixedFlags : Except (Fault ℚ) Grouping) =
      .ok ⟨[1, 1, 0, 1, -1, -1], [[0, 1], [3], [4, 5]]⟩ := rfl
  obtain ⟨hgroups, -⟩ := hread _ hmask
  obtain ⟨hback, hsums⟩ := hmade _ (.flags hmask)
  obtain ⟨sums, hsum, hchosen⟩ := hsums [1, 2, 3, 4, 5, 6] rfl
  refine ⟨hrefused.2 (by decide), _, hmask, rfl, (hgroups _).1 (by decide), hback (by decide), sums, hsum, ?_⟩
  rw [hchosen]
  decide +kernel

end SpectralResponse.Grouping
