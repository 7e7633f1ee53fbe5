import SpectralResponse.Proofs.Grouping.Sums

/-!
# Weighted means over groups

Rebinning to the grid of a grouping with weights takes the weighted mean over each group. The lemmas say so
of values that are given position by position.

## What is proved

* `rebinWeighted_grid` — the means, their errors and the weights of the groups.
* `Proper.grid_eq_self` — when each group is one bin, the grid of the grouping is the fine grid.
-/

namespace SpectralResponse

/-- The value at a position, and zero behind the end. -/
def valueAt {α : Type} [Zero α] (values : List α) (i : Nat) : α := (values[i]?).getD 0

/-- A list is its values position by position. -/
theorem eq_map_valueAt {α : Type} [Zero α] {values : List α} {count : Nat} (h : values.length = count) :
    values = (List.range count).map (valueAt values) := by
  subst h
  refine List.ext_getElem (by simp) fun i hi _ => ?_
  rw [List.getElem_map, List.getElem_range, valueAt, List.getElem?_eq_getElem hi, Option.getD_some]

namespace Grouping

/-- What stands at the positions of a group are the values there. -/
theorem pick_eq_map_valueAt {α : Type} [Zero α] {values : List α} {group : List Nat}
    (h : ∀ i ∈ group, i < values.length) : pick values group = group.map (valueAt values) := by
  refine List.filterMap_eq_map_iff_forall_eq_some.2 fun i hi => ?_
  rw [valueAt, List.getElem?_eq_getElem (h i hi), Option.getD_some]

variable {K : Type} [Field K] [LinearOrder K] [FloorRing K] [Roots K] {g : Grouping} {fine target : Grid K}

omit [Field K] [LinearOrder K] [FloorRing K] [Roots K] in
/-- The bin of a single fine bin is that bin. -/
theorem span?_pick_singleton {bins : List (Bin K)} {i : Nat} : span? (pick bins [i]) = bins[i]? := by
  cases h : bins[i]? with
  | none => simp [pick, h, span?]
  | some b => simp [pick, h, span?]

/-- When there are as many groups as bins, the grid of the grouping is the fine grid. -/
theorem Proper.grid_eq_self (hg : g.Proper) (hlen : g.length = g.fineLength) (h : g.grid fine = .ok target) :
    target = fine := by
  obtain ⟨hfine, hbins⟩ := of_grid h
  have hsame : target.bins = fine.bins := by
    have hpick : (g.groups.filterMap fun group => span? (pick fine.bins group)) =
        pick fine.bins (List.range' 0 fine.length) := by
      rw [hg.groups_eq_of_length hlen, List.filterMap_map, hfine, ← List.range_eq_range']
      exact List.filterMap_congr fun i _ => span?_pick_singleton
    rw [hbins, hpick, Grid.length, pick_range' fine.bins (Nat.le_of_eq (Nat.zero_add _)), List.drop_zero,
      List.take_length]
  cases target
  cases fine
  exact congrArg Grid.mk hsame

variable [IsStrictOrderedRing K]

/-- Rebinning to the grid of a grouping with weights takes the mean over each group. -/
theorem rebinWeighted_grid (ho : fine.Ordered) (hg : g.Proper) (h : g.grid fine = .ok target)
    (value error weight : Nat → K) :
    rebinWeighted target fine ⟨(List.range g.fineLength).map value, (List.range g.fineLength).map error,
        (List.range g.fineLength).map weight⟩ =
      .ok ⟨g.groups.map fun group =>
          perWeight (group.map fun i => value i * weight i).sum (group.map weight).sum,
        g.groups.map fun group =>
          perWeight (Roots.sqrt (group.map fun i => error i * weight i * (error i * weight i)).sum)
            (group.map weight).sum,
        g.groups.map fun group => (group.map weight).sum⟩ := by
  have hlen (f : Nat → K) : ((List.range g.fineLength).map f).length = fine.length := by
    rw [List.length_map, List.length_range, (of_grid h).1]
  have hrebin (f : Nat → K) : rebin target fine ((List.range g.fineLength).map f) =
      .ok (g.groups.map fun group => (group.map f).sum) := by
    rw [rebin_grid_eq_sums ho hg h (hlen f), hg.sums_map_range]
  simp only [rebinWeighted, hlen, ne_eq, not_true_eq_false, if_false, List.zipWith_map, List.zipWith_self, hrebin,
    bind, Except.bind]
  rfl

end Grouping

end SpectralResponse
