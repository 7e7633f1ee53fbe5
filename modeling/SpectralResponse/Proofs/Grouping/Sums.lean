import SpectralResponse.Proofs.Grid.Canonical
import SpectralResponse.Proofs.Grid.Wide
import SpectralResponse.Proofs.Grouping.Whole
import SpectralResponse.Proofs.Rebin.Sums
import SpectralResponse.Proofs.Scalar.Rational

/-!
# Rebinning to groups

The grid of a grouping has a bin for each group, which reaches from the start of the first to the end of
the last fine bin of the group. Rebinning from the fine bins to such a grid is summing over each group:
a fine bin lies either inside the bin of a group or outside of it.

## What is proved

* `Proper.spans_of_grid` — the bins of the grid of a grouping are stretches of the fine grid.
* `Proper.ordered_of_grid`, `Proper.exists_grid` — over an ordered grid there is such a grid, and it is ordered.
* `rebin_grid_eq_sums` — rebinning to the grid of a grouping sums the values of each group.
* `sum_eq_sums`, `Proper.sums_eq_self` — the sums of a grouping, and when they are the values themselves.
* `overlap_sums_groups` — however a grouping is made, grouping by positions and by overlap agree.
-/

namespace SpectralResponse.Grouping

/-! ### Picking runs -/

section

variable {β : Type}

/-- What stands at the positions of a run is a stretch of the list. -/
theorem pick_range' (xs : List β) {start count : Nat} (h : start + count ≤ xs.length) :
    pick xs (List.range' start count) = (xs.drop start).take count := by
  induction count generalizing start with
  | zero => simp [pick]
  | succ count ih =>
    have hlt : start < xs.length := by omega
    rw [List.range'_succ, pick, List.filterMap_cons, List.getElem?_eq_getElem hlt,
      List.drop_eq_getElem_cons hlt, List.take_succ_cons]
    exact congrArg (xs[start] :: ·) (ih (by omega))

/-- One of the flags that are picked is set. -/
theorem any_pick {flags : List Bool} {group : List Nat} :
    (pick flags group).any id = true ↔ ∃ i ∈ group, flags[i]? = some true := by
  simp only [pick, List.any_eq_true, List.mem_filterMap, id_eq, exists_eq_right]

end

/-! ### The grid of a grouping -/

section

variable {α : Type} {g : Grouping} {fine target : Grid α}

/-- The bin of a run reaches from its first to its last fine bin. -/
theorem span?_pick {bins : List (Bin α)} {start more : Nat} {first last : Bin α}
    (hfirst : bins[start]? = some first) (hlast : bins[start + more]? = some last) :
    span? (pick bins (List.range' start (more + 1))) = some ⟨first.lo, last.hi⟩ := by
  have hlt : start + more < bins.length := (List.getElem?_eq_some_iff.1 hlast).1
  have hhead : ((bins.drop start).take (more + 1)).head? = some first := by
    rw [List.head?_take, if_neg (Nat.succ_ne_zero _), List.head?_drop, hfirst]
  have hend : ((bins.drop start).take (more + 1)).getLast? = some last := by
    rw [List.getLast?_take, if_neg (Nat.succ_ne_zero _), Nat.add_sub_cancel, List.getElem?_drop, hlast,
      Option.some_or]
  rw [pick_range' bins (by omega)]
  cases hstretch : (bins.drop start).take (more + 1) with
  | nil =>
    rw [hstretch] at hhead
    cases hhead
  | cons b bs =>
    rw [hstretch] at hhead hend
    cases hhead
    rw [span?, hend, Option.getD_some]

theorem IsRun.exists_bins {group : List Nat} (h : IsRun 0 fine.length group) :
    ∃ start more first last, group = List.range' start (more + 1) ∧ fine.bins[start]? = some first ∧
      fine.bins[start + more]? = some last := by
  obtain ⟨start, more, rfl, -, hlt⟩ := h
  have hstart : start < fine.bins.length := Nat.lt_of_le_of_lt (Nat.le_add_right _ _) hlt
  exact ⟨start, more, _, _, rfl, List.getElem?_eq_getElem hstart, List.getElem?_eq_getElem hlt⟩

/-- The first and the last fine bin of a group. -/
theorem Proper.exists_bins (hg : g.Proper) (hlen : g.fineLength = fine.length) {group : List Nat}
    (hgroup : group ∈ g.groups) :
    ∃ start more first last, group = List.range' start (more + 1) ∧ fine.bins[start]? = some first ∧
      fine.bins[start + more]? = some last := by
  have hrun := hg.runs group hgroup
  rw [hlen] at hrun
  exact hrun.exists_bins

variable [Scalar α]

/-- The grid of a grouping has a bin for each group, in the same order. -/
theorem of_grid (h : g.grid fine = .ok target) :
    g.fineLength = fine.length ∧
      target.bins = g.groups.filterMap fun group => span? (pick fine.bins group) := by
  obtain ⟨⟨⟩, hlen, h⟩ := Except.bind_eq_ok.1 h
  exact ⟨Except.requireLength_eq_ok.1 hlen, Grid.bins_of_ofBins (Except.mapError_eq_ok.1 h)⟩

/-- The bins of the grid of a grouping are stretches of the fine grid. -/
theorem Proper.spans_of_grid (hg : g.Proper) (h : g.grid fine = .ok target) :
    ∀ b ∈ target.bins, Grid.Spans fine.bins b := by
  obtain ⟨hlen, hbins⟩ := of_grid h
  intro b hb
  rw [hbins] at hb
  obtain ⟨group, hgroup, hspan⟩ := List.mem_filterMap.1 hb
  obtain ⟨start, more, first, last, rfl, hfirst, hlast⟩ := hg.exists_bins hlen hgroup
  rw [span?_pick hfirst hlast] at hspan
  exact ⟨start, start + more, first, last, Nat.le_add_right _ _, hfirst, hlast, (Option.some.inj hspan).symm⟩

theorem Proper.length_grid (hg : g.Proper) (h : g.grid fine = .ok target) : target.length = g.length := by
  obtain ⟨hlen, hbins⟩ := of_grid h
  rw [Grid.length, hbins, List.length_filterMap_eq_countP, List.countP_eq_length.2, Grouping.length]
  intro group hgroup
  obtain ⟨start, more, first, last, rfl, hfirst, hlast⟩ := hg.exists_bins hlen hgroup
  rw [span?_pick hfirst hlast]
  rfl

/-! ### Values for the groups -/

omit [Scalar α] in
/-- Values are taken to the groups if there is one for each fine bin. -/
theorem requireValues_bind_eq_ok {use : GroupedValues} {actual : Nat} {β : Type} {values values' : List β} :
    (g.requireValues use actual >>= fun _ => pure values : Except (Fault α) (List β)) = .ok values' ↔
      actual = g.fineLength ∧ values' = values := by
  rw [Except.bind_eq_ok]
  constructor
  · rintro ⟨⟨⟩, hlen, h⟩
    exact ⟨(Except.requireLength_eq_ok.1 hlen).symm, (Except.ok.inj h).symm⟩
  · rintro ⟨rfl, rfl⟩
    exact ⟨⟨⟩, Except.requireLength_eq_ok.2 rfl, rfl⟩

omit [Scalar α] in
theorem any_eq_ok {flags flags' : List Bool} :
    (g.any flags : Except (Fault α) (List Bool)) = .ok flags' ↔
      flags.length = g.fineLength ∧ flags' = g.groups.map fun group => (pick flags group).any id :=
  requireValues_bind_eq_ok

theorem sum_eq_ok {values values' : List α} :
    g.sum values = .ok values' ↔
      values.length = g.fineLength ∧ values' = g.groups.map fun group => Scalar.sum (pick values group) :=
  requireValues_bind_eq_ok

theorem sumQuadrature_eq_ok {errors errors' : List α} :
    g.sumQuadrature errors = .ok errors' ↔ errors.length = g.fineLength ∧
      errors' = g.groups.map fun group => Scalar.sqrt (Scalar.sum ((pick errors group).map fun e => e * e)) :=
  requireValues_bind_eq_ok

end

/-! ### Summing groups -/

variable {K : Type} [Field K] [LinearOrder K] [FloorRing K] [Roots K] {g : Grouping} {fine target : Grid K}

omit [Field K] [FloorRing K] [Roots K] in
/-- Over an ordered grid the bins of the groups stand in order: each holds its fine bins and nothing of the
fine bins between two groups. -/
theorem Proper.ordered_spans (hg : g.Proper) (ho : fine.Ordered) (hlen : g.fineLength = fine.length) :
    (⟨g.groups.filterMap fun group => span? (pick fine.bins group)⟩ : Grid K).Ordered where
  positive b hb := by
    obtain ⟨group, hgroup, hspan⟩ := List.mem_filterMap.1 hb
    obtain ⟨start, more, first, last, rfl, hfirst, hlast⟩ := hg.exists_bins hlen hgroup
    rw [span?_pick hfirst hlast] at hspan
    rw [← Option.some.inj hspan]
    have hle := (ho.edges_le (Nat.le_add_right start more) hfirst hlast).1
    exact hle.trans_lt (ho.positive last (List.mem_of_getElem? hlast))
  apart := by
    refine List.Pairwise.isChain (List.pairwise_filterMap.2 ?_)
    refine hg.ascending.imp_of_mem fun {a b} ha hb hab x hx y hy => ?_
    obtain ⟨i, more, first, last, rfl, hfirst, hlast⟩ := hg.exists_bins hlen ha
    obtain ⟨j, more', first', last', rfl, hfirst', hlast'⟩ := hg.exists_bins hlen hb
    rw [span?_pick hfirst hlast] at hx
    rw [span?_pick hfirst' hlast'] at hy
    cases hx
    cases hy
    have hbefore : i + more < j := hab (i + more) (by simp) j (by simp)
    show last.hi ≤ first'.lo
    exact ho.hi_le_lo hbefore hlast hfirst'

theorem Proper.ordered_of_grid (hg : g.Proper) (ho : fine.Ordered) (h : g.grid fine = .ok target) :
    target.Ordered := by
  obtain ⟨hlen, hbins⟩ := of_grid h
  have hspans := hg.ordered_spans ho hlen
  rw [← hbins] at hspans
  exact hspans

theorem sharesOf_append (sources sources' : List (Bin K × K)) (b : Bin K) :
    sharesOf (sources ++ sources') b = sharesOf sources b + sharesOf sources' b := by
  rw [sharesOf, List.map_append, List.sum_append, sharesOf, sharesOf]

variable [IsStrictOrderedRing K]

/-- Over an ordered grid a grouping with a group has a grid. -/
theorem Proper.exists_grid (hg : g.Proper) (ho : fine.Ordered) (hlen : g.fineLength = fine.length)
    (hne : g.groups ≠ []) : ∃ target, g.grid fine = .ok target := by
  have hspans : (g.groups.filterMap fun group => span? (pick fine.bins group)) ≠ [] := by
    obtain ⟨group, hgroup⟩ := List.exists_mem_of_ne_nil _ hne
    obtain ⟨start, more, first, last, rfl, hfirst, hlast⟩ := hg.exists_bins hlen hgroup
    exact List.ne_nil_of_mem (List.mem_filterMap.2 ⟨_, hgroup, span?_pick hfirst hlast⟩)
  have hmade := (hg.ordered_spans ho hlen).ofBins_eq_ok hspans
  exact ⟨_, Except.bind_eq_ok.2 ⟨(), Except.requireLength_eq_ok.2 hlen, Except.mapError_eq_ok.2 hmade⟩⟩

/-- The bin of a run gets the values of the run: the fine bins before and behind it do not overlap it,
and those of the run lie inside. -/
theorem sharesOf_run (ho : fine.Ordered) {values : List K} (hlen : values.length = fine.length)
    {start more : Nat} {first last : Bin K} (hfirst : fine.bins[start]? = some first)
    (hlast : fine.bins[start + more]? = some last) :
    sharesOf (fine.bins.zip values) ⟨first.lo, last.hi⟩ =
      (pick values (List.range' start (more + 1))).sum := by
  have hlt : start + more < fine.bins.length := (List.getElem?_eq_some_iff.1 hlast).1
  have hlen : values.length = fine.bins.length := hlen
  have hcut {β : Type} (xs : List β) :
      xs = xs.take start ++ ((xs.drop start).take (more + 1) ++ xs.drop (start + (more + 1))) := by
    rw [← List.drop_drop, List.take_append_drop, List.take_append_drop]
  have hzip : fine.bins.zip values = (fine.bins.take start).zip (values.take start) ++
      (((fine.bins.drop start).take (more + 1)).zip ((values.drop start).take (more + 1)) ++
        (fine.bins.drop (start + (more + 1))).zip (values.drop (start + (more + 1)))) := by
    rw [← List.zip_append (by simp [hlen]), ← List.zip_append (by simp [hlen]), ← hcut, ← hcut]
  have hbefore : sharesOf ((fine.bins.take start).zip (values.take start)) ⟨first.lo, last.hi⟩ = 0 := by
    refine List.sum_eq_zero fun x hx => ?_
    obtain ⟨⟨b, value⟩, hb, rfl⟩ := List.mem_map.1 hx
    obtain ⟨i, hi, rfl⟩ := List.mem_take_iff_getElem.1 (List.of_mem_zip hb).1
    have hle : fine.bins[i].hi ≤ first.lo :=
      ho.hi_le_lo (by omega) (List.getElem?_eq_getElem _) hfirst
    exact shareOf_eq_zero_of_after value hle
  have hbehind : sharesOf ((fine.bins.drop (start + (more + 1))).zip
      (values.drop (start + (more + 1)))) ⟨first.lo, last.hi⟩ = 0 := by
    refine sharesOf_eq_zero_of_passed fun p hp => ?_
    obtain ⟨i, hi, he⟩ := List.mem_drop_iff_getElem.1 (List.of_mem_zip hp).1
    rw [← he]
    have hlt' : start + more < start + (more + 1) + i := by omega
    show last.hi ≤ _
    exact ho.hi_le_lo hlt' hlast (List.getElem?_eq_getElem _)
  have hinside : sharesOf (((fine.bins.drop start).take (more + 1)).zip
      ((values.drop start).take (more + 1))) ⟨first.lo, last.hi⟩ =
        ((values.drop start).take (more + 1)).sum := by
    have hsnd : (((fine.bins.drop start).take (more + 1)).zip ((values.drop start).take (more + 1))).map
        Prod.snd = (values.drop start).take (more + 1) := List.map_snd_zip (by simp [hlen])
    refine Eq.trans (congrArg List.sum (List.map_congr_left fun p hp => ?_)) (congrArg List.sum hsnd)
    obtain ⟨i, hi, he⟩ := List.mem_take_iff_getElem.1 (List.of_mem_zip hp).1
    rw [List.getElem_drop] at he
    have hget : fine.bins[start + i]? = some p.1 := by
      rw [← he]
      exact List.getElem?_eq_getElem _
    refine shareOf_eq_of_inside p.2 (ho.positive _ (List.mem_of_getElem? hget)) ?_ ?_
    · exact (ho.edges_le (Nat.le_add_right _ _) hfirst hget).1
    · exact (ho.edges_le (by omega) hget hlast).2
  rw [hzip, sharesOf_append, sharesOf_append, hbefore, hbehind, hinside, zero_add, add_zero,
    pick_range' values (by omega)]

/-- The sums of the values of each group. -/
def sums (g : Grouping) (values : List K) : List K := g.groups.map fun group => (pick values group).sum

/-- What stands at the positions of a group in a list that is computed position by position. -/
theorem pick_map_range {β : Type} {f : Nat → β} {count : Nat} {group : List Nat}
    (h : ∀ i ∈ group, i < count) : pick ((List.range count).map f) group = group.map f := by
  refine List.filterMap_eq_map_iff_forall_eq_some.2 fun i hi => ?_
  rw [List.getElem?_map, List.getElem?_range (h i hi)]
  rfl

omit [IsStrictOrderedRing K] [FloorRing K] [LinearOrder K] [Roots K] in
/-- The sums of a grouping of as many values as there are fine bins. -/
theorem Proper.sums_map_range (hg : g.Proper) (f : Nat → K) :
    g.sums ((List.range g.fineLength).map f) = g.groups.map fun group => (group.map f).sum :=
  List.map_congr_left fun group hgroup =>
    congrArg List.sum (pick_map_range fun i hi => ((hg.runs group hgroup).bounds i hi).2)

/-- Rebinning to the grid of a grouping sums the values of each group. -/
theorem rebin_grid_eq_sums (ho : fine.Ordered) (hg : g.Proper) (h : g.grid fine = .ok target)
    {values : List K} (hlen : values.length = fine.length) :
    rebin target fine values = .ok (g.sums values) := by
  obtain ⟨hfine, hbins⟩ := of_grid h
  rw [rebin_eq_shares hlen ho.rises (hg.ordered_of_grid ho h).rises, hbins, List.map_filterMap, sums]
  congr 1
  refine List.filterMap_eq_map_iff_forall_eq_some.2 fun group hgroup => ?_
  obtain ⟨start, more, first, last, rfl, hfirst, hlast⟩ := hg.exists_bins hfine hgroup
  rw [span?_pick hfirst hlast, Option.map_some, sharesOf_run ho hlen hfirst hlast]

omit [IsStrictOrderedRing K] in
theorem sum_eq_sums {values : List K} (hlen : values.length = g.fineLength) :
    (g.sum values : Except (Fault K) (List K)) = .ok (g.sums values) := by
  refine sum_eq_ok.2 ⟨hlen, ?_⟩
  simp only [sums, Scalar.sum_exact]

omit [IsStrictOrderedRing K] [FloorRing K] [LinearOrder K] [Roots K] in
/-- Sums over groups of one bin each are the values. -/
theorem Proper.sums_eq_self (hg : g.Proper) (hlen : g.length = g.fineLength) {values : List K}
    (hvalues : values.length = g.fineLength) : g.sums values = values := by
  rw [sums, hg.groups_eq_of_length hlen, List.map_map, ← hvalues]
  refine List.ext_getElem (by simp) fun i _ hi => ?_
  rw [List.getElem_map, List.getElem_range, Function.comp_apply, pick, List.filterMap_cons,
    List.getElem?_eq_getElem hi]
  exact List.sum_singleton

omit [IsStrictOrderedRing K] [FloorRing K] [LinearOrder K] [Roots K] in
/-- Adding up the sums of several lists is summing over each group what all lists have there. -/
theorem foldl_sums (g : Grouping) (rows : List (List K)) (f : List Nat → K) :
    (rows.map g.sums).foldl (List.zipWith (· + ·)) (g.groups.map f) =
      g.groups.map fun group => f group + (rows.map fun row => (pick row group).sum).sum := by
  induction rows generalizing f with
  | nil => simp
  | cons row rows ih =>
    have hstep : List.zipWith (· + ·) (g.groups.map f) (g.sums row) =
        g.groups.map fun group => f group + (pick row group).sum := by
      rw [sums, List.zipWith_map, List.zipWith_self]
    rw [List.map_cons, List.foldl_cons, hstep, ih]
    simp only [List.map_cons, List.sum_cons, add_assoc]

/-! ### However a grouping is made -/

/-- Over an ordered grid of its fine bins each grouping has a grid, which is ordered, and rebinning any values to
that grid sums them over the groups. -/
theorem overlap_sums_groups {α : Type} [Scalar α] (hmade : Made α g) (ho : fine.Ordered) (hne : fine.bins ≠ [])
    (hlen : fine.length = g.fineLength) :
    ∃ target, g.grid fine = .ok target ∧ target.Ordered ∧
      ∀ values : List K, values.length = g.fineLength →
        ∃ sums, (g.sum values : Except (Fault K) (List K)) = .ok sums ∧ rebin target fine values = .ok sums := by
  have hproper := hmade.whole.proper
  have hgroups := hmade.groups_ne_nil (hlen ▸ List.length_pos_iff.2 hne)
  obtain ⟨target, htarget⟩ := hproper.exists_grid ho hlen.symm hgroups
  refine ⟨target, htarget, hproper.ordered_of_grid ho htarget, fun values hvalues => ?_⟩
  exact ⟨g.sums values, sum_eq_sums hvalues, rebin_grid_eq_sums ho hproper htarget (hvalues.trans hlen.symm)⟩

/-- Fine bins with gaps between them. -/
def spacedBins : Grid ℚ := ⟨[⟨1, 2⟩, ⟨2, 4⟩, ⟨5, 6⟩, ⟨7, 9⟩, ⟨10, 11⟩]⟩

theorem overlap_sums_spaced_bins :
    ∃ g, (ofMask [1, 1, 0, -2, -1] : Except (Fault ℚ) Grouping) = .ok g ∧ spacedBins.Ordered ∧
      g.grid spacedBins = .ok ⟨[⟨1, 4⟩, ⟨7, 11⟩]⟩ ∧
      rebin ⟨[⟨1, 4⟩, ⟨7, 11⟩]⟩ spacedBins [5, -2, 7, 1, 3] = .ok [3, 4] := by
  have hmask : (ofMask [1, 1, 0, -2, -1] : Except (Fault ℚ) Grouping) =
      .ok ⟨[1, 1, 0, -1, -1], [[0, 1], [3, 4]]⟩ := rfl
  have hordered : spacedBins.Ordered := ⟨by decide +kernel, by decide +kernel⟩
  obtain ⟨target, htarget, -, hsums⟩ := overlap_sums_groups (.flags hmask) hordered (by decide) rfl
  obtain ⟨sums, hsum, hrebin⟩ := hsums [5, -2, 7, 1, 3] rfl
  have hbins : (⟨[1, 1, 0, -1, -1], [[0, 1], [3, 4]]⟩ : Grouping).grid spacedBins = .ok ⟨[⟨1, 4⟩, ⟨7, 11⟩]⟩ :=
    Except.toOption_eq_some.1 (by decide +kernel)
  obtain rfl := Except.ok.inj (htarget.symm.trans hbins)
  have hadded : (⟨[1, 1, 0, -1, -1], [[0, 1], [3, 4]]⟩ : Grouping).sum [5, -2, 7, 1, 3] =
      (.ok [3, 4] : Except (Fault ℚ) (List ℚ)) := Except.toOption_eq_some.1 (by decide +kernel)
  obtain rfl := Except.ok.inj (hsum.symm.trans hadded)
  exact ⟨_, hmask, hordered, hbins, hrebin⟩

end SpectralResponse.Grouping
