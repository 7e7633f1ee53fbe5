import SpectralResponse.Proofs.Grouping.Masks
import Mathlib.Algebra.Order.BigOperators.Group.List

/-!
# Groups of a least count

Grouping to a least count writes a mask from the left and reads the groups back from it. While it is written there
is a group in progress, and there may be a group in front of it that touches. That group is not settled yet: what is
in progress joins it if the run of usable bins ends too early. So the mask is followed from the first bin of the
group in front, and the flags of that group, which have been written, stand before those that are still to come.

## What is proved

* `includes_leastCount` — the bins that can be used are in a group, and no other.
* `Stands.filled` — where the grouping stands at a bin decides what the groups from there on hold.
* `least_count_contract` — which groups come out.
-/

namespace SpectralResponse.Grouping

/-- The bin can be used. -/
def IsUsable (usable : List Bool) (i : Nat) : Prop := usable[i]? = some true

instance (usable : List Bool) (i : Nat) : Decidable (IsUsable usable i) := inferInstanceAs (Decidable (_ = _))

/-! ### Which bins get a flag -/

section

variable {α : Type} [Scalar α] {threshold : α} {p : Progress α}

/-- The signs for the groups are not zero. -/
structure Progress.Signed (p : Progress α) : Prop where
  /-- The group in progress has a sign. -/
  sign : p.sign ≠ 0
  /-- So has the group before. -/
  previous : ∀ q ∈ p.previous, q.1 ≠ 0

namespace Progress.Signed

theorem start : (Progress.start : Progress α).Signed := ⟨one_ne_zero, fun _ hq => by cases hq⟩

theorem shortSigns (h : p.Signed) : (p.shortSigns threshold).1 ≠ 0 ∧ (p.shortSigns threshold).2 ≠ 0 := by
  rw [Progress.shortSigns]
  split
  · rename_i sign total hprevious
    split
    · exact ⟨h.previous (sign, total) hprevious, h.sign⟩
    · exact ⟨h.sign, neg_ne_zero.2 h.sign⟩
  · exact ⟨h.sign, neg_ne_zero.2 h.sign⟩

theorem afterGap (h : p.Signed) : (p.afterGap threshold).Signed := by
  refine ⟨?_, fun _ hq => by cases hq⟩
  rw [Progress.afterGap]
  dsimp only
  split
  · exact h.sign
  · exact h.shortSigns.2

theorem take (h : p.Signed) (value : α) : (p.take value).Signed := ⟨h.sign, h.previous⟩

theorem afterGroup (h : p.Signed) : p.afterGroup.Signed := by
  refine ⟨neg_ne_zero.2 h.sign, fun q hq => ?_⟩
  cases hq
  exact h.sign

end Progress.Signed

/-- The bins in progress and those that can be used get a flag, and no other. -/
theorem leastCountMask_flags (h : p.Signed) (bins : List (α × Bool)) :
    (leastCountMask threshold p bins).map (fun flag => decide (flag ≠ 0)) =
      List.replicate p.bins true ++ bins.map Prod.snd := by
  have hflags {p : Progress α} (h : p.Signed) :
      (p.shortFlags threshold).map (fun flag => decide (flag ≠ 0)) = List.replicate p.bins true := by
    rw [Progress.shortFlags, List.map_replicate, decide_eq_true h.shortSigns.1]
  induction bins generalizing p with
  | nil => rw [leastCountMask, hflags h, List.map_nil, List.append_nil]
  | cons bin bins ih =>
    obtain ⟨value, usable⟩ := bin
    rw [leastCountMask]
    cases usable with
    | false =>
      rw [if_neg Bool.false_ne_true, List.map_append, List.map_cons, hflags h, ih h.afterGap]
      rfl
    | true =>
      have hnext := h.take value
      have hone : List.replicate (p.take value).bins true ++ bins.map Prod.snd =
          List.replicate p.bins true ++ true :: bins.map Prod.snd := by
        rw [Progress.take, List.replicate_succ', List.append_assoc, List.singleton_append]
      dsimp only
      rw [if_pos rfl, List.map_cons, ← hone]
      split
      · rw [List.map_append, List.map_replicate, decide_eq_true hnext.sign, ih hnext.afterGroup]
        rfl
      · exact ih hnext

variable {counts : List α} {usable : List Bool} {g : Grouping}

/-- From the first bin on each usable bin gets a flag, and no other. -/
theorem leastCountMask_start (threshold : α) (hlen : counts.length = usable.length) :
    (leastCountMask threshold .start (counts.zip usable)).map (fun flag => decide (flag ≠ 0)) = usable := by
  rw [leastCountMask_flags .start, List.map_snd_zip (Nat.le_of_eq hlen.symm)]
  rfl

/-- Where a bin can be used there is a group. -/
theorem exists_ofMask_leastCountMask (threshold : α) (hlen : counts.length = usable.length)
    (hsome : true ∈ usable) :
    ∃ g, (ofMask (leastCountMask threshold .start (counts.zip usable)) : Except (Fault α) Grouping) = .ok g := by
  cases hmask : (ofMask (leastCountMask threshold .start (counts.zip usable)) : Except (Fault α) Grouping) with
  | ok g => exact ⟨g, rfl⟩
  | error fault =>
    rw [← leastCountMask_start threshold hlen] at hsome
    obtain ⟨flag, hflag, hne⟩ := List.mem_map.1 hsome
    exact absurd (ofMask_eq_error_iff.1 ⟨fault, hmask⟩ flag hflag) (of_decide_eq_true hne)

/-- The usable bins are in a group, and no other. -/
theorem includes_leastCount (h : leastCount counts usable threshold = .ok g) :
    g.fineLength = usable.length ∧ ∀ i, g.includes i = decide (IsUsable usable i) := by
  obtain ⟨hlen, -, hmask⟩ := leastCount_eq_ok.1 h
  have hflags := leastCountMask_start threshold hlen
  have hincludes := includes_ofMask hmask
  rw [(proper_ofMask hmask).2]
  generalize leastCountMask threshold .start (counts.zip usable) = mask at hflags hincludes
  subst hflags
  refine ⟨(List.length_map _).symm, fun i => ?_⟩
  rw [hincludes, decide_eq_decide, IsUsable, List.getElem?_map, signAt, ne_eq, Int.sign_eq_zero_iff_zero]
  cases mask[i]? <;> simp

end

/-! ### What the groups hold -/

section

variable {K : Type} [Field K]

/-- The counts of a group. -/
def totalOf (counts : List K) (group : List Nat) : K := (group.map (valueAt counts)).sum

/-- The counts of consecutive bins add up. -/
theorem totalOf_range' (counts : List K) (first m n : Nat) : totalOf counts (List.range' first (m + n)) =
    totalOf counts (List.range' first m) + totalOf counts (List.range' (first + m) n) := by
  rw [totalOf, ← List.range'_append_1, List.map_append, List.sum_append]
  rfl

theorem totalOf_range'_succ (counts : List K) (first n : Nat) : totalOf counts (List.range' first (n + 1)) =
    totalOf counts (List.range' first n) + valueAt counts (first + n) := by
  rw [totalOf_range', List.range'_one]
  exact congrArg _ List.sum_singleton

variable [LinearOrder K]

theorem totalOf_nonneg [IsStrictOrderedRing K] {counts : List K} (hnonneg : ∀ c ∈ counts, 0 ≤ c) (group : List Nat) :
    0 ≤ totalOf counts group := by
  refine List.sum_nonneg (List.forall_mem_map.2 fun i _ => ?_)
  rw [valueAt]
  cases hi : counts[i]? with
  | none => exact le_refl _
  | some c => exact hnonneg c (List.mem_of_getElem? hi)

/-- What a group of a least count holds. -/
structure Filled (counts : List K) (usable : List Bool) (threshold : K) (group : List Nat) : Prop where
  /-- A group short of the count is all there is between bins that cannot be used. -/
  whole : totalOf counts group < threshold → IsMaximalRun (IsUsable usable) group
  /-- A group that is followed by a usable bin is short of the count without its last bin. -/
  tight : ∀ last ∈ group.getLast?, IsUsable usable (last + 1) → totalOf counts group.dropLast < threshold

end

/-! ### Bins that are still to come -/

section

variable {K : Type} [Field K] {counts : List K} {usable : List Bool} {i : Nat}

omit [Field K] in
theorem not_isUsable_of_drop (hlen : counts.length = usable.length) (h : (counts.zip usable).drop i = []) :
    ¬IsUsable usable i := by
  have hle := List.drop_eq_nil_iff.1 h
  rw [List.length_zip, hlen, Nat.min_self] at hle
  rw [IsUsable, List.getElem?_eq_none hle]
  exact nofun

theorem of_drop_eq_cons {value : K} {flag : Bool} {bins : List (K × Bool)}
    (h : (counts.zip usable).drop i = (value, flag) :: bins) :
    valueAt counts i = value ∧ usable[i]? = some flag ∧ (counts.zip usable).drop (i + 1) = bins := by
  have hbin : (counts.zip usable)[i]? = some (value, flag) := by
    rw [← List.head?_drop, h, List.head?_cons]
  obtain ⟨hvalue, hflag⟩ := List.getElem?_zip_eq_some.1 hbin
  refine ⟨?_, hflag, ?_⟩
  · rw [valueAt, hvalue, Option.getD_some]
  · rw [← List.drop_drop, h, List.drop_succ_cons, List.drop_zero]

end

/-! ### Where the grouping stands -/

section

variable {K : Type} [Field K] [LinearOrder K] {counts : List K} {usable : List Bool} {threshold : K}
  {p : Progress K} {first before : Nat}

/-- The group in front has `before` bins from `first` on, or there is none; the group in progress comes next. -/
structure Stands (counts : List K) (usable : List Bool) (threshold : K) (first before : Nat) (p : Progress K) :
    Prop where
  /-- The group in progress has a sign. -/
  sign : p.sign ≠ 0
  /-- All their bins can be used. -/
  bins : ∀ i ∈ List.range' first (before + p.bins), IsUsable usable i
  /-- When there is no group in front, no usable bin is in front. -/
  alone : before = 0 → p.previous = none ∧ ∀ i, i + 1 = first → ¬IsUsable usable i
  /-- A group in front has the other sign and its own total. -/
  follows : before ≠ 0 → p.previous = some (-p.sign, totalOf counts (List.range' first before))
  /-- It has reached the count with its last bin. -/
  full : before ≠ 0 → threshold ≤ totalOf counts (List.range' first before) ∧
    totalOf counts (List.range' first (before - 1)) < threshold
  /-- The total in progress is that of its bins. -/
  total : p.total = totalOf counts (List.range' (first + before) p.bins)
  /-- It is short of the count. -/
  short : p.total < threshold

namespace Stands

theorem start [FloorRing K] [Roots K] (hpos : 0 < threshold) : Stands counts usable threshold 0 0 .start where
  sign := one_ne_zero
  bins _ hi := absurd hi List.not_mem_nil
  alone _ := ⟨rfl, fun i hi => absurd hi (Nat.succ_ne_zero i)⟩
  follows h := absurd rfl h
  full h := absurd rfl h
  total := rfl
  short := hpos

variable (h : Stands counts usable threshold first before p)
include h

theorem signed : p.Signed := by
  refine ⟨h.sign, fun q hq => ?_⟩
  by_cases he : before = 0
  · rw [(h.alone he).1] at hq
    cases hq
  · rw [h.follows he] at hq
    cases hq
    exact neg_ne_zero.2 h.sign

/-- The next bin can be used as well. -/
theorem bins_succ (hbin : IsUsable usable (first + (before + p.bins))) :
    ∀ i ∈ List.range' first (before + (p.bins + 1)), IsUsable usable i := by
  rw [← Nat.add_assoc, List.range'_1_concat]
  intro i hi
  rcases List.mem_append.1 hi with hi | hi
  · exact h.bins i hi
  · rwa [List.mem_singleton.1 hi]

/-- With the next bin the group in progress has this total. -/
theorem total_succ : p.total + valueAt counts (first + (before + p.bins)) =
    totalOf counts (List.range' (first + before) (p.bins + 1)) := by
  rw [totalOf_range'_succ, ← h.total, Nat.add_assoc]

/-- The group in front is settled when the next group begins. -/
theorem filled_front (hfront : before ≠ 0) : Filled counts usable threshold (List.range' first before) where
  whole hlt := absurd (h.full hfront).1 hlt.not_ge
  tight _ _ _ := by
    obtain ⟨n, rfl⟩ := Nat.exists_eq_succ_of_ne_zero hfront
    rw [List.range'_1_concat, List.dropLast_concat]
    exact (h.full hfront).2

/-- The group in progress is settled, with the group in front if there is one, when the run of usable bins ends. -/
theorem filled_end [IsStrictOrderedRing K] (hnonneg : ∀ c ∈ counts, 0 ≤ c) {n : Nat} (hn : before + p.bins = n + 1)
    (hend : ¬IsUsable usable (first + (before + p.bins))) :
    Filled counts usable threshold (List.range' first (n + 1)) where
  whole hlt := by
    by_cases hfront : before = 0
    · refine ⟨first, n, rfl, hn ▸ h.bins, (h.alone hfront).2, ?_⟩
      rwa [Nat.add_assoc, ← hn]
    · rw [← hn, totalOf_range'] at hlt
      exact absurd (add_le_add (h.full hfront).1 (totalOf_nonneg hnonneg _)) (by rw [add_zero]; exact hlt.not_ge)
  tight last hlast hnext := by
    rw [List.range'_1_concat, List.getLast?_concat] at hlast
    obtain rfl := Option.some.inj hlast
    rw [hn] at hend
    exact absurd hnext hend

/-- Another sign settles the group in front. -/
theorem filled_of_next {mask : List Int} (hmask : signAt mask 0 = p.sign.sign) :
    ∀ run ∈ runsFrom first (List.replicate before (-p.sign) ++ mask),
      Filled counts usable threshold run.2 ∨ run ∈ runsFrom (first + before) mask := by
  cases before with
  | zero => exact fun run hrun => .inr hrun
  | succ n =>
    have hsign : p.sign.sign ≠ 0 := fun hzero => h.sign (Int.sign_eq_zero_iff_zero.1 hzero)
    have hapart : signAt mask 0 ≠ (-p.sign).sign := by
      rw [hmask, Int.sign_neg]
      omega
    rw [runsFrom_replicate_append (neg_ne_zero.2 h.sign) hapart]
    intro run hrun
    rcases List.mem_cons.1 hrun with rfl | hrun
    · exact .inl (h.filled_front (Nat.succ_ne_zero n))
    · exact .inr hrun

variable [FloorRing K] [Roots K]

/-- After a bin that cannot be used nothing is in front. -/
theorem afterGap (hpos : 0 < threshold) (hgap : ¬IsUsable usable (first + (before + p.bins))) :
    Stands counts usable threshold (first + (before + p.bins) + 1) 0 (p.afterGap threshold) where
  sign := h.signed.afterGap.sign
  bins _ hi := absurd hi List.not_mem_nil
  alone _ := ⟨rfl, fun _ hi => Nat.add_right_cancel hi ▸ hgap⟩
  follows h := absurd rfl h
  full h := absurd rfl h
  total := rfl
  short := hpos

/-- With one more bin the count is not reached. -/
theorem take (hbin : IsUsable usable (first + (before + p.bins)))
    (hshort : p.total + valueAt counts (first + (before + p.bins)) < threshold) :
    Stands counts usable threshold first before (p.take (valueAt counts (first + (before + p.bins)))) where
  sign := h.sign
  bins := h.bins_succ hbin
  alone := h.alone
  follows := h.follows
  full := h.full
  total := h.total_succ
  short := hshort

/-- With one more bin the count is reached. -/
theorem afterGroup (hpos : 0 < threshold) (hbin : IsUsable usable (first + (before + p.bins)))
    (hfull : threshold ≤ p.total + valueAt counts (first + (before + p.bins))) :
    Stands counts usable threshold (first + before) (p.bins + 1)
      (p.take (valueAt counts (first + (before + p.bins)))).afterGroup where
  sign := neg_ne_zero.2 h.sign
  bins i hi := by
    refine h.bins_succ hbin i ?_
    rw [← List.range'_append_1]
    exact List.mem_append_right _ hi
  alone he := absurd he (Nat.succ_ne_zero _)
  follows _ := by
    rw [← h.total_succ]
    exact congrArg some (Prod.ext (neg_neg p.sign).symm rfl)
  full _ := by
    rw [← h.total_succ, Nat.add_sub_cancel, ← h.total]
    exact ⟨hfull, h.short⟩
  total := rfl
  short := hpos

/-! ### Reading the groups back -/

variable [IsStrictOrderedRing K]

/-- When the run of usable bins ends, what is in progress joins the group in front if there is one. -/
theorem end_flags (hnonneg : ∀ c ∈ counts, 0 ≤ c) : ∃ flag ≠ 0,
    List.replicate before (-p.sign) ++ p.shortFlags threshold = List.replicate (before + p.bins) flag := by
  by_cases hfront : before = 0
  · refine ⟨p.sign, h.sign, ?_⟩
    rw [hfront, Progress.shortFlags, Progress.shortSigns, (h.alone hfront).1, Nat.zero_add]
    rfl
  · refine ⟨-p.sign, neg_ne_zero.2 h.sign, ?_⟩
    have hreached : threshold ≤ totalOf counts (List.range' first before) + p.total := by
      rw [h.total]
      exact (h.full hfront).1.trans (le_add_of_nonneg_right (totalOf_nonneg hnonneg _))
    rw [Progress.shortFlags, Progress.shortSigns, h.follows hfront]
    dsimp only
    rw [if_pos hreached, List.replicate_append_replicate]

/-- The end of a run of usable bins settles all groups so far. -/
theorem filled_of_end (hnonneg : ∀ c ∈ counts, 0 ≤ c) (hend : ¬IsUsable usable (first + (before + p.bins)))
    {mask : List Int} (hmask : signAt mask 0 = 0) :
    ∀ run ∈ runsFrom first (List.replicate before (-p.sign) ++ (p.shortFlags threshold ++ mask)),
      Filled counts usable threshold run.2 ∨ run ∈ runsFrom (first + (before + p.bins)) mask := by
  obtain ⟨flag, hflag, hflags⟩ := h.end_flags hnonneg
  rw [← List.append_assoc, hflags]
  cases hn : before + p.bins with
  | zero => exact fun run hrun => .inr hrun
  | succ n =>
    have hapart : signAt mask 0 ≠ flag.sign := by
      rw [hmask]
      exact fun hzero => hflag (Int.sign_eq_zero_iff_zero.1 hzero.symm)
    rw [runsFrom_replicate_append hflag hapart]
    intro run hrun
    rcases List.mem_cons.1 hrun with rfl | hrun
    · exact .inl (h.filled_end hnonneg hn hend)
    · exact .inr hrun

/-- From where the grouping stands all groups hold what they should. -/
theorem filled (hpos : 0 < threshold) (hnonneg : ∀ c ∈ counts, 0 ≤ c) (hlen : counts.length = usable.length)
    {bins : List (K × Bool)} (hbins : (counts.zip usable).drop (first + (before + p.bins)) = bins) :
    ∀ run ∈ runsFrom first (List.replicate before (-p.sign) ++ leastCountMask threshold p bins),
      Filled counts usable threshold run.2 := by
  induction bins generalizing first before p with
  | nil =>
    have hend := not_isUsable_of_drop hlen hbins
    intro run hrun
    rw [leastCountMask, ← List.append_nil (p.shortFlags threshold)] at hrun
    exact (h.filled_of_end hnonneg hend rfl run hrun).elim id fun hnone => absurd hnone List.not_mem_nil
  | cons bin bins ih =>
    obtain ⟨value, flag⟩ := bin
    obtain ⟨rfl, hflag, hrest⟩ := of_drop_eq_cons hbins
    intro run hrun
    rw [leastCountMask] at hrun
    cases flag with
    | false =>
      have hgap : ¬IsUsable usable (first + (before + p.bins)) := by
        rw [IsUsable, hflag, Option.some_inj]
        exact Bool.false_ne_true
      rw [if_neg Bool.false_ne_true] at hrun
      rcases h.filled_of_end hnonneg hgap rfl run hrun with hfilled | hrun
      · exact hfilled
      · exact ih (h.afterGap hpos hgap) hrest run hrun
    | true =>
      dsimp only at hrun
      rw [if_pos rfl] at hrun
      split at hrun
      · rename_i hfull
        have hnext := h.afterGroup hpos hflag hfull
        have hbehind : (counts.zip usable).drop (first + before + (p.bins + 1 + 0)) = bins := by
          rw [← hrest]
          congr 1
          omega
        rcases h.filled_of_next rfl run hrun with hfilled | hrun
        · exact hfilled
        · refine ih hnext hbehind run ?_
          rwa [Progress.afterGroup, neg_neg]
      · rename_i hshort
        exact ih (h.take hflag (not_le.1 hshort)) hrest run hrun

end Stands

end

/-! ### The groups -/

section

variable {K : Type} [Field K] [LinearOrder K] [FloorRing K] [Roots K] [IsStrictOrderedRing K] {counts : List K}
  {usable : List Bool} {threshold : K}

/-- When some bin can be used, grouping to a positive count gives groups of consecutive usable bins that hold each
usable bin once and no other. Where no count is negative, a group is short of the count only if it is all there is
between bins that cannot be used, and a group that does not end its run is short of the count without its last bin. -/
theorem least_count_contract (hlen : counts.length = usable.length) (hsome : true ∈ usable) (hpos : 0 < threshold) :
    ∃ g, leastCount counts usable threshold = .ok g ∧
      (∀ group ∈ g.groups, (∃ start more, group = List.range' start (more + 1)) ∧ ∀ i ∈ group, IsUsable usable i) ∧
      g.groups.flatten = (List.range usable.length).filter (fun i => IsUsable usable i) ∧
      ((∀ c ∈ counts, 0 ≤ c) → ∀ group ∈ g.groups, Filled counts usable threshold group) := by
  have hthreshold : ¬((!Scalar.isFinite threshold || threshold ≤ 0) = true) := by
    simp [Scalar.isFinite, hpos]
  obtain ⟨g, hmask⟩ := exists_ofMask_leastCountMask threshold hlen hsome
  have hg : leastCount counts usable threshold = .ok g := leastCount_eq_ok.2 ⟨hlen, hthreshold, hmask⟩
  have hwhole := whole_ofMask hmask
  obtain ⟨hfine, hincludes⟩ := includes_leastCount hg
  refine ⟨g, hg, fun group hgroup => ⟨?_, fun i hi => ?_⟩, ?_, fun hnonneg group hgroup => ?_⟩
  · obtain ⟨start, more, he, -⟩ := hwhole.proper.runs group hgroup
    exact ⟨start, more, he⟩
  · have hin := hwhole.includes_of_mem hgroup hi
    rw [hincludes] at hin
    exact of_decide_eq_true hin
  · rw [hwhole.flatten_groups, hfine]
    exact List.filter_congr fun i _ => hincludes i
  · obtain ⟨-, rfl⟩ := ofMask_eq_ok.1 hmask
    obtain ⟨run, hrun, rfl⟩ := List.mem_map.1 hgroup
    exact (Stands.start hpos).filled hpos hnonneg hlen rfl run hrun

end

/-- Counts of bins, one of which cannot be used. -/
def fewCounts : List ℚ := [3, 2, 5, 1, 1, 9, 1, 0, 2]

/-- Which of the bins can be used. -/
def fewUsable : List Bool := [true, true, true, true, true, false, true, true, true]

theorem few_counts_are_grouped :
    ∃ g, leastCount fewCounts fewUsable 5 = .ok g ∧ g.groups = [[0, 1], [2, 3, 4], [6, 7, 8]] ∧
      g.groups.flatten = (List.range 9).filter (fun i => IsUsable fewUsable i) ∧
      totalOf fewCounts [0] < 5 ∧ IsMaximalRun (IsUsable fewUsable) [6, 7, 8] := by
  have hpositive : (0 : ℚ) < 5 := by decide
  have hsome : true ∈ fewUsable := by decide
  have hlen : fewCounts.length = fewUsable.length := rfl
  obtain ⟨g, hg, -, hflatten, hfilled⟩ := least_count_contract hlen hsome hpositive
  have hgroups : leastCount fewCounts fewUsable 5 =
      .ok ⟨[1, 1, -1, -1, -1, 0, 1, 1, 1], [[0, 1], [2, 3, 4], [6, 7, 8]]⟩ :=
    Except.toOption_eq_some.1 (by decide +kernel)
  obtain rfl := Except.ok.inj (hg.symm.trans hgroups)
  have hnonneg : ∀ c ∈ fewCounts, 0 ≤ c := by decide
  exact ⟨_, hg, rfl, hflatten, (hfilled hnonneg [0, 1] (by decide)).tight 1 rfl rfl,
    (hfilled hnonneg [6, 7, 8] (by decide)).whole (by decide +kernel)⟩

end SpectralResponse.Grouping
