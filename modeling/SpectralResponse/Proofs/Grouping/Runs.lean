import SpectralResponse.Proofs.Grouping.Whole

/-!
# Runs of a mask

A mask is read from the end: each flag goes in front of the run behind it or starts one of its own. What comes out
can be said without the reading: the runs are the longest stretches of positions whose flags have one sign. Two
such stretches that share a position are the same, so it is enough that each run is one and that no position with
a flag is missing.

## What is proved

* `IsMaximalRun.eq_of_mem` — longest stretches that share a position are the same.
* `reads_runsFrom`, `Reads.mem_map_snd` — the longest stretches of one sign are read, and nothing else.
* `runsFrom_replicate_append`, `runsFrom_alternating` — what is read from masks that are written in a certain way.
-/

namespace SpectralResponse.Grouping

/-! ### Longest stretches -/

/-- The positions are consecutive, at least one, and the condition holds at each of them and at neither
neighbour. -/
def IsMaximalRun (holds : Nat → Prop) (group : List Nat) : Prop :=
  ∃ start more, group = List.range' start (more + 1) ∧ (∀ i ∈ group, holds i) ∧
    (∀ i, i + 1 = start → ¬holds i) ∧ ¬holds (start + more + 1)

namespace IsMaximalRun

variable {holds holds' : Nat → Prop} {a b : List Nat}

theorem holds_of_mem (h : IsMaximalRun holds a) {i : Nat} (hi : i ∈ a) : holds i := by
  obtain ⟨start, more, -, hall, -⟩ := h
  exact hall i hi

/-- A stretch does not start inside another one. -/
theorem start_le {start more start' more' i : Nat} (hbefore : ∀ j, j + 1 = start → ¬holds j)
    (hall : ∀ j ∈ List.range' start' (more' + 1), holds j) (hi : i ∈ List.range' start (more + 1))
    (hi' : i ∈ List.range' start' (more' + 1)) : start ≤ start' := by
  by_contra hlt
  rw [List.mem_range'_1] at hi hi'
  refine hbefore (start - 1) (by omega) (hall (start - 1) ?_)
  rw [List.mem_range'_1]
  omega

/-- A stretch does not end inside another one. -/
theorem end_le {start more start' more' i : Nat} (hbehind : ¬holds (start' + more' + 1))
    (hall : ∀ j ∈ List.range' start (more + 1), holds j) (hi : i ∈ List.range' start (more + 1))
    (hi' : i ∈ List.range' start' (more' + 1)) : start + more ≤ start' + more' := by
  by_contra hlt
  rw [List.mem_range'_1] at hi hi'
  refine hbehind (hall _ ?_)
  rw [List.mem_range'_1]
  omega

/-- Longest stretches that share a position are the same. -/
theorem eq_of_mem (ha : IsMaximalRun holds a) (hb : IsMaximalRun holds b) {i : Nat} (hia : i ∈ a) (hib : i ∈ b) :
    a = b := by
  obtain ⟨start, more, rfl, hall, hbefore, hbehind⟩ := ha
  obtain ⟨start', more', rfl, hall', hbefore', hbehind'⟩ := hb
  have hstart := start_le hbefore hall' hia hib
  have hstart' := start_le hbefore' hall hib hia
  have hend := end_le hbehind' hall hia hib
  have hend' := end_le hbehind hall' hib hia
  obtain rfl : start = start' := Nat.le_antisymm hstart hstart'
  obtain rfl : more = more' := by omega
  rfl

/-- What happens away from a stretch and its neighbours does not matter. -/
theorem congr_of (h : IsMaximalRun holds a) (hin : ∀ i ∈ a, holds i → holds' i)
    (hout : ∀ i, (i + 1 ∈ a ∨ ∃ j ∈ a, i = j + 1) → holds' i → holds i) : IsMaximalRun holds' a := by
  obtain ⟨start, more, rfl, hall, hbefore, hbehind⟩ := h
  refine ⟨start, more, rfl, fun i hi => hin i hi (hall i hi), fun i hi h => ?_, fun h => ?_⟩
  · refine hbefore i hi (hout i (.inl ?_) h)
    rw [List.mem_range'_1]
    omega
  · refine hbehind (hout _ (.inr ⟨start + more, ?_, rfl⟩) h)
    rw [List.mem_range'_1]
    omega

end IsMaximalRun

/-! ### Signs -/

/-- The sign of the flag at a position, and zero where there is no flag. -/
def signAt (mask : List Int) (i : Nat) : Int := (mask[i]?.getD 0).sign

/-- The sign of the flag at a position when the mask starts at `index`. -/
def signFrom (index : Nat) (mask : List Int) (i : Nat) : Int := if i < index then 0 else signAt mask (i - index)

theorem signFrom_of_lt {index i : Nat} (mask : List Int) (h : i < index) : signFrom index mask i = 0 := if_pos h

theorem signFrom_nil (index : Nat) : signFrom index [] = fun _ => 0 := by
  funext i
  simp [signFrom, signAt]

theorem signFrom_cons (index : Nat) (flag : Int) (mask : List Int) :
    signFrom index (flag :: mask) = Function.update (signFrom (index + 1) mask) index flag.sign := by
  funext i
  rcases Nat.lt_trichotomy i index with hlt | rfl | hgt
  · rw [Function.update_of_ne hlt.ne, signFrom_of_lt _ hlt, signFrom_of_lt _ (Nat.lt_succ_of_lt hlt)]
  · simp [signFrom, signAt]
  · have hsucc : i - index = i - (index + 1) + 1 := by omega
    rw [Function.update_of_ne hgt.ne', signFrom, signFrom, if_neg hgt.not_gt, if_neg (Nat.not_lt_of_ge hgt), signAt,
      signAt, hsucc, List.getElem?_cons_succ]

/-- All flags of the group have one sign, and the group is as long as it can be. -/
def IsSignRun (σ : Nat → Int) (sign : Int) (group : List Nat) : Prop :=
  sign ≠ 0 ∧ IsMaximalRun (fun i => σ i = sign) group

/-! ### Reading a mask -/

/-- The runs are the longest stretches of one sign. -/
structure Reads (σ : Nat → Int) (runs : List (Int × List Nat)) : Prop where
  /-- Each run is one. -/
  isSignRun : ∀ run ∈ runs, IsSignRun σ run.1 run.2
  /-- No position with a sign is missing. -/
  mem_positions : ∀ i, σ i ≠ 0 → i ∈ positions runs

section

variable {σ : Nat → Int} {index high : Nat} {sign next : Int} {group : List Nat}
  {runs : List (Int × List Nat)} {first : Int × List Nat}

theorem mem_positions_iff : index ∈ positions runs ↔ ∃ run ∈ runs, index ∈ run.2 := by
  simp only [positions, List.mem_flatten, List.mem_map, exists_exists_and_eq_and]

/-- A run that holds the lowest position starts with it. -/
theorem IsRun.head?_eq (h : IsRun index high group) (hmem : index ∈ group) : group.head? = some index := by
  obtain ⟨start, more, rfl, hle, -⟩ := h
  obtain rfl : start = index := Nat.le_antisymm (List.mem_range'_1.1 hmem).1 hle
  rw [List.range'_succ, List.head?_cons]

/-- Only the first run can hold the lowest position. -/
theorem RunsWithin.not_mem_rest (h : RunsWithin index high (first :: runs)) : ∀ run ∈ runs, index ∉ run.2 := by
  intro run hrun hmem
  have hbefore := (List.pairwise_cons.1 h.ascending).1 run.2 (List.mem_map_of_mem hrun)
  have hbounds := (h.isRun first List.mem_cons_self).bounds
  obtain ⟨start, more, he, -⟩ := h.isRun first List.mem_cons_self
  have hstart : start ∈ first.2 := by
    rw [he, List.mem_range'_1]
    omega
  exact absurd (hbefore start hstart index hmem) (Nat.not_lt_of_le (hbounds start hstart).1)

/-- A new sign in front matters only to a run of the same sign that starts right behind it. -/
theorem IsSignRun.update (h : IsSignRun σ next group) (hlow : ∀ i ∈ group, index < i)
    (hapart : index + 1 ∈ group → sign ≠ next) : IsSignRun (Function.update σ index sign) next group := by
  refine ⟨h.1, h.2.congr_of (fun i hi h => ?_) fun i hi h => ?_⟩
  · rwa [Function.update_of_ne (hlow i hi).ne']
  · rcases eq_or_ne i index with rfl | hne
    · rw [Function.update_self] at h
      rcases hi with hnext | ⟨j, hj, rfl⟩
      · exact absurd h (hapart hnext)
      · exact absurd (hlow j hj) (by omega)
    · rwa [Function.update_of_ne hne] at h

/-- A position that is not followed by its own sign is a run of its own. -/
theorem isSignRun_singleton (hbefore : ∀ i < index, σ i = 0) (hsign : sign ≠ 0) (hnext : σ (index + 1) ≠ sign) :
    IsSignRun (Function.update σ index sign) sign [index] := by
  refine ⟨hsign, index, 0, rfl, fun i hi => ?_, fun i hi h => hsign ?_, fun h => hnext ?_⟩
  · obtain rfl := List.mem_singleton.1 hi
    exact Function.update_self ..
  · rw [← h, Function.update_of_ne (by omega), hbefore i (by omega)]
  · rw [← h, Nat.add_zero, Function.update_of_ne (Nat.succ_ne_self index)]

/-- A position in front of a run of the same sign belongs to it. -/
theorem IsSignRun.cons (h : IsSignRun σ sign group) (hhead : group.head? = some (index + 1))
    (hbefore : ∀ i < index, σ i = 0) : IsSignRun (Function.update σ index sign) sign (index :: group) := by
  obtain ⟨hsign, start, more, rfl, hall, -, hbehind⟩ := h
  obtain rfl : start = index + 1 := by simpa [List.range'_succ] using hhead
  refine ⟨hsign, index, more + 1, rfl, fun i hi => ?_, fun i hi h => hsign ?_, fun h => hbehind ?_⟩
  · rcases eq_or_ne i index with rfl | hne
    · exact Function.update_self ..
    · exact (Function.update_of_ne hne ..).trans (hall i ((List.mem_cons.1 hi).resolve_left hne))
  · rw [← h, Function.update_of_ne (by omega), hbefore i (by omega)]
  · rw [← h, Function.update_of_ne (by omega)]
    exact congrArg σ (by omega)

/-- A position that no run of its own sign starts behind is a run of its own, and the other runs stay. -/
theorem Reads.isSignRun_apart (h : Reads σ runs) (hwithin : RunsWithin (index + 1) high runs)
    (hbefore : ∀ i ≤ index, σ i = 0) (hsign : sign ≠ 0)
    (hapart : ∀ run ∈ runs, index + 1 ∈ run.2 → sign ≠ run.1) :
    ∀ run ∈ (sign, [index]) :: runs, IsSignRun (Function.update σ index sign) run.1 run.2 := by
  have hnext : σ (index + 1) ≠ sign := by
    intro he
    obtain ⟨run, hrun, hmem⟩ := mem_positions_iff.1 (h.mem_positions (index + 1) (he ▸ hsign))
    exact hapart run hrun hmem (he.symm.trans ((h.isSignRun run hrun).2.holds_of_mem hmem))
  refine List.forall_mem_cons.2 ⟨isSignRun_singleton (fun i hi => hbefore i hi.le) hsign hnext, fun run hrun => ?_⟩
  exact (h.isSignRun run hrun).update (fun i hi => ((hwithin.isRun run hrun).bounds i hi).1) (hapart run hrun)

/-- Each run is a longest stretch when a position is put in front. -/
theorem Reads.isSignRun_prependBin (h : Reads σ runs) (hwithin : RunsWithin (index + 1) high runs)
    (hbefore : ∀ i ≤ index, σ i = 0) (hsign : sign ≠ 0) :
    ∀ run ∈ prependBin index sign runs, IsSignRun (Function.update σ index sign) run.1 run.2 := by
  cases runs with
  | nil => exact h.isSignRun_apart hwithin hbefore hsign fun run hrun => absurd hrun List.not_mem_nil
  | cons first rest =>
    obtain ⟨next, group⟩ := first
    obtain ⟨hfirst, hrest⟩ := List.forall_mem_cons.1 h.isSignRun
    rw [prependBin]
    split
    · -- the position belongs to the first run
      rename_i htouch
      obtain ⟨rfl, hhead⟩ := htouch
      refine List.forall_mem_cons.2 ⟨hfirst.cons hhead fun i hi => hbefore i hi.le, fun run hrun => ?_⟩
      exact (hrest run hrun).update (fun i hi => ((hwithin.isRun run (List.mem_cons_of_mem _ hrun)).bounds i hi).1)
        fun hmem => absurd hmem (hwithin.not_mem_rest run hrun)
    · rename_i hapart
      refine h.isSignRun_apart hwithin hbefore hsign (List.forall_mem_cons.2 ⟨fun hmem he => ?_, ?_⟩)
      · exact hapart ⟨he.symm, (hwithin.isRun _ List.mem_cons_self).head?_eq hmem⟩
      · exact fun run hrun hmem => absurd hmem (hwithin.not_mem_rest run hrun)

/-- Putting a position in front of the runs behind it reads one more sign. -/
theorem Reads.prependBin (h : Reads σ runs) (hwithin : RunsWithin (index + 1) high runs)
    (hbefore : ∀ i ≤ index, σ i = 0) (hsign : sign ≠ 0) :
    Reads (Function.update σ index sign) (prependBin index sign runs) := by
  refine ⟨h.isSignRun_prependBin hwithin hbefore hsign, fun i hi => mem_positions_prependBin.2 ?_⟩
  rcases eq_or_ne i index with rfl | hne
  · exact .inl rfl
  · rw [Function.update_of_ne hne] at hi
    exact .inr (h.mem_positions i hi)

end

/-- What is read from a mask are the longest stretches of one sign. -/
theorem reads_runsFrom (index : Nat) (mask : List Int) : Reads (signFrom index mask) (runsFrom index mask) := by
  induction mask generalizing index with
  | nil =>
    rw [signFrom_nil]
    exact ⟨fun run hrun => absurd hrun List.not_mem_nil, fun i hi => absurd rfl hi⟩
  | cons flag mask ih =>
    have hrest := ih (index + 1)
    have hbefore (i : Nat) (hi : i ≤ index) : signFrom (index + 1) mask i = 0 :=
      signFrom_of_lt mask (Nat.lt_succ_of_le hi)
    rw [signFrom_cons, runsFrom]
    split
    · rename_i hzero
      rw [hzero, Int.sign_zero, ← hbefore index (Nat.le_refl _), Function.update_eq_self]
      exact hrest
    · rename_i hflag
      exact hrest.prependBin (runsWithin_runsFrom (index + 1) mask) hbefore
        fun hzero => hflag (Int.sign_eq_zero_iff_zero.1 hzero)

/-- The longest stretches of one sign are read, and nothing else. -/
theorem Reads.mem_map_snd {σ : Nat → Int} {runs : List (Int × List Nat)} (h : Reads σ runs) (group : List Nat) :
    group ∈ runs.map Prod.snd ↔ ∃ sign, IsSignRun σ sign group := by
  constructor
  · intro hgroup
    obtain ⟨run, hrun, rfl⟩ := List.mem_map.1 hgroup
    exact ⟨run.1, h.isSignRun run hrun⟩
  · rintro ⟨sign, hsign, hgroup⟩
    -- the run that holds the first position of the stretch is the stretch
    obtain ⟨start, hstart⟩ : ∃ start, start ∈ group := by
      obtain ⟨start, more, rfl, -⟩ := hgroup
      exact ⟨start, by simp⟩
    have hat : σ start = sign := hgroup.holds_of_mem hstart
    obtain ⟨run, hrun, hmem⟩ := mem_positions_iff.1 (h.mem_positions start (hat ▸ hsign))
    obtain ⟨-, hmaximal⟩ := h.isSignRun run hrun
    obtain rfl : run.1 = sign := (hmaximal.holds_of_mem hmem).symm.trans hat
    rw [hgroup.eq_of_mem hmaximal hstart hmem]
    exact List.mem_map_of_mem hrun

/-- Nothing is read when all flags are zero. -/
theorem runsFrom_eq_nil_iff (index : Nat) {mask : List Int} :
    runsFrom index mask = [] ↔ ∀ flag ∈ mask, flag = 0 := by
  constructor
  · intro hnone flag hflag
    by_contra hne
    obtain ⟨i, hi⟩ := List.mem_iff_getElem?.1 hflag
    have hmem : index + i ∈ positions (runsFrom index mask) :=
      mem_positions_runsFrom.2 ⟨Nat.le_add_right _ _, flag, by rwa [Nat.add_sub_cancel_left], hne⟩
    rw [hnone] at hmem
    exact List.not_mem_nil hmem
  · intro hzero
    induction mask generalizing index with
    | nil => rfl
    | cons flag mask ih =>
      obtain ⟨hflag, hmask⟩ := List.forall_mem_cons.1 hzero
      rw [runsFrom, if_pos hflag, ih (index + 1) hmask]

/-! ### Masks that are written -/

theorem signFrom_self (index : Nat) (mask : List Int) : signFrom index mask index = signAt mask 0 := by
  rw [signFrom, if_neg (Nat.lt_irrefl _), Nat.sub_self]

/-- A flag in front of a different one is a group. -/
theorem runsFrom_cons {flag : Int} (hflag : flag ≠ 0) {mask : List Int} (hapart : signAt mask 0 ≠ flag.sign)
    (index : Nat) : runsFrom index (flag :: mask) = (flag.sign, [index]) :: runsFrom (index + 1) mask := by
  have hread := reads_runsFrom (index + 1) mask
  rw [runsFrom, if_neg hflag]
  cases hruns : runsFrom (index + 1) mask with
  | nil => rfl
  | cons first rest =>
    obtain ⟨next, run⟩ := first
    rw [hruns] at hread
    refine if_neg ?_
    rintro ⟨rfl, hhead⟩
    have hsign := (hread.isSignRun _ List.mem_cons_self).2.holds_of_mem (List.mem_of_head? hhead)
    exact hapart ((signFrom_self _ mask).symm.trans hsign)

/-- Equal flags in front of a different one are a group. -/
theorem runsFrom_replicate_append {flag : Int} (hflag : flag ≠ 0) {mask : List Int}
    (hapart : signAt mask 0 ≠ flag.sign) (index more : Nat) :
    runsFrom index (List.replicate (more + 1) flag ++ mask) =
      (flag.sign, List.range' index (more + 1)) :: runsFrom (index + (more + 1)) mask := by
  induction more generalizing index with
  | zero => exact runsFrom_cons hflag hapart index
  | succ more ih =>
    have htouch : (List.range' (index + 1) (more + 1)).head? = some (index + 1) := by
      rw [List.range'_succ, List.head?_cons]
    rw [List.replicate_succ, List.cons_append, runsFrom, if_neg hflag, ih, prependBin, if_pos ⟨rfl, htouch⟩,
      Nat.add_assoc index, Nat.add_comm 1]
    rfl

/-- The signs of a mask are read as the mask. -/
theorem runsFrom_map_sign (index : Nat) (mask : List Int) : runsFrom index (mask.map Int.sign) = runsFrom index mask := by
  induction mask generalizing index with
  | nil => rfl
  | cons flag mask ih => simp only [List.map_cons, runsFrom, ih, Int.sign_sign, Int.sign_eq_zero_iff_zero]

theorem sign_alternating (i : Nat) : (alternating i).sign = alternating i := by
  rw [alternating]
  split <;> rfl

theorem alternating_succ_ne (i : Nat) : alternating (i + 1) ≠ alternating i := by
  rw [alternating, alternating]
  rcases Nat.mod_two_eq_zero_or_one i with h | h <;> simp [Nat.add_mod, h]

/-- Flags of changing sign are read as bins each on its own. -/
theorem runsFrom_alternating (index count : Nat) : runsFrom index ((List.range' index count).map alternating) =
    (List.range' index count).map fun i => (alternating i, [i]) := by
  induction count generalizing index with
  | zero => rfl
  | succ count ih =>
    have hapart : signAt ((List.range' (index + 1) count).map alternating) 0 ≠ (alternating index).sign := by
      rw [sign_alternating]
      cases count with
      | zero => exact (alternating_ne_zero index).symm
      | succ count =>
        rw [List.range'_succ, List.map_cons, signAt, List.getElem?_cons_zero, Option.getD_some, sign_alternating]
        exact alternating_succ_ne index
    rw [List.range'_succ, List.map_cons, runsFrom_cons (alternating_ne_zero index) hapart, ih, List.map_cons,
      sign_alternating]

end SpectralResponse.Grouping
