import SpectralResponse.Proofs.Grouping.Sums
import SpectralResponse.Proofs.InPlace
import SpectralResponse.Proofs.Spectrum.Tidy
import SpectralResponse.Spectrum.Request

/-!
# Changing a spectrum in place

An edit replaces the arrays of a spectrum one after another, and some edits replace a choice before they know
whether the working bins can be derived from it. On a spectrum whose arrays fit together (`Settled`) this makes
no difference to making a new spectrum. A grouping may be refused after it was put in place; it is taken out
again, which restores the working bins since they were up to date. Other choices are never refused after they
were put in place, since their lengths fit the grouping.

## What is proved

* `perform_regroup` — a grouping that is refused leaves no trace.
* `notice_withFlags` — flagging the members of groups one by one is flagging all of them at once.
* `Settled.perform_edit` — a request carried out in place does what the request answers, or nothing.
-/

namespace SpectralResponse

variable {α : Type}

/-! ### Carrying out edits -/

namespace Edit

variable {β γ : Type}

theorem perform_requireObserved_bind (fault : Nat → Nat → Fault α) (actual : Nat) (f : Unit → Edit α γ)
    (s : Spectrum α) : (requireObserved fault actual >>= f).perform s =
      match requireLength fault s.observedCount actual with
      | .ok b => (f b).perform s
      | .error fault => (.error fault, s) := by
  rw [InPlace.perform_bind, requireObserved, InPlace.perform_get_bind]
  cases requireLength fault s.observedCount actual with
  | ok b => rfl
  | error fault => rfl

end Edit

namespace Spectrum

/-- The outcome of a change that is made as a whole or not at all. -/
def wholly (s : Spectrum α) : Except (Fault α) (Spectrum α) → Except (Fault α) Unit × Spectrum α
  | .ok next => (.ok (), next)
  | .error fault => (.error fault, s)

variable [Scalar α] {s next : Spectrum α}

/-- All working bins are derived before the first array is replaced. -/
theorem perform_rebuild (s : Spectrum α) : Edit.rebuild.perform s = s.wholly s.rebuild := by
  rw [Edit.rebuild, InPlace.perform_get_bind, InPlace.perform_lift_bind, rebuild]
  cases s.derive? with
  | error fault => rfl
  | ok working => rfl

/-- A grouping that is refused is taken out again, and the working bins are derived once more. -/
theorem perform_regroup (hs : s.derive? = .ok s.working) (grouping : Grouping) :
    (Edit.regroup grouping).perform s = s.wholly (s.regroup grouping) := by
  have hagain : s.rebuild = .ok s := by rw [rebuild, hs]; rfl
  rw [Edit.regroup, InPlace.perform_get_bind, InPlace.perform_modify_bind, InPlace.perform_tryCatch, perform_rebuild,
    regroup]
  cases ({ s with grouping }).rebuild with
  | ok next => rfl
  | error fault =>
    show ((Edit.rebuild >>= fun _ => throw fault : Edit α Unit)).perform s = (.error fault, s)
    rw [InPlace.perform_bind, perform_rebuild, hagain]
    rfl

/-! ### Flagging members -/

section

variable (s : Spectrum α) (noticed : Bool)

omit [Scalar α] in
/-- With the flag of one observed bin replaced. -/
def withFlag (member : Nat) : Spectrum α :=
  { s with notice := s.notice.set member (noticed && s.observed.isGood[member]?.getD false) }

omit [Scalar α] in
/-- With the flags of some observed bins replaced, one after another. -/
def withFlags (members : List Nat) : Spectrum α := members.foldl (fun s member => s.withFlag noticed member) s

omit [Scalar α] in
theorem perform_flagMembers (members : List Nat) :
    (members.forM (Edit.flagMember noticed) : Edit α Unit).perform s = (.ok (), s.withFlags noticed members) := by
  induction members generalizing s with
  | nil => rfl
  | cons member members ih => exact ih (s.withFlag noticed member)

omit [Scalar α] in
/-- Only the flags of the observed bins are replaced. -/
theorem withFlags_eq (members : List Nat) :
    s.withFlags noticed members = { s with notice := (s.withFlags noticed members).notice } := by
  induction members generalizing s with
  | nil => rfl
  | cons member members ih => exact ih (s.withFlag noticed member)

omit [Scalar α] in
/-- The flag of a member is replaced, whatever comes after it; the others stay. -/
theorem getElem?_notice_withFlags (members : List Nat) (i : Nat) :
    (s.withFlags noticed members).notice[i]? =
      if i ∈ members then s.notice[i]?.map fun _ => noticed && s.observed.isGood[i]?.getD false
      else s.notice[i]? := by
  induction members generalizing s with
  | nil => rfl
  | cons member members ih =>
    show ((s.withFlag noticed member).withFlags noticed members).notice[i]? = _
    rw [ih]
    simp only [withFlag, List.getElem?_set, List.mem_cons]
    by_cases hi : i = member
    · subst hi
      cases hflag : s.notice[i]? with
      | none => simp [List.getElem?_eq_none_iff.1 hflag]
      | some flag => simp [(List.getElem?_eq_some_iff.1 hflag).1]
    · simp [hi, Ne.symm hi]

omit [Scalar α] in
/-- Flagging the members of groups one after another is flagging all positions that stand in a group. -/
theorem notice_withFlags (hlen : s.observed.isGood.length = s.notice.length) (groups : List (List Nat)) :
    (s.withFlags noticed groups.flatten).notice = s.flagMembers noticed groups := by
  refine List.ext_getElem? fun i => ?_
  rw [getElem?_notice_withFlags, flagMembers, List.getElem?_map, List.getElem?_zipIdx, List.zip_eq_zipWith,
    List.getElem?_zipWith]
  by_cases hi : i < s.notice.length
  · rw [List.getElem?_eq_getElem hi, List.getElem?_eq_getElem (hlen ▸ hi)]
    by_cases hin : ∃ group ∈ groups, i ∈ group
    · simp [hin]
    · simp [hin]
  · rw [List.getElem?_eq_none_iff.2 (Nat.le_of_not_lt hi)]
    simp

/-- The groups that are touched are counted, and their members are flagged. -/
theorem perform_flagWithin (range : Bin α) (touched : Nat) (pairs : List (List Nat × Bin α)) :
    (Edit.flagWithin range noticed touched pairs).perform s =
      let groups := pairs.filterMap fun (group, b) => if b.overlap range ≤ 0 then none else some group
      (.ok (touched + groups.length), s.withFlags noticed groups.flatten) := by
  induction pairs generalizing s touched with
  | nil => rfl
  | cons pair pairs ih =>
    obtain ⟨group, b⟩ := pair
    by_cases hover : b.overlap range ≤ 0
    · simp only [Edit.flagWithin, List.filterMap_cons, if_pos hover]
      exact ih s touched
    · simp only [Edit.flagWithin, List.filterMap_cons, if_neg hover, InPlace.perform_bind, perform_flagMembers, ih]
      rw [List.flatten_cons, withFlags, withFlags, withFlags, List.foldl_append, List.length_cons,
        Nat.add_right_comm, Nat.add_assoc]

end

/-! ### Spectra whose arrays fit together -/

/-- The working bins are up to date, each observed bin has its values, and no bad bin is noticed. -/
structure Settled (s : Spectrum α) : Prop where
  /-- The working bins are up to date. -/
  tidy : s.Tidy
  /-- Each observed bin has a statistical error. -/
  statErrors : s.observed.statErrors.length = s.observedCount
  /-- Each observed bin has a quality. -/
  isGood : s.observed.isGood.length = s.observedCount
  /-- Each observed bin has a systematic error. -/
  sysFractions : s.sysFractions.length = s.observedCount
  /-- No bad bin is noticed. -/
  badIgnored : ∀ i : Nat, s.observed.isGood[i]? = some false → s.notice[i]? = some false

/-- Choices of the right length can be put in place of others: the working bins can be derived from them. -/
theorem Settled.exists_rebuild (hs : s.Settled) (hobserved : next.observed = s.observed)
    (hgrouping : next.grouping = s.grouping) (hfractions : next.sysFractions.length = s.observedCount)
    (hnotice : next.notice.length = s.observedCount) :
    ∃ working, next.rebuild = .ok { next with working } := by
  have hfine : next.grouping.fineLength = s.observedCount := hgrouping ▸ hs.tidy.fineLength
  obtain ⟨statErrors, hstat⟩ : ∃ statErrors, next.derivedStatErrors s.working.counts = .ok statErrors := by
    rw [derivedStatErrors]
    cases next.policy with
    | poisson => exact ⟨_, rfl⟩
    | quadrature =>
      refine ⟨_, Grouping.sumQuadrature_eq_ok.2 ⟨?_, rfl⟩⟩
      rw [hobserved, hfine, hs.statErrors]
  obtain ⟨sysErrors, hsys⟩ : ∃ sysErrors, next.derivedSysErrors = .ok sysErrors := by
    refine ⟨_, Except.bind_eq_ok.2 ⟨_, Grouping.sum_eq_ok.2 ⟨?_, rfl⟩, rfl⟩⟩
    rw [List.length_zipWith, hobserved, hfine, hs.tidy.length_counts, hfractions, Nat.min_self]
  have hgrid : next.grouping.grid next.observed.grid = .ok s.working.grid := by
    rw [hobserved, hgrouping, hs.tidy.working_eq.1]
  have hcounts : next.grouping.sum next.observed.counts = .ok s.working.counts := by
    rw [hobserved, hgrouping, hs.tidy.working_eq.2.1]
  have hflags := (Grouping.any_eq_ok (α := α)).2 ⟨hnotice.trans hfine.symm, rfl⟩
  have hderive : next.derive? = .ok ⟨s.working.grid, s.working.counts, statErrors, sysErrors, _⟩ :=
    derive?_eq_ok.2 ⟨hgrid, hcounts, hstat, hsys, hflags⟩
  exact ⟨_, Except.bind_eq_ok.2 ⟨_, hderive, rfl⟩⟩

namespace Settled

variable (hs : s.Settled)
include hs

/-! ### One request carried out in place -/

/-- Once the choices fit, deriving the working bins from them is not refused. -/
theorem perform_rebuild (hobserved : next.observed = s.observed) (hgrouping : next.grouping = s.grouping)
    (hfractions : next.sysFractions.length = s.observedCount) (hnotice : next.notice.length = s.observedCount) :
    Edit.rebuild.perform next = s.wholly next.rebuild := by
  obtain ⟨working, hrebuild⟩ := hs.exists_rebuild hobserved hgrouping hfractions hnotice
  rw [Spectrum.perform_rebuild, hrebuild]
  rfl

/-- Flags of the right length are taken over for the working bins. -/
theorem perform_renotice {notice : List Bool} (hlen : notice.length = s.observedCount) :
    ∃ next, s.setNotice notice = .ok next ∧ Edit.renotice.perform { s with notice } = (.ok (), next) := by
  have hflags := (Grouping.any_eq_ok (α := α)).2 ⟨hlen.trans hs.tidy.fineLength.symm, rfl⟩
  refine ⟨_, Except.bind_eq_ok.2 ⟨_, hflags, rfl⟩, ?_⟩
  rw [Edit.renotice, InPlace.perform_get_bind, InPlace.perform_lift_bind, hflags]
  rfl

theorem length_flagMembers (noticed : Bool) (groups : List (List Nat)) :
    (s.flagMembers noticed groups).length = s.observedCount := by
  rw [flagMembers, List.length_map, List.length_zipIdx, List.length_zip, hs.tidy.length_notice, hs.isGood,
    Nat.min_self]

/-- Flagging groups replaces the flags of their members. -/
theorem getElem?_flagMembers (noticed : Bool) (groups : List (List Nat)) (i : Nat) :
    (s.flagMembers noticed groups)[i]? =
      if i ∈ groups.flatten then s.notice[i]?.map fun _ => noticed && s.observed.isGood[i]?.getD false
      else s.notice[i]? := by
  rw [← notice_withFlags s noticed (hs.isGood.trans hs.tidy.length_notice.symm), getElem?_notice_withFlags]

/-- A range is noticed or ignored as a whole or not at all. -/
theorem perform_setRange (a b : α) (unit : EdgeUnit) (noticed : Bool) :
    (Edit.setRange a b unit noticed).perform s =
      match s.setRange a b unit noticed with
      | .ok (next, touched) => (.ok touched, next)
      | .error fault => (.error fault, s) := by
  have hlen : s.observed.isGood.length = s.notice.length := hs.isGood.trans hs.tidy.length_notice.symm
  unfold Edit.setRange setRange
  obtain ⟨lo, hi⟩ := if a ≤ b then (a, b) else (b, a)
  dsimp only
  cases canonicalize [lo] [hi] unit with
  | error fault => rfl
  | ok range =>
    let groups := s.groupsWithin ⟨range.grid.min, range.grid.max⟩
    have hflags : (s.withFlags noticed groups.flatten) = { s with notice := s.flagMembers noticed groups } := by
      rw [withFlags_eq, notice_withFlags s noticed hlen]
    obtain ⟨next, hanswer, hedit⟩ := hs.perform_renotice (hs.length_flagMembers noticed groups)
    show (Edit.flagWithin ⟨range.grid.min, range.grid.max⟩ noticed 0 (s.grouping.groups.zip s.working.grid.bins) >>=
      fun touched => Edit.renotice >>= fun _ => pure touched).perform s =
        match s.setNotice (s.flagMembers noticed groups) >>= fun next => .ok (next, groups.length) with
        | .ok (next, touched) => (.ok touched, next)
        | .error fault => (.error fault, s)
    rw [InPlace.perform_bind, perform_flagWithin, hanswer]
    show (Edit.renotice >>= fun _ => pure (0 + groups.length)).perform (s.withFlags noticed groups.flatten) =
      (.ok groups.length, next)
    rw [hflags, InPlace.perform_bind, hedit, Nat.zero_add]
    rfl

/-- A request carried out in place does what it answers, or nothing. -/
theorem perform_edit (request : Request α) : request.edit.perform s = s.wholly (request.answer s) := by
  cases request with
  | rebinByMask mask =>
    show (Edit.rebinByMask mask).perform s = s.wholly (s.rebinByMask mask)
    rw [Edit.rebinByMask, Edit.perform_requireObserved_bind, rebinByMask]
    cases requireLength (fun e a => .spectrum (.mask e a)) s.observedCount mask.length with
    | error fault => rfl
    | ok _ =>
      dsimp only
      rw [InPlace.perform_lift_bind]
      cases (Grouping.ofMask mask : Except (Fault α) Grouping) with
      | error fault => rfl
      | ok grouping => exact perform_regroup hs.tidy.derived grouping
  | groupToCount threshold =>
    show (Edit.groupToCount threshold).perform s = s.wholly (s.groupToCount threshold)
    rw [Edit.groupToCount, InPlace.perform_get_bind, InPlace.perform_lift_bind, groupToCount]
    cases Grouping.leastCount s.observed.counts s.notice threshold with
    | error fault => rfl
    | ok grouping => exact perform_regroup hs.tidy.derived grouping
  | unbin => exact perform_regroup hs.tidy.derived (.identity s.observedCount)
  | configure config => exact hs.perform_rebuild rfl rfl hs.sysFractions hs.tidy.length_notice
  | setSysFractions fractions =>
    show (Edit.setSysFractions fractions).perform s = s.wholly (s.setSysFractions fractions)
    rw [Edit.setSysFractions, Edit.perform_requireObserved_bind, setSysFractions]
    cases hlen : requireLength (fun e a => .spectrum (.sysErrors e a)) s.observedCount fractions.length with
    | error fault => rfl
    | ok _ =>
      have hlen : fractions.length = s.observedCount := (Except.requireLength_eq_ok.1 hlen).symm
      exact hs.perform_rebuild rfl rfl hlen hs.tidy.length_notice
  | setBackground background =>
    show (Edit.setBackground background).perform s = s.wholly (s.setBackground background)
    rw [Edit.setBackground, Edit.perform_requireObserved_bind, setBackground]
    cases requireLength (fun e a => .spectrum (.background e a)) s.observedCount background.counts.length with
    | error fault => rfl
    | ok _ => rfl
  | setRange a b unit noticed =>
    show (Edit.setRange a b unit noticed >>= fun _ => pure ()).perform s = _
    rw [InPlace.perform_bind, hs.perform_setRange, Request.answer]
    cases s.setRange a b unit noticed with
    | error fault => rfl
    | ok outcome => rfl
  | noticeAll =>
    obtain ⟨next, hanswer, hedit⟩ := hs.perform_renotice hs.isGood
    show Edit.renotice.perform { s with notice := s.observed.isGood } = s.wholly (s.setNotice s.observed.isGood)
    rw [hedit, hanswer]
    rfl
  | ignoreAll =>
    have hlen : (s.notice.map fun _ => false).length = s.observedCount := by
      rw [List.length_map, hs.tidy.length_notice]
    obtain ⟨next, hanswer, hedit⟩ := hs.perform_renotice hlen
    show Edit.renotice.perform { s with notice := s.notice.map fun _ => false } = s.wholly s.ignoreAll
    rw [hedit, ignoreAll, hanswer]
    rfl

end Settled

end Spectrum

end SpectralResponse
