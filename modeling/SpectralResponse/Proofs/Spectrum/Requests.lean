import SpectralResponse.Proofs.Scalar.Rational
import SpectralResponse.Proofs.Spectrum.InPlace

/-!
# Spectra under requests

A spectrum that is made is settled, every request keeps it settled, and so it is after any number of them.
From this follow what the working bins are at any time, and that a failing request changes nothing.

## What is proved

* `Settled.of_answer` — one step: what a request answers is settled, and was observed likewise.
* `Settled.afterRequests` — a run: a spectrum stays settled, whether the requests succeed or fail.
* `working_bins_follow_originals` — what the arrays of a spectrum are after any number of requests.
-/

namespace SpectralResponse.Spectrum

variable {α : Type} [Scalar α] {s next : Spectrum α}

namespace Settled

variable (hs : s.Settled)
include hs

/-! ### What a request keeps -/

/-- Bringing the working bins up to date keeps the arrays together when the choices fit. -/
theorem of_rebuild (chosen : Spectrum α) (h : chosen.rebuild = .ok next) (hobserved : chosen.observed = s.observed)
    (hwhole : chosen.grouping.Whole) (hfractions : chosen.sysFractions.length = s.observedCount)
    (hnotice : chosen.notice = s.notice) (hbackground : chosen.background = s.background) :
    next.Settled ∧ next.observed = s.observed ∧
      (next.policy, next.errorFloor) = (chosen.policy, chosen.errorFloor) := by
  have htidy : next.Tidy := by
    refine tidy_of_rebuild h hwhole fun b hb => ?_
    rw [observedCount, hobserved]
    exact hs.tidy.background b (hbackground ▸ hb)
  obtain ⟨working, -, h⟩ := Except.bind_eq_ok.1 h
  cases Except.ok.inj h
  refine ⟨⟨htidy, ?_, ?_, ?_, ?_⟩, hobserved, rfl⟩
  · rw [observedCount, hobserved]
    exact hs.statErrors
  · rw [observedCount, hobserved]
    exact hs.isGood
  · rw [observedCount, hobserved]
    exact hfractions
  · intro i hi
    rw [hnotice]
    exact hs.badIgnored i (hobserved ▸ hi)

/-- Another grouping keeps the arrays together. -/
theorem of_regroup {grouping : Grouping} (hwhole : grouping.Whole) (h : s.regroup grouping = .ok next) :
    next.Settled ∧ next.observed = s.observed ∧ (next.policy, next.errorFloor) = (s.policy, s.errorFloor) :=
  hs.of_rebuild { s with grouping } h rfl hwhole hs.sysFractions rfl rfl

/-- Other flags keep the arrays together if they notice no bad bin. -/
theorem of_setNotice {notice : List Bool} (h : s.setNotice notice = .ok next)
    (hbad : ∀ i : Nat, s.observed.isGood[i]? = some false → notice[i]? = some false) :
    next.Settled ∧ next.observed = s.observed ∧ (next.policy, next.errorFloor) = (s.policy, s.errorFloor) := by
  have htidy := hs.tidy.setNotice h
  obtain ⟨flags, -, h⟩ := Except.bind_eq_ok.1 h
  cases Except.ok.inj h
  exact ⟨⟨htidy, hs.statErrors, hs.isGood, hs.sysFractions, hbad⟩, rfl, rfl⟩

/-- Flagging groups notices no bad bin. -/
theorem flagMembers_of_bad (noticed : Bool) (groups : List (List Nat)) {i : Nat}
    (hi : s.observed.isGood[i]? = some false) : (s.flagMembers noticed groups)[i]? = some false := by
  rw [hs.getElem?_flagMembers, hs.badIgnored i hi, hi]
  simp

/-- One step: what a request answers fits together as well, and was observed likewise. -/
theorem of_answer {request : Request α} (h : request.answer s = .ok next) :
    next.Settled ∧ next.observed = s.observed ∧
      (next.policy, next.errorFloor) = request.errors (s.policy, s.errorFloor) := by
  cases request with
  | rebinByMask mask =>
    obtain ⟨⟨⟩, -, h⟩ := Except.bind_eq_ok.1 h
    obtain ⟨grouping, hmask, h⟩ := Except.bind_eq_ok.1 h
    exact hs.of_regroup (Grouping.whole_ofMask hmask) h
  | groupToCount threshold =>
    obtain ⟨grouping, hleast, h⟩ := Except.bind_eq_ok.1 h
    exact hs.of_regroup (Grouping.whole_leastCount hleast) h
  | unbin => exact hs.of_regroup (Grouping.whole_identity _) h
  | configure config => exact hs.of_rebuild _ h rfl hs.tidy.whole hs.sysFractions rfl rfl
  | setSysFractions fractions =>
    obtain ⟨⟨⟩, hlen, h⟩ := Except.bind_eq_ok.1 h
    have hlen : fractions.length = s.observedCount := (Except.requireLength_eq_ok.1 hlen).symm
    exact hs.of_rebuild { s with sysFractions := fractions } h rfl hs.tidy.whole hlen rfl rfl
  | setBackground background =>
    have htidy := hs.tidy.setBackground h
    obtain ⟨⟨⟩, -, h⟩ := Except.bind_eq_ok.1 h
    cases Except.ok.inj h
    exact ⟨⟨htidy, hs.statErrors, hs.isGood, hs.sysFractions, hs.badIgnored⟩, rfl, rfl⟩
  | setRange a b unit noticed =>
    obtain ⟨⟨next', touched⟩, hrange, h⟩ := Except.bind_eq_ok.1 h
    cases Except.ok.inj h
    obtain ⟨range, -, hrange⟩ := Except.bind_eq_ok.1 hrange
    obtain ⟨next', hnotice, hrange⟩ := Except.bind_eq_ok.1 hrange
    cases Except.ok.inj hrange
    exact hs.of_setNotice hnotice fun i hi => hs.flagMembers_of_bad noticed _ hi
  | noticeAll => exact hs.of_setNotice h fun i hi => hi
  | ignoreAll =>
    refine hs.of_setNotice h fun i hi => ?_
    rw [List.getElem?_map, hs.badIgnored i hi, Option.map_some]

/-- A configuration is never refused, and no other request changes how errors are derived. -/
theorem errors_of_refused {request : Request α} {fault : Fault α} (h : request.answer s = .error fault)
    (current : StatErrorPolicy × α) : request.errors current = current := by
  cases request with
  | configure config =>
    let chosen := { s with policy := config.statErrorPolicy, errorFloor := config.defaultUncertainty }
    obtain ⟨working, hrebuild⟩ : ∃ working, chosen.rebuild = .ok { chosen with working } :=
      hs.exists_rebuild rfl rfl hs.sysFractions hs.tidy.length_notice
    cases hrebuild.symm.trans h
  | _ => rfl

/-- A run: after any number of requests, failed ones included, the arrays fit together, what was observed is the
same, and errors are derived as the last configuration says. -/
theorem afterRequests (requests : List (Request α)) :
    (s.afterRequests requests).Settled ∧ (s.afterRequests requests).observed = s.observed ∧
      ((s.afterRequests requests).policy, (s.afterRequests requests).errorFloor) =
        requests.foldl Request.errors (s.policy, s.errorFloor) := by
  induction requests generalizing s with
  | nil => exact ⟨hs, rfl, rfl⟩
  | cons request requests ih =>
    rw [Spectrum.afterRequests, List.foldl_cons, List.foldl_cons, hs.perform_edit]
    cases hanswer : request.answer s with
    | error fault =>
      rw [hs.errors_of_refused hanswer]
      exact ih hs
    | ok next =>
      obtain ⟨hsettled, hobserved, herrors⟩ := hs.of_answer hanswer
      rw [← hobserved, ← herrors]
      exact ih hsettled

end Settled

/-! ### Spectra that are made -/

omit [Scalar α] in
/-- Values that are given, or those that stand in for them, are one for each bin. -/
theorem of_givenOr {β : Type} {fault : Nat → Nat → Fault α} {count : Nat} {given? : Option (List β)}
    {default values : List β} (h : givenOr fault count given? default = .ok values)
    (hdefault : default.length = count) : values = given?.getD default ∧ values.length = count := by
  cases given? with
  | none =>
    cases Except.ok.inj h
    exact ⟨rfl, hdefault⟩
  | some given =>
    obtain ⟨⟨⟩, hlen, h⟩ := Except.bind_eq_ok.1 h
    cases Except.ok.inj h
    exact ⟨rfl, (Except.requireLength_eq_ok.1 hlen).symm⟩

/-- What is observed are the columns that were given, or what stands in for them, each with a value for every
bin, in the order of the bins. -/
theorem of_observe {input : SpectrumInput α} {given : Observed α} {sysFractions : List α}
    (h : observe input = .ok (given, sysFractions)) :
    ∃ canonical statErrors fractions quality, canonicalize input.lo input.hi input.unit = .ok canonical ∧
      statErrors = input.statErrors.getD (input.counts.map (Uncertainty.ofCounts Config.unitUncertainty)) ∧
      fractions = input.sysFractions.getD (List.replicate canonical.grid.length 0) ∧
      quality = input.quality.getD (List.replicate canonical.grid.length 0) ∧
      input.counts.length = canonical.grid.length ∧ statErrors.length = canonical.grid.length ∧
      fractions.length = canonical.grid.length ∧ quality.length = canonical.grid.length ∧
      given.grid = canonical.grid ∧ given.counts = canonical.arrange input.counts ∧
      given.statErrors = canonical.arrange statErrors ∧
      given.isGood = (canonical.arrange quality).map (· == 0) ∧ sysFractions = canonical.arrange fractions := by
  obtain ⟨canonical, hcanonical, h⟩ := Except.bind_eq_ok.1 h
  obtain ⟨⟨⟩, hcounts, h⟩ := Except.bind_eq_ok.1 h
  obtain ⟨⟨⟩, -, h⟩ := Except.bind_eq_ok.1 h
  obtain ⟨statErrors, hstat, h⟩ := Except.bind_eq_ok.1 h
  obtain ⟨fractions, hfractions, h⟩ := Except.bind_eq_ok.1 h
  obtain ⟨quality, hquality, h⟩ := Except.bind_eq_ok.1 h
  cases Except.ok.inj h
  have hcounts : canonical.grid.length = input.counts.length := Except.requireLength_eq_ok.1 hcounts
  obtain ⟨hstat, hstat'⟩ := of_givenOr hstat (by rw [List.length_map, hcounts])
  obtain ⟨hfractions, hfractions'⟩ := of_givenOr hfractions List.length_replicate
  obtain ⟨hquality, hquality'⟩ := of_givenOr hquality List.length_replicate
  exact ⟨canonical, statErrors, fractions, quality, Except.mapError_eq_ok.1 hcanonical, hstat, hfractions,
    hquality, hcounts.symm, hstat', hfractions', hquality', rfl, rfl, rfl, rfl, rfl⟩

/-- The spectrum that is made is what was observed, with unusable errors reset and all good bins noticed. -/
theorem of_ofInput {input : SpectrumInput α} (h : (ofInput input).Answers (.ok s)) :
    ∃ given, observe input = .ok (given, s.sysFractions) ∧
      s.observed = { given with
        statErrors := Uncertainty.reset Config.unitUncertainty given.statErrors } ∧
      s.notice = given.isGood ∧ (s.policy, s.errorFloor) = (.quadrature, Config.unitUncertainty) := by
  obtain ⟨⟨given, sysFractions⟩, hobserve, h⟩ := h.of_lift_bind
  have h := (Noted.answers_lift.1 h.of_warnIf_bind).symm
  obtain ⟨working, -, h⟩ := Except.bind_eq_ok.1 h
  cases Except.ok.inj h
  exact ⟨given, hobserve, rfl, rfl, rfl⟩

/-- The arrays of a spectrum that is made fit together. -/
theorem settled_of_ofInput {input : SpectrumInput α} (h : (ofInput input).Answers (.ok s)) :
    s.Settled ∧ (s.policy, s.errorFloor) = (.quadrature, Config.unitUncertainty) ∧
      ∃ canonical, canonicalize input.lo input.hi input.unit = .ok canonical ∧
        ∀ quality, input.quality = some quality →
          s.observed.isGood = (canonical.arrange quality).map (· == 0) := by
  obtain ⟨given, hobserve, hobserved, hnotice, herrors⟩ := of_ofInput h
  obtain ⟨canonical, statErrors, fractions, quality, hcanonical, -, -, hquality, -, hstat', hfractions', hquality',
    hgrid, -, hstat, hgood, hfractions⟩ := of_observe hobserve
  have hcount : s.observedCount = canonical.grid.length := by rw [observedCount, hobserved, ← hgrid]; rfl
  refine ⟨⟨tidy_of_ofInput h, ?_, ?_, ?_, fun i hi => ?_⟩, herrors, canonical, hcanonical, fun flags hgiven => ?_⟩
  · rw [hcount, hobserved, Uncertainty.reset, List.length_map, hstat, length_arrange, hstat']
  · rw [hcount, hobserved, hgood, List.length_map, length_arrange, hquality']
  · rw [hcount, hfractions, length_arrange, hfractions']
  · rw [hnotice]
    rwa [hobserved] at hi
  · rw [hobserved, hgood, hquality, hgiven]
    rfl

/-! ### The working bins of a spectrum -/

/-- The working bins are what the grouping makes of the observed bins and the choices. -/
structure FollowsOriginals (s : Spectrum α) : Prop where
  /-- The bins are those of the groups. -/
  grid : s.grouping.grid s.observed.grid = .ok s.working.grid
  /-- The counts are the sums over the groups. -/
  counts : s.grouping.sum s.observed.counts = .ok s.working.counts
  /-- A group is noticed if one of its bins is. -/
  notice : s.grouping.any s.notice = (.ok s.working.notice : Except (Fault α) (List Bool))
  /-- The systematic errors are the sums over the groups of counts times fractions, without sign. -/
  sysErrors : ∃ sums, s.grouping.sum (List.zipWith (· * ·) s.observed.counts s.sysFractions) = .ok sums ∧
    s.working.sysErrors = sums.map Scalar.abs
  /-- The statistical errors are sums in quadrature, or follow from the counts of the groups. -/
  statErrors : match s.policy with
    | .quadrature => s.grouping.sumQuadrature s.observed.statErrors = .ok s.working.statErrors
    | .poisson => s.working.statErrors = s.working.counts.map (Uncertainty.ofCounts s.errorFloor)

/-- All arrays for the working bins have an entry for each group. -/
structure OneForEachGroup (s : Spectrum α) : Prop where
  /-- The bins. -/
  grid : s.working.grid.length = s.grouping.length
  /-- The counts. -/
  counts : s.working.counts.length = s.grouping.length
  /-- The statistical errors. -/
  statErrors : s.working.statErrors.length = s.grouping.length
  /-- The systematic errors. -/
  sysErrors : s.working.sysErrors.length = s.grouping.length
  /-- The flags. -/
  notice : s.working.notice.length = s.grouping.length

theorem Tidy.followsOriginals (hs : s.Tidy) : s.FollowsOriginals := by
  obtain ⟨hgrid, hcounts, hstat, hsys, hnotice⟩ := derive?_eq_ok.1 hs.derived
  obtain ⟨sums, hsums, hsys⟩ := Except.bind_eq_ok.1 hsys
  refine ⟨hgrid, hcounts, hnotice, ⟨sums, hsums, (Except.ok.inj hsys).symm⟩, ?_⟩
  rw [derivedStatErrors] at hstat
  cases hpolicy : s.policy with
  | quadrature =>
    rw [hpolicy] at hstat
    exact hstat
  | poisson =>
    rw [hpolicy] at hstat
    exact (Except.ok.inj hstat).symm

theorem FollowsOriginals.oneForEachGroup (h : s.FollowsOriginals) (hproper : s.grouping.Proper) :
    s.OneForEachGroup := by
  obtain ⟨hgrid, hcounts, hnotice, ⟨sums, hsums, hsys⟩, hstat⟩ := h
  have hlen : s.working.counts.length = s.grouping.length := by
    rw [(Grouping.sum_eq_ok.1 hcounts).2, List.length_map, Grouping.length]
  refine ⟨hproper.length_grid hgrid, hlen, ?_, ?_, ?_⟩
  · cases hpolicy : s.policy with
    | quadrature =>
      rw [hpolicy] at hstat
      rw [(Grouping.sumQuadrature_eq_ok.1 hstat).2, List.length_map, Grouping.length]
    | poisson =>
      rw [hpolicy] at hstat
      rw [hstat, List.length_map, hlen]
  · rw [hsys, (Grouping.sum_eq_ok.1 hsums).2, List.length_map, List.length_map, Grouping.length]
  · rw [((Grouping.any_eq_ok (α := α)).1 hnotice).2, List.length_map, Grouping.length]

namespace Tidy

variable (hs : s.Tidy)
include hs

theorem oneForEachGroup : s.OneForEachGroup := hs.followsOriginals.oneForEachGroup hs.whole.proper

theorem workingCount_eq : s.workingCount = s.grouping.length := hs.oneForEachGroup.grid

/-- There is a background for each working bin. -/
theorem exists_scaledBackground :
    ∃ background, s.scaledBackground = .ok background ∧ background.length = s.workingCount := by
  have hlen : s.scaledBackgroundObserved.length = s.grouping.fineLength := by
    rw [hs.length_scaledBackgroundObserved, hs.fineLength]
  refine ⟨_, Grouping.sum_eq_ok.2 ⟨hlen, rfl⟩, ?_⟩
  rw [List.length_map, hs.workingCount_eq, Grouping.length]

/-- There is a variance of the background for each working bin. -/
theorem exists_backgroundVariances :
    ∃ variances, s.backgroundVariances = .ok variances ∧ variances.length = s.workingCount := by
  rw [backgroundVariances]
  cases hbackground : s.background with
  | none => exact ⟨_, rfl, List.length_replicate⟩
  | some b =>
    have hlen : b.counts.length = s.grouping.fineLength := by rw [hs.background b hbackground, hs.fineLength]
    refine ⟨_, Except.bind_eq_ok.2 ⟨_, Grouping.sum_eq_ok.2 ⟨hlen, rfl⟩, rfl⟩, ?_⟩
    rw [List.length_map, List.length_map, hs.workingCount_eq, Grouping.length]

/-- There is an uncertainty for each working bin. -/
theorem exists_fitUncertainty :
    ∃ uncertainties, s.fitUncertainty = .ok uncertainties ∧ uncertainties.length = s.workingCount := by
  obtain ⟨variances, hvariances, hlen⟩ := hs.exists_backgroundVariances
  refine ⟨_, Except.bind_eq_ok.2 ⟨variances, hvariances, rfl⟩, ?_⟩
  rw [List.length_zipWith, List.length_zip, hs.oneForEachGroup.statErrors, hs.oneForEachGroup.sysErrors, hlen,
    hs.workingCount_eq, Nat.min_self, Nat.min_self]

end Tidy

/-- After any number of requests to a spectrum that was made, failed ones included: what was observed is the
same; the working bins follow from it by the current grouping and choices, with an entry for each group; errors
are derived as the last configuration says; no bin with a quality other than zero is noticed; and the next
request either leaves the spectrum it answers, or fails and leaves the spectrum as it was. -/
theorem working_bins_follow_originals {input : SpectrumInput α} {made : Spectrum α}
    (h : (ofInput input).outcome.1 = .ok made) (requests : List (Request α)) :
    (made.afterRequests requests).observed = made.observed ∧
      (made.afterRequests requests).FollowsOriginals ∧
      (made.afterRequests requests).OneForEachGroup ∧
      ((made.afterRequests requests).policy, (made.afterRequests requests).errorFloor) =
        requests.foldl Request.errors (.quadrature, Config.unitUncertainty) ∧
      (∃ canonical, canonicalize input.lo input.hi input.unit = .ok canonical ∧
        ∀ quality, input.quality = some quality →
          ∀ (i : Nat) flag, (canonical.arrange quality)[i]? = some flag → flag ≠ 0 →
            (made.afterRequests requests).notice[i]? = some false) ∧
      ∀ request : Request α,
        request.edit.perform (made.afterRequests requests) =
          (made.afterRequests requests).wholly (request.answer (made.afterRequests requests)) ∧
        ∀ fault, (request.edit.perform (made.afterRequests requests)).1 = .error fault →
          (request.edit.perform (made.afterRequests requests)).2 = made.afterRequests requests := by
  obtain ⟨hmade, herrors, canonical, hcanonical, hquality⟩ := settled_of_ofInput (.of_outcome h)
  obtain ⟨hs, hobserved, herrors'⟩ := hmade.afterRequests requests
  have hfollows := hs.tidy.followsOriginals
  refine ⟨hobserved, hfollows, hs.tidy.oneForEachGroup, by rw [herrors', herrors],
    ⟨canonical, hcanonical, fun quality hgiven i flag hflag hbad => ?_⟩, fun request => ?_⟩
  · refine hs.badIgnored i ?_
    rw [hobserved, hquality quality hgiven, List.getElem?_map, hflag]
    simpa using hbad
  · have hedit := hs.perform_edit request
    refine ⟨hedit, fun fault hfault => ?_⟩
    rw [hedit] at hfault ⊢
    cases hanswer : request.answer (made.afterRequests requests) with
    | ok next =>
      rw [hanswer] at hfault
      cases hfault
    | error fault => rfl

/-! ### A spectrum given downwards, with a bad bin -/

namespace Downward

/-- Four bins in descending order, the second of bad quality. -/
def input : SpectrumInput ℚ where
  lo := [4, 3, 2, 1]
  hi := [5, 4, 3, 2]
  unit := .kev
  counts := [9, 16, 0, 4]
  statErrors := none
  sysFractions := some [0, -1/2, 0, 1/4]
  quality := some [0, 5, 0, 0]
  exposure := 1
  backscal := 1
  observation := {}

/-- The spectrum of the four bins. -/
def made : Spectrum ℚ := (ofInput input).outcome.1.toOption.get (by decide +kernel)

/-- Two groups and errors from counts, a mask that is too short, and a range noticed again. -/
def requests : List (Request ℚ) :=
  [.rebinByMask [1, 1, -1, 0], .configure { Config.default with statErrorPolicy := .poisson }, .rebinByMask [1],
    .ignoreAll, .setRange 2 4 .kev true]

end Downward

/-- The group of the bad bin stays ignored, the errors are those of the counts, and a mask that leaves out every
bin changes nothing. -/
theorem refused_mask_keeps_the_groups :
    (Downward.made.afterRequests Downward.requests).working.counts = [4, 16] ∧
      (Downward.made.afterRequests Downward.requests).working.statErrors = [2, 4] ∧
      (Downward.made.afterRequests Downward.requests).notice[2]? = some false ∧
      ((Request.rebinByMask [0, 0, 0, 0]).edit.perform (Downward.made.afterRequests Downward.requests)).2 =
        Downward.made.afterRequests Downward.requests := by
  have hmade : (ofInput Downward.input).outcome.1 = .ok Downward.made :=
    Except.toOption_eq_some.1 (Option.some_get _).symm
  obtain ⟨-, hfollows, -, herrors, ⟨canonical, hcanonical, hbad⟩, hedit⟩ :=
    working_bins_follow_originals hmade Downward.requests
  have hcounts : (Downward.made.afterRequests Downward.requests).working.counts = [4, 16] := by decide +kernel
  have hdown : canonicalize Downward.input.lo Downward.input.hi Downward.input.unit =
      .ok ⟨⟨[⟨1, 2⟩, ⟨2, 3⟩, ⟨3, 4⟩, ⟨4, 5⟩]⟩, true⟩ := Except.toOption_eq_some.1 (by decide +kernel)
  cases Except.ok.inj (hcanonical.symm.trans hdown)
  refine ⟨hcounts, ?_, hbad _ rfl 2 5 rfl (by decide), ?_⟩
  · have hstat := hfollows.statErrors
    obtain ⟨hpolicy, hfloor⟩ := Prod.mk.inj herrors
    rw [hpolicy] at hstat
    have hstat : (Downward.made.afterRequests Downward.requests).working.statErrors =
        (Downward.made.afterRequests Downward.requests).working.counts.map (Uncertainty.ofCounts _) := hstat
    rw [hstat, hcounts, hfloor]
    decide +kernel
  · obtain ⟨hperform, hfails⟩ := hedit (.rebinByMask [0, 0, 0, 0])
    have hrefused : ((Request.rebinByMask [0, 0, 0, 0]).answer
        (Downward.made.afterRequests Downward.requests)).toOption = none := by decide +kernel
    cases hanswer : (Request.rebinByMask [0, 0, 0, 0]).answer (Downward.made.afterRequests Downward.requests) with
    | ok next =>
      rw [hanswer] at hrefused
      cases hrefused
    | error fault =>
      rw [hanswer] at hperform
      exact hfails fault (congrArg Prod.fst hperform)

end SpectralResponse.Spectrum
