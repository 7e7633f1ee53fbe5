import SpectralResponse.Proofs.Grid.Units
import SpectralResponse.Proofs.Rebin.Sums
import SpectralResponse.Proofs.Spectrum.Requests

/-!
# Ranges of energy

A range is given by two edges in a unit. It is put in order, taken to keV, where a wavelength turns it around, and
compared with the working bins, while the flags that are changed belong to the observed bins of their groups. Only
the energies between the two edges matter. Where there are none, or where an edge has no energy, nothing is changed.

## What is proved

* `canonicalize_pair_eq_ok` — when two edges are read, and as what.
* `Reachable.settled` — the arrays of a spectrum fit together at any time.
* `mem_flatten_groupsWithin`, `length_groupsWithin` — which observed bins a range reaches, and how many working bins.
* `setRange_eq` — of a range and its unit only the energies between the ends matter.
* `Settled.exists_setRange` — what noticing or ignoring a range does.
* `ranges_touch_overlapping_bins` — all of this carried out in place, and that no other range changes anything.
-/

namespace SpectralResponse

variable {K : Type} [Field K] [LinearOrder K] [FloorRing K] [Roots K]

/-! ### Two edges in a unit -/

namespace EdgeUnit

/-- The energy of an edge. -/
def energyOf (unit : EdgeUnit) (edge : K) : K :=
  if unit.isWavelength then kevAngstrom / (edge * unit.scale) else edge * unit.scale

/-- The energies between two edges. -/
def between (unit : EdgeUnit) (a b : K) : Bin K :=
  ⟨min (unit.energyOf a) (unit.energyOf b), max (unit.energyOf a) (unit.energyOf b)⟩

omit [FloorRing K] [Roots K] in
/-- There are energies between the edges: they differ, and a wavelength is positive. -/
def Separates (unit : EdgeUnit) (a b : K) : Prop := a ≠ b ∧ (unit.isWavelength = true → 0 < a ∧ 0 < b)

variable {unit : EdgeUnit} {a b lo hi : K}

omit [FloorRing K] [Roots K] in
theorem Separates.symm (h : unit.Separates a b) : unit.Separates b a := ⟨h.1.symm, fun hwave => (h.2 hwave).symm⟩

theorem between_comm (unit : EdgeUnit) (a b : K) : unit.between b a = unit.between a b := by
  rw [between, between, min_comm, max_comm]

variable [IsStrictOrderedRing K]

theorem converts_iff_separates (h : lo < hi) : unit.Converts ⟨lo, hi⟩ ↔ unit.Separates lo hi := by
  have hscale : (0 : K) < unit.scale := scale_pos unit
  rw [Separates, Converts, and_iff_right h.ne]
  simp only [not_le, mul_pos_iff_of_pos_right hscale]

/-- A bin that can be taken to keV has its ends in order there if it had. -/
theorem toKev_positive_iff (h : unit.Converts ⟨lo, hi⟩) :
    (unit.toKev ⟨lo, hi⟩).lo < (unit.toKev ⟨lo, hi⟩).hi ↔ lo < hi := by
  have hscale : (0 : K) < unit.scale := scale_pos unit
  rw [toKev]
  split
  · rename_i hwave
    obtain ⟨hlo, hhi⟩ := h hwave
    exact (div_lt_div_iff_of_pos_left kevAngstrom_pos (not_le.1 hhi) (not_le.1 hlo)).trans
      (mul_lt_mul_iff_left₀ hscale)
  · exact mul_lt_mul_iff_left₀ hscale

/-- Edges in order are taken to the energies between them. -/
theorem toKev_eq_between (h : unit.Converts ⟨lo, hi⟩) (hlt : lo < hi) : unit.toKev ⟨lo, hi⟩ = unit.between lo hi := by
  have hle := ((toKev_positive_iff h).2 hlt).le
  simp only [toKev, between, energyOf] at hle ⊢
  by_cases hwave : unit.isWavelength = true
  · simp only [if_pos hwave] at hle ⊢
    rw [min_eq_right hle, max_eq_left hle]
  · simp only [if_neg hwave] at hle ⊢
    rw [min_eq_left hle, max_eq_right hle]

/-- A range of energies in a unit has these energies between its ends. -/
theorem between_ofKev {range : Bin K} (h : unit.Expresses range) (hlt : range.lo < range.hi) :
    unit.Separates (unit.ofKev range).lo (unit.ofKev range).hi ∧
      unit.between (unit.ofKev range).lo (unit.ofKev range).hi = range := by
  have hconverts := converts_ofKev h
  have hordered := ofKev_positive h hlt
  exact ⟨(converts_iff_separates hordered).1 hconverts,
    (toKev_eq_between hconverts hordered).symm.trans (toKev_ofKev unit range)⟩

end EdgeUnit

variable [IsStrictOrderedRing K]

/-- Two edges are read, as the energies between them, if they stand in order and there are any. -/
theorem canonicalize_pair_eq_ok {unit : EdgeUnit} {lo hi : K} {c : Canonical K} :
    canonicalize [lo] [hi] unit = .ok c ↔
      (lo < hi ∧ unit.Separates lo hi) ∧ c = ⟨⟨[unit.between lo hi]⟩, false⟩ := by
  constructor
  · intro h
    have hvalid := Grid.valid_of_canonicalize h
    obtain ⟨-, -, -, -, hconverts, hreversed, hgrid⟩ := canonicalize_eq_ok.1 h
    have hconverts : unit.Converts ⟨lo, hi⟩ := hconverts _ List.mem_cons_self
    have hbins : c.grid.bins = [unit.toKev ⟨lo, hi⟩] := by
      rw [Grid.bins_of_ofBins hgrid, hreversed]
      rfl
    have hlt : lo < hi := (EdgeUnit.toKev_positive_iff hconverts).1 (hvalid.positive _ (hbins ▸ List.mem_cons_self))
    rw [EdgeUnit.toKev_eq_between hconverts hlt] at hbins
    refine ⟨⟨hlt, (EdgeUnit.converts_iff_separates hlt).1 hconverts⟩, ?_⟩
    obtain ⟨⟨bins⟩, reversed⟩ := c
    obtain rfl : reversed = false := hreversed
    obtain rfl : bins = _ := hbins
    rfl
  · rintro ⟨⟨hlt, h⟩, rfl⟩
    have hconverts := (EdgeUnit.converts_iff_separates hlt).2 h
    have hbin := EdgeUnit.toKev_eq_between hconverts hlt
    have hordered : (⟨[unit.between lo hi]⟩ : Grid K).Ordered := by
      refine ⟨fun b hb => ?_, List.isChain_singleton _⟩
      rw [List.mem_singleton.1 hb, ← hbin]
      exact (EdgeUnit.toKev_positive_iff hconverts).2 hlt
    refine canonicalize_eq_ok.2 ⟨rfl, List.cons_ne_nil _ _, fun e _ => Scalar.isFinite_exact e,
      fun e _ => Scalar.isFinite_exact e, ?_, rfl, ?_⟩
    · intro b hb
      rw [List.mem_singleton.1 hb]
      exact hconverts
    · show Grid.ofBins [unit.toKev ⟨lo, hi⟩] = .ok ⟨[unit.between lo hi]⟩
      rw [hbin]
      exact hordered.ofBins_eq_ok (List.cons_ne_nil _ _)

namespace Spectrum

/-! ### Spectra at any time -/

section

variable {α : Type} [Scalar α] {s : Spectrum α}

/-- A spectrum that was made, and changed since in any way. -/
inductive Reachable : Spectrum α → Prop where
  /-- It is made of columns. -/
  | made {input : SpectrumInput α} {s : Spectrum α} (h : (ofInput input).Answers (.ok s)) : Reachable s
  /-- A request was carried out in place, or failed. -/
  | request {s : Spectrum α} (h : Reachable s) (request : Request α) : Reachable (request.edit.perform s).2
  /-- The kernel was replaced. -/
  | setKernel {s : Spectrum α} (h : Reachable s) (kernel : Kernel α) : Reachable (s.setKernel kernel)
  /-- The background was dropped. -/
  | clearBackground {s : Spectrum α} (h : Reachable s) : Reachable s.clearBackground

/-- The arrays of a spectrum fit together at any time. -/
theorem Reachable.settled (h : s.Reachable) : s.Settled := by
  induction h with
  | made h => exact (settled_of_ofInput h).1
  | request _ request ih => exact (ih.afterRequests [request]).1
  | setKernel _ kernel ih =>
    exact ⟨ih.tidy.setKernel kernel, ih.statErrors, ih.isGood, ih.sysFractions, ih.badIgnored⟩
  | clearBackground _ ih =>
    exact ⟨ih.tidy.clearBackground, ih.statErrors, ih.isGood, ih.sysFractions, ih.badIgnored⟩

theorem Reachable.afterRequests (h : s.Reachable) (requests : List (Request α)) :
    (s.afterRequests requests).Reachable := by
  induction requests generalizing s with
  | nil => exact h
  | cons request requests ih => exact ih (h.request request)

/-- The ends of a range that is noticed or ignored were read, in one order or the other. -/
theorem canonicalize_of_setRange {a b : α} {unit : EdgeUnit} {noticed : Bool} {outcome : Spectrum α × Nat}
    (h : s.setRange a b unit noticed = .ok outcome) :
    ∃ c, canonicalize [a] [b] unit = .ok c ∨ canonicalize [b] [a] unit = .ok c := by
  by_cases hle : a ≤ b
  · simp only [setRange, if_pos hle] at h
    obtain ⟨c, hread, -⟩ := Except.bind_eq_ok.1 h
    exact ⟨c, .inl (Except.mapError_eq_ok.1 hread)⟩
  · simp only [setRange, if_neg hle] at h
    obtain ⟨c, hread, -⟩ := Except.bind_eq_ok.1 h
    exact ⟨c, .inr (Except.mapError_eq_ok.1 hread)⟩

/-- A range with an end that is not finite is refused. -/
theorem setRange_of_not_finite (s : Spectrum α) {a b : α}
    (h : ¬ (Scalar.isFinite a = true ∧ Scalar.isFinite b = true)) (unit : EdgeUnit) (noticed : Bool) :
    ∃ fault, s.setRange a b unit noticed = .error fault := by
  cases hrange : s.setRange a b unit noticed with
  | error fault => exact ⟨fault, rfl⟩
  | ok outcome =>
    obtain ⟨c, hread | hread⟩ := canonicalize_of_setRange hrange
    all_goals
      obtain ⟨-, -, hlo, hhi, -⟩ := canonicalize_eq_ok.1 hread
      have hlo := hlo _ List.mem_cons_self
      have hhi := hhi _ List.mem_cons_self
    · exact absurd ⟨hlo, hhi⟩ h
    · exact absurd ⟨hhi, hlo⟩ h

end

/-! ### What a range reaches -/

variable {s next : Spectrum K} {range : Bin K} {a b : K} {unit : EdgeUnit} {noticed : Bool}

/-- The observed bin belongs to a working bin that overlaps the range. -/
def Within (s : Spectrum K) (range : Bin K) (i : Nat) : Prop :=
  ∃ (j : Nat) (group : List Nat) (b : Bin K), s.grouping.groups[j]? = some group ∧
    s.working.grid.bins[j]? = some b ∧ b.Overlaps range ∧ i ∈ group

omit [IsStrictOrderedRing K] in
/-- The flags that a range sets, and the rest. -/
structure Flags (s : Spectrum K) (range : Bin K) (noticed : Bool) (next : Spectrum K) : Prop where
  /-- An observed bin that the range reaches is noticed if that was asked and its quality is good. -/
  within : ∀ i, s.Within range i →
    ∃ good, s.observed.isGood[i]? = some good ∧ next.notice[i]? = some (noticed && good)
  /-- Any other observed bin keeps its flag, also if it stands in no group. -/
  others : ∀ i, ¬ s.Within range i → next.notice[i]? = s.notice[i]?
  /-- There is a flag for each working bin. -/
  length : next.working.notice.length = s.grouping.length
  /-- A working bin is noticed if one of the observed bins of its group is. -/
  working : ∀ (j : Nat) (group : List Nat) (flag : Bool), s.grouping.groups[j]? = some group →
    next.working.notice[j]? = some flag → (flag = true ↔ ∃ i ∈ group, next.notice[i]? = some true)
  /-- Nothing else has changed. -/
  frame : next = { s with notice := next.notice, working := { s.working with notice := next.working.notice } }

theorem mem_flatten_groupsWithin {i : Nat} : i ∈ (s.groupsWithin range).flatten ↔ s.Within range i := by
  rw [List.mem_flatten, groupsWithin, Within]
  constructor
  · rintro ⟨group, hgroup, hi⟩
    obtain ⟨⟨group', b⟩, hmem, hif⟩ := List.mem_filterMap.1 hgroup
    obtain ⟨j, hj⟩ := List.mem_iff_getElem?.1 hmem
    obtain ⟨hgroup', hb⟩ := List.getElem?_zip_eq_some.1 hj
    dsimp only at hif
    split at hif
    · cases hif
    · rename_i hover
      cases hif
      exact ⟨j, group, b, hgroup', hb, overlap_pos_iff.1 (not_le.1 hover), hi⟩
  · rintro ⟨j, group, b, hgroup, hb, hover, hi⟩
    refine ⟨group, List.mem_filterMap.2 ⟨(group, b), ?_, ?_⟩, hi⟩
    · exact List.mem_iff_getElem?.2 ⟨j, List.getElem?_zip_eq_some.2 ⟨hgroup, hb⟩⟩
    · exact if_neg (not_le.2 (overlap_pos_iff.2 hover))

/-- As many groups are reached as there are working bins that overlap the range. -/
theorem length_groupsWithin (hlen : s.workingCount = s.grouping.length) :
    (s.groupsWithin range).length = s.working.grid.bins.countP fun b => b.Overlaps range := by
  have hsnd : (s.grouping.groups.zip s.working.grid.bins).map Prod.snd = s.working.grid.bins :=
    List.map_snd_zip (Nat.le_of_eq hlen)
  rw [groupsWithin, List.length_filterMap_eq_countP, ← hsnd, List.countP_map, hsnd]
  refine List.countP_congr fun p _ => ?_
  rw [Function.comp_apply, decide_eq_true_eq, ← overlap_pos_iff, ← not_le]
  by_cases hnone : p.2.overlap range ≤ 0 <;> simp [hnone]

/-! ### What becomes of the flags -/

namespace Settled

variable (hs : s.Settled)
include hs

omit [IsStrictOrderedRing K] in
/-- An observed bin that a range reaches has a quality and a flag. -/
theorem exists_of_within {i : Nat} (h : s.Within range i) :
    ∃ good flag, s.observed.isGood[i]? = some good ∧ s.notice[i]? = some flag := by
  obtain ⟨j, group, b, hgroup, -, -, hi⟩ := h
  obtain ⟨-, hlt⟩ := (hs.tidy.whole.proper.runs group (List.mem_of_getElem? hgroup)).bounds i hi
  rw [hs.tidy.fineLength] at hlt
  exact ⟨_, _, List.getElem?_eq_getElem (hs.isGood ▸ hlt), List.getElem?_eq_getElem (hs.tidy.length_notice ▸ hlt)⟩

/-- Flagging what a range reaches. -/
theorem flags_of_setNotice (h : s.setNotice (s.flagMembers noticed (s.groupsWithin range)) = .ok next) :
    s.Flags range noticed next := by
  obtain ⟨flags, hflags, h⟩ := Except.bind_eq_ok.1 h
  cases Except.ok.inj h
  obtain ⟨-, rfl⟩ := (Grouping.any_eq_ok (α := K)).1 hflags
  refine ⟨fun i hi => ?_, fun i hi => ?_, List.length_map _, fun j group flag hgroup hflag => ?_, rfl⟩
  · obtain ⟨good, flag, hgood, hflag⟩ := hs.exists_of_within hi
    refine ⟨good, hgood, ?_⟩
    rw [hs.getElem?_flagMembers, if_pos (mem_flatten_groupsWithin.2 hi), hflag, hgood]
    rfl
  · rw [hs.getElem?_flagMembers, if_neg fun hmem => hi (mem_flatten_groupsWithin.1 hmem)]
  · rw [List.getElem?_map, hgroup] at hflag
    rw [← Option.some.inj hflag]
    exact Grouping.any_pick

end Settled

/-! ### Noticing and ignoring -/

omit [IsStrictOrderedRing K] in
theorem setRange_comm (s : Spectrum K) (a b : K) (unit : EdgeUnit) (noticed : Bool) :
    s.setRange b a unit noticed = s.setRange a b unit noticed := by
  rcases lt_trichotomy a b with hlt | rfl | hlt
  · simp only [setRange, if_pos hlt.le, if_neg hlt.not_ge]
  · rfl
  · simp only [setRange, if_pos hlt.le, if_neg hlt.not_ge]

theorem setRange_of_lt (s : Spectrum K) (hlt : a < b) (h : unit.Separates a b) (noticed : Bool) :
    s.setRange a b unit noticed =
      (s.setNotice (s.flagMembers noticed (s.groupsWithin (unit.between a b)))).map fun next =>
        (next, (s.groupsWithin (unit.between a b)).length) := by
  simp only [setRange, if_pos hlt.le, canonicalize_pair_eq_ok.2 ⟨⟨hlt, h⟩, rfl⟩]
  rfl

/-- Of the ends and their unit only the energies between them matter. -/
theorem setRange_eq (s : Spectrum K) (h : unit.Separates a b) (noticed : Bool) :
    s.setRange a b unit noticed =
      (s.setNotice (s.flagMembers noticed (s.groupsWithin (unit.between a b)))).map fun next =>
        (next, (s.groupsWithin (unit.between a b)).length) := by
  rcases lt_or_gt_of_ne h.1 with hlt | hlt
  · exact s.setRange_of_lt hlt h noticed
  · rw [← setRange_comm, ← EdgeUnit.between_comm]
    exact s.setRange_of_lt hlt h.symm noticed

/-- A range without energies between its ends is refused. -/
theorem setRange_of_not_separates (s : Spectrum K) (h : ¬ unit.Separates a b) (noticed : Bool) :
    ∃ fault, s.setRange a b unit noticed = .error fault := by
  cases hrange : s.setRange a b unit noticed with
  | error fault => exact ⟨fault, rfl⟩
  | ok outcome =>
    obtain ⟨c, hread | hread⟩ := canonicalize_of_setRange hrange
    · exact absurd (canonicalize_pair_eq_ok.1 hread).1.2 h
    · exact absurd (canonicalize_pair_eq_ok.1 hread).1.2.symm h

/-- Any other range is taken over, and the working bins that overlap it are counted. -/
theorem Settled.exists_setRange (hs : s.Settled) (h : unit.Separates a b) (noticed : Bool) :
    ∃ next, s.setRange a b unit noticed =
        .ok (next, s.working.grid.bins.countP fun bin => bin.Overlaps (unit.between a b)) ∧
      s.Flags (unit.between a b) noticed next := by
  have hcount : s.workingCount = s.grouping.length :=
    (hs.tidy.followsOriginals.oneForEachGroup hs.tidy.whole.proper).grid
  obtain ⟨next, hnext, -⟩ := hs.perform_renotice
    (hs.length_flagMembers noticed (s.groupsWithin (unit.between a b)))
  refine ⟨next, ?_, hs.flags_of_setNotice hnext⟩
  rw [setRange_eq s h, hnext, length_groupsWithin hcount]
  rfl

/-- At any time, noticing or ignoring a range with two different ends, positive if they are wavelengths, counts the
working bins that overlap the energies between the ends, sets the flags of the observed bins of their groups, and
changes nothing else. The order of the ends does not matter, nor does the unit in which the energies are given. With
any other ends, and over any scalars with an end that is not finite, the request fails and changes nothing. -/
theorem ranges_touch_overlapping_bins (hs : s.Reachable) (a b : K) (unit : EdgeUnit) (noticed : Bool) :
    (unit.Separates a b → ∃ next, (Edit.setRange a b unit noticed).perform s =
        (.ok (s.working.grid.bins.countP fun bin => bin.Overlaps (unit.between a b)), next) ∧
      s.Flags (unit.between a b) noticed next) ∧
    (Edit.setRange b a unit noticed).perform s = (Edit.setRange a b unit noticed).perform s ∧
    (∀ (a' b' : K) (unit' : EdgeUnit), unit.Separates a b → unit'.Separates a' b' →
      unit'.between a' b' = unit.between a b →
      (Edit.setRange a' b' unit' noticed).perform s = (Edit.setRange a b unit noticed).perform s) ∧
    (¬ unit.Separates a b → ∃ fault, (Edit.setRange a b unit noticed).perform s = (.error fault, s)) ∧
    ∀ (α : Type) [Scalar α] (t : Spectrum α), t.Reachable → ∀ x y : α,
      ¬ (Scalar.isFinite x = true ∧ Scalar.isFinite y = true) → ∀ (unit' : EdgeUnit) (noticed' : Bool),
        ∃ fault, (Edit.setRange x y unit' noticed').perform t = (.error fault, t) := by
  have hsettled := hs.settled
  refine ⟨fun h => ?_, ?_, fun a' b' unit' h h' hsame => ?_, fun h => ?_, fun α _ t ht x y h unit' noticed' => ?_⟩
  · obtain ⟨next, hnext, hflags⟩ := hsettled.exists_setRange h noticed
    refine ⟨next, ?_, hflags⟩
    rw [hsettled.perform_setRange, hnext]
  · rw [hsettled.perform_setRange, hsettled.perform_setRange, setRange_comm]
  · rw [hsettled.perform_setRange, hsettled.perform_setRange, setRange_eq s h, setRange_eq s h', hsame]
  · obtain ⟨fault, hfault⟩ := setRange_of_not_separates s h noticed
    refine ⟨fault, ?_⟩
    rw [hsettled.perform_setRange, hfault]
  · obtain ⟨fault, hfault⟩ := setRange_of_not_finite t h unit' noticed'
    refine ⟨fault, ?_⟩
    rw [ht.settled.perform_setRange, hfault]

namespace Banded

/-- Six bins, the third of bad quality. -/
def input : SpectrumInput ℚ where
  lo := [1, 2, 3, 4, 5, 6]
  hi := [2, 3, 4, 5, 6, 7]
  unit := .kev
  counts := [3, 1, 4, 1, 5, 9]
  statErrors := none
  sysFractions := none
  quality := some [0, 0, 5, 0, 0, 0]
  exposure := 1
  backscal := 1
  observation := {}

/-- The spectrum of the six bins. -/
def made : Spectrum ℚ := (ofInput input).outcome.1.toOption.get (by decide +kernel)

/-- Two pairs of bins, a bin that is left out, and a single bin; nothing is noticed. -/
def grouped : Spectrum ℚ := made.afterRequests [.rebinByMask [1, 1, -1, -1, 0, 1], .ignoreAll]

/-- Energies that start where the first pair ends, and end inside the last bin. -/
def band : Bin ℚ := ⟨3, 13 / 2⟩

/-- The wavelengths of these energies, in nanometres. -/
def wavelengths : Bin ℚ := EdgeUnit.nm.ofKev band

theorem reachable_grouped : grouped.Reachable := by
  have hmade : (ofInput input).outcome.1 = .ok made := Except.toOption_eq_some.1 (Option.some_get _).symm
  exact (Reachable.made (.of_outcome hmade)).afterRequests _

end Banded

/-- Two working bins are noticed through the range, one of them with a bad bin; the bin that is left out stays
ignored although the range covers it. In electronvolts, with the ends exchanged, the result is the same, and a
wavelength of zero changes nothing. -/
theorem band_in_nanometres :
    EdgeUnit.nm.between Banded.wavelengths.lo Banded.wavelengths.hi = Banded.band ∧
      (∃ next, (Edit.setRange Banded.wavelengths.lo Banded.wavelengths.hi .nm true).perform Banded.grouped =
          (.ok 2, next) ∧
        Banded.grouped.Flags Banded.band true next ∧
        next.notice = [false, false, false, true, false, true] ∧ next.working.notice = [false, true, true] ∧
        (Edit.setRange 6500 3000 .ev true).perform Banded.grouped = (.ok 2, next)) ∧
      ∃ fault, (Edit.setRange 0 1 .nm true).perform Banded.grouped = (.error fault, Banded.grouped) := by
  obtain ⟨hseparates, hband⟩ : EdgeUnit.nm.Separates Banded.wavelengths.lo Banded.wavelengths.hi ∧
      EdgeUnit.nm.between Banded.wavelengths.lo Banded.wavelengths.hi = Banded.band :=
    EdgeUnit.between_ofKev (fun _ => by decide +kernel) (by decide +kernel)
  obtain ⟨htouches, -, hunit, -, -⟩ :=
    ranges_touch_overlapping_bins Banded.reachable_grouped Banded.wavelengths.lo Banded.wavelengths.hi .nm true
  obtain ⟨-, -, -, hrefused, -⟩ := ranges_touch_overlapping_bins Banded.reachable_grouped (0 : ℚ) 1 .nm true
  obtain ⟨next, hperform, hflags⟩ := htouches hseparates
  rw [hband] at hperform hflags hunit
  have hcount : (Banded.grouped.working.grid.bins.countP fun bin => bin.Overlaps Banded.band) = 2 := by
    decide +kernel
  rw [hcount] at hperform
  have hnext : ((Edit.setRange Banded.wavelengths.lo Banded.wavelengths.hi .nm true).perform Banded.grouped).2 =
      next := congrArg Prod.snd hperform
  refine ⟨hband, ⟨next, hperform, hflags, ?_, ?_, ?_⟩, hrefused fun h => ?_⟩
  · rw [← hnext]
    decide +kernel
  · rw [← hnext]
    decide +kernel
  · rw [hunit 6500 3000 .ev hseparates ⟨by decide +kernel, nofun⟩ (by decide +kernel), hperform]
  · exact absurd (h.2 rfl).1 (lt_irrefl 0)

end Spectrum

end SpectralResponse
