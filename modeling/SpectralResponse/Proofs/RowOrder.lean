import SpectralResponse.EffectiveArea.Table
import SpectralResponse.Proofs.ResponseMatrix.RowOrder
import SpectralResponse.Proofs.Scalar.Rational
import SpectralResponse.Spectrum.Basic

/-!
# The order of rows does not matter

Spectra, effective areas and matrices come in rows, upwards or downwards in energy. Each reader finds out once
which way the rows run, and from then on everything that came with them is put into the same order as the grid.
So a reader that is given the rows from the other end finds the other direction, turns everything once more or
once less, and makes the same product. The rows of channel energies are put into the order of channel numbers
first, and it is these that tell which way the rows run.

Each reader is followed step by step on the two inputs at once (`Except.Alike`).
-/

namespace SpectralResponse

variable {α : Type} [Scalar α]

/-! ### Spectra -/

omit [Scalar α] in
/-- The columns of a spectrum from the other end. -/
def SpectrumInput.reverseRows (input : SpectrumInput α) : SpectrumInput α :=
  { input with
    lo := input.lo.reverse
    hi := input.hi.reverse
    counts := input.counts.reverse
    statErrors := input.statErrors.map List.reverse
    sysFractions := input.sysFractions.map List.reverse
    quality := input.quality.map List.reverse }

namespace Spectrum

omit [Scalar α] in
/-- Values given for each bin are given from the other end, or what stands in for them is. -/
theorem alike_givenOr_reverse {β : Type} {fault : Nat → Nat → Fault α} {count : Nat} {given? : Option (List β)}
    {default default' : List β} (h : default' = default.reverse) :
    Except.Alike (fun xs ys => xs = ys.reverse) (givenOr fault count (given?.map List.reverse) default')
      (givenOr fault count given? default) := by
  cases given? with
  | none => exact .ok h
  | some given =>
    show Except.Alike _ (do requireLength fault count given.reverse.length; return given.reverse)
      (do requireLength fault count given.length; return given)
    rw [List.length_reverse]
    exact .bind_self fun _ => .ok rfl

variable [Std.Asymm ((· < ·) : α → α → Prop)] {input : SpectrumInput α}

/-- The same is observed from either end. -/
theorem alike_observe_reverse (h : EndsApart ((input.unit.binsInKev input.lo input.hi).map Bin.lo)) :
    Except.Alike Eq (observe input.reverseRows) (observe input) := by
  unfold observe
  refine (canonicalize_reverse h).mapError.bind fun c' c hc => ?_
  subst hc
  simp only [SpectrumInput.reverseRows, List.length_reverse]
  refine .bind_self fun _ => .bind_self fun _ => ?_
  refine (alike_givenOr_reverse (List.map_reverse ..)).bind fun errors' errors herrors => ?_
  refine (alike_givenOr_reverse (List.reverse_replicate ..).symm).bind fun fractions' fractions hfractions => ?_
  refine (alike_givenOr_reverse (List.reverse_replicate ..).symm).bind fun quality' quality hquality => ?_
  subst herrors hfractions hquality
  simp only [arrange_flip_reverse]
  exact .ok rfl

/-- The same spectrum is made from either end. -/
theorem alike_ofInput_reverse (h : EndsApart ((input.unit.binsInKev input.lo input.hi).map Bin.lo)) :
    Noted.Alike Eq (ofInput input.reverseRows) (ofInput input) := by
  refine (Noted.Alike.lift (alike_observe_reverse h)).bind fun given' given hgiven => ?_
  subst hgiven
  exact .warnIf_bind (.lift (Except.alike_self (fun _ => rfl) _))

end Spectrum

/-! ### Effective areas -/

omit [Scalar α] in
/-- The arrays of an effective area from the other end. -/
def AreaUpdate.reverseRows (update : AreaUpdate α) : AreaUpdate α :=
  { update with
    lo := update.lo.reverse
    hi := update.hi.reverse
    area := update.area.reverse
    areaError := update.areaError.reverse }

namespace EffectiveArea

theorem alike_requirePositive_reverse (area : List α) :
    Except.Alike Eq (requirePositive area.reverse) (requirePositive area) := by
  rw [requirePositive, requirePositive, List.any_reverse]
  exact Except.alike_self (fun _ => rfl) _

theorem alike_readErrors_reverse (origin : String) (t : Extension α) (count : Nat) :
    Except.Alike (fun xs ys => xs = ys.reverse) (readErrors origin t.reverseRows count)
      (readErrors origin t count) := by
  refine (t.fixedColumn?_reverseRows "RESP_ERR").bind fun errors' errors herrors => ?_
  subst herrors
  cases errors with
  | none => exact .ok (List.reverse_replicate ..).symm
  | some errors =>
    show Except.Alike _ (do requireLength _ count errors.reverse.length; return errors.reverse)
      (do requireLength _ count errors.length; return errors)
    rw [List.length_reverse]
    exact .bind_self fun _ => .ok rfl

theorem alike_readFraction_reverse (origin : String) (t : Extension α) (count : Nat) :
    Except.Alike (fun f g => f = BinValues.reverse g) (readFraction origin t.reverseRows count)
      (readFraction origin t count) := by
  rw [readFraction, readFraction, Extension.column?_reverseRows]
  cases t.column? "FRACEXPO" with
  | none => exact .ok rfl
  | some cells =>
    cases cells with
    | lists rows => exact .error _ _
    | fixed values =>
      show Except.Alike _ (if values.reverse.length = count then .ok (BinValues.vector values.reverse) else .error _)
        (if values.length = count then .ok (BinValues.vector values) else .error _)
      rw [List.length_reverse]
      split
      · exact .ok rfl
      · exact .error _ _

omit [Scalar α] in
/-- The fractions come into the same order from either end. -/
theorem turn_fraction_flip_reverse (c : Canonical α) (fraction : BinValues α) :
    (if c.flip.reversed then fraction.reverse.reverse else fraction.reverse) =
      if c.reversed then fraction.reverse else fraction := by
  unfold Canonical.flip
  cases fraction <;> cases c.reversed <;> simp [BinValues.reverse]

variable [Std.Asymm ((· < ·) : α → α → Prop)]

theorem alike_put_reverse (curve : EffectiveArea α) {update : AreaUpdate α} {tolerance uncertainty : α}
    (h : EndsApart ((update.unit.binsInKev update.lo update.hi).map Bin.lo)) :
    Noted.Alike Eq (curve.put update.reverseRows tolerance uncertainty) (curve.put update tolerance uncertainty) := by
  have hupdate : Except.Alike Eq (curve.canonicalUpdate update.reverseRows) (curve.canonicalUpdate update) := by
    unfold canonicalUpdate
    refine (canonicalize_reverse h).mapError.bind fun c' c hc => ?_
    subst hc
    simp only [AreaUpdate.reverseRows, List.length_reverse]
    refine .bind_self fun _ => .bind_self fun _ => .bind_self fun _ => ?_
    refine (alike_requirePositive_reverse _).bind fun _ _ _ => ?_
    simp only [arrange_flip_reverse]
    exact .ok rfl
  refine (Noted.Alike.lift hupdate).bind fun arrays' arrays harrays => ?_
  subst harrays
  exact .warnIf_bind (.warnIf_bind (.pure rfl))

theorem alike_read_reverse {file : CalibrationFile α} {names : List String} (h : file.EnergiesApart names) :
    Except.Alike Eq (read (file.reverseRows names) names) (read file names) := by
  unfold read
  refine (file.extension_reverseRows_self names).bind_of_ok fun t' t ht ht' => ?_
  subst ht'
  refine (t.fixedColumn_reverseRows "ENERG_LO").bind_of_ok fun lo' lo hlo hlo' => ?_
  refine (t.fixedColumn_reverseRows "ENERG_HI").bind_of_ok fun hi' hi hhi hhi' => ?_
  refine (t.fixedColumn_reverseRows "SPECRESP").bind fun area' area harea => ?_
  subst hlo' hhi' harea
  refine .bind_self_of_ok fun unit hunit => ?_
  refine (canonicalize_reverse (h t ht lo hi unit hlo hhi hunit)).mapError.bind fun c' c hc => ?_
  subst hc
  rw [List.length_reverse]
  refine .bind_self fun _ => ?_
  refine (alike_readErrors_reverse file.origin t _).bind fun errors' errors herrors => ?_
  refine (alike_readFraction_reverse file.origin t _).bind fun fraction' fraction hfraction => ?_
  subst herrors hfraction
  rw [arrange_flip_reverse, arrange_flip_reverse]
  refine .bind_self fun exposure => .bind_self fun curve => ?_
  rw [turn_fraction_flip_reverse]
  exact Except.alike_self (fun _ => rfl) _

end EffectiveArea

/-! ### All readers -/

/-- Where the low edges of the first and the last bin differ, reversing all rows together changes nothing: a
reader succeeds on the reversed rows exactly if it succeeded before, and then it gives the same spectrum, the same
effective area, or the same matrix but for the direction it remembers. -/
theorem products_do_not_depend_on_row_order [Std.Asymm ((· < ·) : α → α → Prop)] :
    (∀ input : SpectrumInput α, EndsApart ((input.unit.binsInKev input.lo input.hi).map Bin.lo) → ∀ s,
      (Spectrum.ofInput input.reverseRows).outcome.1 = .ok s ↔ (Spectrum.ofInput input).outcome.1 = .ok s) ∧
    (∀ (file : CalibrationFile α) names, file.EnergiesApart names → ∀ curve,
      EffectiveArea.read (file.reverseRows names) names = .ok curve ↔ EffectiveArea.read file names = .ok curve) ∧
    (∀ (curve : EffectiveArea α) (update : AreaUpdate α) tolerance uncertainty,
      EndsApart ((update.unit.binsInKev update.lo update.hi).map Bin.lo) → ∀ answer,
        (curve.put update.reverseRows tolerance uncertainty).outcome.1 = .ok answer ↔
          (curve.put update tolerance uncertainty).outcome.1 = .ok answer) ∧
    (∀ file : CalibrationFile α, file.EnergiesApart ["SPECRESP MATRIX", "MATRIX"] → ∀ m,
      (Redistribution.read (file.reverseRows ["SPECRESP MATRIX", "MATRIX"])).outcome.1 = .ok m ↔
        (Redistribution.read file).outcome.1 = .ok m.flipEnergies) ∧
    (∀ file : CalibrationFile α, file.NumbersApart → ∀ m,
      (Redistribution.read (file.reverseRows ["EBOUNDS"])).outcome.1 = .ok m ↔
        (Redistribution.read file).outcome.1 = .ok m.flipBounds) := by
  refine ⟨fun input h s => ?_, fun file names h curve => ?_, fun curve update tolerance uncertainty h answer => ?_,
    fun file h m => ?_, fun file h m => ?_⟩
  · exact (Spectrum.alike_ofInput_reverse h).outcome.ok_iff_ok s
  · exact (EffectiveArea.alike_read_reverse h).ok_iff_ok curve
  · exact (curve.alike_put_reverse h).outcome.ok_iff_ok answer
  · exact (Redistribution.alike_read_reverse_energies h).outcome.ok_iff _
      Redistribution.flipEnergies_flipEnergies m
  · exact (Redistribution.alike_read_reverse_bounds h).outcome.ok_iff _ Redistribution.flipBounds_flipBounds m

/-! ### Products given in wavelengths -/

namespace Wavelengths

/-- Two bins of wavelength, the longer of bad quality. -/
def spectrum : SpectrumInput ℚ where
  lo := [1, 2]
  hi := [2, 4]
  unit := .angstrom
  counts := [5, 7]
  statErrors := none
  sysFractions := some [0, 1/4]
  quality := some [0, 1]
  exposure := 1
  backscal := 1
  observation := {}

/-- An effective area with errors and fractions. -/
def areaTable : Extension ℚ where
  name := "SPECRESP"
  keywords := .ofList [("EXPOSURE", .integer 1)]
  columns := .ofList [("ENERG_LO", .fixed [1, 2]), ("ENERG_HI", .fixed [2, 4]), ("SPECRESP", .fixed [10, 20]),
    ("RESP_ERR", .fixed [1, 2]), ("FRACEXPO", .fixed [1, 1/2])]
  columnKeywords := .ofList [("ENERG_LO", .ofList [("TUNIT", .text "Angstrom")])]

/-- A matrix with two rows. -/
def matrixTable : Extension ℚ where
  name := "MATRIX"
  keywords := .ofList [("N_GRP", .integer 1)]
  columns := .ofList [("ENERG_LO", .fixed [1, 2]), ("ENERG_HI", .fixed [2, 4]), ("F_CHAN", .fixed [2, 1]),
    ("N_CHAN", .fixed [1, 2]), ("MATRIX", .lists [[1], [1/2, 1/2]])]
  columnKeywords := .ofList [("ENERG_LO", .ofList [("TUNIT", .text "Angstrom")])]

/-- The energies of its two channels. -/
def boundsTable : Extension ℚ where
  name := "EBOUNDS"
  columns := .ofList [("CHANNEL", .fixed [1, 2]), ("E_MIN", .fixed [1, 2]), ("E_MAX", .fixed [2, 3])]

/-- A file with all three tables. -/
def file : CalibrationFile ℚ := ⟨"wavelengths.json", [areaTable, matrixTable, boundsTable]⟩

/-- The arrays for an effective area. -/
def update : AreaUpdate ℚ := ⟨[1, 2], [2, 4], [10, 20], [1, 2], .angstrom⟩

/-- The first of the two wavelengths is the greater energy. -/
theorem endsApart : EndsApart ((EdgeUnit.angstrom.binsInKev [(1 : ℚ), 2] [2, 4]).map Bin.lo) :=
  ⟨_, _, rfl, rfl, .inr (by decide +kernel)⟩

/-- The table that is found has the two wavelengths. -/
def isFound (names : List String) : Bool :=
  (file.extension names).toOption.all fun t =>
    (t.fixedColumn "ENERG_LO").toOption = some [1, 2] ∧ (t.fixedColumn "ENERG_HI").toOption = some [2, 4] ∧
      (t.columnUnit "ENERG_LO" .kev).toOption = some .angstrom

theorem energiesApart {names : List String} (h : isFound names = true) : file.EnergiesApart names := by
  intro t ht lo hi unit hlo hhi hunit
  rw [isFound, ht] at h
  obtain ⟨hlo', hhi', hunit'⟩ := of_decide_eq_true h
  rw [hlo] at hlo'
  rw [hhi] at hhi'
  rw [hunit] at hunit'
  cases hlo'
  cases hhi'
  cases hunit'
  exact endsApart

theorem numbersApart : file.NumbersApart := by
  intro t ht
  have hfound : (file.extension ["EBOUNDS"]).toOption.all fun t =>
      t.column? "CHANNEL" = some (.fixed [1, 2]) := by decide +kernel
  rw [ht] at hfound
  exact ⟨[1, 2], of_decide_eq_true hfound, 1, 2, rfl, rfl, .inl (by decide +kernel)⟩

end Wavelengths

/-- The products are made, and they are the same from either end. -/
theorem wavelengths_from_either_end :
    (∃ s, (Spectrum.ofInput Wavelengths.spectrum).outcome.1 = .ok s ∧
      (Spectrum.ofInput Wavelengths.spectrum.reverseRows).outcome.1 = .ok s) ∧
    (∃ curve, EffectiveArea.read Wavelengths.file ["SPECRESP"] = .ok curve ∧
      EffectiveArea.read (Wavelengths.file.reverseRows ["SPECRESP"]) ["SPECRESP"] = .ok curve ∧
      ∃ answer, (curve.put Wavelengths.update (1 / 10000) 1).outcome.1 = .ok answer ∧
        (curve.put Wavelengths.update.reverseRows (1 / 10000) 1).outcome.1 = .ok answer) ∧
    ∃ m, (Redistribution.read Wavelengths.file).outcome.1 = .ok m ∧
      (Redistribution.read (Wavelengths.file.reverseRows ["SPECRESP MATRIX", "MATRIX"])).outcome.1 =
        .ok m.flipEnergies ∧
      (Redistribution.read (Wavelengths.file.reverseRows ["EBOUNDS"])).outcome.1 = .ok m.flipBounds := by
  obtain ⟨hspectra, hareas, hputs, hmatrices, hbounds⟩ := products_do_not_depend_on_row_order (α := ℚ)
  have hspectrum : (Spectrum.ofInput Wavelengths.spectrum).outcome.1.isOk := by decide +kernel
  have hmatrix : (Redistribution.read Wavelengths.file).outcome.1.isOk := by decide +kernel
  obtain ⟨s, hs⟩ := Except.exists_of_isOk hspectrum
  obtain ⟨m, hm⟩ := Except.exists_of_isOk hmatrix
  refine ⟨⟨s, hs, (hspectra _ Wavelengths.endsApart s).2 hs⟩, ?_, m, hm, ?_, ?_⟩
  · have hcurve : (EffectiveArea.read Wavelengths.file ["SPECRESP"]).toOption.any fun curve =>
        (curve.put Wavelengths.update (1 / 10000) 1).outcome.1.isOk := by decide +kernel
    obtain ⟨curve, hread, hput⟩ := (Option.any_eq_true _ _).1 hcurve
    have hread := Except.toOption_eq_some.1 hread
    obtain ⟨answer, hanswer⟩ := Except.exists_of_isOk hput
    refine ⟨curve, hread, (hareas _ _ (Wavelengths.energiesApart (by decide +kernel)) curve).2 hread, answer,
      hanswer, (hputs curve _ _ _ Wavelengths.endsApart answer).2 hanswer⟩
  · refine (hmatrices _ (Wavelengths.energiesApart (by decide +kernel)) m.flipEnergies).2 ?_
    rw [Redistribution.flipEnergies_flipEnergies, hm]
  · refine (hbounds _ Wavelengths.numbersApart m.flipBounds).2 ?_
    rw [Redistribution.flipBounds_flipBounds, hm]

end SpectralResponse
