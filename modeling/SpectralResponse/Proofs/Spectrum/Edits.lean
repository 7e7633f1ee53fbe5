import SpectralResponse.Proofs.Except
import SpectralResponse.Spectrum.Basic

/-!
# Edits of a spectrum

The kernel, the background, the systematic errors and the noticed bins of a spectrum may be replaced at any
time. An edit brings the working bins up to date where they depend on what is replaced; it never touches what
was observed, nor the grouping.

## What is proved

* `eq_of_rebuild` — bringing the working bins up to date changes nothing else.
* `exists_setNotice_of_setRange` — noticing or ignoring a range is one way to notice other bins.
* `Edited.keeps` — an edit leaves what was observed and the grouping.
-/

namespace SpectralResponse.Spectrum

variable {α : Type} [Scalar α] {s next : Spectrum α}

/-- A change of a spectrum that leaves its groups. -/
inductive Edited (s next : Spectrum α) : Prop where
  /-- Another kernel. -/
  | kernel (kernel : Kernel α) (h : next = s.setKernel kernel)
  /-- Another background. -/
  | background {background : Background α} (h : s.setBackground background = .ok next)
  /-- Other systematic errors. -/
  | sysFractions {fractions : List α} (h : s.setSysFractions fractions = .ok next)
  /-- Other bins are noticed. -/
  | notice {flags : List Bool} (h : s.setNotice flags = .ok next)

/-- Bringing the working bins up to date changes nothing else. -/
theorem eq_of_rebuild (h : s.rebuild = .ok next) : next = { s with working := next.working } := by
  obtain ⟨working, -, h⟩ := Except.bind_eq_ok.1 h
  cases Except.ok.inj h
  rfl

theorem exists_setNotice_of_setRange {a b : α} {unit : EdgeUnit} {noticed : Bool} {count : Nat}
    (h : s.setRange a b unit noticed = .ok (next, count)) : ∃ flags, s.setNotice flags = .ok next := by
  obtain ⟨range, -, h⟩ := Except.bind_eq_ok.1 h
  obtain ⟨changed, hnotice, h⟩ := Except.bind_eq_ok.1 h
  cases Except.ok.inj h
  exact ⟨_, hnotice⟩

/-- What was observed stays, and so does the grouping. -/
theorem Edited.keeps (h : s.Edited next) : next.observed = s.observed ∧ next.grouping = s.grouping := by
  cases h with
  | kernel kernel h =>
    rw [h]
    exact ⟨rfl, rfl⟩
  | background h =>
    obtain ⟨⟨⟩, -, h⟩ := Except.bind_eq_ok.1 h
    cases Except.ok.inj h
    exact ⟨rfl, rfl⟩
  | sysFractions h =>
    obtain ⟨⟨⟩, -, h⟩ := Except.bind_eq_ok.1 h
    rw [eq_of_rebuild h]
    exact ⟨rfl, rfl⟩
  | notice h =>
    obtain ⟨flags, -, h⟩ := Except.bind_eq_ok.1 h
    cases Except.ok.inj h
    exact ⟨rfl, rfl⟩

end SpectralResponse.Spectrum
