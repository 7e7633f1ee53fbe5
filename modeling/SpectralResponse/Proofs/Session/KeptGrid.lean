import SpectralResponse.Proofs.Scalar.Rational
import SpectralResponse.Proofs.Session.Predictions

/-!
# A kept grid is invisible

The shared evaluation grid is kept to save time. Nothing in the key it is kept under says which grids the effective
areas had or where models were to be evaluated, so an operation that changes one of these has to forget it. All of
them do, also where they fail; a prediction is therefore the same, or fails alike, if the grid is dropped before.

## What is proved

* `answerTo_predictedCounts_eq_of_cache` — of two sound shared grids it does not matter which is kept.
* `kept_grid_is_invisible` — a prediction does not depend on the grid that is kept, and that grid is the one the
  strategy gives for the effective areas as they are.
-/

namespace SpectralResponse.Session

section

variable {α : Type} [Scalar α] {s : Session α} {cache : EvaluationCache α}

/-- Of two sound shared grids it does not matter for a prediction which is kept. -/
theorem answerTo_predictedCounts_eq_of_cache (h : s.CacheSound) (h' : { s with cache }.CacheSound)
    (ids : List SpectrumId) (model : Model α) :
    answerTo (predictedCounts ids model) { s with cache } = answerTo (predictedCounts ids model) s :=
  answerTo_predictedCounts_of_stays rfl rfl h h' fun _ _ _ _ _ _ => ⟨rfl, rfl⟩

/-- After any run, failed operations included, a prediction answers as it does once the grid that is kept has been
dropped. If a grid is kept for some spectra and effective areas, it is the one that the strategy gives for the
grids these have now. -/
theorem kept_grid_is_invisible {history : List (Event α)} (h : Run history s) :
    (∀ ids model, (run (predictedCounts ids model) s).1.1 =
        (run (predictedCounts ids model) { s with cache := .empty }).1.1) ∧
      ∀ key shared, s.cache.entry = some (key, shared) →
        ∀ grids, List.Forall₂ s.HasGrid (areasOf key) grids → s.strategy.sharedGrid grids = .ok shared :=
  ⟨fun ids model => (answerTo_predictedCounts_eq_of_cache h.cacheSound (.of_empty rfl) ids model).symm,
    h.cacheSound.made⟩

end

/-! ### A prediction from a kept grid -/

namespace TwoBins

/-- Two bins that touch. -/
def grid : Grid ℚ := Sample.grid 2

/-- A spectrum with the two bins. -/
def spectrum : Spectrum ℚ := Sample.spectrum grid [4, 5] [2, 2]

end TwoBins

namespace Kept

/-- One bin for models to be evaluated on. -/
def wide : Grid ℚ := ⟨[⟨1, 3⟩]⟩

/-- Models are to be evaluated on the one bin. -/
def config : Config ℚ := { Config.default with evaluation := .userDefined [1] [3] .kev }

/-- A flux of four in each bin. -/
def model : Model ℚ := fun grid => grid.bins.map fun _ => 4

/-- A session without products. -/
def start : Session ℚ := ⟨config, .empty, .empty, .empty, .userDefined wide, .empty⟩

/-- Counts are predicted for a spectrum, and a response that is not there is assigned to it. -/
def operations : List (Operation ℚ) :=
  [.addSpectrum TwoBins.spectrum, .predictedCounts [⟨0⟩] model, .assign ⟨0⟩ ⟨⟨7⟩, ⟨7⟩⟩]

/-- The session after that. -/
def session : Session ℚ := (start.replay operations).2

theorem run_session : Run (start.replay operations).1 session := by
  have hchoice : EvaluationStrategy.ofChoice config.evaluation = .ok (.userDefined wide) :=
    Except.toOption_eq_some.1 (by decide +kernel)
  have hstart : ofConfig config = .ok start := by
    rw [ofConfig, hchoice]
    rfl
  exact (Run.start hstart).replay operations

end Kept

/-- The one bin is kept after an assignment has failed; what is predicted from it is predicted without it. -/
theorem kept_bin_is_found_again :
    Kept.session.cache.entry = some ([(⟨0⟩, ⟨0⟩)], some Kept.wide) ∧
      Kept.session.strategy.sharedGrid [TwoBins.grid] = .ok (some Kept.wide) ∧
      (run (predictedCounts [⟨0⟩] Kept.model) Kept.session).1.1.toOption.map Prediction.counts = some [[2, 2]] := by
  have hentry : Kept.session.cache.entry = some ([(⟨0⟩, ⟨0⟩)], some Kept.wide) := by decide +kernel
  have hgrid : Kept.session.HasGrid ⟨0⟩ TwoBins.grid := ⟨⟨.identity TwoBins.grid, 1, false⟩, by decide +kernel, rfl⟩
  obtain ⟨hanswer, hkept⟩ := kept_grid_is_invisible Kept.run_session
  refine ⟨hentry, hkept _ _ hentry _ (.cons hgrid .nil), ?_⟩
  rw [hanswer]
  decide +kernel

end SpectralResponse.Session
