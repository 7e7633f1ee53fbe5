import SpectralResponse.Proofs.Session.Outcome

/-!
# Runs of a session

Everything a user can ask of a session is an `Operation`. A run starts with a session without products
and carries out operations one after another; a failed operation leaves the session it had reached, and
the run goes on from there. The history of a run lists the operations with their answers. `Sample` holds a
session without products and the products that sample runs of other modules take in.

## What is proved

* `Run.invariant` — what holds of the session at the start and is kept by every operation, failed ones
  included, holds after every run.
* `replay_preserves` — what is kept by operations of some kind that succeed holds after any number of them,
  wherever they start.
-/

namespace SpectralResponse.Session

variable {α : Type} [Scalar α]

/-- What a user can ask of a session. -/
inductive Operation (α : Type) where
  /-- Take over a configuration. -/
  | setConfig (config : Config α)
  /-- Read an effective area and take it in. -/
  | loadArea (file : CalibrationFile α)
  /-- Take in an effective area. -/
  | addArea (curve : EffectiveArea α)
  /-- Replace the arrays of an effective area. -/
  | updateArea (id : AreaId) (update : AreaUpdate α)
  /-- Replace the exposure time of an effective area. -/
  | setExposure (id : AreaId) (exposure : α)
  /-- Give away an effective area that nothing uses. -/
  | deleteArea (id : AreaId)
  /-- Let an effective area go as soon as nothing uses it. -/
  | releaseArea (id : AreaId)
  /-- Read a matrix and take it in. -/
  | loadMatrix (file : CalibrationFile α)
  /-- Take in a matrix, on whatever channels it stands. -/
  | takeMatrix (matrix : ResponseMatrix α)
  /-- Give away a matrix that nothing uses. -/
  | deleteMatrix (id : MatrixId)
  /-- Let a matrix go as soon as nothing uses it. -/
  | releaseMatrix (id : MatrixId)
  /-- Move a matrix to other channels. -/
  | rebinMatrix (id : MatrixId) (target : Grid α) (threshold : α)
  /-- Read a spectrum and take it in. -/
  | loadSpectrum (file : CalibrationFile α)
  /-- Take in a spectrum. -/
  | addSpectrum (spectrum : Spectrum α)
  /-- Give away a spectrum and let go of its responses. -/
  | deleteSpectrum (id : SpectrumId)
  /-- Add a response pair to a spectrum. -/
  | assign (id : SpectrumId) (pair : ResponsePair)
  /-- Take all response pairs from a spectrum. -/
  | unassign (id : SpectrumId)
  /-- Replace the kernel of a spectrum. -/
  | setKernel (id : SpectrumId) (kernel : Kernel α)
  /-- Replace the background of a spectrum. -/
  | setBackground (id : SpectrumId) (background : Background α)
  /-- Replace the systematic errors of a spectrum. -/
  | setSysFractions (id : SpectrumId) (fractions : List α)
  /-- Notice or ignore a range of a spectrum. -/
  | setRange (id : SpectrumId) (lo hi : α) (unit : EdgeUnit) (noticed : Bool)
  /-- Notice all good bins of a spectrum. -/
  | noticeAll (id : SpectrumId)
  /-- Notice no bin of a spectrum. -/
  | ignoreAll (id : SpectrumId)
  /-- Group a spectrum by a mask. -/
  | rebinSpectrum (id : SpectrumId) (mask : List Int)
  /-- Group a spectrum to a least count. -/
  | groupToCount (id : SpectrumId) (threshold : α)
  /-- Make each observed bin a working bin again. -/
  | unbin (id : SpectrumId)
  /-- Tell the energy bins that matter for a spectrum. -/
  | noticedModelBins (id : SpectrumId)
  /-- Predict counts. -/
  | predictedCounts (ids : List SpectrumId) (model : Model α)
  /-- Lay out data, model and uncertainties. -/
  | fitArrays (ids : List SpectrumId) (model : Model α)
  /-- Work out a statistic. -/
  | evaluateStatistic (ids : List SpectrumId) (model : Model α) (statistic : Statistic α)
  /-- Correct a spectrum for its responses. -/
  | fluxCorrect (id : SpectrumId)
  /-- Free what nothing uses and nobody retains. -/
  | compact
  /-- Show an effective area. -/
  | showArea (id : AreaId)
  /-- Show a matrix. -/
  | showMatrix (id : MatrixId)
  /-- Show a spectrum. -/
  | showSpectrum (id : SpectrumId)

/-- What an operation answers. -/
inductive Answer (α : Type) where
  /-- Nothing but that it is done. -/
  | done
  /-- The handle of a new effective area. -/
  | areaId (id : AreaId)
  /-- The handle of a new matrix. -/
  | matrixId (id : MatrixId)
  /-- The handle of a new spectrum. -/
  | spectrumId (id : SpectrumId)
  /-- An effective area. -/
  | area (curve : EffectiveArea α)
  /-- A matrix. -/
  | matrix (matrix : ResponseMatrix α)
  /-- A spectrum. -/
  | spectrum (spectrum : Spectrum α)
  /-- What happened to the arrays of an effective area. -/
  | report (report : PutReport)
  /-- Whether anything changed. -/
  | changed (changed : Bool)
  /-- How many bins or slots were concerned. -/
  | count (count : Nat)
  /-- The energy bins that matter, for each fit pair. -/
  | noticed (flags : List (List Bool))
  /-- Predicted counts. -/
  | prediction (prediction : Prediction α)
  /-- Data, model and uncertainties. -/
  | arrays (arrays : FitArrays α)
  /-- The value of a statistic. -/
  | value (value : α)
  /-- A flux-corrected spectrum. -/
  | flux (flux : FluxSpectrum α)

/-- Carries out an operation. -/
def Operation.perform : Operation α → SessionM α (Answer α)
  | .setConfig config => do Session.setConfig config; return .done
  | .loadArea file => do return .areaId (← Session.loadArea file)
  | .addArea curve => do return .areaId (← Session.addArea curve)
  | .updateArea id update => do return .report (← Session.updateArea id update)
  | .setExposure id exposure => do Session.setExposure id exposure; return .done
  | .deleteArea id => do return .area (← Session.deleteArea id)
  | .releaseArea id => do Session.releaseArea id; return .done
  | .loadMatrix file => do return .matrixId (← Session.loadMatrix file)
  | .takeMatrix matrix => do return .matrixId (← Session.takeMatrix matrix)
  | .deleteMatrix id => do return .matrix (← Session.deleteMatrix id)
  | .releaseMatrix id => do Session.releaseMatrix id; return .done
  | .rebinMatrix id target threshold => do return .changed (← Session.rebinMatrix id target threshold)
  | .loadSpectrum file => do return .spectrumId (← Session.loadSpectrum file)
  | .addSpectrum spectrum => do return .spectrumId (← Session.addSpectrum spectrum)
  | .deleteSpectrum id => do return .spectrum (← Session.deleteSpectrum id)
  | .assign id pair => do Session.assign id pair; return .done
  | .unassign id => do Session.unassign id; return .done
  | .setKernel id kernel => do Session.setKernel id kernel; return .done
  | .setBackground id background => do Session.setBackground id background; return .done
  | .setSysFractions id fractions => do Session.setSysFractions id fractions; return .done
  | .setRange id lo hi unit noticed => do return .count (← Session.setRange id lo hi unit noticed)
  | .noticeAll id => do Session.noticeAll id; return .done
  | .ignoreAll id => do Session.ignoreAll id; return .done
  | .rebinSpectrum id mask => do Session.rebinSpectrum id mask; return .done
  | .groupToCount id threshold => do Session.groupToCount id threshold; return .done
  | .unbin id => do Session.unbin id; return .done
  | .noticedModelBins id => do return .noticed (← Session.noticedModelBins id)
  | .predictedCounts ids model => do return .prediction (← Session.predictedCounts ids model)
  | .fitArrays ids model => do return .arrays (← Session.fitArrays ids model)
  | .evaluateStatistic ids model statistic => do
    return .value (← Session.evaluateStatistic ids model statistic)
  | .fluxCorrect id => do return .flux (← Session.fluxCorrect id)
  | .compact => do return .count (← Session.compact)
  | .showArea id => do return .area (← Session.area id)
  | .showMatrix id => do return .matrix (← Session.matrix id)
  | .showSpectrum id => do return .spectrum (← Session.spectrum id)

/-- An operation that was carried out, with its answer. -/
structure Event (α : Type) where
  /-- The operation. -/
  operation : Operation α
  /-- What it answered. -/
  answer : Except (Fault α) (Answer α)

/-- The operation succeeded. -/
def Event.Succeeded (e : Event α) : Prop := ∃ a, e.answer = .ok a

/-- From a session without products, the operations of the history, in this order and with these
answers, lead to the session. -/
inductive Run : List (Event α) → Session α → Prop where
  /-- The session at the start. -/
  | start {config : Config α} {s : Session α} : ofConfig config = .ok s → Run [] s
  /-- One more operation, whether it succeeds or fails. -/
  | step {history : List (Event α)} {s s' : Session α} {operation : Operation α}
      {answer : Except (Fault α) (Answer α)} :
      Run history s → (run operation.perform s).1 = (answer, s') →
      Run (history ++ [⟨operation, answer⟩]) s'

/-- Some run leads to the session. -/
def Reachable (s : Session α) : Prop := ∃ history, Run history s

/-- The session at the start holds nothing. -/
theorem eq_of_ofConfig {config : Config α} {s : Session α} (h : ofConfig config = .ok s) :
    s.config = config ∧ s.areas = .empty ∧ s.matrices = .empty ∧ s.spectra = .empty ∧
      s.cache = .empty := by
  unfold ofConfig at h
  cases hs : EvaluationStrategy.ofChoice config.evaluation with
  | error fault => rw [hs] at h; cases h
  | ok strategy =>
    rw [hs] at h
    cases h
    exact ⟨rfl, rfl, rfl, rfl, rfl⟩

instance (e : Event α) : Decidable e.Succeeded :=
  match h : e.answer with
  | .ok a => isTrue ⟨a, h⟩
  | .error fault => isFalse fun ⟨a, ha⟩ => by rw [h] at ha; cases ha

/-- Carries out operations one after another, whether they succeed or fail. -/
def replay (s : Session α) : List (Operation α) → List (Event α) × Session α
  | [] => ([], s)
  | operation :: operations =>
    let (answer, next) := (run operation.perform s).1
    let (history, last) := replay next operations
    (⟨operation, answer⟩ :: history, last)

/-- What a history tells of are the operations that were carried out. -/
theorem mem_of_mem_replay {s : Session α} {operations : List (Operation α)} {e : Event α}
    (h : e ∈ (s.replay operations).1) : e.operation ∈ operations := by
  induction operations generalizing s with
  | nil => cases h
  | cons operation operations ih =>
    rcases List.mem_cons.1 h with rfl | h
    · exact List.mem_cons_self
    · exact List.mem_cons_of_mem _ (ih h)

/-- What is kept by each allowed operation that succeeds holds after any number of them. -/
theorem replay_preserves {P : Session α → Prop} {allowed : Operation α → Prop}
    (step : ∀ operation s answer s', allowed operation → P s → Yields operation.perform s (.ok answer) s' →
      P s')
    {operations : List (Operation α)} {s : Session α} (hs : P s)
    (hallowed : ∀ operation ∈ operations, allowed operation)
    (hok : ∀ e ∈ (s.replay operations).1, e.Succeeded) : P (s.replay operations).2 := by
  induction operations generalizing s with
  | nil => exact hs
  | cons operation operations ih =>
    obtain ⟨a, ha⟩ := hok _ List.mem_cons_self
    have hstep : Yields operation.perform s (.ok a) (run operation.perform s).1.2 :=
      .of_run (Prod.ext ha rfl)
    exact ih (step operation s a _ (hallowed _ List.mem_cons_self) hs hstep)
      (fun o ho => hallowed o (List.mem_cons_of_mem _ ho)) fun e he => hok e (List.mem_cons_of_mem _ he)

namespace Run

theorem replay {history : List (Event α)} {s : Session α} (h : Run history s)
    (operations : List (Operation α)) :
    Run (history ++ (s.replay operations).1) (s.replay operations).2 := by
  induction operations generalizing history s with
  | nil =>
    rw [Session.replay, List.append_nil]
    exact h
  | cons operation operations ih =>
    have hstep : Run (history ++ [⟨operation, (run operation.perform s).1.1⟩])
        (run operation.perform s).1.2 := h.step rfl
    have := ih hstep
    rwa [List.append_assoc] at this

variable {P : Session α → Prop}

theorem invariant (start : ∀ config s, ofConfig config = .ok s → P s)
    (step : ∀ (operation : Operation α) s answer s', P s → Yields operation.perform s answer s' → P s')
    {history : List (Event α)} {s : Session α} (h : Run history s) : P s := by
  induction h with
  | start h => exact start _ _ h
  | step _ hrun ih => exact step _ _ _ _ ih (.of_run hrun)

end Run

/-! ### Sample sessions -/

namespace Sample

/-- A session without products, in which each effective area is evaluated on its own bins. -/
def empty (config : Config α) : Session α := ⟨config, .empty, .empty, .empty, .separate, .empty⟩

/-- Such a session under the default configuration. -/
def start : Session α := empty .default

/-- A run may start with it. -/
theorem ofConfig_empty {config : Config α} (h : config.evaluation = .separate) :
    ofConfig config = .ok (empty config) := by
  rw [ofConfig, h]
  rfl

theorem ofConfig_start : ofConfig Config.default = .ok (start : Session α) := ofConfig_empty rfl

/-- Bins of width one, from one on. -/
def grid (count : Nat) : Grid α :=
  ⟨(List.range count).map fun k => ⟨Scalar.ofInt (k + 1), Scalar.ofInt (k + 2)⟩⟩

/-- A spectrum all of whose bins are good, noticed and left apart. -/
def spectrum (grid : Grid α) (counts statErrors : List α) : Spectrum α where
  observed := ⟨grid, counts, statErrors, grid.bins.map fun _ => true, 1, 1, {}⟩
  sysFractions := grid.bins.map fun _ => 0
  notice := grid.bins.map fun _ => true
  policy := .quadrature
  errorFloor := 1
  grouping := .identity grid.length
  working := ⟨grid, counts, statErrors, grid.bins.map fun _ => 0, grid.bins.map fun _ => true⟩
  background := none
  kernel := .standard

/-- A matrix that counts each bin in a channel of its own. -/
def matrix (grid : Grid α) : ResponseMatrix α :=
  .ofRedistribution ⟨.delta, grid, grid, (List.range grid.length).map fun k => [⟨k, [1]⟩], .plain, {}⟩

end Sample

end SpectralResponse.Session
