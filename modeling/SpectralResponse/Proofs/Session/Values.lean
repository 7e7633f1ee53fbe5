import SpectralResponse.Proofs.ResponseMatrix.Built
import SpectralResponse.Proofs.Session.Balance
import SpectralResponse.Proofs.Spectrum.Tidy

/-!
# What the slots of a session hold

Spectra are tidy when they are taken in, and whatever a session does with them keeps them so, also when an operation
fails part of the way. The same goes for any property of matrices that passes on to those that a session makes of
them (`Inherited`), such as to have no negative weights. Each operation is followed along its text: what is read from
a slot is in order, and only what is in order is written to one.

## What is proved

* `holding_perform` — every operation keeps spectra tidy and a property of matrices that is passed on.
* `Run.holding` — so does every run that takes in nothing else.
* `Run.inOrder` — after such a run spectra are tidy and matrices have no negative weights.
-/

namespace SpectralResponse

/-! ### The values of an arena -/

namespace Arena

variable {β : Type} {kind : ProductKind} {a a' : Arena kind β} {id : Handle kind} {P : β → Prop}

/-- All values satisfy `P`. -/
def All (P : β → Prop) (a : Arena kind β) : Prop := ∀ id slot, a.slot? id = some slot → P slot.value

namespace All

theorem empty : (Arena.empty : Arena kind β).All P := fun id slot hs => by
  rw [slot?_empty] at hs
  cases hs

/-- One slot gets a value that satisfies `P`. -/
theorem setSlot (h : a.All P) {slot slot' : Slot β} (hs : a.slot? id = some slot) (hP : P slot'.value) :
    (a.setSlot id (some slot')).All P := by
  intro other found hfound
  rcases slot?_setSlot_cases hs hfound with ⟨-, rfl⟩ | ⟨-, hfound⟩
  · exact hP
  · exact h other found hfound

theorem setSlot_none (h : a.All P) : (a.setSlot id none).All P := fun other slot hs =>
  h other slot (slot?_of_setSlot_none hs)

theorem insert (h : a.All P) {value : β} (hP : P value) (retained : Bool) : (a.insert value retained).2.All P := by
  intro other slot hs
  rcases slot?_insert_cases hs with ⟨-, rfl⟩ | ⟨-, hs⟩
  · exact hP
  · exact h other slot hs

/-- Values that stay and new ones that satisfy `P`. -/
theorem inherits {N : β → Prop} (h : a.All P) (hi : a.Inherits Eq N a') (hN : ∀ value, N value → P value) :
    a'.All P := by
  intro id slot hs
  rcases hi.origin id slot hs with ⟨old, hold, -, hvalue⟩ | ⟨-, -, hnew⟩
  · rw [← hvalue]
    exact h id old hold
  · exact hN _ hnew

theorem compact (h : a.All P) : a.compact.2.All P :=
  h.inherits (N := fun _ => False) (.compact a) fun _ hN => hN.elim

end All

end Arena

namespace Session

variable {α : Type} [Scalar α] {s s' : Session α} {β γ : Type} {id : SpectrumId} {pair : ResponsePair}
  {M : ResponseMatrix α → Prop}

/-- Spectra are tidy, and matrices satisfy `M`. -/
structure Holding (M : ResponseMatrix α → Prop) (s : Session α) : Prop where
  /-- The spectra. -/
  spectra : s.spectra.All fun r => r.spectrum.Tidy
  /-- The matrices. -/
  matrices : s.matrices.All M

/-- The matrices that a session makes by itself, or of those that satisfy `M`, satisfy `M`. -/
structure Inherited (M : ResponseMatrix α → Prop) : Prop where
  /-- Matrices that stand in where none is assigned. -/
  ideal : ∀ channels m, Ideal channels m → M m
  /-- Matrices that are read. -/
  read : ∀ file m, (Redistribution.read file).Answers (.ok m) → M (.ofRedistribution m)
  /-- Matrices that are asked to move to other channels. -/
  moved : ∀ (m : ResponseMatrix α) c, M m → M (m.move c).2

/-- Slots of matrices come and go with their values; spectra stay. -/
theorem Holding.exchange {channels : Grid α} (hM : Inherited M) (h : s.Holding M) (hspectra : s'.spectra = s.spectra)
    (hexchanges : Exchanges channels s s') : s'.Holding M :=
  ⟨hspectra ▸ h.spectra, h.matrices.inherits hexchanges.matrices (hM.ideal channels)⟩

/-! ### Parts of operations -/

namespace Keeps

/-- A spectrum that is read is tidy. -/
theorem record_bind {f : SpectrumRecord α → SessionM α γ}
    (h : ∀ r, r.spectrum.Tidy → Keeps (Preserving (Holding M)) (f r)) :
    Keeps (Preserving (Holding M)) (Session.record id >>= f) := by
  intro s answer s' y hs
  rcases y.of_record_bind with ⟨_, -, -, rfl⟩ | ⟨slot, hslot, y₁⟩
  · exact hs
  · exact h slot.value (hs.spectra id slot hslot) _ _ _ y₁ hs

/-- A matrix that is read satisfies `M`. -/
theorem matrix_bind {id : MatrixId} {f : ResponseMatrix α → SessionM α γ}
    (h : ∀ m, M m → Keeps (Preserving (Holding M)) (f m)) :
    Keeps (Preserving (Holding M)) (Session.matrix id >>= f) := by
  intro s answer s' y hs
  rcases y.of_matrix_bind with ⟨_, -, -, rfl⟩ | ⟨slot, hslot, y₁⟩
  · exact hs
  · exact h slot.value (hs.matrices id slot hslot) _ _ _ y₁ hs

end Keeps

namespace Holding

theorem putRecord {r : SpectrumRecord α} (hr : r.spectrum.Tidy) :
    Keeps (Preserving (Holding M)) (putRecord id r) := by
  intro s answer s' y h
  rcases y.of_putRecord with ⟨_, -, -, rfl⟩ | ⟨slot, hs, -, rfl⟩
  · exact h
  · exact ⟨h.spectra.setSlot hs hr, h.matrices⟩

theorem putMatrix {id : MatrixId} {m : ResponseMatrix α} (hm : M m) :
    Keeps (Preserving (Holding M)) (putMatrix id m) := by
  intro s answer s' y h
  rcases y.of_putMatrix with ⟨_, -, -, rfl⟩ | ⟨slot, hs, -, rfl⟩
  · exact h
  · exact ⟨h.spectra, h.matrices.setSlot hs hm⟩

theorem putArea (id : AreaId) (curve : EffectiveArea α) : Keeps (Preserving (Holding M)) (putArea id curve) := by
  intro s answer s' y h
  rcases y.of_putArea with ⟨_, -, -, rfl⟩ | ⟨slot, -, -, rfl⟩
  · exact h
  · exact ⟨h.spectra, h.matrices⟩

theorem insertSpectrum {spectrum : Spectrum α} (hspectrum : spectrum.Tidy) :
    Keeps (Preserving (Holding M)) (insertSpectrum spectrum) := by
  intro s answer s' y h
  rw [y.of_insertSpectrum.2]
  exact ⟨h.spectra.insert hspectrum true, h.matrices⟩

theorem insertMatrix {m : ResponseMatrix α} (hm : M m) (retained : Bool) :
    Keeps (Preserving (Holding M)) (insertMatrix m retained) := by
  intro s answer s' y h
  rw [y.of_insertMatrix.2]
  exact ⟨h.spectra, h.matrices.insert hm retained⟩

theorem insertArea (curve : EffectiveArea α) (retained : Bool) :
    Keeps (Preserving (Holding M)) (insertArea curve retained) := by
  intro s answer s' y h
  rw [y.of_insertArea.2]
  exact ⟨h.spectra, h.matrices⟩

theorem compact : Keeps (Preserving (Holding M)) (compact (α := α)) := by
  intro s answer s' y h
  rw [y.of_compact.2]
  exact ⟨h.spectra, h.matrices.compact⟩

theorem forgetGrid : Keeps (Preserving (Holding M)) (forgetGrid (α := α)) :=
  .modify fun _ h => ⟨h.spectra, h.matrices⟩

theorem acquirePair (pair : ResponsePair) : Keeps (Preserving (Holding M)) (acquirePair (α := α) pair) := by
  intro s answer s' y h
  obtain ⟨_, _, rfl, -, hmatrices⟩ := y.of_acquirePair (N := fun _ => True) (M := fun _ => False)
  exact ⟨h.spectra, h.matrices.inherits hmatrices fun _ => False.elim⟩

theorem releasePair (pair : ResponsePair) : Keeps (Preserving (Holding M)) (releasePair (α := α) pair) := by
  intro s answer s' y h
  obtain ⟨_, _, rfl, -, hmatrices⟩ := y.of_releasePair (N := fun _ => True) (M := fun _ => False)
  exact ⟨h.spectra, h.matrices.inherits hmatrices fun _ => False.elim⟩

theorem changeSpectrum {change : Spectrum α → Except (Fault α) (Spectrum α × β)}
    (hchange : ∀ spectrum next b, spectrum.Tidy → change spectrum = .ok (next, b) → next.Tidy) :
    Keeps (Preserving (Holding M)) (changeSpectrum id change) :=
  .record_bind fun _ hr => .lift_bind fun (_, _) hnext => .bind (putRecord (hchange _ _ _ hr hnext)) fun _ =>
    .pure _

theorem updateSpectrum {change : Spectrum α → Except (Fault α) (Spectrum α)}
    (hchange : ∀ spectrum next, spectrum.Tidy → change spectrum = .ok next → next.Tidy) :
    Keeps (Preserving (Holding M)) (updateSpectrum id change) := by
  refine changeSpectrum fun spectrum next b hs hnext => ?_
  obtain ⟨next', hnext', heq⟩ := Except.map_eq_ok.1 hnext
  obtain rfl : next' = next := (Prod.mk.inj heq).1
  exact hchange spectrum _ hs hnext'

theorem deleteSpectrum (id : SpectrumId) : Keeps (Preserving (Holding M)) (deleteSpectrum (α := α) id) := by
  refine .record_bind fun r hr => .bind (putRecord hr) fun _ => ?_
  refine .bind (.forM fun _ _ => releasePair _) fun _ => .bind (.forM fun _ _ => releasePair _) fun _ => ?_
  intro s answer s' y h
  rcases y.of_get_bind.of_slot_bind with ⟨_, -, -, rfl⟩ | ⟨⟨record, spectra⟩, hremove, y₁⟩
  · exact h
  obtain ⟨slot, -, -, -, rfl⟩ := Arena.remove_eq_ok_iff.1 hremove
  have hremoved : Holding M { s with spectra := s.spectra.setSlot id none } := ⟨h.spectra.setSlot_none, h.matrices⟩
  exact Keeps.bind compact (fun _ => .bind forgetGrid fun _ => .pure _) _ _ _ y₁.of_modify_bind hremoved

/-! ### Products -/

theorem updateArea (id : AreaId) (update : AreaUpdate α) : Keeps (Preserving (Holding M)) (updateArea id update) :=
  .bind .get fun _ => .bind (.area id) fun _ => .bind (.noted _) fun _ => .bind (putArea _ _) fun _ =>
    .bind forgetGrid fun _ => .pure _

theorem setExposure (id : AreaId) (exposure : α) : Keeps (Preserving (Holding M)) (setExposure id exposure) :=
  .bind (.area id) fun _ => .bind (.lift _) fun _ => putArea _ _

theorem deleteArea (id : AreaId) : Keeps (Preserving (Holding M)) (deleteArea (α := α) id) := by
  intro s answer s' y h
  rcases y.of_deleteArea with ⟨_, -, rfl⟩ | ⟨curve, areas, -, -, rfl⟩
  · exact h
  · exact ⟨h.spectra, h.matrices⟩

theorem deleteMatrix (id : MatrixId) : Keeps (Preserving (Holding M)) (deleteMatrix (α := α) id) := by
  intro s answer s' y h
  rcases y.of_deleteMatrix with ⟨_, -, rfl⟩ | ⟨m, matrices, hremove, -, rfl⟩
  · exact h
  · obtain ⟨slot, -, -, -, rfl⟩ := Arena.remove_eq_ok_iff.1 hremove
    exact ⟨h.spectra, h.matrices.setSlot_none⟩

theorem releaseArea (id : AreaId) : Keeps (Preserving (Holding M)) (releaseArea (α := α) id) := by
  intro s answer s' y h
  rcases y.of_releaseArea with ⟨_, -, rfl⟩ | ⟨areas, -, -, rfl⟩
  · exact h
  · exact ⟨h.spectra, h.matrices.compact⟩

theorem releaseMatrix (id : MatrixId) : Keeps (Preserving (Holding M)) (releaseMatrix (α := α) id) := by
  intro s answer s' y h
  rcases y.of_releaseMatrix with ⟨_, -, rfl⟩ | ⟨matrices, hset, -, rfl⟩
  · exact h
  · obtain ⟨slot, hs, rfl⟩ := Arena.setRetained_eq_ok_iff.1 hset
    have hall : (s.matrices.setSlot id (some { slot with retained := false })).All M :=
      h.matrices.setSlot hs (h.matrices id slot hs)
    exact ⟨h.spectra, hall.compact⟩

/-! ### Matrices that follow spectra -/

variable (hM : Inherited M)
include hM

theorem fitPairs (observed : Grid α) (assigned : List ResponsePair) :
    Keeps (Preserving (Holding M)) (fitPairs observed assigned) :=
  (Bred.fitPairs assigned).mono fun _ _ hbred h => exchange hM h hbred.spectra hbred.exchanges

theorem moveChannels (id : MatrixId) (target : Grid α) (threshold : α) :
    Keeps (Preserving (Holding M)) (moveChannels id target threshold) :=
  .matrix_bind fun _ hm => .bind (putMatrix (hM.moved _ ⟨target, threshold⟩ hm)) fun _ => .lift _

theorem syncMatrices (id : SpectrumId) : Keeps (Preserving (Holding M)) (syncMatrices (α := α) id) :=
  .syncMatrices_of (moveChannels hM) forgetGrid id

theorem refreshFit (id : SpectrumId) : Keeps (Preserving (Holding M)) (refreshFit (α := α) id) :=
  .record_bind fun _ _ => .bind (fitPairs hM _ _) fun _ => .bind (.forM fun _ _ => acquirePair _) fun _ =>
    .record_bind fun _ hr => .bind (putRecord hr) fun _ => .bind (.forM fun _ _ => releasePair _) fun _ =>
      .bind compact fun _ => .bind forgetGrid fun _ => syncMatrices hM _

/-- A spectrum is grouped anew, and its matrices follow. -/
theorem regroup {change : Spectrum α → Except (Fault α) (Spectrum α)}
    (hchange : ∀ spectrum next, spectrum.Tidy → change spectrum = .ok next → next.Tidy) :
    Keeps (Preserving (Holding M)) (do Session.updateSpectrum id change; Session.syncMatrices id) :=
  .bind (updateSpectrum hchange) fun _ => syncMatrices hM id

theorem addSpectrum {spectrum : Spectrum α} (hspectrum : spectrum.Tidy) :
    Keeps (Preserving (Holding M)) (addSpectrum spectrum) :=
  .bind .get fun _ => .lift_bind fun _ hnext => .bind (insertSpectrum (hspectrum.configure hnext)) fun _ =>
    .bind (refreshFit hM _) fun _ => .pure _

theorem assign (id : SpectrumId) (pair : ResponsePair) : Keeps (Preserving (Holding M)) (assign (α := α) id pair) :=
  .bind (.area _) fun _ => .bind (.matrix _) fun _ => .bind (.bind (.record _) fun _ => .pure _) fun _ =>
    .bind .get fun _ => .bind (.noted _) fun _ => .bind (acquirePair _) fun _ => .record_bind fun _ hr =>
      .bind (putRecord hr) fun _ => .bind (.restoreShared_of (moveChannels hM) forgetGrid _) fun _ => refreshFit hM _

theorem unassign (id : SpectrumId) : Keeps (Preserving (Holding M)) (unassign (α := α) id) :=
  .record_bind fun _ hr => .bind (putRecord hr) fun _ => .bind (.forM fun _ _ => releasePair _) fun _ =>
    refreshFit hM _

theorem setConfig (config : Config α) : Keeps (Preserving (Holding M)) (setConfig config) :=
  .bind (.lift _) fun _ => .bind (.modify fun _ h => ⟨h.spectra, h.matrices⟩) fun _ => .bind .get fun _ =>
    .forM fun _ _ => .bind (updateSpectrum fun _ _ hs hnext => hs.configure hnext) fun _ => refreshFit hM _

end Holding

/-! ### All operations -/

/-- What an operation takes in as it is given is in order: a spectrum is tidy, as it is when it is made and
stays when it is changed, and a matrix satisfies `M`. -/
def Operation.TakesOnly (M : ResponseMatrix α → Prop) : Operation α → Prop
  | .takeMatrix m => M m
  | .addSpectrum spectrum => spectrum.Tidy
  | _ => True

/-- Whether it succeeds or fails, an operation keeps spectra tidy, and matrices as they are said to be. -/
theorem holding_perform (hM : Inherited M) {operation : Operation α} (htakes : operation.TakesOnly M) :
    Keeps (Preserving (Holding M)) operation.perform := by
  by_cases htells : operation.onlyTells = true
  · refine (sameContents_perform operation htells).mono fun s s' hsame h => ?_
    rw [hsame]
    exact ⟨h.spectra, h.matrices⟩
  cases operation with
  | setConfig config => exact .bind (Holding.setConfig hM config) fun _ => .pure _
  | loadArea file =>
    exact .bind (.bind .get fun _ => .bind (.lift _) fun _ => Holding.insertArea _ _) fun _ => .pure _
  | addArea curve => exact .bind (Holding.insertArea _ _) fun _ => .pure _
  | updateArea id update => exact .bind (Holding.updateArea id update) fun _ => .pure _
  | setExposure id exposure => exact .bind (Holding.setExposure id exposure) fun _ => .pure _
  | deleteArea id => exact .bind (Holding.deleteArea id) fun _ => .pure _
  | releaseArea id => exact .bind (Holding.releaseArea id) fun _ => .pure _
  | loadMatrix file =>
    exact .bind (.noted_bind fun m hread => Holding.insertMatrix (hM.read file m hread) true) fun _ => .pure _
  | takeMatrix m => exact .bind (Holding.insertMatrix htakes true) fun _ => .pure _
  | deleteMatrix id => exact .bind (Holding.deleteMatrix id) fun _ => .pure _
  | releaseMatrix id => exact .bind (Holding.releaseMatrix id) fun _ => .pure _
  | rebinMatrix id target threshold =>
    exact .bind (.rebinMatrix_of (Holding.moveChannels hM) id target threshold) fun _ => .pure _
  | loadSpectrum file =>
    exact .bind (.noted_bind fun _ hread => Holding.addSpectrum hM (Spectrum.tidy_of_read hread)) fun _ => .pure _
  | addSpectrum spectrum => exact .bind (Holding.addSpectrum hM htakes) fun _ => .pure _
  | deleteSpectrum id => exact .bind (Holding.deleteSpectrum id) fun _ => .pure _
  | assign id pair => exact .bind (Holding.assign hM id pair) fun _ => .pure _
  | unassign id => exact .bind (Holding.unassign hM id) fun _ => .pure _
  | setKernel id kernel =>
    refine .bind (Holding.updateSpectrum fun _ _ hs hnext => ?_) fun _ => .pure _
    cases Except.ok.inj hnext
    exact hs.setKernel kernel
  | setBackground id background =>
    exact .bind (Holding.updateSpectrum fun _ _ hs hnext => hs.setBackground hnext) fun _ => .pure _
  | setSysFractions id fractions =>
    exact .bind (Holding.updateSpectrum fun _ _ hs hnext => hs.setSysFractions hnext) fun _ => .pure _
  | setRange id lo hi unit noticed =>
    exact .bind (Holding.changeSpectrum fun _ _ _ hs hnext => hs.setRange hnext) fun _ => .pure _
  | noticeAll id => exact .bind (Holding.updateSpectrum fun _ _ hs hnext => hs.setNotice hnext) fun _ => .pure _
  | ignoreAll id => exact .bind (Holding.updateSpectrum fun _ _ hs hnext => hs.setNotice hnext) fun _ => .pure _
  | rebinSpectrum id mask => exact .bind (Holding.regroup hM fun _ _ hs hnext => hs.rebinByMask hnext) fun _ => .pure _
  | groupToCount id threshold =>
    exact .bind (Holding.regroup hM fun _ _ hs hnext => hs.groupToCount hnext) fun _ => .pure _
  | unbin id => exact .bind (Holding.regroup hM fun _ _ hs hnext => hs.unbin hnext) fun _ => .pure _
  | compact => exact .bind Holding.compact fun _ => .pure _
  | _ => exact absurd rfl htells

/-- Spectra are tidy, and matrices as they are said to be, after every run that takes in nothing else. -/
theorem Run.holding (hM : Inherited M) {history : List (Event α)} (h : Run history s)
    (htakes : ∀ e ∈ history, e.operation.TakesOnly M) : s.Holding M := by
  induction h with
  | start h =>
    obtain ⟨-, -, hmatrices, hspectra, -⟩ := eq_of_ofConfig h
    refine ⟨?_, ?_⟩
    · rw [hspectra]
      exact .empty
    · rw [hmatrices]
      exact .empty
  | @step history s s' operation answer _ hrun ih =>
    have hbefore := ih fun e he => htakes e (List.mem_append_left _ he)
    have hlast : operation.TakesOnly M := htakes _ (List.mem_append_right _ (List.mem_singleton_self _))
    exact holding_perform hM hlast _ _ _ (.of_run hrun) hbefore

/-! ### Weights that are not negative -/

section

variable {K : Type} [Field K] [LinearOrder K] [FloorRing K] [Roots K] {s : Session K}

/-- Spectra are tidy, and matrices have no negative weights. -/
structure InOrder (s : Session K) : Prop where
  /-- The spectra. -/
  spectra : s.spectra.All fun r => r.spectrum.Tidy
  /-- The matrices. -/
  matrices : s.matrices.All ResponseMatrix.Clean

/-- What an operation takes in as it is given is in order: a spectrum is tidy, as it is when it is made and
stays when it is changed, and a matrix has no negative weights, as is the case when it is built and stays so
however often it is moved. -/
def Operation.TakesInOrder : Operation K → Prop
  | .takeMatrix m => m.Clean
  | .addSpectrum spectrum => spectrum.Tidy
  | _ => True

/-- Matrices without negative weights stay so. -/
theorem inherited_clean [IsStrictOrderedRing K] : Inherited (ResponseMatrix.Clean (K := K)) where
  ideal := by
    rintro channels m ⟨energies, ideal, hideal, rfl⟩
    exact ResponseMatrix.clean_ofRedistribution (Redistribution.clean_of_ofRawRows hideal)
  read _ _ hread := ResponseMatrix.clean_ofRedistribution (Redistribution.clean_of_read hread)
  moved _ c hm := hm.move c

theorem Operation.TakesInOrder.takesOnly {operation : Operation K} (h : operation.TakesInOrder) :
    operation.TakesOnly ResponseMatrix.Clean := by
  cases operation with
  | takeMatrix m => exact h
  | addSpectrum spectrum => exact h
  | _ => trivial

/-- A session is in order after every run that takes in only what is in order. -/
theorem Run.inOrder [IsStrictOrderedRing K] {history : List (Event K)} (h : Run history s)
    (htakes : ∀ e ∈ history, e.operation.TakesInOrder) : s.InOrder := by
  have hholding := h.holding inherited_clean fun e he => (htakes e he).takesOnly
  exact ⟨hholding.spectra, hholding.matrices⟩

end

end Session

end SpectralResponse
