import SpectralResponse.Proofs.Session.KeptGrid
import SpectralResponse.Proofs.Session.Lifetimes

/-!
# Changes of responses that fail

A pair is assigned, pairs are taken away, a spectrum is taken in, or a configuration is taken over. Each of these
checks what it is given, records what it was asked for, and derives fit pairs and moves matrices then. The last part
may fail as well, and what has been recorded is not taken back.

## What is proved

* `askedStays_refreshFit` — deriving fit pairs leaves what was asked for, whether it succeeds or fails.
* `ResponseChange.settled` — a change that fails has been refused at once, or what it asks for stands.
* `failed_change_is_undone_iff` — when a change that fails leaves the session as it was.
* `failed_assignment_stays` — a change that does not.
-/

namespace SpectralResponse.Session

section

variable {α : Type} {s s' : Session α}

/-! ### What is compared -/

/-- The configuration and the spectra are the same, with the same pairs assigned to each. -/
structure SameAsked (s s' : Session α) : Prop where
  /-- The configuration. -/
  config : s'.config = s.config
  /-- The spectra with the assigned pairs. -/
  assigned : ∀ id, (s'.spectra.slot? id).map (·.value.assigned) = (s.spectra.slot? id).map (·.value.assigned)

/-- The spectra have the same pairs for fits, and the products that were there have the same users; matrices are the
same. -/
structure SameDerived (s s' : Session α) : Prop where
  /-- The pairs for fits. -/
  fit : ∀ id, (s'.spectra.slot? id).map (·.value.fit) = (s.spectra.slot? id).map (·.value.fit)
  /-- The users of effective areas. -/
  areas : ∀ id slot, s.areas.slot? id = some slot →
    ∃ slot', s'.areas.slot? id = some slot' ∧ slot'.inUse = slot.inUse
  /-- The users of matrices, and the matrices. -/
  matrices : ∀ id slot, s.matrices.slot? id = some slot →
    ∃ slot', s'.matrices.slot? id = some slot' ∧ slot'.inUse = slot.inUse ∧ slot'.value = slot.value

/-- Configuration, spectra, lists of pairs, users and matrices are the same. -/
structure SameResponses (s s' : Session α) : Prop where
  /-- What a user has asked for. -/
  asked : SameAsked s s'
  /-- What was derived from that. -/
  derived : SameDerived s s'

instance : Std.Refl (SameAsked (α := α)) := ⟨fun _ => ⟨rfl, fun _ => rfl⟩⟩

instance : IsTrans (Session α) SameAsked := ⟨fun _ _ _ h h' =>
  ⟨h'.config.trans h.config, fun id => (h'.assigned id).trans (h.assigned id)⟩⟩

instance : Std.Refl (SameDerived (α := α)) :=
  ⟨fun _ => ⟨fun _ => rfl, fun _ slot hs => ⟨slot, hs, rfl⟩, fun _ slot hs => ⟨slot, hs, rfl, rfl⟩⟩⟩

instance : Std.Refl (SameResponses (α := α)) := ⟨fun _ => ⟨Std.Refl.refl _, Std.Refl.refl _⟩⟩

namespace SameAsked

/-- Products do not concern what was asked for. -/
theorem of_spectra (hconfig : s'.config = s.config) (hspectra : s'.spectra = s.spectra) : SameAsked s s' :=
  ⟨hconfig, fun id => by rw [hspectra]⟩

/-- Nor does a record with the same assigned pairs. -/
theorem of_setSlot {id : SpectrumId} {slot : Slot (SpectrumRecord α)} {r : SpectrumRecord α}
    (hs : s.spectra.slot? id = some slot) (hassigned : r.assigned = slot.value.assigned)
    (hconfig : s'.config = s.config)
    (hspectra : s'.spectra = s.spectra.setSlot id (some { slot with value := r })) : SameAsked s s' := by
  refine ⟨hconfig, fun other => ?_⟩
  rw [hspectra]
  by_cases hother : other = id
  · rw [hother, Arena.slot?_setSlot_self hs, hs]
    exact congrArg some hassigned
  · rw [Arena.slot?_setSlot_of_ne hother]

/-- A spectrum that stands afterwards has stood before with the same assigned pairs. -/
theorem exists_before (h : SameAsked s s') {id : SpectrumId} {slot' : Slot (SpectrumRecord α)}
    (hs' : s'.spectra.slot? id = some slot') :
    ∃ slot, s.spectra.slot? id = some slot ∧ slot'.value.assigned = slot.value.assigned := by
  have hid := h.assigned id
  rw [hs', Option.map_some, eq_comm, Option.map_eq_some_iff] at hid
  obtain ⟨slot, hs, hsame⟩ := hid
  exact ⟨slot, hs, hsame.symm⟩

/-- One that stood before still stands. -/
theorem exists_after (h : SameAsked s s') {id : SpectrumId} {slot : Slot (SpectrumRecord α)}
    (hs : s.spectra.slot? id = some slot) :
    ∃ slot', s'.spectra.slot? id = some slot' ∧ slot'.value.assigned = slot.value.assigned := by
  have hid := h.assigned id
  rw [hs, Option.map_some, Option.map_eq_some_iff] at hid
  exact hid

end SameAsked

/-! ### What deriving leaves -/

/-- From a balanced session to another one, what was asked for stays. -/
def AskedStays (s s' : Session α) : Prop := s.Balanced → s'.Balanced ∧ SameAsked s s'

instance : Std.Refl (AskedStays (α := α)) := ⟨fun _ hb => ⟨hb, Std.Refl.refl _⟩⟩

instance : IsTrans (Session α) AskedStays := ⟨fun _ _ _ h h' hb => by
  obtain ⟨hb₁, hsame⟩ := h hb
  obtain ⟨hb', hsame'⟩ := h' hb₁
  exact ⟨hb', IsTrans.trans _ _ _ hsame hsame'⟩⟩

theorem sameAsked_putMatrix (id : MatrixId) (m : ResponseMatrix α) : Keeps SameAsked (putMatrix id m) := by
  intro s answer s' y
  rcases y.of_putMatrix with ⟨_, -, -, rfl⟩ | ⟨_, -, -, rfl⟩
  · exact Std.Refl.refl _
  · exact .of_spectra rfl rfl

theorem sameAsked_forgetGrid : Keeps SameAsked (forgetGrid (α := α)) := .modify fun _ => .of_spectra rfl rfl

theorem sameAsked_updateSpectrum (id : SpectrumId) (change : Spectrum α → Except (Fault α) (Spectrum α)) :
    Keeps SameAsked (updateSpectrum id change) := by
  intro s answer s' y
  rcases y.of_updateSpectrum with ⟨_, -, rfl, -⟩ | ⟨slot, next, hs, -, -, rfl⟩
  · exact Std.Refl.refl _
  · exact .of_setSlot (r := { slot.value with spectrum := next }) hs rfl rfl rfl

variable [Scalar α]

theorem sameAsked_moveChannels (id : MatrixId) (target : Grid α) (threshold : α) :
    Keeps SameAsked (moveChannels id target threshold) :=
  .bind (.matrix id) fun _ => .bind (sameAsked_putMatrix _ _) fun _ => .lift _

theorem askedStays_restoreShared (id : MatrixId) : Keeps AskedStays (restoreShared (α := α) id) :=
  fun _ _ _ y hb => ⟨(Keeps.restoreShared id).balanced _ _ _ y hb,
    Keeps.restoreShared_of sameAsked_moveChannels sameAsked_forgetGrid id _ _ _ y⟩

/-- Deriving the fit pairs of a spectrum leaves what was asked for. -/
theorem askedStays_refreshFit (id : SpectrumId) : Keeps AskedStays (refreshFit (α := α) id) := by
  intro s answer s' y hb
  refine ⟨balanced_refreshFit id _ _ _ y hb, ?_⟩
  rcases y.of_refreshFit hb with ⟨_, _, -, hbred⟩ | ⟨slot, fit, s₁, hr, y₁⟩
  · rw [hbred.rest]
    exact .of_spectra rfl rfl
  · have hexchanged : SameAsked s s₁ :=
      .of_setSlot (r := { slot.value with fit }) hr.found rfl hr.config hr.spectra
    exact IsTrans.trans _ _ _ hexchanged
      (Keeps.syncMatrices_of sameAsked_moveChannels sameAsked_forgetGrid id _ _ _ y₁)

/-- So does deriving those of some spectra for a configuration. -/
theorem askedStays_reconfigure (config : Config α) (ids : List SpectrumId) :
    Keeps AskedStays (ids.forM fun id => do updateSpectrum id (·.configure config); refreshFit id) := by
  refine .forM fun id _ => .bind ?_ fun _ => askedStays_refreshFit id
  exact fun s answer s' y hb => ⟨(Keeps.updateSpectrum id _).balanced _ _ _ y hb,
    sameAsked_updateSpectrum id _ _ _ _ y⟩

/-! ### Changes of responses -/

/-- A request that changes the responses of spectra. -/
inductive ResponseChange (α : Type) where
  /-- Add a response pair to a spectrum. -/
  | assign (id : SpectrumId) (pair : ResponsePair)
  /-- Take all response pairs from a spectrum. -/
  | unassign (id : SpectrumId)
  /-- Take in a spectrum. -/
  | addSpectrum (spectrum : Spectrum α)
  /-- Take over a configuration. -/
  | setConfig (config : Config α)

namespace ResponseChange

/-- The operation that is asked for. -/
def operation : ResponseChange α → Operation α
  | assign id pair => .assign id pair
  | unassign id => .unassign id
  | addSpectrum spectrum => .addSpectrum spectrum
  | setConfig config => .setConfig config

/-- The request passes the checks that are made before anything is changed. -/
def Accepted (s : Session α) : ResponseChange α → Prop
  | assign id pair => s.Accepts id pair
  | unassign id => ∃ slot, s.spectra.slot? id = some slot
  | addSpectrum spectrum => ∃ configured, spectrum.configure s.config = .ok configured
  | setConfig config => ∃ strategy, EvaluationStrategy.ofChoice config.evaluation = .ok strategy

/-- The session already is as the request would have it. -/
def AsksNothing (s : Session α) : ResponseChange α → Prop
  | assign _ _ => False
  | unassign id => ∀ slot, s.spectra.slot? id = some slot → slot.value.assigned = []
  | addSpectrum _ => False
  | setConfig config => config = s.config

/-- What the request asks for stands in the second session. -/
def Stands (s s' : Session α) : ResponseChange α → Prop
  | assign id pair => ∃ slot slot', s.spectra.slot? id = some slot ∧ s'.spectra.slot? id = some slot' ∧
      slot'.value.assigned = slot.value.assigned ++ [pair]
  | unassign id => ∃ slot', s'.spectra.slot? id = some slot' ∧ slot'.value.assigned = []
  | addSpectrum _ => ∃ id slot', s.spectra.slot? id = none ∧ s'.spectra.slot? id = some slot' ∧
      slot'.value.assigned = []
  | setConfig config => s'.config = config

variable {change : ResponseChange α} {fault : Fault α}

omit [Scalar α] in
/-- What stands is not what was there, unless the request asks for nothing. -/
theorem Stands.asksNothing (h : change.Stands s s') (hsame : SameAsked s s') : change.AsksNothing s := by
  cases change with
  | assign id pair =>
    obtain ⟨slot, slot', hs, hs', hassigned⟩ := h
    obtain ⟨slot₀, hs₀, hold⟩ := hsame.exists_before hs'
    cases hs.symm.trans hs₀
    rw [hold] at hassigned
    simp at hassigned
  | unassign id =>
    obtain ⟨slot', hs', hnone⟩ := h
    intro slot hs
    obtain ⟨slot₀, hs₀, hold⟩ := hsame.exists_before hs'
    cases hs.symm.trans hs₀
    rw [← hold, hnone]
  | addSpectrum spectrum =>
    obtain ⟨id, slot', hnone, hs', -⟩ := h
    obtain ⟨slot₀, hs₀, -⟩ := hsame.exists_before hs'
    cases hnone.symm.trans hs₀
  | setConfig config => exact h.symm.trans hsame.config

omit [Scalar α] in
/-- An operation whose answer is made of that of another one fails with it. -/
theorem of_bind_pure_error {β γ : Type} {x : SessionM α β} {f : β → γ}
    (y : Yields (x >>= fun b => pure (f b)) s (.error fault) s') : Yields x s (.error fault) s' := by
  rcases y.of_bind with ⟨fault', y₁, hfault⟩ | ⟨b, s₁, -, y₁⟩
  · cases hfault
    exact y₁
  · cases (yields_pure.1 y₁).1

/-! ### One change -/

/-- The request was refused and nothing has happened, or it passed the checks and stands. If it asks for nothing,
what was asked for before stands. -/
def Settled (s s' : Session α) (change : ResponseChange α) : Prop :=
  (¬ change.Accepted s ∧ s' = s) ∨
    change.Accepted s ∧ change.Stands s s' ∧ (change.AsksNothing s → SameAsked s s')

variable {id : SpectrumId} {pair : ResponsePair} {spectrum : Spectrum α} {config : Config α}

theorem settled_assign (hb : s.Balanced) (y : Yields (Session.assign id pair) s (.error fault) s') :
    Settled s s' (.assign id pair) := by
  rcases y.of_assign hb with
    ⟨_, -, hsame, hrefused⟩ | ⟨slot, curve, m, s₁, hcurve, hm, hcheck, hr, y₁⟩
  · exact .inl ⟨hrefused, hsame⟩
  have hstays := Keeps.bind (askedStays_restoreShared pair.matrix) (fun _ => askedStays_refreshFit id) _ _ _ y₁
  have hs₁ : s₁.spectra.slot? id = some _ := hr.spectra ▸ Arena.slot?_setSlot_self hr.found _
  obtain ⟨slot', hs', hassigned⟩ := (hstays hr.balanced).2.exists_after hs₁
  refine .inr ⟨?_, ⟨slot, slot', hr.found, hs', hassigned⟩, False.elim⟩
  exact ⟨slot, curve, m, hr.found, hcurve, hm, (answers_checkPair hcheck).1 rfl⟩

theorem settled_unassign (hb : s.Balanced) (y : Yields (Session.unassign id) s (.error fault) s') :
    Settled s s' (.unassign id) := by
  rcases y.of_unassign hb with ⟨_, -, hsame, hnone⟩ | ⟨slot, s₁, hr, y₁⟩
  · refine .inl ⟨?_, hsame⟩
    rintro ⟨slot, hs⟩
    cases hnone.symm.trans hs
  have hasked := (askedStays_refreshFit id _ _ _ y₁ hr.balanced).2
  have hs₁ : s₁.spectra.slot? id = some _ := hr.spectra ▸ Arena.slot?_setSlot_self hr.found _
  obtain ⟨slot', hs', hassigned⟩ := hasked.exists_after hs₁
  refine .inr ⟨⟨slot, hr.found⟩, ⟨slot', hs', hassigned⟩, fun hnone => ?_⟩
  have hstill : SameAsked s s₁ := .of_setSlot hr.found (hnone slot hr.found).symm hr.config hr.spectra
  exact IsTrans.trans _ _ _ hstill hasked

theorem settled_addSpectrum (hb : s.Balanced)
    (y : Yields (Session.addSpectrum spectrum) s (.error fault) s') : Settled s s' (.addSpectrum spectrum) := by
  rcases y.of_addSpectrum with ⟨_, -, hsame, hrefused⟩ | ⟨configured, newId, spectra, hconfigure, hinsert, y₁⟩
  · refine .inl ⟨?_, hsame⟩
    rintro ⟨configured, h⟩
    cases hrefused.symm.trans h
  obtain ⟨rfl, rfl⟩ := Prod.mk.inj hinsert
  have hb₁ := Held.insertSpectrum hb ⟨configured, [], []⟩ rfl true
  have hasked := (askedStays_refreshFit _ _ _ _ (of_bind_pure_error y₁) hb₁).2
  obtain ⟨slot', hs', hassigned⟩ := hasked.exists_after (Arena.slot?_insert_self _ _)
  exact .inr ⟨⟨configured, hconfigure⟩, ⟨_, slot', Arena.slot?_insert_id _ _, hs', hassigned⟩, False.elim⟩

theorem settled_setConfig (hb : s.Balanced)
    (y : Yields (Session.setConfig config) s (.error fault) s') : Settled s s' (.setConfig config) := by
  rcases y.of_lift_bind with ⟨_, hrefused, -, hsame⟩ | ⟨strategy, hstrategy, y₁⟩
  · refine .inl ⟨?_, hsame⟩
    rintro ⟨strategy, h⟩
    rw [h] at hrefused
    cases hrefused
  have hasked := (askedStays_reconfigure config _ _ _ _ y₁.of_modify_bind.of_get_bind ⟨hb.areas, hb.matrices⟩).2
  refine .inr ⟨?_, hasked.config, fun hsame => ?_⟩
  · cases hchoice : EvaluationStrategy.ofChoice config.evaluation with
    | error _ =>
      rw [hchoice] at hstrategy
      cases hstrategy
    | ok strategy => exact ⟨strategy, hchoice⟩
  · exact ⟨hasked.config.trans hsame, hasked.assigned⟩

/-- A change that fails was refused at once, or it stands. -/
theorem settled (hb : s.Balanced) (y : Yields change.operation.perform s (.error fault) s') :
    change.Settled s s' := by
  cases change with
  | assign id pair => exact settled_assign hb (of_bind_pure_error y)
  | unassign id => exact settled_unassign hb (of_bind_pure_error y)
  | addSpectrum spectrum => exact settled_addSpectrum hb (of_bind_pure_error y)
  | setConfig config => exact settled_setConfig hb (of_bind_pure_error y)

end ResponseChange

/-- A change that fails in a session that can be reached leaves it unchanged if the request is refused by the checks,
and has what it asks for standing if it passes them. Configuration, spectra, pairs, users and matrices are as before
exactly if the request was refused, or asks for nothing and nothing was derived anew. -/
theorem failed_change_is_undone_iff {change : ResponseChange α} {fault : Fault α} (hs : Reachable s)
    (h : (run change.operation.perform s).1 = (.error fault, s')) :
    (¬ change.Accepted s → s' = s) ∧ (change.Accepted s → change.Stands s s') ∧
      (SameResponses s s' ↔ ¬ change.Accepted s ∨ change.AsksNothing s ∧ SameDerived s s') := by
  obtain ⟨history, hrun⟩ := hs
  rcases change.settled (balanced_of_run hrun) (.of_run h) with ⟨hrefused, rfl⟩ | ⟨haccepted, hstands, hnothing⟩
  · exact ⟨fun _ => rfl, fun h => absurd h hrefused, fun _ => .inl hrefused, fun _ => Std.Refl.refl _⟩
  refine ⟨fun h => absurd haccepted h, fun _ => hstands, fun hsame => ?_, ?_⟩
  · exact .inr ⟨hstands.asksNothing hsame.asked, hsame.derived⟩
  · rintro (hrefused | ⟨hasks, hderived⟩)
    · exact absurd haccepted hrefused
    · exact ⟨hnothing hasks, hderived⟩

end

/-! ### Ideal matrices that cannot be made -/

namespace Apart

/-- One energy bin far from the bins of the spectrum. -/
def energies : Grid ℚ := ⟨[⟨10, 11⟩]⟩

/-- A matrix for it, with as many channels as the spectrum has bins. -/
def matrix : ResponseMatrix ℚ :=
  .ofRedistribution ⟨.delta, energies, ⟨[⟨10, 11⟩, ⟨11, 12⟩]⟩, [[⟨0, [1]⟩]], .plain, {}⟩

/-- A session without products, in which fits use ideal matrices. -/
def start : Session ℚ := Sample.empty { Config.default with useIdealMatrix := true }

/-- The session with the spectrum, the matrix and an effective area for it. -/
def session : Session ℚ :=
  (start.replay [.addSpectrum TwoBins.spectrum, .takeMatrix matrix, .addArea (.identity energies)]).2

/-- Both are to be assigned to the spectrum. -/
def assignment : ResponseChange ℚ := .assign ⟨0⟩ ⟨⟨1⟩, ⟨1⟩⟩

/-- What the assignment leaves. -/
def left : Session ℚ := (run assignment.operation.perform session).1.2

theorem reachable_session : Reachable session := by
  have hstart : ofConfig start.config = .ok start := rfl
  exact ⟨_, (Run.start hstart).replay _⟩

theorem assignment_fails : ∃ fault, (run assignment.operation.perform session).1 = (.error fault, left) := by
  obtain ⟨fault, hfault⟩ := Except.exists_of_isOk_eq_false (x := (run assignment.operation.perform session).1.1)
    (by decide +kernel)
  exact ⟨fault, Prod.ext hfault rfl⟩

/-- A pair of which one member is missing is to be assigned. -/
def halfPair : ResponseChange ℚ := .assign ⟨0⟩ ⟨⟨7⟩, ⟨1⟩⟩

/-- What that leaves. -/
def untouched : Session ℚ := (run halfPair.operation.perform session).1.2

end Apart

/-- A pair of which one member is missing is refused, and the session is as it was. -/
theorem half_pair_is_refused : ¬ Apart.halfPair.Accepted Apart.session ∧
    SameResponses Apart.session Apart.untouched := by
  obtain ⟨fault, hfault⟩ :=
    Except.exists_of_isOk_eq_false (x := (run Apart.halfPair.operation.perform Apart.session).1.1) (by decide +kernel)
  have hrefused : ¬ Apart.halfPair.Accepted Apart.session := by
    rintro ⟨_, curve, _, -, hcurve, -⟩
    have hnone : Apart.session.areas.slot? ⟨7⟩ = none := by decide +kernel
    cases hnone.symm.trans hcurve
  have hall := failed_change_is_undone_iff Apart.reachable_session (Prod.ext hfault rfl)
  exact ⟨hrefused, hall.2.2.2 (.inl hrefused)⟩

/-- The pair fits the spectrum and is accepted. No ideal matrix can be made for it, so the assignment fails; but the
pair stays assigned, and its members stay in use. -/
theorem failed_assignment_stays :
    Reachable Apart.session ∧
      (∃ fault, (run Apart.assignment.operation.perform Apart.session).1 = (.error fault, Apart.left)) ∧
      (Apart.session.spectra.slot? ⟨0⟩).map (·.value.assigned) = some [] ∧
      (Apart.left.spectra.slot? ⟨0⟩).map (·.value.assigned) = some [⟨⟨1⟩, ⟨1⟩⟩] ∧
      (Apart.session.matrices.slot? ⟨1⟩).map Slot.inUse = some 0 ∧
      (Apart.left.matrices.slot? ⟨1⟩).map Slot.inUse = some 1 ∧
      ¬ SameResponses Apart.session Apart.left := by
  have hbefore : (Apart.session.spectra.slot? ⟨0⟩).map (·.value.assigned) = some [] := by decide +kernel
  have hafter : (Apart.left.spectra.slot? ⟨0⟩).map (·.value.assigned) = some [⟨⟨1⟩, ⟨1⟩⟩] := by decide +kernel
  refine ⟨Apart.reachable_session, Apart.assignment_fails, hbefore, hafter, by decide +kernel, by decide +kernel, ?_⟩
  intro hsame
  rw [hsame.asked.assigned ⟨0⟩, hbefore] at hafter
  cases hafter

end SpectralResponse.Session
