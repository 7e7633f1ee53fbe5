import SpectralResponse.Proofs.Arena
import SpectralResponse.Proofs.Session.Outcome

/-!
# Reading a session

Some operations only look at what a session holds. They leave it as it is, give no warning, and answer the same
wherever models are evaluated. What such an operation answers is made of the answers of its parts, as if each of
them were a function of the session.

## What is proved

* `Reads` — the judgment, with a lemma for each way to put operations together.
* `Reads.answerTo_bind`, `answerTo_bind_reads` — the answer of a sequence.
* `reads_noticedModelBins`, `reads_spectrumCounts`, `reads_fluxCorrect` — operations that only look.
-/

namespace SpectralResponse.Session

variable {α β γ : Type}

/-- What an operation answers in a session. -/
def answerTo (operation : SessionM α β) (s : Session α) : Except (Fault α) β := (run operation s).1.1

/-- The operation only looks at the products and spectra of a session. -/
structure Reads (operation : SessionM α β) : Prop where
  /-- It leaves the session alone and gives no warning. -/
  leaves : ∀ s w, ((ExceptT.run operation).run s).run w = ((answerTo operation s, s), w)
  /-- It answers the same wherever models are evaluated. -/
  elsewhere : ∀ s strategy cache, answerTo operation { s with strategy, cache } = answerTo operation s

namespace Reads

variable {x : SessionM α β} {f : β → SessionM α γ}

/-- What follows goes on from the same session. -/
theorem run_bind (hx : Reads x) (f : β → SessionM α γ) (s : Session α) (w : List (Warning α)) :
    ((ExceptT.run (x >>= f)).run s).run w =
      match answerTo x s with
      | .ok b => ((ExceptT.run (f b)).run s).run w
      | .error fault => ((.error fault, s), w) := by
  have h := hx.leaves s w
  simp only [ExceptT.run, bind, ExceptT.bind, ExceptT.mk, StateT.run, StateT.bind] at h ⊢
  simp only [h]
  cases answerTo x s <;> rfl

theorem answerTo_bind (hx : Reads x) (f : β → SessionM α γ) (s : Session α) :
    answerTo (x >>= f) s = answerTo x s >>= fun b => answerTo (f b) s := by
  rw [answerTo, run, hx.run_bind]
  cases answerTo x s <;> rfl

theorem pure (b : β) : Reads (pure b : SessionM α β) := ⟨fun _ _ => rfl, fun _ _ _ => rfl⟩

theorem throw (fault : Fault α) : Reads (throw fault : SessionM α β) := ⟨fun _ _ => rfl, fun _ _ _ => rfl⟩

theorem lift (x : Except (Fault α) β) : Reads (liftM x : SessionM α β) := ⟨fun _ _ => rfl, fun _ _ _ => rfl⟩

theorem area (id : AreaId) : Reads (area (α := α) id) := ⟨fun _ _ => rfl, fun _ _ _ => rfl⟩

theorem matrix (id : MatrixId) : Reads (matrix (α := α) id) := ⟨fun _ _ => rfl, fun _ _ _ => rfl⟩

theorem record (id : SpectrumId) : Reads (record (α := α) id) := ⟨fun _ _ => rfl, fun _ _ _ => rfl⟩

theorem bind (hx : Reads x) (hf : ∀ b, Reads (f b)) : Reads (x >>= f) where
  leaves s w := by
    rw [hx.run_bind, hx.answerTo_bind]
    cases answerTo x s with
    | error fault => rfl
    | ok b => exact (hf b).leaves s w
  elsewhere s strategy cache := by
    rw [hx.answerTo_bind, hx.answerTo_bind, hx.elsewhere]
    exact congrArg _ (funext fun b => (hf b).elsewhere s strategy cache)

theorem mapM {f : β → SessionM α γ} (hf : ∀ b, Reads (f b)) (xs : List β) : Reads (xs.mapM f) := by
  induction xs with
  | nil => exact pure _
  | cons x xs ih =>
    rw [List.mapM_cons]
    exact bind (hf x) fun _ => bind ih fun _ => pure _

theorem foldlM {f : γ → β → SessionM α γ} (hf : ∀ c b, Reads (f c b)) (init : γ) (xs : List β) :
    Reads (xs.foldlM f init) := by
  induction xs generalizing init with
  | nil => exact pure _
  | cons x xs ih =>
    rw [List.foldlM_cons]
    exact bind (hf init x) fun _ => ih _

/-- Elements are looked up one by one. -/
theorem answerTo_mapM {f : β → SessionM α γ} (hf : ∀ b, Reads (f b)) (xs : List β) (s : Session α) :
    answerTo (xs.mapM f) s = xs.mapM fun b => answerTo (f b) s := by
  induction xs with
  | nil => rfl
  | cons x xs ih =>
    rw [List.mapM_cons, List.mapM_cons, (hf x).answerTo_bind]
    refine congrArg _ (funext fun c => ?_)
    rw [(mapM hf xs).answerTo_bind, ih]
    rfl

/-- Elements are added up one by one. -/
theorem answerTo_foldlM {f : γ → β → SessionM α γ} (hf : ∀ c b, Reads (f c b)) (init : γ) (xs : List β)
    (s : Session α) : answerTo (xs.foldlM f init) s = xs.foldlM (fun c b => answerTo (f c b) s) init := by
  induction xs generalizing init with
  | nil => rfl
  | cons x xs ih =>
    rw [List.foldlM_cons, List.foldlM_cons, (hf init x).answerTo_bind]
    exact congrArg _ (funext fun c => ih c)

theorem of_yields {s s' : Session α} {answer : Except (Fault α) β} (hx : Reads x) (y : Yields x s answer s') :
    answer = answerTo x s ∧ s' = s := by
  obtain ⟨w, y⟩ := y
  rw [hx.leaves] at y
  exact ⟨(Prod.mk.inj y).1.symm, (Prod.mk.inj y).2.symm⟩

/-- An operation that only looks keeps all that can be kept. -/
theorem keeps {R : Session α → Session α → Prop} [Std.Refl R] (hx : Reads x) : Keeps R x := fun s _ s' y => by
  rw [(hx.of_yields y).2]
  exact Std.Refl.refl s

end Reads

/-- What follows an operation that changes the shared grid at most answers as if nothing had been changed. -/
theorem answerTo_bind_reads {x : SessionM α β} {f : β → SessionM α γ} {s : Session α}
    (hx : ∀ answer s', Yields x s answer s' → ∃ cache, s' = { s with cache }) (hf : ∀ b, Reads (f b)) :
    answerTo (x >>= f) s = answerTo x s >>= fun b => answerTo (f b) s := by
  obtain ⟨cache, hcache⟩ := hx _ _ (.of_run rfl)
  rcases hrun : ((ExceptT.run x).run s).run [] with ⟨⟨fault | b, s'⟩, w⟩
  · have hanswer : answerTo x s = .error fault := by rw [answerTo, run, hrun]
    rw [hanswer, answerTo, run]
    simp only [ExceptT.run, bind, ExceptT.bind, ExceptT.mk, StateT.run, StateT.bind] at hrun ⊢
    simp only [hrun]
    rfl
  · have hanswer : answerTo x s = .ok b := by rw [answerTo, run, hrun]
    have hleft : s' = { s with cache } := by rwa [run, hrun] at hcache
    have hnext := (hf b).leaves s' w
    rw [hleft, (hf b).elsewhere s s.strategy cache] at hnext
    rw [hanswer, answerTo, run]
    simp only [ExceptT.run, bind, ExceptT.bind, ExceptT.mk, StateT.run, StateT.bind] at hrun hnext ⊢
    simp only [hrun, hleft, ExceptT.bindCont, hnext]
    rfl

/-! ### Operations that only look -/

theorem answerTo_area {id : AreaId} {s : Session α} {curve : EffectiveArea α} :
    answerTo (area id) s = .ok curve ↔ ∃ slot, s.areas.slot? id = some slot ∧ slot.value = curve :=
  Except.mapError_eq_ok.trans Arena.get_eq_ok_iff

theorem answerTo_record {id : SpectrumId} {s : Session α} {r : SpectrumRecord α} :
    answerTo (record id) s = .ok r ↔ ∃ slot, s.spectra.slot? id = some slot ∧ slot.value = r :=
  Except.mapError_eq_ok.trans Arena.get_eq_ok_iff

theorem reads_spectrum (id : SpectrumId) : Reads (spectrum (α := α) id) := .bind (.record id) fun _ => .pure _

theorem reads_members (ids : List SpectrumId) : Reads (members (α := α) ids) :=
  .bind (.mapM (fun _ => .bind (.record _) fun _ => .pure _) _) fun _ => .pure _

theorem reads_grids (areaIds : List AreaId) :
    Reads (areaIds.mapM fun id => do return (← area (α := α) id).grid) :=
  .mapM (fun _ => .bind (.area _) fun _ => .pure _) _

variable [Scalar α]

theorem reads_noticedModelBins (id : SpectrumId) : Reads (noticedModelBins (α := α) id) :=
  .bind (.record id) fun _ => .mapM (fun _ => .bind (.matrix _) fun _ => .lift _) _

theorem reads_pairCounts (fluxes : List (AreaId × List α)) (spectrum : Spectrum α) (pair : ResponsePair) :
    Reads (pairCounts fluxes spectrum pair) :=
  .bind (.area _) fun _ => .bind (.matrix _) fun _ => .bind (.lift _) fun _ => .bind (.lift _) fun _ => .lift _

theorem reads_spectrumCounts (fluxes : List (AreaId × List α)) (id : SpectrumId) :
    Reads (spectrumCounts fluxes id) :=
  .bind (.record id) fun _ => .foldlM (fun _ _ => .bind (reads_pairCounts _ _ _) fun _ => .pure _) _ _

theorem reads_fluxCorrect (id : SpectrumId) : Reads (fluxCorrect (α := α) id) := by
  refine .bind (.record id) fun _ => .bind (.foldlM (fun _ _ => .bind (.area _) fun _ =>
    .bind (.matrix _) fun _ => .bind (.lift _) fun _ => .bind (.lift _) fun _ => .pure _) _ _) fun total? => ?_
  cases total? with
  | none => exact .throw _
  | some weights => exact .lift _

end SpectralResponse.Session
