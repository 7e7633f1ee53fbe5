import SpectralResponse.Proofs.Noted
import SpectralResponse.Session.Prediction

/-!
# Outcomes of session operations

A session operation answers or fails, and leaves a session behind in either case. `Yields` says so of
one operation and one session, whatever warnings had been given before. The lemmas take an operation
apart: what a sequence yields comes from what its first part yields (`Yields.of_bind`), and the
primitive operations change one component of the session at most.

`Keeps R` says that an operation relates the session before to the session after by `R`, also when it
fails. For a reflexive and transitive `R` it is enough to know this of the parts (`Keeps.bind`,
`Keeps.forM`, `Keeps.mapM`).
-/

namespace SpectralResponse

variable {α β γ : Type}

namespace Session

/-! ### One operation -/

/-- The operation, started on `s`, may answer `answer` and leave `s'`. -/
def Yields (operation : SessionM α β) (s : Session α) (answer : Except (Fault α) β) (s' : Session α) :
    Prop :=
  ∃ w, (((ExceptT.run operation).run s).run w).1 = (answer, s')

theorem Yields.of_run {operation : SessionM α β} {s s' : Session α} {answer : Except (Fault α) β}
    (h : (run operation s).1 = (answer, s')) : Yields operation s answer s' := ⟨[], h⟩

section

variable {s s' : Session α}

/-- A sequence fails in its first part, or its second part goes on from what the first one left. -/
theorem Yields.of_bind {x : SessionM α β} {f : β → SessionM α γ} {answer : Except (Fault α) γ}
    (h : Yields (x >>= f) s answer s') :
    (∃ fault, Yields x s (.error fault) s' ∧ answer = .error fault) ∨
      ∃ a s₁, Yields x s (.ok a) s₁ ∧ Yields (f a) s₁ answer s' := by
  obtain ⟨w, h⟩ := h
  rcases hx : ((ExceptT.run x).run s).run w with ⟨⟨fault | a, s₁⟩, w₁⟩
  · simp only [ExceptT.run, bind, ExceptT.bind, ExceptT.mk, StateT.run, StateT.bind] at h hx
    simp only [hx, ExceptT.bindCont] at h
    obtain ⟨rfl, rfl⟩ := Prod.mk.inj h
    exact .inl ⟨fault, ⟨w, by simp only [ExceptT.run, StateT.run, hx]⟩, rfl⟩
  · simp only [ExceptT.run, bind, ExceptT.bind, ExceptT.mk, StateT.run, StateT.bind] at h hx
    simp only [hx, ExceptT.bindCont] at h
    exact .inr ⟨a, s₁, ⟨w, by simp only [ExceptT.run, StateT.run, hx]⟩, ⟨w₁, h⟩⟩

/-- A sequence that succeeds succeeds in both parts. -/
theorem Yields.of_bind_ok {x : SessionM α β} {f : β → SessionM α γ} {c : γ}
    (h : Yields (x >>= f) s (.ok c) s') :
    ∃ a s₁, Yields x s (.ok a) s₁ ∧ Yields (f a) s₁ (.ok c) s' := by
  rcases h.of_bind with ⟨fault, -, h⟩ | h
  · cases h
  · exact h

@[simp]
theorem yields_pure {a : β} {answer : Except (Fault α) β} :
    Yields (pure a) s answer s' ↔ answer = .ok a ∧ s' = s :=
  ⟨fun ⟨_, h⟩ => ⟨(Prod.mk.inj h).1.symm, (Prod.mk.inj h).2.symm⟩,
    fun ⟨h₁, h₂⟩ => ⟨[], by rw [h₁, h₂]; rfl⟩⟩

@[simp]
theorem yields_throw {fault : Fault α} {answer : Except (Fault α) β} :
    Yields (throw fault) s answer s' ↔ answer = .error fault ∧ s' = s :=
  ⟨fun ⟨_, h⟩ => ⟨(Prod.mk.inj h).1.symm, (Prod.mk.inj h).2.symm⟩,
    fun ⟨h₁, h₂⟩ => ⟨[], by rw [h₁, h₂]; rfl⟩⟩

@[simp]
theorem yields_get {answer : Except (Fault α) (Session α)} :
    Yields get s answer s' ↔ answer = .ok s ∧ s' = s :=
  ⟨fun ⟨_, h⟩ => ⟨(Prod.mk.inj h).1.symm, (Prod.mk.inj h).2.symm⟩,
    fun ⟨h₁, h₂⟩ => ⟨[], by rw [h₁, h₂]; rfl⟩⟩

@[simp]
theorem yields_modify {f : Session α → Session α} {answer : Except (Fault α) Unit} :
    Yields (modify f) s answer s' ↔ answer = .ok () ∧ s' = f s :=
  ⟨fun ⟨_, h⟩ => ⟨(Prod.mk.inj h).1.symm, (Prod.mk.inj h).2.symm⟩,
    fun ⟨h₁, h₂⟩ => ⟨[], by rw [h₁, h₂]; rfl⟩⟩

@[simp]
theorem yields_lift {x : Except (Fault α) β} {answer : Except (Fault α) β} :
    Yields (liftM x) s answer s' ↔ answer = x ∧ s' = s :=
  ⟨fun ⟨_, h⟩ => ⟨(Prod.mk.inj h).1.symm, (Prod.mk.inj h).2.symm⟩,
    fun ⟨h₁, h₂⟩ => ⟨[], by rw [h₁, h₂]; rfl⟩⟩

@[simp]
theorem yields_lift_slot {x : Except SlotFault β} {answer : Except (Fault α) β} :
    Yields (liftM x) s answer s' ↔ answer = x.mapError Fault.slot ∧ s' = s :=
  ⟨fun ⟨_, h⟩ => ⟨(Prod.mk.inj h).1.symm, (Prod.mk.inj h).2.symm⟩,
    fun ⟨h₁, h₂⟩ => ⟨[], by rw [h₁, h₂]; rfl⟩⟩

/-- What is answered is made of what a first part answers. -/
theorem Yields.of_bind_pure {x : SessionM α β} {f : β → γ} {c : γ}
    (h : Yields (x >>= fun b => pure (f b)) s (.ok c) s') : ∃ b, Yields x s (.ok b) s' ∧ c = f b := by
  obtain ⟨b, s₁, h₁, h₂⟩ := h.of_bind_ok
  obtain ⟨hc, rfl⟩ := yields_pure.1 h₂
  exact ⟨b, h₁, Except.ok.inj hc⟩

/-- What a first part answers is made into the answer, unless it fails. -/
theorem Yields.of_bind_return {x : SessionM α β} {f : β → γ} {answer : Except (Fault α) γ}
    (h : Yields (x >>= fun b => pure (f b)) s answer s') : ∃ first, Yields x s first s' ∧ answer = first.map f := by
  rcases h.of_bind with ⟨fault, y, rfl⟩ | ⟨b, s₁, y, y₁⟩
  · exact ⟨.error fault, y, rfl⟩
  · obtain ⟨rfl, rfl⟩ := yields_pure.1 y₁
    exact ⟨.ok b, y, rfl⟩

theorem Yields.of_get_bind {f : Session α → SessionM α β} {answer : Except (Fault α) β}
    (h : Yields (get >>= f) s answer s') : Yields (f s) s answer s' := by
  rcases h.of_bind with ⟨fault, h, -⟩ | ⟨a, s₁, h, h'⟩
  · cases (yields_get.1 h).1
  · obtain ⟨ha, rfl⟩ := yields_get.1 h
    cases ha
    exact h'

theorem Yields.of_modify_bind {g : Session α → Session α} {f : Unit → SessionM α β}
    {answer : Except (Fault α) β} (h : Yields (modify g >>= f) s answer s') :
    Yields (f ()) (g s) answer s' := by
  rcases h.of_bind with ⟨fault, h, -⟩ | ⟨a, s₁, h, h'⟩
  · cases (yields_modify.1 h).1
  · obtain ⟨-, rfl⟩ := yields_modify.1 h
    exact h'

/-- A check in front of an operation refuses it, or lets it run. -/
theorem Yields.of_lift_bind {x : Except (Fault α) β} {f : β → SessionM α γ}
    {answer : Except (Fault α) γ} (h : Yields (liftM x >>= f) s answer s') :
    (∃ fault, x = .error fault ∧ answer = .error fault ∧ s' = s) ∨
      ∃ a, x = .ok a ∧ Yields (f a) s answer s' := by
  rcases h.of_bind with ⟨fault, y, rfl⟩ | ⟨a, s₁, y, h'⟩
  · obtain ⟨hx, rfl⟩ := yields_lift.1 y
    exact .inl ⟨fault, hx.symm, rfl, rfl⟩
  · obtain ⟨hx, rfl⟩ := yields_lift.1 y
    exact .inr ⟨a, hx.symm, h'⟩

theorem Yields.of_slot_bind {x : Except SlotFault β} {f : β → SessionM α γ}
    {answer : Except (Fault α) γ} (h : Yields (liftM x >>= f) s answer s') :
    (∃ fault, x = .error fault ∧ answer = .error (.slot fault) ∧ s' = s) ∨
      ∃ a, x = .ok a ∧ Yields (f a) s answer s' := by
  rcases h.of_bind with ⟨fault, y, rfl⟩ | ⟨a, s₁, y, h'⟩
  · obtain ⟨hx, rfl⟩ := yields_lift_slot.1 y
    cases x with
    | error fault' => cases hx; exact .inl ⟨fault', rfl, rfl, rfl⟩
    | ok a => cases hx
  · obtain ⟨hx, rfl⟩ := yields_lift_slot.1 y
    cases x with
    | error fault' => cases hx
    | ok a' => cases hx; exact .inr ⟨a, rfl, h'⟩

theorem Yields.of_slot_error_bind {x : Except SlotFault β} {f : β → SessionM α γ} {fault : SlotFault}
    {answer : Except (Fault α) γ} (h : Yields (liftM x >>= f) s answer s') (hx : x = .error fault) :
    answer = .error (.slot fault) ∧ s' = s := by
  rcases h.of_slot_bind with ⟨fault', hfault, rfl, rfl⟩ | ⟨_, hok, -⟩
  · cases hx.symm.trans hfault
    exact ⟨rfl, rfl⟩
  · cases hx.symm.trans hok

theorem Yields.of_noted {x : Noted α β} {answer : Except (Fault α) β}
    (h : Yields (noted x) s answer s') : s' = s ∧ x.Answers answer := by
  obtain ⟨w, h⟩ := h
  obtain ⟨h₁, h₂⟩ := Prod.mk.inj h
  exact ⟨h₂.symm, w, h₁⟩

/-! ### Reading -/

theorem Yields.of_area {id : AreaId} {answer : Except (Fault α) (EffectiveArea α)}
    (h : Yields (area id) s answer s') : answer = (s.areas.get id).mapError Fault.slot ∧ s' = s :=
  yields_lift_slot.1 h.of_get_bind

theorem Yields.of_matrix {id : MatrixId} {answer : Except (Fault α) (ResponseMatrix α)}
    (h : Yields (matrix id) s answer s') : answer = (s.matrices.get id).mapError Fault.slot ∧ s' = s :=
  yields_lift_slot.1 h.of_get_bind

theorem Yields.of_record {id : SpectrumId} {answer : Except (Fault α) (SpectrumRecord α)}
    (h : Yields (record id) s answer s') : answer = (s.spectra.get id).mapError Fault.slot ∧ s' = s :=
  yields_lift_slot.1 h.of_get_bind

end

/-- What holds at the start and is kept by each successful step holds when all have succeeded. -/
theorem Yields.forM_ok {P : Session α → Prop} {xs : List β} {f : β → SessionM α PUnit}
    (hstep : ∀ x ∈ xs, ∀ s s', P s → Yields (f x) s (.ok ⟨⟩) s' → P s') {s s' : Session α} (hs : P s)
    (y : Yields (xs.forM f) s (.ok ⟨⟩) s') : P s' := by
  induction xs generalizing s with
  | nil =>
    obtain ⟨-, rfl⟩ := yields_pure.1 y
    exact hs
  | cons x xs ih =>
    obtain ⟨_, s₁, y₁, y₂⟩ := Yields.of_bind_ok y
    exact ih (fun x' hx' => hstep x' (List.mem_cons_of_mem _ hx')) (hstep x List.mem_cons_self _ _ hs y₁) y₂

theorem Yields.of_forM_append {xs ys : List β} {f : β → SessionM α PUnit} {s s' : Session α}
    (y : Yields ((xs ++ ys).forM f) s (.ok ⟨⟩) s') :
    ∃ s₁, Yields (xs.forM f) s (.ok ⟨⟩) s₁ ∧ Yields (ys.forM f) s₁ (.ok ⟨⟩) s' := by
  rw [List.forM_eq_forM, List.forM_append] at y
  obtain ⟨⟨⟩, s₁, y₁, y₂⟩ := y.of_bind_ok
  exact ⟨s₁, y₁, y₂⟩

/-- Operations that leave the session alone are all carried out in the same one. -/
theorem Yields.of_mapM_reading {P : β → γ → Prop} {xs : List β} {f : β → SessionM α γ} {s s' : Session α}
    {cs : List γ} (hread : ∀ x ∈ xs, ∀ c s', Yields (f x) s (.ok c) s' → s' = s ∧ P x c)
    (y : Yields (xs.mapM f) s (.ok cs) s') : s' = s ∧ List.Forall₂ P xs cs := by
  induction xs generalizing cs with
  | nil =>
    obtain ⟨h, rfl⟩ := yields_pure.1 y
    cases h
    exact ⟨rfl, .nil⟩
  | cons x xs ih =>
    rw [List.mapM_cons] at y
    obtain ⟨c, s₁, y₁, y₂⟩ := y.of_bind_ok
    obtain ⟨rfl, hc⟩ := hread x List.mem_cons_self c s₁ y₁
    obtain ⟨cs, z, rfl⟩ := y₂.of_bind_pure
    obtain ⟨rfl, hcs⟩ := ih (fun x' hx' => hread x' (List.mem_cons_of_mem _ hx')) z
    exact ⟨rfl, .cons hc hcs⟩

/-! ### What an operation keeps -/

/-- Whatever the operation answers, the sessions before and after it are related by `R`. -/
def Keeps (R : Session α → Session α → Prop) (operation : SessionM α β) : Prop :=
  ∀ s answer s', Yields operation s answer s' → R s s'

/-- What holds before holds after. -/
def Preserving (P : Session α → Prop) (s s' : Session α) : Prop := P s → P s'

instance {P : Session α → Prop} : Std.Refl (Preserving P) := ⟨fun _ h => h⟩

instance {P : Session α → Prop} : IsTrans (Session α) (Preserving P) := ⟨fun _ _ _ h h' hs => h' (h hs)⟩

namespace Keeps

variable {R R' : Session α → Session α → Prop}

theorem mono {operation : SessionM α β} (h : Keeps R operation) (hR : ∀ s s', R s s' → R' s s') :
    Keeps R' operation := fun s answer s' y => hR s s' (h s answer s' y)

section

variable [Std.Refl R]

theorem pure (a : β) : Keeps R (pure a) := fun _ _ _ y => by
  rw [(yields_pure.1 y).2]
  exact Std.Refl.refl _

theorem throw (fault : Fault α) : Keeps R (throw fault : SessionM α β) := fun _ _ _ y => by
  rw [(yields_throw.1 y).2]
  exact Std.Refl.refl _

theorem get : Keeps R (get : SessionM α (Session α)) := fun _ _ _ y => by
  rw [(yields_get.1 y).2]
  exact Std.Refl.refl _

theorem lift (x : Except (Fault α) β) : Keeps R (liftM x) := fun _ _ _ y => by
  rw [(yields_lift.1 y).2]
  exact Std.Refl.refl _

theorem lift_slot (x : Except SlotFault β) : Keeps R (liftM x) := fun _ _ _ y => by
  rw [(yields_lift_slot.1 y).2]
  exact Std.Refl.refl _

theorem noted (x : Noted α β) : Keeps R (noted x) := fun _ _ _ y => by
  rw [y.of_noted.1]
  exact Std.Refl.refl _

theorem area (id : AreaId) : Keeps R (area id) := fun _ _ _ y => by
  rw [y.of_area.2]
  exact Std.Refl.refl _

theorem matrix (id : MatrixId) : Keeps R (matrix id) := fun _ _ _ y => by
  rw [y.of_matrix.2]
  exact Std.Refl.refl _

theorem record (id : SpectrumId) : Keeps R (record id) := fun _ _ _ y => by
  rw [y.of_record.2]
  exact Std.Refl.refl _

/-- What follows a check is carried out only if the check has gone through. -/
theorem lift_bind {x : Except (Fault α) β} {f : β → SessionM α γ} (h : ∀ b, x = .ok b → Keeps R (f b)) :
    Keeps R (liftM x >>= f) := by
  intro s answer s' y
  rcases y.of_lift_bind with ⟨_, -, -, rfl⟩ | ⟨b, hb, y₁⟩
  · exact Std.Refl.refl _
  · exact h b hb _ _ _ y₁

theorem noted_bind {x : Noted α β} {f : β → SessionM α γ} (h : ∀ b, x.Answers (.ok b) → Keeps R (f b)) :
    Keeps R (Session.noted x >>= f) := by
  intro s answer s' y
  rcases y.of_bind with ⟨_, y₁, -⟩ | ⟨b, s₁, y₁, y₂⟩
  · rw [y₁.of_noted.1]
    exact Std.Refl.refl _
  · obtain ⟨rfl, hb⟩ := y₁.of_noted
    exact h b hb _ _ _ y₂

end

theorem modify {g : Session α → Session α} (h : ∀ s, R s (g s)) : Keeps R (modify g) := fun s _ _ y => by
  rw [(yields_modify.1 y).2]
  exact h s

section

variable [IsTrans (Session α) R]

theorem bind {x : SessionM α β} {f : β → SessionM α γ} (hx : Keeps R x) (hf : ∀ a, Keeps R (f a)) :
    Keeps R (x >>= f) := fun s answer s' y => by
  rcases y.of_bind with ⟨fault, y, -⟩ | ⟨a, s₁, y, y'⟩
  · exact hx _ _ _ y
  · exact IsTrans.trans _ _ _ (hx _ _ _ y) (hf a _ _ _ y')

variable [Std.Refl R]

theorem forM {xs : List β} {f : β → SessionM α PUnit} (hf : ∀ a ∈ xs, Keeps R (f a)) :
    Keeps R (xs.forM f) := by
  induction xs with
  | nil => exact pure _
  | cons x xs ih =>
    exact bind (hf x List.mem_cons_self) fun _ => ih fun a ha => hf a (List.mem_cons_of_mem _ ha)

theorem mapM {xs : List β} {f : β → SessionM α γ} (hf : ∀ a ∈ xs, Keeps R (f a)) :
    Keeps R (xs.mapM f) := by
  induction xs with
  | nil => exact pure _
  | cons x xs ih =>
    rw [List.mapM_cons]
    exact bind (hf x List.mem_cons_self) fun _ =>
      bind (ih fun a ha => hf a (List.mem_cons_of_mem _ ha)) fun _ => pure _

theorem foldlM {xs : List β} {f : γ → β → SessionM α γ} (hf : ∀ c, ∀ a ∈ xs, Keeps R (f c a)) (init : γ) :
    Keeps R (xs.foldlM f init) := by
  induction xs generalizing init with
  | nil => exact pure _
  | cons x xs ih =>
    rw [List.foldlM_cons]
    exact bind (hf init x List.mem_cons_self) fun c =>
      ih (fun c a ha => hf c a (List.mem_cons_of_mem _ ha)) c

end

end Keeps

end Session

end SpectralResponse
