import SpectralResponse.Proofs.Except
import SpectralResponse.Warning

/-!
# Operations that may warn

What an operation in `Noted` answers does not depend on the warnings given before, but that is a fact
about each operation. `Noted.Answers` says that an operation may give an answer, whatever the warnings
were; the lemmas take a successful operation apart without looking at warnings at all.
-/

namespace SpectralResponse.Noted

variable {α β γ : Type}

/-- An operation followed by another one goes on with the warnings given so far. -/
theorem run_bind (x : Noted α β) (f : β → Noted α γ) (w : List (Warning α)) :
    (x >>= f).run.run w =
      match x.run.run w with
      | (.ok b, w') => (f b).run.run w'
      | (.error fault, w') => (.error fault, w') := by
  simp only [ExceptT.run, bind, ExceptT.bind, ExceptT.mk, StateT.run, StateT.bind]
  rcases x w with ⟨_ | _, _⟩ <;> rfl

/-- An operation may answer so, whatever warnings there were. -/
def Answers (action : Noted α β) (answer : Except (Fault α) β) : Prop :=
  ∃ w, (action.run.run w).1 = answer

theorem Answers.of_outcome {action : Noted α β} {answer : Except (Fault α) β}
    (h : action.outcome.1 = answer) : action.Answers answer := ⟨[], h⟩

@[simp]
theorem answers_pure {b : β} {answer : Except (Fault α) β} :
    (pure b : Noted α β).Answers answer ↔ answer = .ok b :=
  ⟨fun ⟨_, h⟩ => h.symm, fun h => ⟨[], h.symm⟩⟩

@[simp]
theorem answers_throw {fault : Fault α} {answer : Except (Fault α) β} :
    (throw fault : Noted α β).Answers answer ↔ answer = .error fault :=
  ⟨fun ⟨_, h⟩ => h.symm, fun h => ⟨[], h.symm⟩⟩

@[simp]
theorem answers_lift {x answer : Except (Fault α) β} : (liftM x : Noted α β).Answers answer ↔ answer = x :=
  ⟨fun ⟨_, h⟩ => h.symm, fun h => ⟨[], h.symm⟩⟩

/-- A sequence that succeeds succeeds in both parts. -/
theorem Answers.of_bind {x : Noted α β} {f : β → Noted α γ} {c : γ} (h : (x >>= f).Answers (.ok c)) :
    ∃ b, x.Answers (.ok b) ∧ (f b).Answers (.ok c) := by
  obtain ⟨w, h⟩ := h
  rw [run_bind] at h
  rcases hx : x.run.run w with ⟨fault | b, w₁⟩
  · rw [hx] at h
    cases h
  · rw [hx] at h
    exact ⟨b, ⟨w, by rw [hx]⟩, w₁, h⟩

/-- A check in front of an operation that succeeds has let it run. -/
theorem Answers.of_lift_bind {x : Except (Fault α) β} {f : β → Noted α γ} {c : γ}
    (h : (liftM x >>= f).Answers (.ok c)) : ∃ b, x = .ok b ∧ (f b).Answers (.ok c) := by
  obtain ⟨b, hx, h⟩ := h.of_bind
  exact ⟨b, (answers_lift.1 hx).symm, h⟩

/-- What is lifted without a fault hands on its value. -/
theorem Answers.of_lift_ok_bind {b : β} {f : β → Noted α γ} {answer : Except (Fault α) γ}
    (h : (liftM (Except.ok b : Except (Fault α) β) >>= f).Answers answer) : (f b).Answers answer := h

/-- A step that refuses what satisfies a condition has let the rest through. -/
theorem Answers.of_guard {c : Prop} [Decidable c] {fault : Fault α} {f : β → Noted α γ} {x : Noted α γ}
    {b : γ} (h : (if c then throw fault >>= f else x).Answers (.ok b)) : x.Answers (.ok b) := by
  split at h
  · obtain ⟨_, hb, -⟩ := h.of_bind
    cases answers_throw.1 hb
  · exact h

/-- If such a step has succeeded, the condition does not hold. -/
theorem Answers.not_of_guard {c : Prop} [Decidable c] {fault : Fault α} {f : β → Noted α γ} {x : Noted α γ}
    {b : γ} (h : (if c then throw fault >>= f else x).Answers (.ok b)) : ¬ c := by
  intro hc
  rw [if_pos hc] at h
  obtain ⟨_, hb, -⟩ := h.of_bind
  cases answers_throw.1 hb

/-- A step that refuses what satisfies a condition and then gives a value fails for no other reason. -/
theorem Answers.error_iff_of_guard {c : Prop} [Decidable c] {fault : Fault α} {f : β → Noted α γ} {value : γ}
    {answer : Except (Fault α) γ} (h : (if c then throw fault >>= f else pure value).Answers answer) :
    (∃ fault, answer = .error fault) ↔ c := by
  split at h
  · rename_i hc
    obtain ⟨w, hfault⟩ := h
    exact iff_of_true ⟨_, hfault.symm⟩ hc
  · rename_i hc
    rw [answers_pure] at h
    refine iff_of_false ?_ hc
    rintro ⟨fault, hfault⟩
    cases h.symm.trans hfault

/-- A warning changes nothing in what comes after it. -/
theorem Answers.of_warnIf_bind {reason : Bool} {warning : Warning α} {f : PUnit → Noted α γ}
    {answer : Except (Fault α) γ} (h : (warnIf reason warning >>= f).Answers answer) : (f ⟨⟩).Answers answer := by
  obtain ⟨w, h⟩ := h
  rw [run_bind] at h
  cases reason with
  | false => exact ⟨w, h⟩
  | true => exact ⟨w ++ [warning], h⟩

/-- What is ascribed to a document succeeds if it does by itself. -/
theorem Answers.of_inDocument {origin : String} {x : Noted α β} {b : β}
    (h : (inDocument origin x).Answers (.ok b)) : x.Answers (.ok b) := by
  obtain ⟨w, h⟩ := h
  refine ⟨w, ?_⟩
  rcases hx : (ExceptT.run x).run w with ⟨fault | b', w₁⟩
  · simp only [inDocument, ExceptT.run, ExceptT.mk, bind, StateT.run, StateT.bind] at h hx
    simp only [hx] at h
    cases h
  · simp only [inDocument, ExceptT.run, ExceptT.mk, bind, StateT.run, StateT.bind] at h hx
    simp only [hx] at h
    exact h

/-- A list is worked off element by element. -/
theorem Answers.of_mapM {f : β → Noted α γ} {xs : List β} {ys : List γ}
    (h : (xs.mapM f).Answers (.ok ys)) : List.Forall₂ (fun x y => (f x).Answers (.ok y)) xs ys := by
  induction xs generalizing ys with
  | nil =>
    cases Except.ok.inj (answers_pure.1 h)
    exact .nil
  | cons x xs ih =>
    rw [List.mapM_cons] at h
    obtain ⟨y, hy, h⟩ := h.of_bind
    obtain ⟨zs, hzs, h⟩ := h.of_bind
    cases Except.ok.inj (answers_pure.1 h)
    exact .cons hy (ih hzs)

end SpectralResponse.Noted
