import SpectralResponse.InPlace

/-!
# Carrying out changes in place

How a change in place goes on after each of its steps. The lemmas take a change apart step by step and tell at each
of them which value it goes on from, also after a fault.
-/

namespace SpectralResponse.InPlace

variable {ε σ β γ : Type}

/-- What comes after a change that succeeds goes on from what it leaves. -/
theorem perform_bind (edit : InPlace ε σ β) (f : β → InPlace ε σ γ) (s : σ) :
    (edit >>= f).perform s =
      match edit.perform s with
      | (.ok b, next) => (f b).perform next
      | (.error fault, next) => (.error fault, next) := by
  simp only [perform, bind, ExceptT.bind, ExceptT.mk, ExceptT.run, StateT.run, StateT.bind]
  rcases edit s with ⟨_ | _, _⟩ <;> rfl

/-- What is done about a fault goes on from what the change left. -/
theorem perform_tryCatch (edit : InPlace ε σ β) (f : ε → InPlace ε σ β) (s : σ) :
    (tryCatch edit f).perform s =
      match edit.perform s with
      | (.ok b, next) => (.ok b, next)
      | (.error fault, next) => (f fault).perform next := by
  simp only [perform, tryCatch, tryCatchThe, MonadExceptOf.tryCatch, ExceptT.tryCatch, bind, ExceptT.mk,
    ExceptT.run, StateT.run, StateT.bind]
  rcases edit s with ⟨_ | _, _⟩ <;> rfl

theorem perform_get_bind (f : σ → InPlace ε σ γ) (s : σ) : (get >>= f).perform s = (f s).perform s := rfl

theorem perform_modify_bind (change : σ → σ) (f : PUnit → InPlace ε σ γ) (s : σ) :
    (modify change >>= f).perform s = (f ⟨⟩).perform (change s) := rfl

/-- A check that fails leaves the value as it is. -/
theorem perform_lift_bind (x : Except ε β) (f : β → InPlace ε σ γ) (s : σ) :
    ((liftM x : InPlace ε σ β) >>= f).perform s =
      match x with
      | .ok b => (f b).perform s
      | .error fault => (.error fault, s) := by
  cases x <;> rfl

end SpectralResponse.InPlace
