import SpectralResponse.Fault.Basic
import Mathlib.Data.List.Forall2
import Mathlib.Tactic.Common

/-!
# Computations that may fail

When a computation in `Except` succeeds, said of its parts; of computations in `Option`, what a list
takes.
-/

namespace SpectralResponse

namespace Except

variable {ε ε' β γ : Type}

theorem bind_eq_ok {x : Except ε β} {f : β → Except ε γ} {c : γ} :
    (x >>= f) = .ok c ↔ ∃ b, x = .ok b ∧ f b = .ok c := by
  cases x <;> simp [bind, Except.bind]

theorem mapError_eq_ok {f : ε → ε'} {x : Except ε β} {b : β} : x.mapError f = .ok b ↔ x = .ok b := by
  cases x <;> simp [Except.mapError]

theorem map_eq_ok {f : β → γ} {x : Except ε β} {c : γ} : x.map f = .ok c ↔ ∃ b, x = .ok b ∧ f b = c := by
  cases x <;> simp [Except.map]

theorem toOption_eq_some {x : Except ε β} {b : β} : x.toOption = some b ↔ x = .ok b := by
  cases x <;> simp [Except.toOption]

theorem exists_of_isOk {x : Except ε β} (h : x.isOk = true) : ∃ b, x = .ok b := by
  cases x with
  | error fault => cases h
  | ok b => exact ⟨b, rfl⟩

theorem exists_of_isOk_eq_false {x : Except ε β} (h : x.isOk = false) : ∃ fault, x = .error fault := by
  cases x with
  | error fault => exact ⟨fault, rfl⟩
  | ok b => cases h

theorem throw_ne_ok {fault : ε} {b : β} : (throw fault : Except ε β) ≠ .ok b := fun h => by cases h

/-- A list is computed element by element. -/
theorem mapM_eq_ok {f : β → Except ε γ} {xs : List β} {ys : List γ} :
    xs.mapM f = .ok ys ↔ List.Forall₂ (fun x y => f x = .ok y) xs ys := by
  induction xs generalizing ys with
  | nil =>
    rw [List.mapM_nil, List.forall₂_nil_left_iff]
    exact ⟨fun h => (Except.ok.inj h).symm, fun h => by rw [h]; rfl⟩
  | cons x xs ih =>
    rw [List.mapM_cons, bind_eq_ok, List.forall₂_cons_left_iff]
    constructor
    · rintro ⟨y, hy, h⟩
      obtain ⟨zs, hzs, h⟩ := bind_eq_ok.1 h
      exact ⟨y, zs, hy, ih.1 hzs, (Except.ok.inj h).symm⟩
    · rintro ⟨y, zs, hy, hzs, rfl⟩
      exact ⟨y, hy, bind_eq_ok.2 ⟨zs, ih.2 hzs, rfl⟩⟩

/-- If every element has its result, the list of them comes out. -/
theorem mapM_eq_ok_map {f : β → Except ε γ} {g : β → γ} {xs : List β} (h : ∀ x ∈ xs, f x = .ok (g x)) :
    xs.mapM f = .ok (xs.map g) := by
  rw [mapM_eq_ok, List.forall₂_map_right_iff, List.forall₂_same]
  exact h

/-- What follows an answer matters for that answer only. -/
theorem bind_congr {x : Except ε β} {f g : β → Except ε γ} (h : ∀ b, x = .ok b → f b = g b) : x >>= f = x >>= g := by
  cases x with
  | error fault => rfl
  | ok b => exact h b rfl

/-- What is done with a list matters for its elements only. -/
theorem mapM_congr {f g : β → Except ε γ} {xs : List β} (h : ∀ x ∈ xs, f x = g x) : xs.mapM f = xs.mapM g := by
  induction xs with
  | nil => rfl
  | cons x xs ih =>
    obtain ⟨hx, hxs⟩ := List.forall_mem_cons.1 h
    rw [List.mapM_cons, List.mapM_cons, hx, ih hxs]

theorem foldlM_congr {f g : γ → β → Except ε γ} {xs : List β} (h : ∀ x ∈ xs, ∀ c, f c x = g c x) (init : γ) :
    xs.foldlM f init = xs.foldlM g init := by
  induction xs generalizing init with
  | nil => rfl
  | cons x xs ih =>
    obtain ⟨hx, hxs⟩ := List.forall_mem_cons.1 h
    rw [List.foldlM_cons, List.foldlM_cons, hx]
    exact congrArg _ (funext fun c => ih hxs c)

/-- If every result is known, the list of them is. -/
theorem eq_map_of_mapM {f : β → Except ε γ} {g : β → γ} {xs : List β} {ys : List γ}
    (h : ∀ x y, f x = .ok y → y = g x) (hys : xs.mapM f = .ok ys) : ys = xs.map g := by
  induction mapM_eq_ok.1 hys with
  | nil => rfl
  | cons hxy hrest ih => rw [List.map_cons, h _ _ hxy, ih (mapM_eq_ok.2 hrest)]

/-- What is computed stands where the element stands that it is computed from. -/
theorem getElem?_of_forall₂ {R : β → γ → Prop} {xs : List β} {ys : List γ} (h : List.Forall₂ R xs ys)
    {i : Nat} {x : β} (hx : xs[i]? = some x) : ∃ y, ys[i]? = some y ∧ R x y := by
  induction h generalizing i with
  | nil => cases hx
  | cons hxy _ ih =>
    cases i with
    | zero =>
      cases hx
      exact ⟨_, rfl, hxy⟩
    | succ i => exact ih hx

/-- When each element is related to something, the list is related to a list. -/
theorem exists_forall₂ {R : β → γ → Prop} {xs : List β} (h : ∀ x ∈ xs, ∃ y, R x y) :
    ∃ ys, List.Forall₂ R xs ys := by
  induction xs with
  | nil => exact ⟨[], .nil⟩
  | cons x xs ih =>
    obtain ⟨⟨y, hy⟩, hxs⟩ := List.forall_mem_cons.1 h
    obtain ⟨ys, hys⟩ := ih hxs
    exact ⟨y :: ys, .cons hy hys⟩

/-- What is computed comes from an element of the list. -/
theorem exists_of_mem_forall₂ {R : β → γ → Prop} {xs : List β} {ys : List γ} (h : List.Forall₂ R xs ys)
    {y : γ} (hy : y ∈ ys) : ∃ x ∈ xs, R x y := by
  induction h with
  | nil => cases hy
  | cons hxy _ ih =>
    rcases List.mem_cons.1 hy with rfl | hy
    · exact ⟨_, List.mem_cons_self, hxy⟩
    · obtain ⟨x, hx, hxy⟩ := ih hy
      exact ⟨x, List.mem_cons_of_mem _ hx, hxy⟩

/-- What is related to the elements of a list and made of something else is a list made of those. -/
theorem exists_map_of_forall₂ {δ : Type} {R : β → γ → Prop} {Q : β → δ → Prop} {P : δ → Prop} {f : δ → γ}
    {xs : List β} {ys : List γ} (h : List.Forall₂ R xs ys)
    (hmade : ∀ x ∈ xs, ∀ y, R x y → ∃ z, Q x z ∧ P z ∧ y = f z) :
    ∃ zs, List.Forall₂ Q xs zs ∧ (∀ z ∈ zs, P z) ∧ ys = zs.map f := by
  induction h with
  | nil => exact ⟨[], .nil, fun _ hz => absurd hz List.not_mem_nil, rfl⟩
  | cons hxy _ ih =>
    obtain ⟨z, hz, hP, rfl⟩ := hmade _ List.mem_cons_self _ hxy
    obtain ⟨zs, hzs, hall, rfl⟩ := ih fun x hx => hmade x (List.mem_cons_of_mem _ hx)
    exact ⟨z :: zs, .cons hz hzs, List.forall_mem_cons.2 ⟨hP, hall⟩, rfl⟩

/-- A step that refuses what satisfies a condition lets the rest through. -/
theorem guard_eq_ok {c : Prop} [Decidable c] {fault : ε} {x : Except ε β} {b : β} :
    (if c then throw fault else x) = .ok b ↔ ¬ c ∧ x = .ok b := by
  split
  · simp [*, throw_ne_ok]
  · simp [*]

theorem requireLength_eq_ok {α : Type} {fault : Nat → Nat → Fault α} {expected actual : Nat} :
    requireLength fault expected actual = .ok () ↔ expected = actual := by
  unfold requireLength
  split <;> simp [*]

end Except

/-- A list is worked off element by element. -/
theorem mapM_eq_some {β γ : Type} {f? : β → Option γ} {f : β → γ} {xs : List β}
    (h : ∀ x ∈ xs, f? x = some (f x)) : xs.mapM f? = some (xs.map f) := by
  induction xs with
  | nil => rfl
  | cons x xs ih =>
    rw [List.mapM_cons, h x List.mem_cons_self, ih fun x' hx' => h x' (List.mem_cons_of_mem _ hx')]
    rfl

end SpectralResponse
