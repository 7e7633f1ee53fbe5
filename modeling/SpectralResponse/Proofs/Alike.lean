import SpectralResponse.Proofs.Noted
import Mathlib.Data.List.Forall2

/-!
# Computations that succeed together

Two computations are alike when both fail, or both succeed with results that are related. How they fail does
not matter: the first of several faults depends on the order in which things are looked at. Operations in
`Noted` are alike when they are so whatever warnings were given before either of them.

## What is proved

* `Except.Alike.bind`, `Noted.Alike.bind` — programs with the same steps are alike when each step is.
* `Except.alike_mapM_reverse` — a list is worked off alike from either end.
* `Except.Alike.ok_iff` — what two alike computations say about a result.
-/

namespace SpectralResponse

variable {ε ε' α β γ β' γ' : Type} {R : β → γ → Prop} {S : β' → γ' → Prop}

namespace Except

/-- Both computations fail, or both succeed with related results. -/
inductive Alike (R : β → γ → Prop) : Except ε β → Except ε' γ → Prop where
  /-- Both fail, in whatever way. -/
  | error (fault : ε) (fault' : ε') : Alike R (.error fault) (.error fault')
  /-- Both succeed. -/
  | ok {b : β} {c : γ} : R b c → Alike R (.ok b) (.ok c)

/-- A computation is like itself. -/
theorem alike_self {R : β → β → Prop} (hR : ∀ b, R b b) (x : Except ε β) : Alike R x x := by
  cases x with
  | error fault => exact .error fault fault
  | ok b => exact .ok (hR b)

/-- Computations are alike if one succeeds whenever the other does, and with a related result. -/
theorem alike_of_ok {x : Except ε β} {y : Except ε' γ} (hback : ∀ c, y = .ok c → ∃ b, x = .ok b ∧ R b c)
    (hto : ∀ b, x = .ok b → ∃ c, y = .ok c) : Alike R x y := by
  cases y with
  | ok c =>
    obtain ⟨b, hb, hbc⟩ := hback c rfl
    rw [hb]
    exact .ok hbc
  | error fault' =>
    cases x with
    | ok b =>
      obtain ⟨c, hc⟩ := hto b rfl
      cases hc
    | error fault => exact .error fault fault'

namespace Alike

variable {x : Except ε β} {y : Except ε' γ}

/-- When results are related by an exchange, each result of one computation is an exchanged one of the other. -/
theorem ok_iff {y : Except ε' β} (flip : β → β) (hflip : ∀ b, flip (flip b) = b)
    (h : Alike (fun b c => b = flip c) x y) (b : β) : x = .ok b ↔ y = .ok (flip b) := by
  cases h with
  | error fault fault' => simp
  | ok hbc =>
    rw [Except.ok.injEq, Except.ok.injEq, hbc]
    constructor
    · rintro rfl
      rw [hflip]
    · rintro rfl
      rw [hflip]

theorem ok_iff_ok {y : Except ε' β} (h : Alike Eq x y) (b : β) : x = .ok b ↔ y = .ok b :=
  ok_iff id (fun _ => rfl) h b

theorem trans {δ ε'' : Type} {T : γ → δ → Prop} {U : β → δ → Prop} {z : Except ε'' δ} (h : Alike R x y)
    (h' : Alike T y z) (hU : ∀ b c d, R b c → T c d → U b d) : Alike U x z := by
  cases h with
  | error fault fault' =>
    cases h' with
    | error fault' fault'' => exact .error fault fault''
  | ok hbc =>
    cases h' with
    | ok hcd => exact .ok (hU _ _ _ hbc hcd)

/-- Programs go on alike from related results. -/
theorem bind {f : β → Except ε β'} {g : γ → Except ε' γ'} (h : Alike R x y)
    (hnext : ∀ b c, R b c → Alike S (f b) (g c)) : Alike S (x >>= f) (y >>= g) := by
  cases h with
  | error fault fault' => exact .error fault fault'
  | ok hbc => exact hnext _ _ hbc

/-- Programs go on alike from related results, knowing where the second one comes from. -/
theorem bind_of_ok {f : β → Except ε β'} {g : γ → Except ε' γ'} (h : Alike R x y)
    (hnext : ∀ b c, y = .ok c → R b c → Alike S (f b) (g c)) : Alike S (x >>= f) (y >>= g) := by
  cases h with
  | error fault fault' => exact .error fault fault'
  | ok hbc => exact hnext _ _ rfl hbc

/-- Programs that make the same step go on alike from its result. -/
theorem bind_self_of_ok {x : Except ε β} {f : β → Except ε β'} {g : β → Except ε γ'}
    (hnext : ∀ b, x = .ok b → Alike S (f b) (g b)) : Alike S (x >>= f) (x >>= g) := by
  cases x with
  | error fault => exact .error fault fault
  | ok b => exact hnext b rfl

theorem bind_self {x : Except ε β} {f : β → Except ε β'} {g : β → Except ε γ'}
    (hnext : ∀ b, Alike S (f b) (g b)) : Alike S (x >>= f) (x >>= g) :=
  bind_self_of_ok fun b _ => hnext b

theorem mapError {δ δ' : Type} {f : ε → δ} {g : ε' → δ'} (h : Alike R x y) :
    Alike R (x.mapError f) (y.mapError g) := by
  cases h with
  | error fault fault' => exact .error _ _
  | ok hbc => exact .ok hbc

/-- The same condition is refused, in whatever way. -/
theorem guard {c : Prop} [Decidable c] {fault : ε} {fault' : ε'} (h : Alike R x y) :
    Alike R (if c then throw fault else x) (if c then throw fault' else y) := by
  by_cases hc : c
  · rw [if_pos hc, if_pos hc]
    exact .error fault fault'
  · rw [if_neg hc, if_neg hc]
    exact h

end Alike

/-- Lists are worked off alike when their elements are. -/
theorem alike_mapM {f : β → Except ε β'} {g : γ → Except ε' γ'} {xs : List β} {ys : List γ}
    (h : List.Forall₂ (fun x y => Alike S (f x) (g y)) xs ys) :
    Alike (List.Forall₂ S) (xs.mapM f) (ys.mapM g) := by
  induction h with
  | nil => exact .ok .nil
  | cons hxy _ ih =>
    rw [List.mapM_cons, List.mapM_cons]
    exact hxy.bind fun b c hbc => ih.bind fun bs cs hbcs => .ok (.cons hbc hbcs)

/-- A list is worked off alike from either end. -/
theorem alike_mapM_reverse (f : β → Except ε γ) (xs : List β) :
    Alike (fun ys zs => ys = zs.reverse) (xs.reverse.mapM f) (xs.mapM f) := by
  refine alike_of_ok (fun zs hzs => ⟨zs.reverse, ?_, rfl⟩) fun ys hys => ⟨ys.reverse, ?_⟩
  · exact mapM_eq_ok.2 (List.forall₂_reverse_iff.2 (mapM_eq_ok.1 hzs))
  · have hpairs := List.forall₂_reverse_iff.2 (mapM_eq_ok.1 hys)
    rw [List.reverse_reverse] at hpairs
    exact mapM_eq_ok.2 hpairs

end Except

namespace Noted

/-- The operations are alike, whatever warnings were given before. -/
def Alike (R : β → γ → Prop) (x : Noted α β) (y : Noted α γ) : Prop :=
  ∀ w w', Except.Alike R (x.run.run w).1 (y.run.run w').1

namespace Alike

variable {x : Noted α β} {y : Noted α γ}

theorem outcome (h : Alike R x y) : Except.Alike R x.outcome.1 y.outcome.1 := h [] []

/-- Operations go on alike from related results. -/
theorem bind {f : β → Noted α β'} {g : γ → Noted α γ'} (h : Alike R x y)
    (hnext : ∀ b c, R b c → Alike S (f b) (g c)) : Alike S (x >>= f) (y >>= g) := by
  intro w w'
  have hxy := h w w'
  rw [run_bind, run_bind]
  obtain ⟨⟨a, w₁⟩, hx⟩ : ∃ p, x.run.run w = p := ⟨_, rfl⟩
  obtain ⟨⟨a', w₁'⟩, hy⟩ : ∃ p, y.run.run w' = p := ⟨_, rfl⟩
  rw [hx, hy] at hxy ⊢
  cases hxy with
  | error fault fault' => exact .error fault fault'
  | ok hbc => exact hnext _ _ hbc w₁ w₁'

theorem pure {b : β} {c : γ} (h : R b c) : Alike R (Pure.pure b : Noted α β) (Pure.pure c : Noted α γ) :=
  fun _ _ => .ok h

theorem lift {x : Except (Fault α) β} {y : Except (Fault α) γ} (h : Except.Alike R x y) :
    Alike R (liftM x : Noted α β) (liftM y : Noted α γ) := fun _ _ => h

/-- Operations that begin with a check go on alike, knowing what the second check gave. -/
theorem lift_bind_of_ok {x : Except (Fault α) β} {y : Except (Fault α) γ} {f : β → Noted α β'}
    {g : γ → Noted α γ'} (h : Except.Alike R x y) (hnext : ∀ b c, y = .ok c → R b c → Alike S (f b) (g c)) :
    Alike S (liftM x >>= f) (liftM y >>= g) := by
  cases h with
  | error fault fault' => exact fun _ _ => .error fault fault'
  | ok hbc => exact hnext _ _ rfl hbc

/-- Operations that make the same check first. -/
theorem lift_bind_self {x : Except (Fault α) β} {f : β → Noted α β'} {g : β → Noted α γ'}
    (h : ∀ b, Alike S (f b) (g b)) : Alike S (liftM x >>= f) (liftM x >>= g) :=
  (lift (Except.alike_self (fun _ => rfl) x)).bind fun b _ hb => hb ▸ h b

/-- Warnings do not matter. -/
theorem warnIf_bind {reason reason' : Bool} {warning warning' : Warning α} {f : PUnit → Noted α β'}
    {g : PUnit → Noted α γ'} (h : Alike S (f ⟨⟩) (g ⟨⟩)) :
    Alike S (warnIf reason warning >>= f) (warnIf reason' warning' >>= g) := by
  refine bind (R := fun _ _ => True) (fun w w' => ?_) fun _ _ _ => h
  cases reason <;> cases reason' <;> exact .ok trivial

/-- The same condition is refused, in whatever way. -/
theorem guard {c : Prop} [Decidable c] {fault fault' : Fault α} {f : PUnit → Noted α β'}
    {g : PUnit → Noted α γ'} (h : Alike S (f ⟨⟩) (g ⟨⟩)) :
    Alike S (if c then throw fault >>= f else f ⟨⟩) (if c then throw fault' >>= g else g ⟨⟩) := by
  by_cases hc : c
  · rw [if_pos hc, if_pos hc]
    exact fun _ _ => .error fault fault'
  · rw [if_neg hc, if_neg hc]
    exact h

/-- What is ascribed to a document is alike if it is so by itself. -/
theorem inDocument {origin : String} (h : Alike R x y) :
    Alike R (Noted.inDocument origin x) (Noted.inDocument origin y) := by
  intro w w'
  have hxy := h w w'
  simp only [Noted.inDocument, ExceptT.run, ExceptT.mk, Bind.bind, StateT.run, StateT.bind] at hxy ⊢
  obtain ⟨⟨a, w₁⟩, hx⟩ : ∃ p, x w = p := ⟨_, rfl⟩
  obtain ⟨⟨a', w₁'⟩, hy⟩ : ∃ p, y w' = p := ⟨_, rfl⟩
  rw [hx, hy] at hxy ⊢
  cases hxy with
  | error fault fault' => exact .error _ _
  | ok hbc => exact .ok hbc

end Alike

/-- Checks that are made one after another are made as one. -/
theorem run_mapM_lift (f : β → Except (Fault α) γ) (xs : List β) (w : List (Warning α)) :
    (xs.mapM fun x => (liftM (f x) : Noted α γ)).run.run w = (xs.mapM f, w) := by
  induction xs with
  | nil => rfl
  | cons x xs ih =>
    rw [List.mapM_cons, List.mapM_cons, run_bind]
    cases f x with
    | error fault => rfl
    | ok c =>
      show ((xs.mapM fun x => (liftM (f x) : Noted α γ)) >>= fun cs => Pure.pure (c :: cs)).run.run w = _
      rw [run_bind, ih]
      cases xs.mapM f with
      | error fault => rfl
      | ok cs => rfl

/-- Checks that are made one after another are alike if they are as one. -/
theorem Alike.mapM_lift {T : List β' → List γ' → Prop} {f : β → Except (Fault α) β'}
    {g : γ → Except (Fault α) γ'} {xs : List β} {ys : List γ} (h : Except.Alike T (xs.mapM f) (ys.mapM g)) :
    Alike T (xs.mapM fun x => (liftM (f x) : Noted α β')) (ys.mapM fun y => (liftM (g y) : Noted α γ')) := by
  intro w w'
  rw [run_mapM_lift, run_mapM_lift]
  exact h

end Noted

end SpectralResponse
