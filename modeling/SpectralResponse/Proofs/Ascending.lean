import SpectralResponse.EvaluationGrid
import Mathlib.Data.List.Basic
import Mathlib.Tactic.Common

/-!
# Lists in ascending order

`ascending` keeps the values of a list, each once, and puts those that a linear order tells apart in this
order.
-/

namespace SpectralResponse

variable {β : Type} {before : β → β → Bool}

/-- What an order must satisfy for lists in it to be without repetitions. -/
structure StrictlyOrders (before : β → β → Bool) : Prop where
  /-- Nothing comes before itself. -/
  irrefl : ∀ x, before x x = false
  /-- What comes before something comes before what follows. -/
  trans : ∀ x y z, before x y = true → before y z = true → before x z = true
  /-- What comes neither before nor after is the same. -/
  total : ∀ x y, before x y = false → before y x = false → x = y

theorem strictlyOrders_handles {kind : ProductKind} :
    StrictlyOrders (Handle.before : Handle kind → Handle kind → Bool) where
  irrefl x := by simp [Handle.before]
  trans x y z hxy hyz := by
    simp only [Handle.before, decide_eq_true_eq] at *
    omega
  total x y hxy hyx := by
    simp only [Handle.before, decide_eq_false_iff_not] at *
    have hindex : x.index = y.index := by omega
    cases x
    cases y
    rw [Handle.mk.injEq]
    exact hindex

theorem strictlyOrders_members : StrictlyOrders EvaluationMember.before where
  irrefl x := by simp [EvaluationMember.before, strictlyOrders_handles.irrefl]
  trans x y z hxy hyz := by
    simp only [EvaluationMember.before, Bool.or_eq_true, Bool.and_eq_true, beq_iff_eq] at *
    rcases hxy with hxy | ⟨hx, hxy⟩
    · rcases hyz with hyz | ⟨hy, -⟩
      · exact .inl (strictlyOrders_handles.trans _ _ _ hxy hyz)
      · exact .inl (hy ▸ hxy)
    · rcases hyz with hyz | ⟨hy, hyz⟩
      · exact .inl (hx ▸ hyz)
      · exact .inr ⟨hx.trans hy, strictlyOrders_handles.trans _ _ _ hxy hyz⟩
  total x y hxy hyx := by
    simp only [EvaluationMember.before, Bool.or_eq_false_iff, Bool.and_eq_false_iff] at *
    have hspectrum := strictlyOrders_handles.total _ _ hxy.1 hyx.1
    have harea : x.2 = y.2 := by
      refine strictlyOrders_handles.total _ _ ?_ ?_
      · simpa [hspectrum] using hxy.2
      · simpa [hspectrum] using hyx.2
    exact Prod.ext hspectrum harea

theorem mem_insertAscending (h : StrictlyOrders before) {x y : β} {ys : List β} :
    y ∈ insertAscending before x ys ↔ y = x ∨ y ∈ ys := by
  induction ys with
  | nil => simp [insertAscending]
  | cons z zs ih =>
    rw [insertAscending]
    split
    · simp
    · split
      · simp only [List.mem_cons, ih]
        tauto
      · rename_i hxz hzx
        have : x = z := h.total x z (by simpa using hxz) (by simpa using hzx)
        subst this
        simp

theorem pairwise_insertAscending (h : StrictlyOrders before) (x : β) {ys : List β}
    (hys : ys.Pairwise fun a b => before a b = true) :
    (insertAscending before x ys).Pairwise fun a b => before a b = true := by
  induction ys with
  | nil => simp [insertAscending]
  | cons y ys ih =>
    obtain ⟨hy, hys'⟩ := List.pairwise_cons.1 hys
    rw [insertAscending]
    split
    · rename_i hxy
      refine List.pairwise_cons.2 ⟨fun z hz => ?_, hys⟩
      rcases List.mem_cons.1 hz with rfl | hz
      · exact hxy
      · exact h.trans x y z hxy (hy z hz)
    · split
      · rename_i hyx
        refine List.pairwise_cons.2 ⟨fun z hz => ?_, ih hys'⟩
        rcases (mem_insertAscending h).1 hz with rfl | hz
        · exact hyx
        · exact hy z hz
      · exact hys

theorem mem_ascending (h : StrictlyOrders before) {x : β} {xs : List β} :
    x ∈ ascending before xs ↔ x ∈ xs := by
  induction xs with
  | nil => simp [ascending]
  | cons y ys ih =>
    rw [ascending, List.foldr_cons, mem_insertAscending h, List.mem_cons]
    exact or_congr_right ih

theorem pairwise_ascending (h : StrictlyOrders before) (xs : List β) :
    (ascending before xs).Pairwise fun a b => before a b = true := by
  induction xs with
  | nil => exact List.Pairwise.nil
  | cons x xs ih => exact pairwise_insertAscending h x ih

theorem nodup_ascending (h : StrictlyOrders before) (xs : List β) : (ascending before xs).Nodup :=
  (pairwise_ascending h xs).imp fun {a b} hab he => by
    rw [he, h.irrefl] at hab
    cases hab

/-- Lists of the same values are the same in order. -/
theorem ascending_congr (h : StrictlyOrders before) {xs ys : List β} (hmem : ∀ x, x ∈ xs ↔ x ∈ ys) :
    ascending before xs = ascending before ys := by
  have hperm : (ascending before xs).Perm (ascending before ys) :=
    (List.perm_ext_iff_of_nodup (nodup_ascending h xs) (nodup_ascending h ys)).2 fun x => by
      rw [mem_ascending h, mem_ascending h, hmem]
  refine hperm.eq_of_pairwise (fun x y _ _ hxy hyx => ?_) (pairwise_ascending h xs) (pairwise_ascending h ys)
  have hxx := h.trans x y x hxy hyx
  rw [h.irrefl] at hxx
  cases hxx

end SpectralResponse
