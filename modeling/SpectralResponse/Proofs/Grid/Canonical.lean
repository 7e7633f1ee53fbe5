import SpectralResponse.Grid.EdgeUnit
import SpectralResponse.Proofs.Except
import Mathlib.Data.List.Nodup

/-!
# Bins put in ascending order

Bins come in a unit and in either order. `canonicalize` takes each of them to keV and turns the list
around when it runs downwards. Where a bin has gone is settled by counting: the bin at a position is
found at the same position, or at the one as far from the other end (`turned`).

## What is proved

* A grid that is made has exactly the given bins, each taken to keV (`bins_of_canonicalize`).
* When no two bins are equal, each bin is found at its place and nowhere else (`Sits.of_turn`).
-/

namespace SpectralResponse

variable {α β : Type}

/-! ### Turning a list around -/

/-- A list, or the same list from the other end. -/
def turn (down : Bool) (xs : List β) : List β := if down then xs.reverse else xs

/-- Where a position among `count` has gone. -/
def turned (down : Bool) (count i : Nat) : Nat := if down then count - 1 - i else i

@[simp]
theorem length_turn (down : Bool) (xs : List β) : (turn down xs).length = xs.length := by
  cases down <;> simp [turn]

theorem mem_turn {down : Bool} {xs : List β} {x : β} : x ∈ turn down xs ↔ x ∈ xs := by
  cases down <;> simp [turn]

/-- Turned around twice, a list is the same as before. -/
@[simp]
theorem turn_turn (a b : Bool) (xs : List β) : turn a (turn b xs) = turn (a != b) xs := by
  cases a <;> cases b <;> simp [turn]

theorem turned_lt (down : Bool) {count i : Nat} (h : i < count) : turned down count i < count := by
  unfold turned
  split <;> omega

@[simp]
theorem turned_turned {down : Bool} {count i : Nat} (h : i < count) :
    turned down count (turned down count i) = i := by
  unfold turned
  split <;> omega

theorem getElem?_turn (down : Bool) (xs : List β) {i : Nat} (h : i < xs.length) :
    (turn down xs)[turned down xs.length i]? = xs[i]? := by
  cases down with
  | false => rfl
  | true =>
    rw [turn, if_pos rfl, turned, if_pos rfl, List.getElem?_reverse (by omega)]
    congr 1
    omega

theorem nodup_turn {down : Bool} {xs : List β} (h : xs.Nodup) : (turn down xs).Nodup := by
  cases down with
  | false => exact h
  | true => exact List.nodup_reverse.2 h

/-- What stands at `row` of the first list stands at `place` of the second one and nowhere else there. -/
def Sits (xs ys : List β) (row place : Nat) : Prop :=
  ∃ x, xs[row]? = some x ∧ ∀ j, ys[j]? = some x ↔ j = place

theorem Sits.of_nodup {xs ys : List β} {row place : Nat} (hys : ys.Nodup) (hrow : row < xs.length)
    (h : ys[place]? = xs[row]?) : Sits xs ys row place := by
  refine ⟨xs[row], List.getElem?_eq_getElem hrow, fun j => ?_⟩
  rw [List.getElem?_eq_getElem hrow] at h
  constructor
  · intro hj
    have hlt : j < ys.length := (List.getElem?_eq_some_iff.1 hj).1
    exact (List.getElem?_inj hlt hys).1 (hj.trans h.symm)
  · rintro rfl
    exact h

/-- A list of different elements, turned around or not. -/
theorem Sits.of_turn (down : Bool) {xs : List β} {row : Nat} (hxs : xs.Nodup) (hrow : row < xs.length) :
    Sits xs (turn down xs) row (turned down xs.length row) :=
  .of_nodup (nodup_turn hxs) hrow (getElem?_turn down xs hrow)

/-! ### Bins -/

/-- The bins run upwards in energy. -/
def Ascends [LT α] (bins : List (Bin α)) : Prop := bins.Pairwise fun a b => a.lo < b.lo

/-- Bins that run upwards or downwards in energy are all different. -/
theorem nodup_of_ascends [LT α] [Std.Asymm ((· < ·) : α → α → Prop)] {bins : List (Bin α)}
    (h : Ascends bins ∨ Ascends bins.reverse) : bins.Nodup := by
  have irrefl (a : α) : ¬ a < a := fun h => Std.Asymm.asymm _ _ h h
  have differ (a b : Bin α) (h : a.lo < b.lo) : a ≠ b := by
    rintro rfl
    exact irrefl _ h
  rcases h with h | h
  · exact h.imp (differ _ _)
  · exact List.nodup_reverse.1 (h.imp (differ _ _))

theorem arrange_eq_turn (c : Canonical α) (values : List β) : c.arrange values = turn c.reversed values := rfl

@[simp]
theorem length_arrange (c : Canonical α) (values : List β) : (c.arrange values).length = values.length := by
  rw [arrange_eq_turn, length_turn]

variable [Scalar α]

/-- A bin in a unit, taken to keV. -/
def EdgeUnit.toKev (unit : EdgeUnit) (b : Bin α) : Bin α :=
  if unit.isWavelength then ⟨kevAngstrom / (b.hi * unit.scale), kevAngstrom / (b.lo * unit.scale)⟩
  else ⟨b.lo * unit.scale, b.hi * unit.scale⟩

/-- The bins with the given edges in a unit, taken to keV. -/
def EdgeUnit.binsInKev (unit : EdgeUnit) (lo hi : List α) : List (Bin α) :=
  (List.zipWith Bin.mk lo hi).map unit.toKev

/-- Edges that are turned around are those of the bins turned around. -/
theorem EdgeUnit.binsInKev_turn {lo hi : List α} (h : lo.length = hi.length) (unit : EdgeUnit) (down : Bool) :
    unit.binsInKev (turn down lo) (turn down hi) = turn down (unit.binsInKev lo hi) := by
  cases down with
  | false => rfl
  | true =>
    show (List.zipWith Bin.mk lo.reverse hi.reverse).map unit.toKev = (unit.binsInKev lo hi).reverse
    rw [EdgeUnit.binsInKev, ← List.map_reverse, List.reverse_zipWith h]

/-- Edges that are in keV already stay. -/
theorem binsInKev_kev [Std.LawfulRightIdentity (α := α) (· * ·) 1] (bins : List (Bin α)) :
    EdgeUnit.kev.binsInKev (bins.map Bin.lo) (bins.map Bin.hi) = bins := by
  have hright : Std.LawfulRightIdentity (fun x y : α => x * y) 1 := inferInstance
  have hone (x : α) : x * 1 = x := hright.right_id x
  have hsame (b : Bin α) : EdgeUnit.kev.toKev b = b := by
    show Bin.mk (b.lo * 1) (b.hi * 1) = b
    rw [hone, hone]
  rw [EdgeUnit.binsInKev]
  induction bins with
  | nil => rfl
  | cons b bins ih =>
    rw [List.map_cons, List.map_cons, List.zipWith_cons_cons, List.map_cons, ih, hsame]

theorem EdgeUnit.eq_toKev {unit : EdgeUnit} {index : Nat} {b b' : Bin α}
    (h : unit.binToKev index b = .ok b') : b' = unit.toKev b := by
  rw [EdgeUnit.binToKev] at h
  rw [EdgeUnit.toKev]
  split at h
  · rename_i hw
    rw [if_pos hw]
    split at h
    · cases h
    · split at h
      · cases h
      · exact (Except.ok.inj h).symm
  · rename_i hw
    rw [if_neg hw]
    exact (Except.ok.inj h).symm

theorem Grid.bins_of_ofBins {bins : List (Bin α)} {g : Grid α} (h : Grid.ofBins bins = .ok g) :
    g.bins = bins := by
  obtain ⟨-, h⟩ := Except.guard_eq_ok.1 h
  obtain ⟨-, -, h⟩ := Except.bind_eq_ok.1 h
  rw [← Except.ok.inj h]

theorem bins_of_mapM {unit : EdgeUnit} {bins bins' : List (Bin α)} (first : Nat)
    (h : (bins.zipIdx first).mapM (fun (b, index) => unit.binToKev index b) = .ok bins') :
    bins' = bins.map unit.toKev := by
  rw [Except.mapM_eq_ok] at h
  induction bins generalizing first bins' with
  | nil =>
    cases h
    rfl
  | cons b bins ih =>
    obtain ⟨b', rest, hb, hrest, rfl⟩ := List.forall₂_cons_left_iff.1 h
    rw [List.map_cons, EdgeUnit.eq_toKev hb, ih (first + 1) hrest]

/-- The grid has the bins that were given, of which there is one at least, in the order that was found. -/
theorem bins_of_canonicalize {lo hi : List α} {unit : EdgeUnit} {c : Canonical α}
    (h : canonicalize lo hi unit = .ok c) :
    lo.length = hi.length ∧ lo ≠ [] ∧ c.reversed = runsDown (unit.binsInKev lo hi) ∧
      c.grid.bins = turn c.reversed (unit.binsInKev lo hi) := by
  obtain ⟨hlen, h⟩ := Except.guard_eq_ok.1 h
  obtain ⟨hne, h⟩ := Except.guard_eq_ok.1 h
  obtain ⟨-, -, h⟩ := Except.bind_eq_ok.1 h
  obtain ⟨-, -, h⟩ := Except.bind_eq_ok.1 h
  obtain ⟨bins, hbins, h⟩ := Except.bind_eq_ok.1 h
  obtain ⟨grid, hgrid, h⟩ := Except.bind_eq_ok.1 h
  cases Except.ok.inj h
  obtain rfl := bins_of_mapM 0 hbins
  refine ⟨not_not.1 hlen, fun hnil => hne (List.isEmpty_iff.2 hnil), rfl, ?_⟩
  rw [Grid.bins_of_ofBins hgrid]
  rfl

end SpectralResponse
