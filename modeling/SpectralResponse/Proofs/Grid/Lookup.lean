import SpectralResponse.Proofs.Grid.Ordered
import SpectralResponse.Proofs.Scalar.DoubleComparisons
import Mathlib.Data.List.TakeWhile

/-!
# Looking up a value in a grid

Binary search finds the place at which a condition stops holding. In a grid whose bins stand in order, the
bins that start at or below a value come first, and the last of them holds the value if any bin does. The search
only compares, so this holds of doubles too, and of values that are no number or infinite.

## What is proved

* `BinarySearch.splitsAt_takeWhile` — a condition that holds on all elements before one that satisfies it has such
  a place.
* `BinarySearch.partitionPoint_eq` — the search ends where the condition stops holding.
* `Grid.StrictlyOrdered.findBin?_eq_some_iff` — a bin is found exactly if it holds the value.
* `Grid.value_is_found_in_its_bin` — that bin is the only one, and none is found exactly if none holds the value.
-/

namespace SpectralResponse

namespace BinarySearch

variable {β : Type} {holds : β → Bool} {xs : Array β} {lo hi n : Nat}

/-- The condition holds on the first `n` elements and on no others. -/
structure SplitsAt (holds : β → Bool) (xs : Array β) (n : Nat) : Prop where
  /-- There are as many elements. -/
  bound : n ≤ xs.size
  /-- It holds on the first ones. -/
  before : ∀ i < n, xs[i]?.any holds = true
  /-- It fails on the others. -/
  after : ∀ i, n ≤ i → xs[i]?.any holds = false

/-- As long as the place lies between the bounds, it stays there. -/
theorem between_eq (h : SplitsAt holds xs n) (hlo : lo ≤ n) (hhi : n ≤ hi) : between holds xs lo hi = n := by
  fun_induction between holds xs lo hi with
  | case1 lo hi hlt middle hholds ih =>
    have hmiddle : middle < n := by
      by_contra hle
      rw [h.after middle (Nat.le_of_not_lt hle)] at hholds
      cases hholds
    exact ih hmiddle hhi
  | case2 lo hi hlt middle hfails ih =>
    have hmiddle : n ≤ middle := by
      by_contra hle
      exact hfails (h.before middle (Nat.lt_of_not_le hle))
    exact ih hlo hmiddle
  | case3 lo hi hstop => omega

/-- When a condition holds on all elements in front of one that satisfies it, it fails from its first failure
on. -/
theorem eq_false_of_mem_dropWhile {ys : List β} (h : ys.Pairwise fun a b => holds b = true → holds a = true) :
    ∀ b ∈ ys.dropWhile holds, holds b = false := by
  induction ys with
  | nil => exact fun b hb => absurd hb List.not_mem_nil
  | cons a ys ih =>
    obtain ⟨hhead, htail⟩ := List.pairwise_cons.1 h
    rw [List.dropWhile_cons]
    split
    · exact ih htail
    · rename_i hfails
      intro b hb
      rw [Bool.eq_false_iff]
      intro hholds
      rcases List.mem_cons.1 hb with rfl | hb
      · exact hfails hholds
      · exact hfails (hhead b hb hholds)

/-- Such a condition splits a list behind the elements that it takes. -/
theorem splitsAt_takeWhile {ys : List β} (h : ys.Pairwise fun a b => holds b = true → holds a = true) :
    SplitsAt holds ys.toArray (ys.takeWhile holds).length where
  bound := (List.takeWhile_prefix holds).length_le
  before i hi := by
    have htaken : ys[i]? = (ys.takeWhile holds)[i]? := by
      conv_lhs => rw [← List.takeWhile_append_dropWhile (p := holds) (l := ys)]
      exact List.getElem?_append_left hi
    have hholds : holds (ys.takeWhile holds)[i] = true := List.mem_takeWhile_imp (List.getElem_mem hi)
    rwa [List.getElem?_toArray, htaken, List.getElem?_eq_getElem hi, Option.any_some]
  after i hi := by
    have hleft : ys[i]? = (ys.dropWhile holds)[i - (ys.takeWhile holds).length]? := by
      conv_lhs => rw [← List.takeWhile_append_dropWhile (p := holds) (l := ys)]
      exact List.getElem?_append_right hi
    rw [List.getElem?_toArray, hleft]
    cases hget : (ys.dropWhile holds)[i - (ys.takeWhile holds).length]? with
    | none => rfl
    | some b => exact eq_false_of_mem_dropWhile h b (List.mem_of_getElem? hget)

theorem partitionPoint_eq (h : SplitsAt holds xs n) : partitionPoint holds xs = n :=
  between_eq h (Nat.zero_le n) h.bound

end BinarySearch

namespace Grid

/-! ### Bins in order -/

section

variable {α : Type} [Scalar α]

/-- No bin is empty or starts before the one before it has ended. There may be gaps between bins. -/
structure StrictlyOrdered (g : Grid α) : Prop where
  /-- Each bin ends above its start. -/
  positive : ∀ b ∈ g.bins, b.lo < b.hi
  /-- The bins do not overlap. -/
  apart : g.bins.IsChain fun a b => a.hi ≤ b.lo

/-- The value lies in the bin at a position. -/
def HoldsAt (g : Grid α) (value : α) (i : Nat) : Prop := ∃ b, g.bins[i]? = some b ∧ b.lo ≤ value ∧ value < b.hi

variable [LawfulComparisons α] {g : Grid α} {value : α} {i j : Nat}

namespace StrictlyOrdered

variable (h : g.StrictlyOrdered)
include h

/-- Bins further on start after those before them have ended. -/
theorem pairwise : g.bins.Pairwise fun a b => a.hi ≤ b.lo ∧ b.lo < b.hi := by
  -- For neighbours alone the relation would not chain: it takes that the bin in between is not empty.
  have hchain : g.bins.IsChain fun a b => a.hi ≤ b.lo ∧ b.lo < b.hi :=
    h.apart.imp_of_mem_imp fun a b _ hb hab => ⟨hab, h.positive b hb⟩
  have htrans : IsTrans (Bin α) fun a b => a.hi ≤ b.lo ∧ b.lo < b.hi :=
    ⟨fun a b c hab hbc => ⟨LawfulComparisons.le_trans hab.1
      (LawfulComparisons.le_trans (LawfulComparisons.le_of_lt hab.2) hbc.1), hbc.2⟩⟩
  exact hchain.pairwise

theorem hi_le_lo {a b : Bin α} (hij : i < j) (ha : g.bins[i]? = some a) (hb : g.bins[j]? = some b) :
    a.hi ≤ b.lo := by
  obtain ⟨hi, rfl⟩ := List.getElem?_eq_some_iff.1 ha
  obtain ⟨hj, rfl⟩ := List.getElem?_eq_some_iff.1 hb
  exact (List.pairwise_iff_getElem.1 h.pairwise i j hi hj hij).1

/-- A value that lies in a bin does not lie in a bin further on. -/
theorem not_lt (hi : g.HoldsAt value i) (hj : g.HoldsAt value j) : ¬ i < j := by
  intro hij
  obtain ⟨a, ha, -, hhi⟩ := hi
  obtain ⟨b, hb, hlo, -⟩ := hj
  exact LawfulComparisons.not_le_of_lt hhi (LawfulComparisons.le_trans (h.hi_le_lo hij ha hb) hlo)

/-- A value does not lie in two bins. -/
theorem holdsAt_unique (hi : g.HoldsAt value i) (hj : g.HoldsAt value j) : i = j :=
  Nat.le_antisymm (Nat.not_lt.1 (h.not_lt hj hi)) (Nat.not_lt.1 (h.not_lt hi hj))

/-- The bins that start at or below a value come first. -/
theorem splitsAt (value : α) : BinarySearch.SplitsAt (fun b : Bin α => b.lo ≤ value) g.bins.toArray
    (g.bins.takeWhile fun b => b.lo ≤ value).length := by
  apply BinarySearch.splitsAt_takeWhile
  refine h.pairwise.imp_of_mem fun {a b} ha _ hab hb => ?_
  have hle := LawfulComparisons.le_trans (LawfulComparisons.le_of_lt (h.positive a ha)) hab.1
  exact decide_eq_true (LawfulComparisons.le_trans hle (of_decide_eq_true hb))

/-- The bin that is found holds the value. -/
theorem holdsAt_of_findBin? (hfound : g.findBin? value = some i) : g.HoldsAt value i := by
  have hsplit := h.splitsAt value
  rw [findBin?, findAmong?, BinarySearch.partitionPoint_eq hsplit] at hfound
  split at hfound
  · cases hfound
  · rename_i index hindex
    split at hfound
    · rename_i hhi
      cases hfound
      have hlo := hsplit.before i (hindex ▸ Nat.lt_succ_self i)
      rw [List.getElem?_toArray] at hlo hhi
      obtain ⟨b, hb, hhi⟩ := (Option.any_eq_true _ _).1 hhi
      rw [hb, Option.any_some] at hlo
      exact ⟨b, hb, of_decide_eq_true hlo, of_decide_eq_true hhi⟩
    · cases hfound

/-- The bin that holds a value is found: it starts at or below the value, and the next one does not. -/
theorem findBin?_of_holdsAt (hi : g.HoldsAt value i) : g.findBin? value = some i := by
  have hsplit := h.splitsAt value
  obtain ⟨b, hb, hlo, hhi⟩ := hi
  have hend : (g.bins.takeWhile fun b => b.lo ≤ value).length = i + 1 := by
    generalize (g.bins.takeWhile fun b => b.lo ≤ value).length = n at hsplit
    have hbefore : i < n := by
      by_contra hle
      have hfails := hsplit.after i (Nat.le_of_not_lt hle)
      rw [List.getElem?_toArray, hb, Option.any_some, decide_eq_true hlo] at hfails
      cases hfails
    have hafter : ¬ i + 1 < n := by
      intro hlt
      have hholds := hsplit.before (i + 1) hlt
      rw [List.getElem?_toArray] at hholds
      obtain ⟨c, hc, hlo'⟩ := (Option.any_eq_true _ _).1 hholds
      have hapart := h.hi_le_lo (Nat.lt_succ_self i) hb hc
      exact LawfulComparisons.not_le_of_lt hhi (LawfulComparisons.le_trans hapart (of_decide_eq_true hlo'))
    omega
  have hin : (g.bins.toArray[i]?.any fun b => decide (value < b.hi)) = true := by
    rw [List.getElem?_toArray, hb]
    exact decide_eq_true hhi
  rw [findBin?, findAmong?, BinarySearch.partitionPoint_eq hsplit, hend]
  exact if_pos hin

theorem findBin?_eq_some_iff : g.findBin? value = some i ↔ g.HoldsAt value i :=
  ⟨h.holdsAt_of_findBin?, h.findBin?_of_holdsAt⟩

end StrictlyOrdered

/-- In a grid whose bins stand in order, with or without gaps, and for any value, also one that is no number or
infinite, the search answers a position exactly if the bin there holds the value. There is one such position at most,
and the search answers none exactly if no bin holds the value. -/
theorem value_is_found_in_its_bin (h : g.StrictlyOrdered) (value : α) :
    (∀ i, g.findBin? value = some i ↔ g.HoldsAt value i) ∧
      (∀ i j, g.HoldsAt value i → g.HoldsAt value j → i = j) ∧
      (g.findBin? value = none ↔ ∀ b ∈ g.bins, ¬ (b.lo ≤ value ∧ value < b.hi)) := by
  refine ⟨fun i => h.findBin?_eq_some_iff, fun i j => h.holdsAt_unique, ?_⟩
  rw [Option.eq_none_iff_forall_ne_some]
  constructor
  · intro hnone b hb hin
    obtain ⟨i, hi⟩ := List.mem_iff_getElem?.1 hb
    exact hnone i (h.findBin?_of_holdsAt ⟨b, hi, hin⟩)
  · intro hnone i hfound
    obtain ⟨b, hb, hin⟩ := h.holdsAt_of_findBin? hfound
    exact hnone b (List.mem_of_getElem? hb) hin

end

/-- Two bins of doubles with a gap between them. -/
def gapped : Grid Float := ⟨[⟨1, 2⟩, ⟨3, 4⟩]⟩

/-- The edge where the upper bin starts is found in it. Nothing is found in the gap, at the end, or for what is no
number. -/
theorem gapped_bins_are_found :
    gapped.StrictlyOrdered ∧ gapped.findBin? 3.0 = some 1 ∧ gapped.findBin? 2.5 = none ∧
      gapped.findBin? 4.0 = none ∧ gapped.findBin? (0.0 / 0.0) = none := by
  have h : gapped.StrictlyOrdered := ⟨by decide, by decide⟩
  have hnone (value : Float) (hvalue : ∀ b ∈ gapped.bins, ¬ (b.lo ≤ value ∧ value < b.hi)) :
      gapped.findBin? value = none := (value_is_found_in_its_bin h value).2.2.2 hvalue
  exact ⟨h, ((value_is_found_in_its_bin h 3.0).1 1).2 ⟨⟨3, 4⟩, rfl, by decide, by decide⟩,
    hnone _ (by decide), hnone _ (by decide), hnone _ (by decide)⟩

/-! ### Exact scalars -/

variable {K : Type} [Field K] [LinearOrder K] [FloorRing K] [Roots K] {g : Grid K}

theorem Ordered.strictlyOrdered (h : g.Ordered) : g.StrictlyOrdered := ⟨h.positive, h.apart⟩

/-- A bin is found if and only if one holds the value. -/
theorem isSome_findAmong? (h : g.Ordered) {value : K} :
    (findAmong? g.bins.toArray value).isSome = true ↔ ∃ b ∈ g.bins, b.lo ≤ value ∧ value < b.hi := by
  constructor
  · intro hfound
    obtain ⟨k, hk⟩ := Option.isSome_iff_exists.1 hfound
    obtain ⟨b, hb, hin⟩ := h.strictlyOrdered.holdsAt_of_findBin? hk
    exact ⟨b, List.mem_of_getElem? hb, hin⟩
  · rintro ⟨b, hb, hin⟩
    obtain ⟨k, hk⟩ := List.mem_iff_getElem?.1 hb
    have hfound : g.findBin? value = some k := h.strictlyOrdered.findBin?_of_holdsAt ⟨b, hk, hin⟩
    exact Option.isSome_iff_exists.2 ⟨k, hfound⟩

end Grid

end SpectralResponse
