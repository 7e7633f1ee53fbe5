import SpectralResponse.Proofs.Alike
import SpectralResponse.Proofs.Grid.Canonical

/-!
# Bins given from the other end

Whether bins run downwards is judged by the low edges of the first and the last of them. Where these two are
apart, the same bins given from the other end are judged the other way, turned around once more or once less,
and so make the same grid. What is given along with them ends up in the same order.

## What is proved

* `requireFinite_eq_ok`, `mapM_binToKev_eq_ok` — what the checks of edges ask of the bins, in whatever order.
* `runsDown_reverse` — bins with ends apart run downwards from one end exactly.
* `turn_runsDown_turn` — ordered bins come into the same order from either end.
* `canonicalize_reverse` — the same grid is made from either end.
* `arrange_flip_reverse` — what is given along with the bins comes into the same order.
-/

namespace SpectralResponse

variable {α : Type} [Scalar α]

/-! ### The direction of bins -/

omit [Scalar α] in
/-- The first and the last of some values differ: one of them is below the other. -/
def EndsApart [LT α] (values : List α) : Prop :=
  ∃ first last, values.head? = some first ∧ values.getLast? = some last ∧ (first < last ∨ last < first)

variable [Std.Asymm ((· < ·) : α → α → Prop)]

theorem runsDown_eq {bins : List (Bin α)} {first last : Bin α} (hfirst : bins.head? = some first)
    (hlast : bins.getLast? = some last) : runsDown bins = decide (last.lo < first.lo) := by
  cases bins with
  | nil => cases hfirst
  | cons b rest =>
    obtain rfl : b = first := Option.some.inj hfirst
    cases rest with
    | nil =>
      obtain rfl : b = last := Option.some.inj hlast
      have hirrefl : ¬ b.lo < b.lo := fun h => Std.Asymm.asymm _ _ h h
      rw [decide_eq_false hirrefl]
      rfl
    | cons next rest =>
      rw [List.getLast?_cons_cons] at hlast
      rw [runsDown, hlast, Option.any_some]

/-- Bins with ends apart run downwards from one end and upwards from the other. -/
theorem runsDown_reverse {bins : List (Bin α)} (h : EndsApart (bins.map Bin.lo)) :
    runsDown bins.reverse = !runsDown bins := by
  obtain ⟨_, _, hlo, hlo', hapart⟩ := h
  rw [List.head?_map] at hlo
  rw [List.getLast?_map] at hlo'
  obtain ⟨first, hfirst, rfl⟩ := Option.map_eq_some_iff.1 hlo
  obtain ⟨last, hlast, rfl⟩ := Option.map_eq_some_iff.1 hlo'
  have hfirst' : bins.reverse.head? = some last := by rw [List.head?_reverse, hlast]
  have hlast' : bins.reverse.getLast? = some first := by rw [List.getLast?_reverse, hfirst]
  rw [runsDown_eq hfirst hlast, runsDown_eq hfirst' hlast']
  rcases hapart with hlt | hlt
  · rw [decide_eq_true hlt, decide_eq_false (Std.Asymm.asymm _ _ hlt)]
    rfl
  · rw [decide_eq_true hlt, decide_eq_false (Std.Asymm.asymm _ _ hlt)]
    rfl

omit [Std.Asymm ((· < ·) : α → α → Prop)] in
/-- The ends of bins that run upwards or downwards in energy are apart, if there are two bins at least. -/
theorem endsApart_of_ascends {first second : Bin α} {rest : List (Bin α)}
    (h : Ascends (first :: second :: rest) ∨ Ascends (first :: second :: rest).reverse) :
    EndsApart ((first :: second :: rest).map Bin.lo) := by
  have hne : second :: rest ≠ [] := List.cons_ne_nil _ _
  have hmem := List.getLast_mem hne
  refine ⟨first.lo, ((second :: rest).getLast hne).lo, rfl, ?_, ?_⟩
  · rw [List.getLast?_map, List.getLast?_cons_cons, List.getLast?_eq_some_getLast hne, Option.map_some]
  · rcases h with h | h
    · rw [Ascends, List.pairwise_cons] at h
      exact .inl (h.1 _ hmem)
    · rw [Ascends, List.reverse_cons, List.pairwise_append] at h
      exact .inr (h.2.2 _ (List.mem_reverse.2 hmem) first (List.mem_singleton.2 rfl))

/-- Bins that run upwards or downwards in energy come into the same order from either end. -/
theorem turn_runsDown_turn {bins : List (Bin α)} (h : Ascends bins ∨ Ascends bins.reverse) (down : Bool) :
    turn (runsDown (turn down bins)) (turn down bins) = turn (runsDown bins) bins := by
  cases down with
  | false => rfl
  | true =>
    match bins, h with
    | [], _ => rfl
    | [_], _ => rfl
    | first :: second :: rest, h =>
      have hdown : runsDown (turn true (first :: second :: rest)) = !runsDown (first :: second :: rest) :=
        runsDown_reverse (endsApart_of_ascends h)
      rw [hdown, turn_turn]
      cases runsDown (first :: second :: rest) <;> rfl

/-! ### Checks of edges -/

omit [Std.Asymm ((· < ·) : α → α → Prop)]

/-- Edges are accepted if all of them are finite, in whatever order. -/
theorem requireFinite_eq_ok {edges : List α} :
    requireFinite edges = .ok () ↔ ∀ e ∈ edges, Scalar.isFinite e = true := by
  have hfind : firstNonFinite? edges = none ↔ ∀ e ∈ edges, Scalar.isFinite e = true := by
    rw [firstNonFinite?, List.find?_eq_none]
    constructor
    · intro h e he
      obtain ⟨i, hi, rfl⟩ := List.mem_iff_getElem.1 he
      simpa using h (edges[i], i) (by simp [List.mem_zipIdx_iff_getElem?])
    · intro h p hp
      simpa using h p.1 (List.fst_mem_of_mem_zipIdx hp)
  rw [requireFinite, ← hfind]
  cases firstNonFinite? edges <;> simp

/-- The bin can be taken to keV: the ends of a wavelength are positive. -/
def EdgeUnit.Converts (unit : EdgeUnit) (b : Bin α) : Prop :=
  unit.isWavelength = true → ¬ b.lo * unit.scale ≤ 0 ∧ ¬ b.hi * unit.scale ≤ 0

theorem binToKev_eq_ok {unit : EdgeUnit} {index : Nat} {b b' : Bin α} :
    unit.binToKev index b = .ok b' ↔ unit.Converts b ∧ b' = unit.toKev b := by
  constructor
  · intro h
    refine ⟨fun hwave => ?_, EdgeUnit.eq_toKev h⟩
    rw [EdgeUnit.binToKev, if_pos hwave] at h
    split at h
    · cases h
    · split at h
      · cases h
      · exact ⟨‹_›, ‹_›⟩
  · rintro ⟨hconverts, rfl⟩
    rw [EdgeUnit.binToKev, EdgeUnit.toKev]
    by_cases hwave : unit.isWavelength = true
    · obtain ⟨hlo, hhi⟩ := hconverts hwave
      simp only [if_pos hwave, if_neg hlo, if_neg hhi]
    · simp only [if_neg hwave]

/-- Bins are taken to keV if each of them can be, in whatever order. -/
theorem mapM_binToKev_eq_ok {unit : EdgeUnit} {bins bins' : List (Bin α)} (first : Nat) :
    (bins.zipIdx first).mapM (fun (b, index) => unit.binToKev index b) = .ok bins' ↔
      (∀ b ∈ bins, unit.Converts b) ∧ bins' = bins.map unit.toKev := by
  rw [Except.mapM_eq_ok]
  induction bins generalizing first bins' with
  | nil => simp
  | cons b bins ih =>
    rw [List.zipIdx_cons, List.forall₂_cons_left_iff]
    constructor
    · rintro ⟨b', rest, hb, hrest, rfl⟩
      obtain ⟨hconverts, rfl⟩ := binToKev_eq_ok.1 hb
      obtain ⟨hall, rfl⟩ := (ih (first + 1)).1 hrest
      exact ⟨List.forall_mem_cons.2 ⟨hconverts, hall⟩, rfl⟩
    · rintro ⟨hall, rfl⟩
      obtain ⟨hb, hrest⟩ := List.forall_mem_cons.1 hall
      exact ⟨_, _, binToKev_eq_ok.2 ⟨hb, rfl⟩, (ih (first + 1)).2 ⟨hrest, rfl⟩, rfl⟩

/-! ### The grid -/

omit [Scalar α] in
/-- The same grid, made of bins given from the other end. -/
def Canonical.flip (c : Canonical α) : Canonical α := { c with reversed := !c.reversed }

omit [Scalar α] in
/-- What is given along with bins comes into the same order from either end. -/
theorem arrange_flip_reverse {β : Type} (c : Canonical α) (values : List β) :
    c.flip.arrange values.reverse = c.arrange values := by
  unfold Canonical.flip Canonical.arrange
  cases c.reversed <;> simp

/-- The same edges are accepted from either end. -/
theorem alike_requireFinite_reverse (edges : List α) :
    Except.Alike Eq (requireFinite edges.reverse) (requireFinite edges) := by
  have hsame : requireFinite edges.reverse = .ok () ↔ requireFinite edges = .ok () := by
    simp only [requireFinite_eq_ok, List.mem_reverse]
  exact Except.alike_of_ok (fun _ h => ⟨(), hsame.2 h, rfl⟩) fun _ h => ⟨(), hsame.1 h⟩

/-- The same bins are taken to keV from either end. -/
theorem alike_mapM_binToKev_reverse (unit : EdgeUnit) (bins : List (Bin α)) :
    Except.Alike (fun ys zs => ys = zs.reverse ∧ zs = bins.map unit.toKev)
      (bins.reverse.zipIdx.mapM fun (b, index) => unit.binToKev index b)
      (bins.zipIdx.mapM fun (b, index) => unit.binToKev index b) := by
  refine Except.alike_of_ok (fun zs hzs => ?_) fun ys hys => ?_
  · obtain ⟨hall, rfl⟩ := (mapM_binToKev_eq_ok 0).1 hzs
    refine ⟨_, (mapM_binToKev_eq_ok 0).2 ⟨fun b hb => hall b (List.mem_reverse.1 hb), rfl⟩, ?_, rfl⟩
    rw [List.map_reverse]
  · obtain ⟨hall, -⟩ := (mapM_binToKev_eq_ok 0).1 hys
    exact ⟨_, (mapM_binToKev_eq_ok 0).2 ⟨fun b hb => hall b (List.mem_reverse.2 hb), rfl⟩⟩

/-- Bins with ends apart make the same grid from either end. -/
theorem canonicalize_reverse [Std.Asymm ((· < ·) : α → α → Prop)] {lo hi : List α} {unit : EdgeUnit}
    (h : EndsApart ((unit.binsInKev lo hi).map Bin.lo)) :
    Except.Alike (fun c' c => c' = c.flip) (canonicalize lo.reverse hi.reverse unit) (canonicalize lo hi unit) := by
  unfold canonicalize
  rw [List.length_reverse, List.length_reverse, List.isEmpty_reverse]
  by_cases hlen : lo.length = hi.length
  · rw [if_neg (not_not.2 hlen), if_neg (not_not.2 hlen)]
    refine .guard ((alike_requireFinite_reverse lo).bind fun _ _ _ => ?_)
    refine (alike_requireFinite_reverse hi).bind fun _ _ _ => ?_
    rw [← List.reverse_zipWith hlen]
    refine (alike_mapM_binToKev_reverse unit _).bind fun ys zs hys => ?_
    obtain ⟨rfl, rfl⟩ := hys
    have hdown : runsDown ((List.zipWith Bin.mk lo hi).map unit.toKev).reverse =
        !runsDown ((List.zipWith Bin.mk lo hi).map unit.toKev) := runsDown_reverse h
    rw [hdown, List.reverse_reverse]
    cases runsDown ((List.zipWith Bin.mk lo hi).map unit.toKev) with
    | false => exact .bind_self fun grid => .ok rfl
    | true => exact .bind_self fun grid => .ok rfl
  · rw [if_pos hlen, if_pos hlen]
    exact .error _ _

end SpectralResponse
