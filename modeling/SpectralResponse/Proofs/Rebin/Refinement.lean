import SpectralResponse.Proofs.Rebin.Coverage
import SpectralResponse.Proofs.Rebin.Union
import Mathlib.Data.List.Sort

/-!
# The common refinement

The union of some grids cuts each of their bins into pieces that touch one another, and it has no other pieces. So
it covers what the grids cover, and it has their edges and no others. Which grids there are decides it, and not how
often or in which order they are given.

## What is proved

* `Bin.IsCutInto.countP_contains` — an energy of a bin lies in one of its pieces, and no other energy does.
* `isCutInto_segments` — a bin between two cuts is cut into the pieces between them.
* `exists_isCutInto` — these pieces stand side by side in the union.
* `union_is_common_refinement` — what the union of ordered grids is.
-/

namespace SpectralResponse

variable {K : Type} [Field K] [LinearOrder K] [FloorRing K] [Roots K]

/-! ### A bin in pieces -/

section

omit [Field K] [FloorRing K] [Roots K]

/-- The pieces touch one another, from the start of the bin to its end. -/
inductive Bin.IsCutInto : Bin K → List (Bin K) → Prop where
  /-- The bin is in one piece. -/
  | whole {b : Bin K} (h : b.lo < b.hi) : b.IsCutInto [b]
  /-- The first piece ends where the others start. -/
  | cut {lo place hi : K} {pieces : List (Bin K)} (h : lo < place) (rest : (⟨place, hi⟩ : Bin K).IsCutInto pieces) :
      (⟨lo, hi⟩ : Bin K).IsCutInto (⟨lo, place⟩ :: pieces)

namespace Bin.IsCutInto

variable {b : Bin K} {pieces : List (Bin K)}

theorem positive (h : b.IsCutInto pieces) : b.lo < b.hi := by
  induction h with
  | whole h => exact h
  | cut h rest ih => exact h.trans ih

/-- The first piece starts where the bin does. -/
theorem exists_lo (h : b.IsCutInto pieces) : ∃ piece ∈ pieces, piece.lo = b.lo := by
  cases h with
  | whole h => exact ⟨b, List.mem_cons_self, rfl⟩
  | cut h rest => exact ⟨_, List.mem_cons_self, rfl⟩

/-- The last piece ends where the bin does. -/
theorem exists_hi (h : b.IsCutInto pieces) : ∃ piece ∈ pieces, piece.hi = b.hi := by
  induction h with
  | whole h => exact ⟨_, List.mem_cons_self, rfl⟩
  | cut h rest ih =>
    obtain ⟨piece, hpiece, hhi⟩ := ih
    exact ⟨piece, List.mem_cons_of_mem _ hpiece, hhi⟩

/-- The pieces lie within the bin. -/
theorem inside (h : b.IsCutInto pieces) :
    ∀ piece ∈ pieces, b.lo ≤ piece.lo ∧ piece.lo < piece.hi ∧ piece.hi ≤ b.hi := by
  induction h with
  | whole h => exact List.forall_mem_singleton.2 ⟨le_refl _, h, le_refl _⟩
  | cut h rest ih =>
    refine List.forall_mem_cons.2 ⟨⟨le_refl _, h, rest.positive.le⟩, fun piece hpiece => ?_⟩
    obtain ⟨hlo, hin⟩ := ih piece hpiece
    exact ⟨h.le.trans hlo, hin⟩

end Bin.IsCutInto

end

/-- An energy of the bin lies in one piece, and any other in none. -/
theorem Bin.IsCutInto.countP_contains {b : Bin K} {pieces : List (Bin K)} (h : b.IsCutInto pieces) (energy : K) :
    pieces.countP (·.contains energy) = if b.contains energy then 1 else 0 := by
  induction h with
  | whole h => rw [List.countP_singleton]
  | cut h rest ih =>
    -- an energy of the bin lies in front of the place or not
    have hrest := rest.positive
    rw [List.countP_cons, ih]
    simp only [contains_iff]
    grind

theorem Bin.IsCutInto.covers_iff {b : Bin K} {pieces : List (Bin K)} (h : b.IsCutInto pieces) {energy : K} :
    Covers pieces energy ↔ b.lo ≤ energy ∧ energy < b.hi := by
  rw [← countP_pos_iff_covers, h.countP_contains, ← contains_iff]
  split <;> simp [*]

/-! ### The pieces between two cuts -/

namespace Grid

section

omit [FloorRing K] [Roots K] [Field K]

variable {edges : List K} {lo hi : K}

omit [LinearOrder K] in
theorem segments_append_cons (before after : List K) (edge : K) :
    segments (before ++ edge :: after) = segments (before ++ [edge]) ++ segments (edge :: after) := by
  induction before with
  | nil => rfl
  | cons first before ih =>
    cases before with
    | nil => rfl
    | cons second before => exact congrArg (⟨first, second⟩ :: ·) ih

/-- A bin whose edges are the first and the last cut is cut into all pieces. -/
theorem isCutInto_segments {between : List K} (h : (lo :: (between ++ [hi])).Pairwise (· < ·)) :
    (⟨lo, hi⟩ : Bin K).IsCutInto (segments (lo :: (between ++ [hi]))) := by
  induction between generalizing lo with
  | nil => exact .whole ((List.pairwise_cons.1 h).1 hi List.mem_cons_self)
  | cons place between ih =>
    obtain ⟨hlo, hrest⟩ := List.pairwise_cons.1 h
    exact .cut (hlo place List.mem_cons_self) (ih hrest)

/-- A bin between two cuts is cut into pieces that stand side by side. -/
theorem exists_isCutInto_segments (h : edges.Pairwise (· < ·)) (hlo : lo ∈ edges) (hhi : hi ∈ edges) (hlt : lo < hi) :
    ∃ pieces, pieces <:+: segments edges ∧ (⟨lo, hi⟩ : Bin K).IsCutInto pieces := by
  obtain ⟨before, rest, rfl⟩ := List.append_of_mem hlo
  obtain ⟨-, hrest, hbefore⟩ := List.pairwise_append.1 h
  have hlater : hi ∈ rest := by
    rcases List.mem_append.1 hhi with hmem | hmem
    · exact absurd (hbefore hi hmem lo List.mem_cons_self) hlt.not_gt
    · exact (List.mem_cons.1 hmem).resolve_left hlt.ne'
  obtain ⟨between, after, rfl⟩ := List.append_of_mem hlater
  rw [← List.cons_append, List.append_cons] at hrest
  refine ⟨_, ⟨segments (before ++ [lo]), segments (hi :: after), ?_⟩,
    isCutInto_segments (List.pairwise_append.1 hrest).1⟩
  calc segments (before ++ [lo]) ++ segments (lo :: (between ++ [hi])) ++ segments (hi :: after)
      = segments (before ++ [lo]) ++ (segments (lo :: (between ++ [hi])) ++ segments (hi :: after)) :=
        List.append_assoc _ _ _
    _ = segments (before ++ [lo]) ++ segments (lo :: (between ++ hi :: after)) :=
        congrArg _ (segments_append_cons (lo :: between) after hi).symm
    _ = segments (before ++ lo :: (between ++ hi :: after)) := (segments_append_cons before _ lo).symm

end

/-! ### The bins of a union -/

variable {grids : List (Grid K)} {g : Grid K}

/-- The pieces that the union keeps. -/
def keptPieces (grids : List (Grid K)) : List (Bin K) :=
  (segments (cuts grids)).filter fun piece => isCovered (grids.map fun g => g.bins.toArray) (middle piece)

variable [IsStrictOrderedRing K]

/-- Each kept piece lies within a bin of a grid. -/
theorem inside_of_mem_keptPieces (horder : ∀ g ∈ grids, g.Ordered) (hapart : EdgesApart grids) {piece : Bin K}
    (hpiece : piece ∈ keptPieces grids) : ∃ g ∈ grids, ∃ b ∈ g.bins, b.lo ≤ piece.lo ∧ piece.hi ≤ b.hi := by
  obtain ⟨hpiece, hkept⟩ := List.mem_filter.1 hpiece
  obtain ⟨g, hg, b, hb, hlo, hhi⟩ := (isCovered_iff horder).1 hkept
  have huncut := uncut_of_mem hapart hg hb hpiece
  obtain ⟨hafter, hbefore⟩ := middle_mem huncut.positive
  refine ⟨g, hg, b, hb, ?_, ?_⟩
  · exact huncut.lo.resolve_right (hlo.trans_lt hbefore).not_ge
  · exact huncut.hi.resolve_left (hafter.trans hhi).not_ge

/-- The pieces of a bin stand side by side in the union. -/
theorem exists_isCutInto (horder : ∀ g ∈ grids, g.Ordered) (hapart : EdgesApart grids) (hg : g ∈ grids) {b : Bin K}
    (hb : b ∈ g.bins) : ∃ pieces, pieces <:+: keptPieces grids ∧ b.IsCutInto pieces := by
  obtain ⟨hstrict, hcuts⟩ := cuts_spec hapart
  obtain ⟨pieces, hinside, hcut⟩ := exists_isCutInto_segments hstrict ((hcuts _).2 (lo_mem_allEdges hg hb))
    ((hcuts _).2 (hi_mem_allEdges hg hb)) ((horder g hg).positive b hb)
  -- all of them are kept
  have hkept := List.filter_eq_self.2 fun piece hpiece =>
    have ⟨hlo, hpositive, hhi⟩ := hcut.inside piece hpiece
    isCovered_of_mem hg (horder g hg) hb hpositive hlo hhi
  have hfiltered := hinside.filter fun piece => isCovered (grids.map fun g => g.bins.toArray) (middle piece)
  rw [hkept] at hfiltered
  exact ⟨pieces, hfiltered, hcut⟩

theorem ordered_keptPieces (hapart : EdgesApart grids) : (⟨keptPieces grids⟩ : Grid K).Ordered := by
  obtain ⟨hstrict, -⟩ := cuts_spec hapart
  exact ⟨fun piece hpiece => (segment_of_mem hstrict (List.mem_of_mem_filter hpiece)).2.2.1,
    ((apart_segments hstrict).filter _).isChain⟩

/-- The union covers what the grids cover. -/
theorem covers_keptPieces (horder : ∀ g ∈ grids, g.Ordered) (hapart : EdgesApart grids) (energy : K) :
    Covers (keptPieces grids) energy ↔ ∃ g ∈ grids, Covers g.bins energy := by
  constructor
  · rintro ⟨piece, hpiece, hlo, hhi⟩
    obtain ⟨g, hg, b, hb, hstart, hend⟩ := inside_of_mem_keptPieces horder hapart hpiece
    exact ⟨g, hg, b, hb, hstart.trans hlo, hhi.trans_le hend⟩
  · rintro ⟨g, hg, b, hb, hin⟩
    obtain ⟨pieces, hinside, hcut⟩ := exists_isCutInto horder hapart hg hb
    obtain ⟨piece, hpiece, hpieceIn⟩ := hcut.covers_iff.2 hin
    exact ⟨piece, hinside.subset hpiece, hpieceIn⟩

omit [IsStrictOrderedRing K] [Field K] [LinearOrder K] [FloorRing K] [Roots K] in
/-- An edge of some grids starts a bin or ends one. -/
theorem mem_allEdges {edge : K} : edge ∈ allEdges grids ↔ ∃ g ∈ grids, ∃ b ∈ g.bins, b.lo = edge ∨ b.hi = edge := by
  simp only [allEdges, List.mem_flatMap, List.mem_append, los, his, List.mem_map]
  exact exists_congr fun g => and_congr_right fun _ => by simp only [and_or_left, exists_or]

/-- The union has the edges of the grids. -/
theorem mem_allEdges_keptPieces (horder : ∀ g ∈ grids, g.Ordered) (hapart : EdgesApart grids) (edge : K) :
    edge ∈ allEdges [⟨keptPieces grids⟩] ↔ edge ∈ allEdges grids := by
  rw [mem_allEdges]
  constructor
  · rintro ⟨g, hg, piece, hpiece, hedge⟩
    obtain rfl := List.mem_singleton.1 hg
    obtain ⟨hstrict, hcuts⟩ := cuts_spec hapart
    obtain ⟨hlo, hhi, -⟩ := segment_of_mem hstrict (List.mem_of_mem_filter hpiece)
    rcases hedge with rfl | rfl
    · exact (hcuts _).1 hlo
    · exact (hcuts _).1 hhi
  · rw [mem_allEdges]
    rintro ⟨g, hg, b, hb, hedge⟩
    obtain ⟨pieces, hinside, hcut⟩ := exists_isCutInto horder hapart hg hb
    rcases hedge with rfl | rfl
    · obtain ⟨piece, hpiece, he⟩ := hcut.exists_lo
      exact ⟨_, List.mem_singleton_self _, piece, hinside.subset hpiece, .inl he⟩
    · obtain ⟨piece, hpiece, he⟩ := hcut.exists_hi
      exact ⟨_, List.mem_singleton_self _, piece, hinside.subset hpiece, .inr he⟩

/-- Which grids there are decides the pieces, and not how often or in which order they are given. -/
theorem keptPieces_congr (hapart : EdgesApart grids) {others : List (Grid K)} (hsame : ∀ g, g ∈ others ↔ g ∈ grids) :
    keptPieces others = keptPieces grids := by
  obtain ⟨hstrict, hcuts⟩ := cuts_spec hapart
  obtain ⟨hstrict', hcuts'⟩ := cuts_spec (hapart.subset fun g hg => (hsame g).1 hg)
  have hedges : cuts others = cuts grids := by
    refine hstrict'.eq_of_mem_iff hstrict fun edge => ?_
    simp only [hcuts, hcuts', mem_allEdges, hsame]
  have hcovered (value : K) : isCovered (others.map fun g => g.bins.toArray) value =
      isCovered (grids.map fun g => g.bins.toArray) value := by
    rw [Bool.eq_iff_iff, isCovered, isCovered, List.any_eq_true, List.any_eq_true]
    simp only [List.mem_map, hsame]
  rw [keptPieces, keptPieces, hedges]
  exact List.filter_congr fun piece _ => hcovered _

/-- The union of ordered grids, no two edges of which are as close as rounding can take them, covers what the grids
cover and has their edges and no others. Each bin of theirs is cut into pieces that stand side by side in it, and the
same grids in another order or repeated have the same union. -/
theorem union_is_common_refinement (hne : ∃ g ∈ grids, g.bins ≠ []) (horder : ∀ g ∈ grids, g.Ordered)
    (hapart : EdgesApart grids) :
    ∃ refined, Grid.union grids = .ok refined ∧ refined.Ordered ∧
      (∀ energy, Covers refined.bins energy ↔ ∃ g ∈ grids, Covers g.bins energy) ∧
      (∀ edge, edge ∈ allEdges [refined] ↔ edge ∈ allEdges grids) ∧
      (∀ g ∈ grids, ∀ b ∈ g.bins, ∃ pieces, pieces <:+: refined.bins ∧ b.IsCutInto pieces) ∧
      ∀ others, (∀ g, g ∈ others ↔ g ∈ grids) → Grid.union others = .ok refined := by
  have hordered := ordered_keptPieces hapart
  have hkept : keptPieces grids ≠ [] := by
    obtain ⟨g, hg, hbins⟩ := hne
    obtain ⟨b, hb⟩ := List.exists_mem_of_ne_nil _ hbins
    obtain ⟨pieces, hinside, hcut⟩ := exists_isCutInto horder hapart hg hb
    obtain ⟨piece, hpiece, -⟩ := hcut.exists_lo
    exact List.ne_nil_of_mem (hinside.subset hpiece)
  have hunion : Grid.union grids = .ok ⟨keptPieces grids⟩ := hordered.ofBins_eq_ok hkept
  refine ⟨⟨keptPieces grids⟩, hunion, hordered, covers_keptPieces horder hapart,
    mem_allEdges_keptPieces horder hapart, fun g hg b hb => exists_isCutInto horder hapart hg hb, ?_⟩
  intro others hsame
  have hothers : Grid.union others = ofBins (keptPieces others) := rfl
  rw [hothers, keptPieces_congr hapart hsame]
  exact hunion

/-- Two bins that touch. -/
def adjacent : Grid ℚ := ⟨[⟨1, 2⟩, ⟨2, 3⟩]⟩

/-- A bin across the place where they touch, and one behind a gap. -/
def straddling : Grid ℚ := ⟨[⟨3 / 2, 5 / 2⟩, ⟨5, 6⟩]⟩

theorem straddling_bins_are_refined :
    ∃ refined, Grid.union [adjacent, straddling] = .ok refined ∧
      Grid.union [straddling, adjacent, straddling] = .ok refined ∧
      Covers refined.bins (11 / 4) ∧ ¬Covers refined.bins 4 ∧ 5 / 2 ∈ allEdges [refined] ∧
      ∃ pieces, pieces <:+: refined.bins ∧ (⟨3 / 2, 5 / 2⟩ : Bin ℚ).IsCutInto pieces := by
  have hne : ∃ g ∈ [adjacent, straddling], g.bins ≠ [] := ⟨adjacent, List.mem_cons_self, List.cons_ne_nil _ _⟩
  have horder : ∀ g ∈ [adjacent, straddling], g.Ordered := by
    intro g hg
    rcases List.mem_cons.1 hg with rfl | hg
    · exact ⟨by decide +kernel, by decide +kernel⟩
    · obtain rfl := List.mem_singleton.1 hg
      exact ⟨by decide +kernel, by decide +kernel⟩
  have hapart : EdgesApart [adjacent, straddling] := by
    unfold EdgesApart
    decide +kernel
  obtain ⟨refined, hunion, -, hcovers, hedges, hcut, hsame⟩ := union_is_common_refinement hne horder hapart
  refine ⟨refined, hunion, hsame _ (by simp), (hcovers _).2 ?_, fun h => ?_, (hedges _).2 (by decide +kernel),
    hcut straddling (by simp) _ List.mem_cons_self⟩
  · exact ⟨adjacent, by simp, ⟨2, 3⟩, by simp [adjacent], by norm_num⟩
  · have hnone : ∀ g ∈ [adjacent, straddling], ∀ b ∈ g.bins, ¬(b.lo ≤ 4 ∧ 4 < b.hi) := by decide +kernel
    obtain ⟨g, hg, b, hb, hin⟩ := (hcovers _).1 h
    exact hnone g hg b hb hin

end Grid

end SpectralResponse
