import SpectralResponse.Proofs.Grid.Ordered
import SpectralResponse.Proofs.Grid.Reversed
import SpectralResponse.Proofs.Scalar.Rational
import Mathlib.Tactic.NormNum
import Mathlib.Tactic.Positivity

/-!
# Grids written in a unit and read back

The edges of a grid are written in a unit by `Grid.edgesIn` and read by `canonicalize`. A wavelength swaps the
ends of each bin and turns the order of the bins around, on the way out and on the way in, and the reader finds
the direction from the first and the last bin alone. For bins in order this is enough.

## What is proved

* `canonicalize_eq_ok` — what edges must satisfy to be read, and what they are read as.
* `canonicalize_kev` — a grid that was read is read again as it is, whatever was read.
* `toKev_ofKev` — a bin that is taken to a unit is taken back to where it was.
* `Ordered.edgesIn` — the edges stand in order in the unit.
* `Grid.written_edges_are_read_back` — all of this for any unit.
-/

namespace SpectralResponse

/-! ### What is read -/

section

variable {α : Type} [Scalar α]

/-- Edges are read if there are as many of both kinds, one at least, all finite, the bins can be taken to keV, and
these pass validation in the order that was found. -/
theorem canonicalize_eq_ok {lo hi : List α} {unit : EdgeUnit} {c : Canonical α} :
    canonicalize lo hi unit = .ok c ↔
      lo.length = hi.length ∧ lo ≠ [] ∧ (∀ e ∈ lo, Scalar.isFinite e = true) ∧
        (∀ e ∈ hi, Scalar.isFinite e = true) ∧ (∀ b ∈ List.zipWith Bin.mk lo hi, unit.Converts b) ∧
        c.reversed = runsDown (unit.binsInKev lo hi) ∧
        Grid.ofBins (turn c.reversed (unit.binsInKev lo hi)) = .ok c.grid := by
  constructor
  · intro h
    obtain ⟨hlen, h⟩ := Except.guard_eq_ok.1 h
    obtain ⟨hne, h⟩ := Except.guard_eq_ok.1 h
    obtain ⟨⟨⟩, hlo, h⟩ := Except.bind_eq_ok.1 h
    obtain ⟨⟨⟩, hhi, h⟩ := Except.bind_eq_ok.1 h
    obtain ⟨bins, hbins, h⟩ := Except.bind_eq_ok.1 h
    obtain ⟨grid, hgrid, h⟩ := Except.bind_eq_ok.1 h
    cases Except.ok.inj h
    obtain ⟨hconverts, rfl⟩ := (mapM_binToKev_eq_ok 0).1 hbins
    exact ⟨not_not.1 hlen, fun hnil => hne (List.isEmpty_iff.2 hnil), requireFinite_eq_ok.1 hlo,
      requireFinite_eq_ok.1 hhi, hconverts, rfl, hgrid⟩
  · rintro ⟨hlen, hne, hlo, hhi, hconverts, hreversed, hgrid⟩
    have hsome : ¬(lo.isEmpty = true) := fun hnil => hne (List.isEmpty_iff.1 hnil)
    have hbins := (mapM_binToKev_eq_ok 0).2 ⟨hconverts, rfl⟩
    refine Except.guard_eq_ok.2 ⟨not_not.2 hlen, Except.guard_eq_ok.2 ⟨hsome, ?_⟩⟩
    refine Except.bind_eq_ok.2 ⟨(), requireFinite_eq_ok.2 hlo, Except.bind_eq_ok.2 ⟨(), requireFinite_eq_ok.2 hhi, ?_⟩⟩
    refine Except.bind_eq_ok.2 ⟨_, hbins, ?_⟩
    rw [hreversed] at hgrid
    refine Except.bind_eq_ok.2 ⟨c.grid, hgrid, ?_⟩
    rw [← EdgeUnit.binsInKev, ← hreversed]
    rfl

/-! ### What was read is read again -/

omit [Scalar α] in
/-- The edges of a list of bins make these bins. -/
theorem zipWith_edges (bins : List (Bin α)) : List.zipWith Bin.mk (bins.map Bin.lo) (bins.map Bin.hi) = bins := by
  rw [List.zipWith_map, List.zipWith_self]
  exact List.map_id' bins

theorem finite_of_checkFrom {bins : List (Bin α)} {index : Nat} {previousHi? : Option α}
    (h : Grid.checkFrom index previousHi? bins = .ok ()) :
    ∀ b ∈ bins, Scalar.isFinite b.lo = true ∧ Scalar.isFinite b.hi = true := by
  induction bins generalizing index previousHi? with
  | nil => exact fun b hb => absurd hb List.not_mem_nil
  | cons b bins ih =>
    obtain ⟨⟨⟩, hb, h⟩ := Except.bind_eq_ok.1 h
    obtain ⟨hlo, hb⟩ := Except.guard_eq_ok.1 hb
    obtain ⟨hhi, -⟩ := Except.guard_eq_ok.1 hb
    exact List.forall_mem_cons.2 ⟨⟨by simpa using hlo, by simpa using hhi⟩, ih h⟩

/-- The edges of a grid that passes validation are finite. -/
theorem Grid.Valid.finite {g : Grid α} (h : g.Valid) :
    ∀ b ∈ g.bins, Scalar.isFinite b.lo = true ∧ Scalar.isFinite b.hi = true := by
  obtain ⟨-, h⟩ := Except.guard_eq_ok.1 h
  obtain ⟨⟨⟩, h, -⟩ := Except.bind_eq_ok.1 h
  exact finite_of_checkFrom h

/-- Bins that run downwards do not do so when they are turned around. -/
theorem runsDown_turn [Std.Asymm ((· < ·) : α → α → Prop)] (bins : List (Bin α)) :
    runsDown (turn (runsDown bins) bins) = false := by
  cases hdown : runsDown bins with
  | false => exact hdown
  | true =>
    match bins, hdown with
    | first :: rest, hdown =>
      rw [runsDown] at hdown
      obtain ⟨last, hlast, hlt⟩ := (Option.any_eq_true _ _).1 hdown
      have hlt : last.lo < first.lo := of_decide_eq_true hlt
      have hapart : EndsApart ((first :: rest).map Bin.lo) := by
        refine ⟨first.lo, last.lo, rfl, ?_, .inr hlt⟩
        rw [List.getLast?_map, List.getLast?_cons, hlast]
        rfl
      have hfirst : (first :: rest).getLast? = some last := by
        rw [List.getLast?_cons, hlast]
        rfl
      show runsDown (first :: rest).reverse = false
      rw [runsDown_reverse hapart, runsDown_eq rfl hfirst, decide_eq_true hlt]
      rfl

/-- A grid that was read from edges is read from its own edges as it is, and not turned around. -/
theorem canonicalize_kev [Std.Asymm ((· < ·) : α → α → Prop)] [Std.LawfulRightIdentity (α := α) (· * ·) 1]
    {lo hi : List α} {unit : EdgeUnit} {c : Canonical α} (h : canonicalize lo hi unit = .ok c) :
    canonicalize c.grid.los c.grid.his .kev = .ok ⟨c.grid, false⟩ := by
  have hvalid := Grid.valid_of_canonicalize h
  obtain ⟨-, hne, -, hbins⟩ := bins_of_canonicalize h
  obtain ⟨-, -, -, -, -, hreversed, -⟩ := canonicalize_eq_ok.1 h
  have hkev : EdgeUnit.kev.binsInKev c.grid.los c.grid.his = c.grid.bins := binsInKev_kev c.grid.bins
  refine canonicalize_eq_ok.2 ⟨?_, ?_, ?_, ?_, fun b _ hwave => ?_, ?_, ?_⟩
  · rw [Grid.los, Grid.his, List.length_map, List.length_map]
  · intro hnil
    obtain ⟨hsome, -⟩ := Except.guard_eq_ok.1 hvalid
    exact hsome (List.isEmpty_iff.2 (List.map_eq_nil_iff.1 hnil))
  · exact List.forall_mem_map.2 fun b hb => (hvalid.finite b hb).1
  · exact List.forall_mem_map.2 fun b hb => (hvalid.finite b hb).2
  · cases hwave
  · rw [hkev, hbins, hreversed, runsDown_turn]
  · rw [hkev]
    exact hvalid

end

/-! ### A bin in a unit -/

variable {K : Type} [Field K] [LinearOrder K] [FloorRing K] [Roots K]

namespace EdgeUnit

/-- A bin in keV, taken to a unit. -/
def ofKev (unit : EdgeUnit) (b : Bin K) : Bin K :=
  if unit.isWavelength then ⟨kevAngstrom / b.hi / unit.scale, kevAngstrom / b.lo / unit.scale⟩
  else ⟨b.lo / unit.scale, b.hi / unit.scale⟩

/-- Both ends of the bin have a value in the unit: only a positive energy has a wavelength. -/
def Expresses (unit : EdgeUnit) (b : Bin K) : Prop := unit.isWavelength = true → 0 < b.lo ∧ 0 < b.hi

variable [IsStrictOrderedRing K] {unit : EdgeUnit} {a b : Bin K}

theorem scale_pos (unit : EdgeUnit) : (0 : K) < unit.scale := by
  cases unit <;> simp only [scale] <;> norm_num

theorem kevAngstrom_pos : (0 : K) < kevAngstrom := by
  rw [kevAngstrom]
  norm_num

/-- The energy of the wavelength of an energy is that energy. -/
theorem energy_of_wavelength (unit : EdgeUnit) (energy : K) :
    kevAngstrom / (kevAngstrom / energy / unit.scale * unit.scale) = energy := by
  rw [div_mul_cancel₀ _ (scale_pos unit).ne', div_div_cancel₀ kevAngstrom_pos.ne']

/-- A bin that is taken to a unit is taken back to where it was. -/
theorem toKev_ofKev (unit : EdgeUnit) (b : Bin K) : unit.toKev (unit.ofKev b) = b := by
  rw [toKev, ofKev]
  split
  · rw [energy_of_wavelength, energy_of_wavelength]
  · rw [div_mul_cancel₀ _ (scale_pos unit).ne', div_mul_cancel₀ _ (scale_pos unit).ne']

/-- A bin that is taken to a unit can be taken back. -/
theorem converts_ofKev (h : unit.Expresses b) : unit.Converts (unit.ofKev b) := by
  intro hwave
  obtain ⟨hlo, hhi⟩ := h hwave
  have hscale : (0 : K) < unit.scale := scale_pos unit
  have hproduct : (0 : K) < kevAngstrom := kevAngstrom_pos
  rw [ofKev, if_pos hwave, not_le, not_le]
  constructor <;> positivity

/-- A bin that is not empty is not empty in the unit. -/
theorem ofKev_positive (h : unit.Expresses b) (hb : b.lo < b.hi) : (unit.ofKev b).lo < (unit.ofKev b).hi := by
  rw [ofKev]
  split
  · rename_i hwave
    obtain ⟨hlo, -⟩ := h hwave
    exact div_lt_div_of_pos_right (div_lt_div_of_pos_left kevAngstrom_pos hlo hb) (scale_pos unit)
  · exact div_lt_div_of_pos_right hb (scale_pos unit)

/-- Of two bins the lower one has the higher wavelengths. -/
theorem ofKev_apart (ha : unit.Expresses a) (hab : a.hi ≤ b.lo) :
    if unit.isWavelength then (unit.ofKev b).hi ≤ (unit.ofKev a).lo
    else (unit.ofKev a).hi ≤ (unit.ofKev b).lo := by
  simp only [ofKev]
  split
  · rename_i hwave
    obtain ⟨-, hhi⟩ := ha hwave
    exact div_le_div_of_nonneg_right (div_le_div_of_nonneg_left kevAngstrom_pos.le hhi hab) (scale_pos unit).le
  · exact div_le_div_of_nonneg_right hab (scale_pos unit).le

end EdgeUnit

namespace Grid

variable {g : Grid K} {unit : EdgeUnit}

/-! ### Writing edges -/

/-- The bins are written in the order in which they ascend in the unit. -/
theorem edgesIn_eq_turn (g : Grid K) (unit : EdgeUnit) :
    g.edgesIn unit = turn unit.isWavelength (g.bins.map unit.ofKev) := by
  rw [edgesIn, turn]
  split
  · rename_i hwave
    rw [← List.map_reverse]
    exact List.map_congr_left fun b _ => (if_pos hwave).symm
  · rename_i hwave
    exact List.map_congr_left fun b _ => (if_neg hwave).symm

variable [IsStrictOrderedRing K]

/-- The bins that are written are read as they were. -/
theorem binsInKev_edgesIn (g : Grid K) (unit : EdgeUnit) :
    unit.binsInKev ((g.edgesIn unit).map Bin.lo) ((g.edgesIn unit).map Bin.hi) =
      turn unit.isWavelength g.bins := by
  rw [EdgeUnit.binsInKev, zipWith_edges, edgesIn_eq_turn]
  have hsame : (g.bins.map unit.ofKev).map unit.toKev = g.bins := by
    rw [List.map_map]
    exact (List.map_congr_left fun b _ => EdgeUnit.toKev_ofKev unit b).trans (List.map_id _)
  cases unit.isWavelength with
  | false => exact hsame
  | true =>
    show (g.bins.map unit.ofKev).reverse.map unit.toKev = g.bins.reverse
    rw [List.map_reverse, hsame]

namespace Ordered

omit [IsStrictOrderedRing K] [FloorRing K] [Roots K] [Field K] in
/-- Each bin starts above the start of those before it. -/
theorem ascends (h : g.Ordered) : Ascends g.bins :=
  h.pairwise.imp_of_mem fun ha _ hab => (h.positive _ ha).trans_le hab

/-- The edges that are written stand in order. -/
theorem edgesIn (h : g.Ordered) (hreach : ∀ b ∈ g.bins, unit.Expresses b) :
    (⟨g.edgesIn unit⟩ : Grid K).Ordered := by
  refine ⟨fun b hb => ?_, ?_⟩
  · have hmem : b ∈ g.bins.map unit.ofKev := by
      rw [edgesIn_eq_turn, turn] at hb
      split at hb
      · exact List.mem_reverse.1 hb
      · exact hb
    obtain ⟨original, horiginal, rfl⟩ := List.mem_map.1 hmem
    exact EdgeUnit.ofKev_positive (hreach original horiginal) (h.positive original horiginal)
  · have hapart : g.bins.IsChain fun a b =>
        if unit.isWavelength then (unit.ofKev b).hi ≤ (unit.ofKev a).lo
        else (unit.ofKev a).hi ≤ (unit.ofKev b).lo :=
      h.apart.imp_of_mem_imp fun a b ha _ hab => EdgeUnit.ofKev_apart (hreach a ha) hab
    show (g.edgesIn unit).IsChain _
    rw [edgesIn_eq_turn]
    cases hwave : unit.isWavelength with
    | false =>
      simp only [hwave] at hapart
      exact (List.isChain_map _).2 hapart
    | true =>
      simp only [hwave] at hapart
      exact List.isChain_reverse.2 ((List.isChain_map _).2 hapart)

end Ordered

/-! ### Reading them back -/

namespace Ordered

omit [IsStrictOrderedRing K]

/-- Bins in order do not run downwards. -/
theorem runsDown_eq_false (h : g.Ordered) : runsDown g.bins = false := by
  have hascends := h.ascends
  generalize g.bins = bins at hascends
  cases bins with
  | nil => rfl
  | cons first rest =>
    rw [runsDown, Bool.eq_false_iff, ne_eq, Option.any_eq_true]
    rintro ⟨last, hlast, hlt⟩
    have hlow : first.lo < last.lo := (List.pairwise_cons.1 hascends).1 last (List.mem_of_getLast? hlast)
    exact hlow.asymm (of_decide_eq_true hlt)

/-- Bins in order are found to run downwards if they were turned around and there are two of them at least. -/
theorem runsDown_turn (h : g.Ordered) (down : Bool) :
    runsDown (turn down g.bins) = (down && decide (1 < g.length)) := by
  cases down with
  | false => exact h.runsDown_eq_false
  | true =>
    have hup := h.runsDown_eq_false
    have hascends := h.ascends
    rw [Grid.length]
    match g.bins, hup, hascends with
    | [], _, _ => rfl
    | [_], _, _ => rfl
    | first :: second :: rest, hup, hascends =>
      have hturned : runsDown (turn true (first :: second :: rest)) = !runsDown (first :: second :: rest) :=
        runsDown_reverse (endsApart_of_ascends (.inl hascends))
      rw [hturned, hup]
      simp

end Ordered

/-- Reading the written edges gives the grid back, and tells that it was turned around if it was and has two bins
at least. -/
theorem Ordered.canonicalize_edgesIn (h : g.Ordered) (hne : g.bins ≠ []) (hreach : ∀ b ∈ g.bins, unit.Expresses b) :
    canonicalize ((g.edgesIn unit).map Bin.lo) ((g.edgesIn unit).map Bin.hi) unit =
      .ok ⟨g, unit.isWavelength && decide (1 < g.length)⟩ := by
  refine canonicalize_eq_ok.2 ⟨?_, ?_, fun e _ => Scalar.isFinite_exact e, fun e _ => Scalar.isFinite_exact e,
    ?_, ?_, ?_⟩
  · rw [List.length_map, List.length_map]
  · rw [edgesIn_eq_turn, ne_eq, List.map_eq_nil_iff, ← List.length_eq_zero_iff, length_turn, List.length_map,
      List.length_eq_zero_iff]
    exact hne
  · rw [zipWith_edges, edgesIn_eq_turn]
    intro b hb
    have hmem : b ∈ g.bins.map unit.ofKev := mem_turn.1 hb
    obtain ⟨original, horiginal, rfl⟩ := List.mem_map.1 hmem
    exact EdgeUnit.converts_ofKev (hreach original horiginal)
  · rw [binsInKev_edgesIn, h.runsDown_turn]
  · rw [binsInKev_edgesIn, ← h.runsDown_turn, turn_runsDown_turn (.inl h.ascends), h.runsDown_eq_false]
    exact h.ofBins_eq_ok hne

/-- The edges of a grid in order, written in a unit, stand in order in that unit. Read in the same unit they give
exactly that grid, and it is reported that the bins were turned around if the unit is a wavelength and there are two
bins at least. A grid that was read, from whatever edges and in whatever unit, is read from its own edges in keV as
it is. -/
theorem written_edges_are_read_back (h : g.Ordered) (hne : g.bins ≠ [])
    (hpositive : unit.isWavelength = true → ∀ b ∈ g.bins, 0 < b.lo ∧ 0 < b.hi) :
    (⟨g.edgesIn unit⟩ : Grid K).Ordered ∧
      canonicalize ((g.edgesIn unit).map Bin.lo) ((g.edgesIn unit).map Bin.hi) unit =
        .ok ⟨g, unit.isWavelength && decide (1 < g.length)⟩ ∧
      ∀ (lo hi : List K) (unit' : EdgeUnit) (c : Canonical K), canonicalize lo hi unit' = .ok c →
        canonicalize c.grid.los c.grid.his .kev = .ok ⟨c.grid, false⟩ := by
  have hreach : ∀ b ∈ g.bins, unit.Expresses b := fun b hb hwave => hpositive hwave b hb
  exact ⟨h.edgesIn hreach, h.canonicalize_edgesIn hne hreach, fun _ _ _ _ hread => canonicalize_kev hread⟩

namespace Spaced

/-- Three bins with a gap. -/
def grid : Grid ℚ := ⟨[⟨1, 2⟩, ⟨2, 3⟩, ⟨5, 8⟩]⟩

theorem ordered : grid.Ordered := ⟨by decide +kernel, by decide +kernel⟩

end Spaced

/-- The bins are written in nanometres and read back, and so is what electronvolts in descending order were read as. -/
theorem nanometres_are_read_back :
    Spaced.grid.Ordered ∧ (∀ b ∈ Spaced.grid.bins, 0 < b.lo ∧ 0 < b.hi) ∧
      (⟨Spaced.grid.edgesIn .nm⟩ : Grid ℚ).Ordered ∧
      canonicalize ((Spaced.grid.edgesIn .nm).map Bin.lo) ((Spaced.grid.edgesIn .nm).map Bin.hi) .nm =
        .ok ⟨Spaced.grid, true⟩ ∧
      canonicalize [(5000 : ℚ), 2000, 1000] [8000, 3000, 2000] .ev = .ok ⟨Spaced.grid, true⟩ ∧
      canonicalize [(1 : ℚ), 2, 5] [2, 3, 8] .kev = .ok ⟨Spaced.grid, false⟩ := by
  have hpositive : ∀ b ∈ Spaced.grid.bins, 0 < b.lo ∧ 0 < b.hi := by decide +kernel
  have hread : canonicalize [(5000 : ℚ), 2000, 1000] [8000, 3000, 2000] .ev = .ok ⟨Spaced.grid, true⟩ :=
    Except.toOption_eq_some.1 (by decide +kernel)
  have hnm : EdgeUnit.nm.isWavelength = true → ∀ b ∈ Spaced.grid.bins, 0 < b.lo ∧ 0 < b.hi := fun _ => hpositive
  obtain ⟨hordered, hback, hagain⟩ := written_edges_are_read_back Spaced.ordered (by decide) hnm
  exact ⟨Spaced.ordered, hpositive, hordered, hback, hread, hagain _ _ _ _ hread⟩

end Grid

end SpectralResponse
