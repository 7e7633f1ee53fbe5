import SpectralResponse.Proofs.ResponseMatrix.Groups
import SpectralResponse.Proofs.Session.Steps

/-!
# Deriving the fit pairs anew

`refreshFit` derives the fit pairs of a spectrum from the assigned ones, which may breed ideal products,
counts them, puts them in the place of the old ones, lets go of those, and sweeps the arenas. Only the
derivation of the pairs can fail, and the channel moves at the end.

## What is proved

* `Yields.of_fitPairs` — the pairs for a fit name assigned products or newly bred ones.
* `Yields.of_fitExchange` — counting the new pairs and letting go of the old ones cannot fail.
* `Yields.of_refreshFit` — either the derivation stopped, with some unused ideal products left behind, or
  the fit pairs were exchanged (`Refreshed`) and the matrices are moved next.
-/

namespace SpectralResponse.Session

variable {α : Type} {s s' : Session α} {extra : List ResponsePair}

/-! ### Ideal products -/

section

variable [Scalar α]

/-- A matrix that counts each photon at its own energy, on some channels. -/
def Ideal (channels : Grid α) (m : ResponseMatrix α) : Prop :=
  ∃ energies ideal, (Redistribution.delta energies channels).Answers (.ok ideal) ∧
    m = .ofRedistribution ideal

/-- New products that nothing uses come behind those there are, the matrices ideal on some channels. -/
structure Bred (channels : Grid α) (s s' : Session α) : Prop where
  /-- The effective areas. -/
  areas : s.areas.Grows (fun _ => True) s'.areas
  /-- The matrices. -/
  matrices : s.matrices.Grows (Ideal channels) s'.matrices
  /-- Nothing else changes. -/
  rest : s' = { s with areas := s'.areas, matrices := s'.matrices }

variable {channels : Grid α} {pair : ResponsePair} {id : SpectrumId}

/-- An ideal matrix has the channels it was made for. -/
theorem channelCount_of_ideal {m : ResponseMatrix α} (h : Ideal channels m) :
    m.native.channelCount = channels.length := by
  obtain ⟨energies, ideal, hideal, rfl⟩ := h
  exact congrArg Grid.length (Redistribution.of_ofRawRows hideal).2.1

instance : Std.Refl (Bred channels) := ⟨fun _ => ⟨.refl _, .refl _, rfl⟩⟩

instance : IsTrans (Session α) (Bred channels) :=
  ⟨fun _ _ _ h h' => ⟨h.areas.trans h'.areas, h.matrices.trans h'.matrices, by rw [h'.rest, h.rest]⟩⟩

namespace Bred

theorem insertArea (curve : EffectiveArea α) : Keeps (Bred channels) (insertArea curve false) := by
  intro s answer s' y
  obtain ⟨-, rfl⟩ := y.of_insertArea
  exact ⟨.insert _ trivial, .refl _, rfl⟩

theorem insertMatrix {m : ResponseMatrix α} (h : Ideal channels m) :
    Keeps (Bred channels) (insertMatrix m false) := by
  intro s answer s' y
  obtain ⟨-, rfl⟩ := y.of_insertMatrix
  exact ⟨.refl _, .insert _ h, rfl⟩

theorem pairs (h : Bred channels s s') : s'.pairs = s.pairs := by rw [h.rest]; rfl

theorem spectra (h : Bred channels s s') : s'.spectra = s.spectra := by rw [h.rest]

theorem hasPair (h : Bred channels s s') (hp : s.HasPair pair) : s'.HasPair pair :=
  ⟨h.areas.contains hp.1, h.matrices.contains hp.2⟩

theorem held (h : Bred channels s s') (hh : s.Held extra) : s'.Held extra where
  areas := by
    rw [h.pairs]
    exact h.areas.holds hh.areas
  matrices := by
    rw [h.pairs]
    exact h.matrices.holds hh.matrices

end Bred

/-- The products of a fit pair are live, and each is one of the assigned ones or newer than `s`. -/
def PairDrawn (s s' : Session α) (assigned : List ResponsePair) (p : ResponsePair) : Prop :=
  s.areas.Drawn s'.areas (assigned.map ResponsePair.area) p.area ∧
    s.matrices.Drawn s'.matrices (assigned.map ResponsePair.matrix) p.matrix

variable {s₁ s₂ : Session α} {assigned : List ResponsePair}

/-- The products of a fit pair stay live while others are bred. -/
theorem PairDrawn.bred (h : PairDrawn s s₁ assigned pair) (hb : Bred channels s₁ s₂) :
    PairDrawn s s₂ assigned pair :=
  ⟨h.1.grow hb.areas, h.2.grow hb.matrices⟩

/-! ### The pairs for a fit -/

namespace Bred

/-- An ideal matrix is bred. -/
theorem delta (energies : Grid α) :
    Keeps (Bred channels) (do
      let ideal ← noted (Redistribution.delta energies channels)
      Session.insertMatrix (.ofRedistribution ideal) false) := by
  intro s answer s' y
  rcases y.of_bind with ⟨fault, y, -⟩ | ⟨ideal, s₁, y, y'⟩
  · rw [y.of_noted.1]
    exact Std.Refl.refl _
  · obtain ⟨rfl, hideal⟩ := y.of_noted
    exact insertMatrix ⟨energies, ideal, hideal, rfl⟩ _ _ _ y'

theorem unassignedPair : Keeps (Bred channels) (unassignedPair channels) := by
  refine .bind (insertArea _) fun area => ?_
  intro s answer s' y
  rcases y.of_bind with ⟨fault, y, -⟩ | ⟨ideal, s₁, y, y'⟩
  · rw [y.of_noted.1]
    exact Std.Refl.refl _
  · obtain ⟨rfl, hideal⟩ := y.of_noted
    exact Keeps.bind (insertMatrix ⟨channels, ideal, hideal, rfl⟩) (fun _ => .pure _) _ _ _ y'

theorem fitArea (pair : ResponsePair) : Keeps (Bred channels) (fitArea pair) := by
  refine .bind .get fun s => ?_
  split
  · exact .bind (.area _) fun _ => .bind (.matrix _) fun _ => .bind (.lift _) fun _ => insertArea _
  · exact .pure _

theorem fitMatrix (pair : ResponsePair) (areaId : AreaId) :
    Keeps (Bred channels) (fitMatrix channels pair areaId) := by
  refine .bind .get fun s => ?_
  split
  · exact .bind (.area _) fun _ => delta _
  · exact .pure _

theorem fitPair (pair : ResponsePair) : Keeps (Bred channels) (fitPair channels pair) :=
  .bind (fitArea _) fun _ => .bind (fitMatrix _ _) fun _ => .pure _

theorem fitPairs (assigned : List ResponsePair) : Keeps (Bred channels) (fitPairs channels assigned) := by
  unfold Session.fitPairs
  split
  · exact .bind unassignedPair fun _ => .pure _
  · exact .mapM fun _ _ => fitPair _

end Bred

/-- The pair that stands in is new. -/
theorem Yields.of_unassignedPair (y : Yields (unassignedPair channels) s (.ok pair) s') :
    PairDrawn s s' [] pair := by
  obtain ⟨area, s₁, y₁, z₁⟩ := y.of_bind_ok
  obtain ⟨harea, rfl⟩ := y₁.of_insertArea
  obtain ⟨ideal, s₂, y₂, z₂⟩ := z₁.of_bind_ok
  obtain ⟨rfl, -⟩ := y₂.of_noted
  obtain ⟨matrix, s₃, y₃, z₃⟩ := z₂.of_bind_ok
  obtain ⟨hmatrix, rfl⟩ := y₃.of_insertMatrix
  obtain ⟨h, rfl⟩ := yields_pure.1 z₃
  cases harea
  cases hmatrix
  cases h
  exact ⟨.insert (.refl (N := fun _ => True) _) _ _ _, .insert (.refl (N := fun _ => True) _) _ _ _⟩

theorem Yields.of_fitArea {areaId : AreaId} (y : Yields (fitArea pair) s (.ok areaId) s')
    (hl : s.HasPair pair) : s.areas.Drawn s'.areas [pair.area] areaId := by
  have y₀ := y.of_get_bind
  split at y₀
  · obtain ⟨curve, s₁, y₁, z₁⟩ := y₀.of_bind_ok
    obtain ⟨-, rfl⟩ := y₁.of_area
    obtain ⟨m, s₂, y₂, z₂⟩ := z₁.of_bind_ok
    obtain ⟨-, rfl⟩ := y₂.of_matrix
    dsimp only at z₂
    obtain ⟨ideal, s₃, y₃, z₃⟩ := z₂.of_bind_ok
    obtain ⟨-, rfl⟩ := yields_lift.1 y₃
    obtain ⟨h, rfl⟩ := z₃.of_insertArea
    cases h
    exact .insert (.refl (N := fun _ => True) _) _ _ _
  · obtain ⟨h, rfl⟩ := yields_pure.1 y₀
    cases h
    exact ⟨hl.1, .inl (List.mem_singleton_self _)⟩

theorem Yields.of_fitMatrix {areaId : AreaId} {matrixId : MatrixId}
    (y : Yields (fitMatrix channels pair areaId) s (.ok matrixId) s') (hl : s.HasPair pair) :
    s.matrices.Drawn s'.matrices [pair.matrix] matrixId := by
  have y₀ := y.of_get_bind
  split at y₀
  · obtain ⟨curve, s₁, y₁, z₁⟩ := y₀.of_bind_ok
    obtain ⟨-, rfl⟩ := y₁.of_area
    obtain ⟨ideal, s₂, y₂, z₂⟩ := z₁.of_bind_ok
    obtain ⟨rfl, -⟩ := y₂.of_noted
    obtain ⟨h, rfl⟩ := z₂.of_insertMatrix
    cases h
    exact .insert (.refl (N := fun _ => True) _) _ _ _
  · obtain ⟨h, rfl⟩ := yields_pure.1 y₀
    cases h
    exact ⟨hl.2, .inl (List.mem_singleton_self _)⟩

theorem Yields.of_fitPair {p : ResponsePair} (y : Yields (fitPair channels pair) s (.ok p) s')
    (hl : s.HasPair pair) : PairDrawn s s' [pair] p := by
  obtain ⟨areaId, s₁, y₁, y'⟩ := y.of_bind_ok
  obtain ⟨matrixId, s₂, y₂, y'⟩ := y'.of_bind_ok
  obtain ⟨h, rfl⟩ := yields_pure.1 y'
  cases h
  have hb₁ : Bred channels s s₁ := Bred.fitArea pair _ _ _ y₁
  have hb₂ : Bred channels s₁ s' := Bred.fitMatrix pair areaId _ _ _ y₂
  have hdrawn := y₂.of_fitMatrix (hb₁.hasPair hl)
  refine ⟨(y₁.of_fitArea hl).grow hb₂.areas, hdrawn.1, hdrawn.2.imp_right fun hle => ?_⟩
  exact Nat.le_trans hb₁.matrices.length_le hle

/-- What is drawn later, from fewer assigned pairs, is drawn from all of them. -/
theorem PairDrawn.weaken {assigned' : List ResponsePair} {p : ResponsePair}
    (h : PairDrawn s₁ s' assigned' p) (hb : Bred channels s s₁) (hsub : assigned' ⊆ assigned) :
    PairDrawn s s' assigned p :=
  ⟨⟨h.1.1, h.1.2.imp (List.map_subset _ hsub ·) (Nat.le_trans hb.areas.length_le)⟩,
    ⟨h.2.1, h.2.2.imp (List.map_subset _ hsub ·) (Nat.le_trans hb.matrices.length_le)⟩⟩

/-- The pairs for a fit name assigned products or new ones. -/
theorem Yields.of_fitPairs {fit : List ResponsePair}
    (y : Yields (fitPairs channels assigned) s (.ok fit) s') (hl : ∀ p ∈ assigned, s.HasPair p) :
    ∀ p ∈ fit, PairDrawn s s' assigned p := by
  unfold Session.fitPairs at y
  split at y
  · obtain ⟨pair, s₁, y₁, y⟩ := y.of_bind_ok
    obtain ⟨h, rfl⟩ := yields_pure.1 y
    cases h
    intro p hp
    have hb : Bred channels s s := Std.Refl.refl _
    rw [List.mem_singleton.1 hp]
    exact y₁.of_unassignedPair.weaken hb (List.nil_subset _)
  · rename_i hne
    clear hne
    induction assigned generalizing s fit with
    | nil =>
      obtain ⟨h, rfl⟩ := yields_pure.1 y
      cases h
      intro p hp
      cases hp
    | cons pair assigned ih =>
      rw [List.mapM_cons] at y
      obtain ⟨p, s₁, y₁, y'⟩ := y.of_bind_ok
      obtain ⟨fit', s₂, y₂, y'⟩ := y'.of_bind_ok
      obtain ⟨h, rfl⟩ := yields_pure.1 y'
      cases h
      have hb₁ : Bred channels s s₁ := Bred.fitPair pair _ _ _ y₁
      have hb₂ : Bred channels s₁ s' := Keeps.mapM (fun _ _ => Bred.fitPair _) _ _ _ y₂
      intro q hq
      rcases List.mem_cons.1 hq with rfl | hq
      · have hb : Bred channels s s := Std.Refl.refl _
        refine ((y₁.of_fitPair (hl pair List.mem_cons_self)).bred hb₂).weaken hb ?_
        exact List.cons_subset_cons _ (List.nil_subset _)
      · have hl' : ∀ p ∈ assigned, s₁.HasPair p := fun p hp => hb₁.hasPair (hl p (List.mem_cons_of_mem _ hp))
        exact (ih hl' y₂ q hq).weaken hb₁ (List.subset_cons_self _ _)

/-! ### Counting users -/

section

variable {N : EffectiveArea α → Prop} {M : ResponseMatrix α → Prop} {answer : Except (Fault α) Unit}

omit [Scalar α] in
/-- What is done to the users of both products of a pair is done to their slots only. -/
theorem Yields.of_counting {f : Arena .area (EffectiveArea α) → Except SlotFault (Arena .area (EffectiveArea α))}
    {g : Arena .matrix (ResponseMatrix α) → Except SlotFault (Arena .matrix (ResponseMatrix α))}
    (hf : ∀ a a', f a = .ok a' → a.Inherits Eq N a') (hg : ∀ a a', g a = .ok a' → a.Inherits Eq M a')
    (y : Yields (do setAreas (← f (← get).areas); setMatrices (← g (← get).matrices)) s answer s') :
    ∃ areas matrices, s' = { s with areas, matrices } ∧ s.areas.Inherits Eq N areas ∧
      s.matrices.Inherits Eq M matrices := by
  rcases y.of_get_bind.of_slot_bind with ⟨_, -, -, rfl⟩ | ⟨areas, ha, y₁⟩
  · exact ⟨_, _, rfl, .refl _, .refl _⟩
  rcases y₁.of_modify_bind.of_get_bind.of_slot_bind with ⟨_, -, -, rfl⟩ | ⟨matrices, hm, y₂⟩
  · exact ⟨_, _, rfl, hf _ _ ha, .refl _⟩
  · obtain ⟨-, rfl⟩ := yields_modify.1 y₂
    exact ⟨_, _, rfl, hf _ _ ha, hg _ _ hm⟩

omit [Scalar α] in
theorem Yields.of_acquirePair (y : Yields (acquirePair pair) s answer s') :
    ∃ areas matrices, s' = { s with areas, matrices } ∧ s.areas.Inherits Eq N areas ∧
      s.matrices.Inherits Eq M matrices :=
  of_counting (fun _ _ => .acquire) (fun _ _ => .acquire) y

omit [Scalar α] in
theorem Yields.of_releasePair (y : Yields (releasePair pair) s answer s') :
    ∃ areas matrices, s' = { s with areas, matrices } ∧ s.areas.Inherits Eq N areas ∧
      s.matrices.Inherits Eq M matrices :=
  of_counting (fun _ _ => .release) (fun _ _ => .release) y

end

/-! ### The exchange -/

/-- Slots come and go with their values unchanged; new matrices are ideal on some channels. -/
structure Exchanges (channels : Grid α) (s s' : Session α) : Prop where
  /-- The effective areas. -/
  areas : s.areas.Inherits Eq (fun _ => True) s'.areas
  /-- The matrices. -/
  matrices : s.matrices.Inherits Eq (Ideal channels) s'.matrices

instance : Std.Refl (Exchanges channels) := ⟨fun _ => ⟨.refl _, .refl _⟩⟩

instance : IsTrans (Session α) (Exchanges channels) :=
  ⟨fun _ _ _ h h' => ⟨h.areas.trans_eq h'.areas, h.matrices.trans_eq h'.matrices⟩⟩

theorem Bred.exchanges (h : Bred channels s s') : Exchanges channels s s' :=
  ⟨h.areas.inherits, h.matrices.inherits⟩

namespace Exchanges

/-- A matrix that is there has stood there before, or is new. -/
theorem matrices_origin (h : Exchanges channels s s') (id : MatrixId) (slot' : Slot (ResponseMatrix α))
    (hs' : s'.matrices.slot? id = some slot') :
    (∃ slot, s.matrices.slot? id = some slot ∧ slot.value = slot'.value) ∨
      s.matrices.slots.length ≤ id.index ∧ Ideal channels slot'.value := by
  rcases h.matrices.origin id slot' hs' with ⟨slot, hs, -, hvalue⟩ | ⟨hindex, -, hideal⟩
  · exact .inl ⟨slot, hs, hvalue⟩
  · exact .inr ⟨hindex, hideal⟩

theorem acquirePair (pair : ResponsePair) : Keeps (Exchanges channels) (acquirePair pair) := by
  intro s answer s' y
  obtain ⟨_, _, rfl, hareas, hmatrices⟩ := y.of_acquirePair
  exact ⟨hareas, hmatrices⟩

theorem releasePair (pair : ResponsePair) : Keeps (Exchanges channels) (releasePair pair) := by
  intro s answer s' y
  obtain ⟨_, _, rfl, hareas, hmatrices⟩ := y.of_releasePair
  exact ⟨hareas, hmatrices⟩

theorem compact : Keeps (Exchanges channels) compact := by
  intro s answer s' y
  rw [y.of_compact.2]
  exact ⟨.compact _, .compact _⟩

/-- Spectra do not concern the products. -/
theorem of_products (hareas : s'.areas = s.areas) (hmatrices : s'.matrices = s.matrices) :
    Exchanges channels s s' := ⟨hareas ▸ .refl _, hmatrices ▸ .refl _⟩

end Exchanges

/-- Pairs that are counted can be let go, and the rest goes on with what that leaves. -/
theorem Held.of_releasePairs_bind {β : Type} {pairs extra : List ResponsePair} {f : Unit → SessionM α β}
    {answer : Except (Fault α) β} (h : s.Held (pairs ++ extra))
    (y : Yields (pairs.forM Session.releasePair >>= f) s answer s') :
    ∃ areas matrices, { s with areas, matrices }.Held extra ∧
      (∀ channels, Exchanges channels s { s with areas, matrices }) ∧
      Yields (f ()) { s with areas, matrices } answer s' := by
  rcases y.of_bind with ⟨fault, z, -⟩ | ⟨⟨⟩, s₁, z, y₁⟩
  · cases (h.releasePairs z).1
  have hexchanges : ∀ channels, Exchanges channels s s₁ := fun _ =>
    Keeps.forM (fun _ _ => Exchanges.releasePair _) _ _ _ z
  obtain ⟨-, ⟨areas, matrices, rfl⟩, hheld⟩ := h.releasePairs z
  exact ⟨areas, matrices, hheld, hexchanges, y₁⟩

/-- The spectrum `id`, which stood in `slot`, has the pairs `fit` for fits; the products were exchanged
accordingly. -/
structure Refreshed (s : Session α) (id : SpectrumId) (slot : Slot (SpectrumRecord α))
    (fit : List ResponsePair) (s' : Session α) : Prop where
  /-- Where the spectrum stood. -/
  found : s.spectra.slot? id = some slot
  /-- Only its fit pairs are others. -/
  spectra : s'.spectra = s.spectra.setSlot id (some { slot with value := { slot.value with fit } })
  /-- The pairs were derived first, and their products were there; after that products only came and went. -/
  derived : ∃ s₀, Yields (fitPairs slot.value.spectrum.observed.grid slot.value.assigned) s (.ok fit) s₀ ∧
    (∀ p ∈ slot.value.assigned ++ fit, s₀.HasPair p) ∧ Exchanges slot.value.spectrum.observed.grid s₀ s'
  /-- The products are assigned or new ones. -/
  drawn : ∀ p ∈ fit, (p.area ∈ slot.value.assigned.map ResponsePair.area ∨
      s.areas.slots.length ≤ p.area.index) ∧
    (p.matrix ∈ slot.value.assigned.map ResponsePair.matrix ∨ s.matrices.slots.length ≤ p.matrix.index)
  /-- The users are counted again. -/
  balanced : s'.Balanced
  /-- What nothing uses was freed. -/
  tidyAreas : s'.areas.Tidy
  /-- What nothing uses was freed. -/
  tidyMatrices : s'.matrices.Tidy
  /-- Values stay, and new matrices are ideal on the observed bins. -/
  exchanges : Exchanges slot.value.spectrum.observed.grid s s'
  /-- The configuration stays. -/
  config : s'.config = s.config

/-- The new fit pairs of a spectrum are counted and put in the place of the old ones, and these are let go. What nothing
uses then is freed, and the matrices are moved next. -/
theorem Yields.of_fitExchange {id : SpectrumId} {slot : Slot (SpectrumRecord α)} {fit : List ResponsePair}
    {answer : Except (Fault α) Unit} (hheld : s.Held []) (hs : s.spectra.slot? id = some slot)
    (hfit : ∀ p ∈ fit, s.HasPair p)
    (y : Yields (do
      fit.forM acquirePair
      let record ← record id
      putRecord id { record with fit }
      slot.value.fit.forM releasePair
      let _ ← Session.compact
      forgetGrid
      syncMatrices id) s answer s') :
    ∃ s₁, s₁.Balanced ∧ s₁.areas.Tidy ∧ s₁.matrices.Tidy ∧ s₁.config = s.config ∧
      s₁.spectra = s.spectra.setSlot id (some { slot with value := { slot.value with fit } }) ∧
      (∀ channels, Exchanges channels s s₁) ∧ Yields (syncMatrices id) s₁ answer s' := by
  -- the new pairs are counted before they stand in the list
  rcases y.of_bind with ⟨fault, z, -⟩ | ⟨_, s₁, z₁, y₁⟩
  · cases (hheld.acquirePairs hfit z).1
  have hacquired (channels : Grid α) : Exchanges channels s s₁ :=
    Keeps.forM (fun _ _ => Exchanges.acquirePair _) _ _ _ z₁
  obtain ⟨-, ⟨areas₁, matrices₁, rfl⟩, hheld₁⟩ := hheld.acquirePairs hfit z₁
  obtain ⟨s₂, hs₂, y₂⟩ := (y₁.of_live_record hs).of_putRecord_bind hs
  have hheld₂ : s₂.Held (slot.value.fit ++ []) := by
    rw [hs₂]
    refine hheld₁.setRecord hs ?_
    simp only [SpectrumRecord.pairs, List.append_nil, List.append_assoc]
    exact List.perm_append_comm.append_left _
  -- the old pairs are let go
  obtain ⟨areas₃, matrices₃, hheld₃, hreleased, y₃⟩ := hheld₂.of_releasePairs_bind y₂
  obtain ⟨_, s₄, hs₄, y₄⟩ := y₃.of_compact_bind
  have hb₄ : s₄.Balanced := by
    rw [hs₄]
    exact ⟨hheld₃.compact.areas, hheld₃.compact.matrices⟩
  have hexchanges (channels : Grid α) : Exchanges channels s s₄ := by
    have hput : Exchanges channels { s with areas := areas₁, matrices := matrices₁ } s₂ :=
      .of_products (by rw [hs₂]) (by rw [hs₂])
    refine IsTrans.trans _ _ _ (hacquired channels) (IsTrans.trans _ _ _ hput ?_)
    refine IsTrans.trans _ _ _ (hreleased channels) ?_
    rw [hs₄]
    exact ⟨.compact _, .compact _⟩
  refine ⟨{ s₄ with cache := .empty }, ⟨hb₄.areas, hb₄.matrices⟩, ?_, ?_, by rw [hs₄, hs₂], by rw [hs₄, hs₂],
    fun channels => ⟨(hexchanges channels).areas, (hexchanges channels).matrices⟩, y₄.of_modify_bind⟩
  · rw [hs₄]
    exact Arena.tidy_compact
  · rw [hs₄]
    exact Arena.tidy_compact

/-- Either the derivation of the pairs stopped, with unused products left behind at most, or the pairs
were exchanged, and the matrices are moved next. -/
theorem Yields.of_refreshFit {id : SpectrumId} {answer : Except (Fault α) Unit} (hb : s.Balanced)
    (y : Yields (refreshFit id) s answer s') :
    (∃ fault channels, answer = .error fault ∧ Bred channels s s') ∨
      ∃ slot fit s₁, Refreshed s id slot fit s₁ ∧ Yields (syncMatrices id) s₁ answer s' := by
  rcases y.of_record_bind with ⟨fault, -, rfl, rfl⟩ | ⟨slot, hs, y₁⟩
  · exact .inl ⟨fault, ⟨[]⟩, rfl, Std.Refl.refl _⟩
  rcases y₁.of_bind with ⟨fault, z, rfl⟩ | ⟨fit, s₁, z₁, y₂⟩
  · exact .inl ⟨fault, _, rfl, Bred.fitPairs _ _ _ _ z⟩
  have hbred := Bred.fitPairs _ _ _ _ z₁
  have hassigned : ∀ p ∈ slot.value.assigned, s.HasPair p := fun p hp =>
    hb.hasPair (by
      rw [List.append_nil]
      exact mem_pairs_of_slot? hs (List.mem_append_left _ hp))
  have hdrawn := z₁.of_fitPairs hassigned
  have hfit : ∀ p ∈ fit, s₁.HasPair p := fun p hp => ⟨(hdrawn p hp).1.1, (hdrawn p hp).2.1⟩
  have hs₁ : s₁.spectra.slot? id = some slot := by rw [hbred.spectra, hs]
  obtain ⟨s₂, hb₂, htidyAreas, htidyMatrices, hconfig, hspectra, hexchanges, y₃⟩ :=
    y₂.of_fitExchange (hbred.held hb) hs₁ hfit
  refine .inr ⟨slot, fit, s₂, ?_, y₃⟩
  exact {
    found := hs
    spectra := by rw [hspectra, hbred.spectra]
    derived := by
      refine ⟨s₁, z₁, fun p hp => ?_, hexchanges _⟩
      rcases List.mem_append.1 hp with hp | hp
      · exact hbred.hasPair (hassigned p hp)
      · exact hfit p hp
    drawn := fun p hp => ⟨(hdrawn p hp).1.2, (hdrawn p hp).2.2⟩
    balanced := hb₂
    tidyAreas := htidyAreas
    tidyMatrices := htidyMatrices
    exchanges := IsTrans.trans _ _ _ hbred.exchanges (hexchanges _)
    config := hconfig.trans (by rw [hbred.rest]) }

end

end SpectralResponse.Session
