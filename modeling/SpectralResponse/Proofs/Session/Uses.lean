import SpectralResponse.Proofs.Arena
import SpectralResponse.Proofs.Session.Run
import Mathlib.Data.List.Perm.Basic

/-!
# Use counts

The pairs in the lists of the spectra name effective areas and matrices, and the slots of these count
their users. While pairs are exchanged, some are counted that stand in no list yet or any more; `Held`
allows for them.

## What is proved

* `Held.acquirePairs`, `Held.releasePairs` — pairs that name live products can be acquired, and pairs
  that are counted can be released: neither can stop in the middle.
* `Held.setRecord`, `Held.insertSpectrum`, `Held.removeSpectrum` — records may change as long as their pairs
  are counted.
-/

namespace SpectralResponse

variable {α β : Type}

/-- The pairs that a spectrum uses. -/
def SpectrumRecord.pairs (r : SpectrumRecord α) : List ResponsePair := r.assigned ++ r.fit

namespace Session

/-- The pairs that the spectra use. -/
def pairs (s : Session α) : List ResponsePair := s.spectra.values.flatMap SpectrumRecord.pairs

/-- The products of a pair are live. -/
def HasPair (s : Session α) (pair : ResponsePair) : Prop :=
  s.areas.contains pair.area = true ∧ s.matrices.contains pair.matrix = true

/-- The users of each effective area and each matrix are the pairs of the spectra and `extra`, and all
these pairs are live. -/
structure Held (s : Session α) (extra : List ResponsePair) : Prop where
  /-- The users of the effective areas. -/
  areas : s.areas.Holds ((s.pairs ++ extra).map ResponsePair.area)
  /-- The users of the matrices. -/
  matrices : s.matrices.Holds ((s.pairs ++ extra).map ResponsePair.matrix)

/-- The users of each effective area and each matrix are the pairs of the spectra, and all these pairs
are live. -/
def Balanced (s : Session α) : Prop := s.Held []

variable {s s' : Session α} {extra extra' pairs : List ResponsePair} {pair : ResponsePair}

/-! ### Pairs -/

/-- The record of a live spectrum cuts the pairs in two; what is put in its place stands between the
parts. -/
theorem exists_pairs_setSlot {id : SpectrumId} {slot : Slot (SpectrumRecord α)}
    (h : s.spectra.slot? id = some slot) :
    ∃ before after, s.pairs = before ++ (slot.value.pairs ++ after) ∧
      ∀ new?, { s with spectra := s.spectra.setSlot id new? }.pairs =
        before ++ ((new?.map fun new => new.value.pairs).getD [] ++ after) := by
  obtain ⟨before, after, hvalues, hset⟩ := Arena.exists_values_setSlot h
  refine ⟨before.flatMap SpectrumRecord.pairs, after.flatMap SpectrumRecord.pairs, ?_, fun new? => ?_⟩
  · simp [Session.pairs, hvalues]
  · cases new? <;> simp [Session.pairs, hset]

theorem mem_pairs_of_slot? {id : SpectrumId} {slot : Slot (SpectrumRecord α)}
    (h : s.spectra.slot? id = some slot) (hp : pair ∈ slot.value.pairs) : pair ∈ s.pairs :=
  List.mem_flatMap.2 ⟨slot.value, Arena.mem_values_iff.2 ⟨id, slot, h, rfl⟩, hp⟩

/-- The users of both products of a pair are counted anew, if neither count is refused. -/
theorem Yields.of_counted {f : Arena .area (EffectiveArea α) → Except SlotFault (Arena .area (EffectiveArea α))}
    {g : Arena .matrix (ResponseMatrix α) → Except SlotFault (Arena .matrix (ResponseMatrix α))}
    {areas : Arena .area (EffectiveArea α)} {matrices : Arena .matrix (ResponseMatrix α)}
    (hareas : f s.areas = .ok areas) (hmatrices : g s.matrices = .ok matrices) {answer : Except (Fault α) Unit}
    (y : Yields (do setAreas (← f (← get).areas); setMatrices (← g (← get).matrices)) s answer s') :
    answer = .ok () ∧ s' = { s with areas, matrices } := by
  rcases y.of_get_bind.of_slot_bind with ⟨fault, hf, -⟩ | ⟨areas', ha, y⟩
  · rw [hareas] at hf
    cases hf
  rw [hareas, Except.ok.injEq] at ha
  subst ha
  rcases y.of_modify_bind.of_get_bind.of_slot_bind with ⟨fault, hf, -⟩ | ⟨matrices', hm, y⟩
  · rw [hmatrices] at hf
    cases hf
  rw [hmatrices, Except.ok.injEq] at hm
  subst hm
  exact yields_modify.1 y

namespace Held

theorem perm (h : s.Held extra) (hp : extra.Perm extra') : s.Held extra' where
  areas := h.areas.perm ((hp.append_left _).map _)
  matrices := h.matrices.perm ((hp.append_left _).map _)

theorem hasPair (h : s.Held extra) (hp : pair ∈ s.pairs ++ extra) : s.HasPair pair :=
  ⟨h.areas.live _ (List.mem_map_of_mem hp), h.matrices.live _ (List.mem_map_of_mem hp)⟩

/-- The pairs of a live spectrum are live. -/
theorem hasPairs (h : s.Held extra) {id : SpectrumId} {slot : Slot (SpectrumRecord α)}
    (hs : s.spectra.slot? id = some slot) : ∀ pair ∈ slot.value.pairs, s.HasPair pair := fun _ hpair =>
  h.hasPair (List.mem_append_left _ (mem_pairs_of_slot? hs hpair))

/-- The record of a spectrum may be replaced if no pair is gained or lost. -/
theorem setRecord (h : s.Held extra) {id : SpectrumId} {slot slot' : Slot (SpectrumRecord α)}
    (hs : s.spectra.slot? id = some slot)
    (hp : (slot.value.pairs ++ extra).Perm (slot'.value.pairs ++ extra')) :
    { s with spectra := s.spectra.setSlot id (some slot') }.Held extra' := by
  obtain ⟨before, after, hpairs, hset⟩ := exists_pairs_setSlot hs
  have hall : (s.pairs ++ extra).Perm
      ({ s with spectra := s.spectra.setSlot id (some slot') }.pairs ++ extra') := by
    rw [hset, hpairs, Option.map_some, Option.getD_some]
    rw [List.perm_iff_count] at hp ⊢
    intro x
    have := hp x
    simp only [List.count_append] at this ⊢
    omega
  exact ⟨h.areas.perm (hall.map _), h.matrices.perm (hall.map _)⟩

/-- A spectrum without pairs may be taken in. -/
theorem insertSpectrum (h : s.Held extra) (r : SpectrumRecord α) (hr : r.pairs = []) (retained : Bool) :
    { s with spectra := (s.spectra.insert r retained).2 }.Held extra := by
  have hpairs : { s with spectra := (s.spectra.insert r retained).2 }.pairs = s.pairs := by
    simp [Session.pairs, Arena.values_insert, hr]
  constructor
  · rw [hpairs]
    exact h.areas
  · rw [hpairs]
    exact h.matrices

/-- A spectrum without pairs may be given away. -/
theorem removeSpectrum (h : s.Held extra) {id : SpectrumId} {slot : Slot (SpectrumRecord α)}
    (hs : s.spectra.slot? id = some slot) (hp : slot.value.pairs = []) :
    { s with spectra := s.spectra.setSlot id none }.Held extra := by
  obtain ⟨before, after, hpairs, hset⟩ := exists_pairs_setSlot hs
  have hsame : { s with spectra := s.spectra.setSlot id none }.pairs = s.pairs := by
    rw [hset, hpairs, hp]
    rfl
  constructor
  · rw [hsame]
    exact h.areas
  · rw [hsame]
    exact h.matrices

/-- Sweeping the arenas frees nothing that is counted. -/
theorem compact (h : s.Held extra) :
    { s with areas := s.areas.compact.2, matrices := s.matrices.compact.2 }.Held extra :=
  ⟨h.areas.compact, h.matrices.compact⟩

/-! ### Acquiring and releasing -/

/-- A pair of live products can be acquired. -/
theorem acquirePair (h : s.Held extra) (hl : s.HasPair pair) {answer : Except (Fault α) Unit}
    (y : Yields (acquirePair pair) s answer s') :
    answer = .ok () ∧ (∃ areas matrices, s' = { s with areas, matrices }) ∧ s'.Held (pair :: extra) ∧
      ∀ p, s.HasPair p → s'.HasPair p := by
  obtain ⟨areas, hareas⟩ := Arena.exists_acquire hl.1
  obtain ⟨matrices, hmatrices⟩ := Arena.exists_acquire hl.2
  obtain ⟨rfl, rfl⟩ :=
    Yields.of_counted (f := (·.acquire pair.area)) (g := (·.acquire pair.matrix)) hareas hmatrices y
  have hperm : (pair :: (s.pairs ++ extra)).Perm (s.pairs ++ pair :: extra) :=
    List.perm_middle.symm
  exact ⟨rfl, ⟨areas, matrices, rfl⟩,
    ⟨(h.areas.acquire hareas).perm (hperm.map _), (h.matrices.acquire hmatrices).perm (hperm.map _)⟩,
    fun p hp => ⟨Arena.contains_acquire hareas hp.1, Arena.contains_acquire hmatrices hp.2⟩⟩

theorem acquirePairs (h : s.Held extra) (hl : ∀ p ∈ pairs, s.HasPair p) {answer : Except (Fault α) Unit}
    (y : Yields (pairs.forM Session.acquirePair) s answer s') :
    answer = .ok () ∧ (∃ areas matrices, s' = { s with areas, matrices }) ∧ s'.Held (pairs ++ extra) := by
  induction pairs generalizing s extra with
  | nil =>
    obtain ⟨rfl, rfl⟩ := yields_pure.1 y
    exact ⟨rfl, ⟨_, _, rfl⟩, h⟩
  | cons pair pairs ih =>
    rcases Yields.of_bind y with ⟨fault, y, -⟩ | ⟨_, s₁, y, y'⟩
    · cases (h.acquirePair (hl pair List.mem_cons_self) y).1
    · obtain ⟨-, ⟨areas, matrices, rfl⟩, h₁, hkeep⟩ := h.acquirePair (hl pair List.mem_cons_self) y
      obtain ⟨hans, ⟨areas', matrices', rfl⟩, h₂⟩ :=
        ih h₁ (fun p hp => hkeep p (hl p (List.mem_cons_of_mem _ hp))) y'
      exact ⟨hans, ⟨areas', matrices', rfl⟩, h₂.perm List.perm_middle⟩

/-- A pair that is counted can be released. -/
theorem releasePair (h : s.Held (pair :: extra)) {answer : Except (Fault α) Unit}
    (y : Yields (releasePair pair) s answer s') :
    answer = .ok () ∧ (∃ areas matrices, s' = { s with areas, matrices }) ∧ s'.Held extra := by
  have hperm : (s.pairs ++ pair :: extra).Perm (pair :: (s.pairs ++ extra)) := List.perm_middle
  obtain ⟨areas, hareas, hholds⟩ := (h.areas.perm (hperm.map _)).release
  obtain ⟨matrices, hmatrices, hholds'⟩ := (h.matrices.perm (hperm.map _)).release
  obtain ⟨rfl, rfl⟩ :=
    Yields.of_counted (f := (·.release pair.area)) (g := (·.release pair.matrix)) hareas hmatrices y
  exact ⟨rfl, ⟨areas, matrices, rfl⟩, ⟨hholds, hholds'⟩⟩

theorem releasePairs (h : s.Held (pairs ++ extra)) {answer : Except (Fault α) Unit}
    (y : Yields (pairs.forM Session.releasePair) s answer s') :
    answer = .ok () ∧ (∃ areas matrices, s' = { s with areas, matrices }) ∧ s'.Held extra := by
  induction pairs generalizing s with
  | nil =>
    obtain ⟨rfl, rfl⟩ := yields_pure.1 y
    exact ⟨rfl, ⟨_, _, rfl⟩, h⟩
  | cons pair pairs ih =>
    rcases Yields.of_bind y with ⟨fault, y, -⟩ | ⟨_, s₁, y, y'⟩
    · cases (h.releasePair y).1
    · obtain ⟨-, ⟨areas, matrices, rfl⟩, h₁⟩ := h.releasePair y
      obtain ⟨hans, ⟨areas', matrices', rfl⟩, h₂⟩ := ih h₁ y'
      exact ⟨hans, ⟨areas', matrices', rfl⟩, h₂⟩

end Held

end Session

end SpectralResponse
