import SpectralResponse.Proofs.Session.Balance
import SpectralResponse.Scalar.Double

/-!
# Lifetimes

When a product is live. While every operation of a run succeeds, this can be read off the history: which
products were taken in, which were released, and which were given away.

## What is proved

* `Arena.Accounts` — an arena whose slots agree with what was added, released and deleted, and its
  lemmas for each change of a slot.
* `Ledger.step` — each operation that succeeds keeps the arenas in agreement with the history.
* `uses_counted_and_nothing_leaks` — after any run, use counts are numbers of pairs and pairs are live;
  and if nothing failed, a product is live exactly as long as it is to be kept or is named by a pair.
-/

namespace SpectralResponse

/-! ### Slots and what became of them -/

namespace Arena

variable {β : Type} {kind : ProductKind} {a a' : Arena kind β} {id : Handle kind}
  {added released deleted added' released' deleted' : Handle kind → Prop}

/-- The handle was given to a slot. Slots keep their places for ever, empty or not, and the next handle
goes to the next place. -/
def Issued (a : Arena kind β) (id : Handle kind) : Prop := id.index < a.slots.length

/-- The slots agree with what was added, released and deleted. -/
structure Accounts (a : Arena kind β) (added released deleted : Handle kind → Prop) : Prop where
  /-- What something happened to was issued. -/
  issued : ∀ id, added id ∨ released id ∨ deleted id → a.Issued id
  /-- What was added and not released is retained. -/
  retained : ∀ id slot, a.slot? id = some slot → (slot.retained = true ↔ added id ∧ ¬ released id)
  /-- What was deleted is gone. -/
  gone : ∀ id slot, a.slot? id = some slot → ¬ deleted id
  /-- What was added, and not released or deleted, is live. -/
  kept : ∀ id, added id → ¬ released id → ¬ deleted id → a.contains id = true
  /-- What is neither used nor retained is gone. -/
  tidy : a.Tidy

namespace Accounts

theorem empty : (Arena.empty : Arena kind β).Accounts (fun _ => False) (fun _ => False) fun _ => False where
  issued _ h := by simp at h
  retained _ _ hs := by rw [slot?_empty] at hs; cases hs
  gone _ _ hs := by rw [slot?_empty] at hs; cases hs
  kept _ h := h.elim
  tidy := tidy_empty

theorem congr (h : a.Accounts added released deleted) (hadded : ∀ id, added' id ↔ added id)
    (hreleased : ∀ id, released' id ↔ released id) (hdeleted : ∀ id, deleted' id ↔ deleted id) :
    a.Accounts added' released' deleted' := by
  obtain rfl : added' = added := funext fun id => propext (hadded id)
  obtain rfl : released' = released := funext fun id => propext (hreleased id)
  obtain rfl : deleted' = deleted := funext fun id => propext (hdeleted id)
  exact h

/-- Slots that are inherited agree with what the old ones agreed with. -/
theorem inherits {V : β → β → Prop} {N : β → Prop} (h : a.Accounts added released deleted)
    (hi : a.Inherits V N a') (ht : a'.Tidy) : a'.Accounts added released deleted where
  issued id hid := Nat.lt_of_lt_of_le (h.issued id hid) hi.issued
  retained id slot' hs := by
    rcases hi.origin id slot' hs with ⟨slot, hslot, hr, -⟩ | ⟨hnew, hr, -⟩
    · rw [← hr, h.retained id slot hslot]
    · have hnot : ¬ added id := fun ha => absurd (h.issued id (.inl ha)) (Nat.not_lt.2 hnew)
      simp [hr, hnot]
  gone id slot' hs := by
    rcases hi.origin id slot' hs with ⟨slot, hslot, -, -⟩ | ⟨hnew, -, -⟩
    · exact h.gone id slot hslot
    · exact fun hd => absurd (h.issued id (.inr (.inr hd))) (Nat.not_lt.2 hnew)
  kept id ha hr hd := by
    obtain ⟨slot, hs⟩ := contains_iff.1 (h.kept id ha hr hd)
    exact hi.kept id slot hs ((h.retained id slot hs).2 ⟨ha, hr⟩)
  tidy := ht

/-- A new retained slot is an added one. -/
theorem insert (h : a.Accounts added released deleted) (value : β) :
    (a.insert value true).2.Accounts (fun id => added id ∨ id = (a.insert value true).1) released
      deleted := by
  have hlength : (a.insert value true).2.slots.length = a.slots.length + 1 := by simp [Arena.insert]
  have hfresh : ¬ a.Issued (a.insert value true).1 := by simp [Issued, Arena.insert]
  constructor
  · intro id hid
    rw [Issued, hlength]
    by_cases hnew : id = (a.insert value true).1
    · rw [hnew]
      simp [Arena.insert]
    · have hold : added id ∨ released id ∨ deleted id := by simpa [hnew] using hid
      exact Nat.lt_succ_of_lt (h.issued id hold)
  · intro id slot hs
    rcases slot?_insert_cases hs with ⟨rfl, rfl⟩ | ⟨hnew, hs⟩
    · have hnot : ¬ released (a.insert value true).1 := fun hr => hfresh (h.issued _ (.inr (.inl hr)))
      simp [hnot]
    · simp [h.retained id slot hs, hnew]
  · intro id slot hs
    rcases slot?_insert_cases hs with ⟨rfl, -⟩ | ⟨-, hs⟩
    · exact fun hd => hfresh (h.issued _ (.inr (.inr hd)))
    · exact h.gone id slot hs
  · intro id ha hr hd
    rcases ha with ha | rfl
    · exact contains_insert value true (h.kept id ha hr hd)
    · exact contains_iff.2 ⟨_, slot?_insert_self value true⟩
  · intro id slot hs
    rcases slot?_insert_cases hs with ⟨rfl, rfl⟩ | ⟨-, hs⟩
    · simp [Slot.isIdle]
    · exact h.tidy id slot hs

/-- A slot that is not to be retained any more is released, and idle slots are swept away. -/
theorem release (h : a.Accounts added released deleted) (hset : a.setRetained id false = .ok a') :
    a'.compact.2.Accounts added (fun other => released other ∨ other = id) deleted := by
  obtain ⟨slot, hs, rfl⟩ := setRetained_eq_ok_iff.1 hset
  have hlive : ∀ other slot', (a.setSlot id (some { slot with retained := false })).compact.2.slot? other =
      some slot' → (other = id ∧ slot'.retained = false) ∨ other ≠ id ∧ a.slot? other = some slot' := by
    intro other slot' hs'
    rw [slot?_compact, Option.filter_eq_some_iff] at hs'
    exact (slot?_setSlot_cases hs hs'.1).imp_left fun hnew => ⟨hnew.1, by rw [← hnew.2]⟩
  constructor
  · intro other hother
    rw [Issued, slots_length_compact, slots_length_setSlot]
    by_cases hid : other = id
    · rw [hid]
      exact index_lt_of_slot? hs
    · have hold : added other ∨ released other ∨ deleted other := by simpa [hid] using hother
      exact h.issued other hold
  · intro other slot' hs'
    rcases hlive other slot' hs' with ⟨rfl, hr⟩ | ⟨hid, hslot⟩
    · simp [hr]
    · simp [h.retained other slot' hslot, hid]
  · intro other slot' hs'
    rcases hlive other slot' hs' with ⟨rfl, hr⟩ | ⟨hid, hslot⟩
    · exact h.gone other slot hs
    · exact h.gone other slot' hslot
  · intro other ha hr hd
    obtain ⟨hr, hid⟩ := not_or.1 hr
    obtain ⟨slot', hs'⟩ := contains_iff.1 (h.kept other ha hr hd)
    refine contains_iff.2 ⟨slot', ?_⟩
    rw [slot?_compact, slot?_setSlot_of_ne hid, hs', Option.filter_eq_some_iff]
    exact ⟨rfl, by simp [Slot.isIdle, (h.retained other slot' hs').2 ⟨ha, hr⟩]⟩
  · exact tidy_compact

/-- A slot that is removed is deleted. -/
theorem remove (h : a.Accounts added released deleted) {value : β}
    (hremove : a.remove id = .ok (value, a')) :
    a'.Accounts added released fun other => deleted other ∨ other = id := by
  obtain ⟨slot, hs, -, -, rfl⟩ := remove_eq_ok_iff.1 hremove
  have hlive : ∀ other slot', (a.setSlot id none).slot? other = some slot' →
      other ≠ id ∧ a.slot? other = some slot' := by
    intro other slot' hs'
    by_cases hid : other = id
    · subst hid
      rw [slot?_setSlot_self hs] at hs'
      cases hs'
    · rw [slot?_setSlot_of_ne hid] at hs'
      exact ⟨hid, hs'⟩
  constructor
  · intro other hother
    rw [Issued, slots_length_setSlot]
    by_cases hid : other = id
    · rw [hid]
      exact index_lt_of_slot? hs
    · have hold : added other ∨ released other ∨ deleted other := by simpa [hid] using hother
      exact h.issued other hold
  · intro other slot' hs'
    exact h.retained other slot' (hlive other slot' hs').2
  · intro other slot' hs'
    obtain ⟨hid, hslot⟩ := hlive other slot' hs'
    simp [h.gone other slot' hslot, hid]
  · intro other ha hr hd
    obtain ⟨hd, hid⟩ := not_or.1 hd
    obtain ⟨slot', hs'⟩ := contains_iff.1 (h.kept other ha hr hd)
    exact contains_iff.2 ⟨slot', by rw [slot?_setSlot_of_ne hid, hs']⟩
  · intro other slot' hs'
    exact h.tidy other slot' (hlive other slot' hs').2

/-- What is live, in terms of what was done and of what is named. -/
theorem contains_iff (h : a.Accounts added released deleted) {names : List (Handle kind)}
    (hn : a.Holds names) :
    a.contains id = true ↔ a.Issued id ∧ ¬ deleted id ∧ ((added id ∧ ¬ released id) ∨ id ∈ names) := by
  constructor
  · intro hlive
    obtain ⟨slot, hs⟩ := Arena.contains_iff.1 hlive
    refine ⟨index_lt_of_slot? hs, h.gone id slot hs, ?_⟩
    by_cases hr : slot.retained = true
    · exact .inl ((h.retained id slot hs).1 hr)
    · have hbusy := h.tidy id slot hs
      simp only [Slot.isIdle, hr, Bool.not_false, Bool.and_true, beq_eq_false_iff_ne] at hbusy
      rw [hn.counts id slot hs] at hbusy
      exact .inr (List.count_pos_iff.1 (Nat.pos_of_ne_zero hbusy))
  · rintro ⟨-, hd, ⟨ha, hr⟩ | hname⟩
    · exact h.kept id ha hr hd
    · exact hn.live id hname

end Accounts

end Arena

namespace Session

variable {α β : Type} {s s' : Session α}

/-! ### Operations that settle -/

/-- Nothing comes to be retained, and what is retained stays. -/
structure Persists (s s' : Session α) : Prop where
  /-- The effective areas. -/
  areas : s.areas.Inherits (fun _ _ => True) (fun _ => True) s'.areas
  /-- The matrices. -/
  matrices : s.matrices.Inherits (fun _ _ => True) (fun _ => True) s'.matrices

/-- Nothing comes to be retained, what is retained stays, and what is idle goes. -/
structure Settles (s s' : Session α) : Prop extends Persists s s' where
  /-- No effective area becomes idle and stays. -/
  tidyAreas : s.areas.Tidy → s'.areas.Tidy
  /-- No matrix becomes idle and stays. -/
  tidyMatrices : s.matrices.Tidy → s'.matrices.Tidy

theorem Persists.refl (s : Session α) : Persists s s where
  areas := (Arena.Inherits.refl _).mono (fun _ _ _ => trivial) fun _ h => h
  matrices := (Arena.Inherits.refl _).mono (fun _ _ _ => trivial) fun _ h => h

theorem Persists.trans {s₁ s₂ s₃ : Session α} (h : Persists s₁ s₂) (h' : Persists s₂ s₃) :
    Persists s₁ s₃ where
  areas := h.areas.trans h'.areas (fun _ _ _ _ _ => trivial) fun _ _ _ _ => trivial
  matrices := h.matrices.trans h'.matrices (fun _ _ _ _ _ => trivial) fun _ _ _ _ => trivial

theorem SameHoldings.settles (h : SameHoldings s s') : Settles s s' :=
  ⟨⟨h.areas.inherits, h.matrices.inherits⟩, h.areas.tidy, h.matrices.tidy⟩

theorem Settles.trans {s₁ s₂ s₃ : Session α} (h : Settles s₁ s₂) (h' : Settles s₂ s₃) : Settles s₁ s₃ where
  toPersists := h.toPersists.trans h'.toPersists
  tidyAreas ht := h'.tidyAreas (h.tidyAreas ht)
  tidyMatrices ht := h'.tidyMatrices (h.tidyMatrices ht)

section

variable [Scalar α]

theorem Exchanges.persists {channels : Grid α} (h : Exchanges channels s s') : Persists s s' where
  areas := h.areas.mono (fun _ _ _ => trivial) fun _ _ => trivial
  matrices := h.matrices.mono (fun _ _ _ => trivial) fun _ _ => trivial

/-- Whatever was done before, deriving the fit pairs sweeps the arenas. -/
theorem Yields.settles_refreshFit {s₀ : Session α} {id : SpectrumId} (hp : Persists s₀ s) (hb : s.Balanced)
    (y : Yields (refreshFit id) s (.ok ()) s') : Settles s₀ s' := by
  rcases y.of_refreshFit hb with ⟨_, _, h, -⟩ | ⟨slot, fit, s₁, hr, y₁⟩
  · cases h
  have hsync := (Keeps.syncMatrices id _ _ _ y₁).settles
  exact Settles.trans ⟨hp.trans hr.exchanges.persists, fun _ => hr.tidyAreas, fun _ => hr.tidyMatrices⟩ hsync

theorem Yields.settles_addSpectrum {spectrum : Spectrum α} {id : SpectrumId} (hb : s.Balanced)
    (y : Yields (addSpectrum spectrum) s (.ok id) s') : Settles s s' := by
  rcases y.of_addSpectrum with ⟨_, h, -⟩ | ⟨configured, newId, spectra, -, hinsert, y₁⟩
  · cases h
  have hb₁ := Held.insertSpectrum hb ⟨configured, [], []⟩ rfl true
  rw [hinsert] at hb₁
  obtain ⟨_, s₁, y₂, y₃⟩ := y₁.of_bind_ok
  obtain ⟨-, rfl⟩ := yields_pure.1 y₃
  have hp : Persists s { s with spectra } := ⟨(Persists.refl s).areas, (Persists.refl s).matrices⟩
  exact y₂.settles_refreshFit hp hb₁

theorem Yields.settles_deleteSpectrum {id : SpectrumId} {spectrum : Spectrum α} (hb : s.Balanced)
    (y : Yields (deleteSpectrum id) s (.ok spectrum) s') : Settles s s' := by
  obtain ⟨-, hexchanges, -, ⟨_, h⟩ | ⟨-, hareas, hmatrices⟩⟩ := y.of_deleteSpectrum hb
  · cases h
  · exact ⟨(hexchanges ⟨[]⟩).persists, fun _ => hareas, fun _ => hmatrices⟩

theorem Yields.settles_assign {id : SpectrumId} {pair : ResponsePair} (hb : s.Balanced)
    (y : Yields (assign id pair) s (.ok ()) s') : Settles s s' := by
  rcases y.of_assign hb with ⟨_, h, -⟩ | ⟨slot, curve, m, s₁, -, -, -, hr, y₁⟩
  · cases h
  obtain ⟨_, s₂, y₂, y₃⟩ := y₁.of_bind_ok
  have hrestore := Keeps.restoreShared _ _ _ _ y₂
  have hp : Persists s s₂ := (hr.exchanges ⟨[]⟩).persists.trans hrestore.settles.toPersists
  exact y₃.settles_refreshFit hp (hrestore.held hr.balanced)

theorem Yields.settles_unassign {id : SpectrumId} (hb : s.Balanced)
    (y : Yields (unassign id) s (.ok ()) s') : Settles s s' := by
  rcases y.of_unassign hb with ⟨_, h, -⟩ | ⟨slot, s₁, hr, y₁⟩
  · cases h
  · exact y₁.settles_refreshFit (hr.exchanges ⟨[]⟩).persists hr.balanced

theorem Yields.settles_setConfig {config : Config α} (hb : s.Balanced)
    (y : Yields (setConfig config) s (.ok ()) s') : Settles s s' := by
  obtain ⟨strategy, s₁, y₁, y₂⟩ := y.of_bind_ok
  obtain ⟨-, rfl⟩ := yields_lift.1 y₁
  have y₃ := y₂.of_modify_bind.of_get_bind
  have hstart : Settles s₁ s₁ := SameHoldings.settles (Std.Refl.refl _)
  refine (Yields.forM_ok (P := fun t => t.Balanced ∧ Settles s₁ t) ?_ ?_ y₃).2
  · intro id _ t t' ⟨hbt, ht⟩ yt
    obtain ⟨_, t₁, z₁, z₂⟩ := yt.of_bind_ok
    have hsame := Keeps.updateSpectrum id _ _ _ _ z₁
    have hb₁ : t₁.Balanced := hsame.held hbt
    have hrefresh := z₂.settles_refreshFit (Persists.refl _) hb₁
    exact ⟨balanced_refreshFit id _ _ _ z₂ hb₁, (ht.trans hsame.settles).trans hrefresh⟩
  · -- the new configuration changes no product
    exact ⟨⟨hb.areas, hb.matrices⟩, ⟨hstart.areas, hstart.matrices⟩, hstart.tidyAreas, hstart.tidyMatrices⟩

theorem Yields.settles_compact {count : Nat} (y : Yields compact s (.ok count) s') : Settles s s' := by
  rw [y.of_compact.2]
  have hexchanges : Exchanges (⟨[]⟩ : Grid α) s _ := Exchanges.compact _ _ _ y
  rw [y.of_compact.2] at hexchanges
  exact ⟨hexchanges.persists, fun _ => Arena.tidy_compact, fun _ => Arena.tidy_compact⟩

end

/-! ### The history -/

/-- An operation answered the handle of the effective area. -/
def AreaAdded (history : List (Event α)) (id : AreaId) : Prop :=
  ∃ e ∈ history, e.answer = .ok (.areaId id)

/-- An operation answered the handle of the matrix. -/
def MatrixAdded (history : List (Event α)) (id : MatrixId) : Prop :=
  ∃ e ∈ history, e.answer = .ok (.matrixId id)

/-- The effective area was to be let go. -/
def AreaReleased (history : List (Event α)) (id : AreaId) : Prop :=
  ∃ e ∈ history, e.operation = .releaseArea id

/-- The matrix was to be let go. -/
def MatrixReleased (history : List (Event α)) (id : MatrixId) : Prop :=
  ∃ e ∈ history, e.operation = .releaseMatrix id

/-- The effective area was given away. -/
def AreaDeleted (history : List (Event α)) (id : AreaId) : Prop :=
  ∃ e ∈ history, e.operation = .deleteArea id

/-- The matrix was given away. -/
def MatrixDeleted (history : List (Event α)) (id : MatrixId) : Prop :=
  ∃ e ∈ history, e.operation = .deleteMatrix id

/-- The session agrees with a history in which every operation succeeded. -/
structure Ledger (history : List (Event α)) (s : Session α) : Prop where
  /-- The users are counted. -/
  balanced : s.Balanced
  /-- The effective areas agree with the history. -/
  areas : s.areas.Accounts (AreaAdded history) (AreaReleased history) (AreaDeleted history)
  /-- The matrices agree with the history. -/
  matrices : s.matrices.Accounts (MatrixAdded history) (MatrixReleased history) (MatrixDeleted history)

/-- The event neither adds nor releases nor deletes a product. -/
structure Event.Quiet (e : Event α) : Prop where
  /-- No new effective area. -/
  area : ∀ id, e.answer ≠ .ok (.areaId id)
  /-- No new matrix. -/
  matrix : ∀ id, e.answer ≠ .ok (.matrixId id)
  /-- No effective area is let go or given away. -/
  areaStays : ∀ id, e.operation ≠ .releaseArea id ∧ e.operation ≠ .deleteArea id
  /-- No matrix is let go or given away. -/
  matrixStays : ∀ id, e.operation ≠ .releaseMatrix id ∧ e.operation ≠ .deleteMatrix id

namespace Ledger

variable {history : List (Event α)} {e : Event α}

/-- A quiet event that settles the session leaves it in agreement. -/
theorem quiet (h : Ledger history s) (hb : s'.Balanced) (hs : Settles s s') (he : e.Quiet) :
    Ledger (history ++ [e]) s' where
  balanced := hb
  areas := (h.areas.inherits hs.areas (hs.tidyAreas h.areas.tidy)).congr (by simp [AreaAdded, he.area])
    (by simp [AreaReleased, he.areaStays]) (by simp [AreaDeleted, he.areaStays])
  matrices := (h.matrices.inherits hs.matrices (hs.tidyMatrices h.matrices.tidy)).congr
    (by simp [MatrixAdded, he.matrix]) (by simp [MatrixReleased, he.matrixStays])
    (by simp [MatrixDeleted, he.matrixStays])

theorem addArea (h : Ledger history s) (hb : s'.Balanced) {curve : EffectiveArea α} {id : AreaId}
    (y : Yields (addArea curve) s (.ok id) s') (hanswer : e.answer = .ok (.areaId id))
    (hop : ∀ id, e.operation ≠ .releaseArea id ∧ e.operation ≠ .deleteArea id)
    (hop' : ∀ id, e.operation ≠ .releaseMatrix id ∧ e.operation ≠ .deleteMatrix id) :
    Ledger (history ++ [e]) s' := by
  obtain ⟨hid, rfl⟩ := y.of_insertArea
  cases hid
  refine ⟨hb, ?_, ?_⟩
  · refine (h.areas.insert curve).congr (fun id => ?_) (by simp [AreaReleased, hop])
      (by simp [AreaDeleted, hop])
    simp [AreaAdded, hanswer, or_and_right, exists_or, eq_comm]
  · exact h.matrices.congr (by simp [MatrixAdded, hanswer]) (by simp [MatrixReleased, hop'])
      (by simp [MatrixDeleted, hop'])

theorem takeMatrix (h : Ledger history s) (hb : s'.Balanced) {m : ResponseMatrix α} {id : MatrixId}
    (y : Yields (takeMatrix m) s (.ok id) s') (hanswer : e.answer = .ok (.matrixId id))
    (hop : ∀ id, e.operation ≠ .releaseArea id ∧ e.operation ≠ .deleteArea id)
    (hop' : ∀ id, e.operation ≠ .releaseMatrix id ∧ e.operation ≠ .deleteMatrix id) :
    Ledger (history ++ [e]) s' := by
  obtain ⟨hid, rfl⟩ := y.of_insertMatrix
  cases hid
  refine ⟨hb, ?_, ?_⟩
  · exact h.areas.congr (by simp [AreaAdded, hanswer]) (by simp [AreaReleased, hop])
      (by simp [AreaDeleted, hop])
  · refine (h.matrices.insert m).congr (fun id => ?_) (by simp [MatrixReleased, hop'])
      (by simp [MatrixDeleted, hop'])
    simp [MatrixAdded, hanswer, or_and_right, exists_or, eq_comm]

theorem releaseArea (h : Ledger history s) (hb : s'.Balanced) {id : AreaId}
    (y : Yields (releaseArea id) s (.ok ()) s') :
    Ledger (history ++ [⟨.releaseArea id, .ok .done⟩]) s' := by
  rcases y.of_releaseArea with ⟨_, h, -⟩ | ⟨areas, hset, -, rfl⟩
  · cases h
  refine ⟨hb, ?_, ?_⟩
  · refine (h.areas.release hset).congr (by simp [AreaAdded]) (fun other => ?_) (by simp [AreaDeleted])
    simp [AreaReleased, or_and_right, exists_or, eq_comm]
  · exact (h.matrices.inherits (.compact (N := fun _ => True) _) Arena.tidy_compact).congr
      (by simp [MatrixAdded]) (by simp [MatrixReleased]) (by simp [MatrixDeleted])

theorem releaseMatrix (h : Ledger history s) (hb : s'.Balanced) {id : MatrixId}
    (y : Yields (releaseMatrix id) s (.ok ()) s') :
    Ledger (history ++ [⟨.releaseMatrix id, .ok .done⟩]) s' := by
  rcases y.of_releaseMatrix with ⟨_, h, -⟩ | ⟨matrices, hset, -, rfl⟩
  · cases h
  refine ⟨hb, ?_, ?_⟩
  · exact (h.areas.inherits (.compact (N := fun _ => True) _) Arena.tidy_compact).congr (by simp [AreaAdded])
      (by simp [AreaReleased]) (by simp [AreaDeleted])
  · refine (h.matrices.release hset).congr (by simp [MatrixAdded]) (fun other => ?_) (by simp [MatrixDeleted])
    simp [MatrixReleased, or_and_right, exists_or, eq_comm]

theorem deleteArea (h : Ledger history s) (hb : s'.Balanced) {id : AreaId} {curve : EffectiveArea α}
    (y : Yields (deleteArea id) s (.ok curve) s') :
    Ledger (history ++ [⟨.deleteArea id, .ok (.area curve)⟩]) s' := by
  rcases y.of_deleteArea with ⟨_, h, -⟩ | ⟨curve', areas, hremove, -, rfl⟩
  · cases h
  refine ⟨hb, ?_, ?_⟩
  · refine (h.areas.remove hremove).congr (by simp [AreaAdded]) (by simp [AreaReleased]) fun other => ?_
    simp [AreaDeleted, or_and_right, exists_or, eq_comm]
  · exact h.matrices.congr (by simp [MatrixAdded]) (by simp [MatrixReleased]) (by simp [MatrixDeleted])

theorem deleteMatrix (h : Ledger history s) (hb : s'.Balanced) {id : MatrixId} {m : ResponseMatrix α}
    (y : Yields (deleteMatrix id) s (.ok m) s') :
    Ledger (history ++ [⟨.deleteMatrix id, .ok (.matrix m)⟩]) s' := by
  rcases y.of_deleteMatrix with ⟨_, h, -⟩ | ⟨m', matrices, hremove, -, rfl⟩
  · cases h
  refine ⟨hb, ?_, ?_⟩
  · exact h.areas.congr (by simp [AreaAdded]) (by simp [AreaReleased]) (by simp [AreaDeleted])
  · refine (h.matrices.remove hremove).congr (by simp [MatrixAdded]) (by simp [MatrixReleased]) fun other => ?_
    simp [MatrixDeleted, or_and_right, exists_or, eq_comm]

variable [Scalar α]

theorem start {config : Config α} (h : ofConfig config = .ok s) : Ledger [] s := by
  obtain ⟨-, ha, hm, -⟩ := eq_of_ofConfig h
  refine ⟨balanced_start h, ?_, ?_⟩
  · rw [ha]
    exact Arena.Accounts.empty.congr (by simp [AreaAdded]) (by simp [AreaReleased]) (by simp [AreaDeleted])
  · rw [hm]
    exact Arena.Accounts.empty.congr (by simp [MatrixAdded]) (by simp [MatrixReleased])
      (by simp [MatrixDeleted])

/-- An operation that leaves all holdings is quiet. -/
theorem quiet_of_not_movesProducts {operation : Operation α} {answer : Answer α}
    (h : operation.movesProducts = false) (y : Yields operation.perform s (.ok answer) s') :
    Event.Quiet ⟨operation, .ok answer⟩ := by
  cases operation <;> first
    | cases h; done
    | obtain ⟨_, -, rfl⟩ := y.of_bind_pure
      exact ⟨by simp, by simp, by simp, by simp⟩

/-- Each operation that succeeds keeps the session in agreement with the history. -/
theorem step (h : Ledger history s) {operation : Operation α} {answer : Answer α}
    (y : Yields operation.perform s (.ok answer) s') :
    Ledger (history ++ [⟨operation, .ok answer⟩]) s' := by
  have hb : s'.Balanced := balanced_perform operation _ _ _ y h.balanced
  by_cases hmoves : operation.movesProducts = true
  · cases operation with
    | setConfig config =>
      obtain ⟨_, z, rfl⟩ := y.of_bind_pure
      exact h.quiet hb (z.settles_setConfig h.balanced) ⟨by simp, by simp, by simp, by simp⟩
    | loadArea file =>
      obtain ⟨id, z, rfl⟩ := y.of_bind_pure
      obtain ⟨curve, s₁, y₁, y₂⟩ := z.of_get_bind.of_bind_ok
      obtain ⟨-, rfl⟩ := yields_lift.1 y₁
      exact h.addArea hb y₂ rfl (by simp) (by simp)
    | addArea curve =>
      obtain ⟨id, z, rfl⟩ := y.of_bind_pure
      exact h.addArea hb z rfl (by simp) (by simp)
    | deleteArea id =>
      obtain ⟨curve, z, rfl⟩ := y.of_bind_pure
      exact h.deleteArea hb z
    | releaseArea id =>
      obtain ⟨_, z, rfl⟩ := y.of_bind_pure
      exact h.releaseArea hb z
    | loadMatrix file =>
      obtain ⟨id, z, rfl⟩ := y.of_bind_pure
      obtain ⟨m, s₁, y₁, y₂⟩ := z.of_bind_ok
      obtain ⟨rfl, -⟩ := y₁.of_noted
      exact h.takeMatrix hb y₂ rfl (by simp) (by simp)
    | takeMatrix m =>
      obtain ⟨id, z, rfl⟩ := y.of_bind_pure
      exact h.takeMatrix hb z rfl (by simp) (by simp)
    | deleteMatrix id =>
      obtain ⟨m, z, rfl⟩ := y.of_bind_pure
      exact h.deleteMatrix hb z
    | releaseMatrix id =>
      obtain ⟨_, z, rfl⟩ := y.of_bind_pure
      exact h.releaseMatrix hb z
    | loadSpectrum file =>
      obtain ⟨id, z, rfl⟩ := y.of_bind_pure
      obtain ⟨spectrum, s₁, y₁, y₂⟩ := z.of_bind_ok
      obtain ⟨rfl, -⟩ := y₁.of_noted
      exact h.quiet hb (y₂.settles_addSpectrum h.balanced) ⟨by simp, by simp, by simp, by simp⟩
    | addSpectrum spectrum =>
      obtain ⟨id, z, rfl⟩ := y.of_bind_pure
      exact h.quiet hb (z.settles_addSpectrum h.balanced) ⟨by simp, by simp, by simp, by simp⟩
    | deleteSpectrum id =>
      obtain ⟨spectrum, z, rfl⟩ := y.of_bind_pure
      exact h.quiet hb (z.settles_deleteSpectrum h.balanced) ⟨by simp, by simp, by simp, by simp⟩
    | assign id pair =>
      obtain ⟨_, z, rfl⟩ := y.of_bind_pure
      exact h.quiet hb (z.settles_assign h.balanced) ⟨by simp, by simp, by simp, by simp⟩
    | unassign id =>
      obtain ⟨_, z, rfl⟩ := y.of_bind_pure
      exact h.quiet hb (z.settles_unassign h.balanced) ⟨by simp, by simp, by simp, by simp⟩
    | compact =>
      obtain ⟨_, z, rfl⟩ := y.of_bind_pure
      exact h.quiet hb z.settles_compact ⟨by simp, by simp, by simp, by simp⟩
    | _ => cases hmoves
  · have hstays := Bool.eq_false_iff.2 hmoves
    exact h.quiet hb (sameHoldings_perform operation hstays _ _ _ y).settles
      (quiet_of_not_movesProducts hstays y)

theorem of_run (h : Run history s) (hok : ∀ e ∈ history, e.Succeeded) : Ledger history s := by
  induction h with
  | start h => exact .start h
  | step _ hrun ih =>
    obtain ⟨a, ha⟩ := hok _ (List.mem_append_right _ (List.mem_singleton_self _))
    cases ha
    exact (ih fun e he => hok e (List.mem_append_left _ he)).step (.of_run hrun)

end Ledger

variable [Scalar α]

theorem balanced_of_run {history : List (Event α)} (h : Run history s) : s.Balanced :=
  h.invariant (fun _ _ h => (Ledger.start h).balanced) fun operation _ _ _ hb y =>
    balanced_perform operation _ _ _ y hb

/-- After any run, failed operations included, the users of a product are the pairs of all spectra that
name it, and whatever a pair names is live. If every operation succeeded, a product is live exactly if it
was put into a slot, was not given away, and is named by a pair or was added and not released. -/
theorem uses_counted_and_nothing_leaks {history : List (Event α)} (h : Run history s) :
    ((∀ id slot, s.areas.slot? id = some slot → slot.inUse = s.pairs.countP (·.area == id)) ∧
      (∀ id slot, s.matrices.slot? id = some slot → slot.inUse = s.pairs.countP (·.matrix == id)) ∧
      ∀ pair ∈ s.pairs, s.areas.contains pair.area = true ∧ s.matrices.contains pair.matrix = true) ∧
    ((∀ e ∈ history, e.Succeeded) →
      (∀ id, s.areas.contains id = true ↔ s.areas.Issued id ∧ ¬ AreaDeleted history id ∧
        ((AreaAdded history id ∧ ¬ AreaReleased history id) ∨ ∃ pair ∈ s.pairs, pair.area = id)) ∧
      ∀ id, s.matrices.contains id = true ↔ s.matrices.Issued id ∧ ¬ MatrixDeleted history id ∧
        ((MatrixAdded history id ∧ ¬ MatrixReleased history id) ∨ ∃ pair ∈ s.pairs, pair.matrix = id)) := by
  have hb : s.Held [] := balanced_of_run h
  have hareas := hb.areas
  have hmatrices := hb.matrices
  rw [List.append_nil] at hareas hmatrices
  refine ⟨⟨fun id slot hs => ?_, fun id slot hs => ?_, fun pair hp => ?_⟩, fun hok => ⟨fun id => ?_, fun id => ?_⟩⟩
  · rw [hareas.counts id slot hs, List.count, List.countP_map]
    rfl
  · rw [hmatrices.counts id slot hs, List.count, List.countP_map]
    rfl
  · exact ⟨hareas.live _ (List.mem_map_of_mem hp), hmatrices.live _ (List.mem_map_of_mem hp)⟩
  · rw [(Ledger.of_run h hok).areas.contains_iff hareas, List.mem_map]
  · rw [(Ledger.of_run h hok).matrices.contains_iff hmatrices, List.mem_map]

/-! ### A released product in use -/

namespace Borrowed

/-- A spectrum with two bins. -/
def spectrum : Spectrum Float := Sample.spectrum (Sample.grid 2) [4.0, 9.0] [2.0, 3.0]

/-- A matrix between the two bins. -/
def matrix : ResponseMatrix Float :=
  .ofRedistribution ⟨.file, Sample.grid 2, Sample.grid 2, [[⟨0, [1.0, 0.5]⟩], [⟨1, [1.0]⟩]], .plain, {}⟩

/-- An effective area is assigned and then released. -/
def operations : List (Operation Float) :=
  [.addSpectrum spectrum, .takeMatrix matrix, .addArea (.identity (Sample.grid 2)), .assign ⟨0⟩ ⟨⟨1⟩, ⟨1⟩⟩,
    .releaseArea ⟨1⟩]

end Borrowed

/-- The released effective area has two users, the assigned and the fit pair, and stays for them. -/
theorem borrowed_area_stays :
    (∀ e ∈ (Sample.start.replay Borrowed.operations).1, e.Succeeded) ∧
      (Sample.start.replay Borrowed.operations).2.pairs.countP (·.area == ⟨1⟩) = 2 ∧
      (Sample.start.replay Borrowed.operations).2.areas.contains ⟨1⟩ = true := by
  have hrun := (Run.start Sample.ofConfig_start).replay Borrowed.operations
  have hok : ∀ e ∈ (Sample.start.replay Borrowed.operations).1, e.Succeeded := by decide +kernel
  have hnot : ¬ AreaDeleted (Sample.start.replay Borrowed.operations).1 ⟨1⟩ := by
    rintro ⟨e, he, hdeleted⟩
    simp [Borrowed.operations, replay] at he
    rcases he with rfl | rfl | rfl | rfl | rfl <;> cases hdeleted
  have hissued : (Sample.start.replay Borrowed.operations).2.areas.Issued ⟨1⟩ := by
    unfold Arena.Issued
    decide +kernel
  have hpair : ∃ pair ∈ (Sample.start.replay Borrowed.operations).2.pairs, pair.area = ⟨1⟩ :=
    ⟨⟨⟨1⟩, ⟨1⟩⟩, by decide +kernel, rfl⟩
  have hlive := ((uses_counted_and_nothing_leaks hrun).2 hok).1 ⟨1⟩
  exact ⟨hok, by decide +kernel, hlive.2 ⟨hissued, hnot, .inr hpair⟩⟩

end Session

end SpectralResponse
