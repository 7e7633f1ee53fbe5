import SpectralResponse.Arena
import Mathlib.Data.List.Basic
import Mathlib.Tactic.Common

/-!
# Slots after an operation

What an arena operation does is said by `Arena.slot?`: the slot that a handle names afterwards. An
operation that succeeds changes the slot of its handle and leaves all others as they are.

## What is proved

* `Arena.Holds` — the use counts of the slots are those of a list of names, and every name is live. Each
  operation keeps this with the list changed accordingly, and a release of a held name cannot fail.
* `Arena.Inherits` — slots are only born unretained, and a retained slot stays: what every operation does
  that is not told to keep, to let go or to remove a slot.
-/

namespace SpectralResponse

theorem Handle.index_inj {kind : ProductKind} {id other : Handle kind} :
    id.index = other.index ↔ id = other := by
  cases id; cases other; simp

namespace Arena

variable {β : Type} {kind : ProductKind} {a a' : Arena kind β} {id other : Handle kind}

/-! ### The slot of a handle -/

theorem index_lt_of_slot? {slot : Slot β} (h : a.slot? id = some slot) :
    id.index < a.slots.length := by
  unfold slot? at h
  by_contra hlen
  rw [List.getElem?_eq_none (Nat.le_of_not_lt hlen)] at h
  cases h

theorem slot?_empty : (empty : Arena kind β).slot? id = none := by simp [slot?, empty]

theorem contains_iff : a.contains id = true ↔ ∃ slot, a.slot? id = some slot := by
  simp [contains, Option.isSome_iff_exists]

theorem slot_eq_ok_iff {slot : Slot β} : a.slot id = .ok slot ↔ a.slot? id = some slot := by
  unfold Arena.slot
  cases h : a.slot? id <;> simp

theorem slot?_setSlot_self {slot : Slot β} (h : a.slot? id = some slot) (new? : Option (Slot β)) :
    (a.setSlot id new?).slot? id = new? := by
  have hlt := index_lt_of_slot? h
  simp [slot?, setSlot, List.getElem?_set_self hlt]

theorem slot?_setSlot_of_ne (h : other ≠ id) (new? : Option (Slot β)) :
    (a.setSlot id new?).slot? other = a.slot? other := by
  have hne : id.index ≠ other.index := fun e => h (Handle.index_inj.1 e.symm)
  simp [slot?, setSlot, List.getElem?_set_ne hne]

/-- Once a slot has been set, a live handle names that slot, or another one that was there. -/
theorem slot?_setSlot_cases {slot new slot' : Slot β} (h : a.slot? id = some slot)
    (hs' : (a.setSlot id (some new)).slot? other = some slot') :
    (other = id ∧ new = slot') ∨ other ≠ id ∧ a.slot? other = some slot' := by
  by_cases hid : other = id
  · subst hid
    rw [slot?_setSlot_self h, Option.some.injEq] at hs'
    exact .inl ⟨rfl, hs'⟩
  · rw [slot?_setSlot_of_ne hid] at hs'
    exact .inr ⟨hid, hs'⟩

/-- A slot that is emptied is none of those that are left. -/
theorem slot?_of_setSlot_none {slot : Slot β} (h : (a.setSlot id none).slot? other = some slot) :
    a.slot? other = some slot := by
  by_cases hid : other = id
  · subst hid
    simp only [slot?, setSlot, List.getElem?_set_self'] at h
    cases hget : a.slots[other.index]? <;> simp [hget] at h
  · rwa [slot?_setSlot_of_ne hid] at h

theorem slots_length_setSlot (new? : Option (Slot β)) :
    (a.setSlot id new?).slots.length = a.slots.length := by simp [setSlot]

theorem slot?_insert_self (value : β) (retained : Bool) :
    (a.insert value retained).2.slot? (a.insert value retained).1 = some ⟨value, 0, retained⟩ := by
  simp [slot?, insert]

theorem slot?_insert_of_ne {value : β} {retained : Bool} (h : other ≠ (a.insert value retained).1) :
    (a.insert value retained).2.slot? other = a.slot? other := by
  have hne : other.index ≠ a.slots.length := fun e => h (Handle.index_inj.1 e)
  simp only [slot?, insert]
  rcases Nat.lt_or_gt_of_ne hne with hlt | hgt
  · rw [List.getElem?_append_left hlt]
  · rw [List.getElem?_eq_none (by simp; omega), List.getElem?_eq_none (by omega)]

/-- Once a value has been added, a live handle names its slot, or another one that was there. -/
theorem slot?_insert_cases {value : β} {retained : Bool} {slot : Slot β}
    (hs : (a.insert value retained).2.slot? other = some slot) :
    (other = (a.insert value retained).1 ∧ ⟨value, 0, retained⟩ = slot) ∨
      other ≠ (a.insert value retained).1 ∧ a.slot? other = some slot := by
  by_cases hnew : other = (a.insert value retained).1
  · subst hnew
    rw [slot?_insert_self, Option.some.injEq] at hs
    exact .inl ⟨rfl, hs⟩
  · rw [slot?_insert_of_ne hnew] at hs
    exact .inr ⟨hnew, hs⟩

/-- A new handle named nothing before. -/
theorem slot?_insert_id (value : β) (retained : Bool) : a.slot? (a.insert value retained).1 = none := by
  simp [slot?, insert]

theorem slot?_compact : a.compact.2.slot? id = (a.slot? id).filter (!·.isIdle) := by
  simp only [slot?, compact, List.getElem?_map]
  cases a.slots[id.index]? with
  | none => rfl
  | some slot? => simp [sweepSlot]

theorem slots_length_compact : a.compact.2.slots.length = a.slots.length := by simp [compact]

/-! ### Operations that succeed -/

theorem get_eq_ok_iff {value : β} :
    a.get id = .ok value ↔ ∃ slot, a.slot? id = some slot ∧ slot.value = value := by
  unfold get Arena.slot
  cases h : a.slot? id <;> simp [bind, Except.bind, pure, Except.pure]

theorem inUse_eq_ok_iff {count : Nat} :
    a.inUse id = .ok count ↔ ∃ slot, a.slot? id = some slot ∧ slot.inUse = count := by
  unfold inUse Arena.slot
  cases h : a.slot? id <;> simp [bind, Except.bind, pure, Except.pure]

theorem put_eq_ok_iff {value : β} :
    a.put id value = .ok a' ↔
      ∃ slot, a.slot? id = some slot ∧ a' = a.setSlot id (some { slot with value }) := by
  unfold put Arena.slot
  cases h : a.slot? id <;> simp [bind, Except.bind, pure, Except.pure, eq_comm]

theorem acquire_eq_ok_iff :
    a.acquire id = .ok a' ↔
      ∃ slot, a.slot? id = some slot ∧ a' = a.setSlot id (some { slot with inUse := slot.inUse + 1 }) := by
  unfold acquire Arena.slot
  cases h : a.slot? id <;> simp [bind, Except.bind, pure, Except.pure, eq_comm]

theorem release_eq_ok_iff :
    a.release id = .ok a' ↔
      ∃ slot, a.slot? id = some slot ∧ slot.inUse ≠ 0 ∧
        a' = a.setSlot id (some { slot with inUse := slot.inUse - 1 }) := by
  unfold release Arena.slot
  cases h : a.slot? id with
  | none => simp [bind, Except.bind]
  | some slot =>
    by_cases hz : slot.inUse = 0 <;>
      simp [bind, Except.bind, pure, Except.pure, hz, throw, throwThe, MonadExceptOf.throw, eq_comm]

theorem setRetained_eq_ok_iff {retained : Bool} :
    a.setRetained id retained = .ok a' ↔
      ∃ slot, a.slot? id = some slot ∧ a' = a.setSlot id (some { slot with retained }) := by
  unfold setRetained Arena.slot
  cases h : a.slot? id <;> simp [bind, Except.bind, pure, Except.pure, eq_comm]

theorem remove_eq_ok_iff {value : β} :
    a.remove id = .ok (value, a') ↔
      ∃ slot, a.slot? id = some slot ∧ slot.inUse = 0 ∧ slot.value = value ∧ a' = a.setSlot id none := by
  unfold remove Arena.slot
  cases h : a.slot? id with
  | none => simp [bind, Except.bind]
  | some slot =>
    by_cases hz : 0 < slot.inUse
    · have : slot.inUse ≠ 0 := by omega
      simp [bind, Except.bind, hz, throw, throwThe, MonadExceptOf.throw, this]
    · have : slot.inUse = 0 := by omega
      simp [bind, Except.bind, pure, Except.pure, this, eq_comm]

/-- A slot with users is not given away. -/
theorem remove_eq_error {slot : Slot β} (hs : a.slot? id = some slot) (hused : 0 < slot.inUse) :
    a.remove id = .error (.inUse kind id slot.inUse) := by
  simp [remove, slot_eq_ok_iff.2 hs, bind, Except.bind, hused, throw, throwThe, MonadExceptOf.throw]

/-- What is there under a handle is what stood there. -/
theorem get_eq_of_origin (hlive : a'.contains id = true)
    (h : ∀ slot', a'.slot? id = some slot' → ∃ slot, a.slot? id = some slot ∧ slot.value = slot'.value) :
    a'.get id = a.get id := by
  obtain ⟨slot', hs'⟩ := contains_iff.1 hlive
  obtain ⟨slot, hs, hvalue⟩ := h slot' hs'
  rw [get_eq_ok_iff.2 ⟨slot', hs', rfl⟩, get_eq_ok_iff.2 ⟨slot, hs, hvalue⟩]

/-- Reading fails only if the handle names nothing. -/
theorem slot?_of_get_error {fault : SlotFault} (h : a.get id = .error fault) : a.slot? id = none := by
  cases hs : a.slot? id with
  | none => rfl
  | some slot =>
    rw [get_eq_ok_iff.2 ⟨slot, hs, rfl⟩] at h
    cases h

/-- Counting the users fails only if the handle names nothing. -/
theorem slot?_of_inUse_error {fault : SlotFault} (h : a.inUse id = .error fault) : a.slot? id = none := by
  cases hs : a.slot? id with
  | none => rfl
  | some slot =>
    rw [inUse_eq_ok_iff.2 ⟨slot, hs, rfl⟩] at h
    cases h

/-- Replacing a value fails only if the handle names nothing. -/
theorem slot?_of_put_error {value : β} {fault : SlotFault} (h : a.put id value = .error fault) :
    a.slot? id = none := by
  cases hs : a.slot? id with
  | none => rfl
  | some slot =>
    rw [put, slot_eq_ok_iff.2 hs] at h
    cases h

theorem exists_acquire (h : a.contains id = true) : ∃ a', a.acquire id = .ok a' := by
  obtain ⟨slot, hs⟩ := contains_iff.1 h
  exact ⟨_, acquire_eq_ok_iff.2 ⟨slot, hs, rfl⟩⟩

/-- A changed slot leaves all handles live. -/
theorem contains_setSlot {slot slot' : Slot β} (hs : a.slot? id = some slot)
    (h : a.contains other = true) : (a.setSlot id (some slot')).contains other = true := by
  by_cases hid : other = id
  · subst hid
    exact contains_iff.2 ⟨slot', slot?_setSlot_self hs _⟩
  · obtain ⟨slot'', hs''⟩ := contains_iff.1 h
    exact contains_iff.2 ⟨slot'', by rw [slot?_setSlot_of_ne hid, hs'']⟩

theorem contains_acquire (hget : a.acquire id = .ok a') (h : a.contains other = true) :
    a'.contains other = true := by
  obtain ⟨slot, hs, rfl⟩ := acquire_eq_ok_iff.1 hget
  exact contains_setSlot hs h

theorem contains_insert (value : β) (retained : Bool) (h : a.contains other = true) :
    (a.insert value retained).2.contains other = true := by
  obtain ⟨slot, hs⟩ := contains_iff.1 h
  have hne : other ≠ (a.insert value retained).1 := by
    rintro rfl
    rw [slot?_insert_id] at hs
    cases hs
  exact contains_iff.2 ⟨slot, by rw [slot?_insert_of_ne hne, hs]⟩

/-! ### Values -/

/-- The values in the slots that are not empty, in the order of their handles. -/
def values (a : Arena kind β) : List β := a.slots.filterMap (Option.map Slot.value)

theorem values_empty : (empty : Arena kind β).values = [] := rfl

theorem values_insert (value : β) (retained : Bool) :
    (a.insert value retained).2.values = a.values ++ [value] := by
  simp [values, insert]

/-- A live handle cuts the values in two; what is put into its slot stands between the parts. -/
theorem exists_values_setSlot {slot : Slot β} (h : a.slot? id = some slot) :
    ∃ before after, a.values = before ++ slot.value :: after ∧
      ∀ new?, (a.setSlot id new?).values = before ++ ((new?.map Slot.value).toList ++ after) := by
  have hlt := index_lt_of_slot? h
  have hget : a.slots[id.index] = some slot := by
    have h' := h
    rwa [slot?, List.getElem?_eq_getElem hlt, Option.join_some] at h'
  have hcut : a.slots = a.slots.take id.index ++ some slot :: a.slots.drop (id.index + 1) := by
    rw [← hget, List.getElem_cons_drop, List.take_append_drop]
  refine ⟨(a.slots.take id.index).filterMap (Option.map Slot.value),
    (a.slots.drop (id.index + 1)).filterMap (Option.map Slot.value), ?_, fun new? => ?_⟩
  · conv_lhs => rw [values, hcut]
    simp
  · rw [values, setSlot, List.set_eq_take_append_cons_drop, if_pos hlt]
    cases new? <;> simp

theorem mem_values_iff {value : β} :
    value ∈ a.values ↔ ∃ id slot, a.slot? id = some slot ∧ slot.value = value := by
  constructor
  · intro h
    obtain ⟨slot?, hmem, hvalue⟩ := List.mem_filterMap.1 h
    obtain ⟨slot, rfl, rfl⟩ := Option.map_eq_some_iff.1 hvalue
    obtain ⟨n, hn⟩ := List.mem_iff_getElem?.1 hmem
    exact ⟨⟨n⟩, slot, by simp [slot?, hn], rfl⟩
  · rintro ⟨id, slot, h, rfl⟩
    obtain ⟨before, after, hvalues, -⟩ := exists_values_setSlot h
    simp [hvalues]

/-- A live handle is among the handles. -/
theorem mem_ids_of_slot? {slot : Slot β} (h : a.slot? id = some slot) : id ∈ a.ids := by
  have hlt := index_lt_of_slot? h
  have hget : a.slots[id.index] = some slot := by
    rwa [slot?, List.getElem?_eq_getElem hlt, Option.join_some] at h
  refine List.mem_map.2 ⟨(id, slot), List.mem_filterMap.2 ⟨(some slot, id.index), ?_, rfl⟩, rfl⟩
  exact List.mem_zipIdx_iff_getElem?.2 (by rw [List.getElem?_eq_getElem hlt, hget])

/-- The handles come in ascending order. -/
theorem pairwise_ids (a : Arena kind β) : a.ids.Pairwise fun x y => x.index < y.index := by
  have hplaces : a.slots.zipIdx.Pairwise fun x y => x.2 < y.2 := by
    rw [← List.pairwise_map, List.zipIdx_map_snd]
    exact List.pairwise_lt_range'
  rw [ids, List.pairwise_map, entries, List.pairwise_filterMap]
  refine hplaces.imp fun {x y} hlt entry hentry entry' hentry' => ?_
  obtain ⟨slot, -, rfl⟩ := Option.map_eq_some_iff.1 hentry
  obtain ⟨slot', -, rfl⟩ := Option.map_eq_some_iff.1 hentry'
  exact hlt

/-! ### Use counts and names -/

/-- The users of each slot are the places of its handle in `names`, and all of `names` are live. -/
structure Holds (a : Arena kind β) (names : List (Handle kind)) : Prop where
  /-- A slot has as many users as its handle has places. -/
  counts : ∀ id slot, a.slot? id = some slot → slot.inUse = names.count id
  /-- What is named is live. -/
  live : ∀ id ∈ names, a.contains id = true

namespace Holds

variable {names names' : List (Handle kind)}

/-- What is named has users. -/
theorem exists_used (h : a.Holds names) (hid : id ∈ names) : ∃ slot, a.slot? id = some slot ∧ 0 < slot.inUse := by
  obtain ⟨slot, hs⟩ := contains_iff.1 (h.live id hid)
  exact ⟨slot, hs, h.counts id slot hs ▸ List.count_pos_iff.2 hid⟩

theorem perm (h : a.Holds names) (hp : names.Perm names') : a.Holds names' where
  counts id slot hs := by rw [h.counts id slot hs, hp.count_eq]
  live id hid := h.live id (hp.mem_iff.2 hid)

/-- A handle that names nothing has no place. -/
theorem not_mem_of_slot? (h : a.Holds names) (hid : a.slot? id = none) : id ∉ names := by
  intro hmem
  obtain ⟨slot, hs⟩ := contains_iff.1 (h.live id hmem)
  rw [hid] at hs
  cases hs

theorem empty : (Arena.empty : Arena kind β).Holds [] where
  counts id slot hs := by rw [slot?_empty] at hs; cases hs
  live id hid := by cases hid

theorem insert (h : a.Holds names) (value : β) (retained : Bool) :
    (a.insert value retained).2.Holds names where
  counts id slot hs := by
    rcases slot?_insert_cases hs with ⟨rfl, rfl⟩ | ⟨-, hs⟩
    · exact (List.count_eq_zero.2 (h.not_mem_of_slot? (slot?_insert_id value retained))).symm
    · exact h.counts id slot hs
  live id hid := contains_insert value retained (h.live id hid)

/-- A slot may be changed if its users are counted for the names there are then. -/
theorem setSlot (h : a.Holds names) {slot slot' : Slot β} (hs : a.slot? id = some slot)
    (hself : slot'.inUse = names'.count id) (hother : ∀ other ≠ id, names'.count other = names.count other) :
    (a.setSlot id (some slot')).Holds names' where
  counts other slot'' hs'' := by
    rcases slot?_setSlot_cases hs hs'' with ⟨rfl, rfl⟩ | ⟨hid, hs''⟩
    · exact hself
    · rw [h.counts other slot'' hs'', hother other hid]
  live other hmem := by
    by_cases hid : other = id
    · subst hid
      exact contains_iff.2 ⟨slot', slot?_setSlot_self hs _⟩
    · have : other ∈ names := by
        rw [← List.count_pos_iff, ← hother other hid, List.count_pos_iff]
        exact hmem
      obtain ⟨slot'', hs''⟩ := contains_iff.1 (h.live other this)
      exact contains_iff.2 ⟨slot'', by rw [slot?_setSlot_of_ne hid, hs'']⟩

theorem setRetained (h : a.Holds names) {retained : Bool} (hset : a.setRetained id retained = .ok a') :
    a'.Holds names := by
  obtain ⟨slot, hs, rfl⟩ := setRetained_eq_ok_iff.1 hset
  exact h.setSlot hs (h.counts id slot hs) fun _ _ => rfl

theorem acquire (h : a.Holds names) (hget : a.acquire id = .ok a') : a'.Holds (id :: names) := by
  obtain ⟨slot, hs, rfl⟩ := acquire_eq_ok_iff.1 hget
  refine h.setSlot hs ?_ fun other hother => ?_
  · rw [List.count_cons_self, h.counts id slot hs]
  · rw [List.count_cons_of_ne (Ne.symm hother)]

/-- A name that has a place can be released. -/
theorem release (h : a.Holds (id :: names)) : ∃ a', a.release id = .ok a' ∧ a'.Holds names := by
  obtain ⟨slot, hs⟩ := contains_iff.1 (h.live id List.mem_cons_self)
  have hcount := h.counts id slot hs
  rw [List.count_cons_self] at hcount
  refine ⟨_, release_eq_ok_iff.2 ⟨slot, hs, by omega, rfl⟩, h.setSlot hs ?_ fun other hother => ?_⟩
  · show slot.inUse - 1 = names.count id
    omega
  · rw [List.count_cons_of_ne (Ne.symm hother)]

theorem remove (h : a.Holds names) {value : β} (hremove : a.remove id = .ok (value, a')) :
    a'.Holds names := by
  obtain ⟨slot, hs, hzero, -, rfl⟩ := remove_eq_ok_iff.1 hremove
  have hnot : id ∉ names := List.count_eq_zero.1 ((h.counts id slot hs).symm.trans hzero)
  constructor
  · intro other slot' hs'
    have hne : other ≠ id := by
      rintro rfl
      rw [slot?_setSlot_self hs] at hs'
      cases hs'
    rw [slot?_setSlot_of_ne hne] at hs'
    exact h.counts other slot' hs'
  · intro other hmem
    have hne : other ≠ id := fun e => hnot (e ▸ hmem)
    obtain ⟨slot', hs'⟩ := contains_iff.1 (h.live other hmem)
    exact contains_iff.2 ⟨slot', by rw [slot?_setSlot_of_ne hne, hs']⟩

theorem compact (h : a.Holds names) : a.compact.2.Holds names where
  counts id slot hs := by
    rw [slot?_compact, Option.filter_eq_some_iff] at hs
    exact h.counts id slot hs.1
  live id hid := by
    obtain ⟨slot, hs⟩ := contains_iff.1 (h.live id hid)
    have hused : slot.isIdle = false := by
      have hpos := List.count_pos_iff.2 hid
      have := h.counts id slot hs
      simp only [Slot.isIdle, Bool.and_eq_false_iff, beq_eq_false_iff_ne]
      omega
    exact contains_iff.2 ⟨slot, by simp [slot?_compact, hs, hused]⟩

end Holds

/-! ### Births and deaths -/

/-- No slot is kept only by what is in it. -/
def Tidy (a : Arena kind β) : Prop := ∀ id slot, a.slot? id = some slot → slot.isIdle = false

theorem tidy_empty : (empty : Arena kind β).Tidy := fun _ _ hs => by
  rw [slot?_empty] at hs
  cases hs

theorem tidy_compact : a.compact.2.Tidy := fun id slot hs => by
  rw [slot?_compact, Option.filter_eq_some_iff] at hs
  simpa using hs.2

/-- From `a` to `a'` slots are only born without being retained, no slot comes to be retained or is let
go, and a retained slot stays. Values change by `V`, and the values of new slots satisfy `N`. -/
structure Inherits (V : β → β → Prop) (N : β → Prop) (a a' : Arena kind β) : Prop where
  /-- Handles are never taken back. -/
  issued : a.slots.length ≤ a'.slots.length
  /-- A slot was there before, retained or not as it is now, or it is new and not retained. -/
  origin : ∀ id slot', a'.slot? id = some slot' →
    (∃ slot, a.slot? id = some slot ∧ slot.retained = slot'.retained ∧ V slot.value slot'.value) ∨
      a.slots.length ≤ id.index ∧ slot'.retained = false ∧ N slot'.value
  /-- A retained slot stays. -/
  kept : ∀ id slot, a.slot? id = some slot → slot.retained = true → a'.contains id = true

namespace Inherits

variable {V V' : β → β → Prop} {N N' : β → Prop}

theorem mono (h : a.Inherits V N a') (hV : ∀ v v', V v v' → V' v v') (hN : ∀ v, N v → N' v) :
    a.Inherits V' N' a' where
  issued := h.issued
  origin id slot' hs := by
    rcases h.origin id slot' hs with ⟨slot, hslot, hr, hv⟩ | ⟨hnew, hr, hv⟩
    · exact .inl ⟨slot, hslot, hr, hV _ _ hv⟩
    · exact .inr ⟨hnew, hr, hN _ hv⟩
  kept := h.kept

theorem refl (a : Arena kind β) : a.Inherits Eq N a where
  issued := Nat.le_refl _
  origin _ slot' hs := .inl ⟨slot', hs, rfl, rfl⟩
  kept _ slot hs _ := contains_iff.2 ⟨slot, hs⟩

theorem trans {a₁ a₂ a₃ : Arena kind β} (h : a₁.Inherits V N a₂) (h' : a₂.Inherits V N a₃)
    (hV : ∀ v₁ v₂ v₃, V v₁ v₂ → V v₂ v₃ → V v₁ v₃) (hN : ∀ v v', N v → V v v' → N v') :
    a₁.Inherits V N a₃ where
  issued := Nat.le_trans h.issued h'.issued
  origin id slot₃ hs₃ := by
    rcases h'.origin id slot₃ hs₃ with ⟨slot₂, hs₂, hr, hv⟩ | ⟨hnew, hr, hv⟩
    · rw [← hr]
      rcases h.origin id slot₂ hs₂ with ⟨slot, hs, hr', hv'⟩ | ⟨hnew, hr', hv'⟩
      · exact .inl ⟨slot, hs, hr', hV _ _ _ hv' hv⟩
      · exact .inr ⟨hnew, hr', hN _ _ hv' hv⟩
    · exact .inr ⟨Nat.le_trans h.issued hnew, hr, hv⟩
  kept id slot hs hr := by
    obtain ⟨slot₂, hs₂⟩ := contains_iff.1 (h.kept id slot hs hr)
    refine h'.kept id slot₂ hs₂ ?_
    rcases h.origin id slot₂ hs₂ with ⟨slot', hs', hr', -⟩ | ⟨hnew, -⟩
    · rw [hs, Option.some.injEq] at hs'
      rw [← hr', ← hs', hr]
    · exact absurd (index_lt_of_slot? hs) (Nat.not_lt.2 hnew)

/-- Values that stay are carried along. -/
theorem trans_eq {a₁ a₂ a₃ : Arena kind β} (h : a₁.Inherits Eq N a₂) (h' : a₂.Inherits Eq N a₃) :
    a₁.Inherits Eq N a₃ :=
  h.trans h' (fun _ _ _ => Eq.trans) fun _ _ hN he => he ▸ hN

/-- A slot may be changed if it stays retained or not. -/
theorem setSlot {slot slot' : Slot β} (hs : a.slot? id = some slot) (hr : slot'.retained = slot.retained)
    (hV : V slot.value slot'.value) (hrefl : ∀ v, V v v) : a.Inherits V N (a.setSlot id (some slot')) where
  issued := Nat.le_of_eq (slots_length_setSlot _).symm
  origin other slot'' hs'' := by
    rcases slot?_setSlot_cases hs hs'' with ⟨rfl, rfl⟩ | ⟨-, hs''⟩
    · exact .inl ⟨slot, hs, hr.symm, hV⟩
    · exact .inl ⟨slot'', hs'', rfl, hrefl _⟩
  kept other slot'' hs'' _ := contains_setSlot hs (contains_iff.2 ⟨slot'', hs''⟩)

theorem compact (a : Arena kind β) : a.Inherits Eq N a.compact.2 where
  issued := Nat.le_of_eq slots_length_compact.symm
  origin id slot' hs := by
    rw [slot?_compact, Option.filter_eq_some_iff] at hs
    exact .inl ⟨slot', hs.1, rfl, rfl⟩
  kept id slot hs hr := contains_iff.2 ⟨slot, by simp [slot?_compact, hs, Slot.isIdle, hr]⟩

theorem acquire (hget : a.acquire id = .ok a') : a.Inherits Eq N a' := by
  obtain ⟨slot, hs, rfl⟩ := acquire_eq_ok_iff.1 hget
  exact setSlot hs rfl rfl fun _ => rfl

theorem release (hrelease : a.release id = .ok a') : a.Inherits Eq N a' := by
  obtain ⟨slot, hs, -, rfl⟩ := release_eq_ok_iff.1 hrelease
  exact setSlot hs rfl rfl fun _ => rfl

end Inherits

/-! ### Growth -/

/-- Slots that nothing uses and nobody retains are put behind those there are; their values satisfy
`N`. -/
def Grows (N : β → Prop) (a a' : Arena kind β) : Prop :=
  ∃ new : List β, (∀ v ∈ new, N v) ∧ a'.slots = a.slots ++ new.map fun v => some ⟨v, 0, false⟩

namespace Grows

variable {N : β → Prop}

theorem refl (a : Arena kind β) : a.Grows N a := ⟨[], by simp, by simp⟩

theorem trans {a₁ a₂ a₃ : Arena kind β} (h : a₁.Grows N a₂) (h' : a₂.Grows N a₃) : a₁.Grows N a₃ := by
  obtain ⟨new, hN, hslots⟩ := h
  obtain ⟨new', hN', hslots'⟩ := h'
  refine ⟨new ++ new', fun v hv => ?_, by simp [hslots, hslots']⟩
  exact (List.mem_append.1 hv).elim (hN v) (hN' v)

theorem insert (a : Arena kind β) {value : β} (h : N value) : a.Grows N (a.insert value false).2 :=
  ⟨[value], by simpa using h, by simp [Arena.insert]⟩

theorem length_le (h : a.Grows N a') : a.slots.length ≤ a'.slots.length := by
  obtain ⟨new, -, hslots⟩ := h
  simp [hslots]

theorem slot?_of_lt (h : a.Grows N a') (hid : id.index < a.slots.length) : a'.slot? id = a.slot? id := by
  obtain ⟨new, -, hslots⟩ := h
  rw [slot?, slot?, hslots, List.getElem?_append_left hid]

/-- What was there stays as it was. -/
theorem slot?_eq (h : a.Grows N a') {slot : Slot β} (hs : a.slot? id = some slot) :
    a'.slot? id = some slot := by
  rw [h.slot?_of_lt (index_lt_of_slot? hs), hs]

theorem contains (h : a.Grows N a') (hid : a.contains id = true) : a'.contains id = true := by
  obtain ⟨slot, hs⟩ := contains_iff.1 hid
  exact contains_iff.2 ⟨slot, h.slot?_eq hs⟩

/-- What is new is unused, not retained, and as `N` says. -/
theorem slot?_of_le (h : a.Grows N a') (hid : a.slots.length ≤ id.index) {slot : Slot β}
    (hs : a'.slot? id = some slot) : slot.inUse = 0 ∧ slot.retained = false ∧ N slot.value := by
  obtain ⟨new, hN, hslots⟩ := h
  rw [slot?, hslots, List.getElem?_append_right hid, List.getElem?_map] at hs
  cases hv : new[id.index - a.slots.length]? with
  | none => simp [hv] at hs
  | some v =>
    simp only [hv, Option.map_some, Option.join_some, Option.some.injEq] at hs
    subst hs
    exact ⟨rfl, rfl, hN v (List.mem_of_getElem? hv)⟩

theorem inherits (h : a.Grows N a') : a.Inherits Eq N a' where
  issued := h.length_le
  origin id slot' hs := by
    by_cases hid : id.index < a.slots.length
    · rw [h.slot?_of_lt hid] at hs
      exact .inl ⟨slot', hs, rfl, rfl⟩
    · have hle := Nat.le_of_not_lt hid
      obtain ⟨-, hr, hv⟩ := h.slot?_of_le hle hs
      exact .inr ⟨hle, hr, hv⟩
  kept id slot hs _ := h.contains (contains_iff.2 ⟨slot, hs⟩)

theorem holds (h : a.Grows N a') {names : List (Handle kind)} (hn : a.Holds names) : a'.Holds names where
  counts id slot hs := by
    by_cases hid : id.index < a.slots.length
    · rw [h.slot?_of_lt hid] at hs
      exact hn.counts id slot hs
    · have hle := Nat.le_of_not_lt hid
      have hnot : id ∉ names := hn.not_mem_of_slot? (by
        rw [slot?, List.getElem?_eq_none hle]
        rfl)
      rw [(h.slot?_of_le hle hs).1, List.count_eq_zero.2 hnot]
  live id hid := h.contains (hn.live id hid)

end Grows

/-- The handle is live in `a'`, and it is a given one or was not yet issued in `a`. -/
def Drawn (a a' : Arena kind β) (given : List (Handle kind)) (id : Handle kind) : Prop :=
  a'.contains id = true ∧ (id ∈ given ∨ a.slots.length ≤ id.index)

theorem Drawn.grow {N : β → Prop} {a₁ a₂ : Arena kind β} {given : List (Handle kind)}
    (h : a.Drawn a₁ given id) (hg : a₁.Grows N a₂) : a.Drawn a₂ given id :=
  ⟨hg.contains h.1, h.2⟩

theorem Drawn.insert {N : β → Prop} (h : a.Grows N a') (given : List (Handle kind)) (value : β)
    (retained : Bool) : a.Drawn (a'.insert value retained).2 given (a'.insert value retained).1 :=
  ⟨contains_iff.2 ⟨_, slot?_insert_self _ _⟩, .inr h.length_le⟩

/-! ### Values that change in place -/

/-- The slots are the same up to the values in them. -/
def SameUses (a a' : Arena kind β) : Prop :=
  a'.slots.length = a.slots.length ∧
    ∀ id, (a'.slot? id).map (fun slot => (slot.inUse, slot.retained)) =
      (a.slot? id).map fun slot => (slot.inUse, slot.retained)

namespace SameUses

theorem refl (a : Arena kind β) : a.SameUses a := ⟨rfl, fun _ => rfl⟩

theorem trans {a₁ a₂ a₃ : Arena kind β} (h : a₁.SameUses a₂) (h' : a₂.SameUses a₃) : a₁.SameUses a₃ :=
  ⟨h'.1.trans h.1, fun id => (h'.2 id).trans (h.2 id)⟩

theorem put {value : β} (hput : a.put id value = .ok a') : a.SameUses a' := by
  obtain ⟨slot, hs, rfl⟩ := put_eq_ok_iff.1 hput
  refine ⟨slots_length_setSlot _, fun other => ?_⟩
  by_cases hid : other = id
  · subst hid
    rw [slot?_setSlot_self hs, hs]
    rfl
  · rw [slot?_setSlot_of_ne hid]

/-- A slot that is there afterwards was there before with the same users. -/
theorem exists_before (h : a.SameUses a') {slot' : Slot β} (hs : a'.slot? id = some slot') :
    ∃ slot, a.slot? id = some slot ∧ slot.inUse = slot'.inUse ∧ slot.retained = slot'.retained := by
  have hid := h.2 id
  rw [hs, Option.map_some, eq_comm, Option.map_eq_some_iff] at hid
  obtain ⟨slot, hslot, he⟩ := hid
  exact ⟨slot, hslot, (Prod.mk.inj he).1, (Prod.mk.inj he).2⟩

theorem exists_after (h : a.SameUses a') {slot : Slot β} (hs : a.slot? id = some slot) :
    ∃ slot', a'.slot? id = some slot' := by
  have hid := h.2 id
  rw [hs, Option.map_some, Option.map_eq_some_iff] at hid
  obtain ⟨slot', hslot, -⟩ := hid
  exact ⟨slot', hslot⟩

theorem holds (h : a.SameUses a') {names : List (Handle kind)} (hn : a.Holds names) : a'.Holds names where
  counts id slot' hs := by
    obtain ⟨slot, hslot, hu, -⟩ := h.exists_before hs
    rw [← hu, hn.counts id slot hslot]
  live id hid := by
    obtain ⟨slot, hs⟩ := contains_iff.1 (hn.live id hid)
    exact contains_iff.2 (h.exists_after hs)

theorem tidy (h : a.SameUses a') (ht : a.Tidy) : a'.Tidy := fun id slot' hs => by
  obtain ⟨slot, hslot, hu, hr⟩ := h.exists_before hs
  have := ht id slot hslot
  simpa only [Slot.isIdle, hu, hr] using this

theorem inherits (h : a.SameUses a') : a.Inherits (fun _ _ => True) (fun _ => True) a' where
  issued := Nat.le_of_eq h.1.symm
  origin id slot' hs := by
    obtain ⟨slot, hslot, -, hr⟩ := h.exists_before hs
    exact .inl ⟨slot, hslot, hr, trivial⟩
  kept id slot hs _ := contains_iff.2 (h.exists_after hs)

end SameUses

end Arena

end SpectralResponse
