import SpectralResponse.Arena.Request
import SpectralResponse.Proofs.Arena
import SpectralResponse.Proofs.Except
import SpectralResponse.Proofs.InPlace
import Mathlib.Data.List.Nodup
import Mathlib.Data.List.Range

/-!
# What the history of an arena tells of its slots

The history of an arena lists the requests made of it with their outcomes, failed ones included. Which value a
handle names, how many users its slot has, and whether its maker keeps it, can be told from the history alone,
without a look at the slots: `Names`, `acquired`, `released`, `retained`. A slot may be freed when the history counts
as many users off as it counted, so that also what is freed, and when, can be told from it (`Frees`).

## What is proved

* `perform_edit` — a request carried out in place does what the request answers, or nothing.
* `Tells.record`, `tells_replay` — one more request, and any number of them, leave the slots as the history tells.
* `lifetimes_follow_history` — handles are never given twice, they name their values until these are freed, and
  slots are freed exactly when nothing uses them.
-/

namespace SpectralResponse

variable {β γ δ : Type} {kind : ProductKind}

/-! ### Changing slots in place -/

namespace Arena

/-- The outcome of a change that is made as a whole or not at all. -/
def wholly (a : Arena kind β) : Except SlotFault (γ × Arena kind β) → Except SlotFault γ × Arena kind β
  | .ok (x, next) => (.ok x, next)
  | .error fault => (.error fault, a)

end Arena

namespace ArenaEdit

variable (a : Arena kind β) (id : Handle kind)

theorem perform_slot_bind (f : Slot β → ArenaEdit kind β γ) :
    (slot id >>= f).perform a =
      match a.slot id with
      | .ok s => (f s).perform a
      | .error fault => (.error fault, a) := by
  rw [slot, bind_assoc, InPlace.perform_get_bind, InPlace.perform_lift_bind]
  cases a.slot id <;> rfl

/-- The new slot is the last one, and the number of those before it is its handle. -/
theorem perform_insert (value : β) (retained : Bool) :
    (insert value retained).perform a = a.wholly (.ok (a.insert value retained)) := by
  show (Except.ok (Handle.mk ((a.slots ++ [some (Slot.mk value 0 retained)]).length - 1)), _) = _
  rw [List.length_append, List.length_singleton, Nat.add_sub_cancel]
  rfl

theorem perform_acquire : (acquire id).perform a = a.wholly ((a.acquire id).map fun next => ((), next)) := by
  rw [acquire, perform_slot_bind, Arena.acquire]
  cases a.slot id <;> rfl

theorem perform_release : (release id).perform a = a.wholly ((a.release id).map fun next => ((), next)) := by
  rw [release, perform_slot_bind, Arena.release]
  cases a.slot id with
  | error fault => rfl
  | ok s => by_cases hunused : s.inUse = 0 <;> simp only [bind, Except.bind, hunused] <;> rfl

theorem perform_setRetained (retained : Bool) :
    (setRetained id retained).perform a = a.wholly ((a.setRetained id retained).map fun next => ((), next)) := by
  rw [setRetained, perform_slot_bind, Arena.setRetained]
  cases a.slot id <;> rfl

theorem perform_remove : (remove id).perform a = a.wholly (a.remove id) := by
  rw [remove, InPlace.perform_get_bind, InPlace.perform_lift_bind]
  cases hs : a.slot? id with
  | none => simp [Arena.inUse, Arena.remove, Arena.slot, hs, bind, Except.bind, Arena.wholly]
  | some s =>
    rw [Arena.inUse_eq_ok_iff.2 ⟨s, hs, rfl⟩]
    dsimp only
    by_cases hused : 0 < s.inUse
    · rw [if_pos hused, Arena.remove_eq_error hs hused]
      rfl
    · rw [if_neg hused, InPlace.perform_get_bind, hs, InPlace.perform_modify_bind,
        Arena.remove_eq_ok_iff.2 ⟨s, hs, by omega, rfl, rfl⟩]
      rfl

theorem sweepSlot_eq (slot? : Option (Slot β)) :
    Arena.sweepSlot slot? = if slot?.any Slot.isIdle then none else slot? := by
  cases slot? with
  | none => rfl
  | some s => cases hidle : s.isIdle <;> simp [Arena.sweepSlot, hidle]

/-- The idle slots among `rest` are freed one after another. -/
theorem perform_freeIdle (freed : Nat) (done rest : List (Option (Slot β))) :
    (freeIdle freed (List.range' done.length rest.length)).perform (⟨done ++ rest⟩ : Arena kind β) =
      (.ok (freed + rest.countP (·.any Slot.isIdle)), ⟨done ++ rest.map Arena.sweepSlot⟩) := by
  induction rest generalizing freed done with
  | nil =>
    rw [List.countP_nil]
    rfl
  | cons slot? rest ih =>
    have hplace : (⟨done ++ slot? :: rest⟩ : Arena kind β).slot? ⟨done.length⟩ = slot? := by
      simp [Arena.slot?]
    have hset : (⟨done ++ slot? :: rest⟩ : Arena kind β).setSlot ⟨done.length⟩ none = ⟨done ++ none :: rest⟩ := by
      simp [Arena.setSlot]
    have hnext (freed : Nat) (slot? : Option (Slot β)) := ih freed (done ++ [slot?])
    simp only [List.length_append, List.length_singleton, List.append_assoc, List.singleton_append] at hnext
    rw [List.length_cons, List.range'_succ, freeIdle, InPlace.perform_get_bind, hplace, List.countP_cons,
      List.map_cons, sweepSlot_eq]
    by_cases hidle : slot?.any Slot.isIdle = true
    · rw [if_pos hidle, if_pos hidle, if_pos hidle, InPlace.perform_modify_bind, hset, hnext, Nat.add_assoc,
        Nat.add_comm 1]
    · rw [if_neg hidle, if_neg hidle, if_neg hidle, hnext, Nat.add_zero]

/-- One pass over the places frees all idle slots. -/
theorem perform_compact : compact.perform a = a.wholly (.ok a.compact) := by
  have hpass : (freeIdle 0 (List.range' 0 a.slots.length)).perform a =
      (.ok (0 + a.slots.countP (·.any Slot.isIdle)), a.compact.2) := perform_freeIdle 0 [] a.slots
  rw [compact, InPlace.perform_get_bind, List.range_eq_range', hpass, Nat.zero_add]
  rfl

end ArenaEdit

namespace Arena

/-- A request carried out in place does what the request answers, or nothing. -/
theorem perform_edit (a : Arena kind β) (request : Request kind β) :
    request.edit.perform a = a.wholly (request.answer a) := by
  cases request with
  | insert value retained =>
    rw [Request.edit, InPlace.perform_bind, ArenaEdit.perform_insert]
    rfl
  | acquire id =>
    rw [Request.edit, InPlace.perform_bind, ArenaEdit.perform_acquire, Request.answer]
    cases a.acquire id <;> rfl
  | release id =>
    rw [Request.edit, InPlace.perform_bind, ArenaEdit.perform_release, Request.answer]
    cases a.release id <;> rfl
  | setRetained id retained =>
    rw [Request.edit, InPlace.perform_bind, ArenaEdit.perform_setRetained, Request.answer]
    cases a.setRetained id retained <;> rfl
  | remove id =>
    rw [Request.edit, InPlace.perform_bind, ArenaEdit.perform_remove, Request.answer]
    cases a.remove id <;> rfl
  | compact =>
    rw [Request.edit, InPlace.perform_bind, ArenaEdit.perform_compact]
    rfl

/-! ### What a history tells -/

/-- The handle of a value that was put in. -/
def Event.handle? (event : Event kind β) : Option (Handle kind) :=
  match event.outcome with
  | .ok (.handle id) => some id
  | _ => none

/-- A user of the slot was counted. -/
def Event.acquires (event : Event kind β) (id : Handle kind) : Bool :=
  match event.request, event.outcome with
  | .acquire other, .ok _ => other == id
  | _, _ => false

/-- A user of the slot was counted off. -/
def Event.releases (event : Event kind β) (id : Handle kind) : Bool :=
  match event.request, event.outcome with
  | .release other, .ok _ => other == id
  | _, _ => false

/-- Whether the maker keeps the value, if the event tells. -/
def Event.retains? (event : Event kind β) (id : Handle kind) : Option Bool :=
  match event.request, event.outcome with
  | .insert _ retained, .ok (.handle other) => if other = id then some retained else none
  | .setRetained other retained, .ok _ => if other = id then some retained else none
  | _, _ => none

/-- The handles that were given, in the order in which they were given. -/
def returned (history : List (Event kind β)) : List (Handle kind) := history.filterMap Event.handle?

/-- How often a user of the slot was counted. -/
def acquired (history : List (Event kind β)) (id : Handle kind) : Nat := history.countP (·.acquires id)

/-- How often a user of the slot was counted off. -/
def released (history : List (Event kind β)) (id : Handle kind) : Nat := history.countP (·.releases id)

/-- What was last told about whether the maker keeps the value. -/
def retained (history : List (Event kind β)) (id : Handle kind) : Bool :=
  history.foldl (fun kept event => (event.retains? id).getD kept) false

/-- After such a past the event frees the slot: its value is taken out, or idle slots are freed while the slot has no
users and its maker does not keep it. -/
def Frees (past : List (Event kind β)) (event : Event kind β) (id : Handle kind) : Prop :=
  match event.request, event.outcome with
  | .remove other, .ok _ => other = id
  | .compact, .ok _ => acquired past id = released past id ∧ retained past id = false
  | _, _ => False

/-- The value was put in with that handle, and no event since has freed its slot. -/
def Names (history : List (Event kind β)) (id : Handle kind) (value : β) : Prop :=
  ∃ i kept, history[i]? = some ⟨.insert value kept, .ok (.handle id)⟩ ∧
    ∀ j event, i < j → history[j]? = some event → ¬ Frees (history.take j) event id

section

variable (past : List (Event kind β)) (event : Event kind β) {a a' : Arena kind β} {id other : Handle kind}

theorem returned_concat : returned (past ++ [event]) = returned past ++ event.handle?.toList := by
  cases h : event.handle? <;> simp [returned, h]

theorem acquired_concat : acquired (past ++ [event]) id = acquired past id + (event.acquires id).toNat := by
  cases h : event.acquires id <;> simp [acquired, h]

theorem released_concat : released (past ++ [event]) id = released past id + (event.releases id).toNat := by
  cases h : event.releases id <;> simp [released, h]

theorem retained_concat : retained (past ++ [event]) id = (event.retains? id).getD (retained past id) := by
  simp [retained]

/-- One more event ends a name if it frees the slot, and begins one if it puts the value in. -/
theorem names_concat {value : β} : Names (past ++ [event]) id value ↔
    (Names past id value ∧ ¬ Frees past event id) ∨
      ∃ kept, event = ⟨.insert value kept, .ok (.handle id)⟩ := by
  constructor
  · rintro ⟨i, kept, hi, hlater⟩
    have hlt := (List.getElem?_eq_some_iff.1 hi).1
    rw [List.length_append, List.length_singleton] at hlt
    rcases Nat.lt_or_eq_of_le (Nat.le_of_lt_succ hlt) with hold | hnew
    · rw [List.getElem?_append_left hold] at hi
      refine .inl ⟨⟨i, kept, hi, ?_⟩, ?_⟩
      · intro j event' hij hj
        have hj' := (List.getElem?_eq_some_iff.1 hj).1
        have := hlater j event' hij (by rwa [List.getElem?_append_left hj'])
        rwa [List.take_append_of_le_length (Nat.le_of_lt hj')] at this
      · have := hlater past.length event hold (by simp)
        rwa [List.take_left' rfl] at this
    · subst hnew
      rw [List.getElem?_concat_length, Option.some.injEq] at hi
      exact .inr ⟨kept, hi⟩
  · rintro (⟨⟨i, kept, hi, hlater⟩, hkept⟩ | ⟨kept, rfl⟩)
    · have hold := (List.getElem?_eq_some_iff.1 hi).1
      refine ⟨i, kept, by rwa [List.getElem?_append_left hold], ?_⟩
      intro j event' hij hj
      have hlt := (List.getElem?_eq_some_iff.1 hj).1
      rw [List.length_append, List.length_singleton] at hlt
      rcases Nat.lt_or_eq_of_le (Nat.le_of_lt_succ hlt) with hj' | hlast
      · rw [List.getElem?_append_left hj'] at hj
        rw [List.take_append_of_le_length (Nat.le_of_lt hj')]
        exact hlater j event' hij hj
      · subst hlast
        rw [List.getElem?_concat_length, Option.some.injEq] at hj
        rw [List.take_left' rfl, ← hj]
        exact hkept
    · refine ⟨past.length, kept, List.getElem?_concat_length, ?_⟩
      intro j event' hj hevent
      have hlt := (List.getElem?_eq_some_iff.1 hevent).1
      rw [List.length_append, List.length_singleton] at hlt
      omega

end

/-! ### Slots follow the history -/

/-- The slots are as the history tells. -/
structure Tells (history : List (Event kind β)) (a : Arena kind β) : Prop where
  /-- A handle was given for each place. -/
  places : returned history = (List.range a.slots.length).map Handle.mk
  /-- A slot has the value that was put in, the users that were counted and not counted off, and it is kept or not as
  was last told. -/
  slots : ∀ id slot, a.slot? id = some slot → Names history id slot.value ∧
    slot.inUse + released history id = acquired history id ∧ slot.retained = retained history id
  /-- What has a name is there. -/
  live : ∀ id value, Names history id value → a.contains id = true
  /-- Nothing was counted for a handle that has not been given. -/
  unused : ∀ id, a.slots.length ≤ id.index → acquired history id = 0 ∧ released history id = 0

namespace Tells

variable {history : List (Event kind β)} {a a' : Arena kind β} {id : Handle kind}

theorem start : Tells ([] : List (Event kind β)) (empty : Arena kind β) where
  places := rfl
  slots id slot hs := by
    rw [slot?_empty] at hs
    cases hs
  live id value h := by
    obtain ⟨i, kept, hi, -⟩ := h
    cases hi
  unused _ _ := ⟨rfl, rfl⟩

variable (h : Tells history a)
include h

/-- A new slot goes behind all others, under a handle for which nothing was counted. -/
theorem insert (value : β) (kept : Bool) :
    Tells (history ++ [⟨.insert value kept, .ok (.handle (a.insert value kept).1)⟩]) (a.insert value kept).2 where
  places := by
    rw [returned_concat, h.places]
    simp [Arena.insert, Event.handle?, List.range_succ]
  slots other slot hs := by
    rw [acquired_concat, released_concat, retained_concat, names_concat]
    rcases slot?_insert_cases hs with ⟨rfl, rfl⟩ | ⟨hne, hs⟩
    · obtain ⟨hacquired, hreleased⟩ := h.unused (a.insert value kept).1 (Nat.le_refl _)
      refine ⟨.inr ⟨kept, rfl⟩, ?_, ?_⟩
      · simp [Event.acquires, Event.releases, hacquired, hreleased]
      · simp [Event.retains?]
    · obtain ⟨hname, husers, hkept⟩ := h.slots other slot hs
      refine ⟨.inl ⟨hname, not_false⟩, husers, ?_⟩
      simpa [Event.retains?, Ne.symm hne] using hkept
  live other value' hname := by
    rcases (names_concat _ _).1 hname with ⟨hname, -⟩ | ⟨kept', heq⟩
    · exact contains_insert value kept (h.live other value' hname)
    · have hother : (a.insert value kept).1 = other := by
        simpa using congrArg Event.outcome heq
      rw [← hother]
      exact contains_iff.2 ⟨_, slot?_insert_self value kept⟩
  unused other hlen := by
    rw [acquired_concat, released_concat]
    have hlen' : a.slots.length ≤ other.index := by
      have : (a.insert value kept).2.slots.length = a.slots.length + 1 := by simp [Arena.insert]
      omega
    exact h.unused other hlen'

/-- A slot changes in its users, or in whether it is kept, as one more event tells; nothing else changes. -/
theorem setSlot (event : Event kind β) {slot slot' : Slot β} (hs : a.slot? id = some slot)
    (hvalue : slot'.value = slot.value) (hhandle : event.handle? = none)
    (hfrees : ∀ other, ¬ Frees history event other)
    (husers : slot'.inUse + released (history ++ [event]) id = acquired (history ++ [event]) id)
    (hkept : slot'.retained = retained (history ++ [event]) id)
    (hother : ∀ other ≠ id, event.acquires other = false ∧ event.releases other = false ∧ event.retains? other = none) :
    Tells (history ++ [event]) (a.setSlot id (some slot')) where
  places := by
    rw [returned_concat, hhandle, slots_length_setSlot, h.places]
    exact List.append_nil _
  slots other slot'' hs'' := by
    rw [names_concat]
    rcases slot?_setSlot_cases hs hs'' with ⟨rfl, rfl⟩ | ⟨hne, hs''⟩
    · rw [hvalue]
      exact ⟨.inl ⟨(h.slots other slot hs).1, hfrees other⟩, husers, hkept⟩
    · obtain ⟨hacquires, hreleases, hretains⟩ := hother other hne
      obtain ⟨hname, husers, hkept⟩ := h.slots other slot'' hs''
      rw [acquired_concat, released_concat, retained_concat, hacquires, hreleases, hretains]
      exact ⟨.inl ⟨hname, hfrees other⟩, husers, hkept⟩
  live other value hname := by
    rcases (names_concat _ _).1 hname with ⟨hname, -⟩ | ⟨kept, rfl⟩
    · exact contains_setSlot hs (h.live other value hname)
    · cases hhandle
  unused other hlen := by
    rw [slots_length_setSlot] at hlen
    have hne : other ≠ id := by
      rintro rfl
      exact absurd (index_lt_of_slot? hs) (Nat.not_lt.2 hlen)
    obtain ⟨hacquires, hreleases, -⟩ := hother other hne
    rw [acquired_concat, released_concat, hacquires, hreleases]
    exact h.unused other hlen

/-- Slots are freed as one more event tells; nothing else changes. -/
theorem free {event : Event kind β} (hhandle : event.handle? = none)
    (hsame : ∀ id, event.acquires id = false ∧ event.releases id = false ∧ event.retains? id = none)
    (hlen : a'.slots.length = a.slots.length)
    (hslots : ∀ id slot, a'.slot? id = some slot ↔ a.slot? id = some slot ∧ ¬ Frees history event id) :
    Tells (history ++ [event]) a' where
  places := by
    rw [returned_concat, hhandle, hlen, h.places]
    exact List.append_nil _
  slots id slot hs := by
    obtain ⟨hs, hfrees⟩ := (hslots id slot).1 hs
    obtain ⟨hacquires, hreleases, hretains⟩ := hsame id
    obtain ⟨hname, husers, hkept⟩ := h.slots id slot hs
    rw [names_concat, acquired_concat, released_concat, retained_concat, hacquires, hreleases, hretains]
    exact ⟨.inl ⟨hname, hfrees⟩, husers, hkept⟩
  live id value hname := by
    rcases (names_concat _ _).1 hname with ⟨hname, hfrees⟩ | ⟨kept, rfl⟩
    · obtain ⟨slot, hs⟩ := contains_iff.1 (h.live id value hname)
      exact contains_iff.2 ⟨slot, (hslots id slot).2 ⟨hs, hfrees⟩⟩
    · cases hhandle
  unused id hid := by
    obtain ⟨hacquires, hreleases, -⟩ := hsame id
    rw [acquired_concat, released_concat, hacquires, hreleases]
    exact h.unused id (hlen ▸ hid)

/-- A request that fails leaves the slots. -/
theorem refused (request : Request kind β) (fault : SlotFault) : Tells (history ++ [⟨request, .error fault⟩]) a := by
  apply h.free
  · rfl
  · intro id
    cases request <;> exact ⟨rfl, rfl, rfl⟩
  · rfl
  · intro id slot
    cases request <;> simp [Frees]

/-- One step: a request that succeeds leaves the slots as the longer history tells. -/
theorem answered {request : Request kind β} {answer : Answer kind β} (hr : request.answer a = .ok (answer, a')) :
    Tells (history ++ [⟨request, .ok answer⟩]) a' := by
  cases request with
  | insert value kept =>
    cases Except.ok.inj hr
    exact h.insert value kept
  | acquire id =>
    obtain ⟨next, hnext, hr⟩ := Except.bind_eq_ok.1 hr
    cases Except.ok.inj hr
    obtain ⟨slot, hs, rfl⟩ := acquire_eq_ok_iff.1 hnext
    obtain ⟨-, husers, hkept⟩ := h.slots id slot hs
    refine h.setSlot ⟨.acquire id, .ok .done⟩ hs rfl rfl (fun _ => not_false) ?_ ?_ fun other hne => ⟨?_, rfl, rfl⟩
    · rw [acquired_concat, released_concat]
      simp only [Event.acquires, Event.releases, beq_self_eq_true, Bool.toNat_true, Bool.toNat_false]
      omega
    · rw [retained_concat]
      exact hkept
    · simpa [Event.acquires] using Ne.symm hne
  | release id =>
    obtain ⟨next, hnext, hr⟩ := Except.bind_eq_ok.1 hr
    cases Except.ok.inj hr
    obtain ⟨slot, hs, hused, rfl⟩ := release_eq_ok_iff.1 hnext
    obtain ⟨-, husers, hkept⟩ := h.slots id slot hs
    refine h.setSlot ⟨.release id, .ok .done⟩ hs rfl rfl (fun _ => not_false) ?_ ?_ fun other hne => ⟨rfl, ?_, rfl⟩
    · rw [acquired_concat, released_concat]
      simp only [Event.acquires, Event.releases, beq_self_eq_true, Bool.toNat_true, Bool.toNat_false]
      omega
    · rw [retained_concat]
      exact hkept
    · simpa [Event.releases] using Ne.symm hne
  | setRetained id kept =>
    obtain ⟨next, hnext, hr⟩ := Except.bind_eq_ok.1 hr
    cases Except.ok.inj hr
    obtain ⟨slot, hs, rfl⟩ := setRetained_eq_ok_iff.1 hnext
    obtain ⟨-, husers, -⟩ := h.slots id slot hs
    refine h.setSlot ⟨.setRetained id kept, .ok .done⟩ hs rfl rfl (fun _ => not_false) ?_ ?_
      fun other hne => ⟨rfl, rfl, ?_⟩
    · rw [acquired_concat, released_concat]
      exact husers
    · rw [retained_concat]
      simp [Event.retains?]
    · simp [Event.retains?, Ne.symm hne]
  | remove id =>
    obtain ⟨⟨value, next⟩, hnext, hr⟩ := Except.bind_eq_ok.1 hr
    cases Except.ok.inj hr
    obtain ⟨slot, hs, -, -, rfl⟩ := remove_eq_ok_iff.1 hnext
    apply h.free rfl (fun _ => ⟨rfl, rfl, rfl⟩) (slots_length_setSlot none)
    intro other slot'
    show _ ↔ _ ∧ ¬ id = other
    by_cases hid : other = id
    · subst hid
      simp [slot?_setSlot_self hs]
    · simp [slot?_setSlot_of_ne hid, Ne.symm hid]
  | compact =>
    obtain ⟨rfl, rfl⟩ := Prod.mk.inj (Except.ok.inj hr)
    apply h.free rfl (fun _ => ⟨rfl, rfl, rfl⟩) slots_length_compact
    intro id slot
    rw [slot?_compact, Option.filter_eq_some_iff]
    apply and_congr_right
    intro hs
    obtain ⟨-, husers, hkept⟩ := h.slots id slot hs
    -- the slot has no users exactly if all that were counted have been counted off
    have hunused : slot.inUse = 0 ↔ acquired history id = released history id := by omega
    simp [Frees, Slot.isIdle, ← hunused, ← hkept, imp_iff_not_or]

/-- One step: a request, whether it fails or not, leaves the slots as the longer history tells. -/
theorem record (request : Request kind β) :
    Tells (record (history, a) request).1 (record (history, a) request).2 := by
  rw [Arena.record, perform_edit]
  cases hr : request.answer a with
  | ok result => exact h.answered hr
  | error fault => exact h.refused request fault

end Tells

/-- A run: requests, whether they fail or not, leave the slots as their history tells. -/
theorem tells_replay (requests : List (Request kind β)) : Tells (replay requests).1 (replay requests).2 := by
  induction requests using List.reverseRecOn with
  | nil => exact Tells.start
  | append_singleton requests request ih =>
    rw [replay, List.foldl_append]
    exact ih.record request

/-! ### Lifetimes -/

section

variable {history : List (Event kind β)} {a : Arena kind β} {id : Handle kind}

theorem mem_ids_iff : id ∈ a.ids ↔ a.contains id = true := by
  constructor
  · intro hid
    obtain ⟨⟨_, slot⟩, hentry, rfl⟩ := List.mem_map.1 hid
    obtain ⟨⟨slot?, index⟩, hplace, hentry⟩ := List.mem_filterMap.1 hentry
    obtain ⟨slot', rfl, hentry⟩ := Option.map_eq_some_iff.1 hentry
    cases hentry
    rw [List.mem_zipIdx_iff_getElem?] at hplace
    exact contains_iff.2 ⟨slot, by rw [slot?, hplace, Option.join_some]⟩
  · intro hid
    obtain ⟨slot, hs⟩ := contains_iff.1 hid
    exact mem_ids_of_slot? hs

/-- As many slots are freed as handles stop being live. -/
theorem freed_eq_countP (a : Arena kind β) : a.compact.1 = a.ids.countP fun id => !a.compact.2.contains id := by
  have hplaces : a.compact.1 = a.slots.zipIdx.countP fun place => place.1.any Slot.isIdle := by
    rw [compact]
    conv_lhs => rw [← List.zipIdx_map_fst 0 a.slots, List.countP_map]
    rfl
  rw [hplaces, ids, List.countP_map, entries, List.countP_filterMap]
  apply List.countP_congr
  rintro ⟨slot?, index⟩ hplace
  rw [List.mem_zipIdx_iff_getElem?] at hplace
  cases slot? with
  | none => simp
  | some slot =>
    have hs : a.slot? ⟨index⟩ = some slot := by rw [slot?, hplace, Option.join_some]
    cases hidle : slot.isIdle <;> simp [contains, slot?_compact, hs, hidle]

/-- If no handle was given twice, only one event gave it. -/
theorem eq_of_handle? (hnodup : (returned history).Nodup) {i j : Nat} {event event' : Event kind β}
    (hi : history[i]? = some event) (hj : history[j]? = some event') (hevent : event.handle? = some id)
    (hevent' : event'.handle? = some id) : i = j := by
  have happart : history.Pairwise fun x y => ∀ given, x.handle? = some given → ∀ given', y.handle? = some given' →
      given ≠ given' := List.pairwise_filterMap.1 hnodup
  obtain ⟨hilt, rfl⟩ := List.getElem?_eq_some_iff.1 hi
  obtain ⟨hjlt, rfl⟩ := List.getElem?_eq_some_iff.1 hj
  by_contra hne
  rcases Nat.lt_or_gt_of_ne hne with hlt | hlt
  · exact List.pairwise_iff_getElem.1 happart i j hilt hjlt hlt id hevent id hevent' rfl
  · exact List.pairwise_iff_getElem.1 happart j i hjlt hilt hlt id hevent' id hevent rfl

/-- A value can be taken out exactly if nothing uses it. -/
theorem remove_iff {value : β} : (∃ next, (Request.remove id).edit.perform a = (.ok (.value value), next)) ↔
    a.get id = .ok value ∧ a.inUse id = .ok 0 := by
  rw [perform_edit, Request.answer, get_eq_ok_iff, inUse_eq_ok_iff]
  constructor
  · rintro ⟨next, hnext⟩
    cases hremove : a.remove id with
    | error fault =>
      rw [hremove] at hnext
      cases hnext
    | ok result =>
      obtain ⟨slot, hs, hunused, hvalue, -⟩ := remove_eq_ok_iff.1 hremove
      rw [hremove] at hnext
      cases hnext
      exact ⟨⟨slot, hs, hvalue⟩, slot, hs, hunused⟩
  · rintro ⟨⟨slot, hs, hvalue⟩, slot', hs', hunused⟩
    cases hs.symm.trans hs'
    rw [remove_eq_ok_iff.2 ⟨slot, hs, hunused, hvalue, rfl⟩]
    exact ⟨_, rfl⟩

namespace Tells

variable (h : Tells history a)
include h

theorem nodup_returned : (returned history).Nodup := by
  rw [h.places]
  exact List.nodup_range.map fun _ _ => Handle.mk.inj

theorem insert_not_mem (value : β) (kept : Bool) : (a.insert value kept).1 ∉ returned history := by
  rw [h.places]
  simp [Arena.insert]

/-- A handle names what was put in with it and has not been freed. -/
theorem get_eq_ok_iff_names {value : β} : a.get id = .ok value ↔ Names history id value := by
  rw [get_eq_ok_iff]
  constructor
  · rintro ⟨slot, hs, rfl⟩
    exact (h.slots id slot hs).1
  · intro hname
    obtain ⟨slot, hs⟩ := contains_iff.1 (h.live id value hname)
    obtain ⟨i, kept, hi, -⟩ := hname
    obtain ⟨⟨j, kept', hj, -⟩, -⟩ := h.slots id slot hs
    have hij := eq_of_handle? h.nodup_returned hi hj rfl rfl
    rw [← hij, hi] at hj
    cases hj
    exact ⟨slot, hs, rfl⟩

/-- Once its slot is freed a handle names nothing. -/
theorem contains_eq_false {i : Nat} {event : Event kind β} (hi : history[i]? = some event)
    (hgiven : id ∈ returned (history.take i)) (hfrees : Frees (history.take i) event id) : a.contains id = false := by
  rw [Bool.eq_false_iff]
  intro hlive
  obtain ⟨slot, hs⟩ := contains_iff.1 hlive
  obtain ⟨⟨k, kept, hk, hlater⟩, -⟩ := h.slots id slot hs
  obtain ⟨giving, hgiving, hhandle⟩ := List.mem_filterMap.1 hgiven
  obtain ⟨j, hj⟩ := List.mem_iff_getElem?.1 hgiving
  have hji : j < i := by
    have := (List.getElem?_eq_some_iff.1 hj).1
    rw [List.length_take] at this
    omega
  rw [List.getElem?_take_of_lt hji] at hj
  have hkj := eq_of_handle? h.nodup_returned hk hj rfl hhandle
  exact hlater i event (by omega) hi hfrees

/-- The users of a slot are those that were counted and not counted off. -/
theorem inUse_eq_ok_iff_counted {count : Nat} : a.inUse id = .ok count ↔
    a.contains id = true ∧ count + released history id = acquired history id := by
  rw [inUse_eq_ok_iff]
  constructor
  · rintro ⟨slot, hs, rfl⟩
    exact ⟨contains_iff.2 ⟨slot, hs⟩, (h.slots id slot hs).2.1⟩
  · rintro ⟨hlive, hcount⟩
    obtain ⟨slot, hs⟩ := contains_iff.1 hlive
    refine ⟨slot, hs, ?_⟩
    have := (h.slots id slot hs).2.1
    omega

/-- What stays is live now and has users, or its maker keeps it. -/
theorem contains_compact_iff : a.compact.2.contains id = true ↔
    a.contains id = true ∧ ¬ (a.inUse id = .ok 0 ∧ retained history id = false) := by
  rw [contains_iff, contains_iff]
  constructor
  · rintro ⟨slot, hs⟩
    rw [slot?_compact, Option.filter_eq_some_iff] at hs
    refine ⟨⟨slot, hs.1⟩, ?_⟩
    rw [inUse_eq_ok_iff, ← (h.slots id slot hs.1).2.2]
    rintro ⟨⟨slot', hs', hunused⟩, hkept⟩
    cases hs.1.symm.trans hs'
    simp [Slot.isIdle, hunused, hkept] at hs
  · rintro ⟨⟨slot, hs⟩, hstays⟩
    refine ⟨slot, ?_⟩
    rw [slot?_compact, Option.filter_eq_some_iff]
    refine ⟨hs, ?_⟩
    rw [← (h.slots id slot hs).2.2, inUse_eq_ok_iff] at hstays
    cases hidle : slot.isIdle with
    | false => rfl
    | true =>
      rw [Slot.isIdle, Bool.and_eq_true, beq_iff_eq, Bool.not_eq_true'] at hidle
      exact absurd ⟨⟨slot, hs, hidle.1⟩, hidle.2⟩ hstays

end Tells

end

/-- Handles, users and freed slots are as the history of requests tells. -/
structure LifetimesFollow (history : List (Event kind β)) (a : Arena kind β) : Prop where
  /-- No handle was given twice, and a value that is put in next gets one that was not given before. -/
  fresh : (returned history).Nodup ∧ ∀ value kept, ∃ id next,
    (Request.insert value kept).edit.perform a = (.ok (.handle id), next) ∧ id ∉ returned history
  /-- A handle names the value that was put in with it until its slot is freed. -/
  names : ∀ id value, a.get id = .ok value ↔ Names history id value
  /-- Once its slot was freed a handle names nothing, whatever came after. -/
  gone : ∀ i event id, history[i]? = some event → id ∈ returned (history.take i) →
    Frees (history.take i) event id → a.contains id = false
  /-- The users of a live slot are those that were counted and not counted off. -/
  users : ∀ id count, a.inUse id = .ok count ↔
    a.contains id = true ∧ count + released history id = acquired history id
  /-- A value can be taken out exactly if its slot is live and has no users. -/
  removal : ∀ id value, (∃ next, (Request.remove id).edit.perform a = (.ok (.value value), next)) ↔
    a.get id = .ok value ∧ a.inUse id = .ok 0
  /-- Exactly the live slots are freed that have no users and are not kept by their makers, and their number is
  answered. -/
  compaction : ∃ freed next, Request.compact.edit.perform a = (.ok (.freed freed), next) ∧
    (∀ id, next.contains id = true ↔
      a.contains id = true ∧ ¬ (a.inUse id = .ok 0 ∧ retained history id = false)) ∧
    freed = a.ids.countP fun id => !next.contains id
  /-- A request that fails changes nothing. -/
  failure : ∀ (request : Request kind β) fault next, request.edit.perform a = (.error fault, next) → next = a
  /-- The live handles are listed in ascending order. -/
  listing : (∀ id, id ∈ a.ids ↔ a.contains id = true) ∧ a.ids.Pairwise fun x y => x.index < y.index

/-- After any requests, whether they failed or not, handles were never given twice and name their values until these
are freed, the users are those counted and not counted off, and exactly what nothing uses can be freed. -/
theorem lifetimes_follow_history (requests : List (Request kind β)) :
    LifetimesFollow (replay requests).1 (replay requests).2 := by
  have h := tells_replay requests
  refine ⟨⟨h.nodup_returned, ?_⟩, ?_, ?_, ?_, ?_, ?_, ?_, ?_⟩
  · intro value kept
    exact ⟨_, _, perform_edit _ _, h.insert_not_mem value kept⟩
  · intro id value
    exact h.get_eq_ok_iff_names
  · intro i event id hi hgiven hfrees
    exact h.contains_eq_false hi hgiven hfrees
  · intro id count
    exact h.inUse_eq_ok_iff_counted
  · intro id value
    exact remove_iff
  · exact ⟨_, _, perform_edit _ _, fun id => h.contains_compact_iff, freed_eq_countP _⟩
  · intro request fault next hfails
    rw [perform_edit] at hfails
    cases hr : request.answer (replay requests).2 with
    | ok result =>
      rw [hr] at hfails
      cases hfails
    | error fault' =>
      rw [hr] at hfails
      exact (Prod.mk.inj hfails).2.symm
  · exact ⟨fun id => mem_ids_iff, pairwise_ids _⟩

/-- The second value goes with its only user, and the third does not get its place. -/
example : (replay [.insert 10 true, .insert 20 false, .acquire ⟨1⟩, .compact, .remove ⟨1⟩, .release ⟨1⟩, .compact,
    .release ⟨1⟩, .insert 30 false] : List (Event .area ℕ) × Arena .area ℕ).2.ids = [⟨0⟩, ⟨2⟩] := by decide

end Arena

end SpectralResponse
