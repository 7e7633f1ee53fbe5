import SpectralResponse.Arena
import SpectralResponse.InPlace

/-!
# Requests to an arena

What can be asked of an arena, in two readings. `Request.answer` is the answer with the new arena, or the fault.
`Request.edit` changes the slots where they stand: a new slot goes behind the others and is named by its place, idle
slots are looked for in one pass over all places, and what was changed before a fault stays changed.
-/

namespace SpectralResponse

variable {β γ : Type} {kind : ProductKind}

/-- Changes of an arena that may fail. -/
abbrev ArenaEdit (kind : ProductKind) (β γ : Type) := InPlace SlotFault (Arena kind β) γ

namespace ArenaEdit

/-- Puts a value into a new slot behind all others. -/
def insert (value : β) (retained : Bool) : ArenaEdit kind β (Handle kind) := do
  modify fun a => ⟨a.slots ++ [some ⟨value, 0, retained⟩]⟩
  return ⟨(← get).slots.length - 1⟩

/-- The slot that a handle names. -/
def slot (id : Handle kind) : ArenaEdit kind β (Slot β) := do
  let a ← get
  a.slot id

/-- Counts one more user. -/
def acquire (id : Handle kind) : ArenaEdit kind β Unit := do
  let s ← slot id
  modify (·.setSlot id (some { s with inUse := s.inUse + 1 }))

/-- Counts one user less. -/
def release (id : Handle kind) : ArenaEdit kind β Unit := do
  let s ← slot id
  if s.inUse = 0 then throw (.overReleased kind id)
  modify (·.setSlot id (some { s with inUse := s.inUse - 1 }))

/-- Sets whether the maker keeps the value while it has no users. -/
def setRetained (id : Handle kind) (retained : Bool) : ArenaEdit kind β Unit := do
  let s ← slot id
  modify (·.setSlot id (some { s with retained }))

/-- Takes the value out of a slot without users. -/
def remove (id : Handle kind) : ArenaEdit kind β β := do
  let users ← (← get).inUse id
  if 0 < users then throw (.inUse kind id users)
  let taken := (← get).slot? id
  modify (·.setSlot id none)
  match taken with
  | some s => return s.value
  | none => throw (.unknown kind id)

/-- Frees the idle slots at the given places, and counts them. -/
def freeIdle : Nat → List Nat → ArenaEdit kind β Nat
  | freed, [] => return freed
  | freed, place :: places => do
    if ((← get).slot? ⟨place⟩).any Slot.isIdle then
      modify (·.setSlot ⟨place⟩ none)
      freeIdle (freed + 1) places
    else freeIdle freed places

/-- Frees every idle slot and counts them. -/
def compact : ArenaEdit kind β Nat := do
  let a ← get
  freeIdle 0 (List.range a.slots.length)

end ArenaEdit

namespace Arena

/-- A request to an arena. -/
inductive Request (kind : ProductKind) (β : Type) where
  /-- Put in a value. -/
  | insert (value : β) (retained : Bool)
  /-- Count one more user. -/
  | acquire (id : Handle kind)
  /-- Count one user less. -/
  | release (id : Handle kind)
  /-- Set whether the maker keeps a value while it has no users. -/
  | setRetained (id : Handle kind) (retained : Bool)
  /-- Take out a value that nothing uses. -/
  | remove (id : Handle kind)
  /-- Free every idle slot. -/
  | compact
  deriving DecidableEq, Repr

/-- What a request answers. -/
inductive Answer (kind : ProductKind) (β : Type) where
  /-- The handle of a new slot. -/
  | handle (id : Handle kind)
  /-- Nothing but that it is done. -/
  | done
  /-- A value that was taken out. -/
  | value (value : β)
  /-- How many slots were freed. -/
  | freed (count : Nat)
  deriving DecidableEq, Repr

/-- The answer to a request, and the arena it asks for. -/
def Request.answer (a : Arena kind β) : Request kind β → Except SlotFault (Answer kind β × Arena kind β)
  | insert value retained =>
    let (id, next) := a.insert value retained
    return (.handle id, next)
  | acquire id => return (.done, ← a.acquire id)
  | release id => return (.done, ← a.release id)
  | setRetained id retained => return (.done, ← a.setRetained id retained)
  | remove id => do
    let (value, next) ← a.remove id
    return (.value value, next)
  | compact =>
    let (freed, next) := a.compact
    return (.freed freed, next)

/-- Carries out a request in place. -/
def Request.edit : Request kind β → ArenaEdit kind β (Answer kind β)
  | insert value retained => return .handle (← ArenaEdit.insert value retained)
  | acquire id => do
    ArenaEdit.acquire id
    return .done
  | release id => do
    ArenaEdit.release id
    return .done
  | setRetained id retained => do
    ArenaEdit.setRetained id retained
    return .done
  | remove id => return .value (← ArenaEdit.remove id)
  | compact => return .freed (← ArenaEdit.compact)

/-- A request with its outcome. -/
structure Event (kind : ProductKind) (β : Type) where
  /-- What was asked for. -/
  request : Request kind β
  /-- The answer, or the fault. -/
  outcome : Except SlotFault (Answer kind β)

/-- Carries out one more request, after which the history has one more event. -/
def record (past : List (Event kind β) × Arena kind β) (request : Request kind β) :
    List (Event kind β) × Arena kind β :=
  let (outcome, next) := request.edit.perform past.2
  (past.1 ++ [⟨request, outcome⟩], next)

/-- Carries out requests one after another on the arena without slots, whether they fail or not: what happened, and
the arena they leave. -/
def replay (requests : List (Request kind β)) : List (Event kind β) × Arena kind β :=
  requests.foldl record ([], empty)

end Arena

end SpectralResponse
