import SpectralResponse.Fault.Basic

/-!
# Arenas

Slots for shared values, named by handles. A slot counts its users. It is freed by `Arena.compact` once
nothing uses it and its maker no longer retains it, or by `Arena.remove` while nothing uses it. A freed
slot keeps its place for ever and is never filled again, so a handle never comes to name another value.
-/

namespace SpectralResponse

/-- A value in an arena. -/
structure Slot (β : Type) where
  /-- The value. -/
  value : β
  /-- The number of users. -/
  inUse : Nat
  /-- The maker keeps the value while it has no users. -/
  retained : Bool
  deriving DecidableEq, Repr

/-- The slot is kept only by what is in it. -/
def Slot.isIdle {β : Type} (s : Slot β) : Bool := s.inUse == 0 && !s.retained

/-- Slots for values of one kind. -/
structure Arena (kind : ProductKind) (β : Type) where
  /-- The slots in the order of their handles; a freed slot is empty. -/
  slots : List (Option (Slot β))
  deriving DecidableEq, Repr

namespace Arena

variable {β : Type} {kind : ProductKind}

/-- The arena without slots. -/
def empty : Arena kind β := ⟨[]⟩

/-- Puts a value into a new slot. -/
def insert (value : β) (retained : Bool) (a : Arena kind β) : Handle kind × Arena kind β :=
  (⟨a.slots.length⟩, ⟨a.slots ++ [some ⟨value, 0, retained⟩]⟩)

variable (a : Arena kind β)

/-- The slot that a handle names, if it names one. -/
def slot? (id : Handle kind) : Option (Slot β) := (a.slots[id.index]?).join

/-- The handle names a slot. -/
def contains (id : Handle kind) : Bool := (a.slot? id).isSome

/-- The slot that a handle names. -/
def slot (id : Handle kind) : Except SlotFault (Slot β) :=
  match a.slot? id with
  | some s => .ok s
  | none => .error (.unknown kind id)

/-- The value in a slot. -/
def get (id : Handle kind) : Except SlotFault β := do return (← a.slot id).value

/-- The number of users of a slot. -/
def inUse (id : Handle kind) : Except SlotFault Nat := do return (← a.slot id).inUse

/-- Puts another slot in the place of one. -/
def setSlot (id : Handle kind) (slot? : Option (Slot β)) : Arena kind β :=
  ⟨a.slots.set id.index slot?⟩

/-- Replaces the value in a slot. -/
def put (id : Handle kind) (value : β) : Except SlotFault (Arena kind β) := do
  let s ← a.slot id
  return a.setSlot id (some { s with value })

/-- Counts one more user. -/
def acquire (id : Handle kind) : Except SlotFault (Arena kind β) := do
  let s ← a.slot id
  return a.setSlot id (some { s with inUse := s.inUse + 1 })

/-- Counts one user less. -/
def release (id : Handle kind) : Except SlotFault (Arena kind β) := do
  let s ← a.slot id
  if s.inUse = 0 then throw (.overReleased kind id)
  return a.setSlot id (some { s with inUse := s.inUse - 1 })

/-- Sets whether the maker keeps the value while it has no users. -/
def setRetained (id : Handle kind) (retained : Bool) : Except SlotFault (Arena kind β) := do
  let s ← a.slot id
  return a.setSlot id (some { s with retained })

/-- Frees a slot without users and gives back its value. -/
def remove (id : Handle kind) : Except SlotFault (β × Arena kind β) := do
  let s ← a.slot id
  if 0 < s.inUse then throw (.inUse kind id s.inUse)
  return (s.value, a.setSlot id none)

/-- Empties a place whose slot is idle. -/
def sweepSlot (slot? : Option (Slot β)) : Option (Slot β) := slot?.filter (!·.isIdle)

/-- Frees every idle slot and counts them. -/
def compact : Nat × Arena kind β :=
  (a.slots.countP (·.any Slot.isIdle), ⟨a.slots.map sweepSlot⟩)

/-- The slots with their handles, in ascending order. -/
def entries : List (Handle kind × Slot β) :=
  a.slots.zipIdx.filterMap fun (slot?, index) => slot?.map fun s => (⟨index⟩, s)

/-- The handles that name a slot, in ascending order. -/
def ids : List (Handle kind) := a.entries.map Prod.fst

/-- The number of slots that are not empty. -/
def count : Nat := a.slots.countP Option.isSome

end Arena

end SpectralResponse
