import SpectralResponse.InPlace
import SpectralResponse.Spectrum.Basic

/-!
# Requests to a spectrum

What a user can ask of a spectrum that is already made, in two readings. `Request.answer` is the new spectrum,
or the fault. `Request.edit` changes the arrays of a spectrum one after another where they stand, as a
program without spare copies does: what was changed before a fault stays changed, unless the edit itself
puts it back.

An edit that brings the working bins up to date derives all of them before it replaces the first. A new
grouping is put in place before the working bins are derived from it, and taken out again if that fails. The
flags of the observed bins are changed member by member.
-/

namespace SpectralResponse

/-- Changes of a spectrum that may fail. -/
abbrev Edit (α β : Type) := InPlace (Fault α) (Spectrum α) β

variable {α : Type} [Scalar α]

namespace Edit

/-! ### Bringing the working bins up to date -/

/-- Brings all arrays for the working bins up to date. -/
def rebuild : Edit α Unit := do
  let s ← get
  let working ← s.derive?
  set { s with working }

omit [Scalar α] in
/-- Brings the flags of the working bins up to date. -/
def renotice : Edit α Unit := do
  let s ← get
  let flags ← (s.grouping.any s.notice : Except (Fault α) (List Bool))
  set { s with working := { s.working with notice := flags } }

omit [Scalar α] in
/-- Requires a value for each observed bin. -/
def requireObserved (fault : Nat → Nat → Fault α) (actual : Nat) : Edit α Unit := do
  let s ← get
  requireLength fault s.observedCount actual

/-! ### Grouping -/

/-- Puts a grouping in place, and the one before it back if the working bins cannot be derived. -/
def regroup (grouping : Grouping) : Edit α Unit := do
  let previous := (← get).grouping
  modify fun s => { s with grouping }
  try rebuild
  catch fault =>
    modify fun s => { s with grouping := previous }
    rebuild
    throw fault

/-- Groups by a mask. -/
def rebinByMask (mask : List Int) : Edit α Unit := do
  requireObserved (fun e a => .spectrum (.mask e a)) mask.length
  let grouping ← (Grouping.ofMask mask : Except (Fault α) Grouping)
  regroup grouping

/-- Groups noticed bins until each group holds at least `threshold` counts. -/
def groupToCount (threshold : α) : Edit α Unit := do
  let s ← get
  let grouping ← Grouping.leastCount s.observed.counts s.notice threshold
  regroup grouping

/-- Makes each observed bin a working bin. -/
def unbin : Edit α Unit := do
  let s ← get
  regroup (.identity s.observedCount)

/-! ### Errors and background -/

/-- Takes over how errors are derived. -/
def configure (config : Config α) : Edit α Unit := do
  modify fun s => { s with policy := config.statErrorPolicy }
  modify fun s => { s with errorFloor := config.defaultUncertainty }
  rebuild

/-- Replaces the systematic errors, given as fractions for the observed bins. -/
def setSysFractions (fractions : List α) : Edit α Unit := do
  requireObserved (fun e a => .spectrum (.sysErrors e a)) fractions.length
  modify fun s => { s with sysFractions := fractions }
  rebuild

/-- Takes over a background. -/
def setBackground (background : Background α) : Edit α Unit := do
  requireObserved (fun e a => .spectrum (.background e a)) background.counts.length
  modify fun s => { s with background := some background }

/-! ### Noticed bins -/

omit [Scalar α] in
/-- Notices all good bins. -/
def noticeAll : Edit α Unit := do
  modify fun s => { s with notice := s.observed.isGood }
  renotice

omit [Scalar α] in
/-- Notices no bin. -/
def ignoreAll : Edit α Unit := do
  modify fun s => { s with notice := s.notice.map fun _ => false }
  renotice

omit [Scalar α] in
/-- Flags one observed bin. -/
def flagMember (noticed : Bool) (member : Nat) : Edit α Unit :=
  modify fun s =>
    { s with notice := s.notice.set member (noticed && s.observed.isGood[member]?.getD false) }

/-- Flags the members of the groups whose working bins overlap a range, and counts the groups. -/
def flagWithin (range : Bin α) (noticed : Bool) : Nat → List (List Nat × Bin α) → Edit α Nat
  | touched, [] => return touched
  | touched, (group, b) :: rest => do
    if b.overlap range ≤ 0 then flagWithin range noticed touched rest
    else
      group.forM (flagMember noticed)
      flagWithin range noticed (touched + 1) rest

/-- Notices or ignores the working bins that overlap a range, and counts them. -/
def setRange (a b : α) (unit : EdgeUnit) (noticed : Bool) : Edit α Nat := do
  let (lo, hi) := if a ≤ b then (a, b) else (b, a)
  let range ← canonicalize [lo] [hi] unit
  let s ← get
  let touched ← flagWithin ⟨range.grid.min, range.grid.max⟩ noticed 0
    (s.grouping.groups.zip s.working.grid.bins)
  renotice
  return touched

end Edit

namespace Spectrum

/-- A request to a spectrum that is already made. -/
inductive Request (α : Type) where
  /-- Group by a mask. -/
  | rebinByMask (mask : List Int)
  /-- Group to a least count. -/
  | groupToCount (threshold : α)
  /-- Make each observed bin a working bin. -/
  | unbin
  /-- Take over how errors are derived. -/
  | configure (config : Config α)
  /-- Replace the systematic errors. -/
  | setSysFractions (fractions : List α)
  /-- Take over a background. -/
  | setBackground (background : Background α)
  /-- Notice or ignore a range. -/
  | setRange (a b : α) (unit : EdgeUnit) (noticed : Bool)
  /-- Notice all good bins. -/
  | noticeAll
  /-- Notice no bin. -/
  | ignoreAll

namespace Request

/-- The spectrum a request asks for. -/
def answer (s : Spectrum α) : Request α → Except (Fault α) (Spectrum α)
  | rebinByMask mask => s.rebinByMask mask
  | groupToCount threshold => s.groupToCount threshold
  | unbin => s.unbin
  | configure config => s.configure config
  | setSysFractions fractions => s.setSysFractions fractions
  | setBackground background => s.setBackground background
  | setRange a b unit noticed => do
    let (next, _) ← s.setRange a b unit noticed
    return next
  | noticeAll => s.noticeAll
  | ignoreAll => s.ignoreAll

omit [Scalar α] in
/-- How errors are derived after a request, and the error of working bins without counts. -/
def errors (current : StatErrorPolicy × α) : Request α → StatErrorPolicy × α
  | configure config => (config.statErrorPolicy, config.defaultUncertainty)
  | _ => current

/-- Carries out a request in place. -/
def edit : Request α → Edit α Unit
  | rebinByMask mask => Edit.rebinByMask mask
  | groupToCount threshold => Edit.groupToCount threshold
  | unbin => Edit.unbin
  | configure config => Edit.configure config
  | setSysFractions fractions => Edit.setSysFractions fractions
  | setBackground background => Edit.setBackground background
  | setRange a b unit noticed => do
    let _ ← Edit.setRange a b unit noticed
  | noticeAll => Edit.noticeAll
  | ignoreAll => Edit.ignoreAll

end Request

/-- The spectrum after requests were carried out in place one after another, whether they failed or not. -/
def afterRequests (s : Spectrum α) (requests : List (Request α)) : Spectrum α :=
  requests.foldl (fun s request => (request.edit.perform s).2) s

/-- A change of a spectrum that is already made: a request, or a change that is never refused. -/
inductive Change (α : Type) where
  /-- Carry out a request. -/
  | request (request : Request α)
  /-- Replace the kernel. -/
  | setKernel (kernel : Kernel α)
  /-- Drop the background. -/
  | clearBackground

/-- The spectrum after a change in place, whether it failed or not. -/
def Change.apply (s : Spectrum α) : Change α → Spectrum α
  | request r => (r.edit.perform s).2
  | setKernel kernel => s.setKernel kernel
  | clearBackground => s.clearBackground

/-- The spectrum after changes in place one after another, whether they failed or not. -/
def afterChanges (s : Spectrum α) (changes : List (Change α)) : Spectrum α := changes.foldl Change.apply s

end Spectrum

end SpectralResponse
