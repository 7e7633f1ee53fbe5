import SpectralResponse.EffectiveArea.Basic
import SpectralResponse.ResponseMatrix.Basic

/-!
# Response kernels

A kernel turns a model flux into predicted counts: the flux of each energy bin is multiplied by the
effective area, the fraction of the exposure and the exposure time, and redistributed over the channels.
The auxiliary kernel has one more factor, a transmission. That factor also enters the weights by which
observed counts are divided, so that corrected data can be compared with the model without it.

The engine takes a kernel through a public interface (`ResponseKernel`), which others may implement in their
own way. Here a kernel is one of the two that the engine brings along, and what is proved of kernels is
proved of these two.
-/

namespace SpectralResponse

/-- How a flux becomes counts. -/
inductive Kernel (α : Type) where
  /-- Area, exposure and redistribution. -/
  | standard
  /-- The same with a transmission factor. -/
  | auxiliary (transmission : BinValues α)
  deriving DecidableEq, Repr

namespace Kernel

variable {α : Type} [Scalar α]

/-- The kernel with a transmission factor; factors must be finite and not negative. -/
def withTransmission (transmission : BinValues α) : Except (Fault α) (Kernel α) :=
  if transmission.all fun factor => Scalar.isFinite factor && !decide (factor < 0) then
    .ok (auxiliary transmission)
  else .error (.kernel .transmission)

omit [Scalar α] in
/-- The name of the kernel. -/
def name : Kernel α → String
  | standard => "standard"
  | auxiliary _ => "auxiliary"

omit [Scalar α] in
/-- The transmission factors, if there are any. -/
def transmission? : Kernel α → Option (BinValues α)
  | standard => none
  | auxiliary transmission => some transmission

/-- Requires transmission factors to fit the bins of an effective area. -/
def requireFactors (area : EffectiveArea α) (k : Kernel α) : Except (Fault α) Unit :=
  match k.transmission?.bind BinValues.length? with
  | some length => requireLength (fun e a => .kernel (.factors e a)) area.length length
  | none => .ok ()

/-- The counts that arrive for the flux of an energy bin. -/
def incidentCount (area : EffectiveArea α) (k : Kernel α) (index : Nat) (flux value : α) : α :=
  let factor := (k.transmission?.map (·.get index)).getD 1
  flux * value * area.fraction.get index * area.exposure * factor

/-- The counts that arrive before they are redistributed. -/
def incidentCounts (area : EffectiveArea α) (m : Redistribution α) (flux : List α) (k : Kernel α) :
    Except (Fault α) (List α) := do
  requireLength (fun e a => .kernel (.flux e a)) area.length flux.length
  requireLength (fun e a => .kernel (.areaMatrix e a)) m.energyCount area.length
  k.requireFactors area
  return (flux.zip area.area).zipIdx.map fun ((flux, value), index) =>
    k.incidentCount area index flux value

/-- Adds the counts predicted for a flux to one value for each channel. -/
def fold (area : EffectiveArea α) (m : Redistribution α) (flux output : List α) (k : Kernel α) :
    Except (Fault α) (List α) := do
  let source ← k.incidentCounts area m flux
  m.fold source output

/-- The counts that a flux of one in each energy bin would give. -/
def unitWeights (area : EffectiveArea α) (m : Redistribution α) (k : Kernel α) :
    Except (Fault α) (List α) :=
  k.fold area m (List.replicate area.length 1) (List.replicate m.channelCount 0)

/-- The weights that a kernel defines for the correction of observed counts, if it does. -/
def ownWeights (area : EffectiveArea α) (m : Redistribution α) (k : Kernel α) :
    Except (Fault α) (Option (List α)) :=
  match k with
  | standard => .ok none
  | auxiliary _ => (k.unitWeights area m).map some

/-- The weights for the correction of observed counts: those of the kernel, or the counts of a unit
source. -/
def correctionWeights (area : EffectiveArea α) (m : Redistribution α) (k : Kernel α) :
    Except (Fault α) (List α) := do
  match ← k.ownWeights area m with
  | some weights => return weights
  | none => k.unitWeights area m

end Kernel

end SpectralResponse
