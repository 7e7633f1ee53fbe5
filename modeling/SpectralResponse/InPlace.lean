/-!
# Changes in place

A value is changed where it stands, one part after another, without a spare copy. Such a change may fail on the
way, and then leaves what it has changed by that time, unless it has put that back itself.
-/

namespace SpectralResponse

/-- Changes of a value of type `σ` that may fail. -/
abbrev InPlace (ε σ β : Type) := ExceptT ε (StateM σ) β

/-- Carries out a change: its answer, and the value it leaves. -/
def InPlace.perform {ε σ β : Type} (edit : InPlace ε σ β) (s : σ) : Except ε β × σ := edit.run.run s

end SpectralResponse
