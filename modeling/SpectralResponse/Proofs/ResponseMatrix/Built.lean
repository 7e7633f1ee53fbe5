import SpectralResponse.Proofs.Grid.Ordered
import SpectralResponse.Proofs.Rebin.Linear
import SpectralResponse.Proofs.ResponseMatrix.Folding
import SpectralResponse.Proofs.ResponseMatrix.History
import SpectralResponse.Proofs.ResponseMatrix.Reading
import SpectralResponse.ResponseMatrix.Delta

/-!
# Matrices as they are built

A matrix comes from the overlap of two grids or is read from a file. What is known of it after that holds in
either case: it has no negative weights, and its channels pass validation. No move of its channels makes a
weight negative either, whatever the threshold.

## What is proved

* `Built.valid_channels`, `Built.clean` — what is known of a matrix that was built.
* `ResponseMatrix.Clean.move` — being asked to move makes no weight negative.
-/

namespace SpectralResponse.Redistribution

section

variable {α : Type} [Scalar α] {m : Redistribution α}

/-- The matrix comes from geometry or from a file. -/
def Built (m : Redistribution α) : Prop :=
  (∃ energies channels : Grid α, energies.Valid ∧ channels.Valid ∧ (delta energies channels).Answers (.ok m)) ∨
    ∃ file, (read file).Answers (.ok m)

/-- The channels of a matrix that is built pass validation. -/
theorem Built.valid_channels (h : m.Built) : m.channels.Valid := by
  rcases h with ⟨energies, channels, -, hvalid, h⟩ | ⟨file, h⟩
  · rw [(of_ofRawRows h).2.1]
    exact hvalid
  · obtain ⟨table, boundsTable, lo, hi, unit, energy, bounds, -, -, -, -, -, -, hbounds, h⟩ := exists_readOnAxes h
    obtain ⟨-, -, -, hchannels, -⟩ := of_readOnAxes h
    obtain ⟨eMin, -, hbounds⟩ := Except.bind_eq_ok.1 hbounds
    obtain ⟨eMax, -, hbounds⟩ := Except.bind_eq_ok.1 hbounds
    obtain ⟨unit, -, hbounds⟩ := Except.bind_eq_ok.1 hbounds
    obtain ⟨numbers?, -, hbounds⟩ := Except.bind_eq_ok.1 hbounds
    obtain ⟨⟨⟩, -, hbounds⟩ := Except.bind_eq_ok.1 hbounds
    obtain ⟨canonical, hcanonical, hbounds⟩ := Except.bind_eq_ok.1 hbounds
    rw [hchannels, ← Except.ok.inj hbounds]
    exact Grid.valid_of_canonicalize (Except.mapError_eq_ok.1 hcanonical)

end

variable {K : Type} [Field K] [LinearOrder K] [FloorRing K] [Roots K] {m : Redistribution K}

theorem Built.clean (h : m.Built) : m.Clean := by
  rcases h with ⟨energies, channels, -, -, h⟩ | ⟨file, h⟩
  · exact clean_of_ofRawRows h
  · exact clean_of_read h

/-! ### Moves -/

omit [Field K] [LinearOrder K] [FloorRing K] [Roots K] in
theorem weights_prependChannel (channel : Nat) (weight : K) (groups : List (ResponseGroup K)) :
    (prependChannel channel weight groups).flatMap ResponseGroup.weights =
      weight :: groups.flatMap ResponseGroup.weights := by
  cases groups with
  | nil => rfl
  | cons g groups =>
    rw [prependChannel]
    split <;> rfl

/-- The weights of a row that is cut into groups are those above the threshold. -/
theorem weights_extractFrom (threshold : K) (channel : Nat) (row : List K) :
    (extractFrom threshold channel row).flatMap ResponseGroup.weights =
      row.filter fun value => threshold < value := by
  induction row generalizing channel with
  | nil => rfl
  | cons value row ih =>
    rw [extractFrom, List.filter_cons]
    by_cases hlt : threshold < value
    · rw [if_pos hlt, if_pos (decide_eq_true hlt), weights_prependChannel, ih]
    · rw [if_neg hlt, if_neg (by simpa using hlt), ih]

variable [IsStrictOrderedRing K]

/-- Moving the channels makes no weight negative. -/
theorem Clean.onChannels (h : m.Clean) {target : Grid K} {threshold : K} {moved : Redistribution K}
    (hmoved : m.onChannels target threshold = .ok moved) : moved.Clean := by
  obtain ⟨rows, hrows, hmoved⟩ := Except.bind_eq_ok.1 hmoved
  obtain ⟨-, hmoved⟩ := Except.guard_eq_ok.1 hmoved
  cases Except.ok.inj hmoved
  intro groups hgroups g hg weight hweight
  obtain ⟨built, hbuilt, hrow⟩ := Except.exists_of_mem_forall₂ (Except.mapM_eq_ok.1 hrows) hgroups
  obtain ⟨values, hvalues, hcut⟩ := Except.bind_eq_ok.1 hrow
  rw [← Except.ok.inj hcut] at hg
  have hvalue : weight ∈ values := by
    have hcutout := List.mem_flatMap_of_mem hg hweight
    rw [extractGroups, weights_extractFrom] at hcutout
    exact List.mem_of_mem_filter hcutout
  refine rebin_nonneg (Except.mapError_eq_ok.1 hvalues) (fun x hx => ?_) weight hvalue
  rw [denseRow_eq_responseAt] at hx
  obtain ⟨channel, -, rfl⟩ := List.mem_map.1 hx
  exact h.responseAt_nonneg hbuilt channel

end SpectralResponse.Redistribution

namespace SpectralResponse.ResponseMatrix

variable {K : Type} [Field K] [LinearOrder K] [FloorRing K] [Roots K] {m : ResponseMatrix K}

/-- No weight is negative, neither now nor as the matrix was built. -/
structure Clean (m : ResponseMatrix K) : Prop where
  /-- Where the matrix stands. -/
  current : m.current.Clean
  /-- As it was built. -/
  native : m.native.Clean

omit [FloorRing K] [Roots K] in
theorem clean_ofRedistribution {p : Redistribution K} (h : p.Clean) : (ofRedistribution p).Clean := ⟨h, h⟩

variable [IsStrictOrderedRing K]

/-- Being asked to move makes no weight negative. -/
theorem Clean.move (h : m.Clean) (c : ChannelMove K) : (m.move c).2.Clean := by
  rcases m.move_cases c with ⟨fault, hmove⟩ | hmove | hmove | ⟨moved, honto, hmove⟩
  · rw [hmove]
    exact h
  · rw [hmove]
    exact h
  · rw [hmove]
    exact clean_ofRedistribution h.native
  · rw [hmove]
    exact ⟨h.native.onChannels honto, h.native⟩

/-- However often a matrix was asked to move, it has no negative weights if it had none when it was built. -/
theorem Clean.afterMoves (h : m.Clean) (requests : List (ChannelMove K)) : (m.afterMoves requests).Clean := by
  induction requests generalizing m with
  | nil => exact h
  | cons c requests ih => exact ih (h.move c)

end SpectralResponse.ResponseMatrix
