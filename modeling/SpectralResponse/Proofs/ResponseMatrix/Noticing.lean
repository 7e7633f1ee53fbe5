import SpectralResponse.Kernel
import SpectralResponse.Proofs.ResponseMatrix.Folding

/-!
# Energy bins that matter

The energy bins that are not flagged for a set of channels give nothing to these channels, so their flux may
be set to zero without any change there. What they give to other channels is lost with it, and since a fold
is linear in the flux, what is lost is the fold of the flux that was taken away.

## What is proved

* `responseAt_eq_zero_of_unnoticed` — a row that is not flagged gives nothing to a noticed channel.
* `Kernel.fold_of_fold` — whether a fold goes through does not depend on the values of the flux, and what each
  channel gets is linear in them.
* `countAt_silence` — noticed channels get the same when the energy bins that are not flagged are silenced.
-/

namespace SpectralResponse

variable {K : Type} [Field K] [LinearOrder K] [FloorRing K] [Roots K]

/-! ### Silencing -/

section

variable {K : Type} [Field K]

/-- The flux with nothing in the energy bins whose flag is not set. -/
def silence : List Bool → List K → List K
  | kept :: keep, value :: flux => (if kept then value else 0) :: silence keep flux
  | [], flux => flux
  | _ :: _, [] => []

/-- The flux that silencing takes away. -/
def silenced (keep : List Bool) (flux : List K) : List K := List.zipWith (· - ·) flux (silence keep flux)

@[simp]
theorem length_silence (keep : List Bool) (flux : List K) : (silence keep flux).length = flux.length := by
  fun_induction silence keep flux with
  | case1 kept keep value flux ih => rw [List.length_cons, ih, List.length_cons]
  | case2 flux => rfl
  | case3 kept keep => rfl

@[simp]
theorem length_silenced (keep : List Bool) (flux : List K) : (silenced keep flux).length = flux.length := by
  simp [silenced]

end

/-! ### Rows -/

/-- The channels that a group detects are those to which it gives positive weight. -/
theorem ResponseGroup.mem_detecting {g : ResponseGroup K} {channel : Nat} :
    channel ∈ g.detecting ↔ 0 < (g.weightAt? channel).getD 0 := by
  simp only [detecting, List.mem_filterMap, Prod.exists, List.mem_zipIdx_iff_le_and_getElem?_sub, weightAt?]
  constructor
  · rintro ⟨weight, other, ⟨hle, hweight⟩, h⟩
    split at h
    · rename_i hpos
      cases h
      rwa [if_pos hle, hweight]
    · cases h
  · intro hpos
    split at hpos
    · rename_i hle
      cases hweight : g.weights[channel - g.first]? with
      | none =>
        rw [hweight] at hpos
        exact absurd hpos (lt_irrefl 0)
      | some weight =>
        rw [hweight] at hpos
        exact ⟨weight, channel, ⟨hle, hweight⟩, if_pos hpos⟩
    · exact absurd hpos (lt_irrefl 0)

namespace Redistribution

variable {m : Redistribution K} {notice : List Bool}

/-- A row gives nothing to a channel that none of its groups detects. -/
theorem Clean.responseAt_eq_zero (h : m.Clean) {groups : List (ResponseGroup K)} (hgroups : groups ∈ m.rows)
    {channel : Nat} (hnone : channel ∉ groups.flatMap ResponseGroup.detecting) : responseAt groups channel = 0 := by
  refine List.sum_eq_zero (List.forall_mem_map.2 fun g hg => ?_)
  refine le_antisymm (not_lt.1 fun hpos => hnone ?_) (h.weight_nonneg hgroups hg channel)
  exact List.mem_flatMap_of_mem hg (ResponseGroup.mem_detecting.2 hpos)

/-- A row that is not flagged gives nothing to a noticed channel. -/
theorem responseAt_eq_zero_of_unnoticed (h : m.Clean) {groups : List (ResponseGroup K)} (hgroups : groups ∈ m.rows)
    (hrow : isNoticedRow notice groups = false) {channel : Nat} (hchannel : notice[channel]? = some true) :
    responseAt groups channel = 0 := by
  refine h.responseAt_eq_zero hgroups fun hdetects => ?_
  rw [isNoticedRow, Bool.or_eq_false_iff] at hrow
  have hunnoticed := List.any_eq_false.1 hrow.2 channel hdetects
  rw [hchannel] at hunnoticed
  exact hunnoticed rfl

/-- What rows give to a channel for a flux, with a gain for each energy bin. -/
def countFrom (rows : List (List (ResponseGroup K))) (gains flux : List K) (channel : Nat) : K :=
  (((List.zipWith (· * ·) flux gains).zip rows).map fun (value, groups) => value * responseAt groups channel).sum

/-- What a channel gets in all for a flux, with a gain for each energy bin. -/
def countAt (m : Redistribution K) (gains flux : List K) (channel : Nat) : K :=
  countFrom m.rows gains flux channel

omit [LinearOrder K] [FloorRing K] [Roots K] in
theorem countFrom_cons (groups : List (ResponseGroup K)) (rows : List (List (ResponseGroup K))) (gain : K)
    (gains : List K) (value : K) (flux : List K) (channel : Nat) :
    countFrom (groups :: rows) (gain :: gains) (value :: flux) channel =
      value * gain * responseAt groups channel + countFrom rows gains flux channel := List.sum_cons

omit [LinearOrder K] [FloorRing K] [Roots K] in
/-- What is taken away from the flux is missing in each channel. -/
theorem countFrom_sub {rows : List (List (ResponseGroup K))} {gains flux flux' : List K}
    (hlen : flux'.length = flux.length) (channel : Nat) :
    countFrom rows gains (List.zipWith (· - ·) flux flux') channel =
      countFrom rows gains flux channel - countFrom rows gains flux' channel := by
  induction flux generalizing flux' gains rows with
  | nil =>
    obtain rfl := List.eq_nil_of_length_eq_zero hlen
    simp [countFrom]
  | cons value flux ih =>
    obtain ⟨value', flux', rfl⟩ := List.exists_cons_of_length_eq_add_one hlen
    cases gains with
    | nil => simp [countFrom]
    | cons gain gains =>
      cases rows with
      | nil => simp [countFrom]
      | cons groups rows =>
        rw [List.zipWith_cons_cons, countFrom_cons, countFrom_cons, countFrom_cons, ih (Nat.succ.inj hlen)]
        ring

/-- A noticed channel gets the same when the energy bins that are not flagged are silenced. -/
theorem countAt_silence (h : m.Clean) (gains flux : List K) {channel : Nat}
    (hchannel : notice[channel]? = some true) :
    m.countAt gains (silence (m.rows.map (isNoticedRow notice)) flux) channel = m.countAt gains flux channel := by
  have hrows (rows : List (List (ResponseGroup K))) (hsub : ∀ groups ∈ rows, groups ∈ m.rows) :
      countFrom rows gains (silence (rows.map (isNoticedRow notice)) flux) channel =
        countFrom rows gains flux channel := by
    induction rows generalizing flux gains with
    | nil => simp [countFrom]
    | cons groups rows ih =>
      cases flux with
      | nil => rfl
      | cons value flux =>
        cases gains with
        | nil => rfl
        | cons gain gains =>
          have hrest := ih gains flux fun groups hmem => hsub groups (List.mem_cons_of_mem _ hmem)
          rw [List.map_cons, silence, countFrom_cons, countFrom_cons, hrest]
          by_cases hkept : isNoticedRow notice groups = true
          · rw [if_pos hkept]
          · rw [responseAt_eq_zero_of_unnoticed h (hsub groups List.mem_cons_self)
              (Bool.eq_false_iff.2 hkept) hchannel, mul_zero, mul_zero]
  exact hrows m.rows fun _ hmem => hmem

end Redistribution

/-! ### Folds through a kernel -/

namespace Kernel

variable {k : Kernel K} {area : EffectiveArea K} {m : Redistribution K} {flux channels : List K}

/-- The counts that arrive for a flux of one in each energy bin. -/
def gains (area : EffectiveArea K) (k : Kernel K) : List K :=
  area.area.zipIdx.map fun (value, index) => k.incidentCount area index 1 value

/-- What arrives is the flux times the gains. -/
theorem incidentCounts_of_ok {source : List K} (h : k.incidentCounts area m flux = .ok source) {flux' : List K}
    (hlen : flux'.length = flux.length) :
    k.incidentCounts area m flux' = .ok (List.zipWith (· * ·) flux' (k.gains area)) := by
  obtain ⟨⟨⟩, hflux, h⟩ := Except.bind_eq_ok.1 h
  obtain ⟨⟨⟩, harea, h⟩ := Except.bind_eq_ok.1 h
  obtain ⟨⟨⟩, hfactors, -⟩ := Except.bind_eq_ok.1 h
  rw [← hlen] at hflux
  rw [incidentCounts, hflux, harea, hfactors]
  refine congrArg Except.ok (List.ext_getElem (by simp [gains]) fun i hi hi' => ?_)
  simp only [List.getElem_map, List.getElem_zipIdx, List.getElem_zip, List.getElem_zipWith, gains, incidentCount,
    Nat.zero_add]
  ring

/-- A fold that goes through goes through for any flux of the same length, and each channel gets its count. -/
theorem fold_of_fold (h : k.fold area m flux (List.replicate m.channelCount 0) = .ok channels) {flux' : List K}
    (hlen : flux'.length = flux.length) :
    k.fold area m flux' (List.replicate m.channelCount 0) =
      .ok ((List.range m.channelCount).map (m.countAt (k.gains area) flux')) := by
  obtain ⟨source, hsource, h⟩ := Except.bind_eq_ok.1 h
  obtain ⟨⟨⟩, hinput, -⟩ := Except.bind_eq_ok.1 h
  have hcount := Except.requireLength_eq_ok.1 hinput
  have hsame := incidentCounts_of_ok hsource rfl
  cases Except.ok.inj (hsource.symm.trans hsame)
  have hcount' : m.energyCount = (List.zipWith (· * ·) flux' (k.gains area)).length := by
    rw [hcount, List.length_zipWith, List.length_zipWith, hlen]
  rw [fold, incidentCounts_of_ok hsource hlen]
  exact Redistribution.fold_eq_response hcount'

end Kernel

end SpectralResponse
