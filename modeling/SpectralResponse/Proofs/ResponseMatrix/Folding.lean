import SpectralResponse.Proofs.Grouping.Sums
import SpectralResponse.Proofs.ResponseMatrix.Groups
import SpectralResponse.ResponseMatrix.Rebin
import Mathlib.Algebra.BigOperators.Ring.List
import Mathlib.Algebra.Order.BigOperators.Group.List

/-!
# Folding and moving channels

Over exact scalars a matrix is a table: each row gives each channel a number (`responseAt`), and folding
sums up the rows. Moving the channels to the grid of a grouping sums each row over the groups, so it does
not matter whether the channels are grouped before folding or after.

## What is proved

* `exists_fold` — a fold adds to each channel the sum of the contributions of all rows.
* `fold_eq_response` — folding from zero gives each channel the sum of the contributions of all rows.
* `responseAt_extractGroups` — cutting a row without negative numbers into groups loses nothing.
* `fold_onChannels` — the fold of a matrix on grouped channels is the grouped fold of the matrix.
-/

namespace SpectralResponse

/-! ### Lengths -/

section

variable {α : Type} [Scalar α]

@[simp]
theorem length_addAt (first : Nat) (values row : List α) : (addAt first values row).length = row.length := by
  fun_induction addAt first values row with
  | case1 => rfl
  | case2 first values x row ih => simp [ih]
  | case3 => rfl
  | case4 value values x row ih => simp [ih]

@[simp]
theorem Redistribution.length_foldRow (value : α) (groups : List (ResponseGroup α)) (output : List α) :
    (foldRow value groups output).length = output.length := by
  rw [foldRow]
  split
  · rfl
  · induction groups generalizing output with
    | nil => rfl
    | cons g groups ih => rw [List.foldl_cons, ih, length_addAt]

/-- A fold gives one value for each channel. -/
theorem Redistribution.length_of_fold {m : Redistribution α} {input output channels : List α}
    (h : m.fold input output = .ok channels) : channels.length = m.channelCount := by
  have hrows (entries : List (α × List (ResponseGroup α))) (output : List α) :
      (entries.foldl (fun output entry => foldRow entry.1 entry.2 output) output).length = output.length := by
    induction entries generalizing output with
    | nil => rfl
    | cons entry entries ih => exact (ih _).trans (length_foldRow _ _ _)
  obtain ⟨⟨⟩, -, h⟩ := Except.bind_eq_ok.1 h
  obtain ⟨⟨⟩, houtput, h⟩ := Except.bind_eq_ok.1 h
  cases Except.ok.inj h
  rw [Except.requireLength_eq_ok.1 houtput]
  exact hrows _ _

end

variable {K : Type} [Field K] [LinearOrder K] [FloorRing K] [Roots K]

/-! ### Rows as tables -/

/-- What the groups of a row give to a channel. -/
def responseAt (groups : List (ResponseGroup K)) (channel : Nat) : K :=
  (groups.map fun g => (g.weightAt? channel).getD 0).sum

omit [LinearOrder K] [FloorRing K] [Roots K] in
theorem responseAt_cons (g : ResponseGroup K) (groups : List (ResponseGroup K)) (channel : Nat) :
    responseAt (g :: groups) channel = (g.weightAt? channel).getD 0 + responseAt groups channel :=
  List.sum_cons

/-- Adding values at a position adds to each channel what a group there gives to it. -/
theorem getElem?_addAt (first : Nat) (values row : List K) (channel : Nat) :
    (addAt first values row)[channel]? =
      row[channel]?.map (· + ((⟨first, values⟩ : ResponseGroup K).weightAt? channel).getD 0) := by
  induction row generalizing first values channel with
  | nil => cases first <;> cases values <;> simp [addAt]
  | cons x row ih =>
    cases first with
    | succ first =>
      cases channel with
      | zero => simp [addAt, ResponseGroup.weightAt?]
      | succ channel =>
        rw [addAt, List.getElem?_cons_succ, List.getElem?_cons_succ, ih]
        simp [ResponseGroup.weightAt?]
    | zero =>
      cases values with
      | nil => simp [addAt, ResponseGroup.weightAt?]
      | cons value values =>
        cases channel with
        | zero => simp [addAt, ResponseGroup.weightAt?]
        | succ channel =>
          rw [addAt, List.getElem?_cons_succ, List.getElem?_cons_succ, ih]
          simp [ResponseGroup.weightAt?]

omit [FloorRing K] [Roots K] [LinearOrder K] [Field K] in
theorem weightAt?_map (g : ResponseGroup K) (f : K → K) (channel : Nat) :
    (⟨g.first, g.weights.map f⟩ : ResponseGroup K).weightAt? channel = (g.weightAt? channel).map f := by
  simp only [ResponseGroup.weightAt?]
  split <;> simp

/-- Adding the groups of a row, with each weight taken by a factor. -/
theorem getElem?_foldl_addAt (factor : K) (groups : List (ResponseGroup K)) (row : List K) (channel : Nat) :
    (groups.foldl (fun row g => addAt g.first (g.weights.map (factor * ·)) row) row)[channel]? =
      row[channel]?.map (· + factor * responseAt groups channel) := by
  induction groups generalizing row with
  | nil => simp [responseAt]
  | cons g groups ih =>
    rw [List.foldl_cons, ih, getElem?_addAt, weightAt?_map, Option.map_map, responseAt_cons]
    congr 1
    funext x
    cases g.weightAt? channel <;> simp [mul_add, add_assoc]

theorem getElem?_scatter (groups : List (ResponseGroup K)) (row : List K) (channel : Nat) :
    (scatter groups row)[channel]? = row[channel]?.map (· + responseAt groups channel) := by
  have h := getElem?_foldl_addAt 1 groups row channel
  rw [scatter]
  simpa only [one_mul, List.map_id'] using h

namespace Redistribution

variable {m moved : Redistribution K}

theorem getElem?_foldRow (value : K) (groups : List (ResponseGroup K)) (output : List K) (channel : Nat) :
    (foldRow value groups output)[channel]? =
      output[channel]?.map (· + value * responseAt groups channel) := by
  rw [foldRow]
  split
  · rename_i hzero
    rw [eq_of_beq hzero]
    simp
  · exact getElem?_foldl_addAt value groups output channel

/-- What a channel gets in all for one value for each energy bin. -/
def response (m : Redistribution K) (input : List K) (channel : Nat) : K :=
  ((input.zip m.rows).map fun (value, groups) => value * responseAt groups channel).sum

theorem getElem?_foldl_foldRow (rows : List (K × List (ResponseGroup K))) (output : List K)
    (channel : Nat) :
    (rows.foldl (fun output (value, groups) => foldRow value groups output) output)[channel]? =
      output[channel]?.map
        (· + (rows.map fun (value, groups) => value * responseAt groups channel).sum) := by
  induction rows generalizing output with
  | nil => simp
  | cons row rows ih =>
    rw [List.foldl_cons, ih, getElem?_foldRow, Option.map_map, List.map_cons, List.sum_cons]
    congr 1
    funext x
    exact add_assoc _ _ _

omit [FloorRing K] [LinearOrder K] [Roots K] in
/-- A list that has a value for each of `count` channels. -/
theorem eq_map_range {xs : List K} {count : Nat} {f : Nat → K}
    (h : ∀ channel, xs[channel]? = (List.replicate count (0 : K))[channel]?.map (· + f channel)) :
    xs = (List.range count).map f := by
  refine List.ext_getElem? fun channel => ?_
  rw [h, List.getElem?_map]
  by_cases hlt : channel < count
  · simp [hlt]
  · rw [List.getElem?_eq_none (by simpa using hlt), List.getElem?_eq_none (by simpa using hlt)]
    rfl

theorem denseRow_eq_responseAt (groups : List (ResponseGroup K)) :
    m.denseRow groups = (List.range m.channelCount).map (responseAt groups) :=
  eq_map_range (getElem?_scatter groups _)

/-- A fold of one value for each energy bin adds to each channel what it gets in all. -/
theorem exists_fold {input output : List K} (hinput : m.energyCount = input.length)
    (houtput : m.channelCount = output.length) : ∃ counts : List K,
      (m.fold input output : Except (Fault K) (List K)) = .ok counts ∧
        ∀ channel, counts[channel]? = output[channel]?.map (· + m.response input channel) := by
  refine ⟨_, ?_, getElem?_foldl_foldRow (input.zip m.rows) output⟩
  rw [fold, Except.requireLength_eq_ok.2 hinput, Except.requireLength_eq_ok.2 houtput]
  rfl

/-- Folding from zero gives each channel what it gets in all. -/
theorem fold_eq_response {input : List K} (h : m.energyCount = input.length) :
    (m.fold input (List.replicate m.channelCount 0) : Except (Fault K) (List K)) =
      .ok ((List.range m.channelCount).map (m.response input)) := by
  obtain ⟨counts, hfold, hcounts⟩ := exists_fold h List.length_replicate.symm
  rw [hfold, eq_map_range hcounts]

end Redistribution

/-! ### Cutting a row into groups -/

omit [FloorRing K] [LinearOrder K] [Roots K] in
/-- A group with one more weight in front gives what the two parts give. -/
theorem weightAt?_cons (channel : Nat) (weight : K) (weights : List K) (j : Nat) :
    ((⟨channel, weight :: weights⟩ : ResponseGroup K).weightAt? j).getD 0 =
      (if j = channel then weight else 0) +
        ((⟨channel + 1, weights⟩ : ResponseGroup K).weightAt? j).getD 0 := by
  simp only [ResponseGroup.weightAt?]
  rcases Nat.lt_trichotomy j channel with hlt | rfl | hlt
  · rw [if_neg (by omega), if_neg (by omega), if_neg (by omega)]
    simp
  · simp
  · rw [if_pos hlt.le, if_neg (by omega), if_pos (by omega), zero_add,
      show j - channel = j - (channel + 1) + 1 by omega, List.getElem?_cons_succ]

omit [FloorRing K] [LinearOrder K] [Roots K] in
theorem responseAt_prependChannel (channel : Nat) (weight : K) (groups : List (ResponseGroup K)) (j : Nat) :
    responseAt (prependChannel channel weight groups) j =
      (if j = channel then weight else 0) + responseAt groups j := by
  have hsingle : responseAt (⟨channel, [weight]⟩ :: groups) j =
      (if j = channel then weight else 0) + responseAt groups j := by
    rw [responseAt_cons, weightAt?_cons]
    simp [ResponseGroup.weightAt?]
  cases groups with
  | nil => exact hsingle
  | cons g groups =>
    rw [prependChannel]
    split
    · rename_i htouch
      rw [responseAt_cons, weightAt?_cons, ← htouch, add_assoc, responseAt_cons]
    · exact hsingle

/-- Cutting a row at zero leaves out nothing but zeros. -/
theorem responseAt_extractFrom {row : List K} (h : ∀ x ∈ row, 0 ≤ x) (channel j : Nat) :
    responseAt (extractFrom 0 channel row) j =
      if channel ≤ j then (row[j - channel]?).getD 0 else 0 := by
  induction row generalizing channel with
  | nil => simp [extractFrom, responseAt]
  | cons x row ih =>
    have hrest := ih (fun y hy => h y (List.mem_cons_of_mem _ hy)) (channel + 1)
    have hcut : responseAt (extractFrom 0 channel (x :: row)) j =
        (if j = channel then x else 0) + responseAt (extractFrom 0 (channel + 1) row) j := by
      rw [extractFrom]
      split
      · exact responseAt_prependChannel channel x _ j
      · rename_i hzero
        rw [le_antisymm (not_lt.1 hzero) (h x List.mem_cons_self), ite_self, zero_add]
    rw [hcut, hrest]
    rcases Nat.lt_trichotomy j channel with hlt | rfl | hlt
    · rw [if_neg (by omega), if_neg (by omega), if_neg (by omega), zero_add]
    · simp
    · rw [if_neg (by omega), if_pos (by omega), if_pos (by omega), zero_add,
        show j - channel = j - (channel + 1) + 1 by omega, List.getElem?_cons_succ]

theorem responseAt_extractGroups {row : List K} (h : ∀ x ∈ row, 0 ≤ x) (j : Nat) :
    responseAt (extractGroups 0 row) j = (row[j]?).getD 0 := by
  rw [extractGroups, responseAt_extractFrom h, if_pos (Nat.zero_le _), Nat.sub_zero]

/-! ### Moving channels -/

/-- No weight is negative. -/
def Redistribution.Clean (m : Redistribution K) : Prop :=
  ∀ groups ∈ m.rows, ∀ g ∈ groups, ∀ weight ∈ g.weights, 0 ≤ weight

variable {m moved : Redistribution K} {g : Grouping} {target : Grid K}

/-- A matrix that is made of unchecked groups has no negative weights. -/
theorem Redistribution.clean_of_ofRawRows {source : MatrixSource} {energies channels : Grid K}
    {raw : List (List (RawGroup K))} {layout : MatrixLayout K}
    (h : (ofRawRows source energies channels raw layout).Answers (.ok m)) : m.Clean := by
  obtain ⟨-, -, -, hrows⟩ := of_ofRawRows h
  rw [Clean, hrows]
  intro groups hgroups g hg weight hweight
  obtain ⟨kept, -, rfl⟩ := List.mem_map.1 hgroups
  obtain ⟨raw, -, rfl⟩ := List.mem_map.1 hg
  obtain ⟨stored, -, rfl⟩ := List.mem_map.1 hweight
  rw [isBadWeight_exact]
  by_cases hbad : stored < 0
  · simp [hbad]
  · simpa [hbad] using not_lt.1 hbad

/-- So has a matrix that is read. -/
theorem Redistribution.clean_of_read {file : CalibrationFile K} (h : (read file).Answers (.ok m)) :
    m.Clean := by
  obtain ⟨_, _, _, _, _, _, _, -, -, -, -, -, -, -, h⟩ := exists_readOnAxes h
  obtain ⟨fields, -, h⟩ := h.of_lift_bind
  obtain ⟨readRows, -, h⟩ := h.of_bind
  obtain ⟨m', hm', h⟩ := h.of_warnIf_bind.of_bind
  have hclean : m'.Clean := clean_of_ofRawRows hm'.of_inDocument
  cases Except.ok.inj (Noted.answers_pure.1 h)
  exact hclean

variable [IsStrictOrderedRing K]

omit [FloorRing K] [Roots K] [IsStrictOrderedRing K] in
theorem Redistribution.Clean.weight_nonneg (h : m.Clean) {groups : List (ResponseGroup K)} (hgroups : groups ∈ m.rows)
    {g : ResponseGroup K} (hg : g ∈ groups) (channel : Nat) : 0 ≤ (g.weightAt? channel).getD 0 := by
  cases hweight : g.weightAt? channel with
  | none => exact le_refl _
  | some weight =>
    rw [ResponseGroup.weightAt?] at hweight
    split at hweight
    · exact h groups hgroups g hg weight (List.mem_of_getElem? hweight)
    · cases hweight

omit [FloorRing K] [Roots K] in
theorem Redistribution.Clean.responseAt_nonneg (h : m.Clean) {groups : List (ResponseGroup K)}
    (hgroups : groups ∈ m.rows) (channel : Nat) : 0 ≤ responseAt groups channel :=
  List.sum_nonneg (List.forall_mem_map.2 fun _ hg => h.weight_nonneg hgroups hg channel)

namespace Redistribution

/-- The matrix on grouped channels: each row is summed over the groups and cut into groups of its own. -/
theorem of_onChannels (hw : m.channels.Wide) (hg : g.Proper) (hgrid : g.grid m.channels = .ok target)
    {threshold : K} (h : m.onChannels target threshold = .ok moved) :
    moved.energies = m.energies ∧ moved.channels = target ∧
      moved.rows = m.rows.map fun groups => extractGroups threshold (g.sums (m.denseRow groups)) := by
  obtain ⟨rows, hrows, h⟩ := Except.bind_eq_ok.1 h
  obtain ⟨-, h⟩ := Except.guard_eq_ok.1 h
  cases Except.ok.inj h
  refine ⟨rfl, rfl, ?_⟩
  have hall := Except.mapM_eq_ok.1 hrows
  refine (List.forall₂_eq_eq_eq ▸ (List.forall₂_map_left_iff.2 (hall.imp fun groups row hrow => ?_)) : _).symm
  have hlen : (m.denseRow groups).length = m.channels.length := by
    rw [denseRow_eq_responseAt, List.length_map, List.length_range, channelCount]
  rw [Grouping.rebin_grid_eq_sums hw.toOrdered hg hgrid hlen] at hrow
  exact Except.ok.inj hrow

/-- A moved row gives a channel what the row gives to the channels grouped there. -/
theorem responseAt_grouped (hm : m.Clean) (hg : g.Proper) (hcount : g.fineLength = m.channelCount)
    {groups : List (ResponseGroup K)} (hgroups : groups ∈ m.rows) (j : Nat) :
    responseAt (extractGroups 0 (g.sums (m.denseRow groups))) j =
      ((g.groups[j]?).map fun group => (group.map (responseAt groups)).sum).getD 0 := by
  have hsums : g.sums (m.denseRow groups) = g.groups.map fun group => (group.map (responseAt groups)).sum := by
    rw [denseRow_eq_responseAt, ← hcount, hg.sums_map_range]
  rw [responseAt_extractGroups, hsums, List.getElem?_map]
  rw [hsums]
  intro x hx
  obtain ⟨group, -, rfl⟩ := List.mem_map.1 hx
  refine List.sum_nonneg fun y hy => ?_
  obtain ⟨channel, -, rfl⟩ := List.mem_map.1 hy
  exact hm.responseAt_nonneg hgroups channel

omit [IsStrictOrderedRing K] [FloorRing K] [LinearOrder K] [Roots K] in
/-- Summing over the channels of a group and over the rows may be exchanged. -/
theorem sum_response (m : Redistribution K) (input : List K) (group : List Nat) :
    (group.map (m.response input)).sum =
      ((input.zip m.rows).map fun (value, groups) => value * (group.map (responseAt groups)).sum).sum := by
  have hrows (rows : List (K × List (ResponseGroup K))) :
      (group.map fun channel => (rows.map fun (value, groups) => value * responseAt groups channel).sum).sum =
        (rows.map fun (value, groups) => value * (group.map (responseAt groups)).sum).sum := by
    induction rows with
    | nil => simp
    | cons row rows ih =>
      obtain ⟨value, groups⟩ := row
      simp only [List.map_cons, List.sum_cons, List.sum_map_add, List.sum_map_mul_left, ih]
  exact hrows _

/-- The fold of a matrix on grouped channels is the grouped fold of the matrix. -/
theorem fold_onChannels (hm : m.Clean) (hw : m.channels.Wide) (hg : g.Proper)
    (hgrid : g.grid m.channels = .ok target) (h : m.onChannels target 0 = .ok moved) {input : List K}
    (hlen : m.energyCount = input.length) :
    ∃ channels : List K,
      (m.fold input (List.replicate m.channelCount 0) : Except (Fault K) (List K)) = .ok channels ∧
        channels.length = m.channelCount ∧
        (moved.fold input (List.replicate moved.channelCount 0) : Except (Fault K) (List K)) =
          .ok (g.sums channels) := by
  obtain ⟨henergies, hchannels, hrows⟩ := of_onChannels hw hg hgrid h
  have hcount : g.fineLength = m.channelCount := (Grouping.of_grid hgrid).1
  have hmoved : moved.channelCount = g.groups.length := by
    rw [channelCount, hchannels]
    exact hg.length_grid hgrid
  refine ⟨_, fold_eq_response hlen, by simp, ?_⟩
  have hlen' : moved.energyCount = input.length := by rw [energyCount, henergies, ← hlen, energyCount]
  rw [fold_eq_response hlen', hmoved, ← hcount, hg.sums_map_range]
  congr 1
  refine List.ext_getElem (by simp) fun j hj _ => ?_
  have hj : j < g.groups.length := by simpa using hj
  rw [List.getElem_map, List.getElem_range, List.getElem_map, sum_response, response, hrows, List.zip_map_right,
    List.map_map]
  refine congrArg List.sum (List.map_congr_left fun row hrow => ?_)
  obtain ⟨value, groups⟩ := row
  have hgroups : groups ∈ m.rows := (List.of_mem_zip hrow).2
  show value * responseAt (extractGroups 0 (g.sums (m.denseRow groups))) j = _
  rw [responseAt_grouped hm hg hcount hgroups, List.getElem?_eq_getElem hj]
  rfl

end Redistribution

end SpectralResponse
