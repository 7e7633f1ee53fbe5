import SpectralResponse.Proofs.Noted
import SpectralResponse.Proofs.Scalar.Words
import SpectralResponse.ResponseMatrix.Table

/-!
# Groups of a stored row

A row of a response table declares a number of groups. A group is complete when the row names its first
channel and its number of channels and when enough weights are left for it; the weights of a row belong
to its groups one after the other. `CompleteGroups` says which groups a row holds, without a word on how
they are read.

## What is proved

* A row holds one list of complete groups at most (`CompleteGroups.unique`).
* Reading a row finds its complete groups, with the offset of channel numbers taken off in 64-bit words
  (`complete_of_readGroups`).
* A matrix that is made of unchecked groups has those that are taken to lie inside the channels (`of_ofRawRows`).
-/

namespace SpectralResponse

variable {α : Type} [Scalar α]

omit [Scalar α] in
/-- The weight that a group gives to a channel. -/
def ResponseGroup.weightAt? (g : ResponseGroup α) (channel : Nat) : Option α :=
  if g.first ≤ channel then g.weights[channel - g.first]? else none

/-- The natural number in a cell, if there is one. -/
def naturalInCell? (value : α) : Option Nat :=
  if Scalar.isFinite value && !decide (value < 0) && Scalar.isWhole value then
    some (Scalar.clamp 0 Scalar.maxCount (Scalar.trunc value)).toNat
  else none

theorem countOfCell_eq_ok {field : String} {row : Nat} {value : α} {n : Nat} :
    countOfCell field row value = .ok n ↔ naturalInCell? value = some n := by
  unfold countOfCell naturalInCell?
  split <;> simp

/-- The row gives the group number `k` its first channel and its number of channels. -/
def Declares (starts spans : List α) (k : Nat) (start : Int) (span : Nat) : Prop :=
  ∃ startCell spanCell, groupValue? starts k = some startCell ∧ groupValue? spans k = some spanCell ∧
    Scalar.nearest startCell = start ∧ naturalInCell? spanCell = some span

theorem Declares.unique {starts spans : List α} {k : Nat} {start start' : Int} {span span' : Nat}
    (h : Declares starts spans k start span) (h' : Declares starts spans k start' span') :
    start' = start ∧ span' = span := by
  obtain ⟨a, b, ha, hb, rfl, hs⟩ := h
  obtain ⟨a', b', ha', hb', rfl, hs'⟩ := h'
  cases ha.symm.trans ha'
  cases hb.symm.trans hb'
  exact ⟨rfl, Option.some.inj (hs'.symm.trans hs)⟩

omit [Scalar α] in
/-- The weights of some groups, one group after the other. -/
def weightsOf (groups : List (RawGroup α)) : List α := groups.flatMap RawGroup.weights

omit [Scalar α] in
@[simp]
theorem weightsOf_nil : weightsOf ([] : List (RawGroup α)) = [] := rfl

omit [Scalar α] in
@[simp]
theorem weightsOf_cons (g : RawGroup α) (groups : List (RawGroup α)) :
    weightsOf (g :: groups) = g.weights ++ weightsOf groups := rfl

/-- The complete groups among `declared` ones, from number `k` on, with the channel numbers of the
file. -/
structure CompleteGroups (starts spans : List α) (k declared : Nat) (weights : List α)
    (groups : List (RawGroup α)) : Prop where
  /-- There are no more groups than are declared. -/
  count : groups.length ≤ declared
  /-- Each group starts where it should and has as many weights as it should. -/
  declares : ∀ i g, groups[i]? = some g → Declares starts spans (k + i) g.first g.weights.length
  /-- The weights of the row are cut up in this order. -/
  cut : weightsOf groups <+: weights
  /-- There is no start, no span or no weight left for one more group. -/
  longest : groups.length < declared → ∀ start span, Declares starts spans (k + groups.length) start span →
    weights.length < (weightsOf groups).length + span

namespace CompleteGroups

variable {starts spans : List α} {k declared : Nat} {weights : List α}

theorem nil_of_declared : CompleteGroups starts spans k 0 weights [] where
  count := Nat.le_refl 0
  declares _ _ h := by cases h
  cut := List.nil_prefix
  longest h := by cases h

/-- No group is complete when the next one is not. -/
theorem nil_of_longest (h : ∀ start span, Declares starts spans k start span → weights.length < span) :
    CompleteGroups starts spans k declared weights [] where
  count := Nat.zero_le _
  declares _ _ h := by cases h
  cut := List.nil_prefix
  longest _ start span hd := by
    have := h start span hd
    simpa using this

/-- One group more, in front of the others. -/
theorem cons {groups : List (RawGroup α)} {start : Int} {span : Nat}
    (hd : Declares starts spans k start span) (hspan : span ≤ weights.length)
    (h : CompleteGroups starts spans (k + 1) declared (weights.drop span) groups) :
    CompleteGroups starts spans k (declared + 1) weights (⟨start, weights.take span⟩ :: groups) where
  count := Nat.succ_le_succ h.count
  declares i g hg := by
    cases i with
    | zero =>
      cases hg
      simpa [Nat.min_eq_left hspan] using hd
    | succ i =>
      have := h.declares i g hg
      rwa [Nat.add_assoc, Nat.add_comm 1] at this
  cut := by
    have := List.prefix_append_right_inj (weights.take span) |>.2 h.cut
    rwa [List.take_append_drop] at this
  longest hlt start' span' hd' := by
    rw [List.length_cons, Nat.add_comm groups.length, ← Nat.add_assoc] at hd'
    have hl := h.longest (Nat.lt_of_succ_lt_succ hlt) start' span' hd'
    simp only [List.length_drop, weightsOf_cons, List.length_append, List.length_take] at hl ⊢
    omega

theorem tail {g : RawGroup α} {groups : List (RawGroup α)}
    (h : CompleteGroups starts spans k (declared + 1) weights (g :: groups)) :
    CompleteGroups starts spans (k + 1) declared (weights.drop g.weights.length) groups where
  count := Nat.le_of_succ_le_succ h.count
  declares i g' hg := by
    have := h.declares (i + 1) g' hg
    rwa [Nat.add_comm i, ← Nat.add_assoc] at this
  cut := by
    obtain ⟨rest, hrest⟩ := h.cut
    rw [← hrest, weightsOf_cons, List.append_assoc, List.drop_left]
    exact List.prefix_append _ _
  longest hlt start span hd := by
    rw [Nat.add_assoc, Nat.add_comm 1] at hd
    have hl := h.longest (Nat.succ_lt_succ hlt) start span hd
    have hc := h.cut.length_le
    simp only [List.length_drop, weightsOf_cons, List.length_append] at hl hc ⊢
    omega

/-- A row does not hold complete groups in two ways. -/
theorem unique {groups groups' : List (RawGroup α)}
    (h : CompleteGroups starts spans k declared weights groups)
    (h' : CompleteGroups starts spans k declared weights groups') : groups' = groups := by
  -- A longer list would hold the group that the shorter one has no weights for.
  have short {g : RawGroup α} {rest : List (RawGroup α)} {k declared : Nat} {weights : List α}
      (hnil : CompleteGroups starts spans k declared weights [])
      (hcons : CompleteGroups starts spans k declared weights (g :: rest)) : False := by
    have hd := hcons.declares 0 g rfl
    have hl := hnil.longest (Nat.lt_of_lt_of_le (Nat.succ_pos _) hcons.count) _ _ hd
    have hc := hcons.cut.length_le
    simp only [weightsOf_nil, weightsOf_cons, List.length_nil, List.length_append] at hl hc
    omega
  induction groups generalizing k declared weights groups' with
  | nil =>
    cases groups' with
    | nil => rfl
    | cons g' rest' => exact (short h h').elim
  | cons g rest ih =>
    cases groups' with
    | nil => exact (short h' h).elim
    | cons g' rest' =>
      cases declared with
      | zero => exact absurd h.count (Nat.not_succ_le_zero _)
      | succ declared =>
        obtain ⟨hfirst, hlen⟩ := (h.declares 0 g rfl).unique (h'.declares 0 g' rfl)
        have hw : g'.weights = g.weights := by
          have hg : g.weights <+: weights := (List.prefix_append _ _).trans h.cut
          have hg' : g'.weights <+: weights := (List.prefix_append _ _).trans h'.cut
          exact (List.prefix_of_prefix_length_le hg' hg (Nat.le_of_eq hlen)).eq_of_length hlen
        have ht := h'.tail
        rw [hlen] at ht
        rw [ih h.tail ht]
        cases g
        cases g'
        cases hfirst
        cases hw
        rfl

end CompleteGroups

omit [Scalar α] in
/-- The group with the numbers of its channels counted from `offset` on, in 64-bit words. -/
def RawGroup.countedFrom (offset : Int) (g : RawGroup α) : RawGroup α :=
  ⟨Scalar.wrap (Scalar.saturate g.first - offset), g.weights⟩

/-- What is read from a row are its complete groups; all others are counted as missing. -/
theorem complete_of_readGroups {row : Nat} {offset : Int} {starts spans : List α} {left k used : Nat}
    {weights : List α} {groups : List (RawGroup α)} {missing : Nat}
    (h : readGroups row offset starts spans left k used weights = .ok (groups, missing)) :
    ∃ stored, CompleteGroups starts spans k left weights stored ∧
      groups = stored.map (RawGroup.countedFrom offset) ∧ stored.length + missing = left := by
  induction left generalizing k used weights groups missing with
  | zero =>
    cases Except.ok.inj h
    exact ⟨[], .nil_of_declared, rfl, rfl⟩
  | succ left ih =>
    rw [readGroups] at h
    split at h
    · rename_i start spanCell hstart hspan
      obtain ⟨span, hcount, h⟩ := Except.bind_eq_ok.1 h
      have hd : Declares starts spans k (Scalar.nearest start) span :=
        ⟨start, spanCell, hstart, hspan, rfl, countOfCell_eq_ok.1 hcount⟩
      obtain ⟨-, h⟩ := Except.guard_eq_ok.1 h
      split at h
      · rename_i hlt
        cases Except.ok.inj h
        refine ⟨[], .nil_of_longest fun start' span' hd' => ?_, rfl, Nat.zero_add _⟩
        rw [(hd.unique hd').2]
        exact hlt
      · rename_i hlt
        obtain ⟨⟨rest, missing'⟩, hrest, h⟩ := Except.bind_eq_ok.1 h
        cases Except.ok.inj h
        obtain ⟨stored, hstored, rfl, hlen⟩ := ih hrest
        refine ⟨_, hstored.cons hd (Nat.not_lt.1 hlt), rfl, ?_⟩
        rw [List.length_cons]
        omega
    · rename_i hnone
      cases Except.ok.inj h
      refine ⟨[], .nil_of_longest fun start span hd => ?_, rfl, Nat.zero_add _⟩
      obtain ⟨a, b, ha, hb, -⟩ := hd
      exact (hnone a b ha hb).elim

/-- The complete groups of a row, with the channel numbers of the file. -/
def GroupFields.Complete (fields : GroupFields α) (row : Nat) (groups : List (RawGroup α)) : Prop :=
  ∃ declared, naturalInCell? ((groupValue? (fields.counts.row row) 0).getD 0) = some declared ∧
    CompleteGroups (fields.starts.row row) (fields.spans.row row) 0 declared (fields.weights.row row) groups

theorem GroupFields.Complete.unique {fields : GroupFields α} {row : Nat} {groups groups' : List (RawGroup α)}
    (h : fields.Complete row groups) (h' : fields.Complete row groups') : groups' = groups := by
  obtain ⟨declared, hdeclared, hgroups⟩ := h
  obtain ⟨declared', hdeclared', hgroups'⟩ := h'
  cases Option.some.inj (hdeclared.symm.trans hdeclared')
  exact hgroups.unique hgroups'

theorem complete_of_readRow {fields : GroupFields α} {offset : Int} {row : Nat}
    {answer : List (RawGroup α) × Nat} (h : fields.readRow offset row = .ok answer) :
    ∃ stored, fields.Complete row stored ∧ answer.1 = stored.map (RawGroup.countedFrom offset) := by
  obtain ⟨declared, hdeclared, h⟩ := Except.bind_eq_ok.1 h
  obtain ⟨stored, hstored, hgroups, -⟩ := complete_of_readGroups h
  exact ⟨stored, ⟨declared, countOfCell_eq_ok.1 hdeclared, hstored⟩, hgroups⟩

/-! ### Matrices -/

omit [Scalar α] in
theorem RawGroup.isInside_iff {count : Nat} {first : Int} {weights : List α} :
    isInside count (⟨first, weights⟩ : RawGroup α) = true ↔
      0 ≤ first ∧ Scalar.wrap (first + weights.length) ≤ count := by
  simp [isInside]

omit [Scalar α] in
/-- A group that lies inside the channels is taken to do so, however many channels there are. -/
theorem RawGroup.isInside_of_le {count : Nat} {first : Int} {weights : List α} (hfirst : 0 ≤ first)
    (hlast : first + weights.length ≤ count) : isInside count (⟨first, weights⟩ : RawGroup α) = true := by
  have hwrap : Scalar.wrap (first + weights.length) ≤ first + weights.length :=
    Scalar.wrap_le (by rw [Scalar.minWord]; omega)
  exact isInside_iff.2 ⟨hfirst, Int.le_trans hwrap hlast⟩

namespace Redistribution

variable {m : Redistribution α}

/-- A matrix of unchecked groups has the groups that are taken to lie inside the channels, without bad weights. -/
theorem of_ofRawRows {source : MatrixSource} {energies channels : Grid α} {raw : List (List (RawGroup α))}
    {layout : MatrixLayout α}
    (h : (ofRawRows source energies channels raw layout).Answers (.ok m)) :
    m.energies = energies ∧ m.channels = channels ∧ m.layout = layout ∧
      m.rows = raw.map fun row => (row.filter (RawGroup.isInside channels.length)).map RawGroup.clean := by
  rw [ofRawRows] at h
  obtain ⟨-, -, h⟩ := h.of_lift_bind
  cases Except.ok.inj (Noted.answers_pure.1 h.of_warnIf_bind.of_warnIf_bind.of_guard)
  exact ⟨rfl, rfl, rfl, List.map_map⟩

/-- A matrix of unchecked groups is refused when there is no weight in the groups that are kept. -/
theorem error_iff_of_ofRawRows {source : MatrixSource} {energies channels : Grid α}
    {raw : List (List (RawGroup α))} {layout : MatrixLayout α} {answer : Except (Fault α) (Redistribution α)}
    (hlen : energies.length = raw.length) (h : (ofRawRows source energies channels raw layout).Answers answer) :
    (∃ fault, answer = .error fault) ↔
      weightOfRows (raw.map fun row => (row.filter (RawGroup.isInside channels.length)).map RawGroup.clean) ≤ 0 := by
  have hrequire (fault : Nat → Nat → Fault α) : requireLength fault energies.length raw.length = .ok () :=
    Except.requireLength_eq_ok.2 hlen
  rw [ofRawRows, hrequire] at h
  have hweigh := h.of_lift_ok_bind.of_warnIf_bind.of_warnIf_bind.error_iff_of_guard
  rwa [List.map_map] at hweigh

/-- The matrix of a file is read on the axes that are read first. -/
theorem exists_readOnAxes {file : CalibrationFile α} (h : (read file).Answers (.ok m)) :
    ∃ table boundsTable lo hi unit energy bounds,
      file.extension ["SPECRESP MATRIX", "MATRIX"] = .ok table ∧
        file.extension ["EBOUNDS"] = .ok boundsTable ∧ table.fixedColumn "ENERG_LO" = .ok lo ∧
        table.fixedColumn "ENERG_HI" = .ok hi ∧ table.columnUnit "ENERG_LO" .kev = .ok unit ∧
        canonicalize lo hi unit = .ok energy ∧ ChannelBounds.read boundsTable = .ok bounds ∧
        (readOnAxes file.origin table energy bounds
          (channelOffset table boundsTable bounds.firstChannel)).Answers (.ok m) := by
  rw [read] at h
  obtain ⟨table, htable, h⟩ := h.of_lift_bind
  obtain ⟨boundsTable, hboundsTable, h⟩ := h.of_lift_bind
  obtain ⟨lo, hlo, h⟩ := h.of_lift_bind
  obtain ⟨hi, hhi, h⟩ := h.of_lift_bind
  obtain ⟨unit, hunit, h⟩ := h.of_lift_bind
  obtain ⟨energy, henergy, h⟩ := h.of_lift_bind
  obtain ⟨bounds, hbounds, h⟩ := h.of_lift_bind
  refine ⟨table, boundsTable, lo, hi, unit, energy, bounds, htable, hboundsTable, hlo, hhi, hunit,
    Except.mapError_eq_ok.1 henergy, hbounds, ?_⟩
  revert h
  dsimp only
  split
  · exact fun h => h.of_warnIf_bind
  · exact id

end Redistribution

end SpectralResponse
