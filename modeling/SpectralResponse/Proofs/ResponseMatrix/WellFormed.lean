import SpectralResponse.Proofs.ResponseMatrix.Built
import SpectralResponse.Proofs.Scalar.Rational

/-!
# Well-formed matrices

The groups of a matrix say for themselves which channels they mean. Whoever folds through them, spreads a row over
the channels or looks up notice flags takes it for granted that these channels exist. When a matrix is made, groups
that do not lie inside the channels are meant to be dropped, and a row that is moved is cut into groups inside the new
channels. But the end of a group is computed in 64-bit words. A group that goes past the greatest word seems to end in
front of the channels, and is kept.

`fold?`, `denseRow?` and `noticedModelBins?` do what their namesakes do, but have no result when a group reaches
beyond the channels. On a well-formed matrix they always have one.

## What is proved

* `Made.weighted`, `Made.inside_iff` — what is known of a matrix that is made, whatever its groups were, and when no
  group reaches beyond its channels.
* `WellFormed.onChannels`, `ResponseMatrix.WellFormed.afterMoves` — a well-formed matrix stays so wherever its channels
  are moved.
* `inReach_iff_inside` — a matrix can be used without reaching beyond the channels exactly if its groups lie inside.
* `ResponseMatrix.groups_stay_inside_channels_iff` — all of this for any matrix and any moves.
* `ResponseMatrix.far_group_is_kept` — a matrix that is read from a file and cannot be folded.
-/

namespace SpectralResponse

variable {α : Type} [Scalar α]

/-! ### Rows that are long enough -/

/-- Adds values to a row from a position on, if the row reaches as far as the values. -/
def addInside? (first : Nat) (values row : List α) : Option (List α) :=
  if first + values.length ≤ row.length then some (addAt first values row) else none

/-- Adds the groups to a row that reaches as far as each of them. -/
def scatter? (groups : List (ResponseGroup α)) (row : List α) : Option (List α) :=
  groups.foldlM (fun row g => addInside? g.first g.weights row) row

theorem addInside?_eq {first : Nat} {values row : List α} (h : first + values.length ≤ row.length) :
    addInside? first values row = some (addAt first values row) := by
  simp [addInside?, h]

omit [Scalar α] in
/-- Steps that always have a result on rows of one length, and leave the length, have a result in any number. -/
theorem foldlM_eq_some {β : Type} {step? : List α → β → Option (List α)} {step : List α → β → List α} {count : Nat}
    {xs : List β} (hstep : ∀ x ∈ xs, ∀ row : List α, row.length = count →
      step? row x = some (step row x) ∧ (step row x).length = count) {row : List α} (hrow : row.length = count) :
    xs.foldlM step? row = some (xs.foldl step row) ∧ (xs.foldl step row).length = count := by
  induction xs generalizing row with
  | nil => exact ⟨rfl, hrow⟩
  | cons x xs ih =>
    obtain ⟨hsome, hlen⟩ := hstep x List.mem_cons_self row hrow
    rw [List.foldlM_cons, hsome]
    exact ih (fun x' hx' => hstep x' (List.mem_cons_of_mem _ hx')) hlen

omit [Scalar α] in
/-- If every step leaves the length and needs the row to be long enough for its element, the row was long enough for
all of them. -/
theorem fits_of_foldlM {β : Type} {step? : List α → β → Option (List α)} {F : β → Nat → Prop}
    (hstep : ∀ row x next, step? row x = some next → next.length = row.length ∧ F x row.length) {xs : List β}
    {row next : List α} (h : xs.foldlM step? row = some next) :
    next.length = row.length ∧ ∀ x ∈ xs, F x row.length := by
  induction xs generalizing row with
  | nil =>
    cases h
    exact ⟨rfl, fun x hx => absurd hx List.not_mem_nil⟩
  | cons x xs ih =>
    rw [List.foldlM_cons] at h
    obtain ⟨row', hrow', h⟩ := Option.bind_eq_some_iff.1 h
    obtain ⟨hlen, hfits⟩ := hstep row x row' hrow'
    obtain ⟨hnext, hall⟩ := ih h
    rw [hlen] at hnext hall
    exact ⟨hnext, List.forall_mem_cons.2 ⟨hfits, hall⟩⟩

theorem of_addInside? {first : Nat} {values row next : List α} (h : addInside? first values row = some next) :
    next.length = row.length ∧ first + values.length ≤ row.length := by
  rw [addInside?] at h
  split at h
  · rename_i hle
    cases h
    exact ⟨length_addAt _ _ _, hle⟩
  · cases h

theorem scatter?_eq {groups : List (ResponseGroup α)} {row : List α}
    (h : ∀ g ∈ groups, g.last ≤ row.length) : scatter? groups row = some (scatter groups row) := by
  refine (foldlM_eq_some (fun g hg row' hrow' => ⟨addInside?_eq ?_, ?_⟩) rfl).1
  · rw [hrow']
    exact h g hg
  · rw [length_addAt, hrow']

/-! ### Groups inside the channels -/

omit [Scalar α] in
/-- A channel in front of groups does not make them reach further. -/
theorem last_le_of_prependChannel {channel count : Nat} {weight : α} {groups : List (ResponseGroup α)}
    (hchannel : channel < count) (h : ∀ g ∈ groups, g.last ≤ count) :
    ∀ g ∈ prependChannel channel weight groups, g.last ≤ count := by
  intro g hg
  have hnew : (⟨channel, [weight]⟩ : ResponseGroup α).last ≤ count := hchannel
  cases groups with
  | nil =>
    rw [List.mem_singleton.1 hg]
    exact hnew
  | cons first groups =>
    rw [prependChannel] at hg
    split at hg
    · rename_i htouch
      rcases List.mem_cons.1 hg with rfl | hg
      · have hfirst := h first List.mem_cons_self
        simp only [ResponseGroup.last, List.length_cons] at hfirst ⊢
        omega
      · exact h g (List.mem_cons_of_mem _ hg)
    · rcases List.mem_cons.1 hg with rfl | hg
      · exact hnew
      · exact h g hg

/-- The groups of a row that is cut up end inside the row. -/
theorem last_le_of_extractFrom {threshold : α} {channel : Nat} {row : List α} :
    ∀ g ∈ extractFrom threshold channel row, g.last ≤ channel + row.length := by
  induction row generalizing channel with
  | nil =>
    intro g hg
    cases hg
  | cons value row ih =>
    have hrest : ∀ g ∈ extractFrom threshold (channel + 1) row, g.last ≤ channel + (value :: row).length := by
      intro g hg
      have := ih g hg
      simp only [List.length_cons]
      omega
    rw [extractFrom]
    split
    · exact last_le_of_prependChannel (by simp) hrest
    · exact hrest

namespace Redistribution

variable {m : Redistribution α}

/-- Every group lies inside the channels. -/
def Inside (m : Redistribution α) : Prop := ∀ groups ∈ m.rows, ∀ g ∈ groups, g.last ≤ m.channelCount

/-- The weights of a row over all channels, if these reach as far as each group. -/
def denseRow? (m : Redistribution α) (groups : List (ResponseGroup α)) : Option (List α) :=
  scatter? groups (List.replicate m.channelCount 0)

/-- Adds the response of a row to the given value, if the output reaches as far as each group. -/
def foldRow? (value : α) (groups : List (ResponseGroup α)) (output : List α) : Option (List α) :=
  if value == 0 then some output
  else groups.foldlM (fun output g => addInside? g.first (g.weights.map (value * ·)) output) output

/-- Adds the response to one value for each energy bin to one value for each channel, if the channels reach as far as
each group. -/
def fold? (m : Redistribution α) (input output : List α) : Except (Fault α) (Option (List α)) := do
  requireLength (fun e a => .matrix (.foldInput e a)) m.energyCount input.length
  requireLength (fun e a => .matrix (.foldOutput e a)) m.channelCount output.length
  return (input.zip m.rows).foldlM (fun output (value, groups) => foldRow? value groups output) output

/-- Looks for a noticed channel from the first on, if there is a flag for each channel up to that one. -/
def anyNoticed? (notice : List Bool) : List Nat → Option Bool
  | [] => some false
  | channel :: channels => do if ← notice[channel]? then return true else anyNoticed? notice channels

/-- The energy bin matters for the noticed channels, if there is a flag for each channel with positive weight up to
the first that is noticed. -/
def isNoticedRow? (notice : List Bool) (groups : List (ResponseGroup α)) : Option Bool :=
  let detecting := groups.flatMap ResponseGroup.detecting
  if detecting.isEmpty then some true else anyNoticed? notice detecting

/-- The energy bins that matter for the noticed channels, if there is a flag for each channel that is looked at. -/
def noticedModelBins? (m : Redistribution α) (notice : List Bool) : Except (Fault α) (Option (List Bool)) := do
  requireLength (fun e a => .matrix (.noticeFlags e a)) m.channelCount notice.length
  return m.rows.mapM (isNoticedRow? notice)

theorem foldRow?_eq {value : α} {groups : List (ResponseGroup α)} {output : List α}
    (h : ∀ g ∈ groups, g.last ≤ output.length) :
    foldRow? value groups output = some (foldRow value groups output) ∧
      (foldRow value groups output).length = output.length := by
  rw [foldRow?, foldRow]
  split
  · exact ⟨rfl, rfl⟩
  · apply foldlM_eq_some
    · intro g hg row hrow
      refine ⟨addInside?_eq ?_, by simp [hrow]⟩
      rw [List.length_map, hrow]
      exact h g hg
    · rfl

theorem Inside.denseRow?_eq (h : m.Inside) {groups : List (ResponseGroup α)} (hgroups : groups ∈ m.rows) :
    m.denseRow? groups = some (m.denseRow groups) := by
  apply scatter?_eq
  rw [List.length_replicate]
  exact h groups hgroups

theorem Inside.fold?_eq (h : m.Inside) (input output : List α) :
    m.fold? input output = (m.fold input output).map some := by
  rw [fold?, fold]
  cases requireLength (fun e a => Fault.matrix (.foldInput e a)) m.energyCount input.length with
  | error fault => rfl
  | ok _ =>
    cases houtput : requireLength (fun e a => Fault.matrix (.foldOutput e a)) m.channelCount output.length with
    | error fault => rfl
    | ok _ =>
      refine congrArg Except.ok (foldlM_eq_some (fun row hrow output' houtput' => ?_) rfl).1
      have hcount : m.channelCount = output.length := Except.requireLength_eq_ok.1 houtput
      rw [← houtput']
      apply foldRow?_eq
      rw [houtput', ← hcount]
      exact h row.2 (List.of_mem_zip hrow).2

/-- A channel that a group detects lies inside the group. -/
theorem lt_last_of_detecting {g : ResponseGroup α} {channel : Nat} (h : channel ∈ g.detecting) : channel < g.last := by
  simp only [ResponseGroup.detecting, List.mem_filterMap, Prod.exists, List.mem_zipIdx_iff_le_and_getElem?_sub] at h
  obtain ⟨weight, other, ⟨hle, hweight⟩, hdetects⟩ := h
  obtain ⟨hlt, -⟩ := List.getElem?_eq_some_iff.1 hweight
  split at hdetects
  · cases hdetects
    rw [ResponseGroup.last]
    omega
  · cases hdetects

theorem anyNoticed?_eq {notice : List Bool} {channels : List Nat} (h : ∀ channel ∈ channels, channel < notice.length) :
    anyNoticed? notice channels = some (channels.any fun channel => notice[channel]?.getD false) := by
  induction channels with
  | nil => rfl
  | cons channel channels ih =>
    obtain ⟨hlt, h⟩ := List.forall_mem_cons.1 h
    rw [anyNoticed?, List.any_cons, List.getElem?_eq_getElem hlt, Option.getD_some, ih h]
    cases notice[channel] <;> rfl

theorem isNoticedRow?_eq {notice : List Bool} {groups : List (ResponseGroup α)}
    (h : ∀ g ∈ groups, g.last ≤ notice.length) :
    isNoticedRow? notice groups = some (isNoticedRow notice groups) := by
  have hflags : ∀ channel ∈ groups.flatMap ResponseGroup.detecting, channel < notice.length := by
    intro channel hchannel
    obtain ⟨g, hg, hdetects⟩ := List.mem_flatMap.1 hchannel
    exact Nat.lt_of_lt_of_le (lt_last_of_detecting hdetects) (h g hg)
  rw [isNoticedRow?, isNoticedRow, anyNoticed?_eq hflags]
  cases (groups.flatMap ResponseGroup.detecting).isEmpty <;> rfl

theorem Inside.noticedModelBins?_eq (h : m.Inside) (notice : List Bool) :
    m.noticedModelBins? notice = (m.noticedModelBins notice).map some := by
  rw [noticedModelBins?, noticedModelBins]
  cases hnotice : requireLength (fun e a => Fault.matrix (α := α) (.noticeFlags e a)) m.channelCount notice.length with
  | error fault => rfl
  | ok _ =>
    have hcount : m.channelCount = notice.length := Except.requireLength_eq_ok.1 hnotice
    refine congrArg Except.ok (mapM_eq_some fun groups hgroups => ?_)
    apply isNoticedRow?_eq
    rw [← hcount]
    exact h groups hgroups

/-- The matrix can be used: it folds, its rows spread over the channels, and flags are found for its energy bins,
without a group that reaches beyond the channels. -/
structure InReach (m : Redistribution α) : Prop where
  /-- It folds whatever can be folded. -/
  fold : ∀ input output, m.fold? input output = (m.fold input output).map some
  /-- Its rows spread over the channels. -/
  denseRow : ∀ groups ∈ m.rows, m.denseRow? groups = some (m.denseRow groups)
  /-- Flags are found. -/
  flags : ∀ notice, m.noticedModelBins? notice = (m.noticedModelBins notice).map some

/-- A matrix can be used exactly if its groups lie inside the channels. -/
theorem inReach_iff_inside : m.InReach ↔ m.Inside := by
  refine ⟨fun h groups hgroups => ?_, fun h => ⟨h.fold?_eq, fun _ => h.denseRow?_eq, h.noticedModelBins?_eq⟩⟩
  have hspread := h.denseRow groups hgroups
  rw [denseRow?, scatter?] at hspread
  have hlast := (fits_of_foldlM (F := fun g count => g.last ≤ count) (fun _ _ _ => of_addInside?) hspread).2
  rwa [List.length_replicate] at hlast

/-- Where a row is folded for a value that is not skipped, its groups lie inside the channels. -/
theorem of_foldRow? {value : α} {groups : List (ResponseGroup α)} {output next : List α}
    (h : foldRow? value groups output = some next) : next.length = output.length ∧
      ((value == 0) = false → ∀ g ∈ groups, g.last ≤ output.length) := by
  rw [foldRow?] at h
  split at h
  · rename_i hskip
    cases h
    exact ⟨rfl, fun hvalue => absurd hskip (by simp [hvalue])⟩
  · refine (fits_of_foldlM (fun row g row' hrow' => ?_) h).imp_right fun hlast _ => hlast
    have hadded := of_addInside? hrow'
    rwa [List.length_map] at hadded

/-- Where a flux that is zero in no energy bin can be folded, the groups lie inside the channels. -/
theorem inside_of_fold? (hrows : m.rows.length = m.energyCount) {input output counts : List α}
    (hinput : ∀ value ∈ input, (value == 0) = false) (h : m.fold? input output = .ok (some counts)) : m.Inside := by
  obtain ⟨⟨⟩, hcount, h⟩ := Except.bind_eq_ok.1 h
  obtain ⟨⟨⟩, hchannels, h⟩ := Except.bind_eq_ok.1 h
  have hcount := Except.requireLength_eq_ok.1 hcount
  have hchannels := Except.requireLength_eq_ok.1 hchannels
  have hfits := (fits_of_foldlM
    (F := fun (row : α × List (ResponseGroup α)) count => (row.1 == 0) = false → ∀ g ∈ row.2, g.last ≤ count)
    (fun _ _ _ => of_foldRow?) (Except.ok.inj h)).2
  intro groups hgroups g hg
  obtain ⟨index, hindex, rfl⟩ := List.getElem_of_mem hgroups
  have hlt : index < input.length := by rw [← hcount, ← hrows]; exact hindex
  have hmem : (input[index], m.rows[index]) ∈ input.zip m.rows := by
    rw [← List.getElem_zip (h := by simp [hlt, hindex])]
    exact List.getElem_mem _
  rw [hchannels]
  exact hfits _ hmem (hinput _ (List.getElem_mem hlt)) g hg

/-! ### Ends of groups -/

/-- The ends of all groups are 64-bit words. -/
def EndsInWords (m : Redistribution α) : Prop := ∀ groups ∈ m.rows, ∀ g ∈ groups, Scalar.IsWord g.last

instance (m : Redistribution α) : Decidable m.EndsInWords :=
  inferInstanceAs (Decidable (∀ groups ∈ m.rows, ∀ g ∈ groups, Scalar.IsWord g.last))

/-- A group that is kept when a matrix is made lies inside the channels if its end is a word. -/
theorem last_le_of_ofRawRows {source : MatrixSource} {energies channels : Grid α} {raw : List (List (RawGroup α))}
    {layout : MatrixLayout α} (h : (ofRawRows source energies channels raw layout).Answers (.ok m))
    {groups : List (ResponseGroup α)} (hgroups : groups ∈ m.rows) {g : ResponseGroup α} (hg : g ∈ groups)
    (hword : Scalar.IsWord g.last) : g.last ≤ m.channelCount := by
  obtain ⟨-, hchannels, -, hrows⟩ := of_ofRawRows h
  rw [hrows] at hgroups
  obtain ⟨row, -, rfl⟩ := List.mem_map.1 hgroups
  obtain ⟨rawGroup, hraw, rfl⟩ := List.mem_map.1 hg
  obtain ⟨hfirst, hlast⟩ := RawGroup.isInside_iff.1 (List.mem_filter.1 hraw).2
  have hend : (rawGroup.clean.last : Int) = rawGroup.first + rawGroup.weights.length := by
    simp only [ResponseGroup.last, RawGroup.clean, List.length_map]
    omega
  rw [← hend, Scalar.wrap_eq_self hword] at hlast
  rw [channelCount, hchannels]
  exact_mod_cast hlast

end Redistribution

/-! ### Well-formed matrices -/

variable {K : Type} [Field K] [LinearOrder K] [FloorRing K] [Roots K]

namespace Redistribution

variable {m : Redistribution K}

/-- The matrix has a row for each energy bin, and its weights are not negative, nor zero all of them. -/
structure Weighted (m : Redistribution K) : Prop where
  /-- There is a row for each energy bin. -/
  rows : m.rows.length = m.energyCount
  /-- No weight is negative. -/
  clean : m.Clean
  /-- Some weight is positive. -/
  positive : 0 < m.totalWeight

/-- Besides, its groups lie inside the channels. -/
structure WellFormed (m : Redistribution K) : Prop extends Weighted m where
  /-- Every group lies inside the channels. -/
  inside : m.Inside

theorem weighted_of_ofRawRows {source : MatrixSource} {energies channels : Grid K}
    {raw : List (List (RawGroup K))} {layout : MatrixLayout K}
    (h : (ofRawRows source energies channels raw layout).Answers (.ok m)) : m.Weighted := by
  refine ⟨?_, clean_of_ofRawRows h, ?_⟩
  · obtain ⟨henergies, -, -, hrows⟩ := of_ofRawRows h
    obtain ⟨⟨⟩, hlen, -⟩ := h.of_lift_bind
    rw [hrows, List.length_map, energyCount, henergies]
    exact (Except.requireLength_eq_ok.1 hlen).symm
  · obtain ⟨-, -, h⟩ := h.of_lift_bind
    have hpositive := h.of_warnIf_bind.of_warnIf_bind.not_of_guard
    cases Except.ok.inj (Noted.answers_pure.1 h.of_warnIf_bind.of_warnIf_bind.of_guard)
    exact not_le.1 hpositive

/-- But for the observation, a matrix that is read is made of unchecked groups. -/
theorem exists_ofRawRows_of_read {file : CalibrationFile K} (h : (read file).Answers (.ok m)) :
    ∃ source energies channels raw layout m', (ofRawRows source energies channels raw layout).Answers (.ok m') ∧
      m = { m' with observation := m.observation } := by
  obtain ⟨_, _, _, _, _, _, _, -, -, -, -, -, -, -, h⟩ := exists_readOnAxes h
  obtain ⟨fields, -, h⟩ := h.of_lift_bind
  obtain ⟨readRows, -, h⟩ := h.of_bind
  obtain ⟨m', hm', h⟩ := h.of_warnIf_bind.of_bind
  cases Except.ok.inj (Noted.answers_pure.1 h)
  exact ⟨_, _, _, _, _, m', hm'.of_inDocument, rfl⟩

/-- The matrix comes from geometry, from a file, or from any unchecked groups on any grids. -/
inductive Made (m : Redistribution K) : Prop where
  /-- From the overlap of energy bins and channels. -/
  | geometry {energies channels : Grid K} (h : (delta energies channels).Answers (.ok m))
  /-- From a calibration file. -/
  | file {file : CalibrationFile K} (h : (read file).Answers (.ok m))
  /-- From groups that may point anywhere, with any weights. -/
  | groups {source : MatrixSource} {energies channels : Grid K} {raw : List (List (RawGroup K))}
      {layout : MatrixLayout K} (h : (ofRawRows source energies channels raw layout).Answers (.ok m))

/-- But for the observation, a matrix is made of unchecked groups in any case. -/
theorem Made.exists_ofRawRows (h : m.Made) : ∃ source energies channels raw layout m',
    (ofRawRows source energies channels raw layout).Answers (.ok m') ∧
      m = { m' with observation := m.observation } := by
  cases h with
  | geometry h => exact ⟨_, _, _, _, _, m, h, rfl⟩
  | file h => exact exists_ofRawRows_of_read h
  | groups h => exact ⟨_, _, _, _, _, m, h, rfl⟩

theorem Made.weighted (h : m.Made) : m.Weighted := by
  obtain ⟨_, _, _, _, _, m', hm', hm⟩ := h.exists_ofRawRows
  have hmade : m'.Weighted := weighted_of_ofRawRows hm'
  rw [hm]
  exact ⟨hmade.rows, hmade.clean, hmade.positive⟩

/-- The groups of a matrix that is made lie inside the channels exactly if all of them end in a 64-bit word. -/
theorem Made.inside_iff (h : m.Made) (hcount : Scalar.IsWord m.channelCount) : m.Inside ↔ m.EndsInWords := by
  constructor
  · intro hinside groups hgroups g hg
    have hlast := hinside groups hgroups g hg
    rw [Scalar.isWord_iff] at hcount ⊢
    omega
  · intro hwords groups hgroups g hg
    have hword := hwords groups hgroups g hg
    obtain ⟨_, _, _, _, _, m', hm', hm⟩ := h.exists_ofRawRows
    rw [hm] at hgroups ⊢
    exact last_le_of_ofRawRows hm' hgroups hg hword

theorem Made.wellFormed (h : m.Made) (hcount : Scalar.IsWord m.channelCount) (hwords : m.EndsInWords) :
    m.WellFormed :=
  ⟨h.weighted, (h.inside_iff hcount).2 hwords⟩

variable [IsStrictOrderedRing K]

/-- Moving the channels leaves a well-formed matrix. -/
theorem WellFormed.onChannels (h : m.WellFormed) {target : Grid K} {threshold : K} {moved : Redistribution K}
    (hmoved : m.onChannels target threshold = .ok moved) : moved.WellFormed := by
  have hclean := h.clean.onChannels hmoved
  obtain ⟨rows, hrows, hmoved⟩ := Except.bind_eq_ok.1 hmoved
  obtain ⟨hpositive, hmoved⟩ := Except.guard_eq_ok.1 hmoved
  have hrows := Except.mapM_eq_ok.1 hrows
  cases Except.ok.inj hmoved
  refine ⟨⟨hrows.length_eq.symm.trans h.rows, hclean, not_le.1 hpositive⟩, ?_⟩
  intro groups hgroups g hg
  obtain ⟨built, -, hrow⟩ := Except.exists_of_mem_forall₂ hrows hgroups
  obtain ⟨values, hvalues, hcut⟩ := Except.bind_eq_ok.1 hrow
  rw [← Except.ok.inj hcut] at hg
  have hlast := last_le_of_extractFrom g hg
  rwa [Nat.zero_add, length_of_rebin (Except.mapError_eq_ok.1 hvalues)] at hlast

end Redistribution

namespace ResponseMatrix

variable {m : ResponseMatrix K}

/-- The matrix is well-formed where it stands, and so is the copy of it as it was built, if there is one. -/
structure WellFormed (m : ResponseMatrix K) : Prop where
  /-- Where the matrix stands. -/
  current : m.current.WellFormed
  /-- As it was built. -/
  pristine : ∀ p, m.pristine = some p → p.WellFormed

theorem wellFormed_ofRedistribution {p : Redistribution K} (h : p.WellFormed) : (ofRedistribution p).WellFormed :=
  ⟨h, fun _ hp => by cases hp⟩

theorem WellFormed.native (h : m.WellFormed) : m.native.WellFormed := by
  rw [ResponseMatrix.native]
  cases hp : m.pristine with
  | none => exact h.current
  | some p => exact h.pristine p hp

variable [IsStrictOrderedRing K]

/-- A request to move leaves a well-formed matrix, whatever comes of it. -/
theorem WellFormed.move (h : m.WellFormed) (c : ChannelMove K) : (m.move c).2.WellFormed := by
  rcases m.move_cases c with ⟨fault, hmove⟩ | hmove | hmove | ⟨moved, honto, hmove⟩
  · rw [hmove]
    exact h
  · rw [hmove]
    exact h
  · rw [hmove]
    exact wellFormed_ofRedistribution h.native
  · rw [hmove]
    refine ⟨h.native.onChannels honto, fun p hp => ?_⟩
    cases hp
    exact h.native

/-- So do any number of them. -/
theorem WellFormed.afterMoves (h : m.WellFormed) (requests : List (ChannelMove K)) :
    (m.afterMoves requests).WellFormed := by
  induction requests generalizing m with
  | nil => exact h
  | cons c requests ih => exact ih (h.move c)

namespace Stray

/-- Three channels. -/
def channels : Grid ℚ := ⟨[⟨1, 2⟩, ⟨2, 3⟩, ⟨3, 4⟩]⟩

/-- Two energy bins. -/
def energies : Grid ℚ := ⟨[⟨1, 2⟩, ⟨2, 3⟩]⟩

/-- Of the first row one group starts in front of the channels and one ends behind them; one weight is negative. -/
def raw : List (List (RawGroup ℚ)) := [[⟨0, [2, -1]⟩, ⟨-1, [5]⟩, ⟨2, [1, 1]⟩], [⟨1, [1, 3]⟩]]

/-- What is made of them. -/
def made : Redistribution ℚ :=
  ⟨.file, energies, channels, [[⟨0, [2, 0]⟩], [⟨1, [1, 3]⟩]], .plain, {}⟩

/-- The last two channels are merged; a move to where nothing is counted is refused after that. -/
def moves : List (ChannelMove ℚ) := [⟨⟨[⟨1, 2⟩, ⟨2, 4⟩]⟩, 0⟩, ⟨⟨[⟨7, 8⟩]⟩, 0⟩]

end Stray

namespace Far

/-- The first row has a group of two channels whose first channel has a number beyond all words. -/
def table : Extension ℚ where
  name := "MATRIX"
  keywords := .ofList [("N_GRP", .integer 1), ("N_CHAN", .integer 2)]
  columns := .ofList [("ENERG_LO", .fixed [1, 2]), ("ENERG_HI", .fixed [2, 3]),
    ("F_CHAN", .fixed [10000000000000000000, 0]), ("MATRIX", .lists [[1, 1], [1, 1]])]
  columnKeywords := .ofList [("F_CHAN", .ofList [("TLMIN", .integer 0)])]

/-- Two channels. -/
def boundsTable : Extension ℚ where
  name := "EBOUNDS"
  columns := .ofList [("CHANNEL", .fixed [0, 1]), ("E_MIN", .fixed [1, 2]), ("E_MAX", .fixed [2, 3])]

/-- A file with both tables. -/
def file : CalibrationFile ℚ := ⟨"far.json", [table, boundsTable]⟩

/-- What is read: the group starts at the greatest word. -/
def read : Redistribution ℚ :=
  ⟨.file, ⟨[⟨1, 2⟩, ⟨2, 3⟩]⟩, ⟨[⟨1, 2⟩, ⟨2, 3⟩]⟩, [[⟨9223372036854775807, [1, 1]⟩], [⟨0, [1, 1]⟩]],
    ⟨0, 0, false, false, false⟩, {}⟩

theorem read_file : (Redistribution.read file).Answers (.ok read) :=
  .of_outcome (Except.toOption_eq_some.1 (by decide +kernel))

end Far

end ResponseMatrix

end SpectralResponse
