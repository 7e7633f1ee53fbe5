import SpectralResponse.Proofs.ResponseMatrix.WellFormed
import SpectralResponse.Proofs.Scalar.DoubleComparisons

/-!
# The groups of a row

A row over all channels is cut into groups where its values are above a threshold. `CutAbove` says what these groups
are, without a word on how they are found: which channels they cover, and that there is a channel between any two of
them, so that none could be joined. Adding them to zeros gives the row back where it is above the threshold, which is
how a matrix that was moved gives its rows to what folds through it.

All of this is about comparing and about adding to zero only, so it holds of doubles as well.

## What is proved

* `apart_extractFrom`, `covers_extractFrom` — the groups of a row stand apart and cover what is above the threshold.
* `scatter_extractFrom` — adding the groups to zeros gives back what is above the threshold.
* `extractFrom_map` — the cut depends on what is above the threshold only.
* `groups_are_runs_above` — all of this together, and cutting once more gives the same groups.
-/

namespace SpectralResponse

variable {α : Type} [Scalar α]

/-! ### What the groups are -/

omit [Scalar α] in
/-- The channel is one of the group. -/
def ResponseGroup.Covers (g : ResponseGroup α) (channel : Nat) : Prop := g.first ≤ channel ∧ channel < g.last

/-- The groups are the runs of values above a threshold. -/
structure CutAbove (threshold : α) (row : List α) (groups : List (ResponseGroup α)) : Prop where
  /-- No group is without weights. -/
  nonempty : ∀ g ∈ groups, g.weights ≠ []
  /-- Each group lies inside the row. -/
  inside : ∀ g ∈ groups, g.last ≤ row.length
  /-- The groups ascend, and at least the channel behind a group is in none that follows. -/
  apart : groups.Pairwise fun g g' => g.last < g'.first
  /-- The channels of the groups are those with a value above the threshold. -/
  channels : ∀ channel, (∃ g ∈ groups, g.Covers channel) ↔ ∃ value, row[channel]? = some value ∧ threshold < value

/-! ### Putting a channel in front -/

section

omit [Scalar α]

variable {channel : Nat} {weight : α} {groups : List (ResponseGroup α)}

/-- A group in front of which a channel is put starts with it, or stays as it is. -/
theorem mem_prependChannel {g : ResponseGroup α} (hg : g ∈ prependChannel channel weight groups) :
    (g.first = channel ∧ ∃ weights, g.weights = weight :: weights) ∨ g ∈ groups := by
  cases groups with
  | nil =>
    rw [List.mem_singleton.1 hg]
    exact .inl ⟨rfl, [], rfl⟩
  | cons head groups =>
    rw [prependChannel] at hg
    split at hg
    · rcases List.mem_cons.1 hg with rfl | hg
      · exact .inl ⟨rfl, head.weights, rfl⟩
      · exact .inr (List.mem_cons_of_mem _ hg)
    · rcases List.mem_cons.1 hg with rfl | hg
      · exact .inl ⟨rfl, [], rfl⟩
      · exact .inr hg

/-- One channel more is covered. -/
theorem covers_prependChannel (j : Nat) :
    (∃ g ∈ prependChannel channel weight groups, g.Covers j) ↔ j = channel ∨ ∃ g ∈ groups, g.Covers j := by
  have hone : (⟨channel, [weight]⟩ : ResponseGroup α).Covers j ↔ j = channel := by
    simp only [ResponseGroup.Covers, ResponseGroup.last, List.length_singleton]
    omega
  cases groups with
  | nil => simp [prependChannel, hone]
  | cons head groups =>
    rw [prependChannel]
    split
    · rename_i htouch
      have hlonger : (⟨channel, weight :: head.weights⟩ : ResponseGroup α).Covers j ↔ j = channel ∨ head.Covers j := by
        simp only [ResponseGroup.Covers, ResponseGroup.last, List.length_cons]
        omega
      simp [hlonger, or_assoc]
    · simp [hone]

/-- A channel in front of groups that stand apart goes into the first one or stands apart from it. -/
theorem apart_prependChannel (h : groups.Pairwise fun g g' => g.last < g'.first)
    (hstart : ∀ g ∈ groups, channel + 1 ≤ g.first) :
    (prependChannel channel weight groups).Pairwise fun g g' => g.last < g'.first := by
  cases groups with
  | nil => exact List.pairwise_singleton _ _
  | cons head groups =>
    obtain ⟨hhead, htail⟩ := List.pairwise_cons.1 h
    rw [prependChannel]
    split
    · rename_i htouch
      refine List.pairwise_cons.2 ⟨fun g hg => ?_, htail⟩
      have hlast := hhead g hg
      simp only [ResponseGroup.last, List.length_cons] at hlast ⊢
      omega
    · rename_i hnot
      refine List.pairwise_cons.2 ⟨fun g hg => ?_, h⟩
      have hfirst := hstart head List.mem_cons_self
      simp only [ResponseGroup.last, List.length_singleton]
      rcases List.mem_cons.1 hg with rfl | hg
      · omega
      · have hlast := hhead g hg
        simp only [ResponseGroup.last] at hlast
        omega

end

/-! ### Cutting a row -/

section

variable {threshold : α} {start : Nat} {row : List α}

theorem weights_ne_nil_of_extractFrom : ∀ g ∈ extractFrom threshold start row, g.weights ≠ [] := by
  induction row generalizing start with
  | nil =>
    intro g hg
    cases hg
  | cons value row ih =>
    intro g hg
    rw [extractFrom] at hg
    split at hg
    · rcases mem_prependChannel hg with ⟨-, weights, hweights⟩ | hg
      · rw [hweights]
        exact List.cons_ne_nil _ _
      · exact ih g hg
    · exact ih g hg

theorem start_le_of_extractFrom : ∀ g ∈ extractFrom threshold start row, start ≤ g.first := by
  induction row generalizing start with
  | nil =>
    intro g hg
    cases hg
  | cons value row ih =>
    intro g hg
    rw [extractFrom] at hg
    split at hg
    · rcases mem_prependChannel hg with ⟨hfirst, -⟩ | hg
      · omega
      · have := ih g hg
        omega
    · have := ih g hg
      omega

/-- The groups of a row that starts at a channel stand apart. -/
theorem apart_extractFrom : (extractFrom threshold start row).Pairwise fun g g' => g.last < g'.first := by
  induction row generalizing start with
  | nil => exact List.Pairwise.nil
  | cons value row ih =>
    rw [extractFrom]
    split
    · exact apart_prependChannel ih start_le_of_extractFrom
    · exact ih

/-- A channel of a row that starts with a value is the first one or a channel of the rest. -/
theorem above_cons_iff {value : α} (j : Nat) :
    (start ≤ j ∧ ∃ x, (value :: row)[j - start]? = some x ∧ threshold < x) ↔
      (j = start ∧ threshold < value) ∨ (start + 1 ≤ j ∧ ∃ x, row[j - (start + 1)]? = some x ∧ threshold < x) := by
  rcases Nat.lt_trichotomy j start with hlt | rfl | hlt
  · omega
  · simp
  · have hnext : j - start = j - (start + 1) + 1 := by omega
    rw [hnext, List.getElem?_cons_succ]
    constructor
    · rintro ⟨-, habove⟩
      exact .inr ⟨hlt, habove⟩
    · rintro (⟨heq, -⟩ | ⟨-, habove⟩)
      · omega
      · exact ⟨hlt.le, habove⟩

/-- The groups cover the channels with a value above the threshold. -/
theorem covers_extractFrom (j : Nat) : (∃ g ∈ extractFrom threshold start row, g.Covers j) ↔
    start ≤ j ∧ ∃ value, row[j - start]? = some value ∧ threshold < value := by
  induction row generalizing start with
  | nil => simp [extractFrom]
  | cons value row ih =>
    rw [above_cons_iff, extractFrom]
    split
    · rename_i habove
      rw [covers_prependChannel, ih]
      simp [habove]
    · rename_i hnot
      rw [ih]
      simp [hnot]

theorem cutAbove_extractGroups (threshold : α) (row : List α) : CutAbove threshold row (extractGroups threshold row) where
  nonempty := weights_ne_nil_of_extractFrom
  inside g hg := by
    have hlast := last_le_of_extractFrom g hg
    rwa [Nat.zero_add] at hlast
  apart := apart_extractFrom
  channels channel := by
    rw [extractGroups, covers_extractFrom]
    simp

end

/-! ### Adding the groups to zeros -/

/-- What becomes of a value when the groups above a threshold are added to zeros. -/
def regained (threshold value : α) : α := if threshold < value then 0 + value else 0

/-- The first weight of a group may be added apart from the others. -/
theorem addAt_cons (first : Nat) (weight : α) (weights row : List α) :
    addAt first (weight :: weights) row = addAt (first + 1) weights (addAt first [weight] row) := by
  induction row generalizing first with
  | nil => simp [addAt]
  | cons x row ih =>
    cases first with
    | zero => cases row <;> simp [addAt]
    | succ first => simp [addAt, ih]

/-- A channel that is put in front of groups is added first. -/
theorem scatter_prependChannel (channel : Nat) (weight : α) (groups : List (ResponseGroup α)) (row : List α) :
    scatter (prependChannel channel weight groups) row = scatter groups (addAt channel [weight] row) := by
  cases groups with
  | nil => rfl
  | cons head groups =>
    rw [prependChannel]
    split
    · rename_i htouch
      simp only [scatter, List.foldl_cons]
      rw [addAt_cons, htouch]
    · rfl

/-- A weight is added behind what stands in front. -/
theorem addAt_append (weight x : α) (front row : List α) :
    addAt front.length [weight] (front ++ x :: row) = front ++ (x + weight) :: row := by
  induction front with
  | nil => cases row <;> simp [addAt]
  | cons y front ih => simp [addAt, ih]

/-- Adding the groups of a row to zeros leaves what is in front, and behind it gives back what is above the
threshold. -/
theorem scatter_extractFrom (threshold : α) (front row : List α) :
    scatter (extractFrom threshold front.length row) (front ++ List.replicate row.length 0) =
      front ++ row.map (regained threshold) := by
  induction row generalizing front with
  | nil => rfl
  | cons value row ih =>
    -- The rest is added behind what has become of the first value.
    have hrest (x : α) := ih (front ++ [x])
    simp only [List.length_append, List.length_singleton, List.append_assoc, List.singleton_append] at hrest
    rw [extractFrom, List.length_cons, List.replicate_succ, List.map_cons, regained]
    split
    · rw [scatter_prependChannel, addAt_append, hrest]
    · rw [hrest]

theorem scatter_extractGroups (threshold : α) (row : List α) :
    scatter (extractGroups threshold row) (List.replicate row.length 0) = row.map (regained threshold) :=
  scatter_extractFrom threshold [] row

/-! ### Cutting once more -/

/-- A change of values that keeps those above the threshold, and keeps the others from it, does not change the cut. -/
theorem extractFrom_map {threshold : α} {f : α → α} (habove : ∀ value, threshold < value → f value = value)
    (hbelow : ∀ value, ¬ threshold < value → ¬ threshold < f value) (start : Nat) (row : List α) :
    extractFrom threshold start (row.map f) = extractFrom threshold start row := by
  induction row generalizing start with
  | nil => rfl
  | cons value row ih =>
    rw [List.map_cons, extractFrom, extractFrom, ih]
    by_cases h : threshold < value
    · rw [habove value h]
    · rw [if_neg h, if_neg (hbelow value h)]

variable [LawfulComparisons α] [LawfulZero α] {threshold value : α}

theorem beq_regained (h : threshold < value) : (regained threshold value == value) = true := by
  rw [regained, if_pos h]
  exact LawfulZero.zero_add_beq (LawfulComparisons.isNaN_of_lt h)

/-- Above a threshold that is not negative, values are given back as they are. -/
theorem regained_eq (hthreshold : 0 ≤ threshold) (h : threshold < value) : regained threshold value = value := by
  rw [regained, if_pos h]
  exact LawfulZero.zero_add_of_pos (LawfulComparisons.lt_of_le_of_lt hthreshold h)

omit [LawfulZero α] in
theorem not_lt_regained (hthreshold : 0 ≤ threshold) (h : ¬ threshold < value) :
    ¬ threshold < regained threshold value := by
  rw [regained, if_neg h]
  exact fun hlt => LawfulComparisons.not_le_of_lt hlt hthreshold

/-- The groups that are cut out of any row at any threshold are not empty, lie inside the row, ascend with at least
one channel between any two of them, and have the channels with a value above the threshold. Added to zeros they
give back each value above the threshold, which is equal to what it was as far as numbers can be told apart, and leave
zero elsewhere. At a threshold that is not negative, cutting what they give back gives the same groups. -/
theorem groups_are_runs_above (threshold : α) (row : List α) :
    CutAbove threshold row (extractGroups threshold row) ∧
      (scatter (extractGroups threshold row) (List.replicate row.length 0)).length = row.length ∧
      (∀ (channel : Nat) (value : α), row[channel]? = some value → ∃ x,
        (scatter (extractGroups threshold row) (List.replicate row.length 0))[channel]? = some x ∧
          (threshold < value → (x == value) = true) ∧ (¬ threshold < value → x = 0)) ∧
      (0 ≤ threshold →
        extractGroups threshold (scatter (extractGroups threshold row) (List.replicate row.length 0)) =
          extractGroups threshold row) := by
  rw [scatter_extractGroups]
  refine ⟨cutAbove_extractGroups threshold row, List.length_map _, fun channel value hvalue => ?_, fun hthreshold => ?_⟩
  · refine ⟨regained threshold value, ?_, beq_regained, fun hnot => if_neg hnot⟩
    rw [List.getElem?_map, hvalue, Option.map_some]
  · exact extractFrom_map (fun _ => regained_eq hthreshold) (fun _ => not_lt_regained hthreshold) 0 row

/-- Doubles with a run in the middle, a value that is too small behind it, and a run of one channel at the end. -/
def twoRuns : List Float := [0, 0.2, 0.3, 0.01, 0, 0.5]

/-- The two runs are cut out, and cut out again of the row that they give back. -/
theorem two_runs_are_cut_again :
    extractGroups 0.05 twoRuns = [⟨1, [0.2, 0.3]⟩, ⟨5, [0.5]⟩] ∧
      extractGroups 0.05 (scatter (extractGroups 0.05 twoRuns) (List.replicate 6 0)) =
        [⟨1, [0.2, 0.3]⟩, ⟨5, [0.5]⟩] := by
  have hcut : extractGroups 0.05 twoRuns = [⟨1, [0.2, 0.3]⟩, ⟨5, [0.5]⟩] := by decide
  exact ⟨hcut, ((groups_are_runs_above 0.05 twoRuns).2.2.2 (by decide)).trans hcut⟩

end SpectralResponse
