import SpectralResponse.Proofs.ResponseMatrix.Reading
import SpectralResponse.Proofs.Scalar.Double
import SpectralResponse.Proofs.Scalar.Rational

/-!
# Weights stand where the file says

The groups of a row name channels by number, so every turn of a stored matrix moves them, and when channels
are renumbered their weights are reversed as well. Each weight of what is stored is found again: at the row
of its energy bin and at the channel whose bin is the one that the file gives to the number of that channel.

A file may write down any number, but channels are counted in 64-bit words, which are held in their range
and wrap around. A group that lies among the channels is not touched by this. One that does not is dropped,
unless the words make it seem to lie there: it strays.

## What is proved

* Channels counted up or down are counted from their least number (`CountsUp.turn`).
* One group is placed weight by weight (`placed_of_inside`).
* The matrix has each complete group of each row that lies among the channels, in the order of the
  file, with each weight at its channel, and nothing but these exactly if no group of the row strays
  (`weights_stand_where_stored`).
* A group at a number below all words strays (`group_below_all_words_is_taken_in`).
-/

namespace SpectralResponse

variable {α : Type} [Scalar α]

/-! ### Numbers of channels -/

/-- The numbers in the cells are `c`, `c + 1` and so on. -/
structure CountsUp (c : Int) (cells : List α) : Prop where
  numbers : cells.map Scalar.nearest = (List.range cells.length).map fun i : Nat => c + i
  ascends : cells.Pairwise (· < ·)

/-- The rows of the file are ordered, upwards or downwards, and its channels have the numbers from `c`
on. -/
structure StoredMatrix.Orderly (f : StoredMatrix α) (c : Int) (numbers : List α) : Prop where
  /-- The file numbers its channels. -/
  stored : f.numbers? = some numbers
  /-- The numbers follow one another, from the first row on or from the last. -/
  counts : CountsUp c numbers ∨ CountsUp c numbers.reverse
  /-- The numbers of the channels, the one behind the last of them, and how many they are, are 64-bit words. -/
  words : Scalar.IsWord c ∧ Scalar.IsWord (c + f.channelBins.length) ∧ Scalar.IsWord f.channelBins.length
  /-- No other number than `c` is declared to be the least. -/
  least : f.leastNumber? = none ∨ f.leastNumber? = some c
  /-- The energy bins run upwards or downwards. -/
  energies : Ascends f.energyBins ∨ Ascends f.energyBins.reverse
  /-- The energies of the channels run upwards or downwards. -/
  channels : Ascends f.channelBins ∨ Ascends f.channelBins.reverse

namespace CountsUp

variable {c : Int} {cells : List α}

theorem number (h : CountsUp c cells) {k : Nat} (hk : k < cells.length) :
    cells[k]?.map Scalar.nearest = some (c + k) := by
  rw [← List.getElem?_map, h.numbers, List.getElem?_map, List.getElem?_range hk]
  rfl

theorem first (h : CountsUp c cells) (hne : cells ≠ []) :
    (cells.head?.map Scalar.roundToWord).getD 0 = Scalar.saturate c := by
  have hfirst := h.number (List.length_pos_iff.2 hne)
  rw [← List.head?_eq_getElem?, Int.natCast_zero, Int.add_zero] at hfirst
  obtain ⟨cell, hcell, rfl⟩ := Option.map_eq_some_iff.1 hfirst
  rw [hcell]
  rfl

/-- Put in the order that their ends suggest, the numbers count up. -/
theorem turn [Std.Asymm ((· < ·) : α → α → Prop)] (h : CountsUp c cells ∨ CountsUp c cells.reverse) :
    CountsUp c (turn (ChannelBounds.numbersRunDown cells) cells) := by
  cases cells with
  | nil => exact h.elim id id
  | cons x rest =>
    cases hlast : rest.getLast? with
    | none =>
      rw [List.getLast?_eq_none_iff] at hlast
      subst hlast
      exact h.elim id id
    | some last =>
      have hmem : last ∈ rest := List.mem_of_getLast? hlast
      rw [ChannelBounds.numbersRunDown, hlast, Option.any_some]
      rcases h with h | h
      · have hlt : ¬ last < x := Std.Asymm.asymm _ _ (List.rel_of_pairwise_cons h.ascends hmem)
        rw [decide_eq_false hlt]
        exact h
      · have hlt : last < x := by
          have hp := h.ascends
          rw [List.reverse_cons, List.pairwise_append] at hp
          exact hp.2.2 last (List.mem_reverse.2 hmem) x (List.mem_singleton.2 rfl)
        rw [decide_eq_true hlt]
        exact h

end CountsUp

/-! ### Placing a group -/

/-- All channels that a group names are among the `count` numbers from `c` on. -/
def RawGroup.liesAmong (c : Int) (count : Nat) (g : RawGroup α) : Bool :=
  c ≤ g.first && g.first + g.weights.length ≤ c + count

/-- A group of the file has become a group of a matrix: it has as many weights, and each of them is
found, with zero in place of a bad one, at the channel with the bin of the row that has its number. -/
def StoredMatrix.Placed (f : StoredMatrix α) (numbers : List α) (m : Redistribution α)
    (stored : RawGroup α) (g : ResponseGroup α) : Prop :=
  g.weights.length = stored.weights.length ∧
    ∀ (p : Nat) weight, stored.weights[p]? = some weight → ∃ row channel,
      numbers[row]?.map Scalar.nearest = some (stored.first + p) ∧
        Sits f.channelBins m.channels.bins row channel ∧
        g.weightAt? channel = some (if RawGroup.isBadWeight weight then 0 else weight)

namespace RawGroup

variable {c : Int} {down : Bool} {count : Nat} {g : RawGroup α}

omit [Scalar α] in
/-- All numbers that come up when the group is placed among `count` channels from `c` on are 64-bit words: where it
starts and ends in the file, and where it does counted from either end of the channels. -/
structure StaysInWords (c : Int) (count : Nat) (g : RawGroup α) : Prop where
  number : Scalar.IsWord g.first
  first : Scalar.IsWord (g.first - c)
  last : Scalar.IsWord (g.first - c + g.weights.length)
  firstBack : Scalar.IsWord (count - (g.first - c + g.weights.length))
  lastBack : Scalar.IsWord (count - (g.first - c))

omit [Scalar α] in
/-- The group does not lie among the channels, but is taken to do so. -/
def Strays (c : Int) (down : Bool) (count : Nat) (g : RawGroup α) : Prop :=
  ¬ liesAmong c count g ∧ isInside count (along c down count g)

omit [Scalar α] in
theorem liesAmong_iff : liesAmong c count g = true ↔ c ≤ g.first ∧ g.first + g.weights.length ≤ c + count := by
  simp [liesAmong]

omit [Scalar α] in
/-- As long as all numbers are words, the group starts where it should. -/
theorem along_eq (h : g.StaysInWords c count) (down : Bool) : along c down count g =
    if down then ⟨count - (g.first - c + g.weights.length), g.weights.reverse⟩ else ⟨g.first - c, g.weights⟩ := by
  have hcounted : g.countedFrom c = ⟨g.first - c, g.weights⟩ := by
    rw [countedFrom, Scalar.saturate_eq_self h.number, Scalar.wrap_eq_self h.first]
  rw [along, hcounted, renumber, Scalar.wrap_eq_self h.last, Scalar.wrap_eq_self h.firstBack]

omit [Scalar α] in
/-- As long as all numbers are words, no other groups are taken to lie inside than those that lie among the channels. -/
theorem isInside_along (h : g.StaysInWords c count) (down : Bool) :
    isInside count (along c down count g) = liesAmong c count g := by
  rw [Bool.eq_iff_iff, liesAmong_iff, along_eq h]
  cases down with
  | false =>
    rw [if_neg (by simp), isInside_iff, Scalar.wrap_eq_self h.last]
    omega
  | true =>
    have hlast : count - (g.first - c + g.weights.length) + g.weights.reverse.length = count - (g.first - c) := by
      rw [List.length_reverse]
      omega
    rw [if_pos rfl, isInside_iff, hlast, Scalar.wrap_eq_self h.lastBack]
    omega

omit [Scalar α] in
theorem StaysInWords.not_strays (h : g.StaysInWords c count) : ¬ g.Strays c down count :=
  fun ⟨hout, hin⟩ => hout (isInside_along h down ▸ hin)

omit [Scalar α] in
/-- Where the channels have words for numbers, all numbers of a group that lies among them are words. -/
theorem staysInWords_of_liesAmong
    (hwords : Scalar.IsWord c ∧ Scalar.IsWord (c + count) ∧ Scalar.IsWord count) (hg : liesAmong c count g) :
    g.StaysInWords c count := by
  obtain ⟨hfirst, hlast⟩ := liesAmong_iff.1 hg
  simp only [Scalar.isWord_iff] at hwords
  constructor <;> rw [Scalar.isWord_iff] <;> omega

/-- The weight at position `p` of a group that lies among the channels belongs to its first channel plus
`p`, counted from either end. -/
theorem weightAt?_clean_along (down : Bool) {p : Nat} {weight : α} (hwords : g.StaysInWords c count)
    (hg : liesAmong c count g) (hp : g.weights[p]? = some weight) :
    (clean (along c down count g)).weightAt? (turned down count (g.first + p - c).toNat) =
      some (if isBadWeight weight then 0 else weight) := by
  obtain ⟨hfirst, hlast⟩ := liesAmong_iff.1 hg
  have hlt : p < g.weights.length := (List.getElem?_eq_some_iff.1 hp).1
  rw [ResponseGroup.weightAt?, along_eq hwords]
  cases down with
  | false =>
    simp only [clean, turned, Bool.false_eq_true, if_false]
    have hpos : (g.first + p - c).toNat - (g.first - c).toNat = p := by omega
    rw [if_pos (by omega), hpos, List.getElem?_map, hp]
    rfl
  | true =>
    simp only [clean, turned, if_true]
    have hpos : count - 1 - (g.first + p - c).toNat - (count - (g.first - c + g.weights.length)).toNat =
        g.weights.length - 1 - p := by omega
    rw [if_pos (by omega), hpos, List.getElem?_map, List.getElem?_reverse (by omega)]
    have hback : g.weights.length - 1 - (g.weights.length - 1 - p) = p := by omega
    rw [hback, hp]
    rfl

/-- Of the groups of a row of the matrix, those that come from groups among the channels, and whether there are
others. -/
theorem placedAlong_cases (stored : List (RawGroup α))
    (hamong : ∀ g : RawGroup α, liesAmong c count g → g.StaysInWords c count) :
    let placed := (stored.filter (liesAmong c count)).map fun g => clean (along c down count g)
    placed.Sublist (placedAlong c down count stored) ∧
      ((∀ g ∈ stored, ¬ g.Strays c down count) → placed = placedAlong c down count stored) ∧
      (placed.length = (placedAlong c down count stored).length → ∀ g ∈ stored, ¬ g.Strays c down count) := by
  have hplaced : placedAlong c down count stored =
      (stored.filter fun g => isInside count (along c down count g)).map fun g => clean (along c down count g) := by
    rw [placedAlong, List.filter_map, List.map_map]
    rfl
  have hsub : (stored.filter (liesAmong c count)).Sublist
      (stored.filter fun g => isInside count (along c down count g)) :=
    List.monotone_filter_right stored fun g hg => (isInside_along (hamong g hg) down).trans hg
  rw [hplaced]
  refine ⟨hsub.map _, fun hnone => ?_, fun hlen g hg hstrays => hstrays.1 ?_⟩
  · refine congrArg _ (List.filter_congr fun g hg => ?_)
    rw [Bool.eq_iff_iff]
    exact ⟨fun hlies => (isInside_along (hamong g hlies) down).trans hlies,
      fun hin => not_not.1 fun hout => hnone g hg ⟨hout, hin⟩⟩
  · rw [List.length_map, List.length_map] at hlen
    have hkept : g ∈ stored.filter fun g => isInside count (along c down count g) :=
      List.mem_filter.2 ⟨hg, hstrays.2⟩
    rw [← hsub.eq_of_length hlen] at hkept
    exact (List.mem_filter.1 hkept).2

end RawGroup

namespace StoredMatrix

variable {f : StoredMatrix α} {c : Int} {numbers : List α} {m : Redistribution α}

/-- A group that lies among the channels is placed weight by weight. -/
theorem placed_of_inside {backwards against : Bool} {g : RawGroup α}
    (hcount : numbers.length = f.channelBins.length) (hnumbers : CountsUp c (turn backwards numbers))
    (hbins : f.channelBins.Nodup) (hm : m.channels.bins = turn against (turn backwards f.channelBins))
    (hwords : g.StaysInWords c f.channelBins.length) (hg : g.liesAmong c f.channelBins.length) :
    f.Placed numbers m g (RawGroup.clean (g.along c against f.channelBins.length)) := by
  refine ⟨?_, fun p weight hp => ?_⟩
  · cases against <;> simp [RawGroup.clean, RawGroup.along, RawGroup.renumber, RawGroup.countedFrom]
  · have hlt : p < g.weights.length := (List.getElem?_eq_some_iff.1 hp).1
    have hspan := RawGroup.liesAmong_iff.1 hg
    obtain ⟨k, hk⟩ : ∃ k : Nat, g.first + p - c = k := ⟨(g.first + p - c).toNat, by omega⟩
    have hkn : k < f.channelBins.length := by omega
    refine ⟨turned backwards f.channelBins.length k, turned against f.channelBins.length k, ?_, ?_, ?_⟩
    · have hkn : k < numbers.length := by omega
      have hrow := getElem?_turn backwards numbers (turned_lt backwards hkn)
      rw [turned_turned hkn, hcount] at hrow
      rw [← hrow, hnumbers.number (by rw [length_turn]; omega), ← hk]
      congr 1
      omega
    · have hkn' : k < (turn backwards f.channelBins).length := by rwa [length_turn]
      have hrow := getElem?_turn backwards f.channelBins (turned_lt backwards hkn)
      have hchannel := getElem?_turn against _ hkn'
      rw [turned_turned hkn] at hrow
      rw [length_turn] at hchannel
      refine .of_nodup (hm ▸ nodup_turn (nodup_turn hbins)) (turned_lt backwards hkn) ?_
      rw [hm, hchannel, hrow]
    · have hweight := RawGroup.weightAt?_clean_along against hwords hg hp
      rwa [hk, Int.toNat_natCast] at hweight

end StoredMatrix

/-- What a row of the matrix has of the complete groups of a row of the file, when channels are numbered from `c` on. -/
structure StoredMatrix.RowStands (f : StoredMatrix α) (c : Int) (numbers : List α) (m : Redistribution α)
    (complete : List (RawGroup α)) (groups : List (ResponseGroup α)) : Prop where
  /-- It has the groups that lie among the channels, in the order of the file, and each weight stands at the channel
  whose energies the file gives to the number of that channel. -/
  placed : ∃ placed, placed.Sublist groups ∧
    List.Forall₂ (f.Placed numbers m) (complete.filter (RawGroup.liesAmong c f.channelBins.length)) placed
  /-- It has no others exactly if none strays. -/
  exactly_iff :
    List.Forall₂ (f.Placed numbers m) (complete.filter (RawGroup.liesAmong c f.channelBins.length)) groups ↔
      ∀ g ∈ complete, ¬ g.Strays c m.layout.channelsRenumbered f.channelBins.length
  /-- No group strays for which all numbers are 64-bit words. -/
  inWords : ∀ g ∈ complete, g.StaysInWords c f.channelBins.length →
    ¬ g.Strays c m.layout.channelsRenumbered f.channelBins.length

/-- Each row of the file is the row of the matrix with the same energy bin. The matrix has those of its
complete groups that lie among the channels, in the order of the file, and each weight stands at the
channel whose energies the file gives to the number of that channel. It has no other groups in this row exactly if
no complete group of the row strays, and a group does not stray as long as all numbers are 64-bit words. -/
theorem Redistribution.weights_stand_where_stored [Std.Asymm ((· < ·) : α → α → Prop)]
    {file : CalibrationFile α} {m : Redistribution α} (h : (read file).outcome.1 = .ok m) :
    ∃ f, file.storedMatrix = .ok f ∧ ∀ c numbers, f.Orderly c numbers → ∀ row < f.energyBins.length,
      ∃ place complete groups, Sits f.energyBins m.energies.bins row place ∧
        f.fields.Complete row complete ∧ m.rows[place]? = some groups ∧
        f.RowStands c numbers m complete groups := by
  obtain ⟨f, down, hf, henergies, hchannels⟩ := of_read (.of_outcome h)
  refine ⟨f, hf, fun c numbers ho row hrow => ?_⟩
  obtain ⟨hne, hcount, hbins, hrows⟩ := hchannels numbers ho.stored
  have hcounts := CountsUp.turn ho.counts
  have hne : turn (ChannelBounds.numbersRunDown numbers) numbers ≠ [] := by
    rwa [ne_eq, ← List.length_eq_zero_iff, length_turn, List.length_eq_zero_iff]
  have hoffset : f.leastNumber?.getD
      (((turn (ChannelBounds.numbersRunDown numbers) numbers).head?.map Scalar.roundToWord).getD 0) = c := by
    rw [hcounts.first hne, Scalar.saturate_eq_self ho.words.1]
    rcases ho.least with hl | hl <;> rw [hl] <;> rfl
  obtain ⟨complete, hcomplete, hplaced⟩ := hrows row hrow
  rw [hoffset] at hplaced
  have hamong (g : RawGroup α) (hg : g.liesAmong c f.channelBins.length) : g.StaysInWords c f.channelBins.length :=
    RawGroup.staysInWords_of_liesAmong ho.words hg
  obtain ⟨hsub, heq, hlen⟩ := RawGroup.placedAlong_cases complete hamong
  have hstand : List.Forall₂ (f.Placed numbers m) (complete.filter (RawGroup.liesAmong c f.channelBins.length))
      ((complete.filter (RawGroup.liesAmong c f.channelBins.length)).map fun g =>
        (g.along c m.layout.channelsRenumbered f.channelBins.length).clean) := by
    rw [List.forall₂_map_right_iff, List.forall₂_same]
    intro g hg
    have hg := (List.mem_filter.1 hg).2
    exact StoredMatrix.placed_of_inside hcount hcounts (nodup_of_ascends ho.channels) hbins (hamong g hg) hg
  refine ⟨_, complete, _, ?_, hcomplete, hplaced, ⟨_, hsub, hstand⟩, ⟨fun hall => ?_, fun hnone => ?_⟩,
    fun g _ hg => hg.not_strays⟩
  · rw [henergies]
    exact .of_turn down (nodup_of_ascends ho.energies) hrow
  · exact hlen ((List.length_map _).trans hall.length_eq)
  · exact heq hnone ▸ hstand

/-! ### A file with everything turned around -/

namespace Turned

/-- Three energy bins downwards. The second row names a channel that does not exist, and the third row
lacks a weight. -/
def table : Extension Float where
  name := "MATRIX"
  keywords := .ofList [("N_GRP", .integer 2)]
  columns := .ofList [
    ("ENERG_LO", .fixed [2.0, 1.0, 0.0]), ("ENERG_HI", .fixed [3.0, 2.0, 1.0]),
    ("F_CHAN", .lists [[3.0, 1.0], [2.0, 4.0], [1.0, 2.0]]),
    ("N_CHAN", .lists [[1.0, 2.0], [1.0, 1.0], [2.0, 1.0]]),
    ("MATRIX", .lists [[0.9, 0.1, -1.0], [1.0, 1.0], [0.5, 0.5]])]

/-- The numbers of three channels, from the least energy on. -/
def numbers : List Float := [3.0, 2.0, 1.0]

/-- Three channels upwards in energy, with their numbers downwards. -/
def boundsTable : Extension Float where
  name := "EBOUNDS"
  columns := .ofList [("CHANNEL", .fixed numbers),
    ("E_MIN", .fixed [0.0, 1.0, 2.0]), ("E_MAX", .fixed [1.0, 2.0, 3.0])]

/-- A file with both tables. -/
def file : CalibrationFile Float := ⟨"turned.json", [table, boundsTable]⟩

/-- The file can be read. -/
def isRead : Bool := (Redistribution.read file).outcome.1.isOk

/-- What the file says is in order. -/
def isOrderly (f : StoredMatrix Float) : Bool :=
  f.numbers? = some numbers ∧ f.leastNumber? = none ∧
    f.energyBins = [⟨2.0, 3.0⟩, ⟨1.0, 2.0⟩, ⟨0.0, 1.0⟩] ∧
    f.channelBins = [⟨0.0, 1.0⟩, ⟨1.0, 2.0⟩, ⟨2.0, 3.0⟩]

theorem orderly_of_isOrderly {f : StoredMatrix Float} (h : isOrderly f) : f.Orderly 1 numbers := by
  obtain ⟨hnumbers, hleast, henergies, hchannels⟩ := of_decide_eq_true h
  have hcounts : CountsUp 1 numbers.reverse := ⟨by decide +kernel, by decide +kernel⟩
  refine ⟨hnumbers, .inr hcounts, ?_, .inl hleast, .inr ?_, .inl ?_⟩
  · rw [hchannels]
    decide
  · rw [henergies, Ascends]
    decide +kernel
  · rw [hchannels, Ascends]
    decide +kernel

end Turned

/-- The file with everything turned around is read, and its weights stand where it says. -/
theorem Redistribution.turned_weights_stand :
    ∃ m f, (read Turned.file).outcome.1 = .ok m ∧ Turned.file.storedMatrix = .ok f ∧
      ∀ row < f.energyBins.length, ∃ place complete groups,
        Sits f.energyBins m.energies.bins row place ∧ f.fields.Complete row complete ∧
          m.rows[place]? = some groups ∧ f.RowStands 1 Turned.numbers m complete groups := by
  have hread : Turned.isRead := by decide +kernel
  have horderly : Turned.file.storedMatrix.toOption.any Turned.isOrderly := by decide +kernel
  obtain ⟨m, hm⟩ : ∃ m, (read Turned.file).outcome.1 = .ok m := by
    rw [Turned.isRead] at hread
    cases h : (read Turned.file).outcome.1 with
    | error fault => rw [h] at hread; cases hread
    | ok m => exact ⟨m, rfl⟩
  obtain ⟨f, hf, hplaced⟩ := weights_stand_where_stored hm
  rw [hf] at horderly
  exact ⟨m, f, hm, hf, hplaced 1 Turned.numbers (Turned.orderly_of_isOrderly horderly)⟩

/-! ### A number below all words -/

namespace Below

/-- Two energy bins with a group each: the first at the number of the only channel, which is the least word, and the
second at a number below all words. -/
def table : Extension ℚ where
  name := "MATRIX"
  keywords := .ofList [("N_GRP", .integer 1), ("N_CHAN", .integer 1)]
  columns := .ofList [("ENERG_LO", .fixed [1, 2]), ("ENERG_HI", .fixed [2, 3]),
    ("F_CHAN", .fixed [-9223372036854775808, -10000000000000000000]), ("MATRIX", .lists [[1], [1]])]

/-- The only channel. -/
def boundsTable : Extension ℚ where
  name := "EBOUNDS"
  columns := .ofList [("CHANNEL", .fixed [-9223372036854775808]), ("E_MIN", .fixed [1]), ("E_MAX", .fixed [2])]

/-- A file with both tables. -/
def file : CalibrationFile ℚ := ⟨"below.json", [table, boundsTable]⟩

/-- What the file says. -/
def stored : StoredMatrix ℚ where
  energyBins := [⟨1, 2⟩, ⟨2, 3⟩]
  channelBins := [⟨1, 2⟩]
  numbers? := some [-9223372036854775808]
  leastNumber? := none
  fields := ⟨.constant 1, .column (.fixed [-9223372036854775808, -10000000000000000000]), .constant 1,
    .lists [[1], [1]]⟩

/-- What is read: both groups have the channel. -/
def read : Redistribution ℚ :=
  ⟨.file, ⟨stored.energyBins⟩, ⟨stored.channelBins⟩, [[⟨0, [1]⟩], [⟨0, [1]⟩]],
    ⟨-9223372036854775808, 0, false, false, false⟩, {}⟩

theorem orderly : stored.Orderly (-9223372036854775808) [-9223372036854775808] where
  stored := rfl
  counts := .inl ⟨by decide +kernel, List.pairwise_singleton _ _⟩
  words := by decide
  least := .inl rfl
  energies := .inl (by rw [Ascends]; decide +kernel)
  channels := .inl (List.pairwise_singleton _ _)

/-- The second row has its group, which does not lie among the channels. -/
theorem complete : stored.fields.Complete 1 [⟨-10000000000000000000, [1]⟩] :=
  have hdeclares : Declares [-10000000000000000000] [(1 : ℚ)] 0 (-10000000000000000000) 1 :=
    ⟨_, _, rfl, rfl, by decide +kernel, by decide +kernel⟩
  ⟨1, by decide +kernel, .cons hdeclares (Nat.le_refl 1) .nil_of_declared⟩

end Below

/-- A file is read whose channels and energy bins are in order, but the second row of the matrix has a group where the
file has none among the channels: the number of its channel is held in the range of words, and becomes that of the
only channel. -/
theorem Redistribution.group_below_all_words_is_taken_in :
    (read Below.file).outcome.1 = .ok Below.read ∧ Below.file.storedMatrix = .ok Below.stored ∧
      Below.stored.Orderly (-9223372036854775808) [-9223372036854775808] ∧
      ¬ ∀ row < Below.stored.energyBins.length, ∃ place complete groups,
        Sits Below.stored.energyBins Below.read.energies.bins row place ∧
          Below.stored.fields.Complete row complete ∧ Below.read.rows[place]? = some groups ∧
          List.Forall₂ (Below.stored.Placed [-9223372036854775808] Below.read)
            (complete.filter (RawGroup.liesAmong (-9223372036854775808) 1)) groups := by
  refine ⟨Except.toOption_eq_some.1 (by decide +kernel), Except.toOption_eq_some.1 (by decide +kernel),
    Below.orderly, fun hall => ?_⟩
  obtain ⟨place, complete, groups, ⟨bin, hbin, hplace⟩, hcomplete, hgroups, hplaced⟩ := hall 1 (by decide)
  obtain rfl : 1 = place := (hplace 1).1 hbin
  obtain rfl : complete = [⟨-10000000000000000000, [1]⟩] := Below.complete.unique hcomplete
  obtain rfl : [⟨0, [1]⟩] = groups := Option.some.inj hgroups
  cases hplaced

end SpectralResponse
