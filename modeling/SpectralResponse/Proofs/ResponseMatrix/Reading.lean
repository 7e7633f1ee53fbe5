import SpectralResponse.Proofs.Grid.Canonical
import SpectralResponse.Proofs.Noted
import SpectralResponse.Proofs.ResponseMatrix.Groups

/-!
# Reading a stored matrix

A stored matrix may be turned around in three ways: its energy bins and its channels may stand in
descending order, and the numbers of its channels may run against energy. `StoredMatrix` is what a file
says, row by row in the order of the file and with every bin in keV.

## What is proved

* The channel axis has the bins of the file, turned around or not (`ChannelBounds.of_read`).
* Reading assembles the rows of the file in the order of energy, each with its complete groups
  (`of_read`).
-/

namespace SpectralResponse

variable {α : Type} [Scalar α]

/-! ### What is stored -/

/-- What a file says about a matrix, with all rows in the order of the file. -/
structure StoredMatrix (α : Type) where
  /-- The energy bins, in keV. -/
  energyBins : List (Bin α)
  /-- The energies of the channels, in keV. -/
  channelBins : List (Bin α)
  /-- The numbers of the channels. -/
  numbers? : Option (List α)
  /-- The least number of a channel, as far as it is declared. -/
  leastNumber? : Option Int
  /-- The groups of all energy bins. -/
  fields : GroupFields α
  deriving DecidableEq, Repr

/-- Looks up what a file says about a matrix. -/
def CalibrationFile.storedMatrix (file : CalibrationFile α) : Except (Fault α) (StoredMatrix α) := do
  let table ← file.extension ["SPECRESP MATRIX", "MATRIX"]
  let boundsTable ← file.extension ["EBOUNDS"]
  let lo ← table.fixedColumn "ENERG_LO"
  let hi ← table.fixedColumn "ENERG_HI"
  let unit ← table.columnUnit "ENERG_LO" .kev
  let eMin ← boundsTable.fixedColumn "E_MIN"
  let eMax ← boundsTable.fixedColumn "E_MAX"
  let channelUnit ← boundsTable.columnUnit "E_MIN" .kev
  let numbers? ← boundsTable.fixedColumn? "CHANNEL"
  let counts ← table.rowField "N_GRP"
  let starts ← table.rowField "F_CHAN"
  let spans ← table.rowField "N_CHAN"
  let some weights := table.column? "MATRIX" | throw (.matrix (.noWeightColumn file.origin))
  return {
    energyBins := unit.binsInKev lo hi
    channelBins := channelUnit.binsInKev eMin eMax
    numbers?
    leastNumber? := (table.columnKeyword? "F_CHAN" "TLMIN").bind Keyword.asInteger?
    fields := { counts, starts, spans, weights } }

/-! ### Assembling the rows -/

/-- The channel axis has the bins of the table, in the order of channel numbers or against it. If the table has
numbers, it is these that tell the order, and the axis is counted from the number of the first row in that
order. -/
theorem ChannelBounds.of_read {table : Extension α} {bounds : ChannelBounds α}
    (h : ChannelBounds.read table = .ok bounds) :
    ∃ eMin eMax unit numbers?, table.fixedColumn "E_MIN" = .ok eMin ∧ table.fixedColumn "E_MAX" = .ok eMax ∧
      table.columnUnit "E_MIN" .kev = .ok unit ∧ table.fixedColumn? "CHANNEL" = .ok numbers? ∧
      let ordered := turn bounds.rowsReversed (unit.binsInKev eMin eMax)
      bounds.renumbered = runsDown ordered ∧ bounds.grid.bins = turn bounds.renumbered ordered ∧
      ∀ numbers, numbers? = some numbers →
        numbers ≠ [] ∧ numbers.length = (unit.binsInKev eMin eMax).length ∧
          bounds.rowsReversed = numbersRunDown numbers ∧
          bounds.firstChannel = ((turn bounds.rowsReversed numbers).head?.map Scalar.roundToWord).getD 0 := by
  obtain ⟨eMin, hmin, h⟩ := Except.bind_eq_ok.1 h
  obtain ⟨eMax, hmax, h⟩ := Except.bind_eq_ok.1 h
  obtain ⟨unit, hunit, h⟩ := Except.bind_eq_ok.1 h
  obtain ⟨numbers?, hnumbers, h⟩ := Except.bind_eq_ok.1 h
  obtain ⟨⟨⟩, hlen, h⟩ := Except.bind_eq_ok.1 h
  obtain ⟨canonical, hcanonical, h⟩ := Except.bind_eq_ok.1 h
  cases Except.ok.inj h
  have hlen : eMin.length = _ := Except.requireLength_eq_ok.1 hlen
  generalize hordered : numbers?.getD ((List.range eMin.length).map Scalar.ofNat) = numbers at hcanonical hlen
  have hcanonical : canonicalize (turn (numbersRunDown numbers) eMin) (turn (numbersRunDown numbers) eMax) unit =
      .ok canonical := Except.mapError_eq_ok.1 hcanonical
  obtain ⟨hedges, hne, hreversed, hbins⟩ := bins_of_canonicalize hcanonical
  rw [length_turn, length_turn] at hedges
  rw [EdgeUnit.binsInKev_turn hedges] at hreversed hbins
  refine ⟨eMin, eMax, unit, numbers?, hmin, hmax, hunit, hnumbers, hreversed, hbins, ?_⟩
  rintro given rfl
  obtain rfl : given = numbers := hordered
  have hcount : given.length = (unit.binsInKev eMin eMax).length := by
    rw [EdgeUnit.binsInKev, List.length_map, List.length_zipWith, ← hedges, Nat.min_self, hlen]
  refine ⟨?_, hcount, rfl, rfl⟩
  rintro rfl
  obtain rfl : eMin = [] := List.eq_nil_of_length_eq_zero hlen
  exact hne rfl

omit [Scalar α] in
/-- Where a column can be read, something is read if the table has it. -/
theorem Extension.isSome_column?_of_fixedColumn? {t : Extension α} {name : String} {values? : Option (List α)}
    (h : t.fixedColumn? name = (.ok values? : Except (Fault α) _)) :
    (t.column? name).isSome = values?.isSome := by
  rw [fixedColumn?] at h
  cases hcolumn : t.column? name with
  | none =>
    rw [hcolumn] at h
    cases h
    rfl
  | some cells =>
    rw [hcolumn] at h
    cases cells with
    | fixed values =>
      cases h
      rfl
    | lists rows => cases h

namespace RawGroup

omit [Scalar α] in
/-- A group of the file among `count` channels: counted from `offset` on, and from the other end if the
numbers run against energy. -/
def along (offset : Int) (down : Bool) (count : Nat) (g : RawGroup α) : RawGroup α :=
  if down then (g.countedFrom offset).renumber count else g.countedFrom offset

/-- The groups of a row of the matrix that come from the groups of a row of the file. -/
def placedAlong (offset : Int) (down : Bool) (count : Nat) (stored : List (RawGroup α)) :
    List (ResponseGroup α) :=
  ((stored.map (along offset down count)).filter (isInside count)).map clean

end RawGroup

namespace Redistribution

/-- Each row of the file is found as far from the start of the matrix, or from its end. -/
theorem of_readOnAxes {origin : String} {table : Extension α} {energy : Canonical α}
    {bounds : ChannelBounds α} {offset : Int} {m : Redistribution α}
    (h : (readOnAxes origin table energy bounds offset).Answers (.ok m)) :
    ∃ fields, groupFields origin table energy.grid.length = .ok fields ∧ m.energies = energy.grid ∧
      m.channels = bounds.grid ∧ m.layout.channelsRenumbered = bounds.renumbered ∧
      ∀ row < energy.grid.length, ∃ stored, fields.Complete row stored ∧
        m.rows[turned energy.reversed energy.grid.length row]? =
          some (RawGroup.placedAlong offset bounds.renumbered bounds.grid.length stored) := by
  rw [readOnAxes] at h
  obtain ⟨fields, hfields, h⟩ := h.of_lift_bind
  obtain ⟨readRows, hread, h⟩ := h.of_bind
  obtain ⟨m', hm', h⟩ := h.of_warnIf_bind.of_bind
  cases Except.ok.inj (Noted.answers_pure.1 h)
  obtain ⟨henergies, hchannels, hlayout, hrows⟩ := of_ofRawRows hm'.of_inDocument
  have hread := hread.of_mapM
  have hlen : readRows.length = energy.grid.length := by
    rw [← hread.length_eq, List.length_range]
  refine ⟨fields, hfields, henergies, hchannels, congrArg MatrixLayout.channelsRenumbered hlayout,
    fun row hrow => ?_⟩
  obtain ⟨answer, hanswer, hrow'⟩ := Except.getElem?_of_forall₂ hread (List.getElem?_range hrow)
  obtain ⟨stored, hstored, hgroups⟩ := complete_of_readRow (Noted.answers_lift.1 hrow').symm
  refine ⟨stored, hstored, ?_⟩
  have hraw : (energy.arrange (readRows.map Prod.fst))[turned energy.reversed energy.grid.length row]? =
      some (stored.map (RawGroup.countedFrom offset)) := by
    have hrow : row < (readRows.map Prod.fst).length := by rwa [List.length_map, hlen]
    have hturn := getElem?_turn energy.reversed _ hrow
    rw [List.length_map, hlen] at hturn
    rw [arrange_eq_turn, hturn, List.getElem?_map, hanswer, Option.map_some, hgroups]
  rw [hrows, List.getElem?_map, RawGroup.placedAlong]
  cases hdown : bounds.renumbered with
  | false =>
    rw [if_neg (by simp), hraw]
    rfl
  | true =>
    rw [if_pos rfl, List.getElem?_map, hraw, Option.map_some, Option.map_some, List.map_map]
    rfl

theorem of_groupFields {origin : String} {table : Extension α} {rows : Nat} {fields : GroupFields α}
    (h : groupFields origin table rows = .ok fields) :
    table.rowField "N_GRP" = .ok fields.counts ∧ table.rowField "F_CHAN" = .ok fields.starts ∧
      table.rowField "N_CHAN" = .ok fields.spans ∧ table.column? "MATRIX" = some fields.weights := by
  obtain ⟨counts, hcounts, h⟩ := Except.bind_eq_ok.1 h
  obtain ⟨starts, hstarts, h⟩ := Except.bind_eq_ok.1 h
  obtain ⟨spans, hspans, h⟩ := Except.bind_eq_ok.1 h
  split at h
  · rename_i weights hweights
    obtain ⟨-, -, h⟩ := Except.bind_eq_ok.1 h
    obtain ⟨-, -, h⟩ := Except.bind_eq_ok.1 h
    obtain ⟨-, -, h⟩ := Except.bind_eq_ok.1 h
    obtain ⟨-, -, h⟩ := Except.bind_eq_ok.1 h
    cases Except.ok.inj h
    exact ⟨hcounts, hstarts, hspans, hweights⟩
  · cases h

/-- Channels that have numbers are counted from the declared least number, else from the given one. -/
theorem channelOffset_of_numbered {table boundsTable : Extension α} {numbers : List α} {first : Int}
    (h : boundsTable.fixedColumn? "CHANNEL" = .ok (some numbers)) :
    channelOffset table boundsTable first =
      ((table.columnKeyword? "F_CHAN" "TLMIN").bind Keyword.asInteger?).getD first := by
  have hcolumn : (boundsTable.column? "CHANNEL").isSome :=
    Extension.isSome_column?_of_fixedColumn? h
  rw [channelOffset]
  split
  · rename_i hleast
    rw [hleast]
    rfl
  · rename_i hleast
    rw [if_pos hcolumn, hleast]
    rfl

/-- What is read is what is stored, with rows and channels in the order of energy. -/
theorem of_read {file : CalibrationFile α} {m : Redistribution α} (h : (read file).Answers (.ok m)) :
    ∃ f down, file.storedMatrix = .ok f ∧ m.energies.bins = turn down f.energyBins ∧
      ∀ numbers, f.numbers? = some numbers →
        let against := m.layout.channelsRenumbered
        let count := f.channelBins.length
        let backwards := ChannelBounds.numbersRunDown numbers
        let first := ((turn backwards numbers).head?.map Scalar.roundToWord).getD 0
        numbers ≠ [] ∧ numbers.length = count ∧ m.channels.bins = turn against (turn backwards f.channelBins) ∧
          ∀ row < f.energyBins.length, ∃ stored, f.fields.Complete row stored ∧
            m.rows[turned down f.energyBins.length row]? =
              some (RawGroup.placedAlong (f.leastNumber?.getD first) against count stored) := by
  obtain ⟨table, boundsTable, lo, hi, unit, energy, bounds, htable, hboundsTable, hlo, hhi, hunit, henergy,
    hbounds, h⟩ := exists_readOnAxes h
  obtain ⟨fields, hfields, henergies, hchannels, hrenumbered, hrows⟩ := of_readOnAxes h
  obtain ⟨hcounts, hstarts, hspans, hweights⟩ := of_groupFields hfields
  obtain ⟨eMin, eMax, channelUnit, numbers?, hmin, hmax, hchannelUnit, hnumbers, -, hchannelBins, hordered⟩ :=
    ChannelBounds.of_read hbounds
  obtain ⟨-, -, -, hbins⟩ := bins_of_canonicalize henergy
  let f : StoredMatrix α := {
    energyBins := unit.binsInKev lo hi
    channelBins := channelUnit.binsInKev eMin eMax
    numbers?
    leastNumber? := (table.columnKeyword? "F_CHAN" "TLMIN").bind Keyword.asInteger?
    fields }
  have hf : file.storedMatrix = .ok f := by
    simp only [CalibrationFile.storedMatrix, htable, hboundsTable, hlo, hhi, hunit, hmin, hmax,
      hchannelUnit, hnumbers, hcounts, hstarts, hspans, hweights, bind, Except.bind, pure, Except.pure]
    rfl
  have hlen : energy.grid.length = f.energyBins.length := by
    rw [Grid.length, hbins, length_turn]
  refine ⟨f, energy.reversed, hf, henergies ▸ hbins, fun numbers hsome => ?_⟩
  rw [hrenumbered]
  obtain ⟨hne, hcount, hreversed, hfirst⟩ := hordered numbers hsome
  rw [hreversed] at hchannelBins hfirst
  have hoffset : channelOffset table boundsTable bounds.firstChannel =
      f.leastNumber?.getD bounds.firstChannel := by
    cases hsome
    exact channelOffset_of_numbered hnumbers
  have hchannelCount : bounds.grid.length = f.channelBins.length := by
    rw [Grid.length, hchannelBins, length_turn, length_turn]
  refine ⟨hne, hcount, hchannels ▸ hchannelBins, fun row hrow => ?_⟩
  rw [← hlen] at hrow ⊢
  rw [← hfirst, ← hoffset, ← hchannelCount]
  exact hrows row hrow

end Redistribution

end SpectralResponse
