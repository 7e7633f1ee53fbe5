import SpectralResponse.Proofs.ResponseMatrix.History
import SpectralResponse.Proofs.Session.Effects

/-!
# Placed matrices

While nothing fails, a matrix that a spectrum names stands at home, on its own channels, or it follows the
grouping of that spectrum and no other spectrum names it. What it means to be at home and to follow, and what
is known of spectra and matrices besides, is a `Placing`. It owes a few facts about single spectra and single
matrices. From these follows what becomes of whole sessions, for any placing alike.

If the configuration does not let matrices follow, a matrix may be taken home, but it is never moved to other
channels, so it may be somewhere else only if it was left there before.

While an operation is under way, matrices may still be waiting for the move that brings them into place, and a
matrix may be loose: named by several spectra, wherever it stands. `PlacedBut` says which ones.

## What is proved

* `PlacedBut.renew` — exchanging pairs and products, one lemma for all ways to do so.
* `PlacedBut.move` — moving one matrix.
* `PlacedBut.syncMatrices`, `PlacedBut.restoreShared` — the moves that bring the matrices into place.
-/

namespace SpectralResponse.Session

variable {α : Type} [Scalar α]

/-- What is known of spectra and matrices, and where matrices may stand. -/
structure Placing (α : Type) [Scalar α] where
  /-- What is known of each spectrum. -/
  Good : Spectrum α → Prop
  /-- What is known of each matrix. -/
  Sound : ResponseMatrix α → Prop
  /-- The matrix stands on its own channels. -/
  AtHome : ResponseMatrix α → Prop
  /-- The matrix stands on the channels of a grouping. -/
  Follows : Grouping → ResponseMatrix α → Prop
  /-- The matrix was left where it stands. -/
  Left : MatrixId → ResponseMatrix α → Prop
  /-- What is known of the configuration. -/
  Allows : Config α → Prop
  /-- The observed bins are grouped. -/
  fineLength : ∀ spectrum, Good spectrum → spectrum.grouping.fineLength = spectrum.observedCount
  /-- A spectrum may take over a configuration. -/
  configured : ∀ config spectrum next, Good spectrum → spectrum.configure config = .ok next → Good next
  /-- It may be edited. -/
  edited : ∀ spectrum next, Good spectrum → spectrum.Edited next → Good next
  /-- It may be regrouped. -/
  regrouped : ∀ (g : Regrouping α) spectrum next, Good spectrum → g.change spectrum = .ok next → Good next
  /-- A matrix that was never moved is at home. -/
  atHome : ∀ m, m.pristine = none → AtHome m
  /-- So is one that stands in where none is assigned. -/
  ideal : ∀ spectrum m, Good spectrum → Ideal spectrum.observed.grid m → Sound m ∧ AtHome m
  /-- Once it was moved to the grid of a grouping, a matrix is at home or follows the grouping. -/
  followed : ∀ config spectrum m target changed moved, Allows config → Good spectrum → Sound m →
    spectrum.grouping.grid m.native.channels = .ok target →
    m.rebinChannels target config.matrixRebinThreshold = .ok (changed, moved) →
    Sound moved ∧ (AtHome moved ∨ Follows spectrum.grouping moved)
  /-- Once it was taken back to its own channels, it is at home. -/
  restored : ∀ m threshold changed moved, Sound m →
    m.rebinChannels m.native.channels threshold = .ok (changed, moved) → Sound moved ∧ AtHome moved

variable {P : Placing α} {s s' : Session α} {id : SpectrumId} {slot : Slot (SpectrumRecord α)} {matrixId : MatrixId}
  {mslot : Slot (ResponseMatrix α)} {loose loose' : MatrixId → Prop} {waiting waiting' : SpectrumId → MatrixId → Prop}
  {New : ResponseMatrix α → Prop}

/-! ### Sessions with matrices in place -/

/-- The matrices that spectra name are in place, but for those that are waiting to be moved by their spectrum
and for loose ones. -/
structure PlacedBut (P : Placing α) (loose : MatrixId → Prop) (waiting : SpectrumId → MatrixId → Prop)
    (s : Session α) : Prop where
  /-- The users are counted. -/
  balanced : s.Balanced
  /-- What is known of the configuration. -/
  config : P.Allows s.config
  /-- What is known of spectra. -/
  spectra : ∀ id slot, s.spectra.slot? id = some slot → P.Good slot.value.spectrum
  /-- What is known of matrices. -/
  matrices : ∀ id slot, s.matrices.slot? id = some slot → P.Sound slot.value
  /-- A matrix has as many channels of its own as the spectrum has observed bins. -/
  fits : ∀ id slot matrixId mslot, s.Names id slot matrixId mslot →
    mslot.value.native.channelCount = slot.value.spectrum.observedCount
  /-- A matrix that is not at home is named by one spectrum only, and follows it if the configuration lets it. -/
  stands : ∀ id slot matrixId mslot, s.Names id slot matrixId mslot → P.AtHome mslot.value ∨
    (loose matrixId ∨ s.OnlyNamedBy matrixId id) ∧ (s.config.rebinMatrixWithData = true →
      waiting id matrixId ∨ P.Follows slot.value.spectrum.grouping mslot.value)
  /-- If the configuration does not let it follow, it stays where it was left. -/
  rests : s.config.rebinMatrixWithData = false → ∀ matrixId mslot, s.matrices.slot? matrixId = some mslot →
    P.AtHome mslot.value ∨ P.Left matrixId mslot.value

/-- The matrices that spectra name are in place. -/
def Placed (P : Placing α) (s : Session α) : Prop := s.PlacedBut P (fun _ => False) fun _ _ => False

namespace PlacedBut

/-- Others may be waiting if all matrices that follow and are not in place are among them. -/
theorem revise (h : s.PlacedBut P loose waiting) (hl : ∀ m, loose m → loose' m)
    (hw : s.config.rebinMatrixWithData = true → ∀ id slot m mslot, s.Names id slot m mslot → waiting id m →
      waiting' id m) : s.PlacedBut P loose' waiting' := by
  refine { h with stands := fun id slot matrixId mslot hn => ?_ }
  refine (h.stands id slot matrixId mslot hn).imp_right fun ⟨honly, hfollows⟩ => ?_
  exact ⟨honly.imp_left (hl matrixId), fun hflag =>
    (hfollows hflag).imp_left (hw hflag id slot matrixId mslot hn)⟩

end PlacedBut

/-! ### Pairs and products are exchanged -/

/-- How a matrix comes to be named by a record: it was named by the same spectrum before, with the same
grouping or so that it is waiting now; it is new and fits; or it is an old one that fits and is loose and
waiting. -/
inductive Naming (loose : MatrixId → Prop) (waiting : SpectrumId → MatrixId → Prop)
    (New : ResponseMatrix α → Prop) (s : Session α) (id : SpectrumId) (r : SpectrumRecord α)
    (matrixId : MatrixId) : Prop where
  /-- It was named before. -/
  | kept {slot : Slot (SpectrumRecord α)} (hs : s.spectra.slot? id = some slot)
      (hm : matrixId ∈ slot.value.matrices)
      (hcount : slot.value.spectrum.observedCount = r.spectrum.observedCount)
      (hgrouping : slot.value.spectrum.grouping = r.spectrum.grouping ∨ waiting id matrixId)
  /-- It is new. -/
  | fresh (hindex : s.matrices.slots.length ≤ matrixId.index)
      (hfits : ∀ m, New m → m.native.channelCount = r.spectrum.observedCount)
  /-- It is loose. -/
  | joined {mslot : Slot (ResponseMatrix α)} (hs : s.matrices.slot? matrixId = some mslot)
      (hfits : mslot.value.native.channelCount = r.spectrum.observedCount)
      (hloose : loose matrixId) (hwait : waiting id matrixId)

omit [Scalar α] in
/-- The records of spectra that are left alone name what they named. -/
theorem Naming.same (hs : s.spectra.slot? id = some slot) (hm : matrixId ∈ slot.value.matrices) :
    Naming loose waiting New s id slot.value matrixId :=
  .kept hs hm rfl (.inl rfl)

/-- Matrices stay as they are, go, or are new; each record names old and new ones in one of these ways. -/
structure Renewed (P : Placing α) (loose : MatrixId → Prop) (waiting : SpectrumId → MatrixId → Prop)
    (New : ResponseMatrix α → Prop) (s s' : Session α) : Prop where
  /-- The users are counted again. -/
  balanced : s'.Balanced
  /-- The configuration stays. -/
  config : s'.config = s.config
  /-- The matrices that there are have stood there before, or are new. -/
  matrices : ∀ id slot', s'.matrices.slot? id = some slot' →
    (∃ slot, s.matrices.slot? id = some slot ∧ slot.value = slot'.value) ∨
      s.matrices.slots.length ≤ id.index ∧ New slot'.value
  /-- What is known of the spectra that there are. -/
  spectra : ∀ id slot, s'.spectra.slot? id = some slot → P.Good slot.value.spectrum
  /-- How their records come to name matrices. -/
  naming : ∀ id slot, s'.spectra.slot? id = some slot → ∀ matrixId ∈ slot.value.matrices,
    Naming loose waiting New s id slot.value matrixId

namespace PlacedBut

/-- Exchanging pairs and products, with new matrices that are at home. -/
theorem renew (h : s.PlacedBut P loose waiting) (hr : Renewed P loose' waiting' New s s')
    (hl : ∀ m, loose m → loose' m) (hw : ∀ id m, waiting id m → waiting' id m)
    (hnew : ∀ m, New m → P.Sound m ∧ P.AtHome m) : s'.PlacedBut P loose' waiting' where
  balanced := hr.balanced
  config := hr.config ▸ h.config
  spectra := hr.spectra
  matrices id slot' hs' := by
    rcases hr.matrices id slot' hs' with ⟨slot, hs, hvalue⟩ | ⟨-, hn⟩
    · rw [← hvalue]
      exact h.matrices id slot hs
    · exact (hnew _ hn).1
  fits id slot' matrixId mslot' hn := by
    have horigin := hr.matrices matrixId mslot' hn.matrix
    cases hr.naming id slot' hn.spectrum matrixId hn.named with
    | kept hs hm hcount _ =>
      obtain ⟨mslot, hms⟩ := h.balanced.exists_matrix hs hm
      rw [← Arena.value_eq_of_origin horigin hms, ← hcount]
      exact h.fits id _ matrixId mslot ⟨hs, hm, hms⟩
    | fresh hindex hfits => exact hfits _ (Arena.new_of_origin horigin hindex)
    | joined hs hfits _ _ =>
      rw [← Arena.value_eq_of_origin horigin hs]
      exact hfits
  stands id slot' matrixId mslot' hn := by
    rcases hr.matrices matrixId mslot' hn.matrix with ⟨mslot, hms, hvalue⟩ | ⟨-, hnew'⟩
    swap
    · exact .inl (hnew _ hnew').2
    have hnotnew := Arena.index_lt_of_slot? hms
    cases hr.naming id slot' hn.spectrum matrixId hn.named with
    | fresh hindex _ => exact absurd hnotnew (Nat.not_lt.2 hindex)
    | joined _ _ hloose hwait => exact .inr ⟨.inl hloose, fun _ => .inl hwait⟩
    | kept hs hm _ hgrouping =>
      refine (h.stands id _ matrixId mslot ⟨hs, hm, hms⟩).imp (fun hhome => hvalue ▸ hhome) ?_
      rintro ⟨honly, hfollows⟩
      refine ⟨?_, fun hflag => ?_⟩
      · rcases honly with hloose | honly
        · exact .inl (hl _ hloose)
        -- a second spectrum can only come to name the matrix if it is loose
        by_cases hloose : loose' matrixId
        · exact .inl hloose
        refine .inr fun other slot₁ hs₁ hm₁ => ?_
        cases hr.naming other slot₁ hs₁ matrixId hm₁ with
        | kept hs₀ hm₀ _ _ => exact honly other _ hs₀ hm₀
        | fresh hindex _ => exact absurd hnotnew (Nat.not_lt.2 hindex)
        | joined _ _ hloose' _ => exact absurd hloose' hloose
      · rw [hr.config] at hflag
        rcases hgrouping with hgrouping | hwait
        · rw [← hgrouping, ← hvalue]
          exact (hfollows hflag).imp_left (hw id matrixId)
        · exact .inl hwait
  rests hflag matrixId mslot' hs' := by
    rcases hr.matrices matrixId mslot' hs' with ⟨mslot, hs, hvalue⟩ | ⟨-, hnew'⟩
    · rw [hr.config] at hflag
      rw [← hvalue]
      exact h.rests hflag matrixId mslot hs
    · exact .inl (hnew _ hnew').2

end PlacedBut

/-! ### Matrices are moved -/

section

variable {moved : ResponseMatrix α} {changed : Bool}

namespace PlacedBut

/-- One matrix is moved; all others may be loose or waiting as before. -/
theorem move (h : s.PlacedBut P loose waiting) (hm : s.matrices.slot? matrixId = some mslot)
    (hsound : P.Sound moved) (hnative : moved.native = mslot.value.native)
    (hrests : s.config.rebinMatrixWithData = false → P.AtHome moved)
    (hstands : ∀ id slot, s.spectra.slot? id = some slot → matrixId ∈ slot.value.matrices →
      P.AtHome moved ∨ (loose' matrixId ∨ s.OnlyNamedBy matrixId id) ∧
        (s.config.rebinMatrixWithData = true →
          waiting' id matrixId ∨ P.Follows slot.value.spectrum.grouping moved))
    (hl : ∀ other ≠ matrixId, loose other → loose' other)
    (hw : ∀ id, ∀ other ≠ matrixId, waiting id other → waiting' id other) :
    (s.withMatrix matrixId mslot moved changed).PlacedBut P loose' waiting' := by
  constructor
  case balanced => exact (sameHoldings_withMatrix hm moved changed).held h.balanced
  case config => exact h.config
  case spectra => exact h.spectra
  case matrices =>
    intro other mslot' hs'
    rcases slot?_withMatrix hm moved changed hs' with ⟨-, hvalue⟩ | ⟨-, hs⟩
    · rw [hvalue]
      exact hsound
    · exact h.matrices other mslot' hs
  case fits =>
    intro id slot other mslot' hn
    rcases slot?_withMatrix hm moved changed hn.matrix with ⟨rfl, hvalue⟩ | ⟨-, hs⟩
    · rw [hvalue, hnative]
      exact h.fits id slot _ mslot ⟨hn.spectrum, hn.named, hm⟩
    · exact h.fits id slot other mslot' ⟨hn.spectrum, hn.named, hs⟩
  case stands =>
    intro id slot other mslot' hn
    rcases slot?_withMatrix hm moved changed hn.matrix with ⟨rfl, hvalue⟩ | ⟨hother, hs⟩
    · rw [hvalue]
      exact hstands id slot hn.spectrum hn.named
    · have hstood := h.stands id slot other mslot' ⟨hn.spectrum, hn.named, hs⟩
      refine hstood.imp_right fun h => ?_
      obtain ⟨honly, hfollows⟩ := h
      exact ⟨honly.imp_left (hl other hother), fun hflag => (hfollows hflag).imp_left (hw id other hother)⟩
  case rests =>
    intro hflag other mslot' hs'
    rcases slot?_withMatrix hm moved changed hs' with ⟨-, hvalue⟩ | ⟨-, hs⟩
    · rw [hvalue]
      exact .inl (hrests hflag)
    · exact h.rests hflag other mslot' hs

/-- A matrix that has followed the grouping of a spectrum is not waiting for that any more. -/
theorem syncMatrix (h : s.PlacedBut P (fun _ => False) waiting) (hflag : s.config.rebinMatrixWithData = true)
    (hs : s.spectra.slot? id = some slot) (hsync : s.syncedMatrix slot.value matrixId = .ok s') :
    s'.PlacedBut P (fun _ => False) fun other m => waiting other m ∧ (other = id → m ≠ matrixId) := by
  obtain ⟨mslot, hm, hsync⟩ := of_syncedMatrix hsync
  -- a matrix that stays where it is must have been in place
  have stays (hplace : matrixId ∈ slot.value.matrices → P.AtHome mslot.value) :
      s.PlacedBut P (fun _ => False) fun other m => waiting other m ∧ (other = id → m ≠ matrixId) := by
    refine { h with stands := fun other slot' m mslot' hn => ?_ }
    rcases h.stands other slot' m mslot' hn with hhome | ⟨honly, hfollows⟩
    · exact .inl hhome
    by_cases hthis : other = id ∧ m = matrixId
    · obtain ⟨rfl, rfl⟩ := hthis
      cases hs.symm.trans hn.spectrum
      cases hm.symm.trans hn.matrix
      exact .inl (hplace hn.named)
    · exact .inr ⟨honly, fun hflag => (hfollows hflag).imp_left fun hw =>
        ⟨hw, fun hother hmatrix => hthis ⟨hother, hmatrix⟩⟩⟩
  rcases hsync with ⟨hshared | hlength, hsame⟩ | ⟨hown, target, changed, moved, hgrid, hmove, rfl⟩
  · rw [hsame]
    refine stays fun hnamed => ?_
    have hother : ¬ s.OnlyNamedBy matrixId id := mt (inUse_eq_iff_onlyNamedBy h.balanced hs hm).2 hshared
    exact (h.stands id slot matrixId mslot ⟨hs, hnamed, hm⟩).resolve_right fun ⟨honly, _⟩ =>
      hother (honly.resolve_left False.elim)
  · rw [hsame]
    refine stays fun hnamed => absurd ?_ hlength
    rw [P.fineLength _ (h.spectra id slot hs)]
    exact h.fits id slot matrixId mslot ⟨hs, hnamed, hm⟩
  · have honly := (inUse_eq_iff_onlyNamedBy h.balanced hs hm).1 hown
    obtain ⟨hsound, hplace⟩ := P.followed _ _ _ _ _ _ h.config (h.spectra id slot hs)
      (h.matrices matrixId mslot hm) hgrid hmove
    refine h.move hm hsound (ResponseMatrix.native_of_rebinChannels hmove) (fun hoff => ?_)
      (fun other slot' hs' hm' => ?_) (fun _ _ => False.elim) fun _ _ hne hw => ⟨hw, fun _ => hne⟩
    · rw [hflag] at hoff
      cases hoff
    · obtain rfl := honly other slot' hs' hm'
      cases hs.symm.trans hs'
      exact hplace.imp_right fun hfollows => ⟨.inr honly, fun _ => .inr hfollows⟩

/-- After all of some matrices have followed a spectrum, none of them is waiting for it. -/
theorem syncList {ms : List MatrixId} (h : s.PlacedBut P (fun _ => False) waiting)
    (hflag : s.config.rebinMatrixWithData = true) (hs : s.spectra.slot? id = some slot)
    (hsync : ms.foldlM (syncedMatrix slot.value) s = .ok s') :
    s'.PlacedBut P (fun _ => False) fun other m => waiting other m ∧ (other = id → m ∉ ms) := by
  induction ms generalizing s waiting with
  | nil =>
    cases hsync
    exact h.revise (fun _ => False.elim) fun _ _ _ _ _ _ hw => ⟨hw, fun _ => List.not_mem_nil⟩
  | cons m ms ih =>
    rw [List.foldlM_cons] at hsync
    obtain ⟨s₁, h₁, h₂⟩ := Except.bind_eq_ok.1 hsync
    obtain ⟨hspectra, hconfig, -, -⟩ := syncedMatrix_frame h₁
    refine (ih (h.syncMatrix hflag hs h₁) (by rw [hconfig, hflag]) (by rw [hspectra, hs]) h₂).revise
      (fun _ => False.elim) fun _ _ _ other _ _ ⟨⟨hw, hm⟩, hms⟩ => ⟨hw, fun hid hmem => ?_⟩
    rcases List.mem_cons.1 hmem with rfl | hmem
    · exact hm hid rfl
    · exact hms hid hmem

/-- No matrix is waiting for a spectrum whose matrices have followed it. -/
theorem syncMatrices (h : s.PlacedBut P (fun _ => False) waiting) (y : Yields (syncMatrices id) s (.ok ()) s') :
    s'.PlacedBut P (fun _ => False) fun other m => waiting other m ∧ other ≠ id := by
  rcases y.of_matricesSynced with ⟨hflag, slot, hs, hsync⟩ | ⟨hflag, hsame⟩
  · refine (h.syncList hflag hs hsync).revise (fun _ => False.elim) fun _ other slot' m mslot hn hw => ?_
    refine ⟨hw.1, ?_⟩
    rintro rfl
    have hs' := hn.spectrum
    rw [(foldlM_syncedMatrix_frame hsync).1, hs] at hs'
    cases hs'
    exact hw.2 rfl ((mem_ascending strictlyOrders_handles).2 hn.named)
  · rw [hsame]
    exact h.revise (fun _ => False.elim) fun hon => absurd hon (Bool.eq_false_iff.1 hflag)

/-- A matrix that a second spectrum has come to name is taken home; none is loose then. -/
theorem restoreShared (h : s.PlacedBut P (· = matrixId) waiting) (hs : s.spectra.slot? id = some slot)
    (hnamed : matrixId ∈ slot.value.matrices) (y : Yields (restoreShared matrixId) s (.ok ()) s') :
    s'.PlacedBut P (fun _ => False) waiting := by
  obtain ⟨mslot, hm, ⟨_, moved, rfl, hmove⟩ | ⟨hsame, hnone⟩⟩ := y.of_sharedRestored
  · obtain ⟨hsound, hhome⟩ := P.restored _ _ _ _ (h.matrices matrixId mslot hm) hmove
    exact h.move hm hsound (ResponseMatrix.native_of_rebinChannels hmove) (fun _ => hhome) (fun _ _ _ _ => .inl hhome)
      (fun _ hne hl => hne hl) fun _ _ _ hw => hw
  · rw [hsame]
    refine { h with stands := fun other slot' m mslot' hn => ?_ }
    refine (h.stands other slot' m mslot' hn).elim .inl fun ⟨honly, hfollows⟩ => ?_
    rcases honly with rfl | honly
    swap
    · exact .inr ⟨.inr honly, hfollows⟩
    cases hm.symm.trans hn.matrix
    by_cases hshared : 1 < s.sharers m
    · exact .inl (P.atHome _ (hnone hshared))
    · have honly := onlyNamedBy_of_sharers hs hnamed hshared
      obtain rfl := honly other slot' hn.spectrum hn.named
      exact .inr ⟨.inr honly, hfollows⟩

end PlacedBut

end

end SpectralResponse.Session
