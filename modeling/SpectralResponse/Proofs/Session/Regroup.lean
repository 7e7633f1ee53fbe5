import SpectralResponse.Proofs.Ascending
import SpectralResponse.Proofs.ResponseMatrix.History
import SpectralResponse.Proofs.Session.Steps
import SpectralResponse.Scalar.Double

/-!
# Regrouping a spectrum

A regrouping changes the spectrum first and then moves its matrices one after another. What becomes of
the session at each matrix is a function of the session (`syncedMatrix`): a matrix that is shared, or has
another number of channels, stays; any other goes to the working bins or is refused.

## What is proved

* `Yields.eq_move` — a stored matrix is replaced by what a move makes of it.
* `Yields.of_syncMatrix` — the operation does what the function says.
* `of_syncedMatrix` — which matrices stay as they are and which are moved.
* `Yields.of_regrouping_error` — where a failed regrouping stops: at the spectrum, with nothing changed, or
  at the first matrix that is refused, with the spectrum regrouped and the matrices before it moved.
* `regrouping_fails_cleanly_iff` — exactly when a failed regrouping leaves the session as it was.
-/

namespace SpectralResponse

variable {α : Type}

/-- Putting back the slot that is there changes nothing. -/
theorem Arena.setSlot_slot? {kind : ProductKind} {β : Type} {a : Arena kind β} {id : Handle kind}
    {slot : Slot β} (h : a.slot? id = some slot) : a.setSlot id (some slot) = a := by
  have hlt := index_lt_of_slot? h
  have hget : a.slots[id.index] = some slot := by
    rwa [slot?, List.getElem?_eq_getElem hlt, Option.join_some] at h
  rw [setSlot, ← hget, List.set_getElem_self]

namespace Session

variable {s s' : Session α} {id : SpectrumId} {r : SpectrumRecord α}

/-! ### One matrix -/

/-- Puts a matrix in the place of the one in a slot; if it has changed, the shared evaluation grid is
forgotten. -/
def withMatrix (s : Session α) (id : MatrixId) (slot : Slot (ResponseMatrix α)) (m : ResponseMatrix α)
    (changed : Bool) : Session α :=
  { s with
    matrices := s.matrices.setSlot id (some { slot with value := m })
    cache := if changed then .empty else s.cache }

section

variable {matrixId : MatrixId} {slot : Slot (ResponseMatrix α)} (hs : s.matrices.slot? matrixId = some slot)
  (m : ResponseMatrix α) (changed : Bool)

include hs

theorem slot?_withMatrix {other : MatrixId} {slot' : Slot (ResponseMatrix α)}
    (hs' : (s.withMatrix matrixId slot m changed).matrices.slot? other = some slot') :
    (other = matrixId ∧ slot'.value = m) ∨ other ≠ matrixId ∧ s.matrices.slot? other = some slot' :=
  (Arena.slot?_setSlot_cases hs hs').imp_left fun hnew => ⟨hnew.1, by rw [← hnew.2]⟩

omit m changed in
/-- Putting back the matrix that is there changes nothing. -/
theorem withMatrix_self : s.withMatrix matrixId slot slot.value false = s := by
  rw [withMatrix, Arena.setSlot_slot? hs]
  rfl

/-- The matrix has the users it had. -/
theorem sameHoldings_withMatrix : SameHoldings s (s.withMatrix matrixId slot m changed) :=
  ⟨.refl _, .put (Arena.put_eq_ok_iff.2 ⟨slot, hs, rfl⟩), rfl⟩

end

variable [Scalar α]

/-- The operation answers what the request to the stored matrix answers and stores what it leaves. -/
theorem Yields.eq_move {matrixId : MatrixId} {c : ChannelMove α} {slot : Slot (ResponseMatrix α)}
    {answer : Except (Fault α) Bool} (y : Yields (moveChannels matrixId c.target c.threshold) s answer s')
    (hs : s.matrices.slot? matrixId = some slot) :
    answer = (slot.value.move c).1 ∧ s' = s.withMatrix matrixId slot (slot.value.move c).2 false := by
  obtain ⟨_, rfl, y₁⟩ := (y.of_live_matrix hs).of_putMatrix_bind hs
  obtain ⟨hanswer, rfl⟩ := yields_lift.1 y₁
  exact ⟨hanswer, rfl⟩

/-- The channels of a live matrix are moved, or the move is refused and nothing happens. -/
theorem Yields.of_moveChannels {matrixId : MatrixId} {target : Grid α} {threshold : α}
    {slot : Slot (ResponseMatrix α)} (hs : s.matrices.slot? matrixId = some slot)
    {answer : Except (Fault α) Bool} (y : Yields (moveChannels matrixId target threshold) s answer s') :
    (∃ fault, slot.value.rebinChannels target threshold = .error fault ∧ answer = .error fault ∧ s' = s) ∨
      ∃ changed moved, slot.value.rebinChannels target threshold = .ok (changed, moved) ∧
        answer = .ok changed ∧ s' = s.withMatrix matrixId slot moved false := by
  let c : ChannelMove α := ⟨target, threshold⟩
  obtain ⟨rfl, rfl⟩ := Yields.eq_move (c := c) y hs
  cases hanswer : (slot.value.move c).1 with
  | error fault =>
    have hsame : (slot.value.move c).2 = slot.value := ResponseMatrix.move_unchanged (by simp [hanswer])
    rw [hsame, withMatrix_self hs]
    exact .inl ⟨fault, ResponseMatrix.rebinChannels_eq_error_iff (c := c) |>.2 hanswer, rfl, rfl⟩
  | ok changed =>
    exact .inr ⟨changed, _, ResponseMatrix.rebinChannels_eq_ok_iff (c := c) |>.2 (Prod.ext hanswer rfl), rfl, rfl⟩

/-- A matrix that several spectra name is not moved. For any other, the move is tried. -/
theorem Yields.of_rebinMatrix {matrixId : MatrixId} {target : Grid α} {threshold : α}
    {answer : Except (Fault α) Bool} (y : Yields (rebinMatrix matrixId target threshold) s answer s') :
    (1 < s.sharers matrixId ∧ answer = .error (.session (.sharedMatrix matrixId (s.sharers matrixId))) ∧ s' = s) ∨
      ¬1 < s.sharers matrixId ∧ Yields (moveChannels matrixId target threshold) s answer s' := by
  have y₁ := y.of_get_bind
  dsimp only at y₁
  split at y₁
  · rename_i hshared
    rcases y₁.of_bind with ⟨fault, z, rfl⟩ | ⟨_, _, z, -⟩
    · obtain ⟨hfault, rfl⟩ := yields_throw.1 z
      cases hfault
      exact .inl ⟨hshared, rfl, rfl⟩
    · cases (yields_throw.1 z).1
  · rename_i hfew
    exact .inr ⟨hfew, y₁⟩

/-- A matrix that several spectra name and that was moved has been taken back to its own channels; any other
stays as it is. -/
theorem Yields.of_sharedRestored {matrixId : MatrixId} (y : Yields (restoreShared matrixId) s (.ok ()) s') :
    ∃ slot, s.matrices.slot? matrixId = some slot ∧
      ((∃ changed moved, s' = s.withMatrix matrixId slot moved true ∧
          slot.value.rebinChannels slot.value.native.channels s.config.matrixRebinThreshold =
            .ok (changed, moved)) ∨
        s' = s ∧ (1 < s.sharers matrixId → slot.value.pristine = none)) := by
  rcases y.of_get_bind.of_matrix_bind with ⟨_, -, hfault, -⟩ | ⟨slot, hs, y₁⟩
  · cases hfault
  refine ⟨slot, hs, ?_⟩
  split at y₁
  · obtain ⟨changed, s₁, y₂, y₃⟩ := y₁.of_get_bind.of_bind_ok
    rcases y₂.of_moveChannels hs with ⟨_, -, hfault, -⟩ | ⟨_, moved, hmove, -, rfl⟩
    · cases hfault
    obtain ⟨-, rfl⟩ := yields_modify.1 y₃
    exact .inl ⟨_, moved, rfl, hmove⟩
  · rename_i hstays
    refine .inr ⟨(yields_pure.1 y₁).2, fun hshared => ?_⟩
    simpa [hshared, ResponseMatrix.isRebinned] using hstays

/-- The session after a matrix has followed the grouping of a spectrum. -/
def syncedMatrix (r : SpectrumRecord α) (s : Session α) (id : MatrixId) : Except (Fault α) (Session α) :=
  match s.matrices.slot? id with
  | none => .error (.slot (.unknown .matrix id))
  | some slot =>
    if slot.inUse ≠ r.matrixUses id then .ok s
    else if slot.value.native.channels.length ≠ r.spectrum.grouping.fineLength then .ok s
    else do
      let target ← r.spectrum.grouping.grid slot.value.native.channels
      let (changed, moved) ← slot.value.rebinChannels target s.config.matrixRebinThreshold
      return s.withMatrix id slot moved changed

/-- The matrix follows as the function says; if it is refused, nothing happens. -/
theorem Yields.of_syncMatrix {matrixId : MatrixId} {answer : Except (Fault α) Unit}
    (y : Yields (syncMatrix id r matrixId) s answer s') :
    (∃ fault, s.syncedMatrix r matrixId = .error fault ∧ answer = .error fault ∧ s' = s) ∨
      s.syncedMatrix r matrixId = .ok s' ∧ answer = .ok () := by
  unfold syncedMatrix
  rcases y.of_get_bind.of_slot_bind with ⟨fault, h, rfl, rfl⟩ | ⟨inUse, h, y₁⟩
  · have hnone : s'.matrices.slot? matrixId = none := Arena.slot?_of_inUse_error h
    rw [Arena.inUse, Arena.slot, hnone] at h
    cases h
    exact .inl ⟨_, by rw [hnone], rfl, rfl⟩
  obtain ⟨slot, hs, rfl⟩ := Arena.inUse_eq_ok_iff.1 h
  simp only [hs]
  by_cases hown : slot.inUse ≠ r.matrixUses matrixId
  · rw [if_pos hown] at y₁ ⊢
    obtain ⟨rfl, w, hw⟩ := y₁.of_noted
    exact .inr ⟨rfl, hw.symm⟩
  rw [if_neg hown] at y₁ ⊢
  have y₂ := y₁.of_live_matrix hs
  dsimp only at y₂
  by_cases hlength : slot.value.native.channels.length = r.spectrum.grouping.fineLength
  · rw [if_pos hlength] at y₂
    rw [if_neg (not_not.2 hlength)]
    rcases y₂.of_lift_bind with ⟨fault, hgrid, rfl, rfl⟩ | ⟨target, hgrid, y₃⟩
    · exact .inl ⟨fault, by rw [hgrid]; rfl, rfl, rfl⟩
    rw [hgrid]
    rcases y₃.of_get_bind.of_bind with ⟨fault, y₄, rfl⟩ | ⟨changed, s₁, y₄, y₅⟩
    · rcases y₄.of_moveChannels hs with ⟨fault', h', h'', rfl⟩ | ⟨_, _, -, h', -⟩
      · cases h''
        exact .inl ⟨fault, by simp only [bind, Except.bind, h'], rfl, rfl⟩
      · cases h'
    rcases y₄.of_moveChannels hs with ⟨_, -, h', -⟩ | ⟨changed', moved, h', h'', rfl⟩
    · cases h'
    cases h''
    simp only [bind, Except.bind, h', pure, Except.pure]
    cases changed with
    | true =>
      obtain ⟨rfl, rfl⟩ := yields_modify.1 y₅
      exact .inr ⟨rfl, rfl⟩
    | false =>
      obtain ⟨rfl, rfl⟩ := yields_pure.1 y₅
      exact .inr ⟨rfl, rfl⟩
  · rw [if_neg hlength] at y₂
    rw [if_pos hlength]
    obtain ⟨rfl, rfl⟩ := yields_pure.1 y₂
    exact .inr ⟨rfl, rfl⟩

/-- A matrix that others use, or that has another number of channels, stays as it is; any other is moved. -/
theorem of_syncedMatrix {matrixId : MatrixId} (h : s.syncedMatrix r matrixId = .ok s') :
    ∃ slot, s.matrices.slot? matrixId = some slot ∧
      ((slot.inUse ≠ r.matrixUses matrixId ∨
          slot.value.native.channels.length ≠ r.spectrum.grouping.fineLength) ∧ s' = s ∨
        slot.inUse = r.matrixUses matrixId ∧ ∃ target changed moved,
          r.spectrum.grouping.grid slot.value.native.channels = .ok target ∧
          slot.value.rebinChannels target s.config.matrixRebinThreshold = .ok (changed, moved) ∧
          s' = s.withMatrix matrixId slot moved changed) := by
  unfold syncedMatrix at h
  split at h
  · cases h
  rename_i slot hs
  refine ⟨slot, hs, ?_⟩
  split at h
  · rename_i hshared
    exact .inl ⟨.inl hshared, (Except.ok.inj h).symm⟩
  rename_i hown
  split at h
  · rename_i hlength
    exact .inl ⟨.inr hlength, (Except.ok.inj h).symm⟩
  obtain ⟨target, hgrid, h⟩ := Except.bind_eq_ok.1 h
  obtain ⟨⟨changed, moved⟩, hmove, h⟩ := Except.bind_eq_ok.1 h
  exact .inr ⟨not_not.1 hown, target, changed, moved, hgrid, hmove, (Except.ok.inj h).symm⟩

/-- What following leaves alone. -/
theorem syncedMatrix_frame {matrixId : MatrixId} (h : s.syncedMatrix r matrixId = .ok s') :
    s'.spectra = s.spectra ∧ s'.config = s.config ∧ (s'.cache = s.cache ∨ s'.cache = .empty) ∧
      ∀ other ≠ matrixId, s'.matrices.slot? other = s.matrices.slot? other := by
  obtain ⟨slot, -, ⟨-, rfl⟩ | ⟨-, _, changed, _, -, -, rfl⟩⟩ := of_syncedMatrix h
  · exact ⟨rfl, rfl, .inl rfl, fun _ _ => rfl⟩
  refine ⟨rfl, rfl, ?_, fun other hne => Arena.slot?_setSlot_of_ne hne _⟩
  cases changed
  · exact .inl rfl
  · exact .inr rfl

/-! ### Several matrices -/

/-- The matrices follow one after another up to the first that is refused. -/
theorem Yields.of_syncList {ms : List MatrixId} {answer : Except (Fault α) Unit}
    (y : Yields (ms.forM (syncMatrix id r)) s answer s') :
    (answer = .ok () ∧ ms.foldlM (syncedMatrix r) s = .ok s') ∨
      ∃ fault before refused after, answer = .error fault ∧ ms = before ++ refused :: after ∧
        before.foldlM (syncedMatrix r) s = .ok s' ∧ s'.syncedMatrix r refused = .error fault := by
  induction ms generalizing s with
  | nil =>
    obtain ⟨rfl, rfl⟩ := yields_pure.1 y
    exact .inl ⟨rfl, rfl⟩
  | cons m ms ih =>
    rcases Yields.of_bind y with ⟨fault, y₁, rfl⟩ | ⟨_, s₁, y₁, y₂⟩
    · rcases y₁.of_syncMatrix with ⟨fault', h, h', rfl⟩ | ⟨-, h'⟩
      · cases h'
        exact .inr ⟨fault, [], m, ms, rfl, rfl, rfl, h⟩
      · cases h'
    · rcases y₁.of_syncMatrix with ⟨_, -, h', -⟩ | ⟨h, -⟩
      · cases h'
      · rcases ih y₂ with ⟨rfl, hall⟩ | ⟨fault, before, refused, after, rfl, rfl, hbefore, hrefused⟩
        · exact .inl ⟨rfl, by rw [List.foldlM_cons, h]; exact hall⟩
        · refine .inr ⟨fault, m :: before, refused, after, rfl, rfl, ?_, hrefused⟩
          rw [List.foldlM_cons, h]
          exact hbefore

/-- The matrices of a spectrum have followed it, if the configuration lets them. -/
theorem Yields.of_matricesSynced (y : Yields (syncMatrices id) s (.ok ()) s') :
    (s.config.rebinMatrixWithData = true ∧ ∃ slot, s.spectra.slot? id = some slot ∧
        (matricesOf slot.value.pairs).foldlM (syncedMatrix slot.value) s = .ok s') ∨
      s.config.rebinMatrixWithData = false ∧ s' = s := by
  have y₁ := y.of_get_bind
  split at y₁
  · rename_i hflag
    rcases y₁.of_record_bind with ⟨_, -, hfault, -⟩ | ⟨slot, hs, y₂⟩
    · cases hfault
    rcases y₂.of_syncList with ⟨-, hsync⟩ | ⟨_, _, _, _, hfault, -⟩
    · exact .inl ⟨hflag, slot, hs, hsync⟩
    · cases hfault
  · rename_i hflag
    exact .inr ⟨Bool.eq_false_iff.2 hflag, (yields_pure.1 y₁).2⟩

theorem foldlM_syncedMatrix_frame {ms : List MatrixId} (h : ms.foldlM (syncedMatrix r) s = .ok s') :
    s'.spectra = s.spectra ∧ (s'.cache = s.cache ∨ s'.cache = .empty) ∧
      ∀ other ∉ ms, s'.matrices.slot? other = s.matrices.slot? other := by
  induction ms generalizing s with
  | nil =>
    cases h
    exact ⟨rfl, .inl rfl, fun _ _ => rfl⟩
  | cons m ms ih =>
    rw [List.foldlM_cons] at h
    obtain ⟨s₁, h₁, h₂⟩ := Except.bind_eq_ok.1 h
    obtain ⟨hspectra, -, hcache, hother⟩ := syncedMatrix_frame h₁
    obtain ⟨hspectra', hcache', hother'⟩ := ih h₂
    refine ⟨hspectra'.trans hspectra, ?_, fun other hnot => ?_⟩
    · rcases hcache' with hcache' | hcache'
      · rw [hcache']
        exact hcache
      · exact .inr hcache'
    · obtain ⟨hne, hnot⟩ := not_or.1 (mt List.mem_cons.2 hnot)
      rw [hother' other hnot, hother other hne]

/-- If nothing has changed in the end, nothing has changed on the way: no step undoes another. -/
theorem syncedMatrix_eq_of_foldlM {ms : List MatrixId} (hms : ms.Nodup)
    (h : ms.foldlM (syncedMatrix r) s = .ok s) : ∀ m ∈ ms, s.syncedMatrix r m = .ok s := by
  induction ms with
  | nil => exact fun m hm => absurd hm List.not_mem_nil
  | cons m ms ih =>
    obtain ⟨hm, hms⟩ := List.nodup_cons.1 hms
    rw [List.foldlM_cons] at h
    obtain ⟨s₁, h₁, h₂⟩ := Except.bind_eq_ok.1 h
    obtain ⟨-, hcache, hother⟩ := foldlM_syncedMatrix_frame h₂
    have hsame : s₁ = s := by
      have hslot := hother m hm
      obtain ⟨slot, hs, ⟨-, hstays⟩ | ⟨-, _, changed, moved, -, -, rfl⟩⟩ := of_syncedMatrix h₁
      · exact hstays
      rw [withMatrix, Arena.slot?_setSlot_self hs, hs] at hslot
      have hback : { slot with value := moved } = slot := (Option.some.inj hslot).symm
      have hnone : (if changed then EvaluationCache.empty else s.cache) = s.cache := by
        rcases hcache with hcache | hcache
        · exact hcache.symm
        · rw [hcache]
          exact ite_self _
      rw [withMatrix, hback, Arena.setSlot_slot? hs, hnone]
    rw [hsame] at h₁ h₂
    intro m' hm'
    rcases List.mem_cons.1 hm' with rfl | hm'
    · exact h₁
    · exact ih hms h₂ m' hm'

/-- If no step changes anything, all together change nothing. -/
theorem foldlM_syncedMatrix_of_forall {ms : List MatrixId} (h : ∀ m ∈ ms, s.syncedMatrix r m = .ok s) :
    ms.foldlM (syncedMatrix r) s = .ok s := by
  induction ms with
  | nil => rfl
  | cons m ms ih =>
    rw [List.foldlM_cons, h m List.mem_cons_self]
    exact ih fun m' hm' => h m' (List.mem_cons_of_mem _ hm')

/-! ### Regroupings -/

/-- The ways to group a spectrum anew. -/
inductive Regrouping (α : Type) where
  /-- By a mask. -/
  | mask (flags : List Int)
  /-- To a least count. -/
  | leastCount (threshold : α)
  /-- Not at all. -/
  | unbin

/-- What a regrouping does to a spectrum. -/
def Regrouping.change : Regrouping α → Spectrum α → Except (Fault α) (Spectrum α)
  | .mask flags, spectrum => spectrum.rebinByMask flags
  | .leastCount threshold, spectrum => spectrum.groupToCount threshold
  | .unbin, spectrum => spectrum.unbin

/-- What a regrouping does to the session. -/
def Regrouping.perform (id : SpectrumId) : Regrouping α → SessionM α Unit
  | .mask flags => rebinSpectrum id flags
  | .leastCount threshold => groupToCount id threshold
  | .unbin => Session.unbin id

theorem Regrouping.perform_eq (g : Regrouping α) (id : SpectrumId) :
    g.perform id = (do updateSpectrum id g.change; syncMatrices id) := by
  cases g <;> rfl

/-- Where a failed regrouping stops: at the spectrum, with nothing changed, or at a matrix, with the
spectrum regrouped and the matrices before that one moved. -/
theorem Yields.of_regrouping_error {g : Regrouping α} {fault : Fault α}
    (y : Yields (g.perform id) s (.error fault) s') :
    (s' = s ∧ ∀ slot, s.spectra.slot? id = some slot → g.change slot.value.spectrum = .error fault) ∨
      ∃ slot next before refused after, s.spectra.slot? id = some slot ∧
        g.change slot.value.spectrum = .ok next ∧
        matricesOf slot.value.pairs = before ++ refused :: after ∧
        before.foldlM (syncedMatrix { slot.value with spectrum := next }) (s.withSpectrum id slot next) =
          .ok s' ∧
        s'.syncedMatrix { slot.value with spectrum := next } refused = .error fault := by
  rw [g.perform_eq] at y
  rcases y.of_bind with ⟨_, y₁, h⟩ | ⟨_, s₁, y₁, y₂⟩
  · cases h
    rcases y₁.of_updateSpectrum with ⟨_, h, rfl, hrefuse⟩ | ⟨_, _, -, -, h, -⟩
    · cases h
      exact .inl ⟨rfl, hrefuse⟩
    · cases h
  rcases y₁.of_updateSpectrum with ⟨_, h, -⟩ | ⟨slot, next, hs, hnext, -, rfl⟩
  · cases h
  have y₃ := y₂.of_get_bind
  split at y₃
  · have hs' : (s.withSpectrum id slot next).spectra.slot? id =
        some { slot with value := { slot.value with spectrum := next } } := Arena.slot?_setSlot_self hs _
    have y₄ := y₃.of_live_record hs'
    rcases y₄.of_syncList with ⟨h, -⟩ | ⟨_, before, refused, after, h, hms, hbefore, hrefused⟩
    · cases h
    · cases h
      exact .inr ⟨slot, next, before, refused, after, hs, hnext, hms, hbefore, hrefused⟩
  · cases (yields_pure.1 y₃).1

/-- A failed regrouping leaves the session as it was exactly if the spectrum itself refused it, or if it
meant no change for the spectrum nor for any matrix before the first that was refused. -/
theorem regrouping_fails_cleanly_iff {g : Regrouping α} {fault : Fault α}
    (h : (run (g.perform id) s).1 = (.error fault, s')) :
    s' = s ↔
      (∀ slot, s.spectra.slot? id = some slot → g.change slot.value.spectrum = .error fault) ∨
        ∃ slot before refused after, s.spectra.slot? id = some slot ∧
          g.change slot.value.spectrum = .ok slot.value.spectrum ∧
          matricesOf slot.value.pairs = before ++ refused :: after ∧
          (∀ m ∈ before, s.syncedMatrix slot.value m = .ok s) ∧
          s.syncedMatrix slot.value refused = .error fault := by
  rcases (Yields.of_run h).of_regrouping_error with
    ⟨rfl, hrefuse⟩ | ⟨slot, next, before, refused, after, hs, hnext, hms, hbefore, hrefused⟩
  · exact ⟨fun _ => .inl hrefuse, fun _ => rfl⟩
  have hnodup : before.Nodup := by
    have : (before ++ refused :: after).Nodup := by
      rw [← hms]
      exact nodup_ascending strictlyOrders_handles _
    exact (List.nodup_append.1 this).1
  have hsame : next = slot.value.spectrum → s.withSpectrum id slot next = s := by
    rintro rfl
    rw [withSpectrum, Arena.setSlot_slot? hs]
  constructor
  · rintro rfl
    have hspectra := (foldlM_syncedMatrix_frame hbefore).1
    have hslot : s'.spectra.slot? id = some { slot with value := { slot.value with spectrum := next } } := by
      rw [hspectra]
      exact Arena.slot?_setSlot_self hs _
    have hrecord : slot = { slot with value := { slot.value with spectrum := next } } :=
      Option.some.inj (hs.symm.trans hslot)
    have heq : next = slot.value.spectrum :=
      (congrArg (fun slot : Slot (SpectrumRecord α) => slot.value.spectrum) hrecord).symm
    rw [hsame heq] at hbefore
    subst heq
    exact .inr ⟨slot, before, refused, after, hs, hnext, hms,
      syncedMatrix_eq_of_foldlM hnodup hbefore, hrefused⟩
  · rintro (hrefuse | ⟨slot', before', refused', after', hs', hnext', hms', hbefore', hrefused'⟩)
    · rw [hrefuse slot hs] at hnext
      cases hnext
    obtain rfl : slot = slot' := Option.some.inj (hs.symm.trans hs')
    obtain rfl : slot.value.spectrum = next := Except.ok.inj (hnext'.symm.trans hnext)
    rw [hsame rfl] at hbefore
    -- both lists lead up to the first matrix that is refused
    rcases List.append_eq_append_iff.1 (hms.symm.trans hms') with ⟨rest, rfl, -⟩ | ⟨rest, rfl, hrest⟩
    · have hstay := foldlM_syncedMatrix_of_forall fun m hm => hbefore' m (List.mem_append_left _ hm)
      exact Except.ok.inj (hbefore.symm.trans hstay)
    · rw [List.foldlM_append, foldlM_syncedMatrix_of_forall hbefore'] at hbefore
      cases rest with
      | nil => exact (Except.ok.inj hbefore).symm
      | cons m rest =>
        obtain rfl : refused' = m := (List.cons.inj hrest).1
        obtain ⟨s₁, h₁, h₂⟩ := Except.bind_eq_ok.1 hbefore
        obtain rfl := Except.ok.inj h₁
        rw [List.foldlM_cons, hrefused'] at h₂
        cases h₂

/-! ### A matrix that is left behind -/

namespace Stranded

/-- A spectrum with three bins. -/
def spectrum : Spectrum Float := Sample.spectrum (Sample.grid 3) [4.0, 5.0, 6.0] [2.0, 2.0, 2.0]

/-- The first of the three bins. -/
def firstBin : Grid Float := ⟨[⟨1.0, 2.0⟩]⟩

/-- A matrix that responds in the first channel only. -/
def matrix : ResponseMatrix Float :=
  .ofRedistribution ⟨.delta, firstBin, Sample.grid 3, [[⟨0, [1.0]⟩]], .plain, {}⟩

/-- The matrix is assigned to the spectrum. -/
def session : Session Float :=
  (Sample.start.replay [.addSpectrum spectrum, .takeMatrix matrix, .addArea (.identity firstBin),
    .assign ⟨0⟩ ⟨⟨1⟩, ⟨1⟩⟩]).2

/-- A mask that leaves out the first bin. -/
def regrouping : Regrouping Float := .mask [0, 1, -1]

/-- The session after the regrouping has failed. -/
def after : Session Float := (run (regrouping.perform ⟨0⟩) session).1.2

/-- The counts predicted for a density of one. -/
def predicted (s : Session Float) : List (List Float) :=
  match (run (predictedCounts [⟨0⟩] (Model.flat 1.0)) s).1.1 with
  | .ok prediction => prediction.counts
  | .error _ => []

theorem reachable_session : Reachable session :=
  ⟨_, (Run.start Sample.ofConfig_start).replay _⟩

end Stranded

/-- A regrouping that fails is not undone: no response is left in the new bins of the spectrum, the matrix
stays on the three channels, but the spectrum has the two new bins, and other counts are predicted. -/
theorem failed_regrouping_changes_predictions :
    Reachable Stranded.session ∧
      (∃ fault, (run (Stranded.regrouping.perform ⟨0⟩) Stranded.session).1 = (.error fault, Stranded.after)) ∧
      (Stranded.predicted Stranded.session == [[1.0, 0.0, 0.0]]) = true ∧
      (Stranded.predicted Stranded.after == [[0.0, 0.0]]) = true ∧
      Stranded.after ≠ Stranded.session := by
  refine ⟨Stranded.reachable_session, ?_, by decide +kernel, by decide +kernel, fun h => ?_⟩
  · have hfail : (run (Stranded.regrouping.perform ⟨0⟩) Stranded.session).1.1.isOk = false := by decide +kernel
    cases hanswer : (run (Stranded.regrouping.perform ⟨0⟩) Stranded.session).1.1 with
    | error fault => exact ⟨fault, Prod.ext hanswer (by rw [Stranded.after])⟩
    | ok answer => rw [hanswer] at hfail; cases hfail
  · have hdiffer : ¬ (Stranded.predicted Stranded.after).map List.length =
        (Stranded.predicted Stranded.session).map List.length := by decide +kernel
    exact hdiffer (by rw [h])

/-- A mask of another length is refused by the spectrum, and nothing changes. -/
theorem refused_mask_changes_nothing :
    (∃ fault, (run ((Regrouping.mask [1]).perform ⟨0⟩) Stranded.session).1.1 = .error fault) ∧
      (run ((Regrouping.mask [1]).perform ⟨0⟩) Stranded.session).1.2 = Stranded.session := by
  have hcount : (Stranded.session.spectra.slot? ⟨0⟩).map (·.value.spectrum.observedCount) = some 3 := by
    decide +kernel
  have hrefuse : ∀ slot, Stranded.session.spectra.slot? ⟨0⟩ = some slot →
      (Regrouping.mask [1]).change slot.value.spectrum = .error (.spectrum (.mask 3 1)) := by
    intro slot hs
    rw [hs, Option.map_some, Option.some.injEq] at hcount
    rw [Regrouping.change, Spectrum.rebinByMask, hcount]
    rfl
  have hfault : (match (run ((Regrouping.mask [1]).perform ⟨0⟩) Stranded.session).1.1 with
      | .error (.spectrum (.mask 3 1)) => true
      | _ => false) = true := by decide +kernel
  generalize hrun : (run ((Regrouping.mask [1]).perform ⟨0⟩) Stranded.session).1 = outcome at hfault ⊢
  obtain ⟨answer, s'⟩ := outcome
  have hanswer : answer = .error (.spectrum (.mask 3 1)) := by
    dsimp only at hfault
    split at hfault
    · rfl
    · cases hfault
  subst hanswer
  exact ⟨⟨_, rfl⟩, (regrouping_fails_cleanly_iff hrun).2 (.inl hrefuse)⟩

end Session

end SpectralResponse
