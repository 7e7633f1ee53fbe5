import SpectralResponse.Proofs.Except
import SpectralResponse.Proofs.InPlace
import SpectralResponse.ResponseMatrix.Rebin

/-!
# What is left of a matrix after many moves

A matrix may be asked to move its channels any number of times, to any grids, with any thresholds, and a
move may be refused. Of all that only the last move that went through is left, and it is a move of the
matrix as it was built: the copy that is kept from the first move on is never moved itself.

## What is proved

* `perform_moveChannels` — a move in place changes the matrix at its very end only, whatever it has taken out of it
  by then.
* `move_cases` — the ways in which a request may end.
* `LeftBy.move` — a request leaves a matrix that is explained by one of the requests made so far.
* `leftBy_afterMoves` — so does any list of requests.
* `OnlyMoved.energies` — the energy bins are those the matrix was built with.
-/

namespace SpectralResponse

variable {α : Type}

/-- A request to move the channels of a matrix. -/
structure ChannelMove (α : Type) where
  /-- The grid to move to. -/
  target : Grid α
  /-- Weights up to this one are left out. -/
  threshold : α
  deriving DecidableEq, Repr

namespace ResponseMatrix

/-- The matrix is another one with its channels moved, which is kept as it was built: but for the channels and
the threshold it is the same, and each row is spread over the channels, moved to the new ones by overlap and
cut at the threshold. -/
structure MovedFrom [Scalar α] (p : Redistribution α) (m : ResponseMatrix α) : Prop where
  /-- The matrix as it was built is kept. -/
  pristine : m.pristine = some p
  /-- It comes from the same place. -/
  source : m.current.source = p.source
  /-- The energy bins are the same. -/
  energies : m.current.energies = p.energies
  /-- So is what was observed. -/
  observation : m.current.observation = p.observation
  /-- It was stored in the same way, but for the threshold. -/
  layout : m.current.layout = { p.layout with threshold := m.current.layout.threshold }
  /-- Each row is the row as it was built, moved once. -/
  rows : List.Forall₂ (fun built moved => ∃ values,
      rebin m.current.channels p.channels (p.denseRow built) = .ok values ∧
        moved = extractGroups m.current.layout.threshold values) p.rows m.current.rows

variable [Scalar α] {m : ResponseMatrix α} {p : Redistribution α} {c : ChannelMove α}

/-! ### One request -/

omit [Scalar α] in
/-- The copy is gone from the matrix that goes on. -/
theorem perform_takePristine_bind {β : Type} (f : Option (Redistribution α) → MatrixEdit α β) :
    (MatrixEdit.takePristine >>= f).perform m = (f m.pristine).perform { m with pristine := none } := rfl

/-- A move in place ends at once if the matrix is there already. On the channels of the matrix as it was built the
copy, which there is then, becomes the matrix; else the copy, or if there is none the matrix itself, is kept in what
replaces it. A fault comes before anything is taken out. -/
theorem perform_moveChannels (m : ResponseMatrix α) (target : Grid α) (threshold : α) :
    (MatrixEdit.moveChannels target threshold).perform m =
      if m.current.channels.agrees target Grid.edgeTolerance then (.ok false, m)
      else if m.native.channels.agrees target Grid.edgeTolerance then (.ok true, ofRedistribution m.native)
      else
        match m.native.onChannels target threshold with
        | .ok moved => (.ok true, ⟨moved, some m.native⟩)
        | .error fault => (.error fault, m) := by
  rw [MatrixEdit.moveChannels, InPlace.perform_get_bind]
  by_cases hthere : m.current.channels.agrees target Grid.edgeTolerance
  · rw [if_pos hthere, if_pos hthere]
    rfl
  rw [if_neg hthere, if_neg hthere]
  show (get >>= _ : MatrixEdit α Bool).perform m = _
  rw [InPlace.perform_get_bind]
  by_cases hnative : m.native.channels.agrees target Grid.edgeTolerance
  · rw [if_pos hnative, if_pos hnative, perform_takePristine_bind]
    cases hpristine : m.pristine with
    | none =>
      -- Without a copy the matrix is the one that was built, and that is not there.
      rw [ResponseMatrix.native, hpristine] at hnative
      exact absurd hnative hthere
    | some p =>
      rw [ResponseMatrix.native, hpristine]
      rfl
  rw [if_neg hnative, if_neg hnative]
  show (liftM (m.native.onChannels target threshold) >>= _ : MatrixEdit α Bool).perform m = _
  rw [InPlace.perform_lift_bind]
  cases m.native.onChannels target threshold with
  | error fault => rfl
  | ok moved => rfl

/-- The answer of a move with the matrix that is left, without a word on how it is reached. -/
theorem rebinChannels_eq (m : ResponseMatrix α) (target : Grid α) (threshold : α) :
    m.rebinChannels target threshold =
      if m.current.channels.agrees target Grid.edgeTolerance then .ok (false, m)
      else if m.native.channels.agrees target Grid.edgeTolerance then .ok (true, ofRedistribution m.native)
      else do
        let moved ← m.native.onChannels target threshold
        return (true, ⟨moved, some m.native⟩) := by
  rw [rebinChannels, perform_moveChannels]
  by_cases hthere : m.current.channels.agrees target Grid.edgeTolerance
  · rw [if_pos hthere, if_pos hthere]
    rfl
  rw [if_neg hthere, if_neg hthere]
  by_cases hnative : m.native.channels.agrees target Grid.edgeTolerance
  · rw [if_pos hnative, if_pos hnative]
    rfl
  rw [if_neg hnative, if_neg hnative]
  cases m.native.onChannels target threshold <;> rfl

/-- Asks a matrix to move its channels in place: what is answered, and the matrix that is left. -/
def move (m : ResponseMatrix α) (c : ChannelMove α) : Except (Fault α) Bool × ResponseMatrix α :=
  (MatrixEdit.moveChannels c.target c.threshold).perform m

/-- A request is refused, finds the matrix there already, brings back the matrix as it was built, or moves
it from there. -/
theorem move_cases (m : ResponseMatrix α) (c : ChannelMove α) :
    (∃ fault, m.move c = (.error fault, m)) ∨ m.move c = (.ok false, m) ∨
      m.move c = (.ok true, ofRedistribution m.native) ∨
      ∃ moved, m.native.onChannels c.target c.threshold = .ok moved ∧
        m.move c = (.ok true, ⟨moved, some m.native⟩) := by
  rw [move, perform_moveChannels]
  split
  · exact .inr (.inl rfl)
  split
  · exact .inr (.inr (.inl rfl))
  cases m.native.onChannels c.target c.threshold with
  | error fault => exact .inl ⟨fault, rfl⟩
  | ok moved => exact .inr (.inr (.inr ⟨moved, rfl, rfl⟩))

theorem rebinChannels_eq_ok_iff {moved : ResponseMatrix α} {changed : Bool} :
    m.rebinChannels c.target c.threshold = .ok (changed, moved) ↔ m.move c = (.ok changed, moved) := by
  rw [rebinChannels, ← move]
  rcases m.move c with ⟨_ | _, left⟩ <;> simp [Except.map]

theorem rebinChannels_eq_error_iff {fault : Fault α} :
    m.rebinChannels c.target c.threshold = .error fault ↔ (m.move c).1 = .error fault := by
  rw [rebinChannels, ← move]
  rcases m.move c with ⟨_ | _, left⟩ <;> simp [Except.map]

/-- A request that is refused or changes nothing leaves the matrix as it was. -/
theorem move_unchanged (h : (m.move c).1 ≠ .ok true) : (m.move c).2 = m := by
  rcases m.move_cases c with ⟨fault, hmove⟩ | hmove | hmove | ⟨moved, -, hmove⟩
  · rw [hmove]
  · rw [hmove]
  · rw [hmove] at h
    exact absurd rfl h
  · rw [hmove] at h
    exact absurd rfl h

/-- A matrix that is moved to other channels keeps all the rest. -/
theorem movedFrom_of_onChannels {moved : Redistribution α} (h : p.onChannels c.target c.threshold = .ok moved) :
    MovedFrom p ⟨moved, some p⟩ ∧ moved.channels = c.target ∧ moved.layout.threshold = c.threshold := by
  obtain ⟨rows, hrows, h⟩ := Except.bind_eq_ok.1 h
  obtain ⟨-, h⟩ := Except.guard_eq_ok.1 h
  cases Except.ok.inj h
  refine ⟨⟨rfl, rfl, rfl, rfl, rfl, ?_⟩, rfl, rfl⟩
  refine (Except.mapM_eq_ok.1 hrows).imp fun built row hrow => ?_
  obtain ⟨values, hvalues, hcut⟩ := Except.bind_eq_ok.1 hrow
  exact ⟨values, Except.mapError_eq_ok.1 hvalues, (Except.ok.inj hcut).symm⟩

/-! ### Many requests -/

/-- What some requests may have left of a matrix: the matrix as it was built, or that matrix moved to the grid
of one of the requests. -/
def LeftBy (p : Redistribution α) (requests : List (ChannelMove α)) (m : ResponseMatrix α) : Prop :=
  m = ofRedistribution p ∨ m.MovedFrom p ∧
    ∃ c ∈ requests, m.current.channels = c.target ∧ m.current.layout.threshold = c.threshold

theorem LeftBy.native {requests : List (ChannelMove α)} (h : m.LeftBy p requests) : m.native = p := by
  rcases h with rfl | ⟨h, -⟩
  · rfl
  · rw [ResponseMatrix.native, h.pristine, Option.getD_some]

/-- The matrix as it was built is what every request starts from, so one more request is explained by itself
or by those before it. -/
theorem LeftBy.move {requests : List (ChannelMove α)} (h : m.LeftBy p requests) (c : ChannelMove α) :
    (m.move c).2.LeftBy p (requests ++ [c]) := by
  have hbefore : m.LeftBy p (requests ++ [c]) :=
    h.imp_right fun ⟨hmoved, d, hd, hsame⟩ => ⟨hmoved, d, List.mem_append_left _ hd, hsame⟩
  rcases m.move_cases c with ⟨fault, hmove⟩ | hmove | hmove | ⟨moved, honto, hmove⟩
  · rw [hmove]
    exact hbefore
  · rw [hmove]
    exact hbefore
  · rw [hmove, h.native]
    exact .inl rfl
  · rw [h.native] at honto hmove
    obtain ⟨hmoved, hchannels, hthreshold⟩ := movedFrom_of_onChannels honto
    rw [hmove]
    exact .inr ⟨hmoved, c, List.mem_append_right _ (List.mem_singleton_self c), hchannels, hthreshold⟩

/-- The matrix after it was asked to move any number of times. -/
def afterMoves (m : ResponseMatrix α) (requests : List (ChannelMove α)) : ResponseMatrix α :=
  requests.foldl (fun m c => (m.move c).2) m

/-- After any requests there is the matrix as it was built, or that matrix moved once. -/
theorem leftBy_afterMoves (p : Redistribution α) (requests : List (ChannelMove α)) :
    ((ofRedistribution p).afterMoves requests).LeftBy p requests := by
  have hfrom (done rest : List (ChannelMove α)) (m : ResponseMatrix α) (h : m.LeftBy p done) :
      (m.afterMoves rest).LeftBy p (done ++ rest) := by
    induction rest generalizing done m with
    | nil => rwa [List.append_nil]
    | cons c rest ih =>
      have := ih (done ++ [c]) _ (h.move c)
      rwa [List.append_assoc] at this
  exact hfrom [] requests _ (.inl rfl)

/-! ### Matrices that are only moved -/

/-- Some requests to move lead from one matrix to the other. -/
def Reaches (m m' : ResponseMatrix α) : Prop := ∃ requests, m' = m.afterMoves requests

/-- The matrix was built, and has only been moved since. -/
def OnlyMoved (m : ResponseMatrix α) : Prop := (ofRedistribution m.native).Reaches m

theorem onlyMoved_ofRedistribution (p : Redistribution α) : (ofRedistribution p).OnlyMoved := ⟨[], rfl⟩

variable {m' m'' : ResponseMatrix α}

theorem Reaches.refl (m : ResponseMatrix α) : m.Reaches m := ⟨[], rfl⟩

theorem Reaches.trans (h : m.Reaches m') (h' : m'.Reaches m'') : m.Reaches m'' := by
  obtain ⟨requests, rfl⟩ := h
  obtain ⟨requests', rfl⟩ := h'
  exact ⟨requests ++ requests', by simp only [afterMoves, List.foldl_append]⟩

theorem reaches_move (m : ResponseMatrix α) (c : ChannelMove α) : m.Reaches (m.move c).2 := ⟨[c], rfl⟩

theorem native_move (m : ResponseMatrix α) (c : ChannelMove α) : (m.move c).2.native = m.native := by
  rcases m.move_cases c with ⟨fault, hmove⟩ | hmove | hmove | ⟨moved, -, hmove⟩ <;> rw [hmove] <;> rfl

theorem native_of_rebinChannels {target : Grid α} {threshold : α} {changed : Bool} {moved : ResponseMatrix α}
    (h : m.rebinChannels target threshold = .ok (changed, moved)) : moved.native = m.native := by
  have hmove := native_move m ⟨target, threshold⟩
  rwa [(rebinChannels_eq_ok_iff (c := ⟨target, threshold⟩)).1 h] at hmove

/-- Moving does not touch the matrix as it was built. -/
theorem Reaches.native_eq (h : m.Reaches m') : m'.native = m.native := by
  obtain ⟨requests, rfl⟩ := h
  induction requests generalizing m with
  | nil => rfl
  | cons c requests ih => exact ih.trans (native_move m c)

theorem OnlyMoved.reaches (h : m.OnlyMoved) (hm : m.Reaches m') : m'.OnlyMoved := by
  rw [OnlyMoved, hm.native_eq]
  exact Reaches.trans h hm

/-- A matrix that is only moved has the energy bins it was built with. -/
theorem OnlyMoved.energies (h : m.OnlyMoved) : m.current.energies = m.native.energies := by
  obtain ⟨requests, hm⟩ := h
  have hleft := leftBy_afterMoves m.native requests
  rw [← hm] at hleft
  rcases hleft with hbuilt | ⟨hmoved, -⟩
  · exact congrArg (·.current.energies) hbuilt
  · exact hmoved.energies

end ResponseMatrix

end SpectralResponse
