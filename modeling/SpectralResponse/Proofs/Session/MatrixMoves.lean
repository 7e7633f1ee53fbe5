import SpectralResponse.Proofs.ResponseMatrix.History
import SpectralResponse.Proofs.Scalar.Rational
import SpectralResponse.Proofs.Session.Regroup

/-!
# Moves of a stored matrix

A stored matrix is replaced by what a move makes of it. A move that is refused does not get as far as that,
and one that changes nothing puts back what was there.

## What is proved

* `moves_start_from_the_built_matrix` — after any requests a matrix is as it was built, or moved once from
  there, and each request that fails or changes nothing leaves the session as it was.
-/

namespace SpectralResponse.Session

open ResponseMatrix (ofRedistribution)

variable {α : Type} {s s' : Session α} {id : MatrixId} {slot : Slot (ResponseMatrix α)}

variable [Scalar α]

/-- However often a matrix was asked to move, to whatever grids and with whatever thresholds, it is as it was
built, or each of its rows is the row as it was built, moved once. A request that is refused or changes
nothing leaves the matrix as it was, and the session it is stored in. -/
theorem moves_start_from_the_built_matrix (p : Redistribution α) (requests : List (ChannelMove α)) :
    let m := (ofRedistribution p).afterMoves requests
    (m = ofRedistribution p ∨ m.MovedFrom p) ∧
      ∀ c : ChannelMove α, ((m.move c).1 ≠ .ok true → (m.move c).2 = m) ∧
        ∀ (s s' : Session α) (id : MatrixId) (slot : Slot (ResponseMatrix α))
          (answer : Except (Fault α) Bool), s.matrices.slot? id = some slot → slot.value = m →
          Yields (moveChannels id c.target c.threshold) s answer s' →
            answer = (m.move c).1 ∧ s' = s.withMatrix id slot (m.move c).2 false ∧
              (answer ≠ .ok true → s' = s) := by
  intro m
  have hleft : m.LeftBy p requests := ResponseMatrix.leftBy_afterMoves p requests
  refine ⟨hleft.imp_right And.left, fun c => ⟨ResponseMatrix.move_unchanged, ?_⟩⟩
  intro s s' id slot answer hs hvalue y
  obtain ⟨rfl, rfl⟩ := y.eq_move hs
  rw [← hvalue]
  refine ⟨rfl, rfl, fun hanswer => ?_⟩
  rw [ResponseMatrix.move_unchanged hanswer]
  exact withMatrix_self hs

/-! ### A matrix with two channels -/

namespace Merging

/-- One energy bin. -/
def energies : Grid ℚ := ⟨[⟨1, 3⟩]⟩

/-- A matrix with two channels. -/
def built : Redistribution ℚ :=
  ⟨.file, energies, ⟨[⟨1, 2⟩, ⟨2, 3⟩]⟩, [[⟨0, [1 / 2, 1 / 4]⟩]], .plain, {}⟩

/-- The two channels become one. -/
def merge : ChannelMove ℚ := ⟨⟨[⟨1, 3⟩]⟩, 0⟩

/-- The channels go where there is no response. -/
def leave : ChannelMove ℚ := ⟨⟨[⟨5, 6⟩, ⟨6, 7⟩]⟩, 0⟩

/-- The channels are split, back as they were, merged twice and asked to go where there is no response. -/
def requests : List (ChannelMove ℚ) :=
  [⟨⟨[⟨1, 3 / 2⟩, ⟨3 / 2, 3⟩]⟩, 1 / 8⟩, ⟨built.channels, 1 / 2⟩, merge, merge, leave]

/-- A session in which the matrix is stored after the requests. -/
def stored : Session ℚ :=
  ⟨.default, .empty, ⟨[some ⟨(ofRedistribution built).afterMoves requests, 0, true⟩]⟩, .empty, .separate,
    .empty⟩

end Merging

/-- After a split, a restoration and two merges there is one merged channel, and a request that is refused
leaves it and the session. -/
theorem refused_move_keeps_merged_channel :
    ((ofRedistribution Merging.built).afterMoves Merging.requests).current.rows = [[⟨0, [3 / 4]⟩]] ∧
      ((ofRedistribution Merging.built).afterMoves Merging.requests).MovedFrom Merging.built ∧
      (run (moveChannels ⟨0⟩ Merging.leave.target Merging.leave.threshold) Merging.stored).1.2 =
        Merging.stored := by
  have hrun := moves_start_from_the_built_matrix Merging.built Merging.requests
  obtain ⟨hleft, hrequest⟩ := hrun
  refine ⟨by decide +kernel, hleft.resolve_left (by decide +kernel), ?_⟩
  have hrefused : (run (moveChannels ⟨0⟩ Merging.leave.target Merging.leave.threshold) Merging.stored).1.1.isOk =
      false := by decide +kernel
  have y : Yields (moveChannels ⟨0⟩ Merging.leave.target Merging.leave.threshold) Merging.stored
      (run (moveChannels ⟨0⟩ Merging.leave.target Merging.leave.threshold) Merging.stored).1.1
      (run (moveChannels ⟨0⟩ Merging.leave.target Merging.leave.threshold) Merging.stored).1.2 := .of_run rfl
  refine ((hrequest Merging.leave).2 Merging.stored _ ⟨0⟩ _ _ rfl rfl y).2.2 fun hok => ?_
  rw [hok] at hrefused
  cases hrefused

end SpectralResponse.Session
