import SpectralResponse.Grouping.LeastCount
import SpectralResponse.Proofs.Except
import Mathlib.Data.List.Nodup
import Mathlib.Data.List.Range

/-!
# Proper groupings

The groups of a mask are runs of consecutive bins, one behind the other. This is what a grouping is used
for later on; the signs of the mask do not matter any more.

## What is proved

* `proper_ofMask`, `proper_leastCount`, `proper_identity` — however a grouping is made, it is proper.
* `Proper.groups_eq_of_length` — as many groups as bins are the bins, each on its own.
-/

namespace SpectralResponse.Grouping

/-- The positions are consecutive, at least one, from `low` on and below `high`. -/
def IsRun (low high : Nat) (group : List Nat) : Prop :=
  ∃ start more, group = List.range' start (more + 1) ∧ low ≤ start ∧ start + more < high

/-- All positions of one group come before those of the other. -/
def Precedes (a b : List Nat) : Prop := ∀ i ∈ a, ∀ j ∈ b, i < j

/-- Groups are runs of fine bins, one behind the other. -/
structure Proper (g : Grouping) : Prop where
  /-- Each group is a run. -/
  runs : ∀ group ∈ g.groups, IsRun 0 g.fineLength group
  /-- Each group comes before the later ones. -/
  ascending : g.groups.Pairwise Precedes

theorem IsRun.mono {low low' high : Nat} {group : List Nat} (h : IsRun low high group) (hle : low' ≤ low) :
    IsRun low' high group := by
  obtain ⟨start, more, rfl, hlow, hhigh⟩ := h
  exact ⟨start, more, rfl, hle.trans hlow, hhigh⟩

theorem IsRun.bounds {low high : Nat} {group : List Nat} (h : IsRun low high group) :
    ∀ i ∈ group, low ≤ i ∧ i < high := by
  obtain ⟨start, more, rfl, hlow, hhigh⟩ := h
  intro i hi
  rw [List.mem_range'_1] at hi
  omega

theorem isRun_singleton {index high : Nat} (h : index < high) : IsRun index high [index] :=
  ⟨index, 0, rfl, Nat.le_refl _, h⟩

/-! ### Groups of a mask -/

/-- The runs are groups between two positions, one behind the other. -/
structure RunsWithin (low high : Nat) (runs : List (Int × List Nat)) : Prop where
  /-- Each group is a run. -/
  isRun : ∀ run ∈ runs, IsRun low high run.2
  /-- Each group comes before the later ones. -/
  ascending : (runs.map Prod.snd).Pairwise Precedes

theorem RunsWithin.prependBin {index high : Nat} {sign : Int} {runs : List (Int × List Nat)}
    (h : RunsWithin (index + 1) high runs) (hlt : index < high) :
    RunsWithin index high (prependBin index sign runs) := by
  have hrest : ∀ run ∈ runs, IsRun index high run.2 := fun run hrun =>
    (h.isRun run hrun).mono (Nat.le_succ _)
  cases runs with
  | nil =>
    refine ⟨fun run hrun => ?_, List.pairwise_singleton _ _⟩
    rw [List.mem_singleton.1 hrun]
    exact isRun_singleton hlt
  | cons first rest =>
    obtain ⟨next, run⟩ := first
    obtain ⟨hfirst, hascending⟩ := List.pairwise_cons.1 h.ascending
    rw [Grouping.prependBin]
    split
    · rename_i htouch
      obtain ⟨start, more, hrun, -, hhigh⟩ := h.isRun _ List.mem_cons_self
      dsimp only at hrun
      have hstart : start = index + 1 := by
        have hhead := htouch.2
        rw [hrun] at hhead
        simpa [List.range'_succ] using hhead
      subst hstart
      refine ⟨fun r hr => ?_, List.pairwise_cons.2 ⟨fun later hlater i hi j hj => ?_, hascending⟩⟩
      · rcases List.mem_cons.1 hr with rfl | hr
        · exact ⟨index, more + 1, congrArg (List.cons index) hrun, Nat.le_refl _, by omega⟩
        · exact hrest r (List.mem_cons_of_mem _ hr)
      · rcases List.mem_cons.1 hi with rfl | hi
        · have hnext : i + 1 ∈ run := by
            rw [hrun, List.mem_range'_1]
            omega
          exact (Nat.lt_succ_self _).trans (hfirst later hlater _ hnext j hj)
        · exact hfirst later hlater i hi j hj
    · refine ⟨fun r hr => ?_, List.pairwise_cons.2 ⟨fun later hlater i hi j hj => ?_, h.ascending⟩⟩
      · rcases List.mem_cons.1 hr with rfl | hr
        · exact isRun_singleton hlt
        · exact hrest r hr
      · obtain ⟨r, hr, rfl⟩ := List.mem_map.1 hlater
        rw [List.mem_singleton.1 hi]
        exact ((h.isRun r hr).bounds j hj).1

theorem runsWithin_runsFrom (index : Nat) (mask : List Int) :
    RunsWithin index (index + mask.length) (runsFrom index mask) := by
  induction mask generalizing index with
  | nil => exact ⟨fun run hrun => absurd hrun List.not_mem_nil, List.Pairwise.nil⟩
  | cons flag mask ih =>
    have hrest := ih (index + 1)
    rw [Nat.add_right_comm, Nat.add_assoc, ← List.length_cons (a := flag)] at hrest
    rw [runsFrom]
    split
    · exact ⟨fun run hrun => (hrest.isRun run hrun).mono (Nat.le_succ _), hrest.ascending⟩
    · exact hrest.prependBin (by simp)

variable {α : Type} {g : Grouping}

/-- A mask with a run has a grouping, which keeps its signs and its runs. -/
theorem ofMask_eq_ok {mask : List Int} : (ofMask mask : Except (Fault α) Grouping) = .ok g ↔
    runsFrom 0 mask ≠ [] ∧ g = ⟨mask.map Int.sign, (runsFrom 0 mask).map Prod.snd⟩ := by
  rw [ofMask]
  split
  · rename_i hnone
    simp [hnone]
  · rename_i hsome
    exact ⟨fun h => ⟨hsome, (Except.ok.inj h).symm⟩, fun h => congrArg _ h.2.symm⟩

/-- The grouping of a mask is proper and has a flag for each fine bin. -/
theorem proper_ofMask {mask : List Int} (h : (ofMask mask : Except (Fault α) Grouping) = .ok g) :
    g.Proper ∧ g.fineLength = mask.length := by
  have hruns := runsWithin_runsFrom 0 mask
  obtain ⟨-, rfl⟩ := ofMask_eq_ok.1 h
  refine ⟨⟨fun group hgroup => ?_, hruns.ascending⟩, List.length_map _⟩
  obtain ⟨run, hrun, rfl⟩ := List.mem_map.1 hgroup
  rw [fineLength, List.length_map, ← Nat.zero_add mask.length]
  exact hruns.isRun run hrun

/-- Grouping to a least count is writing a mask and reading it. -/
theorem leastCount_eq_ok [Scalar α] {counts : List α} {usable : List Bool} {threshold : α} :
    leastCount counts usable threshold = .ok g ↔ counts.length = usable.length ∧
      ¬((!Scalar.isFinite threshold || threshold ≤ 0) = true) ∧
        (ofMask (leastCountMask threshold .start (counts.zip usable)) : Except (Fault α) Grouping) = .ok g := by
  constructor
  · intro h
    obtain ⟨⟨⟩, hlen, h⟩ := Except.bind_eq_ok.1 h
    exact ⟨Except.requireLength_eq_ok.1 hlen, Except.guard_eq_ok.1 h⟩
  · rintro ⟨hlen, h⟩
    exact Except.bind_eq_ok.2 ⟨(), Except.requireLength_eq_ok.2 hlen, Except.guard_eq_ok.2 h⟩

theorem proper_leastCount [Scalar α] {counts : List α} {usable : List Bool} {threshold : α}
    (h : leastCount counts usable threshold = .ok g) : g.Proper :=
  (proper_ofMask (leastCount_eq_ok.1 h).2.2).1

@[simp]
theorem fineLength_identity (count : Nat) : (identity count).fineLength = count := by
  simp [identity, fineLength]

theorem proper_identity (count : Nat) : (identity count).Proper := by
  constructor
  · intro group hgroup
    obtain ⟨index, hindex, rfl⟩ := List.mem_map.1 hgroup
    rw [fineLength_identity]
    exact (isRun_singleton (List.mem_range.1 hindex)).mono (Nat.zero_le _)
  · refine List.pairwise_map.2 (List.pairwise_lt_range.imp fun {a b} hab i hi j hj => ?_)
    rw [List.mem_singleton.1 hi, List.mem_singleton.1 hj]
    exact hab

/-! ### As many groups as bins -/

/-- As many runs as there are positions are single positions. -/
theorem eq_singletons {low high : Nat} {groups : List (List Nat)} (hruns : ∀ group ∈ groups, IsRun low high group)
    (hascending : groups.Pairwise Precedes) (hlen : low + groups.length = high) :
    groups = (List.range' low groups.length).map fun index => [index] := by
  induction groups generalizing low with
  | nil => rfl
  | cons group rest ih =>
    obtain ⟨hfirst, hascending⟩ := List.pairwise_cons.1 hascending
    obtain ⟨start, more, hgroup, hlow, hhigh⟩ := hruns group List.mem_cons_self
    have hstart : start ∈ group := by
      rw [hgroup, List.mem_range'_1]
      omega
    have hlast : start + more ∈ group := by
      rw [hgroup, List.mem_range'_1]
      omega
    rw [List.length_cons] at hlen
    have hrest : rest = (List.range' (low + 1) rest.length).map fun index => [index] := by
      refine ih (fun later hlater => ?_) hascending (by omega)
      obtain ⟨start', more', hlater', hlow', hhigh'⟩ := hruns later (List.mem_cons_of_mem _ hlater)
      have hlt := hfirst later hlater start hstart start' (by
        rw [hlater', List.mem_range'_1]
        omega)
      exact ⟨start', more', hlater', by omega, hhigh'⟩
    -- the last position of the group is the lowest one, since the next group starts right behind that
    have hmore : start + more ≤ low := by
      cases rest with
      | nil =>
        rw [List.length_nil] at hlen
        omega
      | cons next rest =>
        have hnext : next = [low + 1] := (List.cons.inj hrest).1
        have := hfirst next List.mem_cons_self (start + more) hlast (low + 1) (by
          rw [hnext]
          exact List.mem_singleton_self _)
        omega
    have hsingle : group = [low] := by
      rw [hgroup, show start = low by omega, show more = 0 by omega]
      rfl
    rw [List.length_cons, List.range'_succ, List.map_cons, ← hrest, hsingle]

/-- When there are as many groups as bins, each group is one bin and none is left out. -/
theorem Proper.groups_eq_of_length (h : g.Proper) (hlen : g.length = g.fineLength) :
    g.groups = (List.range g.fineLength).map fun index => [index] := by
  have hall := eq_singletons h.runs h.ascending (by rw [Nat.zero_add]; exact hlen)
  rwa [show g.groups.length = g.fineLength from hlen, ← List.range_eq_range'] at hall

end SpectralResponse.Grouping
