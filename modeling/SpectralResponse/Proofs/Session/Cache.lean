import SpectralResponse.Proofs.Ascending
import SpectralResponse.Proofs.Session.Grids

/-!
# The shared evaluation grid that is kept

A shared grid is kept with the spectra and effective areas it was made for. When it is asked for again, the
effective areas have the grids they had, since otherwise it would have been forgotten. So it does not matter for
the answer whether a grid was kept.

## What is proved

* `CacheSound` — the grid that is kept is the one that would be made anew.
* `cacheSound_perform`, `Run.cacheSound` — every operation keeps this, so it holds after every run.
* `CacheSound.get_eq` — the shared grid that is taken is the one of the strategy.
-/

namespace SpectralResponse

/-! ### Keys -/

/-- A key names the effective areas of its members. -/
theorem Session.areasOf_key (members : List EvaluationMember) :
    areasOf (evaluationKey members) = areasOf members :=
  ascending_congr strictlyOrders_handles fun id => by
    simp only [List.mem_map, evaluationKey, mem_ascending strictlyOrders_members]

variable {α : Type} [Scalar α]

/-- A shared grid was kept for the key, or it is made and kept. -/
theorem EvaluationCache.of_get {key : List EvaluationMember} {strategy : EvaluationStrategy α}
    {grids : List (Grid α)} {cache cache' : EvaluationCache α} {shared : Option (Grid α)}
    (h : cache.get key strategy grids = .ok (shared, cache')) :
    (cache.entry = some (key, shared) ∧ cache' = cache) ∨
      strategy.sharedGrid grids = .ok shared ∧ cache' = ⟨some (key, shared)⟩ := by
  rw [EvaluationCache.get] at h
  split at h
  · rename_i key' kept hfound
    obtain ⟨hentry, hkey⟩ := Option.filter_eq_some_iff.1 hfound
    obtain rfl : key' = key := eq_of_beq hkey
    obtain ⟨rfl, rfl⟩ := Prod.mk.inj (Except.ok.inj h)
    exact .inl ⟨hentry, rfl⟩
  · obtain ⟨made, hmade, h⟩ := Except.bind_eq_ok.1 h
    obtain ⟨rfl, rfl⟩ := Prod.mk.inj (Except.ok.inj h)
    exact .inr ⟨hmade, rfl⟩

namespace Session

variable {s s' : Session α} {members : List EvaluationMember} {grids : List (Grid α)}

omit [Scalar α] in
/-- The effective area is there and has the grid. -/
def HasGrid (s : Session α) (id : AreaId) (grid : Grid α) : Prop :=
  ∃ slot, s.areas.slot? id = some slot ∧ slot.value.grid = grid

omit [Scalar α] in
theorem rightUnique_hasGrid (s : Session α) : Relator.RightUnique s.HasGrid := by
  rintro id grid grid' ⟨slot, hs, rfl⟩ ⟨slot', hs', rfl⟩
  rw [Option.some.inj (hs.symm.trans hs')]

omit [Scalar α] in
/-- The grids of effective areas are looked up one by one. -/
theorem answerTo_grids {areaIds : List AreaId} {grids : List (Grid α)} :
    answerTo (areaIds.mapM fun id => do return (← area id).grid) s = .ok grids ↔
      List.Forall₂ s.HasGrid areaIds grids := by
  rw [Reads.answerTo_mapM fun id => .bind (.area id) fun _ => .pure _, Except.mapM_eq_ok]
  refine iff_of_eq (congrFun (congrFun (congrArg List.Forall₂ ?_) _) _)
  funext id grid
  rw [(Reads.area id).answerTo_bind, eq_iff_iff, Except.bind_eq_ok]
  constructor
  · rintro ⟨curve, hcurve, hgrid⟩
    obtain ⟨slot, hs, rfl⟩ := answerTo_area.1 hcurve
    exact ⟨slot, hs, Except.ok.inj hgrid⟩
  · rintro ⟨slot, hs, rfl⟩
    exact ⟨slot.value, answerTo_area.2 ⟨slot, hs, rfl⟩, rfl⟩

/-- If a shared grid is kept, it is the one that the effective areas it was made for would get now. -/
structure CacheSound (s : Session α) : Prop where
  /-- Their handles have been given out. -/
  issued : ∀ key shared, s.cache.entry = some (key, shared) →
    ∀ id ∈ areasOf key, id.index < s.areas.slots.length
  /-- As long as they are there, they would get this grid. -/
  made : ∀ key shared, s.cache.entry = some (key, shared) →
    ∀ grids, List.Forall₂ s.HasGrid (areasOf key) grids → s.strategy.sharedGrid grids = .ok shared

namespace CacheSound

theorem of_empty (h : s.cache = .empty) : s.CacheSound where
  issued key shared hentry := by
    rw [h] at hentry
    cases hentry
  made key shared hentry := by
    rw [h] at hentry
    cases hentry

/-- Effective areas that are given out later do not count, and those that stay have their grids. -/
theorem stay (h : s.CacheSound) (hstay : GridsStay s s') : s'.CacheSound := by
  rcases hstay.cache with hcache | hempty
  · refine ⟨fun key shared hentry id hid => ?_, fun key shared hentry grids hgrids => ?_⟩
    · rw [hcache] at hentry
      exact Nat.lt_of_lt_of_le (h.issued key shared hentry id hid) hstay.issued
    · rw [hcache] at hentry
      rw [hstay.strategy]
      refine h.made key shared hentry grids (List.Forall₂.imp (fun id grid hid => ?_)
        ((List.forall₂_and_left _ _).2 ⟨h.issued key shared hentry, hgrids⟩))
      obtain ⟨hissued, slot', hs', rfl⟩ := hid
      exact hstay.origin id slot' hs' hissued
  · exact of_empty hempty

/-! ### Sharing a grid -/

/-- Whether a grid was kept makes no difference. -/
theorem get_eq (h : s.CacheSound) (hgrids : List.Forall₂ s.HasGrid (areasOf members) grids) :
    (s.cache.get (evaluationKey members) s.strategy grids).map Prod.fst = s.strategy.sharedGrid grids := by
  rw [EvaluationCache.get]
  split
  · rename_i key kept hfound
    obtain ⟨hentry, hkey⟩ := Option.filter_eq_some_iff.1 hfound
    obtain rfl : key = evaluationKey members := eq_of_beq hkey
    rw [h.made _ _ hentry grids (by rwa [areasOf_key])]
    rfl
  · cases s.strategy.sharedGrid grids <;> rfl

/-- The grid that is kept next is sound, if it was asked for with the grids of the effective areas. -/
theorem sharedGrid {answer : Except (Fault α) (Option (Grid α))} (h : s.CacheSound)
    (hgrids : List.Forall₂ s.HasGrid (areasOf members) grids)
    (y : Yields (sharedGrid members grids) s answer s') : s'.CacheSound := by
  rcases y.of_get_bind.of_lift_bind with ⟨_, -, -, rfl⟩ | ⟨⟨shared, cache⟩, hget, y₁⟩
  · exact h
  obtain ⟨-, rfl⟩ := yields_pure.1 y₁.of_modify_bind
  rcases EvaluationCache.of_get (Except.mapError_eq_ok.1 hget) with ⟨-, rfl⟩ | ⟨hmade, rfl⟩
  · exact h
  refine ⟨fun key _ hentry id hid => ?_, fun key _ hentry grids' hgrids' => ?_⟩
  · obtain ⟨rfl, rfl⟩ := Prod.mk.inj (Option.some.inj hentry)
    rw [areasOf_key] at hid
    obtain ⟨i, hi⟩ := List.mem_iff_getElem?.1 hid
    obtain ⟨_, -, slot, hs, -⟩ := Except.getElem?_of_forall₂ hgrids hi
    exact Arena.index_lt_of_slot? hs
  · obtain ⟨rfl, rfl⟩ := Prod.mk.inj (Option.some.inj hentry)
    rw [areasOf_key] at hgrids'
    obtain rfl : grids' = grids := List.right_unique_forall₂' (rightUnique_hasGrid s) hgrids' hgrids
    exact hmade

/-! ### Operations -/

/-- The fluxes of a model are worked out on a grid that is asked for with the grids of the effective areas. -/
theorem modelFluxes (ids : List SpectrumId) (model : Model α) :
    Keeps (Preserving CacheSound) (modelFluxes ids model) := by
  refine .bind (reads_members ids).keeps fun members => ?_
  intro s answer s' y h
  rcases y.of_bind with ⟨_, z, -⟩ | ⟨grids, s₁, z, y₁⟩
  · obtain ⟨-, rfl⟩ := (reads_grids _).of_yields z
    exact h
  obtain ⟨hgrids, rfl⟩ := (reads_grids _).of_yields z
  rcases y₁.of_bind with ⟨_, z, -⟩ | ⟨shared, s₂, z, y₂⟩
  · exact h.sharedGrid (answerTo_grids.1 hgrids.symm) z
  · refine Keeps.bind (R := Preserving CacheSound) (.lift _) (fun (_, _) => .pure _) _ _ _ y₂ ?_
    exact h.sharedGrid (answerTo_grids.1 hgrids.symm) z

/-- When the arrays of an effective area are replaced, the shared grid is forgotten. -/
theorem updateArea (id : AreaId) (update : AreaUpdate α) :
    Keeps (Preserving CacheSound) (updateArea id update) := by
  intro s answer s' y h
  rcases y.of_updateArea with ⟨-, rfl⟩ | ⟨slot, result, -, -, -, ⟨_, -, rfl⟩ | ⟨curve, report, -, rfl⟩⟩
  · exact h
  · exact h
  · exact of_empty rfl

/-- So it is when models are to be evaluated elsewhere. -/
theorem setConfig (config : Config α) : Keeps (Preserving CacheSound) (setConfig config) := by
  refine .bind (.lift _) fun _ => .bind (.modify fun _ _ => of_empty rfl) fun _ => .bind .get fun _ => ?_
  refine .forM fun id _ => Keeps.mono ?_ fun _ _ hstay h => stay h hstay
  exact .bind (GridsStay.updateSpectrum id _) fun _ => GridsStay.refreshFit id

end CacheSound

/-- Whether it succeeds or fails, an operation leaves no shared grid that would not be made anew. -/
theorem cacheSound_perform (operation : Operation α) : Keeps (Preserving CacheSound) operation.perform := by
  by_cases htells : operation.onlyTells = true
  · exact .perform_of_onlyTells CacheSound.modelFluxes operation htells
  by_cases hmoves : operation.movesGrids = true
  · cases operation with
    | setConfig config => exact .bind (CacheSound.setConfig config) fun _ => .pure _
    | updateArea id update => exact .bind (CacheSound.updateArea id update) fun _ => .pure _
    | _ => first | exact absurd rfl htells | cases hmoves
  · exact (gridsStay_perform operation (Bool.eq_false_iff.2 hmoves)).mono fun _ _ hstay h => h.stay hstay

/-- After any run, failed operations included, the shared grid that is kept is the one that would be made. -/
theorem Run.cacheSound {history : List (Event α)} (h : Run history s) : s.CacheSound := by
  refine h.invariant (fun _ _ hstart => ?_) fun operation _ _ _ hs y => cacheSound_perform operation _ _ _ y hs
  obtain ⟨-, -, -, -, hcache⟩ := eq_of_ofConfig hstart
  exact .of_empty hcache

end Session

end SpectralResponse
