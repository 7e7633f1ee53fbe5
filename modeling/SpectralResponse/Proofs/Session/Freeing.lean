import SpectralResponse.Proofs.Session.Balance

/-!
# Operations that leave spectra and matrices alone

What is done with effective areas does not concern the matrices, but that idle ones may be swept away with them;
and a matrix that is given away or let go leaves all others where they are.

## What is proved

* `OnlyFrees` — the spectra and the configuration stay, and so does each matrix that does not go. It holds of
  the operations on effective areas and of those that free matrices, also when they fail.
* `CurvesStay` — each effective area that does not go has its value. It holds of those among them that do not replace
  arrays or exposure times.
-/

namespace SpectralResponse.Session

variable {α : Type} {s s' : Session α}

/-- Matrices stay as they are or go; spectra and the configuration stay. -/
structure OnlyFrees (s s' : Session α) : Prop where
  /-- The configuration stays. -/
  config : s'.config = s.config
  /-- The spectra stay. -/
  spectra : s'.spectra = s.spectra
  /-- Handles are never taken back. -/
  issued : s.matrices.slots.length ≤ s'.matrices.slots.length
  /-- A matrix that is there has stood there before. -/
  matrices : ∀ id slot', s'.matrices.slot? id = some slot' →
    ∃ slot, s.matrices.slot? id = some slot ∧ slot.value = slot'.value

instance : Std.Refl (OnlyFrees (α := α)) := ⟨fun _ => ⟨rfl, rfl, Nat.le_refl _, fun _ slot hs => ⟨slot, hs, rfl⟩⟩⟩

instance : IsTrans (Session α) OnlyFrees := ⟨fun s s₁ s' h h' => by
  refine ⟨h'.config.trans h.config, h'.spectra.trans h.spectra, Nat.le_trans h.issued h'.issued, fun id slot' hs' => ?_⟩
  obtain ⟨slot₁, hs₁, hvalue'⟩ := h'.matrices id slot' hs'
  obtain ⟨slot, hs, hvalue⟩ := h.matrices id slot₁ hs₁
  exact ⟨slot, hs, hvalue.trans hvalue'⟩⟩

namespace OnlyFrees

/-- Effective areas and the shared evaluation grid do not concern the matrices. -/
theorem of_matrices (hconfig : s'.config = s.config) (hspectra : s'.spectra = s.spectra)
    (hmatrices : s'.matrices = s.matrices) : OnlyFrees s s' :=
  ⟨hconfig, hspectra, Nat.le_of_eq (by rw [hmatrices]), fun _ slot hs => ⟨slot, by rw [← hmatrices, hs], rfl⟩⟩

/-- Nor does it concern them if something is only told. -/
theorem of_sameContents (h : SameContents s s') : OnlyFrees s s' := by
  rw [h]
  exact of_matrices rfl rfl rfl

theorem insertArea (curve : EffectiveArea α) (retained : Bool) : Keeps OnlyFrees (insertArea curve retained) := by
  intro s answer s' y
  rw [y.of_insertArea.2]
  exact of_matrices rfl rfl rfl

theorem putArea (id : AreaId) (curve : EffectiveArea α) : Keeps OnlyFrees (putArea id curve) := by
  intro s answer s' y
  rcases y.of_putArea with ⟨_, -, -, rfl⟩ | ⟨_, -, -, rfl⟩
  · exact Std.Refl.refl _
  · exact of_matrices rfl rfl rfl

/-- Idle matrices are swept away. -/
theorem compact : Keeps OnlyFrees (compact (α := α)) := by
  intro s answer s' y
  rw [y.of_compact.2]
  refine ⟨rfl, rfl, Nat.le_of_eq Arena.slots_length_compact.symm, fun id slot hs => ?_⟩
  rw [Arena.slot?_compact, Option.filter_eq_some_iff] at hs
  exact ⟨slot, hs.1, rfl⟩

theorem deleteArea (id : AreaId) : Keeps OnlyFrees (deleteArea (α := α) id) := by
  intro s answer s' y
  rcases y.of_deleteArea with ⟨_, -, rfl⟩ | ⟨_, areas, -, -, rfl⟩
  · exact Std.Refl.refl _
  · exact of_matrices rfl rfl rfl

theorem releaseArea (id : AreaId) : Keeps OnlyFrees (releaseArea (α := α) id) := by
  intro s answer s' y
  rcases y.of_get_bind.of_slot_bind with ⟨_, -, -, rfl⟩ | ⟨areas, -, y₁⟩
  · exact Std.Refl.refl _
  · have hset : OnlyFrees s { s with areas } := of_matrices rfl rfl rfl
    exact IsTrans.trans _ _ _ hset (Keeps.bind compact (fun _ => .pure _) _ _ _ y₁.of_modify_bind)

theorem deleteMatrix (id : MatrixId) : Keeps OnlyFrees (deleteMatrix (α := α) id) := by
  intro s answer s' y
  rcases y.of_deleteMatrix with ⟨_, -, rfl⟩ | ⟨_, matrices, hremove, -, rfl⟩
  · exact Std.Refl.refl _
  · obtain ⟨slot, -, -, -, rfl⟩ := Arena.remove_eq_ok_iff.1 hremove
    refine ⟨rfl, rfl, Nat.le_of_eq (Arena.slots_length_setSlot _).symm, fun _ slot hs => ?_⟩
    exact ⟨slot, Arena.slot?_of_setSlot_none hs, rfl⟩

theorem releaseMatrix (id : MatrixId) : Keeps OnlyFrees (releaseMatrix (α := α) id) := by
  intro s answer s' y
  rcases y.of_get_bind.of_slot_bind with ⟨_, -, -, rfl⟩ | ⟨matrices, hset, y₁⟩
  · exact Std.Refl.refl _
  obtain ⟨slot, hs, rfl⟩ := Arena.setRetained_eq_ok_iff.1 hset
  have hfrees : OnlyFrees s
      { s with matrices := s.matrices.setSlot id (some { slot with retained := false }) } := by
    refine ⟨rfl, rfl, Nat.le_of_eq (Arena.slots_length_setSlot _).symm, fun other slot' hs' => ?_⟩
    rcases Arena.slot?_setSlot_cases hs hs' with ⟨rfl, rfl⟩ | ⟨-, hs'⟩
    · exact ⟨slot, hs, rfl⟩
    · exact ⟨slot', hs', rfl⟩
  exact IsTrans.trans _ _ _ hfrees (Keeps.bind compact (fun _ => .pure _) _ _ _ y₁.of_modify_bind)

variable [Scalar α]

theorem updateArea (id : AreaId) (update : AreaUpdate α) : Keeps OnlyFrees (updateArea id update) :=
  .bind .get fun _ => .bind (.area id) fun _ => .bind (.noted _) fun _ => .bind (putArea _ _) fun _ =>
    .bind (.modify fun _ => of_matrices rfl rfl rfl) fun _ => .pure _

theorem setExposure (id : AreaId) (exposure : α) : Keeps OnlyFrees (setExposure id exposure) :=
  .bind (.area id) fun _ => .bind (.lift _) fun _ => putArea _ _

end OnlyFrees

/-! ### Effective areas that stay -/

/-- What is there under an old handle of an effective area has been there with the same value. -/
structure CurvesStay (s s' : Session α) : Prop where
  /-- Handles are never taken back. -/
  issued : s.areas.slots.length ≤ s'.areas.slots.length
  /-- The values. -/
  origin : ∀ id slot', s'.areas.slot? id = some slot' → id.index < s.areas.slots.length →
    ∃ slot, s.areas.slot? id = some slot ∧ slot.value = slot'.value

instance : Std.Refl (CurvesStay (α := α)) := ⟨fun _ => ⟨Nat.le_refl _, fun _ slot hs _ => ⟨slot, hs, rfl⟩⟩⟩

instance : IsTrans (Session α) CurvesStay := ⟨fun s s₁ s' h h' => by
  refine ⟨Nat.le_trans h.issued h'.issued, fun id slot' hs' hid => ?_⟩
  obtain ⟨slot₁, hs₁, hvalue₁⟩ := h'.origin id slot' hs' (Nat.lt_of_lt_of_le hid h.issued)
  obtain ⟨slot, hs, hvalue⟩ := h.origin id slot₁ hs₁ hid
  exact ⟨slot, hs, hvalue.trans hvalue₁⟩⟩

namespace CurvesStay

theorem of_areas (h : s'.areas = s.areas) : CurvesStay s s' :=
  ⟨Nat.le_of_eq (by rw [h]), fun _ slot hs _ => ⟨slot, h ▸ hs, rfl⟩⟩

theorem of_inherits {N : EffectiveArea α → Prop} (h : s.areas.Inherits Eq N s'.areas) : CurvesStay s s' := by
  refine ⟨h.issued, fun id slot' hs' hid => ?_⟩
  rcases h.origin id slot' hs' with ⟨slot, hs, -, hvalue⟩ | ⟨hnew, -⟩
  · exact ⟨slot, hs, hvalue⟩
  · exact absurd hid (Nat.not_lt.2 hnew)

/-- An effective area that is there before and after has kept its value. -/
theorem get_eq (h : CurvesStay s s') {areaId : AreaId} (hbefore : s.areas.contains areaId = true)
    (hafter : s'.areas.contains areaId = true) : s'.areas.get areaId = s.areas.get areaId := by
  obtain ⟨slot, hs⟩ := Arena.contains_iff.1 hbefore
  exact Arena.get_eq_of_origin hafter fun slot' hs' => h.origin _ slot' hs' (Arena.index_lt_of_slot? hs)

theorem insertArea (curve : EffectiveArea α) (retained : Bool) :
    Keeps CurvesStay (insertArea curve retained) := by
  intro s answer s' y
  rw [y.of_insertArea.2]
  refine ⟨by simp [Arena.insert], fun id slot' hs' hid => ?_⟩
  rcases Arena.slot?_insert_cases hs' with ⟨rfl, -⟩ | ⟨-, hs'⟩
  · exact absurd hid (Nat.lt_irrefl _)
  · exact ⟨slot', hs', rfl⟩

theorem compact : Keeps CurvesStay (compact (α := α)) := by
  intro s answer s' y
  rw [y.of_compact.2]
  exact of_inherits (N := fun _ => True) (.compact _)

theorem deleteArea (id : AreaId) : Keeps CurvesStay (deleteArea (α := α) id) := by
  intro s answer s' y
  rcases y.of_deleteArea with ⟨_, -, rfl⟩ | ⟨_, areas, hremove, -, rfl⟩
  · exact Std.Refl.refl _
  · obtain ⟨slot, -, -, -, rfl⟩ := Arena.remove_eq_ok_iff.1 hremove
    exact ⟨Nat.le_of_eq (Arena.slots_length_setSlot _).symm,
      fun _ slot hs _ => ⟨slot, Arena.slot?_of_setSlot_none hs, rfl⟩⟩

theorem releaseArea (id : AreaId) : Keeps CurvesStay (releaseArea (α := α) id) := by
  intro s answer s' y
  rcases y.of_get_bind.of_slot_bind with ⟨_, -, -, rfl⟩ | ⟨areas, hset, y₁⟩
  · exact Std.Refl.refl _
  obtain ⟨slot, hs, rfl⟩ := Arena.setRetained_eq_ok_iff.1 hset
  have hlet : CurvesStay s { s with areas := s.areas.setSlot id (some { slot with retained := false }) } := by
    refine ⟨Nat.le_of_eq (Arena.slots_length_setSlot _).symm, fun other found hfound _ => ?_⟩
    rcases Arena.slot?_setSlot_cases hs hfound with ⟨rfl, rfl⟩ | ⟨-, hfound⟩
    · exact ⟨slot, hs, rfl⟩
    · exact ⟨found, hfound, rfl⟩
  exact IsTrans.trans _ _ _ hlet (Keeps.bind compact (fun _ => .pure _) _ _ _ y₁.of_modify_bind)

theorem deleteMatrix (id : MatrixId) : Keeps CurvesStay (deleteMatrix (α := α) id) := by
  intro s answer s' y
  rcases y.of_deleteMatrix with ⟨_, -, rfl⟩ | ⟨_, _, -, -, rfl⟩
  · exact Std.Refl.refl _
  · exact of_areas rfl

theorem releaseMatrix (id : MatrixId) : Keeps CurvesStay (releaseMatrix (α := α) id) := by
  intro s answer s' y
  rcases y.of_releaseMatrix with ⟨_, -, rfl⟩ | ⟨_, -, -, rfl⟩
  · exact Std.Refl.refl _
  · exact of_inherits (N := fun _ => True) (.compact _)

end CurvesStay

variable [Scalar α]

/-- The operation concerns effective areas, frees products, or only tells something. -/
def Operation.onlyFrees : Operation α → Bool
  | .loadArea _ | .addArea _ | .updateArea _ _ | .setExposure _ _ | .deleteArea _ | .releaseArea _
  | .deleteMatrix _ | .releaseMatrix _ | .compact => true
  | operation => operation.onlyTells

/-- Whether it succeeds or fails, such an operation leaves all matrices that do not go. -/
theorem onlyFrees_perform (operation : Operation α) (h : operation.onlyFrees = true) :
    Keeps OnlyFrees operation.perform := by
  by_cases htells : operation.onlyTells = true
  · exact (sameContents_perform operation htells).mono fun _ _ => .of_sameContents
  cases operation with
  | loadArea file =>
    exact .bind (.bind .get fun _ => .bind (.lift _) fun _ => OnlyFrees.insertArea _ _) fun _ => .pure _
  | addArea curve => exact .bind (OnlyFrees.insertArea _ _) fun _ => .pure _
  | updateArea id update => exact .bind (OnlyFrees.updateArea id update) fun _ => .pure _
  | setExposure id exposure => exact .bind (OnlyFrees.setExposure id exposure) fun _ => .pure _
  | deleteArea id => exact .bind (OnlyFrees.deleteArea id) fun _ => .pure _
  | releaseArea id => exact .bind (OnlyFrees.releaseArea id) fun _ => .pure _
  | deleteMatrix id => exact .bind (OnlyFrees.deleteMatrix id) fun _ => .pure _
  | releaseMatrix id => exact .bind (OnlyFrees.releaseMatrix id) fun _ => .pure _
  | compact => exact .bind OnlyFrees.compact fun _ => .pure _
  | _ => exact absurd h htells

/-- The operation replaces the arrays or the exposure time of an effective area. -/
def Operation.touchesAreas : Operation α → Bool
  | .updateArea _ _ | .setExposure _ _ => true
  | _ => false

/-- Any other operation that concerns effective areas or frees products leaves those that stay. -/
theorem curvesStay_perform (operation : Operation α) (hfrees : operation.onlyFrees = true)
    (htouches : operation.touchesAreas = false) : Keeps CurvesStay operation.perform := by
  by_cases htells : operation.onlyTells = true
  · refine (sameContents_perform operation htells).mono fun _ _ hsame => ?_
    rw [hsame]
    exact .of_areas rfl
  cases operation with
  | loadArea file =>
    exact .bind (.bind .get fun _ => .bind (.lift _) fun _ => CurvesStay.insertArea _ _) fun _ => .pure _
  | addArea curve => exact .bind (CurvesStay.insertArea _ _) fun _ => .pure _
  | deleteArea id => exact .bind (CurvesStay.deleteArea id) fun _ => .pure _
  | releaseArea id => exact .bind (CurvesStay.releaseArea id) fun _ => .pure _
  | deleteMatrix id => exact .bind (CurvesStay.deleteMatrix id) fun _ => .pure _
  | releaseMatrix id => exact .bind (CurvesStay.releaseMatrix id) fun _ => .pure _
  | compact => exact .bind CurvesStay.compact fun _ => .pure _
  | updateArea _ _ | setExposure _ _ => cases htouches
  | _ => exact absurd hfrees htells

end SpectralResponse.Session
