import Libparted.Solver
import Libparted.Disk.Links

/-!
# What the labels share

Three things that `dos.c`, `gpt.c` and the smaller labels have in common: the
limits on start and length that a label's number fields impose
(`labels/pt-tools.c`), alignment by intersecting the caller's constraint with the
label's own (`_ped_partition_attempt_align`), and adding a metadata entry while
the disk is in update mode.

A metadata entry is added with `ped_disk_add_partition`, from inside the outermost
`_disk_pop_update_mode`.  The mode is positive there, so its push and pop only
count (`diskPushUpdateMode_nested`, `diskPopUpdateMode_nested`); `addMetadata` is
the body of `ped_disk_add_partition` with these two.
-/

namespace Libparted

open Library

variable {π δ : Type}

/-! ## Limits -/

/-- An entry of the table in `pt-limit.gperf`. -/
structure PartitionLimit where
  name : String
  maxStartSector : ℤ
  maxLength : ℤ

/-- `ptt_partition_max_start_len`. -/
def pttPartitionMaxStartLen (env : Env) (limit : PartitionLimit) (part : PedPartition π) :
    Ask Bool := do
  if part.geom.length > limit.maxLength then
    pedExceptionReport env ("partition length of " ++ toString part.geom.length
      ++ " sectors exceeds the " ++ limit.name ++ "-partition-table-imposed maximum of "
      ++ toString limit.maxLength)
    return false
  if part.geom.start > limit.maxStartSector then
    pedExceptionReport env ("starting sector number, " ++ toString part.geom.start
      ++ " exceeds the " ++ limit.name ++ "-partition-table-imposed maximum of "
      ++ toString limit.maxStartSector)
    return false
  return true

theorem pttPartitionMaxStartLen_spec {env : Env} {limit : PartitionLimit} {part : PedPartition π}
    {thrown : List PedException} :
    Spec (fun _ => False) (pttPartitionMaxStartLen env limit part) thrown fun _ _ => True := by
  unfold pttPartitionMaxStartLen
  split_ifs <;> trivial

/-! ## Alignment -/

/-- The solver's last assertion makes every returned geometry a solution. -/
theorem isSolution_of_pedConstraintSolveNearest {dev : PedDevice} {c : PedConstraint}
    {geom g : PedGeometry} (h : pedConstraintSolveNearest dev (some c) geom = .ok (some g)) :
    pedConstraintIsSolution c g = true := by
  unfold pedConstraintSolveNearest at h
  obtain ⟨start, -, h⟩ := bind_eq_ok.mp h
  split at h
  · simp at h
  obtain ⟨«end», -, h⟩ := bind_eq_ok.mp h
  split at h
  · simp at h
  obtain ⟨result, -, h⟩ := bind_eq_ok.mp h
  cases result with
  | none => simp at h
  | some result =>
      obtain ⟨_, hassert, h⟩ := bind_eq_ok.mp h
      cases h
      unfold pedAssert at hassert
      split at hassert
      · assumption
      · simp at hassert

/-- `_ped_partition_attempt_align`, and the `_try_constraint` of `dos.c`: the
solution nearest to the partition of both constraints. -/
def tryConstraint (env : Env) (part : PedPartition π) (external internal : Option PedConstraint) :
    Except Fault (Option PedGeometry) :=
  match pedConstraintIntersect external internal with
  | none => .ok none
  | some intersection => pedConstraintSolveNearest env.dev (some intersection) part.geom

/-- The assertions of the solver are none of those that say "not reached". -/
theorem tryConstraint_fails {env : Env} {part : PedPartition π}
    {external internal : Option PedConstraint} :
    Fails OtherFault (tryConstraint env part external internal) := by
  have halign : ∀ align : Option PedAlignment, Fails OtherFault (requireAlign align) := by
    intro align
    cases align with
    | none => exact fails_error.mpr (by simp [OtherFault])
    | some align => exact fails_ok _
  unfold tryConstraint
  cases pedConstraintIntersect external internal with
  | none => exact fails_ok _
  | some c =>
      have hstart : Fails OtherFault (constraintGetNearestStartSoln c part.geom.start) := by
        refine Fails.bind (Fails.ite (fun _ => fails_ok _) fun _ => ?_) fun range _ => ?_
        · refine (halign _).bind fun _ _ => Fails.ite (fun _ => fails_ok _) fun _ => ?_
          exact Fails.ite (fun _ => fails_ok _) fun _ =>
            (pedGeometryInitUnchecked_fails _ _).bind fun _ _ => fails_ok _
        · cases range with
          | none => exact fails_ok _
          | some range => exact (halign _).bind fun _ _ => fails_ok _
      have hend : ∀ start, Fails OtherFault
          (constraintGetNearestEndSoln env.dev c start part.geom.end) := by
        intro start
        refine Fails.bind (Fails.ite (fun _ => fails_ok _) fun _ => ?_) fun range _ => ?_
        · exact (pedGeometryInitUnchecked_fails _ _).bind fun _ _ => fails_ok _
        · cases range with
          | none => exact fails_ok _
          | some range => exact (halign _).bind fun _ _ => fails_ok _
      refine hstart.bind fun start _ => Fails.ite (fun _ => fails_ok _) fun _ => ?_
      refine (hend start).bind fun «end» _ => Fails.ite (fun _ => fails_ok _) fun _ => ?_
      refine (pedGeometrySet_fails _ _).bind fun result _ => ?_
      cases result with
      | none => exact fails_ok _
      | some result => exact (pedAssert_fails (by decide)).bind fun _ _ => fails_ok _

/-! ## Metadata entries -/

/-- `ped_partition_new` and `ped_disk_add_partition` for a metadata entry, in update
mode. -/
def addMetadata (ops : PedDiskOps π δ) (env : Env) (logical : Bool) (start «end» : ℤ) :
    DiskM π δ Bool := do
  match ← ask (pedGeometryInit env start («end» - start + 1)) with
  | none => return false
  | some geom =>
      let (ok, _) ← addPartitionWith (do enterNested; return true) (do leaveNested; return true)
        ops env (.placeholder (.ofMetadata logical) geom) none
      return ok

/-- The ways in which adding a metadata entry can end the program. -/
def MetadataFault (f : Fault) : Prop :=
  f = .assertion "start >= 0" ∨ f = .assertion "disk->update_mode" ∨ (∃ what, f = .undefined what)
    ∨ SanityFault f

theorem MetadataFault.other {f : Fault} (h : MetadataFault f) : OtherFault f := by
  rcases h with rfl | rfl | ⟨what, rfl⟩ | rfl | rfl <;> simp [OtherFault]

section Metadata

variable {ops : PedDiskOps π δ} {env : Env} {s : Session π δ} {thrown : List PedException}

theorem partitionCheckBasicSanity_spec {disk : PedDisk π δ} {part : PedPartition π} :
    Spec (fun _ => False) (partitionCheckBasicSanity ops env disk part) thrown fun _ _ => True := by
  unfold partitionCheckBasicSanity
  dsimp only
  split_ifs <;> trivial

/-- A metadata entry is not aligned; its place is checked as that of any other. -/
theorem checkPartition_placeholder {disk : PedDisk π δ} {logical : Bool} {geom : PedGeometry} :
    Spec (fun f => ∃ what, f = .undefined what)
      (checkPartition ops env disk (.placeholder (.ofMetadata logical) geom)) thrown
      fun _ _ => True := by
  have hext : checkIfExtended env disk
      (.placeholder (.ofMetadata logical) geom : PedPartition π) = pure true := by
    refine if_neg ?_
    simp [PedPartition.isExtended, PedPartition.placeholder, PedPartitionType.ofMetadata,
      PedPartitionType.ofExtended]
  unfold checkPartition
  rw [hext]
  refine Spec.seq (R := fun _ _ => True) trivial fun ok t _ => ?_
  cases ok with
  | false => trivial
  | true =>
      refine Spec.bind (Spec.lift placementObjections_fails fun objections _ => ?_)
      refine Spec.bind ((allIgnored_spec objections).mono (fun _ => False.elim) fun ok _ _ => ?_)
      cases ok with
      | false => trivial
      | true => trivial

/-- **Adding a metadata entry** places a placeholder or does nothing. -/
theorem addMetadata_cases (logical : Bool) (start «end» : ℤ) :
    Spec MetadataFault (addMetadata ops env logical start «end») s fun _ s' =>
      s'.disk = s.disk ∨
        ∃ geom, s'.disk = s.disk.place (.placeholder (.ofMetadata logical) geom) := by
  unfold addMetadata
  refine Spec.bind (spec_ask.mpr (pedGeometryInit_spec.mono (fun _ hf => Or.inl hf)
    fun r t _ => ?_))
  cases r with
  | none => exact Or.inl rfl
  | some geom =>
      have hinactive : (.placeholder (.ofMetadata logical) geom : PedPartition π).isActive = false :=
        rfl
      unfold addPartitionWith
      refine Spec.bind (Spec.bind (spec_getDisk.mpr (Spec.bind (spec_ask.mpr
        (partitionCheckBasicSanity_spec.mono (fun _ => False.elim) fun ok t _ => ?_)))))
      cases ok with
      | false => exact Or.inl rfl
      | true =>
          unfold enterNested leaveNested addPartitionPlace
          simp only [Bool.not_true, Bool.false_eq_true, if_false, spec_bind, spec_modifyDisk,
            spec_pure, spec_getDisk]
          rw [addPartitionAlignIfActive, if_neg (by simp [hinactive])]
          refine spec_ask.mpr (spec_pure.mpr ?_)
          simp only [Bool.not_true, Bool.false_eq_true, if_false]
          refine spec_bind.mpr (spec_ask.mpr (checkPartition_placeholder.mono
            (fun _ hf => Or.inr (Or.inr (Or.inl hf))) fun ok t _ => ?_))
          cases ok with
          | false => exact Or.inl rfl
          | true =>
              refine spec_bind.mpr (diskRawAdd_spec (Or.inr (Or.inl rfl))
                (fun _ => Or.inr (Or.inr (Or.inl ⟨_, rfl⟩))) fun _ => ?_)
              simp only [if_true, spec_pure, Bool.not_true, Bool.false_eq_true, if_false, spec_bind,
                spec_modifyDisk, spec_getDisk]
              refine spec_sanity (Or.inr fun _ hf => Or.inr (Or.inr (Or.inr hf)))
                (Or.inr ⟨geom, ?_⟩)
              rw [PedDisk.place_withMode]
              simp only [PedDisk.updateMode_withMode, PedDisk.withMode_withMode,
                Nat.add_sub_cancel]
              rw [← PedDisk.place_withMode, PedDisk.withMode_updateMode]

/-- A metadata entry leaves the partitions alone. -/
theorem PedDisk.padded_place (disk : PedDisk π δ) (logical : Bool) (geom : PedGeometry) :
    disk.Padded (disk.place (.placeholder (.ofMetadata logical) geom)) :=
  ⟨PedDisk.strip_place rfl, fun h => PedDisk.Each.place h id id,
    fun _ hT h => PedDisk.Each.place h (fun _ _ => hT _ _) fun _ _ => hT _ _⟩

theorem addMetadata_spec (logical : Bool) (start «end» : ℤ) :
    Spec MetadataFault (addMetadata ops env logical start «end») s
      fun _ s' => s.disk.Padded s'.disk := by
  refine (addMetadata_cases logical start «end»).imp ?_
  rintro _ s' (hs' | ⟨geom, hs'⟩)
  · exact hs' ▸ PedDisk.Padded.refl _
  · exact hs' ▸ PedDisk.padded_place s.disk logical geom

/-- Where there is nothing to object to, the entry is placed and nothing is asked. -/
theorem addMetadata_run {logical : Bool} {start «end» : ℤ} (hstart : 0 ≤ start)
    (hend : start ≤ «end») (hlev : s.disk.Leveled)
    (hext : logical = true → (pedDiskExtendedPartition s.disk).isSome = true)
    (hplace : placementObjections env s.disk (.placeholder (.ofMetadata logical)
      (.ofStartEnd start «end» hstart hend)) = .ok []) :
    Spec (fun _ => False) (addMetadata ops env logical start «end») s fun ok s' => ok = true ∧
      s' = { s with disk := s.disk.place (.placeholder (.ofMetadata logical)
        (.ofStartEnd start «end» hstart hend)) } := by
  set part : PedPartition π := .placeholder (.ofMetadata logical)
    (.ofStartEnd start «end» hstart hend) with hpart
  have hinit : pedGeometryInit env start («end» - start + 1)
      = pure (some (.ofStartEnd start «end» hstart hend)) := by
    unfold pedGeometryInit
    rw [pedGeometrySet_eq hstart (by omega)]
    rfl
  have hbasic : partitionCheckBasicSanity ops env s.disk part = pure true := by
    unfold partitionCheckBasicSanity
    cases logical with
    | true =>
        have hsome := hext rfl
        cases hx : pedDiskExtendedPartition s.disk with
        | none => simp [hx] at hsome
        | some ext => simp [hpart, PedPartition.placeholder, PedPartitionType.ofMetadata,
            PedPartitionType.ofExtended, PedPartitionType.ofLogical, PedPartition.isActive]
    | false => simp [hpart, PedPartition.placeholder, PedPartitionType.ofMetadata,
        PedPartitionType.ofExtended, PedPartitionType.ofLogical, PedPartition.isActive]
  have hext' : ¬ part.isExtended = true := by
    simp [hpart, PedPartition.isExtended, PedPartition.placeholder, PedPartitionType.ofMetadata,
      PedPartitionType.ofExtended]
  have hcheck : ∀ n thrown, checkPartition ops env (s.disk.withMode n) part thrown
      = .ok (true, thrown) := by
    intro n thrown
    have hplace' : placementObjections env (s.disk.withMode n) part = .ok [] := hplace
    unfold checkPartition checkIfExtended
    rw [if_neg hext', hplace']
    rfl
  have hraw : ∀ thrown, diskRawAdd part ⟨s.disk.withMode (s.disk.updateMode + 1), thrown⟩
      = .ok (true, ⟨(s.disk.withMode (s.disk.updateMode + 1)).place part, thrown⟩) := by
    intro thrown
    refine Spec.eq_ok ?_
    unfold diskRawAdd
    simp only [spec_bind, spec_getDisk, spec_assertThat]
    refine ⟨fun _ => Spec.ite (fun hlinked => ?_) fun _ => ?_, fun hno => ?_⟩
    · exact absurd hlinked.1 Bool.false_ne_true
    · cases logical with
      | true =>
          have hsome := hext rfl
          refine Spec.ite (fun _ => Spec.ite (fun hnone => ?_) fun _ => ?_) fun hno => ?_
          · have hnone' : (pedDiskExtendedPartition s.disk).isNone = true := hnone
            simp [Option.isNone_iff_eq_none.mp hnone'] at hsome
          · exact ⟨rfl, rfl⟩
          · exact absurd rfl hno
      | false => exact ⟨rfl, rfl⟩
    · simp at hno
  unfold addMetadata
  rw [hinit]
  refine Spec.bind (spec_ask.mpr (spec_pure.mpr ?_))
  unfold addPartitionWith enterNested leaveNested addPartitionPlace
  simp only [spec_bind, spec_getDisk, spec_pure]
  rw [hbasic]
  refine spec_ask.mpr (spec_pure.mpr ?_)
  simp only [Bool.not_true, Bool.false_eq_true, if_false, spec_bind, spec_modifyDisk, spec_pure,
    spec_getDisk]
  rw [addPartitionAlignIfActive, if_neg (by simp [PedPartition.placeholder, PedPartition.isActive,
    PedPartitionType.ofMetadata])]
  refine spec_ask.mpr (spec_pure.mpr ?_)
  simp only [Bool.not_true, Bool.false_eq_true, if_false, spec_bind]
  refine spec_ask.mpr ((spec_of_ok (hcheck _ _)).mpr ?_)
  simp only [Bool.not_true, Bool.false_eq_true, if_false, spec_bind]
  refine (spec_of_ok (hraw _)).mpr ?_
  simp only [spec_pure, if_true, Bool.not_true, Bool.false_eq_true, if_false, spec_bind,
    spec_modifyDisk, spec_getDisk]
  have hback : ((s.disk.withMode (s.disk.updateMode + 1)).place part).withMode
      (((s.disk.withMode (s.disk.updateMode + 1)).place part).updateMode - 1)
        = s.disk.place part := by
    rw [PedDisk.place_withMode]
    simp only [PedDisk.updateMode_withMode, PedDisk.withMode_withMode, Nat.add_sub_cancel]
    rw [← PedDisk.place_withMode, PedDisk.withMode_updateMode]
  rw [hback]
  refine spec_sanity (Or.inl (PedDisk.Each.place hlev id id)) ⟨trivial, rfl⟩

end Metadata

/-! ## The loop label

The label of a device without a partition table: one partition at most, no
metadata, and any constraint is met by the solver alone. -/

/-- How the align functions end: the partition takes the solution, or an exception
says that there is none. -/
def alignTo (env : Env) (part : PedPartition π) (solution : Option PedGeometry) :
    Ask (Bool × PedGeometry) :=
  match solution with
  | some geom => return (true, geom)
  | none => do
      pedExceptionReport env "Unable to satisfy all constraints on the partition."
      return (false, part.geom)

theorem alignTo_spec {env : Env} {part : PedPartition π} {solution : Option PedGeometry}
    {thrown : List PedException} :
    Spec (fun _ => False) (alignTo env part solution) thrown
      fun r _ => r.1 = true → solution = some r.2 := by
  cases solution with
  | none => exact fun h => absurd h Bool.false_ne_true
  | some geom => exact fun _ => rfl

def loopLimit : PartitionLimit := ⟨"loop", 2 ^ 64 - 1, 2 ^ 64 - 1⟩

/-- `loop_partition_align`. -/
def loopPartitionAlign (env : Env) (_ : PedDisk π δ) (part : PedPartition π)
    (constraint : Option PedConstraint) : Ask (Bool × PedGeometry) := do
  alignTo env part (← pedConstraintSolveNearest env.dev constraint part.geom)

/-- `loop_disk_type`.  `loop_partition_enumerate` gives every partition the number 1,
and `loop_alloc_metadata` does nothing. -/
def loopDiskType : PedDiskType Unit Unit where
  name := "loop"
  extended := false
  getMaxPrimaryPartitionCount := fun _ => 1
  partitionEnumerate := fun _ _ _ => return (true, 1)
  partitionAlign := loopPartitionAlign
  partitionCheck := fun env _ part => pttPartitionMaxStartLen env loopLimit part
  allocMetadata := fun _ => return true
  allocMetadata_frame := fun _ s => PedDisk.Padded.refl s.disk

theorem loopPartitionAlign_spec {env : Env} {disk : PedDisk π δ} {part : PedPartition π}
    {constraint : PedConstraint} {thrown : List PedException} :
    Spec (fun _ => True) (loopPartitionAlign env disk part (some constraint)) thrown
      fun r _ => r.1 = true → pedConstraintIsSolution constraint r.2 = true := by
  unfold loopPartitionAlign
  refine Spec.bind (spec_lift.mpr ⟨fun solution hsolution => ?_, fun _ _ => trivial⟩)
  refine alignTo_spec.mono (fun _ _ => trivial) fun r _ hr htrue => ?_
  rw [hr htrue] at hsolution
  exact isSolution_of_pedConstraintSolveNearest hsolution

theorem loop_alignSound (env : Env) : AlignSound loopDiskType.toPedDiskOps env := by
  intro disk part constraint thrown geom thrown' h
  have hspec : Spec (fun _ => True) (loopPartitionAlign env disk part (some constraint)) thrown _ :=
    loopPartitionAlign_spec
  have hr := hspec.of_ok h
  exact hr rfl

/-- A hundred sectors whose user cancels everything. -/
def cancelHundred : Env := ⟨hundredSectors, fun _ => .cancel⟩

/-- A loop label on a hundred sectors, with a partition in sectors 10 to 19. -/
def loopSession : Session Unit Unit where
  disk :=
    { partList := [.placeholder (.ofFreespace false) (.fromTo 0 9),
        ⟨1, .normal, 1, .fromTo 10 19, none⟩,
        .placeholder (.ofFreespace false) (.fromTo 20 99)]
      logicals := []
      updateMode := 0
      needsClobber := false
      diskSpecific := () }
  thrown := []

/-- The partition is moved onto its grid, grown, refused a neighbour, asked to leave
the device, deleted and replaced. -/
def loopCalls : List (LayoutCall Unit) :=
  [.setGeom 1 hundredConstraint 31 48, .maximize 1 hundredConstraint,
    .add ⟨2, .normal, -1, .fromTo 70 79, none⟩ hundredConstraint,
    .setGeom 1 hundredConstraint 200 210, .delete 1,
    .add ⟨2, .normal, -1, .fromTo 70 79, none⟩ hundredConstraint]

theorem loopSession_sound : Sound hundredSectors loopSession.disk.core := by
  refine ⟨⟨by decide, ⟨by decide, by decide⟩, ⟨by decide, by decide⟩, by decide⟩,
    by unfold Ordered; decide, by decide, by decide, by unfold Ordered; decide, by decide⟩

theorem nonOverlapping_of_calls_loop :
    ∃ s', runAll (LayoutCall.run loopDiskType cancelHundred) loopCalls loopSession = .ok ((), s') ∧
      WellLinked s'.disk.core ∧ NonOverlapping hundredSectors s'.disk.core := by
  have hok : (runAll (LayoutCall.run loopDiskType cancelHundred) loopCalls loopSession).isOk
      = true := by decide +kernel
  cases hrun : runAll (LayoutCall.run loopDiskType cancelHundred) loopCalls loopSession with
  | error f => simp [hrun, Except.isOk, Except.toBool] at hok
  | ok r =>
      exact ⟨r.2, rfl, nonOverlapping_of_calls loopDiskType cancelHundred (fun _ => rfl)
        (loop_alignSound cancelHundred) loopSession rfl rfl loopSession_sound.links
        loopSession_sound.layout loopCalls r.2 hrun⟩

theorem wellLinked_of_calls_loop :
    ∃ s', runAll (LayoutCall.run loopDiskType ⟨hundredSectors, fun _ => .ignore⟩) loopCalls
        loopSession = .ok ((), s') ∧ s'.disk.updateMode = 0 ∧ WellLinked s'.disk.core := by
  obtain ⟨r, hrun, -⟩ := exists_ok_of_map (f := fun _ => ()) (b := ()) (x := runAll (LayoutCall.run
    loopDiskType ⟨hundredSectors, fun _ => .ignore⟩) loopCalls loopSession) (by decide +kernel)
  exact ⟨r.2, hrun, wellLinked_of_calls _ _ _ _ rfl loopSession_sound.links loopCalls hrun⟩

/-- The partition that is there stays when another one is asked for. -/
theorem untouched_of_calls_loop :
    ∃ s', runAll (LayoutCall.run loopDiskType cancelHundred)
        [.add ⟨2, .normal, -1, .fromTo 70 79, none⟩ hundredConstraint] loopSession = .ok ((), s') ∧
      ∀ part, part.id = 1 → loopSession.disk.core.unnumbered.Has part →
        s'.disk.core.unnumbered.Has part := by
  obtain ⟨r, hrun, -⟩ := exists_ok_of_map (f := fun _ => ()) (b := ()) (x := runAll (LayoutCall.run
    loopDiskType cancelHundred) [.add ⟨2, .normal, -1, .fromTo 70 79, none⟩ hundredConstraint]
      loopSession) (by decide +kernel)
  refine ⟨r.2, hrun, fun part hid => (untouched_of_calls _ _ _ _ rfl loopSession_sound.links _ part
    ?_ hrun).2 (by simp)⟩
  simp [LayoutCall.Spares, hid]

end Libparted
