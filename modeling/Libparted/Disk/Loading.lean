import Libparted.Disk.Calm

/-!
# Adding partitions while a table is read

The functions that read a table add each partition they find with
`ped_disk_add_partition`, under a constraint that allows the place it has on disk and
no other, to a disk that has `needs_clobber` set.  Alignment is skipped on such a
disk, so that an object is linked in where it is, or refused.

`Calm.load` says what one such call does.  It stops with no fault but those of leaving
update mode; it asks nothing when the place is free and nothing is wrong with it; and
when every question is answered with "Ignore" it succeeds.
-/

namespace Libparted

open Library

variable {π δ : Type}

/-! ## The place an object has -/

section Exact

variable {dev : PedDevice} {geom max : PedGeometry}

theorem exists_pedConstraintExact (geom : PedGeometry) (hdev : 0 < dev.length) :
    ∃ c, pedConstraintExact dev geom = .ok c ∧ c.GrainsFit ∧
      (geom.length ≤ dev.length → pedConstraintIsSolution c geom = true) := by
  have hlen := geom.length_pos
  unfold pedConstraintExact pedConstraintNew
  rw [dif_pos one_pos, dif_pos hdev]
  refine ⟨_, rfl, ⟨by simp [pedAlignmentInit, pedAlignmentDuplicate],
    by simp [pedAlignmentInit, pedAlignmentDuplicate]⟩, fun hle => ?_⟩
  rw [pedConstraintIsSolution_iff]
  refine ⟨?_, ?_, ⟨le_rfl, ?_⟩, ⟨le_rfl, ?_⟩, hlen, hle⟩
  · simp [pedAlignmentInit, pedAlignmentDuplicate, OnGrid]
  · simp [pedAlignmentInit, pedAlignmentDuplicate, OnGrid]
  · simp [PedGeometry.end]
  · simp [PedGeometry.end]

/-- What lies in a region satisfies the constraint that asks for this. -/
theorem isSolution_pedConstraintNewFromMax (h : pedGeometryTestInside max geom = true) :
    (pedConstraintNewFromMax max).GrainsFit ∧
      pedConstraintIsSolution (pedConstraintNewFromMax max) geom = true := by
  rw [pedGeometryTestInside_iff] at h
  have h₁ := geom.length_pos
  have h₂ := geom.length_eq
  have h₃ := max.length_eq
  have h₄ := geom.start_le_end
  refine ⟨⟨by simp [pedConstraintNewFromMax, pedAlignmentAny],
    by simp [pedConstraintNewFromMax, pedAlignmentAny]⟩, pedConstraintIsSolution_iff.mpr ?_⟩
  simp only [pedConstraintNewFromMax, accepts_pedAlignmentAny, true_and]
  omega

end Exact

section Gap

variable {env : Env} {disk : PedDisk π δ} {part : PedPartition π} {geom : PedGeometry}
  {c : PedConstraint} {limits : ℤ × ℤ}

theorem overlapLimits_nonneg (h : overlapLimits disk part = .ok limits) : 0 ≤ limits.1 := by
  unfold overlapLimits at h
  split at h
  · split at h
    · cases h
    · cases h
      exact PedGeometry.start_nonneg _
  · cases h
    exact le_rfl

/-- The gap around a position is always computed. -/
theorem partitionGetOverlapConstraint_total (geom : PedGeometry) (hmode : disk.updateMode ≠ 0)
    (hlimits : overlapLimits disk part = .ok limits) :
    ∃ overlap, partitionGetOverlapConstraint disk part geom = .ok overlap ∧
      ∀ low high, (gapWalk PedPartition.lo PedPartition.hi (·.id == part.id) geom.start limits.1
        (disk.level part.type)).1 = low →
      ((dropMarked (·.id == part.id) (gapWalk PedPartition.lo PedPartition.hi (·.id == part.id)
        geom.start limits.1 (disk.level part.type)).2).head?.map
          fun walk => walk.geom.start - 1).getD limits.2 = high →
      low ≤ high → ∃ max, overlap = some (pedConstraintNewFromMax max) ∧ max.start = low ∧
        max.end = high := by
  have hassert : pedAssert (decide (disk.updateMode ≠ 0)) "part->disk->update_mode" = .ok () :=
    if_pos (by simpa using hmode)
  have hnonneg : 0 ≤ (gapWalk PedPartition.lo PedPartition.hi (·.id == part.id) geom.start limits.1
      (disk.level part.type)).1 := by
    refine gapWalk_nonneg (overlapLimits_nonneg hlimits) _ fun y _ => ?_
    have := y.geom.end_nonneg
    simp only [PedPartition.hi]
    omega
  unfold partitionGetOverlapConstraint
  rw [hassert, ok_bind, hlimits, ok_bind]
  dsimp only
  split
  case isTrue hnone =>
    refine ⟨none, rfl, ?_⟩
    rintro low high rfl rfl hle
    omega
  case isFalse hsome =>
    rw [pedGeometryInitUnchecked_eq hnonneg (by omega)]
    refine ⟨_, rfl, ?_⟩
    rintro low high rfl rfl -
    refine ⟨_, rfl, rfl, ?_⟩
    simp only [PedGeometry.end]
    omega

/-- A place that meets nothing lies in the gap around it. -/
theorem exists_gap_around (hmode : disk.updateMode ≠ 0)
    (hlimits : overlapLimits disk part = .ok limits) (hlow : limits.1 ≤ geom.start)
    (hhigh : geom.end ≤ limits.2) (hnew : ∀ other ∈ disk.level part.type, other.id ≠ part.id)
    (hclear : ∀ other ∈ disk.level part.type, geom.end < other.lo ∨ other.hi < geom.start)
    (hfit : c.GrainsFit) (hsol : pedConstraintIsSolution c geom = true) :
    ∃ overlap k, partitionGetOverlapConstraint disk part geom = .ok overlap ∧
      pedConstraintIntersect overlap (some c) = some k := by
  obtain ⟨overlap, hoverlap, hmax⟩ := partitionGetOverlapConstraint_total geom hmode hlimits
  obtain ⟨hstart, hnext⟩ := gapWalk_around (·.id == part.id) hlow geom.start_le_end
    (disk.level part.type) (fun y _ => y.lo_le_hi) (fun y hy => by simpa using hnew y hy) hclear
  have hend : geom.end ≤ ((dropMarked (·.id == part.id) (gapWalk PedPartition.lo PedPartition.hi
      (·.id == part.id) geom.start limits.1 (disk.level part.type)).2).head?.map
        fun walk => walk.geom.start - 1).getD limits.2 := by
    cases hhead : (dropMarked (·.id == part.id) (gapWalk PedPartition.lo PedPartition.hi
        (·.id == part.id) geom.start limits.1 (disk.level part.type)).2).head? with
    | none => exact hhigh
    | some walk =>
        have := hnext walk hhead
        simp only [PedPartition.lo] at this
        simp only [Option.map_some, Option.getD_some]
        omega
  obtain ⟨max, rfl, hmaxStart, hmaxEnd⟩ :=
    hmax _ _ rfl rfl (hstart.trans (geom.start_le_end.trans hend))
  have hin : pedGeometryTestInside max geom = true := by
    rw [pedGeometryTestInside_iff, hmaxStart, hmaxEnd]
    exact ⟨hstart, hend⟩
  obtain ⟨hmaxFit, hmaxSol⟩ := isSolution_pedConstraintNewFromMax hin
  obtain ⟨k, hk, -⟩ := (isSolution_pedConstraintIntersect hmaxFit hfit geom).mp ⟨hmaxSol, hsol⟩
  exact ⟨_, k, hoverlap, hk⟩

end Gap

/-! ## The checks -/

section Checks

variable {ops : PedDiskOps π δ} {env : Env} {disk : PedDisk π δ} {part : PedPartition π}
  {c : PedConstraint} {thrown : List PedException}

theorem partitionCheckBasicSanity_pass (h : BasicSane ops disk part) :
    partitionCheckBasicSanity ops env disk part thrown = .ok (true, thrown) := by
  have hfeature : ¬ (!ops.extended && (part.type == .ofExtended || part.type == .ofLogical))
      = true := by
    intro hno
    simp only [Bool.and_eq_true, Bool.not_eq_true', Bool.or_eq_true, beq_iff_eq] at hno
    obtain ⟨h₁, h₂⟩ := h.feature hno.1
    exact hno.2.elim h₁ h₂
  have hparent : ¬ (part.type.logical && (pedDiskExtendedPartition disk).isNone) = true := by
    intro hno
    simp only [Bool.and_eq_true, Option.isNone_iff_eq_none] at hno
    have := h.parent hno.1
    simp [hno.2] at this
  unfold partitionCheckBasicSanity
  rw [if_neg hfeature, if_neg hparent]
  split
  case isTrue hact =>
    simp only [Bool.and_eq_true, Bool.not_eq_true'] at hact
    have hroom := h.room hact.1 hact.2
    rw [if_neg (by omega)]
    rfl
  case isFalse => rfl

/-- Every exception from the `k`-th on is answered "Ignore". -/
def IgnoresFrom (env : Env) (k : ℕ) : Prop := ∀ n, k ≤ n → env.answers n = .ignore

theorem IgnoresFrom.mono {k m : ℕ} (h : IgnoresFrom env k) (hkm : k ≤ m) : IgnoresFrom env m :=
  fun n hn => h n (hkm.trans hn)

/-- The complaint about an overlap is raised only where there is one, and may be
ignored. -/
theorem resolveOverlap_load {overlap : Option PedConstraint} :
    Spec (fun _ => False) (resolveOverlap env overlap (some c)) thrown fun r t =>
      (∀ k, pedConstraintIntersect overlap (some c) = some k → r.isSome = true ∧ t = thrown) ∧
        (IgnoresFrom env thrown.length → r.isSome = true) ∧ thrown.length ≤ t.length := by
  unfold resolveOverlap
  dsimp only
  cases pedConstraintIntersect overlap (some c) with
  | none =>
      unfold pedExceptionIgnored pedExceptionThrow
      refine Spec.bind (Spec.bind ?_)
      rw [spec_of_ok rfl, spec_pure]
      refine Spec.ite (fun _ => ⟨fun k hk => (nomatch hk), fun _ => rfl, by simp⟩)
        fun hno => ⟨fun k hk => (nomatch hk), fun hall => absurd ?_ hno, by simp⟩
      simp [hall _ le_rfl]
  | some k => exact ⟨fun _ _ => ⟨rfl, rfl⟩, fun _ => rfl, le_rfl⟩

theorem allIgnored_load (l : List String) :
    Spec (fun _ => False) (allIgnored env l) thrown fun ok t =>
      (IgnoresFrom env thrown.length → ok = true) ∧ thrown.length ≤ t.length := by
  induction l generalizing thrown with
  | nil => exact ⟨fun _ => rfl, le_rfl⟩
  | cons message rest ih =>
      unfold allIgnored pedExceptionIgnored pedExceptionThrow
      refine Spec.bind (Spec.bind ?_)
      rw [spec_of_ok rfl, spec_pure]
      refine Spec.ite (fun _ => ?_) fun hno => ⟨fun hall => absurd ?_ hno, by simp⟩
      · refine ih.imp fun ok t hrest => ?_
        obtain ⟨hok, hlen⟩ := hrest
        rw [List.length_append] at hok hlen
        exact ⟨fun hall => hok (hall.mono (Nat.le_add_right _ _)), by omega⟩
      · simp [hall _ le_rfl]

theorem checkIfExtended_load : Spec (fun _ => False) (checkIfExtended env disk part) thrown
    fun ok t => (part.isExtended = false → ok = true) ∧ thrown.length ≤ t.length := by
  unfold checkIfExtended checkExtendedPartition
  refine Spec.ite (fun h => ?_) fun _ => ⟨fun _ => rfl, le_rfl⟩
  have hno : ∀ ok : Bool, part.isExtended = false → ok = true := fun _ hno =>
    absurd (h.symm.trans hno) Bool.true_eq_false.mp
  have hreport : ∀ message, Spec (fun _ => False) (do
      pedExceptionReport env message
      return false) thrown fun ok t =>
        (part.isExtended = false → ok = true) ∧ thrown.length ≤ t.length :=
    fun _ => ⟨hno _, by simp⟩
  exact Spec.ite (fun _ => hreport _) fun _ => Spec.ite (fun _ => hreport _)
    fun _ => ⟨fun _ => rfl, le_rfl⟩

/-- The checks on a partition that has been read.  The complaint about a second extended
partition cannot be ignored. -/
theorem checkPartition_load (hparent : part.type.logical = true →
      (pedDiskExtendedPartition disk).isSome = true)
    (hcheck : ∀ thrown, ops.partitionCheck env disk part thrown = .ok (true, thrown)) :
    Spec (fun _ => False) (checkPartition ops env disk part) thrown fun ok t =>
      (Acceptable ops env disk part → ok = true ∧ t = thrown) ∧
        (IgnoresFrom env thrown.length → part.isExtended = false → ok = true) ∧
        thrown.length ≤ t.length := by
  have hquiet : Spec (fun _ => True) (checkPartition ops env disk part) thrown fun ok t =>
      Acceptable ops env disk part → ok = true ∧ t = thrown := by
    refine spec_iff.mpr ⟨fun ok t hrun hacc => ?_, fun _ _ => trivial⟩
    rw [hacc.check] at hrun
    cases hrun
    exact ⟨rfl, rfl⟩
  have hobjections : ∃ l, placementObjections env disk part = .ok l := by
    unfold placementObjections outsideExtended
    cases hl : part.type.logical with
    | false => exact ⟨_, rfl⟩
    | true =>
        obtain ⟨ext, hx⟩ := Option.isSome_iff_exists.mp (hparent hl)
        rw [hx]
        exact ⟨_, rfl⟩
  obtain ⟨l, hl⟩ := hobjections
  have htotal : Spec (fun _ => False) (checkPartition ops env disk part) thrown fun ok t =>
      (IgnoresFrom env thrown.length → part.isExtended = false → ok = true) ∧
        thrown.length ≤ t.length := by
    unfold checkPartition
    refine checkIfExtended_load.seq fun ok t ⟨hok, hlen⟩ => ?_
    cases ok with
    | false => exact ⟨fun _ hno => hok hno, hlen⟩
    | true =>
        rw [hl]
        refine Spec.bind (spec_lift.mpr ⟨fun l' hl' => ?_, fun _ hf => nomatch hf⟩)
        cases hl'
        refine Spec.bind ((allIgnored_load l).imp fun ok t' ⟨hok, hlen'⟩ => ?_)
        cases ok with
        | false => exact ⟨fun hall _ => hok (hall.mono hlen), hlen.trans hlen'⟩
        | true =>
            simp only [Bool.not_true, Bool.false_eq_true, if_false]
            refine Spec.ite (fun _ => ⟨fun _ _ => rfl, hlen.trans hlen'⟩) fun _ => ?_
            rw [spec_of_ok (hcheck t')]
            exact ⟨fun _ _ => rfl, hlen.trans hlen'⟩
  exact (htotal.and hquiet).imp fun _ _ h => ⟨h.2, h.1⟩

end Checks

/-! ## Adding -/

/-- An object that has been read and is not on the disk yet; `num` is the number it
will have. -/
structure Loadable (label : PedDiskType π δ) (env : Env) (disk : PedDisk π δ)
    (part : PedPartition π) (num : ℤ) : Prop where
  id_ne : part.id ≠ 0
  active : part.isActive = true
  new : ∀ other, disk.core.Has other → other.id ≠ part.id
  sane : BasicSane label.toPedDiskOps disk part
  num_ne : num ≠ -1
  enumerate : ∀ thrown, label.partitionEnumerate env (disk.strip.withMode 1) part thrown
    = .ok ((true, num), thrown)
  check : ∀ thrown, label.partitionCheck env (disk.strip.withMode 1) { part with num := num } thrown
    = .ok (true, thrown)

/-- Nothing is wrong with the place of the object. -/
structure Undisputed (label : PedDiskType π δ) (env : Env) (disk : PedDisk π δ)
    (part : PedPartition π) (num : ℤ) (c : PedConstraint) : Prop where
  gap : ∃ overlap k, partitionGetOverlapConstraint (disk.strip.withMode 1) part part.geom
    = .ok overlap ∧ pedConstraintIntersect overlap (some c) = some k
  acceptable : Acceptable label.toPedDiskOps env (disk.strip.withMode 1) { part with num := num }

theorem Loadable.find?_none {label : PedDiskType π δ} {env : Env} {disk : PedDisk π δ}
    {part : PedPartition π} {num : ℤ} (h : Loadable label env disk part num) :
    (disk.strip.withMode 1).find? part.id = none := by
  cases hfind : (disk.strip.withMode 1).find? part.id with
  | none => rfl
  | some other =>
      obtain ⟨hmem, -, hid⟩ := PedDisk.mem_of_find? hfind
      exact absurd hid (h.new other hmem)

section Load

variable {label : PedDiskType π δ} {env : Env} {E : Fault → Prop} {s : Session π δ}
  {part : PedPartition π} {num : ℤ} {c : PedConstraint}

theorem diskRawAdd_total {disk : PedDisk π δ} {thrown : List PedException}
    (hmode : disk.updateMode ≠ 0) (hnew : disk.find? part.id = none)
    (hparent : part.type.logical = true → (pedDiskExtendedPartition disk).isSome = true) :
    diskRawAdd part ⟨disk, thrown⟩ = .ok (true, ⟨disk.place part, thrown⟩) := by
  refine Spec.eq_ok ?_
  unfold diskRawAdd
  simp only [spec_bind, spec_getDisk, spec_assertThat]
  refine ⟨fun _ => Spec.ite (fun hlinked => ?_) fun _ => ?_, fun hno => ?_⟩
  · simp [hnew] at hlinked
  · cases hl : part.type.logical with
    | true =>
        have hsome := hparent hl
        refine Spec.ite (fun _ => Spec.ite (fun hnone => ?_) fun _ => ?_) fun hno => absurd rfl hno
        · simp [Option.isNone_iff_eq_none.mp hnone] at hsome
        · rw [PedDisk.place_logical hl]
          exact ⟨rfl, rfl⟩
    | false =>
        rw [PedDisk.place_top hl]
        exact ⟨rfl, rfl⟩
  · simp [hmode] at hno

/-- **Adding a partition that has been read** links it in where it is, or refuses it. -/
theorem Calm.load (h : Calm label env s.disk) (hclobber : s.disk.needsClobber = true)
    (hload : Loadable label env s.disk part num)
    {P : Bool → List PedException → Session π δ → Prop}
    (hplaced : ∀ t, Spec E (diskPopUpdateMode label.allocMetadata env)
      ⟨(s.disk.strip.withMode 1).place { part with num := num }, t⟩ fun _ s' => P true t s')
    (hleft : ∀ t, Spec E (diskPopUpdateMode label.allocMetadata env)
      ⟨s.disk.strip.withMode 1, t⟩ fun _ s' => P false t s') :
    Spec E (pedDiskAddPartition label env part (some c)) s fun r s' =>
      (r.1 = true → r.2 = { part with num := num }) ∧ ∃ t, P r.1 t s' ∧
        (Undisputed label env s.disk part num c → r.1 = true ∧ t = s.thrown) ∧
        (IgnoresFrom env s.thrown.length → part.isExtended = false → r.1 = true) ∧
        s.thrown.length ≤ t.length := by
  have hparent : part.type.logical = true →
      (pedDiskExtendedPartition (s.disk.strip.withMode 1)).isSome = true := fun hl =>
    (pedDiskExtendedPartition_core s.disk).symm ▸ hload.sane.parent hl
  obtain ⟨limits, hlimits⟩ : ∃ limits, overlapLimits (s.disk.strip.withMode 1) part = .ok limits := by
    unfold overlapLimits
    cases hl : part.type.logical with
    | false => exact ⟨_, if_neg (by simp)⟩
    | true =>
        obtain ⟨ext, hx⟩ := Option.isSome_iff_exists.mp (hparent hl)
        rw [hx]
        exact ⟨_, if_pos rfl⟩
  obtain ⟨overlap, hoverlap, -⟩ :=
    partitionGetOverlapConstraint_total part.geom (by simp) hlimits
  refine h.add hload.id_ne ?_
  rw [spec_of_ok (partitionCheckBasicSanity_pass hload.sane)]
  simp only [if_true]
  rw [addPartitionAlignIfActive, if_pos hload.active]
  unfold addPartitionAlign
  refine Spec.bind (spec_lift.mpr ⟨fun overlap' hoverlap' => ?_, fun _ hf => ?_⟩)
  · cases hoverlap.symm.trans hoverlap'
    refine Spec.seq (resolveOverlap_load.mono (fun _ => False.elim) fun _ _ h => h)
      fun r t hasked => ?_
    obtain ⟨hquiet, hignore, hlen⟩ := hasked
    cases r with
    | none =>
        refine (hleft t).imp fun _ s' hs' =>
          ⟨fun hno => absurd hno (by simp), t, hs', fun hund => ?_, fun hall _ => ?_, hlen⟩
        · obtain ⟨overlap', k, hoverlap', hk⟩ := hund.gap
          cases hoverlap.symm.trans hoverlap'
          exact absurd (hquiet k hk).1 (by simp)
        · exact absurd (hignore hall) (by simp)
    | some constraint =>
        refine Spec.bind ((spec_of_ok (hload.enumerate t)).mpr ?_)
        have halign : partitionAlign label.toPedDiskOps env (s.disk.strip.withMode 1)
            { part with num := num } constraint t = .ok ((true, part.geom), t) := by
          have hnum : (decide (num ≠ -1)) = true := by simpa using hload.num_ne
          have hclob : (s.disk.strip.withMode 1).needsClobber = true := hclobber
          unfold partitionAlign
          simp only [pedAssert, hnum, hclob, if_true]
          rfl
        simp only [Bool.not_true, Bool.false_eq_true, if_false]
        refine Spec.bind ((spec_of_ok halign).mpr ?_)
        change Spec _ (checkPartition _ _ _ _) t _
        have hparent' : ({ part with num := num } : PedPartition π).type.logical = true →
            (pedDiskExtendedPartition (s.disk.strip.withMode 1)).isSome = true := hparent
        refine (checkPartition_load hparent' hload.check).mono (fun _ => False.elim)
          fun ok t' hchecked => ?_
        obtain ⟨hacc, hign, hlen'⟩ := hchecked
        cases ok with
        | false =>
            refine (hleft t').imp fun _ s' hs' =>
              ⟨fun hno => absurd hno (by simp), t', hs', fun hund => ?_, fun hall hext => ?_,
                hlen.trans hlen'⟩
            · exact absurd (hacc hund.acceptable).1 (by simp)
            · exact absurd (hign (hall.mono hlen) hext) (by simp)
        | true =>
            have hraw : diskRawAdd { part with num := num } ⟨s.disk.strip.withMode 1, t'⟩
                = .ok (true, ⟨(s.disk.strip.withMode 1).place { part with num := num }, t'⟩) :=
              diskRawAdd_total (by simp) hload.find?_none hparent'
            rw [if_pos rfl, spec_of_ok hraw]
            refine (hplaced t').imp fun _ s' hs' => ⟨fun _ => rfl, t', hs', fun hund => ?_,
              fun _ _ => rfl, hlen.trans hlen'⟩
            obtain ⟨overlap', k, hoverlap', hk⟩ := hund.gap
            cases hoverlap.symm.trans hoverlap'
            exact ⟨rfl, (hacc hund.acceptable).2.trans (hquiet k hk).2⟩
  · rw [hoverlap] at hf
    cases hf

end Load

/-! ## Starting over

When reading fails, what has been added is deleted again, by `ped_disk_delete_all`.  All
of that takes place inside update mode, where no placeholders are allocated. -/

/-- Taking a partition out and renumbering keeps `I`. -/
def Shrinkable (label : PedDiskType π δ) (env : Env) (E : Fault → Prop) (I : PedDisk π δ → Prop) :
    Prop :=
  ∀ c id part, I c → c.find? id = some part → (part.isExtended = true → c.logicals = []) →
    Renumbers label env E Unnumbered (· = diskRawRemove c id) I

section Emptying

variable {label : PedDiskType π δ} {env : Env} {E : Fault → Prop} {I : PedDisk π δ → Prop}
  {s : Session π δ} {n id : ℕ} {part : PedPartition π}

theorem At.push_nested (h : At Unnumbered I (n + 1) s) :
    Spec E (diskPushUpdateMode label.toPedDiskOps env) s fun ok s' => ok = true ∧
      s' = { s with disk := s.disk.withMode (n + 2) } := by
  have hne : s.disk.updateMode ≠ 0 := by rw [h.mode]; exact Nat.succ_ne_zero n
  unfold Spec
  rw [diskPushUpdateMode_nested hne]
  exact ⟨rfl, by simp [h.mode]⟩

theorem pop_nested (hmode : s.disk.updateMode = n + 2) :
    Spec E (diskPopUpdateMode label.allocMetadata env) s fun ok s' => ok = true ∧
      s' = { s with disk := s.disk.withMode (n + 1) } := by
  unfold Spec
  rw [diskPopUpdateMode_nested (by omega)]
  exact ⟨rfl, by simp [hmode]⟩

theorem At.withMode (h : At Unnumbered I (n + 1) s) (m : ℕ) :
    At Unnumbered I (m + 1) { s with disk := s.disk.withMode (m + 1) } :=
  At.of_clean (by simpa using h.table) rfl
    ((PedDisk.each_withMode _ _).mpr (h.clean (Nat.succ_ne_zero n)))

/-- Removing a partition inside update mode. -/
theorem At.remove_nested (h : At Unnumbered I (n + 1) s) (hI : Shrinkable label env E I)
    (hfind : s.disk.core.find? id = some part)
    (hext : part.isExtended = true → s.disk.core.logicals = []) :
    Spec E (pedDiskRemovePartition label env id) s fun _ s' => At Unnumbered I (n + 1) s' ∧
      s'.disk.core.unnumbered = (diskRawRemove s.disk.core id).unnumbered := by
  have hclean := h.clean (Nat.succ_ne_zero n)
  unfold pedDiskRemovePartition
  refine h.push_nested.seq ?_
  rintro _ _ ⟨rfl, rfl⟩
  have hfind' : (s.disk.withMode (n + 2)).find? id = some part := by
    rw [← hfind, PedDisk.find?_core]
    rfl
  have hlookup : lookup id { s with disk := s.disk.withMode (n + 2) }
      = .ok (part, { s with disk := s.disk.withMode (n + 2) }) := by
    refine Spec.eq_ok ?_
    unfold lookup
    simp only [spec_bind, spec_getDisk]
    rw [hfind']
    exact ⟨rfl, rfl⟩
  simp only [Bool.not_true, Bool.false_eq_true, if_false]
  refine Spec.bind ((spec_of_ok hlookup).mpr ?_)
  simp only [spec_bind, spec_getDisk, spec_assertThat, spec_modifyDisk]
  refine ⟨fun _ => ?_, fun hno => ?_⟩
  · refine (pop_nested rfl).imp ?_
    rintro _ _ ⟨rfl, rfl⟩
    have hcore : ((diskRawRemove (s.disk.withMode (n + 2)) id).withMode (n + 1)).core
        = diskRawRemove s.disk.core id := by
      rw [PedDisk.core_withMode, core_diskRawRemove, PedDisk.core_withMode]
    have hclean' : ((diskRawRemove (s.disk.withMode (n + 2)) id).withMode (n + 1)).Clean :=
      (PedDisk.each_withMode _ _).mpr
        (PedDisk.Each.diskRawRemove ((PedDisk.each_withMode _ _).mpr hclean))
    have hat : At Unnumbered (· = diskRawRemove s.disk.core id) (n + 1)
        ⟨(diskRawRemove (s.disk.withMode (n + 2)) id).withMode (n + 1), s.thrown⟩ :=
      At.of_clean hcore rfl hclean'
    simp only [Bool.not_true, Bool.false_eq_true, if_false]
    refine Spec.bind ((hat.enumerate (hI _ id part h.table hfind hext)).of_and
      pedDiskEnumeratePartitions_unnumbered fun _ s' hs' hnum => ⟨hs', ?_⟩)
    rw [← PedDisk.core_unnumbered, hnum, PedDisk.core_unnumbered, hcore]
  · have hlogicals : s.disk.logicals = s.disk.core.logicals := by
      have := congrArg PedDisk.logicals h.disk_eq
      exact this
    cases hx : part.isExtended with
    | false => simp [hx] at hno
    | true =>
        have hnil : (s.disk.withMode (n + 2)).logicals = [] := hlogicals.trans (hext hx)
        simp [hx, hnil] at hno

/-- What a table and a later one have in common when partitions have been taken out. -/
structure Emptied (before after : PedDisk π δ) (top logical : List ℕ → List ℕ) : Prop where
  top : after.partList.map (·.id) = top (before.partList.map (·.id))
  logical : after.logicals.map (·.id) = logical (before.logicals.map (·.id))
  clobber : after.needsClobber = before.needsClobber
  specific : after.diskSpecific = before.diskSpecific

theorem emptied_of_unnumbered {before after : PedDisk π δ}
    (h : after.unnumbered = (diskRawRemove before id).unnumbered) :
    Emptied before after (List.filter (· ≠ id)) (List.filter (· ≠ id)) := by
  have hids : ∀ l : List (PedPartition π),
      (l.map fun part => ({ part with num := 0 } : PedPartition π)).map (·.id) = l.map (·.id) :=
    fun l => by rw [List.map_map]; rfl
  have hfilter : ∀ l : List (PedPartition π),
      (l.filter fun part => part.id ≠ id).map (·.id) = (l.map (·.id)).filter (· ≠ id) := fun l => by
    rw [List.filter_map]
    rfl
  have htop := congrArg (fun d : PedDisk π δ => d.partList.map (·.id)) h
  have hlog := congrArg (fun d : PedDisk π δ => d.logicals.map (·.id)) h
  simp only [PedDisk.unnumbered, hids, diskRawRemove, hfilter] at htop hlog
  have hclobber : after.unnumbered.needsClobber = _ := congrArg PedDisk.needsClobber h
  have hspecific : after.unnumbered.diskSpecific = _ := congrArg PedDisk.diskSpecific h
  exact ⟨htop, hlog, hclobber, hspecific⟩

theorem WellLinked.find?_of_mem (h : WellLinked s.disk.core) (hpart : s.disk.core.Has part) :
    s.disk.core.find? part.id = some part := by
  have hact : part.isActive = true := by
    rcases hpart with hp | hp <;> exact (List.mem_filter.mp hp).2
  cases hfind : s.disk.core.find? part.id with
  | none =>
      have := List.find?_eq_none.mp hfind part (List.mem_append.mpr hpart)
      simp [hact] at this
  | some other =>
      obtain ⟨hmem, -, hid⟩ := PedDisk.mem_of_find? hfind
      rw [h.eq_of_id hmem hpart hid]

theorem At.deleteSimple_nested (h : At Unnumbered I (n + 1) s) (hI : Shrinkable label env E I)
    (hfind : s.disk.core.find? id = some part) (hext : part.isExtended = false) :
    Spec E (Libparted.deleteSimple label env id) s fun ok s' => ok = true ∧
      At Unnumbered I (n + 1) s' ∧
      Emptied s.disk.core s'.disk.core (List.filter (· ≠ id)) (List.filter (· ≠ id)) := by
  unfold Libparted.deleteSimple
  refine h.push_nested.seq ?_
  rintro _ _ ⟨rfl, rfl⟩
  simp only [Bool.not_true, Bool.false_eq_true, if_false]
  refine ((h.withMode (n + 1)).remove_nested hI (by simpa using hfind)
    (fun hx => absurd (hext.symm.trans hx) Bool.false_ne_true)).seq fun _ s₁ ⟨h₁, hnum⟩ => ?_
  refine (pop_nested h₁.mode).seq ?_
  rintro _ _ ⟨rfl, rfl⟩
  refine ⟨rfl, h₁.withMode n, ?_⟩
  have := emptied_of_unnumbered hnum
  simpa using this

theorem At.deleteAllLogical_nested (hI : Shrinkable label env E I)
    (hlinks : ∀ c, I c → WellLinked c) (l : List (PedPartition π)) (h : At Unnumbered I (n + 1) s)
    (hl : s.disk.core.logicals.map (·.id) = l.map (·.id)) :
    Spec E (pedDiskDeleteAllLogical label env l) s fun _ s' => At Unnumbered I (n + 1) s' ∧
      Emptied s.disk.core s'.disk.core (fun l => l) fun _ => [] := by
  induction l generalizing s with
  | nil => exact ⟨h, ⟨rfl, hl, rfl, rfl⟩⟩
  | cons walk rest ih =>
      have hw := hlinks _ h.table
      obtain ⟨p, ps, hps, hid, hrest⟩ := List.map_eq_cons_iff.mp hl
      have hp : s.disk.core.Has p := Or.inr (hps ▸ List.mem_cons_self)
      have hext : p.isExtended = false := by
        have hlogical : p.type.logical = true := hw.leveled.2 p (hps ▸ List.mem_cons_self)
        cases hx : p.isExtended with
        | false => rfl
        | true => exact absurd (PedPartition.not_logical_of_isExtended hx) (by simp [hlogical])
      have hnodup := List.nodup_append.mp (List.map_append ▸ hw.nodup)
      unfold pedDiskDeleteAllLogical
      have hfind : s.disk.core.find? walk.id = some p := by
        simp only at hid
        rw [← hid]
        exact hw.find?_of_mem hp
      refine (h.deleteSimple_nested hI hfind hext).seq
        fun ok s₁ hdeleted => ?_
      obtain ⟨hok, h₁, hem⟩ := hdeleted
      subst hok
      have htop : s₁.disk.core.partList.map (·.id) = s.disk.core.partList.map (·.id) := by
        rw [hem.top]
        refine List.filter_eq_self.mpr fun x hx => ?_
        simpa using hnodup.2.2 x hx walk.id (by rw [hl]; exact List.mem_cons_self)
      have hlog : s₁.disk.core.logicals.map (·.id) = rest.map (·.id) := by
        rw [hem.logical, hl, List.map_cons, List.filter_cons_of_neg (by simp)]
        refine List.filter_eq_self.mpr fun x hx => ?_
        have hnd := hnodup.2.1
        rw [hl, List.map_cons, List.nodup_cons] at hnd
        have : x ≠ walk.id := fun heq => hnd.1 (heq ▸ hx)
        simpa using this
      refine (ih h₁ hlog).imp fun _ s₂ hrest => ?_
      obtain ⟨h₂, hem₂⟩ := hrest
      refine ⟨h₂, ?_, hem₂.logical,
        hem₂.clobber.trans hem.clobber, hem₂.specific.trans hem.specific⟩
      rw [hem₂.top]
      exact htop

/-- Deleting a partition inside update mode, with what is inside it. -/
theorem At.delete_nested (hI : Shrinkable label env E I) (hlinks : ∀ c, I c → WellLinked c)
    (h : At Unnumbered I (n + 1) s) (hpart : part ∈ s.disk.core.partList) :
    Spec E (pedDiskDeletePartition label env part.id) s fun ok s' => ok = true ∧
      At Unnumbered I (n + 1) s' ∧ ∃ f, Emptied s.disk.core s'.disk.core
        (List.filter (· ≠ part.id)) f := by
  have hfind := (hlinks _ h.table).find?_of_mem (Or.inl hpart)
  -- what is left to do once the partition has nothing inside it
  have hrest : ∀ (s₁ : Session π δ) (p : PedPartition π), At Unnumbered I (n + 2) s₁ →
      s₁.disk.core.find? part.id = some p →
      (p.isExtended = true → s₁.disk.core.logicals = []) → Spec E (do
      let _ ← pedDiskRemovePartition label env part.id
      if !(← diskPopUpdateMode label.allocMetadata env) then
        return false
      return true) s₁ fun ok s' => ok = true ∧ At Unnumbered I (n + 1) s' ∧
        Emptied s₁.disk.core s'.disk.core (List.filter (· ≠ part.id))
          (List.filter (· ≠ part.id)) := by
    intro s₁ p h₁ hp hx
    refine (h₁.remove_nested hI hp hx).seq fun _ s₂ hremoved => ?_
    obtain ⟨h₂, hnum⟩ := hremoved
    refine (pop_nested h₂.mode).seq ?_
    rintro _ _ ⟨rfl, rfl⟩
    refine ⟨rfl, h₂.withMode n, ?_⟩
    simpa using emptied_of_unnumbered hnum
  unfold pedDiskDeletePartition
  refine h.push_nested.seq ?_
  rintro _ _ ⟨rfl, rfl⟩
  have h₁ := h.withMode (n + 1)
  have hlookup : lookup part.id { s with disk := s.disk.withMode (n + 2) }
      = .ok (part, { s with disk := s.disk.withMode (n + 2) }) := by
    refine Spec.eq_ok ?_
    unfold lookup
    simp only [spec_bind, spec_getDisk]
    have : (s.disk.withMode (n + 2)).find? part.id = some part := by
      rw [← hfind, PedDisk.find?_core]
      rfl
    rw [this]
    exact ⟨rfl, rfl⟩
  simp only [Bool.not_true, Bool.false_eq_true, if_false]
  refine Spec.bind ((spec_of_ok hlookup).mpr ?_)
  refine Spec.ite (fun hx => ?_) fun hx => ?_
  · refine Spec.bind (spec_getDisk.mpr ?_)
    have hlogs : (s.disk.withMode (n + 2)).core.logicals.map (·.id)
        = (s.disk.withMode (n + 2)).logicals.map (·.id) := by
      have := congrArg PedDisk.logicals h₁.disk_eq
      exact congrArg (List.map _) this.symm
    refine (At.deleteAllLogical_nested hI hlinks _ h₁ hlogs).seq fun _ s₂ hdeleted => ?_
    obtain ⟨h₂, hem⟩ := hdeleted
    have hmem : ∃ p ∈ s₂.disk.core.partList, p.id = part.id := by
      have : part.id ∈ s₂.disk.core.partList.map (·.id) := by
        rw [hem.top]
        simpa using ⟨part, hpart, rfl⟩
      simpa using this
    obtain ⟨p, hp, hid⟩ := hmem
    refine (hrest s₂ p h₂ (hid ▸ (hlinks _ h₂.table).find?_of_mem (Or.inl hp))
      fun _ => List.map_eq_nil_iff.mp hem.logical).imp fun ok s₃ hemptied => ?_
    obtain ⟨hok, h₃, hem₃⟩ := hemptied
    refine ⟨hok, h₃, fun _ => [], ?_⟩
    refine ⟨?_, ?_, hem₃.clobber.trans hem.clobber, hem₃.specific.trans hem.specific⟩
    · rw [hem₃.top, hem.top]
      simp
    · rw [hem₃.logical, hem.logical]
      rfl
  · refine (hrest _ part h₁ (by simpa using hfind) fun hx' => absurd hx' hx).imp
      fun ok s₃ hemptied => ?_
    obtain ⟨hok, h₃, hem₃⟩ := hemptied
    refine ⟨hok, h₃, List.filter (· ≠ part.id), ?_⟩
    simpa using hem₃

theorem At.deleteEach_nested (hI : Shrinkable label env E I) (hlinks : ∀ c, I c → WellLinked c)
    (l : List (PedPartition π)) (h : At Unnumbered I (n + 1) s)
    (hl : s.disk.core.partList.map (·.id) = l.map (·.id)) :
    Spec E (deleteEach label env l) s fun ok s' => ok = true ∧ At Unnumbered I (n + 1) s' ∧
      ∃ f, Emptied s.disk.core s'.disk.core (fun _ => []) f := by
  induction l generalizing s with
  | nil => exact ⟨rfl, h, fun l => l, hl, rfl, rfl, rfl⟩
  | cons walk rest ih =>
      obtain ⟨p, ps, hps, hid, hrest⟩ := List.map_eq_cons_iff.mp hl
      have hnodup := (List.nodup_append.mp (List.map_append ▸ (hlinks _ h.table).nodup)).1
      unfold deleteEach
      simp only at hid
      rw [← hid]
      refine (At.delete_nested hI hlinks h (hps ▸ List.mem_cons_self)).seq
        fun ok s₁ ⟨hok, h₁, f, hem⟩ => ?_
      subst hok
      have htop : s₁.disk.core.partList.map (·.id) = rest.map (·.id) := by
        rw [hem.top, hps, List.map_cons, List.filter_cons_of_neg (by simp), ← hrest]
        refine List.filter_eq_self.mpr fun x hx => ?_
        rw [hps, List.map_cons, List.nodup_cons] at hnodup
        have : x ≠ p.id := fun heq => hnodup.1 (heq ▸ hx)
        simpa using this
      refine (ih h₁ htop).imp fun ok s₂ ⟨hok, h₂, g, hem₂⟩ => ⟨hok, h₂, g ∘ f, hem₂.top, ?_,
        hem₂.clobber.trans hem.clobber, hem₂.specific.trans hem.specific⟩
      rw [hem₂.logical, hem.logical]
      rfl

/-- **Deleting everything** leaves an empty disk, in update mode until the end. -/
theorem Calm.deleteAll (h : Calm label env s.disk) (hI : Shrinkable label env E I)
    (hlinks : ∀ c, I c → WellLinked c) (htable : I s.disk.core)
    {Q : Bool → Session π δ → Prop} (hpop : ∀ t, Spec E (diskPopUpdateMode label.allocMetadata env)
      ⟨{ s.disk with partList := [], logicals := [], updateMode := 1 }, t⟩ Q) :
    Spec E (pedDiskDeleteAll label env) s Q := by
  unfold pedDiskDeleteAll
  refine h.push.seq ?_
  rintro _ _ ⟨rfl, rfl⟩
  simp only [Bool.not_true, Bool.false_eq_true, if_false]
  refine Spec.bind (spec_getDisk.mpr ?_)
  have hcore : (s.disk.strip.withMode 1).core = s.disk.core := by
    rw [PedDisk.core_withMode, PedDisk.core, (PedDisk.clean_strip s.disk).strip_eq]
    rfl
  have h₁ : At Unnumbered I 1 ⟨s.disk.strip.withMode 1, s.thrown⟩ :=
    At.of_clean (hcore.symm ▸ htable) rfl
      ((PedDisk.each_withMode _ _).mpr (PedDisk.clean_strip s.disk))
  refine (At.deleteEach_nested hI hlinks _ h₁ (by rw [hcore]; rfl)).seq
    fun ok s₂ hdeleted => ?_
  obtain ⟨hok, h₂, f, hem⟩ := hdeleted
  subst hok
  have htop : s₂.disk.core.partList = [] := List.map_eq_nil_iff.mp hem.top
  have hlog : s₂.disk.core.logicals = [] := by
    by_contra hne
    obtain ⟨ext, hext, -⟩ := (hlinks _ h₂.table).linked hne
    rw [htop] at hext
    exact absurd hext List.not_mem_nil
  have hdisk : s₂.disk = { s.disk with partList := [], logicals := [], updateMode := 1 } := by
    have hclob : s₂.disk.core.needsClobber = s.disk.needsClobber := hem.clobber
    have hspec : s₂.disk.core.diskSpecific = s.disk.diskSpecific := hem.specific
    have heq := h₂.disk_eq
    rw [heq]
    generalize s₂.disk.core = table at htop hlog hclob hspec
    obtain ⟨partList, logicals, mode, clobber, specific⟩ := table
    simp only at htop hlog hclob hspec
    subst htop hlog hclob hspec
    rfl
  have := hpop s₂.thrown
  rw [← hdisk] at this
  exact this

/-- On an empty disk nothing is deleted, and nothing asked. -/
theorem Calm.deleteAll_empty (h : Calm label env s.disk) (htop : s.disk.core.partList = [])
    (hlog : s.disk.core.logicals = []) {Q : Bool → Session π δ → Prop}
    (hpop : Spec E (diskPopUpdateMode label.allocMetadata env)
      ⟨{ s.disk with partList := [], logicals := [], updateMode := 1 }, s.thrown⟩ Q) :
    Spec E (pedDiskDeleteAll label env) s Q := by
  have hdisk : s.disk.strip.withMode 1
      = { s.disk with partList := [], logicals := [], updateMode := 1 } := by
    have htop' : s.disk.partList.filter PedPartition.isActive = [] := htop
    have hlog' : s.disk.logicals.filter PedPartition.isActive = [] := hlog
    simp only [PedDisk.strip, PedDisk.withMode, htop', hlog']
  unfold pedDiskDeleteAll
  refine h.push.seq ?_
  rintro _ _ ⟨rfl, rfl⟩
  simp only [Bool.not_true, Bool.false_eq_true, if_false]
  refine Spec.bind (spec_getDisk.mpr ?_)
  rw [hdisk]
  exact Spec.bind hpop

end Emptying

end Libparted
