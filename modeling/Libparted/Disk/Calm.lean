import Libparted.Disk.Client

/-!
# Calls on a disk whose numbers are in order

On a disk whose numbers the label leaves alone (`Calm`), entering update mode takes
the placeholders away and does nothing else: no question is asked and no number
changes.  What `ped_disk_add_partition` does is then known step by step, and the rules
below say it for any choice of faults: `Calm.add` reduces a statement about the whole
call to statements about the label's numbering and alignment, the checks, and the
allocation of placeholders when update mode is left.
-/

namespace Libparted

open Library

variable {π δ : Type}

/-- A disk outside update mode that renumbering leaves alone. -/
structure Calm (label : PedDiskType π δ) (env : Env) (disk : PedDisk π δ) : Prop where
  mode : disk.updateMode = 0
  links : WellLinked disk.core
  leveled : disk.Leveled
  padding : disk.Padding Unnumbered
  numbered : AllNumbered disk.core
  keeps : ∀ disk' : PedDisk π δ, disk'.core = disk.core → disk'.Padding Unnumbered →
    KeepsNumbers label.toPedDiskOps env disk'

section Calm

variable {label : PedDiskType π δ} {env : Env} {E : Fault → Prop} {s : Session π δ}

/-- Numbers in order make a disk calm. -/
theorem Numbers.calm {Numbered : PedDisk π δ → Prop} {Trusts : ℤ → Prop}
    {Carries : δ → PedPartition π → Prop} {F : Fault → Prop}
    (h : Numbers label env F Numbered Trusts Carries) {disk : PedDisk π δ}
    (hgood : Orderly Numbered disk.core) (hmode : disk.updateMode = 0) (hlev : disk.Leveled)
    (hpad : disk.Padding Unnumbered) : Calm label env disk where
  mode := hmode
  links := hgood.links
  leveled := hlev
  padding := hpad
  numbered := h.numbered _ hgood.nums
  keeps disk' hcore hpad' := h.keeps disk' (hcore ▸ hgood.links) hpad' (hcore ▸ hgood.nums)

/-! ## Update mode -/

theorem Calm.enumerate (h : Calm label env s.disk) {t : Session π δ}
    (hcore : t.disk.core = s.disk.core) (hpad : t.disk.Padding Unnumbered) :
    pedDiskEnumeratePartitions label.toPedDiskOps env t = .ok (true, t) :=
  pedDiskEnumeratePartitions_keep (hcore ▸ h.links) hpad (hcore ▸ h.numbered)
    (h.keeps t.disk hcore hpad)

theorem Calm.deleteMetadataLoop (h : Calm label env s.disk) (n : ℕ) {t : Session π δ}
    (hcore : t.disk.core = s.disk.core) (hpad : t.disk.Padding Unnumbered) :
    Spec E (deleteMetadataLoop label.toPedDiskOps env n) t fun _ t' => t'.thrown = t.thrown := by
  induction n generalizing t with
  | zero => rfl
  | succ n ih =>
      unfold Libparted.deleteMetadataLoop deleteMetadata enterNested leaveNested
      simp only [spec_bind, spec_modifyDisk, PedDisk.updateMode_withMode,
        PedDisk.withMode_withMode, PedDisk.unlinkFirstMetadata_withMode]
      rw [spec_of_ok (h.enumerate (by simpa using hcore)
        ((PedDisk.each_withMode _ _).mpr hpad.unlinkFirstMetadata))]
      exact ih (by simpa using hcore)
        ((PedDisk.each_withMode _ _).mpr ((PedDisk.each_withMode _ _).mpr hpad.unlinkFirstMetadata))

/-- **Entering update mode** takes the placeholders away, and nothing else happens. -/
theorem Calm.push (h : Calm label env s.disk) :
    Spec E (diskPushUpdateMode label.toPedDiskOps env) s fun ok s' =>
      ok = true ∧ s' = { s with disk := s.disk.strip.withMode 1 } := by
  have hdisk : Spec (fun _ => False) (diskPushUpdateMode label.toPedDiskOps env) s fun ok s' =>
      ok = true ∧ s'.disk = s.disk.strip.withMode 1 := by
    refine (diskPushUpdateMode_spec (I := (· = s.disk.core)) (fun t ht hpad => ?_)
      (Or.inl h.leveled) (fun hne => absurd h.mode hne) rfl h.padding).imp ?_
    · rw [spec_of_ok (h.enumerate ht hpad)]
      exact ⟨ht, hpad⟩
    · rintro ok s' ⟨hok, hcore, hmode, hclean, -⟩
      refine ⟨hok, ?_⟩
      rw [hclean.eq_core, hcore, hmode, h.mode]
      rfl
  have hthrown : Spec (fun _ => True) (diskPushUpdateMode label.toPedDiskOps env) s
      fun _ s' => s'.thrown = s.thrown := by
    unfold diskPushUpdateMode diskRemoveMetadata enterNested
    simp only [spec_bind, spec_getDisk]
    refine Spec.ite (fun _ => ?_) fun hne => absurd h.mode hne
    simp only [spec_bind, spec_getDisk]
    refine spec_sanity (Or.inr fun _ _ => trivial) ?_
    simp only [spec_modifyDisk]
    refine (h.deleteMetadataLoop _ (by simp)
      ((PedDisk.each_withMode _ _).mpr h.padding.diskRemoveFreespace)).imp fun _ t ht => ?_
    exact spec_sanity (Or.inr fun _ _ => trivial) ht
  refine (hdisk.and hthrown).mono (fun _ => False.elim) ?_
  rintro ok ⟨disk, thrown⟩ ⟨⟨hok, hdisk⟩, hthrown⟩
  exact ⟨hok, by rw [← hdisk, ← hthrown]⟩

/-- Leaving update mode ends with a check. -/
theorem diskPopUpdateMode_sane {alloc : Env → DiskM π δ Bool} (hmode : s.disk.updateMode = 1) :
    Spec (fun _ => True) (diskPopUpdateMode alloc env) s fun ok s' =>
      ok = true ∧ diskCheckSanity s'.disk = .ok () := by
  unfold diskPopUpdateMode leaveNested
  simp only [spec_bind, spec_getDisk, spec_assertThat]
  refine ⟨fun _ => ?_, fun _ => trivial⟩
  rw [if_pos hmode]
  simp only [spec_bind, spec_getDisk]
  refine Spec.lift (fun _ _ => trivial) fun _ _ => ?_
  rw [spec_iff]
  refine ⟨fun _ t _ => ?_, fun _ _ => trivial⟩
  exact Spec.lift (fun _ _ => trivial) fun _ hsane => ⟨rfl, hsane⟩

/-! ## Adding -/

/-- What follows once a partition has been aligned: it is checked and placed, or left
off, and update mode is left. -/
def Concludes (E : Fault → Prop) (label : PedDiskType π δ) (env : Env) (disk : PedDisk π δ)
    (Q : Bool × PedPartition π → Session π δ → Prop) (r : Bool × PedPartition π)
    (thrown : List PedException) : Prop :=
  if r.1 then
    Spec E (checkPartition label.toPedDiskOps env disk r.2) thrown fun ok t =>
      if ok then
        Spec E (diskRawAdd r.2) ⟨disk, t⟩ fun _ s₂ =>
          Spec E (diskPopUpdateMode label.allocMetadata env) s₂ fun _ s₃ => Q (true, r.2) s₃
      else Spec E (diskPopUpdateMode label.allocMetadata env) ⟨disk, t⟩
        fun _ s₃ => Q (false, r.2) s₃
  else Spec E (diskPopUpdateMode label.allocMetadata env) ⟨disk, thrown⟩
    fun _ s₃ => Q (false, r.2) s₃

theorem diskRawAdd_keeps {part : PedPartition π} :
    Spec (fun _ => True) (diskRawAdd part) s fun ok s' => ok = true ∧
      s'.disk.updateMode = s.disk.updateMode :=
  diskRawAdd_spec trivial (fun _ => trivial) fun _ => ⟨rfl, (place_rest s.disk part).2⟩

/-- **Adding a partition**, step by step: the first checks on the disk as it is, the
label's numbering and alignment on the disk without placeholders, and the rest. -/
theorem Calm.add {part : PedPartition π} {constraint : Option PedConstraint}
    {Q : Bool × PedPartition π → Session π δ → Prop} (h : Calm label env s.disk)
    (hid : part.id ≠ 0)
    (hadd : Spec E (partitionCheckBasicSanity label.toPedDiskOps env s.disk part) s.thrown
      fun ok t =>
        if ok then
          Spec E (addPartitionAlignIfActive label.toPedDiskOps env (s.disk.strip.withMode 1) part
            constraint) t (Concludes E label env (s.disk.strip.withMode 1) Q)
        else Q (false, part) { s with thrown := t }) :
    Spec E (pedDiskAddPartition label env part constraint) s Q := by
  have hpop : ∀ (part : PedPartition π) (s₂ : Session π δ), s₂.disk.updateMode = 1 →
      Spec E (diskPopUpdateMode label.allocMetadata env) s₂ (fun _ s₃ => Q (true, part) s₃) →
      Spec E (do
        if !(← diskPopUpdateMode label.allocMetadata env) then
          return (false, part)
        liftM (diskCheckSanity (← getDisk))
        return (true, part)) s₂ Q := by
    intro part s₂ hmode hspec
    refine Spec.bind (hspec.of_and (diskPopUpdateMode_sane hmode) fun ok s₃ hQ hsane => ?_)
    obtain ⟨rfl, hsane⟩ := hsane
    simp only [Bool.not_true, Bool.false_eq_true, if_false, spec_bind, spec_getDisk, spec_pure]
    rw [spec_lift, hsane]
    exact ⟨fun _ _ => hQ, by simp⟩
  unfold pedDiskAddPartition
  simp only [spec_bind, spec_assertThat]
  refine ⟨fun _ => ?_, fun hno => absurd hid (by simpa using hno)⟩
  unfold addPartitionWith
  refine Spec.bind (spec_getDisk.mpr (Spec.bind (spec_ask.mpr (hadd.imp fun ok t ht => ?_))))
  cases ok with
  | false => exact ht
  | true =>
      refine Spec.seq (Calm.push (s := ⟨s.disk, t⟩) h) ?_
      rintro _ _ ⟨rfl, rfl⟩
      simp only [Bool.not_true, Bool.false_eq_true, if_false]
      unfold addPartitionPlace
      simp only [spec_bind, spec_getDisk]
      rw [spec_ask]
      refine Spec.imp ht fun r t hr => ?_
      obtain ⟨ok, part'⟩ := r
      unfold Concludes at hr
      cases ok with
      | false =>
          simp only [Bool.false_eq_true, if_false] at hr
          exact Spec.bind (hr.imp fun _ _ hQ => hQ)
      | true =>
          simp only [if_true] at hr
          simp only [Bool.not_true, Bool.false_eq_true, if_false, spec_bind]
          rw [spec_ask]
          refine hr.imp fun ok t hok => ?_
          cases ok with
          | false =>
              simp only [Bool.false_eq_true, if_false] at hok
              exact Spec.bind (hok.imp fun _ _ hQ => hQ)
          | true =>
              simp only [if_true] at hok
              refine Spec.bind (hok.of_and diskRawAdd_keeps fun ok s₂ hs₂ hkeeps => ?_)
              obtain ⟨rfl, hmode⟩ := hkeeps
              exact hpop part' s₂ hmode hs₂

end Calm

/-! ## Partitions that pass the checks -/

/-- A new partition to which `_check_partition` has no objection. -/
structure Acceptable (ops : PedDiskOps π δ) (env : Env) (disk : PedDisk π δ)
    (part : PedPartition π) : Prop where
  active : part.isActive = true
  extended : part.isExtended = true → pedDiskExtendedPartition disk = none
  logical : part.type.logical = true → ∃ ext, pedDiskExtendedPartition disk = some ext ∧
    pedGeometryTestInside ext.geom part.geom = true
  primary : part.type.logical = false → ∀ ext, pedDiskExtendedPartition disk = some ext →
    pedGeometryTestInside ext.geom part.geom = false
  inside : part.geom.end < env.dev.length
  label : ∀ thrown, ops.partitionCheck env disk part thrown = .ok (true, thrown)

section Check

variable {ops : PedDiskOps π δ} {env : Env} {disk : PedDisk π δ} {part : PedPartition π}
  {thrown : List PedException}

theorem Acceptable.checkIfExtended (h : Acceptable ops env disk part) :
    checkIfExtended env disk part thrown = .ok (true, thrown) := by
  unfold Libparted.checkIfExtended
  split
  · rename_i hext
    unfold checkExtendedPartition
    rw [h.extended hext]
    simp only [ne_eq, not_true_eq_false, if_false, List.any_nil, Bool.false_eq_true]
    rfl
  · rfl

theorem Acceptable.placementObjections (h : Acceptable ops env disk part) :
    placementObjections env disk part = .ok [] := by
  have hend : ¬ part.geom.end ≥ env.dev.length := not_le.mpr h.inside
  unfold Libparted.placementObjections outsideExtended
  cases hlogical : part.type.logical with
  | true =>
      obtain ⟨ext, hext, hin⟩ := h.logical hlogical
      simp [hext, hin, hend]
  | false =>
      cases hext : pedDiskExtendedPartition disk with
      | none => simp [hend]
      | some ext => simp [hend, h.primary hlogical ext hext]

/-- **The checks let it through**, without a question. -/
theorem Acceptable.check (h : Acceptable ops env disk part) :
    checkPartition ops env disk part thrown = .ok (true, thrown) := by
  have hmeta : part.type.metadata = false := by
    have := h.active
    simp only [PedPartition.isActive, Bool.not_eq_true', Bool.or_eq_false_iff] at this
    exact this.2
  unfold checkPartition
  simp only [bind, StateT.bind, h.checkIfExtended, Except.bind, Bool.not_true, Bool.false_eq_true,
    if_false, liftM, monadLift, MonadLift.monadLift, StateT.lift, h.placementObjections, pure,
    Except.pure, allIgnored, StateT.pure, hmeta, h.label]

end Check

end Libparted
