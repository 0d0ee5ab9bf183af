import Libparted.Arch.Kernel
import Libparted.Labels.Dos.Label

/-!
# When the kernel ends up with the table on the disk

Seen from one partition number, synchronisation has two moments.  In the first pass
the kernel's partition of that number is removed or stays (`keptGeom`).  In the
second it is resized or added, and that is refused exactly when the new range runs
into a range the kernel has at that moment: a range of the new table for the numbers
before, which is harmless as the new table does not overlap, and the *old* range of a
partition that stayed for the numbers behind (`Syncable`).

The main result, `diskSyncPartTable_converges_iff`, says that the kernel gets the
table, silently, exactly when no partition meets such an old range.
-/

namespace Libparted

open Library

variable {π δ : Type}

/-! ## Tables without an extended partition -/

/-- The partitions do not overlap, none of them is an extended one, and placeholders
have no number. -/
structure FlatTable (disk : PedDisk π δ) : Prop where
  plain : ∀ part ∈ disk.partList, part.type.extended = false
  placeholders : ∀ part ∈ disk.partList, part.isActive = false → part.num = -1
  apart : ∀ part ∈ disk.partList, ∀ other ∈ disk.partList, part.isActive = true →
    other.isActive = true → part.num ≠ other.num → ¬ part.geom.Overlaps other.geom

/-- The region the table gives to a number. -/
def tableGeom (disk : PedDisk π δ) (n : ℕ) : Option PedGeometry :=
  (pedDiskGetPartition disk n).map PedPartition.geom

section Table

variable {disk : PedDisk π δ} {part other : PedPartition π} {i j : ℕ}

theorem num_of_getPartition (h : pedDiskGetPartition disk i = some part) : part.num = i := by
  have hsome := List.find?_some h
  simp only [Bool.and_eq_true, decide_eq_true_eq] at hsome
  exact hsome.1

theorem FlatTable.mem (hflat : FlatTable disk) (h : pedDiskGetPartition disk i = some part) :
    part ∈ disk.partList ∧ part.isActive = true := by
  have hsplice : ∀ l : List (PedPartition π), (∀ part ∈ l, part.type.extended = false) →
      PedDisk.spliceLogicals disk.logicals l = l := by
    intro l hl
    induction l with
    | nil => rfl
    | cons q rest ih =>
        have hq : ¬ q.isExtended = true := by
          intro hext
          have := hl q List.mem_cons_self
          simp only [PedPartition.isExtended, beq_iff_eq] at hext
          simp [hext, PedPartitionType.ofExtended] at this
        rw [PedDisk.spliceLogicals, if_neg hq, ih fun p hp => hl p (List.mem_cons_of_mem _ hp)]
  have hmem : part ∈ disk.traverse := List.mem_of_find?_eq_some h
  rw [PedDisk.traverse, hsplice _ hflat.plain] at hmem
  refine ⟨hmem, Bool.of_not_eq_false fun hact => ?_⟩
  have hnum := hflat.placeholders part hmem hact
  rw [num_of_getPartition h] at hnum
  omega

theorem FlatTable.not_overlaps (hflat : FlatTable disk)
    (hi : pedDiskGetPartition disk i = some part) (hj : pedDiskGetPartition disk j = some other)
    (hne : i ≠ j) : ¬ part.geom.Overlaps other.geom := by
  refine hflat.apart part (hflat.mem hi).1 other (hflat.mem hj).1 (hflat.mem hi).2
    (hflat.mem hj).2 ?_
  rw [num_of_getPartition hi, num_of_getPartition hj]
  omega

theorem FlatTable.linuxPart_eq (hflat : FlatTable disk) (dev : PedDevice)
    (h : pedDiskGetPartition disk i = some part) : linuxPart dev disk part = part.geom := by
  rw [linuxPart, hflat.plain part (hflat.mem h).1]
  rfl

end Table

/-! ## The first pass -/

/-- What the first pass leaves under a number. -/
def keptGeom (limits : SyncLimits) (disk : PedDisk π δ) (kernel : Kernel) (n : ℕ) :
    Option PedGeometry :=
  match pedDiskGetPartition disk n with
  | none => none
  | some part => (kernel.parts.lookup n).filter (staysForAdding limits part)

section Remove

variable {limits : SyncLimits} {disk : PedDisk π δ} {kernel : Kernel} {s : Sync} {i j n : ℕ}
  {E : Fault → Prop} {old : PedGeometry}

theorem spec_blkpgPartCommand {command : Kernel → Except Errno Kernel}
    {Q : Option Errno → Sync → Prop}
    (hok : ∀ kernel, command s.kernel = .ok kernel → Q none { s with kernel := kernel })
    (herr : ∀ e, command s.kernel = .error e → Q (some e) s) :
    Spec E (blkpgPartCommand command) s Q := by
  unfold Spec blkpgPartCommand
  cases h : command s.kernel with
  | ok kernel => exact hok kernel h
  | error e => exact herr e h

theorem spec_setOk {value : Bool} {Q : Unit → Sync → Prop} :
    Spec E (setOk i value) s Q ↔ Q () { s with ok := Function.update s.ok i value } := Iff.rfl

theorem spec_setErrnum {value : Option Errno} {Q : Unit → Sync → Prop} :
    Spec E (setErrnum i value) s Q ↔
      Q () { s with errnums := Function.update s.errnums i value } := Iff.rfl

/-- Removing a partition that nobody uses: it is gone afterwards, and if there was
nothing to remove the error says so. -/
theorem spec_blkpgRemovePartition (hidle : s.kernel.inUse i = false)
    {Q : Option Errno → Sync → Prop}
    (hgone : s.kernel.parts.lookup i = none → Q (some .enxio) s)
    (hdel : Q none { s with kernel := { s.kernel with parts := s.kernel.parts.erase i } }) :
    Spec E (blkpgRemovePartition i) s Q := by
  refine spec_blkpgPartCommand (fun kernel h => ?_) fun e h => ?_
  all_goals
    unfold Kernel.delPartition at h
    rw [hidle] at h
    split at h
  · cases h
  · cases h
    exact hdel
  · rename_i hnone
    cases h
    exact hgone (Option.isNone_iff_eq_none.mp hnone)
  · cases h

/-- The outcome of the first loop for number `i`. -/
structure Cleared (limits : SyncLimits) (disk : PedDisk π δ) (i : ℕ) (s s' : Sync) : Prop where
  thrown : s'.thrown = s.thrown
  inUse : s'.kernel.inUse = s.kernel.inUse
  ok : s'.ok = Function.update s.ok i true
  lookup : ∀ j, s'.kernel.parts.lookup j
    = if j = i then keptGeom limits disk s.kernel i else s.kernel.parts.lookup j

theorem removeRetrying_spec (hidle : s.kernel.inUse i = false)
    (hdrop : keptGeom limits disk s.kernel i = none) (n : ℕ) :
    Spec E (do
      removeRetrying i n
      let s ← get
      if s.ok i = false ∧ s.errnums i = some .enxio then setOk i true) s
      fun _ s' => Cleared limits disk i s s' := by
  -- with nobody using the partition the first attempt is the last
  have hsame : Spec E (removeRetrying i n) s fun _ s' => s'.thrown = s.thrown ∧
      s'.kernel.inUse = s.kernel.inUse ∧ (∃ b, s'.ok = Function.update s.ok i b) ∧
      (s'.ok i = false → s'.errnums i = some .enxio) ∧
      ∀ j, s'.kernel.parts.lookup j = if j = i then none else s.kernel.parts.lookup j := by
    have hgone : s.kernel.parts.lookup i = none → ∀ j, s.kernel.parts.lookup j
        = if j = i then none else s.kernel.parts.lookup j := by
      intro hnone j
      split
      · rename_i hj
        rw [hj, hnone]
      · rfl
    cases n with
    | zero =>
        simp only [removeRetrying, spec_bind, spec_setOk, spec_setErrnum]
        refine spec_blkpgRemovePartition hidle (fun hnone => ?_) ?_
        · exact ⟨rfl, rfl, ⟨_, rfl⟩, by simp, hgone hnone⟩
        · exact ⟨rfl, rfl, ⟨_, rfl⟩, by simp, RangeMap.lookup_erase _ _⟩
    | succ n =>
        simp only [removeRetrying, spec_bind, spec_setOk, spec_setErrnum]
        refine spec_blkpgRemovePartition hidle (fun hnone => ?_) ?_
        · exact ⟨rfl, rfl, ⟨_, rfl⟩, by simp, hgone hnone⟩
        · exact ⟨rfl, rfl, ⟨_, rfl⟩, by simp, RangeMap.lookup_erase _ _⟩
  refine hsame.seq fun _ s₁ hremoved => ?_
  obtain ⟨hthrown, huse, ⟨b, hok⟩, herr, hlook⟩ := hremoved
  simp only [spec_bind, spec_get]
  have hlook' : ∀ j, s₁.kernel.parts.lookup j
      = if j = i then keptGeom limits disk s.kernel i else s.kernel.parts.lookup j := by
    simpa only [hdrop] using hlook
  refine Spec.ite (fun hboth => ?_) fun hnot => ?_
  · rw [spec_setOk]
    exact ⟨hthrown, huse, by rw [hok, Function.update_idem], hlook'⟩
  · refine ⟨hthrown, huse, ?_, hlook'⟩
    have hb : s₁.ok i = true := Bool.of_not_eq_false fun hf => hnot ⟨hf, herr hf⟩
    rw [hok, Function.update_self] at hb
    rw [hok, hb]

theorem removeOld_spec (hidle : s.kernel.inUse i = false) :
    Spec E (removeOld limits disk i) s fun _ s' => Cleared limits disk i s s' := by
  unfold removeOld
  cases hpart : pedDiskGetPartition disk i with
  | none => exact removeRetrying_spec hidle (by simp [keptGeom, hpart]) nSleep
  | some part =>
      have hnum : part.num.toNat = i := by rw [num_of_getPartition hpart]; rfl
      simp only [kernelGetPartitionStartAndLength, hnum, spec_bind, spec_get, spec_pure]
      cases hfound : s.kernel.parts.lookup i with
      | none =>
          exact removeRetrying_spec hidle (by simp [keptGeom, hpart, hfound]) nSleep
      | some found =>
          simp only
          have hkept : keptGeom limits disk s.kernel i
              = if staysForAdding limits part found then some found else none := by
            simp [keptGeom, hpart, hfound, Option.filter]
          refine Spec.ite (fun hstays => ?_) fun hgoes => ?_
          · rw [spec_setOk]
            refine ⟨rfl, rfl, rfl, fun j => ?_⟩
            split
            · rename_i hj
              rw [hj, hfound, hkept, if_pos hstays]
            · rfl
          · rw [if_neg hgoes] at hkept
            exact removeRetrying_spec hidle hkept nSleep

end Remove

/-! ## The second pass -/

/-- Resizing or adding partition `i` meets no old range that stayed: either there is
nothing to do, or none of the ranges that stay under higher numbers is in the way. -/
def Syncable (limits : SyncLimits) (dev : PedDevice) (disk : PedDisk π δ) (kernel : Kernel)
    (i : ℕ) : Prop :=
  ∀ part, pedDiskGetPartition disk i = some part → kernel.parts.lookup i ≠ some part.geom →
    dev.sectorSize % 512 = 0 ∧
      ∀ j old, i < j → keptGeom limits disk kernel j = some old → ¬ part.geom.Overlaps old

/-- The state before the second pass comes to number `i`: the numbers before are as on
the disk, the others as the first pass left them. -/
structure Reached (limits : SyncLimits) (disk : PedDisk π δ) (kernel : Kernel)
    (thrown : List PedException) (i : ℕ) (s : Sync) : Prop where
  done : ∀ j, 1 ≤ j → j < i → s.kernel.parts.lookup j = tableGeom disk j
  left : ∀ j, 1 ≤ j → i ≤ j → s.kernel.parts.lookup j = keptGeom limits disk kernel j
  zero : s.kernel.parts.lookup 0 = none
  ok : ∀ j, 1 ≤ j → j ≤ limits.removeUpTo → s.ok j = true
  thrown : s.thrown = thrown

/-- Something will be reported, or has been. -/
def Trouble (thrown : List PedException) (i : ℕ) (s : Sync) : Prop :=
  thrown.length < s.thrown.length ∨
    (thrown.length ≤ s.thrown.length ∧ s.ok i = false ∧ s.errnums i = some .ebusy)

section Add

variable {limits : SyncLimits} {env : Env} {disk : PedDisk π δ} {kernel : Kernel} {s : Sync}
  {thrown : List PedException} {i j : ℕ} {E : Fault → Prop} {part : PedPartition π}
  {old : PedGeometry}

theorem keptGeom_eq_some : keptGeom limits disk kernel j = some old ↔
    ∃ part, pedDiskGetPartition disk j = some part ∧ kernel.parts.lookup j = some old ∧
      staysForAdding limits part old = true := by
  unfold keptGeom
  cases pedDiskGetPartition disk j with
  | none => simp
  | some part => simp [Option.filter_eq_some_iff]

theorem staysForAdding_geom (limits : SyncLimits) (part : PedPartition π) :
    staysForAdding limits part part.geom = true := by
  simp [staysForAdding]

theorem eq_of_start_length {a b : PedGeometry} (hs : a.start = b.start)
    (hl : a.length = b.length) : a = b :=
  PedGeometry.ext_start_end hs (by rw [PedGeometry.end, PedGeometry.end, hs, hl])

/-- The new range is free exactly when it meets no range that stayed behind it. -/
theorem Reached.free_iff (h : Reached limits disk kernel thrown i s) (hflat : FlatTable disk)
    (hpart : pedDiskGetPartition disk i = some part) :
    s.kernel.parts.Free i part.geom ↔
      ∀ j old, i < j → keptGeom limits disk kernel j = some old → ¬ part.geom.Overlaps old := by
  rw [RangeMap.free_iff]
  constructor
  · intro hfree j old hij hkept
    exact hfree j old ((h.left j (by omega) (by omega)).trans hkept) (by omega)
  · intro hkept j b hb hne
    rcases Nat.lt_trichotomy j i with hlt | heq | hgt
    · rcases Nat.eq_zero_or_pos j with rfl | hpos
      · rw [h.zero] at hb
        cases hb
      · rw [h.done j hpos hlt] at hb
        obtain ⟨other, hother, rfl⟩ := Option.map_eq_some_iff.mp hb
        exact hflat.not_overlaps hpart hother hne.symm
    · exact absurd heq hne
    · exact hkept j b hgt ((h.left j (by omega) hgt.le).symm.trans hb)

/-- The step of the second pass, from a state that has the new range. -/
theorem Reached.step (h : Reached limits disk kernel thrown i s) {s' : Sync}
    (hlook : ∀ j, s'.kernel.parts.lookup j
      = if j = i then tableGeom disk i else s.kernel.parts.lookup j)
    (hok : ∀ j, s.ok j = true → s'.ok j = true) (hthrown : s'.thrown = s.thrown) (hi : 1 ≤ i) :
    Reached limits disk kernel thrown (i + 1) s' where
  done j hj hlt := by
    rw [hlook]
    split
    · rename_i heq
      rw [heq]
    · exact h.done j hj (by omega)
  left j hj hle := by
    rw [hlook, if_neg (by omega)]
    exact h.left j hj (by omega)
  zero := by
    rw [hlook, if_neg (by omega)]
    exact h.zero
  ok j hj hle := hok j (h.ok j hj hle)
  thrown := hthrown.trans h.thrown

theorem update_true {ok : ℕ → Bool} (h : ok j = true) : Function.update ok i true j = true := by
  by_cases hji : j = i
  · rw [hji, Function.update_self]
  · rwa [Function.update_of_ne hji]

theorem spec_assertSectorSize {dev : PedDevice} {Q : Unit → Sync → Prop}
    (hbad : ¬ dev.sectorSize % 512 = 0 → ∀ f, E f) (hok : dev.sectorSize % 512 = 0 → Q () s) :
    Spec E (assertSectorSize dev) s Q := by
  unfold assertSectorSize pedAssert
  by_cases hsize : dev.sectorSize % 512 = 0
  · refine Spec.lift (by simp [hsize]) fun _ _ => hok hsize
  · refine Spec.lift (fun f _ => hbad hsize f) fun _ h => ?_
    simp [hsize] at h

/-- What the second pass does for one number. -/
def Outcome (limits : SyncLimits) (dev : PedDevice) (disk : PedDisk π δ) (kernel : Kernel)
    (thrown : List PedException) (i : ℕ) (s : Sync) : Prop :=
  (Syncable limits dev disk kernel i → Reached limits disk kernel thrown (i + 1) s) ∧
    (¬ Syncable limits dev disk kernel i → Trouble thrown i s)

theorem Reached.syncable (h : Reached limits disk kernel thrown i s) (hflat : FlatTable disk)
    (hpart : pedDiskGetPartition disk i = some part) (hfree : s.kernel.parts.Free i part.geom)
    (hsize : env.dev.sectorSize % 512 = 0) : Syncable limits env.dev disk kernel i := by
  rintro part' hpart' -
  cases hpart.symm.trans hpart'
  exact ⟨hsize, (h.free_iff hflat hpart).mp hfree⟩

/-- The state after the kernel has taken the new range. -/
theorem Reached.step_put (h : Reached limits disk kernel thrown i s)
    (hpart : pedDiskGetPartition disk i = some part) (hfree : s.kernel.parts.Free i part.geom)
    (hi : 1 ≤ i) :
    Reached limits disk kernel thrown (i + 1)
      { s with kernel := { s.kernel with parts := s.kernel.parts.put i part.geom hfree } } := by
  refine h.step (fun j => ?_) (fun _ hj => hj) rfl hi
  rw [tableGeom, hpart]
  exact RangeMap.lookup_put hfree j

theorem Reached.not_syncable (h : Reached limits disk kernel thrown i s) (hflat : FlatTable disk)
    (hpart : pedDiskGetPartition disk i = some part)
    (hnew : kernel.parts.lookup i ≠ some part.geom)
    (hbad : ¬ (env.dev.sectorSize % 512 = 0 ∧ s.kernel.parts.Free i part.geom)) :
    ¬ Syncable limits env.dev disk kernel i := by
  intro hsync
  obtain ⟨hsize, hkept⟩ := hsync part hpart hnew
  exact hbad ⟨hsize, (h.free_iff hflat hpart).mpr hkept⟩

theorem addOrRecord_spec (h : Reached limits disk kernel thrown i s) (hflat : FlatTable disk)
    (hpart : pedDiskGetPartition disk i = some part)
    (hnew : kernel.parts.lookup i ≠ some part.geom) (habsent : s.kernel.parts.lookup i = none)
    (hi : 1 ≤ i) :
    Spec (fun _ => ¬ Syncable limits env.dev disk kernel i) (addOrRecord env disk part i) s
      fun _ s' => Outcome limits env.dev disk kernel thrown i s' := by
  have hnum : part.num.toNat = i := by rw [num_of_getPartition hpart]; rfl
  unfold addOrRecord blkpgAddPartition
  simp only [spec_bind]
  refine spec_assertSectorSize (fun hsize _ => ?_) fun hsize => ?_
  · exact h.not_syncable hflat hpart hnew fun hboth => hsize hboth.1
  rw [hnum, hflat.linuxPart_eq env.dev hpart]
  refine spec_blkpgPartCommand (fun k hk => ?_) fun e he => ?_
  · simp only [Kernel.addPartition, habsent, Option.isSome_none, Bool.false_eq_true,
      if_false] at hk
    split at hk
    · rename_i hfree
      cases hk
      exact ⟨fun _ => h.step_put hpart hfree hi,
        fun hnot => absurd (h.syncable hflat hpart hfree hsize) hnot⟩
    · cases hk
  · simp only [Kernel.addPartition, habsent, Option.isSome_none, Bool.false_eq_true,
      if_false] at he
    split at he
    · cases he
    · rename_i htaken
      cases he
      have hnot : ¬ Syncable limits env.dev disk kernel i :=
        h.not_syncable hflat hpart hnew fun hboth => htaken hboth.2
      exact ⟨fun hsync => absurd hsync hnot, fun _ => Or.inr ⟨by simp [h.thrown], by simp, by simp⟩⟩

/-- Exceptions stay on the list, and the arrays change at the own number only. -/
def Frame (i : ℕ) (s s' : Sync) : Prop :=
  s.thrown.length ≤ s'.thrown.length ∧
    ∀ j, j ≠ i → s'.ok j = s.ok j ∧ s'.errnums j = s.errnums j

theorem Frame.of_eq {s' : Sync} (hthrown : s.thrown.length ≤ s'.thrown.length)
    (hok : ∀ j, j ≠ i → s'.ok j = s.ok j) (herr : ∀ j, j ≠ i → s'.errnums j = s.errnums j) :
    Frame i s s' := ⟨hthrown, fun j hj => ⟨hok j hj, herr j hj⟩⟩

theorem Frame.trans {s₁ s₂ : Sync} (h : Frame i s s₁) (h' : Frame i s₁ s₂) : Frame i s s₂ :=
  ⟨h.1.trans h'.1, fun j hj => ⟨(h'.2 j hj).1.trans (h.2 j hj).1,
    (h'.2 j hj).2.trans (h.2 j hj).2⟩⟩

theorem Frame.refl (s : Sync) : Frame i s s := ⟨le_rfl, fun _ _ => ⟨rfl, rfl⟩⟩

theorem addOrRecord_frame (hE : ∀ f, E f) :
    Spec E (addOrRecord env disk part i) s fun _ s' => Frame i s s' := by
  unfold addOrRecord blkpgAddPartition
  simp only [spec_bind]
  refine spec_assertSectorSize (fun _ => hE) fun _ => ?_
  refine spec_blkpgPartCommand (fun k _ => ?_) fun e _ => ?_
  · exact Frame.refl s
  · exact Frame.of_eq le_rfl (fun j hj => Function.update_of_ne hj _ _)
      fun j hj => Function.update_of_ne hj _ _

theorem blkpgResizePartition_frame (hE : ∀ f, E f) :
    Spec E (blkpgResizePartition env disk part) s fun _ s' => Frame i s s' := by
  unfold blkpgResizePartition
  simp only [spec_bind]
  refine spec_assertSectorSize (fun _ => hE) fun _ => ?_
  refine spec_blkpgPartCommand (fun k _ => Frame.refl s) fun e _ => ?_
  exact Frame.of_eq (by simp) (fun _ _ => rfl) fun _ _ => rfl

theorem addNew_frame (hE : ∀ f, E f) :
    Spec E (addNew limits env disk i) s fun _ s' => Frame i s s' := by
  unfold addNew
  cases pedDiskGetPartition disk i with
  | none => exact Frame.refl s
  | some part =>
      simp only [kernelGetPartitionStartAndLength, spec_bind, spec_get, spec_pure]
      cases s.kernel.parts.lookup part.num.toNat with
      | none => exact addOrRecord_frame hE
      | some found =>
          refine Spec.ite (fun _ => ?_) fun _ => addOrRecord_frame hE
          refine Spec.ite (fun _ => ?_) fun _ => ?_
          · exact Frame.of_eq le_rfl (fun j hj => Function.update_of_ne hj _ _) fun _ _ => rfl
          refine Spec.ite (fun _ => ?_) fun _ => addOrRecord_frame hE
          refine (blkpgResizePartition_frame (i := i) hE).seq fun done s₁ h₁ => ?_
          refine Spec.ite (fun _ => ?_) fun _ => (addOrRecord_frame hE).imp fun _ _ => h₁.trans
          exact h₁.trans (Frame.of_eq le_rfl (fun j hj => Function.update_of_ne hj _ _)
            fun _ _ => rfl)

/-- Resizing what stayed: either it works, or an exception is raised. -/
theorem blkpgResizePartition_spec (h : Reached limits disk kernel thrown i s)
    (hflat : FlatTable disk) (hpart : pedDiskGetPartition disk i = some part)
    (hnew : kernel.parts.lookup i ≠ some part.geom)
    (hfound : s.kernel.parts.lookup i = some old) (hstart : old.start = part.geom.start)
    (hi : 1 ≤ i) :
    Spec (fun _ => ¬ Syncable limits env.dev disk kernel i) (blkpgResizePartition env disk part) s
      fun done s' =>
        (done = true ∧ Syncable limits env.dev disk kernel i ∧
          Reached limits disk kernel thrown (i + 1) s') ∨
        (¬ Syncable limits env.dev disk kernel i ∧ thrown.length < s'.thrown.length) := by
  have hnum : part.num.toNat = i := by rw [num_of_getPartition hpart]; rfl
  unfold blkpgResizePartition
  simp only [spec_bind]
  refine spec_assertSectorSize (fun hsize _ => ?_) fun hsize => ?_
  · exact h.not_syncable hflat hpart hnew fun hboth => hsize hboth.1
  rw [hnum, hflat.linuxPart_eq env.dev hpart]
  refine spec_blkpgPartCommand (fun k hk => ?_) fun e he => ?_
  · simp only [Kernel.resizePartition, hfound, hstart, ne_eq, not_true_eq_false, if_false] at hk
    split at hk
    · rename_i hfree
      cases hk
      exact Or.inl ⟨rfl, h.syncable hflat hpart hfree hsize, h.step_put hpart hfree hi⟩
    · cases hk
  · simp only [Kernel.resizePartition, hfound, hstart, ne_eq, not_true_eq_false, if_false] at he
    split at he
    · cases he
    · rename_i htaken
      have hnot : ¬ Syncable limits env.dev disk kernel i :=
        h.not_syncable hflat hpart hnew fun hboth => htaken hboth.2
      exact Or.inr ⟨hnot, by simp [h.thrown]⟩

theorem addNew_spec (h : Reached limits disk kernel thrown i s) (hflat : FlatTable disk)
    (hi : 1 ≤ i) :
    Spec (fun _ => ¬ Syncable limits env.dev disk kernel i) (addNew limits env disk i) s
      fun _ s' => Outcome limits env.dev disk kernel thrown i s' := by
  unfold addNew
  cases hpart : pedDiskGetPartition disk i with
  | none =>
      have hsync : Syncable limits env.dev disk kernel i := by simp [Syncable, hpart]
      have hkept : s.kernel.parts.lookup i = none := by
        rw [h.left i hi le_rfl, keptGeom, hpart]
      refine ⟨fun _ => h.step (fun j => ?_) (fun _ hj => hj) rfl hi, fun hnot => absurd hsync hnot⟩
      split
      · rename_i hj
        simp [hj, hkept, tableGeom, hpart]
      · rfl
  | some part =>
      have hnum : part.num.toNat = i := by rw [num_of_getPartition hpart]; rfl
      have hleft := h.left i hi le_rfl
      simp only [kernelGetPartitionStartAndLength, hnum, spec_bind, spec_get, spec_pure]
      cases hfound : s.kernel.parts.lookup i with
      | none =>
          -- nothing stayed, so the kernel did not have this very partition
          refine addOrRecord_spec h hflat hpart (fun hsame => ?_) hfound hi
          rw [hfound] at hleft
          have hkept : keptGeom limits disk kernel i = some part.geom :=
            keptGeom_eq_some.mpr ⟨part, hpart, hsame, staysForAdding_geom limits part⟩
          rw [hkept] at hleft
          cases hleft
      | some found =>
          obtain ⟨part', hpart', hold, hstays⟩ :=
            keptGeom_eq_some.mp (hleft.symm.trans hfound)
          cases hpart.symm.trans hpart'
          simp only [staysForAdding, Bool.and_eq_true, Bool.or_eq_true, decide_eq_true_eq]
            at hstays
          obtain ⟨hstart, hlength⟩ := hstays
          simp only [hstart, if_true]
          refine Spec.ite (fun hsame => ?_) fun hdiff => ?_
          · -- unchanged
            have hgeom : found = part.geom := eq_of_start_length hstart hsame
            subst hgeom
            have hsync : Syncable limits env.dev disk kernel i := by
              intro other hother hne
              cases hpart.symm.trans hother
              exact absurd hold hne
            rw [spec_setOk]
            refine ⟨fun _ => h.step (fun j => ?_) (fun j => update_true) rfl hi,
              fun hnot => absurd hsync hnot⟩
            split
            · rename_i hj
              simp [hj, hfound, tableGeom, hpart]
            · rfl
          · have hresize : limits.resize = true := (hlength.resolve_left hdiff).1
            have hnew : kernel.parts.lookup i ≠ some part.geom := by
              intro heq
              rw [hold] at heq
              cases heq
              exact hdiff rfl
            rw [if_pos hresize]
            refine (blkpgResizePartition_spec h hflat hpart hnew hfound hstart hi).seq
              fun done s₁ h₁ => ?_
            rcases h₁ with ⟨hdone, hsync, hr⟩ | ⟨hnot, hlong⟩
            · rw [if_pos hdone, spec_setOk]
              refine ⟨fun _ => ⟨hr.done, hr.left, hr.zero, fun j hj hle => ?_, hr.thrown⟩,
                fun hnot => absurd hsync hnot⟩
              exact update_true (hr.ok j hj hle)
            · -- whatever the answer was, the exception has been raised
              have hbad : ∀ s₂ : Sync, s₁.thrown.length ≤ s₂.thrown.length →
                  Outcome limits env.dev disk kernel thrown i s₂ := fun s₂ hle =>
                ⟨fun hsync => absurd hsync hnot, fun _ => Or.inl (hlong.trans_le hle)⟩
              refine Spec.ite (fun _ => hbad _ le_rfl) fun _ => ?_
              exact (addOrRecord_frame fun _ => hnot).imp fun _ s₂ hframe => hbad s₂ hframe.1

end Add

/-! ## Both passes -/

section Sync

variable {ops : PedDiskOps π δ} {env : Env} {disk : PedDisk π δ} {limits : SyncLimits}
  {s : Sync} {supported : Option ℕ} {partRange : ℕ} {resize : Bool}

/-- **The first pass** leaves what stays and nothing else. -/
theorem runAll_removeOld {E : Fault → Prop} (hidle : ∀ n, s.kernel.inUse n = false)
    (hrange : ∀ n geom, s.kernel.parts.lookup n = some geom → 1 ≤ n ∧ n ≤ limits.removeUpTo) :
    Spec E (runAll (removeOld limits disk) (List.range' 1 limits.removeUpTo)) s
      fun _ s' => Reached limits disk s.kernel s.thrown 1 s' := by
  have hloop : Spec E (runAll (removeOld limits disk) (List.range' 1 limits.removeUpTo)) s
      fun _ s' => s'.thrown = s.thrown ∧ s'.kernel.inUse = s.kernel.inUse ∧
        (∀ j, 1 ≤ j → j < 1 + limits.removeUpTo → s'.ok j = true) ∧
        ∀ j, s'.kernel.parts.lookup j = if 1 ≤ j ∧ j < 1 + limits.removeUpTo then
          keptGeom limits disk s.kernel j else s.kernel.parts.lookup j := by
    refine Spec.runAll_range (I := fun i (s' : Sync) => s'.thrown = s.thrown ∧
      s'.kernel.inUse = s.kernel.inUse ∧ (∀ j, 1 ≤ j → j < i → s'.ok j = true) ∧
      ∀ j, s'.kernel.parts.lookup j = if 1 ≤ j ∧ j < i then keptGeom limits disk s.kernel j
        else s.kernel.parts.lookup j) ?_ ⟨rfl, rfl, by omega, fun j => ?_⟩
    · intro i t hi _ ⟨hthrown, huse, hok, hlook⟩
      refine (removeOld_spec (by rw [huse, hidle])).imp fun _ t' ht => ?_
      have hsame : keptGeom limits disk t.kernel i = keptGeom limits disk s.kernel i := by
        unfold keptGeom
        rw [hlook, if_neg (by omega)]
      refine ⟨ht.thrown.trans hthrown, ht.inUse.trans huse, fun j hj hlt => ?_, fun j => ?_⟩
      · rw [ht.ok]
        by_cases hji : j = i
        · rw [hji, Function.update_self]
        · rw [Function.update_of_ne hji]
          exact hok j hj (by omega)
      · rw [ht.lookup, hsame, hlook]
        grind
    · rw [if_neg (by omega)]
  refine hloop.imp fun _ s' hdone => ?_
  obtain ⟨hthrown, _, hok, hlook⟩ := hdone
  refine ⟨by omega, fun j hj _ => ?_, ?_, fun j hj hle => hok j hj (by omega), hthrown⟩
  · rw [hlook]
    split
    · rfl
    · -- beyond the limit there was nothing to begin with
      rename_i hbeyond
      have hnone : s.kernel.parts.lookup j = none := by
        by_contra hsome
        obtain ⟨geom, hgeom⟩ := Option.ne_none_iff_exists'.mp hsome
        have := hrange j geom hgeom
        omega
      unfold keptGeom
      cases pedDiskGetPartition disk j with
      | none => exact hnone
      | some part => simp [hnone]
  · rw [hlook, if_neg (by omega)]
    by_contra hsome
    obtain ⟨geom, hgeom⟩ := Option.ne_none_iff_exists'.mp hsome
    have := hrange 0 geom hgeom
    omega

/-- **The second pass** brings the numbers up to `n` in line if it meets no old range,
and otherwise leaves something to report. -/
theorem runAll_addNew {kernel : Kernel} {thrown : List PedException} (hflat : FlatTable disk)
    (h : Reached limits disk kernel thrown 1 s) (n : ℕ) :
    Spec (fun _ => ∃ i, 1 ≤ i ∧ i ≤ n ∧ ¬ Syncable limits env.dev disk kernel i)
      (runAll (addNew limits env disk) (List.range' 1 n)) s fun _ s' =>
        ((∀ i, 1 ≤ i → i ≤ n → Syncable limits env.dev disk kernel i) ∧
          Reached limits disk kernel thrown (1 + n) s') ∨
        ∃ i, 1 ≤ i ∧ i ≤ n ∧ ¬ Syncable limits env.dev disk kernel i ∧ Trouble thrown i s' := by
  have hloop : Spec (fun _ => ∃ i, 1 ≤ i ∧ i ≤ n ∧ ¬ Syncable limits env.dev disk kernel i)
      (runAll (addNew limits env disk) (List.range' 1 n)) s fun _ s' =>
        ((∀ i, 1 ≤ i → i < 1 + n → Syncable limits env.dev disk kernel i) ∧
          Reached limits disk kernel thrown (1 + n) s') ∨
        ∃ i, 1 ≤ i ∧ i < 1 + n ∧ ¬ Syncable limits env.dev disk kernel i ∧
          Trouble thrown i s' := by
    refine Spec.runAll_range (I := fun m (s' : Sync) =>
      ((∀ i, 1 ≤ i → i < m → Syncable limits env.dev disk kernel i) ∧
        Reached limits disk kernel thrown m s') ∨
      ∃ i, 1 ≤ i ∧ i < m ∧ ¬ Syncable limits env.dev disk kernel i ∧ Trouble thrown i s')
      ?_ (Or.inl ⟨by omega, h⟩)
    rintro m t hm hmn (⟨hsync, hreached⟩ | ⟨i, hi, him, hnot, htrouble⟩)
    · refine (addNew_spec hreached hflat hm).mono (fun _ hnot => ⟨m, hm, by omega, hnot⟩)
        fun _ t' hout => ?_
      by_cases hsyncm : Syncable limits env.dev disk kernel m
      · refine Or.inl ⟨fun i hi hlt => ?_, hout.1 hsyncm⟩
        rcases Nat.lt_succ_iff_lt_or_eq.mp hlt with hlt | rfl
        · exact hsync i hi hlt
        · exact hsyncm
      · exact Or.inr ⟨m, hm, by omega, hsyncm, hout.2 hsyncm⟩
    · -- trouble with an earlier number stays
      refine (addNew_frame fun _ => ⟨i, hi, by omega, hnot⟩).imp fun _ t' hframe => Or.inr
        ⟨i, hi, by omega, hnot, ?_⟩
      rcases htrouble with hlong | ⟨hle, hok, herr⟩
      · exact Or.inl (hlong.trans_le hframe.1)
      · have hsame := hframe.2 i (by omega)
        exact Or.inr ⟨hle.trans hframe.1, hsame.1.trans hok, hsame.2.trans herr⟩
  refine hloop.imp fun _ s' hs' => hs'.imp ?_ ?_
  · rintro ⟨hsync, hreached⟩
    exact ⟨fun i hi hle => hsync i hi (by omega), hreached⟩
  · rintro ⟨i, hi, hlt, hrest⟩
    exact ⟨i, hi, by omega, hrest⟩

theorem reportBad_spec {E : Fault → Prop} {n : ℕ} :
    Spec E (reportBad env n) s fun result s' => s'.kernel = s.kernel ∧
      (badParts n s = [] → result = true ∧ s'.thrown = s.thrown) ∧
      s.thrown.length ≤ s'.thrown.length ∧
      (badParts n s ≠ [] → s.thrown.length < s'.thrown.length) := by
  unfold reportBad
  simp only [spec_bind, spec_get]
  refine Spec.ite (fun hnil => ?_) fun hbad => ?_
  · exact ⟨rfl, fun _ => ⟨rfl, rfl⟩, le_rfl, fun hne => absurd hnil hne⟩
  · exact ⟨rfl, fun hnil => absurd hnil hbad, by simp, fun _ => by simp⟩

theorem addUpTo_le_removeUpTo (supported : Option ℕ) (partRange : ℕ) (resize : Bool) :
    (syncLimits supported partRange resize).addUpTo
      ≤ (syncLimits supported partRange resize).removeUpTo := by
  cases supported with
  | none => exact le_rfl
  | some lpn => simp only [syncLimits]; omega

/-- What stays is on the disk, at the latest after the second pass. -/
theorem tableGeom_of_keptGeom {kernel : Kernel} {n : ℕ} {geom : PedGeometry}
    (hkept : keptGeom limits disk kernel n = some geom) (hn : limits.addUpTo < n) :
    tableGeom disk n = some geom := by
  obtain ⟨part, hpart, _, hstays⟩ := keptGeom_eq_some.mp hkept
  simp only [staysForAdding, Bool.and_eq_true, Bool.or_eq_true, decide_eq_true_eq,
    num_of_getPartition hpart] at hstays
  obtain ⟨hstart, hlength⟩ := hstays
  have hsame : geom.length = part.geom.length := hlength.resolve_right fun h => by omega
  rw [tableGeom, hpart, eq_of_start_length hstart hsame]
  rfl

theorem Reached.table {kernel : Kernel} {thrown : List PedException}
    (h : Reached limits disk kernel thrown (1 + limits.addUpTo) s) {n : ℕ} {geom : PedGeometry}
    (hlook : s.kernel.parts.lookup n = some geom) : tableGeom disk n = some geom := by
  rcases Nat.eq_zero_or_pos n with rfl | hpos
  · rw [h.zero] at hlook
    cases hlook
  · rcases Nat.lt_or_ge n (1 + limits.addUpTo) with hlt | hge
    · rwa [h.done n hpos hlt] at hlook
    · exact tableGeom_of_keptGeom ((h.left n hpos hge).symm.trans hlook) (by omega)

/-- **Synchronisation**, for any kernel that uses none of the partitions: it succeeds
silently if every number can be brought in line, and otherwise raises an exception or
fails an assertion. -/
theorem diskSyncPartTable_spec (env : Env) (hname : ops.name ≠ "loop") (hflat : FlatTable disk)
    (hidle : ∀ n, s.kernel.inUse n = false) (hlim : limits = syncLimits supported partRange resize)
    (hrange : ∀ n geom, s.kernel.parts.lookup n = some geom → 1 ≤ n ∧ n ≤ limits.removeUpTo)
    (hpos : 1 ≤ limits.removeUpTo) :
    Spec (fun _ => ∃ i, 1 ≤ i ∧ i ≤ limits.addUpTo ∧ ¬ Syncable limits env.dev disk s.kernel i)
      (diskSyncPartTable ops supported partRange resize env disk) s fun result s' =>
        (result = true ∧ s'.thrown = s.thrown ∧
          (∀ i, 1 ≤ i → i ≤ limits.addUpTo → Syncable limits env.dev disk s.kernel i) ∧
          (∀ n, 1 ≤ n → n ≤ limits.addUpTo → s'.kernel.parts.lookup n = tableGeom disk n) ∧
          ∀ n geom, s'.kernel.parts.lookup n = some geom → tableGeom disk n = some geom) ∨
        ((∃ i, 1 ≤ i ∧ i ≤ limits.addUpTo ∧ ¬ Syncable limits env.dev disk s.kernel i) ∧
          s.thrown.length < s'.thrown.length) := by
  have hle : limits.addUpTo ≤ limits.removeUpTo := by
    rw [hlim]
    exact addUpTo_le_removeUpTo supported partRange resize
  unfold diskSyncPartTable
  rw [← hlim, if_neg (by omega), if_neg hname]
  simp only [spec_bind, spec_modify]
  refine (runAll_removeOld (s := ⟨s.kernel, fun _ => false, fun _ => none, s.thrown⟩) hidle
    hrange).imp fun _ s₁ h₁ => ?_
  refine (runAll_addNew hflat h₁ limits.addUpTo).imp fun _ s₂ h₂ => ?_
  refine reportBad_spec.imp fun result s₃ ⟨hkernel, hquiet, hgrow, hloud⟩ => ?_
  rcases h₂ with ⟨hsync, hreached⟩ | ⟨i, hi, hin, hnot, htrouble⟩
  · refine Or.inl ?_
    have hnone : badParts limits.addUpTo s₂ = [] := by
      refine List.filter_eq_nil_iff.mpr fun i hi => ?_
      rw [List.mem_range'_1] at hi
      simp [hreached.ok i hi.1 (by omega)]
    obtain ⟨hresult, hthrown⟩ := hquiet hnone
    refine ⟨hresult, hthrown.trans hreached.thrown, hsync, fun n hn hle' => ?_, fun n geom => ?_⟩
    · rw [hkernel]
      exact hreached.done n hn (by omega)
    · rw [hkernel]
      exact hreached.table
  · refine Or.inr ⟨⟨i, hi, hin, hnot⟩, ?_⟩
    rcases htrouble with hlong | ⟨hlen, hok, herr⟩
    · exact hlong.trans_le hgrow
    · have hbad : badParts limits.addUpTo s₂ ≠ [] := by
        refine List.ne_nil_of_mem (a := i) (List.mem_filter.mpr ⟨?_, by simp [hok, herr]⟩)
        rw [List.mem_range'_1]
        omega
      exact lt_of_le_of_lt hlen (hloud hbad)

/-- **When the kernel gets the table.**  Let the table be without an extended
partition and without overlaps, the label not "loop", no partition in use and the
kernel's partitions numbered up to the limit of the first pass.  Then synchronisation
returns 1 without an exception and leaves the kernel with the table, exactly when no
partition that the kernel has yet to learn meets the old range of a higher-numbered
partition that keeps its start. -/
theorem diskSyncPartTable_converges_iff (hname : ops.name ≠ "loop") (hflat : FlatTable disk)
    (hidle : ∀ n, s.kernel.inUse n = false) (hlim : limits = syncLimits supported partRange true)
    (hrange : ∀ n geom, s.kernel.parts.lookup n = some geom → 1 ≤ n ∧ n ≤ limits.removeUpTo) :
    (∃ s', diskSyncPartTable ops supported partRange true env disk s = .ok (true, s') ∧
      s'.thrown = s.thrown ∧
      (∀ n, 1 ≤ n → n ≤ limits.addUpTo → s'.kernel.parts.lookup n = tableGeom disk n) ∧
      ∀ n geom, s'.kernel.parts.lookup n = some geom → tableGeom disk n = some geom) ↔
    1 ≤ limits.removeUpTo ∧
      ∀ (i : ℕ) part, 1 ≤ i → i ≤ limits.addUpTo → pedDiskGetPartition disk i = some part →
        s.kernel.parts.lookup i ≠ some part.geom →
        env.dev.sectorSize % 512 = 0 ∧
          ∀ (j : ℕ) other old, i < j → j < limits.addUpTo →
            pedDiskGetPartition disk j = some other → s.kernel.parts.lookup j = some old →
            old.start = other.geom.start → ¬ part.geom.Overlaps old := by
  have hsyncable : (∀ (i : ℕ) part, 1 ≤ i → i ≤ limits.addUpTo →
      pedDiskGetPartition disk i = some part → s.kernel.parts.lookup i ≠ some part.geom →
      env.dev.sectorSize % 512 = 0 ∧ ∀ (j : ℕ) other old, i < j → j < limits.addUpTo →
        pedDiskGetPartition disk j = some other → s.kernel.parts.lookup j = some old →
        old.start = other.geom.start → ¬ part.geom.Overlaps old) ↔
      ∀ i, 1 ≤ i → i ≤ limits.addUpTo → Syncable limits env.dev disk s.kernel i := by
    have hresize : limits.resize = true := by rw [hlim]; rfl
    constructor
    · intro h i hi hle part hpart hnew
      obtain ⟨hsize, hold⟩ := h i part hi hle hpart hnew
      refine ⟨hsize, fun j old hij hkept => ?_⟩
      obtain ⟨other, hother, hlook, hstays⟩ := keptGeom_eq_some.mp hkept
      simp only [staysForAdding, Bool.and_eq_true, Bool.or_eq_true, decide_eq_true_eq,
        num_of_getPartition hother] at hstays
      obtain ⟨hstart, hsame | ⟨-, hlt⟩⟩ := hstays
      · rw [eq_of_start_length hstart hsame]
        exact hflat.not_overlaps hpart hother (by omega)
      · exact hold j other old hij (by omega) hother hlook hstart
    · intro h i part hi hle hpart hnew
      obtain ⟨hsize, hkept⟩ := h i hi hle part hpart hnew
      refine ⟨hsize, fun j other old hij hj hother hlook hstart => ?_⟩
      refine hkept j old hij (keptGeom_eq_some.mpr ⟨other, hother, hlook, ?_⟩)
      simp [staysForAdding, hstart, hresize, num_of_getPartition hother, hj]
  rw [hsyncable]
  by_cases hpos : 1 ≤ limits.removeUpTo
  · have hspec := diskSyncPartTable_spec env hname hflat hidle hlim hrange hpos
    constructor
    · rintro ⟨s', hrun, hthrown, -, -⟩
      rcases hspec.of_ok hrun with ⟨-, -, hsync, -⟩ | ⟨-, hlong⟩
      · exact ⟨hpos, hsync⟩
      · rw [hthrown] at hlong
        exact absurd hlong (lt_irrefl _)
    · rintro ⟨-, hsync⟩
      have hno : ¬ ∃ i, 1 ≤ i ∧ i ≤ limits.addUpTo ∧
          ¬ Syncable limits env.dev disk s.kernel i := by
        rintro ⟨i, hi, hle, hnot⟩
        exact hnot (hsync i hi hle)
      obtain ⟨result, s', hrun, hout⟩ := Spec.exists_ok
        (hspec.mono (fun _ h => hno h) fun _ _ h => h)
      rcases hout with ⟨rfl, hthrown, -, hdone, htable⟩ | ⟨hsome, -⟩
      · exact ⟨s', hrun, hthrown, hdone, htable⟩
      · exact absurd hsome hno
  · -- a device that can have no partitions: the function returns 0 at once
    refine ⟨?_, fun h => absurd h.1 hpos⟩
    rintro ⟨s', hrun, -⟩
    have hfalse : diskSyncPartTable ops supported partRange true env disk s = .ok (false, s) := by
      unfold diskSyncPartTable
      rw [← hlim, if_pos (by omega)]
      rfl
    rw [hfalse] at hrun
    cases hrun

end Sync

/-! ## Partitions in use -/

/-- Somebody uses partition `n`, and the kernel has it where it began: in its old range, or in
the one the table gives it. -/
def Held (dev : PedDevice) (disk : PedDisk π δ) (n : ℕ) (old : PedGeometry) (k : Kernel) : Prop :=
  k.inUse n = true ∧ ∃ geom, k.parts.lookup n = some geom ∧ geom.start = old.start ∧
    (geom = old ∨ ∃ part, pedDiskGetPartition disk n = some part ∧ geom = linuxPart dev disk part)

/-- Programs that leave such a partition alone, or resize it as the table says. -/
def KeepsHeld (dev : PedDevice) (disk : PedDisk π δ) (n : ℕ) (old : PedGeometry) {α : Type}
    (x : SyncM α) : Prop :=
  ∀ s, Held dev disk n old s.kernel →
    Spec (fun _ => True) x s fun _ s' => Held dev disk n old s'.kernel

section InUse

variable {env : Env} {disk : PedDisk π δ} {part : PedPartition π} {n i : ℕ}
  {old geom : PedGeometry} {k k' : Kernel} {limits : SyncLimits} {s : Sync}

theorem Held.del (h : Held env.dev disk n old k) (hdel : k.delPartition i = .ok k') :
    Held env.dev disk n old k' := by
  unfold Kernel.delPartition at hdel
  split_ifs at hdel with _ hidle
  cases hdel
  have hne : n ≠ i := by
    rintro rfl
    exact hidle h.1
  simpa [Held, RangeMap.lookup_erase, hne] using h

theorem Held.add (h : Held env.dev disk n old k) (hadd : k.addPartition i geom = .ok k') :
    Held env.dev disk n old k' := by
  unfold Kernel.addPartition at hadd
  split_ifs at hadd with hnew hfree
  cases hadd
  have hne : n ≠ i := by
    rintro rfl
    obtain ⟨-, g, hg, -⟩ := h
    simp [hg] at hnew
  simpa [Held, RangeMap.lookup_put, hne] using h

theorem Held.resize (h : Held env.dev disk n old k) (hpart : pedDiskGetPartition disk i = some part)
    (hresize : k.resizePartition i (linuxPart env.dev disk part) = .ok k') :
    Held env.dev disk n old k' := by
  unfold Kernel.resizePartition at hresize
  split at hresize
  · cases hresize
  · rename_i found hfound
    split_ifs at hresize with hstart hfree
    cases hresize
    by_cases hne : n = i
    · subst hne
      obtain ⟨huse, g, hg, hsame, -⟩ := h
      obtain rfl : found = g := Option.some.inj (hfound.symm.trans hg)
      refine ⟨huse, linuxPart env.dev disk part, ?_, ?_, .inr ⟨part, hpart, rfl⟩⟩
      · simp [RangeMap.lookup_put]
      · rw [← hsame]
        exact (not_not.mp hstart).symm
    · simpa [Held, RangeMap.lookup_put, hne] using h

theorem keepsHeld_removeOld : KeepsHeld env.dev disk n old (removeOld limits disk i) := by
  have hretry : ∀ m, KeepsHeld env.dev disk n old (removeRetrying i m) := by
    intro m
    induction m with
    | zero => exact fun s h => Spec.bind (spec_blkpgPartCommand (fun _ => h.del) fun _ _ => h)
    | succ m ih =>
        refine fun s h => Spec.bind (spec_blkpgPartCommand (fun _ hdel => h.del hdel) fun e _ => ?_)
        exact Spec.ite (fun _ => ih _ h) fun _ => h
  intro s h
  have hremove : Spec (fun _ => True) (do
      removeRetrying i nSleep
      let s ← get
      if s.ok i = false ∧ s.errnums i = some .enxio then setOk i true) s
      fun _ s' => Held env.dev disk n old s'.kernel :=
    (hretry nSleep s h).seq fun _ _ h' => Spec.ite (fun _ => h') fun _ => h'
  unfold removeOld
  cases pedDiskGetPartition disk i with
  | none => exact hremove
  | some part =>
      simp only [kernelGetPartitionStartAndLength, spec_bind, spec_get, spec_pure]
      cases s.kernel.parts.lookup part.num.toNat with
      | none => exact hremove
      | some found => exact Spec.ite (fun _ => h) fun _ => hremove

theorem keepsHeld_addOrRecord : KeepsHeld env.dev disk n old (addOrRecord env disk part i) := by
  refine fun s h => Spec.bind (Spec.bind (Spec.lift (fun _ _ => trivial) fun _ _ => ?_))
  exact spec_blkpgPartCommand (fun _ => h.add) fun _ _ => h

theorem keepsHeld_addNew : KeepsHeld env.dev disk n old (addNew limits env disk i) := by
  intro s h
  unfold addNew
  cases hpart : pedDiskGetPartition disk i with
  | none => exact h
  | some part =>
      have hnum : part.num.toNat = i := by rw [num_of_getPartition hpart]; rfl
      simp only [kernelGetPartitionStartAndLength, spec_bind, spec_get, spec_pure]
      cases s.kernel.parts.lookup part.num.toNat with
      | none => exact keepsHeld_addOrRecord s h
      | some found =>
          refine Spec.ite (fun _ => ?_) fun _ => keepsHeld_addOrRecord s h
          refine Spec.ite (fun _ => h) fun _ => ?_
          refine Spec.ite (fun _ => ?_) fun _ => keepsHeld_addOrRecord s h
          refine Spec.bind (Spec.bind (Spec.lift (fun _ _ => trivial) fun _ _ => ?_))
          rw [hnum]
          refine Spec.bind (spec_blkpgPartCommand (fun _ hresize => ?_) fun _ _ => ?_)
          · exact h.resize hpart hresize
          · exact Spec.ite (fun _ => h) fun _ => keepsHeld_addOrRecord _ h

end InUse

/-! ## Two partitions that change places -/

/-- A device with sectors of 512 bytes. -/
def diskDevice : PedDevice := ⟨"/dev/sda", 1000, 512, ⟨1, 255, 63, by omega, by omega⟩⟩

/-- A table with partition 2 in sectors 10 to 19 and partition 1 behind it. -/
def splitDisk : DosDisk where
  partList := [⟨2, .normal, 2, .fromTo 10 19, none⟩,
    ⟨1, .normal, 1, .fromTo 20 29, none⟩]
  logicals := []
  updateMode := 0
  needsClobber := false
  diskSpecific := ⟨false⟩

theorem splitDisk_flat : FlatTable splitDisk := by
  refine ⟨?_, ?_, ?_⟩ <;> simp [splitDisk, PedPartitionType.normal, PedPartition.isActive,
    PedGeometry.Overlaps, PedGeometry.end, PedGeometry.fromTo]

/-- A kernel with one partition, of which nobody makes use. -/
def kernelWith (n : ℕ) (geom : PedGeometry) : Sync :=
  ⟨⟨⟨[(n, geom)], List.pairwise_singleton _ _⟩, fun _ => false⟩, fun _ => false, fun _ => none, []⟩

/-- The same, in use. -/
def Sync.used (s : Sync) : Sync := { s with kernel := { s.kernel with inUse := fun _ => true } }

/-- The kernel still has partition 2 in sectors 10 to 29.  It keeps this range while
partition 1 is added, which therefore fails. -/
theorem splitDisk_not_synced :
    (diskSyncPartTable msdosDiskType.toPedDiskOps (some 64) 16 true
      ⟨diskDevice, fun _ => .cancel⟩ splitDisk (kernelWith 2 (.fromTo 10 29))).map
        (fun r => (r.1, r.2.thrown.length, r.2.kernel.parts.lookup 1))
      = .ok (false, 1, none) := by
  decide +kernel

/-- With partition 2 where it is now, partition 1 is added. -/
theorem splitDisk_synced :
    ∃ s', diskSyncPartTable msdosDiskType.toPedDiskOps (some 64) 16 true
        ⟨diskDevice, fun _ => .cancel⟩ splitDisk (kernelWith 2 (.fromTo 10 19))
          = .ok (true, s') ∧
      s'.thrown = [] ∧ (∀ n, 1 ≤ n → n ≤ 16 → s'.kernel.parts.lookup n = tableGeom splitDisk n) ∧
      ∀ n geom, s'.kernel.parts.lookup n = some geom → tableGeom splitDisk n = some geom := by
  have hentry : ∀ n geom, (kernelWith 2 (.fromTo 10 19)).kernel.parts.lookup n
      = some geom → n = 2 ∧ geom = .fromTo 10 19 := by
    intro n geom h
    have hmem := RangeMap.mem_of_lookup h
    simpa [kernelWith] using hmem
  refine (diskSyncPartTable_converges_iff (by decide) splitDisk_flat (fun _ => rfl) rfl ?_).mpr
    ⟨by decide, ?_⟩
  · intro n geom h
    obtain ⟨rfl, -⟩ := hentry n geom h
    decide
  · intro i part hi _ hpart _
    refine ⟨rfl, fun j other old hij _ _ hlook _ => ?_⟩
    obtain ⟨rfl, rfl⟩ := hentry j old hlook
    obtain rfl : i = 1 := by omega
    cases hpart
    decide

end Libparted
