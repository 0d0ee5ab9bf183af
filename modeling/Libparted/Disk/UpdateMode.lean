import Libparted.Disk.Core

/-!
# Update mode

Between calls the lists of a disk hold, besides the partitions, *placeholder*
entries: metadata, allocated by the label, and free space.  Every operation first
enters update mode, which removes the placeholders, and on its way out leaves it,
which allocates them anew.  `_disk_push_update_mode` and `_disk_pop_update_mode`
nest; only the outermost pair does this work.

The placeholders are deleted with `ped_disk_delete_partition`, which enters update
mode again and renumbers the partitions.  As the mode is positive at that point,
the inner push and pop only count, and `enterNested`/`leaveNested` are what is
left of them.

Two projections say what these programs leave alone:

* `PedDisk.core` drops the placeholders and forgets the mode;
* `PedDisk.unnumbered` forgets the numbers.

`diskPushUpdateMode_spec` and `diskPopUpdateMode_spec` are the only facts about
update mode that later modules use.
-/

namespace Libparted

open Library

variable {π δ : Type}

/-! ## Numbering -/

/-- `_partition_enumerate` on an entry of the disk. -/
def partitionEnumerate (ops : PedDiskOps π δ) (env : Env) (part : PedPartition π) :
    DiskM π δ Bool := do
  let disk ← getDisk
  let (ok, num) ← ask (ops.partitionEnumerate env disk part)
  modifyDisk fun disk => disk.setNum part.id num
  return ok

/-- The loop over already numbered partitions. -/
def enumerateNumbered (ops : PedDiskOps π δ) (env : Env) : List ℕ → DiskM π δ Bool
  | [] => return true
  | i :: rest => do
      match pedDiskGetPartition (← getDisk) i with
      | none => enumerateNumbered ops env rest
      | some walk =>
          if ← partitionEnumerate ops env walk then enumerateNumbered ops env rest
          else return false

/-- The loop that numbers un-numbered partitions. -/
def enumerateUnnumbered (ops : PedDiskOps π δ) (env : Env) :
    List (PedPartition π) → DiskM π δ Bool
  | [] => return true
  | walk :: rest => do
      if walk.isActive && walk.num = -1 then
        if ← partitionEnumerate ops env walk then enumerateUnnumbered ops env rest
        else return false
      else enumerateUnnumbered ops env rest

/-- `ped_disk_enumerate_partitions`. -/
def pedDiskEnumeratePartitions (ops : PedDiskOps π δ) (env : Env) : DiskM π δ Bool := do
  let last := pedDiskGetLastPartitionNum (← getDisk)
  if ← enumerateNumbered ops env (List.range' 1 last.toNat) then
    enumerateUnnumbered ops env (← getDisk).traverse
  else return false

/-! ## Removing and allocating placeholders -/

/-- `_disk_remove_freespace`. -/
def diskRemoveFreespace (disk : PedDisk π δ) : PedDisk π δ :=
  { disk with
    partList := disk.partList.filter fun part => !part.type.freespace
    logicals := disk.logicals.filter fun part => !part.type.freespace }

/-- `disk->update_mode = mode`. -/
def PedDisk.withMode (disk : PedDisk π δ) (mode : ℕ) : PedDisk π δ :=
  { disk with updateMode := mode }

/-- `disk->update_mode++` of a push inside update mode. -/
def enterNested : DiskM π δ Unit :=
  modifyDisk fun disk => disk.withMode (disk.updateMode + 1)

/-- `disk->update_mode--` of a pop that does not leave update mode. -/
def leaveNested : DiskM π δ Unit :=
  modifyDisk fun disk => disk.withMode (disk.updateMode - 1)

/-- Unlinks the metadata entry that comes first in the order of
`ped_disk_next_partition`. -/
def unlinkFirstMetadata (disk : PedDisk π δ) : PedDisk π δ :=
  let before := disk.partList.takeWhile fun part => !part.isExtended
  if !before.any (·.type.metadata) && disk.logicals.any (·.type.metadata) then
    { disk with logicals := disk.logicals.eraseP (·.type.metadata) }
  else { disk with partList := disk.partList.eraseP (·.type.metadata) }

/-- `ped_disk_delete_partition` on a metadata entry, in update mode. -/
def deleteMetadata (ops : PedDiskOps π δ) (env : Env) : DiskM π δ Unit := do
  enterNested
  enterNested
  modifyDisk unlinkFirstMetadata
  leaveNested
  let _ ← pedDiskEnumeratePartitions ops env
  leaveNested

def deleteMetadataLoop (ops : PedDiskOps π δ) (env : Env) : ℕ → DiskM π δ Unit
  | 0 => return ()
  | n + 1 => do
      deleteMetadata ops env
      deleteMetadataLoop ops env n

/-- The number of metadata entries. -/
def PedDisk.metadataCount (disk : PedDisk π δ) : ℕ :=
  disk.partList.countP (·.type.metadata) + disk.logicals.countP (·.type.metadata)

/-- `_disk_remove_metadata`: every metadata entry is deleted, in list order. -/
def diskRemoveMetadata (ops : PedDiskOps π δ) (env : Env) : DiskM π δ Unit := do
  deleteMetadataLoop ops env (← getDisk).metadataCount

/-- The walk of `_disk_alloc_freespace`: a free-space entry wherever an entry
starts behind the end of the one before it, and one up to `stop` at the end. -/
def fillGaps (logical : Bool) (stop : ℤ) :
    (last : ℤ) → -1 ≤ last → List (PedPartition π) → List (PedPartition π)
  | last, hlast, [] =>
      if h : last < stop then
        [.placeholder (.ofFreespace logical) (.ofStartEnd (last + 1) stop (by omega) (by omega))]
      else []
  | last, hlast, walk :: rest =>
      let tail := walk :: fillGaps logical stop walk.geom.end
        (by have := walk.geom.end_nonneg; omega) rest
      if h : walk.geom.start > last + 1 then
        .placeholder (.ofFreespace logical)
          (.ofStartEnd (last + 1) (walk.geom.start - 1) (by omega) (by omega)) :: tail
      else tail

/-- `_alloc_extended_freespace`. -/
def allocExtendedFreespace (disk : PedDisk π δ) : PedDisk π δ :=
  match pedDiskExtendedPartition disk with
  | none => disk
  | some ext =>
      { disk with
        logicals := fillGaps true ext.geom.end ext.geom.start
          (by have := ext.geom.start_nonneg; omega) disk.logicals }

/-- `_disk_alloc_freespace`. -/
def diskAllocFreespace (env : Env) (disk : PedDisk π δ) : PedDisk π δ :=
  let disk := allocExtendedFreespace (diskRemoveFreespace disk)
  { disk with partList := fillGaps false (env.dev.length - 1) (-1) (le_refl _) disk.partList }

/-! ## Entering and leaving -/

/-- `_disk_push_update_mode`. -/
def diskPushUpdateMode (ops : PedDiskOps π δ) (env : Env) : DiskM π δ Bool := do
  if (← getDisk).updateMode = 0 then
    liftM (diskCheckSanity (← getDisk))
    modifyDisk diskRemoveFreespace
    enterNested
    diskRemoveMetadata ops env
    liftM (diskCheckSanity (← getDisk))
    return true
  else
    enterNested
    return true

/-- `_disk_pop_update_mode`.  `_disk_alloc_metadata` would remove metadata first
outside update mode; here the mode is still 1. -/
def diskPopUpdateMode (alloc : Env → DiskM π δ Bool) (env : Env) : DiskM π δ Bool := do
  assertThat ((← getDisk).updateMode ≠ 0) "disk->update_mode"
  if (← getDisk).updateMode = 1 then
    liftM (diskCheckSanity (← getDisk))
    let _ ← alloc env
    leaveNested
    modifyDisk (diskAllocFreespace env)
    liftM (diskCheckSanity (← getDisk))
    return true
  else
    leaveNested
    return true

/-! ## What is left alone -/

namespace PedDisk

/-- The disk without placeholders. -/
def strip (disk : PedDisk π δ) : PedDisk π δ :=
  { disk with
    partList := disk.partList.filter PedPartition.isActive
    logicals := disk.logicals.filter PedPartition.isActive }

/-- The table itself: no placeholders, and no mode. -/
def core (disk : PedDisk π δ) : PedDisk π δ := disk.strip.withMode 0

/-- The disk with all numbers forgotten. -/
def unnumbered (disk : PedDisk π δ) : PedDisk π δ :=
  { disk with
    partList := disk.partList.map fun part => { part with num := 0 }
    logicals := disk.logicals.map fun part => { part with num := 0 } }

/-- Every entry of the top level has `P` and every entry of the logical level
has `Q`. -/
def Each (P Q : PedPartition π → Prop) (disk : PedDisk π δ) : Prop :=
  (∀ part ∈ disk.partList, P part) ∧ ∀ part ∈ disk.logicals, Q part

/-- No placeholder is on the lists. -/
def Clean (disk : PedDisk π δ) : Prop := disk.Each (·.isActive = true) (·.isActive = true)

/-- No free space is on the lists. -/
def NoFreespace (disk : PedDisk π δ) : Prop :=
  disk.Each (·.type.freespace = false) (·.type.freespace = false)

/-- Every entry is on the list its type asks for. -/
def Leveled (disk : PedDisk π δ) : Prop :=
  disk.Each (·.type.logical = false) (·.type.logical = true)

/-- Every placeholder on the lists has `T`. -/
def Padding (T : PedPartition π → Prop) (disk : PedDisk π δ) : Prop :=
  disk.Each (fun part => part.isActive = false → T part) fun part => part.isActive = false → T part

theorem Clean.padding {disk : PedDisk π δ} (h : disk.Clean) (T : PedPartition π → Prop) :
    disk.Padding T :=
  ⟨fun part hpart hno => absurd (h.1 part hpart) (by simp [hno]),
    fun part hpart hno => absurd (h.2 part hpart) (by simp [hno])⟩

/-- Dropping entries keeps what all entries have. -/
theorem Each.subset {P Q : PedPartition π → Prop} {disk disk' : PedDisk π δ}
    (h : disk.Each P Q) (htop : disk'.partList ⊆ disk.partList)
    (hlog : disk'.logicals ⊆ disk.logicals) : disk'.Each P Q :=
  ⟨fun part hpart => h.1 part (htop hpart), fun part hpart => h.2 part (hlog hpart)⟩

theorem Clean.strip_eq {disk : PedDisk π δ} (h : disk.Clean) : disk.strip = disk := by
  cases disk
  simp only [strip, PedDisk.mk.injEq, and_true]
  exact ⟨List.filter_eq_self.mpr h.1, List.filter_eq_self.mpr h.2⟩

/-- A clean disk is its table, up to the mode. -/
theorem Clean.eq_core {disk : PedDisk π δ} (h : disk.Clean) :
    disk = disk.core.withMode disk.updateMode := by
  conv_lhs => rw [← h.strip_eq]
  rfl

theorem clean_strip (disk : PedDisk π δ) : disk.strip.Clean := by
  constructor
  · intro part hpart
    exact (List.mem_filter.mp hpart).2
  · intro part hpart
    exact (List.mem_filter.mp hpart).2

@[simp] theorem strip_updateMode (disk : PedDisk π δ) :
    disk.strip.updateMode = disk.updateMode := rfl

section WithMode

variable (disk : PedDisk π δ) (n : ℕ)

@[simp] theorem updateMode_withMode : (disk.withMode n).updateMode = n := rfl

@[simp] theorem withMode_withMode (m : ℕ) : (disk.withMode n).withMode m = disk.withMode m := rfl

@[simp] theorem core_withMode : (disk.withMode n).core = disk.core := rfl

@[simp] theorem unnumbered_withMode :
    (disk.withMode n).unnumbered = disk.unnumbered.withMode n := rfl

@[simp] theorem each_withMode {P Q : PedPartition π → Prop} :
    (disk.withMode n).Each P Q ↔ disk.Each P Q := Iff.rfl

@[simp] theorem metadataCount_withMode : (disk.withMode n).metadataCount = disk.metadataCount := rfl

@[simp] theorem diskRemoveFreespace_withMode :
    diskRemoveFreespace (disk.withMode n) = (diskRemoveFreespace disk).withMode n := rfl

@[simp] theorem unlinkFirstMetadata_withMode :
    unlinkFirstMetadata (disk.withMode n) = (unlinkFirstMetadata disk).withMode n := by
  unfold unlinkFirstMetadata withMode
  dsimp only
  split <;> rfl

@[simp] theorem withMode_updateMode : disk.withMode disk.updateMode = disk := rfl

end WithMode

@[simp] theorem setNum_unnumbered (disk : PedDisk π δ) (id : ℕ) (num : ℤ) :
    (disk.setNum id num).unnumbered = disk.unnumbered := by
  simp only [unnumbered, setNum, update, PedDisk.mk.injEq, List.map_map, and_true]
  constructor <;> refine List.map_congr_left fun part _ => ?_ <;>
    simp only [Function.comp_apply] <;> split <;> rfl

/-- Forgetting numbers and dropping placeholders commute. -/
theorem core_unnumbered (disk : PedDisk π δ) : disk.unnumbered.core = disk.core.unnumbered := by
  simp only [core, strip, withMode, unnumbered, List.filter_map]
  rfl

@[simp] theorem unnumbered_updateMode (disk : PedDisk π δ) :
    disk.unnumbered.updateMode = disk.updateMode := rfl

/-- A property that does not look at numbers survives renumbering. -/
theorem Each.renumbered {P Q : PedPartition π → Prop} {disk disk' : PedDisk π δ}
    (h : disk.Each P Q) (hP : ∀ part num, P { part with num := num } ↔ P part)
    (hQ : ∀ part num, Q { part with num := num } ↔ Q part)
    (heq : disk'.unnumbered = disk.unnumbered) : disk'.Each P Q := by
  have hiff : ∀ d : PedDisk π δ, d.unnumbered.Each P Q ↔ d.Each P Q := by
    intro d
    simp only [Each, unnumbered, List.forall_mem_map, hP, hQ]
  rw [← hiff, heq, hiff]
  exact h

theorem metadataCount_unnumbered (disk : PedDisk π δ) :
    disk.unnumbered.metadataCount = disk.metadataCount := by
  simp only [metadataCount, unnumbered, List.countP_map]
  rfl

end PedDisk

section Enumerate

variable {ops : PedDiskOps π δ} {env : Env} {s : Session π δ}

theorem partitionEnumerate_unnumbered (part : PedPartition π) :
    Spec (fun _ => True) (partitionEnumerate ops env part) s
      fun _ s' => s'.disk.unnumbered = s.disk.unnumbered := by
  unfold partitionEnumerate
  simp only [spec_bind, spec_getDisk, spec_ask, spec_modifyDisk, spec_pure,
    PedDisk.setNum_unnumbered]
  rw [spec_iff]
  exact ⟨fun _ _ _ => trivial, fun _ _ => trivial⟩

theorem enumerateNumbered_unnumbered (is : List ℕ) :
    Spec (fun _ => True) (enumerateNumbered ops env is) s
      fun _ s' => s'.disk.unnumbered = s.disk.unnumbered := by
  induction is generalizing s with
  | nil => rfl
  | cons i rest ih =>
      unfold enumerateNumbered
      simp only [spec_bind, spec_getDisk]
      cases pedDiskGetPartition s.disk i with
      | none => exact ih
      | some walk =>
          refine (partitionEnumerate_unnumbered walk).seq fun ok s' hs' => ?_
          cases ok with
          | true => exact ih.imp fun _ _ h => h.trans hs'
          | false => exact hs'

theorem enumerateUnnumbered_unnumbered (l : List (PedPartition π)) :
    Spec (fun _ => True) (enumerateUnnumbered ops env l) s
      fun _ s' => s'.disk.unnumbered = s.disk.unnumbered := by
  induction l generalizing s with
  | nil => rfl
  | cons walk rest ih =>
      unfold enumerateUnnumbered
      refine Spec.ite (fun _ => ?_) fun _ => ih
      refine (partitionEnumerate_unnumbered walk).seq fun ok s' hs' => ?_
      cases ok with
      | true => exact ih.imp fun _ _ h => h.trans hs'
      | false => exact hs'

/-- Numbering changes numbers and nothing else, whatever the label does. -/
theorem pedDiskEnumeratePartitions_unnumbered :
    Spec (fun _ => True) (pedDiskEnumeratePartitions ops env) s
      fun _ s' => s'.disk.unnumbered = s.disk.unnumbered := by
  unfold pedDiskEnumeratePartitions
  simp only [spec_bind, spec_getDisk]
  refine (enumerateNumbered_unnumbered _).imp fun ok s' hs' => ?_
  cases ok with
  | true => exact (enumerateUnnumbered_unnumbered _).imp fun _ _ h => h.trans hs'
  | false => exact hs'

end Enumerate

/-! ## Removing placeholders -/

theorem filter_eraseP {p q : PedPartition π → Bool} (h : ∀ part, q part = true → p part = false)
    (l : List (PedPartition π)) : (l.eraseP q).filter p = l.filter p := by
  induction l with
  | nil => rfl
  | cons part rest ih =>
      cases hq : q part with
      | true => simp [List.eraseP_cons_of_pos hq, h part hq]
      | false => simp [List.eraseP_cons_of_neg (by simpa using hq), List.filter_cons, ih]

theorem countP_eraseP (q : PedPartition π → Bool) (l : List (PedPartition π)) :
    (l.eraseP q).countP q = l.countP q - 1 := by
  induction l with
  | nil => rfl
  | cons part rest ih =>
      cases hq : q part with
      | true => simp [List.eraseP_cons_of_pos hq, List.countP_cons_of_pos hq]
      | false =>
          have hq' : ¬ q part = true := by simp [hq]
          rw [List.eraseP_cons_of_neg hq', List.countP_cons_of_neg hq',
            List.countP_cons_of_neg hq', ih]

namespace PedDisk

variable {disk : PedDisk π δ}

@[simp] theorem core_unlinkFirstMetadata (disk : PedDisk π δ) :
    (unlinkFirstMetadata disk).core = disk.core := by
  have h : ∀ part : PedPartition π, part.type.metadata = true → part.isActive = false := by
    intro part hpart
    simp [PedPartition.isActive, hpart]
  unfold unlinkFirstMetadata
  dsimp only
  split <;> simp [core, strip, withMode, filter_eraseP h]

@[simp] theorem updateMode_unlinkFirstMetadata (disk : PedDisk π δ) :
    (unlinkFirstMetadata disk).updateMode = disk.updateMode := by
  unfold unlinkFirstMetadata
  dsimp only
  split <;> rfl

/-- Unlinking takes one metadata entry off the lists, as long as there is one. -/
theorem metadataCount_unlinkFirstMetadata (disk : PedDisk π δ) :
    (unlinkFirstMetadata disk).metadataCount = disk.metadataCount - 1 := by
  unfold unlinkFirstMetadata
  dsimp only
  split
  case isTrue h =>
    simp only [Bool.and_eq_true, List.any_eq_true] at h
    have hpos : 0 < disk.logicals.countP (·.type.metadata) := List.countP_pos_iff.mpr h.2
    simp only [metadataCount, countP_eraseP]
    omega
  case isFalse h =>
    have hcase : 0 < disk.partList.countP (·.type.metadata) ∨
        disk.logicals.countP (·.type.metadata) = 0 := by
      by_contra hno
      push Not at hno
      obtain ⟨hnone, hsome⟩ := hno
      refine h (Bool.and_eq_true_iff.mpr ⟨?_, ?_⟩)
      · simp only [Bool.not_eq_true', List.any_eq_false]
        intro part hpart hmeta
        have hpos : 0 < disk.partList.countP (·.type.metadata) := List.countP_pos_iff.mpr
          ⟨part, (List.takeWhile_prefix _).subset hpart, hmeta⟩
        omega
      · exact List.any_eq_true.mpr (List.countP_pos_iff.mp (Nat.pos_of_ne_zero hsome))
    simp only [metadataCount, countP_eraseP]
    omega

theorem noFreespace_diskRemoveFreespace (disk : PedDisk π δ) :
    (diskRemoveFreespace disk).NoFreespace := by
  constructor
  · intro part hpart
    simpa using (List.mem_filter.mp hpart).2
  · intro part hpart
    simpa using (List.mem_filter.mp hpart).2

theorem Each.unlinkFirstMetadata {P Q : PedPartition π → Prop} (h : disk.Each P Q) :
    (unlinkFirstMetadata disk).Each P Q := by
  refine h.subset ?_ ?_ <;> unfold Libparted.unlinkFirstMetadata <;> dsimp only <;> split
  · exact List.Subset.refl _
  · exact fun _ hpart => List.mem_of_mem_eraseP hpart
  · exact fun _ hpart => List.mem_of_mem_eraseP hpart
  · exact List.Subset.refl _

theorem Each.diskRemoveFreespace {P Q : PedPartition π → Prop} (h : disk.Each P Q) :
    (diskRemoveFreespace disk).Each P Q :=
  h.subset (fun _ hpart => (List.mem_filter.mp hpart).1) fun _ hpart => (List.mem_filter.mp hpart).1

theorem clean_of_noFreespace (h : disk.NoFreespace) (hmeta : disk.metadataCount = 0) :
    disk.Clean := by
  unfold metadataCount at hmeta
  constructor
  · intro part hpart
    have hno := List.countP_eq_zero.mp (by omega : disk.partList.countP (·.type.metadata) = 0)
    simp [PedPartition.isActive, h.1 part hpart, hno part hpart]
  · intro part hpart
    have hno := List.countP_eq_zero.mp (by omega : disk.logicals.countP (·.type.metadata) = 0)
    simp [PedPartition.isActive, h.2 part hpart, hno part hpart]

@[simp] theorem core_diskRemoveFreespace (disk : PedDisk π δ) :
    (diskRemoveFreespace disk).core = disk.core := by
  have h : ∀ l : List (PedPartition π),
      (l.filter fun part => !part.type.freespace).filter PedPartition.isActive
        = l.filter PedPartition.isActive := by
    intro l
    rw [List.filter_filter]
    refine List.filter_congr fun part _ => ?_
    cases hf : part.type.freespace <;> simp [PedPartition.isActive, hf]
  simp [core, strip, withMode, diskRemoveFreespace, h]

end PedDisk

/-- The faults of `_disk_check_sanity`. -/
def SanityFault (f : Fault) : Prop :=
  f = .assertion "!(walk->type & PED_PARTITION_LOGICAL)" ∨
    f = .assertion "walk->type & PED_PARTITION_LOGICAL"

theorem diskCheckSanity_error {disk : PedDisk π δ} {f : Fault}
    (h : diskCheckSanity disk = .error f) : SanityFault f := by
  unfold diskCheckSanity pedAssert at h
  split at h
  · simp only [ok_bind] at h
    cases hext : pedDiskExtendedPartition disk with
    | none => simp [hext] at h
    | some ext =>
        simp only [hext] at h
        split at h
        · simp at h
        · cases h
          exact Or.inr rfl
  · cases h
    exact Or.inl rfl

theorem PedDisk.Leveled.sane {disk : PedDisk π δ} (h : disk.Leveled) :
    diskCheckSanity disk = .ok () := by
  unfold diskCheckSanity pedAssert
  rw [if_pos (List.all_eq_true.mpr fun walk hwalk => by simp [h.1 walk hwalk]), ok_bind]
  cases pedDiskExtendedPartition disk with
  | none => rfl
  | some ext => exact if_pos (List.all_eq_true.mpr h.2)

/-- The sanity check either passes or, where it may fail, stops with its fault. -/
theorem spec_sanity {E : Fault → Prop} {s : Session π δ} {disk : PedDisk π δ}
    {Q : Unit → Session π δ → Prop}
    (h : disk.Leveled ∨ ∀ f, SanityFault f → E f) (hQ : Q () s) :
    Spec E (liftM (diskCheckSanity disk) : DiskM π δ Unit) s Q := by
  rw [spec_lift]
  refine ⟨fun _ _ => hQ, fun f hf => ?_⟩
  rcases h with h | h
  · rw [h.sane] at hf
    simp at hf
  · exact h f (diskCheckSanity_error hf)

section Push

variable {ops : PedDiskOps π δ} {env : Env} {s : Session π δ} {E : Fault → Prop}
  {I : PedDisk π δ → Prop} {T : PedPartition π → Prop}

/-- A property of the table survives the deletion of one metadata entry if it
survives renumbering. -/
theorem deleteMetadata_spec
    (henum : ∀ s : Session π δ, I s.disk.core → s.disk.Padding T →
      Spec E (pedDiskEnumeratePartitions ops env) s
        fun _ s' => I s'.disk.core ∧ s'.disk.Padding T)
    (hs : I s.disk.core) (hpad : s.disk.Padding T) :
    Spec E (deleteMetadata ops env) s fun _ s' => I s'.disk.core ∧ s'.disk.Padding T ∧
      s'.disk.updateMode = s.disk.updateMode ∧
      s'.disk.metadataCount = s.disk.metadataCount - 1 ∧
      (s.disk.NoFreespace → s'.disk.NoFreespace) ∧ (s.disk.Leveled → s'.disk.Leveled) := by
  unfold deleteMetadata enterNested leaveNested
  simp only [spec_bind, spec_modifyDisk, PedDisk.updateMode_withMode, PedDisk.withMode_withMode,
    PedDisk.unlinkFirstMetadata_withMode]
  refine (henum _ (by simpa using hs) ((PedDisk.each_withMode _ _).mpr
    hpad.unlinkFirstMetadata)).of_and pedDiskEnumeratePartitions_unnumbered
    fun _ s' hkept hnum => ?_
  obtain ⟨hI, hpad'⟩ := hkept
  simp only [PedDisk.unnumbered_withMode] at hnum
  have hmode : s'.disk.updateMode = s.disk.updateMode + 1 := congrArg PedDisk.updateMode hnum
  have hkeep : ∀ P Q : PedPartition π → Prop, (∀ part num, P { part with num := num } ↔ P part) →
      (∀ part num, Q { part with num := num } ↔ Q part) → s.disk.Each P Q → s'.disk.Each P Q :=
    fun P Q hP hQ h => ((PedDisk.each_withMode _ (s.disk.updateMode + 1)).mpr
      h.unlinkFirstMetadata).renumbered hP hQ hnum
  refine ⟨by simpa using hI, hpad', by simp [hmode], ?_,
    hkeep _ _ (fun _ _ => Iff.rfl) fun _ _ => Iff.rfl,
    hkeep _ _ (fun _ _ => Iff.rfl) fun _ _ => Iff.rfl⟩
  have hcount := congrArg PedDisk.metadataCount hnum
  simpa [PedDisk.metadataCount_unnumbered, PedDisk.metadataCount_unlinkFirstMetadata] using hcount

theorem deleteMetadataLoop_spec
    (henum : ∀ s : Session π δ, I s.disk.core → s.disk.Padding T →
      Spec E (pedDiskEnumeratePartitions ops env) s
        fun _ s' => I s'.disk.core ∧ s'.disk.Padding T)
    (n : ℕ) (hs : I s.disk.core) (hpad : s.disk.Padding T) :
    Spec E (deleteMetadataLoop ops env n) s fun _ s' => I s'.disk.core ∧
      s'.disk.updateMode = s.disk.updateMode ∧
      s'.disk.metadataCount = s.disk.metadataCount - n ∧
      (s.disk.NoFreespace → s'.disk.NoFreespace) ∧ (s.disk.Leveled → s'.disk.Leveled) := by
  induction n generalizing s with
  | zero => exact ⟨hs, rfl, rfl, id, id⟩
  | succ n ih =>
      refine (deleteMetadata_spec henum hs hpad).seq
        fun _ s₁ ⟨hI, hpad₁, hmode, hcount, hfree, hlev⟩ => ?_
      refine (ih hI hpad₁).imp fun _ s₂ ⟨hI₂, hmode₂, hcount₂, hfree₂, hlev₂⟩ => ?_
      exact ⟨hI₂, hmode₂.trans hmode, by omega, hfree₂ ∘ hfree, hlev₂ ∘ hlev⟩

/-- **Entering update mode** removes the placeholders and keeps every property of
the table that renumbering keeps. -/
theorem diskPushUpdateMode_spec
    (henum : ∀ s : Session π δ, I s.disk.core → s.disk.Padding T →
      Spec E (pedDiskEnumeratePartitions ops env) s
        fun _ s' => I s'.disk.core ∧ s'.disk.Padding T)
    (hsane : s.disk.Leveled ∨ ∀ f, SanityFault f → E f)
    (hclean : s.disk.updateMode ≠ 0 → s.disk.Clean) (hs : I s.disk.core)
    (hpad : s.disk.Padding T) :
    Spec E (diskPushUpdateMode ops env) s fun ok s' => ok = true ∧ I s'.disk.core ∧
      s'.disk.updateMode = s.disk.updateMode + 1 ∧ s'.disk.Clean ∧
      (s.disk.Leveled → s'.disk.Leveled) := by
  unfold diskPushUpdateMode diskRemoveMetadata enterNested
  simp only [spec_bind, spec_getDisk]
  refine Spec.ite (fun hzero => ?_) fun hpos => ?_
  · simp only [spec_bind, spec_getDisk]
    refine spec_sanity hsane ?_
    simp only [spec_modifyDisk, PedDisk.metadataCount_withMode]
    refine (deleteMetadataLoop_spec henum _ (by simpa using hs) ((PedDisk.each_withMode _ _).mpr
      hpad.diskRemoveFreespace)).imp fun _ s' hpushed => ?_
    obtain ⟨hI, hmode, hcount, hfree, hlev⟩ := hpushed
    have hlev' : s.disk.Leveled → s'.disk.Leveled := fun h => hlev
      ((PedDisk.each_withMode _ _).mpr h.diskRemoveFreespace)
    refine spec_sanity (hsane.imp hlev' id) ⟨rfl, hI, hmode, ?_, hlev'⟩
    refine PedDisk.clean_of_noFreespace (hfree (PedDisk.noFreespace_diskRemoveFreespace _)) ?_
    simp only [PedDisk.metadataCount_withMode, Nat.sub_self] at hcount
    exact hcount
  · simp only [spec_bind, spec_modifyDisk, spec_pure]
    exact ⟨trivial, by simpa using hs, rfl, hclean hpos, id⟩

end Push

/-! ## Allocating placeholders -/

/-- Filling gaps leaves no sector out, in whatever order the entries are. -/
theorem exists_mem_fillGaps {logical : Bool} {stop last : ℤ} {hlast : -1 ≤ last}
    (l : List (PedPartition π)) {x : ℤ} (hx : last < x) (hstop : x ≤ stop) :
    ∃ part ∈ fillGaps logical stop last hlast l, part.lo ≤ x ∧ x ≤ part.hi := by
  induction l generalizing last with
  | nil =>
      unfold fillGaps
      rw [dif_pos (by omega)]
      refine ⟨_, List.mem_singleton_self _, ?_, ?_⟩
      · simp only [PedPartition.lo, PedPartition.placeholder, PedGeometry.ofStartEnd_start]
        omega
      · simpa only [PedPartition.hi, PedPartition.placeholder, PedGeometry.ofStartEnd_end]
  | cons walk rest ih =>
      have hwalk := walk.geom.end_nonneg
      -- the first entry that does not end below `x` covers it, or a gap before it does
      by_cases hend : walk.geom.end < x
      · obtain ⟨part, hpart, hcover⟩ := @ih walk.geom.end (by omega) hend
        refine ⟨part, ?_, hcover⟩
        unfold fillGaps
        dsimp only
        split
        · exact List.mem_cons_of_mem _ (List.mem_cons_of_mem _ hpart)
        · exact List.mem_cons_of_mem _ hpart
      · unfold fillGaps
        dsimp only
        split
        case isTrue hgap =>
          by_cases hstart : walk.geom.start ≤ x
          · exact ⟨walk, List.mem_cons_of_mem _ List.mem_cons_self, hstart, not_lt.mp hend⟩
          · refine ⟨_, List.mem_cons_self, ?_, ?_⟩
            · simp only [PedPartition.lo, PedPartition.placeholder, PedGeometry.ofStartEnd_start]
              omega
            · simp only [PedPartition.hi, PedPartition.placeholder, PedGeometry.ofStartEnd_end]
              omega
        case isFalse hgap =>
          refine ⟨walk, List.mem_cons_self, ?_, not_lt.mp hend⟩
          simp only [PedPartition.lo]
          omega

/-- Filling gaps adds free space and nothing else. -/
theorem mem_fillGaps {logical : Bool} {stop last : ℤ} {hlast : -1 ≤ last}
    {l : List (PedPartition π)} {part : PedPartition π}
    (h : part ∈ fillGaps logical stop last hlast l) :
    part ∈ l ∨ ∃ geom, part = .placeholder (.ofFreespace logical) geom := by
  induction l generalizing last with
  | nil =>
      unfold fillGaps at h
      split at h
      · exact Or.inr ⟨_, List.mem_singleton.mp h⟩
      · exact absurd h List.not_mem_nil
  | cons walk rest ih =>
      have htail : part ∈ walk :: fillGaps logical stop walk.geom.end
          (by have := walk.geom.end_nonneg; omega) rest →
          part ∈ walk :: rest ∨ ∃ geom, part = .placeholder (.ofFreespace logical) geom := by
        intro h
        rcases List.mem_cons.mp h with rfl | h
        · exact Or.inl List.mem_cons_self
        · exact (ih h).imp_left (List.mem_cons_of_mem _)
      unfold fillGaps at h
      dsimp only at h
      split at h
      · rcases List.mem_cons.mp h with rfl | h
        · exact Or.inr ⟨_, rfl⟩
        · exact htail h
      · exact htail h

theorem filter_fillGaps {logical : Bool} {stop last : ℤ} {hlast : -1 ≤ last}
    (l : List (PedPartition π)) :
    (fillGaps logical stop last hlast l).filter PedPartition.isActive
      = l.filter PedPartition.isActive := by
  have hfree : ∀ geom, (PedPartition.placeholder (.ofFreespace logical) geom
      : PedPartition π).isActive = false := fun _ => rfl
  induction l generalizing last with
  | nil =>
      unfold fillGaps
      split
      · simp [hfree]
      · rfl
  | cons walk rest ih =>
      unfold fillGaps
      dsimp only
      split
      · rw [List.filter_cons_of_neg (by simp [hfree]), List.filter_cons, List.filter_cons, ih]
      · rw [List.filter_cons, List.filter_cons, ih]

namespace PedDisk

@[simp] theorem core_diskAllocFreespace (env : Env) (disk : PedDisk π δ) :
    (diskAllocFreespace env disk).core = disk.core := by
  rw [← core_diskRemoveFreespace disk]
  unfold diskAllocFreespace allocExtendedFreespace
  cases pedDiskExtendedPartition (diskRemoveFreespace disk) with
  | none => simp [core, strip, withMode, filter_fillGaps]
  | some ext => simp [core, strip, withMode, filter_fillGaps]

@[simp] theorem updateMode_diskAllocFreespace (env : Env) (disk : PedDisk π δ) :
    (diskAllocFreespace env disk).updateMode = disk.updateMode := by
  unfold diskAllocFreespace allocExtendedFreespace
  cases pedDiskExtendedPartition (diskRemoveFreespace disk) with
  | none => rfl
  | some ext => rfl

/-- Allocating free space keeps what all entries have and free space has, too. -/
theorem Each.diskAllocFreespace {env : Env} {disk : PedDisk π δ} {P Q : PedPartition π → Prop}
    (h : disk.Each P Q) (hP : ∀ geom, P (.placeholder (.ofFreespace false) geom))
    (hQ : ∀ geom, Q (.placeholder (.ofFreespace true) geom)) :
    (diskAllocFreespace env disk).Each P Q := by
  have h' := h.diskRemoveFreespace
  unfold Libparted.diskAllocFreespace allocExtendedFreespace
  constructor
  · intro part hpart
    rcases mem_fillGaps hpart with hpart | ⟨geom, rfl⟩
    · refine h'.1 part ?_
      revert hpart
      cases pedDiskExtendedPartition (Libparted.diskRemoveFreespace disk) <;> exact id
    · exact hP geom
  · intro part hpart
    dsimp only at hpart
    cases hext : pedDiskExtendedPartition (Libparted.diskRemoveFreespace disk) with
    | none =>
        rw [hext] at hpart
        exact h'.2 part hpart
    | some ext =>
        rw [hext] at hpart
        rcases mem_fillGaps hpart with hpart | ⟨geom, rfl⟩
        · exact h'.2 part hpart
        · exact hQ geom

end PedDisk

/-- `disk'` is `disk` with more placeholders on it, each on the list its type asks
for. -/
structure PedDisk.Padded (disk disk' : PedDisk π δ) : Prop where
  strip : disk'.strip = disk.strip
  leveled : disk.Leveled → disk'.Leveled
  padding : ∀ T : PedPartition π → Prop, (∀ type geom, T (.placeholder type geom)) →
    disk.Padding T → disk'.Padding T

theorem PedDisk.Padded.refl (disk : PedDisk π δ) : disk.Padded disk :=
  ⟨rfl, id, fun _ _ h => h⟩

theorem PedDisk.Padded.trans {a b c : PedDisk π δ} (h : a.Padded b) (h' : b.Padded c) :
    a.Padded c :=
  ⟨h'.strip.trans h.strip, h'.leveled ∘ h.leveled,
    fun T hT hpad => h'.padding T hT (h.padding T hT hpad)⟩

/-- A disk label.  Its allocator of metadata adds placeholder entries; to the rest of
the disk it does nothing. -/
structure PedDiskType (π δ : Type) extends PedDiskOps π δ where
  allocMetadata : Env → DiskM π δ Bool
  allocMetadata_frame : ∀ env s, Spec (fun _ => True) (allocMetadata env) s
    fun _ s' => s.disk.Padded s'.disk

section Pop

variable {alloc : Env → DiskM π δ Bool} {env : Env} {s : Session π δ} {E : Fault → Prop}
  {T : PedPartition π → Prop}

/-- **Leaving update mode** adds placeholders and keeps the table. -/
theorem diskPopUpdateMode_spec
    (halloc : s.disk.updateMode = 1 → Spec E (alloc env) s fun _ s' => s.disk.Padded s'.disk)
    (hsane : s.disk.Leveled ∨ ∀ f, SanityFault f → E f) (hmode : s.disk.updateMode ≠ 0)
    (hT : ∀ type geom, T (.placeholder type geom)) (hpad : s.disk.Padding T) :
    Spec E (diskPopUpdateMode alloc env) s fun ok s' => ok = true ∧
      s'.disk.core = s.disk.core ∧ s'.disk.updateMode = s.disk.updateMode - 1 ∧
      (s'.disk.updateMode ≠ 0 → s.disk.Clean → s'.disk.Clean) ∧
      (s.disk.Leveled → s'.disk.Leveled) ∧ s'.disk.Padding T := by
  unfold diskPopUpdateMode leaveNested
  simp only [spec_bind, spec_getDisk, spec_assertThat]
  refine ⟨fun _ => ?_, fun hno => absurd hmode (by simpa using hno)⟩
  refine Spec.ite (fun hone => ?_) fun hne => ?_
  · simp only [spec_bind, spec_getDisk, spec_modifyDisk]
    refine spec_sanity hsane ((halloc hone).imp fun _ s' hpadded => ?_)
    have hmode' : s'.disk.updateMode = 1 := by
      have := congrArg PedDisk.updateMode hpadded.strip
      simpa [hone] using this
    have hlev' : s.disk.Leveled →
        (diskAllocFreespace env (s'.disk.withMode (s'.disk.updateMode - 1))).Leveled :=
      fun h => PedDisk.Each.diskAllocFreespace
        ((PedDisk.each_withMode _ _).mpr (hpadded.leveled h)) (fun _ => rfl) fun _ => rfl
    refine spec_sanity (hsane.imp hlev' id) ⟨rfl, ?_, ?_, fun hpos => ?_, hlev', ?_⟩
    · rw [PedDisk.core_diskAllocFreespace, PedDisk.core_withMode]
      exact congrArg (PedDisk.withMode · 0) hpadded.strip
    · simp [hmode', hone]
    · simp [hmode'] at hpos
    · exact PedDisk.Each.diskAllocFreespace
        ((PedDisk.each_withMode _ _).mpr (hpadded.padding T hT hpad))
        (fun geom _ => hT _ geom) fun geom _ => hT _ geom
  · simp only [spec_bind, spec_modifyDisk, spec_pure]
    exact ⟨trivial, rfl, rfl, fun _ h => h, id, hpad⟩

/-- Leaving update mode ends with filling the gaps between what the allocator of metadata
has left. -/
theorem diskPopUpdateMode_fills (label : PedDiskType π δ) (hmode : s.disk.updateMode = 1) :
    Spec (fun _ => True) (diskPopUpdateMode label.allocMetadata env) s fun _ s' =>
      ∃ disk, s'.disk = diskAllocFreespace env disk := by
  unfold diskPopUpdateMode leaveNested
  simp only [spec_bind, spec_getDisk, spec_assertThat]
  refine ⟨fun _ => ?_, fun _ => trivial⟩
  rw [if_pos hmode]
  simp only [spec_bind, spec_getDisk, spec_modifyDisk]
  refine spec_sanity (Or.inr fun _ _ => trivial) ?_
  refine (label.allocMetadata_frame env s).imp fun _ s' _ => ?_
  exact spec_sanity (Or.inr fun _ _ => trivial) ⟨_, rfl⟩

/-- Leaving update mode does not report failure. -/
theorem diskPopUpdateMode_true :
    Spec (fun _ => True) (diskPopUpdateMode alloc env) s fun ok _ => ok = true := by
  unfold diskPopUpdateMode leaveNested
  simp only [spec_bind, spec_getDisk, spec_assertThat]
  refine ⟨fun _ => Spec.ite (fun _ => ?_) fun _ => rfl, fun _ => trivial⟩
  simp only [spec_bind, spec_getDisk, spec_modifyDisk]
  refine spec_sanity (Or.inr fun _ _ => trivial) (spec_iff.mpr ⟨fun _ s' _ => ?_, fun _ _ => trivial⟩)
  exact spec_sanity (Or.inr fun _ _ => trivial) rfl

/-- Leaving update mode, where it is known which metadata is allocated. -/
theorem diskPopUpdateMode_run {disk : PedDisk π δ} {ok : Bool} (hmode : s.disk.updateMode = 1)
    (hlev : s.disk.Leveled) (hdisk : disk.Leveled)
    (halloc : Spec E (alloc env) s fun r s' => r = ok ∧ s' = { s with disk := disk }) :
    Spec E (diskPopUpdateMode alloc env) s fun r s' => r = true ∧ s' =
      { s with disk := diskAllocFreespace env (disk.withMode (disk.updateMode - 1)) } := by
  unfold diskPopUpdateMode leaveNested
  simp only [spec_bind, spec_getDisk, spec_assertThat]
  refine ⟨fun _ => ?_, fun hno => ?_⟩
  · rw [if_pos hmode]
    simp only [spec_bind, spec_getDisk, spec_modifyDisk]
    refine spec_sanity (Or.inl hlev) (halloc.imp ?_)
    rintro _ _ ⟨-, rfl⟩
    refine spec_sanity (Or.inl ?_) ⟨rfl, rfl⟩
    exact PedDisk.Each.diskAllocFreespace ((PedDisk.each_withMode _ _).mpr hdisk) (fun _ => rfl)
      fun _ => rfl
  · simp [hmode] at hno

end Pop

/-! ## Nested pushes and pops -/

/-- Inside update mode a push only counts. -/
theorem diskPushUpdateMode_nested {ops : PedDiskOps π δ} {env : Env} {s : Session π δ}
    (h : s.disk.updateMode ≠ 0) :
    diskPushUpdateMode ops env s = (do enterNested; return true : DiskM π δ Bool) s := by
  unfold diskPushUpdateMode getDisk
  simp only [bind, StateT.bind, get, getThe, MonadStateOf.get, StateT.get, Except.bind, pure,
    StateT.pure, Except.pure, if_neg h]

/-- Inside update mode a pop that does not leave it only counts. -/
theorem diskPopUpdateMode_nested {alloc : Env → DiskM π δ Bool} {env : Env} {s : Session π δ}
    (h : 1 < s.disk.updateMode) :
    diskPopUpdateMode alloc env s = (do leaveNested; return true : DiskM π δ Bool) s := by
  have h0 : s.disk.updateMode ≠ 0 := by omega
  have h1 : s.disk.updateMode ≠ 1 := by omega
  unfold diskPopUpdateMode getDisk assertThat
  simp only [bind, StateT.bind, get, getThe, MonadStateOf.get, StateT.get, Except.bind, pure,
    StateT.pure, Except.pure, liftM, monadLift, MonadLift.monadLift, StateT.lift, pedAssert, ne_eq,
    h0, not_false_eq_true, decide_true, if_true, if_neg h1]

end Libparted
