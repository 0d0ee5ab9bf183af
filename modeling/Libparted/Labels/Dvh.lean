import Libparted.Labels.Numbers

/-!
# Partition numbers on DVH labels (`libparted/labels/dvh.c`)

An extended partition is the volume header of the disk, logical partitions are the boot
files in it, and normal ones are all else.  The three take their numbers from one range:
the volume header is number 9, boot files are 17 to 31, and the others are what is left
of 1 to 16 when 9 and 11, the number of the whole volume, are taken out.

`dvh_partition_enumerate` never changes a number, and finds one for an object that has
none, with three exceptions.

* A volume header is given the number 9, and then the function returns 0.
* The search for an ordinary partition leaves out 11 but not 9.  Without a volume header
  the ninth partition is number 9.
* The search for a boot file ends in `PED_ASSERT (0)` when all fifteen numbers are in use,
  and nothing has counted the boot files before.

`dvhPartitionEnumerate_proper_iff` says that these are all, and `dvh_numbers_of_calls`
that the numbers stay in order along every run of calls that avoids them.
-/

namespace Libparted

open Library

variable {π δ : Type}

/-! ## The label -/

/-- `NPARTAB`. -/
def nPartab : ℕ := 16

/-- `NVDIR`. -/
def nVdir : ℕ := 15

/-- `PNUM_VOLHDR`. -/
def pnumVolhdr : ℕ := 8

/-- `PNUM_VOLUME`. -/
def pnumVolume : ℕ := 10

/-- `PTYPE_VOLHDR_DFLTSZ`. -/
def ptypeVolhdrDfltsz : ℤ := 4096

def dvhLimit : PartitionLimit := ⟨"dvh", 2 ^ 32 - 1, 2 ^ 32 - 1⟩

/-- `dvh_partition_enumerate`.  `_flush_stale_flags` only clears the flags of partitions
that are gone; the flags are not part of the model. -/
def dvhPartitionEnumerate (env : Env) (disk : PedDisk π δ) (part : PedPartition π) :
    Ask (Bool × ℤ) := do
  if part.num ≠ -1 then
    return (true, part.num)
  if part.type.logical then
    match (List.range' (1 + nPartab) nVdir).find?
        fun i : ℕ => (pedDiskGetPartition disk i).isNone with
    | some i => return (true, i)
    | none => throw (.assertion "0")
  else if part.type.extended then
    -- no `return 1` in this branch
    return (false, (pnumVolhdr + 1 : ℕ))
  else
    match (List.range' 1 nPartab).find?
        fun i : ℕ => i ≠ pnumVolume + 1 && (pedDiskGetPartition disk i).isNone with
    | some i => return (true, i)
    | none =>
        pedExceptionReport env "Too many primary partitions"
        return (false, part.num)

/-- `ped_constraint_new_from_min_max`. -/
def pedConstraintNewFromMinMax (min max : PedGeometry) : Except Fault PedConstraint := do
  pedAssert (pedGeometryTestInside max min) "ped_geometry_test_inside (max, min)"
  let startRange ← pedGeometryInitUnchecked max.start (min.start - max.start + 1)
  let endRange ← pedGeometryInitUnchecked min.end (max.end - min.end + 1)
  pedConstraintNew (some pedAlignmentAny) (some pedAlignmentAny) startRange endRange min.length
    max.length

/-- `ped_constraint_new_from_min`. -/
def pedConstraintNewFromMin (dev : PedDevice) (min : PedGeometry) : Except Fault PedConstraint := do
  pedConstraintNewFromMinMax min (← pedGeometryInitUnchecked 0 dev.length)

/-- `_get_extended_constraint`: the volume header contains the first sector. -/
def getExtendedConstraint (env : Env) : Ask (Option PedConstraint) := do
  match ← pedGeometryInit env 0 1 with
  | none => return none
  | some minGeom => return some (← pedConstraintNewFromMin env.dev minGeom)

/-- `_get_primary_constraint`: nothing else does. -/
def getPrimaryConstraint (env : Env) : Ask (Option PedConstraint) := do
  match ← pedGeometryInit env 1 (env.dev.length - 1) with
  | none => return none
  | some maxGeom => return some (pedConstraintNewFromMax maxGeom)

/-- The constraint of the label for a partition. -/
def dvhConstraint (env : Env) (part : PedPartition π) : Ask (Option PedConstraint) :=
  if part.isExtended then getExtendedConstraint env else getPrimaryConstraint env

/-- `dvh_partition_align`. -/
def dvhPartitionAlign (env : Env) (_ : PedDisk π δ) (part : PedPartition π)
    (constraint : Option PedConstraint) : Ask (Bool × PedGeometry) := do
  let internal ← dvhConstraint env part
  alignTo env part (← tryConstraint env part constraint internal)

def dvhOps : PedDiskOps π δ where
  name := "dvh"
  extended := true
  getMaxPrimaryPartitionCount := fun _ => nPartab
  partitionEnumerate := dvhPartitionEnumerate
  partitionAlign := dvhPartitionAlign
  partitionCheck := fun env _ part => pttPartitionMaxStartLen env dvhLimit part

/-- `dvh_alloc_metadata`: the first sector, unless the volume header has it. -/
def dvhAllocMetadata (env : Env) : DiskM π δ Bool := do
  let inHeader := match pedDiskExtendedPartition (← getDisk) with
    | some ext => decide (ext.geom.start = 0)
    | none => false
  addMetadata dvhOps env inHeader 0 0

theorem dvhAllocMetadata_spec (env : Env) (s : Session π δ) :
    Spec MetadataFault (dvhAllocMetadata env) s fun _ s' => s.disk.Padded s'.disk :=
  Spec.bind (spec_getDisk.mpr (addMetadata_spec _ 0 0))

/-- `dvh_disk_type`. -/
def dvhDiskType : PedDiskType π δ where
  toPedDiskOps := dvhOps
  allocMetadata := dvhAllocMetadata
  allocMetadata_frame := fun env s => (dvhAllocMetadata_spec env s).mono (fun _ _ => trivial)
    fun _ _ h => h

/-- Runs a program on a disk of its own. -/
def withDisk {α : Type} (disk : PedDisk π δ) (x : DiskM π δ α) : Ask (α × PedDisk π δ) :=
  fun thrown => do
    let (a, s) ← x ⟨disk, thrown⟩
    return ((a, s.disk), s.thrown)

theorem spec_withDisk {α : Type} {E : Fault → Prop} {disk : PedDisk π δ} {x : DiskM π δ α}
    {thrown : List PedException} {Q : α × PedDisk π δ → List PedException → Prop} :
    Spec E (withDisk disk x) thrown Q ↔
      Spec E x ⟨disk, thrown⟩ fun a s => Q (a, s.disk) s.thrown := by
  unfold Spec withDisk
  cases x ⟨disk, thrown⟩ with
  | error e => exact Iff.rfl
  | ok r => exact Iff.rfl

/-- `dvh_alloc`.  The volume header is the object with the `id` 1; it has its number before
it is added. -/
def dvhAlloc (env : Env) (data : δ) (volumeData : π) : Ask (Option (PedDisk π δ)) := do
  match ← pedPartitionNew (dvhOps (π := π) (δ := δ)) env 1 .extended volumeData 0
      (ptypeVolhdrDfltsz - 1) with
  | none => return none
  | some volumePart =>
      let any ← pedConstraintAny env.dev
      let ((ok, _), disk) ← withDisk ⟨[], [], 1, false, data⟩ (pedDiskAddPartition dvhDiskType env
        { volumePart with num := (pnumVolhdr + 1 : ℕ) } any)
      return if ok then some disk else none

/-- `ped_disk_new_fresh` for this label. -/
def dvhDiskNewFresh (env : Env) (data : δ) (volumeData : π) : Ask (Option (PedDisk π δ)) := do
  match ← dvhAlloc env data volumeData with
  | none => return none
  | some disk =>
      let (ok, disk) ← withDisk disk (diskPopUpdateMode dvhAllocMetadata env)
      if !ok then
        return none
      liftM (pedAssert (disk.updateMode = 0) "disk->update_mode == 0")
      return some { disk with needsClobber := true }

/-! ## Numbers in order -/

/-- The numbers for partitions of a type. -/
def DvhClass (type : PedPartitionType) (num : ℤ) : Prop :=
  if type.logical then 17 ≤ num ∧ num ≤ 31
  else if type.extended then num = 9
  else 1 ≤ num ∧ num ≤ 16 ∧ num ≠ 9 ∧ num ≠ 11

/-- The numbers on a DVH disk: distinct, and each in its class. -/
structure DvhNumbered (table : PedDisk π δ) : Prop where
  distinct : ((table.partList ++ table.logicals).map (·.num)).Nodup
  inClass : ∀ part, table.Has part → DvhClass part.type part.num

/-- No partition has the number. -/
def DvhFree (table : PedDisk π δ) (num : ℤ) : Prop := ∀ other, table.Has other → other.num ≠ num

/-- The outcome of numbering an object: a free number of its class, or a refusal if there
is none. -/
def NumberedProperly (table : PedDisk π δ) (part : PedPartition π)
    (outcome : Except Fault ((Bool × ℤ) × List PedException)) : Prop :=
  ∃ ok num thrown, outcome = .ok ((ok, num), thrown) ∧
    (ok = true → DvhClass part.type num ∧ DvhFree table num) ∧
    (ok = false ↔ ∀ i, DvhClass part.type i → ¬ DvhFree table i)

/-- There is a volume header. -/
def HasHeader (table : PedDisk π δ) : Prop := ∃ part ∈ table.partList, part.type.extended = true

/-- When an object without a number can be added: a boot file, while there are fewer than
fifteen; anything else, while there is a volume header; and an ordinary partition also
without one, while a number below 9 is free. -/
def DvhAdmits (table : PedDisk π δ) (part : PedPartition π) : Prop :=
  if part.type.logical then table.logicals.length < nVdir
  else HasHeader table ∨
    part.type.extended = false ∧ ∃ i : ℤ, 1 ≤ i ∧ i ≤ 8 ∧ DvhFree table i

section Numbered

variable {env : Env} {table disk : PedDisk π δ} {part : PedPartition π}

theorem DvhClass.pos {type : PedPartitionType} {num : ℤ} (h : DvhClass type num) : 1 ≤ num := by
  unfold DvhClass at h
  split_ifs at h <;> omega

theorem DvhNumbered.allNumbered (h : DvhNumbered table) : AllNumbered table := by
  intro part hpart hnum
  have := (h.inClass part hpart).pos
  omega

theorem DvhNumbered.remove (h : DvhNumbered table) (id : ℕ) :
    DvhNumbered (diskRawRemove table id) :=
  ⟨nodup_diskRawRemove h.distinct id, fun part hpart =>
    h.inClass part (has_diskRawRemove.mp hpart).1⟩

theorem DvhNumbered.place (h : DvhNumbered table) (hclass : DvhClass part.type part.num)
    (hfree : DvhFree table part.num) : DvhNumbered (table.place part) := by
  refine ⟨nodup_place h.distinct hfree, fun other hother => ?_⟩
  rcases mem_place.mp hother with rfl | hother
  · exact hclass
  · exact h.inClass other hother

/-- The number 9 is in use exactly if there is a volume header. -/
theorem DvhNumbered.hasHeader_iff (h : DvhNumbered table) (hlinks : WellLinked table) :
    HasHeader table ↔ ¬ DvhFree table 9 := by
  constructor
  · rintro ⟨ext, hmem, hext⟩ hfree
    have hclass := h.inClass ext (Or.inl hmem)
    unfold DvhClass at hclass
    rw [if_neg (by simp [hlinks.leveled.1 ext hmem]), if_pos hext] at hclass
    exact hfree ext (Or.inl hmem) hclass
  · intro hused
    unfold DvhFree at hused
    push Not at hused
    obtain ⟨other, hother, hnum⟩ := hused
    have hclass := h.inClass other hother
    unfold DvhClass at hclass
    split_ifs at hclass with hlogical hext
    · omega
    · exact ⟨other, hother.resolve_right fun hlog => hlogical (hlinks.leveled.2 other hlog), hext⟩
    · omega

/-- A number for boot files is free exactly if there are fewer than fifteen. -/
theorem DvhNumbered.room_iff (h : DvhNumbered table) (hlinks : WellLinked table) :
    table.logicals.length < nVdir ↔ ∃ i : ℤ, 17 ≤ i ∧ i ≤ 31 ∧ DvhFree table i := by
  have hnodup : (table.logicals.map (·.num)).Nodup :=
    h.distinct.sublist ((List.sublist_append_right _ _).map _)
  have hcard : (table.logicals.map (·.num)).toFinset.card = table.logicals.length := by
    rw [List.toFinset_card_of_nodup hnodup, List.length_map]
  have hsub : (table.logicals.map (·.num)).toFinset ⊆ Finset.Icc 17 31 := by
    intro num hnum
    obtain ⟨part, hpart, rfl⟩ := List.mem_map.mp (List.mem_toFinset.mp hnum)
    have hclass := h.inClass part (Or.inr hpart)
    unfold DvhClass at hclass
    rw [if_pos (hlinks.leveled.2 part hpart)] at hclass
    exact Finset.mem_Icc.mpr hclass
  -- a number from 17 to 31 belongs to a boot file
  have hused : ∀ i : ℤ, 17 ≤ i → i ≤ 31 →
      (i ∈ (table.logicals.map (·.num)).toFinset ↔ ¬ DvhFree table i) := by
    intro i hlo hhi
    rw [List.mem_toFinset, List.mem_map]
    constructor
    · rintro ⟨part, hpart, rfl⟩ hfree
      exact hfree part (Or.inr hpart) rfl
    · intro hused
      unfold DvhFree at hused
      push Not at hused
      obtain ⟨other, hother, rfl⟩ := hused
      refine ⟨other, hother.resolve_left fun htop => ?_, rfl⟩
      have hclass := h.inClass other (Or.inl htop)
      unfold DvhClass at hclass
      rw [if_neg (by simp [hlinks.leveled.1 other htop])] at hclass
      split_ifs at hclass <;> omega
  have hfifteen : (Finset.Icc (17 : ℤ) 31).card = nVdir := by decide
  rw [← hcard, ← hfifteen]
  constructor
  · intro hlt
    obtain ⟨i, hi, hnot⟩ := Finset.exists_mem_notMem_of_card_lt_card hlt
    obtain ⟨hlo, hhi⟩ := Finset.mem_Icc.mp hi
    exact ⟨i, hlo, hhi, not_not.mp fun hno => hnot ((hused i hlo hhi).mpr hno)⟩
  · rintro ⟨i, hlo, hhi, hfree⟩
    refine Finset.card_lt_card ⟨hsub, fun hall => ?_⟩
    exact (hused i hlo hhi).mp (hall (Finset.mem_Icc.mpr ⟨hlo, hhi⟩)) hfree

/-! ## One number -/

theorem dvhPartitionEnumerate_keep {thrown : List PedException} (h : part.num ≠ -1) :
    dvhPartitionEnumerate env disk part thrown = .ok ((true, part.num), thrown) := by
  unfold dvhPartitionEnumerate
  rw [if_pos h]
  rfl

theorem dvhFree_iff (hlinks : WellLinked disk.core) (hpad : disk.Padding Unnumbered) (i : ℕ) :
    (pedDiskGetPartition disk i).isNone = true ↔ DvhFree disk.core i :=
  getPartition_isNone_iff hlinks hpad (by omega)

theorem numberedProperly_found {num : ℤ} {thrown : List PedException}
    (hfree : DvhFree table num) :
    NumberedProperly table part (.ok ((true, num), thrown)) ↔ DvhClass part.type num := by
  constructor
  · rintro ⟨ok, num', thrown', heq, hyes, -⟩
    cases heq
    exact (hyes rfl).1
  · intro hclass
    exact ⟨true, num, thrown, rfl, fun _ => ⟨hclass, hfree⟩,
      fun h => absurd h.symm Bool.false_ne_true, fun h => absurd hfree (h num hclass)⟩

theorem numberedProperly_refused {num : ℤ} {thrown : List PedException} :
    NumberedProperly table part (.ok ((false, num), thrown)) ↔
      ∀ i, DvhClass part.type i → ¬ DvhFree table i := by
  constructor
  · rintro ⟨ok, num', thrown', heq, -, hno⟩
    cases heq
    exact hno.mp rfl
  · exact fun h => ⟨false, num, thrown, rfl, fun h => absurd h Bool.false_ne_true,
      fun _ => h, fun _ => rfl⟩

section New

variable (hlinks : WellLinked disk.core) (hnums : DvhNumbered disk.core) (hnum : part.num = -1)
  (thrown : List PedException)

include hlinks hnums hnum

theorem dvhPartitionEnumerate_header (hlogical : part.type.logical = false)
    (hext : part.type.extended = true) :
    NumberedProperly disk.core part (dvhPartitionEnumerate env disk part thrown) ↔
      HasHeader disk.core := by
  rw [hnums.hasHeader_iff hlinks]
  have hrun : dvhPartitionEnumerate env disk part thrown = .ok ((false, 9), thrown) := by
    unfold dvhPartitionEnumerate
    rw [if_neg (not_not_intro hnum), if_neg (by simp [hlogical]), if_pos hext]
    rfl
  rw [hrun, numberedProperly_refused]
  have hclass : ∀ i, DvhClass part.type i ↔ i = 9 := by
    intro i
    unfold DvhClass
    rw [if_neg (by simp [hlogical]), if_pos hext]
  simp only [hclass, forall_eq]

variable (hpad : disk.Padding Unnumbered)

include hpad

theorem dvhPartitionEnumerate_bootFile (hlogical : part.type.logical = true) :
    NumberedProperly disk.core part (dvhPartitionEnumerate env disk part thrown) ↔
      disk.core.logicals.length < nVdir := by
  rw [hnums.room_iff hlinks]
  unfold dvhPartitionEnumerate
  rw [if_neg (not_not_intro hnum), if_pos hlogical]
  cases hfind : (List.range' (1 + nPartab) nVdir).find?
      fun i : ℕ => (pedDiskGetPartition disk i).isNone with
  | none =>
      rw [List.find?_range'_eq_none] at hfind
      refine ⟨fun ⟨_, _, _, h, _⟩ => (by cases h), fun ⟨i, hlo, hhi, hfree⟩ => ?_⟩
      lift i to ℕ using by omega
      have hused := hfind i (by simp only [nPartab]; omega) (by simp only [nPartab, nVdir]; omega)
      rw [(dvhFree_iff hlinks hpad i).mpr hfree] at hused
      exact absurd hused (by simp)
  | some i =>
      rw [List.find?_range'_eq_some, List.mem_range'_1] at hfind
      simp only [nPartab, nVdir] at hfind
      have hfree := (dvhFree_iff hlinks hpad i).mp hfind.1
      have hclass : DvhClass part.type i := by
        unfold DvhClass
        rw [if_pos hlogical]
        omega
      exact ⟨fun _ => ⟨i, by omega, by omega, hfree⟩,
        fun _ => (numberedProperly_found hfree).mpr hclass⟩

theorem dvhPartitionEnumerate_ordinary (hlogical : part.type.logical = false)
    (hext : part.type.extended = false) :
    NumberedProperly disk.core part (dvhPartitionEnumerate env disk part thrown) ↔
      HasHeader disk.core ∨ ∃ i : ℤ, 1 ≤ i ∧ i ≤ 8 ∧ DvhFree disk.core i := by
  rw [hnums.hasHeader_iff hlinks]
  have hclass : ∀ i, DvhClass part.type i ↔ 1 ≤ i ∧ i ≤ 16 ∧ i ≠ 9 ∧ i ≠ 11 := by
    intro i
    unfold DvhClass
    rw [if_neg (by simp [hlogical]), if_neg (by simp [hext])]
  unfold dvhPartitionEnumerate
  rw [if_neg (not_not_intro hnum), if_neg (by simp [hlogical]), if_neg (by simp [hext])]
  -- what the search has passed is in use
  have hpassed : ∀ i : ℕ, i ≠ 11 →
      ((!(decide (i ≠ pnumVolume + 1) && (pedDiskGetPartition disk i).isNone)) = true ↔
        ¬ DvhFree disk.core i) := by
    intro i hi
    rw [← dvhFree_iff hlinks hpad i]
    simp [pnumVolume, hi, Option.isSome_iff_ne_none]
  cases hfind : (List.range' 1 nPartab).find?
      fun i : ℕ => i ≠ pnumVolume + 1 && (pedDiskGetPartition disk i).isNone with
  | none =>
      rw [List.find?_range'_eq_none] at hfind
      have hused : ∀ i : ℕ, 1 ≤ i → i ≤ 16 → i ≠ 11 → ¬ DvhFree disk.core i := fun i hlo hhi hi =>
        (hpassed i hi).mp (hfind i hlo (by simp only [nPartab]; omega))
      refine ⟨fun _ => Or.inl (hused 9 (by decide) (by decide) (by decide)), fun _ => ?_⟩
      refine numberedProperly_refused.mpr fun i hi => ?_
      rw [hclass] at hi
      lift i to ℕ using by omega
      exact hused i (by omega) (by omega) (by omega)
  | some i =>
      rw [List.find?_range'_eq_some, List.mem_range'_1] at hfind
      obtain ⟨hfound, hrange, hbefore⟩ := hfind
      simp only [nPartab] at hrange
      rw [Bool.and_eq_true] at hfound
      have hvolume : i ≠ 11 := of_decide_eq_true hfound.1
      have hfree := (dvhFree_iff hlinks hpad i).mp hfound.2
      have hused : ∀ j : ℕ, 1 ≤ j → j < i → j ≠ 11 → ¬ DvhFree disk.core j := fun j hlo hlt hj =>
        (hpassed j hj).mp (hbefore j hlo hlt)
      refine (numberedProperly_found hfree).trans ?_
      rw [hclass]
      constructor
      · intro hi
        rcases Nat.lt_or_ge i 9 with hlt | hge
        · exact Or.inr ⟨i, by omega, by omega, hfree⟩
        · exact Or.inl (hused 9 (by decide) (by omega) (by decide))
      · rintro (hheader | ⟨j, hlo, hhi, hj⟩)
        · have hne : (i : ℤ) ≠ 9 := fun h => hheader (h ▸ hfree)
          omega
        · lift j to ℕ using by omega
          have hle : i ≤ j := not_lt.mp fun hlt => hused j (by omega) hlt (by omega) hj
          omega

/-- **Numbering an object** goes as it should exactly in the cases of `DvhAdmits`. -/
theorem dvhPartitionEnumerate_proper_iff :
    NumberedProperly disk.core part (dvhPartitionEnumerate env disk part thrown) ↔
      DvhAdmits disk.core part := by
  unfold DvhAdmits
  cases hlogical : part.type.logical with
  | true => exact dvhPartitionEnumerate_bootFile hlinks hnums hnum thrown hpad hlogical
  | false =>
      rw [if_neg Bool.false_ne_true]
      cases hext : part.type.extended with
      | true =>
          rw [dvhPartitionEnumerate_header hlinks hnums hnum thrown hlogical hext]
          simp
      | false =>
          rw [dvhPartitionEnumerate_ordinary hlinks hnums hnum thrown hpad hlogical hext]
          simp

end New

end Numbered

/-! ## Runs

A client of a new disk makes objects, adds each of them at most once and deletes
partitions. -/

/-- The calls of such a client, given the objects it has tried to add before: no object
is added twice, and none against `DvhAdmits`. -/
def DvhCall (added : List ℕ) (client : Client π δ) : ClientCall π → Prop
  | .new .. => True
  | .add id _ => id ∉ added ∧
      ∀ object ∈ client.loose, object.part.id = id → DvhAdmits client.table object.part
  | .delete _ => True
  | .remove _ => False
  | .setGeom .. => False

/-- The objects that have been added after a call. -/
def addedAfter (added : List ℕ) : ClientCall π → List ℕ
  | .add id _ => id :: added
  | _ => added

/-- The clients such calls lead to, from a new disk on. -/
inductive DvhRun (env : Env) : List ℕ → Client π δ → Prop
  | start {data : δ} {volumeData : π} {disk : PedDisk π δ} {thrown thrown' : List PedException}
      (hrun : dvhDiskNewFresh env data volumeData thrown = .ok (some disk, thrown')) :
      DvhRun env [] ⟨⟨disk, thrown'⟩, [], 2⟩
  | call {added : List ℕ} {client client' : Client π δ} (call : ClientCall π)
      (h : DvhRun env added client) (hcall : DvhCall added client call)
      (hrun : call.run dvhDiskType env client = .ok ((), client')) :
      DvhRun env (addedAfter added call) client'

section Runs

variable {env : Env} {table : PedDisk π δ} {part : PedPartition π} {s : Session π δ} {n : ℕ}

theorem dvh_allows : Allows OtherFault Unnumbered (dvhDiskType (π := π) (δ := δ)) env where
  other := fun _ hf => hf
  alloc := fun s => (dvhAllocMetadata_spec env s).mono (fun _ hf => hf.other) fun _ _ h => h
  placeholder := fun _ _ => ⟨rfl, rfl⟩
  moved := fun _ _ h => h

theorem dvh_keeps (disk : PedDisk π δ) (h : AllNumbered disk.core) :
    KeepsNumbers (dvhDiskType (π := π) (δ := δ)).toPedDiskOps env disk :=
  fun part _ hpart => dvhPartitionEnumerate_keep (h part hpart)

theorem pedConstraintNewFromMin_fails {dev : PedDevice} {min : PedGeometry} :
    Fails OtherFault (pedConstraintNewFromMin dev min) := by
  unfold pedConstraintNewFromMin pedConstraintNewFromMinMax
  refine (pedGeometryInitUnchecked_fails _ _).bind fun full _ => ?_
  refine (pedAssert_fails (by decide)).bind fun _ _ => ?_
  refine (pedGeometryInitUnchecked_fails _ _).bind fun startRange _ => ?_
  refine (pedGeometryInitUnchecked_fails _ _).bind fun endRange _ => ?_
  unfold pedConstraintNew
  split_ifs
  · exact fails_ok _
  · exact fails_error.mpr (by simp [OtherFault])
  · exact fails_error.mpr (by simp [OtherFault])

theorem dvhConstraint_spec {thrown : List PedException} :
    Spec OtherFault (dvhConstraint env part) thrown fun _ _ => True := by
  have hother : ∀ f, f = .assertion "start >= 0" → OtherFault f := fun f hf => by
    rw [hf]
    simp [OtherFault]
  refine Spec.ite (fun _ => ?_) fun _ => ?_
  · unfold getExtendedConstraint
    refine Spec.bind (pedGeometryInit_spec.mono hother fun r t' _ => ?_)
    cases r with
    | none => trivial
    | some geom => exact Spec.bind (Spec.lift pedConstraintNewFromMin_fails fun _ _ => trivial)
  · unfold getPrimaryConstraint
    refine Spec.bind (pedGeometryInit_spec.mono hother fun r t' _ => ?_)
    cases r with
    | none => trivial
    | some geom => trivial

theorem dvhPartitionAlign_spec (disk : PedDisk π δ) (part : PedPartition π)
    (constraint : Option PedConstraint) (thrown : List PedException) :
    Spec OtherFault (dvhPartitionAlign env disk part constraint) thrown fun _ _ => True := by
  unfold dvhPartitionAlign
  refine dvhConstraint_spec.seq fun internal t _ => ?_
  refine Spec.bind (Spec.lift tryConstraint_fails fun solution _ => ?_)
  exact alignTo_spec.mono (fun _ => False.elim) fun _ _ _ => trivial

theorem dvh_checks (disk : PedDisk π δ) (part : PedPartition π) (thrown : List PedException) :
    Spec OtherFault ((dvhDiskType (π := π) (δ := δ)).partitionCheck env disk part) thrown
      fun _ _ => True :=
  pttPartitionMaxStartLen_spec.mono (fun _ => False.elim) fun _ _ h => h

theorem dvh_renumbers {I : PedDisk π δ → Prop} (hI : ∀ c, I c → Orderly DvhNumbered c) :
    Renumbers dvhDiskType env OtherFault Unnumbered I I := by
  refine renumbers_keep fun disk hdisk _ => ?_
  have hgood := hI _ hdisk
  exact ⟨hgood.links, hgood.nums.allNumbered, dvh_keeps disk hgood.nums.allNumbered⟩

/-- What is right about a number: it fits if it is given. -/
def DvhFits (table : PedDisk π δ) (part : PedPartition π) (r : Bool × ℤ) : Prop :=
  r.1 = true → DvhClass part.type r.2 ∧ DvhFree table r.2

/-- **Adding** an object that has no number, or the number 9 and is a volume header. -/
theorem dvh_add (env : Env) (hgood : Orderly DvhNumbered table) (constraint : Option PedConstraint)
    (hnew : ∀ other, table.Has other → other.id ≠ part.id) (hact : part.isActive = true)
    (hnum : part.num = -1 ∧ DvhAdmits table part ∨
      part.num ≠ -1 ∧ DvhClass part.type part.num ∧ DvhFree table part.num)
    (hs : At Unnumbered (· = table) n s) :
    Spec OtherFault (pedDiskAddPartition dvhDiskType env part constraint) s fun r s' =>
      Prepared (DvhFits table part) part r.2 ∧
      (r.1 = true → At Unnumbered (PlacedAs (DvhFits table part) table part) n s') ∧
      (r.1 = false → At Unnumbered (· = table) n s') := by
  refine hs.addNumbered dvh_allows dvhPartitionAlign_spec dvh_checks
    (dvh_renumbers fun c hc => hc ▸ hgood) hgood.links constraint hnew hact
    fun disk thrown hclean hcore _ => ?_
  show Spec OtherFault (dvhPartitionEnumerate env disk part) thrown _
  obtain rfl := hcore
  rcases hnum with ⟨hnum, hadmits⟩ | ⟨hnum, hclass, hfree⟩
  · obtain ⟨ok, num, thrown', hrun, hyes, -⟩ := (dvhPartitionEnumerate_proper_iff hgood.links
      hgood.nums hnum thrown (hclean.padding _)).mpr hadmits
    exact (spec_of_ok hrun).mpr hyes
  · exact (spec_of_ok (dvhPartitionEnumerate_keep hnum)).mpr fun _ => ⟨hclass, hfree⟩

theorem DvhNumbered.placedAs (h : DvhNumbered table) {table' : PedDisk π δ}
    (hplaced : PlacedAs (DvhFits table part) table part table') : Orderly DvhNumbered table' := by
  obtain ⟨hlinks, num, geom, hfits, rfl⟩ := hplaced
  obtain ⟨hclass, hfree⟩ := hfits rfl
  have hplace : DvhNumbered (table.place { part with num := num, geom := geom }) :=
    h.place hclass hfree
  exact ⟨hlinks, hplace⟩

/-- **Deleting** leaves the rest in order. -/
theorem dvh_delete (hgood : Orderly DvhNumbered table) (id : ℕ)
    (hs : At Unnumbered (· = table) 0 s) :
    Spec OtherFault (pedDiskDeletePartition dvhDiskType env id) s fun _ s' =>
      At Unnumbered (fun table' => Orderly DvhNumbered table' ∧ Shrinks table table') 0 s' := by
  have hstart : Orderly DvhNumbered table ∧ Shrinks table table :=
    ⟨hgood, Shrinks.refl hgood.links⟩
  refine At.delete dvh_allows (dvh_renumbers fun c hc => hc.1) (removesTo_removed _) ?_ id
    (hs.imp fun c hc => hc ▸ hstart)
  rintro t ⟨c, id, part, ⟨hc, hshrink⟩, hfind, hext, ht⟩ hpad
  refine (renumbers_removed dvh_keeps hc.links (hc.nums.remove id).allNumbered hfind hext t ht
    hpad).imp fun _ t' ⟨ht', hpad'⟩ => ⟨?_, hpad'⟩
  rw [ht']
  refine ⟨⟨hc.links.remove hfind hext, hc.nums.remove id⟩, hshrink.trans ⟨?_, ?_, rfl⟩⟩
  · refine KeepsOrder.of_nums fun p hp p' hp' hid => ?_
    rw [hc.links.eq_of_id (Or.inr (mem_diskRawRemove_logicals.mp hp').1) (Or.inr hp) hid]
  · exact ⟨fun p hp => ⟨p, (mem_diskRawRemove_partList.mp hp).1, rfl⟩,
      fun p hp => ⟨p, (mem_diskRawRemove_logicals.mp hp).1, rfl⟩⟩

theorem pedConstraintAny_fails {dev : PedDevice} : Fails OtherFault (pedConstraintAny dev) := by
  unfold pedConstraintAny
  refine (pedGeometrySet_fails _ _).bind fun full _ => ?_
  cases full with
  | none => exact fails_ok _
  | some full =>
      refine Fails.bind ?_ fun _ _ => fails_ok _
      unfold pedConstraintNew
      split_ifs
      · exact fails_ok _
      · exact fails_error.mpr (by simp [OtherFault])
      · exact fails_error.mpr (by simp [OtherFault])

/-- A table with the volume header alone. -/
def HeaderOnly (table : PedDisk π δ) : Prop :=
  Orderly DvhNumbered table ∧ ∀ part, table.Has part → part.id = 1

theorem dvhAlloc_spec (data : δ) (volumeData : π) (thrown : List PedException) :
    Spec OtherFault (dvhAlloc env data volumeData) thrown fun r t =>
      ∀ disk, r = some disk → At Unnumbered HeaderOnly 1 ⟨disk, t⟩ := by
  unfold dvhAlloc
  refine Spec.bind (pedPartitionNew_spec.mono (fun f hf => ?_) fun r t hr => ?_)
  · rw [hf]
    simp [OtherFault]
  cases r with
  | none => exact fun _ h => absurd h (by simp)
  | some volumePart =>
      obtain ⟨-, geom, rfl⟩ := hr volumePart rfl
      refine Spec.bind (Spec.lift pedConstraintAny_fails fun any _ => ?_)
      have hempty : ∀ other, ¬ PedDisk.Has (⟨[], [], 0, false, data⟩ : PedDisk π δ) other :=
        fun other h => by simp [PedDisk.Has] at h
      have hgood : Orderly DvhNumbered (⟨[], [], 0, false, data⟩ : PedDisk π δ) :=
        ⟨⟨by simp, by simp [PedDisk.Each], by simp [PedDisk.Leveled, PedDisk.Each], by simp⟩,
          ⟨by simp, fun part hpart => absurd hpart (hempty part)⟩⟩
      have hs : At Unnumbered (· = (⟨[], [], 0, false, data⟩ : PedDisk π δ)) 1
          ⟨⟨[], [], 1, false, data⟩, t⟩ :=
        At.of_clean rfl rfl (by simp [PedDisk.Clean, PedDisk.Each])
      have hfree : DvhFree (⟨[], [], 0, false, data⟩ : PedDisk π δ) 9 :=
        fun other h => absurd h (hempty other)
      let volumePart : PedPartition π := ⟨1, .ofExtended, 9, geom, some volumeData⟩
      have hclass : DvhClass volumePart.type volumePart.num := rfl
      have hnum : volumePart.num ≠ -1 := show (9 : ℤ) ≠ -1 by decide
      have hadd := dvh_add env hgood any (fun other h => absurd h (hempty other)) rfl
        (Or.inr ⟨hnum, hclass, hfree⟩) hs
      refine Spec.bind (spec_withDisk.mpr (hadd.imp fun r s' hadded => ?_))
      obtain ⟨_, hyes, _⟩ := hadded
      obtain ⟨ok, part⟩ := r
      cases ok with
      | false => exact fun _ h => absurd h (by simp)
      | true =>
          rintro disk ⟨⟩
          refine (hyes rfl).imp fun table' hplaced => ⟨hgood.nums.placedAs hplaced, ?_⟩
          obtain ⟨-, num, geom, -, rfl⟩ := hplaced
          intro part hpart
          rcases mem_place.mp hpart with rfl | hpart
          · rfl
          · exact absurd hpart (hempty part)

/-- **A new disk** has its volume header under the number 9, and nothing else. -/
theorem dvhDiskNewFresh_spec (data : δ) (volumeData : π) (thrown : List PedException) :
    Spec OtherFault (dvhDiskNewFresh env data volumeData) thrown fun r t =>
      ∀ disk, r = some disk → At Unnumbered HeaderOnly 0 ⟨disk, t⟩ := by
  unfold dvhDiskNewFresh
  refine (dvhAlloc_spec data volumeData thrown).seq fun r t hr => ?_
  cases r with
  | none => exact fun _ h => nomatch h
  | some disk =>
      refine Spec.bind (spec_withDisk.mpr (((hr disk rfl).pop dvh_allows).imp
        fun ok s ⟨hok, hs⟩ => ?_))
      subst hok
      refine Spec.bind (Spec.lift (fun f hf => pedAssert_fails (by decide) f hf) fun _ _ => ?_)
      rintro disk' ⟨⟩
      obtain ⟨⟨hlinks, hnums⟩, hids⟩ := hs.table
      exact ⟨⟨⟨⟨hlinks.nodup, hlinks.ids, hlinks.leveled, hlinks.linked⟩,
        ⟨hnums.distinct, hnums.inClass⟩⟩, hids⟩, hs.mode, hs.clean, hs.padding⟩

/-- What holds of a client at any time: the numbers on its disk are in order, and the
objects it has not tried to add have none. -/
structure DvhGood (added : List ℕ) (client : Client π δ) : Prop where
  good : client.Good DvhNumbered fun _ _ => True
  fresh : ∀ object ∈ client.loose, object.part.id ∉ added → object.part.num = -1

/-- **One call** keeps the numbers in order, and does not reach `PED_ASSERT (0)`. -/
theorem dvh_call {added : List ℕ} {client : Client π δ} (h : DvhGood added client)
    (call : ClientCall π) (hcall : DvhCall added client call) :
    Spec OtherFault (call.run dvhDiskType env) client fun _ client' =>
      DvhGood (addedAfter added call) client' := by
  cases call with
  | new kind data start «end» =>
      refine (clientNew_spec dvh_allows kind data start «end»).imp
        fun _ client' ⟨thrown, hclient⟩ => ?_
      obtain ⟨hsame, -⟩ := h.good.same (h.good.at_table.thrown thrown)
      rcases hclient with rfl | ⟨-, geom, rfl⟩
      · exact ⟨hsame, h.fresh⟩
      · refine ⟨hsame.make kind geom data false trivial, fun object hobject hid => ?_⟩
        rcases List.mem_cons.mp hobject with rfl | hobject
        · rfl
        · exact h.fresh object hobject hid
  | add id constraint =>
      refine (clientAdd_spec dvh_allows id constraint fun object hmem hid =>
        dvh_add env h.good.session.table constraint (h.good.loose object hmem).off
          (h.good.loose object hmem).active (Or.inl ⟨h.fresh object hmem (hid ▸ hcall.1),
            hcall.2 object hmem hid⟩) h.good.at_table).imp ?_
      rintro _ client' ⟨object, hmem, rfl, s, part, ⟨⟨-, hyes, -⟩, rfl⟩ | ⟨⟨hprep, -, hno⟩, rfl⟩⟩
      · have hnums := h.good.session.table.nums
        have hclash : ¬Clashes (fun _ => False) client.table object.part := fun hclash => hclash.1
        refine ⟨(h.good.placed hmem hclash
          ((hyes rfl).imp fun c hc => ?_)).1, fun other hother hid => ?_⟩
        · obtain ⟨hlinks, num, geom, -, hplaced⟩ := id hc
          exact ⟨hlinks, ⟨{ object.part with num := num, geom := geom }, rfl, rfl, hplaced,
            False.elim⟩, fun _ => (hnums.placedAs hc).nums⟩
        · exact h.fresh other (List.mem_filter.mp hother).1
            fun hadded => hid (List.mem_cons_of_mem _ hadded)
      · refine ⟨h.good.refused hmem (hno rfl) hprep.id_type.1 hprep.id_type.2 trivial,
          fun other hother hid => ?_⟩
        rcases List.mem_cons.mp hother with rfl | hother
        · exact absurd (hprep.id_type.1 ▸ List.mem_cons_self) hid
        · exact h.fresh other (List.mem_filter.mp hother).1
            fun hadded => hid (List.mem_cons_of_mem _ hadded)
  | delete id =>
      exact Spec.bind (spec_onDisk.mpr ((dvh_delete h.good.session.table id h.good.at_table).imp
        fun _ _ hs => ⟨(h.good.shrink hs).1, h.fresh⟩))
  | remove id => exact hcall.elim
  | setGeom id constraint start «end» => exact hcall.elim

/-- Along a run the numbers stay in order. -/
theorem DvhRun.good {added : List ℕ} {client : Client π δ} (h : DvhRun env added client) :
    DvhGood added client := by
  induction h with
  | start hrun =>
      have hs := (dvhDiskNewFresh_spec _ _ _).of_ok hrun _ rfl
      refine ⟨⟨hs.imp fun _ hc => hc.1, fun part hpart => ?_, fun object hobject => ?_⟩,
        fun object hobject => ?_⟩
      · rw [hs.table.2 part hpart]
        exact Nat.one_lt_two
      · cases hobject
      · cases hobject
  | call call _ hcall hrun ih => exact (dvh_call ih call hcall).of_ok hrun

end Runs

/-- **Numbers on a DVH disk.**  Take a client of a new disk that adds no object twice and
none against `DvhAdmits`.  Then the numbers on the disk are distinct and in their classes,
and its next call of this kind does not reach `PED_ASSERT (0)`.

For an object that has not been added before, `DvhAdmits` is exactly what it takes for
`dvh_partition_enumerate` to find a free number of its class, or to refuse it because
there is none. -/
theorem dvh_numbers_of_calls (env : Env) {added : List ℕ} {client : Client π δ}
    (h : DvhRun env added client) :
    DvhNumbered client.table ∧
    (∀ call, DvhCall added client call →
      call.run dvhDiskType env client ≠ .error (.assertion "0")) ∧
    ∀ object ∈ client.loose, object.part.id ∉ added → ∀ disk thrown, disk.Clean →
      disk.core = client.table →
      (NumberedProperly client.table object.part
          (dvhPartitionEnumerate env disk object.part thrown) ↔
        DvhAdmits client.table object.part) := by
  have hgood := h.good
  refine ⟨hgood.good.session.table.nums, fun call hcall hrun => ?_, ?_⟩
  · exact (dvh_call hgood call hcall).of_error hrun rfl
  · intro object hmem hid disk thrown hclean hcore
    have htable : Orderly DvhNumbered disk.core := hcore ▸ hgood.good.session.table
    rw [← hcore]
    exact dvhPartitionEnumerate_proper_iff htable.links htable.nums (hgood.fresh object hmem hid)
      thrown (hclean.padding _)

/-! ### A small disk -/

/-- Ten thousand sectors whose user cancels everything. -/
def cancelTenThousand : Env := ⟨{ hundredSectors with length := 10000 }, fun _ => .cancel⟩

def wholeTenThousand : PedConstraint := pedConstraintNewFromMax (.fromTo 0 9999)

/-- A new disk: the volume header, with the first sector as metadata in it, and free
space. -/
def freshDvh : PedDisk Unit Unit where
  partList := [⟨1, .ofExtended, 9, .fromTo 0 4095, some ()⟩,
    .placeholder (.ofFreespace false) (.fromTo 4096 9999)]
  logicals := [.placeholder (.ofMetadata true) (.fromTo 0 0),
    .placeholder (.ofFreespace true) (.fromTo 1 4095)]
  updateMode := 0
  needsClobber := true
  diskSpecific := ()

theorem dvhDiskNewFresh_tenThousand :
    dvhDiskNewFresh cancelTenThousand () () [] = .ok (some freshDvh, []) :=
  eq_ok_of_toOption (by decide +kernel)

/-- The client of the new disk. -/
def freshClient : Client Unit Unit := ⟨⟨freshDvh, []⟩, [], 2⟩

/-- The client with an object for the last sectors. -/
def madeClient : Client Unit Unit :=
  ⟨⟨freshDvh, []⟩, [⟨⟨2, .normal, -1, ⟨9000, 1000, by decide, by decide⟩, some ()⟩, false⟩], 3⟩

/-- After the object has been added, the numbers are 9 and 1. -/
theorem dvh_numbers_of_calls_fresh :
    ∃ client : Client Unit Unit, DvhRun cancelTenThousand [2] client ∧
      client.table.partList.map (·.num) = [9, 1] ∧ DvhNumbered client.table := by
  have hstart : DvhRun cancelTenThousand [] freshClient := .start dvhDiskNewFresh_tenThousand
  have hmade : DvhRun cancelTenThousand [] madeClient :=
    .call (.new .normal () 9000 9999) hstart trivial rfl
  have hadmits : DvhCall [] madeClient (.add 2 (some wholeTenThousand)) :=
    ⟨by simp, fun object hobject _ => by
      rw [List.mem_singleton.mp hobject]
      exact Or.inl ⟨_, List.mem_cons_self, rfl⟩⟩
  obtain ⟨⟨⟨⟩, client⟩, hrun, hnums⟩ : ∃ r, ClientCall.run dvhDiskType cancelTenThousand
      (.add 2 (some wholeTenThousand)) madeClient = .ok r ∧
      r.2.table.partList.map (·.num) = [9, 1] := exists_ok_of_map (by decide +kernel)
  have hadded : DvhRun cancelTenThousand [2] client := .call _ hmade hadmits hrun
  exact ⟨client, hadded, hnums, (dvh_numbers_of_calls cancelTenThousand hadded).1⟩

/-- The object with the given `id`, made for one sector and added. -/
def addOne (kind : PartitionKind) (sector : ℤ) (id : ℕ) : List (ClientCall Unit) :=
  [.new kind () (sector + id) (sector + id), .add id (some wholeTenThousand)]

/-- The calls made on a new disk. -/
def dvhCalls (calls : List (ClientCall Unit)) : Except Fault (Client Unit Unit) :=
  (runAll (ClientCall.run dvhDiskType cancelTenThousand) calls freshClient).map (·.2)

/-- A volume header that has been deleted is not made again, although its number is free;
the ninth of the other partitions then gets that number; and the sixteenth boot file ends
the program. -/
theorem dvh_numbers_fail :
    (dvhCalls [.delete 1, .new .extended () 0 4095, .add 2 (some wholeTenThousand)]).toOption.map
        (fun client => (client.table.partList.map (·.num), client.loose.map (·.part.num)))
      = some ([], [9]) ∧
    (dvhCalls (.delete 1 :: (List.range' 2 9).flatMap (addOne .normal 5000))).toOption.map
        (fun client => client.table.partList.map fun part => (part.type, part.num))
      = some ((List.range' 1 9).map fun i : ℕ => (PedPartitionType.normal, (i : ℤ))) ∧
    dvhCalls ((List.range' 2 16).flatMap (addOne .logical 100)) = .error (.assertion "0") := by
  exact ⟨by decide +kernel, by decide +kernel, eq_error_of_faultOf (by decide +kernel)⟩

end Libparted
