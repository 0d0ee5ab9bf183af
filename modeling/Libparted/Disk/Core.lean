import Libparted.Constraint
import Libparted.Library.Intervals

/-!
# Disks, partitions and labels (`libparted/disk.c`)

A `PedDisk` holds the list of its partitions.  The C list is doubly linked and an
extended partition carries a second list, of the logical partitions inside it.
There is at most one extended partition, so the two lists are two fields here,
`partList` and `logicals`; `logicals` is empty when there is none.

A partition object is known in C by its address.  Here it carries an `id` that
plays this part: comparisons `walk != part` compare `id`s, and unlinking a node
drops the entry with its `id`.  Placeholder entries (metadata and free space)
are made and destroyed by the library itself and are never compared; they carry
the `id` 0.

## Programs

Three kinds of function are distinguished by what they can touch.

* `Except Fault`: computes, may fail an assertion.
* `Ask`: may also raise exceptions, that is, ask questions.  The state is the list
  of exceptions raised so far, and the answer to the `n`-th is `answers n`.
* `DiskM`: may also change the disk.

The operations a label supplies are of the first two kinds, with the exception of
`alloc_metadata`: what they change (a number, a geometry) they return, and the
caller stores it where the C code stores it.
-/

namespace Libparted

open Library

/-! ## Exceptions -/

inductive PedExceptionType where
  | information
  | warning
  | error
  | fatal
  | bug
  | noFeature
deriving DecidableEq, Repr

inductive PedExceptionOption where
  | unhandled
  | fix
  | yes
  | no
  | ok
  | retry
  | ignore
  | cancel
deriving DecidableEq, Repr

structure PedException where
  type : PedExceptionType
  options : List PedExceptionOption
  message : String
deriving DecidableEq, Repr

/-- What the library works on and does not change: the device and the person or
program that answers exceptions. -/
structure Env where
  dev : PedDevice
  answers : ℕ → PedExceptionOption

/-- Programs that may raise exceptions and nothing else. -/
abbrev Ask (α : Type) : Type := Prog Fault (List PedException) α

/-- `ped_exception_throw`. -/
def pedExceptionThrow (env : Env) (type : PedExceptionType)
    (options : List PedExceptionOption) (message : String) : Ask PedExceptionOption :=
  fun thrown => .ok (env.answers thrown.length, thrown ++ [⟨type, options, message⟩])

/-- An exception that only informs: the answer is not looked at. -/
def pedExceptionReport (env : Env) (message : String) : Ask Unit := do
  let _ ← pedExceptionThrow env .error [.cancel] message
  return ()

/-- An exception that may be ignored; anything but "Ignore" means failure. -/
def pedExceptionIgnored (env : Env) (message : String) : Ask Bool := do
  let answer ← pedExceptionThrow env .error [.ignore, .cancel] message
  return answer = .ignore

/-- `ped_geometry_init` with the exception it raises on an empty region. -/
def pedGeometryInit (env : Env) (start length : ℤ) : Ask (Option PedGeometry) := do
  match ← pedGeometrySet start length with
  | some geom => return some geom
  | none =>
      pedExceptionReport env ("Can't have the end before the start! (start sector="
        ++ toString start ++ " length=" ++ toString length ++ ")")
      return none

theorem pedGeometryInit_eq {env : Env} {start length : ℤ} (hs : 0 ≤ start) (hl : 1 ≤ length) :
    pedGeometryInit env start length = pure (some ⟨start, length, hs, hl⟩) := by
  unfold pedGeometryInit
  rw [pedGeometrySet_eq hs hl]
  rfl

/-! ## Partitions and disks -/

/-- `PedPartitionType`, a set of flags. -/
structure PedPartitionType where
  logical : Bool
  extended : Bool
  freespace : Bool
  metadata : Bool
  «protected» : Bool
deriving DecidableEq, Repr

namespace PedPartitionType

/-- `PED_PARTITION_NORMAL`. -/
def normal : PedPartitionType := ⟨false, false, false, false, false⟩

/-- `PED_PARTITION_LOGICAL`. -/
def ofLogical : PedPartitionType := ⟨true, false, false, false, false⟩

/-- `PED_PARTITION_EXTENDED`. -/
def ofExtended : PedPartitionType := ⟨false, true, false, false, false⟩

/-- `PED_PARTITION_FREESPACE`, with or without `PED_PARTITION_LOGICAL`. -/
def ofFreespace (logical : Bool) : PedPartitionType := ⟨logical, false, true, false, false⟩

/-- `PED_PARTITION_METADATA`, with or without `PED_PARTITION_LOGICAL`. -/
def ofMetadata (logical : Bool) : PedPartitionType := ⟨logical, false, false, true, false⟩

end PedPartitionType

/-- A partition object.  `π` is the data a label keeps in `disk_specific`. -/
structure PedPartition (π : Type) where
  id : ℕ
  type : PedPartitionType
  num : ℤ
  geom : PedGeometry
  diskSpecific : Option π
deriving DecidableEq

namespace PedPartition

variable {π : Type}

/-- `ped_partition_is_active`. -/
def isActive (part : PedPartition π) : Bool := !(part.type.freespace || part.type.metadata)

/-- `part->type == PED_PARTITION_EXTENDED`. -/
def isExtended (part : PedPartition π) : Bool := part.type == .ofExtended

/-- First sector, as an interval bound. -/
def lo (part : PedPartition π) : ℤ := part.geom.start

/-- Last sector, as an interval bound. -/
def hi (part : PedPartition π) : ℤ := part.geom.end

theorem lo_le_hi (part : PedPartition π) : part.lo ≤ part.hi := part.geom.start_le_end

theorem isActive_of_isExtended {part : PedPartition π} (h : part.isExtended = true) :
    part.isActive = true := by
  simp only [isExtended, beq_iff_eq] at h
  simp [isActive, h, PedPartitionType.ofExtended]

theorem not_logical_of_isExtended {part : PedPartition π} (h : part.isExtended = true) :
    part.type.logical = false := by
  simp only [isExtended, beq_iff_eq] at h
  simp [h, PedPartitionType.ofExtended]

/-- A placeholder entry made by the library: unnumbered and without label data. -/
def placeholder (type : PedPartitionType) (geom : PedGeometry) : PedPartition π :=
  ⟨0, type, -1, geom, none⟩

end PedPartition

/-- The in-memory partition table.  `δ` is the data a label keeps for the disk. -/
structure PedDisk (π δ : Type) where
  partList : List (PedPartition π)
  logicals : List (PedPartition π)
  updateMode : ℕ
  needsClobber : Bool
  diskSpecific : δ
deriving DecidableEq

/-- A disk together with the exceptions raised so far. -/
structure Session (π δ : Type) where
  disk : PedDisk π δ
  thrown : List PedException
deriving DecidableEq

/-- Programs that may change the disk. -/
abbrev DiskM (π δ α : Type) : Type := Prog Fault (Session π δ) α

section

variable {π δ α : Type}

/-- Runs a program that only asks. -/
def ask (x : Ask α) : DiskM π δ α := fun s => do
  let (a, thrown) ← x s.thrown
  return (a, { s with thrown := thrown })

/-- The disk as it is now. -/
def getDisk : DiskM π δ (PedDisk π δ) := do return (← get).disk

/-- Changes the disk. -/
def modifyDisk (f : PedDisk π δ → PedDisk π δ) : DiskM π δ Unit :=
  modify fun s => { s with disk := f s.disk }

/-- `PED_ASSERT` in a program. -/
def assertThat (cond : Bool) (text : String) : DiskM π δ Unit := liftM (pedAssert cond text)

variable {E : Fault → Prop} {s : Session π δ}

theorem spec_ask {x : Ask α} {Q : α → Session π δ → Prop} :
    Spec E (ask x) s Q ↔ Spec E x s.thrown fun a thrown => Q a { s with thrown := thrown } := by
  unfold Spec ask
  cases x s.thrown with
  | error e => exact Iff.rfl
  | ok r => exact Iff.rfl

@[simp] theorem spec_getDisk {Q : PedDisk π δ → Session π δ → Prop} :
    Spec E getDisk s Q ↔ Q s.disk s := Iff.rfl

@[simp] theorem spec_modifyDisk {f : PedDisk π δ → PedDisk π δ} {Q : Unit → Session π δ → Prop} :
    Spec E (modifyDisk f) s Q ↔ Q () { s with disk := f s.disk } := Iff.rfl

theorem spec_assertThat {cond : Bool} {text : String} {Q : Unit → Session π δ → Prop} :
    Spec E (assertThat cond text) s Q ↔
      (cond = true → Q () s) ∧ (cond = false → E (.assertion text)) := by
  cases cond with
  | true => simp [Spec, assertThat, pedAssert, liftM, monadLift, MonadLift.monadLift, StateT.lift]
  | false => simp [Spec, assertThat, pedAssert, liftM, monadLift, MonadLift.monadLift, StateT.lift]

end

namespace PedDisk

variable {π δ : Type}

/-- The entries in the order of `ped_disk_next_partition`: depth first, so that
the logical partitions follow the extended one. -/
def spliceLogicals (logicals : List (PedPartition π)) : List (PedPartition π) → List (PedPartition π)
  | [] => []
  | part :: rest =>
      if part.isExtended then part :: (logicals ++ rest)
      else part :: spliceLogicals logicals rest

/-- All entries, as repeated calls of `ped_disk_next_partition` visit them. -/
def traverse (disk : PedDisk π δ) : List (PedPartition π) :=
  spliceLogicals disk.logicals disk.partList

/-- Applies `f` to the entry with the given `id`. -/
def update (disk : PedDisk π δ) (id : ℕ) (f : PedPartition π → PedPartition π) : PedDisk π δ :=
  { disk with
    partList := disk.partList.map fun part => if part.id = id then f part else part
    logicals := disk.logicals.map fun part => if part.id = id then f part else part }

/-- `part->num = num` for an entry of the disk. -/
def setNum (disk : PedDisk π δ) (id : ℕ) (num : ℤ) : PedDisk π δ :=
  disk.update id fun part => { part with num := num }

/-- `part->geom = geom` for an entry of the disk. -/
def setGeom (disk : PedDisk π δ) (id : ℕ) (geom : PedGeometry) : PedDisk π δ :=
  disk.update id fun part => { part with geom := geom }

/-- The partition with a given `id`. -/
def find? (disk : PedDisk π δ) (id : ℕ) : Option (PedPartition π) :=
  (disk.partList ++ disk.logicals).find? fun part => part.isActive && part.id = id

/-- The list an entry of this type belongs to. -/
def level (disk : PedDisk π δ) (type : PedPartitionType) : List (PedPartition π) :=
  if type.logical then disk.logicals else disk.partList

end PedDisk

section

variable {π δ : Type}

/-- `ped_disk_extended_partition`. -/
def pedDiskExtendedPartition (disk : PedDisk π δ) : Option (PedPartition π) :=
  disk.partList.find? PedPartition.isExtended

/-- `ped_disk_get_partition`. -/
def pedDiskGetPartition (disk : PedDisk π δ) (num : ℤ) : Option (PedPartition π) :=
  disk.traverse.find? fun part => part.num = num && !part.type.freespace

/-- `ped_disk_get_primary_partition_count`. -/
def pedDiskGetPrimaryPartitionCount (disk : PedDisk π δ) : ℤ :=
  disk.traverse.countP fun part => part.isActive && !part.type.logical

/-- `ped_disk_get_last_partition_num`. -/
def pedDiskGetLastPartitionNum (disk : PedDisk π δ) : ℤ :=
  disk.traverse.foldl (fun highest part => if part.num > highest then part.num else highest) (-1)

/-- `_disk_check_sanity`.  Its assertions about `prev` and `next` hold of any
list; the others say that entries are on the list their type asks for. -/
def diskCheckSanity (disk : PedDisk π δ) : Except Fault Unit := do
  pedAssert (disk.partList.all fun walk => !walk.type.logical)
    "!(walk->type & PED_PARTITION_LOGICAL)"
  match pedDiskExtendedPartition disk with
  | none => return ()
  | some _ =>
      pedAssert (disk.logicals.all fun walk => walk.type.logical)
        "walk->type & PED_PARTITION_LOGICAL"

/-- What a label supplies (`PedDiskOps`), apart from the allocation of metadata. -/
structure PedDiskOps (π δ : Type) where
  name : String
  /-- the feature `PED_DISK_TYPE_EXTENDED` -/
  extended : Bool
  getMaxPrimaryPartitionCount : PedDisk π δ → ℤ
  /-- returns success and the new `part->num` -/
  partitionEnumerate : Env → PedDisk π δ → PedPartition π → Ask (Bool × ℤ)
  /-- returns success and the new `part->geom` -/
  partitionAlign : Env → PedDisk π δ → PedPartition π → Option PedConstraint →
    Ask (Bool × PedGeometry)
  partitionCheck : Env → PedDisk π δ → PedPartition π → Ask Bool

/-! ## Placing a partition in the lists -/

/-- `_disk_raw_remove`. -/
def diskRawRemove (disk : PedDisk π δ) (id : ℕ) : PedDisk π δ :=
  { disk with
    partList := disk.partList.filter fun part => part.id ≠ id
    logicals := disk.logicals.filter fun part => part.id ≠ id }

/-- `_disk_raw_add`.  Adding a logical partition to a disk without an extended
partition follows a `NULL` pointer, and adding an object that is on the lists
already ties its links into a knot; both are faults. -/
def diskRawAdd (part : PedPartition π) : DiskM π δ Bool := do
  let disk ← getDisk
  assertThat (disk.updateMode ≠ 0) "disk->update_mode"
  if part.isActive ∧ (disk.find? part.id).isSome then
    throw (.undefined "partition is linked already")
  if part.type.logical then
    if (pedDiskExtendedPartition disk).isNone then
      throw (.undefined "ext_part is NULL")
    modifyDisk fun disk =>
      { disk with logicals := insertOrdered PedPartition.lo PedPartition.hi part disk.logicals }
  else
    modifyDisk fun disk =>
      { disk with partList := insertOrdered PedPartition.lo PedPartition.hi part disk.partList }
  return true

end

end Libparted
