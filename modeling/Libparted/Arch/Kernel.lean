import Libparted.Disk.Core
import Libparted.Library.RangeMap

/-!
# Telling the kernel (`libparted/arch/linux.c`)

After a table has been written, `_disk_sync_part_table` brings the kernel's idea of
the partitions of the device in line with it.  The kernel is reached through three
`ioctl`s, which remove, add and resize one partition at a time and refuse what
would make two partitions overlap.

The function makes two passes over the partition numbers.  The first removes what
is in the way: every partition of the kernel, except those that are on the disk
with the same start and either the same length or a number for which the second
pass will come by again and resize them.  The second resizes and adds.  The
partitions that wait to be resized keep their *old* range meanwhile.

The kernel is modelled as the map it keeps, in sectors of the device.  The paths
through which it is asked (`/sys`, and `ioctl`s on the partition's own node) are
not: `_kernel_get_partition_start_and_length` answers what is in the map.  Device
mapper devices use other functions and are left out.
-/

namespace Libparted

open Library

/-! ## The kernel -/

/-- Two regions have a sector in common. -/
def PedGeometry.Overlaps (a b : PedGeometry) : Prop := a.start ≤ b.end ∧ b.start ≤ a.end

instance : DecidableRel PedGeometry.Overlaps := fun a b =>
  inferInstanceAs (Decidable (a.start ≤ b.end ∧ b.start ≤ a.end))

instance : Std.Symm PedGeometry.Overlaps := ⟨fun _ _ h => ⟨h.2, h.1⟩⟩

/-- The values of `errno` that the partition `ioctl`s leave. -/
inductive Errno where
  | enxio
  | ebusy
  | einval
deriving DecidableEq, Repr

/-- `strerror`. -/
def strerror : Errno → String
  | .enxio => "No such device or address"
  | .ebusy => "Device or resource busy"
  | .einval => "Invalid argument"

/-- The partitions the kernel knows, by number, and which of them are in use. -/
structure Kernel where
  parts : RangeMap ℕ PedGeometry PedGeometry.Overlaps
  inUse : ℕ → Bool

namespace Kernel

/-- `BLKPG_DEL_PARTITION`. -/
def delPartition (k : Kernel) (n : ℕ) : Except Errno Kernel :=
  if (k.parts.lookup n).isNone then .error .enxio
  else if k.inUse n then .error .ebusy
  else .ok { k with parts := k.parts.erase n }

/-- `BLKPG_ADD_PARTITION`. -/
def addPartition (k : Kernel) (n : ℕ) (geom : PedGeometry) : Except Errno Kernel :=
  if (k.parts.lookup n).isSome then .error .ebusy
  else if h : k.parts.Free n geom then .ok { k with parts := k.parts.put n geom h }
  else .error .ebusy

/-- `BLKPG_RESIZE_PARTITION`. -/
def resizePartition (k : Kernel) (n : ℕ) (geom : PedGeometry) : Except Errno Kernel :=
  match k.parts.lookup n with
  | none => .error .enxio
  | some old =>
      if old.start ≠ geom.start then .error .einval
      else if h : k.parts.Free n geom then .ok { k with parts := k.parts.put n geom h }
      else .error .ebusy

end Kernel

/-! ## Synchronisation -/

/-- What `_disk_sync_part_table` works on: the kernel, its two arrays (indexed by the
partition number here) and the exceptions raised.  An entry of `errnums` that was
never set is `none`. -/
structure Sync where
  kernel : Kernel
  ok : ℕ → Bool
  errnums : ℕ → Option Errno
  thrown : List PedException

/-- Programs that talk to the kernel. -/
abbrev SyncM (α : Type) : Type := Prog Fault Sync α

section

variable {π δ : Type}

/-- `_device_get_part_path`, for devices whose type does not ask for a `p`. -/
def deviceGetPartPath (dev : PedDevice) (num : ℤ) : String :=
  if 5 < dev.path.length ∧ dev.path.endsWith "/disc" then
    String.ofList (dev.path.toList.take (dev.path.length - 5)) ++ "/part" ++ toString num
  else
    let p := if (dev.path.toList.getLast?.map Char.isDigit).getD false then "p" else ""
    dev.path ++ p ++ toString num

/-- `BLKPG_DEVNAMELTH`. -/
def blkpgDevnamelth : ℕ := 64

/-- Gives the kernel a command and returns the error. -/
def blkpgPartCommand (command : Kernel → Except Errno Kernel) : SyncM (Option Errno) := fun s =>
  match command s.kernel with
  | .ok kernel => .ok (none, { s with kernel := kernel })
  | .error e => .ok (some e, s)

/-- The length that is announced for the extended partition, "leave room for LILO":
the second sector is only included where no entry of the list begins there. -/
def extendedLength (dev : PedDevice) (disk : PedDisk π δ) (part : PedPartition π) : ℤ :=
  if dev.sectorSize = 512 then
    if disk.logicals.any fun walk => walk.geom.start = part.geom.start + 1 then 1 else 2
  else 1

theorem one_le_extendedLength (dev : PedDevice) (disk : PedDisk π δ) (part : PedPartition π) :
    1 ≤ extendedLength dev disk part := by
  unfold extendedLength
  split
  · split <;> omega
  · omega

/-- The start and length that a partition is announced with. -/
def linuxPart (dev : PedDevice) (disk : PedDisk π δ) (part : PedPartition π) : PedGeometry :=
  if part.type.extended then
    ⟨part.geom.start, extendedLength dev disk part, part.geom.start_nonneg,
      one_le_extendedLength dev disk part⟩
  else part.geom

/-- `PED_ASSERT` about the sector size. -/
def assertSectorSize (dev : PedDevice) : SyncM Unit :=
  liftM (pedAssert (dev.sectorSize % 512 = 0)
    "disk->dev->sector_size % PED_SECTOR_SIZE_DEFAULT == 0")

/-- `_blkpg_add_partition`; returns the error. -/
def blkpgAddPartition (env : Env) (disk : PedDisk π δ) (part : PedPartition π) :
    SyncM (Option Errno) := do
  assertSectorSize env.dev
  blkpgPartCommand fun k => k.addPartition part.num.toNat (linuxPart env.dev disk part)

/-- `_blkpg_remove_partition`; returns the error. -/
def blkpgRemovePartition (n : ℕ) : SyncM (Option Errno) :=
  blkpgPartCommand fun k => k.delPartition n

/-- Raises an exception while talking to the kernel. -/
def syncThrow (env : Env) (type : PedExceptionType) (options : List PedExceptionOption)
    (message : String) : SyncM PedExceptionOption := fun s => do
  let (answer, thrown) ← pedExceptionThrow env type options message s.thrown
  return (answer, { s with thrown := thrown })

/-- `_blkpg_resize_partition`. -/
def blkpgResizePartition (env : Env) (disk : PedDisk π δ) (part : PedPartition π) :
    SyncM Bool := do
  assertSectorSize env.dev
  match ← blkpgPartCommand fun k => k.resizePartition part.num.toNat
      (linuxPart env.dev disk part) with
  | none => return true
  | some e =>
      let devname := String.ofList
        ((deviceGetPartPath env.dev part.num).toList.take (blkpgDevnamelth - 1))
      let answer ← syncThrow env .error [.ignore, .cancel]
        ("Error informing the kernel about modifications to partition " ++ devname ++ " -- "
          ++ strerror e ++ ".  This means Linux won't know about any changes you made to "
          ++ devname ++ " until you reboot -- so you shouldn't mount it or use it in any way "
          ++ "before rebooting.")
      return answer = .ignore

/-- `_kernel_get_partition_start_and_length`. -/
def kernelGetPartitionStartAndLength (part : PedPartition π) : SyncM (Option PedGeometry) := do
  return (← get).kernel.parts.lookup part.num.toNat

/-- `ok[i - 1] = value`. -/
def setOk (i : ℕ) (value : Bool) : SyncM Unit :=
  modify fun s => { s with ok := Function.update s.ok i value }

/-- `errnums[i - 1] = value`. -/
def setErrnum (i : ℕ) (value : Option Errno) : SyncM Unit :=
  modify fun s => { s with errnums := Function.update s.errnums i value }

/-- The attempts to remove a partition: one, and `n` more as long as the device is
busy.  Every attempt leaves its outcome in the arrays. -/
def removeRetrying (i : ℕ) : ℕ → SyncM Unit
  | 0 => do
      let error ← blkpgRemovePartition i
      setOk i error.isNone
      setErrnum i error
  | n + 1 => do
      let error ← blkpgRemovePartition i
      setOk i error.isNone
      setErrnum i error
      if error = some .ebusy then removeRetrying i n

/-- `n_sleep`: as many naps of 10 ms as fit into a second. -/
def nSleep : ℕ := 1 * 1000000 / 10000

/-- The second limit of the passes, `lpn2`, and whether partitions can be resized. -/
structure SyncLimits where
  removeUpTo : ℕ
  addUpTo : ℕ
  resize : Bool

/-- The kernel's partition stays for the second pass: it is on the disk unchanged, or
will be resized. -/
def staysForAdding (limits : SyncLimits) (part : PedPartition π) (found : PedGeometry) : Bool :=
  found.start = part.geom.start
    && (found.length = part.geom.length || (limits.resize && part.num < limits.addUpTo))

/-- The body of the first loop. -/
def removeOld (limits : SyncLimits) (disk : PedDisk π δ) (i : ℕ) : SyncM Unit := do
  let stays ← match pedDiskGetPartition disk i with
    | none => pure false
    | some part => do
        match ← kernelGetPartitionStartAndLength part with
        | none => pure false
        | some found => pure (staysForAdding limits part found)
  if stays then setOk i true
  else
    removeRetrying i nSleep
    let s ← get
    if s.ok i = false ∧ s.errnums i = some .enxio then setOk i true

/-- "add the (possibly modified or new) partition". -/
def addOrRecord (env : Env) (disk : PedDisk π δ) (part : PedPartition π) (i : ℕ) :
    SyncM Unit := do
  match ← blkpgAddPartition env disk part with
  | none => return ()
  | some e =>
      setOk i false
      setErrnum i (some e)

/-- The body of the second loop. -/
def addNew (limits : SyncLimits) (env : Env) (disk : PedDisk π δ) (i : ℕ) : SyncM Unit := do
  match pedDiskGetPartition disk i with
  | none => return ()
  | some part =>
      match ← kernelGetPartitionStartAndLength part with
      | none => addOrRecord env disk part i
      | some found =>
          if found.start = part.geom.start then
            if found.length = part.geom.length then setOk i true
            else if limits.resize then
              if ← blkpgResizePartition env disk part then setOk i true
              else addOrRecord env disk part i
            else addOrRecord env disk part i
          else addOrRecord env disk part i

/-- The numbers that the third loop puts on its list. -/
def badParts (lpn : ℕ) (s : Sync) : List ℕ :=
  (List.range' 1 lpn).filter fun i => !(s.ok i || s.errnums i = some .enxio)

/-- `bad_part_list`. -/
def badPartList (bad : List ℕ) : String := ", ".intercalate (bad.map toString)

/-- The third loop and the warning it leads to. -/
def reportBad (env : Env) (lpn : ℕ) : SyncM Bool := do
  let bad := badParts lpn (← get)
  if bad = [] then return true
  else
    let answer ← syncThrow env .error [.ignore, .cancel]
      ("Partition(s) " ++ badPartList bad ++ " on " ++ env.dev.path ++ " have been written, but we "
        ++ "have been unable to inform the kernel of the change, probably because it/they are in "
        ++ "use.  As a result, the old partition(s) will remain in use.  You should reboot now "
        ++ "before making further changes.")
    return answer = .ignore

/-- The limits of the passes: the greater of device or label limit for removing, the
lesser for adding. -/
def syncLimits (supported : Option ℕ) (partRange : ℕ) (resize : Bool) : SyncLimits where
  removeUpTo := match supported with
    | some lpn => max lpn partRange
    | none => partRange
  addUpTo := match supported with
    | some lpn => min lpn partRange
    | none => partRange
  resize := resize

/-- `_disk_sync_part_table`.  `supported` is what
`ped_disk_get_max_supported_partition_count` gives, `partRange` the number of
partitions the device can have, and `resize` says whether the kernel was told how to
resize partitions when the library was built. -/
def diskSyncPartTable (ops : PedDiskOps π δ) (supported : Option ℕ) (partRange : ℕ)
    (resize : Bool) (env : Env) (disk : PedDisk π δ) : SyncM Bool := do
  let limits := syncLimits supported partRange resize
  if limits.removeUpTo < 1 then return false
  else
    modify fun s => { s with ok := fun _ => false, errnums := fun _ => none }
    runAll (removeOld limits disk) (List.range' 1 limits.removeUpTo)
    -- don't actually add partitions for loop
    let lpn := if ops.name = "loop" then 0 else limits.addUpTo
    runAll (addNew limits env disk) (List.range' 1 lpn)
    reportBad env lpn

end

end Libparted
