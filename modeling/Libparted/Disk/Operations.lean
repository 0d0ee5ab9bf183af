import Libparted.Disk.UpdateMode

/-!
# Adding, moving and removing partitions

The operations of `disk.c` that change the table.  Each enters update mode, works
on lists without placeholders, and leaves update mode again, also when it fails.

Adding computes the free gap around the requested position
(`_partition_get_overlap_constraint`), intersects it with the caller's
constraint, lets the label number and align the partition, checks the outcome and
links the object into its list.  `ped_disk_set_partition_geom` does the same with
a partition that is on the lists already; its old geometry is put back on every
failure, after update mode has been left.

`addPartitionWith` is the body of `ped_disk_add_partition` over a push and a pop.
Labels add metadata entries with it while they are in update mode, where push and
pop only count.
-/

namespace Libparted

open Library

variable {π δ : Type}

/-! ## The gap around a request -/

/-- The outer limits of the gap: the extended partition for a logical one,
otherwise all sector numbers up to `LLONG_MAX - 1`. -/
def overlapLimits (disk : PedDisk π δ) (part : PedPartition π) : Except Fault (ℤ × ℤ) :=
  if part.type.logical then
    match pedDiskExtendedPartition disk with
    | none => .error (.assertion "ext_part != NULL")
    | some ext => .ok (ext.geom.start, ext.geom.end)
  else .ok (0, 2 ^ 63 - 2)

/-- `_partition_get_overlap_constraint`. -/
def partitionGetOverlapConstraint (disk : PedDisk π δ) (part : PedPartition π)
    (geom : PedGeometry) : Except Fault (Option PedConstraint) := do
  pedAssert (disk.updateMode ≠ 0) "part->disk->update_mode"
  let limits ← overlapLimits disk part
  let passed := gapWalk PedPartition.lo PedPartition.hi (·.id == part.id) geom.start limits.1
    (disk.level part.type)
  let minStart := passed.1
  let maxEnd := ((dropMarked (·.id == part.id) passed.2).head?.map
    fun walk => walk.geom.start - 1).getD limits.2
  if minStart > maxEnd then
    return none
  let freeSpace ← pedGeometryInitUnchecked minStart (maxEnd - minStart + 1)
  return some (pedConstraintNewFromMax freeSpace)

/-! ## Checks -/

/-- `_partition_check_basic_sanity`. -/
def partitionCheckBasicSanity (ops : PedDiskOps π δ) (env : Env) (disk : PedDisk π δ)
    (part : PedPartition π) : Ask Bool := do
  if !ops.extended && (part.type == .ofExtended || part.type == .ofLogical) then
    pedExceptionReport env
      (ops.name ++ " disk labels don't support logical or extended partitions.")
    return false
  if part.isActive && !part.type.logical then
    if pedDiskGetPrimaryPartitionCount disk + 1 > ops.getMaxPrimaryPartitionCount disk then
      pedExceptionReport env "Too many primary partitions."
      return false
  if part.type.logical && (pedDiskExtendedPartition disk).isNone then
    pedExceptionReport env ("Can't add a logical partition to " ++ env.dev.path
      ++ ", because there is no extended partition.")
    return false
  return true

/-- `_check_extended_partition`.  An extended partition that is not on the disk
yet has no logical partitions of its own. -/
def checkExtendedPartition (env : Env) (disk : PedDisk π δ) (part : PedPartition π) :
    Ask Bool := do
  let (extPart, logicals) := match pedDiskExtendedPartition disk with
    | some ext => (ext, disk.logicals)
    | none => (part, [])
  if part.id ≠ extPart.id then
    pedExceptionReport env
      ("Can't have more than one extended partition on " ++ env.dev.path ++ ".")
    return false
  if logicals.any fun walk => !pedGeometryTestInside extPart.geom walk.geom then
    pedExceptionReport env "Can't have logical partitions outside of the extended partition."
    return false
  return true

/-- The first question of `_check_partition`. -/
def checkIfExtended (env : Env) (disk : PedDisk π δ) (part : PedPartition π) : Ask Bool :=
  if part.isExtended then checkExtendedPartition env disk part else pure true

/-- Is a logical partition outside of the extended one? -/
def outsideExtended (disk : PedDisk π δ) (part : PedPartition π) : Except Fault Bool :=
  if part.type.logical then
    match pedDiskExtendedPartition disk with
    | none => .error (.undefined "ext_part is NULL")
    | some ext => .ok (!pedGeometryTestInside ext.geom part.geom)
  else .ok false

/-- What `_check_partition` objects to in the place of a partition, in the order in
which it raises the exceptions. -/
def placementObjections (env : Env) (disk : PedDisk π δ) (part : PedPartition π) :
    Except Fault (List String) := do
  let extPart := pedDiskExtendedPartition disk
  let outside ← outsideExtended disk part
  let inside := !part.type.logical && match extPart with
    | none => false
    | some ext => ext.id != part.id && pedGeometryTestInside ext.geom part.geom
  return (if outside then
      ["Can't have a logical partition outside of the extended partition on "
        ++ env.dev.path ++ "."] else [])
    ++ (if inside then ["Can't have a primary partition inside an extended partition."] else [])
    ++ (if part.geom.end ≥ env.dev.length then ["Can't have a partition outside the disk!"]
      else [])

/-- Raises the objections one after another until one is not ignored. -/
def allIgnored (env : Env) : List String → Ask Bool
  | [] => return true
  | message :: rest => do
      if ← pedExceptionIgnored env message then allIgnored env rest else return false

/-- `_check_partition`. -/
def checkPartition (ops : PedDiskOps π δ) (env : Env) (disk : PedDisk π δ)
    (part : PedPartition π) : Ask Bool := do
  if !(← checkIfExtended env disk part) then
    return false
  if !(← allIgnored env (← placementObjections env disk part)) then
    return false
  if part.type.metadata then
    return true
  ops.partitionCheck env disk part

/-- `_partition_align`: while a table is being read nothing is aligned. -/
def partitionAlign (ops : PedDiskOps π δ) (env : Env) (disk : PedDisk π δ)
    (part : PedPartition π) (constraint : Option PedConstraint) : Ask (Bool × PedGeometry) := do
  liftM (pedAssert (part.num ≠ -1) "part->num != -1")
  liftM (pedAssert (disk.updateMode ≠ 0) "part->disk->update_mode")
  if disk.needsClobber then
    return (true, part.geom)
  ops.partitionAlign env disk part constraint

/-! ## `ped_disk_add_partition` -/

/-- The constraint under which a new partition is aligned: its gap intersected with
the caller's constraint or, when there is no such region and the complaint about
it is ignored, the caller's constraint alone.  `none` means that the call fails. -/
def resolveOverlap (env : Env) (overlap constraint : Option PedConstraint) :
    Ask (Option (Option PedConstraint)) :=
  let constraints := pedConstraintIntersect overlap constraint
  if constraints.isNone && constraint.isSome then do
    if ← pedExceptionIgnored env "Can't have overlapping partitions." then
      return some constraint
    else return none
  else return some constraints

/-- Numbers and aligns a partition that is to be added.  Returns the object as the
C code leaves it, also on failure. -/
def addPartitionAlign (ops : PedDiskOps π δ) (env : Env) (disk : PedDisk π δ)
    (part : PedPartition π) (constraint : Option PedConstraint) :
    Ask (Bool × PedPartition π) := do
  let overlap ← partitionGetOverlapConstraint disk part part.geom
  match ← resolveOverlap env overlap constraint with
  | none => return (false, part)
  | some constraint =>
      let (ok, num) ← ops.partitionEnumerate env disk part
      let part := { part with num := num }
      if !ok then
        return (false, part)
      let (ok, geom) ← partitionAlign ops env disk part constraint
      return (ok, { part with geom := geom })

/-- Only active partitions are numbered and aligned. -/
def addPartitionAlignIfActive (ops : PedDiskOps π δ) (env : Env) (disk : PedDisk π δ)
    (part : PedPartition π) (constraint : Option PedConstraint) :
    Ask (Bool × PedPartition π) :=
  if part.isActive then addPartitionAlign ops env disk part constraint else pure (true, part)

/-- What happens between push and pop. -/
def addPartitionPlace (ops : PedDiskOps π δ) (env : Env) (part : PedPartition π)
    (constraint : Option PedConstraint) : DiskM π δ (Bool × PedPartition π) := do
  let disk ← getDisk
  let (ok, part) ← ask (addPartitionAlignIfActive ops env disk part constraint)
  if !ok then
    return (false, part)
  if !(← ask (checkPartition ops env disk part)) then
    return (false, part)
  let ok ← diskRawAdd part
  return (ok, part)

/-- The body of `ped_disk_add_partition`. -/
def addPartitionWith (push pop : DiskM π δ Bool) (ops : PedDiskOps π δ) (env : Env)
    (part : PedPartition π) (constraint : Option PedConstraint) :
    DiskM π δ (Bool × PedPartition π) := do
  if !(← ask (partitionCheckBasicSanity ops env (← getDisk) part)) then
    return (false, part)
  if !(← push) then
    return (false, part)
  let (ok, part) ← addPartitionPlace ops env part constraint
  if ok then
    if !(← pop) then
      return (false, part)
    liftM (diskCheckSanity (← getDisk))
    return (true, part)
  else
    let _ ← pop
    return (false, part)

/-- `ped_disk_add_partition`.  The object is returned as the call leaves it. -/
def pedDiskAddPartition (label : PedDiskType π δ) (env : Env) (part : PedPartition π)
    (constraint : Option PedConstraint) : DiskM π δ (Bool × PedPartition π) := do
  assertThat (part.id ≠ 0) "part != NULL"
  addPartitionWith (diskPushUpdateMode label.toPedDiskOps env)
    (diskPopUpdateMode label.allocMetadata env) label.toPedDiskOps env part constraint

/-! ## Removing -/

/-- The partition with a given `id`.  An operation on an object that is on no list
follows links that lead nowhere, and one on a placeholder works on an object that
entering update mode destroys. -/
def lookup (id : ℕ) : DiskM π δ (PedPartition π) := do
  match (← getDisk).find? id with
  | some part => return part
  | none => throw (.undefined "partition is not on the disk")

/-- `ped_disk_remove_partition`.  Returns the object that is no longer on the disk,
with the number it had there. -/
def pedDiskRemovePartition (label : PedDiskType π δ) (env : Env) (id : ℕ) :
    DiskM π δ (Option (PedPartition π)) := do
  if !(← diskPushUpdateMode label.toPedDiskOps env) then
    return none
  let part ← lookup id
  assertThat (!part.isExtended || (← getDisk).logicals.isEmpty) "part->part_list == NULL"
  modifyDisk (diskRawRemove · id)
  if !(← diskPopUpdateMode label.allocMetadata env) then
    return none
  let _ ← pedDiskEnumeratePartitions label.toPedDiskOps env
  return some part

/-- `ped_disk_delete_partition` on a partition that is not extended. -/
def deleteSimple (label : PedDiskType π δ) (env : Env) (id : ℕ) : DiskM π δ Bool := do
  if !(← diskPushUpdateMode label.toPedDiskOps env) then
    return false
  let _ ← pedDiskRemovePartition label env id
  if !(← diskPopUpdateMode label.allocMetadata env) then
    return false
  return true

/-- `ped_disk_delete_all_logical`, given the logical partitions. -/
def pedDiskDeleteAllLogical (label : PedDiskType π δ) (env : Env) :
    List (PedPartition π) → DiskM π δ Bool
  | [] => return true
  | walk :: rest => do
      if ← deleteSimple label env walk.id then pedDiskDeleteAllLogical label env rest
      else return false

/-- `ped_disk_delete_partition`. -/
def pedDiskDeletePartition (label : PedDiskType π δ) (env : Env) (id : ℕ) : DiskM π δ Bool := do
  if !(← diskPushUpdateMode label.toPedDiskOps env) then
    return false
  let part ← lookup id
  if part.isExtended then
    let _ ← pedDiskDeleteAllLogical label env (← getDisk).logicals
  let _ ← pedDiskRemovePartition label env id
  if !(← diskPopUpdateMode label.allocMetadata env) then
    return false
  return true

/-- The loop of `ped_disk_delete_all`, given the partitions of the top level. -/
def deleteEach (label : PedDiskType π δ) (env : Env) : List (PedPartition π) → DiskM π δ Bool
  | [] => return true
  | walk :: rest => do
      if ← pedDiskDeletePartition label env walk.id then deleteEach label env rest
      else return false

/-- `ped_disk_delete_all`. -/
def pedDiskDeleteAll (label : PedDiskType π δ) (env : Env) : DiskM π δ Bool := do
  if !(← diskPushUpdateMode label.toPedDiskOps env) then
    return false
  if ← deleteEach label env (← getDisk).partList then
    diskPopUpdateMode label.allocMetadata env
  else
    let _ ← diskPopUpdateMode label.allocMetadata env
    return false

/-! ## Moving -/

/-- The failure exit of `ped_disk_set_partition_geom`: update mode is left first,
and the old geometry is put back afterwards. -/
def setGeomFail (label : PedDiskType π δ) (env : Env) (id : ℕ) (oldGeom : PedGeometry) :
    DiskM π δ Bool := do
  let _ ← diskPopUpdateMode label.allocMetadata env
  modifyDisk (·.setGeom id oldGeom)
  return false

/-- `ped_disk_set_partition_geom` after its geometry has been overwritten. -/
def setGeomPlace (label : PedDiskType π δ) (env : Env) (id : ℕ)
    (constraints : Option PedConstraint) (oldGeom : PedGeometry) : DiskM π δ Bool := do
  let part ← lookup id
  let (ok, geom) ← ask (partitionAlign label.toPedDiskOps env (← getDisk) part constraints)
  modifyDisk (·.setGeom id geom)
  if !ok then
    return (← setGeomFail label env id oldGeom)
  let part ← lookup id
  if !(← ask (checkPartition label.toPedDiskOps env (← getDisk) part)) then
    return (← setGeomFail label env id oldGeom)
  -- remove and add, to ensure the ordering gets updated if necessary
  modifyDisk (diskRawRemove · id)
  let _ ← diskRawAdd part
  if !(← diskPopUpdateMode label.allocMetadata env) then
    modifyDisk (·.setGeom id oldGeom)
    return false
  return true

/-- `ped_disk_set_partition_geom`. -/
def pedDiskSetPartitionGeom (label : PedDiskType π δ) (env : Env) (id : ℕ)
    (constraint : Option PedConstraint) (start «end» : ℤ) : DiskM π δ Bool := do
  let part ← lookup id
  let oldGeom := part.geom
  match ← ask (pedGeometryInit env start («end» - start + 1)) with
  | none => return false
  | some newGeom =>
      if !(← diskPushUpdateMode label.toPedDiskOps env) then
        return false
      let overlap ← partitionGetOverlapConstraint (← getDisk) part newGeom
      let constraints := pedConstraintIntersect overlap constraint
      if constraints.isNone && constraint.isSome then
        ask (pedExceptionReport env "Can't have overlapping partitions.")
        setGeomFail label env id oldGeom
      else
        modifyDisk (·.setGeom id newGeom)
        setGeomPlace label env id constraints oldGeom

/-- The entry before and the entry after a given one. -/
def neighbours (id : ℕ) (list : List (PedPartition π)) :
    Option (PedPartition π) × Option (PedPartition π) :=
  ((list.takeWhile (·.id ≠ id)).getLast?, (list.dropWhile (·.id ≠ id)).tail.head?)

/-- The region `ped_disk_maximize_partition` may use at most. -/
def maximizeLimits (env : Env) (disk : PedDisk π δ) (part : PedPartition π) :
    Except Fault (ℤ × ℤ) :=
  if part.type.logical then
    match pedDiskExtendedPartition disk with
    | none => .error (.assertion "ext_part != NULL")
    | some ext => .ok (ext.geom.start, ext.geom.end)
  else .ok (0, env.dev.length - 1)

/-- `ped_disk_maximize_partition`. -/
def pedDiskMaximizePartition (label : PedDiskType π δ) (env : Env) (id : ℕ)
    (constraint : Option PedConstraint) : DiskM π δ Bool := do
  let part ← lookup id
  let (globalMinStart, globalMaxEnd) ← maximizeLimits env (← getDisk) part
  let oldGeom := part.geom
  if !(← diskPushUpdateMode label.toPedDiskOps env) then
    return false
  let disk ← getDisk
  let (prev, next) := neighbours id (disk.level part.type)
  let newStart := match prev with
    | some prev => prev.geom.end + 1
    | none => globalMinStart
  let newEnd := match next with
    | some next => next.geom.start - 1
    | none => globalMaxEnd
  if ← pedDiskSetPartitionGeom label env id constraint newStart newEnd then
    if !(← diskPopUpdateMode label.allocMetadata env) then
      return false
    return true
  else
    let any ← pedConstraintAny env.dev
    let _ ← pedDiskSetPartitionGeom label env id any oldGeom.start oldGeom.end
    let _ ← diskPopUpdateMode label.allocMetadata env
    return false

end Libparted
