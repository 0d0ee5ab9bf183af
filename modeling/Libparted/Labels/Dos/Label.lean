import Libparted.Labels.Common

/-!
# The MS-DOS label in memory (`libparted/labels/dos.c`)

What the operations of `disk.c` use of this label: numbering, the allocation of
metadata around the logical partitions, and alignment to cylinders.

Alignment works with a BIOS geometry.  It is probed from the entry a partition was
read from (`probePartitionForGeom`), which keeps the CHS addresses it had on disk,
and otherwise is the geometry of the device.  A file system on an extended
partition is the other source the code knows; `fs_type` is not part of this model,
and an extended partition has none.
-/

namespace Libparted

open Library

/-! ## Raw entries and CHS addresses -/

/-- `RawCHS`. -/
structure RawCHS where
  head : BitVec 8
  sector : BitVec 8
  cylinder : BitVec 8
deriving DecidableEq, Repr

/-- `_DosRawPartition`. -/
structure DosRawPartition where
  bootInd : BitVec 8
  chsStart : RawCHS
  type : BitVec 8
  chsEnd : RawCHS
  start : BitVec 32
  length : BitVec 32
deriving DecidableEq, Repr

/-- `OrigState`: the entry a partition was read from. -/
structure OrigState where
  geom : PedGeometry
  rawPart : DosRawPartition
  lbaOffset : ℤ
deriving DecidableEq

/-- `DosDiskData`. -/
structure DosDiskData where
  cylinderAlignment : Bool
deriving DecidableEq

/-- `DosPartitionData`. -/
structure DosPartitionData where
  system : BitVec 8
  boot : Bool
  orig : Option OrigState
deriving DecidableEq

abbrev DosDisk : Type := PedDisk DosPartitionData DosDiskData

abbrev DosPartition : Type := PedPartition DosPartitionData

/-- `chs_get_cylinder`. -/
def chsGetCylinder (chs : RawCHS) : ℤ := chs.cylinder.toNat + chs.sector.toNat / 64 * 256

/-- `chs_get_head`. -/
def chsGetHead (chs : RawCHS) : ℤ := chs.head.toNat

/-- `chs_get_sector`, which counts from 0. -/
def chsGetSector (chs : RawCHS) : ℤ := (chs.sector.toNat % 64 : ℕ) - 1

/-- `MAX_CHS_CYLINDER`. -/
def maxChsCylinder : ℤ := 1021

/-- `sector_to_chs`. -/
def sectorToChs (biosGeom : PedCHSGeometry) (sector : ℤ) : RawCHS :=
  let realC := sector.tdiv (biosGeom.heads * biosGeom.sectors)
  let (c, h, s) := if realC > maxChsCylinder
    then (1023, biosGeom.heads - 1, biosGeom.sectors - 1)
    else (realC, (sector.tdiv biosGeom.sectors).tmod biosGeom.heads, sector.tmod biosGeom.sectors)
  ⟨BitVec.ofInt 8 h, BitVec.ofInt 8 (s + 1 + c / 256 * 64), BitVec.ofInt 8 (c.tmod 256)⟩

/-! ## The BIOS geometry of a partition -/

/-- `probe_partition_for_geom`: the geometry under which the CHS addresses of an
entry agree with its sector numbers, where they determine one.  The assertion on
the third way to compute `head_size` cannot fail, as `denum` is not zero. -/
def probePartitionForGeom (dev : PedDevice) (orig : OrigState) : Option PedCHSGeometry :=
  let c := chsGetCylinder orig.rawPart.chsStart
  let h := chsGetHead orig.rawPart.chsStart
  let s := chsGetSector orig.rawPart.chsStart
  let a := orig.geom.start
  let a' := a - s
  let C := chsGetCylinder orig.rawPart.chsEnd
  let H := chsGetHead orig.rawPart.chsEnd
  let S := chsGetSector orig.rawPart.chsEnd
  let A := orig.geom.end
  let A' := A - S
  let dontOverflow := 2 ^ 55 - 1
  let denum := c * H - C * h
  let cylSize := (a' * H - A' * h).tdiv denum
  let headSize := if 0 < h then (a' - c * cylSize).tdiv h else (A' - C * cylSize).tdiv H
  let heads := cylSize.tdiv headSize
  if h < 0 ∨ H < 0 ∨ h > 254 ∨ H > 254 ∨ c > C ∨ A > (C + 1) * 255 * 63 ∨ C > maxChsCylinder
      ∨ C = 0 ∨ a' > dontOverflow ∨ A' > dontOverflow ∨ denum = 0
      ∨ cylSize * denum ≠ a' * H - A' * h ∨ ¬ 0 < cylSize ∨ ¬ cylSize ≤ 255 * 63 then none
  else if hsectors : 0 < headSize ∧ headSize ≤ 63 then
    if hheads : 0 < heads ∧ heads < 256 then
      -- some partitioning programs have an out-by-one error on the end of partitions
      let C' := if ((C + 1) * heads + H) * headSize + S = A then C + 1 else C
      if (c * heads + h) * headSize + s = a ∧ (C' * heads + H) * headSize + S = A then
        some ⟨dev.length.tdiv cylSize, heads, headSize, hheads.1, hsectors.1⟩
      else none
    else none
  else none

/-- The geometry an active partition knows by itself. -/
def probeActive (env : Env) (part : DosPartition) : Except Fault (Option PedCHSGeometry) :=
  if part.isActive then
    match part.diskSpecific with
    | none => .error (.assertion "part->disk_specific != NULL")
    | some dosData => .ok (dosData.orig.bind (probePartitionForGeom env.dev))
  else .ok none

/-- `partition_probe_bios_geometry`.  A logical partition asks the extended one, which
asks the device. -/
def partitionProbeBiosGeometry (env : Env) (disk : DosDisk) (part : DosPartition) :
    Except Fault PedCHSGeometry := do
  match ← probeActive env part with
  | some biosGeom => return biosGeom
  | none =>
      if part.type.logical then
        match pedDiskExtendedPartition disk with
        | none => throw (.assertion "ext_part != NULL")
        | some ext => return (← probeActive env ext).getD env.dev.biosGeom
      else return env.dev.biosGeom

/-! ## Alignment -/

/-- `_best_solution`.  Cylinder numbers are compared as `int`s. -/
def bestSolution (part : DosPartition) (biosGeom : PedCHSGeometry) :
    Option PedGeometry → Option PedGeometry → Option PedGeometry
  | none, b => b
  | some a, none => some a
  | some a, some b =>
      let cylSize := biosGeom.heads * biosGeom.sectors
      if narrowToInt (a.start.tdiv cylSize) = narrowToInt (b.start.tdiv cylSize) then
        if (a.start.tdiv biosGeom.sectors).tmod biosGeom.heads
            < (b.start.tdiv biosGeom.sectors).tmod biosGeom.heads then some a
        else some b
      else if |part.geom.start - a.start| < |part.geom.start - b.start| then some a
      else some b

/-- The ranges of a constraint for a primary partition, which has to contain `min`
if there is one: the start in `startRange`, the end behind `min`. -/
def primaryRanges (env : Env) (startRange : ℤ × ℤ) (min : Option PedGeometry) :
    Ask (Option (PedGeometry × PedGeometry)) := do
  match ← pedGeometryInit env startRange.1 startRange.2 with
  | none => return none
  | some startGeom =>
      let endRange := match min with
        | some min => (min.end, env.dev.length - min.end)
        | none => (0, env.dev.length)
      match ← pedGeometryInit env endRange.1 endRange.2 with
      | none => return none
      | some endGeom => return some (startGeom, endGeom)

/-- `ped_constraint_new` for a primary partition with the given alignments. -/
def primaryConstraintNew (env : Env) (startAlign endAlign : Option PedAlignment)
    (ranges : Option (PedGeometry × PedGeometry)) : Except Fault (Option PedConstraint) :=
  match ranges with
  | none => .ok none
  | some (startGeom, endGeom) => do
      return some (← pedConstraintNew startAlign endAlign startGeom endGeom 1 env.dev.length)

/-- `_primary_constraint`: whole cylinders, but not the first. -/
def primaryConstraint (env : Env) (biosGeom : PedCHSGeometry) (min : Option PedGeometry) :
    Ask (Option PedConstraint) := do
  let cylinderSize := biosGeom.sectors * biosGeom.heads
  let start := if cylinderSize < env.dev.length then cylinderSize else 1
  let startRange := match min with
    | some min => (cylinderSize, min.start + 1 - cylinderSize)
    | none => (start, env.dev.length - start)
  if min.any fun min => min.start < cylinderSize then
    return none
  else
    primaryConstraintNew env (pedAlignmentInit 0 cylinderSize) (pedAlignmentInit (-1) cylinderSize)
      (← primaryRanges env startRange min)

/-- `_primary_start_constraint`: from the second head of the first cylinder, or from
sector 2048, to the end of a cylinder. -/
def primaryStartConstraint (env : Env) (part : DosPartition) (biosGeom : PedCHSGeometry)
    (min : Option PedGeometry) : Ask (Option PedConstraint) := do
  let cylinderSize := biosGeom.sectors * biosGeom.heads
  let startPos := if part.geom.start = 2048 then 2048 else biosGeom.sectors
  let startRange := (startPos, if min.isSome then 1 else env.dev.length - startPos)
  primaryConstraintNew env (pedAlignmentInit startPos 0) (pedAlignmentInit (-1) cylinderSize)
    (← primaryRanges env startRange min)

/-- `_logical_constraint`. -/
def logicalConstraint (env : Env) (ext : DosPartition) (biosGeom : PedCHSGeometry)
    (startOffset : ℤ) (isStartPart : Bool) : Except Fault (Option PedConstraint) := do
  let cylinderSize := biosGeom.sectors * biosGeom.heads
  let minStart := if isStartPart then ext.geom.start
    else pedRoundUpTo (ext.geom.start + 1) cylinderSize
  if !isStartPart && minStart ≥ ext.geom.end then
    return none
  else
    let maxGeom ← pedGeometryInitUnchecked minStart (ext.geom.end - minStart + 1)
    return some (← pedConstraintNew (pedAlignmentInit startOffset cylinderSize)
      (pedAlignmentInit (-1) cylinderSize) maxGeom maxGeom 1 env.dev.length)

/-- The loop of `_get_min_extended_part_geom` over the other logical partitions. -/
def minExtendedWalk (headSize : ℤ) : PedGeometry → List DosPartition → Except Fault PedGeometry
  | min, [] => .ok min
  | min, walk :: rest =>
      if !walk.isActive || walk.num = 5 then minExtendedWalk headSize min rest
      else do
        let start := if walk.geom.start < min.start then walk.geom.start - 2 * headSize
          else min.start
        let «end» := if walk.geom.end > min.end then walk.geom.end else min.end
        let min ← pedGeometryInitUnchecked start («end» - start + 1)
        minExtendedWalk headSize min rest

/-- `_get_min_extended_part_geom`: what an extended partition has to contain, namely
the logical partitions and their tables.  A partition that is not on the disk yet has
no list of its own. -/
def getMinExtendedPartGeom (disk : DosDisk) (part : DosPartition)
    (biosGeom : Option PedCHSGeometry) : Except Fault (Option PedGeometry) := do
  let headSize := (biosGeom.map (·.sectors)).getD 1
  match pedDiskGetPartition disk 5 with
  | none => return none
  | some walk =>
      let start := walk.geom.start - max (1 * headSize) 2
      let min ← pedGeometryInitUnchecked start (walk.geom.end - start + 1)
      let partList := match pedDiskExtendedPartition disk with
        | some ext => if ext.id = part.id then disk.logicals else []
        | none => []
      return some (← minExtendedWalk headSize min partList)

/-- What a primary partition has to contain: nothing, unless it is extended. -/
def minPrimaryGeom (disk : DosDisk) (part : DosPartition) (biosGeom : PedCHSGeometry) :
    Except Fault (Option PedGeometry) :=
  if part.isExtended then getMinExtendedPartGeom disk part (some biosGeom) else .ok none

/-- `_align_primary`. -/
def alignPrimary (env : Env) (disk : DosDisk) (part : DosPartition) (biosGeom : PedCHSGeometry)
    (constraint : Option PedConstraint) : Ask (Option PedGeometry) := do
  let min ← minPrimaryGeom disk part biosGeom
  let a ← tryConstraint env part constraint (← primaryStartConstraint env part biosGeom min)
  let b ← tryConstraint env part constraint (← primaryConstraint env biosGeom min)
  return bestSolution part biosGeom a b

/-- `_logical_min_start_head`. -/
def logicalMinStartHead (part : DosPartition) (biosGeom : PedCHSGeometry) (ext : DosPartition)
    (isStartExtPart : Bool) : ℤ :=
  let cylinderSize := biosGeom.sectors * biosGeom.heads
  let baseHead := if isStartExtPart
    then 1 + (ext.geom.start.tmod cylinderSize).tdiv biosGeom.sectors else 0
  if part.num = 5 then baseHead else baseHead + 1

/-- One sector for the table of a logical partition, unless it is number 5, whose
table is at the start of the extended partition. -/
def tableSector (part : DosPartition) : ℤ := if part.num ≠ 5 then 1 else 0

/-- The first loop of `_log_meta_overlap_constraint`. -/
def logMetaWalk (part : DosPartition) (geom : PedGeometry) :
    ℤ → List DosPartition → ℤ × List DosPartition
  | minStart, [] => (minStart, [])
  | minStart, walk :: rest =>
      if walk.geom.start - tableSector walk < geom.start - tableSector part
          ∨ walk.geom.start - tableSector walk ≤ minStart then
        logMetaWalk part geom
          (if walk.id ≠ part.id ∧ walk.isActive then walk.geom.end + 1 + tableSector part
            else minStart) rest
      else (minStart, walk :: rest)

/-- `_log_meta_overlap_constraint`: the gap around a logical partition, with room for
the tables. -/
def logMetaOverlapConstraint (disk : DosDisk) (part : DosPartition) (geom : PedGeometry) :
    Except Fault (Option PedConstraint) :=
  match pedDiskExtendedPartition disk with
  | none => .error (.assertion "ext_part != NULL")
  | some ext => do
      let (minStart, rest) := logMetaWalk part geom (ext.geom.start + 1 + tableSector part)
        disk.logicals
      let next := (rest.dropWhile fun walk => walk.id = part.id || !walk.isActive).head?
      let maxEnd := match next with
        | some walk => walk.geom.start - 1 - tableSector walk
        | none => ext.geom.end
      if minStart ≥ maxEnd then
        return none
      else
        let safeSpace ← pedGeometryInitUnchecked minStart (maxEnd - minStart + 1)
        return some (pedConstraintNewFromMax safeSpace)

/-- The loop of `_align_logical` over the heads a partition may start on. -/
def alignLogicalHeads (env : Env) (ext part : DosPartition) (biosGeom : PedCHSGeometry)
    (constraint : Option PedConstraint) (startBase : ℤ) :
    Option PedGeometry → List ℕ → Except Fault (Option PedGeometry)
  | solution, [] => .ok solution
  | solution, head :: rest => do
      let start := startBase + head * biosGeom.sectors
      let isStartPart := decide ((head : ℤ) ≥ logicalMinStartHead part biosGeom ext true)
      let diskConstraint ← logicalConstraint env ext biosGeom start isStartPart
      let candidate ← tryConstraint env part constraint diskConstraint
      alignLogicalHeads env ext part biosGeom constraint startBase
        (bestSolution part biosGeom solution candidate) rest

/-- `_align_logical`. -/
def alignLogical (env : Env) (disk : DosDisk) (part : DosPartition) (biosGeom : PedCHSGeometry)
    (constraint : Option PedConstraint) : Except Fault (Option PedGeometry) :=
  match pedDiskExtendedPartition disk with
  | none => .error (.assertion "ext_part != NULL")
  | some ext => do
      let logMetaOverlap ← logMetaOverlapConstraint disk part part.geom
      match pedConstraintIntersect constraint logMetaOverlap with
      | none => return none
      | some intersect =>
          let startBase := pedRoundDownTo part.geom.start (biosGeom.sectors * biosGeom.heads)
          let first := (logicalMinStartHead part biosGeom ext false).toNat
          alignLogicalHeads env ext part biosGeom (some intersect) startBase none
            (List.range' first ((min 5 biosGeom.heads).toNat - first))

/-- `_align`. -/
def align (env : Env) (disk : DosDisk) (part : DosPartition) (biosGeom : PedCHSGeometry)
    (constraint : Option PedConstraint) : Ask (Option PedGeometry) :=
  if part.type = .ofLogical then liftM (alignLogical env disk part biosGeom constraint)
  else alignPrimary env disk part biosGeom constraint

/-- `_no_geom_extended_constraint`. -/
def noGeomExtendedConstraint (env : Env) (disk : DosDisk) (part : DosPartition) :
    Except Fault PedConstraint := do
  match ← getMinExtendedPartGeom disk part none with
  | some min =>
      let startRange ← pedGeometryInitUnchecked 1 min.start
      let endRange ← pedGeometryInitUnchecked min.end (env.dev.length - min.end)
      pedConstraintNew (some pedAlignmentAny) (some pedAlignmentAny) startRange endRange 1
        env.dev.length
  | none =>
      let range ← pedGeometryInitUnchecked 1 (env.dev.length - 1)
      pedConstraintNew (some pedAlignmentAny) (some pedAlignmentAny) range range 1 env.dev.length

/-- `_align_no_geom`. -/
def alignNoGeom (env : Env) (disk : DosDisk) (part : DosPartition)
    (constraint : Option PedConstraint) : Except Fault (Option PedGeometry) := do
  if part.type = .ofLogical then
    tryConstraint env part constraint (← logMetaOverlapConstraint disk part part.geom)
  else if part.isExtended then
    tryConstraint env part constraint (some (← noGeomExtendedConstraint env disk part))
  else
    let max ← pedGeometryInitUnchecked 1 (env.dev.length - 1)
    tryConstraint env part constraint (some (pedConstraintNewFromMax max))

/-- `PARTITION_LDM`. -/
def partitionLdm : BitVec 8 := 0x42

/-- The partitions that must stay where they were read. -/
def ldmOrig (dosData : DosPartitionData) : Option OrigState :=
  if dosData.system = partitionLdm then dosData.orig else none

/-- Aligned to cylinders if the disk asks for it. -/
def alignToCylinders (env : Env) (disk : DosDisk) (part : DosPartition)
    (constraint : Option PedConstraint) : Ask (Option PedGeometry) := do
  let biosGeom ← partitionProbeBiosGeometry env disk part
  if disk.diskSpecific.cylinderAlignment then align env disk part biosGeom constraint
  else return none

/-- Is a partition of a dynamic disk where it was read, and may it be there?
`ped_constraint_is_solution` asserts that there is a constraint. -/
def staysInPlace (orig : OrigState) (part : DosPartition) (constraint : Option PedConstraint) :
    Except Fault Bool :=
  if pedGeometryTestEqual part.geom orig.geom then
    match constraint with
    | none => .error (.assertion "constraint != NULL")
    | some constraint => .ok (pedConstraintIsSolution constraint part.geom)
  else .ok false

/-- `msdos_partition_align`. -/
def msdosPartitionAlign (env : Env) (disk : DosDisk) (part : DosPartition)
    (constraint : Option PedConstraint) : Ask (Bool × PedGeometry) := do
  match part.diskSpecific with
  | none => throw (.assertion "part->disk_specific != NULL")
  | some dosData =>
      match ldmOrig dosData with
      | some orig =>
          if ← staysInPlace orig part constraint then
            return (true, part.geom)
          else
            pedExceptionReport env
              "Parted can't resize partitions managed by Windows Dynamic Disk."
            return (false, orig.geom)
      | none =>
          match ← alignToCylinders env disk part constraint with
          | some geom => return (true, geom)
          | none => alignTo env part (← alignNoGeom env disk part constraint)

/-! ## Numbering -/

/-- `DOS_N_PRI_PARTITIONS`. -/
def dosNPriPartitions : ℕ := 4

/-- `MAX_TOTAL_PART`. -/
def maxTotalPart : ℕ := 64

/-- `next_primary`, `-1` when all numbers are taken. -/
def nextPrimary (disk : DosDisk) : ℤ :=
  match (List.range' 1 dosNPriPartitions).find?
      fun i : ℕ => (pedDiskGetPartition disk i).isNone with
  | some i => i
  | none => -1

/-- `next_logical`. -/
def nextLogical (env : Env) (disk : DosDisk) : Ask ℤ :=
  match (List.range' 5 (maxTotalPart - 4)).find?
      fun i : ℕ => (pedDiskGetPartition disk i).isNone with
  | some i => return i
  | none => do
      pedExceptionReport env "cannot create any more partitions"
      return -1

/-- `msdos_partition_enumerate`: primary partitions keep their numbers, everything else
gets the first that is free once its own has been given up. -/
def msdosPartitionEnumerate (env : Env) (disk : DosDisk) (part : DosPartition) :
    Ask (Bool × ℤ) := do
  if part.num ≠ -1 ∧ part.num ≤ dosNPriPartitions then
    return (true, part.num)
  else
    let disk := disk.setNum part.id (-1)
    let num ← if part.type.logical then nextLogical env disk else pure (nextPrimary disk)
    return (num ≠ -1, num)

def msdosLimit : PartitionLimit := ⟨"msdos", 2 ^ 32 - 1, 2 ^ 32 - 1⟩

def msdosOps : PedDiskOps DosPartitionData DosDiskData where
  name := "msdos"
  extended := true
  getMaxPrimaryPartitionCount := fun _ => dosNPriPartitions
  partitionEnumerate := msdosPartitionEnumerate
  partitionAlign := msdosPartitionAlign
  partitionCheck := fun env _ part => pttPartitionMaxStartLen env msdosLimit part

/-! ## Metadata -/

/-- A metadata entry that is only wanted under a condition. -/
def addMetadataIf (cond : Prop) [Decidable cond] (env : Env) (start «end» : ℤ) :
    DiskM DosPartitionData DosDiskData Bool :=
  if cond then addMetadata msdosOps env false start «end» else return true

/-- `add_startend_metadata`: the first track, and the incomplete cylinder at the end. -/
def addStartendMetadata (env : Env) : DiskM DosPartitionData DosDiskData Bool := do
  let disk ← getDisk
  let cylSize := env.dev.biosGeom.sectors * env.dev.biosGeom.heads
  let nonfree := disk.partList.filter fun walk => walk.type = .normal || walk.isExtended
  let initEnd := match nonfree.head? with
    | none => env.dev.biosGeom.sectors - 1
    | some first => min (env.dev.biosGeom.sectors - 1) (first.geom.start - 1)
  let finalStart := if !disk.diskSpecific.cylinderAlignment then env.dev.length - 1
    else match nonfree.getLast? with
      | none => pedRoundDownTo env.dev.length cylSize
      | some last => max (last.geom.end + 1) (pedRoundDownTo env.dev.length cylSize)
  let finalEnd := env.dev.length - 1
  if !(← addMetadataIf (0 < initEnd ∧ initEnd ≤ env.dev.length) env 0 initEnd) then
    return false
  addMetadataIf (finalStart < finalEnd ∧ initEnd < finalStart ∧ finalEnd ≤ env.dev.length) env
    finalStart finalEnd

/-- `add_logical_part_metadata`: the table of a logical partition is put before it,
together with the rest of the cylinder. -/
def addLogicalPartMetadata (env : Env) (ext logPart : DosPartition) :
    DiskM DosPartitionData DosDiskData Bool := do
  let disk ← getDisk
  let biosGeom ← partitionProbeBiosGeometry env disk ext
  let metadataEnd := logPart.geom.start - 1
  let roundedStart := pedRoundDownTo metadataEnd (biosGeom.sectors * biosGeom.heads)
  let metadataStart := match (neighbours logPart.id (disk.level logPart.type)).1 with
    | some prev => max roundedStart (prev.geom.end + 1)
    | none => max roundedStart (ext.geom.start + 1)
  let metadataLength := metadataEnd - metadataStart + 1
  -- partition 5 doesn't need to have any metadata
  if logPart.num = 5 ∧ metadataLength < biosGeom.sectors then
    return true
  else
    assertThat (metadataLength > 0) "metadata_length > 0"
    addMetadata msdosOps env true metadataStart metadataEnd

/-- The loop of `msdos_alloc_metadata` over the numbers from 5 on, which ends at the
first number that is not in use. -/
def addLogicalMetadata (env : Env) (ext : DosPartition) :
    List ℕ → DiskM DosPartitionData DosDiskData Bool
  | [] => return true
  | i :: rest => do
      match pedDiskGetPartition (← getDisk) i with
      | none => return true
      | some logPart =>
          if ← addLogicalPartMetadata env ext logPart then addLogicalMetadata env ext rest
          else return false

/-- The metadata inside the extended partition.  No more numbers are in use than there
are entries, so the loop ends within the given list. -/
def addExtendedMetadata (env : Env) (ext : DosPartition) :
    DiskM DosPartitionData DosDiskData Bool := do
  let disk ← getDisk
  if !(← addLogicalMetadata env ext (List.range' 5 (disk.partList ++ disk.logicals).length)) then
    return false
  let disk ← getDisk
  let biosGeom ← partitionProbeBiosGeometry env disk ext
  let start := ext.geom.start
  let «end» := match disk.logicals.head? with
    | some first => min (start + biosGeom.sectors - 1) (first.geom.start - 1)
    | none => start + biosGeom.sectors - 1
  addMetadata msdosOps env true start «end»

/-- `msdos_alloc_metadata`. -/
def msdosAllocMetadata (env : Env) : DiskM DosPartitionData DosDiskData Bool := do
  if !(← addStartendMetadata env) then
    return false
  match pedDiskExtendedPartition (← getDisk) with
  | none => return true
  | some ext => addExtendedMetadata env ext

section Padded

variable {env : Env} {ext : DosPartition} {s : Session DosPartitionData DosDiskData}

theorem addMetadata_padded (logical : Bool) (start «end» : ℤ) :
    Spec (fun _ => True) (addMetadata msdosOps env logical start «end») s
      fun _ s' => s.disk.Padded s'.disk :=
  (addMetadata_spec logical start «end»).mono (fun _ _ => trivial) fun _ _ h => h

theorem addMetadataIf_padded (cond : Prop) [Decidable cond] (start «end» : ℤ) :
    Spec (fun _ => True) (addMetadataIf cond env start «end») s
      fun _ s' => s.disk.Padded s'.disk := by
  unfold addMetadataIf
  exact Spec.ite (fun _ => addMetadata_padded _ _ _) fun _ => PedDisk.Padded.refl _

theorem addStartendMetadata_padded :
    Spec (fun _ => True) (addStartendMetadata env) s fun _ s' => s.disk.Padded s'.disk := by
  unfold addStartendMetadata
  refine Spec.bind (spec_getDisk.mpr ?_)
  refine (addMetadataIf_padded _ _ _).seq fun ok s₁ h₁ => ?_
  cases ok with
  | false => exact h₁
  | true => exact (addMetadataIf_padded _ _ _).imp fun _ _ h₂ => h₁.trans h₂

theorem addLogicalPartMetadata_padded (logPart : DosPartition) :
    Spec (fun _ => True) (addLogicalPartMetadata env ext logPart) s
      fun _ s' => s.disk.Padded s'.disk := by
  unfold addLogicalPartMetadata
  refine Spec.bind (spec_getDisk.mpr (Spec.bind
    (spec_lift.mpr ⟨fun biosGeom _ => ?_, fun _ _ => trivial⟩)))
  refine Spec.ite (fun _ => PedDisk.Padded.refl _) fun _ => ?_
  refine Spec.bind (spec_assertThat.mpr ⟨fun _ => ?_, fun _ => trivial⟩)
  exact addMetadata_padded _ _ _

theorem addLogicalMetadata_padded (is : List ℕ) :
    Spec (fun _ => True) (addLogicalMetadata env ext is) s fun _ s' => s.disk.Padded s'.disk := by
  induction is generalizing s with
  | nil => exact PedDisk.Padded.refl _
  | cons i rest ih =>
      unfold addLogicalMetadata
      refine Spec.bind (spec_getDisk.mpr ?_)
      cases pedDiskGetPartition s.disk i with
      | none => exact PedDisk.Padded.refl _
      | some logPart =>
          refine (addLogicalPartMetadata_padded logPart).seq fun ok s₁ h₁ => ?_
          cases ok with
          | false => exact h₁
          | true => exact ih.imp fun _ _ h₂ => h₁.trans h₂

theorem addExtendedMetadata_padded :
    Spec (fun _ => True) (addExtendedMetadata env ext) s fun _ s' => s.disk.Padded s'.disk := by
  unfold addExtendedMetadata
  refine Spec.bind (spec_getDisk.mpr ?_)
  refine (addLogicalMetadata_padded _).seq fun ok s₁ h₁ => ?_
  cases ok with
  | false => exact h₁
  | true =>
      refine Spec.bind (spec_getDisk.mpr (Spec.bind
        (spec_lift.mpr ⟨fun biosGeom _ => ?_, fun _ _ => trivial⟩)))
      exact (addMetadata_padded _ _ _).imp fun _ _ h₂ => h₁.trans h₂

/-- Allocating metadata adds placeholders and nothing else. -/
theorem msdosAllocMetadata_padded :
    Spec (fun _ => True) (msdosAllocMetadata env) s fun _ s' => s.disk.Padded s'.disk := by
  unfold msdosAllocMetadata
  refine addStartendMetadata_padded.seq fun ok s₁ h₁ => ?_
  cases ok with
  | false => exact h₁
  | true =>
      refine Spec.bind (spec_getDisk.mpr ?_)
      cases pedDiskExtendedPartition s₁.disk with
      | none => exact h₁
      | some ext => exact addExtendedMetadata_padded.imp fun _ _ h₂ => h₁.trans h₂

end Padded

/-- `msdos_disk_type`. -/
def msdosDiskType : PedDiskType DosPartitionData DosDiskData where
  toPedDiskOps := msdosOps
  allocMetadata := msdosAllocMetadata
  allocMetadata_frame := fun _ _ => msdosAllocMetadata_padded

end Libparted
