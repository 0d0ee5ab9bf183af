import Libparted.Labels.Common

/-!
# The GPT label in memory (`libparted/labels/gpt.c`)

What the operations of `disk.c` use of this label: its numbering, its alignment to
the data area, and its two metadata entries, one at each end of the device.
-/

namespace Libparted

open Library

variable {π : Type}

/-- `_GPTDiskData`. -/
structure GPTDiskData where
  dataArea : PedGeometry
  entryCount : ℕ
  uuid : BitVec 128
  pmbrBoot : Bool
  alternateLBA : ℤ
deriving DecidableEq

/-- `_GPTPartitionData`.  A GUID is kept as the sixteen bytes it has on disk, and the
attributes as the word that holds the bit fields.  The last unit of `name[37]` is
always zero. -/
structure GPTPartitionData where
  type : BitVec 128
  uuid : BitVec 128
  name : Vector (BitVec 16) 36
  attributes : BitVec 64
deriving DecidableEq

/-- `sizeof (GuidPartitionTableHeader_t)`: the fields and a pointer. -/
def sizeofHeader : ℕ := 100

/-- `sizeof (GuidPartitionEntry_t)`. -/
def sizeofEntry : ℕ := 128

def gptLimit : PartitionLimit := ⟨"gpt", 2 ^ 64 - 1, 2 ^ 64 - 1⟩

/-- `gpt_partition_enumerate`: numbers are never changed, and a partition without one
gets the first that is free. -/
def gptPartitionEnumerate (_ : Env) (disk : PedDisk π GPTDiskData) (part : PedPartition π) :
    Ask (Bool × ℤ) := do
  if part.num ≠ -1 then
    return (true, part.num)
  match (List.range' 1 disk.diskSpecific.entryCount).find?
      fun i : ℕ => (pedDiskGetPartition disk i).isNone with
  | some i => return (true, i)
  | none => throw (.assertion "0")

/-- `gpt_partition_align`. -/
def gptPartitionAlign (env : Env) (disk : PedDisk π GPTDiskData) (part : PedPartition π)
    (constraint : Option PedConstraint) : Ask (Bool × PedGeometry) := do
  let nonMetadataConstraint := pedConstraintNewFromMax disk.diskSpecific.dataArea
  alignTo env part (← tryConstraint env part constraint (some nonMetadataConstraint))

def gptOps : PedDiskOps π GPTDiskData where
  name := "gpt"
  extended := false
  getMaxPrimaryPartitionCount := fun disk => disk.diskSpecific.entryCount
  partitionEnumerate := gptPartitionEnumerate
  partitionAlign := gptPartitionAlign
  partitionCheck := fun env _ part => pttPartitionMaxStartLen env gptLimit part

/-- `gpt_alloc_metadata`: the protective MBR, the header and the entries at the
start, and the header and the entries at the end. -/
def gptAllocMetadata (env : Env) : DiskM π GPTDiskData Bool := do
  let gptlength : ℤ := pedDivRoundUp sizeofHeader env.dev.sectorSize
  let pteslength : ℤ :=
    pedDivRoundUp ((← getDisk).diskSpecific.entryCount * sizeofEntry) env.dev.sectorSize
  if !(← addMetadata gptOps env false 0 (1 + gptlength + pteslength - 1)) then
    return false
  addMetadata gptOps env false (env.dev.length - gptlength - pteslength) (env.dev.length - 1)

theorem gptAllocMetadata_spec (env : Env) (s : Session π GPTDiskData) :
    Spec MetadataFault (gptAllocMetadata env) s fun _ s' => s.disk.Padded s'.disk := by
  unfold gptAllocMetadata
  refine Spec.bind (spec_getDisk.mpr ?_)
  refine (addMetadata_spec false _ _).seq fun ok s₁ h₁ => ?_
  cases ok with
  | false => exact h₁
  | true => exact (addMetadata_spec false _ _).imp fun _ _ h₂ => h₁.trans h₂

/-- The entries `gpt_alloc_metadata` makes when they fit on the device. -/
theorem gptAllocMetadata_run {env : Env} {s : Session π GPTDiskData} (size : ℤ)
    (hsize : size = pedDivRoundUp sizeofHeader env.dev.sectorSize
      + pedDivRoundUp (s.disk.diskSpecific.entryCount * sizeofEntry) env.dev.sectorSize)
    (hfit : size < env.dev.length) (hlev : s.disk.Leveled)
    (hext : pedDiskExtendedPartition s.disk = none) (hpos : 0 < size) :
    Spec (fun _ => False) (gptAllocMetadata env) s fun ok s' => ok = true ∧ s' =
      { s with disk := (s.disk.place (.placeholder (.ofMetadata false)
          (.ofStartEnd 0 size (le_refl 0) hpos.le))).place (.placeholder (.ofMetadata false)
          (.ofStartEnd (env.dev.length - size) (env.dev.length - 1) (by omega) (by omega))) } := by
  have hsize' : 1 + (pedDivRoundUp sizeofHeader env.dev.sectorSize : ℤ)
      + pedDivRoundUp (s.disk.diskSpecific.entryCount * sizeofEntry) env.dev.sectorSize - 1
      = size := by omega
  have hback : env.dev.length - (pedDivRoundUp sizeofHeader env.dev.sectorSize : ℤ)
      - pedDivRoundUp (s.disk.diskSpecific.entryCount * sizeofEntry) env.dev.sectorSize
      = env.dev.length - size := by omega
  have hplace : ∀ (disk : PedDisk π GPTDiskData) (geom : PedGeometry),
      pedDiskExtendedPartition disk = none → geom.end < env.dev.length →
      placementObjections env disk (.placeholder (.ofMetadata false) geom) = .ok [] := by
    intro disk geom hnone hend
    unfold placementObjections outsideExtended
    simp [hnone, PedPartition.placeholder, PedPartitionType.ofMetadata, hend]
  unfold gptAllocMetadata
  refine Spec.bind (spec_getDisk.mpr ?_)
  simp only [hsize', hback]
  refine (addMetadata_run (le_refl 0) hpos.le hlev (fun h => absurd h Bool.false_ne_true)
    (hplace _ _ hext ?_)).seq ?_
  · rw [PedGeometry.ofStartEnd_end]
    exact hfit
  rintro _ _ ⟨rfl, rfl⟩
  refine addMetadata_run (by omega) (by omega) (PedDisk.Each.place hlev id id)
    (fun h => absurd h Bool.false_ne_true) (hplace _ _ ?_ ?_)
  · exact (pedDiskExtendedPartition_place rfl).trans hext
  · rw [PedGeometry.ofStartEnd_end]
    omega

/-- `gpt_disk_type`. -/
def gptDiskType : PedDiskType π GPTDiskData where
  toPedDiskOps := gptOps
  allocMetadata := gptAllocMetadata
  allocMetadata_frame := fun env s => (gptAllocMetadata_spec env s).mono (fun _ _ => trivial)
    fun _ _ h => h

end Libparted
