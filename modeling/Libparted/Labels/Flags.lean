import Libparted.Labels.Dos.Label
import Libparted.Labels.Gpt

/-!
# Partition flags (`labels/dos.c`, `labels/gpt.c`)

On an MS-DOS label one byte, `system`, says which file system a partition holds, whether
it is the extended partition, whether it is hidden, whether it is addressed by LBA, and
carries most flags besides.  On a GPT the type GUID plays this role, and three more flags
have a bit each in the attributes.  Clearing a flag that lives in the type goes back to the
default type of the partition's file system.

The module follows any sequence of `partition_set_flag` and `partition_set_system` calls.
`KindsKept` is the invariant of the MS-DOS label: the type byte of the extended partition is
one that `raw_part_is_extended` knows, and no other partition has such a byte or 0, so that
a table that is written is read back with the same kinds.

Two things can go wrong, and `DosHarmless` and `GptHarmless` say exactly when.

* The flag does not take the value it was set to.  The LBA flag cannot be changed while
  the type is hidden, and a flag cannot be cleared when the default type of the file system
  is the type of the flag.
* The kind changes: hiding an extended partition of type `0x05` gives `0x15`, which is not
  recognised, and the way back turns an ordinary partition into an extended one.
-/

namespace Libparted

open Library Relation

/-! ## Flags and partitions -/

/-- `PedPartitionFlag`. -/
inductive PedPartitionFlag where
  | boot
  | root
  | swap
  | hidden
  | raid
  | lvm
  | lba
  | hpservice
  | palo
  | prep
  | msftReserved
  | biosGrub
  | appleTvRecovery
  | diag
  | legacyBoot
  | msftData
  | irst
  | esp
  | chromeosKernel
  | blsBoot
  | linuxHome
  | noAutomount
deriving DecidableEq, Repr

/-- An active partition as the flag functions see it: its kind, `fs_type->name` and the data
of the label. -/
structure FlaggedPartition (π : Type) where
  kind : PartitionKind
  fsType : Option String
  data : π
deriving DecidableEq

/-- `strncmp (name, start, strlen (start)) == 0`. -/
def startsWith (start name : String) : Bool := start.toList.isPrefixOf name.toList

/-- `strstr (name, text) != NULL`. -/
def hasSubstring (text name : String) : Bool := decide (text.toList <:+: name.toList)

/-- `is_linux_swap`. -/
def isLinuxSwap (name : String) : Bool := startsWith "linux-swap" name

/-! ## MS-DOS: the type byte -/

/-- `PARTITION_EMPTY`. -/
def partitionEmpty : BitVec 8 := 0x00

/-- `PARTITION_DOS_EXT`. -/
def partitionDosExt : BitVec 8 := 0x05

/-- `PARTITION_EXT_LBA`. -/
def partitionExtLba : BitVec 8 := 0x0f

/-- `PARTITION_LINUX_EXT`. -/
def partitionLinuxExt : BitVec 8 := 0x85

/-- `flag_id_mapping_t`.  An entry without an alternative has 0 there. -/
structure FlagIdMapping where
  flag : PedPartitionFlag
  typeId : BitVec 8
  altTypeId : BitVec 8 := 0
deriving DecidableEq, Repr

/-- `flag_id_mapping`. -/
def flagIdMapping : List FlagIdMapping :=
  [⟨.blsBoot, 0xea, 0⟩, ⟨.diag, 0x12, 0xde⟩, ⟨.esp, 0xef, 0⟩, ⟨.irst, 0x84, 0⟩,
    ⟨.lvm, 0x8e, 0xfe⟩, ⟨.msftReserved, 0x27, 0⟩, ⟨.palo, 0xf0, 0⟩, ⟨.prep, 0x41, 0⟩,
    ⟨.raid, 0xfd, 0⟩, ⟨.swap, 0x82, 0⟩]

/-- `skip_set_system_types`. -/
def skipSetSystemTypes : List (BitVec 8) :=
  [0x0f, 0x05, 0x12, 0x27, 0x8e, 0x82, 0xfd, 0xf0, 0x41, 0x84, 0xef, 0xea]

/-- `dos_find_flag_id_mapping`. -/
def dosFindFlagIdMapping (flag : PedPartitionFlag) : Option FlagIdMapping :=
  flagIdMapping.find? fun p => p.flag = flag

/-- The type is the one of the flag, or its alternative. -/
def FlagIdMapping.covers (p : FlagIdMapping) (system : BitVec 8) : Bool :=
  system = p.typeId || system = p.altTypeId

/-- `dos_type_id_supports_hidden`. -/
def dosTypeIdSupportsHidden (typeId : BitVec 8) : Bool :=
  [0x05, 0x15, 0x01, 0x11, 0x06, 0x16, 0x0e, 0x1e, 0x04, 0x14, 0x0b, 0x1b, 0x0c, 0x1c, 0x07,
    0x17].contains typeId

/-- `dos_type_id_is_hidden`. -/
def dosTypeIdIsHidden (typeId : BitVec 8) : Bool :=
  [0x15, 0x11, 0x16, 0x1e, 0x14, 0x1b, 0x1c, 0x17].contains typeId

/-- `PART_FLAG_HIDDEN`. -/
def partFlagHidden : BitVec 8 := 0x10

/-- `dos_type_id_set_hidden`. -/
def dosTypeIdSetHidden (typeId : BitVec 8) (state : Bool) : Bool × BitVec 8 :=
  if !dosTypeIdSupportsHidden typeId then (false, typeId)
  else if state then (true, typeId ||| partFlagHidden)
  else (true, typeId &&& ~~~partFlagHidden)

/-- `dos_type_id_supports_lba`. -/
def dosTypeIdSupportsLba (typeId : BitVec 8) : Bool :=
  [0x06, 0x16, 0x0e, 0x1e, 0x0b, 0x1b, 0x0c, 0x1c, 0x05, 0x0f].contains typeId

/-- `dos_type_id_is_lba`. -/
def dosTypeIdIsLba (typeId : BitVec 8) : Bool := [0x0e, 0x1e, 0x0c, 0x1c, 0x0f].contains typeId

/-- `dos_type_id_set_lba`.  The hidden types have no case of their own and stay. -/
def dosTypeIdSetLba (typeId : BitVec 8) (state : Bool) : Bool × BitVec 8 :=
  if !dosTypeIdSupportsLba typeId then (false, typeId)
  else if state then
    (true, if typeId = 0x06 then 0x0e
      else if typeId = 0x0b then 0x0c
      else if typeId = 0x05 then 0x0f
      else typeId)
  else
    (true, if typeId = 0x0e then 0x06
      else if typeId = 0x0c then 0x0b
      else if typeId = 0x0f then 0x05
      else typeId)

/-- `PARTITION_LINUX`. -/
def partitionLinux : BitVec 8 := 0x83

/-- `PARTITION_LINUX_SWAP`. -/
def partitionLinuxSwap : BitVec 8 := 0x82

/-! ## MS-DOS: the functions of the label -/

abbrev DosFlagged : Type := FlaggedPartition DosPartitionData

/-- Changes `dos_data->system`. -/
def FlaggedPartition.setSystemByte (part : DosFlagged) (system : BitVec 8) : DosFlagged :=
  { part with data := { part.data with system := system } }

/-- `is_skip_type`. -/
def isSkipType (typeId : BitVec 8) : Bool := skipSetSystemTypes.contains typeId

/-- The type that `msdos_partition_set_system` gives to a partition with the file system. -/
def dosDefaultSystem : Option String → BitVec 8
  | none => partitionLinux
  | some name =>
      if name = "fat16" then 0x06
      else if name = "fat32" then 0x0b
      else if name = "ntfs" ∨ name = "hpfs" then 0x07
      else if name = "hfs" ∨ name = "hfs+" then 0xaf
      else if name = "udf" then 0x07
      else if name = "sun-ufs" then 0xbf
      else if isLinuxSwap name then partitionLinuxSwap
      else partitionLinux

/-- `msdos_partition_set_system`, which always returns 1. -/
def msdosPartitionSetSystem (part : DosFlagged) (fsType : Option String) : DosFlagged :=
  let part := { part with fsType := fsType }
  if isSkipType part.data.system then part
  else if part.kind = .extended then part.setSystemByte partitionExtLba
  else part.setSystemByte (dosDefaultSystem fsType)

/-- What `msdos_partition_set_flag` does to the partition it is called on. -/
def msdosPartitionSetFlagOn (part : DosFlagged) (flag : PedPartitionFlag) (state : Bool) :
    Bool × DosFlagged :=
  match dosFindFlagIdMapping flag with
  | some p =>
      if part.kind = .extended then (false, part)
      else if state then (true, part.setSystemByte p.typeId)
      else if p.covers part.data.system then
        (true, msdosPartitionSetSystem (part.setSystemByte partitionLinux) part.fsType)
      else (true, part)
  | none =>
      match flag with
      | .hidden =>
          let (ok, system) := dosTypeIdSetHidden part.data.system state
          (ok, part.setSystemByte system)
      | .lba =>
          let (ok, system) := dosTypeIdSetLba part.data.system state
          (ok, part.setSystemByte system)
      | .boot => (true, { part with data := { part.data with boot := state } })
      | _ => (false, part)

/-- `msdos_partition_set_flag` on the partition at place `i` among the active ones.  Setting
the boot flag clears it on every other partition. -/
def msdosPartitionSetFlag (disk : List DosFlagged) (i : ℕ) (flag : PedPartitionFlag)
    (state : Bool) : Bool × List DosFlagged :=
  match disk[i]? with
  | none => (false, disk)
  | some part =>
      let (ok, part) := msdosPartitionSetFlagOn part flag state
      let disk := disk.set i part
      if flag = .boot ∧ state then
        (ok, disk.mapIdx fun j walk =>
          if j = i then walk else (msdosPartitionSetFlagOn walk .boot false).2)
      else (ok, disk)

/-- `msdos_partition_get_flag`. -/
def msdosPartitionGetFlag (part : DosFlagged) (flag : PedPartitionFlag) : Bool :=
  match dosFindFlagIdMapping flag with
  | some p => p.covers part.data.system
  | none =>
      match flag with
      | .hidden => dosTypeIdIsHidden part.data.system
      | .lba => dosTypeIdIsLba part.data.system
      | .boot => part.data.boot
      | _ => false

/-- `msdos_partition_is_flag_available`. -/
def msdosPartitionIsFlagAvailable (part : DosFlagged) (flag : PedPartitionFlag) : Bool :=
  match dosFindFlagIdMapping flag with
  | some _ => part.kind ≠ .extended
  | none =>
      match flag with
      | .hidden => dosTypeIdSupportsHidden part.data.system
      | .lba => dosTypeIdSupportsLba part.data.system
      | .boot => true
      | _ => false

/-! ## MS-DOS: kinds -/

/-- The types that `raw_part_is_extended` recognises. -/
def isExtendedType (system : BitVec 8) : Bool :=
  system = partitionDosExt || system = partitionExtLba || system = partitionLinuxExt

/-- The type byte of a partition tells its kind to `read_table`. -/
def KindKept (kind : PartitionKind) (system : BitVec 8) : Prop :=
  if kind = .extended then isExtendedType system = true
  else isExtendedType system = false ∧ system ≠ partitionEmpty

instance (kind : PartitionKind) (system : BitVec 8) : Decidable (KindKept kind system) :=
  inferInstanceAs (Decidable (if kind = .extended then isExtendedType system = true
    else isExtendedType system = false ∧ system ≠ partitionEmpty))

/-- Every partition would be read back with its kind. -/
def KindsKept (disk : List DosFlagged) : Prop :=
  ∀ part ∈ disk, KindKept part.kind part.data.system

/-- The changes that do what they say.  Hiding does not touch an extended partition of type
`0x05`, nor does unhiding touch an ordinary one of type `0x15`; the LBA flag is not changed on
a hidden type; the swap flag is not cleared on a partition with a swap file system. -/
structure DosHarmless (part : DosFlagged) (flag : PedPartitionFlag) (state : Bool) : Prop where
  hide : flag = .hidden → state = true → part.kind = .extended → part.data.system ≠ 0x05
  unhide : flag = .hidden → state = false → part.kind ≠ .extended → part.data.system ≠ 0x15
  lba : flag = .lba → part.data.system ∉
    (if state then [0x16, 0x1b] else [0x1e, 0x1c] : List (BitVec 8))
  swap : flag = .swap → state = false → part.data.system = partitionLinuxSwap →
    ∀ name, part.fsType = some name → isLinuxSwap name = false

/-- The flag has the value it was set to. -/
def DosEffective (disk : List DosFlagged) (i : ℕ) (flag : PedPartitionFlag) (state : Bool) :
    Prop :=
  (msdosPartitionSetFlag disk i flag state).1 = true →
    ∀ part, (msdosPartitionSetFlag disk i flag state).2[i]? = some part →
      msdosPartitionGetFlag part flag = state

/-- One call on a disk: an available flag is changed harmlessly, or a file system is set. -/
inductive HarmlessStep : List DosFlagged → List DosFlagged → Prop
  | setFlag (disk : List DosFlagged) (i : ℕ) (part : DosFlagged) (flag : PedPartitionFlag)
      (state : Bool) : disk[i]? = some part → msdosPartitionIsFlagAvailable part flag = true →
      DosHarmless part flag state → HarmlessStep disk (msdosPartitionSetFlag disk i flag state).2
  | setSystem (disk : List DosFlagged) (i : ℕ) (fsType : Option String) :
      HarmlessStep disk (disk.modify i (msdosPartitionSetSystem · fsType))

/-! ### What the type byte can become -/

/-- The default types.  None of them is the type of an extended partition, and only that of a
swap partition carries a flag. -/
def defaultSystems : List (BitVec 8) :=
  [partitionLinux, 0x06, 0x0b, 0x07, 0xaf, 0xbf, partitionLinuxSwap]

theorem dosDefaultSystem_mem (fsType : Option String) :
    dosDefaultSystem fsType ∈ defaultSystems := by
  cases fsType with
  | none => decide
  | some name =>
      unfold dosDefaultSystem
      repeat' split
      all_goals decide

theorem dosDefaultSystem_swap (fsType : Option String) :
    dosDefaultSystem fsType = partitionLinuxSwap ↔ ∃ name, fsType = some name ∧ isLinuxSwap name = true := by
  cases fsType with
  | none => simp [dosDefaultSystem, partitionLinux, partitionLinuxSwap]
  | some name =>
      by_cases hswap : isLinuxSwap name = true
      · -- no name of the cases before it is one of a swap file system
        have hother : ∀ other ∈ ["fat16", "fat32", "ntfs", "hpfs", "hfs", "hfs+", "udf",
            "sun-ufs"], name ≠ other := by
          rintro other hmem rfl
          revert hswap
          revert name
          decide +kernel
        simp only [List.mem_cons, List.not_mem_nil, or_false, forall_eq_or_imp, forall_eq] at hother
        simp [dosDefaultSystem, hother, hswap]
      · have hne : dosDefaultSystem (some name) ≠ partitionLinuxSwap := by
          simp only [dosDefaultSystem, if_neg hswap]
          split_ifs <;> decide
        simpa using iff_of_false hne hswap

theorem kindKept_default (kind : PartitionKind) (fsType : Option String)
    (hkind : kind ≠ .extended) : KindKept kind (dosDefaultSystem fsType) := by
  have hall : ∀ system ∈ defaultSystems,
      isExtendedType system = false ∧ system ≠ partitionEmpty := by decide
  simp only [KindKept, hkind, if_false]
  exact hall _ (dosDefaultSystem_mem fsType)

theorem mem_flagIdMapping {flag : PedPartitionFlag} {p : FlagIdMapping}
    (h : dosFindFlagIdMapping flag = some p) : p ∈ flagIdMapping ∧ p.flag = flag := by
  refine ⟨List.mem_of_find?_eq_some h, ?_⟩
  simpa using List.find?_some h

theorem kindKept_typeId {p : FlagIdMapping} (hp : p ∈ flagIdMapping) (kind : PartitionKind)
    (hkind : kind ≠ .extended) : KindKept kind p.typeId := by
  have hall : ∀ p ∈ flagIdMapping,
      isExtendedType p.typeId = false ∧ p.typeId ≠ partitionEmpty := by decide
  simp only [KindKept, hkind, if_false]
  exact hall p hp

/-- Back at the default type, only a swap partition still has the flag. -/
theorem covers_default {p : FlagIdMapping} (hp : p ∈ flagIdMapping) (fsType : Option String) :
    p.covers (dosDefaultSystem fsType) = true ↔
      p.flag = .swap ∧ ∃ name, fsType = some name ∧ isLinuxSwap name = true := by
  have hall : ∀ p ∈ flagIdMapping, ∀ system ∈ defaultSystems,
      p.covers system = true ↔ p.flag = .swap ∧ system = partitionLinuxSwap := by decide
  rw [hall p hp _ (dosDefaultSystem_mem fsType), dosDefaultSystem_swap]

/-- **Hiding, byte by byte**: it always takes effect, and which bytes lose their kind. -/
theorem setHidden_spec : ∀ (system : BitVec 8) (state : Bool),
    dosTypeIdSupportsHidden system = true →
      (dosTypeIdSetHidden system state).1 = true ∧
      dosTypeIdIsHidden (dosTypeIdSetHidden system state).2 = state ∧
      (isExtendedType system = true →
        (isExtendedType (dosTypeIdSetHidden system state).2 = true ↔ ¬ (state = true ∧
          system = 0x05))) ∧
      (isExtendedType system = false →
        (isExtendedType (dosTypeIdSetHidden system state).2 = false ∧
          (dosTypeIdSetHidden system state).2 ≠ partitionEmpty ↔
            ¬ (state = false ∧ system = 0x15))) := by
  decide +kernel

/-- **The LBA flag, byte by byte**: it keeps every kind, and takes effect on the types that
are not hidden. -/
theorem setLba_spec : ∀ (system : BitVec 8) (state : Bool),
    dosTypeIdSupportsLba system = true →
      (dosTypeIdSetLba system state).1 = true ∧
      isExtendedType (dosTypeIdSetLba system state).2 = isExtendedType system ∧
      (dosTypeIdSetLba system state).2 ≠ partitionEmpty ∧
      (dosTypeIdIsLba (dosTypeIdSetLba system state).2 = state ↔
        system ∉ (if state then [0x16, 0x1b] else [0x1e, 0x1c] : List (BitVec 8))) := by
  decide +kernel

/-! ### One call -/

@[simp] theorem setSystemByte_kind (part : DosFlagged) (system : BitVec 8) :
    (part.setSystemByte system).kind = part.kind := rfl

@[simp] theorem setSystemByte_fsType (part : DosFlagged) (system : BitVec 8) :
    (part.setSystemByte system).fsType = part.fsType := rfl

@[simp] theorem setSystemByte_system (part : DosFlagged) (system : BitVec 8) :
    (part.setSystemByte system).data.system = system := rfl

theorem msdosPartitionSetSystem_kind (part : DosFlagged) (fsType : Option String) :
    (msdosPartitionSetSystem part fsType).kind = part.kind := by
  simp only [msdosPartitionSetSystem]
  split_ifs <;> rfl

/-- Setting a file system keeps every kind. -/
theorem msdosPartitionSetSystem_kept (part : DosFlagged) (fsType : Option String)
    (hkept : KindKept part.kind part.data.system) :
    KindKept part.kind (msdosPartitionSetSystem part fsType).data.system := by
  simp only [msdosPartitionSetSystem]
  split_ifs with hskip hkind
  · exact hkept
  · simp only [setSystemByte_system, KindKept, if_pos hkind]
    decide
  · exact kindKept_default part.kind fsType hkind

/-- From `PARTITION_LINUX` an ordinary partition goes to the default of its file system. -/
theorem msdosPartitionSetSystem_linux (part : DosFlagged) (hkind : part.kind ≠ .extended) :
    (msdosPartitionSetSystem (part.setSystemByte partitionLinux) part.fsType).data.system =
      dosDefaultSystem part.fsType := by
  have hskip : isSkipType partitionLinux = false := by decide
  simp [msdosPartitionSetSystem, hskip, hkind]

theorem dosHarmless_other {part : DosFlagged} {flag : PedPartitionFlag} {state : Bool}
    (hhidden : flag ≠ .hidden) (hlba : flag ≠ .lba) (hswap : flag ≠ .swap ∨ state = true) :
    DosHarmless part flag state := by
  refine ⟨fun h => absurd h hhidden, fun h => absurd h hhidden, fun h => absurd h hlba, ?_⟩
  rintro rfl rfl
  simp at hswap

/-- What a call on an available flag does to the partition itself. -/
structure SetFlagOutcome (part : DosFlagged) (flag : PedPartitionFlag) (state : Bool) : Prop where
  returns : (msdosPartitionSetFlagOn part flag state).1 = true
  kind : (msdosPartitionSetFlagOn part flag state).2.kind = part.kind
  fine_iff : msdosPartitionGetFlag (msdosPartitionSetFlagOn part flag state).2 flag = state ∧
      KindKept part.kind (msdosPartitionSetFlagOn part flag state).2.data.system ↔
    DosHarmless part flag state

/-- A flag that is a type of its own. -/
theorem setFlagOn_mapped {part : DosFlagged} {flag : PedPartitionFlag} {p : FlagIdMapping}
    (hp : dosFindFlagIdMapping flag = some p) (hkind : part.kind ≠ .extended)
    (hkept : KindKept part.kind part.data.system) (state : Bool) :
    SetFlagOutcome part flag state := by
  obtain ⟨hmem, rfl⟩ := mem_flagIdMapping hp
  have hplain : p.flag ≠ .hidden ∧ p.flag ≠ .lba := by
    have hall : ∀ p ∈ flagIdMapping, p.flag ≠ .hidden ∧ p.flag ≠ .lba := by decide
    exact hall p hmem
  cases state with
  | true =>
      have hon : msdosPartitionSetFlagOn part p.flag true = (true, part.setSystemByte p.typeId) := by
        simp [msdosPartitionSetFlagOn, hp, hkind]
      refine ⟨by rw [hon], by rw [hon]; rfl, ?_⟩
      have hget : msdosPartitionGetFlag (part.setSystemByte p.typeId) p.flag = true := by
        simp [msdosPartitionGetFlag, hp, FlagIdMapping.covers]
      rw [hon]
      exact iff_of_true ⟨hget, kindKept_typeId hmem part.kind hkind⟩
        (dosHarmless_other hplain.1 hplain.2 (.inr rfl))
  | false =>
      by_cases hcovers : p.covers part.data.system = true
      · -- the type goes back to the default of the file system
        have hon : msdosPartitionSetFlagOn part p.flag false =
            (true, msdosPartitionSetSystem (part.setSystemByte partitionLinux) part.fsType) := by
          simp [msdosPartitionSetFlagOn, hp, hkind, hcovers]
        have hsystem := msdosPartitionSetSystem_linux part hkind
        refine ⟨by rw [hon], by rw [hon]; exact msdosPartitionSetSystem_kind _ _, ?_⟩
        have hget : msdosPartitionGetFlag
            (msdosPartitionSetSystem (part.setSystemByte partitionLinux) part.fsType) p.flag =
              p.covers (dosDefaultSystem part.fsType) := by
          simp [msdosPartitionGetFlag, hp, hsystem]
        rw [hon, hsystem, hget]
        have hdefault := covers_default hmem part.fsType
        constructor
        · rintro ⟨hclear, -⟩
          refine ⟨fun h => absurd h hplain.1, fun h => absurd h hplain.1,
            fun h => absurd h hplain.2, fun hflag _ _ name hname => ?_⟩
          by_contra hswap
          have := hdefault.mpr ⟨hflag, name, hname, by simpa using hswap⟩
          simp [hclear] at this
        · intro hharmless
          refine ⟨?_, kindKept_default part.kind part.fsType hkind⟩
          by_contra hset
          obtain ⟨hflag, name, hname, hswap⟩ := hdefault.mp (by simpa using hset)
          have hsystem82 : part.data.system = partitionLinuxSwap := by
            have hall : ∀ p ∈ flagIdMapping, ∀ system : BitVec 8, p.flag = .swap →
                p.covers system = true → system ≠ 0 → system = partitionLinuxSwap := by decide +kernel
            refine hall p hmem _ hflag hcovers ?_
            simp only [KindKept, hkind, if_false] at hkept
            exact hkept.2
          have := hharmless.swap hflag rfl hsystem82 name hname
          simp [hswap] at this
      · have hon : msdosPartitionSetFlagOn part p.flag false = (true, part) := by
          simp [msdosPartitionSetFlagOn, hp, hkind, hcovers]
        have hget : msdosPartitionGetFlag part p.flag = false := by
          simpa [msdosPartitionGetFlag, hp] using hcovers
        refine ⟨by rw [hon], by rw [hon], ?_⟩
        rw [hon]
        refine iff_of_true ⟨hget, hkept⟩ ⟨fun h => absurd h hplain.1, fun h => absurd h hplain.1,
          fun h => absurd h hplain.2, fun hflag _ hsystem => ?_⟩
        -- a partition without the flag is not of the flag's type
        have hall : ∀ p ∈ flagIdMapping, p.flag = .swap → p.covers partitionLinuxSwap = true := by decide
        exact absurd (hsystem ▸ hall p hmem hflag) hcovers

theorem setFlagOn_hidden {part : DosFlagged} (hkept : KindKept part.kind part.data.system)
    (havail : dosTypeIdSupportsHidden part.data.system = true) (state : Bool) :
    SetFlagOutcome part .hidden state := by
  have hon : msdosPartitionSetFlagOn part .hidden state =
      ((dosTypeIdSetHidden part.data.system state).1,
        part.setSystemByte (dosTypeIdSetHidden part.data.system state).2) := rfl
  have hget (other : DosFlagged) :
      msdosPartitionGetFlag other .hidden = dosTypeIdIsHidden other.data.system := rfl
  obtain ⟨hok, htakes, hext, hplain⟩ := setHidden_spec part.data.system state havail
  refine ⟨by rw [hon, hok], by rw [hon]; rfl, ?_⟩
  rw [hon, hget, setSystemByte_system]
  simp only [htakes, true_and]
  by_cases hkind : part.kind = .extended
  · simp only [KindKept, if_pos hkind] at hkept ⊢
    rw [hext hkept]
    refine ⟨fun h => ⟨fun _ hs _ hsystem => h ⟨hs, hsystem⟩, fun _ _ hne => absurd hkind hne,
      by simp, by simp⟩, fun h hbad => h.hide rfl hbad.1 hkind hbad.2⟩
  · simp only [KindKept, if_neg hkind] at hkept ⊢
    rw [hplain hkept.1]
    refine ⟨fun h => ⟨fun _ _ he => absurd he hkind, fun _ hs _ hsystem => h ⟨hs, hsystem⟩,
      by simp, by simp⟩, fun h hbad => h.unhide rfl hbad.1 hkind hbad.2⟩

theorem setFlagOn_lba {part : DosFlagged} (hkept : KindKept part.kind part.data.system)
    (havail : dosTypeIdSupportsLba part.data.system = true) (state : Bool) :
    SetFlagOutcome part .lba state := by
  have hon : msdosPartitionSetFlagOn part .lba state =
      ((dosTypeIdSetLba part.data.system state).1,
        part.setSystemByte (dosTypeIdSetLba part.data.system state).2) := rfl
  have hget (other : DosFlagged) :
      msdosPartitionGetFlag other .lba = dosTypeIdIsLba other.data.system := rfl
  obtain ⟨hok, hext, hne, htakes⟩ := setLba_spec part.data.system state havail
  have hkept' : KindKept part.kind (dosTypeIdSetLba part.data.system state).2 := by
    unfold KindKept at hkept ⊢
    rw [hext]
    split_ifs at hkept ⊢ with hkind
    · exact hkept
    · exact ⟨hkept.1, hne⟩
  refine ⟨by rw [hon, hok], by rw [hon]; rfl, ?_⟩
  rw [hon, hget, setSystemByte_system]
  simp only [hkept', and_true, htakes]
  exact ⟨fun h => ⟨by simp, by simp, fun _ => h, by simp⟩, fun h => h.lba rfl⟩

/-- **What a call does to the partition it is made on**: it returns 1, and it does what it
says and keeps the kind exactly if it is harmless. -/
theorem setFlagOn_outcome {part : DosFlagged} {flag : PedPartitionFlag}
    (hkept : KindKept part.kind part.data.system)
    (havail : msdosPartitionIsFlagAvailable part flag = true) (state : Bool) :
    SetFlagOutcome part flag state := by
  cases hp : dosFindFlagIdMapping flag with
  | some p =>
      have hkind : part.kind ≠ .extended := by
        simpa [msdosPartitionIsFlagAvailable, hp] using havail
      exact setFlagOn_mapped hp hkind hkept state
  | none =>
      simp only [msdosPartitionIsFlagAvailable, hp] at havail
      cases flag with
      | hidden => exact setFlagOn_hidden hkept havail state
      | lba => exact setFlagOn_lba hkept havail state
      | boot =>
          refine ⟨rfl, rfl, iff_of_true ⟨rfl, hkept⟩ ?_⟩
          exact dosHarmless_other (by decide) (by decide) (.inl (by decide))
      | _ => simp at havail

/-! ### A whole disk -/

/-- The disk after a call: the partition itself, and what is left of the others. -/
theorem msdosPartitionSetFlag_spec {disk : List DosFlagged} {i : ℕ} {part : DosFlagged}
    (hpart : disk[i]? = some part) (flag : PedPartitionFlag) (state : Bool) :
    (msdosPartitionSetFlag disk i flag state).1 = (msdosPartitionSetFlagOn part flag state).1 ∧
    (msdosPartitionSetFlag disk i flag state).2[i]? =
      some (msdosPartitionSetFlagOn part flag state).2 ∧
    ∀ j other, j ≠ i → (msdosPartitionSetFlag disk i flag state).2[j]? = some other →
      ∃ was, disk[j]? = some was ∧ other.kind = was.kind ∧ other.data.system = was.data.system ∧
        (flag = .boot → state = true → other.data.boot = false) := by
  have hlt : i < disk.length := (List.getElem?_eq_some_iff.mp hpart).1
  unfold msdosPartitionSetFlag
  rw [hpart]
  by_cases hboot : flag = .boot ∧ state = true
  · simp only [if_pos hboot]
    refine ⟨trivial, by simp [hlt], fun j other hj hother => ?_⟩
    simp only [List.getElem?_mapIdx, List.getElem?_set_ne hj.symm, hj, if_false] at hother
    obtain ⟨was, hwas, rfl⟩ := Option.map_eq_some_iff.mp hother
    exact ⟨was, hwas, rfl, rfl, fun _ _ => rfl⟩
  · simp only [if_neg hboot]
    refine ⟨trivial, by simp [hlt], fun j other hj hother => ?_⟩
    rw [List.getElem?_set_ne hj.symm] at hother
    exact ⟨other, hother, rfl, rfl, fun hflag hstate => absurd ⟨hflag, hstate⟩ hboot⟩

/-- A call keeps the kinds of a disk exactly if it keeps the kind of its partition. -/
theorem kindsKept_setFlag_iff {disk : List DosFlagged} {i : ℕ} {part : DosFlagged}
    (hpart : disk[i]? = some part) (hkept : KindsKept disk) {flag : PedPartitionFlag}
    {state : Bool} (hkind : (msdosPartitionSetFlagOn part flag state).2.kind = part.kind) :
    KindsKept (msdosPartitionSetFlag disk i flag state).2 ↔
      KindKept part.kind (msdosPartitionSetFlagOn part flag state).2.data.system := by
  obtain ⟨-, hself, hothers⟩ := msdosPartitionSetFlag_spec hpart flag state
  constructor
  · intro h
    have := h _ (List.mem_of_getElem? hself)
    rwa [hkind] at this
  · intro h other hmem
    obtain ⟨j, hj⟩ := List.mem_iff_getElem?.mp hmem
    by_cases hji : j = i
    · subst hji
      obtain rfl := Option.some.inj (hself.symm.trans hj)
      rwa [hkind]
    · obtain ⟨was, hwas, hk, hs, -⟩ := hothers j other hji hj
      rw [hk, hs]
      exact hkept was (List.mem_of_getElem? hwas)

theorem kindsKept_setSystem {disk : List DosFlagged} (hkept : KindsKept disk) (i : ℕ)
    (fsType : Option String) : KindsKept (disk.modify i (msdosPartitionSetSystem · fsType)) := by
  intro part hmem
  obtain ⟨j, hj⟩ := List.mem_iff_getElem?.mp hmem
  rw [List.getElem?_modify] at hj
  obtain ⟨was, hwas, rfl⟩ := Option.map_eq_some_iff.mp hj
  have hbefore := hkept was (List.mem_of_getElem? hwas)
  split_ifs
  · rw [msdosPartitionSetSystem_kind]
    exact msdosPartitionSetSystem_kept was fsType hbefore
  · exact hbefore

/-- One call on an available flag of a disk. -/
theorem setFlag_fine_iff {disk : List DosFlagged} {i : ℕ} {part : DosFlagged}
    (hkept : KindsKept disk) (hpart : disk[i]? = some part) {flag : PedPartitionFlag}
    (havail : msdosPartitionIsFlagAvailable part flag = true) (state : Bool) :
    DosEffective disk i flag state ∧ KindsKept (msdosPartitionSetFlag disk i flag state).2 ↔
      DosHarmless part flag state := by
  have houtcome := setFlagOn_outcome (hkept part (List.mem_of_getElem? hpart)) havail state
  obtain ⟨hret, hself, -⟩ := msdosPartitionSetFlag_spec hpart flag state
  rw [← houtcome.fine_iff, kindsKept_setFlag_iff hpart hkept houtcome.kind]
  refine and_congr_left fun _ => ⟨fun h => h (hret.trans houtcome.returns) _ hself, ?_⟩
  rintro h - other hother
  obtain rfl := Option.some.inj (hself.symm.trans hother)
  exact h

/-- **Kinds along a run**: harmless calls keep them. -/
theorem kindsKept_run {disk disk' : List DosFlagged} (hkept : KindsKept disk)
    (hrun : ReflTransGen HarmlessStep disk disk') : KindsKept disk' := by
  induction hrun with
  | refl => exact hkept
  | tail _ hstep ih =>
      cases hstep with
      | setFlag i part flag state hpart havail hharmless =>
          exact ((setFlag_fine_iff ih hpart havail state).mpr hharmless).2
      | setSystem i fsType => exact kindsKept_setSystem ih i fsType

/-- After the boot flag is set, no other partition has it. -/
theorem onlyBoot_setFlag {disk : List DosFlagged} {i : ℕ} {part : DosFlagged}
    (hpart : disk[i]? = some part) {j : ℕ} {other : DosFlagged}
    (hother : (msdosPartitionSetFlag disk i .boot true).2[j]? = some other)
    (hboot : other.data.boot = true) : j = i := by
  by_contra hj
  obtain ⟨_, _, _, _, hclear⟩ :=
    (msdosPartitionSetFlag_spec hpart .boot true).2.2 j other hj hother
  simp [hclear rfl rfl] at hboot

/-! ## GPT: the type GUIDs -/

/-- An `efi_guid_t`, as the number that its sixteen bytes on disk are: the first three fields
are stored with their low byte first. -/
@[irreducible] def efiGuid (timeLow timeMid timeHiAndVersion clockSeqHiAndReserved clockSeqLow
    node₀ node₁ node₂ node₃ node₄ node₅ : ℕ) : BitVec 128 :=
  BitVec.ofNat 128 (timeLow + timeMid * 2 ^ 32 + timeHiAndVersion * 2 ^ 48 +
    clockSeqHiAndReserved * 2 ^ 64 + clockSeqLow * 2 ^ 72 + node₀ * 2 ^ 80 + node₁ * 2 ^ 88 +
    node₂ * 2 ^ 96 + node₃ * 2 ^ 104 + node₄ * 2 ^ 112 + node₅ * 2 ^ 120)

/-- `PARTITION_SYSTEM_GUID`. -/
def partitionSystemGuid : BitVec 128 :=
  efiGuid 0xC12A7328 0xF81F 0x11d2 0xBA 0x4B 0x00 0xA0 0xC9 0x3E 0xC9 0x3B

/-- `PARTITION_BIOS_GRUB_GUID`. -/
def partitionBiosGrubGuid : BitVec 128 :=
  efiGuid 0x21686148 0x6449 0x6E6f 0x74 0x4E 0x65 0x65 0x64 0x45 0x46 0x49

/-- `PARTITION_MSFT_RESERVED_GUID`. -/
def partitionMsftReservedGuid : BitVec 128 :=
  efiGuid 0xE3C9E316 0x0B5C 0x4DB8 0x81 0x7D 0xF9 0x2D 0xF0 0x02 0x15 0xAE

/-- `PARTITION_MSFT_RECOVERY`. -/
def partitionMsftRecoveryGuid : BitVec 128 :=
  efiGuid 0xDE94BBA4 0x06D1 0x4D40 0xA1 0x6A 0xBF 0xD5 0x01 0x79 0xD6 0xAC

/-- `PARTITION_BASIC_DATA_GUID`. -/
def partitionBasicDataGuid : BitVec 128 :=
  efiGuid 0xEBD0A0A2 0xB9E5 0x4433 0x87 0xC0 0x68 0xB6 0xB7 0x26 0x99 0xC7

/-- `PARTITION_RAID_GUID`. -/
def partitionRaidGuid : BitVec 128 :=
  efiGuid 0xa19d880f 0x05fc 0x4d3b 0xa0 0x06 0x74 0x3f 0x0f 0x84 0x91 0x1e

/-- `PARTITION_SWAP_GUID`. -/
def partitionSwapGuid : BitVec 128 :=
  efiGuid 0x0657fd6d 0xa4ab 0x43c4 0x84 0xe5 0x09 0x33 0xc8 0x4b 0x4f 0x4f

/-- `PARTITION_LINUX_DATA_GUID`. -/
def partitionLinuxDataGuid : BitVec 128 :=
  efiGuid 0x0FC63DAF 0x8483 0x4772 0x8E 0x79 0x3D 0x69 0xD8 0x47 0x7D 0xE4

/-- `PARTITION_LVM_GUID`. -/
def partitionLvmGuid : BitVec 128 :=
  efiGuid 0xe6d6d379 0xf507 0x44c2 0xa2 0x3c 0x23 0x8f 0x2a 0x3d 0xf9 0x28

/-- `PARTITION_HPSERVICE_GUID`. -/
def partitionHpserviceGuid : BitVec 128 :=
  efiGuid 0xe2a1e728 0x32e3 0x11d6 0xa6 0x82 0x7b 0x03 0xa0 0x00 0x00 0x00

/-- `PARTITION_APPLE_HFS_GUID`. -/
def partitionAppleHfsGuid : BitVec 128 :=
  efiGuid 0x48465300 0x0000 0x11AA 0xaa 0x11 0x00 0x30 0x65 0x43 0xEC 0xAC

/-- `PARTITION_APPLE_TV_RECOVERY_GUID`. -/
def partitionAppleTvRecoveryGuid : BitVec 128 :=
  efiGuid 0x5265636F 0x7665 0x11AA 0xaa 0x11 0x00 0x30 0x65 0x43 0xEC 0xAC

/-- `PARTITION_PREP_GUID`. -/
def partitionPrepGuid : BitVec 128 :=
  efiGuid 0x9e1a2d38 0xc612 0x4316 0xaa 0x26 0x8b 0x49 0x52 0x1e 0x5a 0x8b

/-- `PARTITION_IRST_GUID`. -/
def partitionIrstGuid : BitVec 128 :=
  efiGuid 0xD3BFE2DE 0x3DAF 0x11DF 0xba 0x40 0xE3 0xA5 0x56 0xD8 0x95 0x93

/-- `PARTITION_CHROMEOS_KERNEL_GUID`. -/
def partitionChromeosKernelGuid : BitVec 128 :=
  efiGuid 0xfe3a2a5d 0x4f32 0x41a7 0xb7 0x25 0xac 0xcc 0x32 0x85 0xa3 0x09

/-- `PARTITION_BLS_BOOT_GUID`. -/
def partitionBlsBootGuid : BitVec 128 :=
  efiGuid 0xbc13c2ff 0x59e6 0x4262 0xa3 0x52 0xb2 0x75 0xfd 0x6f 0x71 0x72

/-- `PARTITION_LINUX_HOME_GUID`. -/
def partitionLinuxHomeGuid : BitVec 128 :=
  efiGuid 0x933ac7e1 0x2eb4 0x4f13 0xb8 0x44 0x0e 0x14 0xe2 0xae 0xf9 0x15

/-- `flag_uuid_mapping`. -/
def flagUuidMapping : List (PedPartitionFlag × BitVec 128) :=
  [(.appleTvRecovery, partitionAppleTvRecoveryGuid), (.biosGrub, partitionBiosGrubGuid),
    (.blsBoot, partitionBlsBootGuid), (.boot, partitionSystemGuid),
    (.chromeosKernel, partitionChromeosKernelGuid), (.diag, partitionMsftRecoveryGuid),
    (.esp, partitionSystemGuid), (.hpservice, partitionHpserviceGuid),
    (.irst, partitionIrstGuid), (.linuxHome, partitionLinuxHomeGuid), (.lvm, partitionLvmGuid),
    (.msftData, partitionBasicDataGuid), (.msftReserved, partitionMsftReservedGuid),
    (.prep, partitionPrepGuid), (.raid, partitionRaidGuid), (.swap, partitionSwapGuid)]

/-- `skip_set_system_guids`. -/
def skipSetSystemGuids : List (BitVec 128) :=
  [partitionLvmGuid, partitionSwapGuid, partitionRaidGuid, partitionPrepGuid,
    partitionSystemGuid, partitionBiosGrubGuid, partitionHpserviceGuid,
    partitionMsftReservedGuid, partitionBasicDataGuid, partitionMsftRecoveryGuid,
    partitionAppleTvRecoveryGuid, partitionIrstGuid, partitionChromeosKernelGuid,
    partitionBlsBootGuid]

/-- `gpt_find_flag_uuid_mapping`: the GUID of the flag. -/
def gptFindFlagUuidMapping (flag : PedPartitionFlag) : Option (BitVec 128) :=
  (flagUuidMapping.find? fun p => p.1 = flag).map Prod.snd

/-- `is_skip_guid`. -/
def isSkipGuid (guid : BitVec 128) : Bool := skipSetSystemGuids.contains guid

/-! ## GPT: the functions of the label -/

abbrev GptFlagged : Type := FlaggedPartition GPTPartitionData

/-- Changes `gpt_part_data->type`. -/
def FlaggedPartition.setTypeGuid (part : GptFlagged) (guid : BitVec 128) : GptFlagged :=
  { part with data := { part.data with type := guid } }

/-- Changes one bit field of `gpt_part_data->attributes`. -/
def FlaggedPartition.setAttribute (part : GptFlagged) (k : ℕ) (state : Bool) : GptFlagged :=
  { part with data := { part.data with attributes :=
    if state then part.data.attributes ||| BitVec.twoPow 64 k
    else part.data.attributes &&& ~~~BitVec.twoPow 64 k } }

/-- The file systems whose partitions hold basic data. -/
def isBasicDataName (name : String) : Bool :=
  startsWith "fat" name || name = "udf" || name = "ntfs"

/-- The type that `gpt_partition_set_system` gives to a partition with the file system. -/
def gptDefaultType : Option String → BitVec 128
  | none => partitionLinuxDataGuid
  | some name =>
      if isBasicDataName name then partitionBasicDataGuid
      else if startsWith "hfs" name then partitionAppleHfsGuid
      else if hasSubstring "swap" name then partitionSwapGuid
      else partitionLinuxDataGuid

/-- `gpt_partition_set_system`, which always returns 1. -/
def gptPartitionSetSystem (part : GptFlagged) (fsType : Option String) : GptFlagged :=
  let part := { part with fsType := fsType }
  if isSkipGuid part.data.type then part else part.setTypeGuid (gptDefaultType fsType)

/-- The flags with a bit of their own: `RequiredToFunction`, `LegacyBIOSBootable` and
`NoAutomount`. -/
def attributeBit : PedPartitionFlag → Option ℕ
  | .hidden => some 0
  | .legacyBoot => some 2
  | .noAutomount => some 63
  | _ => none

/-- `gpt_partition_set_flag`. -/
def gptPartitionSetFlag (part : GptFlagged) (flag : PedPartitionFlag) (state : Bool) :
    Bool × GptFlagged :=
  match gptFindFlagUuidMapping flag with
  | some guid =>
      if state then (true, part.setTypeGuid guid)
      else if part.data.type = guid then
        (true, gptPartitionSetSystem (part.setTypeGuid partitionLinuxDataGuid) part.fsType)
      else (true, part)
  | none =>
      match attributeBit flag with
      | some k => (true, part.setAttribute k state)
      | none => (false, part)

/-- `gpt_partition_get_flag`. -/
def gptPartitionGetFlag (part : GptFlagged) (flag : PedPartitionFlag) : Bool :=
  match gptFindFlagUuidMapping flag with
  | some guid => part.data.type = guid
  | none =>
      match attributeBit flag with
      | some k => part.data.attributes.getLsbD k
      | none => false

/-- `gpt_partition_is_flag_available`. -/
def gptPartitionIsFlagAvailable (flag : PedPartitionFlag) : Bool :=
  match gptFindFlagUuidMapping flag with
  | some _ => true
  | none => (attributeBit flag).isSome

/-! ## GPT: which changes take effect -/

/-- The changes that take effect: a flag is not cleared on a partition whose file system has
the type of the flag as its default. -/
structure GptHarmless (part : GptFlagged) (flag : PedPartitionFlag) (state : Bool) : Prop where
  basicData : flag = .msftData → state = false → part.data.type = partitionBasicDataGuid →
    ∀ name, part.fsType = some name → isBasicDataName name = false
  swap : flag = .swap → state = false → part.data.type = partitionSwapGuid →
    ∀ name, part.fsType = some name → hasSubstring "swap" name = true →
      isBasicDataName name = true ∨ startsWith "hfs" name = true

/-- The flag has the value it was set to. -/
def GptEffective (part : GptFlagged) (flag : PedPartitionFlag) (state : Bool) : Prop :=
  (gptPartitionSetFlag part flag state).1 = true →
    gptPartitionGetFlag (gptPartitionSetFlag part flag state).2 flag = state

theorem gptDefaultType_basicData (fsType : Option String) :
    gptDefaultType fsType = partitionBasicDataGuid ↔
      ∃ name, fsType = some name ∧ isBasicDataName name = true := by
  cases fsType with
  | none => simpa [gptDefaultType] using (by decide +kernel : partitionLinuxDataGuid ≠ partitionBasicDataGuid)
  | some name =>
      by_cases hname : isBasicDataName name = true
      · simp [gptDefaultType, hname]
      · have hne : gptDefaultType (some name) ≠ partitionBasicDataGuid := by
          simp only [gptDefaultType, if_neg hname]
          split_ifs <;> decide +kernel
        simpa using iff_of_false hne hname

theorem gptDefaultType_swap (fsType : Option String) :
    gptDefaultType fsType = partitionSwapGuid ↔
      ∃ name, fsType = some name ∧ hasSubstring "swap" name = true ∧
        isBasicDataName name = false ∧ startsWith "hfs" name = false := by
  have hother : partitionLinuxDataGuid ≠ partitionSwapGuid ∧
      partitionBasicDataGuid ≠ partitionSwapGuid ∧ partitionAppleHfsGuid ≠ partitionSwapGuid := by
    decide +kernel
  cases fsType with
  | none => simpa [gptDefaultType] using hother.1
  | some name =>
      simp only [gptDefaultType, Option.some.injEq, exists_eq_left']
      split_ifs with hbasic hhfs hswap
      · simpa [hbasic] using hother.2.1
      · simpa [hhfs] using hother.2.2
      · simp_all
      · simpa [hswap] using hother.1

/-- The four default types, and the flags they carry. -/
theorem flagUuidMapping_defaults {flag : PedPartitionFlag} {guid : BitVec 128}
    (hguid : gptFindFlagUuidMapping flag = some guid) :
    partitionLinuxDataGuid ≠ guid ∧ partitionAppleHfsGuid ≠ guid ∧
      (partitionBasicDataGuid = guid ↔ flag = .msftData) ∧
      (partitionSwapGuid = guid ↔ flag = .swap) := by
  have hlinux : ∀ p ∈ flagUuidMapping, partitionLinuxDataGuid ≠ p.2 := by decide +kernel
  have hhfs : ∀ p ∈ flagUuidMapping, partitionAppleHfsGuid ≠ p.2 := by decide +kernel
  have hbasic : ∀ p ∈ flagUuidMapping, partitionBasicDataGuid = p.2 ↔ p.1 = .msftData := by
    decide +kernel
  have hswap : ∀ p ∈ flagUuidMapping, partitionSwapGuid = p.2 ↔ p.1 = .swap := by
    decide +kernel
  obtain ⟨p, hfind, rfl⟩ := Option.map_eq_some_iff.mp hguid
  have hmem := List.mem_of_find?_eq_some hfind
  have hflag : p.1 = flag := by simpa using List.find?_some hfind
  exact hflag ▸ ⟨hlinux p hmem, hhfs p hmem, hbasic p hmem, hswap p hmem⟩

/-- A default type that carries a flag is the one of basic data or of swap. -/
theorem gptDefaultType_mapped {flag : PedPartitionFlag} {guid : BitVec 128}
    (hguid : gptFindFlagUuidMapping flag = some guid) (fsType : Option String) :
    gptDefaultType fsType = guid ↔
      (flag = .msftData ∧ gptDefaultType fsType = partitionBasicDataGuid) ∨
      (flag = .swap ∧ gptDefaultType fsType = partitionSwapGuid) := by
  obtain ⟨hlinux, hhfs, hbasic, hswap⟩ := flagUuidMapping_defaults hguid
  constructor
  · intro hdefault
    rw [hdefault, eq_comm (a := guid), hbasic, eq_comm (a := guid), hswap]
    unfold gptDefaultType at hdefault
    split at hdefault
    · exact absurd hdefault hlinux
    · split_ifs at hdefault
      · exact .inl ⟨hbasic.mp hdefault, hbasic.mp hdefault⟩
      · exact absurd hdefault hhfs
      · exact .inr ⟨hswap.mp hdefault, hswap.mp hdefault⟩
      · exact absurd hdefault hlinux
  · rintro (⟨hflag, hdefault⟩ | ⟨hflag, hdefault⟩)
    · exact hdefault.trans (hbasic.mpr hflag)
    · exact hdefault.trans (hswap.mpr hflag)

/-- The GUID of a flag, when it is one of the two that a file system can bring. -/
theorem gptFindFlagUuidMapping_basicData :
    gptFindFlagUuidMapping .msftData = some partitionBasicDataGuid := by decide +kernel

theorem gptFindFlagUuidMapping_swap :
    gptFindFlagUuidMapping .swap = some partitionSwapGuid := by decide +kernel

theorem setTypeGuid_linux_system (part : GptFlagged) :
    (gptPartitionSetSystem (part.setTypeGuid partitionLinuxDataGuid) part.fsType).data.type =
      gptDefaultType part.fsType := by
  have hskip : isSkipGuid partitionLinuxDataGuid = false := by decide +kernel
  simp [gptPartitionSetSystem, FlaggedPartition.setTypeGuid, hskip]

/-- Clearing a flag fails to clear it exactly if the default type of the file system carries
it. -/
theorem gptHarmless_iff {part : GptFlagged} {flag : PedPartitionFlag} {guid : BitVec 128}
    (hguid : gptFindFlagUuidMapping flag = some guid) (htype : part.data.type = guid) :
    GptHarmless part flag false ↔ gptDefaultType part.fsType ≠ guid := by
  rw [Ne, gptDefaultType_mapped hguid, gptDefaultType_basicData, gptDefaultType_swap]
  constructor
  · rintro h (⟨rfl, name, hname, hbasic⟩ | ⟨rfl, name, hname, hswap, hbasic, hhfs⟩)
    · obtain rfl := Option.some.inj (gptFindFlagUuidMapping_basicData.symm.trans hguid)
      simp [h.basicData rfl rfl htype name hname] at hbasic
    · obtain rfl := Option.some.inj (gptFindFlagUuidMapping_swap.symm.trans hguid)
      simpa [hbasic, hhfs] using h.swap rfl rfl htype name hname hswap
  · intro h
    refine ⟨fun hflag _ _ name hname => ?_, fun hflag _ _ name hname hswap => ?_⟩
    · by_contra hbasic
      exact h (.inl ⟨hflag, name, hname, by simpa using hbasic⟩)
    · by_contra hother
      simp only [not_or, Bool.not_eq_true] at hother
      exact h (.inr ⟨hflag, name, hname, hswap, hother.1, hother.2⟩)

theorem getLsbD_setAttribute (part : GptFlagged) (k j : ℕ) (hk : k < 64) (state : Bool) :
    (part.setAttribute k state).data.attributes.getLsbD j =
      if j = k then state else part.data.attributes.getLsbD j := by
  unfold FlaggedPartition.setAttribute
  by_cases hj : j = k
  · subst hj
    cases state <;> simp [hk]
  · cases state
    · by_cases hj64 : j < 64
      · simp [hj, hj64]
      · simp [hj, BitVec.getLsbD_of_ge _ _ (Nat.le_of_not_lt hj64)]
    · simp [hj, Ne.symm hj]

/-- **GPT flags**: a change takes effect exactly if it is harmless. -/
theorem gptEffective_iff {part : GptFlagged} {flag : PedPartitionFlag}
    (havail : gptPartitionIsFlagAvailable flag = true) (state : Bool) :
    GptEffective part flag state ↔ GptHarmless part flag state := by
  unfold GptEffective gptPartitionSetFlag gptPartitionGetFlag
  unfold gptPartitionIsFlagAvailable at havail
  cases hguid : gptFindFlagUuidMapping flag with
  | some guid =>
      cases state with
      | true =>
          refine iff_of_true (fun _ => ?_) ⟨by simp, by simp⟩
          simp [FlaggedPartition.setTypeGuid]
      | false =>
          by_cases htype : part.data.type = guid
          · rw [gptHarmless_iff hguid htype, ← setTypeGuid_linux_system]
            simp [htype]
          · refine iff_of_true (fun _ => by simp [htype]) ⟨?_, ?_⟩
            · rintro rfl _ hbasic
              exact absurd (hbasic.trans (Option.some.inj
                (gptFindFlagUuidMapping_basicData.symm.trans hguid))) htype
            · rintro rfl _ hswap
              exact absurd (hswap.trans (Option.some.inj
                (gptFindFlagUuidMapping_swap.symm.trans hguid))) htype
  | none =>
      simp only [hguid] at havail
      obtain ⟨k, hk⟩ := Option.isSome_iff_exists.mp havail
      have hk64 : k < 64 := by
        cases flag <;> simp [attributeBit] at hk <;> omega
      refine iff_of_true (fun _ => ?_) ⟨?_, ?_⟩
      · simp [hk, getLsbD_setAttribute _ _ _ hk64]
      · rintro rfl
        simp [gptFindFlagUuidMapping_basicData] at hguid
      · rintro rfl
        simp [gptFindFlagUuidMapping_swap] at hguid

/-- A flag with a bit of its own changes this bit alone. -/
theorem gptPartitionSetFlag_attribute (part : GptFlagged) {flag : PedPartitionFlag}
    (hflag : (attributeBit flag).isSome) (state : Bool) :
    (gptPartitionSetFlag part flag state).2.data.type = part.data.type ∧
    ∀ other, (attributeBit other).isSome → other ≠ flag →
      gptPartitionGetFlag (gptPartitionSetFlag part flag state).2 other =
        gptPartitionGetFlag part other := by
  have hnone : ∀ flag, (attributeBit flag).isSome → gptFindFlagUuidMapping flag = none := by
    intro flag h
    cases flag <;> first | rfl | simp [attributeBit] at h
  have hbits : ∀ f g, (attributeBit f).isSome → f ≠ g → attributeBit f ≠ attributeBit g := by
    intro f g h
    cases f <;> first | (simp [attributeBit] at h; done) | (cases g <;> simp [attributeBit])
  obtain ⟨k, hk⟩ := Option.isSome_iff_exists.mp hflag
  have hk64 : k < 64 := by
    cases flag <;> simp [attributeBit] at hk <;> omega
  have hset : gptPartitionSetFlag part flag state = (true, part.setAttribute k state) := by
    simp [gptPartitionSetFlag, hnone flag hflag, hk]
  rw [hset]
  refine ⟨rfl, fun other hother hne => ?_⟩
  obtain ⟨j, hj⟩ := Option.isSome_iff_exists.mp hother
  have hjk : j ≠ k := by
    rintro rfl
    exact hbits other flag hother hne (hj.trans hk.symm)
  simp [gptPartitionGetFlag, hnone other hother, hj, getLsbD_setAttribute _ _ _ hk64, hjk]

/-! ## Flag changes on both labels -/

/-- **Flag changes.**  On an MS-DOS disk the kinds are kept by every run of harmless calls, and
in each state of such a run a change of an available flag takes effect and keeps the kinds
exactly if it is harmless; setting a file system always keeps them, and setting the boot flag
clears every other.  On a GPT a change takes effect exactly if it is harmless, and the three
flags of the attributes change neither the type nor each other. -/
theorem flagChanges_iff (disk₀ disk : List DosFlagged) (part : GptFlagged) :
    (KindsKept disk₀ → ReflTransGen HarmlessStep disk₀ disk →
      KindsKept disk ∧
      (∀ i fsType, KindsKept (disk.modify i (msdosPartitionSetSystem · fsType))) ∧
      ∀ i part flag state, disk[i]? = some part →
        msdosPartitionIsFlagAvailable part flag = true →
        (DosEffective disk i flag state ∧
            KindsKept (msdosPartitionSetFlag disk i flag state).2 ↔
          DosHarmless part flag state) ∧
        (flag = .boot → state = true → ∀ j other,
          (msdosPartitionSetFlag disk i flag state).2[j]? = some other →
            other.data.boot = true → j = i)) ∧
    ∀ flag state, gptPartitionIsFlagAvailable flag = true →
      (GptEffective part flag state ↔ GptHarmless part flag state) ∧
      (flag ∈ [.hidden, .legacyBoot, .noAutomount] →
        (gptPartitionSetFlag part flag state).2.data.type = part.data.type ∧
        ∀ other ∈ [PedPartitionFlag.hidden, .legacyBoot, .noAutomount], other ≠ flag →
          gptPartitionGetFlag (gptPartitionSetFlag part flag state).2 other =
            gptPartitionGetFlag part other) := by
  have hbits : ∀ flag ∈ [PedPartitionFlag.hidden, .legacyBoot, .noAutomount],
      (attributeBit flag).isSome := by decide
  constructor
  · intro hkept₀ hrun
    have hkept := kindsKept_run hkept₀ hrun
    refine ⟨hkept, kindsKept_setSystem hkept, fun i part flag state hpart havail => ?_⟩
    refine ⟨setFlag_fine_iff hkept hpart havail state, ?_⟩
    rintro rfl rfl j other hother hboot
    exact onlyBoot_setFlag hpart hother hboot
  · intro flag state havail
    refine ⟨gptEffective_iff havail state, fun hflag => ?_⟩
    obtain ⟨htype, hothers⟩ := gptPartitionSetFlag_attribute part (hbits flag hflag) state
    exact ⟨htype, fun other hother => hothers other (hbits other hother)⟩

/-- Three partitions: an extended one of type `0x05`, a hidden FAT32 and a swap partition. -/
def sampleFlagged : List DosFlagged :=
  [⟨.extended, none, ⟨0x05, false, none⟩⟩, ⟨.normal, some "fat32", ⟨0x1b, true, none⟩⟩,
    ⟨.normal, some "linux-swap(v1)", ⟨0x82, false, none⟩⟩]

theorem kindsKept_sampleFlagged : KindsKept sampleFlagged := by
  unfold KindsKept sampleFlagged
  decide

/-- A partition of basic data with an NTFS file system. -/
def sampleBasicData : GptFlagged :=
  ⟨.normal, some "ntfs", ⟨partitionBasicDataGuid, 0, Vector.replicate 36 0, 0⟩⟩

/-- On the sample disk the boot flag moves to the swap partition, and the kinds stay. -/
theorem flagChanges_sample :
    KindsKept (msdosPartitionSetFlag sampleFlagged 2 .boot true).2 := by
  have hsample := ((flagChanges_iff sampleFlagged sampleFlagged sampleBasicData).1
    kindsKept_sampleFlagged .refl).2.2 2 ⟨.normal, some "linux-swap(v1)", ⟨0x82, false, none⟩⟩ .boot true rfl (by decide)
  exact (hsample.1.mpr (dosHarmless_other (by decide) (by decide) (.inl (by decide)))).2

/-- Hiding the extended partition loses its kind; the LBA flag of a hidden type and the swap
flag of a swap file system cannot be changed, though the calls return 1; nor can the flag of
basic data be cleared on an NTFS partition of a GPT. -/
theorem flagChanges_lost :
    (msdosPartitionSetFlag sampleFlagged 0 .hidden true).1 = true ∧
    ¬ KindsKept (msdosPartitionSetFlag sampleFlagged 0 .hidden true).2 ∧
    ¬ DosEffective sampleFlagged 1 .lba true ∧ ¬ DosEffective sampleFlagged 2 .swap false ∧
    ¬ GptEffective sampleBasicData .msftData false := by
  refine ⟨by decide +kernel, ?_, fun h => ?_, fun h => ?_, fun h => ?_⟩
  · unfold KindsKept
    decide +kernel
  · have := h (by decide +kernel) ⟨.normal, some "fat32", ⟨0x1b, true, none⟩⟩ (by decide +kernel)
    revert this
    decide +kernel
  · have := h (by decide +kernel) ⟨.normal, some "linux-swap(v1)", ⟨0x82, false, none⟩⟩
      (by decide +kernel)
    revert this
    decide +kernel
  · have := h (by decide +kernel)
    revert this
    decide +kernel

end Libparted
