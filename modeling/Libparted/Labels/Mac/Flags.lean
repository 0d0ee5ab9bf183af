import Libparted.Labels.Flags
import Libparted.Labels.Mac.Entry

/-!
# Flags of a Mac partition (`libparted/labels/mac.c`)

Five flags of a partition are read off its two names: `boot`, `lvm` and `raid` off the type,
`root` and `swap` off the name of a partition of type `Apple_UNIX_SVR2`.  In memory each of
them is a variable of its own, and the functions that set a flag or the file system change
some of the variables and some of the names.

The type has room for one thing only.  A partition is of the *kind* its type says, and the
variables *agree* with the names if they say the same.  `Harmless` is the exact condition on
a call for the variables to agree after it, if they agreed before it.  It is violated in a
number of ways.  Setting `lvm` on a boot partition replaces the type, but `is_boot` stays;
clearing it replaces the type, and `is_lvm` stays, so that the flag is still set for
`mac_partition_get_flag`; `root` is set on a partition of any type; `boot` is cleared on a
partition without a file system, whose type stays.
-/

namespace Libparted.Mac

open Library

/-! ## The functions -/

/-- A partition with its data. -/
abbrev MacFlagged : Type := FlaggedPartition MacPartitionData

def untitled : Name := ⟨text "untitled", by decide +kernel, by decide +kernel⟩

def rootName : Name := ⟨text "root", by decide +kernel, by decide +kernel⟩

def swapName : Name := ⟨text "swap", by decide +kernel, by decide +kernel⟩

def appleBootstrap : Name := ⟨text "Apple_Bootstrap", by decide +kernel, by decide +kernel⟩

def appleHfs : Name := ⟨text "Apple_HFS", by decide +kernel, by decide +kernel⟩

def appleHfsx : Name := ⟨text "Apple_HFSX", by decide +kernel, by decide +kernel⟩

def appleUnixSvr2 : Name := ⟨text "Apple_UNIX_SVR2", by decide +kernel, by decide +kernel⟩

def linuxLvm : Name := ⟨text "Linux_LVM", by decide +kernel, by decide +kernel⟩

def linuxRaid : Name := ⟨text "Linux_RAID", by decide +kernel, by decide +kernel⟩

/-- The case `PED_PARTITION_ROOT` of `mac_partition_set_flag`. -/
def setRoot (macData : MacPartitionData) (state : Bool) : MacPartitionData :=
  if state then { macData with volumeName := rootName, isSwap := false, isRoot := state }
  else if macData.isRoot then { macData with volumeName := untitled, isRoot := state }
  else { macData with isRoot := state }

/-- The case `PED_PARTITION_SWAP` of `mac_partition_set_flag`. -/
def setSwap (macData : MacPartitionData) (state : Bool) : MacPartitionData :=
  if state then { macData with volumeName := swapName, isRoot := false, isSwap := state }
  else if macData.isSwap then { macData with volumeName := untitled, isSwap := state }
  else { macData with isSwap := state }

/-- `fs_type && is_linux_swap (fs_type->name)`. -/
def swapFs (fsType : Option String) : Bool := fsType.any isLinuxSwap

/-- `mac_partition_set_system`. -/
def macPartitionSetSystem (part : MacFlagged) (fsType : Option String) : MacFlagged :=
  let macData := if swapFs fsType then setSwap part.data true else part.data
  let macData :=
    if macData.isBoot then { macData with systemName := appleBootstrap, status := 0x33 }
    else if fsType = some "hfs" ∨ fsType = some "hfs+" then
      { macData with systemName := appleHfs, status := macData.status ||| 0x7f }
    else if fsType = some "hfsx" then
      { macData with systemName := appleHfsx, status := macData.status ||| 0x7f }
    else { macData with systemName := appleUnixSvr2, status := 0x33 }
  { part with fsType := fsType, data := macData }

/-- `mac_partition_set_flag`: what it returns, and the partition after it. -/
def macPartitionSetFlag (part : MacFlagged) (flag : PedPartitionFlag) (state : Bool) :
    Bool × MacFlagged :=
  let macData := part.data
  match flag with
  | .boot =>
      let part := { part with data := { macData with isBoot := state } }
      if part.fsType.isSome then (true, macPartitionSetSystem part part.fsType)
      else if state then
        (true, { part with
          data := { part.data with systemName := appleBootstrap, status := 0x33 } })
      else (true, part)
  | .root => (true, { part with data := setRoot macData state })
  | .swap => (true, { part with data := setSwap macData state })
  | .lvm =>
      if state then
        (true, { part with data := { macData with systemName := linuxLvm, isLvm := state } })
      else if macData.isLvm then (true, macPartitionSetSystem part part.fsType)
      else (true, part)
  | .raid =>
      if state then
        (true, { part with data := { macData with systemName := linuxRaid, isRaid := state } })
      else if macData.isRaid then (true, macPartitionSetSystem part part.fsType)
      else (true, part)
  | _ => (false, part)

/-- `mac_partition_get_flag`. -/
def macPartitionGetFlag (part : MacFlagged) (flag : PedPartitionFlag) : Bool :=
  match flag with
  | .boot => part.data.isBoot
  | .root => part.data.isRoot
  | .swap => part.data.isSwap
  | .lvm => part.data.isLvm
  | .raid => part.data.isRaid
  | _ => false

/-- A call of one of the two functions. -/
inductive MacCall where
  | setFlag (flag : PedPartitionFlag) (state : Bool)
  | setSystem (fsType : Option String)
deriving DecidableEq

/-- What a call returns, and the partition after it. -/
def MacCall.result (part : MacFlagged) : MacCall → Bool × MacFlagged
  | .setFlag flag state => macPartitionSetFlag part flag state
  | .setSystem fsType => (true, macPartitionSetSystem part fsType)

/-! ## Kinds -/

/-- What a type says. -/
inductive SystemKind where
  | bootstrap
  | unix
  | lvm
  | raid
  | other
deriving DecidableEq

/-- What a name says. -/
inductive VolumeKind where
  | root
  | swap
  | other
deriving DecidableEq

/-- The name is the text, but for the case of its letters. -/
def Name.like (name : Name) (s : String) : Bool :=
  name.bytes.map toLower == (text s).map toLower

def Name.systemKind (name : Name) : SystemKind :=
  if name.like "Apple_Bootstrap" || name.like "Apple_Boot" then .bootstrap
  else if name.like "Apple_UNIX_SVR2" then .unix
  else if name = linuxLvm then .lvm
  else if name = linuxRaid then .raid
  else .other

def Name.volumeKind (name : Name) : VolumeKind :=
  if name = rootName then .root else if name = swapName then .swap else .other

theorem Name.ext_bytes {a b : Name} : a = b ↔ a.bytes = b.bytes := by
  cases a
  cases b
  simp

section Kinds

variable (name : Name)

theorem systemKind_bootstrap_iff : name.systemKind = .bootstrap ↔
    (name.like "Apple_Bootstrap" || name.like "Apple_Boot") = true := by
  unfold Name.systemKind
  split_ifs <;> simp_all

theorem systemKind_unix_iff : name.systemKind = .unix ↔ name.like "Apple_UNIX_SVR2" = true := by
  constructor
  · unfold Name.systemKind
    split_ifs <;> simp_all
  · intro h
    -- the types of boot partitions are other texts
    have hboot : (name.like "Apple_Bootstrap" || name.like "Apple_Boot") = false := by
      rw [Name.like, beq_iff_eq] at h
      rw [Name.like, Name.like, h]
      decide +kernel
    rw [Name.systemKind, hboot, if_neg Bool.false_ne_true, if_pos h]

theorem systemKind_lvm_iff : name.systemKind = .lvm ↔ name = linuxLvm := by
  constructor
  · unfold Name.systemKind
    split_ifs <;> simp_all
  · rintro rfl
    decide +kernel

theorem systemKind_raid_iff : name.systemKind = .raid ↔ name = linuxRaid := by
  constructor
  · unfold Name.systemKind
    split_ifs <;> simp_all
  · rintro rfl
    decide +kernel

theorem volumeKind_root_iff : name.volumeKind = .root ↔ name = rootName := by
  unfold Name.volumeKind
  split_ifs <;> simp_all

theorem volumeKind_swap_iff : name.volumeKind = .swap ↔ name = swapName := by
  constructor
  · unfold Name.volumeKind
    split_ifs <;> simp_all
  · rintro rfl
    decide +kernel

end Kinds

/-- The kinds of the names. -/
@[simp] theorem kinds_of_names :
    (appleBootstrap.systemKind = .bootstrap ∧ appleHfs.systemKind = .other ∧
      appleHfsx.systemKind = .other ∧ appleUnixSvr2.systemKind = .unix ∧
      linuxLvm.systemKind = .lvm ∧ linuxRaid.systemKind = .raid) ∧
    untitled.volumeKind = .other ∧ rootName.volumeKind = .root ∧
      swapName.volumeKind = .swap := by
  decide +kernel

/-! ## Agreement -/

/-- The flags are what the reader makes of the entry of the partition. -/
structure FlagsAgree (lastPartEntryNum : ℤ) (geom : PedGeometry) (part : MacFlagged) : Prop where
  boot : part.data.isBoot = rawpartIsBoot (generateRawPart lastPartEntryNum geom part.data).1
  root : part.data.isRoot = rawpartIsRoot (generateRawPart lastPartEntryNum geom part.data).1
  swap : part.data.isSwap = rawpartIsSwap (generateRawPart lastPartEntryNum geom part.data).1
  lvm : part.data.isLvm = rawpartIsLvm (generateRawPart lastPartEntryNum geom part.data).1
  raid : part.data.isRaid = rawpartIsRaid (generateRawPart lastPartEntryNum geom part.data).1

/-- The flags are what the kinds of the names say. -/
def Says (data : MacPartitionData) : Prop :=
  data.isBoot = decide (data.systemName.systemKind = .bootstrap) ∧
  data.isRoot = decide (data.systemName.systemKind = .unix ∧ data.volumeName.volumeKind = .root) ∧
  data.isSwap = decide (data.systemName.systemKind = .unix ∧ data.volumeName.volumeKind = .swap) ∧
  data.isLvm = decide (data.systemName.systemKind = .lvm) ∧
  data.isRaid = decide (data.systemName.systemKind = .raid)

theorem strcmpEq_field_iff {s : String} {name : Name} (other : Name) (hbytes : other.bytes = text s)
    (hs : (text s).length < 31) : strcmpEq name.field s = decide (name = other) := by
  rw [name.strcmpEq_field hs, ← hbytes, Bool.eq_iff_iff, beq_iff_eq, decide_eq_true_eq,
    Name.ext_bytes]

theorem flagsAgree_iff {n : ℤ} {geom : PedGeometry} {part : MacFlagged} :
    FlagsAgree n geom part ↔ Says part.data := by
  have hboot : rawpartIsBoot (generateRawPart n geom part.data).1
      = decide (part.data.systemName.systemKind = .bootstrap) := by
    rw [rawpartIsBoot, generateRawPart_type, Name.strcasecmpEq_field _ (by decide +kernel),
      Name.strcasecmpEq_field _ (by decide +kernel)]
    exact (Bool.decide_congr (systemKind_bootstrap_iff _)).trans Bool.decide_eq_true |>.symm
  have hunix : rawpartCmpType (generateRawPart n geom part.data).1 "Apple_UNIX_SVR2"
      = decide (part.data.systemName.systemKind = .unix) := by
    rw [rawpartCmpType, generateRawPart_type, Name.strncasecmpEq_field _ (by decide +kernel)]
    exact (Bool.decide_congr (systemKind_unix_iff _)).trans Bool.decide_eq_true |>.symm
  have hroot : rawpartIsRoot (generateRawPart n geom part.data).1
      = decide (part.data.systemName.systemKind = .unix ∧
          part.data.volumeName.volumeKind = .root) := by
    rw [rawpartIsRoot, hunix, generateRawPart_name,
      strcmpEq_field_iff rootName rfl (by decide +kernel), Bool.decide_and]
    simp only [volumeKind_root_iff]
  have hswap : rawpartIsSwap (generateRawPart n geom part.data).1
      = decide (part.data.systemName.systemKind = .unix ∧
          part.data.volumeName.volumeKind = .swap) := by
    rw [rawpartIsSwap, hunix, generateRawPart_name,
      strcmpEq_field_iff swapName rfl (by decide +kernel), Bool.decide_and]
    simp only [volumeKind_swap_iff]
  have hlvm : rawpartIsLvm (generateRawPart n geom part.data).1
      = decide (part.data.systemName.systemKind = .lvm) := by
    rw [rawpartIsLvm, generateRawPart_type, strcmpEq_field_iff linuxLvm rfl (by decide +kernel)]
    simp only [systemKind_lvm_iff]
  have hraid : rawpartIsRaid (generateRawPart n geom part.data).1
      = decide (part.data.systemName.systemKind = .raid) := by
    rw [rawpartIsRaid, generateRawPart_type, strcmpEq_field_iff linuxRaid rfl (by decide +kernel)]
    simp only [systemKind_raid_iff]
  unfold Says
  rw [← hboot, ← hroot, ← hswap, ← hlvm, ← hraid]
  exact ⟨fun h => ⟨h.boot, h.root, h.swap, h.lvm, h.raid⟩,
    fun ⟨hb, hr, hs, hl, hd⟩ => ⟨hb, hr, hs, hl, hd⟩⟩

/-! ## Harmless calls -/

/-- `fs_type` is a file system for which the type is not `Apple_UNIX_SVR2`. -/
def hfsFs (fsType : Option String) : Bool :=
  fsType = some "hfs" || fsType = some "hfs+" || fsType = some "hfsx"

/-- The file system of a partition with these data may be set.  The boot flag leaves no room
for swap, LVM and RAID are forgotten, HFS is neither root nor swap, and a type that becomes
`Apple_UNIX_SVR2` makes the name count. -/
def SystemHarmless (data : MacPartitionData) (fsType : Option String) : Prop :=
  if data.isBoot then
    swapFs fsType = false ∧ data.isRoot = false ∧ data.isSwap = false ∧ data.isLvm = false ∧
      data.isRaid = false
  else data.isLvm = false ∧ data.isRaid = false ∧
    if hfsFs fsType then data.isRoot = false ∧ data.isSwap = false
    else swapFs fsType = true ∨
      (data.isRoot = decide (data.volumeName = rootName) ∧
        data.isSwap = decide (data.volumeName = swapName))

/-- A call after which the flags agree again. -/
def Harmless (part : MacFlagged) : MacCall → Prop
  | .setSystem fsType => SystemHarmless part.data fsType
  | .setFlag .boot state =>
      if part.fsType.isSome then SystemHarmless { part.data with isBoot := state } part.fsType
      else if state then part.data.isRoot = false ∧ part.data.isSwap = false ∧
        part.data.isLvm = false ∧ part.data.isRaid = false
      else part.data.isBoot = false
  | .setFlag .root state => state = true → part.data.systemName.like "Apple_UNIX_SVR2" = true
  | .setFlag .swap state => state = true → part.data.systemName.like "Apple_UNIX_SVR2" = true
  | .setFlag .lvm state =>
      if state then part.data.isBoot = false ∧ part.data.isRoot = false ∧
        part.data.isSwap = false ∧ part.data.isRaid = false
      else part.data.isLvm = false
  | .setFlag .raid state =>
      if state then part.data.isBoot = false ∧ part.data.isRoot = false ∧
        part.data.isSwap = false ∧ part.data.isLvm = false
      else part.data.isRaid = false
  | .setFlag _ _ => True

/-- What is asked of a call: the flags agree after it, and a flag that was set has its
value. -/
structure Faithful (n : ℤ) (geom : PedGeometry) (part : MacFlagged) (call : MacCall) : Prop where
  agree : FlagsAgree n geom (call.result part).2
  effect : ∀ flag state, call = .setFlag flag state → (call.result part).1 = true →
    macPartitionGetFlag (call.result part).2 flag = state

theorem swapFs_of_hfsFs {fsType : Option String} (h : hfsFs fsType = true) :
    swapFs fsType = false := by
  simp only [hfsFs, Bool.or_eq_true, decide_eq_true_eq] at h
  rcases h with (rfl | rfl) | rfl <;> decide +kernel

/-- Setting a file system without a type of its own on a partition that does not boot. -/
theorem setSystem_unix {part : MacFlagged} {fsType : Option String}
    (hboot : part.data.isBoot = false) (hhfs : hfsFs fsType = false) :
    (macPartitionSetSystem part fsType).data =
      { (if swapFs fsType then setSwap part.data true else part.data) with
        systemName := appleUnixSvr2, status := 0x33 } := by
  simp only [hfsFs, Bool.or_eq_false_iff, decide_eq_false_iff_not] at hhfs
  obtain ⟨⟨hhfs, hplus⟩, hhfsx⟩ := hhfs
  have hboot' : (if swapFs fsType then setSwap part.data true else part.data).isBoot = false := by
    split <;> exact hboot
  unfold macPartitionSetSystem
  dsimp only
  rw [if_neg (by rw [hboot']; exact Bool.false_ne_true), if_neg (by tauto), if_neg hhfsx]

/-- The flags agree after the file system is set, if that is harmless. -/
theorem says_setSystem_iff (part : MacFlagged) (fsType : Option String) :
    Says (macPartitionSetSystem part fsType).data ↔ SystemHarmless part.data fsType := by
  unfold SystemHarmless
  cases hboot : part.data.isBoot with
  | true =>
      rw [if_pos rfl]
      cases hswap : swapFs fsType with
      | true => simp [macPartitionSetSystem, hswap, setSwap, hboot, Says]
      | false => simp [macPartitionSetSystem, hswap, hboot, Says]
  | false =>
      rw [if_neg Bool.false_ne_true]
      cases hhfs : hfsFs fsType with
      | true =>
          have hswap := swapFs_of_hfsFs hhfs
          have hkind : Says (macPartitionSetSystem part fsType).data ↔
              part.data.isRoot = false ∧ part.data.isSwap = false ∧ part.data.isLvm = false ∧
                part.data.isRaid = false := by
            simp only [hfsFs, Bool.or_eq_true, decide_eq_true_eq] at hhfs
            rcases hhfs with (rfl | rfl) | rfl <;>
              simp [macPartitionSetSystem, hswap, hboot, Says]
          rw [hkind, if_pos rfl]
          tauto
      | false =>
          rw [setSystem_unix hboot hhfs]
          cases hswap : swapFs fsType with
          | true => simp [setSwap, hboot, Says]
          | false =>
              simp [hboot, Says, volumeKind_root_iff, volumeKind_swap_iff]
              tauto

/-- The file system does not change whether the partition boots, is LVM or RAID. -/
theorem setSystem_flags (part : MacFlagged) (fsType : Option String) :
    (macPartitionSetSystem part fsType).data.isBoot = part.data.isBoot ∧
      (macPartitionSetSystem part fsType).data.isLvm = part.data.isLvm ∧
      (macPartitionSetSystem part fsType).data.isRaid = part.data.isRaid := by
  unfold macPartitionSetSystem setSwap
  dsimp only
  split_ifs <;> exact ⟨rfl, rfl, rfl⟩

section Step

variable {n : ℤ} {geom : PedGeometry} {part : MacFlagged}

theorem faithful_setFlag_iff {flag : PedPartitionFlag} {state : Bool} :
    Faithful n geom part (.setFlag flag state) ↔
      Says (macPartitionSetFlag part flag state).2.data ∧
        ((macPartitionSetFlag part flag state).1 = true →
          macPartitionGetFlag (macPartitionSetFlag part flag state).2 flag = state) := by
  constructor
  · intro h
    exact ⟨flagsAgree_iff.mp h.agree, h.effect flag state rfl⟩
  · rintro ⟨hagrees, heffect⟩
    refine ⟨flagsAgree_iff.mpr hagrees, ?_⟩
    rintro _ _ ⟨⟩
    exact heffect

theorem faithful_boot_iff (hagrees : Says part.data) (state : Bool) :
    Faithful n geom part (.setFlag .boot state) ↔ Harmless part (.setFlag .boot state) := by
  rw [faithful_setFlag_iff]
  unfold Harmless macPartitionSetFlag
  dsimp only
  cases hfs : part.fsType.isSome with
  | true =>
      rw [if_pos rfl, if_pos rfl, says_setSystem_iff]
      exact and_iff_left fun _ => (setSystem_flags _ _).1
  | false =>
      rw [if_neg Bool.false_ne_true, if_neg Bool.false_ne_true]
      cases state with
      | true => simp [Says, macPartitionGetFlag]
      | false =>
          obtain ⟨hboot, hrest⟩ := hagrees
          simp [Says, macPartitionGetFlag, hboot, hrest]

theorem setRoot_of_not {data : MacPartitionData} (h : data.isRoot = false) :
    setRoot data false = data := by
  cases data
  simp_all [setRoot]

theorem faithful_root_iff (hagrees : Says part.data) (state : Bool) :
    Faithful n geom part (.setFlag .root state) ↔ Harmless part (.setFlag .root state) := by
  obtain ⟨hboot, hroot, hswap, hlvm, hraid⟩ := id hagrees
  rw [faithful_setFlag_iff]
  unfold Harmless macPartitionSetFlag
  dsimp only
  rw [← systemKind_unix_iff]
  cases state with
  | true => simp [setRoot, Says, macPartitionGetFlag, hboot, hlvm, hraid]
  | false =>
      cases hwas : part.data.isRoot with
      | true =>
          obtain ⟨hunix, hvolume⟩ := of_decide_eq_true (hroot.symm.trans hwas)
          simp [setRoot, hwas, Says, macPartitionGetFlag, hboot, hlvm, hraid, hswap, hunix, hvolume]
      | false =>
          rw [setRoot_of_not hwas]
          simp [macPartitionGetFlag, hwas, hagrees]

theorem setSwap_of_not {data : MacPartitionData} (h : data.isSwap = false) :
    setSwap data false = data := by
  cases data
  simp_all [setSwap]

theorem faithful_swap_iff (hagrees : Says part.data) (state : Bool) :
    Faithful n geom part (.setFlag .swap state) ↔ Harmless part (.setFlag .swap state) := by
  obtain ⟨hboot, hroot, hswap, hlvm, hraid⟩ := id hagrees
  rw [faithful_setFlag_iff]
  unfold Harmless macPartitionSetFlag
  dsimp only
  rw [← systemKind_unix_iff]
  cases state with
  | true => simp [setSwap, Says, macPartitionGetFlag, hboot, hlvm, hraid]
  | false =>
      cases hwas : part.data.isSwap with
      | true =>
          obtain ⟨hunix, hvolume⟩ := of_decide_eq_true (hswap.symm.trans hwas)
          simp [setSwap, hwas, Says, macPartitionGetFlag, hboot, hlvm, hraid, hroot, hunix, hvolume]
      | false =>
          rw [setSwap_of_not hwas]
          simp [macPartitionGetFlag, hwas, hagrees]

theorem faithful_lvm_iff (hagrees : Says part.data) (state : Bool) :
    Faithful n geom part (.setFlag .lvm state) ↔ Harmless part (.setFlag .lvm state) := by
  rw [faithful_setFlag_iff]
  unfold Harmless macPartitionSetFlag
  dsimp only
  cases state with
  | true => simp [Says, macPartitionGetFlag]
  | false =>
      cases hwas : part.data.isLvm with
      | true => simp [macPartitionGetFlag, (setSystem_flags part part.fsType).2.1, hwas]
      | false => simp [macPartitionGetFlag, hwas, hagrees]

theorem faithful_raid_iff (hagrees : Says part.data) (state : Bool) :
    Faithful n geom part (.setFlag .raid state) ↔ Harmless part (.setFlag .raid state) := by
  rw [faithful_setFlag_iff]
  unfold Harmless macPartitionSetFlag
  dsimp only
  cases state with
  | true => simp [Says, macPartitionGetFlag]
  | false =>
      cases hwas : part.data.isRaid with
      | true => simp [macPartitionGetFlag, (setSystem_flags part part.fsType).2.2, hwas]
      | false => simp [macPartitionGetFlag, hwas, hagrees]

/-- **One call** keeps the flags in agreement, and takes effect, exactly if it is harmless. -/
theorem faithful_iff_harmless (hagree : FlagsAgree n geom part) (call : MacCall) :
    Faithful n geom part call ↔ Harmless part call := by
  have hagrees := flagsAgree_iff.mp hagree
  cases call with
  | setSystem fsType =>
      have hset : Faithful n geom part (.setSystem fsType) ↔
          Says (macPartitionSetSystem part fsType).data :=
        ⟨fun h => flagsAgree_iff.mp h.agree, fun h => ⟨flagsAgree_iff.mpr h, by rintro _ _ ⟨⟩⟩⟩
      exact hset.trans (says_setSystem_iff part fsType)
  | setFlag flag state =>
      cases flag with
      | boot => exact faithful_boot_iff hagrees state
      | root => exact faithful_root_iff hagrees state
      | swap => exact faithful_swap_iff hagrees state
      | lvm => exact faithful_lvm_iff hagrees state
      | raid => exact faithful_raid_iff hagrees state
      | _ =>
          -- no other flag is known, and the call does nothing
          rw [faithful_setFlag_iff]
          exact ⟨fun _ => trivial, fun _ => ⟨hagrees, fun h => absurd h Bool.false_ne_true⟩⟩

end Step

/-! ## Runs -/

/-- The partition after a call. -/
def MacCall.after (part : MacFlagged) (call : MacCall) : MacFlagged := (call.result part).2

/-- **Flags survive writing.**  Let the flags of a partition agree with its names.  In a sequence
of calls they agree after each of them, and each flag that is set takes its value, if each call
is harmless when it is made, and only then. -/
theorem macFlags_faithful_iff (n : ℤ) (geom : PedGeometry) {part : MacFlagged}
    (hagree : FlagsAgree n geom part) (calls : List MacCall) :
    EachCall MacCall.after (Faithful n geom) part calls ↔
      EachCall MacCall.after Harmless part calls := by
  apply eachCall_iff (I := FlagsAgree n geom)
  · intro part call h
    exact faithful_iff_harmless h call
  · intro part call h hharmless
    exact ((faithful_iff_harmless h call).mpr hharmless).agree
  · exact hagree

/-- The data of a new partition, with its type set for a file system that is not HFS. -/
def sampleData : MacPartitionData :=
  ⟨untitled, appleUnixSvr2, [], false, false, false, false, false, false, false, 0, 0, 0, 0, 0,
    0x33, 0⟩

def sampleGeom : PedGeometry := ⟨64, 100, by norm_num, by norm_num⟩

/-- An ext2 partition. -/
def samplePart : MacFlagged := ⟨.normal, some "ext2", sampleData⟩

/-- A partition to boot from. -/
def sampleBoot : MacFlagged :=
  ⟨.normal, some "hfs", { sampleData with systemName := appleBootstrap, isBoot := true }⟩

theorem flagsAgree_samplePart : FlagsAgree 3 sampleGeom samplePart :=
  flagsAgree_iff.mpr (by unfold Says; decide +kernel)

theorem flagsAgree_sampleBoot : FlagsAgree 3 sampleGeom sampleBoot :=
  flagsAgree_iff.mpr (by unfold Says; decide +kernel)

/-- An ext2 partition becomes the root, then swap, then neither. -/
theorem macFlags_samplePart : EachCall MacCall.after (Faithful 3 sampleGeom) samplePart
    [.setFlag .root true, .setFlag .swap true, .setFlag .swap false] := by
  rw [macFlags_faithful_iff 3 sampleGeom flagsAgree_samplePart]
  unfold EachCall EachCall EachCall EachCall Harmless
  decide +kernel

/-- LVM is set on the boot partition, which still says that it boots; its entry says that it
does not.  LVM is cleared again; the call returns 1, the entry is that of a boot partition, and
the flag is still set. -/
theorem macFlags_disagree :
    let lvm := macPartitionSetFlag sampleBoot .lvm true
    let noLvm := macPartitionSetFlag lvm.2 .lvm false
    FlagsAgree 3 sampleGeom sampleBoot ∧
    (lvm.1 = true ∧ macPartitionGetFlag lvm.2 .boot = true ∧
      rawpartIsBoot (generateRawPart 3 sampleGeom lvm.2.data).1 = false) ∧
    noLvm.1 = true ∧ macPartitionGetFlag noLvm.2 .lvm = true ∧
      rawpartIsLvm (generateRawPart 3 sampleGeom noLvm.2.data).1 = false :=
  ⟨flagsAgree_sampleBoot, by decide +kernel, by decide +kernel, by decide +kernel,
    by decide +kernel⟩

end Libparted.Mac
