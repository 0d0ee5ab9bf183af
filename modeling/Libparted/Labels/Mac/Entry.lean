import Libparted.Geometry
import Libparted.Library.Bytes

/-!
# Entries of a Mac partition map (`libparted/labels/mac.c`)

An entry of the map is a block with the position of a partition, its name and its type.  Both
texts have 32 bytes, which end with a zero; in memory there is room for one character more.
What a partition is used for (booting, root, swap, LVM, RAID) is written nowhere but in these
two texts.

The tests of the reader compare a field with a text that is shorter than the field, so none
of them looks behind it.
-/

namespace Libparted.Mac

open Library

/-! ## Texts -/

/-- The bytes of a text. -/
def text (s : String) : List Byte := s.toList.map fun c => BitVec.ofNat 8 c.toNat

/-- The characters in front of the first zero. -/
def cString (bytes : List Byte) : List Byte := bytes.takeWhile (· != 0)

/-- `tolower`, in the C locale. -/
def toLower (b : Byte) : Byte := if 65 ≤ b.toNat ∧ b.toNat ≤ 90 then b + 32 else b

/-- `strcmp (field, s) == 0`. -/
def strcmpEq (field : List Byte) (s : String) : Bool := cString field == text s

/-- `strcasecmp (field, s) == 0`. -/
def strcasecmpEq (field : List Byte) (s : String) : Bool :=
  (cString field).map toLower == (text s).map toLower

/-- `strncasecmp (field, s, n) == 0`. -/
def strncasecmpEq (field : List Byte) (s : String) (n : ℕ) : Bool :=
  ((cString field).take n).map toLower == ((text s).take n).map toLower

/-- `volume_name` and `system_name`: up to 32 characters. -/
structure Name where
  bytes : List Byte
  length_le : bytes.length ≤ 32
  nonzero : ∀ b ∈ bytes, b ≠ 0
deriving DecidableEq

/-- `strncpy (field, name, 31); field[31] = '\0'`. -/
def Name.field (name : Name) : List Byte :=
  name.bytes.take 31 ++ List.replicate (32 - (name.bytes.take 31).length) 0

/-- A field holds the name, but for the last of 32 characters. -/
theorem Name.cString_field (name : Name) : cString name.field = name.bytes.take 31 := by
  have hpos : 32 - (name.bytes.take 31).length ≠ 0 := by
    rw [List.length_take]
    omega
  obtain ⟨n, hn⟩ := Nat.exists_eq_succ_of_ne_zero hpos
  unfold cString Name.field
  rw [hn, List.replicate_succ, List.takeWhile_append_of_pos, List.takeWhile_cons_of_neg,
    List.append_nil]
  · simp
  · intro b hb
    simpa using name.nonzero b (List.mem_of_mem_take hb)

theorem Name.take_field_eq {bytes : List Byte} (name : Name) (f : Byte → Byte)
    (hs : bytes.length < 31) :
    (name.bytes.take 31).map f = bytes.map f ↔ name.bytes.map f = bytes.map f := by
  rw [List.map_take]
  constructor
  · intro h
    have hlen := congrArg List.length h
    rw [List.length_take, List.length_map, List.length_map] at hlen
    rwa [List.take_of_length_le (by rw [List.length_map]; omega)] at h
  · intro h
    rw [h, List.take_of_length_le (by rw [List.length_map]; omega)]

/-- A text that fits is in the field if it is the name. -/
theorem Name.strcmpEq_field {s : String} (name : Name) (hs : (text s).length < 31) :
    strcmpEq name.field s = (name.bytes == text s) := by
  have h := name.take_field_eq id hs
  simp only [List.map_id] at h
  rw [strcmpEq, name.cString_field, Bool.eq_iff_iff, beq_iff_eq, beq_iff_eq, h]

theorem Name.strcasecmpEq_field {s : String} (name : Name) (hs : (text s).length < 31) :
    strcasecmpEq name.field s = (name.bytes.map toLower == (text s).map toLower) := by
  rw [strcasecmpEq, name.cString_field, Bool.eq_iff_iff, beq_iff_eq, beq_iff_eq,
    name.take_field_eq toLower hs]

theorem Name.strncasecmpEq_field {s : String} (name : Name) (hs : (text s).length < 31) :
    strncasecmpEq name.field s 32 = (name.bytes.map toLower == (text s).map toLower) := by
  rw [strncasecmpEq, name.cString_field, List.take_take, List.take_of_length_le (i := 32)
    (by omega), Bool.eq_iff_iff, beq_iff_eq, beq_iff_eq, min_eq_right (by norm_num),
    name.take_field_eq toLower hs]

/-! ## Entries -/

/-- `MAC_PARTITION_MAGIC_1` and `MAC_PARTITION_MAGIC_2`. -/
def macPartitionMagic1 : BitVec 16 := 0x5453

@[inherit_doc macPartitionMagic1]
def macPartitionMagic2 : BitVec 16 := 0x504d

/-- `MacRawPartition`, with its numbers as the processor sees them. -/
structure MacRawPartition where
  signature : BitVec 16
  mapCount : BitVec 32
  startBlock : BitVec 32
  blockCount : BitVec 32
  name : List Byte
  type : List Byte
  dataStart : BitVec 32
  dataCount : BitVec 32
  status : BitVec 32
  bootCount : BitVec 32
  bootLoad : BitVec 32
  bootEntry : BitVec 32
  bootCksum : BitVec 32
  processor : List Byte
  driverSig : BitVec 32
deriving DecidableEq

/-- `MacPartitionData`.  `processor_name` is not looked at. -/
structure MacPartitionData where
  volumeName : Name
  systemName : Name
  processorName : List Byte
  isBoot : Bool
  isDriver : Bool
  hasDriver : Bool
  isRoot : Bool
  isSwap : Bool
  isLvm : Bool
  isRaid : Bool
  dataRegionLength : ℤ
  bootRegionLength : ℤ
  bootBaseAddress : BitVec 32
  bootEntryAddress : BitVec 32
  bootChecksum : BitVec 32
  status : BitVec 32
  driverSig : BitVec 32
deriving DecidableEq

/-- `_rawpart_cmp_type`. -/
def rawpartCmpType (rawPart : MacRawPartition) (type : String) : Bool :=
  strncasecmpEq rawPart.type type 32

/-- `_rawpart_is_boot`. -/
def rawpartIsBoot (rawPart : MacRawPartition) : Bool :=
  strcasecmpEq rawPart.type "Apple_Bootstrap" || strcasecmpEq rawPart.type "Apple_Boot"

/-- `_rawpart_is_root`. -/
def rawpartIsRoot (rawPart : MacRawPartition) : Bool :=
  rawpartCmpType rawPart "Apple_UNIX_SVR2" && strcmpEq rawPart.name "root"

/-- `_rawpart_is_swap`. -/
def rawpartIsSwap (rawPart : MacRawPartition) : Bool :=
  rawpartCmpType rawPart "Apple_UNIX_SVR2" && strcmpEq rawPart.name "swap"

/-- `_rawpart_is_lvm`. -/
def rawpartIsLvm (rawPart : MacRawPartition) : Bool := strcmpEq rawPart.type "Linux_LVM"

/-- `_rawpart_is_raid`. -/
def rawpartIsRaid (rawPart : MacRawPartition) : Bool := strcmpEq rawPart.type "Linux_RAID"

/-- `_generate_raw_part`: the entry of a partition, and the data of the partition with the
length of its region.  The place of the entry in the map and the list of the drivers are not
its contents. -/
def generateRawPart (lastPartEntryNum : ℤ) (geom : PedGeometry) (macPartData : MacPartitionData) :
    MacRawPartition × MacPartitionData :=
  let macPartData :=
    if macPartData.isDriver then macPartData
    else { macPartData with dataRegionLength := geom.length }
  let partMapEntry : MacRawPartition :=
    { signature := macPartitionMagic2
      mapCount := BitVec.ofInt 32 lastPartEntryNum
      startBlock := BitVec.ofInt 32 geom.start
      blockCount := BitVec.ofInt 32 geom.length
      name := macPartData.volumeName.field
      type := macPartData.systemName.field
      dataStart := 0
      dataCount := BitVec.ofInt 32 macPartData.dataRegionLength
      status := macPartData.status
      bootCount := BitVec.ofInt 32 macPartData.bootRegionLength
      bootLoad := macPartData.bootBaseAddress
      bootEntry := macPartData.bootEntryAddress
      bootCksum := macPartData.bootChecksum
      processor := macPartData.processorName.take 15 ++
        List.replicate (16 - (macPartData.processorName.take 15).length) 0
      driverSig := macPartData.driverSig }
  (partMapEntry, macPartData)

@[simp] theorem generateRawPart_name (n : ℤ) (geom : PedGeometry) (data : MacPartitionData) :
    (generateRawPart n geom data).1.name = data.volumeName.field := by
  unfold generateRawPart
  dsimp only
  split <;> rfl

@[simp] theorem generateRawPart_type (n : ℤ) (geom : PedGeometry) (data : MacPartitionData) :
    (generateRawPart n geom data).1.type = data.systemName.field := by
  unfold generateRawPart
  dsimp only
  split <;> rfl

end Libparted.Mac
