import Libparted.Disk.Attached
import Libparted.Labels.Gpt

/-!
# The GPT table on disk (`libparted/labels/gpt.c`)

A GPT is kept twice.  Sector 1 holds the primary header, which tells where the array
of entries is; the backup header has its own sector, normally the last one of the
device, and its own copy of the array.  Both headers carry a checksum of themselves
and one of the array.  Sector 0 holds an MS-DOS table with one entry, to keep programs
away that do not know GPT.

`gptRead` reads the table and may repair it: when the backup is not where it should
be or the device has grown it asks, moves the backup and writes everything back, with
`ped_disk_commit_to_dev`.  `gptWrite` writes both copies.

The checksum is a parameter `crc` of all these functions.  Numbers of 32 and 64 bits
are read from the image as they are; what C computes in 32 bits is computed in 32 bits
here, and a sector number of 64 bits becomes signed where C converts it to a
`PedSector`.
-/

namespace Libparted

open Library

/-! ## Layout -/

/-- The fields of `_GuidPartitionTableHeader_t`. -/
structure HeaderFields where
  signature : BitVec 64
  revision : BitVec 32
  headerSize : BitVec 32
  headerCRC32 : BitVec 32
  reserved1 : BitVec 32
  myLBA : BitVec 64
  alternateLBA : BitVec 64
  firstUsableLBA : BitVec 64
  lastUsableLBA : BitVec 64
  diskGUID : BitVec 128
  partitionEntryLBA : BitVec 64
  numberOfPartitionEntries : BitVec 32
  sizeOfPartitionEntry : BitVec 32
  partitionEntryArrayCRC32 : BitVec 32
deriving DecidableEq

def headerCodec : Codec HeaderFields :=
  ((Codec.uint 8).seq ((Codec.uint 4).seq ((Codec.uint 4).seq ((Codec.uint 4).seq
    ((Codec.uint 4).seq ((Codec.uint 8).seq ((Codec.uint 8).seq ((Codec.uint 8).seq
    ((Codec.uint 8).seq ((Codec.uint 16).seq ((Codec.uint 8).seq ((Codec.uint 4).seq
    ((Codec.uint 4).seq (Codec.uint 4)))))))))))))).map
    (fun x => ⟨x.1, x.2.1, x.2.2.1, x.2.2.2.1, x.2.2.2.2.1, x.2.2.2.2.2.1, x.2.2.2.2.2.2.1,
      x.2.2.2.2.2.2.2.1, x.2.2.2.2.2.2.2.2.1, x.2.2.2.2.2.2.2.2.2.1, x.2.2.2.2.2.2.2.2.2.2.1,
      x.2.2.2.2.2.2.2.2.2.2.2.1, x.2.2.2.2.2.2.2.2.2.2.2.2.1, x.2.2.2.2.2.2.2.2.2.2.2.2.2⟩)
    (fun h => (h.signature, h.revision, h.headerSize, h.headerCRC32, h.reserved1, h.myLBA,
      h.alternateLBA, h.firstUsableLBA, h.lastUsableLBA, h.diskGUID, h.partitionEntryLBA,
      h.numberOfPartitionEntries, h.sizeOfPartitionEntry, h.partitionEntryArrayCRC32))
    (fun _ => rfl)

/-- `_GuidPartitionTableHeader_t`.  `reserved2` is the rest of the sector. -/
structure GuidPartitionTableHeader extends HeaderFields where
  reserved2 : List Byte
deriving DecidableEq

/-- `_GuidPartitionEntry_t`. -/
structure GuidPartitionEntry where
  partitionTypeGuid : BitVec 128
  uniquePartitionGuid : BitVec 128
  startingLBA : BitVec 64
  endingLBA : BitVec 64
  attributes : BitVec 64
  partitionName : Vector (BitVec 16) 36
deriving DecidableEq

def guidPartitionEntryCodec : Codec GuidPartitionEntry :=
  ((Codec.uint 16).seq ((Codec.uint 16).seq ((Codec.uint 8).seq ((Codec.uint 8).seq
    ((Codec.uint 8).seq ((Codec.uint 2).array 36)))))).map
    (fun x => ⟨x.1, x.2.1, x.2.2.1, x.2.2.2.1, x.2.2.2.2.1, x.2.2.2.2.2⟩)
    (fun pte => (pte.partitionTypeGuid, pte.uniquePartitionGuid, pte.startingLBA, pte.endingLBA,
      pte.attributes, pte.partitionName))
    (fun _ => rfl)

/-- `_PartitionRecord_t`. -/
structure PartitionRecord where
  bootIndicator : BitVec 8
  startHead : BitVec 8
  startSector : BitVec 8
  startTrack : BitVec 8
  osType : BitVec 8
  endHead : BitVec 8
  endSector : BitVec 8
  endTrack : BitVec 8
  startingLBA : BitVec 32
  sizeInLBA : BitVec 32

def partitionRecordCodec : Codec PartitionRecord :=
  ((Codec.uint 1).seq ((Codec.uint 1).seq ((Codec.uint 1).seq ((Codec.uint 1).seq
    ((Codec.uint 1).seq ((Codec.uint 1).seq ((Codec.uint 1).seq ((Codec.uint 1).seq
    ((Codec.uint 4).seq (Codec.uint 4)))))))))).map
    (fun x => ⟨x.1, x.2.1, x.2.2.1, x.2.2.2.1, x.2.2.2.2.1, x.2.2.2.2.2.1, x.2.2.2.2.2.2.1,
      x.2.2.2.2.2.2.2.1, x.2.2.2.2.2.2.2.2.1, x.2.2.2.2.2.2.2.2.2⟩)
    (fun r => (r.bootIndicator, r.startHead, r.startSector, r.startTrack, r.osType, r.endHead,
      r.endSector, r.endTrack, r.startingLBA, r.sizeInLBA))
    (fun _ => rfl)

/-- `_LegacyMBR_t`. -/
structure LegacyMBR where
  bootCode : Vector Byte 440
  uniqueMBRSignature : BitVec 32
  unknown : BitVec 16
  partitionRecord : Vector PartitionRecord 4
  signature : BitVec 16

def legacyMBRCodec : Codec LegacyMBR :=
  (((Codec.uint 1).array 440).seq ((Codec.uint 4).seq ((Codec.uint 2).seq
    ((partitionRecordCodec.array 4).seq (Codec.uint 2))))).map
    (fun x => ⟨x.1, x.2.1, x.2.2.1, x.2.2.2.1, x.2.2.2.2⟩)
    (fun mbr => (mbr.bootCode, mbr.uniqueMBRSignature, mbr.unknown, mbr.partitionRecord,
      mbr.signature))
    (fun _ => rfl)

/-- `EFI_PMBR_OSTYPE_EFI`. -/
def efiPmbrOstypeEfi : BitVec 8 := 0xEE

/-- `MSDOS_MBR_SIGNATURE`. -/
def msdosMbrSignature : BitVec 16 := 0xaa55

/-- `GPT_HEADER_SIGNATURE`. -/
def gptHeaderSignature : BitVec 64 := 0x5452415020494645

/-- `GPT_HEADER_REVISION_V1_02`. -/
def gptHeaderRevisionV102 : BitVec 32 := 0x00010200

/-- `GPT_HEADER_REVISION_V1_00`. -/
def gptHeaderRevisionV100 : BitVec 32 := 0x00010000

/-- `UNUSED_ENTRY_GUID`. -/
def unusedEntryGuid : BitVec 128 := 0

/-- `GPT_DEFAULT_PARTITION_ENTRY_ARRAY_SIZE`. -/
def gptDefaultPartitionEntryArraySize : ℕ := 16384

/-- `pth_get_size_static`. -/
def pthGetSizeStatic : ℕ := 92

/-- `pth_new_from_raw`. -/
def pthNewFromRaw (pthRaw : List Byte) : GuidPartitionTableHeader :=
  { headerCodec.decode pthRaw with reserved2 := pthRaw.drop pthGetSizeStatic }

/-- `pth_get_raw`. -/
def pthGetRaw (pth : GuidPartitionTableHeader) : List Byte :=
  headerCodec.encode pth.toHeaderFields ++ pth.reserved2

/-- `pth_crc32`. -/
def pthCrc32 (crc : List Byte → BitVec 32) (pth : GuidPartitionTableHeader) : BitVec 32 :=
  crc ((pthGetRaw pth).take pth.headerSize.toNat)

/-! ## Probing -/

/-- `_pmbr_is_valid`. -/
def pmbrIsValid (mbr : LegacyMBR) : Bool :=
  mbr.signature = msdosMbrSignature
    && mbr.partitionRecord.toList.any fun record => record.osType = efiPmbrOstypeEfi

/-- `gpt_probe`.  The last sector is looked at only if sector 1 cannot be read. -/
def gptProbe (dev : PedDevice) (store : Store) : Bool :=
  if dev.length ≤ 1 then false
  else match pttReadSector dev store 0 with
    | none => false
    | some label =>
        if !pmbrIsValid (legacyMBRCodec.decode label) then false
        else match (pedDeviceRead dev store 1 1).or (pedDeviceRead dev store (dev.length - 1) 1) with
          | none => false
          | some pthRaw => (pthNewFromRaw pthRaw).signature = gptHeaderSignature

/-! ## Headers -/

/-- The size of the array, in bytes: a product of two numbers of 32 bits, in 32 bits. -/
def ptesBytes (gpt : GuidPartitionTableHeader) : ℕ :=
  (gpt.sizeOfPartitionEntry * gpt.numberOfPartitionEntries).toNat

/-- `gpt_read_PE_array`. -/
def gptReadPEArray (dev : PedDevice) (store : Store) (gpt : GuidPartitionTableHeader) :
    Option (List Byte) :=
  pedDeviceRead dev store gpt.partitionEntryLBA.toInt
    (pedDivRoundUp (ptesBytes gpt) dev.sectorSize : ℕ)

/-- `check_PE_array_CRC`; `false` also if the array cannot be read. -/
def checkPEArrayCRC (crc : List Byte → BitVec 32) (dev : PedDevice) (store : Store)
    (gpt : GuidPartitionTableHeader) : Bool :=
  match gptReadPEArray dev store gpt with
  | none => false
  | some ptes => crc (ptes.take (ptesBytes gpt)) = gpt.partitionEntryArrayCRC32

/-- The sizes of an entry that `_header_is_valid` accepts: multiples of 8, no smaller
than the structure and no larger than a sixteenth of `UINT32_MAX`. -/
def entrySizeIsValid (peSize : BitVec 32) : Bool :=
  peSize.toNat % 8 = 0 && sizeofEntry ≤ peSize.toNat && peSize.toNat ≤ (2 ^ 32 - 1) / 2 ^ 4

/-- `_header_is_valid`. -/
def headerIsValid (crc : List Byte → BitVec 32) (dev : PedDevice) (store : Store)
    (gpt : GuidPartitionTableHeader) (myLba : ℤ) : Bool :=
  gpt.signature = gptHeaderSignature
    && (pthGetSizeStatic ≤ gpt.headerSize.toNat && gpt.headerSize.toNat ≤ dev.sectorSize)
    && entrySizeIsValid gpt.sizeOfPartitionEntry
    && gpt.myLBA = BitVec.ofInt 64 myLba
    -- the backup's alternate is sector 1
    && !(myLba ≠ 1 && gpt.alternateLBA.toInt ≠ 1)
    && gpt.alternateLBA.toInt ≠ myLba
    && checkPEArrayCRC crc dev store gpt
    && !(gpt.firstUsableLBA.toInt < 3)
    && !(gpt.lastUsableLBA.toInt < gpt.firstUsableLBA.toInt)
    && pthCrc32 crc { gpt with headerCRC32 := 0 } = gpt.headerCRC32

/-- `_ptes_sectors`: at least the space of 128 entries of 128 bytes. -/
def ptesSectors (dev : PedDevice) (gpt : GuidPartitionTableHeader) : ℕ :=
  pedDivRoundUp (max (ptesBytes gpt) (128 * 128)) dev.sectorSize

/-- `_hdr_disk_end`.  The sum is one of unsigned numbers. -/
def hdrDiskEnd (dev : PedDevice) (gpt : GuidPartitionTableHeader) : ℤ :=
  (gpt.lastUsableLBA + 1 + BitVec.ofNat 64 (ptesSectors dev gpt)).toInt

/-! ## Programs -/

abbrev GptDisk : Type := PedDisk GPTPartitionData GPTDiskData

abbrev GptPartition : Type := PedPartition GPTPartitionData

/-- Programs on a disk with this label and its device. -/
abbrev GptM (α : Type) : Type := DeviceM GPTPartitionData GPTDiskData α

/-- Changes `disk_specific`. -/
def modifySpecific (f : GPTDiskData → GPTDiskData) : GptM Unit :=
  inMemory (modifyDisk fun disk => { disk with diskSpecific := f disk.diskSpecific })

/-- Raises an exception. -/
def gptThrow (env : Env) (type : PedExceptionType) (options : List PedExceptionOption)
    (message : String) : GptM PedExceptionOption :=
  inMemory (ask (pedExceptionThrow env type options message))

/-- `gpt_alloc`. -/
def gptAlloc (env : Env) (uuid : BitVec 128) : Ask (Option GptDisk) := do
  let size : ℤ := (gptDefaultPartitionEntryArraySize / env.dev.sectorSize : ℕ)
  let dataStart := 2 + size
  let dataEnd := env.dev.length - 2 - size
  if dataEnd < dataStart then
    let _ ← pedExceptionThrow env .error [.ok] "device is too small for GPT"
    return none
  let dataArea ← pedGeometryInitUnchecked dataStart (dataEnd - dataStart + 1)
  return some ⟨[], [], 1, false, ⟨dataArea, gptDefaultPartitionEntryArraySize / sizeofEntry, uuid,
    false, env.dev.length - 1⟩⟩

/-- `ped_disk_new_fresh`, once the label has allocated the disk. -/
def openFresh (env : Env) (disk : GptDisk) : Ask GptDisk := fun thrown => do
  let (_, s) ← diskPopUpdateMode gptAllocMetadata env ⟨disk, thrown⟩
  pedAssert (s.disk.updateMode = 0) "disk->update_mode == 0"
  return ({ s.disk with needsClobber := true }, s.thrown)

/-- `ped_disk_new_fresh`. -/
def pedDiskNewFresh (env : Env) (uuid : BitVec 128) : Ask (Option GptDisk) := do
  match ← gptAlloc env uuid with
  | none => return none
  | some disk => return some (← openFresh env disk)

/-! ## Writing -/

/-- The protective table `_write_pmbr` puts into a sector. -/
def protectiveMBR (dev : PedDevice) (pmbrBoot : Bool) (pmbr : LegacyMBR) : LegacyMBR :=
  { pmbr with
    signature := msdosMbrSignature
    partitionRecord := #v[⟨if pmbrBoot then 0x80 else 0, 0, 2, 0, efiPmbrOstypeEfi, 0xFF, 0xFF,
      0xFF, 1, if dev.length - 1 > 0xFFFFFFFF then 0xFFFFFFFF else BitVec.ofInt 32 (dev.length - 1)⟩,
      ⟨0, 0, 0, 0, 0, 0, 0, 0, 0, 0⟩, ⟨0, 0, 0, 0, 0, 0, 0, 0, 0, 0⟩,
      ⟨0, 0, 0, 0, 0, 0, 0, 0, 0, 0⟩] }

/-- `_write_pmbr`. -/
def writePmbr (dev : PedDevice) (pmbrBoot : Bool) : GptM Bool := do
  match pttReadSector dev (← getStore) 0 with
  | none => return false
  | some s0 =>
      let pmbr := protectiveMBR dev pmbrBoot (legacyMBRCodec.decode s0)
      deviceWrite dev (legacyMBRCodec.encode pmbr ++ s0.drop legacyMBRCodec.size) 0 1

/-- The number of sectors `gpt_write` uses for an array. -/
def arraySectors (dev : PedDevice) (specific : GPTDiskData) : ℕ :=
  (specific.entryCount * sizeofEntry + dev.sectorSize - 1) / dev.sectorSize

/-- `_generate_header`. -/
def generateHeader (crc : List Byte → BitVec 32) (dev : PedDevice) (specific : GPTDiskData)
    (alternate : Bool) (ptesCrc : BitVec 32) : GuidPartitionTableHeader :=
  let gpt : GuidPartitionTableHeader :=
    { signature := gptHeaderSignature
      revision := gptHeaderRevisionV100
      headerSize := BitVec.ofNat 32 pthGetSizeStatic
      headerCRC32 := 0
      reserved1 := 0
      myLBA := if alternate then BitVec.ofInt 64 specific.alternateLBA else 1
      alternateLBA := if alternate then 1 else BitVec.ofInt 64 specific.alternateLBA
      firstUsableLBA := BitVec.ofInt 64 specific.dataArea.start
      lastUsableLBA := BitVec.ofInt 64 specific.dataArea.end
      diskGUID := specific.uuid
      partitionEntryLBA :=
        if alternate then BitVec.ofInt 64 (specific.alternateLBA - arraySectors dev specific) else 2
      numberOfPartitionEntries := BitVec.ofNat 32 specific.entryCount
      sizeOfPartitionEntry := BitVec.ofNat 32 sizeofEntry
      partitionEntryArrayCRC32 := ptesCrc
      reserved2 := List.replicate (dev.sectorSize - pthGetSizeStatic) 0 }
  { gpt with headerCRC32 := pthCrc32 crc gpt }

/-- `_partition_generate_part_entry`. -/
def partitionGeneratePartEntry (geom : PedGeometry) (data : GPTPartitionData) :
    GuidPartitionEntry :=
  ⟨data.type, data.uuid, BitVec.ofInt 64 geom.start, BitVec.ofInt 64 geom.end, data.attributes,
    data.name⟩

/-- The entry of one partition goes into the buffer `ptes`. -/
def putEntry (size : ℕ) (ptes : Store) (part : GptPartition) : Except Fault Store := do
  if part.type ≠ .normal then
    return ptes
  match part.diskSpecific with
  | none => throw (.assertion "gpt_part_data != NULL")
  | some data =>
      if part.num < 1 ∨ (size : ℤ) < part.num * sizeofEntry then
        throw (.undefined "write behind the end of ptes")
      return writeAt ptes ((part.num - 1).toNat * sizeofEntry)
        (guidPartitionEntryCodec.encode (partitionGeneratePartEntry part.geom data))

/-- The array `gpt_write` makes: zeroed memory with the entries of the partitions. -/
def makeEntries (dev : PedDevice) (disk : GptDisk) : Except Fault (List Byte) := do
  let size := arraySectors dev disk.diskSpecific * dev.sectorSize
  let ptes ← disk.traverse.foldlM (putEntry size) (fun _ => 0)
  return readAt ptes 0 size

/-- A header and its array, as `gpt_write` writes them. -/
def writeCopy (crc : List Byte → BitVec 32) (dev : PedDevice) (specific : GPTDiskData)
    (alternate : Bool) (ptes : List Byte) : GptM Bool := do
  let ptesCrc := crc (ptes.take (specific.entryCount * sizeofEntry))
  let pthRaw := pthGetRaw (generateHeader crc dev specific alternate ptesCrc)
  let lba := if alternate then specific.alternateLBA else 1
  if !(← deviceWrite dev pthRaw lba 1) then
    return false
  let ptesLba := if alternate then specific.alternateLBA - arraySectors dev specific else 2
  deviceWrite dev ptes ptesLba (arraySectors dev specific)

/-- `gpt_write`. -/
def gptWrite (crc : List Byte → BitVec 32) (env : Env) : GptM Bool := do
  let disk ← inMemory getDisk
  let ptes ← makeEntries env.dev disk
  if !(← writePmbr env.dev disk.diskSpecific.pmbrBoot) then
    return false
  if !(← writeCopy crc env.dev disk.diskSpecific false ptes) then
    return false
  writeCopy crc env.dev disk.diskSpecific true ptes

/-- The first sector `ped_disk_clobber` clears: if there is a GPT table, it does not
clobber the protective MBR. -/
def clobberFirst (dev : PedDevice) (store : Store) : ℤ := if gptProbe dev store then 1 else 0

/-- The number of sectors `ped_disk_clobber` clears at each end. -/
def clobberCount (dev : PedDevice) : ℤ := 9 * 1024 / dev.sectorSize + 1

/-- `ped_disk_clobber`. -/
def pedDiskClobber (dev : PedDevice) : GptM Bool := do
  let firstSector := clobberFirst dev (← getStore)
  let nSectors := clobberCount dev
  let n := if dev.length < firstSector + nSectors then dev.length - firstSector else nSectors
  if !(← pttClearSectors dev firstSector n) then
    return false
  let t := dev.length - (if nSectors < dev.length then nSectors else 1)
  -- don't clobber the pMBR if we have a pathologically small disk
  let t := if t < firstSector then firstSector else t
  pttClearSectors dev t (dev.length - t)

/-- `ped_disk_commit_to_dev`. -/
def pedDiskCommitToDev (crc : List Byte → BitVec 32) (env : Env) : GptM Bool := do
  let disk ← inMemory getDisk
  liftM (pedAssert (disk.updateMode = 0) "!disk->update_mode")
  if disk.needsClobber then
    if !(← pedDiskClobber env.dev) then
      return false
    inMemory (modifyDisk fun disk => { disk with needsClobber := false })
  gptWrite crc env

/-! ## Reading -/

/-- The primary header, if it is valid. -/
def readPrimary (crc : List Byte → BitVec 32) (dev : PedDevice) (store : Store)
    (s1 : List Byte) : Option GuidPartitionTableHeader :=
  if headerIsValid crc dev store (pthNewFromRaw s1) 1 then some (pthNewFromRaw s1) else none

/-- Where the backup is looked for. -/
def alternateOf (dev : PedDevice) : Option GuidPartitionTableHeader → ℤ
  | some pri => pri.alternateLBA.toInt
  | none => dev.length - 1

/-- `gpt_read_headers`: the headers that are valid, or `none` if a sector cannot be
read. -/
def gptReadHeaders (crc : List Byte → BitVec 32) (env : Env) :
    GptM (Option (Option GuidPartitionTableHeader × Option GuidPartitionTableHeader)) := do
  let dev := env.dev
  let store ← getStore
  match pttReadSector dev store 0 with
  | none => return none
  | some mbr =>
      let bootable : Bool := ((legacyMBRCodec.decode mbr).partitionRecord.get 0).bootIndicator = 0x80
      modifySpecific fun specific => { specific with pmbrBoot := bootable || specific.pmbrBoot }
      match pttReadSector dev store 1 with
      | none => return none
      | some s1 =>
          let primary := readPrimary crc dev store s1
          let alternateLBA := alternateOf dev primary
          modifySpecific fun specific => { specific with alternateLBA := alternateLBA }
          match pttReadSector dev store alternateLBA with
          | none => return none
          | some sBak =>
              let bak := pthNewFromRaw sBak
              return some (primary,
                if headerIsValid crc dev store bak alternateLBA then some bak else none)

/-- The first record of a protective table is marked as bootable. -/
def isBootableMbr (mbr : List Byte) : Bool :=
  ((legacyMBRCodec.decode mbr).partitionRecord.get 0).bootIndicator = 0x80

/-- Which of the headers `gpt_read` goes on with, and whether the table has to be written
back. -/
def chooseHeader (env : Env) : Option GuidPartitionTableHeader → Option GuidPartitionTableHeader →
    GptM (Option (GuidPartitionTableHeader × Bool))
  | some primary, some _ => do
      -- the backup must be at the end of the disk, or at what the primary thinks is the end
      let alternateLBA := primary.alternateLBA.toInt
      modifySpecific fun specific => { specific with alternateLBA := alternateLBA }
      if alternateLBA ≠ env.dev.length - 1 ∧ alternateLBA ≠ hdrDiskEnd env.dev primary then
        if (← gptThrow env .error [.fix, .ignore] ("The backup GPT table is not at the end of the "
            ++ "disk, as it should be.  Fix, by moving the backup to the end (and removing the old "
            ++ "backup)?")) = .fix then
          let _ ← pttClearSectors env.dev alternateLBA 1
          modifySpecific fun specific => { specific with alternateLBA := env.dev.length - 1 }
          return some (primary, true)
      return some (primary, false)
  | none, none => do
      let _ ← gptThrow env .error [.cancel] ("Both the primary and backup GPT tables are corrupt.  "
        ++ "Try making a fresh table, and using Parted's rescue feature to recover partitions.")
      return none
  | some primary, none => do
      if (← gptThrow env .error [.ok, .cancel] ("The backup GPT table is corrupt, but the primary "
          ++ "appears OK, so that will be used.")) = .cancel then
        return none
      return some (primary, false)
  | none, some backup => do
      if (← gptThrow env .error [.ok, .cancel] ("The primary GPT table is corrupt, but the backup "
          ++ "appears OK, so that will be used.")) = .cancel then
        return none
      return some (backup, false)

/-- `_parse_header` up to the question about a volume that has grown; `false` is its
failure return. -/
def acceptHeader (env : Env) (gpt : GuidPartitionTableHeader) : GptM Bool := do
  if gpt.revision > gptHeaderRevisionV102 then
    if (← gptThrow env .warning [.ignore, .cancel] ("The format of the GPT partition table is "
        ++ "version " ++ String.ofList (Nat.toDigits 16 gpt.revision.toNat) ++ ", which is newer "
        ++ "than what Parted can recognise.  Please report this!")) ≠ .ignore then
      return false
  let firstUsable := gpt.firstUsableLBA.toInt
  let lastUsable := gpt.lastUsableLBA.toInt
  let lastUsableIfGrown := env.dev.length - 2 - ptesSectors env.dev gpt
  if lastUsable ≤ firstUsable ∨ env.dev.length < lastUsable then
    return false
  if lastUsableIfGrown ≤ firstUsable ∨ env.dev.length < lastUsableIfGrown then
    return false
  return true

/-- The question about a volume that has grown: returns the end of the usable area, and
whether the table has to be written back. -/
def growVolume (env : Env) (gpt : GuidPartitionTableHeader) (updateNeeded : Bool) :
    GptM (ℤ × Bool) := do
  let lastUsable := gpt.lastUsableLBA.toInt
  let lastUsableIfGrown := env.dev.length - 2 - ptesSectors env.dev gpt
  if lastUsable < lastUsableIfGrown then
    if (← gptThrow env .warning [.fix, .ignore] ("Not all of the space available to "
        ++ env.dev.path ++ " appears to be used, you can fix the GPT to use all of the space (an "
        ++ "extra " ++ toString (lastUsableIfGrown - lastUsable)
        ++ " blocks) or continue with the current setting? ")) = .fix then
      -- clear the old backup gpt header
      let disk ← inMemory getDisk
      let _ ← pttClearSectors env.dev disk.diskSpecific.alternateLBA 1
      modifySpecific fun specific => { specific with alternateLBA := env.dev.length - 1 }
      return (lastUsableIfGrown, true)
  return (lastUsable, updateNeeded)

/-- `_parse_header`: whether the table has to be written back, or `none` for its failure
return. -/
def parseHeader (env : Env) (gpt : GuidPartitionTableHeader) (updateNeeded : Bool) :
    GptM (Option Bool) := do
  if !(← acceptHeader env gpt) then
    return none
  let firstUsable := gpt.firstUsableLBA.toInt
  let (lastUsable, updateNeeded) ← growVolume env gpt updateNeeded
  match ← inMemory (ask (pedGeometryInit env firstUsable (lastUsable - firstUsable + 1))) with
  | none => pure ()
  | some dataArea => modifySpecific fun specific => { specific with dataArea := dataArea }
  let entryCount := gpt.numberOfPartitionEntries.toInt
  liftM (pedAssert (entryCount > 0) "gpt_disk_data->entry_count > 0")
  liftM (pedAssert (entryCount ≤ 8192) "gpt_disk_data->entry_count <= 8192")
  modifySpecific fun specific =>
    { specific with entryCount := entryCount.toNat, uuid := gpt.diskGUID }
  return some updateNeeded

/-- `_parse_part_entry`.  The length of the partition is a signed number of 64 bits. -/
def parsePartEntry (env : Env) (disk : GptDisk) (pte : GuidPartitionEntry) :
    Ask (Option GptPartition) := do
  let start := pte.startingLBA.toInt
  let «end» := pte.endingLBA.toInt
  if «end» - start + 1 ≥ 2 ^ 63 then
    throw (.undefined "signed overflow")
  pedPartitionNew gptOps env disk.freshId .normal
    ⟨pte.partitionTypeGuid, pte.uniquePartitionGuid, pte.partitionName, pte.attributes⟩ start «end»

/-- Where the loop of `gpt_read` looks for entry `i`: again a product in 32 bits. -/
def entryOffset (pEntSize : BitVec 32) (i : ℕ) : ℕ := (BitVec.ofNat 32 i * pEntSize).toNat

/-- One turn of the loop of `gpt_read`; `false` means that the reading fails. -/
def readGptEntry (env : Env) (ptes : List Byte) (pEntSize : BitVec 32) (i : ℕ) :
    DiskM GPTPartitionData GPTDiskData Bool := do
  let offset := entryOffset pEntSize i
  if ptes.length < offset + sizeofEntry then
    throw (.undefined "read behind the end of ptes")
  let pte := guidPartitionEntryCodec.decode (ptes.drop offset)
  if pte.partitionTypeGuid = unusedEntryGuid then
    return true
  match ← ask (parsePartEntry env (← getDisk) pte) with
  | none => return false
  | some part =>
      let constraintExact ← pedConstraintExact env.dev part.geom
      let (ok, _) ← pedDiskAddPartition gptDiskType env { part with num := i + 1 }
        (some constraintExact)
      return ok

/-- The loop of `gpt_read`. -/
def readGptEntries (env : Env) (ptes : List Byte) (pEntSize : BitVec 32) :
    List ℕ → DiskM GPTPartitionData GPTDiskData Bool
  | [] => return true
  | i :: rest => do
      if ← readGptEntry env ptes pEntSize i then readGptEntries env ptes pEntSize rest
      else return false

/-- `gpt_read` once the header has been parsed. -/
def readPartitions (crc : List Byte → BitVec 32) (env : Env) (gpt : GuidPartitionTableHeader)
    (writeBack : Bool) : GptM Bool := do
  match gptReadPEArray env.dev (← getStore) gpt with
  | none => return false
  | some ptes =>
      if crc (ptes.take (ptesBytes gpt)) ≠ gpt.partitionEntryArrayCRC32 then
        let _ ← gptThrow env .error [.cancel] "primary partition table array CRC mismatch"
        return false
      let disk ← inMemory getDisk
      if ← inMemory (readGptEntries env ptes gpt.sizeOfPartitionEntry
          (List.range disk.diskSpecific.entryCount)) then
        if writeBack then
          let _ ← pedDiskCommitToDev crc env
        return true
      else
        let _ ← inMemory (pedDiskDeleteAll gptDiskType env)
        return false

/-- `gpt_read` up to the end of `_parse_header`: the header it goes on with, and whether
the table has to be written back. -/
def readHeader (crc : List Byte → BitVec 32) (env : Env) :
    GptM (Option (GuidPartitionTableHeader × Bool)) := do
  match ← gptReadHeaders crc env with
  | none => return none
  | some (primary, backup) =>
      match ← chooseHeader env primary backup with
      | none => return none
      | some (gpt, writeBack) =>
          match ← parseHeader env gpt writeBack with
          | none => return none
          | some writeBack => return some (gpt, writeBack)

/-- `gpt_read`. -/
def gptRead (crc : List Byte → BitVec 32) (env : Env) : GptM Bool := do
  let _ ← inMemory (pedDiskDeleteAll gptDiskType env)
  if !gptProbe env.dev (← getStore) then
    return false
  match ← readHeader crc env with
  | none => return false
  | some (gpt, writeBack) => readPartitions crc env gpt writeBack

end Libparted
