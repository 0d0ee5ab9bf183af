import Libparted.Library.Bytes
import Libparted.Fs.Fat.Aligned

/-!
# The boot sector (`libparted/fs/r/fat/bootsector.c`)

At the end of a resize `fat_boot_sector_generate` writes the layout of the new file system
into its boot sector, from which `fat_boot_sector_analyse` reads it when the file system is
opened again.  Sizes are stored in logical sectors, in fields of one, two or four bytes; the
number of clusters is not stored but computed from what is left of the partition; and the
type is guessed from the numbers.

The sector is a medium of bytes here and its fields are places in it, so that the two views
of the part that depends on the type overlap as they do in the source's `union`.

For a layout that `create_resize_context` has set up, the way there and back is the identity
exactly if `Recoverable` holds of it (`bootSector_roundTrip_iff`).  What is lost is lost in
the divisions: `fat_offset` is moved by the alignment and need not be a multiple of the
logical sector size, and neither need the others.  A FAT16 file system with logical sectors
of more than 512 bytes never comes back, because the number of its root directory sectors is
divided by the logical sector size and not multiplied with it again.
-/

namespace Libparted.Fat

open Library

/-! ## The sector -/

namespace BootSector

def sectorSize : Field := ⟨0x0b, 2⟩
def clusterSize : Field := ⟨0x0d, 1⟩
def reserved : Field := ⟨0x0e, 2⟩
def fats : Field := ⟨0x10, 1⟩
def dirEntries : Field := ⟨0x11, 2⟩
def sectors : Field := ⟨0x13, 2⟩
def media : Field := ⟨0x15, 1⟩
def fatLength : Field := ⟨0x16, 2⟩
def secsTrack : Field := ⟨0x18, 2⟩
def heads : Field := ⟨0x1a, 2⟩
def hidden : Field := ⟨0x1c, 4⟩
def sectorCount : Field := ⟨0x20, 4⟩
def bootSign : Field := ⟨0x1fe, 2⟩

namespace Fat16

def driveNum : Field := ⟨0x24, 1⟩
def extSignature : Field := ⟨0x26, 1⟩
def serialNumber : Field := ⟨0x27, 4⟩
def volumeName : ℕ := 0x2b
def fatName : ℕ := 0x36

end Fat16

namespace Fat32

def fatLength : Field := ⟨0x24, 4⟩
def flags : Field := ⟨0x28, 2⟩
def version : Field := ⟨0x2a, 2⟩
def rootDirCluster : Field := ⟨0x2c, 4⟩
def infoSector : Field := ⟨0x30, 2⟩
def backupSector : Field := ⟨0x32, 2⟩
def empty1 : ℕ := 0x34
def driveNum : Field := ⟨0x40, 2⟩
def extSignature : Field := ⟨0x42, 1⟩
def serialNumber : Field := ⟨0x43, 4⟩
def volumeName : ℕ := 0x47
def fatName : ℕ := 0x52

end Fat32

end BootSector

/-- The layout part of `FatSpecific`. -/
structure FatLayout where
  fatType : FatType
  logicalSectorSize : ℕ
  sectorCount : ℕ
  sectorsPerTrack : ℕ
  heads : ℕ
  clusterSectors : ℕ
  clusterCount : ℕ
  fatTableCount : ℕ
  fatSectors : ℕ
  serialNumber : ℕ
  infoSectorOffset : ℕ
  bootSectorBackupOffset : ℕ
  fatOffset : ℕ
  rootDirOffset : ℕ
  rootDirEntryCount : ℕ
  rootDirSectorCount : ℕ
  rootCluster : ℕ
  clusterOffset : ℕ
deriving DecidableEq

/-- A text of the sector. -/
def textBytes (text : List Char) : List Byte := text.map fun c => BitVec.ofNat 8 c.toNat

/-! ## Writing it -/

/-- The part of `fat_boot_sector_generate` that depends on the type. -/
def generateTyped (fs : FatLayout) (bs : Store) : Store :=
  let size := fs.logicalSectorSize
  if fs.fatType = .fat32 then
    bs |> BootSector.fatLength.put 0
      |> BootSector.Fat32.fatLength.put (fs.fatSectors / size)
      |> BootSector.Fat32.flags.put 0
      |> BootSector.Fat32.version.put 0
      |> BootSector.Fat32.rootDirCluster.put fs.rootCluster
      |> BootSector.Fat32.infoSector.put (fs.infoSectorOffset / size)
      |> BootSector.Fat32.backupSector.put (fs.bootSectorBackupOffset / size)
      |> BootSector.Fat32.driveNum.put 0x80
      |> (writeAt · BootSector.Fat32.empty1 (List.replicate 12 0))
      |> BootSector.Fat32.extSignature.put 0x29
      |> BootSector.Fat32.serialNumber.put fs.serialNumber
      |> (writeAt · BootSector.Fat32.volumeName (textBytes "NO NAME    ".toList))
      |> (writeAt · BootSector.Fat32.fatName (textBytes "FAT32   ".toList))
  else
    bs |> BootSector.fatLength.put (fs.fatSectors / size)
      |> BootSector.Fat16.driveNum.put 0x80
      |> BootSector.Fat16.extSignature.put 0x29
      |> BootSector.Fat16.serialNumber.put fs.serialNumber
      |> (writeAt · BootSector.Fat16.volumeName (textBytes "NO NAME    ".toList))
      |> (writeAt · BootSector.Fat16.fatName (textBytes "FAT16   ".toList))

/-- The number of sectors in one of two fields. -/
def generateSectors (fs : FatLayout) (bs : Store) : Store :=
  let count := fs.sectorCount / fs.logicalSectorSize
  if count > 0xffff ∨ fs.fatType = .fat32 then
    bs |> BootSector.sectors.put 0 |> BootSector.sectorCount.put count
  else bs |> BootSector.sectors.put count |> BootSector.sectorCount.put 0

/-- `fat_boot_sector_generate` in a partition that begins at `start`. -/
def fatBootSectorGenerate (bs : Store) (fs : FatLayout) (start : ℕ) : Store :=
  let size := fs.logicalSectorSize
  bs |> (writeAt · 0x03 (textBytes "MSWIN4.1".toList))
    |> BootSector.sectorSize.put (size * 512)
    |> BootSector.clusterSize.put (fs.clusterSectors / size)
    |> BootSector.reserved.put (fs.fatOffset / size)
    |> BootSector.fats.put fs.fatTableCount
    |> BootSector.dirEntries.put (if fs.fatType = .fat16 then fs.rootDirEntryCount else 0)
    |> generateSectors fs
    |> BootSector.media.put 0xf8
    |> BootSector.secsTrack.put fs.sectorsPerTrack
    |> BootSector.heads.put fs.heads
    |> BootSector.hidden.put start
    |> generateTyped fs
    |> BootSector.bootSign.put 0xaa55

/-! ## Reading it -/

/-- A `PedSector` stored in a `FatCluster`. -/
def toCluster (x : ℤ) : ℕ := (x % 2 ^ 32).toNat

/-- `MAX_FAT12_CLUSTERS`. -/
def maxFat12Clusters : ℕ := 4086

/-- `fat_boot_sector_probe_type` in a partition of that length. -/
def fatBootSectorProbeType (bs : Store) (length : ℤ) : FatType :=
  if BootSector.dirEntries.get bs = 0 then .fat32
  else
    let logicalSectorSize : ℕ := BootSector.sectorSize.get bs / 512
    let firstClusterSector : ℤ := BootSector.reserved.get bs * logicalSectorSize
      + 2 * BootSector.fatLength.get bs * logicalSectorSize
      + (BootSector.dirEntries.get bs / (512 / 32) : ℕ)
    let clusterCount := toCluster
      (((length - firstClusterSector).tdiv (BootSector.clusterSize.get bs)).tdiv logicalSectorSize)
    if clusterCount > maxFat12Clusters then .fat16 else .fat12

/-- What becomes of the complaint that the CHS geometry is invalid: it is replaced by that
of the device, and the sector written back or not; it is left; or the user gives up. -/
inductive ChsAnswer where
  | fix (sectors heads : ℕ) (written : Bool)
  | ignore
  | cancel

/-- The check of the CHS geometry in `fat_boot_sector_analyse`. -/
def analyseChs (bs : Store) (answer : ChsAnswer) : Option (ℕ × ℕ) :=
  let sectors := BootSector.secsTrack.get bs
  let heads := BootSector.heads.get bs
  if sectors < 1 ∨ sectors > 63 ∨ heads < 1 ∨ heads > 255 then
    match answer with
    | .fix sectors heads written => if written then some (sectors, heads) else none
    | .ignore => some (sectors, heads)
    | .cancel => none
  else some (sectors, heads)

/-- `cluster_count`: what fits the partition, but no more than the FAT has entries for. -/
def analyseClusters (fatType : FatType) (sectorCount clusterOffset clusterSectors fatSectors : ℕ) :
    ℕ :=
  let clusterCount := toCluster (((sectorCount : ℤ) - clusterOffset).tdiv clusterSectors)
  let entries : ℤ := (fatSectors * 512 / fatTableEntrySize fatType : ℕ)
  if ((clusterCount + 2) % 2 ^ 32 : ℕ) > entries then toCluster (entries - 2) else clusterCount

/-- The numbers `fat_boot_sector_analyse` reads for a type. -/
def analyseTyped (bs : Store) (fatType : FatType) (chs : ℕ × ℕ) : FatLayout :=
  let size := BootSector.sectorSize.get bs / 512
  let sectorCount :=
    if BootSector.sectors.get bs ≠ 0 then BootSector.sectors.get bs * size
    else BootSector.sectorCount.get bs * size % 2 ^ 32
  let fatOffset := BootSector.reserved.get bs * size
  let clusterSectors := BootSector.clusterSize.get bs * size
  let fatTableCount := BootSector.fats.get bs
  let rootDirEntryCount := BootSector.dirEntries.get bs
  if fatType = .fat32 then
    let fatSectors := BootSector.Fat32.fatLength.get bs * size % 2 ^ 32
    let clusterOffset := fatOffset + fatSectors * fatTableCount
    { fatType, logicalSectorSize := size, sectorCount, sectorsPerTrack := chs.1, heads := chs.2
      clusterSectors
      clusterCount := analyseClusters fatType sectorCount clusterOffset clusterSectors fatSectors
      fatTableCount, fatSectors
      serialNumber := BootSector.Fat32.serialNumber.get bs
      infoSectorOffset := BootSector.Fat32.infoSector.get bs * size
      bootSectorBackupOffset := BootSector.Fat32.backupSector.get bs * size
      fatOffset, rootDirOffset := 0, rootDirEntryCount, rootDirSectorCount := 0
      rootCluster := BootSector.Fat32.rootDirCluster.get bs
      clusterOffset }
  else
    let fatSectors := BootSector.fatLength.get bs * size
    let rootDirOffset := fatOffset + fatSectors * fatTableCount
    let rootDirSectorCount := rootDirEntryCount * 32 / (512 * size)
    let clusterOffset := rootDirOffset + rootDirSectorCount
    { fatType, logicalSectorSize := size, sectorCount, sectorsPerTrack := chs.1, heads := chs.2
      clusterSectors
      clusterCount := analyseClusters fatType sectorCount clusterOffset clusterSectors fatSectors
      fatTableCount, fatSectors
      serialNumber := BootSector.Fat16.serialNumber.get bs
      infoSectorOffset := 0, bootSectorBackupOffset := 0
      fatOffset, rootDirOffset, rootDirEntryCount, rootDirSectorCount
      rootCluster := 0
      clusterOffset }

/-- `fat_boot_sector_analyse` in a partition of that length; `none` if it returns 0.  FAT12 is
not supported. -/
def fatBootSectorAnalyse (bs : Store) (length : ℤ) (answer : ChsAnswer) : Option FatLayout :=
  match analyseChs bs answer with
  | none => none
  | some chs =>
    let size := BootSector.sectorSize.get bs / 512
    if size = 0 then none
    else if BootSector.fats.get bs = 0 then none
    else if BootSector.clusterSize.get bs * size = 0 then none
    else
      match fatBootSectorProbeType bs length with
      | .fat12 => none
      | fatType => some (analyseTyped bs fatType chs)

/-! ## What is read of what was written -/

/-- The fields of a sector that a layout was written to. -/
structure Generated (fs : FatLayout) (bs : Store) : Prop where
  sectorSize : BootSector.sectorSize.get bs = fs.logicalSectorSize * 512 % 2 ^ 16
  clusterSize : BootSector.clusterSize.get bs = fs.clusterSectors / fs.logicalSectorSize % 2 ^ 8
  reserved : BootSector.reserved.get bs = fs.fatOffset / fs.logicalSectorSize % 2 ^ 16
  fats : BootSector.fats.get bs = fs.fatTableCount % 2 ^ 8
  dirEntries : BootSector.dirEntries.get bs
    = (if fs.fatType = .fat16 then fs.rootDirEntryCount else 0) % 2 ^ 16
  sectors : BootSector.sectors.get bs
    = (if fs.sectorCount / fs.logicalSectorSize > 0xffff ∨ fs.fatType = .fat32 then 0
      else fs.sectorCount / fs.logicalSectorSize) % 2 ^ 16
  sectorCount : BootSector.sectorCount.get bs
    = (if fs.sectorCount / fs.logicalSectorSize > 0xffff ∨ fs.fatType = .fat32 then
        fs.sectorCount / fs.logicalSectorSize else 0) % 2 ^ 32
  secsTrack : BootSector.secsTrack.get bs = fs.sectorsPerTrack % 2 ^ 16
  heads : BootSector.heads.get bs = fs.heads % 2 ^ 16
  fatLength : fs.fatType ≠ .fat32 →
    BootSector.fatLength.get bs = fs.fatSectors / fs.logicalSectorSize % 2 ^ 16
  fat32Length : fs.fatType = .fat32 →
    BootSector.Fat32.fatLength.get bs = fs.fatSectors / fs.logicalSectorSize % 2 ^ 32
  rootDirCluster : fs.fatType = .fat32 →
    BootSector.Fat32.rootDirCluster.get bs = fs.rootCluster % 2 ^ 32

section Fields

variable (bs : Store) (fs : FatLayout)

theorem get_generateSectors {f : Field}
    (h : f.pos + f.size ≤ 0x13 ∨ 0x15 ≤ f.pos ∧ f.pos + f.size ≤ 0x20 ∨ 0x24 ≤ f.pos) :
    f.get (generateSectors fs bs) = f.get bs := by
  have hsectors : f.pos + f.size ≤ BootSector.sectors.pos ∨
      BootSector.sectors.pos + BootSector.sectors.size ≤ f.pos := by
    change f.pos + f.size ≤ 0x13 ∨ 0x13 + 2 ≤ f.pos
    omega
  have hcount : f.pos + f.size ≤ BootSector.sectorCount.pos ∨
      BootSector.sectorCount.pos + BootSector.sectorCount.size ≤ f.pos := by
    change f.pos + f.size ≤ 0x20 ∨ 0x20 + 4 ≤ f.pos
    omega
  unfold generateSectors
  dsimp only
  split_ifs <;> rw [Field.get_put_of_disjoint _ hcount, Field.get_put_of_disjoint _ hsectors]

/-- The part that depends on the type is the field `fat_length` and what follows the common
fields. -/
theorem get_generateTyped {f : Field}
    (h : f.pos + f.size ≤ 0x16 ∨ 0x18 ≤ f.pos ∧ f.pos + f.size ≤ 0x24) :
    f.get (generateTyped fs bs) = f.get bs := by
  have happart (p n : ℕ) (hp : p = 0x16 ∧ n = 2 ∨ 0x24 ≤ p) :
      f.pos + f.size ≤ p ∨ p + n ≤ f.pos := by omega
  unfold generateTyped
  split_ifs <;>
  simp (disch := exact happart _ _ (by decide)) only [Field.get_put_of_disjoint,
    Field.get_writeAt_of_disjoint]

theorem generated (start : ℕ) : Generated fs (fatBootSectorGenerate bs fs start) := by
  unfold fatBootSectorGenerate
  dsimp only
  constructor
  case sectors =>
    simp (disch := decide) only [Field.get_put_of_disjoint, get_generateTyped]
    unfold generateSectors
    dsimp only
    split_ifs <;>
      simp (disch := decide) only [Field.get_put_of_disjoint, Field.get_put_self] <;> rfl
  case sectorCount =>
    simp (disch := decide) only [Field.get_put_of_disjoint, get_generateTyped]
    unfold generateSectors
    dsimp only
    split_ifs <;> simp (disch := decide) only [Field.get_put_self] <;> rfl
  case fatLength =>
    intro htype
    simp (disch := decide) only [Field.get_put_of_disjoint]
    rw [generateTyped, if_neg htype]
    simp (disch := decide) only [Field.get_put_of_disjoint, Field.get_writeAt_of_disjoint,
      Field.get_put_self]
    rfl
  case fat32Length =>
    intro htype
    simp (disch := decide) only [Field.get_put_of_disjoint]
    rw [generateTyped, if_pos htype]
    simp (disch := decide) only [Field.get_put_of_disjoint, Field.get_writeAt_of_disjoint,
      Field.get_put_self]
    rfl
  case rootDirCluster =>
    intro htype
    simp (disch := decide) only [Field.get_put_of_disjoint]
    rw [generateTyped, if_pos htype]
    simp (disch := decide) only [Field.get_put_of_disjoint, Field.get_writeAt_of_disjoint,
      Field.get_put_self]
    rfl
  all_goals
    simp (disch := decide) only [Field.get_put_of_disjoint, get_generateSectors, get_generateTyped,
      Field.get_put_self]
    rfl

end Fields

/-- What it takes to read a layout. -/
theorem fatBootSectorAnalyse_eq_some {bs : Store} {length : ℤ} {answer : ChsAnswer}
    {fs : FatLayout} :
    fatBootSectorAnalyse bs length answer = some fs ↔
      ∃ chs, analyseChs bs answer = some chs ∧ BootSector.sectorSize.get bs / 512 ≠ 0 ∧
        BootSector.fats.get bs ≠ 0 ∧
        BootSector.clusterSize.get bs * (BootSector.sectorSize.get bs / 512) ≠ 0 ∧
        fatBootSectorProbeType bs length ≠ .fat12 ∧
        fs = analyseTyped bs (fatBootSectorProbeType bs length) chs := by
  unfold fatBootSectorAnalyse
  cases hchs : analyseChs bs answer with
  | none => simp
  | some chs =>
    dsimp only
    simp only [Option.some.injEq, exists_eq_left']
    split_ifs with hsize hfats hcluster
    · simp [hsize]
    · simp [hfats]
    · simp [hcluster]
    · cases hprobe : fatBootSectorProbeType bs length <;>
        simp [hsize, hfats, hcluster, eq_comm]

/-! ## There and back -/

/-- The part of a layout that has to come back. -/
structure SameLayout (fs fs' : FatLayout) : Prop where
  fatType : fs'.fatType = fs.fatType
  sectorCount : fs'.sectorCount = fs.sectorCount
  fatOffset : fs'.fatOffset = fs.fatOffset
  fatSectors : fs'.fatSectors = fs.fatSectors
  rootDirOffset : fs'.rootDirOffset = fs.rootDirOffset
  rootDirSectorCount : fs'.rootDirSectorCount = fs.rootDirSectorCount
  rootCluster : fs'.rootCluster = fs.rootCluster
  clusterOffset : fs'.clusterOffset = fs.clusterOffset
  clusterSectors : fs'.clusterSectors = fs.clusterSectors
  clusterCount : fs'.clusterCount = fs.clusterCount

/-- The layout comes back from the sector it is written to. -/
def RoundTrips (bs : Store) (fs : FatLayout) (geom : PedGeometry) (answer : ChsAnswer) : Prop :=
  ∃ fs', fatBootSectorAnalyse (fatBootSectorGenerate bs fs geom.start.toNat) geom.length answer
    = some fs' ∧ SameLayout fs fs'

/-- The layouts a resize sets up: offsets as `create_resize_context` adds them up, less than a
cluster to spare, and a FAT for all clusters. -/
structure Settled (fs : FatLayout) (geom : PedGeometry) : Prop where
  type : fs.fatType ≠ .fat12
  size : fs.logicalSectorSize ∈ [1, 2, 4, 8]
  tables : fs.fatTableCount = 2
  sectors : (fs.sectorCount : ℤ) = geom.length
  cluster_pos : 0 < fs.clusterSectors
  root_lt : fs.rootCluster < 2 ^ 32
  clusterOffset : fs.clusterOffset = fs.fatOffset + 2 * fs.fatSectors + fs.rootDirSectorCount
  fat16 : fs.fatType = .fat16 → fs.rootDirOffset = fs.fatOffset + 2 * fs.fatSectors ∧
    fs.rootDirEntryCount = fs.rootDirSectorCount * 16 ∧ 0 < fs.rootDirSectorCount ∧
    fs.rootDirSectorCount < 4096 ∧ maxFat12Clusters < fs.clusterCount
  fat32 : fs.fatType = .fat32 → fs.rootDirOffset = 0 ∧ fs.rootDirSectorCount = 0
  inside : fs.clusterOffset ≤ fs.sectorCount
  less : fs.sectorCount < fs.clusterOffset + fs.clusterCount * fs.clusterSectors + fs.clusterSectors
  entries : fs.clusterCount + 2 ≤ fs.fatSectors * 512 / fatTableEntrySize fs.fatType
  count_lt : fs.clusterCount < 2 ^ 28

/-- The layouts that survive the fields of the sector.  The divisions by the logical sector
size are exact, the quotients fit their fields and the products 32 bits; FAT16 needs logical
sectors of 512 bytes, and a `root_cluster` that nobody has set must happen to be zero; and the
clusters end inside the partition. -/
structure Recoverable (fs : FatLayout) : Prop where
  sectorCount : fs.logicalSectorSize ∣ fs.sectorCount ∧ fs.sectorCount < 2 ^ 32
  fatOffset : fs.logicalSectorSize ∣ fs.fatOffset ∧ fs.fatOffset / fs.logicalSectorSize < 2 ^ 16
  clusterSectors : fs.logicalSectorSize ∣ fs.clusterSectors ∧
    fs.clusterSectors / fs.logicalSectorSize < 2 ^ 8
  fatSectors : fs.logicalSectorSize ∣ fs.fatSectors ∧ fs.fatSectors < 2 ^ 32
  fat16 : fs.fatType = .fat16 → fs.logicalSectorSize = 1 ∧ fs.rootCluster = 0 ∧
    fs.fatSectors < 2 ^ 16
  clusters : fs.clusterOffset + fs.clusterCount * fs.clusterSectors ≤ fs.sectorCount

section Recovery

/-- A number that is stored in units. -/
theorem stored_iff {size x bound : ℕ} (hsize : 0 < size) (hbound : 0 < bound) :
    x / size % bound * size = x ↔ size ∣ x ∧ x / size < bound := by
  constructor
  · intro h
    have hdvd : size ∣ x := ⟨x / size % bound, by rw [mul_comm]; exact h.symm⟩
    refine ⟨hdvd, ?_⟩
    have hdiv : x / size * size = x := Nat.div_mul_cancel hdvd
    have := Nat.eq_of_mul_eq_mul_right hsize (h.trans hdiv.symm)
    rw [← this]
    exact Nat.mod_lt _ hbound
  · rintro ⟨hdvd, hlt⟩
    rw [Nat.mod_eq_of_lt hlt, Nat.div_mul_cancel hdvd]

/-- The same where the product is one of 32 bits. -/
theorem stored_wrapped_iff {size x : ℕ} :
    x / size % 2 ^ 32 * size % 2 ^ 32 = x ↔ size ∣ x ∧ x < 2 ^ 32 := by
  constructor
  · intro h
    have hlt : x < 2 ^ 32 := h ▸ Nat.mod_lt _ (by norm_num)
    have hdiv : x / size < 2 ^ 32 := lt_of_le_of_lt (Nat.div_le_self _ _) hlt
    have hle : x / size * size ≤ x := Nat.div_mul_le_self _ _
    rw [Nat.mod_eq_of_lt hdiv, Nat.mod_eq_of_lt (by omega)] at h
    exact ⟨⟨x / size, by rw [mul_comm]; exact h.symm⟩, hlt⟩
  · rintro ⟨hdvd, hlt⟩
    have hdiv : x / size < 2 ^ 32 := lt_of_le_of_lt (Nat.div_le_self _ _) hlt
    rw [Nat.mod_eq_of_lt hdiv, Nat.div_mul_cancel hdvd, Nat.mod_eq_of_lt hlt]

variable {bs : Store} {fs : FatLayout} {geom : PedGeometry} {answer : ChsAnswer}

/-- How many clusters the partition holds, counted from the offset. -/
theorem Settled.quotient (h : Settled fs geom) :
    ∃ q : ℕ, ((fs.sectorCount : ℤ) - fs.clusterOffset).tdiv fs.clusterSectors = q ∧
      q ≤ fs.clusterCount ∧
      (q = fs.clusterCount ↔
        fs.clusterOffset + fs.clusterCount * fs.clusterSectors ≤ fs.sectorCount) := by
  have hpos := h.cluster_pos
  have hless := h.less
  obtain ⟨rest, hrest⟩ := Nat.exists_eq_add_of_le h.inside
  refine ⟨rest / fs.clusterSectors, ?_, ?_, ?_⟩
  · rw [hrest]
    push_cast
    rw [add_sub_cancel_left]
    rfl
  · rw [← Nat.lt_succ_iff, Nat.div_lt_iff_lt_mul hpos, Nat.succ_mul]
    omega
  · constructor
    · intro heq
      have := Nat.div_mul_le_self rest fs.clusterSectors
      rw [heq] at this
      omega
    · intro hle
      refine Nat.div_eq_of_lt_le (by omega) ?_
      rw [Nat.succ_mul]
      omega

theorem toCluster_natCast {n : ℕ} (h : n < 2 ^ 32) : toCluster n = n := by
  unfold toCluster
  omega

theorem Settled.analyseClusters_eq_iff (h : Settled fs geom) :
    analyseClusters fs.fatType fs.sectorCount fs.clusterOffset fs.clusterSectors fs.fatSectors
      = fs.clusterCount ↔
        fs.clusterOffset + fs.clusterCount * fs.clusterSectors ≤ fs.sectorCount := by
  obtain ⟨q, hq, hle, hiff⟩ := h.quotient
  have hcount := h.count_lt
  have hentries := h.entries
  unfold analyseClusters
  rw [hq, toCluster_natCast (by omega)]
  have hfew : q + 2 ≤ fs.fatSectors * 512 / fatTableEntrySize fs.fatType := by omega
  dsimp only
  rw [Nat.mod_eq_of_lt (by omega), if_neg (not_lt.mpr (by exact_mod_cast hfew))]
  exact hiff

/-- The sizes that come back, whatever the type. -/
theorem Settled.sizes (h : Settled fs geom) (hg : Generated fs bs) :
    BootSector.sectorSize.get bs / 512 = fs.logicalSectorSize ∧ 0 < fs.logicalSectorSize ∧
      BootSector.fats.get bs = 2 := by
  have hsize : fs.logicalSectorSize = 1 ∨ fs.logicalSectorSize = 2 ∨ fs.logicalSectorSize = 4 ∨
      fs.logicalSectorSize = 8 := by simpa using h.size
  refine ⟨?_, by omega, by rw [hg.fats, h.tables]; rfl⟩
  rw [hg.sectorSize]
  omega

/-- The numbers that are read in the same way for both types. -/
theorem analyseTyped_common (bs : Store) (fatType : FatType) (chs : ℕ × ℕ) :
    (analyseTyped bs fatType chs).fatType = fatType ∧
    (analyseTyped bs fatType chs).sectorCount
      = (if BootSector.sectors.get bs ≠ 0 then
          BootSector.sectors.get bs * (BootSector.sectorSize.get bs / 512)
        else BootSector.sectorCount.get bs * (BootSector.sectorSize.get bs / 512) % 2 ^ 32) ∧
    (analyseTyped bs fatType chs).fatOffset
      = BootSector.reserved.get bs * (BootSector.sectorSize.get bs / 512) ∧
    (analyseTyped bs fatType chs).clusterSectors
      = BootSector.clusterSize.get bs * (BootSector.sectorSize.get bs / 512) ∧
    (analyseTyped bs fatType chs).clusterCount
      = analyseClusters fatType (analyseTyped bs fatType chs).sectorCount
        (analyseTyped bs fatType chs).clusterOffset
        (analyseTyped bs fatType chs).clusterSectors (analyseTyped bs fatType chs).fatSectors := by
  unfold analyseTyped
  split_ifs <;> exact ⟨rfl, rfl, rfl, rfl, rfl⟩

/-- The number of sectors comes back if it is a multiple of the logical sector size and one
of 32 bits, from whichever field. -/
theorem Settled.sectorCount_iff (h : Settled fs geom) (hg : Generated fs bs) (fatType : FatType)
    (chs : ℕ × ℕ) :
    (analyseTyped bs fatType chs).sectorCount = fs.sectorCount ↔
      fs.logicalSectorSize ∣ fs.sectorCount ∧ fs.sectorCount < 2 ^ 32 := by
  obtain ⟨hsize, hpos, -⟩ := h.sizes hg
  have hlength := geom.length_pos
  have hsectors := h.sectors
  rw [(analyseTyped_common bs fatType chs).2.1, hsize, hg.sectors, hg.sectorCount]
  by_cases hlong : fs.sectorCount / fs.logicalSectorSize > 0xffff ∨ fs.fatType = .fat32
  · simp only [if_pos hlong]
    exact stored_wrapped_iff
  · simp only [if_neg hlong]
    have hshort : fs.sectorCount / fs.logicalSectorSize < 2 ^ 16 := by
      rw [not_or] at hlong
      omega
    have hlt : fs.sectorCount < 2 ^ 32 := by
      have hup := Nat.lt_mul_div_succ fs.sectorCount hpos
      have hsize8 : fs.logicalSectorSize ≤ 8 := by
        have hmem : fs.logicalSectorSize = 1 ∨ fs.logicalSectorSize = 2 ∨
          fs.logicalSectorSize = 4 ∨ fs.logicalSectorSize = 8 := by simpa using h.size
        omega
      have : fs.logicalSectorSize * (fs.sectorCount / fs.logicalSectorSize + 1) ≤ 8 * 2 ^ 16 :=
        Nat.mul_le_mul hsize8 (by omega)
      omega
    rw [Nat.mod_eq_of_lt hshort]
    split_ifs with hzero
    · rw [← Nat.mod_eq_of_lt hshort, stored_iff hpos (by norm_num)]
      exact ⟨fun hd => ⟨hd.1, hlt⟩, fun hd => ⟨hd.1, hshort⟩⟩
    · rw [ne_eq, not_not] at hzero
      simp only [Nat.zero_mod, Nat.zero_mul]
      constructor
      · intro h0
        omega
      · rintro ⟨hdvd, -⟩
        have := Nat.div_mul_cancel hdvd
        rw [hzero] at this
        omega

/-- FAT32: the type is known from the missing root directory. -/
theorem Settled.roundTrip_fat32 (h : Settled fs geom) (hg : Generated fs bs)
    (htype : fs.fatType = .fat32) (chs : ℕ × ℕ) :
    fatBootSectorProbeType bs geom.length = .fat32 ∧
      (SameLayout fs (analyseTyped bs .fat32 chs) ↔ Recoverable fs) := by
  obtain ⟨hsize, hpos, hfats⟩ := h.sizes hg
  have hdir : BootSector.dirEntries.get bs = 0 := by
    rw [hg.dirEntries, if_neg (by simp [htype])]
    rfl
  have hroot : BootSector.Fat32.rootDirCluster.get bs = fs.rootCluster := by
    rw [hg.rootDirCluster htype, Nat.mod_eq_of_lt h.root_lt]
  obtain ⟨hrootOffset, hrootCount⟩ := h.fat32 htype
  have hsectors := h.sectorCount_iff hg .fat32 chs
  obtain ⟨-, -, hfatOffset, hclusterSectors, hclusterCount⟩ :=
    analyseTyped_common bs .fat32 chs
  rw [hsize, hg.reserved] at hfatOffset
  rw [hsize, hg.clusterSize] at hclusterSectors
  have hfat : (analyseTyped bs .fat32 chs).fatSectors
      = fs.fatSectors / fs.logicalSectorSize % 2 ^ 32 * fs.logicalSectorSize % 2 ^ 32 := by
    rw [← hg.fat32Length htype, ← hsize]
    rfl
  have hoffset : (analyseTyped bs .fat32 chs).clusterOffset
      = (analyseTyped bs .fat32 chs).fatOffset + (analyseTyped bs .fat32 chs).fatSectors * 2 := by
    rw [← hfats]
    rfl
  refine ⟨if_pos hdir, fun hsame => ?_, fun hrec => ?_⟩
  · have hoff := hsame.fatOffset
    have hcluster := hsame.clusterSectors
    have hfats' := hsame.fatSectors
    rw [hfatOffset, stored_iff hpos (by norm_num)] at hoff
    rw [hclusterSectors, stored_iff hpos (by norm_num)] at hcluster
    rw [hfat, stored_wrapped_iff] at hfats'
    refine ⟨hsectors.mp hsame.sectorCount, hoff, hcluster, hfats', fun h16 => ?_, ?_⟩
    · rw [htype] at h16
      cases h16
    · rw [← h.analyseClusters_eq_iff, htype, ← hsame.sectorCount, ← hsame.clusterOffset,
        ← hsame.clusterSectors, ← hsame.fatSectors, ← hclusterCount, hsame.clusterCount]
  · have hsc := hsectors.mpr hrec.sectorCount
    have hoff := hfatOffset.trans ((stored_iff hpos (by norm_num)).mpr hrec.fatOffset)
    have hcluster := hclusterSectors.trans ((stored_iff hpos (by norm_num)).mpr hrec.clusterSectors)
    have hfats' := hfat.trans (stored_wrapped_iff.mpr hrec.fatSectors)
    have hclusterOffset : (analyseTyped bs .fat32 chs).clusterOffset = fs.clusterOffset := by
      rw [hoffset, hoff, hfats', h.clusterOffset, hrootCount]
      ring
    refine ⟨htype.symm, hsc, hoff, hfats', hrootOffset.symm, hrootCount.symm, hroot,
      hclusterOffset, hcluster, ?_⟩
    rw [hclusterCount, hsc, hclusterOffset, hcluster, hfats', ← htype]
    exact h.analyseClusters_eq_iff.mpr hrec.clusters

/-- FAT16: the number of root directory sectors only comes back if it is not divided. -/
theorem Settled.roundTrip_fat16 (h : Settled fs geom) (hg : Generated fs bs)
    (htype : fs.fatType = .fat16) (chs : ℕ × ℕ) :
    SameLayout fs (analyseTyped bs .fat16 chs) ↔ Recoverable fs := by
  obtain ⟨hsize, hpos, hfats⟩ := h.sizes hg
  obtain ⟨hrootOffset, hrootEntries, hrootPos, hrootLt, -⟩ := h.fat16 htype
  have hsectors := h.sectorCount_iff hg .fat16 chs
  obtain ⟨-, -, hfatOffset, hclusterSectors, hclusterCount⟩ :=
    analyseTyped_common bs .fat16 chs
  rw [hsize, hg.reserved] at hfatOffset
  rw [hsize, hg.clusterSize] at hclusterSectors
  have hfat : (analyseTyped bs .fat16 chs).fatSectors
      = fs.fatSectors / fs.logicalSectorSize % 2 ^ 16 * fs.logicalSectorSize := by
    rw [← hg.fatLength (by simp [htype]), ← hsize]
    rfl
  have hroot : (analyseTyped bs .fat16 chs).rootDirSectorCount
      = fs.rootDirSectorCount / fs.logicalSectorSize := by
    have hdir : BootSector.dirEntries.get bs = fs.rootDirSectorCount * 16 := by
      rw [hg.dirEntries, if_pos htype, hrootEntries, Nat.mod_eq_of_lt (by omega)]
    change BootSector.dirEntries.get bs * 32 / (512 * (BootSector.sectorSize.get bs / 512)) = _
    rw [hdir, hsize, mul_assoc, mul_comm 512]
    exact Nat.mul_div_mul_right _ _ (show 0 < 512 by norm_num)
  have hrootOff : (analyseTyped bs .fat16 chs).rootDirOffset
      = (analyseTyped bs .fat16 chs).fatOffset + (analyseTyped bs .fat16 chs).fatSectors * 2 := by
    rw [← hfats]
    rfl
  have hoffset : (analyseTyped bs .fat16 chs).clusterOffset
      = (analyseTyped bs .fat16 chs).rootDirOffset
        + (analyseTyped bs .fat16 chs).rootDirSectorCount := rfl
  constructor
  · intro hsame
    have hone : fs.logicalSectorSize = 1 :=
      (Nat.div_eq_self.mp (hroot.symm.trans hsame.rootDirSectorCount)).resolve_left hrootPos.ne'
    have hoff := hsame.fatOffset
    have hcluster := hsame.clusterSectors
    have hfats' := hsame.fatSectors
    rw [hfatOffset, stored_iff hpos (by norm_num)] at hoff
    rw [hclusterSectors, stored_iff hpos (by norm_num)] at hcluster
    rw [hfat, stored_iff hpos (by norm_num), hone, Nat.div_one] at hfats'
    refine ⟨hsectors.mp hsame.sectorCount, hoff, hcluster, ⟨hone ▸ hfats'.1, by omega⟩,
      fun _ => ⟨hone, hsame.rootCluster.symm, hfats'.2⟩, ?_⟩
    rw [← h.analyseClusters_eq_iff, htype, ← hsame.sectorCount, ← hsame.clusterOffset,
      ← hsame.clusterSectors, ← hsame.fatSectors, ← hclusterCount, hsame.clusterCount]
  · intro hrec
    obtain ⟨hone, hrootCluster, hfatLt⟩ := hrec.fat16 htype
    have hsc := hsectors.mpr hrec.sectorCount
    have hoff := hfatOffset.trans ((stored_iff hpos (by norm_num)).mpr hrec.fatOffset)
    have hcluster := hclusterSectors.trans ((stored_iff hpos (by norm_num)).mpr hrec.clusterSectors)
    have hfats' := hfat.trans ((stored_iff hpos (by norm_num)).mpr
      ⟨hrec.fatSectors.1, by rwa [hone, Nat.div_one]⟩)
    have hroot' : (analyseTyped bs .fat16 chs).rootDirSectorCount = fs.rootDirSectorCount := by
      rw [hroot, hone, Nat.div_one]
    have hrootOff' : (analyseTyped bs .fat16 chs).rootDirOffset = fs.rootDirOffset := by
      rw [hrootOff, hoff, hfats', hrootOffset]
      ring
    have hclusterOffset : (analyseTyped bs .fat16 chs).clusterOffset = fs.clusterOffset := by
      rw [hoffset, hrootOff', hroot', h.clusterOffset, hrootOffset]
    refine ⟨htype.symm, hsc, hoff, hfats', hrootOff', hroot', hrootCluster.symm, hclusterOffset,
      hcluster, ?_⟩
    rw [hclusterCount, hsc, hclusterOffset, hcluster, hfats', ← htype]
    exact h.analyseClusters_eq_iff.mpr hrec.clusters

/-- A layout that comes back is taken for what it is. -/
theorem Settled.probe_fat16 (h : Settled fs geom) (hg : Generated fs bs)
    (htype : fs.fatType = .fat16) (hrec : Recoverable fs) :
    fatBootSectorProbeType bs geom.length = .fat16 := by
  obtain ⟨hsize, hpos, hfats⟩ := h.sizes hg
  obtain ⟨-, hrootEntries, hrootPos, hrootLt, hmany⟩ := h.fat16 htype
  obtain ⟨hone, -, hfatLt⟩ := hrec.fat16 htype
  have hoff := hrec.fatOffset.2
  have hcluster := hrec.clusterSectors.2
  rw [hone, Nat.div_one] at hoff hcluster
  obtain ⟨q, hq, hle, hiff⟩ := h.quotient
  have hcount := h.count_lt
  have hdir : BootSector.dirEntries.get bs = fs.rootDirSectorCount * 16 := by
    rw [hg.dirEntries, if_pos htype, hrootEntries, Nat.mod_eq_of_lt (by omega)]
  unfold fatBootSectorProbeType
  rw [hsize, hone, hg.reserved, hg.fatLength (by simp [htype]), hg.clusterSize, hone, Nat.div_one,
    Nat.div_one, Nat.div_one, Nat.mod_eq_of_lt hoff, Nat.mod_eq_of_lt hcluster,
    Nat.mod_eq_of_lt hfatLt, hdir, if_neg (by omega)]
  have hfirst : (fs.fatOffset : ℤ) * (1 : ℕ) + 2 * fs.fatSectors * (1 : ℕ)
      + (fs.rootDirSectorCount * 16 / (512 / 32) : ℕ) = fs.clusterOffset := by
    rw [h.clusterOffset]
    omega
  dsimp only
  rw [hfirst, ← h.sectors, hq]
  rw [Nat.cast_one, Int.tdiv_one, toCluster_natCast (by omega), hiff.mpr hrec.clusters,
    if_pos hmany]

/-- The CHS geometry is valid, or the complaint about it does not end the analysis. -/
def ChsAccepted (fs : FatLayout) : ChsAnswer → Prop
  | .cancel => 1 ≤ fs.sectorsPerTrack ∧ fs.sectorsPerTrack ≤ 63 ∧ 1 ≤ fs.heads ∧ fs.heads ≤ 255
  | .fix _ _ written => written = true ∨
      1 ≤ fs.sectorsPerTrack ∧ fs.sectorsPerTrack ≤ 63 ∧ 1 ≤ fs.heads ∧ fs.heads ≤ 255
  | .ignore => True

theorem analyseChs_accepted (hg : Generated fs bs) (hchs : ChsAccepted fs answer) :
    ∃ chs, analyseChs bs answer = some chs := by
  unfold analyseChs
  dsimp only
  split_ifs with hbad
  · rw [hg.secsTrack, hg.heads] at hbad
    cases answer with
    | ignore => exact ⟨_, rfl⟩
    | cancel =>
      obtain ⟨h1, h2, h3, h4⟩ := hchs
      omega
    | fix s t written =>
      rcases hchs with rfl | ⟨h1, h2, h3, h4⟩
      · exact ⟨_, rfl⟩
      · omega
  · exact ⟨_, rfl⟩

/-- **There and back.**  A settled layout comes back from its boot sector exactly if it is
recoverable. -/
theorem Settled.roundTrips_iff (h : Settled fs geom) (hchs : ChsAccepted fs answer) (bs : Store) :
    RoundTrips bs fs geom answer ↔ Recoverable fs := by
  have hg := generated bs fs geom.start.toNat
  unfold RoundTrips
  generalize fatBootSectorGenerate bs fs geom.start.toNat = bs' at *
  obtain ⟨chs, hchs⟩ := analyseChs_accepted hg hchs
  obtain ⟨hsize, hpos, hfats⟩ := h.sizes hg
  have hkey : fatBootSectorProbeType bs' geom.length = fs.fatType ∧
      SameLayout fs (analyseTyped bs' fs.fatType chs) ↔ Recoverable fs := by
    cases htype : fs.fatType with
    | fat12 => exact absurd htype h.type
    | fat16 =>
      have hiff := h.roundTrip_fat16 hg htype chs
      exact ⟨fun hsame => hiff.mp hsame.2, fun hrec => ⟨h.probe_fat16 hg htype hrec, hiff.mpr hrec⟩⟩
    | fat32 =>
      obtain ⟨hprobe, hiff⟩ := h.roundTrip_fat32 hg htype chs
      exact ⟨fun hsame => hiff.mp hsame.2, fun hrec => ⟨hprobe, hiff.mpr hrec⟩⟩
  rw [← hkey]
  simp only [fatBootSectorAnalyse_eq_some, hchs, Option.some.injEq, exists_eq_left', hfats]
  constructor
  · rintro ⟨fs', ⟨-, -, -, -, rfl⟩, hsame⟩
    have hprobe := (analyseTyped_common _ _ chs).1.symm.trans hsame.fatType
    exact ⟨hprobe, hprobe ▸ hsame⟩
  · rintro ⟨hprobe, hsame⟩
    rw [hprobe]
    refine ⟨_, ⟨by omega, by norm_num, ?_, h.type, rfl⟩, hsame⟩
    rw [← (analyseTyped_common _ fs.fatType chs).2.2.2.1, hsame.clusterSectors]
    exact h.cluster_pos.ne'

end Recovery

/-! ## The layouts of a resize -/

/-- What a resize starts from: the old file system with the numbers of its boot sector, the new
geometry, and the type that `get_fat_type` has settled on. -/
structure ResizeRequest where
  old : FatSpecific
  logicalSectorSize : ℕ
  sectorsPerTrack : ℕ
  heads : ℕ
  serialNumber : ℕ
  rootDirSectorCount : ℕ
  newGeom : PedGeometry
  newFatType : FatType

/-- The number of root directory sectors if the new file system is FAT16. -/
def ResizeRequest.rootDirSectors (r : ResizeRequest) : ℕ :=
  if r.rootDirSectorCount ≠ 0 then r.rootDirSectorCount else 512 * 32 / 512

/-- What `create_resize_context` knows when it asks for the alignment. -/
def ResizeRequest.newLayout (r : ResizeRequest) (clusterSectors : ℤ) (sizes : FatSizes) :
    NewLayout :=
  { geom := r.newGeom, fatType := r.newFatType, fatSectors := sizes.fatSize
    rootDirSectorCount := r.rootDirSectors, clusterSectors := clusterSectors.toNat
    clusterCount := sizes.clusterCount }

/-- The layout `create_resize_context` sets up, if the calculation of the sizes succeeds.
`root_cluster` is set later, for FAT32 only. -/
def createResizeLayout (r : ResizeRequest) (rootCluster : ℕ) : Option FatLayout :=
  match fatCalcResizeSizes r.newGeom r.old.clusterSectors r.newFatType r.rootDirSectors
      r.old.clusterSectors with
  | none => none
  | some (clusterSectors, sizes) =>
    let align := fatCalcAlignSectors (r.newLayout clusterSectors sizes) r.old
    if r.newFatType = .fat32 then
      let fatOffset := (fatMinReservedSectorCount .fat32 + align).toNat
      some
        { fatType := r.newFatType, logicalSectorSize := r.logicalSectorSize
          sectorCount := r.newGeom.length.toNat, sectorsPerTrack := r.sectorsPerTrack
          heads := r.heads, clusterSectors := clusterSectors.toNat
          clusterCount := sizes.clusterCount, fatTableCount := 2, fatSectors := sizes.fatSize
          serialNumber := r.serialNumber, infoSectorOffset := 1, bootSectorBackupOffset := 6
          fatOffset, rootDirOffset := 0, rootDirEntryCount := 0, rootDirSectorCount := 0
          rootCluster, clusterOffset := fatOffset + 2 * sizes.fatSize }
    else
      let fatOffset := (fatMinReservedSectorCount .fat16 + align).toNat
      let rootDirOffset := fatOffset + 2 * sizes.fatSize
      some
        { fatType := r.newFatType, logicalSectorSize := r.logicalSectorSize
          sectorCount := r.newGeom.length.toNat, sectorsPerTrack := r.sectorsPerTrack
          heads := r.heads, clusterSectors := clusterSectors.toNat
          clusterCount := sizes.clusterCount, fatTableCount := 2, fatSectors := sizes.fatSize
          serialNumber := r.serialNumber, infoSectorOffset := 0, bootSectorBackupOffset := 0
          fatOffset, rootDirOffset, rootDirEntryCount := r.rootDirSectors * 512 / 32
          rootDirSectorCount := r.rootDirSectors
          rootCluster, clusterOffset := rootDirOffset + r.rootDirSectors }

/-- The old file system comes from a boot sector, whose fields bound its numbers. -/
structure ResizeRequest.FromBootSector (r : ResizeRequest) : Prop where
  type : r.newFatType ≠ .fat12
  size : r.logicalSectorSize ∈ [1, 2, 4, 8]
  clusterSectors : r.old.clusterSectors ≤ 255 * 8
  rootDirSectorCount : r.rootDirSectorCount < 4096

section Layouts

theorem fatSpaceFor_le {fatType : FatType} (h : fatType ≠ .fat12) (n : ℕ) :
    fatSpaceFor fatType n ≤ 2 ^ 25 := by
  have hlt := Nat.mod_lt (n + 2) (show 0 < 2 ^ 32 by norm_num)
  unfold fatSpaceFor pedDivRoundUp
  cases fatType with
  | fat12 => exact absurd rfl h
  | fat16 =>
    change (_ + 256 - 1) / 256 ≤ _
    omega
  | fat32 =>
    change (_ + 128 - 1) / 128 ≤ _
    omega

/-- What `calc_sizes` has made sure of. -/
theorem calcSizes_eq_some {size align root c : ℤ} {fatType : FatType} {sizes : FatSizes}
    (h : calcSizes size align fatType root c = some sizes) :
    ∃ n, sizes.clusterCount
        = clustersIn (dataFatSpace size align fatType root - 2 * fatSpaceFor fatType n) c ∧
      sizes.fatSize = max (fatSpaceFor fatType n) (fatSpaceFor fatType sizes.clusterCount) ∧
      fatMinClusterCount fatType ≤ sizes.clusterCount ∧
      sizes.clusterCount ≤ fatMaxClusterCount fatType := by
  unfold calcSizes at h
  dsimp only at h
  rw [Function.iterate_succ_apply', Function.iterate_one] at h
  split_ifs at h with hlimits hfew
  all_goals
    obtain rfl : _ = sizes := Option.some.inj h
    rw [not_or] at hlimits
    refine ⟨_, rfl, ?_, not_lt.mp hlimits.2, not_lt.mp hlimits.1⟩
  · exact (max_eq_right hfew.le).symm
  · exact (max_eq_left (not_lt.mp hfew)).symm

/-- A number of clusters within the limits is no more than the space it was computed from: a
negative quotient would be beyond every limit. -/
theorem clustersIn_le {space c : ℤ} {count : ℕ} (hc : 0 < c) (hspace : -2 ^ 27 ≤ space)
    (hlimits : 0 < count ∧ count < 2 ^ 28) (h : clustersIn space c = count) :
    (count : ℤ) ≤ space := by
  unfold clustersIn at h
  rcases lt_or_ge space 0 with hneg | hpos
  · have hk : space.tdiv c = -((-space).tdiv c) := by rw [Int.neg_tdiv, neg_neg]
    have h0 : 0 ≤ (-space).tdiv c := Int.tdiv_nonneg (by omega) hc.le
    have hle : (-space).tdiv c ≤ -space := Int.tdiv_le_self c (by omega)
    rw [hk] at h
    generalize (-space).tdiv c = k at *
    omega
  · have h0 : 0 ≤ space.tdiv c := Int.tdiv_nonneg hpos hc.le
    have hle : space.tdiv c ≤ space := Int.tdiv_le_self c hpos
    generalize space.tdiv c = k at *
    omega

/-- The sizes leave room for the metadata with both FATs and for the clusters of an old FAT. -/
theorem calcSizes_room {size align root c : ℤ} {fatType : FatType} {sizes : FatSizes}
    (htype : fatType ≠ .fat12) (hc : 0 < c) (hsize : 0 ≤ size)
    (halign : align ≤ 255 * 8) (hroot : root ≤ 4096)
    (h : calcSizes size align fatType root c = some sizes) :
    2 * sizes.fatSize ≤ dataFatSpace size align fatType root ∧
      sizes.clusterCount + 2 ≤ sizes.fatSize * entriesPerSector fatType ∧
      sizes.clusterCount < 2 ^ 28 ∧ (fatType = .fat16 → maxFat12Clusters < sizes.clusterCount) := by
  obtain ⟨n, hcount, hfat, hmin, hmax⟩ := calcSizes_eq_some h
  have hn := fatSpaceFor_le htype n
  have hmax28 : fatMaxClusterCount fatType < 2 ^ 28 := by cases fatType <;> decide
  have hmin16 : maxFat12Clusters < fatMinClusterCount fatType := by
    cases fatType with
    | fat12 => exact absurd rfl htype
    | fat16 => decide
    | fat32 => decide
  have hlow : -2 ^ 13 ≤ dataFatSpace size align fatType root := by
    unfold dataFatSpace fatMinReservedSectorCount
    split_ifs <;> omega
  -- a negative quotient would be a number of clusters beyond every limit
  have hspace : (sizes.clusterCount : ℤ)
      ≤ dataFatSpace size align fatType root - 2 * fatSpaceFor fatType n := by
    refine clustersIn_le hc (by omega) ?_ hcount.symm
    omega
  have hentries := le_fatSpaceFor_mul fatType (show sizes.clusterCount < 2 ^ 31 by omega)
  have hsmall : 2 * fatSpaceFor fatType sizes.clusterCount ≤ sizes.clusterCount := by
    rw [fatSpaceFor_eq fatType (by omega)]
    have hmany : 4086 < sizes.clusterCount := by
      rw [maxFat12Clusters] at hmin16
      omega
    cases fatType with
    | fat12 => exact absurd rfl htype
    | fat16 =>
      change 2 * ((_ + 256) / 256) ≤ _
      omega
    | fat32 =>
      change 2 * ((_ + 128) / 128) ≤ _
      omega
  refine ⟨by omega, ?_, by omega, fun _ => by omega⟩
  rw [mul_comm]
  refine hentries.trans (Nat.mul_le_mul_left _ ?_)
  rw [hfat]
  exact le_max_right _ _

/-- The layouts that `create_resize_context` sets up are settled. -/
theorem createResizeLayout_settled {r : ResizeRequest} (hr : r.FromBootSector) {rootCluster : ℕ}
    (hroot : rootCluster < 2 ^ 32) {fs : FatLayout}
    (h : createResizeLayout r rootCluster = some fs) : Settled fs r.newGeom := by
  have hlength := r.newGeom.length_pos
  have hdirPos : 0 < r.rootDirSectors ∧ r.rootDirSectors < 4096 := by
    have := hr.rootDirSectorCount
    unfold ResizeRequest.rootDirSectors
    split_ifs <;> omega
  unfold createResizeLayout at h
  split at h
  · cases h
  · rename_i c sizes hcalc
    have hmin : 1 ≤ fatMinClusterSize r.newFatType := by cases r.newFatType <;> decide
    obtain ⟨hsizes, hc, hcold⟩ := searchDown_spec (fun x => x ≤ (r.old.clusterSectors : ℤ))
      (fun x hx hle => (Int.tdiv_le_self 2 (by omega)).trans hle) _ le_rfl hcalc
    have hcs : r.old.clusterSectors ≤ 255 * 8 := hr.clusterSectors
    obtain ⟨hroom, hentries, hcount, hmany⟩ := calcSizes_room hr.type (by omega) (by omega)
      (by omega) (by omega) hsizes
    obtain ⟨c, rfl⟩ := Int.eq_ofNat_of_zero_le (show 0 ≤ c by omega)
    obtain ⟨-, h0, hfits, hless⟩ := fatCalcAlignSectors_spec (r.newLayout c sizes) r.old
      (by change 0 < (c : ℤ).toNat; omega)
    dsimp only at h
    generalize fatCalcAlignSectors (r.newLayout c sizes) r.old = align at *
    change (sizes.clusterCount : ℤ) * c + align
      ≤ max (r.newGeom.length - newMetaDataSize (r.newLayout c sizes))
        (sizes.clusterCount * c + c - 1) at hfits
    change r.newGeom.length - newMetaDataSize (r.newLayout c sizes)
      < sizes.clusterCount * c + align + c at hless
    have hclusters : (0 : ℤ) ≤ sizes.clusterCount * c := by positivity
    -- the metadata of either type, and what `calc_sizes` has set aside for them
    have hmeta : newMetaDataSize (r.newLayout c sizes) = fatMinReservedSectorCount r.newFatType
        + sizes.fatSize * 2 + (if r.newFatType = .fat16 then (r.rootDirSectors : ℤ) else 0) := by
      change (if r.newFatType = .fat16 then _ else _) = _
      split_ifs
      · rfl
      · rw [add_zero]
        rfl
    rw [dataFatSpace_eq] at hroom
    rw [Int.toNat_natCast] at h
    have hprod : ((sizes.clusterCount * c : ℕ) : ℤ) = sizes.clusterCount * c := by push_cast; rfl
    split_ifs at h with h32
    · obtain rfl : _ = fs := Option.some.inj h
      have hnot : r.newFatType ≠ .fat16 := by rw [h32]; decide
      have hreserved : fatMinReservedSectorCount .fat32 = 32 := rfl
      rw [if_neg hnot, h32] at hroom hmeta
      refine ⟨hr.type, hr.size, rfl, by dsimp only; omega, by dsimp only; omega, hroot, rfl,
        fun h16 => absurd h16 hnot, fun _ => ⟨rfl, rfl⟩, by dsimp only; omega,
        by dsimp only; omega, ?_, hcount⟩
      rw [h32] at hentries ⊢
      change _ ≤ sizes.fatSize * (512 / 4) at hentries
      change sizes.clusterCount + 2 ≤ sizes.fatSize * 512 / 4
      omega
    · obtain rfl : _ = fs := Option.some.inj h
      have h16 : r.newFatType = .fat16 := by
        have := hr.type
        cases htype : r.newFatType <;> simp_all
      have hreserved : fatMinReservedSectorCount .fat16 = 1 := rfl
      rw [if_pos h16, h16] at hroom hmeta
      refine ⟨hr.type, hr.size, rfl, by dsimp only; omega, by dsimp only; omega, hroot, rfl,
        fun _ => ⟨rfl, by dsimp only; omega, hdirPos.1, hdirPos.2, hmany h16⟩,
        fun h => absurd h h32, by dsimp only; omega, by dsimp only; omega, ?_, hcount⟩
      rw [h16] at hentries ⊢
      change _ ≤ sizes.fatSize * (512 / 2) at hentries
      change sizes.clusterCount + 2 ≤ sizes.fatSize * 512 / 2
      omega

end Layouts

/-- **The boot sector of a resized file system.**  Whatever `create_resize_context` sets up for
a successful calculation of the sizes is read back from the generated sector exactly if it is
recoverable. -/
theorem bootSector_roundTrip_iff (r : ResizeRequest) (hr : r.FromBootSector) (rootCluster : ℕ)
    (hroot : rootCluster < 2 ^ 32) (fs : FatLayout)
    (h : createResizeLayout r rootCluster = some fs) (answer : ChsAnswer)
    (hchs : ChsAccepted fs answer) (bs : Store) :
    RoundTrips bs fs r.newGeom answer ↔ Recoverable fs :=
  (createResizeLayout_settled hr hroot h).roundTrips_iff hchs bs

/-- A FAT16 file system of 34000 clusters of two sectors. -/
def fat16Of34000 : FatSpecific :=
  { geom := .fromTo 0 69999, fatType := .fat16, fatSectors := 130
    clusterOffset := 293, clusterSectors := 2, clusterCount := 34000, fragSectors := 2
    clusterFrags := 1, fragCount := 34000, clusterSectors_pos := by decide, fits := by decide }

/-- It is made larger by 10000 sectors. -/
def enlarge34000 (logicalSectorSize : ℕ) : ResizeRequest :=
  ⟨fat16Of34000, logicalSectorSize, 63, 255, 7, 32, .fromTo 0 79999, .fat16⟩

/-- What is set up for it. -/
def enlarged34000 (logicalSectorSize : ℕ) : FatLayout :=
  { fatType := .fat16, logicalSectorSize, sectorCount := 80000, sectorsPerTrack := 63
    heads := 255, clusterSectors := 2, clusterCount := 39826, fatTableCount := 2
    fatSectors := 156, serialNumber := 7, infoSectorOffset := 0, bootSectorBackupOffset := 0
    fatOffset := 3, rootDirOffset := 315, rootDirEntryCount := 512, rootDirSectorCount := 32
    rootCluster := 0, clusterOffset := 347 }

/-- With logical sectors of 512 bytes it comes back. -/
theorem bootSector_roundTrip_iff_enlarged :
    RoundTrips (fun _ => 0) (enlarged34000 1) ⟨0, 80000, by decide, by decide⟩ .cancel :=
  (bootSector_roundTrip_iff (enlarge34000 1) ⟨by decide, by decide, by decide, by decide⟩ 0
    (by decide) (enlarged34000 1) (by decide +kernel) .cancel
    ⟨by decide, by decide, by decide, by decide⟩ fun _ => 0).mpr
    ⟨by decide, by decide, by decide, by decide, fun _ => ⟨rfl, rfl, by decide⟩, by decide⟩

/-- With logical sectors of 1024 bytes it does not: sixteen root directory sectors are read
instead of 32, and the odd offset of the FAT is lost, too. -/
theorem bootSector_roundTrip_fails :
    (enlarge34000 2).FromBootSector ∧
      createResizeLayout (enlarge34000 2) 0 = some (enlarged34000 2) ∧
      ¬RoundTrips (fun _ => 0) (enlarged34000 2) ⟨0, 80000, by decide, by decide⟩ .cancel := by
  have hr : (enlarge34000 2).FromBootSector := ⟨by decide, by decide, by decide, by decide⟩
  have h : createResizeLayout (enlarge34000 2) 0 = some (enlarged34000 2) := by decide +kernel
  refine ⟨hr, h, fun hround => ?_⟩
  have hchs : ChsAccepted (enlarged34000 2) .cancel :=
    ⟨by decide, by decide, by decide, by decide⟩
  have hrec := ((createResizeLayout_settled hr (by decide) h).roundTrips_iff hchs _).mp hround
  exact absurd (hrec.fat16 rfl).1 (by decide)

end Libparted.Fat
