import Libparted.Disk.Core
import Libparted.Library.Bytes
import Libparted.Library.Circular

/-!
# The journal of an HFS+ volume (`libparted/fs/r/hfs/journal.c`)

The journal of a volume is a circular area of sectors, of which the first one has a
header.  Between two positions in this area, `start` and `end`, are the transactions that
have not been carried out.  A transaction is a chain of block lists.  Each one has a header of
`blhdr_size` bytes, with a table of the blocks that follow it and where they belong.
`hfsj_replay_journal` carries out one transaction after another until `start` is where `end`
is.

Positions, sizes and counts are taken from the disk as they are.  The module has the replay
with the errors it reports, the buffers it reads from, and a record of the sectors of the
journal that it reads.  Memory behind the end of a buffer is not there to be read, which is
a `Fault`, and a loop that does not end is one that runs out of `fuel`.

Sectors have 512 bytes, and memory is always granted.
-/

namespace Libparted.Hfs

open Library

/-- A sector: its first 512 bytes count. -/
abbrev Sector : Type := Store

/-! ## Numbers -/

/-- `HFS_16_TO_CPU`, `HFS_32_TO_CPU` and `HFS_64_TO_CPU` for the number at `pos`, of `n`
bytes. -/
def hfsToCpu (n : ℕ) (isLe : Bool) (buf : Store) (pos : ℕ) : ℕ :=
  leNat (if isLe then readAt buf pos n else (readAt buf pos n).reverse)

/-- `HFS_CPU_TO_32` and `HFS_CPU_TO_64`. -/
def hfsCpuTo (n : ℕ) (isLe : Bool) (x : ℕ) : List Byte :=
  if isLe then leBytes n x else (leBytes n x).reverse

/-- `hfsj_calc_checksum`. -/
def hfsjCalcChecksum (buf : Store) (len : ℕ) : BitVec 32 :=
  ~~~(readAt buf 0 len).foldl (fun cksum b => (cksum <<< 8) ^^^ (cksum + b.setWidth 32)) 0

/-- Sectors that are one buffer. -/
def bufferOf (sectors : List Sector) : Store := fun k =>
  sectors.getD (k / 512) (fun _ => 0) (k % 512)

/-- The buffer with 0 in place of a number of 32 bits at `pos`. -/
def zeroAt (buf : Store) (pos : ℕ) : Store := writeAt buf pos (leBytes 4 0)

/-! ## The volume -/

/-- The volume and the one who answers questions.  `embedded` is `plus_geom` where the volume
is inside an HFS volume, and a different object from `fs->geom`. -/
structure JournaledVolume where
  fsGeom : PedGeometry
  embedded : Option PedGeometry
  fsGeom_lt : fsGeom.end < 2 ^ 63
  embedded_lt : ∀ geom ∈ embedded, geom.end < 2 ^ 63
  path : String
  blockSize : BitVec 32
  journalInfoBlock : BitVec 32
  readable : ℤ → Bool
  writable : ℤ → Bool
  answers : ℕ → PedExceptionOption

/-- `priv_data->plus_geom`. -/
def JournaledVolume.plusGeom (env : JournaledVolume) : PedGeometry := env.embedded.getD env.fsGeom

theorem JournaledVolume.plusGeom_lt (env : JournaledVolume) : env.plusGeom.end < 2 ^ 63 := by
  unfold plusGeom
  cases hgeom : env.embedded with
  | none => exact env.fsGeom_lt
  | some geom => exact env.embedded_lt geom hgeom

/-- The sectors of the device, the variables `is_le` and `hfsj_vh_replayed` and the fields of
`priv_data`, the exceptions raised, and the sectors that have been read from the journal,
each with the length of the journal. -/
structure JournalState where
  disk : ℤ → Sector
  isLe : Bool
  vhReplayed : Bool
  jibStartBlock : ℕ
  jlStartBlock : ℕ
  thrown : List PedException
  journalReads : List (ℤ × ℤ)

/-- Programs on a journaled volume. -/
abbrev JournalM (α : Type) : Type := Prog Fault JournalState α

/-- `ped_exception_throw`. -/
def journalThrow (env : JournaledVolume) (type : PedExceptionType)
    (options : List PedExceptionOption) (message : String) : JournalM PedExceptionOption := do
  let thrown := (← get).thrown
  modify fun s => { s with thrown := thrown ++ [⟨type, options, message⟩] }
  return env.answers thrown.length

/-- An exception that only informs, before a failure return. -/
def journalReport (env : JournaledVolume) (type : PedExceptionType) (message : String) :
    JournalM Unit := do
  let _ ← journalThrow env type [.cancel] message

/-- `ped_geometry_read` for one sector. -/
def journalGeometryRead (env : JournaledVolume) (geom : PedGeometry) (offset : ℤ) :
    JournalM (Option Sector) := do
  liftM (pedAssert (0 ≤ offset) "offset >= 0")
  if geom.start + offset > geom.end then return none
  if !env.readable (geom.start + offset) then return none
  return some ((← get).disk (geom.start + offset))

/-- The sectors of a device after some of them have been written. -/
def writeSectors (disk : ℤ → Sector) (start : ℤ) (block : List Sector) : ℤ → Sector := fun n =>
  if start ≤ n ∧ n < start + block.length then block.getD (n - start).toNat (fun _ => 0)
  else disk n

/-- `ped_geometry_write`. -/
def journalGeometryWrite (env : JournaledVolume) (geom : PedGeometry) (block : List Sector)
    (offset : ℤ) : JournalM Bool := do
  liftM (pedAssert (0 ≤ offset) "offset >= 0")
  let last := geom.start + offset + block.length - 1
  if 2 ^ 63 ≤ last then throw (.undefined "real_start + count - 1")
  if last > geom.end then
    let answer ← journalThrow env .error [.ignore, .cancel]
      ("Attempt to write sectors " ++ toString offset ++ "-"
        ++ toString (offset + block.length - 1) ++ " outside of partition on " ++ env.path ++ ".")
    return answer = .ignore
  if !env.writable (geom.start + offset) then return false
  modify fun s => { s with disk := writeSectors s.disk (geom.start + offset) block }
  return true

/-! ## Transactions -/

/-- `hfsj_journal_read`: the sector behind those read, 0 on error, and what has been read. -/
def hfsjJournalRead (env : JournaledVolume) (journSect journLength : ℤ) :
    ℕ → ℤ → JournalM (ℤ × List Sector)
  | 0, readSect => return (readSect, [])
  | n + 1, readSect => do
    modify fun s => { s with journalReads := s.journalReads ++ [(readSect, journLength)] }
    match ← journalGeometryRead env env.plusGeom (journSect + readSect) with
    | none => return (0, [])
    | some sector =>
      let (last, rest) ← hfsjJournalRead env journSect journLength n
        (if readSect + 1 = journLength then 1 else readSect + 1)
      return (last, sector :: rest)

/-- The bytes from `pos` on are in the buffer. -/
def inBlhdr (blhdr : List Sector) (pos n : ℕ) : Except Fault Unit :=
  if pos + n ≤ 512 * blhdr.length then .ok () else .error (.undefined "blhdr")

/-- `blhdr->num_blocks`. -/
def numBlocks (isLe : Bool) (blhdr : List Sector) : ℕ := hfsToCpu 2 isLe (bufferOf blhdr) 2

/-- The numbers of the blocks of a list, from 1 on. -/
def blockNumbers (isLe : Bool) (blhdr : List Sector) : List ℕ :=
  List.range' 1 (numBlocks isLe blhdr - 1)

/-- `blhdr->binfo[i].bnum`, which is kept as a signed number. -/
def binfoBnum (isLe : Bool) (blhdr : List Sector) (i : ℕ) : ℤ :=
  (BitVec.ofNat 64 (hfsToCpu 8 isLe (bufferOf blhdr) (16 + 16 * i))).toInt

/-- `blhdr->binfo[i].bsize`. -/
def binfoBsize (isLe : Bool) (blhdr : List Sector) (i : ℕ) : ℕ :=
  hfsToCpu 4 isLe (bufferOf blhdr) (16 + 16 * i + 8)

/-- `blhdr->binfo[0].next`. -/
def binfoNext (isLe : Bool) (blhdr : List Sector) : ℕ := hfsToCpu 4 isLe (bufferOf blhdr) 28

/-- The checksum of a block list header is right. -/
def listChecksum (isLe : Bool) (blhdr : List Sector) : Bool :=
  hfsToCpu 4 isLe (bufferOf blhdr) 8 = (hfsjCalcChecksum (zeroAt (bufferOf blhdr) 8) 16).toNat

/-- These sectors have the header of the volume, or of the one it is in. -/
def touchesHeader (env : JournaledVolume) (sector count : ℤ) : Bool :=
  (2 ≥ sector && 2 < sector + count) ||
    (env.embedded.isSome && sector + env.fsGeom.start - env.plusGeom.start ≤ 2 &&
      sector + count + env.fsGeom.start - env.plusGeom.start > 2)

/-- A block is put where it belongs, unless it has been given up. -/
def replayBlock (env : JournaledVolume) (sector : ℤ) (block : List Sector) : JournalM Bool :=
  if sector = -1 then return true
  else do
    let r ← journalGeometryWrite env env.fsGeom block sector
    modify fun s =>
      { s with vhReplayed := s.vhReplayed || touchesHeader env sector block.length }
    return r

/-- The `for` loop over the blocks of a list: where it is in the journal behind them, `none` on
failure. -/
def replayBlocks (env : JournaledVolume) (jsector jlength : ℤ) (blhdr : List Sector) :
    List ℕ → ℤ → JournalM (Option ℤ)
  | [], start => return some start
  | i :: is, start => do
    liftM (inBlhdr blhdr (16 + 16 * i) 16)
    let isLe := (← get).isLe
    let size := binfoBsize isLe blhdr i
    let sector := binfoBnum isLe blhdr i
    if size = 0 then replayBlocks env jsector jlength blhdr is start
    else if size % 512 ≠ 0 then
      journalReport env .error ("Invalid size of a transaction block while replaying the journal ("
        ++ toString (BitVec.ofNat 32 size).toInt ++ " bytes).")
      return none
    else
      let (start, block) ← hfsjJournalRead env jsector jlength (size / 512) start
      if start = 0 then return none
      if ← replayBlock env sector block then replayBlocks env jsector jlength blhdr is start
      else return none

/-- The `do` loop of `hfsj_replay_transaction` over the block lists of a transaction. -/
def replayLists (env : JournaledVolume) (jsector jlength : ℤ) (blhdrNbsect : ℕ) :
    ℕ → ℤ → JournalM (Option ℤ)
  | 0, _ => throw .outOfFuel
  | n + 1, start => do
    let (start, blhdr) ← hfsjJournalRead env jsector jlength blhdrNbsect start
    if start = 0 then return none
    liftM (inBlhdr blhdr 0 16)
    let isLe := (← get).isLe
    if !listChecksum isLe blhdr then
      journalReport env .error "Bad block list header checksum."
      return none
    match ← replayBlocks env jsector jlength blhdr (blockNumbers isLe blhdr) start with
    | none => return none
    | some start =>
      liftM (inBlhdr blhdr 16 16)
      if binfoNext isLe blhdr ≠ 0 then replayLists env jsector jlength blhdrNbsect n start
      else return some start

/-! ## The journal header -/

/-- `jh->start`. -/
def jhStart (isLe : Bool) (jh : Sector) : ℕ := hfsToCpu 8 isLe jh 8

/-- `jh->end`. -/
def jhEnd (isLe : Bool) (jh : Sector) : ℕ := hfsToCpu 8 isLe jh 16

/-- `jh->size`. -/
def jhSize (isLe : Bool) (jh : Sector) : ℕ := hfsToCpu 8 isLe jh 24

/-- `jh->blhdr_size`. -/
def jhBlhdrSize (isLe : Bool) (jh : Sector) : ℕ := hfsToCpu 4 isLe jh 32

/-- `jh->checksum`. -/
def jhChecksum (isLe : Bool) (jh : Sector) : ℕ := hfsToCpu 4 isLe jh 36

/-- `jh->jhdr_size`. -/
def jhJhdrSize (isLe : Bool) (jh : Sector) : ℕ := hfsToCpu 4 isLe jh 40

/-- The header with another start. -/
def setJhStart (isLe : Bool) (jh : Sector) (x : ℕ) : Sector := writeAt jh 8 (hfsCpuTo 8 isLe x)

/-- The header with another end. -/
def setJhEnd (isLe : Bool) (jh : Sector) (x : ℕ) : Sector := writeAt jh 16 (hfsCpuTo 8 isLe x)

/-- The header with its checksum calculated again. -/
def updateJhChecksum (isLe : Bool) (jh : Sector) : Sector :=
  writeAt jh 36 (hfsCpuTo 4 isLe (hfsjCalcChecksum (zeroAt jh 36) 44).toNat)

/-- `hfsj_replay_transaction`: the header with its new start, `none` on failure. -/
def hfsjReplayTransaction (env : JournaledVolume) (fuel : ℕ) (jh : Sector)
    (jsector jlength : ℤ) : JournalM (Option Sector) := do
  let isLe := (← get).isLe
  match ← replayLists env jsector jlength (jhBlhdrSize isLe jh / 512) fuel
      (jhStart isLe jh / 512 : ℕ) with
  | none => return none
  | some start => return some (setJhStart isLe jh (start * 512).toNat)

/-- The `while` loop of `hfsj_replay_journal`. -/
def replayAll (env : JournaledVolume) (fuel : ℕ) (jsector jlength : ℤ) :
    ℕ → Sector → JournalM Bool
  | 0, _ => throw .outOfFuel
  | n + 1, jh => do
    let isLe := (← get).isLe
    if jhStart isLe jh = jhEnd isLe jh then return true
    match ← hfsjReplayTransaction env fuel jh jsector jlength with
    | none => return false
    | some jh =>
      let jh := updateJhChecksum isLe jh
      if ← journalGeometryWrite env env.plusGeom [jh] jsector then
        replayAll env fuel jsector jlength n jh
      else return false

/-- A journal that may have to be replayed. -/
structure OpenJournal where
  jh : Sector
  sector : ℤ
  length : ℤ

/-- `HFSJ_HEADER_MAGIC`. -/
def headerMagic : ℕ := 0x4a4e4c78

/-- `HFSJ_ENDIAN_MAGIC`. -/
def endianMagic : ℕ := 0x12345678

/-- The checks of the journal header, with the exceptions that are raised, in order. -/
def checkHeader (isLe : Bool) (jh : Sector) (length : ℕ) : Option String :=
  if hfsToCpu 4 isLe jh 0 ≠ headerMagic ∨ hfsToCpu 4 isLe jh 4 ≠ endianMagic then
    some "Incorrect magic values in the journal header."
  else if jhSize isLe jh % 512 ≠ 0 ∨ jhSize isLe jh / 512 ≠ length then
    some "Journal size mismatch between journal info block and journal header."
  else if jhStart isLe jh % 512 ≠ 0 ∨ jhEnd isLe jh % 512 ≠ 0 ∨ jhBlhdrSize isLe jh % 512 ≠ 0 ∨
      jhJhdrSize isLe jh % 512 ≠ 0 then
    some "Some header fields are not multiple of the sector size."
  else if jhJhdrSize isLe jh ≠ 512 then
    some ("The sector size stored in the journal is not 512 bytes.  Parted only supports 512 bytes "
      ++ "length sectors.")
  else if jhChecksum isLe jh ≠ (hfsjCalcChecksum (zeroAt jh 36) 44).toNat then
    some "Bad journal checksum."
  else none

/-- The header with pointers to the very end of the journal turned to its start. -/
def wrapPointers (isLe : Bool) (jh : Sector) : Sector :=
  let jh := if jhStart isLe jh = jhSize isLe jh then setJhStart isLe jh 512 else jh
  if jhEnd isLe jh = jhSize isLe jh then setJhEnd isLe jh 512 else jh

/-- The part of `hfsj_replay_journal` that reads the journal info block and the header.  On the
left, what is returned at once. -/
def openJournal (env : JournaledVolume) : JournalM (Bool ⊕ OpenJournal) := do
  let binsect := env.blockSize.toNat / 512
  modify fun s => { s with jibStartBlock := env.journalInfoBlock.toNat }
  match ← journalGeometryRead env env.plusGeom (env.journalInfoBlock.toNat * binsect : ℕ) with
  | none => return .inl false
  | some jib =>
    let flags := hfsToCpu 4 false jib 0
    let inFs := flags.testBit 0 && !flags.testBit 1
    if inFs && binsect = 0 then
      throw (.undefined "jib->offset / (PED_SECTOR_SIZE_DEFAULT * binsect)")
    modify fun s => { s with
      jlStartBlock := if inFs then hfsToCpu 8 s.isLe jib 36 / (512 * binsect) % 2 ^ 32
        else s.jlStartBlock }
    if flags.testBit 2 then return .inl true
    if !inFs then
      journalReport env .noFeature ("Journal stored outside of the volume are not supported.  Try "
        ++ "to deactivate the journal and run Parted again.")
      return .inl false
    let offset := hfsToCpu 8 false jib 36
    let size := hfsToCpu 8 false jib 44
    if offset % 512 ≠ 0 ∨ size % 512 ≠ 0 then
      journalReport env .noFeature "Journal offset or size is not multiple of the sector size."
      return .inl false
    match ← journalGeometryRead env env.plusGeom (offset / 512 : ℕ) with
    | none => return .inl false
    | some jh =>
      modify fun s => { s with isLe := s.isLe || hfsToCpu 4 true jh 4 = endianMagic }
      let isLe := (← get).isLe
      match checkHeader isLe jh (size / 512) with
      | some message =>
        journalReport env .error message
        return .inl false
      | none => return .inr ⟨wrapPointers isLe jh, (offset / 512 : ℕ), (size / 512 : ℕ)⟩

/-- `hfsj_replay_journal`. -/
def hfsjReplayJournal (env : JournaledVolume) (fuel : ℕ) : JournalM Bool := do
  match ← openJournal env with
  | .inl result => return result
  | .inr ⟨jh, sector, length⟩ =>
    let isLe := (← get).isLe
    if jhStart isLe jh = jhEnd isLe jh then return true
    let answer ← journalThrow env .warning [.fix, .cancel]
      ("The journal is not empty.  Parted must replay the transactions before opening the file "
        ++ "system.  This will modify the file system.")
    if answer ≠ .fix then return false
    if !(← replayAll env fuel sector length fuel jh) then return false
    if (← get).vhReplayed then
      let _ ← journalThrow env .warning [.ok]
        ("The volume header or the master directory block has changed while replaying the journal.  "
          ++ "You should restart Parted.")
      return false
    return true

/-! ## Fields -/

section Fields

variable {n m pos p : ℕ} {isLe : Bool} {buf : Store} {bytes : List Byte}

theorem hfsToCpu_lt : hfsToCpu n isLe buf pos < 256 ^ n := by
  unfold hfsToCpu
  refine (leNat_lt _).trans_eq ?_
  split <;> simp

theorem hfsToCpu_writeAt_of_disjoint (h : pos + n ≤ p ∨ p + bytes.length ≤ pos) :
    hfsToCpu n isLe (writeAt buf p bytes) pos = hfsToCpu n isLe buf pos := by
  rw [hfsToCpu, readAt_writeAt_of_disjoint h, hfsToCpu]

@[simp] theorem length_hfsCpuTo (x : ℕ) : (hfsCpuTo n isLe x).length = n := by
  unfold hfsCpuTo
  split <;> simp

/-- A number that fits is read as it was written. -/
theorem hfsToCpu_writeAt_same {x : ℕ} (hx : x < 256 ^ n) :
    hfsToCpu n isLe (writeAt buf pos (hfsCpuTo n isLe x)) pos = x := by
  rw [hfsToCpu, readAt_writeAt_same (length_hfsCpuTo x)]
  have hround : leNat (leBytes n x) = x := by rw [leNat_leBytes, Nat.mod_eq_of_lt hx]
  cases isLe with
  | true => exact hround
  | false =>
    simp only [hfsCpuTo, Bool.false_eq_true, if_false, List.reverse_reverse]
    exact hround

variable {jh : Sector} {x : ℕ}

theorem jhStart_setJhStart (hx : x < 2 ^ 64) : jhStart isLe (setJhStart isLe jh x) = x :=
  hfsToCpu_writeAt_same (hx.trans_eq (by norm_num))

theorem jhEnd_setJhEnd (hx : x < 2 ^ 64) : jhEnd isLe (setJhEnd isLe jh x) = x :=
  hfsToCpu_writeAt_same (hx.trans_eq (by norm_num))

@[simp] theorem jhEnd_setJhStart : jhEnd isLe (setJhStart isLe jh x) = jhEnd isLe jh :=
  hfsToCpu_writeAt_of_disjoint (by simp)

@[simp] theorem jhSize_setJhStart : jhSize isLe (setJhStart isLe jh x) = jhSize isLe jh :=
  hfsToCpu_writeAt_of_disjoint (by simp)

@[simp] theorem jhBlhdrSize_setJhStart :
    jhBlhdrSize isLe (setJhStart isLe jh x) = jhBlhdrSize isLe jh :=
  hfsToCpu_writeAt_of_disjoint (by simp)

@[simp] theorem jhStart_setJhEnd : jhStart isLe (setJhEnd isLe jh x) = jhStart isLe jh :=
  hfsToCpu_writeAt_of_disjoint (by simp)

@[simp] theorem jhBlhdrSize_setJhEnd :
    jhBlhdrSize isLe (setJhEnd isLe jh x) = jhBlhdrSize isLe jh :=
  hfsToCpu_writeAt_of_disjoint (by simp)

@[simp] theorem jhStart_updateJhChecksum :
    jhStart isLe (updateJhChecksum isLe jh) = jhStart isLe jh :=
  hfsToCpu_writeAt_of_disjoint (by simp)

@[simp] theorem jhEnd_updateJhChecksum :
    jhEnd isLe (updateJhChecksum isLe jh) = jhEnd isLe jh :=
  hfsToCpu_writeAt_of_disjoint (by simp)

@[simp] theorem jhBlhdrSize_updateJhChecksum :
    jhBlhdrSize isLe (updateJhChecksum isLe jh) = jhBlhdrSize isLe jh :=
  hfsToCpu_writeAt_of_disjoint (by simp)

theorem jhStart_wrapPointers :
    jhStart isLe (wrapPointers isLe jh)
      = if jhStart isLe jh = jhSize isLe jh then 512 else jhStart isLe jh := by
  unfold wrapPointers
  dsimp only
  split <;> split <;> simp [jhStart_setJhStart]

theorem jhEnd_wrapPointers :
    jhEnd isLe (wrapPointers isLe jh)
      = if jhEnd isLe jh = jhSize isLe jh then 512 else jhEnd isLe jh := by
  have hinner :
      jhEnd isLe (if jhStart isLe jh = jhSize isLe jh then setJhStart isLe jh 512 else jh)
      = jhEnd isLe jh ∧
      jhSize isLe (if jhStart isLe jh = jhSize isLe jh then setJhStart isLe jh 512 else jh)
      = jhSize isLe jh := by
    split <;> simp
  unfold wrapPointers
  dsimp only
  rw [hinner.1, hinner.2]
  split
  · exact jhEnd_setJhEnd (by norm_num)
  · exact hinner.1

@[simp] theorem jhBlhdrSize_wrapPointers :
    jhBlhdrSize isLe (wrapPointers isLe jh) = jhBlhdrSize isLe jh := by
  unfold wrapPointers
  dsimp only
  split <;> split <;> simp

end Fields

/-! ## Sound journals -/

/-- The replay returns, and reads sectors of the journal only. -/
def ReplaySafe (env : JournaledVolume) (s : JournalState) : Prop :=
  ∃ bound, ∀ fuel ≥ bound, ∃ result s', hfsjReplayJournal env fuel s = .ok (result, s') ∧
    ∀ r ∈ s'.journalReads, r ∈ s.journalReads ∨ 0 ≤ r.1 ∧ r.1 < r.2

/-- Where the journal is, as it is written on the disk: its byte order, the sector of the header,
its length, the two positions in it, and the length of the header of a block list. -/
structure JournalArea where
  isLe : Bool
  base : ℤ
  length : ℤ
  start : ℤ
  stop : ℤ
  listSectors : ℕ

/-- The sector of the journal info block. -/
def jibSector (env : JournaledVolume) : ℕ :=
  env.journalInfoBlock.toNat * (env.blockSize.toNat / 512)

/-- The journal of a volume. -/
def journalArea (env : JournaledVolume) (s : JournalState) : JournalArea :=
  let jib := s.disk (env.plusGeom.start + jibSector env)
  let base := env.plusGeom.start + (hfsToCpu 8 false jib 36 / 512 : ℕ)
  let jh := s.disk base
  let isLe := s.isLe || hfsToCpu 4 true jh 4 = endianMagic
  { isLe, base
    length := (hfsToCpu 8 false jib 44 / 512 : ℕ)
    start := (jhStart isLe (wrapPointers isLe jh) / 512 : ℕ)
    stop := (jhEnd isLe (wrapPointers isLe jh) / 512 : ℕ)
    listSectors := jhBlhdrSize isLe jh / 512 }

/-- The header of the block list at a position. -/
def JournalArea.listAt (a : JournalArea) (disk : ℤ → Sector) (p : ℤ) (n : ℕ) : List Sector :=
  (List.range n).map fun k => disk (a.base + advance 1 a.length k p)

/-- The sectors of the blocks of a list. -/
def blocksLength (isLe : Bool) (blhdr : List Sector) (is : List ℕ) : ℕ :=
  (is.map fun i => binfoBsize isLe blhdr i / 512).sum

/-- Sectors of the partition that are not in the journal behind its header. -/
def OutsideJournal (env : JournaledVolume) (a : JournalArea) (sector : ℤ) (count : ℕ) : Prop :=
  0 ≤ sector ∧ env.fsGeom.start + sector + count ≤ 2 ^ 63 ∧
    (env.fsGeom.start + sector + count ≤ a.base + 1 ∨
      a.base + a.length ≤ env.fsGeom.start + sector)

/-- A block list at `p` that can be replayed: its table fits into its header, it does not go
beyond the end of the journal's contents, the transaction ends where these end, the next
block list is in `S`, and no block belongs into the journal. -/
structure SoundList (env : JournaledVolume) (a : JournalArea) (S : Set ℤ) (p : ℤ)
    (blhdr : List Sector) : Prop where
  fits : 16 + 16 * numBlocks a.isLe blhdr ≤ 512 * a.listSectors
  short : ((a.listSectors + blocksLength a.isLe blhdr (blockNumbers a.isLe blhdr) : ℕ) : ℤ)
    ≤ ahead 1 a.length p a.stop
  last : ((a.listSectors + blocksLength a.isLe blhdr (blockNumbers a.isLe blhdr) : ℕ) : ℤ)
    = ahead 1 a.length p a.stop → binfoNext a.isLe blhdr = 0
  closed : advance 1 a.length
    (a.listSectors + blocksLength a.isLe blhdr (blockNumbers a.isLe blhdr)) p ∈ S
  blocks : ∀ i ∈ blockNumbers a.isLe blhdr, binfoBsize a.isLe blhdr i ≠ 0 →
    binfoBnum a.isLe blhdr i = -1 ∨
      OutsideJournal env a (binfoBnum a.isLe blhdr i) (binfoBsize a.isLe blhdr i / 512)

/-- The positions in the header are in the journal, and there is a set of places, with the start
among them, at which there are block lists that can be replayed, or that have a wrong
checksum. -/
structure SoundJournal (env : JournaledVolume) (s : JournalState) : Prop where
  blockSize : 512 ≤ env.blockSize.toNat
  start : 1 ≤ (journalArea env s).start ∧ (journalArea env s).start < (journalArea env s).length
  stop : 1 ≤ (journalArea env s).stop ∧ (journalArea env s).stop < (journalArea env s).length
  listSectors : 1 ≤ (journalArea env s).listSectors
  chain : ∃ S : Set ℤ, (journalArea env s).start ∈ S ∧ ∀ p ∈ S, p ≠ (journalArea env s).stop →
    listChecksum (journalArea env s).isLe
      ((journalArea env s).listAt s.disk p (journalArea env s).listSectors) = true →
    SoundList env (journalArea env s) S p
      ((journalArea env s).listAt s.disk p (journalArea env s).listSectors)

/-! ## Reading and writing -/

/-- The journal behind its header is as it was in `s`, and only sectors of it have been read. -/
structure Replaying (a : JournalArea) (s t : JournalState) : Prop where
  isLe : t.isLe = a.isLe
  disk : ∀ q, 1 ≤ q → q < a.length → t.disk (a.base + q) = s.disk (a.base + q)
  reads : ∀ r ∈ t.journalReads, r ∈ s.journalReads ∨ 0 ≤ r.1 ∧ r.1 < r.2

section Replay

variable {env : JournaledVolume} {a : JournalArea} {s t : JournalState} {jsector p : ℤ} {n : ℕ}

theorem journalThrow_spec {type : PedExceptionType} {options : List PedExceptionOption}
    {message : String} (h : Replaying a s t) :
    Spec (fun _ => False) (journalThrow env type options message) t
      fun _ t' => Replaying a s t' :=
  ⟨h.isLe, h.disk, h.reads⟩

theorem journalReport_spec {type : PedExceptionType} {message : String} (h : Replaying a s t) :
    Spec (fun _ => False) (journalReport env type message) t fun _ t' => Replaying a s t' :=
  ⟨h.isLe, h.disk, h.reads⟩

theorem journalGeometryRead_spec {geom : PedGeometry} {offset : ℤ} (h : 0 ≤ offset) :
    Spec (fun _ => False) (journalGeometryRead env geom offset) t fun r t' => t' = t ∧
      ∀ sector, r = some sector →
        sector = t.disk (geom.start + offset) ∧ geom.start + offset ≤ geom.end := by
  unfold journalGeometryRead
  refine Spec.bind (Spec.lift (fails_pedAssert (by simpa)) fun _ _ => ?_)
  refine Spec.ite (fun _ => ⟨rfl, by simp⟩) fun hend => ?_
  refine Spec.ite (fun _ => ⟨rfl, by simp⟩) fun _ => ?_
  refine ⟨rfl, fun sector hsector => ⟨(Option.some.inj hsector).symm, by omega⟩⟩

/-- Sectors outside of the journal are written, or the write fails. -/
theorem journalGeometryWrite_spec {geom : PedGeometry} {block : List Sector} {offset : ℤ}
    (h : Replaying a s t) (hoffset : 0 ≤ offset)
    (hlast : geom.start + offset + block.length ≤ 2 ^ 63)
    (hout : geom.start + offset + block.length ≤ a.base + 1 ∨
      a.base + a.length ≤ geom.start + offset) :
    Spec (fun _ => False) (journalGeometryWrite env geom block offset) t
      fun _ t' => Replaying a s t' := by
  unfold journalGeometryWrite
  refine Spec.bind (Spec.lift (fails_pedAssert (by simpa)) fun _ _ => ?_)
  refine Spec.ite (fun hbig => ?_) fun _ => ?_
  · omega
  refine Spec.ite (fun _ => (journalThrow_spec h).seq fun _ t' h' => h') fun _ => ?_
  refine Spec.ite (fun _ => h) fun _ => ⟨h.isLe, fun q hq hq' => ?_, h.reads⟩
  rw [← h.disk q hq hq']
  exact if_neg (by omega)

theorem listAt_succ (disk : ℤ → Sector) (p : ℤ) (n : ℕ) :
    a.listAt disk p (n + 1) = disk (a.base + p) :: a.listAt disk (nextPos 1 a.length p) n := by
  rw [JournalArea.listAt, List.range_succ_eq_map, List.map_cons, List.map_map]
  rfl

@[simp] theorem length_listAt (disk : ℤ → Sector) (p : ℤ) (n : ℕ) :
    (a.listAt disk p n).length = n := by
  simp [JournalArea.listAt]

/-- **`hfsj_journal_read`** goes around in the journal. -/
theorem hfsjJournalRead_spec (h : Replaying a s t) (hbase : a.base = env.plusGeom.start + jsector)
    (hjsector : 0 ≤ jsector) (hp : 1 ≤ p ∧ p < a.length) :
    Spec (fun _ => False) (hfsjJournalRead env jsector a.length n p) t fun r t' =>
      Replaying a s t' ∧ (r.1 ≠ 0 → r = (advance 1 a.length n p, a.listAt s.disk p n)) := by
  induction n generalizing p t with
  | zero => exact ⟨h, fun _ => rfl⟩
  | succ n ih =>
    set t₁ : JournalState := { t with journalReads := t.journalReads ++ [(p, a.length)] } with ht₁
    have h₁ : Replaying a s t₁ := by
      refine ⟨h.isLe, h.disk, fun r hr => ?_⟩
      rcases List.mem_append.mp hr with hr | hr
      · exact h.reads r hr
      · rw [List.mem_singleton.mp hr]
        exact Or.inr ⟨by omega, hp.2⟩
    rw [hfsjJournalRead]
    refine Spec.bind (spec_modify.mpr ?_)
    refine (journalGeometryRead_spec (by omega)).seq fun r t' ⟨ht', hr⟩ => ?_
    rw [ht']
    cases r with
    | none => exact ⟨h₁, fun hne => absurd rfl hne⟩
    | some sector =>
      obtain ⟨hsector, -⟩ := hr sector rfl
      refine (ih h₁ (nextPos_mem hp)).seq fun r t' ⟨h', hr⟩ => ⟨h', fun hne => ?_⟩
      rw [hr hne, listAt_succ, hsector, advance, ← h.disk p hp.1 hp.2, hbase, add_assoc]

theorem fails_inBlhdr {E : Fault → Prop} {blhdr : List Sector} {pos n : ℕ}
    (h : pos + n ≤ 512 * blhdr.length) : Fails E (inBlhdr blhdr pos n) := by
  rw [inBlhdr, if_pos h]
  exact fails_ok _

theorem replayBlock_spec {sector : ℤ} {block : List Sector} (h : Replaying a s t)
    (hout : sector = -1 ∨ OutsideJournal env a sector block.length) :
    Spec (fun _ => False) (replayBlock env sector block) t fun _ t' => Replaying a s t' := by
  unfold replayBlock
  refine Spec.ite (fun _ => h) fun hsector => ?_
  obtain ⟨hnonneg, hlast, hout⟩ := hout.resolve_left hsector
  exact (journalGeometryWrite_spec h hnonneg hlast hout).seq fun _ t' h' =>
    ⟨h'.isLe, h'.disk, h'.reads⟩

/-- **The blocks of a list.** -/
theorem replayBlocks_spec {blhdr : List Sector} {is : List ℕ} (h : Replaying a s t)
    (hbase : a.base = env.plusGeom.start + jsector) (hjsector : 0 ≤ jsector)
    (hp : 1 ≤ p ∧ p < a.length) (hfits : ∀ i ∈ is, 16 + 16 * i + 16 ≤ 512 * blhdr.length)
    (hblocks : ∀ i ∈ is, binfoBsize a.isLe blhdr i ≠ 0 → binfoBnum a.isLe blhdr i = -1 ∨
      OutsideJournal env a (binfoBnum a.isLe blhdr i) (binfoBsize a.isLe blhdr i / 512)) :
    Spec (fun _ => False) (replayBlocks env jsector a.length blhdr is p) t fun r t' =>
      Replaying a s t' ∧
        ∀ q, r = some q → q = advance 1 a.length (blocksLength a.isLe blhdr is) p := by
  induction is generalizing p t with
  | nil => exact ⟨h, fun q hq => (Option.some.inj hq).symm⟩
  | cons i is ih =>
    have hrest {t' : JournalState} {q : ℤ} (h' : Replaying a s t') (hq : 1 ≤ q ∧ q < a.length) :=
      ih h' hq (fun j hj => hfits j (List.mem_cons_of_mem i hj))
        fun j hj => hblocks j (List.mem_cons_of_mem i hj)
    have hlength : blocksLength a.isLe blhdr (i :: is)
        = binfoBsize a.isLe blhdr i / 512 + blocksLength a.isLe blhdr is := by
      simp [blocksLength]
    rw [hlength, advance_add, replayBlocks]
    refine Spec.bind (Spec.lift (fails_inBlhdr (hfits i List.mem_cons_self)) fun _ _ => ?_)
    refine Spec.bind (spec_get.mpr ?_)
    rw [h.isLe]
    refine Spec.ite (fun hsize => ?_) fun hsize => Spec.ite (fun _ => ?_) fun _ => ?_
    · rw [hsize]
      exact hrest h hp
    · exact (journalReport_spec h).seq fun _ t' h' => ⟨h', by simp⟩
    · refine (hfsjJournalRead_spec h hbase hjsector hp).seq fun r t₁ ⟨h₁, hr⟩ => ?_
      refine Spec.ite (fun _ => ⟨h₁, by simp⟩) fun hne => ?_
      obtain rfl := hr hne
      have hq := advance_mem (binfoBsize a.isLe blhdr i / 512) hp
      refine (replayBlock_spec h₁ ?_).seq fun done t₂ h₂ => ?_
      · rw [length_listAt]
        exact hblocks i List.mem_cons_self hsize
      · exact Spec.ite (fun _ => hrest h₂ hq) fun _ => ⟨h₂, by simp⟩

/-- **The block lists of a transaction.**  As long as none of them goes beyond the end of the
journal's contents, they come to an end. -/
theorem replayLists_spec {S : Set ℤ} (h : Replaying a s t)
    (hbase : a.base = env.plusGeom.start + jsector) (hjsector : 0 ≤ jsector)
    (hstop : 1 ≤ a.stop ∧ a.stop < a.length) (hlists : 1 ≤ a.listSectors)
    (hchain : ∀ p ∈ S, p ≠ a.stop → listChecksum a.isLe (a.listAt s.disk p a.listSectors) = true →
      SoundList env a S p (a.listAt s.disk p a.listSectors))
    (hp : 1 ≤ p ∧ p < a.length) (hmem : p ∈ S) (hne : p ≠ a.stop)
    (hn : ahead 1 a.length p a.stop < n) :
    Spec (fun _ => False) (replayLists env jsector a.length a.listSectors n p) t fun r t' =>
      Replaying a s t' ∧ ∀ q, r = some q → q ∈ S ∧ (1 ≤ q ∧ q < a.length) ∧
        ahead 1 a.length q a.stop < ahead 1 a.length p a.stop := by
  induction n generalizing p t with
  | zero =>
    have := ahead_nonneg (e := a.stop) hp
    omega
  | succ n ih =>
    rw [replayLists]
    refine (hfsjJournalRead_spec h hbase hjsector hp).seq fun r t₁ ⟨h₁, hr⟩ => ?_
    refine Spec.ite (fun _ => ⟨h₁, by simp⟩) fun hne' => ?_
    obtain rfl := hr hne'
    dsimp only
    set blhdr := a.listAt s.disk p a.listSectors with hblhdr
    have hsize : blhdr.length = a.listSectors := length_listAt ..
    refine Spec.bind (Spec.lift (fails_inBlhdr (by omega)) fun _ _ => ?_)
    refine Spec.bind (spec_get.mpr ?_)
    rw [h₁.isLe]
    refine Spec.ite (fun _ => (journalReport_spec h₁).seq fun _ t' h' => ⟨h', by simp⟩)
      fun hcheck => ?_
    have hsound : SoundList env a S p blhdr := hchain p hmem hne (by simpa using hcheck)
    clear_value blhdr
    have hq := advance_mem a.listSectors hp
    refine (replayBlocks_spec h₁ hbase hjsector hq (fun i hi => ?_) hsound.blocks).seq
      fun r t₂ ⟨h₂, hr⟩ => ?_
    · have := hsound.fits
      rw [blockNumbers, List.mem_range'_1] at hi
      omega
    cases r with
    | none => exact ⟨h₂, by simp⟩
    | some q =>
      obtain rfl := hr q rfl
      rw [← advance_add]
      have hahead := ahead_advance _ hp hsound.short
      have hq' := advance_mem
        (a.listSectors + blocksLength a.isLe blhdr (blockNumbers a.isLe blhdr)) hp
      refine Spec.bind (Spec.lift (fails_inBlhdr (by omega)) fun _ _ => ?_)
      refine Spec.ite (fun hnext => ?_) fun _ => ⟨h₂, fun q hq => ?_⟩
      · -- there is something left of the contents, so this is not where they end
        have hlt := lt_of_le_of_ne hsound.short fun heq => hnext (hsound.last heq)
        have hmore : advance 1 a.length (a.listSectors + blocksLength a.isLe blhdr
            (blockNumbers a.isLe blhdr)) p ≠ a.stop := fun heq => by
          have := (ahead_eq_zero hq' hstop).mpr heq
          omega
        refine (ih h₂ hq' hsound.closed hmore (by omega)).imp fun r t' ⟨h', hr⟩ => ⟨h', ?_⟩
        intro q hq
        obtain ⟨hmem', hq'', hlt'⟩ := hr q hq
        exact ⟨hmem', hq'', by omega⟩
      · obtain rfl := Option.some.inj hq
        exact ⟨hsound.closed, hq', by omega⟩

/-- **The transactions of a journal.** -/
theorem replayAll_spec {S : Set ℤ} {fuel : ℕ} {jh : Sector} (h : Replaying a s t)
    (hbase : a.base = env.plusGeom.start + jsector) (hjsector : 0 ≤ jsector)
    (hend : env.plusGeom.start + jsector ≤ env.plusGeom.end)
    (hstop : 1 ≤ a.stop ∧ a.stop < a.length) (hlists : 1 ≤ a.listSectors)
    (hchain : ∀ p ∈ S, p ≠ a.stop → listChecksum a.isLe (a.listAt s.disk p a.listSectors) = true →
      SoundList env a S p (a.listAt s.disk p a.listSectors))
    (hlength : a.length ≤ 2 ^ 55) (hfuel : a.length ≤ fuel)
    (hp : 1 ≤ p ∧ p < a.length) (hmem : p ∈ S) (hstartAt : (jhStart a.isLe jh : ℤ) = p * 512)
    (hstopAt : (jhEnd a.isLe jh : ℤ) = a.stop * 512)
    (hsize : jhBlhdrSize a.isLe jh / 512 = a.listSectors)
    (hn : ahead 1 a.length p a.stop < n) :
    Spec (fun _ => False) (replayAll env fuel jsector a.length n jh) t
      fun _ t' => Replaying a s t' := by
  induction n generalizing p t jh with
  | zero =>
    have := ahead_nonneg (e := a.stop) hp
    omega
  | succ n ih =>
    rw [replayAll]
    refine Spec.bind (spec_get.mpr ?_)
    rw [h.isLe]
    refine Spec.ite (fun _ => h) fun hne => ?_
    have hne' : p ≠ a.stop := fun heq => hne (by omega)
    have hlt : ahead 1 a.length p a.stop < fuel := by
      have := Int.emod_lt_of_pos (a.stop - p) (show 0 < a.length - 1 by omega)
      unfold ahead
      omega
    have htransaction : Spec (fun _ => False)
        (hfsjReplayTransaction env fuel jh jsector a.length) t fun r t' => Replaying a s t' ∧
          ∀ jh', r = some jh' → ∃ q, jh' = setJhStart a.isLe jh (q * 512).toNat ∧ q ∈ S ∧
            (1 ≤ q ∧ q < a.length) ∧
            ahead 1 a.length q a.stop < ahead 1 a.length p a.stop := by
      have hstart : ((jhStart a.isLe jh / 512 : ℕ) : ℤ) = p := by omega
      rw [hfsjReplayTransaction]
      refine Spec.bind (spec_get.mpr ?_)
      rw [h.isLe]
      dsimp only
      rw [hsize, hstart]
      refine (replayLists_spec h hbase hjsector hstop hlists hchain hp hmem hne' hlt).seq
        fun r t' ⟨h', hr⟩ => ?_
      cases r with
      | none => exact ⟨h', by simp⟩
      | some q => exact ⟨h', fun jh' hjh => ⟨q, (Option.some.inj hjh).symm, hr q rfl⟩⟩
    refine htransaction.seq fun r t₁ ⟨h₁, hr⟩ => ?_
    cases r with
    | none => exact h₁
    | some jh' =>
      obtain ⟨q, rfl, hq, hrange, hless⟩ := hr jh' rfl
      have hplus := env.plusGeom_lt
      refine (journalGeometryWrite_spec h₁ hjsector ?_ ?_).seq fun done t₂ h₂ => ?_
      · simp only [List.length_singleton]
        omega
      · simp only [List.length_singleton]
        omega
      refine Spec.ite (fun _ => ih h₂ hrange hq ?_ ?_ ?_ (by omega)) fun _ => h₂
      · rw [jhStart_updateJhChecksum, jhStart_setJhStart (by omega)]
        omega
      · rwa [jhEnd_updateJhChecksum, jhEnd_setJhStart]
      · rwa [jhBlhdrSize_updateJhChecksum, jhBlhdrSize_setJhStart]

end Replay

/-! ## Opening -/

section Opening

variable {env : JournaledVolume} {s t : JournalState}

/-- What is known of a journal that has passed the checks. -/
structure Opened (env : JournaledVolume) (s t : JournalState) (j : OpenJournal) : Prop where
  replaying : Replaying (journalArea env s) s t
  base : (journalArea env s).base = env.plusGeom.start + j.sector
  sector : 0 ≤ j.sector
  inside : env.plusGeom.start + j.sector ≤ env.plusGeom.end
  length : j.length = (journalArea env s).length
  small : (journalArea env s).length ≤ 2 ^ 55
  start : (jhStart (journalArea env s).isLe j.jh : ℤ) = (journalArea env s).start * 512
  stop : (jhEnd (journalArea env s).isLe j.jh : ℤ) = (journalArea env s).stop * 512
  lists : jhBlhdrSize (journalArea env s).isLe j.jh / 512 = (journalArea env s).listSectors

/-- What the checks of the header say about its positions. -/
theorem checkHeader_pointers {isLe : Bool} {jh : Sector} {length : ℕ}
    (h : checkHeader isLe jh length = none) :
    jhStart isLe jh % 512 = 0 ∧ jhEnd isLe jh % 512 = 0 := by
  unfold checkHeader at h
  split at h
  · cases h
  · split at h
    · cases h
    · split at h
      · cases h
      · rename_i hmultiple
        simp only [not_or, not_not] at hmultiple
        exact ⟨hmultiple.1, hmultiple.2.1⟩

theorem wrapPointers_mod {isLe : Bool} {jh : Sector}
    (h : jhStart isLe jh % 512 = 0 ∧ jhEnd isLe jh % 512 = 0) :
    jhStart isLe (wrapPointers isLe jh) % 512 = 0 ∧
      jhEnd isLe (wrapPointers isLe jh) % 512 = 0 := by
  rw [jhStart_wrapPointers, jhEnd_wrapPointers]
  refine ⟨?_, ?_⟩
  · split
    · rfl
    · exact h.1
  · split
    · rfl
    · exact h.2

seal hfsToCpu in
/-- **The header is read**, and what it says is what is on the disk. -/
theorem openJournal_spec (hblock : 512 ≤ env.blockSize.toNat) :
    Spec (fun _ => False) (openJournal env) s fun r t =>
      t.journalReads = s.journalReads ∧ ∀ j, r = .inr j → Opened env s t j := by
  have hbinsect : env.blockSize.toNat / 512 ≠ 0 := by omega
  unfold openJournal
  refine Spec.bind (spec_modify.mpr ?_)
  refine (journalGeometryRead_spec (by omega)).seq fun jib t ⟨ht, hjib⟩ => ?_
  subst ht
  cases jib with
  | none => exact ⟨rfl, by simp⟩
  | some jib =>
    obtain ⟨hjib, -⟩ := hjib jib rfl
    dsimp only at hjib ⊢
    refine Spec.ite (fun h => absurd h (by simp [hbinsect])) fun _ => ?_
    refine Spec.bind (spec_modify.mpr ?_)
    refine Spec.ite (fun _ => ⟨rfl, by simp⟩) fun _ => ?_
    refine Spec.ite (fun _ => ⟨rfl, by simp⟩) fun _ => ?_
    refine Spec.ite (fun _ => ⟨rfl, by simp⟩) fun _ => ?_
    refine (journalGeometryRead_spec (by omega)).seq fun jh t ⟨ht, hjh⟩ => ?_
    subst ht
    cases jh with
    | none => exact ⟨rfl, by simp⟩
    | some jh =>
      obtain ⟨hjh, hinside⟩ := hjh jh rfl
      dsimp only at hjh ⊢
      refine Spec.bind (spec_modify.mpr (Spec.bind (spec_get.mpr ?_)))
      dsimp only
      cases hcheck : checkHeader (s.isLe || decide (hfsToCpu 4 true jh 4 = endianMagic)) jh
        (hfsToCpu 8 false jib 44 / 512) with
      | some message => exact ⟨rfl, by simp⟩
      | none =>
        refine ⟨rfl, fun j hj => ?_⟩
        obtain rfl := Sum.inr.inj hj
        obtain ⟨hstart, hstop⟩ := wrapPointers_mod (checkHeader_pointers hcheck)
        have hsize : hfsToCpu 8 false jib 44 < 256 ^ 8 := hfsToCpu_lt
        have hdiv {x : ℕ} (hx : x % 512 = 0) : (x : ℤ) = (x / 512 : ℕ) * 512 := by omega
        have hsmall : ((hfsToCpu 8 false jib 44 / 512 : ℕ) : ℤ) ≤ 2 ^ 55 := by omega
        subst hjib hjh
        exact
          { replaying := ⟨rfl, fun _ _ _ => rfl, fun r hr => Or.inl hr⟩
            base := rfl
            sector := Int.natCast_nonneg _
            inside := hinside
            length := rfl
            small := hsmall
            start := hdiv hstart
            stop := hdiv hstop
            lists := congrArg (· / 512) jhBlhdrSize_wrapPointers }

end Opening

/-! ## Journals that are not sound -/

section Fuel

variable {env : JournaledVolume} {jsector jlength : ℤ} {blhdrNbsect fuel n : ℕ}

theorem replayLists_extends (p : ℤ) :
    Extends .outOfFuel (replayLists env jsector jlength blhdrNbsect n p)
      (replayLists env jsector jlength blhdrNbsect (n + 1) p) := by
  induction n generalizing p with
  | zero => exact extends_throw _
  | succ n ih =>
    rw [replayLists, replayLists]
    refine .bind (.refl _) fun r => .ite (.refl _) (.bind (.refl _) fun _ => .bind (.refl _)
      fun s => .ite (.refl _) (.bind (.refl _) fun r => ?_))
    cases r with
    | none => exact .refl _
    | some q => exact .bind (.refl _) fun _ => .ite (ih q) (.refl _)

theorem replayAll_extends (jh : Sector) :
    Extends .outOfFuel (replayAll env fuel jsector jlength n jh)
      (replayAll env (fuel + 1) jsector jlength (n + 1) jh) := by
  induction n generalizing jh with
  | zero => exact extends_throw _
  | succ n ih =>
    rw [replayAll, replayAll]
    refine .bind (.refl _) fun s => .ite (.refl _) (.bind ?_ fun r => ?_)
    · rw [hfsjReplayTransaction, hfsjReplayTransaction]
      exact .bind (.refl _) fun s => .bind (replayLists_extends _) fun r => .refl _
    · cases r with
      | none => exact .refl _
      | some jh => exact .bind (.refl _) fun _ => .ite (ih _) (.refl _)

/-- A fault that is not a lack of fuel shows with any fuel. -/
theorem hfsjReplayJournal_extends :
    Extends .outOfFuel (hfsjReplayJournal env fuel) (hfsjReplayJournal env (fuel + 1)) := by
  unfold hfsjReplayJournal
  refine .bind (.refl _) fun r => ?_
  cases r with
  | inl result => exact .refl _
  | inr j =>
    exact .bind (.refl _) fun s => .ite (.refl _) (.bind (.refl _) fun answer =>
      .ite (.refl _) (.bind (replayAll_extends _) fun done => .refl _))

theorem not_replaySafe (fuel : ℕ) {s : JournalState} {e : Fault} (he : e ≠ .outOfFuel)
    (h : faultOf (hfsjReplayJournal env fuel s) = some e) : ¬ReplaySafe env s := by
  rintro ⟨bound, hsafe⟩
  obtain ⟨result, s', hrun, -⟩ := hsafe (max bound fuel) (le_max_left _ _)
  have herror := eq_error_of_faultOf h
  have hne : hfsjReplayJournal env fuel s ≠ .error .outOfFuel := fun heq =>
    he (Except.error.inj (herror.symm.trans heq))
  have hmore := extends_of_le (x := hfsjReplayJournal env) (fun _ => hfsjReplayJournal_extends)
    (le_max_right bound fuel) s hne
  rw [hmore, herror] at hrun
  cases hrun

end Fuel

/-- A sector with these numbers in it. -/
def sectorOf (fields : List (ℕ × List Byte)) : Sector :=
  fields.foldl (fun s f => writeAt s f.1 f.2) fun _ => 0

/-- The journal is in the four sectors from 10 on. -/
def sampleJib : Sector :=
  sectorOf [(0, (leBytes 4 1).reverse), (36, (leBytes 8 5120).reverse),
    (44, (leBytes 8 2048).reverse)]

/-- A journal header with contents from 512 up to `stop`. -/
def sampleHeader (stop : ℕ) : Sector :=
  updateJhChecksum true (sectorOf [(0, leBytes 4 headerMagic), (4, leBytes 4 endianMagic),
    (8, leBytes 8 512), (16, leBytes 8 stop), (24, leBytes 8 2048), (32, leBytes 4 512),
    (40, leBytes 4 512)])

/-- A block list with `count` blocks, of which the first one is given. -/
def sampleList (count : ℕ) (block : List Byte) : Sector :=
  let list := sectorOf [(2, leBytes 2 count), (32, block)]
  writeAt list 8 (leBytes 4 (hfsjCalcChecksum (zeroAt list 8) 16).toNat)

def sampleVolume : JournaledVolume where
  fsGeom := .fromTo 0 99
  embedded := none
  fsGeom_lt := by decide
  embedded_lt := by simp
  path := "/dev/sda"
  blockSize := 512
  journalInfoBlock := 5
  readable := fun _ => true
  writable := fun _ => true
  answers := fun _ => .fix

/-- A volume with this header and this block list. -/
def sampleJournal (header list : Sector) : JournalState where
  disk := fun n => if n = 5 then sampleJib else if n = 10 then header else if n = 11 then list
    else fun _ => 0
  isLe := false
  vhReplayed := false
  jibStartBlock := 0
  jlStartBlock := 0
  thrown := []
  journalReads := []

/-- A journal with one transaction of one block, which belongs into sector 50. -/
def soundSample : JournalState :=
  sampleJournal (sampleHeader 1536) (sampleList 2 (leBytes 8 50 ++ leBytes 4 512))

theorem soundJournal_sample : SoundJournal sampleVolume soundSample where
  blockSize := by decide
  start := by decide +kernel
  stop := by decide +kernel
  listSectors := by decide +kernel
  chain := by
    have hstart : (journalArea sampleVolume soundSample).start = 1 := by decide +kernel
    have hstop : (journalArea sampleVolume soundSample).stop = 3 := by decide +kernel
    refine ⟨{1, 3}, Or.inl hstart, fun p hp hne _ => ?_⟩
    obtain rfl : p = 1 := by
      rcases hp with rfl | rfl
      · rfl
      · exact absurd hstop.symm hne
    exact
      { fits := by decide +kernel
        short := by decide +kernel
        last := fun _ => by decide +kernel
        closed := Or.inr (show advance _ _ _ _ = 3 by decide +kernel)
        blocks := by
          unfold OutsideJournal
          decide +kernel }

end Libparted.Hfs
