import Libparted.Labels.Gpt.Image

/-!
# Arbitrary contents

What `gpt_read` does on a device about which nothing is known.

* The buffer for the array of entries is large enough exactly if the product of the
  number of entries and their size is one of 32 bits (`gptReadPEArray_covers`).  The
  tests of `_header_is_valid` and `_parse_header` do not see to that: they admit
  products up to `2 ^ 41`.
* Reading never fails an assertion, and never reports a partition outside of the data
  area, exactly if the contents are `Tame` (`gptRead_safe_iff`).  What makes contents
  untame is an entry whose sectors are not sector numbers, one outside of the usable
  area of its own header, or a number of entries that `_parse_header` asserts away.

For the second result the answers have to be found that bring the program to the bad
entry: `repairAnswers` asks for the repairs wanted and ignores everything else.
-/

namespace Libparted

open Library

/-! ## The buffer -/

section Buffer

variable {dev : PedDevice} {store : Store} {gpt : GuidPartitionTableHeader} {ptes : List Byte}

/-- **The loop stays in the buffer**, and the checksum covers all entries, exactly if the
size of the array is computed without wrap-around. -/
theorem gptReadPEArray_covers (hss : 0 < dev.sectorSize)
    (hsize : entrySizeIsValid gpt.sizeOfPartitionEntry = true)
    (hread : gptReadPEArray dev store gpt = some ptes) :
    ((∀ i < gpt.numberOfPartitionEntries.toNat,
        entryOffset gpt.sizeOfPartitionEntry i + sizeofEntry ≤ ptes.length) ∧
      ptesBytes gpt = gpt.numberOfPartitionEntries.toNat * gpt.sizeOfPartitionEntry.toNat) ↔
    NoWrap gpt := by
  constructor
  · rintro ⟨-, hbytes⟩
    unfold NoWrap
    rw [← hbytes]
    exact (gpt.sizeOfPartitionEntry * gpt.numberOfPartitionEntries).isLt
  · intro hwrap
    exact ⟨entries_inside hss (sizeofEntry_le_of_valid hsize) hwrap
      (length_of_gptReadPEArray hread), ptesBytes_eq hwrap⟩

end Buffer

/-! ## Samples -/

/-- A header for a device of a hundred sectors, with `count` entries of `size` bytes. -/
def sampleHeader (count size : BitVec 32) (alternate : Bool) : GuidPartitionTableHeader where
  signature := gptHeaderSignature
  revision := gptHeaderRevisionV100
  headerSize := 92
  headerCRC32 := 0
  reserved1 := 0
  myLBA := if alternate then 99 else 1
  alternateLBA := if alternate then 1 else 99
  firstUsableLBA := 34
  lastUsableLBA := 66
  diskGUID := 0
  partitionEntryLBA := if alternate then 67 else 2
  numberOfPartitionEntries := count
  sizeOfPartitionEntry := size
  partitionEntryArrayCRC32 := 0
  reserved2 := List.replicate 420 0

theorem length_pthGetRaw_sampleHeader (count size : BitVec 32) (alternate : Bool) :
    (pthGetRaw (sampleHeader count size alternate)).length = 512 := by
  have hsize : headerCodec.size = 92 := rfl
  have hrest : (sampleHeader count size alternate).reserved2 = List.replicate 420 0 := rfl
  rw [pthGetRaw, List.length_append, Codec.length_encode, hsize, hrest, List.length_replicate]

/-- A protective table, both headers, the backup in sector `last`, and the given entries
behind the first. -/
def imageOf (last : ℕ) (primary backup : GuidPartitionTableHeader)
    (entries : List GuidPartitionEntry) : Store :=
  let mbr := writeAt (writeAt (fun _ => 0) 450 [0xee]) 510 [0x55, 0xaa]
  let first := writeAt mbr 512 (pthGetRaw primary)
  let array := writeAt first 1024 (guidPartitionEntryCodec.encodeAll entries)
  writeAt array (last * 512) (pthGetRaw backup)

section Image

variable {crc : List Byte → BitVec 32} {dev : PedDevice} {last : ℕ}
  {primary backup : GuidPartitionTableHeader} {entries : List GuidPartitionEntry}

/-- The first header of an image, if the second comes behind it. -/
theorem headerAt_imageOf_primary (hss : dev.sectorSize = 512) (hdev : 1 < dev.length)
    (hraw : (pthGetRaw primary).length = 512) (hlast : 2 ≤ last) :
    headerAt crc dev (imageOf last primary backup entries) 1
      = if headerIsValid crc dev (imageOf last primary backup entries) primary 1 then some primary
        else none := by
  have hpos : sectorPos dev 1 = 512 := by simp [sectorPos, hss]
  have hsector : readAt (imageOf last primary backup entries) 512 512 = pthGetRaw primary := by
    unfold imageOf
    rw [readAt_writeAt_of_disjoint (Or.inl (by omega)), readAt_writeAt_of_disjoint (Or.inl (by omega))]
    exact readAt_writeAt_same hraw
  rw [headerAt_eq (by omega) hdev, hpos, hss, hsector, pthNewFromRaw_pthGetRaw]

theorem headerAt_imageOf_backup (hss : dev.sectorSize = 512) (hdev : (last : ℤ) < dev.length)
    (hraw : (pthGetRaw backup).length = 512) :
    headerAt crc dev (imageOf last primary backup entries) last
      = if headerIsValid crc dev (imageOf last primary backup entries) backup last then some backup
        else none := by
  have hpos : sectorPos dev last = last * 512 := by simp [sectorPos, hss]
  have hsector : readAt (imageOf last primary backup entries) (last * 512) 512
      = pthGetRaw backup := readAt_writeAt_same hraw
  rw [headerAt_eq (by omega) hdev, hpos, hss, hsector, pthNewFromRaw_pthGetRaw]

end Image

/-- The image of a table with sample headers. -/
def sampleImage (count size : BitVec 32) (entries : List GuidPartitionEntry) : Store :=
  imageOf 99 (sampleHeader count size false) (sampleHeader count size true) entries

/-- A partition of some sectors. -/
def sampleEntry (first last : BitVec 64) : GuidPartitionEntry :=
  ⟨1, 0, first, last, 0, Vector.replicate 36 0⟩

/-- A checksum that is always zero. -/
def zeroSum (_ : List Byte) : BitVec 32 := 0

/-- What `ped_disk_new` does on a device: `ped_disk_new_fresh` and `gpt_read`. -/
def openGpt (crc : List Byte → BitVec 32) (env : Env) (uuid : BitVec 128) (store : Store) :
    Except Fault (Option (Bool × Attached GPTPartitionData GPTDiskData)) := do
  match ← pedDiskNewFresh env uuid [] with
  | (none, _) => return none
  | (some disk, thrown) => return some (← gptRead crc env ⟨⟨disk, thrown⟩, ⟨store, []⟩⟩)

/-- The array of four entries is one sector. -/
theorem gptReadPEArray_covers_four :
    ∃ ptes, gptReadPEArray hundredSectors (sampleImage 4 128 []) (sampleHeader 4 128 false)
        = some ptes ∧
      (∀ i < 4, entryOffset 128 i + sizeofEntry ≤ ptes.length) ∧
      ptesBytes (sampleHeader 4 128 false) = 4 * 128 := by
  have hread : gptReadPEArray hundredSectors (sampleImage 4 128 []) (sampleHeader 4 128 false)
      = some (readAt (sampleImage 4 128 []) 1024 512) := pedDeviceRead_eq (by decide)
  exact ⟨_, hread, (gptReadPEArray_covers (by decide) (by decide) hread).mpr
    (show 4 * 128 < 2 ^ 32 by decide)⟩

/-- A size of `2 ^ 20` bytes and 4096 entries pass all tests, and the buffer is empty. -/
theorem gptRead_leaves_buffer :
    headerIsValid zeroSum hundredSectors (sampleImage 4096 0x100000 [])
        (sampleHeader 4096 0x100000 false) 1 = true ∧
      gptReadPEArray hundredSectors (sampleImage 4096 0x100000 [])
        (sampleHeader 4096 0x100000 false) = some [] ∧
      openGpt zeroSum ⟨hundredSectors, fun _ => .cancel⟩ 0 (sampleImage 4096 0x100000 [])
        = .error (.undefined "read behind the end of ptes") :=
  ⟨by decide +kernel, by decide +kernel, eq_error_of_faultOf (by decide +kernel)⟩

/-! ## The whole reading -/

/-- The partitions lie in the data area. -/
def InsideDataArea (disk : GptDisk) : Prop :=
  ∀ part ∈ disk.core.partList, disk.diskSpecific.dataArea.start ≤ part.lo ∧
    part.hi ≤ disk.diskSpecific.dataArea.end

/-- Whatever the answers are, `gpt_read` on a fresh disk returns, and if it succeeds then
with partitions in the data area only. -/
def ReadsSafely (crc : List Byte → BitVec 32) (dev : PedDevice) (store : Store) : Prop :=
  ∀ answers uuid disk thrown,
    pedDiskNewFresh ⟨dev, answers⟩ uuid [] = .ok (some disk, thrown) →
    ∃ ok a', gptRead crc ⟨dev, answers⟩ ⟨⟨disk, thrown⟩, ⟨store, []⟩⟩ = .ok (ok, a') ∧
      (ok = true → InsideDataArea a'.session.disk)

/-- Contents with which nothing can go wrong. -/
structure Tame (crc : List Byte → BitVec 32) (dev : PedDevice) (store : Store) : Prop where
  harmless : ¬ Harmful crc dev store
  /-- the entries of the array that is read lie in the usable area of the header -/
  inside : gptProbe dev store = true → OnDevice dev (backupLBA crc dev store) 1 →
    ∀ gpt move grow ptes, chosenHeader crc dev store = some gpt → InRange dev gpt →
      (move = true → OffersMove crc dev store) → (grow = true → OffersGrowth dev gpt) →
      gptReadPEArray dev (contentsAfter crc dev store move grow) gpt = some ptes →
      crc (ptes.take (ptesBytes gpt)) = gpt.partitionEntryArrayCRC32 →
      Upright ptes gpt.sizeOfPartitionEntry 0 gpt.numberOfPartitionEntries.toNat →
      ∀ r ∈ usedRecords ptes gpt.sizeOfPartitionEntry 0 gpt.numberOfPartitionEntries.toNat,
        gpt.firstUsableLBA.toInt ≤ r.first ∧ r.last ≤ lastUsableAfter dev gpt grow

section Answers

variable (crc : List Byte → BitVec 32) (dev : PedDevice) (store : Store)
  (gpt : GuidPartitionTableHeader) (move grow : Bool)

open Classical in
/-- The number of questions before the one about a format that is too new. -/
noncomputable def questionsFirst : ℕ := if AsksWhich crc dev store then 1 else 0

/-- The answers that bring about the repairs `move` and `grow`, with everything else
ignored. -/
noncomputable def repairAnswers (n : ℕ) : PedExceptionOption :=
  if n = 0 ∧ move = true then .fix
  else if n = questionsFirst crc dev store + (if TooNew gpt then 1 else 0) ∧ grow = true then .fix
  else .ignore

end Answers

section Safe

variable {crc : List Byte → BitVec 32} {dev : PedDevice} {store : Store}
  {gpt : GuidPartitionTableHeader} {move grow : Bool}

theorem questionsFirst_pos (h : OffersMove crc dev store) : questionsFirst crc dev store = 1 :=
  if_pos (Or.inl h)

theorem eq_questionsFirst {a t : ℕ} (h : (AsksWhich crc dev store → t = a + 1) ∧
    (¬ AsksWhich crc dev store → t = a)) : t = a + questionsFirst crc dev store := by
  unfold questionsFirst
  split
  · exact h.1 ‹_›
  · exact h.2 ‹_›

theorem repairAnswers_ne_cancel (n : ℕ) :
    repairAnswers crc dev store gpt move grow n ≠ .cancel := by
  unfold repairAnswers
  split_ifs <;> simp

/-- The first answer decides about the backup. -/
theorem repairAnswers_first (hmove : move = true → OffersMove crc dev store) :
    (OffersMove crc dev store ∧ repairAnswers crc dev store gpt move grow 0 = .fix) ↔
      move = true := by
  constructor
  · rintro ⟨hoffer, hfix⟩
    have hlater : ¬ ((0 : ℕ) = questionsFirst crc dev store + (if TooNew gpt then 1 else 0) ∧
        grow = true) := by
      rw [questionsFirst_pos hoffer]
      omega
    unfold repairAnswers at hfix
    rw [if_neg hlater] at hfix
    split_ifs at hfix with h
    exact h.2
  · intro h
    exact ⟨hmove h, if_pos ⟨rfl, h⟩⟩

/-- A format that is too new is ignored. -/
theorem repairAnswers_tooNew (hmove : move = true → OffersMove crc dev store) (hnew : TooNew gpt) :
    repairAnswers crc dev store gpt move grow (questionsFirst crc dev store) = .ignore := by
  unfold repairAnswers
  rw [if_pos hnew, if_neg, if_neg]
  · omega
  · rintro ⟨h0, h⟩
    rw [questionsFirst_pos (hmove h)] at h0
    omega

/-- The answer about the space behind the usable area. -/
theorem repairAnswers_grow (hmove : move = true → OffersMove crc dev store)
    (hgrow : grow = true → OffersGrowth dev gpt) :
    (OffersGrowth dev gpt ∧ repairAnswers crc dev store gpt move grow
      (questionsFirst crc dev store + if TooNew gpt then 1 else 0) = .fix) ↔ grow = true := by
  have hfirst : ¬ (questionsFirst crc dev store + (if TooNew gpt then 1 else 0) = 0 ∧
      move = true) := by
    rintro ⟨h0, h⟩
    rw [questionsFirst_pos (hmove h)] at h0
    omega
  unfold repairAnswers
  rw [if_neg hfirst]
  constructor
  · rintro ⟨-, hfix⟩
    by_contra h
    rw [if_neg fun hboth => h hboth.2] at hfix
    exact nomatch hfix
  · intro h
    exact ⟨hgrow h, if_pos ⟨rfl, h⟩⟩

/-- Behind the repairs everything is ignored. -/
theorem repairAnswers_ignores (hmove : move = true → OffersMove crc dev store)
    (hgrow : grow = true → OffersGrowth dev gpt) :
    IgnoresFrom ⟨dev, repairAnswers crc dev store gpt move grow⟩
      (questionsFirst crc dev store + (if TooNew gpt then 1 else 0)
        + if OffersGrowth dev gpt then 1 else 0) := by
  intro n hn
  show repairAnswers crc dev store gpt move grow n = .ignore
  unfold repairAnswers
  rw [if_neg, if_neg]
  · rintro ⟨heq, h⟩
    rw [if_pos (hgrow h)] at hn
    omega
  · rintro ⟨rfl, h⟩
    rw [questionsFirst_pos (hmove h)] at hn
    omega

/-- **With these answers** the program stops, or comes to the partitions with the repairs
made. -/
theorem gptRead_repairs {disk : GptDisk} {answers : ℕ → PedExceptionOption}
    (hanswers : answers = repairAnswers crc dev store gpt move grow) (hopen : Openable dev)
    (hempty : Empty ⟨dev, answers⟩ disk) (hprobe : gptProbe dev store = true)
    (hon : OnDevice dev (backupLBA crc dev store) 1)
    (hheader : chosenHeader crc dev store = some gpt)
    (hmove : move = true → OffersMove crc dev store)
    (hgrow : grow = true → OffersGrowth dev gpt)
    (hgo : InRange dev gpt ∨ move = true ∧ ¬ dev.sectorSize ≤ sizeofZero) :
    (∃ f, gptRead crc ⟨dev, answers⟩ ⟨⟨disk, []⟩, ⟨store, []⟩⟩ = .error f) ∨
    ∃ s₁ a₂, Empty ⟨dev, answers⟩ s₁.disk ∧
      HeaderRead crc ⟨dev, answers⟩ ⟨s₁, ⟨store, []⟩⟩ gpt move grow a₂ ∧
      IgnoresFrom ⟨dev, answers⟩ a₂.session.thrown.length ∧
      gptRead crc ⟨dev, answers⟩ ⟨⟨disk, []⟩, ⟨store, []⟩⟩
        = readPartitions crc ⟨dev, answers⟩ gpt (move || grow) a₂ := by
  have hss : 0 < dev.sectorSize := by have := hopen.sectors; omega
  have hdev : 1 < dev.length := hempty.one_lt hopen
  obtain ⟨ok, s₁, hdelete, ht, hempty₁, -⟩ :=
    (Empty.deleteAll (E := fun _ => False) (s := ⟨disk, []⟩) hss hempty).exists_ok
  have hstart : gptRead crc ⟨dev, answers⟩ ⟨⟨disk, []⟩, ⟨store, []⟩⟩
      = (readHeader crc ⟨dev, answers⟩ >>= fun r => r.elim (pure false)
        fun header => readPartitions crc ⟨dev, answers⟩ header.1 header.2)
        ⟨s₁, ⟨store, []⟩⟩ := by
    have hrun : inMemory (pedDiskDeleteAll gptDiskType ⟨dev, answers⟩) ⟨⟨disk, []⟩, ⟨store, []⟩⟩
        = .ok (ok, ⟨s₁, ⟨store, []⟩⟩) := by
      unfold inMemory
      rw [hdelete]
      rfl
    unfold gptRead
    rw [run_bind_ok hrun]
    refine (run_bind_ok (show getStore (⟨s₁, ⟨store, []⟩⟩ : Attached GPTPartitionData GPTDiskData)
      = .ok (store, ⟨s₁, ⟨store, []⟩⟩) from rfl)).trans ?_
    refine (congrFun (if_neg (by simp [hprobe])) _).trans ?_
    exact congrFun (bind_congr fun r => by cases r <;> rfl) _
  have hspec : Spec _ (readHeader crc ⟨dev, answers⟩) ⟨s₁, ⟨store, []⟩⟩ _ :=
    readHeader_spec hss hdev
  have hzero : s₁.thrown.length = 0 := by rw [ht]; rfl
  cases hrun : readHeader crc ⟨dev, answers⟩ ⟨s₁, ⟨store, []⟩⟩ with
  | error f =>
      refine Or.inl ⟨f, ?_⟩
      rw [hstart]
      exact run_bind_error hrun
  | ok r =>
      obtain ⟨r, a₂⟩ := r
      have hpost := hspec.of_ok hrun
      cases r with
      | none =>
          obtain ⟨hrefused, hsmall⟩ := hpost
          exfalso
          rcases hgo with hrange | ⟨hm, hlarge⟩
          · cases hrefused with
            | off h => exact h hon
            | corrupt h => exact absurd (h.symm.trans hheader) (by simp)
            | cancelled _ h => exact repairAnswers_ne_cancel _ (hanswers ▸ h)
            | range gpt' h hno =>
                cases Option.some.inj (h.symm.trans hheader)
                exact hno hrange
            | tooNew gpt' h hnew t htime hno =>
                cases Option.some.inj (h.symm.trans hheader)
                have htt : t = questionsFirst crc dev store := by
                  have := eq_questionsFirst htime
                  rwa [hzero, Nat.zero_add] at this
                rw [htt] at hno
                exact hno (hanswers ▸ repairAnswers_tooNew hmove hnew)
          · refine hlarge (hsmall hon (hmove hm) ?_)
            rw [hzero]
            exact hanswers ▸ ((repairAnswers_first hmove).mpr hm).2
      | some r =>
          obtain ⟨gpt', writeBack⟩ := r
          obtain ⟨move', grow', t, rfl, hread, hdecided, hasked⟩ := hpost
          cases Option.some.inj (hread.header.symm.trans hheader)
          have htt : t = questionsFirst crc dev store := by
            have := eq_questionsFirst hdecided.first
            rwa [hzero, Nat.zero_add] at this
          have hm : move' = move := by
            have := hdecided.moved
            rw [hzero, hanswers, repairAnswers_first hmove] at this
            exact Bool.eq_iff_iff.mpr this
          have hg : grow' = grow := by
            have := hdecided.grown
            rw [htt, hanswers, repairAnswers_grow hmove hgrow] at this
            exact Bool.eq_iff_iff.mpr this
          subst hm hg
          refine Or.inr ⟨s₁, a₂, hempty₁, hread, ?_, ?_⟩
          · rw [hasked, htt, hanswers]
            exact repairAnswers_ignores hmove hgrow
          · rw [hstart]
            exact run_bind_ok hrun

/-- Safe contents can be read up to the partitions with any repairs that are offered. -/
theorem ReadsSafely.reaches (hsafe : ReadsSafely crc dev store) (move grow : Bool)
    (hopen : Openable dev) (hroom : RoomForGpt dev) (hprobe : gptProbe dev store = true)
    (hon : OnDevice dev (backupLBA crc dev store) 1)
    (hheader : chosenHeader crc dev store = some gpt)
    (hmove : move = true → OffersMove crc dev store)
    (hgrow : grow = true → OffersGrowth dev gpt)
    (hgo : InRange dev gpt ∨ move = true ∧ ¬ dev.sectorSize ≤ sizeofZero) :
    ∃ answers s₁ a₂, Empty ⟨dev, answers⟩ s₁.disk ∧
      HeaderRead crc ⟨dev, answers⟩ ⟨s₁, ⟨store, []⟩⟩ gpt move grow a₂ ∧
      IgnoresFrom ⟨dev, answers⟩ a₂.session.thrown.length ∧
      ∃ ok a', readPartitions crc ⟨dev, answers⟩ gpt (move || grow) a₂ = .ok (ok, a') ∧
        (ok = true → InsideDataArea a'.session.disk) := by
  set answers := repairAnswers crc dev store gpt move grow with hanswers
  obtain ⟨r, t, hfresh, hsome, hall⟩ : ∃ r t, pedDiskNewFresh ⟨dev, answers⟩ 0 [] = .ok (r, t) ∧
      (RoomForGpt dev → r.isSome = true) ∧ ∀ disk, r = some disk →
      Empty ⟨dev, answers⟩ disk ∧ FreshData ⟨dev, answers⟩ 0 disk.diskSpecific ∧ t = [] :=
    (pedDiskNewFresh_spec hopen.sectors).exists_ok
  obtain ⟨disk, rfl⟩ := Option.isSome_iff_exists.mp (hsome hroom)
  obtain ⟨hempty, -, rfl⟩ := hall disk rfl
  obtain ⟨ok, a', hrun, hinside⟩ := hsafe answers 0 disk [] hfresh
  rcases gptRead_repairs hanswers hopen hempty hprobe hon hheader hmove hgrow hgo with
    ⟨f, hf⟩ | ⟨s₁, a₂, hempty₁, hread, hign, heq⟩
  · exact nomatch hf.symm.trans hrun
  · exact ⟨answers, s₁, a₂, hempty₁, hread, hign, ok, a', heq.symm.trans hrun, hinside⟩

theorem ReadsSafely.harmless (hsafe : ReadsSafely crc dev store) (hopen : Openable dev)
    (hroom : RoomForGpt dev)
    (hwrap : ∀ gpt, chosenHeader crc dev store = some gpt → NoWrap gpt) :
    ¬ Harmful crc dev store := by
  have hno : ∀ {p : Prop}, false = true → p := fun h => nomatch h
  rintro ⟨hprobe, hon, ⟨-, gpt, hheader, hfault⟩ | ⟨gpt, move, grow, hheader, hrange, hmove, hgrow,
    hfault⟩⟩
  · rcases hfault with ⟨hoffer, hlarge⟩ | ⟨hrange, hcount | ⟨hoffer, hlarge⟩⟩
    · obtain ⟨answers, s₁, a₂, -, hread, -⟩ := hsafe.reaches true false hopen
        hroom hprobe hon hheader (fun _ => hoffer) hno (Or.inr ⟨rfl, hlarge⟩)
      exact hlarge (hread.small (Or.inl rfl))
    · obtain ⟨answers, s₁, a₂, -, hread, -⟩ := hsafe.reaches false false hopen
        hroom hprobe hon hheader hno hno (Or.inl hrange)
      exact hcount hread.count
    · obtain ⟨answers, s₁, a₂, -, hread, -⟩ := hsafe.reaches false true hopen
        hroom hprobe hon hheader hno (fun _ => hoffer) (Or.inl hrange)
      exact hlarge (hread.small (Or.inr rfl))
  · obtain ⟨answers, s₁, a₂, hempty₁, hread, hign, ok, a', hrun, -⟩ :=
      hsafe.reaches move grow hopen hroom hprobe hon hheader hmove hgrow (Or.inl hrange)
    have hw := hwrap gpt hheader
    obtain ⟨lba, hvalid⟩ := valid_of_chosenHeader hheader
    have hstore : a₂.medium.store = contentsAfter crc dev store move grow := by
      rw [hread.medium, afterHeaders_store]
    obtain ⟨f, hf⟩ := readPartitions_fault hopen hvalid hw (hread.empty hopen hempty₁ hw).1
      hread.entryCount hign (hstore ▸ hfault)
    exact nomatch hf.symm.trans hrun

theorem ReadsSafely.inside (hsafe : ReadsSafely crc dev store) (hopen : Openable dev)
    (hroom : RoomForGpt dev) (hwrap : NoWrap gpt) (hprobe : gptProbe dev store = true)
    (hon : OnDevice dev (backupLBA crc dev store) 1)
    (hheader : chosenHeader crc dev store = some gpt) (hrange : InRange dev gpt)
    (hmove : move = true → OffersMove crc dev store) (hgrow : grow = true → OffersGrowth dev gpt)
    {ptes : List Byte}
    (harray : gptReadPEArray dev (contentsAfter crc dev store move grow) gpt = some ptes)
    (hsum : crc (ptes.take (ptesBytes gpt)) = gpt.partitionEntryArrayCRC32)
    (hup : Upright ptes gpt.sizeOfPartitionEntry 0 gpt.numberOfPartitionEntries.toNat)
    {r : GptRecord} (hr : r ∈ usedRecords ptes gpt.sizeOfPartitionEntry 0
      gpt.numberOfPartitionEntries.toNat) :
    gpt.firstUsableLBA.toInt ≤ r.first ∧ r.last ≤ lastUsableAfter dev gpt grow := by
  obtain ⟨answers, s₁, a₂, hempty₁, hread, hign, ok, a', hrun, hinside⟩ :=
    hsafe.reaches move grow hopen hroom hprobe hon hheader hmove hgrow (Or.inl hrange)
  obtain ⟨lba, hvalid⟩ := valid_of_chosenHeader hheader
  obtain ⟨hempty₂, hfit⟩ := hread.empty hopen hempty₁ hwrap
  have hstore : a₂.medium.store = contentsAfter crc dev store move grow := by
    rw [hread.medium, afterHeaders_store]
  rw [← hstore] at harray
  obtain ⟨hyes, hrest⟩ := (readPartitions_spec hopen hvalid hwrap hread.count hempty₂
    hread.entryCount fun hwb => ⟨hread.small (by simpa using hwb), hfit⟩).of_ok hrun
  have hok := (hrest ptes harray hsum).1 hign hup
  obtain ⟨ptes', hp⟩ := hyes hok
  obtain rfl : ptes' = ptes := Option.some.inj (hp.array.symm.trans harray)
  obtain ⟨part, hpart, rfl⟩ := List.mem_map.mp (hp.records.mem_iff.mpr hr)
  have := hinside hok part hpart
  rw [hp.specific, hread.start, hread.end] at this
  exact this

end Safe

/-- A table with one partition, in sectors 40 to 50. -/
def tameImage : Store := sampleImage 4 128 [sampleEntry 40 50]

theorem chosenHeader_tameImage :
    headerAt zeroSum hundredSectors tameImage 1 = some (sampleHeader 4 128 false) ∧
      chosenHeader zeroSum hundredSectors tameImage = some (sampleHeader 4 128 false) := by
  have h : headerAt zeroSum hundredSectors tameImage 1 = some (sampleHeader 4 128 false) :=
    (headerAt_imageOf_primary rfl (by decide) (length_pthGetRaw_sampleHeader 4 128 false)
      (by decide)).trans (if_pos (by decide +kernel))
  exact ⟨h, by rw [chosenHeader, h]; rfl⟩

/-- No repair of it is offered. -/
theorem tameImage_offers {gpt : GuidPartitionTableHeader} {move grow : Bool}
    (hgpt : chosenHeader zeroSum hundredSectors tameImage = some gpt)
    (hm : move = true → OffersMove zeroSum hundredSectors tameImage)
    (hg : grow = true → OffersGrowth hundredSectors gpt) :
    gpt = sampleHeader 4 128 false ∧ move = false ∧ grow = false := by
  obtain ⟨hpri, hchosen⟩ := chosenHeader_tameImage
  obtain rfl : sampleHeader 4 128 false = gpt := Option.some.inj (hchosen.symm.trans hgpt)
  refine ⟨rfl, Bool.eq_false_iff.mpr fun h => ?_, Bool.eq_false_iff.mpr fun h => ?_⟩
  · obtain ⟨-, -, -, hne, -⟩ := hm h
    rw [backupLBA_of_primary hpri] at hne
    exact hne (by decide)
  · exact absurd (hg h) (by decide)

theorem eq_of_array_tameImage {ptes : List Byte}
    (h : gptReadPEArray hundredSectors tameImage (sampleHeader 4 128 false) = some ptes) :
    ptes = readAt tameImage 1024 512 :=
  Option.some.inj (h.symm.trans (pedDeviceRead_eq (by decide)))

theorem tameImage_noWrap (gpt : GuidPartitionTableHeader)
    (hgpt : chosenHeader zeroSum hundredSectors tameImage = some gpt) : NoWrap gpt := by
  obtain rfl : sampleHeader 4 128 false = gpt :=
    Option.some.inj (chosenHeader_tameImage.2.symm.trans hgpt)
  exact (show 4 * 128 < 2 ^ 32 by decide)

/-- Its entries are in the data area. -/
theorem tameImage_inside : ∀ r ∈ usedRecords (readAt tameImage 1024 512) 128 0 4,
    34 ≤ r.first ∧ r.last ≤ 66 := by
  decide +kernel

theorem tameImage_tame : Tame zeroSum hundredSectors tameImage := by
  obtain ⟨hpri, hchosen⟩ := chosenHeader_tameImage
  constructor
  · rintro ⟨-, -, ⟨-, gpt, hgpt, hfault⟩ | ⟨gpt, move, grow, hgpt, -, hm, hg, ptes, hptes, -, hfit⟩⟩
    · have hno : ∀ {p : Prop}, false = true → p := fun h => nomatch h
      obtain ⟨rfl, -, -⟩ := tameImage_offers hgpt (hno (p := OffersMove _ _ _)) hno
      rcases hfault with ⟨hm, -⟩ | ⟨-, hcount | ⟨hg, -⟩⟩
      · exact nomatch (tameImage_offers hgpt (fun _ : true = true => hm) hno).2.1
      · exact hcount (by decide)
      · exact absurd hg (by decide)
    · obtain ⟨rfl, rfl, rfl⟩ := tameImage_offers hgpt hm hg
      rw [contentsAfter_none] at hptes
      rw [eq_of_array_tameImage hptes] at hfit
      have hfine : ∀ j < 4, ¬ (entryAt (readAt tameImage 1024 512) 128 j).Unfit := by
        decide +kernel
      exact hfit fun j _ hj _ hunfit => absurd hunfit (hfine j (Nat.zero_add 4 ▸ hj))
  · intro _ _ gpt move grow ptes hgpt _ hm hg hptes _ _
    obtain ⟨rfl, rfl, rfl⟩ := tameImage_offers hgpt hm hg
    rw [contentsAfter_none] at hptes
    rw [eq_of_array_tameImage hptes]
    exact tameImage_inside

end Libparted
