import Libparted.Labels.Gpt.Headers
import Libparted.Labels.Gpt.Reading

/-!
# Writing a GPT

`gpt_write` makes the array of entries in memory and writes five stretches of sectors:
the protective table, and twice a header and the array.  This module says which sectors
these are, and what the reader finds in the array: the partitions that were on the
disk, whatever order they came in.
-/

namespace Libparted

open Library

/-! ## The array of entries -/

/-- The table has what `gpt_write` needs of each partition. -/
structure Writable (disk : GptDisk) : Prop where
  nums : GptNumbered disk.core
  normal : ∀ part ∈ disk.core.partList, part.type = .normal
  data : ∀ part ∈ disk.core.partList, ∃ data, part.diskSpecific = some data

/-- A partition that gets an entry of its own. -/
def Entered (size : ℕ) (part : GptPartition) : Prop :=
  part.type = .normal → (∃ data, part.diskSpecific = some data) ∧ 1 ≤ part.num ∧
    part.num * sizeofEntry ≤ size

section Entries

variable {size : ℕ} {part : GptPartition} {ptes : Store}

/-- One entry: its place in the buffer is changed, and no other. -/
theorem putEntry_spec (ptes : Store) (h : Entered size part) :
    ∃ ptes', putEntry size ptes part = .ok ptes' ∧
      (∀ i : ℕ, (part.type = .normal → part.num ≠ i + 1) →
        readAt ptes' (i * sizeofEntry) sizeofEntry = readAt ptes (i * sizeofEntry) sizeofEntry) ∧
      (part.type = .normal → ∀ data, part.diskSpecific = some data →
        readAt ptes' ((part.num - 1).toNat * sizeofEntry) sizeofEntry
          = guidPartitionEntryCodec.encode (partitionGeneratePartEntry part.geom data)) := by
  unfold putEntry
  by_cases hnormal : part.type = .normal
  case neg =>
    rw [if_pos hnormal]
    exact ⟨ptes, rfl, fun _ _ => rfl, fun hno => absurd hno hnormal⟩
  case pos =>
    obtain ⟨⟨data, hdata⟩, hone, hsize⟩ := h hnormal
    have hin : ¬ (part.num < 1 ∨ (size : ℤ) < part.num * sizeofEntry) := by omega
    have hlen : (guidPartitionEntryCodec.encode
        (partitionGeneratePartEntry part.geom data)).length = sizeofEntry := by
      rw [Codec.length_encode]
      rfl
    rw [if_neg (not_not.mpr hnormal), hdata]
    dsimp only
    rw [if_neg hin]
    refine ⟨_, rfl, fun i hi => ?_, fun _ data' hdata' => ?_⟩
    · have hne := hi hnormal
      refine readAt_writeAt_of_disjoint ?_
      rw [hlen]
      rcases Nat.lt_or_gt_of_ne (show i ≠ (part.num - 1).toNat by omega) with hlt | hgt
      · left
        calc i * sizeofEntry + sizeofEntry = (i + 1) * sizeofEntry := by ring
          _ ≤ (part.num - 1).toNat * sizeofEntry := Nat.mul_le_mul_right _ hlt
      · right
        calc (part.num - 1).toNat * sizeofEntry + sizeofEntry
            = ((part.num - 1).toNat + 1) * sizeofEntry := by ring
          _ ≤ i * sizeofEntry := Nat.mul_le_mul_right _ hgt
    · cases hdata'
      exact readAt_writeAt_same hlen

/-- All entries of a list: each has its place, and the rest of the buffer is as it was. -/
theorem putEntries_spec (ptes : Store) (l : List GptPartition) (hl : ∀ part ∈ l, Entered size part)
    (hnodup : ((l.filter fun part => part.type = .normal).map (·.num)).Nodup) :
    ∃ ptes', l.foldlM (putEntry size) ptes = .ok ptes' ∧
      (∀ i : ℕ, (∀ part ∈ l, part.type = .normal → part.num ≠ i + 1) →
        readAt ptes' (i * sizeofEntry) sizeofEntry = readAt ptes (i * sizeofEntry) sizeofEntry) ∧
      (∀ part ∈ l, part.type = .normal → ∀ data, part.diskSpecific = some data →
        readAt ptes' ((part.num - 1).toNat * sizeofEntry) sizeofEntry
          = guidPartitionEntryCodec.encode (partitionGeneratePartEntry part.geom data)) := by
  induction l generalizing ptes with
  | nil => exact ⟨ptes, rfl, fun _ _ => rfl, fun _ hno => absurd hno List.not_mem_nil⟩
  | cons part l ih =>
      obtain ⟨ptes₁, hput, hother, hown⟩ := putEntry_spec ptes
        (hl part List.mem_cons_self)
      have htail : ((l.filter fun part => part.type = .normal).map (·.num)).Nodup :=
        hnodup.sublist ((List.sublist_cons_self part l).filter _ |>.map _)
      obtain ⟨ptes₂, hputs, hothers, howns⟩ := ih ptes₁
        (fun p hp => hl p (List.mem_cons_of_mem _ hp)) htail
      refine ⟨ptes₂, ?_, fun i hi => ?_, fun p hp hnormal data hdata => ?_⟩
      · rw [List.foldlM_cons, hput]
        exact hputs
      · rw [hothers i fun p hp => hi p (List.mem_cons_of_mem _ hp),
          hother i (hi part List.mem_cons_self)]
      · rcases List.mem_cons.mp hp with rfl | hp
        · have hone := (hl p List.mem_cons_self hnormal).2.1
          rw [hothers (p.num - 1).toNat fun q hq hqn hqe => ?_, hown hnormal data hdata]
          -- a second partition with this number is not there
          have hnum : q.num = p.num := by omega
          rw [List.filter_cons_of_pos (by simpa using hnormal), List.map_cons,
            List.nodup_cons] at hnodup
          refine hnodup.1 (hnum ▸ List.mem_map_of_mem ?_)
          exact List.mem_filter.mpr ⟨hq, by simpa using hqn⟩
        · exact howns p hp hnormal data hdata

theorem le_arraySectors {dev : PedDevice} (hss : 0 < dev.sectorSize) (specific : GPTDiskData) :
    specific.entryCount * sizeofEntry ≤ arraySectors dev specific * dev.sectorSize := by
  unfold arraySectors
  have := Nat.lt_div_mul_add hss (a := specific.entryCount * sizeofEntry + dev.sectorSize - 1)
  omega

theorem entryOffset_eq {i : ℕ} (hi : i < 8192) :
    entryOffset (BitVec.ofNat 32 sizeofEntry) i = i * sizeofEntry := by
  unfold entryOffset
  rw [BitVec.toNat_mul, BitVec.toNat_ofNat, BitVec.toNat_ofNat]
  simp only [sizeofEntry]
  omega

/-- An entry of zeroes. -/
def blankEntry : GuidPartitionEntry := ⟨0, 0, 0, 0, 0, Vector.replicate 36 0⟩

theorem encode_blankEntry :
    guidPartitionEntryCodec.encode blankEntry = List.replicate sizeofEntry 0 := by
  decide +kernel

variable {dev : PedDevice} {disk : GptDisk}

/-- The partitions `gpt_write` makes entries of are those on the table. -/
theorem Writable.filter_traverse (h : Writable disk) :
    disk.traverse.filter (fun part => part.type = .normal) = disk.core.partList := by
  have hsplice : ∀ l : List GptPartition, PedDisk.spliceLogicals [] l = l := by
    intro l
    induction l with
    | nil => rfl
    | cons part l ih =>
        rw [PedDisk.spliceLogicals, ih]
        split <;> rfl
  have hcore : disk.core.traverse = disk.core.partList := by
    rw [PedDisk.traverse, h.nums.noLogicals, hsplice]
  rw [← hcore, traverse_core]
  refine List.filter_congr fun part hpart => ?_
  by_cases hnormal : part.type = .normal
  · simp [hnormal, PedPartition.isActive, PedPartitionType.normal]
  · cases hact : part.isActive with
    | false => simpa using hnormal
    | true =>
        have hmem : part ∈ disk.core.partList := by
          rw [← hcore, traverse_core]
          exact List.mem_filter.mpr ⟨hpart, hact⟩
        exact absurd (h.normal part hmem) hnormal

theorem Writable.mem_iff (h : Writable disk) :
    part ∈ disk.core.partList ↔ part ∈ disk.traverse ∧ part.type = .normal := by
  rw [← h.filter_traverse, List.mem_filter, decide_eq_true_eq]

/-- **The array of `gpt_write`**: the entry of each partition is at its number, and the
other entries are not used. -/
theorem makeEntries_spec (hss : 0 < dev.sectorSize) (h : Writable disk)
    (hcount : disk.diskSpecific.entryCount ≤ 8192) :
    ∃ ptes, makeEntries dev disk = .ok ptes ∧
      ptes.length = arraySectors dev disk.diskSpecific * dev.sectorSize ∧
      (∀ part ∈ disk.core.partList, ∀ data, part.diskSpecific = some data →
        entryAt ptes (BitVec.ofNat 32 sizeofEntry) (part.num - 1).toNat
          = partitionGeneratePartEntry part.geom data) ∧
      (∀ i < disk.diskSpecific.entryCount, (∀ part ∈ disk.core.partList, part.num ≠ i + 1) →
        ¬ (entryAt ptes (BitVec.ofNat 32 sizeofEntry) i).Used) := by
  set size := arraySectors dev disk.diskSpecific * dev.sectorSize with hsize
  have hle := le_arraySectors hss disk.diskSpecific
  have hrange : ∀ part ∈ disk.core.partList, 1 ≤ part.num ∧
      part.num ≤ disk.diskSpecific.entryCount := fun part hpart =>
    h.nums.inRange part (Or.inl hpart)
  have hentered : ∀ part ∈ disk.traverse, Entered size part := by
    intro part hpart hnormal
    have hmem := h.mem_iff.mpr ⟨hpart, hnormal⟩
    obtain ⟨hone, hmax⟩ := hrange part hmem
    refine ⟨h.data part hmem, hone, ?_⟩
    have : part.num * sizeofEntry ≤ disk.diskSpecific.entryCount * (sizeofEntry : ℤ) :=
      mul_le_mul_of_nonneg_right hmax (by simp)
    exact_mod_cast this.trans (by exact_mod_cast hle)
  have hnodup : ((disk.traverse.filter fun part => part.type = .normal).map (·.num)).Nodup := by
    have := h.nums.distinct
    rw [h.nums.noLogicals, List.append_nil] at this
    rw [h.filter_traverse]
    exact this
  obtain ⟨ptes, hfold, hother, hown⟩ := putEntries_spec (fun _ => 0) _ hentered hnodup
  -- what is found in the buffer at an entry, from the bytes there
  have hentry : ∀ (i : ℕ) (pte : GuidPartitionEntry), i < disk.diskSpecific.entryCount →
      readAt ptes (i * sizeofEntry) sizeofEntry = guidPartitionEntryCodec.encode pte →
      entryAt (readAt ptes 0 size) (BitVec.ofNat 32 sizeofEntry) i = pte := by
    intro i pte hi hread
    have hend : i * sizeofEntry + sizeofEntry ≤ size := by
      have : (i + 1) * sizeofEntry ≤ disk.diskSpecific.entryCount * sizeofEntry :=
        Nat.mul_le_mul_right _ hi
      rw [Nat.add_mul, Nat.one_mul] at this
      omega
    rw [entryAt, entryOffset_eq (by omega), drop_readAt _ (by omega), Nat.zero_add,
      show size - i * sizeofEntry = sizeofEntry + (size - i * sizeofEntry - sizeofEntry) by omega,
      readAt_add, hread, Codec.decode_encode]
  refine ⟨readAt ptes 0 size, ?_, length_readAt, fun part hpart data hdata => ?_,
    fun i hi hnone => ?_⟩
  · unfold makeEntries
    dsimp only
    rw [← hsize, hfold]
    rfl
  · obtain ⟨hone, hmax⟩ := hrange part hpart
    obtain ⟨hmem, hnormal⟩ := h.mem_iff.mp hpart
    exact hentry _ _ (by omega) (hown part hmem hnormal data hdata)
  · have hblank := hother i fun part hpart hnormal => hnone part (h.mem_iff.mpr ⟨hpart, hnormal⟩)
    rw [readAt_const, ← encode_blankEntry] at hblank
    rw [hentry i blankEntry hi hblank]
    exact not_not.mpr rfl

/-- What the data of the partitions on the table must be like to be found again. -/
structure Findable (disk : GptDisk) : Prop where
  bound : ∀ part ∈ disk.core.partList, part.hi < 2 ^ 63
  used : ∀ part ∈ disk.core.partList, ∀ data, part.diskSpecific = some data →
    data.type ≠ unusedEntryGuid

/-- A partition comes back from its entry. -/
theorem entryRecord_partitionGeneratePartEntry {data : GPTPartitionData}
    (hdata : part.diskSpecific = some data) (hone : 1 ≤ part.num) (hbound : part.hi < 2 ^ 63) :
    entryRecord (part.num - 1).toNat (partitionGeneratePartEntry part.geom data)
      = partRecord part := by
  have hback : ∀ x : ℤ, 0 ≤ x → x < 2 ^ 63 → (BitVec.ofInt 64 x).toInt = x := by
    intro x h0 h1
    rw [BitVec.toInt_ofInt]
    exact Int.bmod_eq_of_le (by omega) (by omega)
  have h0 := part.geom.start_nonneg
  have hle := part.geom.start_le_end
  have hhi : part.geom.end < 2 ^ 63 := hbound
  have hnum : ((part.num - 1).toNat : ℤ) + 1 = part.num := by omega
  simp only [entryRecord, partRecord, GuidPartitionEntry.first, GuidPartitionEntry.last,
    GuidPartitionEntry.data, partitionGeneratePartEntry, hnum, PedPartition.lo, PedPartition.hi,
    hback part.geom.start h0 (by omega), hback part.geom.end (by omega) hhi, hdata]

/-- **What the reader finds** in the array is what was on the table. -/
theorem usedRecords_perm {ptes : List Byte} (h : Writable disk) (hfind : Findable disk)
    (hown : ∀ part ∈ disk.core.partList, ∀ data, part.diskSpecific = some data →
      entryAt ptes (BitVec.ofNat 32 sizeofEntry) (part.num - 1).toNat
        = partitionGeneratePartEntry part.geom data)
    (hother : ∀ i < disk.diskSpecific.entryCount,
      (∀ part ∈ disk.core.partList, part.num ≠ i + 1) →
      ¬ (entryAt ptes (BitVec.ofNat 32 sizeofEntry) i).Used) :
    (usedRecords ptes (BitVec.ofNat 32 sizeofEntry) 0 disk.diskSpecific.entryCount).Perm
      (disk.core.partList.map partRecord) := by
  have hnum : (disk.core.partList.map partRecord).map GptRecord.num
      = disk.core.partList.map (·.num) := by
    rw [List.map_map]
    rfl
  have hdistinct := h.nums.distinct
  rw [h.nums.noLogicals, List.append_nil] at hdistinct
  have hnodup : (disk.core.partList.map partRecord).Nodup := by
    refine List.Nodup.of_map GptRecord.num ?_
    rw [hnum]
    exact hdistinct
  have hnodup' : (usedRecords ptes (BitVec.ofNat 32 sizeofEntry) 0
      disk.diskSpecific.entryCount).Nodup := by
    refine List.Nodup.filterMap (fun i j r hi hj => ?_) List.nodup_range'
    simp only [Option.mem_def, Option.ite_none_right_eq_some, Option.some.injEq] at hi hj
    have hij := congrArg GptRecord.num (hi.2.trans hj.2.symm)
    simp only [entryRecord] at hij
    omega
  refine (List.perm_ext_iff_of_nodup hnodup' hnodup).mpr fun r => ?_
  simp only [usedRecords, List.mem_filterMap, List.mem_range'_1, Option.ite_none_right_eq_some,
    Option.some.injEq, List.mem_map]
  constructor
  · rintro ⟨i, ⟨-, hi⟩, hused, rfl⟩
    obtain ⟨part, hpart, hnum⟩ : ∃ part ∈ disk.core.partList, part.num = i + 1 := by
      by_contra hno
      push Not at hno
      exact hother i (by omega) hno hused
    obtain ⟨data, hdata⟩ := h.data part hpart
    have hi' : (part.num - 1).toNat = i := by omega
    refine ⟨part, hpart, ?_⟩
    rw [← entryRecord_partitionGeneratePartEntry hdata (by omega) (hfind.bound part hpart),
      ← hown part hpart data hdata, hi']
  · rintro ⟨part, hpart, rfl⟩
    obtain ⟨data, hdata⟩ := h.data part hpart
    obtain ⟨hone, hmax⟩ := h.nums.inRange part (Or.inl hpart)
    have hmax' : part.num ≤ disk.diskSpecific.entryCount := hmax
    refine ⟨(part.num - 1).toNat, by omega, ?_, ?_⟩
    · rw [hown part hpart data hdata]
      exact hfind.used part hpart data hdata
    · rw [hown part hpart data hdata,
        entryRecord_partitionGeneratePartEntry hdata hone (hfind.bound part hpart)]

end Entries

/-! ## The sectors -/

/-- The bytes of the protective table, and of the rest of its sector. -/
def pmbrSector (dev : PedDevice) (pmbrBoot : Bool) (store : Store) : List Byte :=
  legacyMBRCodec.encode (protectiveMBR dev pmbrBoot
      (legacyMBRCodec.decode (readAt store (sectorPos dev 0) dev.sectorSize)))
    ++ (readAt store (sectorPos dev 0) dev.sectorSize).drop legacyMBRCodec.size

/-- The header `gpt_write` makes, as bytes. -/
def headerSector (crc : List Byte → BitVec 32) (dev : PedDevice) (specific : GPTDiskData)
    (alternate : Bool) (ptes : List Byte) : List Byte :=
  pthGetRaw (generateHeader crc dev specific alternate
    (crc (ptes.take (specific.entryCount * sizeofEntry))))

/-- The medium after the protective table and the primary copy have been written. -/
def Medium.withPrimary (m : Medium) (crc : List Byte → BitVec 32) (dev : PedDevice)
    (specific : GPTDiskData) (ptes : List Byte) : Medium :=
  ((m.write dev (pmbrSector dev specific.pmbrBoot m.store) 0 1).write dev
    (headerSector crc dev specific false ptes) 1 1).write dev ptes 2 (arraySectors dev specific)

/-- The medium after everything but the array of the backup has been written. -/
def Medium.withHeaders (m : Medium) (crc : List Byte → BitVec 32) (dev : PedDevice)
    (specific : GPTDiskData) (ptes : List Byte) : Medium :=
  (m.withPrimary crc dev specific ptes).write dev (headerSector crc dev specific true ptes)
    specific.alternateLBA 1

/-- The medium after both copies have been written. -/
def Medium.withCopies (m : Medium) (crc : List Byte → BitVec 32) (dev : PedDevice)
    (specific : GPTDiskData) (ptes : List Byte) : Medium :=
  (m.withHeaders crc dev specific ptes).write dev ptes
    (specific.alternateLBA - arraySectors dev specific) (arraySectors dev specific)

/-- The primary copy and the backup header are on the device. -/
structure CopiesFit (dev : PedDevice) (specific : GPTDiskData) : Prop where
  primary : 2 + (arraySectors dev specific : ℤ) ≤ dev.length
  backup : OnDevice dev specific.alternateLBA 1

section Sectors

variable {crc : List Byte → BitVec 32} {env : Env} {a : Attached GPTPartitionData GPTDiskData}
  {ptes : List Byte}

/-- **`gpt_write`** up to its last transfer, which may be off the device. -/
theorem gptWrite_run (hptes : makeEntries env.dev a.session.disk = .ok ptes)
    (hfit : CopiesFit env.dev a.session.disk.diskSpecific) :
    gptWrite crc env a = deviceWrite env.dev ptes (a.session.disk.diskSpecific.alternateLBA
        - arraySectors env.dev a.session.disk.diskSpecific)
      (arraySectors env.dev a.session.disk.diskSpecific)
      { a with medium := a.medium.withHeaders crc env.dev a.session.disk.diskSpecific ptes } := by
  obtain ⟨hprimary, hbackup⟩ := hfit
  have hsector : pttReadSector env.dev a.medium.store 0
      = some (readAt a.medium.store (sectorPos env.dev 0) env.dev.sectorSize) :=
    pttReadSector_eq le_rfl (by omega)
  have hpmbr : writePmbr env.dev a.session.disk.diskSpecific.pmbrBoot a = .ok (true,
      ⟨a.session, a.medium.write env.dev (pmbrSector env.dev
        a.session.disk.diskSpecific.pmbrBoot a.medium.store) 0 1⟩) := by
    unfold writePmbr
    rw [run_bind_ok (show getStore a = .ok (a.medium.store, a) from rfl), hsector]
    exact deviceWrite_eq ⟨le_rfl, by omega, by omega⟩
  have hcopy : ∀ alternate b, OnDevice env.dev
      (if alternate then a.session.disk.diskSpecific.alternateLBA else 1) 1 →
      writeCopy crc env.dev a.session.disk.diskSpecific alternate ptes b
        = deviceWrite env.dev ptes (if alternate then a.session.disk.diskSpecific.alternateLBA
            - arraySectors env.dev a.session.disk.diskSpecific else 2)
          (arraySectors env.dev a.session.disk.diskSpecific)
          ⟨b.session, b.medium.write env.dev
            (headerSector crc env.dev a.session.disk.diskSpecific alternate ptes)
            (if alternate then a.session.disk.diskSpecific.alternateLBA else 1) 1⟩ := by
    intro alternate b hon
    exact run_bind_ok (deviceWrite_eq hon)
  have hfirst := hcopy false ⟨a.session, a.medium.write env.dev (pmbrSector env.dev
    a.session.disk.diskSpecific.pmbrBoot a.medium.store) 0 1⟩ ⟨by simp, by omega, by simp; omega⟩
  rw [deviceWrite_eq ⟨by simp, by omega, by simpa using hprimary⟩] at hfirst
  unfold gptWrite
  rw [run_bind_ok (show inMemory getDisk a = .ok (a.session.disk, a) from rfl), hptes,
    run_bind_ok (show (liftM (Except.ok ptes) : GptM (List Byte)) a = .ok (ptes, a) from rfl),
    run_bind_ok hpmbr]
  exact (run_bind_ok hfirst).trans (hcopy true _ hbackup)

/-- The sectors of the protective table and the two copies, with arrays of `n` sectors. -/
def CopySector (n alternate sector : ℤ) : Prop :=
  0 ≤ sector ∧ sector < 2 + n ∨ sector = alternate ∨
    n ≤ alternate ∧ alternate - n ≤ sector ∧ sector < alternate

theorem Medium.touched_withHeaders {m : Medium} {dev : PedDevice} {specific : GPTDiskData}
    {sector : ℤ} : (m.withHeaders crc dev specific ptes).Touched sector ↔ m.Touched sector ∨
      0 ≤ sector ∧ sector < 2 + arraySectors dev specific ∨ sector = specific.alternateLBA := by
  simp only [withHeaders, withPrimary, touched_write, or_assoc]
  refine or_congr_right ⟨?_, ?_⟩
  · rintro (h | h | h | h)
    · exact Or.inl (by omega)
    · exact Or.inl (by omega)
    · exact Or.inl (by omega)
    · exact Or.inr (by omega)
  · rintro (h | h)
    · by_cases h0 : sector = 0
      · exact Or.inl (by omega)
      · by_cases h1 : sector = 1
        · exact Or.inr (Or.inl (by omega))
        · exact Or.inr (Or.inr (Or.inl (by omega)))
    · exact Or.inr (Or.inr (Or.inr (by omega)))

/-- The medium `gpt_write` leaves behind. -/
def Medium.written (m : Medium) (crc : List Byte → BitVec 32) (dev : PedDevice)
    (specific : GPTDiskData) (ptes : List Byte) : Medium :=
  if (arraySectors dev specific : ℤ) ≤ specific.alternateLBA then m.withCopies crc dev specific ptes
  else m.withHeaders crc dev specific ptes

theorem Medium.touched_written {m : Medium} {dev : PedDevice} {specific : GPTDiskData}
    {sector : ℤ} : (m.written crc dev specific ptes).Touched sector ↔
      m.Touched sector ∨ CopySector (arraySectors dev specific) specific.alternateLBA sector := by
  unfold written CopySector
  split
  · rename_i hle
    rw [withCopies, touched_write, touched_withHeaders, or_assoc, or_assoc]
    refine or_congr_right (or_congr_right (or_congr_right ⟨fun h => ⟨hle, by omega⟩, fun h => ?_⟩))
    omega
  · rename_i hle
    rw [touched_withHeaders]
    refine or_congr_right (or_congr_right ⟨Or.inl, fun h => h.resolve_right fun h => hle h.1⟩)

/-- **The sectors `gpt_write` writes**, and what it leaves behind. -/
theorem gptWrite_spec (crc : List Byte → BitVec 32) (env : Env)
    (hptes : makeEntries env.dev a.session.disk = .ok ptes)
    (hfit : CopiesFit env.dev a.session.disk.diskSpecific) :
    ∃ ok, gptWrite crc env a = .ok (ok,
        { a with medium := a.medium.written crc env.dev a.session.disk.diskSpecific ptes }) ∧
      (ok = true ↔ (arraySectors env.dev a.session.disk.diskSpecific : ℤ)
        ≤ a.session.disk.diskSpecific.alternateLBA) := by
  rw [gptWrite_run hptes hfit]
  obtain ⟨-, h0, -, hlen⟩ := hfit
  unfold Medium.written
  split
  · rename_i hle
    exact ⟨true, deviceWrite_eq ⟨by omega, by omega, by omega⟩, iff_of_true rfl hle⟩
  · rename_i hle
    exact ⟨false, deviceWrite_off fun h => absurd h.1 (by omega),
      iff_of_false Bool.false_ne_true hle⟩

/-! ## Committing -/

/-- The sectors `ped_disk_clobber` clears, if it begins with sector `first`. -/
def ClobberSector (dev : PedDevice) (first sector : ℤ) : Prop :=
  first ≤ sector ∧ sector < min (first + clobberCount dev) dev.length ∨
    max first (dev.length - if clobberCount dev < dev.length then clobberCount dev else 1) ≤ sector ∧
      sector < dev.length

/-- The sectors in a set have been cleared and no others. -/
structure Medium.ClearedOn (dev : PedDevice) (cleared : ℤ → Prop) (m m' : Medium) : Prop where
  touched : ∀ sector, m'.Touched sector ↔ m.Touched sector ∨ cleared sector
  zero : ∀ sector, 0 ≤ sector → cleared sector →
    readAt m'.store (sectorPos dev sector) dev.sectorSize = List.replicate dev.sectorSize 0
  same : ∀ sector, 0 ≤ sector → ¬ cleared sector →
    readAt m'.store (sectorPos dev sector) dev.sectorSize
      = readAt m.store (sectorPos dev sector) dev.sectorSize

/-- Clobbering clears the sectors of both ends and no others. -/
theorem pedDiskClobber_spec (hss : 0 < env.dev.sectorSize)
    (hsize : env.dev.sectorSize ≤ sizeofZero) (hdev : 1 < env.dev.length) :
    Spec (fun _ => False) (pedDiskClobber env.dev) a fun ok a' => ok = true ∧
      a'.session = a.session ∧ a.medium.ClearedOn env.dev
        (ClobberSector env.dev (clobberFirst env.dev a.medium.store)) a'.medium := by
  have hcount : 0 < clobberCount env.dev := by
    have : (0 : ℤ) ≤ 9 * 1024 / env.dev.sectorSize := Int.ediv_nonneg (by omega) (by omega)
    unfold clobberCount
    omega
  have hfirst : 0 ≤ clobberFirst env.dev a.medium.store ∧
      clobberFirst env.dev a.medium.store ≤ 1 := by
    unfold clobberFirst
    split <;> omega
  unfold pedDiskClobber ClobberSector
  refine Spec.bind (spec_getStore.mpr ?_)
  dsimp only
  generalize clobberFirst env.dev a.medium.store = first at hfirst ⊢
  generalize clobberCount env.dev = n at hcount ⊢
  set n₁ := if env.dev.length < first + n then env.dev.length - first else n with hn₁
  set t := env.dev.length - if n < env.dev.length then n else 1 with ht
  set t' := if t < first then first else t with ht'
  have hn : 0 ≤ n₁ ∧ first + n₁ = min (first + n) env.dev.length := by
    rw [hn₁, min_def]
    split <;> split <;> omega
  have htt : 0 ≤ t' ∧ t' ≤ env.dev.length ∧ t' = max first t := by
    rw [ht', max_def]
    have : t < env.dev.length ∧ 0 ≤ t := by
      rw [ht]
      split <;> omega
    split <;> split <;> omega
  refine Spec.bind ((pttClearSectors_spec hss hsize ⟨hfirst.1, hn.1,
    hn.2 ▸ min_le_right _ _⟩).imp fun ok a₁ ⟨hok, hsession, hover⟩ => ?_)
  subst hok
  simp only [Bool.not_true, Bool.false_eq_true, if_false]
  refine (pttClearSectors_spec hss hsize ⟨htt.1, by omega, by omega⟩).imp
    fun ok a₂ ⟨hok, hsession₂, hover₂⟩ => ⟨hok, hsession₂.trans hsession, ?_⟩
  rw [← htt.2.2, ← hn.2]
  have hend : t' + (env.dev.length - t') = env.dev.length := by omega
  refine ⟨fun sector => ?_, fun sector hs hin => ?_, fun sector hs hout => ?_⟩
  · rw [hover₂.touched, hover.touched, or_assoc, hend]
  · rw [hover₂.sector hs, hover.sector hs, hend]
    split
    · rfl
    · rename_i hno
      rw [if_pos (hin.resolve_right hno)]
  · rw [hover₂.sector hs, hover.sector hs, hend, if_neg fun h => hout (Or.inr h),
      if_neg fun h => hout (Or.inl h)]

/-- **Committing** a table that has been read. -/
theorem pedDiskCommitToDev_spec (hss : 0 < env.dev.sectorSize)
    (hsize : env.dev.sectorSize ≤ sizeofZero) (hdev : 1 < env.dev.length)
    (hmode : a.session.disk.updateMode = 0) (hclobber : a.session.disk.needsClobber = true)
    (hptes : makeEntries env.dev a.session.disk = .ok ptes)
    (hfit : CopiesFit env.dev a.session.disk.diskSpecific) :
    Spec (fun _ => False) (pedDiskCommitToDev crc env) a fun ok a' =>
      (ok = true ↔ (arraySectors env.dev a.session.disk.diskSpecific : ℤ)
        ≤ a.session.disk.diskSpecific.alternateLBA) ∧
      a'.session = { a.session with disk := { a.session.disk with needsClobber := false } } ∧
      ∃ m : Medium, a'.medium = m.written crc env.dev a.session.disk.diskSpecific ptes ∧
        ∀ sector, m.Touched sector ↔ a.medium.Touched sector ∨
          ClobberSector env.dev (clobberFirst env.dev a.medium.store) sector := by
  unfold pedDiskCommitToDev
  refine Spec.bind (spec_inMemory.mpr (spec_getDisk.mpr ?_))
  refine Spec.bind (spec_lift.mpr ⟨fun _ _ => ?_, fun _ hf => by simp [pedAssert, hmode] at hf⟩)
  rw [if_pos hclobber]
  refine Spec.bind ((pedDiskClobber_spec hss hsize hdev).imp
    fun ok a₁ hclobbered => ?_)
  obtain ⟨hok, hsession, hcleared⟩ := hclobbered
  subst hok
  simp only [Bool.not_true, Bool.false_eq_true, if_false]
  refine Spec.bind (spec_inMemory.mpr (spec_modifyDisk.mpr ?_))
  have hptes' : makeEntries env.dev { a₁.session.disk with needsClobber := false } = .ok ptes := by
    rw [hsession]
    exact hptes
  have hfit' : CopiesFit env.dev a₁.session.disk.diskSpecific := by
    rw [hsession]
    exact hfit
  obtain ⟨ok, hwrite, hok⟩ := gptWrite_spec crc env
    (a := ⟨{ a₁.session with disk := { a₁.session.disk with needsClobber := false } }, a₁.medium⟩)
    hptes' hfit'
  rw [spec_of_ok hwrite]
  rw [hsession] at hok ⊢
  exact ⟨hok, rfl, a₁.medium, rfl, hcleared.touched⟩

end Sectors

end Libparted
