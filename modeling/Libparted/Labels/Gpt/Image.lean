import Libparted.Labels.Gpt.Writing

/-!
# Reading a GPT

`gpt_read` put together from its header phase and the loop over the entries.  It is
called, by `ped_disk_new`, on a disk that `ped_disk_new_fresh` has just made.

Everything it does follows from the contents of the device and the two truth values of
the header phase: `Accepted` says what a successful reading leaves behind, in memory
and on the device.  What can stop the program is a property of the contents alone,
`Harmful`.
-/

namespace Libparted

open Library

/-! ## Fresh disks -/

/-- Devices that the device layer opens: sectors of 512 bytes or more, and sector numbers
that are `PedSector`s. -/
structure Openable (dev : PedDevice) : Prop where
  sectors : 512 ≤ dev.sectorSize
  length : dev.length < 2 ^ 63

theorem headerSectors_eq {dev : PedDevice} (h512 : 512 ≤ dev.sectorSize) :
    pedDivRoundUp sizeofHeader dev.sectorSize = 1 := by
  rw [pedDivRoundUp]
  exact Nat.div_eq_of_lt_le (by simp only [sizeofHeader]; omega) (by simp only [sizeofHeader]; omega)

/-- A disk with an empty table. -/
structure Empty (env : Env) (disk : GptDisk) : Prop where
  loading : Loading env 0 disk
  none : disk.core.partList = []

section Empty

variable {env : Env} {s : Session GPTPartitionData GPTDiskData}

theorem gpt_shrinkable {E : Fault → Prop} :
    Shrinkable gptDiskType env E fun c : GptDisk => WellLinked c ∧ GptNumbered c := by
  rintro c id part ⟨hlinks, hnums⟩ hfind hext s hs hpad
  refine (renumbers_removed (gpt_keeps env) hlinks (hnums.remove id).allNumbered hfind hext s hs
    hpad).imp fun _ s' ⟨hs', hpad'⟩ => ⟨?_, hpad'⟩
  exact hs' ▸ ⟨hlinks.remove hfind hext, hnums.remove id⟩

theorem Empty.of_lists {disk : GptDisk} (htop : disk.core.partList = [])
    (hlog : disk.core.logicals = []) (hmode : disk.updateMode = 0)
    (hclobber : disk.needsClobber = true) (hlev : disk.Leveled) (hpad : disk.Padding Unnumbered)
    (hfits : MetadataFits env.dev disk.diskSpecific) : Empty env disk where
  loading := by
    refine .of_table rfl hmode hlev hpad hclobber ?_ ?_ (by simp [htop]) (by simp [htop])
      (by simp [htop]) hfits
    · exact ⟨by simp [htop, hlog], ⟨by simp [htop], by simp [hlog]⟩,
        ⟨by simp [htop], by simp [hlog]⟩, fun h => absurd hlog h⟩
    · refine ⟨by simp [htop, hlog], fun part hpart => ?_, hlog⟩
      simp [PedDisk.Has, htop, hlog] at hpart
  none := htop

theorem pop_empty {E : Fault → Prop} (t : List PedException) (hss : 0 < env.dev.sectorSize)
    (clobber : Bool) {specific : GPTDiskData} (hfits : MetadataFits env.dev specific) :
    Spec E (diskPopUpdateMode gptAllocMetadata env) ⟨⟨[], [], 1, clobber, specific⟩, t⟩ fun _ s' =>
      s'.thrown = t ∧ s'.disk.diskSpecific = specific ∧
        Empty env { s'.disk with needsClobber := true } ∧ s'.disk.needsClobber = clobber := by
  have hnone : ∀ P Q : GptPartition → Prop,
      (⟨[], [], 1, clobber, specific⟩ : GptDisk).Each P Q := fun _ _ => ⟨by simp, by simp⟩
  refine (gptPop_spec t hss rfl (hnone _ _) (hnone _ _) (fun _ h => nomatch h) hfits).mono
    (fun _ h => h.elim) ?_
  rintro _ s' ⟨-, ht, hc, hm, hl, hp⟩
  have hspecific : s'.disk.diskSpecific = specific := congrArg PedDisk.diskSpecific hc
  have htop : s'.disk.core.partList = [] := congrArg PedDisk.partList hc
  have hlog : s'.disk.core.logicals = [] := congrArg PedDisk.logicals hc
  exact ⟨ht, hspecific, .of_lists htop hlog hm rfl hl hp (hspecific.symm ▸ hfits),
    congrArg PedDisk.needsClobber hc⟩

theorem Empty.of_clobber {disk : GptDisk} (h : Empty env { disk with needsClobber := true })
    (hclobber : disk.needsClobber = true) : Empty env disk := by
  obtain ⟨partList, logicals, mode, clobber, specific⟩ := disk
  simp only at hclobber
  subst hclobber
  exact h

theorem Empty.one_lt {disk : GptDisk} (h : Empty env disk) (hopen : Openable env.dev) :
    1 < env.dev.length := by
  have hfits := h.loading.fits
  unfold MetadataFits at hfits
  rw [headerSectors_eq hopen.sectors] at hfits
  omega

/-- **Starting over** ends with an empty table. -/
theorem Loading.deleteAll {E : Fault → Prop} {i : ℕ} (hss : 0 < env.dev.sectorSize)
    (h : Loading env i s.disk) :
    Spec E (pedDiskDeleteAll gptDiskType env) s fun _ s' =>
      Empty env s'.disk ∧ s'.disk.diskSpecific = s.disk.diskSpecific := by
  refine h.calm.deleteAll gpt_shrinkable (fun c hc => hc.1) ⟨h.links, h.nums⟩ fun t => ?_
  refine (pop_empty t hss _ h.fits).imp fun _ s' ⟨_, hspecific, hempty, hclobber⟩ => ⟨?_, hspecific⟩
  exact hempty.of_clobber (hclobber.trans h.clobber)

theorem Empty.deleteAll {E : Fault → Prop} (hss : 0 < env.dev.sectorSize) (h : Empty env s.disk) :
    Spec E (pedDiskDeleteAll gptDiskType env) s fun _ s' => s'.thrown = s.thrown ∧
      Empty env s'.disk ∧ s'.disk.diskSpecific = s.disk.diskSpecific := by
  refine h.loading.calm.deleteAll_empty h.none h.loading.nums.noLogicals ?_
  refine (pop_empty s.thrown hss _ h.loading.fits).imp
    fun _ s' ⟨ht, hspecific, hempty, hclobber⟩ => ⟨ht, ?_, hspecific⟩
  exact hempty.of_clobber (hclobber.trans h.loading.clobber)

/-- With other data of the label the table is still empty. -/
theorem Empty.withSpecific {disk : GptDisk} (h : Empty env disk) {specific : GPTDiskData}
    (hfits : MetadataFits env.dev specific) : Empty env { disk with diskSpecific := specific } where
  loading := by
    have hl := h.loading
    refine ⟨hl.mode, hl.clobber, hl.leveled, hl.padding, ⟨hl.links.nodup, hl.links.ids,
      hl.links.leveled, hl.links.linked⟩, ⟨hl.nums.distinct, fun part hpart => ?_,
      hl.nums.noLogicals⟩, hl.normal, hl.few, hl.below, hfits⟩
    have hno : part ∈ disk.core.partList ∨ part ∈ disk.core.logicals := hpart
    rw [h.none, hl.nums.noLogicals] at hno
    simp at hno
  none := h.none

/-- The device has room for both copies of a table of 128 entries, and a data area
between them. -/
def RoomForGpt (dev : PedDevice) : Prop :=
  4 + 2 * ((gptDefaultPartitionEntryArraySize / dev.sectorSize : ℕ) : ℤ) ≤ dev.length

/-- What `gpt_alloc` fixes once and for all. -/
structure AllocData (env : Env) (specific : GPTDiskData) : Prop where
  room : RoomForGpt env.dev
  start : specific.dataArea.start
    = 2 + ((gptDefaultPartitionEntryArraySize / env.dev.sectorSize : ℕ) : ℤ)
  «end» : specific.dataArea.end
    = env.dev.length - 2 - ((gptDefaultPartitionEntryArraySize / env.dev.sectorSize : ℕ) : ℤ)
  count : specific.entryCount = 128
  alternate : specific.alternateLBA = env.dev.length - 1

/-- The data of the label on a fresh disk. -/
structure FreshData (env : Env) (uuid : BitVec 128) (specific : GPTDiskData) : Prop
    extends AllocData env specific where
  uuid : specific.uuid = uuid
  pmbrBoot : specific.pmbrBoot = false

theorem AllocData.fits {specific : GPTDiskData} (h : AllocData env specific) (h512 : 512 ≤ env.dev.sectorSize) :
    MetadataFits env.dev specific := by
  have hss : 0 < env.dev.sectorSize := by omega
  have hceil : pedDivRoundUp (128 * sizeofEntry) env.dev.sectorSize
      ≤ gptDefaultPartitionEntryArraySize / env.dev.sectorSize + 1 := by
    rw [pedDivRoundUp, ← Nat.add_div_right _ hss]
    exact Nat.div_le_div_right (by simp only [sizeofEntry, gptDefaultPartitionEntryArraySize]; omega)
  have hheader := headerSectors_eq h512
  have hroom := h.room
  unfold MetadataFits
  unfold RoomForGpt at hroom
  rw [h.count, hheader]
  generalize gptDefaultPartitionEntryArraySize / env.dev.sectorSize = q at hceil hroom
  omega

theorem gptAlloc_spec {uuid : BitVec 128} {thrown : List PedException} :
    Spec (fun _ => False) (gptAlloc env uuid) thrown fun r t =>
      (RoomForGpt env.dev → r.isSome = true) ∧ ∀ disk, r = some disk →
      t = thrown ∧ ∃ specific, disk = ⟨[], [], 1, false, specific⟩ ∧
        FreshData env uuid specific := by
  unfold gptAlloc RoomForGpt
  dsimp only
  generalize hq : gptDefaultPartitionEntryArraySize / env.dev.sectorSize = q
  refine Spec.ite (fun hno => Spec.bind ⟨fun h => absurd h (by omega), fun _ h => nomatch h⟩)
    fun hroom => ?_
  rw [pedGeometryInitUnchecked_eq (by omega) (by omega)]
  refine ⟨fun _ => rfl, ?_⟩
  rintro disk ⟨⟩
  refine ⟨rfl, _, rfl, ⟨by rw [RoomForGpt, hq]; omega, by rw [hq], ?_, rfl, rfl⟩, rfl, rfl⟩
  rw [hq]
  simp only [PedGeometry.end]
  omega

/-- **`ped_disk_new_fresh`** makes an empty disk, or none if the device is too small. -/
theorem pedDiskNewFresh_spec {uuid : BitVec 128} {thrown : List PedException}
    (h512 : 512 ≤ env.dev.sectorSize) :
    Spec (fun _ => False) (pedDiskNewFresh env uuid) thrown fun r t =>
      (RoomForGpt env.dev → r.isSome = true) ∧ ∀ disk, r = some disk →
      Empty env disk ∧ FreshData env uuid disk.diskSpecific ∧ t = thrown := by
  unfold pedDiskNewFresh
  refine Spec.bind (gptAlloc_spec.imp fun r t ⟨hroom, hr⟩ => ?_)
  cases r with
  | none => exact ⟨hroom, fun _ h => nomatch h⟩
  | some disk =>
      obtain ⟨rfl, specific, rfl, hdata⟩ := hr disk rfl
      obtain ⟨ok, s, hpop, ht, hspecific, hempty, -⟩ := (pop_empty (E := fun _ => False) t
        (by omega) false (hdata.fits h512)).exists_ok
      have hmode : s.disk.updateMode = 0 := hempty.loading.mode
      have hrun : openFresh env ⟨[], [], 1, false, specific⟩ t
          = .ok ({ s.disk with needsClobber := true }, s.thrown) := by
        unfold openFresh
        rw [hpop]
        simp [pedAssert, hmode]
      refine Spec.bind ((spec_of_ok hrun).mpr ⟨fun _ => rfl, ?_⟩)
      rintro disk ⟨⟩
      exact ⟨hempty, hspecific.symm ▸ hdata, ht⟩

theorem exists_pedDiskNewFresh (env : Env) (uuid : BitVec 128) (h512 : 512 ≤ env.dev.sectorSize)
    (hroom : RoomForGpt env.dev) : ∃ disk, pedDiskNewFresh env uuid [] = .ok (some disk, []) ∧
      Empty env disk := by
  obtain ⟨r, t, hrun, hsome, hall⟩ := (pedDiskNewFresh_spec h512).exists_ok
  obtain ⟨disk, rfl⟩ := Option.isSome_iff_exists.mp (hsome hroom)
  obtain ⟨hempty, -, rfl⟩ := hall disk rfl
  exact ⟨disk, hrun, hempty⟩

end Empty

/-! ## The array of entries -/

/-- The size of the array is a number of 32 bits. -/
def NoWrap (gpt : GuidPartitionTableHeader) : Prop :=
  gpt.numberOfPartitionEntries.toNat * gpt.sizeOfPartitionEntry.toNat < 2 ^ 32

section Bounds

variable {crc : List Byte → BitVec 32} {dev : PedDevice} {store : Store}
  {gpt : GuidPartitionTableHeader} {lba : ℤ} {ptes : List Byte}

theorem ptesBytes_eq (h : NoWrap gpt) : ptesBytes gpt
    = gpt.numberOfPartitionEntries.toNat * gpt.sizeOfPartitionEntry.toNat := by
  unfold NoWrap at h
  rw [ptesBytes, BitVec.toNat_mul, Nat.mul_comm, Nat.mod_eq_of_lt h]

theorem length_of_gptReadPEArray (h : gptReadPEArray dev store gpt = some ptes) :
    ptes.length = pedDivRoundUp (ptesBytes gpt) dev.sectorSize * dev.sectorSize := by
  unfold gptReadPEArray pedDeviceRead at h
  split at h
  · cases h
    simp
  · exact nomatch h

theorem le_pedDivRoundUp_mul {n d : ℕ} (hd : 0 < d) : n ≤ pedDivRoundUp n d * d := by
  have := Nat.lt_div_mul_add hd (a := n + d - 1)
  unfold pedDivRoundUp
  omega

theorem pedDivRoundUp_mono {m n : ℕ} (d : ℕ) (h : m ≤ n) :
    pedDivRoundUp m d ≤ pedDivRoundUp n d := Nat.div_le_div_right (by omega)

theorem sizeofEntry_le_of_valid {peSize : BitVec 32} (h : entrySizeIsValid peSize = true) :
    sizeofEntry ≤ peSize.toNat := by
  simp only [entrySizeIsValid, Bool.and_eq_true, decide_eq_true_eq] at h
  exact h.1.2

theorem ValidHeader.sizeofEntry_le (h : ValidHeader crc dev store gpt lba) :
    sizeofEntry ≤ gpt.sizeOfPartitionEntry.toNat := sizeofEntry_le_of_valid h.entrySize

/-- Without wrap-around every entry is inside the buffer. -/
theorem entries_inside (hss : 0 < dev.sectorSize)
    (hsize : sizeofEntry ≤ gpt.sizeOfPartitionEntry.toNat) (hwrap : NoWrap gpt)
    (hlen : ptes.length = pedDivRoundUp (ptesBytes gpt) dev.sectorSize * dev.sectorSize) :
    ∀ i < gpt.numberOfPartitionEntries.toNat,
      entryOffset gpt.sizeOfPartitionEntry i + sizeofEntry ≤ ptes.length := by
  intro i hi
  have hbytes := le_pedDivRoundUp_mul hss (n := ptesBytes gpt)
  rw [ptesBytes_eq hwrap] at hbytes hlen
  have hnext : (i + 1) * gpt.sizeOfPartitionEntry.toNat
      ≤ gpt.numberOfPartitionEntries.toNat * gpt.sizeOfPartitionEntry.toNat :=
    Nat.mul_le_mul_right _ hi
  rw [Nat.add_mul, Nat.one_mul] at hnext
  unfold NoWrap at hwrap
  have hn := gpt.numberOfPartitionEntries.isLt
  have hoffset : entryOffset gpt.sizeOfPartitionEntry i
      = i * gpt.sizeOfPartitionEntry.toNat := by
    rw [entryOffset, BitVec.toNat_mul, BitVec.toNat_ofNat,
      Nat.mod_eq_of_lt (show i < 2 ^ 32 by omega), Nat.mod_eq_of_lt (by omega)]
  rw [hoffset, hlen]
  omega

/-- What `_parse_header` accepts leaves room for the metadata of the label. -/
theorem InRange.room_for (h512 : 512 ≤ dev.sectorSize)
    (hvalid : ValidHeader crc dev store gpt lba) (hwrap : NoWrap gpt) (h : InRange dev gpt)
    {specific : GPTDiskData}
    (hcount : specific.entryCount = gpt.numberOfPartitionEntries.toNat) :
    MetadataFits dev specific ∧ 2 + (arraySectors dev specific : ℤ) ≤ dev.length := by
  have hheader := headerSectors_eq h512
  have hsize := hvalid.sizeofEntry_le
  have harray : pedDivRoundUp (specific.entryCount * sizeofEntry) dev.sectorSize
      ≤ ptesSectors dev gpt := by
    refine pedDivRoundUp_mono _ (le_trans ?_ (le_max_left _ _))
    rw [ptesBytes_eq hwrap, hcount]
    exact Nat.mul_le_mul_left _ hsize
  have hroom := h.room
  have hfirst := hvalid.first
  unfold lastUsableIfGrown at hroom
  refine ⟨?_, ?_⟩
  · unfold MetadataFits
    rw [hheader]
    omega
  · have : arraySectors dev specific = pedDivRoundUp (specific.entryCount * sizeofEntry)
      dev.sectorSize := rfl
    rw [this]
    omega

end Bounds

/-! ## The partitions -/

/-- What a successful reading of the partitions leaves behind, if it started from an empty
table. -/
structure PartitionsRead (crc : List Byte → BitVec 32) (env : Env)
    (a : Attached GPTPartitionData GPTDiskData) (gpt : GuidPartitionTableHeader)
    (writeBack : Bool) (ptes : List Byte) (a' : Attached GPTPartitionData GPTDiskData) :
    Prop where
  array : gptReadPEArray env.dev a.medium.store gpt = some ptes
  sum : crc (ptes.take (ptesBytes gpt)) = gpt.partitionEntryArrayCRC32
  upright : Upright ptes gpt.sizeOfPartitionEntry 0 gpt.numberOfPartitionEntries.toNat
  records : (a'.session.disk.core.partList.map partRecord).Perm
    (usedRecords ptes gpt.sizeOfPartitionEntry 0 gpt.numberOfPartitionEntries.toNat)
  specific : a'.session.disk.diskSpecific = a.session.disk.diskSpecific
  writable : Writable a'.session.disk
  asked : a.session.thrown.length ≤ a'.session.thrown.length
  kept : writeBack = false → a'.medium = a.medium
  committed : writeBack = true → ∃ m ptes', makeEntries env.dev a'.session.disk = .ok ptes' ∧
    a'.medium = Medium.written m crc env.dev a'.session.disk.diskSpecific ptes' ∧
    ∀ sector, m.Touched sector ↔ a.medium.Touched sector ∨
      ClobberSector env.dev (clobberFirst env.dev a.medium.store) sector

section Partitions

variable {crc : List Byte → BitVec 32} {env : Env} {a : Attached GPTPartitionData GPTDiskData}
  {gpt : GuidPartitionTableHeader} {writeBack : Bool} {store : Store} {lba : ℤ}

/-- The table has what `gpt_write` needs once the entries have been read. -/
theorem Loading.writable {i : ℕ} {disk : GptDisk} (h : Loading env i disk) {ptes : List Byte}
    {pEntSize : BitVec 32} {k n : ℕ}
    (hrecords : (disk.core.partList.map partRecord).Perm (usedRecords ptes pEntSize k n)) :
    Writable disk where
  nums := h.nums
  normal := h.normal
  data := by
    intro part hpart
    have hmem := hrecords.mem_iff.mp (List.mem_map_of_mem hpart)
    simp only [usedRecords, List.mem_filterMap, Option.ite_none_right_eq_some] at hmem
    obtain ⟨j, -, -, hj⟩ := hmem
    exact ⟨_, (congrArg GptRecord.data (Option.some.inj hj)).symm⟩

theorem Writable.clobbered {disk : GptDisk} (h : Writable disk) :
    Writable { disk with needsClobber := false } where
  nums := ⟨h.nums.distinct, h.nums.inRange, h.nums.noLogicals⟩
  normal := h.normal
  data := h.data

/-- Writing back a table that has been read. -/
theorem Loading.commit {i : ℕ} {s : Session GPTPartitionData GPTDiskData} {m₀ : Medium}
    (hss : 0 < env.dev.sectorSize) (hsize : env.dev.sectorSize ≤ sizeofZero)
    (hdev : 1 < env.dev.length) (h : Loading env i s.disk) (hwrite : Writable s.disk)
    (hcount : s.disk.diskSpecific.entryCount ≤ 8192)
    (hfit : CopiesFit env.dev s.disk.diskSpecific) :
    Spec (fun _ => False) (pedDiskCommitToDev crc env) ⟨s, m₀⟩ fun _ a' =>
      a'.session = { s with disk := { s.disk with needsClobber := false } } ∧
      ∃ m ptes, makeEntries env.dev s.disk = .ok ptes ∧
        a'.medium = Medium.written m crc env.dev s.disk.diskSpecific ptes ∧
        ∀ sector, m.Touched sector ↔ m₀.Touched sector ∨
          ClobberSector env.dev (clobberFirst env.dev m₀.store) sector := by
  obtain ⟨ptes, hptes, -⟩ := makeEntries_spec hss hwrite hcount
  have hspec : Spec (fun _ => False) (pedDiskCommitToDev crc env) ⟨s, m₀⟩ _ :=
    pedDiskCommitToDev_spec hss hsize hdev h.mode h.clobber hptes hfit
  refine hspec.imp ?_
  rintro _ a' ⟨-, hsession, m, hm, htouched⟩
  exact ⟨hsession, m, ptes, hptes, hm, htouched⟩

/-- What can stop the program while the partitions are read. -/
def ArrayFault (crc : List Byte → BitVec 32) (dev : PedDevice) (store : Store)
    (gpt : GuidPartitionTableHeader) : Prop :=
  ∃ ptes, gptReadPEArray dev store gpt = some ptes ∧
    crc (ptes.take (ptesBytes gpt)) = gpt.partitionEntryArrayCRC32 ∧
    ¬ Fitting ptes gpt.sizeOfPartitionEntry 0 gpt.numberOfPartitionEntries.toNat

/-- **Reading the partitions.** -/
theorem readPartitions_spec (hopen : Openable env.dev)
    (hvalid : ValidHeader crc env.dev store gpt lba) (hwrap : NoWrap gpt)
    (hcount : EntryCountFits gpt) (hempty : Empty env a.session.disk)
    (hn : a.session.disk.diskSpecific.entryCount = gpt.numberOfPartitionEntries.toNat)
    (hback : writeBack = true → env.dev.sectorSize ≤ sizeofZero ∧
      CopiesFit env.dev a.session.disk.diskSpecific) :
    Spec (fun _ => ArrayFault crc env.dev a.medium.store gpt)
      (readPartitions crc env gpt writeBack) a fun ok a' =>
      (ok = true → ∃ ptes, PartitionsRead crc env a gpt writeBack ptes a') ∧
      (∀ ptes, gptReadPEArray env.dev a.medium.store gpt = some ptes →
        crc (ptes.take (ptesBytes gpt)) = gpt.partitionEntryArrayCRC32 →
        (IgnoresFrom env a.session.thrown.length →
          Upright ptes gpt.sizeOfPartitionEntry 0 gpt.numberOfPartitionEntries.toNat → ok = true) ∧
        ((∀ r ∈ usedRecords ptes gpt.sizeOfPartitionEntry 0 gpt.numberOfPartitionEntries.toNat,
            r.first ≤ r.last ∧ r.last < env.dev.length) →
          (usedRecords ptes gpt.sizeOfPartitionEntry 0
            gpt.numberOfPartitionEntries.toNat).Pairwise GptRecord.Clear →
          ok = true ∧ a'.session.thrown = a.session.thrown)) := by
  have hss : 0 < env.dev.sectorSize := by have := hopen.sectors; omega
  have hdev := hempty.one_lt hopen
  unfold readPartitions
  refine Spec.bind (spec_getStore.mpr ?_)
  cases hread : gptReadPEArray env.dev a.medium.store gpt with
  | none => exact ⟨fun h => (nomatch h), fun ptes h => nomatch h⟩
  | some ptes =>
      refine Spec.ite (fun hsum => ?_) fun hsum => ?_
      · refine Spec.bind (spec_gptThrow.mpr ⟨fun h => (nomatch h), fun ptes' hptes' hcrc => ?_⟩)
        cases hptes'
        exact absurd hcrc hsum
      have hsum := not_not.mp hsum
      refine Spec.bind (spec_inMemory.mpr (spec_getDisk.mpr ?_))
      rw [hn, List.range_eq_range']
      refine Spec.bind (spec_inMemory.mpr ((hempty.loading.readEntries hss (by omega)
        (by rw [hn, Nat.zero_add]) fun j _ hj => entries_inside hss hvalid.sizeofEntry_le hwrap
          (length_of_gptReadPEArray hread) j (by omega)).mono
        (fun _ hno => ⟨ptes, hread, hsum, hno⟩) fun ok s₁ hout => ?_))
      have hquiet : (∀ r ∈ usedRecords ptes gpt.sizeOfPartitionEntry 0
            gpt.numberOfPartitionEntries.toNat, r.first ≤ r.last ∧ r.last < env.dev.length) →
          (usedRecords ptes gpt.sizeOfPartitionEntry 0
            gpt.numberOfPartitionEntries.toNat).Pairwise GptRecord.Clear →
          ok = true ∧ s₁.thrown = a.session.thrown := by
        have := hout.quiet hopen.length
        rw [hempty.none, List.map_nil, List.append_nil] at this
        exact this
      cases ok with
      | false =>
          obtain ⟨j, hj⟩ := hout.failed rfl
          refine Spec.bind (spec_inMemory.mpr ((hj.deleteAll hss).imp fun _ s₂ _ => ?_))
          refine ⟨fun h => (nomatch h), fun ptes' hptes' _ => ?_⟩
          cases hptes'
          exact ⟨fun hign hup => (nomatch hout.ignored hign hup),
            fun hin hpair => nomatch (hquiet hin hpair).1⟩
      | true =>
          have hload := hout.loading rfl
          have hrecords : (s₁.disk.core.partList.map partRecord).Perm (usedRecords ptes
              gpt.sizeOfPartitionEntry 0 gpt.numberOfPartitionEntries.toNat) := by
            have := hout.records rfl
            rwa [hempty.none, List.map_nil, List.append_nil] at this
          have hwrite := hload.writable hrecords
          rw [if_pos rfl]
          refine Spec.ite (fun hwb => ?_) fun hwb => ?_
          · obtain ⟨hsize, hfit⟩ := hback hwb
            have hcount' : s₁.disk.diskSpecific.entryCount ≤ 8192 := by
              rw [hout.specific, hn]
              exact hcount.2
            have hfit' : CopiesFit env.dev s₁.disk.diskSpecific := by
              rw [hout.specific]
              exact hfit
            refine Spec.bind ((hload.commit hss hsize hdev hwrite hcount' hfit').mono
              (fun _ h => h.elim) ?_)
            rintro _ ⟨_, _⟩ ⟨rfl, m, ptes', hptes', rfl, htouched⟩
            refine ⟨fun _ => ⟨ptes, hread, hsum, hout.upright rfl, hrecords, hout.specific,
              hwrite.clobbered, hout.asked, fun h => (nomatch hwb.symm.trans h),
              fun _ => ⟨m, ptes', hptes', rfl, htouched⟩⟩, fun ptes'' hptes'' _ => ?_⟩
            cases hptes''
            exact ⟨fun _ _ => rfl, hquiet⟩
          · refine ⟨fun _ => ⟨ptes, hread, hsum, hout.upright rfl, hrecords, hout.specific, hwrite,
              hout.asked, fun _ => rfl, fun h => absurd h hwb⟩, fun ptes' hptes' _ => ?_⟩
            cases hptes'
            exact ⟨fun _ _ => rfl, hquiet⟩

/-- If everything is ignored, an entry that no geometry can be made of does stop the
program. -/
theorem readPartitions_fault (hopen : Openable env.dev)
    (hvalid : ValidHeader crc env.dev store gpt lba) (hwrap : NoWrap gpt)
    (hempty : Empty env a.session.disk)
    (hn : a.session.disk.diskSpecific.entryCount = gpt.numberOfPartitionEntries.toNat)
    (hign : IgnoresFrom env a.session.thrown.length)
    (hfault : ArrayFault crc env.dev a.medium.store gpt) :
    ∃ f, readPartitions crc env gpt writeBack a = .error f := by
  have hss : 0 < env.dev.sectorSize := by have := hopen.sectors; omega
  have hdev := hempty.one_lt hopen
  obtain ⟨ptes, hread, hsum, hfit⟩ := hfault
  obtain ⟨f, hf⟩ := hempty.loading.readEntries_fault hss (by omega) (by rw [hn, Nat.zero_add])
    (fun j _ hj => entries_inside hss hvalid.sizeofEntry_le hwrap
      (length_of_gptReadPEArray hread) j (by omega)) hign hfit
  have hspec : Spec (fun _ => True) (readPartitions crc env gpt writeBack) a fun _ _ => False := by
    unfold readPartitions
    refine Spec.bind (spec_getStore.mpr ?_)
    rw [hread]
    refine Spec.ite (fun hno => absurd hsum hno) fun _ => ?_
    refine Spec.bind (spec_inMemory.mpr (spec_getDisk.mpr ?_))
    rw [hn, List.range_eq_range']
    exact Spec.bind (spec_inMemory.mpr ((spec_of_error hf).mpr trivial))
  cases hrun : readPartitions crc env gpt writeBack a with
  | error f => exact ⟨f, rfl⟩
  | ok r => exact (hspec.of_ok hrun).elim

end Partitions

/-! ## The whole function -/

/-- The contents of the device after the repairs the header phase makes. -/
def contentsAfter (crc : List Byte → BitVec 32) (dev : PedDevice) (store : Store)
    (move grow : Bool) : Store :=
  (afterHeaders crc dev ⟨store, []⟩ move grow).store

/-- What a successful `gpt_read` leaves behind: it went on with the header `gpt`, made the
repairs `move` and `grow`, and took the partitions from the array `ptes`. -/
structure Accepted (crc : List Byte → BitVec 32) (env : Env)
    (a : Attached GPTPartitionData GPTDiskData) (gpt : GuidPartitionTableHeader)
    (move grow : Bool) (ptes : List Byte) (a' : Attached GPTPartitionData GPTDiskData) :
    Prop where
  probe : gptProbe env.dev a.medium.store = true
  header : chosenHeader crc env.dev a.medium.store = some gpt
  range : InRange env.dev gpt
  count : EntryCountFits gpt
  offered : (move = true → OffersMove crc env.dev a.medium.store) ∧
    (grow = true → OffersGrowth env.dev gpt)
  small : move = true ∨ grow = true → env.dev.sectorSize ≤ sizeofZero
  onDevice : OnDevice env.dev (backupLBA crc env.dev a.medium.store) 1
  array : gptReadPEArray env.dev (contentsAfter crc env.dev a.medium.store move grow) gpt
    = some ptes
  sum : crc (ptes.take (ptesBytes gpt)) = gpt.partitionEntryArrayCRC32
  upright : Upright ptes gpt.sizeOfPartitionEntry 0 gpt.numberOfPartitionEntries.toNat
  records : (a'.session.disk.core.partList.map partRecord).Perm
    (usedRecords ptes gpt.sizeOfPartitionEntry 0 gpt.numberOfPartitionEntries.toNat)
  start : a'.session.disk.diskSpecific.dataArea.start = gpt.firstUsableLBA.toInt
  «end» : a'.session.disk.diskSpecific.dataArea.end = lastUsableAfter env.dev gpt grow
  entryCount : a'.session.disk.diskSpecific.entryCount = gpt.numberOfPartitionEntries.toNat
  uuid : a'.session.disk.diskSpecific.uuid = gpt.diskGUID
  alternate : a'.session.disk.diskSpecific.alternateLBA
    = if move ∨ grow then env.dev.length - 1 else backupLBA crc env.dev a.medium.store
  writable : Writable a'.session.disk
  decided : ∃ t, Decided crc env a gpt move grow t
  silent : a'.session.thrown = a.session.thrown →
    ¬ AsksWhich crc env.dev a.medium.store ∧ ¬ TooNew gpt ∧ ¬ OffersGrowth env.dev gpt
  kept : move = false → grow = false → a'.medium = a.medium
  committed : move = true ∨ grow = true → ∃ m ptes',
    makeEntries env.dev a'.session.disk = .ok ptes' ∧
    a'.medium = Medium.written m crc env.dev a'.session.disk.diskSpecific ptes' ∧
    ∀ sector, m.Touched sector ↔ (afterHeaders crc env.dev a.medium move grow).Touched sector ∨
      ClobberSector env.dev (clobberFirst env.dev
        (contentsAfter crc env.dev a.medium.store move grow)) sector

/-- Contents that `gpt_read` takes as they are: whatever it asks about is which of the
headers to use. -/
structure Undamaged (crc : List Byte → BitVec 32) (env : Env)
    (a : Attached GPTPartitionData GPTDiskData) (gpt : GuidPartitionTableHeader)
    (ptes : List Byte) : Prop where
  probe : gptProbe env.dev a.medium.store = true
  onDevice : OnDevice env.dev (backupLBA crc env.dev a.medium.store) 1
  header : chosenHeader crc env.dev a.medium.store = some gpt
  range : InRange env.dev gpt
  count : EntryCountFits gpt
  noMove : ¬ OffersMove crc env.dev a.medium.store
  noGrowth : ¬ OffersGrowth env.dev gpt
  known : ¬ TooNew gpt
  answer : AsksWhich crc env.dev a.medium.store →
    env.answers a.session.thrown.length ≠ .cancel
  array : gptReadPEArray env.dev a.medium.store gpt = some ptes
  sum : crc (ptes.take (ptesBytes gpt)) = gpt.partitionEntryArrayCRC32
  inside : ∀ r ∈ usedRecords ptes gpt.sizeOfPartitionEntry 0 gpt.numberOfPartitionEntries.toNat,
    0 ≤ r.first ∧ r.first ≤ r.last ∧ r.last < env.dev.length
  clear : (usedRecords ptes gpt.sizeOfPartitionEntry 0
    gpt.numberOfPartitionEntries.toNat).Pairwise GptRecord.Clear

/-- Some answers to what `gpt_read` asks can make these contents stop the program. -/
structure Harmful (crc : List Byte → BitVec 32) (dev : PedDevice) (store : Store) : Prop where
  probe : gptProbe dev store = true
  onDevice : OnDevice dev (backupLBA crc dev store) 1
  fault : HeaderFault crc dev store ∨ ∃ gpt move grow, chosenHeader crc dev store = some gpt ∧
    InRange dev gpt ∧ (move = true → OffersMove crc dev store) ∧
    (grow = true → OffersGrowth dev gpt) ∧
    ArrayFault crc dev (contentsAfter crc dev store move grow) gpt

section Whole

variable {crc : List Byte → BitVec 32} {env : Env} {a : Attached GPTPartitionData GPTDiskData}

theorem afterHeaders_store (dev : PedDevice) (m : Medium) (move grow : Bool) :
    (afterHeaders crc dev m move grow).store = contentsAfter crc dev m.store move grow := by
  cases move <;> cases grow <;> rfl

@[simp] theorem contentsAfter_none (dev : PedDevice) (store : Store) :
    contentsAfter crc dev store false false = store := rfl

/-- The header phase leaves an empty table with the data of the header. -/
theorem HeaderRead.empty {gpt : GuidPartitionTableHeader} {move grow : Bool}
    {a₁ a₂ : Attached GPTPartitionData GPTDiskData} (hopen : Openable env.dev)
    (hempty : Empty env a₁.session.disk) (hwrap : NoWrap gpt)
    (h : HeaderRead crc env a₁ gpt move grow a₂) :
    Empty env a₂.session.disk ∧ CopiesFit env.dev a₂.session.disk.diskSpecific := by
  obtain ⟨lba, hvalid⟩ := valid_of_chosenHeader h.header
  obtain ⟨hfits, hprimary⟩ := h.range.room_for hopen.sectors hvalid hwrap h.entryCount
  refine ⟨?_, hprimary, ?_⟩
  · rw [h.disk]
    exact hempty.withSpecific hfits
  · rw [h.alternate]
    split
    · exact ⟨by omega, by omega, by omega⟩
    · exact h.onDevice

theorem Undamaged.not_refused {gpt : GuidPartitionTableHeader} {ptes : List Byte}
    (h : Undamaged crc env a gpt ptes) : ¬ HeaderRefused crc env a := by
  intro hno
  cases hno with
  | off hoff => exact hoff h.onDevice
  | corrupt hnone => exact nomatch hnone.symm.trans h.header
  | cancelled hask hcancel => exact h.answer hask hcancel
  | range gpt' hgpt' hrange =>
      obtain rfl : gpt = gpt' := Option.some.inj (h.header.symm.trans hgpt')
      exact hrange h.range
  | tooNew gpt' hgpt' hnew =>
      obtain rfl : gpt = gpt' := Option.some.inj (h.header.symm.trans hgpt')
      exact h.known hnew

theorem mem_usedRecords {ptes : List Byte} {pEntSize : BitVec 32} {j k n : ℕ} (hj : k ≤ j)
    (hj' : j < k + n) (hused : (entryAt ptes pEntSize j).Used) :
    entryRecord j (entryAt ptes pEntSize j) ∈ usedRecords ptes pEntSize k n :=
  List.mem_filterMap.mpr ⟨j, List.mem_range'_1.mpr ⟨hj, hj'⟩, if_pos hused⟩

theorem Undamaged.not_harmful {gpt : GuidPartitionTableHeader} {ptes : List Byte}
    (hlength : env.dev.length < 2 ^ 63) (h : Undamaged crc env a gpt ptes) :
    ¬ Harmful crc env.dev a.medium.store := by
  rintro ⟨-, -, ⟨-, gpt', hgpt', hfault⟩ | ⟨gpt', move, grow, hgpt', -, hmove, hgrow, hfault⟩⟩
  · obtain rfl : gpt = gpt' := Option.some.inj (h.header.symm.trans hgpt')
    rcases hfault with ⟨hno, -⟩ | ⟨-, hno | ⟨hno, -⟩⟩
    · exact h.noMove hno
    · exact hno h.count
    · exact h.noGrowth hno
  · obtain rfl : gpt = gpt' := Option.some.inj (h.header.symm.trans hgpt')
    obtain rfl : move = false := Bool.eq_false_iff.mpr fun hm => h.noMove (hmove hm)
    obtain rfl : grow = false := Bool.eq_false_iff.mpr fun hg => h.noGrowth (hgrow hg)
    obtain ⟨ptes', hptes', -, hfit⟩ := hfault
    obtain rfl : ptes = ptes' := Option.some.inj (h.array.symm.trans hptes')
    refine hfit fun j hj hj' hused hunfit => absurd hunfit ?_
    obtain ⟨h0, hle, hlast⟩ := h.inside _ (mem_usedRecords hj hj' hused)
    simp only [entryRecord] at h0 hle hlast
    unfold GuidPartitionEntry.Unfit
    omega

/-- **`gpt_read`.**  Nothing but harmful contents stops the program, and undamaged contents
are accepted. -/
theorem gptRead_run (hopen : Openable env.dev) (hempty : Empty env a.session.disk)
    (hwrap : ∀ gpt, chosenHeader crc env.dev a.medium.store = some gpt → NoWrap gpt) :
    Spec (fun _ => Harmful crc env.dev a.medium.store) (gptRead crc env) a fun ok a' =>
      (ok = true → ∃ gpt move grow ptes, Accepted crc env a gpt move grow ptes a') ∧
      ∀ gpt ptes, Undamaged crc env a gpt ptes → ok = true ∧
        (¬ AsksWhich crc env.dev a.medium.store → a'.session.thrown = a.session.thrown) := by
  have hss : 0 < env.dev.sectorSize := by have := hopen.sectors; omega
  have hdev := hempty.one_lt hopen
  unfold gptRead
  refine Spec.bind (spec_inMemory.mpr ((hempty.deleteAll hss).imp
    fun _ s₁ ⟨ht, hempty₁, hspecific⟩ => ?_))
  refine Spec.bind (spec_getStore.mpr ?_)
  cases hprobe : gptProbe env.dev a.medium.store with
  | false => exact ⟨fun h => (nomatch h), fun _ _ h => nomatch hprobe.symm.trans h.probe⟩
  | true =>
      simp only [Bool.not_true, Bool.false_eq_true, if_false]
      refine Spec.bind ((readHeader_spec hss hdev).mono
        (fun _ h => ⟨hprobe, h.1, Or.inl h⟩) fun r a₂ hr => ?_)
      cases r with
      | none =>
          refine ⟨fun h => (nomatch h), fun gpt ptes h => ?_⟩
          have h' : Undamaged crc env ⟨s₁, a.medium⟩ gpt ptes :=
            { h with answer := by rw [ht]; exact h.answer }
          exact absurd hr.1 h'.not_refused
      | some r =>
          obtain ⟨gpt, writeBack⟩ := r
          obtain ⟨move, grow, t, rfl, hread, hdecided, hlen⟩ := hr
          have hw : NoWrap gpt := hwrap gpt hread.header
          obtain ⟨lba, hvalid⟩ := valid_of_chosenHeader hread.header
          obtain ⟨hempty₂, hfit⟩ := hread.empty hopen hempty₁ hw
          have hstore : a₂.medium.store = contentsAfter crc env.dev a.medium.store move grow := by
            rw [hread.medium, afterHeaders_store]
          refine (readPartitions_spec hopen hvalid hw hread.count hempty₂ hread.entryCount
            fun hwb => ⟨hread.small (by simpa using hwb), hfit⟩).mono (fun _ h => ?_) ?_
          · rw [hstore] at h
            exact ⟨hprobe, hread.onDevice, Or.inr ⟨gpt, move, grow, hread.header, hread.range,
              hread.offered.1, hread.offered.2, h⟩⟩
          · rintro ok a' ⟨hyes, hquiet⟩
            refine ⟨fun hok => ?_, fun gpt' ptes h => ?_⟩
            · obtain ⟨ptes, hp⟩ := hyes hok
              refine ⟨gpt, move, grow, ptes, hprobe, hread.header, hread.range, hread.count,
                hread.offered, hread.small, hread.onDevice, hstore ▸ hp.array, hp.sum, hp.upright,
                hp.records, hp.specific.symm ▸ hread.start, hp.specific.symm ▸ hread.end,
                hp.specific.symm ▸ hread.entryCount, hp.specific.symm ▸ hread.uuid,
                hp.specific.symm ▸ hread.alternate, hp.writable, ⟨t, ?_⟩, fun hsilent => ?_, ?_, ?_⟩
              · exact ⟨ht ▸ hdecided.first, ht ▸ hdecided.moved, hdecided.grown⟩
              · have hle := hp.asked
                rw [hsilent, hlen, ← ht] at hle
                exact hdecided.silent hle
              · rintro rfl rfl
                rw [hp.kept rfl, hread.medium]
                rfl
              · intro hwb
                obtain ⟨m, ptes', hptes', hm, htouched⟩ := hp.committed (by simpa using hwb)
                refine ⟨m, ptes', hptes', hm, fun sector => ?_⟩
                rw [htouched, hstore, hread.medium]
            · obtain rfl : gpt' = gpt := Option.some.inj (h.header.symm.trans hread.header)
              have hmove : move = false := Bool.eq_false_iff.mpr fun hm => h.noMove (hread.offered.1 hm)
              have hgrow : grow = false :=
                Bool.eq_false_iff.mpr fun hg => h.noGrowth (hread.offered.2 hg)
              subst hmove hgrow
              obtain ⟨hok, hthrown⟩ := (hquiet ptes (hstore ▸ h.array) h.sum).2
                (fun r hr => (h.inside r hr).2) h.clear
              refine ⟨hok, fun hno => ?_⟩
              rw [hthrown, hread.quiet hno h.known h.noGrowth, ht]

theorem gptRead_spec (hopen : Openable env.dev) (hempty : Empty env a.session.disk)
    (hwrap : ∀ gpt, chosenHeader crc env.dev a.medium.store = some gpt → NoWrap gpt) :
    Spec (fun _ => Harmful crc env.dev a.medium.store) (gptRead crc env) a fun ok a' =>
      ok = true → ∃ gpt move grow ptes, Accepted crc env a gpt move grow ptes a' :=
  (gptRead_run hopen hempty hwrap).imp fun _ _ h => h.1

end Whole

end Libparted
