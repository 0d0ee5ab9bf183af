import Libparted.Labels.Gpt.Copies

/-!
# Written and read again

**The round trip** (`gptRead_gptWrite_iff`): what has been written is read back, without
a question, exactly if the usable area passes the tests of the reader.  On a table made
by `gpt_alloc` it may not: the size of the array in sectors is rounded down there, and
rounded up by the reader.

**One copy is enough** (`gptRead_damaged_iff`), with one exception: `gpt_probe` looks for
the signature in sector 1 alone, so that a primary header without it hides the backup.

Both are cases of `Survives.gptRead_iff`, about a device on which at least one copy has
survived.
-/

namespace Libparted

open Library

/-! ## What is left of two copies -/

/-- What a table must be like to be found again. -/
structure Storable (dev : PedDevice) (disk : GptDisk) : Prop where
  writable : Writable disk
  used : ∀ part ∈ disk.core.partList, ∀ data, part.diskSpecific = some data →
    data.type ≠ unusedEntryGuid
  inside : ∀ part ∈ disk.core.partList, part.hi < dev.length
  apart : (disk.core.partList.map partRecord).Pairwise GptRecord.Clear

/-- The same partitions, the same data area and the same GUID. -/
structure Recovered (disk disk' : GptDisk) : Prop where
  records : (disk'.core.partList.map partRecord).Perm (disk.core.partList.map partRecord)
  dataArea : disk'.diskSpecific.dataArea = disk.diskSpecific.dataArea
  uuid : disk'.diskSpecific.uuid = disk.diskSpecific.uuid

/-- At least one copy is there, and one that is not there is not taken for a header. -/
structure Survives (crc : List Byte → BitVec 32) (dev : PedDevice) (specific : GPTDiskData)
    (ptes : List Byte) (store : Store) : Prop where
  pmbr : HoldsPmbr dev store
  each : ∀ alternate, HoldsCopy crc dev specific alternate ptes store ∨
    headerAt crc dev store (copyLBA specific alternate) = none
  one : ∃ alternate, HoldsCopy crc dev specific alternate ptes store

section Survives

variable {crc : List Byte → BitVec 32} {dev : PedDevice} {specific : GPTDiskData}
  {ptes : List Byte} {store : Store}

/-- The header that is chosen is that of a copy. -/
theorem Survives.chosen (hroom : RoomForCopies dev specific)
    (halt : specific.alternateLBA = dev.length - 1) (hend : specific.dataArea.end < 2 ^ 63)
    (h3 : 3 ≤ specific.dataArea.start) (h : Survives crc dev specific ptes store) :
    backupLBA crc dev store = dev.length - 1 ∧ ¬ OffersMove crc dev store ∧
      ∃ alternate, HoldsCopy crc dev specific alternate ptes store ∧
        chosenHeader crc dev store = some (copyHeader crc dev specific alternate ptes) := by
  have hlba : backupLBA crc dev store = dev.length - 1 := by
    rcases h.each false with hcopy | hnone
    · rw [backupLBA_of_primary (hcopy.headerAt hroom hend h3), copyHeader_alternateLBA hroom, halt]
    · exact backupLBA_of_none hnone
  refine ⟨hlba, fun hmove => hmove.choose_spec.2.2.1 hlba, ?_⟩
  rcases h.each false with hcopy | hnone
  · refine ⟨false, hcopy, ?_⟩
    rw [chosenHeader, show headerAt crc dev store 1 = _ from hcopy.headerAt hroom hend h3]
    rfl
  · obtain ⟨alternate, hcopy⟩ := h.one
    have htrue : alternate = true := by
      by_contra hfalse
      rw [Bool.not_eq_true] at hfalse
      subst hfalse
      exact absurd (hnone.symm.trans (hcopy.headerAt hroom hend h3)) (by simp)
    subst htrue
    have hheader := hcopy.headerAt hroom hend h3
    rw [show copyLBA specific true = dev.length - 1 from halt] at hheader
    refine ⟨true, hcopy, ?_⟩
    rw [chosenHeader, show headerAt crc dev store 1 = none from hnone, hlba, hheader]
    rfl

/-- If the usable area starts too early there is no header at all. -/
theorem Survives.not_chosen (hroom : RoomForCopies dev specific)
    (halt : specific.alternateLBA = dev.length - 1) (hend : specific.dataArea.end < 2 ^ 63)
    (h3 : ¬ 3 ≤ specific.dataArea.start) (h : Survives crc dev specific ptes store) :
    chosenHeader crc dev store = none := by
  have hnone : ∀ alternate, headerAt crc dev store (copyLBA specific alternate) = none := by
    intro alternate
    refine (h.each alternate).elim (fun hcopy => ?_) id
    rw [Option.eq_none_iff_forall_ne_some]
    intro gpt hgpt
    obtain ⟨raw, hraw, rfl, hvalid⟩ := headerAt_eq_some.mp hgpt
    obtain ⟨h0, h1, -⟩ := hroom.onDevice alternate
    rw [pttReadSector_eq h0 h1, hcopy.header] at hraw
    obtain rfl := Option.some.inj hraw
    rw [headerSector, pthNewFromRaw_pthGetRaw] at hvalid
    exact h3 ((hcopy.validHeader_iff hroom hend).mp hvalid)
  have hpri : headerAt crc dev store 1 = none := hnone false
  have hbak : headerAt crc dev store (dev.length - 1) = none := halt ▸ hnone true
  rw [chosenHeader, backupLBA_of_none hpri, hpri, hbak]
  rfl

/-- With both copies there nothing has to be asked. -/
theorem Survives.not_asksWhich (hroom : RoomForCopies dev specific)
    (halt : specific.alternateLBA = dev.length - 1) (hend : specific.dataArea.end < 2 ^ 63)
    (h3 : 3 ≤ specific.dataArea.start) (h : Survives crc dev specific ptes store)
    (hboth : ∀ alternate, HoldsCopy crc dev specific alternate ptes store) :
    ¬ AsksWhich crc dev store := by
  obtain ⟨hlba, hmove, -⟩ := h.chosen hroom halt hend h3
  have hpri := (hboth false).headerAt hroom hend h3
  have hbak := (hboth true).headerAt hroom hend h3
  rintro (hno | hno | hno)
  · exact hmove hno
  · exact nomatch hno.symm.trans hpri
  · rw [hlba, ← halt] at hno
    exact nomatch hno.symm.trans hbak

/-- Without one of them something has to be asked. -/
theorem Survives.asksWhich (hroom : RoomForCopies dev specific)
    (halt : specific.alternateLBA = dev.length - 1) (hend : specific.dataArea.end < 2 ^ 63)
    (h : Survives crc dev specific ptes store) (broken : Bool)
    (hbroken : headerAt crc dev store (copyLBA specific broken) = none) :
    AsksWhich crc dev store := by
  cases hpri : headerAt crc dev store 1 with
  | none => exact Or.inr (Or.inl hpri)
  | some pri =>
      have h3 : 3 ≤ specific.dataArea.start := by
        by_contra hno
        have hnone := h.not_chosen hroom halt hend hno
        rw [chosenHeader, hpri] at hnone
        exact absurd hnone (by simp)
      cases broken with
      | false => exact absurd (hbroken.symm.trans hpri) (by simp)
      | true =>
          refine Or.inr (Or.inr ?_)
          rw [(h.chosen hroom halt hend h3).1, ← halt]
          exact hbroken

end Survives

/-! ## Reading a copy -/

/-- The number of sectors the reader wants for the array of a table that has been
written. -/
def wantedSectors (dev : PedDevice) (specific : GPTDiskData) : ℕ :=
  pedDivRoundUp (max (specific.entryCount * sizeofEntry) (128 * 128)) dev.sectorSize

/-- The usable area passes the tests of the reader, and there is no space behind it. -/
structure AreaReadable (dev : PedDevice) (specific : GPTDiskData) : Prop where
  first : 3 ≤ specific.dataArea.start
  nonempty : specific.dataArea.start < specific.dataArea.end
  inside : specific.dataArea.end ≤ dev.length
  room : specific.dataArea.start < dev.length - 2 - wantedSectors dev specific
  full : dev.length - 2 - wantedSectors dev specific ≤ specific.dataArea.end

theorem PedGeometry.eq_of_ends {g g' : PedGeometry} (hstart : g.start = g'.start)
    (hend : g.end = g'.end) : g = g' := by
  obtain ⟨s, l, h0, h1⟩ := g
  obtain ⟨s', l', h0', h1'⟩ := g'
  simp only [PedGeometry.end] at hstart hend
  obtain rfl := hstart
  obtain rfl : l = l' := by omega
  rfl

section Reading

variable {crc : List Byte → BitVec 32} {env : Env} {disk disk₂ : GptDisk} {ptes : List Byte}
  {store : Store} {thrown : List PedException} {a₂ : Attached GPTPartitionData GPTDiskData}

theorem copyHeader_area {specific : GPTDiskData} (crc : List Byte → BitVec 32) (alternate : Bool)
    (ptes : List Byte) (hroom : RoomForCopies env.dev specific)
    (hend : specific.dataArea.end < 2 ^ 63) :
    (copyHeader crc env.dev specific alternate ptes).firstUsableLBA.toInt
        = specific.dataArea.start ∧
      (copyHeader crc env.dev specific alternate ptes).lastUsableLBA.toInt
        = specific.dataArea.end ∧
      lastUsableIfGrown env.dev (copyHeader crc env.dev specific alternate ptes)
        = env.dev.length - 2 - wantedSectors env.dev specific := by
  have hstart0 := specific.dataArea.start_nonneg
  have hle := specific.dataArea.start_le_end
  refine ⟨toInt_ofInt_of_lt hstart0 (by omega), toInt_ofInt_of_lt (by omega) hend, ?_⟩
  rw [lastUsableIfGrown, ptesSectors, (copyHeader_ptesBytes hroom).2]
  rfl

/-- The records of the array are those of the table. -/
theorem Storable.usedRecords_perm (hroom : RoomForCopies env.dev disk.diskSpecific)
    (h : Storable env.dev disk) (hptes : makeEntries env.dev disk = .ok ptes) :
    (usedRecords ptes (BitVec.ofNat 32 sizeofEntry) 0 disk.diskSpecific.entryCount).Perm
      (disk.core.partList.map partRecord) := by
  have hlength := hroom.openable.length
  obtain ⟨ptes', hptes', -, hown, hother⟩ := makeEntries_spec hroom.sectorSize_pos h.writable
    hroom.count.2
  obtain rfl : ptes = ptes' := Except.ok.inj (hptes.symm.trans hptes')
  exact Libparted.usedRecords_perm h.writable
    ⟨fun part hpart => (h.inside part hpart).trans hlength, h.used⟩ hown hother

/-- A copy that survives is undamaged if the reader takes the usable area. -/
theorem Survives.undamaged (disk₂ : GptDisk) (hroom : RoomForCopies env.dev disk.diskSpecific)
    (halt : disk.diskSpecific.alternateLBA = env.dev.length - 1)
    (harea : AreaReadable env.dev disk.diskSpecific) (htable : Storable env.dev disk)
    (hptes : makeEntries env.dev disk = .ok ptes)
    (hsurv : Survives crc env.dev disk.diskSpecific ptes store)
    (hanswer : AsksWhich crc env.dev store → env.answers thrown.length ≠ .cancel)
    (hprobe : gptProbe env.dev store = true) :
    ∃ alternate, Undamaged crc env ⟨⟨disk₂, thrown⟩, ⟨store, []⟩⟩
      (copyHeader crc env.dev disk.diskSpecific alternate ptes) ptes := by
  have hend : disk.diskSpecific.dataArea.end < 2 ^ 63 :=
    lt_of_le_of_lt harea.inside hroom.openable.length
  obtain ⟨hlba, hmove, alternate, hcopy, hchosen⟩ := hsurv.chosen hroom halt hend harea.first
  have hinside := hroom.inside
  have hapart := hroom.apart
  obtain ⟨hfirst, hlast, hgrown⟩ := copyHeader_area crc alternate ptes hroom hend
  have hcount := copyHeader_count crc alternate ptes hroom
  have hrecords : usedRecords ptes
      (copyHeader crc env.dev disk.diskSpecific alternate ptes).sizeOfPartitionEntry 0
      (copyHeader crc env.dev disk.diskSpecific alternate ptes).numberOfPartitionEntries.toNat
      = usedRecords ptes (BitVec.ofNat 32 sizeofEntry) 0 disk.diskSpecific.entryCount := by
    rw [hcount]
    rfl
  have hperm := htable.usedRecords_perm hroom hptes
  refine ⟨alternate, hprobe, ?_, hchosen, ⟨?_, ?_, ?_⟩, ?_, hmove, ?_, ?_, hanswer,
    hcopy.gptReadPEArray hroom, ?_, ?_, ?_⟩
  · show OnDevice env.dev (backupLBA crc env.dev store) 1
    rw [hlba]
    exact ⟨by omega, by omega, by omega⟩
  · rw [hfirst, hlast]
    exact harea.nonempty
  · rw [hlast]
    exact harea.inside
  · rw [hfirst, hgrown]
    exact harea.room
  · unfold EntryCountFits
    rw [hcount]
    exact hroom.count
  · unfold OffersGrowth
    rw [hlast, hgrown]
    exact not_lt.mpr harea.full
  · exact (by decide : ¬ gptHeaderRevisionV100 > gptHeaderRevisionV102)
  · rw [(copyHeader_ptesBytes hroom).2]
    rfl
  · intro r hr
    rw [hrecords] at hr
    obtain ⟨part, hpart, rfl⟩ := List.mem_map.mp (hperm.mem_iff.mp hr)
    exact ⟨part.geom.start_nonneg, part.geom.start_le_end, htable.inside part hpart⟩
  · rw [hrecords]
    exact (hperm.pairwise_iff fun h => h.symm).mpr htable.apart

/-- Whatever is chosen is the header of a copy. -/
theorem Survives.eq_copyHeader {specific : GPTDiskData} {gpt : GuidPartitionTableHeader}
    (hroom : RoomForCopies env.dev specific) (halt : specific.alternateLBA = env.dev.length - 1)
    (hend : specific.dataArea.end < 2 ^ 63) (hsurv : Survives crc env.dev specific ptes store)
    (hgpt : chosenHeader crc env.dev store = some gpt) :
    3 ≤ specific.dataArea.start ∧
      ∃ alternate, gpt = copyHeader crc env.dev specific alternate ptes := by
  have h3 : 3 ≤ specific.dataArea.start := by
    by_contra hno
    exact nomatch hgpt.symm.trans (hsurv.not_chosen hroom halt hend hno)
  obtain ⟨-, -, alternate, -, hc⟩ := hsurv.chosen hroom halt hend h3
  exact ⟨h3, alternate, Option.some.inj (hgpt.symm.trans hc)⟩

theorem Survives.noWrap {specific : GPTDiskData} (hroom : RoomForCopies env.dev specific)
    (halt : specific.alternateLBA = env.dev.length - 1)
    (hend : specific.dataArea.end < 2 ^ 63) (hsurv : Survives crc env.dev specific ptes store) :
    ∀ gpt, chosenHeader crc env.dev store = some gpt → NoWrap gpt := by
  intro gpt hgpt
  obtain ⟨-, alternate, rfl⟩ := hsurv.eq_copyHeader hroom halt hend hgpt
  exact (copyHeader_ptesBytes hroom).1

/-- **One copy is enough** to read the table. -/
theorem Survives.reads (thrown : List PedException)
    (hroom : RoomForCopies env.dev disk.diskSpecific)
    (halt : disk.diskSpecific.alternateLBA = env.dev.length - 1)
    (harea : AreaReadable env.dev disk.diskSpecific) (htable : Storable env.dev disk)
    (hptes : makeEntries env.dev disk = .ok ptes)
    (hsurv : Survives crc env.dev disk.diskSpecific ptes store)
    (hanswer : AsksWhich crc env.dev store → env.answers thrown.length ≠ .cancel)
    (hprobe : gptProbe env.dev store = true) (hempty : Empty env disk₂) :
    ∃ a₂, gptRead crc env ⟨⟨disk₂, thrown⟩, ⟨store, []⟩⟩ = .ok (true, a₂) ∧
      Recovered disk a₂.session.disk ∧
      (¬ AsksWhich crc env.dev store → a₂.session.thrown = thrown) := by
  have hend : disk.diskSpecific.dataArea.end < 2 ^ 63 :=
    lt_of_le_of_lt harea.inside hroom.openable.length
  have hspec : Spec _ (gptRead crc env) ⟨⟨disk₂, thrown⟩, ⟨store, []⟩⟩ _ :=
    gptRead_run hroom.openable hempty (hsurv.noWrap hroom halt hend)
  obtain ⟨alternate, hun⟩ := hsurv.undamaged disk₂ hroom halt harea htable hptes hanswer hprobe
  obtain ⟨ok, a₂, hread, hacc, hquiet⟩ :=
    (hspec.mono (fun _ h => hun.not_harmful hroom.openable.length h) fun _ _ h => h).exists_ok
  obtain ⟨hok, hsilent⟩ := hquiet _ _ hun
  subst hok
  obtain ⟨gpt, move, grow, ptes', hacc⟩ := hacc rfl
  obtain rfl := Option.some.inj (hun.header.symm.trans hacc.header)
  obtain rfl : move = false := Bool.eq_false_iff.mpr fun h => hun.noMove (hacc.offered.1 h)
  obtain rfl : grow = false := Bool.eq_false_iff.mpr fun h => hun.noGrowth (hacc.offered.2 h)
  obtain rfl : ptes = ptes' := Option.some.inj (hun.array.symm.trans hacc.array)
  obtain ⟨hfirst, hlast, -⟩ := copyHeader_area crc alternate ptes hroom hend
  refine ⟨a₂, hread, ⟨?_, PedGeometry.eq_of_ends ?_ ?_, hacc.uuid⟩, hsilent⟩
  · have hrecords := hacc.records
    rw [copyHeader_count crc alternate ptes hroom] at hrecords
    exact hrecords.trans (htable.usedRecords_perm hroom hptes)
  · rw [hacc.start, hfirst]
  · exact hacc.end.trans hlast

/-- What the reader accepts has passed its tests. -/
theorem Survives.area_of_read (hroom : RoomForCopies env.dev disk.diskSpecific)
    (halt : disk.diskSpecific.alternateLBA = env.dev.length - 1)
    (hend : disk.diskSpecific.dataArea.end < 2 ^ 63)
    (hsurv : Survives crc env.dev disk.diskSpecific ptes store) (hempty : Empty env disk₂)
    (hread : gptRead crc env ⟨⟨disk₂, thrown⟩, ⟨store, []⟩⟩ = .ok (true, a₂)) :
    3 ≤ disk.diskSpecific.dataArea.start ∧
      disk.diskSpecific.dataArea.start
        < env.dev.length - 2 - wantedSectors env.dev disk.diskSpecific ∧
      (a₂.session.thrown = thrown → env.dev.length - 2
        - wantedSectors env.dev disk.diskSpecific ≤ disk.diskSpecific.dataArea.end) := by
  obtain ⟨gpt, move, grow, ptes', hacc⟩ :=
    ((gptRead_run hroom.openable hempty (hsurv.noWrap hroom halt hend)).of_ok hread).1 rfl
  obtain ⟨h3, alternate, rfl⟩ := hsurv.eq_copyHeader hroom halt hend hacc.header
  obtain ⟨hfirst, hlast, hgrown⟩ := copyHeader_area crc alternate ptes hroom hend
  have hroom' := hacc.range.room
  rw [hfirst, hgrown] at hroom'
  refine ⟨h3, hroom', fun hsilent => ?_⟩
  have := (hacc.silent hsilent).2.2
  unfold OffersGrowth at this
  rw [hlast, hgrown] at this
  exact not_lt.mp this

/-- A usable area that fails the tests is refused, and nothing worse happens. -/
theorem Survives.refused (thrown : List PedException)
    (hroom : RoomForCopies env.dev disk.diskSpecific)
    (halt : disk.diskSpecific.alternateLBA = env.dev.length - 1)
    (hend : disk.diskSpecific.dataArea.end < 2 ^ 63)
    (hsurv : Survives crc env.dev disk.diskSpecific ptes store) (hempty : Empty env disk₂)
    (harea : ¬ disk.diskSpecific.dataArea.start
      < env.dev.length - 2 - wantedSectors env.dev disk.diskSpecific) :
    ∃ a₂, gptRead crc env ⟨⟨disk₂, thrown⟩, ⟨store, []⟩⟩ = .ok (false, a₂) := by
  have hspec : Spec _ (gptRead crc env) ⟨⟨disk₂, thrown⟩, ⟨store, []⟩⟩ _ :=
    gptRead_run hroom.openable hempty (hsurv.noWrap hroom halt hend)
  have hrange : ∀ gpt, chosenHeader crc env.dev store = some gpt →
      ¬ OffersMove crc env.dev store ∧ ¬ InRange env.dev gpt := by
    intro gpt hgpt
    obtain ⟨h3, alternate, rfl⟩ := hsurv.eq_copyHeader hroom halt hend hgpt
    obtain ⟨hfirst, -, hgrown⟩ := copyHeader_area crc alternate ptes hroom hend
    refine ⟨(hsurv.chosen hroom halt hend h3).2.1, fun hin => harea ?_⟩
    rw [← hfirst, ← hgrown]
    exact hin.room
  have hno : ¬ Harmful crc env.dev store := by
    rintro ⟨-, -, ⟨-, gpt, hgpt, ⟨hmove, -⟩ | ⟨hin, -⟩⟩ | ⟨gpt, -, -, hgpt, hin, -⟩⟩
    · exact (hrange gpt hgpt).1 hmove
    · exact (hrange gpt hgpt).2 hin
    · exact (hrange gpt hgpt).2 hin
  obtain ⟨ok, a₂, hread, -⟩ := (hspec.mono (fun _ => hno) fun _ _ h => h).exists_ok
  cases ok with
  | false => exact ⟨a₂, hread⟩
  | true => exact absurd (hsurv.area_of_read hroom halt hend hempty hread).2.1 harea

end Reading

/-! ## Tables of `gpt_alloc` -/

/-- The tests of the reader, on a table made by `gpt_alloc`: the array is at least one
sector, and the area is not too small for the array rounded up. -/
def ReadableArea (dev : PedDevice) (specific : GPTDiskData) : Prop :=
  dev.sectorSize ≤ gptDefaultPartitionEntryArraySize ∧
    (dev.sectorSize ∣ gptDefaultPartitionEntryArraySize ∨ 3 ≤ specific.dataArea.length)

theorem pedDivRoundUp_eq {n d : ℕ} (hd : 0 < d) :
    pedDivRoundUp n d = n / d + if d ∣ n then 0 else 1 := by
  unfold pedDivRoundUp
  have hmod := Nat.div_add_mod n d
  have hlt := Nat.mod_lt n hd
  have hcomm : (n / d) * d = d * (n / d) := Nat.mul_comm _ _
  split
  · rename_i hdvd
    have h0 := Nat.mod_eq_zero_of_dvd hdvd
    refine Nat.div_eq_of_lt_le ?_ ?_
    · rw [Nat.add_zero]; omega
    · rw [Nat.add_zero, Nat.succ_mul]; omega
  · rename_i hdvd
    have h0 : n % d ≠ 0 := fun h => hdvd (Nat.dvd_of_mod_eq_zero h)
    refine Nat.div_eq_of_lt_le ?_ ?_
    · rw [Nat.add_mul]; omega
    · rw [Nat.succ_mul, Nat.add_mul]; omega

section Alloc

variable {env : Env} {specific : GPTDiskData}

/-- The number of sectors of the arrays, and of the space the reader wants for them. -/
theorem AllocData.sectors_eq (h : AllocData env specific) (hss : 0 < env.dev.sectorSize) :
    arraySectors env.dev specific = wantedSectors env.dev specific ∧
      wantedSectors env.dev specific = gptDefaultPartitionEntryArraySize / env.dev.sectorSize
        + if env.dev.sectorSize ∣ gptDefaultPartitionEntryArraySize then 0 else 1 := by
  have hwanted : wantedSectors env.dev specific
      = pedDivRoundUp gptDefaultPartitionEntryArraySize env.dev.sectorSize := by
    rw [wantedSectors, h.count]
    rfl
  rw [← pedDivRoundUp_eq hss, hwanted, arraySectors, h.count]
  exact ⟨rfl, rfl⟩

theorem AllocData.roomForCopies (hopen : Openable env.dev) (h : AllocData env specific)
    (htwo : 2 ≤ specific.dataArea.length) : RoomForCopies env.dev specific := by
  have hss : 0 < env.dev.sectorSize := by have := hopen.sectors; omega
  obtain ⟨hn, hw⟩ := h.sectors_eq hss
  have hend := h.end
  have hstart := h.start
  have halt := h.alternate
  have hlength := specific.dataArea.length_eq
  refine ⟨hopen, by rw [h.count]; omega, ?_, by omega⟩
  split at hw <;> omega

theorem AllocData.readableArea_iff (h : AllocData env specific) (hss : 0 < env.dev.sectorSize)
    (htwo : 2 ≤ specific.dataArea.length) : ReadableArea env.dev specific ↔
      3 ≤ specific.dataArea.start ∧
        specific.dataArea.start < env.dev.length - 2 - wantedSectors env.dev specific := by
  obtain ⟨-, hw⟩ := h.sectors_eq hss
  have hend := h.end
  have hstart := h.start
  have hlength := specific.dataArea.length_eq
  have hq : env.dev.sectorSize ≤ gptDefaultPartitionEntryArraySize ↔
      1 ≤ gptDefaultPartitionEntryArraySize / env.dev.sectorSize := (Nat.one_le_div_iff hss).symm
  unfold ReadableArea
  rw [hq]
  split at hw
  · rename_i hdvd
    simp only [hdvd, true_or, and_true]
    omega
  · rename_i hdvd
    simp only [hdvd, false_or]
    omega

theorem AllocData.end_lt (hopen : Openable env.dev) (h : AllocData env specific) :
    specific.dataArea.end < env.dev.length ∧ specific.dataArea.end < 2 ^ 63 := by
  have hend := h.end
  have hlength := hopen.length
  have hq := Int.natCast_nonneg (gptDefaultPartitionEntryArraySize / env.dev.sectorSize)
  omega

theorem AllocData.areaReadable (hopen : Openable env.dev) (h : AllocData env specific)
    (htwo : 2 ≤ specific.dataArea.length) (harea : ReadableArea env.dev specific) :
    AreaReadable env.dev specific := by
  have hss : 0 < env.dev.sectorSize := by have := hopen.sectors; omega
  obtain ⟨h3, hroom⟩ := (h.readableArea_iff hss htwo).mp harea
  obtain ⟨-, hw⟩ := h.sectors_eq hss
  have hend := h.end
  have hlength := specific.dataArea.length_eq
  refine ⟨h3, by omega, (h.end_lt hopen).1.le, hroom, ?_⟩
  split at hw <;> omega

end Alloc

section RoundTrip

variable {crc : List Byte → BitVec 32} {env : Env} {disk disk₂ : GptDisk} {ptes : List Byte}
  {store : Store} {thrown : List PedException}

/-- What is left of a table of `gpt_alloc` is read if the signature is where `gpt_probe` looks
for it and the usable area passes the tests. -/
theorem Survives.gptRead_iff (thrown : List PedException) (hopen : Openable env.dev)
    (halloc : AllocData env disk.diskSpecific) (htwo : 2 ≤ disk.diskSpecific.dataArea.length)
    (htable : Storable env.dev disk) (hptes : makeEntries env.dev disk = .ok ptes)
    (hsurv : Survives crc env.dev disk.diskSpecific ptes store)
    (hanswer : AsksWhich crc env.dev store → env.answers thrown.length ≠ .cancel)
    (hempty : Empty env disk₂) :
    (gptProbe env.dev store = true ∧ ∃ a₂,
      gptRead crc env ⟨⟨disk₂, thrown⟩, ⟨store, []⟩⟩ = .ok (true, a₂) ∧
        Recovered disk a₂.session.disk ∧
        (¬ AsksWhich crc env.dev store → a₂.session.thrown = thrown)) ↔
    (pthNewFromRaw (readAt store (sectorPos env.dev 1) env.dev.sectorSize)).signature
        = gptHeaderSignature ∧ ReadableArea env.dev disk.diskSpecific := by
  have hss : 0 < env.dev.sectorSize := by have := hopen.sectors; omega
  have hroom := halloc.roomForCopies hopen htwo
  have hprobe : gptProbe env.dev store = true ↔
      (pthNewFromRaw (readAt store (sectorPos env.dev 1) env.dev.sectorSize)).signature
        = gptHeaderSignature :=
    (gptProbe_iff (hempty.one_lt hopen)).trans (and_iff_right hsurv.pmbr)
  rw [hprobe]
  refine and_congr_right fun hsig => ⟨?_, fun harea => ?_⟩
  · rintro ⟨a₂, hread, -, -⟩
    obtain ⟨h3, hgrown, -⟩ := hsurv.area_of_read hroom halloc.alternate (halloc.end_lt hopen).2
      hempty hread
    exact (halloc.readableArea_iff hss htwo).mpr ⟨h3, hgrown⟩
  · exact hsurv.reads thrown hroom halloc.alternate (halloc.areaReadable hopen htwo harea) htable
      hptes hanswer (hprobe.mpr hsig) hempty

/-- What a successful `gpt_write` leaves on the device. -/
theorem gptWrite_survives {a a₁ : Attached GPTPartitionData GPTDiskData} (hopen : Openable env.dev)
    (halloc : AllocData env a.session.disk.diskSpecific)
    (htwo : 2 ≤ a.session.disk.diskSpecific.dataArea.length) (htable : Storable env.dev a.session.disk)
    (hwrite : gptWrite crc env a = .ok (true, a₁)) :
    ∃ ptes, makeEntries env.dev a.session.disk = .ok ptes ∧
      HoldsPmbr env.dev a₁.medium.store ∧ ∀ alternate,
        HoldsCopy crc env.dev a.session.disk.diskSpecific alternate ptes a₁.medium.store := by
  have hss : 0 < env.dev.sectorSize := by have := hopen.sectors; omega
  have hroom := halloc.roomForCopies hopen htwo
  obtain ⟨ptes, hptes, hlength, -⟩ := makeEntries_spec hss htable.writable
    (by rw [halloc.count]; omega)
  have hone := hroom.one_le
  have hapart := hroom.apart
  have hinside := hroom.inside
  obtain ⟨ok, hrun, -⟩ := gptWrite_spec crc env hptes
    ⟨by omega, ⟨by omega, by omega, by omega⟩⟩
  obtain ⟨-, rfl⟩ := Prod.mk.inj (Except.ok.inj (hwrite.symm.trans hrun))
  have hcopies : a.medium.written crc env.dev a.session.disk.diskSpecific ptes
      = a.medium.withCopies crc env.dev a.session.disk.diskSpecific ptes := if_pos (by omega)
  have hall := hroom.written crc hlength a.medium
  rw [← hcopies] at hall
  exact ⟨ptes, hptes, hall⟩

/-- The bytes of a copy: its header and its array. -/
def CopyByte (dev : PedDevice) (specific : GPTDiskData) (alternate : Bool) (k : ℕ) : Prop :=
  if alternate then sectorPos dev (specific.alternateLBA - arraySectors dev specific) ≤ k ∧
    k < sectorPos dev (specific.alternateLBA + 1)
  else sectorPos dev 1 ≤ k ∧ k < sectorPos dev (2 + arraySectors dev specific)

/-- Damage to one copy leaves the other one, and the protective table. -/
theorem HoldsCopy.of_damaged {specific : GPTDiskData} {store' : Store} (broken : Bool)
    (hroom : RoomForCopies env.dev specific) (hpmbr : HoldsPmbr env.dev store)
    (hcopy : HoldsCopy crc env.dev specific (!broken) ptes store)
    (hsame : ∀ k, ¬ CopyByte env.dev specific broken k → store' k = store k) :
    HoldsPmbr env.dev store' ∧ HoldsCopy crc env.dev specific (!broken) ptes store' := by
  have hapart := hroom.apart
  have hone := hroom.one_le
  have hsector : ∀ s, 0 ≤ s → sectorPos env.dev s + env.dev.sectorSize = sectorPos env.dev (s + 1) := by
    intro s hs
    rw [sectorPos_add hs (by omega)]
    simp
  have hsectors : ∀ s, 0 ≤ s → sectorPos env.dev s + arraySectors env.dev specific
      * env.dev.sectorSize = sectorPos env.dev (s + arraySectors env.dev specific) := by
    intro s hs
    rw [sectorPos_add hs (by omega)]
    simp
  have h01 : sectorPos env.dev 0 + env.dev.sectorSize = sectorPos env.dev 1 := hsector 0 le_rfl
  have hle : ∀ {s t : ℤ}, s ≤ t → sectorPos env.dev s ≤ sectorPos env.dev t := sectorPos_mono
  cases broken with
  | false =>
      have hsame' : ∀ k, k < sectorPos env.dev 1 ∨
          sectorPos env.dev (2 + arraySectors env.dev specific) ≤ k → store' k = store k := by
        intro k hk
        refine hsame k fun h => ?_
        simp only [CopyByte, Bool.false_eq_true, if_false] at h
        omega
      refine ⟨?_, ?_, ?_⟩
      · unfold HoldsPmbr
        rw [readAt_congr fun k _ hk => hsame' k (Or.inl (by omega))]
        exact hpmbr
      · rw [← hcopy.header]
        have := hle (show 2 + (arraySectors env.dev specific : ℤ) ≤ copyLBA specific true by
          simp only [copyLBA, if_true]; omega)
        exact readAt_congr fun k hk _ => hsame' k (Or.inr (le_trans this hk))
      · refine Eq.trans ?_ hcopy.array
        have := hle (show 2 + (arraySectors env.dev specific : ℤ)
          ≤ copyArrayLBA env.dev specific true by simp only [copyArrayLBA, if_true]; omega)
        exact readAt_congr fun k hk _ => hsame' k (Or.inr (le_trans this hk))
  | true =>
      have hsame' : ∀ k, k < sectorPos env.dev (specific.alternateLBA
          - arraySectors env.dev specific) → store' k = store k := by
        intro k hk
        refine hsame k fun h => ?_
        simp only [CopyByte, if_true] at h
        omega
      refine ⟨?_, ?_, ?_⟩
      · unfold HoldsPmbr
        have := hle (show (1 : ℤ) ≤ specific.alternateLBA - arraySectors env.dev specific by omega)
        rw [readAt_congr fun k _ hk => hsame' k (by omega)]
        exact hpmbr
      · rw [← hcopy.header]
        have hnext := hsector (copyLBA specific false) (by simp [copyLBA])
        have := hle (show copyLBA specific false + 1
          ≤ specific.alternateLBA - arraySectors env.dev specific by
            simp only [copyLBA, Bool.false_eq_true, if_false]; omega)
        exact readAt_congr fun k _ hk => hsame' k (lt_of_lt_of_le hk (hnext.le.trans this))
      · refine Eq.trans ?_ hcopy.array
        have hnext := hsectors (copyArrayLBA env.dev specific false) (by simp [copyArrayLBA])
        have := hle (show copyArrayLBA env.dev specific false + arraySectors env.dev specific
          ≤ specific.alternateLBA - arraySectors env.dev specific by
            simp only [copyArrayLBA, Bool.false_eq_true, if_false]; omega)
        exact readAt_congr fun k _ hk => hsame' k (lt_of_lt_of_le hk (hnext.le.trans this))

/-- **One copy is enough**: if the other one is overwritten and its header is rejected, the
table is still read, exactly if the signature in sector 1 is intact and the usable area
passes the tests of the reader. -/
theorem gptRead_damaged_iff {a a₁ : Attached GPTPartitionData GPTDiskData} {uuid : BitVec 128}
    (broken : Bool) (hopen : Openable env.dev)
    (halloc : AllocData env a.session.disk.diskSpecific)
    (htwo : 2 ≤ a.session.disk.diskSpecific.dataArea.length) (htable : Storable env.dev a.session.disk)
    (hwrite : gptWrite crc env a = .ok (true, a₁))
    (hsame : ∀ k, ¬ CopyByte env.dev a.session.disk.diskSpecific broken k →
      store k = a₁.medium.store k)
    (hreject : headerAt crc env.dev store (copyLBA a.session.disk.diskSpecific broken) = none)
    (hanswer : ∀ n, env.answers n = .ok)
    (hfresh : pedDiskNewFresh env uuid [] = .ok (some disk₂, thrown)) :
    (gptProbe env.dev store = true ∧
      ∃ a₂, gptRead crc env ⟨⟨disk₂, thrown⟩, ⟨store, []⟩⟩ = .ok (true, a₂) ∧
        Recovered a.session.disk a₂.session.disk) ↔
    (broken = false →
      (pthNewFromRaw (readAt store (sectorPos env.dev 1) env.dev.sectorSize)).signature
        = gptHeaderSignature) ∧ ReadableArea env.dev a.session.disk.diskSpecific := by
  have hroom := halloc.roomForCopies hopen htwo
  obtain ⟨hempty, -, -⟩ := ((pedDiskNewFresh_spec hopen.sectors).of_ok hfresh).2 disk₂ rfl
  obtain ⟨ptes, hptes, hpmbr, hcopies⟩ := gptWrite_survives hopen halloc htwo htable hwrite
  obtain ⟨hpmbr', hcopy⟩ := HoldsCopy.of_damaged broken hroom hpmbr (hcopies (!broken)) hsame
  have hsurv : Survives crc env.dev a.session.disk.diskSpecific ptes store := by
    refine ⟨hpmbr', fun alternate => ?_, !broken, hcopy⟩
    by_cases heq : alternate = broken
    · exact Or.inr (heq ▸ hreject)
    · exact Or.inl (by rwa [Bool.eq_not.mpr heq])
  have hask : AsksWhich crc env.dev store := hsurv.asksWhich hroom halloc.alternate
    (halloc.end_lt hopen).2 broken hreject
  have hiff := hsurv.gptRead_iff thrown hopen halloc htwo htable hptes
    (fun _ h => nomatch (hanswer _).symm.trans h) hempty
  simp only [not_true_eq_false, false_imp_iff, and_true, hask] at hiff
  rw [hiff]
  refine and_congr_left fun _ => ⟨fun h _ => h, fun h => ?_⟩
  cases broken with
  | false => exact h rfl
  | true => exact hcopy.signature

end RoundTrip

/-! ## Samples -/

/-- A partition in the sectors 40 to 50. -/
def storedPartition : GptPartition :=
  ⟨1, .normal, 1, .fromTo 40 50, some ⟨1, 0, Vector.replicate 36 0, 0⟩⟩

/-- A table with this partition, as `gpt_alloc` makes it on a hundred sectors. -/
def storedDisk : GptDisk :=
  ⟨[storedPartition], [], 0, true, ⟨.fromTo 34 66, 128, 0, false, 99⟩⟩

theorem storedDisk_storable : Storable hundredSectors storedDisk := by
  have hcore : storedDisk.core.partList = [storedPartition] := rfl
  refine ⟨⟨⟨by decide, ?_, rfl⟩, ?_, ?_⟩, ?_, ?_, ?_⟩
  · rintro part (hpart | hpart)
    · rw [hcore, List.mem_singleton] at hpart
      subst hpart
      decide
    · cases hpart
  · rw [hcore]
    exact fun part hpart => (List.mem_singleton.mp hpart) ▸ rfl
  · rw [hcore]
    simpa using ⟨_, rfl⟩
  · intro part hpart data hdata
    rw [hcore, List.mem_singleton] at hpart
    subst hpart
    obtain rfl := Option.some.inj hdata
    decide
  · intro part hpart
    rw [hcore, List.mem_singleton] at hpart
    subst hpart
    decide
  · rw [hcore]
    exact List.pairwise_singleton _ _

theorem roomForGpt_hundred : RoomForGpt hundredSectors := by
  unfold RoomForGpt
  decide

theorem storedDisk_alloc (answers : ℕ → PedExceptionOption) :
    AllocData ⟨hundredSectors, answers⟩ storedDisk.diskSpecific :=
  ⟨roomForGpt_hundred, (by decide : (34 : ℤ) = 2 + (16384 / 512 : ℕ)),
    (by decide : (66 : ℤ) = 100 - 2 - (16384 / 512 : ℕ)), rfl, rfl⟩

/-- A table of `gpt_alloc` is written. -/
theorem exists_gptWrite {env : Env} {disk : GptDisk} (crc : List Byte → BitVec 32)
    (hopen : Openable env.dev) (halloc : AllocData env disk.diskSpecific)
    (htwo : 2 ≤ disk.diskSpecific.dataArea.length) (htable : Storable env.dev disk) :
    ∃ a₁, gptWrite crc env ⟨⟨disk, []⟩, ⟨fun _ => 0, []⟩⟩ = .ok (true, a₁) := by
  have hroom := halloc.roomForCopies hopen htwo
  obtain ⟨ptes, hptes, -⟩ := makeEntries_spec hroom.sectorSize_pos htable.writable hroom.count.2
  have hone := hroom.one_le
  have hapart := hroom.apart
  have hinside := hroom.inside
  obtain ⟨ok, hrun, hok⟩ := gptWrite_spec crc env (a := ⟨⟨disk, []⟩, ⟨fun _ => 0, []⟩⟩) hptes
    ⟨by dsimp only; omega, ⟨by dsimp only; omega, by omega, by dsimp only; omega⟩⟩
  obtain rfl : ok = true := hok.mpr (by dsimp only; omega)
  exact ⟨_, hrun⟩

theorem readableArea_hundred : ReadableArea hundredSectors storedDisk.diskSpecific :=
  ⟨by decide, Or.inl (by decide)⟩

/-- It also comes back if the backup header is overwritten with zeroes. -/
theorem gptRead_damaged_hundred :
    ∃ a₁ disk a₂, gptWrite zeroSum ⟨hundredSectors, fun _ => .ok⟩
        ⟨⟨storedDisk, []⟩, ⟨fun _ => 0, []⟩⟩ = .ok (true, a₁) ∧
      gptRead zeroSum ⟨hundredSectors, fun _ => .ok⟩ ⟨⟨disk, []⟩,
          ⟨writeAt a₁.medium.store (99 * 512) (List.replicate 512 0), []⟩⟩ = .ok (true, a₂) ∧
      Recovered storedDisk a₂.session.disk := by
  obtain ⟨a₁, hwrite⟩ := exists_gptWrite zeroSum ⟨by decide, by decide⟩
    (storedDisk_alloc fun _ => .ok) (by decide) storedDisk_storable
  obtain ⟨disk, hfresh, -⟩ := exists_pedDiskNewFresh ⟨hundredSectors, fun _ => .ok⟩ 0 (by decide)
    roomForGpt_hundred
  have hreject : headerAt zeroSum hundredSectors
      (writeAt a₁.medium.store (99 * 512) (List.replicate 512 0)) 99 = none := by
    have hraw : readAt (writeAt a₁.medium.store (99 * 512) (List.replicate 512 0))
        (sectorPos hundredSectors 99) hundredSectors.sectorSize = List.replicate 512 0 :=
      readAt_writeAt_same List.length_replicate
    rw [headerAt_eq (by decide) (by decide), hraw]
    refine if_neg fun h => ?_
    exact absurd (headerIsValid_iff.mp h).signature (by decide)
  have hsame : ∀ k, ¬ CopyByte hundredSectors storedDisk.diskSpecific true k →
      writeAt a₁.medium.store (99 * 512) (List.replicate 512 0) k = a₁.medium.store k := by
    intro k hk
    have hpos : CopyByte hundredSectors storedDisk.diskSpecific true k ↔
        67 * 512 ≤ k ∧ k < 100 * 512 := Iff.rfl
    rw [hpos] at hk
    refine writeAt_of_not_mem ?_
    rw [List.length_replicate]
    omega
  obtain ⟨-, a₂, hread, hrec⟩ := (gptRead_damaged_iff true ⟨by decide, by decide⟩
    (storedDisk_alloc _) (by decide) storedDisk_storable hwrite hsame hreject
    (fun _ => rfl) hfresh).mpr ⟨fun h => (nomatch h), readableArea_hundred⟩
  exact ⟨a₁, disk, a₂, hwrite, hread, hrec⟩

/-- Fifteen sectors of 3072 bytes. -/
def fifteenSectors : PedDevice := { hundredSectors with length := 15, sectorSize := 3072 }

/-- Writes a table, lets something happen to the device and reads it again.  Tells the
length of the data area, whether `gpt_write` succeeded, whether there is a valid header
in the last sector, and what `gpt_probe` and `gpt_read` return. -/
def rereadGpt (env : Env) (disk : GptDisk) (damage : Store → Store) :
    Except Fault (ℤ × Bool × Bool × Bool × Bool) := do
  let (ok, a) ← gptWrite zeroSum env ⟨⟨disk, []⟩, ⟨fun _ => 0, []⟩⟩
  let store := damage a.medium.store
  match ← pedDiskNewFresh env 0 [] with
  | (none, _) => throw (.assertion "disk")
  | (some fresh, thrown) =>
      let (ok', _) ← gptRead zeroSum env ⟨⟨fresh, thrown⟩, ⟨store, []⟩⟩
      return (disk.diskSpecific.dataArea.length, ok,
        (headerAt zeroSum env.dev store (env.dev.length - 1)).isSome, gptProbe env.dev store, ok')

/-- An empty table with a data area of two sectors, as `gpt_alloc` makes it on fifteen
sectors. -/
def tightDisk : GptDisk := ⟨[], [], 0, true, ⟨.fromTo 7 8, 128, 0, false, 14⟩⟩

theorem tightDisk_storable : Storable fifteenSectors tightDisk := by
  refine ⟨⟨⟨by decide, ?_, rfl⟩, ?_, ?_⟩, ?_, ?_, List.Pairwise.nil⟩
  · rintro part (hpart | hpart) <;> exact nomatch hpart
  all_goals exact fun part hpart => nomatch hpart

theorem roomForGpt_fifteen : RoomForGpt fifteenSectors := by
  unfold RoomForGpt
  decide

theorem tightDisk_alloc (answers : ℕ → PedExceptionOption) :
    AllocData ⟨fifteenSectors, answers⟩ tightDisk.diskSpecific :=
  ⟨roomForGpt_fifteen, (by decide : (7 : ℤ) = 2 + (16384 / 3072 : ℕ)),
    (by decide : (8 : ℤ) = 15 - 2 - (16384 / 3072 : ℕ)), rfl, rfl⟩

theorem rereadGpt_eq {env : Env} {disk fresh : GptDisk} (damage : Store → Store) {ok ok' : Bool}
    {a a' : Attached GPTPartitionData GPTDiskData}
    (hwrite : gptWrite zeroSum env ⟨⟨disk, []⟩, ⟨fun _ => 0, []⟩⟩ = .ok (ok, a))
    (hfresh : pedDiskNewFresh env 0 [] = .ok (some fresh, []))
    (hread : gptRead zeroSum env ⟨⟨fresh, []⟩, ⟨damage a.medium.store, []⟩⟩ = .ok (ok', a')) :
    rereadGpt env disk damage = .ok (disk.diskSpecific.dataArea.length, ok,
      (headerAt zeroSum env.dev (damage a.medium.store) (env.dev.length - 1)).isSome,
      gptProbe env.dev (damage a.medium.store), ok') := by
  unfold rereadGpt
  rw [hwrite, ok_bind]
  dsimp only
  rw [hfresh, ok_bind]
  dsimp only
  rw [hread, ok_bind]
  rfl

/-- Zeroes in sector 1 hide the backup. -/
theorem gptRead_damaged_fails :
    (rereadGpt ⟨hundredSectors, fun _ => .ok⟩ storedDisk
        fun store => writeAt store 512 (List.replicate 512 0)).toOption
      = some (33, true, true, false, false) := by
  have hopen : Openable (⟨hundredSectors, fun _ => .ok⟩ : Env).dev := ⟨by decide, by decide⟩
  have halloc := storedDisk_alloc fun _ => .ok
  have hroom := halloc.roomForCopies hopen (by decide)
  obtain ⟨a, hwrite⟩ := exists_gptWrite zeroSum hopen halloc (by decide) storedDisk_storable
  obtain ⟨ptes, -, hpmbr, hcopies⟩ := gptWrite_survives hopen halloc (by decide)
    storedDisk_storable hwrite
  obtain ⟨fresh, hfresh, hempty⟩ := exists_pedDiskNewFresh ⟨hundredSectors, fun _ => .ok⟩ 0
    (by decide) roomForGpt_hundred
  have hsame : ∀ k, ¬ CopyByte hundredSectors storedDisk.diskSpecific false k →
      writeAt a.medium.store 512 (List.replicate 512 0) k = a.medium.store k := by
    intro k hk
    have hpos : CopyByte hundredSectors storedDisk.diskSpecific false k ↔
        1 * 512 ≤ k ∧ k < 34 * 512 := Iff.rfl
    rw [hpos] at hk
    refine writeAt_of_not_mem ?_
    rw [List.length_replicate]
    omega
  have hraw : readAt (writeAt a.medium.store 512 (List.replicate 512 0))
      (sectorPos hundredSectors 1) hundredSectors.sectorSize = List.replicate 512 0 :=
    readAt_writeAt_same List.length_replicate
  generalize hstore : writeAt a.medium.store 512 (List.replicate 512 0) = store at hsame hraw
  obtain ⟨-, hcopy⟩ := HoldsCopy.of_damaged false hroom hpmbr (hcopies true) hsame
  have hlast := hcopy.headerAt hroom (by decide) (by decide)
  -- `gpt_probe` looks at the signature in sector 1
  have hprobe : gptProbe hundredSectors store = false := by
    rw [Bool.eq_false_iff]
    intro h
    have hsig := ((gptProbe_iff (by decide)).mp h).2
    rw [hraw] at hsig
    exact absurd hsig (by decide)
  obtain ⟨ok, s', hdelete, -⟩ := (hempty.deleteAll (E := fun _ => False) (s := ⟨fresh, []⟩)
    (by decide)).exists_ok
  have hrun : inMemory (pedDiskDeleteAll gptDiskType ⟨hundredSectors, fun _ => .ok⟩)
      ⟨⟨fresh, []⟩, ⟨store, []⟩⟩ = .ok (ok, ⟨s', ⟨store, []⟩⟩) := by
    unfold inMemory
    rw [hdelete]
    rfl
  have hread : gptRead zeroSum ⟨hundredSectors, fun _ => .ok⟩ ⟨⟨fresh, []⟩, ⟨store, []⟩⟩
      = .ok (false, ⟨s', ⟨store, []⟩⟩) := by
    unfold gptRead
    rw [run_bind_ok hrun]
    refine (run_bind_ok (show getStore (⟨s', ⟨store, []⟩⟩ : Attached GPTPartitionData GPTDiskData)
      = .ok (store, ⟨s', ⟨store, []⟩⟩) from rfl)).trans ?_
    exact congrFun (if_pos (by simp [hprobe])) _
  have hreread := rereadGpt_eq (fun store => writeAt store 512 (List.replicate 512 0))
    hwrite hfresh (hstore.symm ▸ hread)
  have hbackup : hundredSectors.length - 1 = copyLBA storedDisk.diskSpecific (!false) := rfl
  rw [hreread, hstore, hbackup, hlast, hprobe]
  rfl

end Libparted
