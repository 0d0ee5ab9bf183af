import Libparted.Labels.Gpt.Commit

/-!
# Two copies of one table

A device that `gpt_write` has written holds the table twice.  `HoldsCopy` says that the
bytes of a copy are on the device; from it follows what the reader makes of its header
(`HoldsCopy.headerAt`) and of its array (`HoldsCopy.gptReadPEArray`), whatever there is
on the rest of the device.
-/

namespace Libparted

open Library

/-! ## A copy on the device -/

section Copy

variable (crc : List Byte → BitVec 32) (dev : PedDevice) (specific : GPTDiskData)
  (alternate : Bool) (ptes : List Byte)

/-- The sector of the header. -/
def copyLBA (specific : GPTDiskData) (alternate : Bool) : ℤ :=
  if alternate then specific.alternateLBA else 1

/-- The first sector of the array. -/
def copyArrayLBA : ℤ := if alternate then specific.alternateLBA - arraySectors dev specific else 2

/-- The header `gpt_write` makes. -/
def copyHeader : GuidPartitionTableHeader :=
  generateHeader crc dev specific alternate (crc (ptes.take (specific.entryCount * sizeofEntry)))

/-- The bytes of a copy are where they belong. -/
structure HoldsCopy (store : Store) : Prop where
  header : readAt store (sectorPos dev (copyLBA specific alternate)) dev.sectorSize
    = headerSector crc dev specific alternate ptes
  array : readAt store (sectorPos dev (copyArrayLBA dev specific alternate))
    (arraySectors dev specific * dev.sectorSize) = ptes

/-- The device has room for two copies, and one is apart from the other. -/
structure RoomForCopies : Prop where
  openable : Openable dev
  count : 0 < specific.entryCount ∧ specific.entryCount ≤ 8192
  apart : 2 + (arraySectors dev specific : ℤ) ≤ specific.alternateLBA - arraySectors dev specific
  inside : specific.alternateLBA < dev.length

end Copy

section Copies

variable {crc : List Byte → BitVec 32} {dev : PedDevice} {specific : GPTDiskData}
  {alternate : Bool} {ptes : List Byte} {store : Store}

theorem toInt_ofInt_of_lt {x : ℤ} (h0 : 0 ≤ x) (h : x < 2 ^ 63) : (BitVec.ofInt 64 x).toInt = x := by
  rw [BitVec.toInt_ofInt]
  exact Int.bmod_eq_of_le (by omega) (by omega)

theorem RoomForCopies.sectorSize_pos (h : RoomForCopies dev specific) : 0 < dev.sectorSize := by
  have := h.openable.sectors
  omega

theorem RoomForCopies.one_le (h : RoomForCopies dev specific) : 1 ≤ arraySectors dev specific := by
  have hss := h.sectorSize_pos
  have hle := le_arraySectors hss specific
  rcases Nat.eq_zero_or_pos (arraySectors dev specific) with h0 | h1
  · rw [h0] at hle
    have := h.count.1
    simp only [sizeofEntry] at hle
    omega
  · exact h1

theorem RoomForCopies.onDevice (h : RoomForCopies dev specific) (alternate : Bool) :
    0 ≤ copyLBA specific alternate ∧ copyLBA specific alternate < dev.length ∧
      OnDevice dev (copyArrayLBA dev specific alternate) (arraySectors dev specific) := by
  have hapart := h.apart
  have hinside := h.inside
  have hone := h.one_le
  unfold copyLBA copyArrayLBA OnDevice
  split <;> omega

theorem copyHeader_count (crc : List Byte → BitVec 32) (alternate : Bool) (ptes : List Byte)
    (h : RoomForCopies dev specific) :
    (copyHeader crc dev specific alternate ptes).numberOfPartitionEntries.toNat
      = specific.entryCount := by
  have := h.count.2
  exact Nat.mod_eq_of_lt (by omega)

theorem copyHeader_ptesBytes (h : RoomForCopies dev specific) :
    NoWrap (copyHeader crc dev specific alternate ptes) ∧
      ptesBytes (copyHeader crc dev specific alternate ptes)
        = specific.entryCount * sizeofEntry := by
  have hcount := copyHeader_count crc alternate ptes h
  have hwrap : NoWrap (copyHeader crc dev specific alternate ptes) := by
    unfold NoWrap
    rw [hcount]
    have := h.count.2
    show specific.entryCount * 128 < 2 ^ 32
    omega
  refine ⟨hwrap, ?_⟩
  rw [ptesBytes_eq hwrap, hcount]
  rfl

theorem HoldsCopy.gptReadPEArray (hroom : RoomForCopies dev specific)
    (h : HoldsCopy crc dev specific alternate ptes store) :
    Libparted.gptReadPEArray dev store (copyHeader crc dev specific alternate ptes)
      = some ptes := by
  obtain ⟨hlba, hlba', hon⟩ := hroom.onDevice alternate
  have hlength := hroom.openable.length
  have hstart : (copyHeader crc dev specific alternate ptes).partitionEntryLBA.toInt
      = copyArrayLBA dev specific alternate := by
    cases alternate with
    | false => rfl
    | true =>
        have hinside := hroom.inside
        exact toInt_ofInt_of_lt hon.1 (by omega)
  unfold Libparted.gptReadPEArray
  rw [(copyHeader_ptesBytes hroom).2, hstart]
  exact (pedDeviceRead_eq hon).trans (congrArg some h.array)

/-- **The header of a copy is valid** exactly if the usable area starts behind the first
three sectors. -/
theorem HoldsCopy.validHeader_iff (hroom : RoomForCopies dev specific)
    (hend : specific.dataArea.end < 2 ^ 63) (h : HoldsCopy crc dev specific alternate ptes store) :
    ValidHeader crc dev store (copyHeader crc dev specific alternate ptes)
      (copyLBA specific alternate) ↔ 3 ≤ specific.dataArea.start := by
  have hstart0 := specific.dataArea.start_nonneg
  have hle := specific.dataArea.start_le_end
  have hfirst : (copyHeader crc dev specific alternate ptes).firstUsableLBA.toInt
      = specific.dataArea.start := toInt_ofInt_of_lt hstart0 (by omega)
  have hlast : (copyHeader crc dev specific alternate ptes).lastUsableLBA.toInt
      = specific.dataArea.end := toInt_ofInt_of_lt (by omega) hend
  constructor
  · intro hvalid
    exact hfirst ▸ hvalid.first
  · intro h3
    have hapart := hroom.apart
    have hinside := hroom.inside
    have hlength := hroom.openable.length
    have hsectors := hroom.openable.sectors
    have hone := hroom.one_le
    have halt : (BitVec.ofInt 64 specific.alternateLBA).toInt = specific.alternateLBA :=
      toInt_ofInt_of_lt (by omega) (by omega)
    refine ⟨rfl, ⟨le_rfl, ?_⟩, (by decide : entrySizeIsValid (BitVec.ofNat 32 sizeofEntry) = true),
      ?_, ?_, ?_, ?_, hfirst ▸ h3, by rw [hfirst, hlast]; exact hle, rfl⟩
    · show 92 ≤ dev.sectorSize
      omega
    · cases alternate <;> rfl
    · cases alternate with
      | false => exact fun hno => absurd rfl hno
      | true => exact fun _ => rfl
    · cases alternate with
      | false =>
          show (BitVec.ofInt 64 specific.alternateLBA).toInt ≠ 1
          omega
      | true =>
          show (1 : ℤ) ≠ specific.alternateLBA
          omega
    · unfold checkPEArrayCRC
      rw [h.gptReadPEArray hroom]
      simp only [(copyHeader_ptesBytes hroom).2, decide_eq_true_eq]
      rfl

/-- **What the reader makes of a copy.** -/
theorem HoldsCopy.headerAt (hroom : RoomForCopies dev specific)
    (hend : specific.dataArea.end < 2 ^ 63) (h3 : 3 ≤ specific.dataArea.start)
    (h : HoldsCopy crc dev specific alternate ptes store) :
    Libparted.headerAt crc dev store (copyLBA specific alternate)
      = some (copyHeader crc dev specific alternate ptes) := by
  obtain ⟨h0, h1, -⟩ := hroom.onDevice alternate
  refine headerAt_eq_some.mpr ⟨_, pttReadSector_eq h0 h1, ?_, (h.validHeader_iff hroom hend).mpr h3⟩
  rw [h.header]
  exact (pthNewFromRaw_pthGetRaw _).symm

/-- A copy of the table is recognised by its signature. -/
theorem HoldsCopy.signature (h : HoldsCopy crc dev specific alternate ptes store) :
    (pthNewFromRaw (readAt store (sectorPos dev (copyLBA specific alternate))
      dev.sectorSize)).signature = gptHeaderSignature := by
  rw [h.header, headerSector, pthNewFromRaw_pthGetRaw]
  rfl

/-- The primary copy is the place to look for the backup. -/
theorem copyHeader_alternateLBA (hroom : RoomForCopies dev specific) :
    (copyHeader crc dev specific false ptes).alternateLBA.toInt = specific.alternateLBA := by
  have hapart := hroom.apart
  have hinside := hroom.inside
  have hlength := hroom.openable.length
  exact toInt_ofInt_of_lt (by omega) (by omega)

end Copies

/-! ## What `gpt_write` leaves behind -/

section Written

variable {crc : List Byte → BitVec 32} {dev : PedDevice} {specific : GPTDiskData}
  {alternate : Bool} {ptes buffer : List Byte} {m : Medium} {s n start count : ℤ}

theorem Medium.readAt_write_same (m : Medium) (start : ℤ)
    (h : buffer.length = count.toNat * dev.sectorSize) :
    readAt (m.write dev buffer start count).store (sectorPos dev start)
      (count.toNat * dev.sectorSize) = buffer := by
  unfold write
  rw [List.take_of_length_le h.le]
  exact readAt_writeAt_same h

theorem Medium.readAt_write_of_disjoint (hs : 0 ≤ s) (hn : 0 ≤ n) (hon : OnDevice dev start count)
    (h : s + n ≤ start ∨ start + count ≤ s) :
    readAt (m.write dev buffer start count).store (sectorPos dev s) (n.toNat * dev.sectorSize)
      = readAt m.store (sectorPos dev s) (n.toNat * dev.sectorSize) := by
  refine readAt_writeAt_of_disjoint ?_
  have hlen := List.length_take_le (count.toNat * dev.sectorSize) buffer
  have hdisjoint : sectorPos dev s + n.toNat * dev.sectorSize ≤ sectorPos dev start ∨
      sectorPos dev start + count.toNat * dev.sectorSize ≤ sectorPos dev s :=
    sectorPos_disjoint hs hon.1 hon.2.1 hn h
  omega

theorem length_pmbrSector (h512 : 512 ≤ dev.sectorSize) (pmbrBoot : Bool) (store : Store) :
    (pmbrSector dev pmbrBoot store).length = dev.sectorSize := by
  have hsize : legacyMBRCodec.size = 512 := rfl
  rw [pmbrSector, List.length_append, Codec.length_encode, List.length_drop, length_readAt, hsize]
  omega

theorem length_headerSector (h512 : 512 ≤ dev.sectorSize) :
    (headerSector crc dev specific alternate ptes).length = dev.sectorSize := by
  have hsize : headerCodec.size = 92 := rfl
  rw [headerSector, pthGetRaw, List.length_append, Codec.length_encode, hsize]
  show 92 + (List.replicate (dev.sectorSize - 92) (0 : Byte)).length = _
  rw [List.length_replicate]
  omega

/-- There is a protective table in sector 0. -/
def HoldsPmbr (dev : PedDevice) (store : Store) : Prop :=
  pmbrIsValid (legacyMBRCodec.decode (readAt store (sectorPos dev 0) dev.sectorSize)) = true

theorem gptProbe_iff {store : Store} (hdev : 1 < dev.length) : gptProbe dev store = true ↔
    HoldsPmbr dev store ∧ (pthNewFromRaw (readAt store (sectorPos dev 1) dev.sectorSize)).signature
      = gptHeaderSignature := by
  have hone : pedDeviceRead dev store 1 1 = some (readAt store (sectorPos dev 1) dev.sectorSize) :=
    pttReadSector_eq (by omega) hdev
  unfold gptProbe HoldsPmbr
  rw [if_neg (by omega), pttReadSector_eq le_rfl (by omega), hone]
  simp

theorem pmbrIsValid_pmbrSector (pmbrBoot : Bool) (store : Store) :
    pmbrIsValid (legacyMBRCodec.decode (pmbrSector dev pmbrBoot store)) = true := by
  rw [pmbrSector, Codec.decode_encode]
  rfl

/-- **Both copies are there**, and the protective table. -/
theorem RoomForCopies.written (crc : List Byte → BitVec 32) (hroom : RoomForCopies dev specific)
    (hptes : ptes.length = arraySectors dev specific * dev.sectorSize) (m : Medium) :
    HoldsPmbr dev (m.withCopies crc dev specific ptes).store ∧
      ∀ alternate, HoldsCopy crc dev specific alternate ptes
        (m.withCopies crc dev specific ptes).store := by
  have h512 := hroom.openable.sectors
  have hapart := hroom.apart
  have hinside := hroom.inside
  have hone := hroom.one_le
  set n := arraySectors dev specific with hn
  have hsector : ∀ store s, readAt store (sectorPos dev s) dev.sectorSize
      = readAt store (sectorPos dev s) ((1 : ℤ).toNat * dev.sectorSize) := by simp
  have hptes' : ptes.length = (n : ℤ).toNat * dev.sectorSize := by simpa using hptes
  have hon0 : OnDevice dev 0 1 := ⟨le_rfl, by omega, by omega⟩
  have hon1 : OnDevice dev 1 1 := ⟨by omega, by omega, by omega⟩
  have hon2 : OnDevice dev 2 n := ⟨by omega, by omega, by omega⟩
  have hon3 : OnDevice dev specific.alternateLBA 1 := ⟨by omega, by omega, by omega⟩
  have hon4 : OnDevice dev (specific.alternateLBA - n) n := ⟨by omega, by omega, by omega⟩
  refine ⟨?_, fun alternate => ?_⟩
  · unfold HoldsPmbr
    rw [hsector]
    unfold Medium.withCopies Medium.withHeaders Medium.withPrimary
    rw [Medium.readAt_write_of_disjoint le_rfl (by omega) hon4 (by omega),
      Medium.readAt_write_of_disjoint le_rfl (by omega) hon3 (by omega),
      Medium.readAt_write_of_disjoint le_rfl (by omega) hon2 (by omega),
      Medium.readAt_write_of_disjoint le_rfl (by omega) hon1 (by omega),
      Medium.readAt_write_same m 0 (by simpa using length_pmbrSector h512 _ _)]
    exact pmbrIsValid_pmbrSector _ _
  · have hnat : n * dev.sectorSize = (n : ℤ).toNat * dev.sectorSize := by simp
    have hlen : ∀ alternate, (headerSector crc dev specific alternate ptes).length
        = (1 : ℤ).toNat * dev.sectorSize := fun alternate => by
      rw [length_headerSector h512]
      simp
    cases alternate with
    | false =>
        constructor
        · rw [hsector]
          unfold Medium.withCopies Medium.withHeaders Medium.withPrimary copyLBA
          rw [Medium.readAt_write_of_disjoint (by simp) (by omega) hon4 (by simp; omega),
            Medium.readAt_write_of_disjoint (by simp) (by omega) hon3 (by simp; omega),
            Medium.readAt_write_of_disjoint (by simp) (by omega) hon2 (by simp)]
          exact Medium.readAt_write_same _ 1 (hlen false)
        · rw [← hn, hnat]
          unfold Medium.withCopies Medium.withHeaders Medium.withPrimary copyArrayLBA
          rw [Medium.readAt_write_of_disjoint (by simp) (by omega) hon4 (by simp; omega),
            Medium.readAt_write_of_disjoint (by simp) (by omega) hon3 (by simp; omega)]
          exact Medium.readAt_write_same _ 2 hptes'
    | true =>
        constructor
        · rw [hsector]
          unfold Medium.withCopies Medium.withHeaders copyLBA
          rw [Medium.readAt_write_of_disjoint (by simp; omega) (by omega) hon4 (by simp)]
          exact Medium.readAt_write_same _ specific.alternateLBA (hlen true)
        · rw [← hn, hnat]
          unfold Medium.withCopies copyArrayLBA
          exact Medium.readAt_write_same _ (specific.alternateLBA - n) hptes'

end Written

end Libparted
