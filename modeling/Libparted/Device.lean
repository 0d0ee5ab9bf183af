import Libparted.Geometry
import Libparted.Library.Bytes

/-!
# Sectors of a device (`libparted/device.c`, `labels/pt-tools.c`)

The contents of a device are a store of bytes, of which a sector is a stretch.  A
read or a write succeeds exactly when it stays on the device.  What the operating
system layer asks when one fails is not part of the model: a failed transfer is a
failure return.
-/

namespace Libparted

open Library

/-- The `count` sectors from `start` on are on the device. -/
def OnDevice (dev : PedDevice) (start count : ℤ) : Prop :=
  0 ≤ start ∧ 0 ≤ count ∧ start + count ≤ dev.length

instance (dev : PedDevice) (start count : ℤ) : Decidable (OnDevice dev start count) :=
  inferInstanceAs (Decidable (_ ∧ _ ∧ _))

/-- Where a sector begins. -/
def sectorPos (dev : PedDevice) (sector : ℤ) : ℕ := sector.toNat * dev.sectorSize

/-- `ped_device_read`. -/
def pedDeviceRead (dev : PedDevice) (store : Store) (start count : ℤ) : Option (List Byte) :=
  if OnDevice dev start count then
    some (readAt store (sectorPos dev start) (count.toNat * dev.sectorSize))
  else none

/-- `ped_device_write`, with a buffer of at least `count` sectors. -/
def pedDeviceWrite (dev : PedDevice) (store : Store) (buffer : List Byte) (start count : ℤ) :
    Option Store :=
  if OnDevice dev start count then
    some (writeAt store (sectorPos dev start) (buffer.take (count.toNat * dev.sectorSize)))
  else none

/-- `ptt_read_sector`. -/
def pttReadSector (dev : PedDevice) (store : Store) (sector : ℤ) : Option (List Byte) :=
  pedDeviceRead dev store sector 1

section Transfers

variable {dev : PedDevice} {store : Store} {buffer : List Byte} {start count s n : ℤ}

theorem pedDeviceRead_eq (h : OnDevice dev start count) :
    pedDeviceRead dev store start count
      = some (readAt store (sectorPos dev start) (count.toNat * dev.sectorSize)) := if_pos h

theorem pttReadSector_eq (h0 : 0 ≤ s) (hs : s < dev.length) :
    pttReadSector dev store s = some (readAt store (sectorPos dev s) dev.sectorSize) := by
  have hon : OnDevice dev s 1 := ⟨h0, by omega, by omega⟩
  rw [pttReadSector, pedDeviceRead_eq hon]
  simp

/-- Sectors that are not written keep their contents. -/
theorem sectorPos_disjoint (hs : 0 ≤ s) (hstart : 0 ≤ start) (hcount : 0 ≤ count) (hn : 0 ≤ n)
    (h : s + n ≤ start ∨ start + count ≤ s) :
    sectorPos dev s + n.toNat * dev.sectorSize ≤ sectorPos dev start ∨
      sectorPos dev start + count.toNat * dev.sectorSize ≤ sectorPos dev s := by
  unfold sectorPos
  rw [← Nat.add_mul, ← Nat.add_mul]
  rcases h with h | h
  · exact Or.inl (Nat.mul_le_mul_right _ (by omega))
  · exact Or.inr (Nat.mul_le_mul_right _ (by omega))

end Transfers

end Libparted
