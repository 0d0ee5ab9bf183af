import Libparted.Device
import Libparted.Disk.Operations

/-!
# A disk and the device it is on

The functions that read and write tables work on two things at once: the partition
table in memory, and the contents of the device.  `Attached` holds both, and
`DeviceM` are the programs over it.  A program that changes the table only is run by
`inMemory`.

Of the device we keep, besides its contents, which sectors have been written: in C a
write leaves no trace that could be looked at, but which sectors a function writes is
what its safety depends on.
-/

namespace Libparted

open Library

variable {π δ α : Type}

/-- The contents of a device, and the transfers to it so far: for each of them the first
sector and the number of sectors. -/
structure Medium where
  store : Store
  writes : List (ℤ × ℤ)

/-- A disk in memory and its device. -/
structure Attached (π δ : Type) where
  session : Session π δ
  medium : Medium

/-- Programs that may change the disk and the contents of its device. -/
abbrev DeviceM (π δ α : Type) : Type := Prog Fault (Attached π δ) α

/-- Runs a program that does not touch the device. -/
def inMemory (x : DiskM π δ α) : DeviceM π δ α := fun s => do
  let (a, session) ← x s.session
  return (a, { s with session := session })

/-- The contents of the device as they are now. -/
def getStore : DeviceM π δ Store := do return (← get).medium.store

/-- `ped_device_write`. -/
def deviceWrite (dev : PedDevice) (buffer : List Byte) (start count : ℤ) : DeviceM π δ Bool :=
  fun s => match pedDeviceWrite dev s.medium.store buffer start count with
    | some store =>
        .ok (true, { s with medium := ⟨store, s.medium.writes ++ [(start, count)]⟩ })
    | none => .ok (false, s)

/-- `sizeof zero`. -/
def sizeofZero : ℕ := 16 * 1024

/-- The loop of `ptt_clear_sectors`, with `k` turns to go and `i` behind it. -/
def clearFull (dev : PedDevice) (start nZSectors : ℤ) : ℕ → ℕ → DeviceM π δ Bool
  | 0, _ => return true
  | k + 1, i => do
      if !(← deviceWrite dev (List.replicate sizeofZero 0) (start + nZSectors * i) nZSectors) then
        return false
      clearFull dev start nZSectors k (i + 1)

/-- `ptt_clear_sectors`. -/
def pttClearSectors (dev : PedDevice) (start n : ℤ) : DeviceM π δ Bool := do
  liftM (pedAssert (dev.sectorSize ≤ sizeofZero) "dev->sector_size <= sizeof zero")
  let nZSectors : ℤ := (sizeofZero / dev.sectorSize : ℕ)
  let nFull := (n / nZSectors).toNat
  if !(← clearFull dev start nZSectors nFull 0) then
    return false
  let rem := n - nZSectors * nFull
  if rem = 0 then
    return true
  deviceWrite dev (List.replicate sizeofZero 0) (start + nZSectors * nFull) rem

section Rules

variable {E : Fault → Prop} {s : Attached π δ}

theorem spec_inMemory {x : DiskM π δ α} {Q : α → Attached π δ → Prop} :
    Spec E (inMemory x) s Q ↔ Spec E x s.session fun a t => Q a { s with session := t } := by
  unfold Spec inMemory
  cases x s.session with
  | error e => exact Iff.rfl
  | ok r => exact Iff.rfl

@[simp] theorem spec_getStore {Q : Store → Attached π δ → Prop} :
    Spec E getStore s Q ↔ Q s.medium.store s := Iff.rfl

end Rules

/-! ## Written sectors -/

/-- The sector has been written. -/
def Medium.Touched (m : Medium) (sector : ℤ) : Prop :=
  ∃ w ∈ m.writes, w.1 ≤ sector ∧ sector < w.1 + w.2

/-- The medium after a transfer. -/
def Medium.write (m : Medium) (dev : PedDevice) (buffer : List Byte) (start count : ℤ) : Medium :=
  ⟨writeAt m.store (sectorPos dev start) (buffer.take (count.toNat * dev.sectorSize)),
    m.writes ++ [(start, count)]⟩

theorem Medium.touched_write {m : Medium} {dev : PedDevice} {buffer : List Byte}
    {start count sector : ℤ} : (m.write dev buffer start count).Touched sector ↔
      m.Touched sector ∨ start ≤ sector ∧ sector < start + count := by
  simp only [Touched, write, List.mem_append, List.mem_singleton, or_and_right, exists_or,
    exists_eq_left]

/-- Between two states of a medium the sectors from `start` on, `n` of them, have been
cleared and no others. -/
structure Medium.Cleared (dev : PedDevice) (start n : ℤ) (m m' : Medium) : Prop where
  inside : ∀ k, sectorPos dev start ≤ k → k < sectorPos dev (start + n) → m'.store k = 0
  outside : ∀ k, k < sectorPos dev start ∨ sectorPos dev (start + n) ≤ k → m'.store k = m.store k
  touched : ∀ sector, m'.Touched sector ↔ m.Touched sector ∨ start ≤ sector ∧ sector < start + n

section Transfers

variable {dev : PedDevice} {buffer : List Byte} {start count n : ℤ} {s : Attached π δ}

theorem deviceWrite_eq (h : OnDevice dev start count) :
    deviceWrite dev buffer start count s
      = .ok (true, { s with medium := s.medium.write dev buffer start count }) := by
  unfold deviceWrite pedDeviceWrite
  rw [if_pos h]
  rfl

theorem deviceWrite_off (h : ¬ OnDevice dev start count) :
    deviceWrite dev buffer start count s = .ok (false, s) := by
  unfold deviceWrite pedDeviceWrite
  rw [if_neg h]

theorem sectorPos_mono {a b : ℤ} (h : a ≤ b) : sectorPos dev a ≤ sectorPos dev b :=
  Nat.mul_le_mul_right _ (by omega)

theorem sectorPos_add {a b : ℤ} (ha : 0 ≤ a) (hb : 0 ≤ b) :
    sectorPos dev (a + b) = sectorPos dev a + b.toNat * dev.sectorSize := by
  unfold sectorPos
  rw [Int.toNat_add ha hb, Nat.add_mul]

/-- The medium after some zeroes have been written. -/
def Medium.zero (m : Medium) (dev : PedDevice) (start count : ℤ) : Medium :=
  m.write dev (List.replicate sizeofZero 0) start count

theorem Medium.cleared_zero (m : Medium) (h : OnDevice dev start count)
    (hcount : count.toNat * dev.sectorSize ≤ sizeofZero) :
    m.Cleared dev start count (m.zero dev start count) := by
  have hlen : ((List.replicate sizeofZero (0 : Byte)).take (count.toNat * dev.sectorSize)).length
      = count.toNat * dev.sectorSize := by
    rw [List.length_take, List.length_replicate]
    exact min_eq_left hcount
  have hend : sectorPos dev (start + count) = sectorPos dev start + count.toNat * dev.sectorSize :=
    sectorPos_add h.1 h.2.1
  refine ⟨fun k hk hk' => ?_, fun k hk => writeAt_of_not_mem ?_, fun _ => touched_write⟩
  · rw [zero, write]
    dsimp only
    rw [writeAt_of_mem hk (by omega), List.take_replicate]
    simp
  · omega

theorem Medium.Cleared.refl (m : Medium) : m.Cleared dev start 0 m := by
  refine ⟨fun k hk hk' => ?_, fun _ _ => rfl, fun _ => ⟨Or.inl, fun h => h.resolve_right (by omega)⟩⟩
  rw [add_zero] at hk'
  omega

/-- Sectors cleared one stretch after the other. -/
theorem Medium.Cleared.trans {m m₁ m₂ : Medium} {k : ℤ} (h : m.Cleared dev start n m₁)
    (h' : m₁.Cleared dev (start + n) k m₂) (hn : 0 ≤ n) (hk : 0 ≤ k) :
    m.Cleared dev start (n + k) m₂ := by
  have hle : sectorPos dev start ≤ sectorPos dev (start + n) := sectorPos_mono (by omega)
  have hle' : sectorPos dev (start + n) ≤ sectorPos dev (start + (n + k)) :=
    sectorPos_mono (by omega)
  have hadd : start + n + k = start + (n + k) := by ring
  refine ⟨fun j hj hj' => ?_, fun j hj => ?_, fun sector => ?_⟩
  · by_cases hlt : j < sectorPos dev (start + n)
    · rw [h'.outside j (Or.inl hlt), h.inside j hj hlt]
    · exact h'.inside j (by omega) (by rw [hadd]; exact hj')
  · rw [h'.outside j (by rw [hadd]; omega), h.outside j (by omega)]
  · rw [h'.touched, h.touched]
    constructor
    · rintro ((h | h) | h)
      · exact Or.inl h
      · exact Or.inr (by omega)
      · exact Or.inr (by omega)
    · rintro (h | h)
      · exact Or.inl (Or.inl h)
      · by_cases hlt : sector < start + n
        · exact Or.inl (Or.inr (by omega))
        · exact Or.inr (by omega)

/-- What is left in a sector. -/
theorem Medium.Cleared.sector {m m' : Medium} (h : m.Cleared dev start n m') {sector : ℤ}
    (hs : 0 ≤ sector) :
    readAt m'.store (sectorPos dev sector) dev.sectorSize
      = if start ≤ sector ∧ sector < start + n then List.replicate dev.sectorSize 0
        else readAt m.store (sectorPos dev sector) dev.sectorSize := by
  have hnext : sectorPos dev sector + dev.sectorSize = sectorPos dev (sector + 1) := by
    rw [sectorPos_add hs (by omega)]
    simp
  split
  · rename_i hin
    have hlow : sectorPos dev start ≤ sectorPos dev sector := sectorPos_mono hin.1
    have hhigh : sectorPos dev (sector + 1) ≤ sectorPos dev (start + n) :=
      sectorPos_mono (by omega)
    rw [← readAt_const]
    exact readAt_congr fun k hk hk' => h.inside k (by omega) (by omega)
  · rename_i hout
    refine readAt_congr fun k hk hk' => h.outside k ?_
    by_cases hlt : sector < start
    · have : sectorPos dev (sector + 1) ≤ sectorPos dev start := sectorPos_mono (by omega)
      omega
    · have : sectorPos dev (start + n) ≤ sectorPos dev sector := sectorPos_mono (by omega)
      omega

theorem clearFull_spec (nZSectors : ℤ) (hz : 0 ≤ nZSectors)
    (hzero : nZSectors.toNat * dev.sectorSize ≤ sizeofZero) (k i : ℕ) (h0 : 0 ≤ start)
    (hon : start + nZSectors * (i + k) ≤ dev.length) :
    Spec (fun _ => False) (clearFull dev start nZSectors k i) s fun ok s' => ok = true ∧
      s'.session = s.session ∧
      s.medium.Cleared dev (start + nZSectors * i) (nZSectors * k) s'.medium := by
  induction k generalizing i s with
  | zero => exact ⟨rfl, rfl, by simpa using Medium.Cleared.refl s.medium⟩
  | succ k ih =>
      have hi : 0 ≤ nZSectors * i := mul_nonneg hz (by positivity)
      have hk : 0 ≤ nZSectors * k := mul_nonneg hz (by positivity)
      have hsplit : nZSectors * ((i : ℤ) + (k + 1 : ℕ))
          = nZSectors * i + nZSectors + nZSectors * k := by
        push_cast
        ring
      have hdev : OnDevice dev (start + nZSectors * i) nZSectors :=
        ⟨by omega, hz, by omega⟩
      unfold clearFull
      refine Spec.bind ((spec_of_ok (deviceWrite_eq hdev)).mpr ?_)
      simp only [Bool.not_true, Bool.false_eq_true, if_false]
      have hnext : nZSectors * ((i + 1 : ℕ) : ℤ) = nZSectors * i + nZSectors := by
        push_cast
        ring
      refine (ih (i + 1) ?_).imp fun ok s' ⟨hok, hs, hover⟩ => ⟨hok, hs, ?_⟩
      · push_cast at hsplit hon ⊢
        linarith
      · rw [hnext, ← add_assoc] at hover
        have hall := (s.medium.cleared_zero hdev hzero).trans hover hz hk
        have hlen : nZSectors + nZSectors * (k : ℤ) = nZSectors * ((k + 1 : ℕ) : ℤ) := by
          push_cast
          ring
        rwa [hlen] at hall

/-- **Clearing sectors** clears them and no others. -/
theorem pttClearSectors_spec (hpos : 0 < dev.sectorSize) (hsize : dev.sectorSize ≤ sizeofZero)
    (hon : OnDevice dev start n) :
    Spec (fun _ => False) (pttClearSectors dev start n) s fun ok s' => ok = true ∧
      s'.session = s.session ∧ s.medium.Cleared dev start n s'.medium := by
  obtain ⟨h0, hn, hlen⟩ := hon
  have hz : 0 < ((sizeofZero / dev.sectorSize : ℕ) : ℤ) := by
    exact_mod_cast Nat.div_pos hsize hpos
  unfold pttClearSectors
  refine Spec.bind (spec_lift.mpr ⟨fun _ _ => ?_, fun _ hf => ?_⟩)
  · dsimp only
    set z : ℤ := ((sizeofZero / dev.sectorSize : ℕ) : ℤ)
    have hdiv : 0 ≤ n / z := Int.ediv_nonneg hn hz.le
    have hfull : ((n / z).toNat : ℤ) = n / z := Int.toNat_of_nonneg hdiv
    have hle : z * (n / z) ≤ n := Int.mul_ediv_self_le hz.ne'
    have hnonneg : 0 ≤ z * (n / z) := mul_nonneg hz.le hdiv
    have hzs : z.toNat * dev.sectorSize ≤ sizeofZero := by
      rw [show z.toNat = sizeofZero / dev.sectorSize from Int.toNat_natCast _]
      exact Nat.div_mul_le_self _ _
    refine (clearFull_spec (s := s) z hz.le hzs (n / z).toNat 0 h0 (by
      simp only [Nat.cast_zero, zero_add, hfull]; omega)).seq fun ok s₁ ⟨hok, hs, hover⟩ => ?_
    subst hok
    simp only [Nat.cast_zero, mul_zero, add_zero, hfull] at hover
    simp only [Bool.not_true, Bool.false_eq_true, if_false, hfull]
    refine Spec.ite (fun hzero => ?_) fun hrem => ?_
    · have heq : z * (n / z) = n := by omega
      rw [heq] at hover
      exact ⟨rfl, hs, hover⟩
    · have hdev : OnDevice dev (start + z * (n / z)) (n - z * (n / z)) :=
        ⟨by omega, by omega, by omega⟩
      rw [spec_of_ok (deviceWrite_eq hdev)]
      refine ⟨rfl, hs, ?_⟩
      have hlt : n - z * (n / z) < z := by
        have := Int.emod_lt_of_pos n hz
        rw [Int.emod_def] at this
        exact this
      have hrems : (n - z * (n / z)).toNat * dev.sectorSize ≤ sizeofZero :=
        (Nat.mul_le_mul_right _ (by omega)).trans hzs
      have hall := hover.trans (s₁.medium.cleared_zero hdev hrems) hnonneg (by omega)
      have heq : z * (n / z) + (n - z * (n / z)) = n := by omega
      rwa [heq] at hall
  · simp [pedAssert, hsize] at hf

/-- The medium with one sector cleared. -/
def Medium.clear (m : Medium) (dev : PedDevice) (sector : ℤ) : Medium := m.zero dev sector 1

theorem pttClearSectors_one (hpos : 0 < dev.sectorSize) (hsize : dev.sectorSize ≤ sizeofZero)
    (hon : OnDevice dev start 1) :
    pttClearSectors dev start 1 s
      = .ok (true, { s with medium := s.medium.clear dev start }) := by
  have hz : 1 ≤ sizeofZero / dev.sectorSize := Nat.div_pos hsize hpos
  refine Spec.eq_ok ?_
  unfold pttClearSectors
  refine Spec.bind (spec_lift.mpr ⟨fun _ _ => ?_, fun _ hf => by simp [pedAssert, hsize] at hf⟩)
  dsimp only
  rcases Nat.eq_or_lt_of_le hz with hone | hmany
  · -- the buffer holds just one sector
    rw [← hone]
    have hwrite : OnDevice dev (start + 1 * (0 : ℕ)) 1 := by simpa using hon
    simp only [Nat.cast_one, Int.ediv_one, Int.toNat_one, clearFull]
    refine Spec.bind (Spec.bind ((spec_of_ok (deviceWrite_eq hwrite)).mpr ?_))
    simp [Medium.clear, Medium.zero]
  · have hzero : (1 : ℤ) / ((sizeofZero / dev.sectorSize : ℕ) : ℤ) = 0 :=
      Int.ediv_eq_zero_of_lt (by omega) (by exact_mod_cast hmany)
    rw [hzero]
    simp only [Int.toNat_zero, clearFull]
    refine Spec.bind ?_
    simp only [Nat.cast_zero, mul_zero, add_zero, sub_zero]
    exact (spec_of_ok (deviceWrite_eq hon)).mpr ⟨rfl, rfl⟩

/-- A sector larger than the buffer stops the program. -/
theorem pttClearSectors_large {E : Fault → Prop} {Q : Bool → Attached π δ → Prop}
    (hsize : ¬ dev.sectorSize ≤ sizeofZero)
    (hE : E (.assertion "dev->sector_size <= sizeof zero")) :
    Spec E (pttClearSectors dev start n) s Q := by
  unfold pttClearSectors pedAssert
  rw [if_neg (by simpa using hsize)]
  exact hE

end Transfers

end Libparted
