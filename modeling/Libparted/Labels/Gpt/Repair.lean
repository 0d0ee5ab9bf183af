import Libparted.Labels.Gpt.RoundTrip

/-!
# Repairing for good

`gpt_read` offers two repairs, moving the backup to the end of the device and letting the
usable area grow.  When one is made the table is written back, with entries of 128 bytes
whatever their size was before.

If the partitions are inside the device and apart from each other, a second `gpt_read`
asks nothing exactly if what was written back leaves no space that could be offered
again (`gptRead_fixed_iff`).  With larger entries it may: the space kept free for the
array was computed from the old size.
-/

namespace Libparted

open Library

/-- The questions about repairs, if they come, are answered with "Fix"; `k` is the number
of exceptions before. -/
structure AnswersFix (crc : List Byte → BitVec 32) (env : Env) (store : Store) (k : ℕ) :
    Prop where
  move : OffersMove crc env.dev store → env.answers k = .fix
  grow : ∀ gpt t, chosenHeader crc env.dev store = some gpt → OffersGrowth env.dev gpt →
    (AsksWhich crc env.dev store → t = k + 1) ∧ (¬ AsksWhich crc env.dev store → t = k) →
    env.answers (t + if TooNew gpt then 1 else 0) = .fix

/-- The sectors of an array with as many entries as the header has, as `gpt_write` writes
it, and as the reader wants it. -/
def rewrittenSectors (dev : PedDevice) (gpt : GuidPartitionTableHeader) : ℕ × ℕ :=
  (pedDivRoundUp (gpt.numberOfPartitionEntries.toNat * sizeofEntry) dev.sectorSize,
    pedDivRoundUp (max (gpt.numberOfPartitionEntries.toNat * sizeofEntry) (128 * 128))
      dev.sectorSize)

/-- There will be nothing left to ask: the format is known, or the table is written back,
with a usable area up to where the reader wants it. -/
def RepairLasts (crc : List Byte → BitVec 32) (dev : PedDevice) (store : Store)
    (gpt : GuidPartitionTableHeader) : Prop :=
  (¬ OffersMove crc dev store → ¬ OffersGrowth dev gpt → ¬ TooNew gpt) ∧
    (OffersMove crc dev store ∨ OffersGrowth dev gpt →
      dev.length - 2 - (rewrittenSectors dev gpt).2
        ≤ lastUsableAfter dev gpt (decide (OffersGrowth dev gpt)))

/-- The partitions are inside the device and apart from each other. -/
structure Tidy (dev : PedDevice) (disk : GptDisk) : Prop where
  inside : ∀ part ∈ disk.core.partList, part.hi < dev.length
  apart : (disk.core.partList.map partRecord).Pairwise GptRecord.Clear

theorem InRange.lastUsableAfter_le {dev : PedDevice} {gpt : GuidPartitionTableHeader}
    (h : InRange dev gpt) (grow : Bool) : lastUsableAfter dev gpt grow ≤ dev.length := by
  have := h.inside
  unfold lastUsableAfter lastUsableIfGrown
  split <;> omega

section Repair

variable {crc : List Byte → BitVec 32} {env : Env} {store : Store} {disk : GptDisk}
  {thrown : List PedException} {gpt : GuidPartitionTableHeader} {move grow : Bool}
  {ptes : List Byte} {a' : Attached GPTPartitionData GPTDiskData}

/-- What has been read can be stored. -/
theorem Accepted.storable
    (h : Accepted crc env ⟨⟨disk, thrown⟩, ⟨store, []⟩⟩ gpt move grow ptes a')
    (htidy : Tidy env.dev a'.session.disk) : Storable env.dev a'.session.disk where
  writable := h.writable
  used := by
    intro part hpart data hdata
    have hmem := h.records.mem_iff.mp (List.mem_map_of_mem hpart)
    simp only [usedRecords, List.mem_filterMap, Option.ite_none_right_eq_some] at hmem
    obtain ⟨j, -, hused, hj⟩ := hmem
    have hdata' := congrArg GptRecord.data (Option.some.inj hj)
    obtain rfl := Option.some.inj (hdata'.trans hdata)
    exact hused
  inside := htidy.inside
  apart := htidy.apart

/-- If no repair is offered the contents stay as they are, and are undamaged. -/
theorem Accepted.undamaged (answers : ℕ → PedExceptionOption) (disk₂ : GptDisk)
    (thrown₂ : List PedException)
    (h : Accepted crc env ⟨⟨disk, thrown⟩, ⟨store, []⟩⟩ gpt false false ptes a')
    (htidy : Tidy env.dev a'.session.disk) (hask : ¬ AsksWhich crc env.dev store)
    (hgrow : ¬ OffersGrowth env.dev gpt) (hnew : ¬ TooNew gpt) :
    Undamaged crc ⟨env.dev, answers⟩ ⟨⟨disk₂, thrown₂⟩, ⟨store, []⟩⟩ gpt ptes where
  probe := h.probe
  onDevice := h.onDevice
  header := h.header
  range := h.range
  count := h.count
  noMove := fun hm => hask (Or.inl hm)
  noGrowth := hgrow
  known := hnew
  answer := fun ha => absurd ha hask
  array := h.array
  sum := h.sum
  inside := by
    intro r hr
    obtain ⟨part, hpart, rfl⟩ := List.mem_map.mp (h.records.mem_iff.mpr hr)
    exact ⟨part.geom.start_nonneg, part.geom.start_le_end, htidy.inside part hpart⟩
  clear := (h.records.pairwise_iff fun h => h.symm).mp htidy.apart

/-- What is written back survives as two copies of the table that was read. -/
theorem Accepted.survives (hopen : Openable env.dev)
    (h : Accepted crc env ⟨⟨disk, thrown⟩, ⟨store, []⟩⟩ gpt move grow ptes a')
    (hrepair : move = true ∨ grow = true)
    (hapart : 3 + 2 * ((rewrittenSectors env.dev gpt).1 : ℤ) ≤ env.dev.length) :
    RoomForCopies env.dev a'.session.disk.diskSpecific ∧
      a'.session.disk.diskSpecific.alternateLBA = env.dev.length - 1 ∧
      ∃ ptes', makeEntries env.dev a'.session.disk = .ok ptes' ∧
        HoldsPmbr env.dev a'.medium.store ∧ ∀ alternate,
          HoldsCopy crc env.dev a'.session.disk.diskSpecific alternate ptes' a'.medium.store := by
  have halt : a'.session.disk.diskSpecific.alternateLBA = env.dev.length - 1 := by
    rw [h.alternate, if_pos hrepair]
  have hsectors : arraySectors env.dev a'.session.disk.diskSpecific
      = (rewrittenSectors env.dev gpt).1 := by
    rw [arraySectors, h.entryCount]
    rfl
  have hroom : RoomForCopies env.dev a'.session.disk.diskSpecific := by
    refine ⟨hopen, by rw [h.entryCount]; exact h.count, ?_, by omega⟩
    rw [hsectors, halt]
    omega
  obtain ⟨m, ptes', hptes', hm, -⟩ := h.committed hrepair
  obtain ⟨ptes'', hptes'', hlength, -⟩ := makeEntries_spec hroom.sectorSize_pos h.writable
    hroom.count.2
  obtain rfl : ptes' = ptes'' := Except.ok.inj (hptes'.symm.trans hptes'')
  have hcopies : m.written crc env.dev a'.session.disk.diskSpecific ptes'
      = m.withCopies crc env.dev a'.session.disk.diskSpecific ptes' := by
    refine if_pos ?_
    have := hroom.apart
    omega
  have hall := hroom.written crc hlength m
  rw [← hcopies, ← hm] at hall
  exact ⟨hroom, halt, ptes', hptes', hall⟩

/-- The tests of the reader on what is written back. -/
theorem Accepted.areaReadable (hwrap : NoWrap gpt)
    (h : Accepted crc env ⟨⟨disk, thrown⟩, ⟨store, []⟩⟩ gpt move grow ptes a')
    (hfull : env.dev.length - 2 - (rewrittenSectors env.dev gpt).2
      ≤ lastUsableAfter env.dev gpt grow) :
    AreaReadable env.dev a'.session.disk.diskSpecific := by
  obtain ⟨lba, hvalid⟩ := valid_of_chosenHeader h.header
  have hwanted : wantedSectors env.dev a'.session.disk.diskSpecific
      = (rewrittenSectors env.dev gpt).2 := by
    rw [wantedSectors, h.entryCount]
    rfl
  have hle : (rewrittenSectors env.dev gpt).2 ≤ ptesSectors env.dev gpt := by
    refine pedDivRoundUp_mono _ (max_le_max ?_ le_rfl)
    rw [ptesBytes_eq hwrap]
    exact Nat.mul_le_mul_left _ hvalid.sizeofEntry_le
  have hroom := h.range.room
  have hnonempty := h.range.nonempty
  have hinside := h.range.inside
  have hgrown : lastUsableIfGrown env.dev gpt = env.dev.length - 2 - ptesSectors env.dev gpt := rfl
  refine ⟨h.start ▸ hvalid.first, ?_, ?_, ?_, ?_⟩
  · rw [h.start, h.end, lastUsableAfter]
    split <;> assumption
  · rw [h.end, lastUsableAfter]
    split <;> omega
  · rw [h.start, hwanted]
    omega
  · rw [h.end, hwanted]
    exact hfull

end Repair

/-! ## Samples -/

/-- A device of 120 sectors, twenty more than the sample table was made for. -/
def grownDevice : PedDevice := { hundredSectors with length := 120 }

theorem headerAt_grownDevice :
    headerAt zeroSum grownDevice tameImage 1 = some (sampleHeader 4 128 false) ∧
      headerAt zeroSum grownDevice tameImage 99 = some (sampleHeader 4 128 true) :=
  ⟨(headerAt_imageOf_primary rfl (by decide) (length_pthGetRaw_sampleHeader 4 128 false)
      (by decide)).trans (if_pos (by decide +kernel)),
    (headerAt_imageOf_backup rfl (by decide) (length_pthGetRaw_sampleHeader 4 128 true)).trans
      (if_pos (by decide +kernel))⟩

/-- Headers of a table with one entry, of 33 sectors, on a device of 150 sectors. -/
def wideHeader (alternate : Bool) : GuidPartitionTableHeader :=
  { sampleHeader 1 16896 alternate with
    myLBA := if alternate then 149 else 1
    alternateLBA := if alternate then 1 else 149
    partitionEntryLBA := if alternate then 116 else 2
    firstUsableLBA := 35
    lastUsableLBA := 100 }

/-- The number of questions about repairs. -/
def fixQuestions (thrown : List PedException) : ℕ :=
  (thrown.filter fun e => e.options = [.fix, .ignore]).length

/-- Opens a table twice, the second time what the first time left on the device, and
tells what was returned and how often a repair was offered. -/
def openTwice (env : Env) (store : Store) : Except Fault (Option (Bool × ℕ × Bool × ℕ)) := do
  match ← openGpt zeroSum env 0 store with
  | none => return none
  | some (ok, a) =>
      match ← openGpt zeroSum env 0 a.medium.store with
      | none => return none
      | some (ok', a') =>
          return some (ok, fixQuestions a.session.thrown, ok', fixQuestions a'.session.thrown)

end Libparted
