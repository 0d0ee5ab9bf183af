import Libparted.Labels.Gpt.Safety

/-!
# What a commit writes

After `gpt_read` the table may be written again, by `gpt_write`; and `gpt_read` itself
writes when a repair was asked for.  Which sectors these are depends on the number of
entries and on where the backup is (`CommitSector`), while the partitions are where the
entries say.  Nothing in the reader relates the two: its checks compare the partitions
with each other and with the end of the device.

**A commit spares the partitions exactly if they avoid the sectors of the tables**
(`gptCommit_spares_iff`).
-/

namespace Libparted

open Library

/-- The sectors that `gpt_read`, with the repairs `move` and `grow`, and a `gpt_write`
after it write. -/
def CommitSector (crc : List Byte → BitVec 32) (dev : PedDevice) (store : Store)
    (gpt : GuidPartitionTableHeader) (move grow : Bool) (sector : ℤ) : Prop :=
  -- the sectors of the table that is written
  CopySector (pedDivRoundUp (gpt.numberOfPartitionEntries.toNat * sizeofEntry) dev.sectorSize)
      (if move ∨ grow then dev.length - 1 else backupLBA crc dev store) sector ∨
    -- the old backup headers
    (move = true ∧ sector = backupLBA crc dev store ∨
      grow = true ∧ sector = if move then dev.length - 1 else backupLBA crc dev store) ∨
    -- the ends of the device, when the repaired table is committed
    (move = true ∨ grow = true) ∧
      ClobberSector dev (clobberFirst dev (contentsAfter crc dev store move grow)) sector

section Touched

variable {crc : List Byte → BitVec 32} {dev : PedDevice} {m : Medium} {move grow : Bool}
  {sector : ℤ}

theorem Medium.touched_clear {lba : ℤ} :
    (m.clear dev lba).Touched sector ↔ m.Touched sector ∨ sector = lba := by
  rw [clear, zero, touched_write]
  exact or_congr_right ⟨fun h => by omega, fun h => by omega⟩

theorem touched_afterHeaders :
    (afterHeaders crc dev m move grow).Touched sector ↔ m.Touched sector ∨
      (move = true ∧ sector = backupLBA crc dev m.store ∨
        grow = true ∧ sector = if move then dev.length - 1 else backupLBA crc dev m.store) := by
  unfold afterHeaders
  cases move <;> cases grow <;> simp [Medium.touched_clear, or_assoc]

end Touched

section Commit

variable {crc : List Byte → BitVec 32} {env : Env} {store : Store} {disk : GptDisk}
  {thrown : List PedException} {gpt : GuidPartitionTableHeader} {move grow : Bool}
  {ptes : List Byte} {a' : Attached GPTPartitionData GPTDiskData}

/-- The table that has been read can be written. -/
theorem Accepted.copiesFit (hopen : Openable env.dev) (hwrap : NoWrap gpt)
    (h : Accepted crc env ⟨⟨disk, thrown⟩, ⟨store, []⟩⟩ gpt move grow ptes a') :
    CopiesFit env.dev a'.session.disk.diskSpecific := by
  obtain ⟨lba, hvalid⟩ := valid_of_chosenHeader h.header
  obtain ⟨-, hprimary⟩ := h.range.room_for hopen.sectors hvalid hwrap h.entryCount
  refine ⟨hprimary, ?_⟩
  rw [h.alternate]
  split
  · have := h.onDevice.1
    have := h.onDevice.2.2
    exact ⟨by omega, by omega, by omega⟩
  · exact h.onDevice

/-- **The sectors of a commit**, all of them. -/
theorem Accepted.write (hopen : Openable env.dev) (hwrap : NoWrap gpt)
    (h : Accepted crc env ⟨⟨disk, thrown⟩, ⟨store, []⟩⟩ gpt move grow ptes a') :
    ∃ ok a'', gptWrite crc env a' = .ok (ok, a'') ∧ ∀ sector, a''.medium.Touched sector ↔
      CommitSector crc env.dev store gpt move grow sector := by
  have hss : 0 < env.dev.sectorSize := by have := hopen.sectors; omega
  obtain ⟨ptes', hptes', -⟩ := makeEntries_spec hss h.writable
    (by rw [h.entryCount]; exact h.count.2)
  obtain ⟨ok, hwrite, -⟩ := gptWrite_spec crc env hptes' (h.copiesFit hopen hwrap)
  refine ⟨ok, _, hwrite, fun sector => ?_⟩
  have hsectors : arraySectors env.dev a'.session.disk.diskSpecific
      = pedDivRoundUp (gpt.numberOfPartitionEntries.toNat * sizeofEntry) env.dev.sectorSize := by
    rw [← h.entryCount]
    rfl
  have hnone : ¬ (⟨store, []⟩ : Medium).Touched sector := by simp [Medium.Touched]
  rw [Medium.touched_written, hsectors, h.alternate]
  unfold CommitSector
  by_cases hrepair : move = true ∨ grow = true
  case neg =>
    obtain ⟨hm, hg⟩ := not_or.mp hrepair
    have hkept := h.kept (Bool.eq_false_iff.mpr hm) (Bool.eq_false_iff.mpr hg)
    rw [hkept]
    simp [hm, hg, hnone]
  case pos =>
    obtain ⟨m, ptes'', -, hm, htouched⟩ := h.committed hrepair
    rw [hm, Medium.touched_written, hsectors, h.alternate, htouched, touched_afterHeaders]
    simp only [hnone, false_or, hrepair, true_and]
    tauto

/-- **A commit spares the partitions** exactly if no entry has a sector of the tables. -/
theorem gptCommit_spares_iff (hopen : Openable env.dev) {uuid : BitVec 128}
    (hfresh : pedDiskNewFresh env uuid [] = .ok (some disk, thrown))
    (hwrap : ∀ gpt, chosenHeader crc env.dev store = some gpt → NoWrap gpt)
    (hread : gptRead crc env ⟨⟨disk, thrown⟩, ⟨store, []⟩⟩ = .ok (true, a')) :
    ∃ gpt move grow ptes, Accepted crc env ⟨⟨disk, thrown⟩, ⟨store, []⟩⟩ gpt move grow ptes a' ∧
      ∃ ok a'', gptWrite crc env a' = .ok (ok, a'') ∧
        ((∀ sector, a''.medium.Touched sector → ∀ part ∈ a'.session.disk.core.partList,
            ¬ (part.lo ≤ sector ∧ sector ≤ part.hi)) ↔
          ∀ r ∈ usedRecords ptes gpt.sizeOfPartitionEntry 0 gpt.numberOfPartitionEntries.toNat,
            ∀ sector, CommitSector crc env.dev store gpt move grow sector →
              ¬ (r.first ≤ sector ∧ sector ≤ r.last)) := by
  obtain ⟨hempty, -, -⟩ := ((pedDiskNewFresh_spec hopen.sectors).of_ok hfresh).2 disk rfl
  obtain ⟨gpt, move, grow, ptes, hacc⟩ := (gptRead_spec hopen hempty hwrap).of_ok hread rfl
  obtain ⟨ok, a'', hwrite, htouched⟩ := hacc.write hopen (hwrap gpt hacc.header)
  refine ⟨gpt, move, grow, ptes, hacc, ok, a'', hwrite, ?_, ?_⟩
  · intro h r hr sector hsector
    obtain ⟨part, hpart, rfl⟩ := List.mem_map.mp (hacc.records.mem_iff.mpr hr)
    exact h sector ((htouched sector).mpr hsector) part hpart
  · intro h sector hsector part hpart
    exact h _ (hacc.records.mem_iff.mp (List.mem_map_of_mem hpart)) sector
      ((htouched sector).mp hsector)

end Commit

theorem openGpt_eq_some {crc : List Byte → BitVec 32} {env : Env} {uuid : BitVec 128}
    {store : Store} {α : Type} {f : Bool × Attached GPTPartitionData GPTDiskData → α} {y : α}
    (h : (openGpt crc env uuid store).toOption.join.map f = some y) :
    ∃ disk thrown r, pedDiskNewFresh env uuid [] = .ok (some disk, thrown) ∧
      gptRead crc env ⟨⟨disk, thrown⟩, ⟨store, []⟩⟩ = .ok r ∧ f r = y := by
  unfold openGpt at h
  cases hfresh : pedDiskNewFresh env uuid [] with
  | error f => rw [hfresh] at h; cases h
  | ok r =>
    obtain ⟨_ | disk, thrown⟩ := r
    · rw [hfresh] at h; cases h
    · rw [hfresh] at h
      cases hread : gptRead crc env ⟨⟨disk, thrown⟩, ⟨store, []⟩⟩ with
      | error f => simp [hread, bind, Except.bind, Except.toOption] at h
      | ok r =>
        refine ⟨disk, thrown, r, rfl, hread, ?_⟩
        simpa [hread, bind, Except.bind, pure, Except.pure, Except.toOption] using h

/-- The table with a partition behind the array keeps it. -/
theorem gptCommit_spares_tameImage :
    ∃ disk thrown a', pedDiskNewFresh ⟨hundredSectors, fun _ => .cancel⟩ 0 []
        = .ok (some disk, thrown) ∧
      gptRead zeroSum ⟨hundredSectors, fun _ => .cancel⟩ ⟨⟨disk, thrown⟩, ⟨tameImage, []⟩⟩
        = .ok (true, a') ∧
      ∃ ok a'', gptWrite zeroSum ⟨hundredSectors, fun _ => .cancel⟩ a' = .ok (ok, a'') ∧
        ∀ sector, a''.medium.Touched sector → ∀ part ∈ a'.session.disk.core.partList,
          ¬ (part.lo ≤ sector ∧ sector ≤ part.hi) := by
  obtain ⟨disk, thrown, ⟨_, a'⟩, hfresh, hread, rfl⟩ :=
    openGpt_eq_some (show ((openGpt zeroSum ⟨hundredSectors, fun _ => .cancel⟩ 0
      tameImage).toOption.join.map Prod.fst) = some true by decide +kernel)
  have hopen : Openable hundredSectors := ⟨by decide, by decide⟩
  obtain ⟨gpt, move, grow, ptes, hacc, ok, a'', hwrite, hiff⟩ :=
    gptCommit_spares_iff hopen hfresh tameImage_noWrap hread
  refine ⟨disk, thrown, a', hfresh, hread, ok, a'', hwrite, hiff.mpr ?_⟩
  obtain ⟨rfl, rfl, rfl⟩ := tameImage_offers hacc.header hacc.offered.1 hacc.offered.2
  have harray := hacc.array
  rw [contentsAfter_none] at harray
  rw [eq_of_array_tameImage harray]
  intro r hr sector hsector
  have hr' := tameImage_inside r hr
  -- one sector of entries at each end
  have hcopy : CopySector 1 99 sector := by
    unfold CommitSector at hsector
    rw [backupLBA_of_primary chosenHeader_tameImage.1] at hsector
    rcases hsector with h | (⟨h, -⟩ | ⟨h, -⟩) | ⟨h | h, -⟩
    · exact h
    all_goals cases h
  unfold CopySector at hcopy
  omega

/-- Headers whose usable area starts in the second sector of an array of eight entries. -/
def lowHeader (alternate : Bool) : GuidPartitionTableHeader :=
  { sampleHeader 8 128 alternate with firstUsableLBA := 3 }

/-- Opens a table and writes it back. -/
def rewriteGpt (crc : List Byte → BitVec 32) (env : Env) (store : Store) :
    Except Fault (Option (GptDisk × Bool × List (ℤ × ℤ))) := do
  match ← openGpt crc env 0 store with
  | some (true, a) =>
      let (ok, a') ← gptWrite crc env a
      return some (a.session.disk, ok, a'.medium.writes)
  | _ => return none

/-- A partition at the start of the usable area is overwritten: the two sectors from 2 on
are written, and the partition has the sectors 3 to 10. -/
theorem gptCommit_overwrites :
    ((rewriteGpt zeroSum ⟨hundredSectors, fun _ => .cancel⟩
        (imageOf 99 (lowHeader false) (lowHeader true) [sampleEntry 3 10])).toOption.join.map fun r =>
      (r.1.core.partList.map fun part => (part.lo, part.hi), r.1.diskSpecific.dataArea.start, r.2))
      = some ([(3, 10)], 3, true, [(0, 1), (1, 1), (2, 2), (99, 1), (97, 2)]) := by
  decide +kernel

end Libparted
