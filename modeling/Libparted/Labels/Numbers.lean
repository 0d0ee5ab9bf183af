import Libparted.Labels.Gpt
import Libparted.Labels.Dos.Label

/-!
# Partition numbers on GPT and MS-DOS labels

The enumerators of both labels leave an object alone that has a number already: on
GPT any object, on MS-DOS one with a number up to 4.  They do not look whether the
number is still free.  An object gets its number before it is aligned and checked, and
keeps it when its addition fails or when it is taken off the disk, so that it may come
back with a number that has been given away in the meantime.

Apart from that the numbers stay in order: `gpt_numbers` and `msdos_numbers` show that
the two labels do what `Numbers` asks for.  On MS-DOS the logical partitions close
ranks after a removal; the loop of `ped_disk_enumerate_partitions` moves them down one
by one (`enumerateNumbered_shift`).
-/

namespace Libparted

open Library

variable {π : Type}

/-! ## GPT -/

/-- The numbers on a GPT disk: distinct, and numbers of entries. -/
structure GptNumbered (table : PedDisk π GPTDiskData) : Prop where
  distinct : ((table.partList ++ table.logicals).map (·.num)).Nodup
  inRange : ∀ part, table.Has part → 1 ≤ part.num ∧ part.num ≤ table.diskSpecific.entryCount
  noLogicals : table.logicals = []

/-- The numbers `gpt_partition_enumerate` does not change. -/
def GptTrusts (num : ℤ) : Prop := num ≠ -1

/-- What objects off a GPT disk are like. -/
def GptCarries (specific : GPTDiskData) (part : PedPartition π) : Prop :=
  part.type.logical = false ∧ (part.num = -1 ∨ 1 ≤ part.num ∧ part.num ≤ specific.entryCount)

section Place

variable {δ : Type} {table : PedDisk π δ} {part : PedPartition π}

theorem place_nums (table : PedDisk π δ) (part : PedPartition π) :
    (((table.place part).partList ++ (table.place part).logicals).map (·.num)).Perm
      (part.num :: (table.partList ++ table.logicals).map (·.num)) := by
  cases hl : part.type.logical with
  | true =>
      obtain ⟨hperm, htop⟩ := place_logical_nums table part hl
      rw [htop, List.map_append, List.map_append]
      exact (hperm.append_left _).trans List.perm_middle
  | false =>
      obtain ⟨hperm, hlog⟩ := place_top_nums table part hl
      rw [hlog, List.map_append, List.map_append]
      exact hperm.append_right _

theorem nodup_place (h : ((table.partList ++ table.logicals).map (·.num)).Nodup)
    (hfree : ∀ other, table.Has other → other.num ≠ part.num) :
    (((table.place part).partList ++ (table.place part).logicals).map (·.num)).Nodup := by
  refine (place_nums table part).nodup_iff.mpr (List.nodup_cons.mpr ⟨fun hmem => ?_, h⟩)
  obtain ⟨other, hother, hnum⟩ := List.mem_map.mp hmem
  exact hfree other (List.mem_append.mp hother) hnum

theorem SameNumbers.nodup {table' : PedDisk π δ} (h : SameNumbers table table')
    (hnodup : ((table.partList ++ table.logicals).map (·.num)).Nodup) :
    ((table'.partList ++ table'.logicals).map (·.num)).Nodup := by
  rw [List.map_append] at hnodup ⊢
  exact (h.top.append h.logical).nodup_iff.mpr hnodup

/-- A number in use was in use before. -/
theorem SameNumbers.has {table' : PedDisk π δ} (h : SameNumbers table table')
    (hpart : table'.Has part) : ∃ p, table.Has p ∧ p.num = part.num := by
  rcases hpart with hpart | hpart
  · obtain ⟨p, hp, hnum⟩ := List.mem_map.mp (h.top.subset (List.mem_map_of_mem hpart))
    exact ⟨p, Or.inl hp, hnum⟩
  · obtain ⟨p, hp, hnum⟩ := List.mem_map.mp (h.logical.subset (List.mem_map_of_mem hpart))
    exact ⟨p, Or.inr hp, hnum⟩

theorem nodup_diskRawRemove (h : ((table.partList ++ table.logicals).map (·.num)).Nodup) (id : ℕ) :
    (((diskRawRemove table id).partList ++ (diskRawRemove table id).logicals).map
      (·.num)).Nodup :=
  h.sublist ((List.filter_sublist.append List.filter_sublist).map _)

end Place

section Gpt

variable {env : Env} {table : PedDisk π GPTDiskData} {part : PedPartition π}

theorem GptNumbered.allNumbered (h : GptNumbered table) : AllNumbered table := by
  intro part hpart hnum
  have := h.inRange part hpart
  omega

theorem GptNumbered.same {table' : PedDisk π GPTDiskData} (h : GptNumbered table)
    (hsame : SameNumbers table table') : GptNumbered table' := by
  refine ⟨hsame.nodup h.distinct, fun part hpart => ?_, ?_⟩
  · obtain ⟨p, hp, hnum⟩ := hsame.has hpart
    rw [← hnum, hsame.specific]
    exact h.inRange p hp
  · have := hsame.logical.length_eq
    simpa [h.noLogicals] using this

theorem GptNumbered.remove (h : GptNumbered table) (id : ℕ) :
    GptNumbered (diskRawRemove table id) := by
  refine ⟨nodup_diskRawRemove h.distinct id, fun part hpart => ?_, ?_⟩
  · exact h.inRange part (has_diskRawRemove.mp hpart).1
  · simp [diskRawRemove, h.noLogicals]

theorem GptNumbered.place (h : GptNumbered table) (hlogical : part.type.logical = false)
    (hrange : 1 ≤ part.num ∧ part.num ≤ table.diskSpecific.entryCount)
    (hfree : ∀ other, table.Has other → other.num ≠ part.num) :
    GptNumbered (table.place part) := by
  refine ⟨nodup_place h.distinct hfree, fun other hother => ?_, ?_⟩
  · rw [diskSpecific_place]
    rcases mem_place.mp hother with rfl | hother
    · exact hrange
    · exact h.inRange other hother
  · rw [(place_top_nums table part hlogical).2, h.noLogicals]

theorem gptPartitionEnumerate_keep (env : Env) {disk : PedDisk π GPTDiskData}
    {thrown : List PedException} (h : part.num ≠ -1) :
    gptPartitionEnumerate env disk part thrown = .ok ((true, part.num), thrown) := by
  unfold gptPartitionEnumerate
  rw [if_pos h]
  rfl

/-- **There is a free number** as long as not all entries are in use. -/
theorem exists_free_num (h : GptNumbered table)
    (hroom : (table.partList.length : ℤ) + 1 ≤ table.diskSpecific.entryCount) :
    ∃ i : ℕ, 1 ≤ i ∧ i ≤ table.diskSpecific.entryCount ∧
      ∀ other, table.Has other → other.num ≠ i := by
  by_contra hall
  push Not at hall
  have hsub : (List.range' 1 table.diskSpecific.entryCount).map (Nat.cast : ℕ → ℤ)
      ⊆ table.partList.map (·.num) := by
    intro n hn
    obtain ⟨i, hi, rfl⟩ := List.mem_map.mp hn
    rw [List.mem_range'_1] at hi
    obtain ⟨other, hother, hnum⟩ := hall i hi.1 (by omega)
    have hmem : other ∈ table.partList :=
      hother.resolve_right fun hlog => by simp [h.noLogicals] at hlog
    exact List.mem_map.mpr ⟨other, hmem, hnum⟩
  have hnodup : ((List.range' 1 table.diskSpecific.entryCount).map (Nat.cast : ℕ → ℤ)).Nodup :=
    List.Nodup.map Nat.cast_injective List.nodup_range'
  have hlength := (List.subperm_of_subset hnodup hsub).length_le
  simp only [List.length_map, List.length_range'] at hlength
  omega

theorem gptPartitionAlign_spec {disk : PedDisk π GPTDiskData} {constraint : Option PedConstraint}
    {thrown : List PedException} :
    Spec OtherFault (gptPartitionAlign env disk part constraint) thrown fun _ _ => True := by
  unfold gptPartitionAlign
  refine Spec.bind (Spec.lift tryConstraint_fails fun solution _ => ?_)
  exact alignTo_spec.mono (fun _ => False.elim) fun _ _ _ => trivial

theorem gpt_allows : Allows OtherFault Unnumbered (gptDiskType (π := π)) env where
  other := fun _ hf => hf
  alloc := fun s => (gptAllocMetadata_spec env s).mono (fun _ hf => hf.other) fun _ _ h => h
  placeholder := fun _ _ => ⟨rfl, rfl⟩
  moved := fun _ _ h => h

theorem gpt_keeps (env : Env) (disk : PedDisk π GPTDiskData) (h : AllNumbered disk.core) :
    KeepsNumbers (gptDiskType (π := π)).toPedDiskOps env disk :=
  fun part _ hpart => gptPartitionEnumerate_keep env (h part hpart)

/-- A partition without a number gets one that is free, and `PED_ASSERT (0)` is not
reached. -/
theorem gptPartitionEnumerate_new (env : Env) {disk before : PedDisk π GPTDiskData}
    (thrown : List PedException) (hpad : disk.Padding Unnumbered) (hlinks : WellLinked disk.core)
    (hnums : GptNumbered disk.core) (hbefore : before.core = disk.core)
    (hsane : BasicSane gptOps before part) (hact : part.isActive = true)
    (hlogical : part.type.logical = false) (hnum : part.num = -1) :
    ∃ i : ℕ, gptPartitionEnumerate env disk part thrown = .ok ((true, (i : ℤ)), thrown) ∧
      1 ≤ i ∧ i ≤ disk.diskSpecific.entryCount ∧
      ∀ other, disk.core.Has other → other.num ≠ i := by
  have hspecific : before.diskSpecific = disk.diskSpecific :=
    congrArg (·.diskSpecific) hbefore
  have hroom : (disk.core.partList.length : ℤ) + 1 ≤ disk.diskSpecific.entryCount := by
    have hcount : pedDiskGetPrimaryPartitionCount before = _ :=
      WellLinked.primaryCount (hbefore ▸ hlinks)
    have hsane := hsane.room hact hlogical
    rw [hcount, hbefore] at hsane
    exact hspecific ▸ hsane
  obtain ⟨i, hi, hle, hfree⟩ := exists_free_num hnums hroom
  have hle : i ≤ disk.diskSpecific.entryCount := hle
  unfold gptPartitionEnumerate
  rw [if_neg (not_not_intro hnum)]
  cases hfind : (List.range' 1 disk.diskSpecific.entryCount).find?
      fun i : ℕ => (pedDiskGetPartition disk i).isNone with
  | none =>
      rw [List.find?_range'_eq_none] at hfind
      have hused := hfind i hi (by omega)
      rw [(getPartition_isNone_iff hlinks hpad (by omega)).mpr hfree] at hused
      exact absurd hused (by simp)
  | some j =>
      rw [List.find?_range'_eq_some, List.mem_range'_1] at hfind
      obtain ⟨hnone, hj, -⟩ := hfind
      exact ⟨j, rfl, hj.1, by omega, (getPartition_isNone_iff hlinks hpad (by omega)).mp hnone⟩

/-- **GPT numbers partitions properly**, up to objects that bring their numbers along. -/
theorem gpt_numbers :
    Numbers (gptDiskType (π := π)) env OtherFault GptNumbered GptTrusts GptCarries where
  allows := gpt_allows
  aligns := fun _ _ _ _ => gptPartitionAlign_spec
  checks := fun _ _ _ => pttPartitionMaxStartLen_spec.mono (fun _ => False.elim) fun _ _ h => h
  numbered := fun _ h => h.allNumbered
  distinct := fun _ h => h.distinct
  same := fun _ _ hsame h => h.same hsame
  keeps := fun disk _ _ h => gpt_keeps env disk h.allNumbered
  closes := by
    intro table id part hlinks hnums hfind hext s hs hpad
    refine (renumbers_removed (gpt_keeps env) hlinks (hnums.remove id).allNumbered hfind hext s hs
      hpad).imp fun _ s' ⟨hs', hpad'⟩ => ⟨⟨hs' ▸ hnums.remove id, ?_⟩, hpad'⟩
    intro p hp
    simp [hnums.noLogicals] at hp
  assigns := by
    rintro disk before part thrown hclean hlinks hnums hbefore hsane hnew hact ⟨hlogical, hcarry⟩
    by_cases hnum : part.num = -1
    · obtain ⟨i, hrun, hi, hle, hfree⟩ := gptPartitionEnumerate_new env thrown
        (hclean.padding _) hlinks hnums hbefore hsane hact hlogical hnum
      unfold Spec
      have hrun' : (gptDiskType (π := π)).partitionEnumerate env disk part thrown = _ := hrun
      rw [hrun']
      have hrange : 1 ≤ (i : ℤ) ∧ (i : ℤ) ≤ disk.diskSpecific.entryCount := by omega
      exact ⟨⟨hlogical, Or.inr hrange⟩, fun htrust => absurd hnum htrust,
        fun _ _ => hnums.place hlogical hrange hfree⟩
    · have hrun : (gptDiskType (π := π)).partitionEnumerate env disk part thrown
          = .ok ((true, part.num), thrown) := gptPartitionEnumerate_keep env hnum
      unfold Spec
      rw [hrun]
      refine ⟨⟨hlogical, hcarry⟩, fun _ => rfl, fun _ hclash => ?_⟩
      refine hnums.place hlogical (hcarry.resolve_left hnum) fun other hother heq => ?_
      exact hclash ⟨hnum, other, hother, heq⟩
  carries_new := by
    intro specific id kind geom data hkind
    rw [hkind rfl]
    exact ⟨rfl, Or.inl rfl⟩
  carries_on := by
    intro table part hlinks hnums hpart
    have hmem : part ∈ table.partList :=
      hpart.resolve_right fun hlog => by simp [hnums.noLogicals] at hlog
    exact ⟨hlinks.leveled.1 part hmem, Or.inr (hnums.inRange part hpart)⟩
  carries_geom := fun _ _ _ h => h

end Gpt

/-! ## MS-DOS -/

/-- The numbers on an MS-DOS disk: distinct, from 1 to 4 for primary and extended
partitions, and without a gap from 5 on for logical ones. -/
structure DosNumbered (table : DosDisk) : Prop where
  distinct : ((table.partList ++ table.logicals).map (·.num)).Nodup
  primary : ∀ part ∈ table.partList, 1 ≤ part.num ∧ part.num ≤ 4
  logical : ∀ num : ℤ, (∃ part ∈ table.logicals, part.num = num) ↔
    5 ≤ num ∧ num ≤ 4 + table.logicals.length
  room : table.logicals.length ≤ 60

/-- The numbers `msdos_partition_enumerate` does not change. -/
def DosTrusts (num : ℤ) : Prop := num ≠ -1 ∧ num ≤ 4

/-- What objects off an MS-DOS disk are like. -/
def DosCarries (_ : DosDiskData) (part : DosPartition) : Prop :=
  part.num = -1 ∨
    if part.type.logical then 4 < part.num else 1 ≤ part.num ∧ part.num ≤ 4

/-- The numbers after a removal: as in `DosNumbered`, but `gap` is not in use. -/
structure DosGap (gap : ℤ) (table : DosDisk) : Prop where
  distinct : ((table.partList ++ table.logicals).map (·.num)).Nodup
  primary : ∀ part ∈ table.partList, 1 ≤ part.num ∧ part.num ≤ 4
  logical : ∀ num : ℤ, (∃ part ∈ table.logicals, part.num = num) ↔
    5 ≤ num ∧ num ≤ 5 + table.logicals.length ∧ num ≠ gap
  range : 5 ≤ gap ∧ gap ≤ 5 + table.logicals.length
  room : table.logicals.length ≤ 60

section Dos

variable {env : Env} {table disk : DosDisk} {part : DosPartition} {gap : ℤ}
  {thrown : List PedException}

/-- Without a gap the number behind the last one is not in use. -/
theorem DosNumbered.gapped (h : DosNumbered table) : DosGap (5 + table.logicals.length) table := by
  refine ⟨h.distinct, h.primary, fun num => ?_, by omega, h.room⟩
  rw [h.logical num]
  omega

theorem DosNumbered.mem_range (h : DosNumbered table) (hpart : part ∈ table.logicals) :
    5 ≤ part.num ∧ part.num ≤ 4 + table.logicals.length :=
  (h.logical part.num).mp ⟨part, hpart, rfl⟩

theorem DosGap.mem_range (h : DosGap gap table) (hpart : part ∈ table.logicals) :
    5 ≤ part.num ∧ part.num ≤ 5 + table.logicals.length ∧ part.num ≠ gap :=
  (h.logical part.num).mp ⟨part, hpart, rfl⟩

theorem DosGap.num_pos (h : DosGap gap table) (hpart : table.Has part) : 1 ≤ part.num := by
  rcases hpart with hpart | hpart
  · exact (h.primary part hpart).1
  · have := h.mem_range hpart
    omega

/-- Numbers above 4 are those of logical partitions. -/
theorem DosGap.mem_logicals (h : DosGap gap table) (hpart : table.Has part) (hnum : 4 < part.num) :
    part ∈ table.logicals :=
  hpart.resolve_left fun htop => by
    have := h.primary part htop
    omega

theorem DosGap.eq_of_num (h : DosGap gap table) {p q : DosPartition} (hp : table.Has p)
    (hq : table.Has q) (hnum : p.num = q.num) : p = q :=
  List.inj_on_of_nodup_map h.distinct (List.mem_append.mpr hp) (List.mem_append.mpr hq) hnum

theorem DosNumbered.allNumbered (h : DosNumbered table) : AllNumbered table := by
  intro part hpart hnum
  have := h.gapped.num_pos hpart
  omega

theorem DosNumbered.same {table' : DosDisk} (h : DosNumbered table)
    (hsame : SameNumbers table table') : DosNumbered table' := by
  have hlength : table'.logicals.length = table.logicals.length := by
    simpa using hsame.logical.length_eq
  refine ⟨hsame.nodup h.distinct, fun part hpart => ?_, fun num => ?_, hlength.symm ▸ h.room⟩
  · obtain ⟨p, hp, hnum⟩ := List.mem_map.mp (hsame.top.subset (List.mem_map_of_mem hpart))
    exact hnum ▸ h.primary p hp
  · rw [hlength, ← h.logical num, ← List.mem_map, ← List.mem_map, hsame.logical.mem_iff]

/-! ### Finding a number -/

theorem nextLogical_eq (hlinks : WellLinked disk.core) (hpad : disk.Padding Unnumbered) {j : ℤ}
    (hj : 5 ≤ j ∧ j ≤ 64) (hfree : ∀ other, disk.core.Has other → other.num ≠ j)
    (hused : ∀ l : ℤ, 5 ≤ l → l < j → ∃ other, disk.core.Has other ∧ other.num = l) :
    nextLogical env disk thrown = .ok (j, thrown) := by
  lift j to ℕ using by omega
  have hfind : (List.range' 5 (maxTotalPart - 4)).find?
      (fun i : ℕ => (pedDiskGetPartition disk i).isNone) = some j := by
    rw [List.find?_range'_eq_some, List.mem_range'_1]
    refine ⟨(getPartition_isNone_iff hlinks hpad (by omega)).mpr hfree, ?_, fun l hl hlj => ?_⟩
    · simp only [maxTotalPart]
      omega
    · obtain ⟨other, hother, hnum⟩ := hused l (by omega) (by omega)
      rw [Bool.not_eq_true', ← Bool.not_eq_true, getPartition_isNone_iff hlinks hpad (by omega)]
      exact fun hno => hno other hother hnum
  unfold nextLogical
  rw [hfind]
  rfl

/-- A logical partition on the disk gets the first number that no other one has. -/
theorem msdosPartitionEnumerate_logical (hlinks : WellLinked disk.core)
    (hpad : disk.Padding Unnumbered) (hpart : disk.core.Has part)
    (hlogical : part.type.logical = true) (hnum : 4 < part.num) {j : ℤ} (hj : 5 ≤ j ∧ j ≤ 64)
    (hfree : ∀ other, disk.core.Has other → other.id ≠ part.id → other.num ≠ j)
    (hused : ∀ l : ℤ, 5 ≤ l → l < j →
      ∃ other, disk.core.Has other ∧ other.id ≠ part.id ∧ other.num = l) :
    msdosPartitionEnumerate env disk part thrown = .ok ((true, j), thrown) := by
  have hne : part.id ≠ 0 := hpart.elim (hlinks.ids.1 part) (hlinks.ids.2 part)
  have hlinks' : WellLinked (disk.setNum part.id (-1)).core := by
    refine hlinks.renumbered ?_
    rw [PedDisk.core_setNum, PedDisk.setNum_unnumbered]
  have hnext : nextLogical env (disk.setNum part.id (-1)) thrown = .ok (j, thrown) := by
    refine nextLogical_eq hlinks' (hpad.setNum hne) hj (fun other hother heq => ?_)
      fun l hl hlj => ?_
    · rw [PedDisk.core_setNum, PedDisk.has_setNum] at hother
      obtain ⟨p, hp, rfl⟩ := hother
      by_cases hid : p.id = part.id
      · simp only [hid, if_true] at heq
        omega
      · rw [if_neg hid] at heq
        exact hfree p hp hid heq
    · obtain ⟨other, hother, hid, hnum⟩ := hused l hl hlj
      refine ⟨other, ?_, hnum⟩
      rw [PedDisk.core_setNum, PedDisk.has_setNum]
      exact ⟨other, hother, (if_neg hid).symm⟩
  have htrust : ¬ (part.num ≠ -1 ∧ part.num ≤ dosNPriPartitions) := by
    simp only [dosNPriPartitions]
    omega
  have hj1 : j ≠ -1 := by omega
  simp only [msdosPartitionEnumerate, if_neg htrust, hlogical, if_true, bind, StateT.bind, hnext,
    Except.bind, pure, StateT.pure, Except.pure, ne_eq, hj1, not_false_eq_true, decide_true]

theorem msdosPartitionEnumerate_keep (h : DosTrusts part.num) :
    msdosPartitionEnumerate env disk part thrown = .ok ((true, part.num), thrown) := by
  have htrust : part.num ≠ -1 ∧ part.num ≤ (dosNPriPartitions : ℤ) := h
  unfold msdosPartitionEnumerate
  rw [if_pos htrust]
  rfl

/-! ### Closing ranks -/

/-- The numbers while the loop has dealt with those below `i`: what was above the gap has
moved down by one. -/
def shiftBelow (gap i num : ℤ) : ℤ := if gap < num ∧ num < i then num - 1 else num

/-- The numbers in the end. -/
def closeGap (gap num : ℤ) : ℤ := if gap < num then num - 1 else num

/-- Where the loop puts the partition with the number `i`. -/
def shiftTarget (gap i : ℤ) : ℤ := if gap < i then i - 1 else i

theorem shiftBelow_eq_iff {i num : ℤ} : shiftBelow gap i num = i ↔ num = i := by
  unfold shiftBelow
  split_ifs <;> omega

theorem shiftBelow_succ {i num : ℤ} :
    shiftBelow gap (i + 1) num = if num = i then shiftTarget gap i else shiftBelow gap i num := by
  unfold shiftBelow shiftTarget
  split_ifs <;> omega

/-- No other partition has, or has been moved to, the number the loop looks for. -/
theorem DosGap.shift_free (h : DosGap gap table) {p q : DosPartition} (hp : table.Has p)
    (hq : table.Has q) (hne : p ≠ q) :
    shiftBelow gap q.num p.num ≠ shiftTarget gap q.num := by
  have hnum : p.num ≠ q.num := fun heq => hne (h.eq_of_num hp hq heq)
  have hrange := h.range
  have hgap : p.num ≠ gap := by
    rcases hp with hp | hp
    · have := h.primary p hp
      omega
    · exact (h.mem_range hp).2.2
  unfold shiftBelow shiftTarget
  split_ifs <;> omega

/-- All lower numbers are in use. -/
theorem DosGap.shift_used (h : DosGap gap table) {q : DosPartition} (hq : table.Has q)
    (hq4 : 4 < q.num) {l : ℤ} (hl : 5 ≤ l) (hlt : l < shiftTarget gap q.num) :
    ∃ p, table.Has p ∧ p ≠ q ∧ shiftBelow gap q.num p.num = l := by
  have hqrange := h.mem_range (h.mem_logicals hq hq4)
  have hrange := h.range
  unfold shiftTarget at hlt
  by_cases hlow : l < gap
  · obtain ⟨p, hp, hnum⟩ := (h.logical l).mpr ⟨hl, by split_ifs at hlt <;> omega, by omega⟩
    refine ⟨p, Or.inr hp, fun heq => ?_, ?_⟩
    · rw [heq] at hnum
      split_ifs at hlt <;> omega
    · rw [hnum, shiftBelow, if_neg (by omega)]
  · -- above the gap it is the next partition that has moved down
    obtain ⟨p, hp, hnum⟩ := (h.logical (l + 1)).mpr
      ⟨by omega, by split_ifs at hlt <;> omega, by omega⟩
    refine ⟨p, Or.inr hp, fun heq => ?_, ?_⟩
    · rw [heq] at hnum
      split_ifs at hlt <;> omega
    · rw [hnum, shiftBelow, if_pos (by split_ifs at hlt <;> omega)]
      omega

/-- The loop gives the partition with the number `i` its new number. -/
theorem msdosPartitionEnumerate_shift (hlinks : WellLinked disk.core)
    (hpad : disk.Padding Unnumbered) (hgap : DosGap gap disk.core) {q : DosPartition}
    (hq : disk.core.Has q) :
    msdosPartitionEnumerate env (disk.mapNum (shiftBelow gap q.num)) q thrown
      = .ok ((true, shiftTarget gap q.num), thrown) := by
  have hpos := hgap.num_pos hq
  have hrange := hgap.range
  by_cases hq4 : q.num ≤ 4
  · have htarget : shiftTarget gap q.num = q.num := if_neg (by omega)
    rw [htarget]
    exact msdosPartitionEnumerate_keep ⟨by omega, hq4⟩
  · have hq4 : 4 < q.num := by omega
    have hqlog := hgap.mem_logicals hq hq4
    have hqrange := hgap.mem_range hqlog
    have hroom := hgap.room
    have hlinks' : WellLinked (disk.mapNum (shiftBelow gap q.num)).core := by
      refine hlinks.renumbered ?_
      rw [PedDisk.core_mapNum, PedDisk.unnumbered_mapNum]
    have hself : shiftBelow gap q.num q.num = q.num := shiftBelow_eq_iff.mpr rfl
    have hq' : (disk.mapNum (shiftBelow gap q.num)).core.Has q := by
      rw [PedDisk.core_mapNum, PedDisk.has_mapNum]
      exact ⟨q, hq, by rw [hself]⟩
    have hne : ∀ p, disk.core.Has p → (p ≠ q ↔ p.id ≠ q.id) := fun p hp =>
      not_congr ⟨fun h => h ▸ rfl, fun h => hlinks.eq_of_id hp hq h⟩
    refine msdosPartitionEnumerate_logical hlinks' (hpad.mapNum ?_) hq'
      (hlinks.leveled.2 q hqlog) hq4 ?_ (fun other hother hid => ?_) fun l hl hlt => ?_
    · exact if_neg (by omega)
    · unfold shiftTarget
      split_ifs <;> omega
    · rw [PedDisk.core_mapNum, PedDisk.has_mapNum] at hother
      obtain ⟨p, hp, rfl⟩ := hother
      exact hgap.shift_free hp hq ((hne p hp).mpr hid)
    · obtain ⟨p, hp, hpq, hnum⟩ := hgap.shift_used hq hq4 hl hlt
      refine ⟨{ p with num := shiftBelow gap q.num p.num }, ?_, (hne p hp).mp hpq, hnum⟩
      rw [PedDisk.core_mapNum, PedDisk.has_mapNum]
      exact ⟨p, hp, rfl⟩

theorem enumerateNumbered_shift_step (hlinks : WellLinked disk.core)
    (hpad : disk.Padding Unnumbered) (hgap : DosGap gap disk.core) (i : ℕ) (rest : List ℕ) :
    enumerateNumbered msdosOps env (i :: rest) ⟨disk.mapNum (shiftBelow gap i), thrown⟩
      = enumerateNumbered msdosOps env rest
        ⟨disk.mapNum (shiftBelow gap (i + 1)), thrown⟩ := by
  have hrange := hgap.range
  have hpad' : (disk.mapNum (shiftBelow gap i)).Padding Unnumbered :=
    hpad.mapNum (if_neg (by omega))
  have hlinks' : WellLinked (disk.mapNum (shiftBelow gap i)).core := by
    refine hlinks.renumbered ?_
    rw [PedDisk.core_mapNum, PedDisk.unnumbered_mapNum]
  conv_lhs => unfold enumerateNumbered
  simp only [getDisk, bind, StateT.bind, get, getThe, MonadStateOf.get, StateT.get, Except.bind,
    pure, StateT.pure, Except.pure]
  cases hfind : pedDiskGetPartition (disk.mapNum (shiftBelow gap i)) i with
  | none =>
      -- nothing has the number `i`, so that this round moves nothing
      have hnone := (getPartition_isNone_iff hlinks' hpad' (i := i) (by omega)).mp (by simp [hfind])
      have hsame : disk.mapNum (shiftBelow gap i) = disk.mapNum (shiftBelow gap (i + 1)) := by
        refine PedDisk.mapNum_congr fun p hp => ?_
        rw [shiftBelow_succ, if_neg]
        intro hnum
        rcases hpad.core_or hp with hcore | hno
        · refine hnone { p with num := shiftBelow gap i p.num } ?_ (shiftBelow_eq_iff.mpr hnum)
          rw [PedDisk.core_mapNum, PedDisk.has_mapNum]
          exact ⟨p, hcore, rfl⟩
        · omega
      simp only [hsame]
  | some walk =>
      obtain ⟨hwalk, hnum⟩ := getPartition_eq_some hlinks' hpad' (by omega) hfind
      rw [PedDisk.core_mapNum, PedDisk.has_mapNum] at hwalk
      obtain ⟨q, hq, rfl⟩ := hwalk
      have hqi : q.num = i := shiftBelow_eq_iff.mp hnum
      have hself : { q with num := shiftBelow gap i q.num } = q := by
        rw [shiftBelow_eq_iff.mpr hqi, ← hqi]
      have hrun : msdosOps.partitionEnumerate env (disk.mapNum (shiftBelow gap i)) q thrown
          = .ok ((true, shiftTarget gap i), thrown) :=
        hqi ▸ msdosPartitionEnumerate_shift hlinks hpad hgap hq
      have hset : (disk.mapNum (shiftBelow gap i)).setNum q.id (shiftTarget gap i)
          = disk.mapNum (shiftBelow gap (i + 1)) := by
        refine PedDisk.setNum_mapNum (fun p hp hid => ?_) fun p hp hid => ?_
        · rw [hlinks.eq_of_disk hpad hq hp hid, shiftBelow_succ, if_pos hqi]
        · rw [shiftBelow_succ, if_neg]
          intro hpi
          rcases hpad.core_or hp with hcore | hno
          · exact hid (congrArg _ (hgap.eq_of_num hcore hq (hpi.trans hqi.symm)))
          · omega
      simp only [hself, partitionEnumerate, getDisk, ask, modifyDisk, bind, StateT.bind, get, getThe,
        MonadStateOf.get, StateT.get, modify, modifyGet, MonadStateOf.modifyGet, StateT.modifyGet,
        Except.bind, pure, StateT.pure, Except.pure, hrun, hset, if_true]

theorem enumerateNumbered_shift (hlinks : WellLinked disk.core) (hpad : disk.Padding Unnumbered)
    (hgap : DosGap gap disk.core) (i n : ℕ) :
    enumerateNumbered msdosOps env (List.range' i n) ⟨disk.mapNum (shiftBelow gap i), thrown⟩
      = .ok (true, ⟨disk.mapNum (shiftBelow gap (i + n : ℕ)), thrown⟩) := by
  induction n generalizing i with
  | zero => rfl
  | succ n ih =>
      rw [List.range'_succ, enumerateNumbered_shift_step hlinks hpad hgap]
      have hnext := ih (i + 1)
      rw [Nat.cast_succ] at hnext
      rw [hnext, Nat.add_right_comm, Nat.add_assoc]

/-- **The gap is closed**: what was above it is one lower in the end. -/
theorem pedDiskEnumeratePartitions_close {s : Session DosPartitionData DosDiskData}
    (hlinks : WellLinked s.disk.core) (hpad : s.disk.Padding Unnumbered)
    (hgap : DosGap gap s.disk.core) :
    pedDiskEnumeratePartitions msdosOps env s
      = .ok (true, ⟨s.disk.mapNum (closeGap gap), s.thrown⟩) := by
  have hrange := hgap.range
  have hstart : s.disk.mapNum (shiftBelow gap (1 : ℕ)) = s.disk :=
    PedDisk.mapNum_eq_self fun p _ => if_neg (by omega)
  have hloop : enumerateNumbered msdosOps env _ ⟨_, s.thrown⟩ = _ :=
    enumerateNumbered_shift hlinks hpad hgap 1 (pedDiskGetLastPartitionNum s.disk).toNat
  rw [hstart] at hloop
  have hend : s.disk.mapNum
      (shiftBelow gap (1 + (pedDiskGetLastPartitionNum s.disk).toNat : ℕ))
        = s.disk.mapNum (closeGap gap) := by
    refine PedDisk.mapNum_congr fun p hp => ?_
    unfold shiftBelow closeGap
    rcases hpad.core_or hp with hcore | hno
    · have hlast := hlinks.num_le_last hcore
      split_ifs <;> omega
    · split_ifs <;> omega
  rw [hend] at hloop
  unfold pedDiskEnumeratePartitions
  simp only [getDisk, bind, StateT.bind, get, getThe, MonadStateOf.get, StateT.get, Except.bind,
    pure, StateT.pure, Except.pure, hloop, if_true]
  refine enumerateUnnumbered_skip fun part hpart hact hnum => ?_
  obtain ⟨p, hp, rfl⟩ := PedDisk.has_mapNum.mp (traverse_subset hpart)
  rcases hpad.core_or hp with hcore | hno
  · have := hgap.num_pos hcore
    simp only [closeGap] at hnum
    split_ifs at hnum <;> omega
  · have hcore : s.disk.core.Has p := hp.imp (fun hp => List.mem_filter.mpr ⟨hp, hact⟩)
      fun hp => List.mem_filter.mpr ⟨hp, hact⟩
    have := hgap.num_pos hcore
    omega

/-- Closing the gap puts the numbers in order. -/
theorem DosGap.close (h : DosGap gap table) : DosNumbered (table.mapNum (closeGap gap)) := by
  have hrange := h.range
  have hne : ∀ p, table.Has p → p.num ≠ gap := by
    rintro p (hp | hp)
    · have := h.primary p hp
      omega
    · exact (h.mem_range hp).2.2
  have hlength : (table.mapNum (closeGap gap)).logicals.length = table.logicals.length :=
    List.length_map _
  refine ⟨?_, fun part hpart => ?_, fun num => ?_, hlength.symm ▸ h.room⟩
  · have hmap : ((table.mapNum (closeGap gap)).partList ++
        (table.mapNum (closeGap gap)).logicals).map (·.num)
          = ((table.partList ++ table.logicals).map (·.num)).map (closeGap gap) := by
      simp [PedDisk.mapNum, Function.comp_def]
    rw [hmap]
    refine List.Nodup.map_on (fun x hx y hy heq => ?_) h.distinct
    obtain ⟨p, hp, rfl⟩ := List.mem_map.mp hx
    obtain ⟨q, hq, rfl⟩ := List.mem_map.mp hy
    have hp' := hne p (List.mem_append.mp hp)
    have hq' := hne q (List.mem_append.mp hq)
    unfold closeGap at heq
    split_ifs at heq <;> omega
  · obtain ⟨p, hp, rfl⟩ := List.mem_map.mp hpart
    have := h.primary p hp
    have hkeep : closeGap gap p.num = p.num := if_neg (by omega)
    simp only [hkeep]
    exact this
  · rw [hlength]
    constructor
    · rintro ⟨part, hpart, rfl⟩
      obtain ⟨p, hp, rfl⟩ := List.mem_map.mp hpart
      have := h.mem_range hp
      simp only [closeGap]
      split_ifs <;> omega
    · intro hnum
      have hback : ∃ x, closeGap gap x = num ∧ 5 ≤ x ∧ x ≤ 5 + table.logicals.length ∧ x ≠ gap := by
        by_cases hlow : num < gap
        · exact ⟨num, if_neg (by omega), by omega⟩
        · exact ⟨num + 1, by rw [closeGap, if_pos (by omega)]; omega, by omega⟩
      obtain ⟨x, hx, hxrange⟩ := hback
      obtain ⟨p, hp, hpx⟩ := (h.logical x).mpr hxrange
      exact ⟨_, List.mem_map.mpr ⟨p, hp, rfl⟩, by simp only [hpx, hx]⟩

theorem DosNumbered.remove (h : DosNumbered table) (hlinks : WellLinked table) {id : ℕ}
    (hfind : table.find? id = some part) : ∃ gap, DosGap gap (diskRawRemove table id) := by
  obtain ⟨hmem, -, rfl⟩ := PedDisk.mem_of_find? hfind
  have hdistinct := nodup_diskRawRemove h.distinct part.id
  have hprimary : ∀ p ∈ (diskRawRemove table part.id).partList, 1 ≤ p.num ∧ p.num ≤ 4 :=
    fun p hp => h.primary p (mem_diskRawRemove_partList.mp hp).1
  rcases hmem with hmem | hmem
  · have hlog : (diskRawRemove table part.id).logicals = table.logicals := by
      refine List.filter_eq_self.mpr fun p hp => ?_
      have hne : p.id ≠ part.id := fun heq => by
        have hlogical := hlinks.leveled.2 p hp
        rw [hlinks.eq_of_id (Or.inr hp) (Or.inl hmem) heq, hlinks.leveled.1 part hmem] at hlogical
        simp at hlogical
      simpa using hne
    obtain ⟨-, -, hlogical, hrange, hroom⟩ := h.gapped
    exact ⟨_, hdistinct, hprimary, hlog.symm ▸ hlogical, hlog.symm ▸ hrange, hlog.symm ▸ hroom⟩
  · have hnodup : (table.logicals.map (·.id)).Nodup :=
      (List.nodup_append.mp (List.map_append ▸ hlinks.nodup)).2.1
    have hlength : (diskRawRemove table part.id).logicals.length + 1 = table.logicals.length :=
      (perm_cons_filter_id hnodup hmem).length_eq
    have hpart := h.mem_range hmem
    have hroom := h.room
    refine ⟨part.num, hdistinct, hprimary, fun num => ?_, by omega, by omega⟩
    have hiff := h.logical num
    constructor
    · rintro ⟨p, hp, rfl⟩
      obtain ⟨hp, hid⟩ := mem_diskRawRemove_logicals.mp hp
      have := h.mem_range hp
      refine ⟨by omega, by omega, fun heq => hid ?_⟩
      rw [h.gapped.eq_of_num (Or.inr hp) (Or.inr hmem) heq]
    · rintro ⟨hlow, hhigh, hne⟩
      obtain ⟨p, hp, hpnum⟩ := hiff.mpr ⟨hlow, by omega⟩
      refine ⟨p, mem_diskRawRemove_logicals.mpr ⟨hp, fun hid => hne ?_⟩, hpnum⟩
      rw [← hpnum, hlinks.eq_of_id (Or.inr hp) (Or.inr hmem) hid]

/-! ### New partitions -/

theorem DosNumbered.place_primary (h : DosNumbered table) (hlogical : part.type.logical = false)
    (hrange : 1 ≤ part.num ∧ part.num ≤ 4)
    (hfree : ∀ other, table.Has other → other.num ≠ part.num) :
    DosNumbered (table.place part) := by
  have hlog := (place_top_nums table part hlogical).2
  refine ⟨nodup_place h.distinct hfree, fun p hp => ?_, hlog.symm ▸ h.logical, hlog.symm ▸ h.room⟩
  rw [PedDisk.place_top hlogical] at hp
  rcases mem_insertOrdered.mp hp with rfl | hp
  · exact hrange
  · exact h.primary p hp

theorem DosNumbered.place_logical (h : DosNumbered table) (hlogical : part.type.logical = true)
    (hnum : part.num = 5 + table.logicals.length) (hroom : table.logicals.length < 60) :
    DosNumbered (table.place part) := by
  obtain ⟨hperm, htop⟩ := place_logical_nums table part hlogical
  have hlength : (table.place part).logicals.length = table.logicals.length + 1 := by
    simpa using hperm.length_eq
  refine ⟨nodup_place h.distinct ?_, htop.symm ▸ h.primary, fun num => ?_, by omega⟩
  · rintro other (hother | hother) heq
    · have := h.primary other hother
      omega
    · have := h.mem_range hother
      omega
  · rw [← List.mem_map, hperm.mem_iff, List.mem_cons, List.mem_map, h.logical num, hlength]
    omega

/-- A primary or extended partition without a number gets one that is free. -/
theorem nextPrimary_free (hlinks : WellLinked disk.core) (hpad : disk.Padding Unnumbered)
    (h : nextPrimary disk ≠ -1) : (1 ≤ nextPrimary disk ∧ nextPrimary disk ≤ 4) ∧
      ∀ other, disk.core.Has other → other.num ≠ nextPrimary disk := by
  unfold nextPrimary at h ⊢
  cases hfind : (List.range' 1 dosNPriPartitions).find?
      fun i : ℕ => (pedDiskGetPartition disk i).isNone with
  | none => simp [hfind] at h
  | some i =>
      obtain ⟨hnone, hi, -⟩ := List.find?_range'_eq_some.mp hfind
      rw [List.mem_range'_1, dosNPriPartitions] at hi
      dsimp only
      exact ⟨by omega, (getPartition_isNone_iff hlinks hpad (by omega)).mp hnone⟩

/-- A logical partition that is new gets the number behind the last one, if there is room. -/
theorem nextLogical_new (hlinks : WellLinked disk.core) (hpad : disk.Padding Unnumbered)
    (h : DosNumbered disk.core) :
    Spec (fun _ => False) (nextLogical env disk) thrown fun num _ =>
      num = -1 ∨ num = 5 + disk.core.logicals.length ∧ disk.core.logicals.length < 60 := by
  by_cases hroom : disk.core.logicals.length < 60
  · have hnext : nextLogical env disk thrown = .ok (5 + disk.core.logicals.length, thrown) := by
      refine nextLogical_eq hlinks hpad (by omega) (fun other hother heq => ?_) fun l hl hlt => ?_
      · rcases hother with hother | hother
        · have := h.primary other hother
          omega
        · have := h.mem_range hother
          omega
      · obtain ⟨other, hother, hnum⟩ := (h.logical l).mpr ⟨hl, by omega⟩
        exact ⟨other, Or.inr hother, hnum⟩
    unfold Spec
    rw [hnext]
    exact Or.inr ⟨rfl, hroom⟩
  · unfold nextLogical
    cases hfind : (List.range' 5 (maxTotalPart - 4)).find?
        fun i : ℕ => (pedDiskGetPartition disk i).isNone with
    | none => exact Or.inl rfl
    | some i =>
        -- all numbers up to 64 are in use
        rw [List.find?_range'_eq_some, List.mem_range'_1] at hfind
        obtain ⟨hnone, hi, -⟩ := hfind
        simp only [maxTotalPart] at hi
        obtain ⟨other, hother, hnum⟩ := (h.logical i).mpr (by omega)
        exact absurd hnum
          ((getPartition_isNone_iff hlinks hpad (by omega)).mp hnone other (Or.inr hother))

/-- Numbering an object that is not on the disk. -/
theorem msdosPartitionEnumerate_new (hclean : disk.Clean) (hlinks : WellLinked disk.core)
    (hnums : DosNumbered disk.core) (hnew : ∀ other, disk.core.Has other → other.id ≠ part.id)
    (hcarry : DosCarries disk.diskSpecific part) :
    Spec (fun _ => True) (msdosPartitionEnumerate env disk part) thrown fun r _ =>
      DosCarries disk.diskSpecific { part with num := r.2 } ∧
      (DosTrusts part.num → r.2 = part.num) ∧
      (r.1 = true → ¬ Clashes DosTrusts disk.core part →
        DosNumbered (disk.core.place { part with num := r.2 })) := by
  have hpad : disk.Padding Unnumbered := hclean.padding _
  by_cases htrust : DosTrusts part.num
  · unfold Spec
    rw [msdosPartitionEnumerate_keep htrust]
    refine ⟨hcarry, fun _ => rfl, fun _ hclash => ?_⟩
    have hrange := hcarry.resolve_left htrust.1
    have hle := htrust.2
    cases hlogical : part.type.logical with
    | true =>
        simp only [hlogical, if_true] at hrange
        omega
    | false =>
        simp only [hlogical, Bool.false_eq_true, if_false] at hrange
        exact hnums.place_primary hlogical hrange fun other hother heq =>
          hclash ⟨htrust, other, hother, heq⟩
  · have hself : disk.setNum part.id (-1) = disk := by
      refine setNum_eq_self fun p hp hid => absurd hid (hnew p ?_)
      exact hp.imp (fun hp => List.mem_filter.mpr ⟨hp, hclean.1 p hp⟩)
        fun hp => List.mem_filter.mpr ⟨hp, hclean.2 p hp⟩
    have hno : ¬ (part.num ≠ -1 ∧ part.num ≤ (dosNPriPartitions : ℤ)) := htrust
    unfold msdosPartitionEnumerate
    rw [if_neg hno, hself]
    cases hlogical : part.type.logical with
    | true =>
        refine (nextLogical_new hlinks hpad hnums).mono (fun _ => False.elim) ?_ |>.bind
        rintro num t (rfl | ⟨rfl, hroom⟩)
        · exact ⟨Or.inl rfl, fun h => absurd h htrust, fun h => absurd h (by simp)⟩
        · refine ⟨Or.inr ?_, fun h => absurd h htrust, fun _ _ => ?_⟩
          · simp only [hlogical, if_true]
            omega
          · exact hnums.place_logical hlogical rfl hroom
    | false =>
        refine Spec.bind (spec_pure.mpr (spec_pure.mpr ?_))
        by_cases hnone : nextPrimary disk = -1
        · exact ⟨Or.inl hnone, fun h => absurd h htrust, fun h => absurd h (by simp [hnone])⟩
        · obtain ⟨hrange, hfree⟩ := nextPrimary_free hlinks hpad hnone
          refine ⟨Or.inr ?_, fun h => absurd h htrust, fun _ _ => ?_⟩
          · simp only [hlogical, Bool.false_eq_true, if_false]
            exact hrange
          · exact hnums.place_primary hlogical hrange hfree

theorem msdos_keeps (hlinks : WellLinked disk.core) (hpad : disk.Padding Unnumbered)
    (h : DosNumbered disk.core) : KeepsNumbers msdosDiskType.toPedDiskOps env disk := by
  intro part thrown hpart
  -- the loop without a gap
  have hshift : ∀ p, disk.Has p →
      shiftBelow (5 + disk.core.logicals.length) part.num p.num = p.num := by
    intro p hp
    refine if_neg ?_
    rcases hpad.core_or hp with (hp | hp) | hno
    · have := h.primary p hp
      omega
    · have := h.mem_range hp
      omega
    · omega
  have htarget : shiftTarget (5 + disk.core.logicals.length) part.num = part.num := by
    refine if_neg ?_
    rcases hpart with hpart | hpart
    · have := h.primary part hpart
      omega
    · have := h.mem_range hpart
      omega
  have hrun : msdosPartitionEnumerate env _ part thrown = _ :=
    msdosPartitionEnumerate_shift hlinks hpad h.gapped hpart
  rw [PedDisk.mapNum_eq_self hshift, htarget] at hrun
  exact hrun

theorem msdos_closes {id : ℕ} (hlinks : WellLinked table) (hnums : DosNumbered table)
    (hfind : table.find? id = some part) (hext : part.isExtended = true → table.logicals = []) :
    Renumbers msdosDiskType env (fun _ => True) Unnumbered (· = diskRawRemove table id)
      fun table' => DosNumbered table' ∧ KeepsOrder table table' := by
  intro s hs hpad
  obtain ⟨gap, hgap⟩ := hnums.remove hlinks hfind
  have hrun : pedDiskEnumeratePartitions msdosDiskType.toPedDiskOps env s = _ :=
    pedDiskEnumeratePartitions_close (hs ▸ hlinks.remove hfind hext) hpad (hs ▸ hgap)
  unfold Spec
  rw [hrun]
  dsimp only
  rw [PedDisk.core_mapNum, hs]
  have hrange := hgap.range
  refine ⟨⟨hgap.close, ?_⟩, hpad.mapNum (if_neg (by omega))⟩
  intro p hp q hq p' hp' q' hq' hpid hqid hlt
  obtain ⟨p₁, hp₁, rfl⟩ := List.mem_map.mp hp'
  obtain ⟨q₁, hq₁, rfl⟩ := List.mem_map.mp hq'
  have hp₂ := hgap.mem_range hp₁
  have hq₂ := hgap.mem_range hq₁
  rw [← hlinks.eq_of_id (Or.inr (mem_diskRawRemove_logicals.mp hp₁).1) (Or.inr hp) hpid,
    ← hlinks.eq_of_id (Or.inr (mem_diskRawRemove_logicals.mp hq₁).1) (Or.inr hq) hqid] at hlt
  show closeGap gap p₁.num < closeGap gap q₁.num
  unfold closeGap
  split_ifs <;> omega

/-- **MS-DOS labels number partitions properly**, up to primary and extended partitions
that bring their numbers along. -/
theorem msdos_numbers :
    Numbers msdosDiskType env (fun _ => True) DosNumbered DosTrusts DosCarries where
  allows := ⟨fun _ _ => trivial, fun _ => msdosAllocMetadata_padded, fun _ _ => ⟨rfl, rfl⟩,
    fun _ _ h => h⟩
  aligns := fun _ _ _ _ => spec_iff.mpr ⟨fun _ _ _ => trivial, fun _ _ => trivial⟩
  checks := fun _ _ _ => spec_iff.mpr ⟨fun _ _ _ => trivial, fun _ _ => trivial⟩
  numbered := fun _ h => h.allNumbered
  distinct := fun _ h => h.distinct
  same := fun _ _ hsame h => h.same hsame
  keeps := fun _ hlinks hpad h => msdos_keeps hlinks hpad h
  closes := fun _ _ _ hlinks hnums hfind hext => msdos_closes hlinks hnums hfind hext
  assigns := fun _ _ _ _ hclean hlinks hnums _ _ hnew _ hcarry =>
    msdosPartitionEnumerate_new hclean hlinks hnums hnew hcarry
  carries_new := fun _ _ _ _ _ _ => Or.inl rfl
  carries_on := by
    rintro table part hlinks hnums (hpart | hpart)
    · refine Or.inr ?_
      rw [hlinks.leveled.1 part hpart]
      exact hnums.primary part hpart
    · refine Or.inr ?_
      rw [hlinks.leveled.2 part hpart]
      have := hnums.mem_range hpart
      simp only [if_true]
      omega
  carries_geom := fun _ _ _ h => h

end Dos

/-! ## Runs -/

/-- The faults a call may end with, whatever it adds. -/
theorem Numbers.no_fault {δ : Type} {label : PedDiskType π δ} {env : Env} {E : Fault → Prop}
    {Numbered : PedDisk π δ → Prop} {Trusts : ℤ → Prop} {Carries : δ → PedPartition π → Prop}
    (h : Numbers label env E Numbered Trusts Carries) {client : Client π δ}
    (hgood : client.Good Numbered Carries) (call : ClientCall π) {f : Fault}
    (hrun : call.run label env client = .error f) : E f := by
  cases call with
  | add id constraint => exact (h.clientAdd hgood id constraint).of_error hrun
  | new kind data start «end» =>
      exact (h.call hgood (.new kind data start «end») trivial).of_error hrun
  | remove id => exact (h.call hgood (.remove id) trivial).of_error hrun
  | delete id => exact (h.call hgood (.delete id) trivial).of_error hrun
  | setGeom id constraint start «end» =>
      exact (h.call hgood (.setGeom id constraint start «end») trivial).of_error hrun

/-- Four entries and a data area from sector 3 to 96. -/
def gptHundred : GPTDiskData := ⟨.fromTo 3 96, 4, 0, false, 99⟩

def gptData : GPTPartitionData := ⟨0, 0, Vector.replicate 36 0, 0⟩

/-- A GPT disk without partitions. -/
def gptClient : Client GPTPartitionData GPTDiskData where
  session :=
    { disk :=
        { partList := [.placeholder (.ofMetadata false) (.fromTo 0 2),
            .placeholder (.ofFreespace false) (.fromTo 3 97),
            .placeholder (.ofMetadata false) (.fromTo 98 99)]
          logicals := []
          updateMode := 0
          needsClobber := false
          diskSpecific := gptHundred }
      thrown := [] }
  loose := []
  nextId := 1

def wholeHundred : PedConstraint := pedConstraintNewFromMax (.fromTo 0 99)

theorem gptClient_empty (part : PedPartition GPTPartitionData) : ¬ gptClient.table.Has part := by
  have htop : gptClient.table.partList = [] := rfl
  have hlog : gptClient.table.logicals = [] := rfl
  simp [PedDisk.Has, htop, hlog]

theorem gptClient_initial : gptClient.Initial GptNumbered where
  links := ⟨by decide, ⟨by decide, by decide⟩, ⟨by decide, by decide⟩, by decide⟩
  nums := ⟨by decide, fun part hpart => absurd hpart (gptClient_empty part), rfl⟩
  mode := rfl
  padding := by
    unfold PedDisk.Padding PedDisk.Each Unnumbered
    decide
  ids := fun part hpart => absurd hpart (gptClient_empty part)
  loose := rfl

/-- A partition is added and taken off, a second one is added, and the first one comes
back. -/
def clashCalls : List (ClientCall GPTPartitionData) :=
  [.new .normal gptData 10 19, .add 1 (some wholeHundred), .remove 1,
    .new .normal gptData 30 39, .add 2 (some wholeHundred), .add 1 (some wholeHundred)]

end Libparted
