import Libparted.Disk.Loading
import Libparted.Labels.Gpt.Table
import Libparted.Labels.Numbers

/-!
# Reading the entries of a GPT

What the loop of `gpt_read` does with the array of entries, one turn after the other.
`Loading env i disk` is what holds before turn `i`: the disk is one that
`ped_disk_new_fresh` has made, with partitions of the first `i` entries on it.

Each turn adds the partition of its entry or makes the reading fail; nothing else is
done to the disk, whatever the answers are.  A turn stops the program only if the
entry starts beyond the largest signed sector number, or its length is not one.
-/

namespace Libparted

open Library

/-! ## The disk while it is read -/

/-- The metadata of the label fits on the device. -/
def MetadataFits (dev : PedDevice) (specific : GPTDiskData) : Prop :=
  (pedDivRoundUp sizeofHeader dev.sectorSize : ℤ)
    + pedDivRoundUp (specific.entryCount * sizeofEntry) dev.sectorSize < dev.length

/-- A disk with partitions of the first `i` entries. -/
structure Loading (env : Env) (i : ℕ) (disk : GptDisk) : Prop where
  mode : disk.updateMode = 0
  clobber : disk.needsClobber = true
  leveled : disk.Leveled
  padding : disk.Padding Unnumbered
  links : WellLinked disk.core
  nums : GptNumbered disk.core
  normal : ∀ part ∈ disk.core.partList, part.type = .normal
  few : disk.core.partList.length ≤ i
  below : ∀ part ∈ disk.core.partList, part.num ≤ i
  fits : MetadataFits env.dev disk.diskSpecific

section Pop

variable {env : Env} {disk : GptDisk}

theorem noExtended_of_normal (h : ∀ part ∈ disk.core.partList, part.type = .normal) :
    pedDiskExtendedPartition disk = none := by
  rw [← pedDiskExtendedPartition_core]
  refine List.find?_eq_none.mpr fun part hpart => ?_
  simp [PedPartition.isExtended, h part hpart, PedPartitionType.normal, PedPartitionType.ofExtended]

/-- Leaving update mode: the placeholders come back and nothing is asked. -/
theorem gptPop_spec (thrown : List PedException) (hss : 0 < env.dev.sectorSize) (hmode : disk.updateMode = 1)
    (hclean : disk.Clean) (hlev : disk.Leveled)
    (hnormal : ∀ part ∈ disk.core.partList, part.type = .normal)
    (hfits : MetadataFits env.dev disk.diskSpecific) :
    Spec (fun _ => False) (diskPopUpdateMode gptAllocMetadata env) ⟨disk, thrown⟩ fun ok s' =>
      ok = true ∧ s'.thrown = thrown ∧ s'.disk.core = disk.core ∧ s'.disk.updateMode = 0 ∧
      s'.disk.Leveled ∧ s'.disk.Padding Unnumbered := by
  have hheader : 1 ≤ pedDivRoundUp sizeofHeader env.dev.sectorSize :=
    (Nat.le_div_iff_mul_le hss).mpr (by simp only [sizeofHeader]; omega)
  set size : ℤ := (pedDivRoundUp sizeofHeader env.dev.sectorSize : ℤ)
    + pedDivRoundUp (disk.diskSpecific.entryCount * sizeofEntry) env.dev.sectorSize with hsize
  have hpos : 0 < size := by omega
  have halloc := gptAllocMetadata_run (s := ⟨disk, thrown⟩) size hsize hfits hlev
    (noExtended_of_normal hnormal) hpos
  have hpadded : Spec (fun _ => False) (gptAllocMetadata env) ⟨disk, thrown⟩
      fun _ s' => disk.Padded s'.disk := halloc.of_and (gptAllocMetadata_spec env ⟨disk, thrown⟩)
        fun _ _ _ h => h
  have hrest := diskPopUpdateMode_spec (T := Unnumbered) (s := ⟨disk, thrown⟩) (fun _ => hpadded)
    (Or.inl hlev) (by simp [hmode]) (fun _ _ => ⟨rfl, rfl⟩) (hclean.padding _)
  have hrun := diskPopUpdateMode_run (s := ⟨disk, thrown⟩) hmode hlev
    (PedDisk.Each.place (PedDisk.Each.place hlev id id) id id) halloc
  refine (hrest.and hrun).imp ?_
  rintro ok s' ⟨⟨hok, hcore, hmode', -, hlev', hpad⟩, -, hs'⟩
  refine ⟨hok, ?_, hcore, by simpa [hmode] using hmode', hlev' hlev, hpad⟩
  rw [hs']

end Pop

section Add

variable {env : Env} {i : ℕ} {s : Session GPTPartitionData GPTDiskData} {part : GptPartition}
  {c : PedConstraint}

theorem Loading.calm {disk : GptDisk} (h : Loading env i disk) : Calm gptDiskType env disk :=
  gpt_numbers.calm ⟨h.links, h.nums⟩ h.mode h.leveled h.padding

theorem Loading.noExtended {disk : GptDisk} (h : Loading env i disk) :
    pedDiskExtendedPartition disk = none := noExtended_of_normal h.normal

/-- All but the placeholders is a matter of the table. -/
theorem Loading.of_table {disk table : GptDisk} (hcore : disk.core = table)
    (hmode : disk.updateMode = 0) (hlev : disk.Leveled) (hpad : disk.Padding Unnumbered)
    (hclobber : table.needsClobber = true) (hlinks : WellLinked table) (hnums : GptNumbered table)
    (hnormal : ∀ part ∈ table.partList, part.type = .normal) (hfew : table.partList.length ≤ i)
    (hbelow : ∀ part ∈ table.partList, part.num ≤ i)
    (hfits : MetadataFits env.dev table.diskSpecific) : Loading env i disk := by
  subst hcore
  exact ⟨hmode, hclobber, hlev, hpad, hlinks, hnums, hnormal, hfew, hbelow, hfits⟩

/-- The object of an entry, not yet on the disk. -/
structure Entering (i : ℕ) (disk : GptDisk) (part : GptPartition) : Prop where
  id_ne : part.id ≠ 0
  new : ∀ other, disk.core.Has other → other.id ≠ part.id
  type_eq : part.type = .normal
  num_eq : part.num = i + 1
  short : part.geom.length < 2 ^ 63
  low : part.geom.start < 2 ^ 63

theorem Entering.active {disk : GptDisk} (h : Entering i disk part) : part.isActive = true := by
  simp [PedPartition.isActive, h.type_eq, PedPartitionType.normal]

theorem Entering.loadable {disk : GptDisk} (hpart : Entering i disk part) (h : Loading env i disk)
    (hi : i < disk.diskSpecific.entryCount) : Loadable gptDiskType env disk part part.num where
  id_ne := hpart.id_ne
  active := hpart.active
  new := hpart.new
  sane := by
    refine ⟨fun _ => ?_, fun _ _ => ?_, fun hl => ?_⟩
    · rw [hpart.type_eq]
      decide
    · rw [h.links.primaryCount]
      have := h.few
      show (_ : ℤ) ≤ (disk.diskSpecific.entryCount : ℤ)
      omega
    · rw [hpart.type_eq] at hl
      exact absurd hl (by decide)
  num_ne := by
    rw [hpart.num_eq]
    omega
  enumerate := fun thrown => gptPartitionEnumerate_keep env (by rw [hpart.num_eq]; omega)
  check := by
    intro thrown
    have hlen : ¬ part.geom.length > gptLimit.maxLength := by
      have := hpart.short
      simp only [gptLimit]
      omega
    have hstart : ¬ part.geom.start > gptLimit.maxStartSector := by
      have := hpart.low
      simp only [gptLimit]
      omega
    change pttPartitionMaxStartLen env gptLimit part thrown = _
    unfold pttPartitionMaxStartLen
    rw [if_neg hlen, if_neg hstart]
    rfl

/-- Behind the end of the others and inside the device there is nothing to ask. -/
theorem Entering.undisputed {disk : GptDisk} (hpart : Entering i disk part)
    (h : Loading env i disk) (hi : i < disk.diskSpecific.entryCount)
    (hdev : env.dev.length < 2 ^ 63) (hend : part.hi < env.dev.length)
    (hclear : ∀ other ∈ disk.core.partList, part.hi < other.lo ∨ other.hi < part.lo)
    (hfit : c.GrainsFit) (hsol : pedConstraintIsSolution c part.geom = true) :
    Undisputed gptDiskType env disk part part.num c where
  gap := by
    have hlogical : part.type.logical = false := by
      rw [hpart.type_eq]
      rfl
    have hlimits : overlapLimits (disk.strip.withMode 1) part = .ok (0, 2 ^ 63 - 2) :=
      if_neg (by simp [hlogical])
    have hlevel : (disk.strip.withMode 1).level part.type = disk.core.partList := by
      rw [PedDisk.level, if_neg (by simp [hlogical])]
      rfl
    refine exists_gap_around Nat.one_ne_zero hlimits part.geom.start_nonneg ?_ ?_ ?_ hfit hsol
    · have : part.geom.end < env.dev.length := hend
      show part.geom.end ≤ 2 ^ 63 - 2
      omega
    · intro other hother
      exact hpart.new other (Or.inl (hlevel ▸ hother))
    · intro other hother
      exact hclear other (hlevel ▸ hother)
  acceptable := by
    have hnone : pedDiskExtendedPartition (disk.strip.withMode 1) = none :=
      (pedDiskExtendedPartition_core disk).trans h.noExtended
    refine ⟨hpart.active, fun _ => hnone, fun hl => ?_, fun _ ext hx => ?_, hend,
      (hpart.loadable h hi).check⟩
    · rw [hpart.type_eq] at hl
      exact absurd hl (by decide)
    · rw [hnone] at hx
      exact absurd hx (by simp)

/-- The table with the partition of one more entry. -/
theorem Entering.placed {disk : GptDisk} (hpart : Entering i disk part) (h : Loading env i disk)
    (hi : i < disk.diskSpecific.entryCount) :
    WellLinked (disk.core.place part) ∧ GptNumbered (disk.core.place part) ∧
      (∀ p ∈ (disk.core.place part).partList, p.type = .normal) ∧
      (disk.core.place part).partList.length ≤ i + 1 ∧
      (∀ p ∈ (disk.core.place part).partList, p.num ≤ ((i + 1 : ℕ) : ℤ)) ∧
      (disk.core.place part).partList
        = insertOrdered PedPartition.lo PedPartition.hi part disk.core.partList := by
  have hlogical : part.type.logical = false := by
    rw [hpart.type_eq]
    rfl
  have hlist : (disk.core.place part).partList
      = insertOrdered PedPartition.lo PedPartition.hi part disk.core.partList := by
    rw [PedDisk.place_top hlogical]
  have hlinks : WellLinked (disk.core.place part) :=
    h.links.place_new ⟨hpart.id_ne, ⟨fun p hp hid => absurd hid (hpart.new p (Or.inl hp)),
      fun p hp hid => absurd hid (hpart.new p (Or.inr hp))⟩, fun hl => by simp [hlogical] at hl⟩
      hpart.new
  have hnums : GptNumbered (disk.core.place part) := by
    refine h.nums.place hlogical ?_ fun other hother => ?_
    · have hcount : disk.core.diskSpecific.entryCount = disk.diskSpecific.entryCount := rfl
      rw [hpart.num_eq, hcount]
      omega
    · rcases hother with hother | hother
      · have := h.below other hother
        rw [hpart.num_eq]
        omega
      · rw [h.nums.noLogicals] at hother
        exact absurd hother List.not_mem_nil
  refine ⟨hlinks, hnums, fun p hp => ?_, ?_, fun p hp => ?_, hlist⟩
  · rw [hlist, mem_insertOrdered] at hp
    rcases hp with rfl | hp
    · exact hpart.type_eq
    · exact h.normal p hp
  · rw [hlist, (insertOrdered_perm _ _ _ _).length_eq, List.length_cons]
    exact Nat.succ_le_succ h.few
  · rw [hlist, mem_insertOrdered] at hp
    rcases hp with rfl | hp
    · rw [hpart.num_eq]
      push_cast
      exact le_rfl
    · have := h.below p hp
      push_cast
      omega

/-- **One more partition**, or a refusal that leaves the disk as it is. -/
theorem Loading.add (hss : 0 < env.dev.sectorSize) (h : Loading env i s.disk)
    (hi : i < s.disk.diskSpecific.entryCount) (hpart : Entering i s.disk part) :
    Spec (fun _ => False) (pedDiskAddPartition gptDiskType env part (some c)) s fun r s' =>
      s'.disk.diskSpecific = s.disk.diskSpecific ∧
      (r.1 = true → Loading env (i + 1) s'.disk ∧ s'.disk.core.partList
        = insertOrdered PedPartition.lo PedPartition.hi part s.disk.core.partList) ∧
      (r.1 = false → Loading env i s'.disk) ∧
      (Undisputed gptDiskType env s.disk part part.num c → r.1 = true ∧ s'.thrown = s.thrown) ∧
      (IgnoresFrom env s.thrown.length → r.1 = true) ∧ s.thrown.length ≤ s'.thrown.length := by
  obtain ⟨hlinks, hnums, hnormal, hfew, hbelow, hlist⟩ := hpart.placed h hi
  have hcore : (s.disk.strip.withMode 1).core = s.disk.core := by
    rw [PedDisk.core_withMode, PedDisk.core, (PedDisk.clean_strip s.disk).strip_eq]
    rfl
  have hclean : (s.disk.strip.withMode 1).Clean :=
    (PedDisk.each_withMode _ _).mpr (PedDisk.clean_strip s.disk)
  have hcore' : ((s.disk.strip.withMode 1).place part).core = s.disk.core.place part := by
    rw [hclean.core_place hpart.active, hcore]
  have hlev : (s.disk.strip.withMode 1).Leveled := h.links.leveled
  have hnormal' : ∀ p ∈ (s.disk.strip.withMode 1).core.partList, p.type = .normal :=
    hcore.symm ▸ h.normal
  have hspecific : ((s.disk.strip.withMode 1).place part).diskSpecific = s.disk.diskSpecific :=
    diskSpecific_place part
  refine (h.calm.load h.clobber (hpart.loadable h hi) (P := fun ok t s' => s'.thrown = t ∧
    s'.disk.diskSpecific = s.disk.diskSpecific ∧
    if ok then Loading env (i + 1) s'.disk ∧ s'.disk.core = s.disk.core.place part
    else Loading env i s'.disk) (fun t => ?_) fun t => ?_).imp ?_
  · refine (gptPop_spec t hss (place_rest _ part).2 (hclean.place hpart.active)
      (PedDisk.Each.place hlev id id) (hcore'.symm ▸ hnormal) (hspecific.symm ▸ h.fits)).imp ?_
    rintro _ s' ⟨-, ht, hc, hm, hl, hp⟩
    have hsp : s'.disk.core.diskSpecific
        = ((s.disk.strip.withMode 1).place part).core.diskSpecific :=
      congrArg PedDisk.diskSpecific hc
    refine ⟨ht, hsp.trans hspecific, ?_⟩
    rw [if_pos rfl]
    have hspecific' : (s.disk.core.place part).diskSpecific = s.disk.diskSpecific :=
      diskSpecific_place part
    exact ⟨.of_table (hc.trans hcore') hm hl hp ((place_rest _ part).1.trans h.clobber) hlinks hnums
      hnormal hfew hbelow (hspecific'.symm ▸ h.fits), hc.trans hcore'⟩
  · refine (gptPop_spec t hss rfl hclean hlev hnormal' h.fits).imp ?_
    rintro _ s' ⟨-, ht, hc, hm, hl, hp⟩
    have hsp : s'.disk.core.diskSpecific = (s.disk.strip.withMode 1).core.diskSpecific :=
      congrArg PedDisk.diskSpecific hc
    exact ⟨ht, hsp, .of_table (hc.trans hcore) hm hl hp h.clobber h.links h.nums h.normal h.few
      h.below h.fits⟩
  · rintro ⟨ok, part'⟩ s' ⟨-, t, ⟨ht, hsp, hif⟩, hquiet, hignore, hlen⟩
    have hext : part.isExtended = false := by
      simp [PedPartition.isExtended, hpart.type_eq, PedPartitionType.normal,
        PedPartitionType.ofExtended]
    refine ⟨hsp, fun hok => ?_, fun hok => ?_, fun hund => ?_, fun hall => hignore hall hext,
      ht ▸ hlen⟩
    · simp only at hok
      subst hok
      rw [if_pos rfl] at hif
      exact ⟨hif.1, by rw [hif.2, hlist]⟩
    · simp only at hok
      subst hok
      exact hif
    · obtain ⟨hok, htt⟩ := hquiet hund
      exact ⟨hok, ht.trans htt⟩

end Add

/-! ## Entries -/

namespace GuidPartitionEntry

/-- The first sector of the partition, as a `PedSector`. -/
def first (pte : GuidPartitionEntry) : ℤ := pte.startingLBA.toInt

/-- The last sector of the partition, as a `PedSector`. -/
def last (pte : GuidPartitionEntry) : ℤ := pte.endingLBA.toInt

/-- The entry describes a partition. -/
def Used (pte : GuidPartitionEntry) : Prop := pte.partitionTypeGuid ≠ unusedEntryGuid

/-- The partition ends before it starts. -/
def Reversed (pte : GuidPartitionEntry) : Prop := pte.last < pte.first

/-- No geometry can be made of the entry. -/
def Unfit (pte : GuidPartitionEntry) : Prop := pte.first < 0 ∨ 2 ^ 63 ≤ pte.last - pte.first + 1

/-- What `_parse_part_entry` puts into `disk_specific`. -/
def data (pte : GuidPartitionEntry) : GPTPartitionData :=
  ⟨pte.partitionTypeGuid, pte.uniquePartitionGuid, pte.partitionName, pte.attributes⟩

instance (pte : GuidPartitionEntry) : Decidable pte.Used := inferInstanceAs (Decidable (_ ≠ _))

instance (pte : GuidPartitionEntry) : Decidable pte.Unfit := inferInstanceAs (Decidable (_ ∨ _))

end GuidPartitionEntry

/-- Entry `i` of an array. -/
def entryAt (ptes : List Byte) (pEntSize : BitVec 32) (i : ℕ) : GuidPartitionEntry :=
  guidPartitionEntryCodec.decode (ptes.drop (entryOffset pEntSize i))

/-- What the table on disk keeps of a partition: number, first and last sector, and the
label's own data. -/
structure GptRecord where
  num : ℤ
  first : ℤ
  last : ℤ
  data : Option GPTPartitionData
deriving DecidableEq

def partRecord (part : GptPartition) : GptRecord := ⟨part.num, part.lo, part.hi, part.diskSpecific⟩

def entryRecord (i : ℕ) (pte : GuidPartitionEntry) : GptRecord :=
  ⟨i + 1, pte.first, pte.last, some pte.data⟩

/-- The entries in use among `i`, ..., `i + k - 1`. -/
def usedRecords (ptes : List Byte) (pEntSize : BitVec 32) (i k : ℕ) : List GptRecord :=
  (List.range' i k).filterMap fun j =>
    if (entryAt ptes pEntSize j).Used then some (entryRecord j (entryAt ptes pEntSize j)) else none

/-- No used entry among `i`, ..., `i + k - 1` ends before it starts. -/
def Upright (ptes : List Byte) (pEntSize : BitVec 32) (i k : ℕ) : Prop :=
  ∀ j, i ≤ j → j < i + k → (entryAt ptes pEntSize j).Used → ¬ (entryAt ptes pEntSize j).Reversed

/-- A used entry among `i`, ..., `i + k - 1` that no geometry can be made of comes behind
one that ends before it starts. -/
def Fitting (ptes : List Byte) (pEntSize : BitVec 32) (i k : ℕ) : Prop :=
  ∀ j, i ≤ j → j < i + k → (entryAt ptes pEntSize j).Used → (entryAt ptes pEntSize j).Unfit →
    ∃ j', i ≤ j' ∧ j' < j ∧ (entryAt ptes pEntSize j').Used ∧ (entryAt ptes pEntSize j').Reversed

theorem Fitting.tail {ptes : List Byte} {pEntSize : BitVec 32} {i k : ℕ}
    (h : Fitting ptes pEntSize i (k + 1)) (hup : Upright ptes pEntSize i 1) :
    Fitting ptes pEntSize (i + 1) k := by
  intro j hj hj' hused hunfit
  obtain ⟨j', hj1, hj2, hused', hrev⟩ := h j (by omega) (by omega) hused hunfit
  have hne : j' ≠ i := fun heq => hup j' hj1 (by omega) hused' hrev
  exact ⟨j', by omega, hj2, hused', hrev⟩

/-- Two partitions without a common sector. -/
def GptRecord.Clear (r r' : GptRecord) : Prop := r.last < r'.first ∨ r'.last < r.first

theorem GptRecord.Clear.symm {r r' : GptRecord} (h : r.Clear r') : r'.Clear r := Or.symm h

section Entry

variable {env : Env} {i : ℕ} {s : Session GPTPartitionData GPTDiskData} {disk : GptDisk}
  {pte : GuidPartitionEntry} {thrown : List PedException} {ptes : List Byte}
  {pEntSize : BitVec 32}

theorem parsePartEntry_spec (hfit : ¬ pte.Unfit) :
    Spec (fun _ => False) (parsePartEntry env disk pte) thrown fun r t =>
      (r = none ↔ pte.Reversed) ∧ thrown.length ≤ t.length ∧ ∀ part, r = some part → t = thrown ∧
        part.id = disk.freshId ∧ part.type = .normal ∧ part.geom.start = pte.first ∧
        part.geom.end = pte.last ∧ part.diskSpecific = some pte.data := by
  obtain ⟨h0, hlen⟩ := not_or.mp hfit
  unfold parsePartEntry pedPartitionNew pedGeometryInit
  refine Spec.ite (fun hover => absurd hover hlen) fun _ => ?_
  refine Spec.ite (fun hno => absurd hno (by simp)) fun _ => ?_
  have hset : ∃ r, pedGeometrySet pte.startingLBA.toInt
      (pte.endingLBA.toInt - pte.startingLBA.toInt + 1) = .ok r ∧ (r = none ↔ pte.Reversed) := by
    have h0' : 0 ≤ pte.startingLBA.toInt := not_lt.mp h0
    unfold pedGeometrySet
    rw [dif_pos h0']
    split
    case isTrue hlt =>
      refine ⟨none, rfl, iff_of_true rfl ?_⟩
      show pte.endingLBA.toInt < pte.startingLBA.toInt
      omega
    case isFalse hlt =>
      refine ⟨_, rfl, iff_of_false (by simp) ?_⟩
      show ¬ pte.endingLBA.toInt < pte.startingLBA.toInt
      omega
  obtain ⟨r, hr, hnone⟩ := hset
  rw [hr]
  refine Spec.bind (Spec.bind (spec_lift.mpr ⟨fun r' hr' => ?_, fun _ hf => absurd hf (by simp)⟩))
  cases hr'
  cases r with
  | none => exact ⟨iff_of_true rfl (hnone.mp rfl), by simp, fun _ h => absurd h (by simp)⟩
  | some geom =>
      obtain ⟨hstart, hlength⟩ := pedGeometrySet_eq_some hr
      refine ⟨iff_of_false (by simp) fun h => absurd (hnone.mpr h) (by simp), le_rfl, ?_⟩
      rintro part ⟨⟩
      refine ⟨rfl, rfl, rfl, hstart, ?_, rfl⟩
      show geom.start + geom.length - 1 = pte.endingLBA.toInt
      omega

theorem parsePartEntry_unfit (env : Env) (disk : GptDisk) (thrown : List PedException)
    (h : pte.Unfit) :
    ∃ f, parsePartEntry env disk pte thrown = .error f := by
  by_cases hlen : pte.endingLBA.toInt - pte.startingLBA.toInt + 1 ≥ 2 ^ 63
  · refine ⟨.undefined "signed overflow", ?_⟩
    unfold parsePartEntry
    rw [if_pos hlen]
    rfl
  · have h0 : ¬ 0 ≤ pte.startingLBA.toInt := not_le.mpr (h.resolve_right hlen)
    refine ⟨.assertion "start >= 0", ?_⟩
    unfold parsePartEntry pedPartitionNew pedGeometryInit pedGeometrySet
    rw [if_neg hlen, dif_neg h0]
    rfl

theorem usedRecords_succ {k : ℕ} : usedRecords ptes pEntSize i (k + 1)
    = usedRecords ptes pEntSize i 1 ++ usedRecords ptes pEntSize (i + 1) k := by
  unfold usedRecords
  rw [← List.filterMap_append, List.range'_succ]
  rfl

theorem usedRecords_one : usedRecords ptes pEntSize i 1
    = if (entryAt ptes pEntSize i).Used then [entryRecord i (entryAt ptes pEntSize i)] else [] := by
  by_cases h : (entryAt ptes pEntSize i).Used <;> simp [usedRecords, h]

/-- What turns `i`, ..., `i + k - 1` of the loop have done when they end in `s'` with the
result `ok`. -/
structure ReadOutcome (env : Env) (ptes : List Byte) (pEntSize : BitVec 32) (i k : ℕ)
    (s : Session GPTPartitionData GPTDiskData) (ok : Bool)
    (s' : Session GPTPartitionData GPTDiskData) : Prop where
  specific : s'.disk.diskSpecific = s.disk.diskSpecific
  loading : ok = true → Loading env (i + k) s'.disk
  upright : ok = true → Upright ptes pEntSize i k
  records : ok = true → (s'.disk.core.partList.map partRecord).Perm
    (usedRecords ptes pEntSize i k ++ s.disk.core.partList.map partRecord)
  failed : ok = false → ∃ j, Loading env j s'.disk
  quiet : env.dev.length < 2 ^ 63 →
    (∀ r ∈ usedRecords ptes pEntSize i k, r.first ≤ r.last ∧ r.last < env.dev.length) →
    (usedRecords ptes pEntSize i k ++ s.disk.core.partList.map partRecord).Pairwise GptRecord.Clear →
    ok = true ∧ s'.thrown = s.thrown
  ignored : IgnoresFrom env s.thrown.length → Upright ptes pEntSize i k → ok = true
  asked : s.thrown.length ≤ s'.thrown.length

/-- A turn that has added its partition, and the turns behind it. -/
theorem ReadOutcome.trans {k : ℕ} {ok : Bool} {s₁ s₂ : Session GPTPartitionData GPTDiskData}
    (h₁ : ReadOutcome env ptes pEntSize i 1 s true s₁)
    (h₂ : ReadOutcome env ptes pEntSize (i + 1) k s₁ ok s₂) :
    ReadOutcome env ptes pEntSize i (k + 1) s ok s₂ := by
  have hperm : (usedRecords ptes pEntSize (i + 1) k ++ s₁.disk.core.partList.map partRecord).Perm
      (usedRecords ptes pEntSize i (k + 1) ++ s.disk.core.partList.map partRecord) := by
    rw [usedRecords_succ]
    refine ((h₁.records rfl).append_left _).trans ?_
    rw [← List.append_assoc]
    exact List.perm_append_comm.append_right _
  refine ⟨h₂.specific.trans h₁.specific, fun hok => ?_, fun hok j hj hj' => ?_,
    fun hok => (h₂.records hok).trans hperm, h₂.failed, fun hb hin hpair => ?_,
    fun hall hup => h₂.ignored (hall.mono h₁.asked) fun j hj hj' => hup j (by omega) (by omega),
    h₁.asked.trans h₂.asked⟩
  · have := h₂.loading hok
    rwa [show i + (k + 1) = i + 1 + k by omega]
  · rcases Nat.eq_or_lt_of_le hj with rfl | hlt
    · exact h₁.upright rfl i le_rfl (Nat.lt_succ_self i)
    · exact h₂.upright hok j hlt (by omega)
  · have hpair' := hpair
    rw [usedRecords_succ] at hin hpair'
    have hsub : (usedRecords ptes pEntSize i 1 ++ s.disk.core.partList.map partRecord).Sublist
        (usedRecords ptes pEntSize i 1 ++ usedRecords ptes pEntSize (i + 1) k
          ++ s.disk.core.partList.map partRecord) :=
      (List.sublist_append_left _ _).append_right _
    obtain ⟨-, ht₁⟩ := h₁.quiet hb (fun r hr => hin r (List.mem_append_left _ hr))
      (hpair'.sublist hsub)
    obtain ⟨hok, ht₂⟩ := h₂.quiet hb (fun r hr => hin r (List.mem_append_right _ hr))
      ((hperm.pairwise_iff fun h => h.symm).mpr hpair)
    exact ⟨hok, ht₂.trans ht₁⟩

/-- A turn that fails ends the loop. -/
theorem ReadOutcome.stop {k : ℕ} {s₁ : Session GPTPartitionData GPTDiskData}
    (h : ReadOutcome env ptes pEntSize i 1 s false s₁) :
    ReadOutcome env ptes pEntSize i (k + 1) s false s₁ := by
  refine ⟨h.specific, fun hno => (nomatch hno), fun hno => (nomatch hno), fun hno => (nomatch hno),
    h.failed, fun hb hin hpair => ?_, fun hall hup => ?_, h.asked⟩
  · rw [usedRecords_succ] at hin hpair
    have hsub := (List.sublist_append_left (usedRecords ptes pEntSize i 1)
      (usedRecords ptes pEntSize (i + 1) k)).append_right (s.disk.core.partList.map partRecord)
    exact nomatch (h.quiet hb (fun r hr => hin r (List.mem_append_left _ hr))
      (hpair.sublist hsub)).1
  · exact nomatch h.ignored hall fun j hj hj' => hup j hj (by omega)

theorem Loading.readEntry_unused (h : Loading env i s.disk)
    (hin : entryOffset pEntSize i + sizeofEntry ≤ ptes.length)
    (hused : ¬ (entryAt ptes pEntSize i).Used) :
    Spec (fun _ => False) (readGptEntry env ptes pEntSize i) s
      (ReadOutcome env ptes pEntSize i 1 s) := by
  unfold readGptEntry
  refine Spec.ite (fun hout => absurd hin (by omega)) fun _ => ?_
  refine Spec.ite (fun _ => ?_) fun hno => absurd hno hused
  refine ⟨rfl, fun _ => ?_, fun _ j hj hj' hu => ?_, fun _ => ?_, fun hno => (nomatch hno),
    fun _ _ _ => ⟨rfl, rfl⟩, fun _ _ => rfl, le_rfl⟩
  · refine { h with few := h.few.trans (Nat.le_succ i), below := fun part hpart => ?_ }
    exact (h.below part hpart).trans (by push_cast; omega)
  · obtain rfl : j = i := by omega
    exact absurd hu hused
  · rw [usedRecords_one, if_neg hused, List.nil_append]

theorem Loading.readEntry_used (hss : 0 < env.dev.sectorSize) (hdev : 0 < env.dev.length)
    (h : Loading env i s.disk) (hi : i < s.disk.diskSpecific.entryCount)
    (hin : entryOffset pEntSize i + sizeofEntry ≤ ptes.length)
    (hused : (entryAt ptes pEntSize i).Used) (hfit : ¬ (entryAt ptes pEntSize i).Unfit) :
    Spec (fun _ => False) (readGptEntry env ptes pEntSize i) s
      (ReadOutcome env ptes pEntSize i 1 s) := by
  have hup : Upright ptes pEntSize i 1 ↔ ¬ (entryAt ptes pEntSize i).Reversed :=
    ⟨fun hup => hup i le_rfl (Nat.lt_succ_self i) hused, fun hrev j hj hj' _ =>
      (show j = i by omega) ▸ hrev⟩
  have hrecords : usedRecords ptes pEntSize i 1 = [entryRecord i (entryAt ptes pEntSize i)] := by
    rw [usedRecords_one, if_pos hused]
  unfold readGptEntry
  refine Spec.ite (fun hout => absurd hin (by omega)) fun _ => ?_
  refine Spec.ite (fun hno => absurd hno hused) fun _ => ?_
  refine Spec.bind (spec_getDisk.mpr (Spec.bind (spec_ask.mpr ?_)))
  refine (parsePartEntry_spec hfit).imp fun r t hparsed => ?_
  obtain ⟨hnone, hlen, hsome⟩ := hparsed
  cases r with
  | none =>
      have hrev := hnone.mp rfl
      refine ⟨rfl, fun hno => absurd hno (by simp), fun hno => absurd hno (by simp), fun hno => absurd hno (by simp),
        fun _ => ⟨i, h⟩, fun _ hin _ => ?_, fun _ h => absurd hrev (hup.mp h), hlen⟩
      have := (hin _ (hrecords ▸ List.mem_singleton.mpr rfl)).1
      exact absurd this (not_le.mpr hrev)
  | some part =>
      obtain ⟨rfl, hid, htype, hstart, hend, hdata⟩ := hsome part rfl
      have hrev : ¬ (entryAt ptes pEntSize i).Reversed := fun hrev => absurd (hnone.mpr hrev) (by simp)
      obtain ⟨-, hshort⟩ := not_or.mp hfit
      obtain ⟨c, hc, hcfit, hcsol⟩ := exists_pedConstraintExact part.geom hdev
      have hlength := part.geom.length_eq
      rw [hstart, hend] at hlength
      dsimp only
      rw [hc]
      refine Spec.bind (spec_lift.mpr ⟨fun c' hc' => ?_, fun _ hf => absurd hf (by simp)⟩)
      cases hc'
      have hentering : Entering i s.disk { part with num := i + 1 } := by
        refine ⟨by rw [hid]; exact Nat.succ_ne_zero _, fun other hother => ?_, htype, rfl, ?_, ?_⟩
        · rw [hid]
          exact PedDisk.core_has_id_ne_freshId hother
        · exact hlength ▸ not_le.mp hshort
        · exact hstart ▸ BitVec.toInt_lt
      have hrecord : partRecord { part with num := i + 1 }
          = entryRecord i (entryAt ptes pEntSize i) := by
        simp only [partRecord, entryRecord, PedPartition.lo, PedPartition.hi, hstart, hend, hdata]
      refine Spec.bind ((Loading.add hss h hi hentering).imp
        fun r s' hadded => ?_)
      obtain ⟨hspec, hyes, hno, hquiet, hign, hlen⟩ := hadded
      refine ⟨hspec, fun hok => (hyes hok).1, fun _ => hup.mpr hrev, fun hok => ?_,
        fun hok => ⟨i, hno hok⟩, fun hb hin hpair => hquiet ?_, fun hall _ => hign hall, hlen⟩
      · rw [(hyes hok).2, hrecords, ← hrecord, List.singleton_append, ← List.map_cons]
        exact (insertOrdered_perm _ _ _ _).map _
      · rw [hrecords] at hin hpair
        rw [List.singleton_append, List.pairwise_cons, ← hrecord] at hpair
        have hlast := (hin _ (List.mem_singleton.mpr rfl)).2
        rw [← hrecord] at hlast
        refine hentering.undisputed h hi hb hlast
          (fun other hother => hpair.1 _ (List.mem_map_of_mem hother)) hcfit (hcsol ?_)
        have h0 := part.geom.start_nonneg
        have hlast' : part.geom.end < env.dev.length := hlast
        rw [part.geom.length_eq]
        omega

theorem readGptEntry_unfit (env : Env) (s : Session GPTPartitionData GPTDiskData)
    (hin : entryOffset pEntSize i + sizeofEntry ≤ ptes.length)
    (hused : (entryAt ptes pEntSize i).Used) (h : (entryAt ptes pEntSize i).Unfit) :
    ∃ f, readGptEntry env ptes pEntSize i s = .error f := by
  obtain ⟨f, hf⟩ := parsePartEntry_unfit env s.disk s.thrown h
  have hno : ¬ ∃ r, readGptEntry env ptes pEntSize i s = .ok r := by
    rintro ⟨⟨ok, s'⟩, hrun⟩
    have hspec : Spec (fun _ => True) (readGptEntry env ptes pEntSize i) s fun _ _ => False := by
      unfold readGptEntry
      refine Spec.ite (fun hout => absurd hin (by omega)) fun _ => ?_
      refine Spec.ite (fun hno => absurd hno hused) fun _ => ?_
      refine Spec.bind (spec_getDisk.mpr (Spec.bind (spec_ask.mpr ?_)))
      exact spec_iff.mpr ⟨fun r t hr => (nomatch hr.symm.trans hf), fun _ _ => trivial⟩
    exact hspec.of_ok hrun
  cases hrun : readGptEntry env ptes pEntSize i s with
  | error f => exact ⟨f, rfl⟩
  | ok r => exact absurd ⟨r, hrun⟩ hno

/-- **One turn of the loop.** -/
theorem Loading.readEntry (hss : 0 < env.dev.sectorSize) (hdev : 0 < env.dev.length)
    (h : Loading env i s.disk) (hi : i < s.disk.diskSpecific.entryCount)
    (hin : entryOffset pEntSize i + sizeofEntry ≤ ptes.length) :
    Spec (fun _ => (entryAt ptes pEntSize i).Used ∧ (entryAt ptes pEntSize i).Unfit)
      (readGptEntry env ptes pEntSize i) s (ReadOutcome env ptes pEntSize i 1 s) := by
  by_cases hused : (entryAt ptes pEntSize i).Used
  · by_cases hunfit : (entryAt ptes pEntSize i).Unfit
    · obtain ⟨f, hf⟩ := readGptEntry_unfit env s hin hused hunfit
      exact (spec_of_error hf).mpr ⟨hused, hunfit⟩
    · exact (h.readEntry_used hss hdev hi hin hused hunfit).mono (fun _ h => h.elim) fun _ _ h => h
  · exact (h.readEntry_unused hin hused).mono (fun _ h => h.elim) fun _ _ h => h

/-- **The whole loop.**  It stops the program only on an entry that no geometry can be made
of, and only if no partition before it ends before it starts. -/
theorem Loading.readEntries (hss : 0 < env.dev.sectorSize) (hdev : 0 < env.dev.length) {k : ℕ}
    (h : Loading env i s.disk) (hk : i + k ≤ s.disk.diskSpecific.entryCount)
    (hin : ∀ j, i ≤ j → j < i + k → entryOffset pEntSize j + sizeofEntry ≤ ptes.length) :
    Spec (fun _ => ¬ Fitting ptes pEntSize i k)
      (readGptEntries env ptes pEntSize (List.range' i k)) s
      (ReadOutcome env ptes pEntSize i k s) := by
  -- the induction is on the number of turns left
  induction k generalizing i s with
  | zero =>
      exact ⟨rfl, fun _ => h, fun _ j hj hj' => absurd hj' (by omega), fun _ => List.Perm.refl _,
        fun hno => (nomatch hno), fun _ _ _ => ⟨rfl, rfl⟩, fun _ _ => rfl, le_rfl⟩
  | succ k ih =>
      rw [List.range'_succ, readGptEntries]
      refine Spec.bind ((h.readEntry hss hdev (by omega) (hin i le_rfl (by omega))).mono
        (fun _ hbad hfit => ?_) fun ok s₁ hout => ?_)
      · obtain ⟨j', hj1, hj2, -⟩ := hfit i le_rfl (by omega) hbad.1 hbad.2
        omega
      cases ok with
      | false => exact hout.stop
      | true =>
          refine (ih (hout.loading rfl) (by rw [hout.specific]; omega)
            (fun j hj hj' => hin j (by omega) (by omega))).mono
            (fun _ hno hfit => hno (hfit.tail (hout.upright rfl))) fun ok s₂ => hout.trans

/-- The loop does stop the program on such an entry if everything before it is ignored. -/
theorem Loading.readEntries_fault (hss : 0 < env.dev.sectorSize) (hdev : 0 < env.dev.length)
    {k : ℕ} (h : Loading env i s.disk) (hk : i + k ≤ s.disk.diskSpecific.entryCount)
    (hin : ∀ j, i ≤ j → j < i + k → entryOffset pEntSize j + sizeofEntry ≤ ptes.length)
    (hign : IgnoresFrom env s.thrown.length) (hfit : ¬ Fitting ptes pEntSize i k) :
    ∃ f, readGptEntries env ptes pEntSize (List.range' i k) s = .error f := by
  induction k generalizing i s with
  | zero => exact absurd (fun j hj hj' => absurd hj' (by omega)) hfit
  | succ k ih =>
      have hin0 := hin i le_rfl (by omega)
      rw [List.range'_succ, readGptEntries]
      by_cases hbad : (entryAt ptes pEntSize i).Used ∧ (entryAt ptes pEntSize i).Unfit
      · obtain ⟨f, hf⟩ := readGptEntry_unfit env s hin0 hbad.1 hbad.2
        exact ⟨f, by simp only [bind, StateT.bind, hf, Except.bind]⟩
      · have hfit1 : ¬ Fitting ptes pEntSize (i + 1) k := by
          intro hfit1
          refine hfit fun j hj hj' hused hunfit => ?_
          rcases Nat.eq_or_lt_of_le hj with rfl | hlt
          · exact absurd ⟨hused, hunfit⟩ hbad
          · obtain ⟨j', hj1, hrest⟩ := hfit1 j hlt (by omega) hused hunfit
            exact ⟨j', by omega, hrest⟩
        have hup : Upright ptes pEntSize i 1 := by
          intro j hj hj' hused hrev
          obtain rfl : j = i := by omega
          refine hfit fun j hj hj' hused' hunfit => ?_
          rcases Nat.eq_or_lt_of_le hj with rfl | hlt
          · exact absurd ⟨hused', hunfit⟩ hbad
          · exact ⟨_, le_rfl, hlt, hused, hrev⟩
        obtain ⟨ok, s₁, hrun, hout⟩ := ((h.readEntry hss hdev (by omega) hin0).mono
          (fun _ hno => hbad hno) fun _ _ h => h).exists_ok
        obtain rfl := hout.ignored hign hup
        obtain ⟨f, hf⟩ := ih (hout.loading rfl) (by rw [hout.specific]; omega)
          (fun j hj hj' => hin j (by omega) (by omega)) (hign.mono hout.asked) hfit1
        exact ⟨f, by simp only [bind, StateT.bind, hrun, Except.bind, if_true, hf]⟩

end Entry

end Libparted
