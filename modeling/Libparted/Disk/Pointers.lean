import Libparted.Library.DoublyLinked
import Libparted.Disk.UpdateMode

/-!
# Partition lists in memory (`libparted/disk.c`)

The partitions of a disk are nodes of doubly linked lists.  One list starts at the disk.
An extended partition is the start of a second one, whose nodes are the logical
partitions.  `ped_disk_next_partition` goes through both: it enters the second list at the
extended partition, and comes back to the first one behind it.

`_disk_alloc_freespace` removes the entries for free space, and then goes through both
lists and puts an entry into every gap, while it walks.  This module models the lists with
their pointers.  `Linked` says that a heap holds two lists of nodes, and every operation on
single nodes keeps it.  `Disk/Placeholders` has the two walks.

Nodes are numbers, and `fresh` is the first one that has not been handed out.  A walk that
does not end is one that runs out of `fuel`.
-/

namespace Libparted.Pointers

open Library

/-- The partition objects of a disk. -/
structure PartitionHeap (π : Type) where
  part : ℕ → PedPartition π
  links : Links ℕ
  /-- `part->part_list` -/
  inner : ℕ → Option ℕ
  /-- `disk->part_list` -/
  partList : Option ℕ
  fresh : ℕ

variable {π : Type}

/-- Programs that work on the objects. -/
abbrev HeapM (π α : Type) : Type := Prog Fault (PartitionHeap π) α

/-! ## The functions -/

/-- The walk of `ped_disk_extended_partition`. -/
def extendedFrom : ℕ → Option ℕ → HeapM π (Option ℕ)
  | 0, _ => throw .outOfFuel
  | _ + 1, none => return none
  | fuel + 1, some walk => do
    let s ← get
    if (s.part walk).isExtended then return some walk
    extendedFrom fuel (s.links.next walk)

/-- `ped_disk_extended_partition`. -/
def pedDiskExtendedPartition (fuel : ℕ) : HeapM π (Option ℕ) := do
  let s ← get
  extendedFrom fuel s.partList

/-- `ped_disk_next_partition`. -/
def pedDiskNextPartition (fuel : ℕ) : Option ℕ → HeapM π (Option ℕ)
  | none => do
    let s ← get
    return s.partList
  | some part => do
    let s ← get
    if (s.part part).isExtended then return (s.inner part).or (s.links.next part)
    if (s.links.next part).isSome then return s.links.next part
    if (s.part part).type.logical then
      match ← pedDiskExtendedPartition fuel with
      | none => return none
      | some ext => return s.links.next ext
    return none

/-- Makes `first` the start of the list that entries of this kind are on. -/
def setPartList (fuel : ℕ) (logical : Bool) (first : Option ℕ) : HeapM π Unit :=
  if logical then do
    match ← pedDiskExtendedPartition fuel with
    | none => throw (.undefined "ped_disk_extended_partition (disk) is NULL")
    | some ext => modify fun s => { s with inner := Function.update s.inner ext first }
  else modify fun s => { s with partList := first }

/-- `_disk_raw_insert_before`. -/
def diskRawInsertBefore (fuel loc part : ℕ) : HeapM π Unit := do
  let s ← get
  if (s.links.prev loc).isNone then setPartList fuel (s.part loc).type.logical (some part)
  modify fun s => { s with links := s.links.insertBefore loc part }

/-- `_disk_raw_insert_after`. -/
def diskRawInsertAfter (loc part : ℕ) : HeapM π Unit :=
  modify fun s => { s with links := s.links.insertAfter loc part }

/-- `_disk_raw_remove`. -/
def diskRawRemove (fuel part : ℕ) : HeapM π Unit := do
  let s ← get
  if (s.links.prev part).isNone then
    setPartList fuel (s.part part).type.logical (s.links.next part)
  modify fun s => { s with links := s.links.remove part }

/-- The heap with one more object, which is on no list. -/
def PartitionHeap.allocate (s : PartitionHeap π) (part : PedPartition π) : PartitionHeap π :=
  { s with
    part := Function.update s.part s.fresh part
    links := (s.links.setPrev s.fresh none).setNext s.fresh none
    inner := Function.update s.inner s.fresh none
    fresh := s.fresh + 1 }

/-- `ped_partition_new` for free space. -/
def freeSpaceNew (logical : Bool) (start last : ℤ) : HeapM π ℕ := do
  match ← liftM (pedGeometrySet start (last - start + 1)) with
  | none => throw (.assertion "part != NULL")
  | some geom =>
    let s ← get
    set (s.allocate (.placeholder (.ofFreespace logical) geom))
    return s.fresh

/-- The walk of `_disk_remove_freespace`.  The next entry is looked up first. -/
def removeFreespaceFrom (fuel : ℕ) : ℕ → Option ℕ → HeapM π Unit
  | 0, _ => throw .outOfFuel
  | _ + 1, none => return ()
  | n + 1, some walk => do
    let next ← pedDiskNextPartition fuel (some walk)
    let s ← get
    if (s.part walk).type.freespace then diskRawRemove fuel walk
    removeFreespaceFrom fuel n next

/-- `_disk_remove_freespace`. -/
def diskRemoveFreespace (fuel : ℕ) : HeapM π Unit := do
  let walk ← pedDiskNextPartition fuel none
  removeFreespaceFrom fuel fuel walk

/-- The walk that `_alloc_extended_freespace` and `_disk_alloc_freespace` have in common, and
what comes behind it.  `ext` is the extended partition whose list it is, if there is one. -/
def fillFrom (fuel : ℕ) (ext : Option ℕ) (stop : ℤ) :
    ℕ → Option ℕ → Option ℕ → ℤ → HeapM π Unit
  | 0, _, _, _ => throw .outOfFuel
  | _ + 1, none, last, lastEnd => do
    if lastEnd < stop then
      let freeSpace ← freeSpaceNew ext.isSome (lastEnd + 1) stop
      match last, ext with
      | some last, _ => diskRawInsertAfter last freeSpace
      | none, some ext =>
        modify fun s => { s with inner := Function.update s.inner ext (some freeSpace) }
      | none, none => modify fun s => { s with partList := some freeSpace }
  | n + 1, some walk, _, lastEnd => do
    let s ← get
    if (s.part walk).geom.start > lastEnd + 1 then
      let freeSpace ← freeSpaceNew ext.isSome (lastEnd + 1) ((s.part walk).geom.start - 1)
      diskRawInsertBefore fuel walk freeSpace
    let s ← get
    fillFrom fuel ext stop n (s.links.next walk) (some walk) (s.part walk).geom.end

/-- `_alloc_extended_freespace`. -/
def allocExtendedFreespace (fuel : ℕ) : HeapM π Unit := do
  match ← pedDiskExtendedPartition fuel with
  | none => return ()
  | some ext =>
    let s ← get
    fillFrom fuel (some ext) (s.part ext).geom.end fuel (s.inner ext) none (s.part ext).geom.start

/-- `_disk_alloc_freespace`, on a device of some length. -/
def diskAllocFreespace (length : ℤ) (fuel : ℕ) : HeapM π Bool := do
  diskRemoveFreespace fuel
  allocExtendedFreespace fuel
  let s ← get
  fillFrom fuel none (length - 1) fuel s.partList none (-1)
  return true

/-- The walk of `ped_disk_get_partition_by_sector`. -/
def partitionBySectorFrom (fuel : ℕ) (sect : ℤ) : ℕ → Option ℕ → HeapM π (Option ℕ)
  | 0, _ => throw .outOfFuel
  | _ + 1, none => return none
  | n + 1, some walk => do
    let s ← get
    if pedGeometryTestSectorInside (s.part walk).geom sect && !(s.part walk).isExtended then
      return some walk
    let next ← pedDiskNextPartition fuel (some walk)
    partitionBySectorFrom fuel sect n next

/-- `ped_disk_get_partition_by_sector`. -/
def pedDiskGetPartitionBySector (sect : ℤ) (fuel : ℕ) : HeapM π (Option ℕ) := do
  let s ← get
  partitionBySectorFrom fuel sect fuel s.partList

/-- What repeated calls of `ped_disk_next_partition` return, until the first `NULL`. -/
def visitFrom (fuel : ℕ) : ℕ → Option ℕ → HeapM π (List ℕ)
  | 0, _ => throw .outOfFuel
  | n + 1, part => do
    match ← pedDiskNextPartition fuel part with
    | none => return []
    | some next => return next :: (← visitFrom fuel n (some next))

/-! ## Two lists in a heap -/

/-- The extended partition among the nodes of the first list. -/
def PartitionHeap.extended (s : PartitionHeap π) (lists : Bool → List ℕ) : Option ℕ :=
  (lists false).find? fun a => (s.part a).isExtended

/-- Where the two lists start: `false` stands for the list of the disk, `true` for that of the
logical partitions. -/
def PartitionHeap.first (s : PartitionHeap π) (lists : Bool → List ℕ) : Bool → Option ℕ
  | false => s.partList
  | true => (s.extended lists).bind s.inner

/-- The heap holds these two lists. -/
structure Linked (s : PartitionHeap π) (lists : Bool → List ℕ) : Prop where
  linked : ∀ b, IsList s.links (s.first lists b) (lists b)
  apart : ∀ b, ∀ a ∈ lists b, a ∉ lists (!b)
  old : ∀ b, ∀ a ∈ lists b, a < s.fresh
  level : ∀ b, ∀ a ∈ lists b, (s.part a).type.logical = b
  one : ((lists false).filter fun a => (s.part a).isExtended).length ≤ 1

/-- Another start for one of the lists. -/
def PartitionHeap.withFirst (s : PartitionHeap π) (lists : Bool → List ℕ) (b : Bool)
    (first : Option ℕ) : PartitionHeap π :=
  match b, s.extended lists with
  | false, _ => { s with partList := first }
  | true, some ext => { s with inner := Function.update s.inner ext first }
  | true, none => s

section Heaps

variable {s : PartitionHeap π} {lists : Bool → List ℕ} {b : Bool} {a loc new fuel : ℕ}
variable {l xs ys : List ℕ} {first : Option ℕ}

@[simp] theorem withFirst_part : (s.withFirst lists b first).part = s.part := by
  unfold PartitionHeap.withFirst
  split <;> rfl

@[simp] theorem withFirst_links : (s.withFirst lists b first).links = s.links := by
  unfold PartitionHeap.withFirst
  split <;> rfl

@[simp] theorem withFirst_fresh : (s.withFirst lists b first).fresh = s.fresh := by
  unfold PartitionHeap.withFirst
  split <;> rfl

theorem extended_mem (h : s.extended lists = some a) :
    a ∈ lists false ∧ (s.part a).isExtended = true :=
  ⟨List.mem_of_find?_eq_some h, by simpa using List.find?_some h⟩

theorem Linked.extended_eq (h : Linked s lists) (ha : a ∈ lists false)
    (hext : (s.part a).isExtended = true) : s.extended lists = some a := by
  have hmem : a ∈ (lists false).filter fun a => (s.part a).isExtended :=
    List.mem_filter.mpr ⟨ha, hext⟩
  obtain ⟨c, hc⟩ := List.length_eq_one_iff.mp
    (le_antisymm h.one (List.length_pos_of_mem hmem))
  unfold PartitionHeap.extended
  rw [← List.head?_filter, hc]
  rw [hc] at hmem
  exact congrArg some (List.mem_singleton.mp hmem).symm

theorem Linked.not_extended (h : Linked s lists) (ha : a ∈ lists true) :
    (s.part a).isExtended = false := by
  by_contra hext
  have := PedPartition.not_logical_of_isExtended (Bool.of_not_eq_false hext)
  simp [h.level true a ha] at this

/-- Where there are logical partitions, there is an extended one. -/
theorem Linked.extended_isSome (h : Linked s lists) (ha : a ∈ lists true) :
    (s.extended lists).isSome = true := by
  have hfirst := (h.linked true).head
  cases hext : s.extended lists with
  | some ext => rfl
  | none =>
    rw [PartitionHeap.first, hext, Option.bind_none, eq_comm, List.head?_eq_none_iff] at hfirst
    rw [hfirst] at ha
    cases ha

theorem withFirst_self (h : Linked s lists) (hne : lists b ≠ []) :
    s.withFirst lists b (lists b).head? = s := by
  have hfirst := (h.linked b).head
  cases b with
  | false =>
    rw [← hfirst]
    rfl
  | true =>
    obtain ⟨c, hc⟩ := List.exists_mem_of_ne_nil _ hne
    obtain ⟨ext, hext⟩ := Option.isSome_iff_exists.mp (h.extended_isSome hc)
    rw [← hfirst]
    simp [PartitionHeap.withFirst, PartitionHeap.first, hext]

/-- **One of the lists changes.**  The extended partition stays. -/
theorem Linked.change (h : Linked s lists) {L : Links ℕ} (hlist : IsList L l.head? l)
    (hframe : ∀ a ∈ lists (!b), L.prev a = s.links.prev a ∧ L.next a = s.links.next a)
    (hext : (l.filter fun a => (s.part a).isExtended)
      = (lists b).filter fun a => (s.part a).isExtended)
    (hmem : ∀ a ∈ l, a < s.fresh ∧ (s.part a).type.logical = b ∧ a ∉ lists (!b))
    (hsome : b = true → (s.extended lists).isSome = true) :
    Linked { s.withFirst lists b l.head? with links := L } (Function.update lists b l) := by
  have hother : (Function.update lists b l) (!b) = lists (!b) := by simp
  have hself : (Function.update lists b l) b = l := by simp
  have hfilter : ((Function.update lists b l false).filter fun a => (s.part a).isExtended)
      = (lists false).filter fun a => (s.part a).isExtended := by
    cases b with
    | false => rw [hself, hext]
    | true => simp
  have hextended : PartitionHeap.extended { s.withFirst lists b l.head? with links := L }
      (Function.update lists b l) = s.extended lists := by
    unfold PartitionHeap.extended
    rw [← List.head?_filter, ← List.head?_filter]
    simp only [withFirst_part]
    rw [hfilter]
  have hfirst : PartitionHeap.first { s.withFirst lists b l.head? with links := L }
      (Function.update lists b l) b = l.head? := by
    cases b with
    | false => rfl
    | true =>
      obtain ⟨ext, hsome⟩ := Option.isSome_iff_exists.mp (hsome rfl)
      rw [PartitionHeap.first, hextended, hsome]
      simp [PartitionHeap.withFirst, hsome]
  have hfirst' : PartitionHeap.first { s.withFirst lists b l.head? with links := L }
      (Function.update lists b l) (!b) = s.first lists (!b) := by
    cases b with
    | false =>
      change (PartitionHeap.extended _ _).bind s.inner = _
      rw [hextended]
      rfl
    | true =>
      obtain ⟨ext, hsome⟩ := Option.isSome_iff_exists.mp (hsome rfl)
      simp [PartitionHeap.first, PartitionHeap.withFirst, hsome]
  have hcases (c : Bool) : c = b ∨ c = !b := by cases b <;> cases c <;> simp
  refine ⟨fun c => ?_, fun c a ha => ?_, fun c a ha => ?_, fun c a ha => ?_, ?_⟩
  · rcases hcases c with rfl | rfl
    · rw [hfirst, hself]
      exact hlist
    · rw [hfirst', hother]
      exact (h.linked _).congr (fun a ha => (hframe a ha).1) fun a ha => (hframe a ha).2
  · rcases hcases c with rfl | rfl
    · rw [hself] at ha
      rw [hother]
      exact (hmem a ha).2.2
    · rw [hother] at ha
      rw [Bool.not_not, hself]
      exact fun hin => (hmem a hin).2.2 ha
  · simp only [withFirst_fresh]
    rcases hcases c with rfl | rfl
    · exact (hmem a (hself ▸ ha)).1
    · exact h.old _ a (hother ▸ ha)
  · simp only [withFirst_part]
    rcases hcases c with rfl | rfl
    · exact (hmem a (hself ▸ ha)).2.1
    · exact h.level _ a (hother ▸ ha)
  · simp only [withFirst_part]
    rw [hfilter]
    exact h.one

end Heaps

/-! ## Single operations -/

section Operations

variable {s : PartitionHeap π} {lists : Bool → List ℕ} {b : Bool} {a loc new fuel : ℕ}
variable {l xs ys : List ℕ} {first : Option ℕ}

theorem run_get : (get : HeapM π (PartitionHeap π)) s = .ok (s, s) := rfl

theorem run_modify (f : PartitionHeap π → PartitionHeap π) :
    (modify f : HeapM π Unit) s = .ok ((), f s) := rfl

theorem extendedFrom_run (h : IsList s.links first (xs ++ ys)) (hfuel : ys.length < fuel) :
    extendedFrom fuel ys.head? s = .ok (ys.find? fun a => (s.part a).isExtended, s) := by
  induction ys generalizing xs fuel with
  | nil =>
    obtain ⟨fuel, rfl⟩ := Nat.exists_eq_add_of_lt hfuel
    rfl
  | cons a ys ih =>
    obtain ⟨fuel, rfl⟩ := Nat.exists_eq_add_of_lt hfuel
    rw [List.head?_cons, extendedFrom, run_bind_ok run_get, List.find?_cons]
    cases hext : (s.part a).isExtended with
    | true => rfl
    | false =>
      rw [if_neg (by simp), h.next_eq]
      rw [List.append_cons] at h
      exact ih h (by rw [List.length_cons]; omega)

/-- The extended partition is found. -/
theorem Linked.extended_run (h : Linked s lists) (hfuel : (lists false).length < fuel) :
    pedDiskExtendedPartition fuel s = .ok (s.extended lists, s) := by
  have hlist : IsList s.links s.partList ([] ++ lists false) := h.linked false
  rw [pedDiskExtendedPartition, run_bind_ok run_get, hlist.head]
  exact extendedFrom_run hlist hfuel

theorem Linked.setPartList_run (h : Linked s lists)
    (hfuel : b = true → (lists false).length < fuel)
    (hsome : b = true → (s.extended lists).isSome = true) :
    setPartList fuel b first s = .ok ((), s.withFirst lists b first) := by
  cases b with
  | false => rfl
  | true =>
    obtain ⟨ext, hext⟩ := Option.isSome_iff_exists.mp (hsome rfl)
    rw [setPartList, if_pos rfl, run_bind_ok (h.extended_run (hfuel rfl)), hext]
    simp only [run_modify, PartitionHeap.withFirst, hext]

theorem Linked.isSome_of_mem (h : Linked s lists) (ha : a ∈ lists b) :
    b = true → (s.extended lists).isSome = true := by
  rintro rfl
  exact h.extended_isSome ha

/-- A start is set where there is no node before, and is what it was otherwise. -/
theorem Linked.startList_run (h : Linked s lists) (hb : lists b = xs ++ loc :: ys)
    (hfuel : b = true → (lists false).length < fuel) (zs : List ℕ)
    (hzs : xs = [] → first = zs.head?)
    (hkeep : xs ≠ [] → zs.head? = xs.head?) (f : PartitionHeap π → PartitionHeap π) :
    (do if (s.links.prev loc).isNone then setPartList fuel (s.part loc).type.logical first
        modify f : HeapM π Unit) s = .ok ((), f (s.withFirst lists b zs.head?)) := by
  have hlist := h.linked b
  have hloc : loc ∈ lists b := by simp [hb]
  rw [hb] at hlist
  rw [hlist.prev_eq, h.level b loc hloc]
  cases xs with
  | nil =>
    rw [hzs rfl]
    rw [if_pos (by rfl), run_bind_ok (h.setPartList_run hfuel (h.isSome_of_mem hloc))]
    rfl
  | cons x xs =>
    have hhead : zs.head? = (lists b).head? := by rw [hb, hkeep (by simp)]; rfl
    rw [if_neg (by simp), hhead, withFirst_self h (by simp [hb])]
    rfl

/-- **`_disk_raw_insert_before`.** -/
theorem Linked.insertBefore_run (h : Linked s lists) (hb : lists b = xs ++ loc :: ys)
    (hfuel : b = true → (lists false).length < fuel) (hnew : ∀ c, new ∉ lists c)
    (hfresh : new < s.fresh) (hlevel : (s.part new).type.logical = b)
    (hext : (s.part new).isExtended = false) :
    ∃ s', diskRawInsertBefore fuel loc new s = .ok ((), s') ∧
      Linked s' (Function.update lists b (xs ++ new :: loc :: ys)) ∧ s'.part = s.part ∧
      s'.fresh = s.fresh := by
  have hlist := h.linked b
  rw [hb] at hlist
  have hnew' : new ∉ xs ++ loc :: ys := hb ▸ hnew b
  refine ⟨{ s.withFirst lists b (xs ++ new :: loc :: ys).head? with
      links := s.links.insertBefore loc new }, ?_, ?_, ?_, ?_⟩
  · rw [diskRawInsertBefore, run_bind_ok run_get,
      h.startList_run hb hfuel (xs ++ new :: loc :: ys) (by rintro rfl; rfl)]
    · simp only [withFirst_links]
    · intro hne
      rw [List.head?_append_of_ne_nil _ hne]
  · refine h.change (hlist.insertBefore hnew') (fun a ha => ?_) ?_ (fun a ha => ?_)
      (h.isSome_of_mem (show loc ∈ lists b by simp [hb]))
    · refine hlist.insertBefore_apart (fun hmem => ?_) fun heq => hnew _ (heq ▸ ha)
      exact h.apart b a (hb ▸ hmem) ha
    · simp [hb, hext]
    · have hcases : a = new ∨ a ∈ lists b := by
        rw [hb]
        simp only [List.mem_append, List.mem_cons] at ha ⊢
        tauto
      rcases hcases with rfl | ha
      · exact ⟨hfresh, hlevel, hnew _⟩
      · exact ⟨h.old b a ha, h.level b a ha, h.apart b a ha⟩
  · exact withFirst_part
  · exact withFirst_fresh

/-- **`_disk_raw_insert_after`.** -/
theorem Linked.insertAfter_run (h : Linked s lists) (hb : lists b = xs ++ loc :: ys)
    (hnew : ∀ c, new ∉ lists c) (hfresh : new < s.fresh)
    (hlevel : (s.part new).type.logical = b) (hext : (s.part new).isExtended = false) :
    ∃ s', diskRawInsertAfter loc new s = .ok ((), s') ∧
      Linked s' (Function.update lists b (xs ++ loc :: new :: ys)) ∧ s'.part = s.part ∧
      s'.fresh = s.fresh := by
  have hlist := h.linked b
  rw [hb] at hlist
  have hnew' : new ∉ xs ++ loc :: ys := hb ▸ hnew b
  have hhead : (xs ++ loc :: new :: ys).head? = (lists b).head? := by
    rw [hb]
    cases xs <;> rfl
  have hsame := withFirst_self h (b := b) (by simp [hb])
  rw [← hhead] at hsame
  refine ⟨{ s with links := s.links.insertAfter loc new }, rfl, ?_, rfl, rfl⟩
  have hchange := h.change (b := b) (hlist.insertAfter hnew') (fun a ha => ?_) ?_ (fun a ha => ?_)
    (h.isSome_of_mem (show loc ∈ lists b by simp [hb]))
  · rw [hsame] at hchange
    exact hchange
  · refine hlist.insertAfter_apart (fun hmem => ?_) fun heq => hnew _ (heq ▸ ha)
    exact h.apart b a (hb ▸ hmem) ha
  · simp [hb, List.filter_cons, hext]
  · have hcases : a = new ∨ a ∈ lists b := by
      rw [hb]
      simp only [List.mem_append, List.mem_cons] at ha ⊢
      tauto
    rcases hcases with rfl | ha
    · exact ⟨hfresh, hlevel, hnew _⟩
    · exact ⟨h.old b a ha, h.level b a ha, h.apart b a ha⟩

/-- **`_disk_raw_remove`**, on an entry that is not the extended partition. -/
theorem Linked.remove_run (h : Linked s lists) (ha : a ∈ lists b)
    (hfuel : (lists false).length < fuel) (hext : (s.part a).isExtended = false) :
    ∃ s', diskRawRemove fuel a s = .ok ((), s') ∧
      Linked s' (fun c => (lists c).filter (· ≠ a)) ∧ s'.part = s.part ∧ s'.fresh = s.fresh := by
  obtain ⟨xs, ys, hb⟩ := List.append_of_mem ha
  have hlist := h.linked b
  rw [hb] at hlist
  -- what is left of the two lists
  have hout : ∀ c ∈ xs ++ ys, c ≠ a := by
    have := (List.nodup_cons.mp (List.nodup_middle.mp hlist.nodup)).1
    exact fun c hc heq => this (heq ▸ hc)
  have hlists : Function.update lists b (xs ++ ys) = fun c => (lists c).filter (· ≠ a) := by
    funext c
    by_cases hc : c = b
    · subst hc
      rw [Function.update_self, hb, List.filter_append, List.filter_cons_of_neg (by simp),
        ← List.filter_append, List.filter_eq_self.mpr]
      simpa using hout
    · rw [Function.update_of_ne hc, eq_comm, List.filter_eq_self]
      intro d hd
      have hcb : c = !b := by cases b <;> cases c <;> simp_all
      have : d ≠ a := fun heq => h.apart b a ha (hcb ▸ heq ▸ hd)
      simpa using this
  refine ⟨{ s.withFirst lists b (xs ++ ys).head? with links := s.links.remove a }, ?_, ?_, ?_, ?_⟩
  · rw [diskRawRemove, run_bind_ok run_get, hlist.next_eq,
      h.startList_run hb (fun _ => hfuel) (xs ++ ys) (by rintro rfl; rfl)]
    · simp only [withFirst_links]
    · intro hne
      rw [List.head?_append_of_ne_nil _ hne]
  · rw [← hlists]
    refine h.change hlist.remove (fun c hc => ?_) ?_ (fun c hc => ?_) (h.isSome_of_mem ha)
    · exact hlist.remove_apart fun hmem => h.apart b c (hb ▸ hmem) hc
    · simp [hb, hext]
    · have hc' : c ∈ lists b := by
        rw [hb]
        simp only [List.mem_append, List.mem_cons] at hc ⊢
        tauto
      exact ⟨h.old b c hc', h.level b c hc', h.apart b c hc'⟩
  · exact withFirst_part
  · exact withFirst_fresh

/-- A new object is on no list. -/
theorem Linked.allocate (h : Linked s lists) (part : PedPartition π) :
    Linked (s.allocate part) lists ∧ (∀ c, s.fresh ∉ lists c) ∧
      (s.allocate part).extended lists = s.extended lists := by
  have hnew : ∀ c, s.fresh ∉ lists c := fun c hmem => lt_irrefl _ (h.old c _ hmem)
  have hne : ∀ c, ∀ a ∈ lists c, a ≠ s.fresh := fun c a ha heq => hnew c (heq ▸ ha)
  have hpart : ∀ c, ∀ a ∈ lists c, (s.allocate part).part a = s.part a :=
    fun c a ha => Function.update_of_ne (hne c a ha) _ _
  have hfilter : ((lists false).filter fun a => ((s.allocate part).part a).isExtended)
      = (lists false).filter fun a => (s.part a).isExtended :=
    List.filter_congr fun a ha => by rw [hpart false a ha]
  have hext : (s.allocate part).extended lists = s.extended lists := by
    unfold PartitionHeap.extended
    rw [← List.head?_filter, ← List.head?_filter, hfilter]
  have hfirst : ∀ c, (s.allocate part).first lists c = s.first lists c := by
    intro c
    cases c with
    | false => rfl
    | true =>
      rw [PartitionHeap.first, PartitionHeap.first, hext]
      cases hsome : s.extended lists with
      | none => rfl
      | some ext => exact Function.update_of_ne (hne _ ext (extended_mem hsome).1) _ _
  refine ⟨⟨fun c => ?_, h.apart, fun c a ha => (h.old c a ha).trans (Nat.lt_succ_self _),
    fun c a ha => ?_, ?_⟩, hnew, hext⟩
  · rw [hfirst]
    exact (h.linked c).congr (fun a ha => by simp [PartitionHeap.allocate, hne c a ha])
      fun a ha => by simp [PartitionHeap.allocate, hne c a ha]
  · rw [hpart c a ha]
    exact h.level c a ha
  · rw [hfilter]
    exact h.one

@[simp] theorem allocate_part_fresh (s : PartitionHeap π) (part : PedPartition π) :
    (s.allocate part).part s.fresh = part :=
  Function.update_self ..

theorem allocate_part_of_lt (part : PedPartition π) (ha : a < s.fresh) :
    (s.allocate part).part a = s.part a :=
  Function.update_of_ne ha.ne _ _

theorem extended_congr {s' : PartitionHeap π} {lists' : Bool → List ℕ}
    (hlists : lists' false = lists false) (hpart : ∀ a ∈ lists false, s'.part a = s.part a) :
    s'.extended lists' = s.extended lists := by
  unfold PartitionHeap.extended
  rw [hlists, ← List.head?_filter, ← List.head?_filter,
    List.filter_congr fun a ha => by rw [hpart a ha]]

theorem freeSpaceNew_run (s : PartitionHeap π) (logical : Bool) {start last : ℤ}
    (hstart : 0 ≤ start) (hlast : start ≤ last) :
    freeSpaceNew logical start last s = .ok (s.fresh, s.allocate
      (.placeholder (.ofFreespace logical) (.ofStartEnd start last hstart hlast))) := by
  have hgeom : pedGeometrySet start (last - start + 1)
      = .ok (some (.ofStartEnd start last hstart hlast)) :=
    pedGeometrySet_eq hstart (by omega)
  rw [freeSpaceNew, run_bind_ok (run_lift_ok hgeom)]
  rfl

end Operations

/-! ## The order of `ped_disk_next_partition` -/

/-- The entries of both lists, depth first. -/
def PartitionHeap.order (s : PartitionHeap π) (lists : Bool → List ℕ) : List ℕ :=
  (lists false).flatMap fun a => if (s.part a).isExtended then a :: lists true else [a]

section Order

variable {s : PartitionHeap π} {lists : Bool → List ℕ} {a fuel n : ℕ} {top us vs : List ℕ}

/-- Where an entry of the order comes from, and what follows it. -/
theorem order_split {ext : ℕ → Bool} {logs : List ℕ}
    (h : (top.flatMap fun a => if ext a then a :: logs else [a]) = us ++ a :: vs) :
    (∃ xs ys, top = xs ++ a :: ys ∧ vs = (if ext a then logs else [])
        ++ ys.flatMap fun a => if ext a then a :: logs else [a]) ∨
      ∃ xs e ys ls ms, top = xs ++ e :: ys ∧ ext e = true ∧ logs = ls ++ a :: ms ∧
        vs = ms ++ ys.flatMap fun a => if ext a then a :: logs else [a] := by
  induction top generalizing us with
  | nil => simp at h
  | cons c top ih =>
    have hcons : (if ext c then c :: logs else [c]) = c :: if ext c then logs else [] := by
      split <;> rfl
    rw [List.flatMap_cons, hcons, List.cons_append] at h
    cases us with
    | nil =>
      obtain ⟨rfl, rfl⟩ := List.cons_eq_cons.mp h
      exact Or.inl ⟨[], top, rfl, rfl⟩
    | cons u us =>
      obtain ⟨rfl, htail⟩ := List.cons_eq_cons.mp h
      -- in the part below the first entry, or behind it
      have hcases : (∃ ls ms, (if ext c then logs else []) = ls ++ a :: ms ∧
            vs = ms ++ top.flatMap fun a => if ext a then a :: logs else [a]) ∨
          ∃ us', (top.flatMap fun a => if ext a then a :: logs else [a]) = us' ++ a :: vs := by
        rcases List.append_eq_append_iff.mp htail with ⟨ms, -, hms⟩ | ⟨ms, hms, hvs⟩
        · exact Or.inr ⟨ms, hms⟩
        · cases ms with
          | nil => exact Or.inr ⟨[], by simpa using hvs.symm⟩
          | cons d ms =>
            obtain ⟨rfl, rfl⟩ := List.cons_eq_cons.mp hvs
            exact Or.inl ⟨us, ms, hms, rfl⟩
      rcases hcases with ⟨ls, ms, hls, rfl⟩ | ⟨us', hrest⟩
      · split at hls
        · exact Or.inr ⟨[], c, top, ls, ms, rfl, ‹_›, hls, rfl⟩
        · simp at hls
      · rcases ih hrest with ⟨xs, ys, rfl, hvs⟩ | ⟨xs, e, ys, ls, ms, rfl, hext, hlogs, hvs⟩
        · exact Or.inl ⟨c :: xs, ys, rfl, hvs⟩
        · exact Or.inr ⟨c :: xs, e, ys, ls, ms, rfl, hext, hlogs, hvs⟩

theorem head?_order {ext : ℕ → Bool} {logs : List ℕ} :
    (top.flatMap fun a => if ext a then a :: logs else [a]).head? = top.head? := by
  cases top with
  | nil => rfl
  | cons c top =>
    rw [List.flatMap_cons]
    split <;> rfl

/-- **`ped_disk_next_partition`** goes through this order. -/
theorem Linked.next_run (h : Linked s lists) (hfuel : (lists false).length < fuel)
    (hsplit : s.order lists = us ++ a :: vs) :
    pedDiskNextPartition fuel (some a) s = .ok (vs.head?, s) := by
  rw [pedDiskNextPartition, run_bind_ok run_get]
  rcases order_split hsplit with ⟨xs, ys, htop, rfl⟩ | ⟨xs, e, ys, ls, ms, htop, hext, hlogs, rfl⟩
  · -- an entry of the first list
    have ha : a ∈ lists false := by simp [htop]
    have hlist := h.linked false
    rw [htop] at hlist
    have hnext := hlist.next_eq
    cases hext : (s.part a).isExtended with
    | true =>
      have hinner : s.inner a = (lists true).head? := by
        have := (h.linked true).head
        rwa [PartitionHeap.first, h.extended_eq ha hext] at this
      rw [if_pos rfl, if_pos rfl, List.head?_append, head?_order, hinner, hnext]
      rfl
    | false =>
      simp only [hnext, h.level false a ha, Bool.false_eq_true, if_false, List.nil_append,
        head?_order]
      cases ys.head? <;> rfl
  · -- a logical partition
    have ha : a ∈ lists true := by simp [hlogs]
    have he : e ∈ lists false := by simp [htop]
    have htop' := h.linked false
    rw [htop] at htop'
    have hinner := h.linked true
    rw [hlogs] at hinner
    rw [if_neg (by simp [h.not_extended ha]), hinner.next_eq, h.level true a ha, List.head?_append,
      head?_order]
    cases hms : ms.head? with
    | some c => rfl
    | none =>
      rw [if_neg (by simp), if_pos rfl, run_bind_ok (h.extended_run hfuel), h.extended_eq he hext]
      simp only [htop'.next_eq]
      rfl

theorem Linked.first_run (h : Linked s lists) :
    pedDiskNextPartition fuel none s = .ok ((s.order lists).head?, s) := by
  rw [pedDiskNextPartition, run_bind_ok run_get, PartitionHeap.order, head?_order,
    ← (h.linked false).head]
  rfl

/-- The order consists of both lists. -/
theorem Linked.order_perm (h : Linked s lists) :
    (s.order lists).Perm (lists false ++ lists true) := by
  have hplain : ∀ l : List ℕ, (∀ a ∈ l, (s.part a).isExtended = false) →
      (l.flatMap fun a => if (s.part a).isExtended then a :: lists true else [a]) = l := by
    intro l hl
    rw [List.flatMap_congr (g := fun a => [a]) fun a ha => by rw [if_neg (by simp [hl a ha])]]
    exact List.flatMap_singleton' l
  cases hext : s.extended lists with
  | none =>
    have hnone := (h.linked true).head
    rw [PartitionHeap.first, hext, Option.bind_none, eq_comm, List.head?_eq_none_iff] at hnone
    rw [PartitionHeap.order, hplain, hnone, List.append_nil]
    intro a ha
    simpa using List.find?_eq_none.mp hext a ha
  | some e =>
    obtain ⟨he, hextE⟩ := extended_mem hext
    obtain ⟨xs, ys, htop⟩ := List.append_of_mem he
    have hone := h.one
    rw [htop, List.filter_append, List.filter_cons_of_pos (p := fun a => (s.part a).isExtended)
      hextE, List.length_append, List.length_cons] at hone
    have hxs : xs.filter (fun a => (s.part a).isExtended) = [] := List.eq_nil_of_length_eq_zero
      (by omega)
    have hys : ys.filter (fun a => (s.part a).isExtended) = [] := List.eq_nil_of_length_eq_zero
      (by omega)
    rw [List.filter_eq_nil_iff] at hxs hys
    rw [PartitionHeap.order, htop, List.flatMap_append, List.flatMap_cons, if_pos hextE,
      hplain xs (by simpa using hxs), hplain ys (by simpa using hys), List.append_assoc]
    refine List.Perm.append_left _ ?_
    rw [List.cons_append, List.cons_append]
    exact List.Perm.cons _ List.perm_append_comm

theorem Linked.order_nodup (h : Linked s lists) : (s.order lists).Nodup :=
  h.order_perm.nodup_iff.mpr (List.nodup_append.mpr ⟨(h.linked false).nodup, (h.linked true).nodup,
    fun a ha _ hc heq => h.apart false a ha (heq ▸ hc)⟩)

theorem Linked.mem_order (h : Linked s lists) {b : Bool} (ha : a ∈ lists b) :
    a ∈ s.order lists := by
  refine h.order_perm.mem_iff.mpr (List.mem_append.mpr ?_)
  cases b with
  | false => exact Or.inl ha
  | true => exact Or.inr ha

/-- Entries that are not extended can be left out of the lists or of the order. -/
theorem order_filter (s : PartitionHeap π) (lists : Bool → List ℕ) {p : ℕ → Bool}
    (hp : ∀ a, (s.part a).isExtended = true → p a = true) :
    s.order (fun c => (lists c).filter p) = (s.order lists).filter p := by
  change (((lists false).filter p).flatMap fun a =>
    if (s.part a).isExtended then a :: (lists true).filter p else [a]) = _
  unfold PartitionHeap.order
  induction lists false with
  | nil => rfl
  | cons a top ih =>
    rw [List.flatMap_cons, List.filter_append, ← ih]
    cases hpa : p a with
    | true =>
      rw [List.filter_cons_of_pos hpa, List.flatMap_cons]
      congr 1
      split <;> simp [hpa]
    | false =>
      have hext : ¬(s.part a).isExtended = true := fun hext => by simp [hp a hext] at hpa
      rw [List.filter_cons_of_neg (by simp [hpa]), if_neg hext]
      simp [hpa]

end Order

end Libparted.Pointers
