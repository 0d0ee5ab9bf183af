import Libparted.Disk.Rules

/-!
# Numbers

How the numbering functions of `disk.c` see a disk.  They look partitions up by
number, in the order of `ped_disk_next_partition`, and with placeholders on the lists
that carry no number (`Unnumbered`).  The lemmas here reduce every such look-up to the
table (`getPartition_isNone_iff`, `getPartition_eq_some`), and say when storing a
number changes nothing (`setNum_self`).
-/

namespace Libparted

open Library

variable {π δ : Type}

/-- What placeholders are like: without a number, and without an identity. -/
def Unnumbered (part : PedPartition π) : Prop := part.num = -1 ∧ part.id = 0

/-- The partition is on the table. -/
def PedDisk.Has (table : PedDisk π δ) (part : PedPartition π) : Prop :=
  part ∈ table.partList ∨ part ∈ table.logicals

/-! ## Traversal -/

theorem filter_spliceLogicals (logicals l : List (PedPartition π)) :
    (PedDisk.spliceLogicals logicals l).filter PedPartition.isActive
      = PedDisk.spliceLogicals (logicals.filter PedPartition.isActive)
        (l.filter PedPartition.isActive) := by
  induction l with
  | nil => rfl
  | cons part rest ih =>
      cases hext : part.isExtended with
      | true =>
          have hact := PedPartition.isActive_of_isExtended hext
          simp [PedDisk.spliceLogicals, hext, hact]
      | false =>
          cases hact : part.isActive with
          | true => simp [PedDisk.spliceLogicals, hext, hact, ih]
          | false => simp [PedDisk.spliceLogicals, hext, hact, ih]

theorem traverse_core (disk : PedDisk π δ) :
    disk.core.traverse = disk.traverse.filter PedPartition.isActive :=
  (filter_spliceLogicals _ _).symm

theorem mem_spliceLogicals {logicals l : List (PedPartition π)} {part : PedPartition π} :
    part ∈ PedDisk.spliceLogicals logicals l ↔
      part ∈ l ∨ (part ∈ logicals ∧ ∃ ext ∈ l, ext.isExtended = true) := by
  induction l with
  | nil => simp [PedDisk.spliceLogicals]
  | cons walk rest ih =>
      cases hext : walk.isExtended with
      | true =>
          simp only [PedDisk.spliceLogicals, hext, if_true, List.mem_cons, List.mem_append]
          constructor
          · rintro (h | h | h)
            · exact Or.inl (Or.inl h)
            · exact Or.inr ⟨h, walk, Or.inl rfl, hext⟩
            · exact Or.inl (Or.inr h)
          · rintro ((h | h) | ⟨h, -⟩)
            · exact Or.inl h
            · exact Or.inr (Or.inr h)
            · exact Or.inr (Or.inl h)
      | false =>
          simp only [PedDisk.spliceLogicals, hext, Bool.false_eq_true, if_false, List.mem_cons, ih,
            exists_eq_or_imp, false_or, or_assoc]

/-- On a well linked table the traversal visits every partition. -/
theorem WellLinked.mem_traverse {table : PedDisk π δ} (h : WellLinked table)
    {part : PedPartition π} : part ∈ table.traverse ↔ table.Has part := by
  unfold PedDisk.traverse PedDisk.Has
  rw [mem_spliceLogicals]
  refine or_congr_right ⟨fun hpart => hpart.1, fun hpart => ⟨hpart, ?_⟩⟩
  exact h.linked (List.ne_nil_of_mem hpart)

theorem traverse_subset {disk : PedDisk π δ} {part : PedPartition π} (h : part ∈ disk.traverse) :
    disk.Has part :=
  (mem_spliceLogicals.mp h).imp id fun hpart => hpart.1

/-! ## Looking up a number -/

section

variable {disk : PedDisk π δ} {i : ℤ}

/-- No placeholder is found under a number. -/
theorem pedDiskGetPartition_core (hpad : disk.Padding Unnumbered) (hi : i ≠ -1) :
    pedDiskGetPartition disk i = disk.core.traverse.find? fun part => part.num = i := by
  unfold pedDiskGetPartition
  rw [traverse_core, List.find?_filter, ← List.head?_filter, ← List.head?_filter]
  refine congrArg List.head? (List.filter_congr fun part hpart => ?_)
  have hno : part.isActive = false → part.num = -1 := fun hinactive =>
    ((traverse_subset hpart).elim (fun h => hpad.1 part h hinactive)
      fun h => hpad.2 part h hinactive).1
  cases hact : part.isActive with
  | false =>
      have hne : part.num ≠ i := fun heq => hi (heq ▸ hno hact)
      simp [hne]
  | true =>
      have hfree : part.type.freespace = false := by
        simp only [PedPartition.isActive, Bool.not_eq_true', Bool.or_eq_false_iff] at hact
        exact hact.1
      simp [hfree]

theorem getPartition_isNone_iff (hlinks : WellLinked disk.core) (hpad : disk.Padding Unnumbered)
    (hi : i ≠ -1) :
    (pedDiskGetPartition disk i).isNone = true ↔ ∀ part, disk.core.Has part → part.num ≠ i := by
  rw [pedDiskGetPartition_core hpad hi, Option.isNone_iff_eq_none, List.find?_eq_none]
  simp only [hlinks.mem_traverse, decide_eq_true_eq, ne_eq]

theorem getPartition_eq_some (hlinks : WellLinked disk.core) (hpad : disk.Padding Unnumbered)
    (hi : i ≠ -1) {part : PedPartition π} (h : pedDiskGetPartition disk i = some part) :
    disk.core.Has part ∧ part.num = i := by
  rw [pedDiskGetPartition_core hpad hi] at h
  exact ⟨hlinks.mem_traverse.mp (List.mem_of_find?_eq_some h),
    by simpa using List.find?_some h⟩

theorem le_pedDiskGetLastPartitionNum {part : PedPartition π} (h : part ∈ disk.traverse) :
    part.num ≤ pedDiskGetLastPartitionNum disk := by
  have hfold : ∀ (l : List (PedPartition π)) (a : ℤ), a ≤ l.foldl (fun highest part =>
      if part.num > highest then part.num else highest) a ∧ ∀ p ∈ l, p.num ≤ l.foldl
        (fun highest part => if part.num > highest then part.num else highest) a := by
    intro l
    induction l with
    | nil => simp
    | cons q rest ih =>
        intro a
        obtain ⟨hle, hrest⟩ := ih (if q.num > a then q.num else a)
        refine ⟨?_, fun p hp => ?_⟩
        · refine le_trans ?_ hle
          split <;> omega
        · rcases List.mem_cons.mp hp with rfl | hp
          · refine le_trans ?_ hle
            split <;> omega
          · exact hrest p hp
  exact (hfold disk.traverse (-1)).2 part h

theorem WellLinked.num_le_last (hlinks : WellLinked disk.core) {part : PedPartition π}
    (h : disk.core.Has part) : part.num ≤ pedDiskGetLastPartitionNum disk := by
  refine le_pedDiskGetLastPartitionNum ?_
  have := hlinks.mem_traverse.mpr h
  rw [traverse_core] at this
  exact (List.mem_filter.mp this).1

/-! ## Storing a number -/

theorem PedDisk.core_setNum (disk : PedDisk π δ) (id : ℕ) (num : ℤ) :
    (disk.setNum id num).core = disk.core.setNum id num := by
  have h : ∀ l : List (PedPartition π),
      (l.map fun part => if part.id = id then { part with num := num } else part).filter
          PedPartition.isActive
        = (l.filter PedPartition.isActive).map
          fun part => if part.id = id then { part with num := num } else part := by
    intro l
    rw [List.filter_map]
    congr 1
    refine List.filter_congr fun part _ => ?_
    simp only [Function.comp_apply]
    split <;> rfl
  simp only [core, strip, withMode, setNum, update, h]

theorem setNum_eq_self {id : ℕ} {num : ℤ} (h : ∀ part, disk.Has part → part.id = id → part.num = num) :
    disk.setNum id num = disk := by
  have hl : ∀ l : List (PedPartition π), (∀ part ∈ l, part.id = id → part.num = num) →
      l.map (fun part => if part.id = id then { part with num := num } else part) = l := by
    intro l hl
    conv_rhs => rw [← List.map_id l]
    refine List.map_congr_left fun part hpart => ?_
    by_cases hid : part.id = id
    · rw [if_pos hid, ← hl part hpart hid]
      rfl
    · simp [hid]
  simp only [PedDisk.setNum, PedDisk.update, hl _ fun p hp => h p (Or.inl hp),
    hl _ fun p hp => h p (Or.inr hp)]

/-- Placeholders have no identity, so an `id` belongs to one entry of the disk, too. -/
theorem WellLinked.eq_of_disk (h : WellLinked disk.core) (hpad : disk.Padding Unnumbered)
    {part p : PedPartition π} (hpart : disk.core.Has part) (hp : disk.Has p)
    (hid : p.id = part.id) : p = part := by
  have hne : part.id ≠ 0 := hpart.elim (h.ids.1 part) (h.ids.2 part)
  cases hact : p.isActive with
  | false =>
      have hp0 : p.id = 0 := (hp.elim (fun hp => hpad.1 p hp hact) fun hp => hpad.2 p hp hact).2
      exact absurd (hid.symm.trans hp0) hne
  | true =>
      have hcore : disk.core.Has p :=
        hp.imp (fun hp => List.mem_filter.mpr ⟨hp, hact⟩) fun hp => List.mem_filter.mpr ⟨hp, hact⟩
      exact h.eq_of_id hcore hpart hid

/-- An entry of the disk is a partition of its table or carries no number. -/
theorem PedDisk.Padding.core_or (hpad : disk.Padding Unnumbered) {part : PedPartition π}
    (hpart : disk.Has part) : disk.core.Has part ∨ part.num = -1 := by
  cases hact : part.isActive with
  | false =>
      exact Or.inr (hpart.elim (fun hp => hpad.1 part hp hact) fun hp => hpad.2 part hp hact).1
  | true =>
      exact Or.inl (hpart.imp (fun hp => List.mem_filter.mpr ⟨hp, hact⟩)
        fun hp => List.mem_filter.mpr ⟨hp, hact⟩)

theorem WellLinked.setNum_self (h : WellLinked disk.core) (hpad : disk.Padding Unnumbered)
    {part : PedPartition π} (hpart : disk.core.Has part) : disk.setNum part.id part.num = disk :=
  setNum_eq_self fun p hp hid => by rw [h.eq_of_disk hpad hpart hp hid]

theorem PedDisk.Padding.setNum {id : ℕ} {num : ℤ} (hpad : disk.Padding Unnumbered) (hid : id ≠ 0) :
    (disk.setNum id num).Padding Unnumbered := by
  have hl : ∀ l : List (PedPartition π), (∀ p ∈ l, p.isActive = false → Unnumbered p) →
      ∀ p ∈ l.map (fun part => if part.id = id then { part with num := num } else part),
        p.isActive = false → Unnumbered p := by
    intro l hl p hp hact
    obtain ⟨q, hq, rfl⟩ := List.mem_map.mp hp
    by_cases hqid : q.id = id
    · rw [if_pos hqid] at hact
      exact absurd ((hl q hq hact).2.symm.trans hqid).symm hid
    · rw [if_neg hqid] at hact ⊢
      exact hl q hq hact
  exact ⟨hl _ hpad.1, hl _ hpad.2⟩

end

/-! ## Numbered tables -/

/-- Every partition has a number. -/
def AllNumbered (table : PedDisk π δ) : Prop := ∀ part, table.Has part → part.num ≠ -1

/-- Where every partition has a number, the second loop does nothing. -/
theorem enumerateUnnumbered_skip {ops : PedDiskOps π δ} {env : Env} {s : Session π δ}
    {l : List (PedPartition π)} (h : ∀ part ∈ l, part.isActive = true → part.num ≠ -1) :
    enumerateUnnumbered ops env l s = .ok (true, s) := by
  induction l with
  | nil => rfl
  | cons walk rest ih =>
      have hskip : ¬ (walk.isActive && decide (walk.num = -1)) = true := by
        intro hboth
        simp only [Bool.and_eq_true, decide_eq_true_eq] at hboth
        exact h walk List.mem_cons_self hboth.1 hboth.2
      unfold enumerateUnnumbered
      rw [if_neg hskip]
      exact ih fun part hpart => h part (List.mem_cons_of_mem _ hpart)

/-- The label leaves the numbers of the partitions on the disk alone. -/
def KeepsNumbers (ops : PedDiskOps π δ) (env : Env) (disk : PedDisk π δ) : Prop :=
  ∀ part thrown, disk.core.Has part →
    ops.partitionEnumerate env disk part thrown = .ok ((true, part.num), thrown)

section Stable

variable {ops : PedDiskOps π δ} {env : Env} {s : Session π δ}

theorem partitionEnumerate_keep (hlinks : WellLinked s.disk.core)
    (hpad : s.disk.Padding Unnumbered) (h : KeepsNumbers ops env s.disk) {part : PedPartition π}
    (hpart : s.disk.core.Has part) : partitionEnumerate ops env part s = .ok (true, s) := by
  have hrun : partitionEnumerate ops env part s
      = .ok (true, { s with disk := s.disk.setNum part.id part.num }) := by
    simp only [partitionEnumerate, getDisk, ask, modifyDisk, bind, StateT.bind, get, getThe,
      MonadStateOf.get, StateT.get, modify, modifyGet, MonadStateOf.modifyGet, StateT.modifyGet,
      Except.bind, pure, StateT.pure, Except.pure, h part s.thrown hpart]
  rw [hrun, hlinks.setNum_self hpad hpart]

theorem enumerateNumbered_keep (hlinks : WellLinked s.disk.core)
    (hpad : s.disk.Padding Unnumbered) (h : KeepsNumbers ops env s.disk) (is : List ℕ) :
    enumerateNumbered ops env is s = .ok (true, s) := by
  induction is with
  | nil => rfl
  | cons i rest ih =>
      unfold enumerateNumbered
      simp only [getDisk, bind, StateT.bind, get, getThe, MonadStateOf.get, StateT.get, Except.bind,
        pure, StateT.pure, Except.pure]
      cases hfind : pedDiskGetPartition s.disk i with
      | none => exact ih
      | some walk =>
          have hwalk := getPartition_eq_some hlinks hpad (by omega) hfind
          simp only [StateT.bind, partitionEnumerate_keep hlinks hpad h hwalk.1, bind, Except.bind,
            if_true]
          exact ih

/-- **Numbers in order stay.** -/
theorem pedDiskEnumeratePartitions_keep (hlinks : WellLinked s.disk.core)
    (hpad : s.disk.Padding Unnumbered) (hnum : AllNumbered s.disk.core)
    (h : KeepsNumbers ops env s.disk) :
    pedDiskEnumeratePartitions ops env s = .ok (true, s) := by
  unfold pedDiskEnumeratePartitions
  simp only [getDisk, bind, StateT.bind, get, getThe, MonadStateOf.get, StateT.get, Except.bind,
    pure, StateT.pure, Except.pure, enumerateNumbered_keep hlinks hpad h, if_true]
  refine enumerateUnnumbered_skip fun part hpart hact => hnum part ?_
  exact (traverse_subset hpart).imp (fun h => List.mem_filter.mpr ⟨h, hact⟩)
    fun h => List.mem_filter.mpr ⟨h, hact⟩

/-- Renumbering does nothing where numbers are in order. -/
theorem renumbers_keep {label : PedDiskType π δ} {E : Fault → Prop} {I : PedDisk π δ → Prop}
    (h : ∀ disk : PedDisk π δ, I disk.core → disk.Padding Unnumbered → WellLinked disk.core ∧
      AllNumbered disk.core ∧ KeepsNumbers label.toPedDiskOps env disk) :
    Renumbers label env E Unnumbered I I := by
  intro s hs hpad
  obtain ⟨hlinks, hnum, hkeep⟩ := h s.disk hs hpad
  unfold Spec
  rw [pedDiskEnumeratePartitions_keep hlinks hpad hnum hkeep]
  exact ⟨hs, hpad⟩

/-- A label that never changes numbers does nothing after a removal. -/
theorem renumbers_removed {label : PedDiskType π δ} {E : Fault → Prop} {table : PedDisk π δ}
    {id : ℕ} {part : PedPartition π}
    (hkeep : ∀ disk, AllNumbered disk.core → KeepsNumbers label.toPedDiskOps env disk)
    (hlinks : WellLinked table) (hnums : AllNumbered (diskRawRemove table id))
    (hfind : table.find? id = some part) (hext : part.isExtended = true → table.logicals = []) :
    Renumbers label env E Unnumbered (· = diskRawRemove table id)
      (· = diskRawRemove table id) := by
  refine renumbers_keep fun disk hdisk _ => ?_
  have hnumbered : AllNumbered disk.core := hdisk ▸ hnums
  exact ⟨hdisk ▸ hlinks.remove hfind hext, hnumbered, hkeep disk hnumbered⟩

end Stable

/-! ## Changing all numbers -/

/-- Every number is changed in the same way. -/
def PedDisk.mapNum (f : ℤ → ℤ) (disk : PedDisk π δ) : PedDisk π δ :=
  { disk with
    partList := disk.partList.map fun part => { part with num := f part.num }
    logicals := disk.logicals.map fun part => { part with num := f part.num } }

section MapNum

variable {disk : PedDisk π δ} {f g : ℤ → ℤ}

theorem PedDisk.core_mapNum (f : ℤ → ℤ) (disk : PedDisk π δ) :
    (disk.mapNum f).core = disk.core.mapNum f := by
  simp only [core, strip, withMode, mapNum, List.filter_map]
  rfl

theorem PedDisk.unnumbered_mapNum (f : ℤ → ℤ) (disk : PedDisk π δ) :
    (disk.mapNum f).unnumbered = disk.unnumbered := by
  simp only [unnumbered, mapNum, List.map_map]
  rfl

theorem PedDisk.mapNum_congr (h : ∀ part, disk.Has part → f part.num = g part.num) :
    disk.mapNum f = disk.mapNum g := by
  simp only [mapNum, PedDisk.mk.injEq, and_true]
  constructor
  · exact List.map_congr_left fun part hpart => by rw [h part (Or.inl hpart)]
  · exact List.map_congr_left fun part hpart => by rw [h part (Or.inr hpart)]

theorem PedDisk.mapNum_eq_self (h : ∀ part, disk.Has part → f part.num = part.num) :
    disk.mapNum f = disk := by
  rw [PedDisk.mapNum_congr (g := id) h]
  simp [mapNum]

theorem PedDisk.has_mapNum {part : PedPartition π} :
    (disk.mapNum f).Has part ↔ ∃ p, disk.Has p ∧ part = { p with num := f p.num } := by
  simp only [Has, mapNum, List.mem_map]
  constructor
  · rintro (⟨p, hp, rfl⟩ | ⟨p, hp, rfl⟩)
    · exact ⟨p, Or.inl hp, rfl⟩
    · exact ⟨p, Or.inr hp, rfl⟩
  · rintro ⟨p, hp | hp, rfl⟩
    · exact Or.inl ⟨p, hp, rfl⟩
    · exact Or.inr ⟨p, hp, rfl⟩

theorem PedDisk.has_setNum {id : ℕ} {num : ℤ} {part : PedPartition π} :
    (disk.setNum id num).Has part ↔
      ∃ p, disk.Has p ∧ part = if p.id = id then { p with num := num } else p := by
  simp only [Has, setNum, update, List.mem_map]
  constructor
  · rintro (⟨p, hp, rfl⟩ | ⟨p, hp, rfl⟩)
    · exact ⟨p, Or.inl hp, rfl⟩
    · exact ⟨p, Or.inr hp, rfl⟩
  · rintro ⟨p, hp | hp, rfl⟩
    · exact Or.inl ⟨p, hp, rfl⟩
    · exact Or.inr ⟨p, hp, rfl⟩

/-- Storing a number for one entry on top of a change of all numbers. -/
theorem PedDisk.setNum_mapNum {id : ℕ} {num : ℤ}
    (hsame : ∀ part, disk.Has part → part.id = id → g part.num = num)
    (hother : ∀ part, disk.Has part → part.id ≠ id → g part.num = f part.num) :
    (disk.mapNum f).setNum id num = disk.mapNum g := by
  have hl : ∀ l : List (PedPartition π), (∀ part ∈ l, disk.Has part) →
      (l.map fun part => { part with num := f part.num }).map
          (fun part => if part.id = id then { part with num := num } else part)
        = l.map fun part => { part with num := g part.num } := by
    intro l hl
    rw [List.map_map]
    refine List.map_congr_left fun part hpart => ?_
    by_cases hid : part.id = id
    · simp [hid, hsame part (hl part hpart) hid]
    · simp [hid, hother part (hl part hpart) hid]
  simp only [setNum, update, mapNum, hl _ fun p hp => Or.inl hp, hl _ fun p hp => Or.inr hp]

theorem PedDisk.Padding.mapNum (hpad : disk.Padding Unnumbered) (hf : f (-1) = -1) :
    (disk.mapNum f).Padding Unnumbered := by
  have hl : ∀ l : List (PedPartition π), (∀ p ∈ l, p.isActive = false → Unnumbered p) →
      ∀ p ∈ l.map (fun part => { part with num := f part.num }),
        p.isActive = false → Unnumbered p := by
    intro l hl p hp hact
    obtain ⟨q, hq, rfl⟩ := List.mem_map.mp hp
    obtain ⟨hnum, hid⟩ := hl q hq hact
    exact ⟨by rw [hnum, hf], hid⟩
  exact ⟨hl _ hpad.1, hl _ hpad.2⟩

end MapNum

/-! ## Counting -/

/-- The primary partitions are those of the top level. -/
theorem WellLinked.primaryCount {disk : PedDisk π δ} (h : WellLinked disk.core) :
    pedDiskGetPrimaryPartitionCount disk = disk.core.partList.length := by
  have hsplice : ∀ logicals l : List (PedPartition π),
      (∀ part ∈ logicals, part.type.logical = true) → (∀ part ∈ l, part.type.logical = false) →
      (PedDisk.spliceLogicals logicals l).countP (fun part => !part.type.logical) = l.length := by
    intro logicals l hlog hl
    have hzero : logicals.countP (fun part => !part.type.logical) = 0 :=
      List.countP_eq_zero.mpr fun part hpart => by simp [hlog part hpart]
    have hall : ∀ l' : List (PedPartition π), (∀ part ∈ l', part.type.logical = false) →
        l'.countP (fun part => !part.type.logical) = l'.length :=
      fun l' hl' => List.countP_eq_length.mpr fun part hpart => by simp [hl' part hpart]
    induction l with
    | nil => rfl
    | cons part rest ih =>
        have hpart := hl part List.mem_cons_self
        have hrest := fun p hp => hl p (List.mem_cons_of_mem _ hp)
        unfold PedDisk.spliceLogicals
        split
        · simp [hpart, hzero, hall rest hrest]
        · simp [hpart, ih hrest]
  unfold pedDiskGetPrimaryPartitionCount
  have hcount : disk.traverse.countP (fun part => part.isActive && !part.type.logical)
      = disk.core.traverse.countP fun part => !part.type.logical := by
    rw [traverse_core, List.countP_filter]
    exact List.countP_congr fun part _ => by simp [and_comm]
  rw [hcount]
  exact congrArg _ (hsplice _ _ h.leveled.2 h.leveled.1)

end Libparted
