import Libparted.Disk.Numbering

/-!
# Clients of a disk

A client makes partition objects, adds them to the disk, takes them off again and
keeps them.  An object that is not on the disk still carries the number it was last
given, and the links to its last neighbours: `_disk_raw_remove` does not clear them.

`Client` is a disk together with the objects that are not on it.  `Numbers` collects
what a label has to do for the numbers on the disk to stay in order, and
`Reachable.good` says that they do stay so, along every run in which no object is added
under a number that is in use.
-/

namespace Libparted

open Library

variable {π δ α : Type}

/-! ## Objects off the disk -/

/-- The types `ped_partition_new` is documented to take. -/
inductive PartitionKind where
  | normal
  | extended
  | logical
deriving DecidableEq, Repr

def PartitionKind.type : PartitionKind → PedPartitionType
  | .normal => .normal
  | .extended => .ofExtended
  | .logical => .ofLogical

/-- `ped_partition_new`.  What the label's `partition_new` and `partition_set_system` put
into `disk_specific` is `data`; part of it is random on some labels. -/
def pedPartitionNew (ops : PedDiskOps π δ) (env : Env) (id : ℕ) (kind : PartitionKind) (data : π)
    (start «end» : ℤ) : Ask (Option (PedPartition π)) := do
  if !ops.extended && (kind = .extended || kind = .logical) then
    pedExceptionReport env (ops.name ++ " disk labels do not support extended partitions.")
    return none
  match ← pedGeometryInit env start («end» - start + 1) with
  | none => return none
  | some geom => return some ⟨id, kind.type, -1, geom, some data⟩

/-- An `id` that no entry of the disk has: a new object. -/
def PedDisk.freshId (disk : PedDisk π δ) : ℕ :=
  ((disk.partList ++ disk.logicals).map (·.id)).foldr max 0 + 1

theorem id_lt_freshId {disk : PedDisk π δ} {part : PedPartition π}
    (h : part ∈ disk.partList ++ disk.logicals) : part.id < disk.freshId := by
  have hmem : part.id ∈ (disk.partList ++ disk.logicals).map (·.id) := List.mem_map_of_mem h
  exact Nat.lt_succ_of_le (List.le_max_of_le' 0 hmem le_rfl)

theorem PedDisk.core_has_id_ne_freshId {disk : PedDisk π δ} {part : PedPartition π}
    (h : disk.core.Has part) : part.id ≠ disk.freshId := by
  refine (id_lt_freshId (List.mem_append.mpr ?_)).ne
  exact h.imp (fun h => (List.mem_filter.mp h).1) fun h => (List.mem_filter.mp h).1

/-- An object that is not on the disk.  `linked` means that its `prev` or its `next` still
points at a former neighbour. -/
structure LoosePartition (π : Type) where
  part : PedPartition π
  linked : Bool

/-- A disk and the objects of its client. -/
structure Client (π δ : Type) where
  session : Session π δ
  loose : List (LoosePartition π)
  nextId : ℕ

/-- The table the client's disk holds. -/
def Client.table (client : Client π δ) : PedDisk π δ := client.session.disk.core

abbrev ClientM (π δ α : Type) : Type := Prog Fault (Client π δ) α

/-- Runs a program on the disk. -/
def onDisk (x : DiskM π δ α) : ClientM π δ α := fun client => do
  let (a, session) ← x client.session
  return (a, { client with session := session })

theorem spec_onDisk {E : Fault → Prop} {x : DiskM π δ α} {client : Client π δ}
    {Q : α → Client π δ → Prop} :
    Spec E (onDisk x) client Q ↔
      Spec E x client.session fun a session => Q a { client with session := session } := by
  unfold Spec onDisk
  cases x client.session with
  | error e => exact Iff.rfl
  | ok r => exact Iff.rfl

/-! ## Calls -/

/-- The calls of a client. -/
inductive ClientCall (π : Type) where
  | new (kind : PartitionKind) (data : π) (start «end» : ℤ)
  | add (id : ℕ) (constraint : Option PedConstraint)
  | remove (id : ℕ)
  | delete (id : ℕ)
  | setGeom (id : ℕ) (constraint : Option PedConstraint) (start «end» : ℤ)

/-- `ped_partition_new`: on success there is one more object. -/
def clientNew (label : PedDiskType π δ) (env : Env) (kind : PartitionKind) (data : π)
    (start «end» : ℤ) : ClientM π δ Unit := do
  let id := (← get).nextId
  match ← onDisk (ask (pedPartitionNew label.toPedDiskOps env id kind data start «end»)) with
  | none => return ()
  | some part => modify fun client =>
      { client with loose := ⟨part, false⟩ :: client.loose, nextId := id + 1 }

/-- `ped_disk_add_partition` on one of the objects.  `_disk_raw_add` does not touch the
links of an object that it puts into an empty list, so that the list then runs on to
the object's former neighbours, wherever and whatever they are now. -/
def clientAdd (label : PedDiskType π δ) (env : Env) (id : ℕ) (constraint : Option PedConstraint) :
    ClientM π δ Unit := do
  let client ← get
  match client.loose.find? (·.part.id = id) with
  | none => throw (.undefined "not an object off the disk")
  | some object =>
      let (ok, part) ← onDisk (pedDiskAddPartition label env object.part constraint)
      let rest := client.loose.filter (·.part.id ≠ id)
      if ok then
        if object.linked && (client.table.level object.part.type).isEmpty then
          throw (.undefined "list runs on to former neighbours")
        modify fun client => { client with loose := rest }
      else
        modify fun client => { client with loose := ⟨part, object.linked⟩ :: rest }

/-- `ped_disk_remove_partition`: the object stays with the client. -/
def clientRemove (label : PedDiskType π δ) (env : Env) (id : ℕ) : ClientM π δ Unit := do
  let client ← get
  match ← onDisk (pedDiskRemovePartition label env id) with
  | none => return ()
  | some part =>
      let linked := decide (1 < (client.table.level part.type).length)
      modify fun client => { client with loose := ⟨part, linked⟩ :: client.loose }

/-- Performs one call. -/
def ClientCall.run (label : PedDiskType π δ) (env : Env) : ClientCall π → ClientM π δ Unit
  | .new kind data start «end» => clientNew label env kind data start «end»
  | .add id constraint => clientAdd label env id constraint
  | .remove id => clientRemove label env id
  | .delete id => do let _ ← onDisk (pedDiskDeletePartition label env id)
  | .setGeom id constraint start «end» => do
      let _ ← onDisk (pedDiskSetPartitionGeom label env id constraint start «end»)

/-! ## What a call must not do -/

/-- The object carries a number that the label would keep and that is in use.  `Trusts`
says which numbers the label keeps. -/
def Clashes (Trusts : ℤ → Prop) (table : PedDisk π δ) (part : PedPartition π) : Prop :=
  Trusts part.num ∧ ∃ other, table.Has other ∧ other.num = part.num

/-- No object is added under a number in use, and none that is still linked is put into an
empty list. -/
def Admits (Trusts : ℤ → Prop) (client : Client π δ) : ClientCall π → Prop
  | .add id _ => ∀ object ∈ client.loose, object.part.id = id →
      ¬ Clashes Trusts client.table object.part ∧
        (object.linked = true → client.table.level object.part.type ≠ [])
  | _ => True

/-- The clients that calls of this kind lead to. -/
inductive Reachable (label : PedDiskType π δ) (env : Env) (Trusts : ℤ → Prop)
    (Start : Client π δ → Prop) : Client π δ → Prop
  | start {client : Client π δ} (h : Start client) : Reachable label env Trusts Start client
  | call {client client' : Client π δ} (call : ClientCall π)
      (h : Reachable label env Trusts Start client) (hcall : Admits Trusts client call)
      (hrun : call.run label env client = .ok ((), client')) :
      Reachable label env Trusts Start client'

/-! ## What a label has to do -/

/-- Logical partitions that are on both tables come in the same order of numbers. -/
def KeepsOrder (table table' : PedDisk π δ) : Prop :=
  ∀ p ∈ table.logicals, ∀ q ∈ table.logicals, ∀ p' ∈ table'.logicals, ∀ q' ∈ table'.logicals,
    p'.id = p.id → q'.id = q.id → p.num < q.num → p'.num < q'.num

/-- The same numbers are in use on each level. -/
structure SameNumbers (table table' : PedDisk π δ) : Prop where
  top : (table'.partList.map (·.num)).Perm (table.partList.map (·.num))
  logical : (table'.logicals.map (·.num)).Perm (table.logicals.map (·.num))
  specific : table'.diskSpecific = table.diskSpecific

/-- A label that keeps the numbers of a table in the order `Numbered`, when the objects it
is given carry numbers as in `Carries`, and leaves the numbers in `Trusts` as they are. -/
structure Numbers (label : PedDiskType π δ) (env : Env) (E : Fault → Prop)
    (Numbered : PedDisk π δ → Prop) (Trusts : ℤ → Prop) (Carries : δ → PedPartition π → Prop) :
    Prop where
  allows : Allows E Unnumbered label env
  aligns : ∀ disk part constraint thrown,
    Spec E (label.partitionAlign env disk part constraint) thrown fun _ _ => True
  checks : ∀ disk part thrown, Spec E (label.partitionCheck env disk part) thrown fun _ _ => True
  numbered : ∀ table, Numbered table → AllNumbered table
  distinct : ∀ table, Numbered table → ((table.partList ++ table.logicals).map (·.num)).Nodup
  same : ∀ table table', SameNumbers table table' → Numbered table → Numbered table'
  /-- numbers in order are not touched -/
  keeps : ∀ disk, WellLinked disk.core → disk.Padding Unnumbered → Numbered disk.core →
    KeepsNumbers label.toPedDiskOps env disk
  /-- the gap a removed partition leaves is closed -/
  closes : ∀ table id part, WellLinked table → Numbered table → table.find? id = some part →
    (part.isExtended = true → table.logicals = []) →
    Renumbers label env E Unnumbered (· = diskRawRemove table id)
      fun table' => Numbered table' ∧ KeepsOrder table table'
  /-- a new partition gets a number that fits -/
  assigns : ∀ disk before part thrown, disk.Clean → WellLinked disk.core → Numbered disk.core →
    before.core = disk.core → BasicSane label.toPedDiskOps before part →
    (∀ other, disk.core.Has other → other.id ≠ part.id) → part.isActive = true →
    Carries disk.diskSpecific part →
    Spec E (label.partitionEnumerate env disk part) thrown fun r _ =>
      Carries disk.diskSpecific { part with num := r.2 } ∧ (Trusts part.num → r.2 = part.num) ∧
      (r.1 = true → ¬ Clashes Trusts disk.core part →
        Numbered (disk.core.place { part with num := r.2 }))
  carries_new : ∀ specific id (kind : PartitionKind) geom data, (label.extended = false → kind = .normal) →
    Carries specific ⟨id, kind.type, -1, geom, some data⟩
  carries_on : ∀ table part, WellLinked table → Numbered table → table.Has part →
    Carries table.diskSpecific part
  carries_geom : ∀ specific part geom, Carries specific part →
    Carries specific { part with geom := geom }

/-! ### Tables before and after -/

section Tables

variable {table table' table'' : PedDisk π δ}

/-- Partitions that keep their numbers keep their order. -/
theorem KeepsOrder.of_nums (h : ∀ p ∈ table.logicals, ∀ p' ∈ table'.logicals, p'.id = p.id →
    p'.num = p.num) : KeepsOrder table table' := by
  intro p hp q hq p' hp' q' hq' hpid hqid hlt
  rw [h p hp p' hp' hpid, h q hq q' hq' hqid]
  exact hlt

/-- Some partitions are gone and the others have kept their order. -/
structure Shrinks (table table' : PedDisk π δ) : Prop where
  order : KeepsOrder table table'
  old : table'.Each (fun part => ∃ p ∈ table.partList, p.id = part.id)
    fun part => ∃ p ∈ table.logicals, p.id = part.id
  specific : table'.diskSpecific = table.diskSpecific

theorem Shrinks.refl (h : WellLinked table) : Shrinks table table := by
  refine ⟨KeepsOrder.of_nums fun p hp p' hp' hid => ?_, ⟨fun p hp => ⟨p, hp, rfl⟩,
    fun p hp => ⟨p, hp, rfl⟩⟩, rfl⟩
  rw [h.eq_of_id (Or.inr hp') (Or.inr hp) hid]

theorem Shrinks.trans (h : Shrinks table table') (h' : Shrinks table' table'') :
    Shrinks table table'' := by
  refine ⟨?_, ⟨fun part hpart => ?_, fun part hpart => ?_⟩, h'.specific.trans h.specific⟩
  · intro p hp q hq p'' hp'' q'' hq'' hpid hqid hlt
    -- whatever is left at the end was there in between
    obtain ⟨p', hp', hpid'⟩ := h'.old.2 p'' hp''
    obtain ⟨q', hq', hqid'⟩ := h'.old.2 q'' hq''
    refine h'.order p' hp' q' hq' p'' hp'' q'' hq'' hpid'.symm hqid'.symm ?_
    exact h.order p hp q hq p' hp' q' hq' (hpid'.trans hpid) (hqid'.trans hqid) hlt
  · obtain ⟨p', hp', hid'⟩ := h'.old.1 part hpart
    obtain ⟨p, hp, hid⟩ := h.old.1 p' hp'
    exact ⟨p, hp, hid.trans hid'⟩
  · obtain ⟨p', hp', hid'⟩ := h'.old.2 part hpart
    obtain ⟨p, hp, hid⟩ := h.old.2 p' hp'
    exact ⟨p, hp, hid.trans hid'⟩

theorem Shrinks.has (h : Shrinks table table') {part : PedPartition π} (hpart : table'.Has part) :
    ∃ p, table.Has p ∧ p.id = part.id := by
  rcases hpart with hpart | hpart
  · obtain ⟨p, hp, hid⟩ := h.old.1 part hpart
    exact ⟨p, Or.inl hp, hid⟩
  · obtain ⟨p, hp, hid⟩ := h.old.2 part hpart
    exact ⟨p, Or.inr hp, hid⟩

/-- Linking in an object that is not on the lists. -/
theorem WellLinked.place_new {part : PedPartition π} (h : WellLinked table)
    (hlink : Linkable table part) (hnew : ∀ other, table.Has other → other.id ≠ part.id) :
    WellLinked (table.place part) := by
  have hself : diskRawRemove table part.id = table := by
    simp only [diskRawRemove]
    rw [List.filter_eq_self.mpr fun p hp => by simpa using hnew p (Or.inl hp),
      List.filter_eq_self.mpr fun p hp => by simpa using hnew p (Or.inr hp)]
  have hplace := h.place hlink
  rwa [hself] at hplace

theorem exists_of_unnumbered (h : table'.unnumbered = table.unnumbered) :
    table'.Each (fun part => ∃ p ∈ table.partList, p.id = part.id)
      fun part => ∃ p ∈ table.logicals, p.id = part.id := by
  have hl : ∀ l l' : List (PedPartition π), (l'.map fun part => { part with num := 0 })
      = (l.map fun part => { part with num := 0 }) → ∀ part ∈ l', ∃ p ∈ l, p.id = part.id := by
    intro l l' heq part hpart
    have hmem := List.mem_map_of_mem (f := fun part => { part with num := (0 : ℤ) }) hpart
    rw [heq] at hmem
    obtain ⟨p, hp, hsame⟩ := List.mem_map.mp hmem
    have hid := congrArg PedPartition.id hsame
    exact ⟨p, hp, hid⟩
  exact ⟨hl _ _ (congrArg PedDisk.partList h), hl _ _ (congrArg PedDisk.logicals h)⟩

theorem mem_place {part other : PedPartition π} :
    (table.place part).Has other ↔ other = part ∨ table.Has other := by
  unfold PedDisk.Has
  cases hl : part.type.logical with
  | true =>
      rw [PedDisk.place_logical hl]
      simp only [mem_insertOrdered]
      tauto
  | false =>
      rw [PedDisk.place_top hl]
      simp only [mem_insertOrdered]
      tauto

theorem has_diskRawRemove {part : PedPartition π} {id : ℕ} :
    (diskRawRemove table id).Has part ↔ table.Has part ∧ part.id ≠ id := by
  unfold PedDisk.Has
  rw [mem_diskRawRemove_partList, mem_diskRawRemove_logicals, or_and_right]

theorem place_top_nums (table : PedDisk π δ) (part : PedPartition π) (h : part.type.logical = false) :
    ((table.place part).partList.map (·.num)).Perm (part.num :: table.partList.map (·.num)) ∧
      (table.place part).logicals = table.logicals := by
  rw [PedDisk.place_top h]
  exact ⟨(insertOrdered_perm _ _ part table.partList).map _, rfl⟩

theorem place_logical_nums (table : PedDisk π δ) (part : PedPartition π) (h : part.type.logical = true) :
    ((table.place part).logicals.map (·.num)).Perm (part.num :: table.logicals.map (·.num)) ∧
      (table.place part).partList = table.partList := by
  rw [PedDisk.place_logical h]
  exact ⟨(insertOrdered_perm _ _ part table.logicals).map _, rfl⟩

theorem diskSpecific_place (part : PedPartition π) :
    (table.place part).diskSpecific = table.diskSpecific := by
  unfold PedDisk.place
  split <;> rfl

/-- Where a partition is placed does not matter for the numbers. -/
theorem sameNumbers_place (part : PedPartition π) (geom : PedGeometry) :
    SameNumbers (table.place part) (table.place { part with geom := geom }) := by
  have hspecific : (table.place { part with geom := geom }).diskSpecific
      = (table.place part).diskSpecific := by
    rw [diskSpecific_place, diskSpecific_place]
  cases hl : part.type.logical with
  | true =>
      obtain ⟨hperm, htop⟩ := place_logical_nums table part hl
      obtain ⟨hperm', htop'⟩ :=
        place_logical_nums table { part with geom := geom } hl
      exact ⟨by rw [htop, htop'], hperm'.trans hperm.symm, hspecific⟩
  | false =>
      obtain ⟨hperm, hlog⟩ := place_top_nums table part hl
      obtain ⟨hperm', hlog'⟩ :=
        place_top_nums table { part with geom := geom } hl
      exact ⟨hperm'.trans hperm.symm, by rw [hlog, hlog'], hspecific⟩

/-- A list is the entry with a given `id` and the others. -/
theorem perm_cons_filter_id {l : List (PedPartition π)} (h : (l.map (·.id)).Nodup)
    {old : PedPartition π} (hold : old ∈ l) :
    (old :: l.filter fun part => part.id ≠ old.id).Perm l := by
  induction l with
  | nil => exact absurd hold List.not_mem_nil
  | cons p ps ih =>
      obtain ⟨hp, hps⟩ := List.nodup_cons.mp h
      have hother : ∀ q ∈ ps, q.id ≠ p.id := fun q hq heq => hp (List.mem_map.mpr ⟨q, hq, heq⟩)
      rcases List.mem_cons.mp hold with rfl | hmem
      · have hself : ps.filter (fun part => part.id ≠ old.id) = ps :=
          List.filter_eq_self.mpr fun q hq => by simpa using hother q hq
        rw [List.filter_cons_of_neg (by simp), hself]
      · have hne : p.id ≠ old.id := (hother old hmem).symm
        rw [List.filter_cons_of_pos (by simpa using hne)]
        exact (List.Perm.swap p old _).trans ((ih hps hmem).cons p)

/-- Taking a partition out and putting it back keeps the numbers. -/
theorem WellLinked.sameNumbers_replace (h : WellLinked table) {id : ℕ} {old : PedPartition π}
    (hold : table.find? id = some old) :
    SameNumbers table ((diskRawRemove table id).place old) := by
  obtain ⟨hmem, -, rfl⟩ := PedDisk.mem_of_find? hold
  obtain ⟨htop, hlog, hdisj⟩ := List.nodup_append.mp (List.map_append ▸ h.nodup)
  have hself : ∀ l : List (PedPartition π), (∀ p ∈ l, p.id ≠ old.id) →
      l.filter (fun part => part.id ≠ old.id) = l :=
    fun l hl => List.filter_eq_self.mpr fun p hp => by simpa using hl p hp
  rcases hmem with hmem | hmem
  · obtain ⟨hperm, hlogs⟩ :=
      place_top_nums (diskRawRemove table old.id) old (h.leveled.1 old hmem)
    refine ⟨hperm.trans ((perm_cons_filter_id htop hmem).map PedPartition.num), ?_, diskSpecific_place _⟩
    rw [hlogs]
    refine List.Perm.of_eq (congrArg (List.map _) (hself _ fun p hp heq => ?_))
    exact hdisj _ (List.mem_map_of_mem hmem) _ (List.mem_map_of_mem hp) heq.symm
  · obtain ⟨hperm, htops⟩ :=
      place_logical_nums (diskRawRemove table old.id) old (h.leveled.2 old hmem)
    refine ⟨?_, hperm.trans ((perm_cons_filter_id hlog hmem).map PedPartition.num), diskSpecific_place _⟩
    rw [htops]
    refine List.Perm.of_eq (congrArg (List.map _) (hself _ fun p hp heq => ?_))
    exact hdisj _ (List.mem_map_of_mem hp) _ (List.mem_map_of_mem hmem) heq

theorem SameNumbers.trans (h : SameNumbers table table') (h' : SameNumbers table' table'') :
    SameNumbers table table'' :=
  ⟨h'.top.trans h.top, h'.logical.trans h.logical, h'.specific.trans h.specific⟩

end Tables

/-! ## The operations -/

section Operations

variable {label : PedDiskType π δ} {env : Env} {E : Fault → Prop}
  {Numbered : PedDisk π δ → Prop} {Trusts : ℤ → Prop} {Carries : δ → PedPartition π → Prop}
  {table : PedDisk π δ} {n : ℕ} {s : Session π δ}

/-- A well linked table with its numbers in order. -/
structure Orderly (Numbered : PedDisk π δ → Prop) (table : PedDisk π δ) : Prop where
  links : WellLinked table
  nums : Numbered table

theorem Numbers.renumbers (h : Numbers label env E Numbered Trusts Carries)
    {I : PedDisk π δ → Prop} (hI : ∀ c, I c → Orderly Numbered c) :
    Renumbers label env E Unnumbered I I := by
  refine renumbers_keep fun disk hdisk hpad => ?_
  have hgood := hI _ hdisk
  exact ⟨hgood.links, h.numbered _ hgood.nums, h.keeps _ hgood.links hpad hgood.nums⟩

/-- Closing the gap a removed partition leaves. -/
theorem Numbers.shrinks (h : Numbers label env E Numbered Trusts Carries)
    (hgood : Orderly Numbered table) {id : ℕ} {part : PedPartition π}
    (hfind : table.find? id = some part) (hext : part.isExtended = true → table.logicals = []) :
    Renumbers label env E Unnumbered (· = diskRawRemove table id) fun table' =>
      Orderly Numbered table' ∧ Shrinks table table' ∧
        ∀ other, table'.Has other → other.id ≠ id := by
  intro s hs hpad
  refine (h.closes table id part hgood.links hgood.nums hfind hext s hs hpad).of_and
    pedDiskEnumeratePartitions_unnumbered fun _ s' ⟨⟨hnums, horder⟩, hpad'⟩ hsame => ?_
  have hcore : s'.disk.core.unnumbered = (diskRawRemove table id).unnumbered := by
    rw [← PedDisk.core_unnumbered, hsame, PedDisk.core_unnumbered, hs]
  have hold := exists_of_unnumbered hcore
  have hspecific : s'.disk.core.unnumbered.diskSpecific = _ := congrArg PedDisk.diskSpecific hcore
  refine ⟨⟨⟨(hgood.links.remove hfind hext).renumbered hcore, hnums⟩,
    ⟨horder, ⟨fun p hp => ?_, fun p hp => ?_⟩, hspecific⟩, ?_⟩, hpad'⟩
  · obtain ⟨q, hq, hid⟩ := hold.1 p hp
    exact ⟨q, (mem_diskRawRemove_partList.mp hq).1, hid⟩
  · obtain ⟨q, hq, hid⟩ := hold.2 p hp
    exact ⟨q, (mem_diskRawRemove_logicals.mp hq).1, hid⟩
  · rintro p (hp | hp)
    · obtain ⟨q, hq, hid⟩ := hold.1 p hp
      exact hid ▸ (mem_diskRawRemove_partList.mp hq).2
    · obtain ⟨q, hq, hid⟩ := hold.2 p hp
      exact hid ▸ (mem_diskRawRemove_logicals.mp hq).2

/-- A table with one partition less. -/
def Removed (I : PedDisk π δ → Prop) (table' : PedDisk π δ) : Prop :=
  ∃ table id part, I table ∧ table.find? id = some part ∧
    (part.isExtended = true → table.logicals = []) ∧ table' = diskRawRemove table id

theorem removesTo_removed (I : PedDisk π δ → Prop) (id : ℕ) : RemovesTo I (Removed I) id :=
  fun c part hc hfind hext => ⟨c, id, part, hc, hfind, hext, rfl⟩

/-- **Removing** leaves the rest in order. -/
theorem Numbers.remove (h : Numbers label env E Numbered Trusts Carries)
    (hgood : Orderly Numbered table) (id : ℕ) (hs : At Unnumbered (· = table) 0 s) :
    Spec E (pedDiskRemovePartition label env id) s fun r s' => ∃ part, r = some part ∧
      table.find? id = some part ∧ At Unnumbered (fun table' => Orderly Numbered table' ∧
        Shrinks table table' ∧ ∀ other, table'.Has other → other.id ≠ id) 0 s' := by
  have hremove : RemovesTo (· = table) (fun table' => table' = diskRawRemove table id ∧
      ∃ part, table.find? id = some part ∧ (part.isExtended = true → table.logicals = [])) id := by
    rintro c part rfl hfind hext
    exact ⟨rfl, part, hfind, hext⟩
  refine (hs.remove h.allows (h.renumbers fun c hc => hc ▸ hgood) hremove ?_).imp
    fun r s' ⟨h', part, c, hr, hc, hfind⟩ => ⟨part, hr, hc ▸ hfind, h'⟩
  rintro t ⟨ht, part, hfind, hext⟩ hpad
  exact h.shrinks hgood hfind hext t ht hpad

/-- **Deleting** leaves the rest in order. -/
theorem Numbers.delete (h : Numbers label env E Numbered Trusts Carries)
    (hgood : Orderly Numbered table) (id : ℕ) (hs : At Unnumbered (· = table) 0 s) :
    Spec E (pedDiskDeletePartition label env id) s fun _ s' =>
      At Unnumbered (fun table' => Orderly Numbered table' ∧ Shrinks table table') 0 s' := by
  have hstart : Orderly Numbered table ∧ Shrinks table table :=
    ⟨hgood, Shrinks.refl hgood.links⟩
  refine At.delete h.allows (h.renumbers fun c hc => hc.1) (removesTo_removed _) ?_ id
    (hs.imp fun c hc => hc ▸ hstart)
  rintro t ⟨c, id, part, ⟨hc, hshrink⟩, hfind, hext, ht⟩ hpad
  exact (h.shrinks hc hfind hext t ht hpad).imp fun _ t' ⟨⟨hgood', hshrink', _⟩, hpad'⟩ =>
    ⟨⟨hgood', hshrink.trans hshrink'⟩, hpad'⟩

/-- A table with one partition in another place. -/
theorem Numbers.replace (h : Numbers label env E Numbered Trusts Carries)
    (hgood : Orderly Numbered table) {id : ℕ} {old : PedPartition π}
    (hold : table.find? id = some old) (geom : PedGeometry) :
    Orderly Numbered ((diskRawRemove table id).place { old with geom := geom }) ∧
      Shrinks table ((diskRawRemove table id).place { old with geom := geom }) := by
  obtain ⟨hmem, -, rfl⟩ := PedDisk.mem_of_find? hold
  have hsame : ∀ p, table.Has p → p.id = old.id → p = old := fun p hp hid =>
    hgood.links.eq_of_id hp hmem hid
  have htop : old.type.logical = false → old ∈ table.partList := fun hl =>
    hmem.resolve_right fun hlog => by simp [hgood.links.leveled.2 old hlog] at hl
  have hlog : old.type.logical = true → old ∈ table.logicals := fun hl =>
    hmem.resolve_left fun htop => by simp [hgood.links.leveled.1 old htop] at hl
  have hlink : Linkable table { old with geom := geom } := by
    refine ⟨hmem.elim (hgood.links.ids.1 old) (hgood.links.ids.2 old), ⟨fun p hp hid => ?_,
      fun p hp hid => ?_⟩, fun hl => hgood.links.linked (List.ne_nil_of_mem (hlog hl))⟩
    · rw [hsame p (Or.inl hp) hid]
    · rw [hsame p (Or.inr hp) hid]
  refine ⟨⟨hgood.links.place hlink, h.same _ _ ?_ hgood.nums⟩, ?_, ?_, diskSpecific_place _⟩
  · exact (hgood.links.sameNumbers_replace hold).trans (sameNumbers_place old geom)
  · have hnums : ((diskRawRemove table old.id).place { old with geom := geom }).Each
        (fun _ => True) fun p' => ∀ p ∈ table.logicals, p'.id = p.id → p'.num = p.num := by
      refine PedDisk.Each.place ⟨fun _ _ => trivial, fun p' hp' p hp hid => ?_⟩ (fun _ => trivial)
        fun _ p hp hid => ?_
      · rw [hgood.links.eq_of_id (Or.inr (mem_diskRawRemove_logicals.mp hp').1) (Or.inr hp) hid]
      · rw [hsame p (Or.inr hp) hid.symm]
    exact KeepsOrder.of_nums fun p hp p' hp' hid => hnums.2 p' hp' p hp hid
  · refine PedDisk.Each.place ⟨fun p hp => ⟨p, (mem_diskRawRemove_partList.mp hp).1, rfl⟩,
      fun p hp => ⟨p, (mem_diskRawRemove_logicals.mp hp).1, rfl⟩⟩ (fun hl => ⟨old, htop hl, rfl⟩)
      fun hl => ⟨old, hlog hl, rfl⟩

/-- **Moving** keeps all numbers. -/
theorem Numbers.setGeom (h : Numbers label env E Numbered Trusts Carries)
    (hgood : Orderly Numbered table) (id : ℕ) (constraint : Option PedConstraint)
    (start «end» : ℤ) (hs : At Unnumbered (· = table) 0 s) :
    Spec E (pedDiskSetPartitionGeom label env id constraint start «end») s fun _ s' =>
      At Unnumbered (fun table' => Orderly Numbered table' ∧ Shrinks table table') 0 s' := by
  have hmove : MovesTo label env E id constraint (· = table)
      fun table' => Orderly Numbered table' ∧ Shrinks table table' := by
    intro disk old part newGeom overlap thrown hcore hclean hmode hold hid htype hoverlap hk
    obtain ⟨-, hact, -⟩ := PedDisk.mem_of_find? hold
    refine (partitionAlign_total h.allows.other (h.aligns _ _ _)).imp fun r t _ _ => ?_
    refine (checkPartition_spec (fun what => h.allows.other _ (by simp [OtherFault]))
      (h.checks _ _)).imp fun ok _ _ _ => ?_
    have hplaced : ((diskRawRemove disk id).place { old with geom := r.2 }).core
        = (diskRawRemove disk id).core.place { old with geom := r.2 } :=
      PedDisk.Clean.core_place hclean.diskRawRemove hact
    rw [hplaced, core_diskRawRemove, hcore]
    exact h.replace hgood (by rw [← hcore, PedDisk.find?_core, hold]) r.2
  have hstart : Orderly Numbered table ∧ Shrinks table table :=
    ⟨hgood, Shrinks.refl hgood.links⟩
  refine (hs.setGeom h.allows (fun c hc => hc ▸ hgood.links) (h.renumbers fun c hc => hc ▸ hgood)
    hmove).imp fun ok s' hmoved => ?_
  obtain ⟨hyes, hno⟩ := hmoved
  cases ok with
  | true => exact hyes rfl
  | false => exact (hno rfl).imp fun c hc => hc ▸ hstart

/-- An object that numbering and aligning have been through, or not reached: `P` is what
the label says of the number it gives. -/
def Prepared (P : Bool × ℤ → Prop) (part part' : PedPartition π) : Prop :=
  part' = part ∨ ∃ ok num geom, P (ok, num) ∧ part' = { part with num := num, geom := geom }

theorem Prepared.id_type {P : Bool × ℤ → Prop} {part part' : PedPartition π}
    (h : Prepared P part part') : part'.id = part.id ∧ part'.type = part.type := by
  rcases h with rfl | ⟨ok, num, geom, -, rfl⟩
  · exact ⟨rfl, rfl⟩
  · exact ⟨rfl, rfl⟩

/-- The table with a new object on it, under the number the label gave it. -/
def PlacedAs (P : Bool × ℤ → Prop) (table : PedDisk π δ) (part : PedPartition π)
    (table' : PedDisk π δ) : Prop :=
  WellLinked table' ∧
    ∃ num geom, P (true, num) ∧ table' = table.place { part with num := num, geom := geom }

/-- Numbering and aligning an object that is to be added. -/
theorem addPartitionAlign_prepared {T : PedPartition π → Prop} (hE : Allows E T label env)
    (haligns : ∀ disk part constraint thrown,
      Spec E (label.partitionAlign env disk part constraint) thrown fun _ _ => True)
    {disk : PedDisk π δ} {part : PedPartition π} (constraint : Option PedConstraint)
    {thrown : List PedException} {P : Bool × ℤ → Prop}
    (hassign : ∀ thrown, Spec E (label.partitionEnumerate env disk part) thrown fun r _ => P r) :
    Spec E (addPartitionAlign label.toPedDiskOps env disk part constraint) thrown fun r _ =>
      Prepared P part r.2 ∧ (r.1 = true → ∃ num geom, P (true, num) ∧
        r.2 = { part with num := num, geom := geom }) := by
  unfold addPartitionAlign
  refine Spec.bind (Spec.lift (hE.fails partitionGetOverlapConstraint_fails) fun overlap _ => ?_)
  have hresolve : Spec E (resolveOverlap env overlap constraint) thrown fun _ _ => True := by
    unfold resolveOverlap
    dsimp only
    refine Spec.ite (fun _ => ?_) fun _ => trivial
    exact Spec.seq (R := fun _ _ => True) trivial fun ok t _ => by cases ok <;> trivial
  refine hresolve.seq fun r t _ => ?_
  cases r with
  | none => exact ⟨Or.inl rfl, fun hno => absurd hno Bool.false_ne_true⟩
  | some k =>
      refine (hassign t).seq fun r t' hP => ?_
      obtain ⟨ok, num⟩ := r
      cases ok with
      | false => exact ⟨Or.inr ⟨false, num, part.geom, hP, rfl⟩,
          fun hno => absurd hno Bool.false_ne_true⟩
      | true =>
          refine (partitionAlign_total hE.other (haligns _ _ _)).seq fun r t'' _ => ?_
          exact ⟨Or.inr ⟨true, num, r.2, hP, rfl⟩, fun _ => ⟨num, r.2, hP, rfl⟩⟩

/-- **Adding** an object that is not on the disk, by a label that numbers it as in `P`. -/
theorem At.addNumbered (hs : At Unnumbered (· = table) n s) (hE : Allows E Unnumbered label env)
    (haligns : ∀ disk part constraint thrown,
      Spec E (label.partitionAlign env disk part constraint) thrown fun _ _ => True)
    (hchecks : ∀ disk part thrown,
      Spec E (label.partitionCheck env disk part) thrown fun _ _ => True)
    (hrenum : Renumbers label env E Unnumbered (· = table) (· = table)) (hlinks : WellLinked table)
    {part : PedPartition π} (constraint : Option PedConstraint)
    (hnew : ∀ other, table.Has other → other.id ≠ part.id) (hact : part.isActive = true)
    {P : Bool × ℤ → Prop}
    (hassign : ∀ disk thrown, disk.Clean → disk.core = table →
      BasicSane label.toPedDiskOps s.disk part →
      Spec E (label.partitionEnumerate env disk part) thrown fun r _ => P r) :
    Spec E (pedDiskAddPartition label env part constraint) s fun r s' => Prepared P part r.2 ∧
      (r.1 = true → At Unnumbered (PlacedAs P table part) n s') ∧
      (r.1 = false → At Unnumbered (· = table) n s') := by
  refine At.add (R := Prepared P part) hs hE hrenum (Or.inl rfl) fun hid hsane => ?_
  intro disk thrown hcore hclean hmode
  unfold addPartitionAlignIfActive
  rw [if_pos hact]
  refine (addPartitionAlign_prepared hE haligns constraint
    fun thrown => hassign disk thrown hclean hcore hsane).imp fun r t ⟨hprep, hyes⟩ => ?_
  obtain ⟨hrid, hrtype⟩ := hprep.id_type
  have hract : r.2.isActive = true := by
    unfold PedPartition.isActive at hact ⊢
    rwa [hrtype]
  refine ⟨hprep, fun hno => absurd hract (by simp [hno]), fun hok => ?_⟩
  refine (checkPartition_spec (fun what => hE.other _ (by simp [OtherFault]))
    (hchecks _ _)).imp fun ok _ _ _ _ => ?_
  rw [hclean.core_place hract, hcore]
  obtain ⟨num, geom, hP, hplaced⟩ := hyes hok
  refine ⟨?_, num, geom, hP, by rw [hplaced]⟩
  have hlink : Linkable table r.2 := by
    refine ⟨hrid ▸ hid, ⟨fun p hp heq => ?_, fun p hp heq => ?_⟩, fun hl => ?_⟩
    · exact absurd (heq.trans hrid) (hnew p (Or.inl hp))
    · exact absurd (heq.trans hrid) (hnew p (Or.inr hp))
    · obtain ⟨ext, hext⟩ := Option.isSome_iff_exists.mp (hsane.parent (hrtype ▸ hl))
      obtain ⟨hmem, hisExt⟩ := mem_of_pedDiskExtendedPartition hext
      refine ⟨ext, ?_, hisExt⟩
      have hcore : ext ∈ s.disk.core.partList :=
        List.mem_filter.mpr ⟨hmem, PedPartition.isActive_of_isExtended hisExt⟩
      rwa [hs.table] at hcore
  exact hlinks.place_new hlink fun p hp => hrid ▸ hnew p hp

/-- What adding the object `part` makes of it, and of the table. -/
structure Added (Numbered : PedDisk π δ → Prop) (Trusts : ℤ → Prop) (table : PedDisk π δ)
    (part : PedPartition π) (table' : PedDisk π δ) : Prop where
  links : WellLinked table'
  exists_part : ∃ part' : PedPartition π, part'.id = part.id ∧ part'.type = part.type ∧
    table' = table.place part' ∧ (Trusts part.num → part'.num = part.num)
  nums : ¬ Clashes Trusts table part → Numbered table'

/-- **Adding** an object. -/
theorem Numbers.add (h : Numbers label env E Numbered Trusts Carries)
    (hgood : Orderly Numbered table) {part : PedPartition π} (constraint : Option PedConstraint)
    (hnew : ∀ other, table.Has other → other.id ≠ part.id) (hact : part.isActive = true)
    (hcarry : Carries table.diskSpecific part) (hs : At Unnumbered (· = table) 0 s) :
    Spec E (pedDiskAddPartition label env part constraint) s fun r s' =>
      (r.2.id = part.id ∧ r.2.type = part.type ∧ Carries table.diskSpecific r.2) ∧
      (r.1 = true → At Unnumbered (Added Numbered Trusts table part) 0 s') ∧
      (r.1 = false → At Unnumbered (· = table) 0 s') := by
  -- what the label says of the number
  let P : Bool × ℤ → Prop := fun r =>
    Carries table.diskSpecific { part with num := r.2 } ∧ (Trusts part.num → r.2 = part.num) ∧
      (r.1 = true → ¬ Clashes Trusts table part →
        Numbered (table.place { part with num := r.2 }))
  refine (hs.addNumbered (P := P) h.allows h.aligns h.checks (h.renumbers fun c hc => hc ▸ hgood)
    hgood.links constraint hnew hact fun disk thrown hclean hcore hsane => ?_).imp
    fun r s' ⟨hprep, hyes, hno⟩ => ?_
  · obtain rfl := hcore
    exact h.assigns disk s.disk part thrown hclean hgood.links hgood.nums hs.table hsane hnew hact
      hcarry
  obtain ⟨hrid, hrtype⟩ := hprep.id_type
  refine ⟨⟨hrid, hrtype, ?_⟩, fun hok => (hyes hok).imp ?_, hno⟩
  · rcases hprep with heq | ⟨ok, num, geom, hP, heq⟩
    · exact heq ▸ hcarry
    · exact heq ▸ h.carries_geom _ _ geom hP.1
  · rintro table' ⟨hlinks, num, geom, ⟨-, htrust, hnums⟩, rfl⟩
    refine ⟨hlinks, ⟨{ part with num := num, geom := geom }, rfl, rfl, rfl, htrust⟩,
      fun hclash => ?_⟩
    exact h.same _ _ (sameNumbers_place { part with num := num } geom) (hnums rfl hclash)

end Operations

/-! ## Runs -/

section Runs

variable {label : PedDiskType π δ} {env : Env} {E : Fault → Prop}
  {Numbered : PedDisk π δ → Prop} {Trusts : ℤ → Prop} {Carries : δ → PedPartition π → Prop}
  {client : Client π δ}

/-- A disk with its numbers in order, outside update mode, and no objects off it. -/
structure Client.Initial (Numbered : PedDisk π δ → Prop) (client : Client π δ) : Prop where
  links : WellLinked client.table
  nums : Numbered client.table
  mode : client.session.disk.updateMode = 0
  padding : client.session.disk.Padding Unnumbered
  ids : ∀ part, client.table.Has part → part.id < client.nextId
  loose : client.loose = []

/-- An object off the disk: it is not one of those on the disk, and its number is one the
label may have given it. -/
structure Client.Owns (Carries : δ → PedPartition π → Prop) (client : Client π δ)
    (part : PedPartition π) : Prop where
  id_lt : part.id < client.nextId
  off : ∀ other, client.table.Has other → other.id ≠ part.id
  active : part.isActive = true
  carries : Carries client.table.diskSpecific part

/-- What holds of a client at any time. -/
structure Client.Good (Numbered : PedDisk π δ → Prop) (Carries : δ → PedPartition π → Prop)
    (client : Client π δ) : Prop where
  session : At Unnumbered (Orderly Numbered) 0 client.session
  ids : ∀ part, client.table.Has part → part.id < client.nextId
  loose : ∀ object ∈ client.loose, client.Owns Carries object.part

theorem Client.Initial.good (h : client.Initial Numbered) : client.Good Numbered Carries :=
  ⟨⟨⟨h.links, h.nums⟩, h.mode, fun hne => absurd rfl hne, h.padding⟩, h.ids,
    fun object hobject => absurd hobject (by simp [h.loose])⟩

theorem Client.Good.at_table (h : client.Good Numbered Carries) :
    At Unnumbered (· = client.table) 0 client.session :=
  ⟨rfl, h.session.mode, h.session.clean, h.session.padding⟩

/-- The table has shrunk, or has not changed. -/
theorem Client.Good.shrink (h : client.Good Numbered Carries) {s : Session π δ}
    (hs : At Unnumbered (fun table => Orderly Numbered table ∧ Shrinks client.table table) 0 s) :
    Client.Good Numbered Carries { client with session := s } ∧
      KeepsOrder client.table s.disk.core := by
  obtain ⟨hgood, hshrink⟩ := hs.table
  refine ⟨⟨hs.imp fun _ hc => hc.1, fun part hpart => ?_, fun object hobject => ?_⟩,
    hshrink.order⟩
  · obtain ⟨p, hp, hid⟩ := hshrink.has hpart
    exact hid ▸ h.ids p hp
  · have hown := h.loose object hobject
    refine ⟨hown.id_lt, fun other hother => ?_, hown.active, ?_⟩
    · obtain ⟨p, hp, hid⟩ := hshrink.has hother
      exact hid ▸ hown.off p hp
    · have hspecific : s.disk.core.diskSpecific = client.table.diskSpecific := hshrink.specific
      exact hspecific.symm ▸ hown.carries

/-- The session of a client whose table has not changed. -/
theorem Client.Good.same (h : client.Good Numbered Carries) {s : Session π δ}
    (hs : At Unnumbered (· = client.table) 0 s) :
    Client.Good Numbered Carries { client with session := s } ∧
      KeepsOrder client.table s.disk.core := by
  have hstart : Orderly Numbered client.table ∧ Shrinks client.table client.table :=
    ⟨h.session.table, Shrinks.refl h.session.table.links⟩
  exact h.shrink (hs.imp fun c hc => hc ▸ hstart)

theorem Client.Good.own (h : client.Good Numbered Carries) {object : LoosePartition π}
    (hobject : client.Owns Carries object.part) :
    Client.Good Numbered Carries { client with loose := object :: client.loose } := by
  refine ⟨h.session, h.ids, fun other hother => ?_⟩
  rcases List.mem_cons.mp hother with rfl | hother
  · exact ⟨hobject.id_lt, hobject.off, hobject.active, hobject.carries⟩
  · have hown := h.loose other hother
    exact ⟨hown.id_lt, hown.off, hown.active, hown.carries⟩

theorem Client.Good.drop (h : client.Good Numbered Carries) (P : LoosePartition π → Bool) :
    Client.Good Numbered Carries { client with loose := client.loose.filter P } :=
  ⟨h.session, h.ids, fun object hobject =>
    have hown := h.loose object (List.mem_filter.mp hobject).1
    ⟨hown.id_lt, hown.off, hown.active, hown.carries⟩⟩

theorem PartitionKind.isActive (kind : PartitionKind) (id : ℕ) (num : ℤ) (geom : PedGeometry)
    (data : Option π) : PedPartition.isActive ⟨id, kind.type, num, geom, data⟩ = true := by
  cases kind <;> rfl

theorem pedPartitionNew_spec {ops : PedDiskOps π δ} {id : ℕ} {kind : PartitionKind} {data : π}
    {start «end» : ℤ} {thrown : List PedException} :
    Spec (· = .assertion "start >= 0") (pedPartitionNew ops env id kind data start «end») thrown
      fun r _ => ∀ part ∈ r, (ops.extended = false → kind = .normal) ∧
        ∃ geom, part = ⟨id, kind.type, -1, geom, some data⟩ := by
  unfold pedPartitionNew
  refine Spec.ite (fun _ => fun part hpart => by cases hpart) fun hkind => ?_
  have hnormal : ops.extended = false → kind = .normal := by
    intro hext
    cases kind <;> simp_all
  refine pedGeometryInit_spec.seq fun r t _ => ?_
  cases r with
  | none => exact fun part hpart => by cases hpart
  | some geom => exact fun part hpart => ⟨hnormal, geom, (Option.some.inj hpart).symm⟩

/-- What `ped_partition_new` makes of a client. -/
theorem clientNew_spec {T : PedPartition π → Prop} (hE : Allows E T label env)
    (kind : PartitionKind) (data : π) (start «end» : ℤ) :
    Spec E (clientNew label env kind data start «end») client fun _ client' => ∃ thrown,
      client' = { client with session := { client.session with thrown := thrown } } ∨
      (label.extended = false → kind = .normal) ∧ ∃ geom, client' =
        { session := { client.session with thrown := thrown }
          loose := ⟨⟨client.nextId, kind.type, -1, geom, some data⟩, false⟩ :: client.loose
          nextId := client.nextId + 1 } := by
  unfold clientNew
  refine Spec.bind (spec_get.mpr (Spec.bind (spec_onDisk.mpr (spec_ask.mpr
    (pedPartitionNew_spec.mono (fun f hf => hE.other f ?_) fun r thrown hr => ?_)))))
  · rw [hf]
    simp [OtherFault]
  cases r with
  | none => exact ⟨thrown, Or.inl rfl⟩
  | some part =>
      obtain ⟨hkind, geom, rfl⟩ := hr part rfl
      exact ⟨thrown, Or.inr ⟨hkind, geom, rfl⟩⟩

theorem Client.Good.make (h : client.Good Numbered Carries) (kind : PartitionKind)
    (geom : PedGeometry) (data : π) (linked : Bool)
    (hcarry : Carries client.table.diskSpecific ⟨client.nextId, kind.type, -1, geom, some data⟩) :
    Client.Good Numbered Carries { client with
      loose := ⟨⟨client.nextId, kind.type, -1, geom, some data⟩, linked⟩ :: client.loose
      nextId := client.nextId + 1 } := by
  refine ⟨h.session, fun p hp => Nat.lt_succ_of_lt (h.ids p hp), fun object ho => ?_⟩
  rcases List.mem_cons.mp ho with rfl | ho
  · exact ⟨Nat.lt_succ_self _, fun p hp => (h.ids p hp).ne, kind.isActive _ _ _ _, hcarry⟩
  · have hown := h.loose object ho
    exact ⟨Nat.lt_succ_of_lt hown.id_lt, hown.off, hown.active, hown.carries⟩

theorem Numbers.clientNew (h : Numbers label env E Numbered Trusts Carries)
    (hgood : client.Good Numbered Carries) (kind : PartitionKind) (data : π) (start «end» : ℤ) :
    Spec E (clientNew label env kind data start «end») client fun _ client' =>
      client'.Good Numbered Carries ∧ KeepsOrder client.table client'.table := by
  refine (clientNew_spec h.allows kind data start «end»).imp fun _ client' ⟨thrown, hclient⟩ => ?_
  obtain ⟨hsame, horder⟩ := hgood.same (hgood.at_table.thrown thrown)
  rcases hclient with rfl | ⟨hkind, geom, rfl⟩
  · exact ⟨hsame, horder⟩
  · exact ⟨hsame.make kind geom data false (h.carries_new _ _ _ _ _ hkind), horder⟩

/-- What `ped_disk_add_partition` makes of a client, given what it does to the disk and the
object. -/
theorem clientAdd_spec {T : PedPartition π → Prop} (hE : Allows E T label env) (id : ℕ)
    (constraint : Option PedConstraint)
    {Q : LoosePartition π → Bool × PedPartition π → Session π δ → Prop}
    (hadd : ∀ object ∈ client.loose, object.part.id = id →
      Spec E (pedDiskAddPartition label env object.part constraint) client.session (Q object)) :
    Spec E (clientAdd label env id constraint) client fun _ client' =>
      ∃ object ∈ client.loose, object.part.id = id ∧ ∃ s part,
        (Q object (true, part) s ∧ client' =
          { client with session := s, loose := client.loose.filter (·.part.id ≠ id) }) ∨
        (Q object (false, part) s ∧ client' =
          { client with
            session := s
            loose := ⟨part, object.linked⟩ :: client.loose.filter (·.part.id ≠ id) }) := by
  unfold clientAdd
  refine Spec.bind (spec_get.mpr ?_)
  cases hfind : client.loose.find? (·.part.id = id) with
  | none => exact hE.other _ (by simp [OtherFault])
  | some object =>
      have hmem := List.mem_of_find?_eq_some hfind
      have hid : object.part.id = id := by simpa using List.find?_some hfind
      refine Spec.bind (spec_onDisk.mpr ((hadd object hmem hid).imp fun r s hQ => ?_))
      obtain ⟨ok, part⟩ := r
      cases ok with
      | true =>
          simp only [if_true]
          refine Spec.ite (fun _ => ?_) fun _ => ?_
          · exact hE.other _ (by simp [OtherFault])
          · exact ⟨object, hmem, hid, s, part, Or.inl ⟨hQ, rfl⟩⟩
      | false => exact ⟨object, hmem, hid, s, part, Or.inr ⟨hQ, rfl⟩⟩

/-- A client whose object could not be added: it keeps the object, as the call left it. -/
theorem Client.Good.refused (h : client.Good Numbered Carries) {object : LoosePartition π}
    (hmem : object ∈ client.loose) {s : Session π δ} (hs : At Unnumbered (· = client.table) 0 s)
    {part : PedPartition π} (hid : part.id = object.part.id) (htype : part.type = object.part.type)
    (hcarry : Carries client.table.diskSpecific part) :
    Client.Good Numbered Carries { client with
      session := s
      loose := ⟨part, object.linked⟩ ::
        client.loose.filter (·.part.id ≠ object.part.id) } := by
  obtain ⟨hsame, -⟩ := h.same hs
  have htable : s.disk.core = client.table := hs.table
  have hown := h.loose object hmem
  refine (hsame.drop (·.part.id ≠ object.part.id)).own ⟨?_, fun other hother => ?_, ?_, ?_⟩
  · exact hid ▸ hown.id_lt
  · exact hid ▸ hown.off other (htable ▸ hother)
  · have hact := hown.active
    unfold PedPartition.isActive at hact ⊢
    rwa [htype]
  · have hspecific : s.disk.core.diskSpecific = client.table.diskSpecific := by rw [htable]
    exact hspecific.symm ▸ hcarry

/-- What adding an object leads to, on success and on failure. -/
theorem Numbers.clientAdd (h : Numbers label env E Numbered Trusts Carries)
    (hgood : client.Good Numbered Carries) (id : ℕ) (constraint : Option PedConstraint) :
    Spec E (clientAdd label env id constraint) client fun _ client' =>
      ∃ object ∈ client.loose, object.part.id = id ∧
        ((∃ s, At Unnumbered (Added Numbered Trusts client.table object.part) 0 s ∧ client' =
            { client with session := s, loose := client.loose.filter (·.part.id ≠ id) }) ∨
          (client'.Good Numbered Carries ∧ client'.table = client.table)) := by
  refine (clientAdd_spec h.allows id constraint fun object hmem _ =>
    h.add hgood.session.table constraint (hgood.loose object hmem).off
      (hgood.loose object hmem).active (hgood.loose object hmem).carries hgood.at_table).imp ?_
  rintro _ client' ⟨object, hmem, rfl, s, part, ⟨⟨-, hyes, -⟩, rfl⟩ | ⟨⟨hpart, -, hno⟩, rfl⟩⟩
  · exact ⟨object, hmem, rfl, Or.inl ⟨s, hyes rfl, rfl⟩⟩
  · exact ⟨object, hmem, rfl, Or.inr ⟨hgood.refused hmem (hno rfl) hpart.1 hpart.2.1 hpart.2.2,
      (hno rfl).table⟩⟩

/-- A client after an object has been added. -/
theorem Client.Good.placed (h : client.Good Numbered Carries) {object : LoosePartition π}
    (hmem : object ∈ client.loose) (hclash : ¬ Clashes Trusts client.table object.part)
    {s : Session π δ} (hs : At Unnumbered (Added Numbered Trusts client.table object.part) 0 s) :
    Client.Good Numbered Carries { client with
      session := s, loose := client.loose.filter (·.part.id ≠ object.part.id) } ∧
      KeepsOrder client.table s.disk.core := by
  have hown := h.loose object hmem
  obtain ⟨part, hpid, -, htable, -⟩ := hs.table.exists_part
  have hspecific : s.disk.core.diskSpecific = client.table.diskSpecific := by
    rw [htable, diskSpecific_place]
  have hhas : ∀ other, s.disk.core.Has other → other = part ∨ client.table.Has other :=
    fun other hother => mem_place.mp (htable ▸ hother)
  refine ⟨⟨hs.imp fun _ hc => ⟨hc.links, hc.nums hclash⟩, fun other hother => ?_,
    fun other hother => ?_⟩, ?_⟩
  · rcases hhas other hother with rfl | hother
    · exact hpid.symm ▸ hown.id_lt
    · exact h.ids other hother
  · obtain ⟨hother, hne⟩ := List.mem_filter.mp hother
    have hown' := h.loose other hother
    refine ⟨hown'.id_lt, fun p hp => ?_, hown'.active, hspecific.symm ▸ hown'.carries⟩
    rcases hhas p hp with rfl | hp
    · rw [hpid]
      exact fun heq => by simp [heq] at hne
    · exact hown'.off p hp
  · refine KeepsOrder.of_nums fun p hp p' hp' hid => ?_
    rcases hhas p' (Or.inr hp') with rfl | hp'
    · exact absurd (hid.symm.trans hpid) (hown.off p (Or.inr hp))
    · rw [h.session.table.links.eq_of_id hp' (Or.inr hp) hid]

/-- **One call** that adds no object under a number in use keeps the numbers in order. -/
theorem Numbers.call (h : Numbers label env E Numbered Trusts Carries)
    (hgood : client.Good Numbered Carries) (call : ClientCall π)
    (hcall : Admits Trusts client call) :
    Spec E (call.run label env) client fun _ client' =>
      client'.Good Numbered Carries ∧ KeepsOrder client.table client'.table := by
  cases call with
  | new kind data start «end» => exact h.clientNew hgood kind data start «end»
  | add id constraint =>
      refine (h.clientAdd hgood id constraint).imp ?_
      rintro _ client' ⟨object, hmem, rfl, ⟨s, hs, rfl⟩ | ⟨hgood', htable⟩⟩
      · exact hgood.placed hmem (hcall object hmem rfl).1 hs
      · refine ⟨hgood', KeepsOrder.of_nums fun p hp p' hp' hid => ?_⟩
        rw [htable] at hp'
        rw [hgood.session.table.links.eq_of_id (Or.inr hp') (Or.inr hp) hid]
  | remove id =>
      refine Spec.bind (spec_get.mpr (Spec.bind (spec_onDisk.mpr
        ((h.remove hgood.session.table id hgood.at_table).imp ?_))))
      rintro _ s ⟨part, rfl, hfind, hs⟩
      obtain ⟨hshrunk, horder⟩ := hgood.shrink (hs.imp fun _ hc => ⟨hc.1, hc.2.1⟩)
      obtain ⟨hmem, hact, hid⟩ := PedDisk.mem_of_find? hfind
      refine ⟨hshrunk.own ⟨hgood.ids part hmem, fun other hother => ?_, hact, ?_⟩, horder⟩
      · exact hid.symm ▸ hs.table.2.2 other hother
      · have hspecific : s.disk.core.diskSpecific = client.table.diskSpecific :=
          hs.table.2.1.specific
        exact hspecific.symm ▸ h.carries_on _ part hgood.session.table.links
          hgood.session.table.nums hmem
  | delete id =>
      exact Spec.bind (spec_onDisk.mpr ((h.delete hgood.session.table id hgood.at_table).imp
        fun _ _ hs => hgood.shrink hs))
  | setGeom id constraint start «end» =>
      exact Spec.bind (spec_onDisk.mpr ((h.setGeom hgood.session.table id constraint start «end»
        hgood.at_table).imp fun _ _ hs => hgood.shrink hs))

/-- **The numbers stay in order** along every run of such calls. -/
theorem Reachable.good (h : Numbers label env E Numbered Trusts Carries)
    (hreach : Reachable label env Trusts (Client.Initial Numbered) client) :
    client.Good Numbered Carries := by
  induction hreach with
  | start hstart => exact hstart.good
  | call call _ hcall hrun ih => exact ((h.call ih call hcall).of_ok hrun).1

/-- **An object that is added under a number in use** puts the numbers out of order. -/
theorem Numbers.clash (h : Numbers label env E Numbered Trusts Carries)
    (hgood : client.Good Numbered Carries) (id : ℕ) (constraint : Option PedConstraint)
    (hclash : ∀ object ∈ client.loose, object.part.id = id →
      Clashes Trusts client.table object.part) :
    Spec E (ClientCall.run label env (.add id constraint)) client fun _ client' =>
      (∃ part, client'.table.Has part ∧ part.id = id) → ¬ Numbered client'.table := by
  refine (h.clientAdd hgood id constraint).imp ?_
  rintro _ client' ⟨object, hmem, hid, ⟨s, hs, rfl⟩ | ⟨-, htable⟩⟩ hadded hnums
  · obtain ⟨htrust, other, hother, hnum⟩ := hclash object hmem hid
    obtain ⟨part, hpid, -, hplaced, hkept⟩ := hs.table.exists_part
    have hdistinct := h.distinct _ hnums
    have hhas : ∀ p, s.disk.core.Has p → p ∈ s.disk.core.partList ++ s.disk.core.logicals :=
      fun p hp => List.mem_append.mpr hp
    -- both the object and the partition that has its number are on the table
    have heq : other = part := List.inj_on_of_nodup_map hdistinct
      (hhas other (hplaced ▸ mem_place.mpr (Or.inr hother)))
      (hhas part (hplaced ▸ mem_place.mpr (Or.inl rfl))) (hnum.trans (hkept htrust).symm)
    exact (hgood.loose object hmem).off other hother (heq ▸ hpid)
  · obtain ⟨part, hpart, hpid⟩ := hadded
    exact (hgood.loose object hmem).off part (htable ▸ hpart) (hpid.trans hid.symm)

end Runs

end Libparted
