import Libparted.Disk.Operations

/-!
# The layout of a table

A table is a disk seen without its placeholders.  This module says, without any
program, which tables are laid out well and which changes keep them so.

`WellLinked` collects what the C data structure guarantees by itself: objects
occur once, logical partitions hang below an extended one, and every entry is on
the list its type asks for.  `NonOverlapping` is the condition that the
operations have to maintain.  The two changes are `diskRawRemove` and
`PedDisk.place`, the pure part of `_disk_raw_add`; every operation on a table is
one of them or the first followed by the second.
-/

namespace Libparted

open Library

variable {π δ : Type}

/-- What the linked lists guarantee of the entries of a table. -/
@[mk_iff]
structure WellLinked (table : PedDisk π δ) : Prop where
  nodup : ((table.partList ++ table.logicals).map (·.id)).Nodup
  ids : table.Each (·.id ≠ 0) (·.id ≠ 0)
  leveled : table.Leveled
  linked : table.logicals ≠ [] → ∃ ext ∈ table.partList, ext.isExtended = true

/-- The partitions of both levels are pairwise disjoint, in increasing order and
inside the device or the extended partition, of which there is at most one. -/
@[mk_iff]
structure NonOverlapping (dev : PedDevice) (table : PedDisk π δ) : Prop where
  top : Ordered PedPartition.lo PedPartition.hi table.partList
  inside : ∀ part ∈ table.partList, part.geom.InsideDevice dev
  oneExtended : ∀ a ∈ table.partList, ∀ b ∈ table.partList,
    a.isExtended = true → b.isExtended = true → a.id = b.id
  logical : Ordered PedPartition.lo PedPartition.hi table.logicals
  within : ∀ ext ∈ table.partList, ext.isExtended = true → ∀ part ∈ table.logicals,
    pedGeometryTestInside ext.geom part.geom = true

/-- A table that is well linked and well laid out. -/
structure Sound (dev : PedDevice) (table : PedDisk π δ) : Prop where
  links : WellLinked table
  layout : NonOverlapping dev table

/-- Links an object into its list, the pure part of `_disk_raw_add`. -/
def PedDisk.place (disk : PedDisk π δ) (part : PedPartition π) : PedDisk π δ :=
  if part.type.logical then
    { disk with logicals := insertOrdered PedPartition.lo PedPartition.hi part disk.logicals }
  else { disk with partList := insertOrdered PedPartition.lo PedPartition.hi part disk.partList }

theorem PedDisk.place_logical {disk : PedDisk π δ} {part : PedPartition π}
    (h : part.type.logical = true) : disk.place part = { disk with
      logicals := insertOrdered PedPartition.lo PedPartition.hi part disk.logicals } := if_pos h

theorem PedDisk.place_top {disk : PedDisk π δ} {part : PedPartition π}
    (h : part.type.logical = false) : disk.place part = { disk with
      partList := insertOrdered PedPartition.lo PedPartition.hi part disk.partList } :=
  if_neg (by simp [h])

/-- Placing an entry keeps what all entries have and the new one has, too. -/
theorem PedDisk.Each.place {P Q : PedPartition π → Prop} {disk : PedDisk π δ}
    {part : PedPartition π} (h : disk.Each P Q) (hP : part.type.logical = false → P part)
    (hQ : part.type.logical = true → Q part) : (disk.place part).Each P Q := by
  cases hl : part.type.logical with
  | true =>
      rw [PedDisk.place_logical hl]
      refine ⟨h.1, fun p hp => ?_⟩
      rcases mem_insertOrdered.mp hp with rfl | hp
      · exact hQ hl
      · exact h.2 p hp
  | false =>
      rw [PedDisk.place_top hl]
      refine ⟨fun p hp => ?_, h.2⟩
      rcases mem_insertOrdered.mp hp with rfl | hp
      · exact hP hl
      · exact h.1 p hp

theorem PedDisk.Clean.place {disk : PedDisk π δ} {part : PedPartition π} (h : disk.Clean)
    (hpart : part.isActive = true) : (disk.place part).Clean :=
  PedDisk.Each.place h (fun _ => hpart) fun _ => hpart

theorem PedDisk.strip_place {disk : PedDisk π δ} {part : PedPartition π}
    (h : part.isActive = false) : (disk.place part).strip = disk.strip := by
  cases hl : part.type.logical with
  | true => simp [PedDisk.place_logical hl, PedDisk.strip, filter_insertOrdered h]
  | false => simp [PedDisk.place_top hl, PedDisk.strip, filter_insertOrdered h]

theorem PedDisk.place_withMode (disk : PedDisk π δ) (n : ℕ) (part : PedPartition π) :
    (disk.withMode n).place part = (disk.place part).withMode n := by
  unfold PedDisk.place
  split <;> rfl

/-- Placing a partition on a clean disk and taking its table commute. -/
theorem PedDisk.Clean.core_place {disk : PedDisk π δ} {part : PedPartition π} (h : disk.Clean)
    (hpart : part.isActive = true) : (disk.place part).core = disk.core.place part := by
  calc (disk.place part).core = (disk.place part).withMode 0 := by
        unfold PedDisk.core
        rw [(h.place hpart).strip_eq]
    _ = ((disk.core.withMode disk.updateMode).place part).withMode 0 := by rw [← h.eq_core]
    _ = disk.core.place part := by
        rw [PedDisk.place_withMode]
        unfold PedDisk.place
        split <;> rfl

theorem core_place_inactive {disk : PedDisk π δ} {part : PedPartition π}
    (h : part.isActive = false) : (disk.place part).core = disk.core :=
  congrArg (PedDisk.withMode · 0) (PedDisk.strip_place h)

theorem pedDiskExtendedPartition_core (disk : PedDisk π δ) :
    pedDiskExtendedPartition disk.core = pedDiskExtendedPartition disk := by
  simp only [pedDiskExtendedPartition, PedDisk.core, PedDisk.strip, PedDisk.withMode,
    List.find?_filter]
  congr 1
  funext p
  cases hext : p.isExtended with
  | false => simp
  | true => simp [PedPartition.isActive_of_isExtended hext]

theorem pedDiskExtendedPartition_place {disk : PedDisk π δ} {part : PedPartition π}
    (h : part.isActive = false) :
    pedDiskExtendedPartition (disk.place part) = pedDiskExtendedPartition disk := by
  rw [← pedDiskExtendedPartition_core, core_place_inactive h, pedDiskExtendedPartition_core]

theorem diskRawRemove_eq_self {disk : PedDisk π δ} {id : ℕ} (hclean : disk.Clean)
    (h : disk.find? id = none) : diskRawRemove disk id = disk := by
  have hno : ∀ p ∈ disk.partList ++ disk.logicals, p.id ≠ id := by
    intro p hp heq
    have hact : p.isActive = true := (List.mem_append.mp hp).elim (hclean.1 p) (hclean.2 p)
    have := List.find?_eq_none.mp h p hp
    simp [hact, heq] at this
  unfold diskRawRemove
  rw [List.filter_eq_self.mpr fun p hp => by simpa using hno p (List.mem_append_left _ hp),
    List.filter_eq_self.mpr fun p hp => by simpa using hno p (List.mem_append_right _ hp)]

theorem mem_of_pedDiskExtendedPartition {disk : PedDisk π δ} {ext : PedPartition π}
    (h : pedDiskExtendedPartition disk = some ext) :
    ext ∈ disk.partList ∧ ext.isExtended = true :=
  ⟨List.mem_of_find?_eq_some h, List.find?_some h⟩

theorem PedDisk.Each.diskRawRemove {P Q : PedPartition π → Prop} {disk : PedDisk π δ} {id : ℕ}
    (h : disk.Each P Q) : (diskRawRemove disk id).Each P Q :=
  h.subset (fun _ hpart => (List.mem_filter.mp hpart).1) fun _ hpart => (List.mem_filter.mp hpart).1

/-! ## Numbers and geometries -/

section

variable {dev : PedDevice} {table : PedDisk π δ}

theorem wellLinked_withMode {n : ℕ} : WellLinked (table.withMode n) ↔ WellLinked table := by
  rw [wellLinked_iff, wellLinked_iff]
  rfl

theorem sound_withMode {n : ℕ} : Sound dev (table.withMode n) ↔ Sound dev table := by
  have hlayout : NonOverlapping dev (table.withMode n) ↔ NonOverlapping dev table := by
    rw [nonOverlapping_iff, nonOverlapping_iff]
    rfl
  exact ⟨fun h => ⟨wellLinked_withMode.mp h.links, hlayout.mp h.layout⟩,
    fun h => ⟨wellLinked_withMode.mpr h.links, hlayout.mpr h.layout⟩⟩

@[simp] theorem PedPartition.isExtended_num (part : PedPartition π) (num : ℤ) :
    PedPartition.isExtended { part with num := num } = part.isExtended := rfl

/-- The links of a table do not depend on its numbers. -/
theorem wellLinked_unnumbered : WellLinked table.unnumbered ↔ WellLinked table := by
  rw [wellLinked_iff, wellLinked_iff]
  simp [PedDisk.unnumbered, PedDisk.Each, PedDisk.Leveled, Function.comp_def]

/-- The layout of a table does not depend on its numbers. -/
theorem nonOverlapping_unnumbered :
    NonOverlapping dev table.unnumbered ↔ NonOverlapping dev table := by
  have hord : ∀ l : List (PedPartition π), Ordered PedPartition.lo PedPartition.hi
      (l.map fun part => { part with num := 0 }) ↔ Ordered PedPartition.lo PedPartition.hi l :=
    fun l => List.pairwise_map
  rw [nonOverlapping_iff, nonOverlapping_iff]
  simp [PedDisk.unnumbered, hord]

theorem WellLinked.renumbered {table' : PedDisk π δ} (h : WellLinked table)
    (heq : table'.unnumbered = table.unnumbered) : WellLinked table' := by
  rw [← wellLinked_unnumbered, heq, wellLinked_unnumbered]
  exact h

theorem Sound.renumbered {table' : PedDisk π δ} (h : Sound dev table)
    (heq : table'.unnumbered = table.unnumbered) : Sound dev table' := by
  refine ⟨h.links.renumbered heq, ?_⟩
  rw [← nonOverlapping_unnumbered, heq, nonOverlapping_unnumbered]
  exact h.layout

/-! ## Looking up and changing one entry -/

theorem PedDisk.mem_of_find? {disk : PedDisk π δ} {id : ℕ} {part : PedPartition π}
    (h : disk.find? id = some part) :
    (part ∈ disk.partList ∨ part ∈ disk.logicals) ∧ part.isActive = true ∧ part.id = id := by
  have hmem := List.mem_of_find?_eq_some h
  have hid := List.find?_some h
  exact ⟨List.mem_append.mp hmem, by simpa using hid⟩

/-- Looking up a partition does not see placeholders. -/
theorem PedDisk.find?_core (disk : PedDisk π δ) (id : ℕ) : disk.core.find? id = disk.find? id := by
  simp only [find?, core, strip, withMode, ← List.filter_append, List.find?_filter]
  congr 1
  funext part
  cases part.isActive <;> simp

theorem PedDisk.find?_unnumbered (disk : PedDisk π δ) (id : ℕ) :
    disk.unnumbered.find? id = (disk.find? id).map fun part => { part with num := 0 } := by
  simp only [find?, unnumbered, ← List.map_append, List.find?_map]
  rfl

/-- On a well linked table an `id` belongs to one entry. -/
theorem WellLinked.eq_of_id (h : WellLinked table) {a b : PedPartition π}
    (ha : a ∈ table.partList ∨ a ∈ table.logicals)
    (hb : b ∈ table.partList ∨ b ∈ table.logicals) (hid : a.id = b.id) : a = b :=
  List.inj_on_of_nodup_map h.nodup (List.mem_append.mpr ha) (List.mem_append.mpr hb) hid

section SetGeom

variable (disk : PedDisk π δ) (id : ℕ) (g g' : PedGeometry)

theorem PedDisk.setGeom_setGeom : (disk.setGeom id g).setGeom id g' = disk.setGeom id g' := by
  simp only [setGeom, update, PedDisk.mk.injEq, List.map_map, and_true]
  constructor <;> refine List.map_congr_left fun part _ => ?_ <;>
    by_cases hid : part.id = id <;> simp [hid]

theorem PedDisk.core_setGeom : (disk.setGeom id g).core = disk.core.setGeom id g := by
  have h : ∀ l : List (PedPartition π),
      (l.map fun part => if part.id = id then { part with geom := g } else part).filter
          PedPartition.isActive
        = (l.filter PedPartition.isActive).map
          fun part => if part.id = id then { part with geom := g } else part := by
    intro l
    rw [List.filter_map]
    congr 1
    refine List.filter_congr fun part _ => ?_
    simp only [Function.comp_apply]
    split <;> rfl
  simp only [core, strip, withMode, setGeom, update, h]

variable {disk id g}

theorem PedDisk.setGeom_eq_self
    (h : disk.Each (fun part => part.id = id → part.geom = g)
      (fun part => part.id = id → part.geom = g)) : disk.setGeom id g = disk := by
  have hl : ∀ l : List (PedPartition π), (∀ part ∈ l, part.id = id → part.geom = g) →
      l.map (fun part => if part.id = id then { part with geom := g } else part) = l := by
    intro l hl
    conv_rhs => rw [← List.map_id l]
    refine List.map_congr_left fun part hpart => ?_
    by_cases hid : part.id = id
    · rw [if_pos hid, ← hl part hpart hid]
      rfl
    · simp [hid]
  simp only [setGeom, update, hl _ h.1, hl _ h.2]

/-- Storing the old geometry of a partition again changes nothing. -/
theorem WellLinked.setGeom_self (h : WellLinked disk) {old : PedPartition π}
    (hold : disk.find? id = some old) : disk.setGeom id old.geom = disk := by
  obtain ⟨hmem, -, hid⟩ := PedDisk.mem_of_find? hold
  refine PedDisk.setGeom_eq_self ⟨fun p hp hpid => ?_, fun p hp hpid => ?_⟩
  · rw [h.eq_of_id (Or.inl hp) hmem (hpid.trans hid.symm)]
  · rw [h.eq_of_id (Or.inr hp) hmem (hpid.trans hid.symm)]

theorem PedDisk.Each.setGeom {P Q : PedPartition π → Prop} (h : disk.Each P Q)
    (hP : ∀ part, P part → P { part with geom := g })
    (hQ : ∀ part, Q part → Q { part with geom := g }) : (disk.setGeom id g).Each P Q := by
  constructor
  · intro p hp
    obtain ⟨part, hpart, rfl⟩ := List.mem_map.mp hp
    split
    · exact hP part (h.1 part hpart)
    · exact h.1 part hpart
  · intro p hp
    obtain ⟨part, hpart, rfl⟩ := List.mem_map.mp hp
    split
    · exact hQ part (h.2 part hpart)
    · exact h.2 part hpart

theorem PedDisk.Clean.setGeom (h : disk.Clean) : (disk.setGeom id g).Clean :=
  PedDisk.Each.setGeom h (fun _ hpart => hpart) fun _ hpart => hpart

theorem PedDisk.Padding.setGeom {T : PedPartition π → Prop} (h : disk.Padding T)
    (hT : ∀ part geom, T part → T { part with geom := geom }) : (disk.setGeom id g).Padding T :=
  PedDisk.Each.setGeom h (fun _ hpart hno => hT _ _ (hpart hno))
    fun _ hpart hno => hT _ _ (hpart hno)

/-- An entry found after a change of its geometry. -/
theorem PedDisk.find?_setGeom {part : PedPartition π}
    (h : (disk.setGeom id g).find? id = some part) :
    part.geom = g ∧ ∃ old, disk.find? id = some old ∧ part = { old with geom := g } := by
  have hfind : (disk.setGeom id g).find? id
      = (disk.find? id).map fun old => { old with geom := g } := by
    simp only [find?, setGeom, update, ← List.map_append]
    generalize disk.partList ++ disk.logicals = l
    rw [List.find?_map]
    have hpred : ((fun part : PedPartition π => part.isActive && decide (part.id = id)) ∘
        fun part => if part.id = id then { part with geom := g } else part)
        = fun part => part.isActive && decide (part.id = id) := by
      funext part
      by_cases hp : part.id = id <;> simp [hp, PedPartition.isActive]
    rw [hpred]
    refine Option.map_congr fun part hpart => ?_
    have := List.find?_some hpart
    simp only [Bool.and_eq_true, decide_eq_true_eq] at this
    rw [if_pos this.2]
  rw [hfind] at h
  obtain ⟨old, hold, rfl⟩ := Option.map_eq_some_iff.mp h
  exact ⟨rfl, old, hold, rfl⟩

end SetGeom

/-! ## Removing and placing -/

theorem mem_diskRawRemove_partList {disk : PedDisk π δ} {id : ℕ} {part : PedPartition π} :
    part ∈ (diskRawRemove disk id).partList ↔ part ∈ disk.partList ∧ part.id ≠ id := by
  simp [diskRawRemove]

theorem mem_diskRawRemove_logicals {disk : PedDisk π δ} {id : ℕ} {part : PedPartition π} :
    part ∈ (diskRawRemove disk id).logicals ↔ part ∈ disk.logicals ∧ part.id ≠ id := by
  simp [diskRawRemove]

/-- Removing an object keeps everything except the link from the logical
partitions to the extended one. -/
theorem Sound.remove_layout (h : Sound dev table) (id : ℕ) :
    NonOverlapping dev (diskRawRemove table id) := by
  obtain ⟨-, htop, hin, hone, hlog, hwith⟩ := h
  refine ⟨htop.sublist List.filter_sublist, ?_, ?_, hlog.sublist List.filter_sublist, ?_⟩
  · intro part hpart
    exact hin part (mem_diskRawRemove_partList.mp hpart).1
  · intro a ha b hb
    exact hone a (mem_diskRawRemove_partList.mp ha).1 b (mem_diskRawRemove_partList.mp hb).1
  · intro ext hext hisExt part hpart
    exact hwith ext (mem_diskRawRemove_partList.mp hext).1 hisExt part
      (mem_diskRawRemove_logicals.mp hpart).1

theorem WellLinked.remove_nodup (h : WellLinked table) (id : ℕ) :
    (((diskRawRemove table id).partList ++ (diskRawRemove table id).logicals).map (·.id)).Nodup :=
  h.nodup.sublist ((List.filter_sublist.append List.filter_sublist).map _)

/-- Removing a partition that is not an extended one with logical partitions. -/
theorem WellLinked.remove (h : WellLinked table) {id : ℕ} {part : PedPartition π}
    (hfind : table.find? id = some part) (hext : part.isExtended = true → table.logicals = []) :
    WellLinked (diskRawRemove table id) := by
  refine ⟨h.remove_nodup id, h.ids.diskRawRemove, h.leveled.diskRawRemove, fun hne => ?_⟩
  have hlog : table.logicals ≠ [] := fun heq => hne (by simp [diskRawRemove, heq])
  obtain ⟨ext, hmem, hisExt⟩ := h.linked hlog
  refine ⟨ext, mem_diskRawRemove_partList.mpr ⟨hmem, fun heq => hlog ?_⟩, hisExt⟩
  obtain ⟨hpart, -, hid⟩ := PedDisk.mem_of_find? hfind
  obtain rfl := h.eq_of_id (Or.inl hmem) hpart (heq.trans hid.symm)
  exact hext hisExt

/-- What an object needs to be linked into a table, where an object with the same `id`
is not counted. -/
structure Linkable (table : PedDisk π δ) (part : PedPartition π) : Prop where
  id_ne : part.id ≠ 0
  /-- the object, if it is on the lists, has kept its type -/
  type_eq : table.Each (fun p => p.id = part.id → p.type = part.type)
    (fun p => p.id = part.id → p.type = part.type)
  parent : part.type.logical = true → ∃ ext ∈ table.partList, ext.isExtended = true

/-- The conditions under which an object may take a place in a table, where an
object with the same `id` is not counted. -/
structure Fits (dev : PedDevice) (table : PedDisk π δ) (part : PedPartition π) : Prop where
  id_ne : part.id ≠ 0
  type_eq : table.Each (fun p => p.id = part.id → p.type = part.type)
    (fun p => p.id = part.id → p.type = part.type)
  clear : ∀ p ∈ table.level part.type, p.id ≠ part.id → part.hi < p.lo ∨ p.hi < part.lo
  inside : part.geom.InsideDevice dev
  logical : part.type.logical = true → ∃ ext ∈ table.partList, ext.isExtended = true ∧
    pedGeometryTestInside ext.geom part.geom = true
  extended : part.isExtended = true →
    (∀ p ∈ table.partList, p.isExtended = true → p.id = part.id) ∧
    ∀ p ∈ table.logicals, pedGeometryTestInside part.geom p.geom = true

theorem Fits.linkable {part : PedPartition π} (h : Fits dev table part) : Linkable table part :=
  ⟨h.id_ne, h.type_eq, fun hl =>
    let ⟨ext, hext, hisExt, _⟩ := h.logical hl
    ⟨ext, hext, hisExt⟩⟩

theorem WellLinked.place {part : PedPartition π} (h : WellLinked table)
    (hfit : Linkable table part) : WellLinked ((diskRawRemove table part.id).place part) := by
  have hnodup : ((part :: ((diskRawRemove table part.id).partList ++
      (diskRawRemove table part.id).logicals)).map (·.id)).Nodup := by
    refine List.nodup_cons.mpr ⟨?_, h.remove_nodup part.id⟩
    simp only [List.mem_map, List.mem_append, not_exists, not_and]
    rintro p (hp | hp)
    · exact (mem_diskRawRemove_partList.mp hp).2
    · exact (mem_diskRawRemove_logicals.mp hp).2
  cases hl : part.type.logical with
  | true =>
      obtain ⟨ext, hext, hisExt⟩ := hfit.parent hl
      have hne : ext.id ≠ part.id := by
        intro heq
        have := hfit.type_eq.1 ext hext heq
        simp [h.leveled.1 ext hext, ← this] at hl
      rw [PedDisk.place_logical hl]
      refine ⟨?_, ⟨h.ids.diskRawRemove.1, ?_⟩, ⟨h.leveled.diskRawRemove.1, ?_⟩, fun _ =>
        ⟨ext, mem_diskRawRemove_partList.mpr ⟨hext, hne⟩, hisExt⟩⟩
      · refine (List.Perm.nodup_iff (List.Perm.map _ ?_)).mp hnodup
        exact (((insertOrdered_perm _ _ part _).append_left _).trans List.perm_middle).symm
      · intro p hp
        rcases mem_insertOrdered.mp hp with rfl | hp
        · exact hfit.id_ne
        · exact h.ids.diskRawRemove.2 p hp
      · intro p hp
        rcases mem_insertOrdered.mp hp with rfl | hp
        · exact hl
        · exact h.leveled.diskRawRemove.2 p hp
  | false =>
      rw [PedDisk.place_top hl]
      refine ⟨?_, ⟨?_, h.ids.diskRawRemove.2⟩, ⟨?_, h.leveled.diskRawRemove.2⟩, fun hne => ?_⟩
      · refine (List.Perm.nodup_iff (List.Perm.map _ ?_)).mp hnodup
        exact ((insertOrdered_perm _ _ part _).append_right _).symm
      · intro p hp
        rcases mem_insertOrdered.mp hp with rfl | hp
        · exact hfit.id_ne
        · exact h.ids.diskRawRemove.1 p hp
      · intro p hp
        rcases mem_insertOrdered.mp hp with rfl | hp
        · exact hl
        · exact h.leveled.diskRawRemove.1 p hp
      · have hlog : table.logicals ≠ [] := fun heq => hne (by simp [diskRawRemove, heq])
        obtain ⟨ext, hext, hisExt⟩ := h.linked hlog
        by_cases heq : ext.id = part.id
        · refine ⟨part, mem_insertOrdered.mpr (Or.inl rfl), ?_⟩
          unfold PedPartition.isExtended at hisExt ⊢
          rwa [hfit.type_eq.1 ext hext heq] at hisExt
        · exact ⟨ext, mem_insertOrdered.mpr
            (Or.inr (mem_diskRawRemove_partList.mpr ⟨hext, heq⟩)), hisExt⟩

/-- **A partition that fits may be placed**, be it new or moved. -/
theorem Sound.place {part : PedPartition π} (h : Sound dev table) (hfit : Fits dev table part) :
    Sound dev ((diskRawRemove table part.id).place part) := by
  refine ⟨h.links.place hfit.linkable, ?_⟩
  obtain ⟨htop, hin, hone, hlog, hwith⟩ := h.remove_layout part.id
  have hclear := hfit.clear
  cases hl : part.type.logical with
  | true =>
      obtain ⟨ext, hext, hisExt, hinside⟩ := hfit.logical hl
      simp only [PedDisk.level, hl, if_true] at hclear
      rw [PedDisk.place_logical hl]
      refine ⟨htop, hin, hone, hlog.insertOrdered (fun p _ => p.lo_le_hi) ?_, ?_⟩
      · intro p hp
        obtain ⟨hp, hne⟩ := mem_diskRawRemove_logicals.mp hp
        exact hclear p hp hne
      · intro ext' hext' hisExt' p hp
        rcases mem_insertOrdered.mp hp with rfl | hp
        · -- the extended partition found by the check is the only one
          have hmem := (mem_diskRawRemove_partList.mp hext').1
          have hid := h.layout.oneExtended ext' hmem ext hext hisExt' hisExt
          exact h.links.eq_of_id (Or.inl hmem) (Or.inl hext) hid ▸ hinside
        · exact hwith ext' hext' hisExt' p hp
  | false =>
      simp only [PedDisk.level, hl, Bool.false_eq_true, if_false] at hclear
      rw [PedDisk.place_top hl]
      refine ⟨htop.insertOrdered (fun p _ => p.lo_le_hi) ?_, ?_, ?_, hlog, ?_⟩
      · intro p hp
        obtain ⟨hp, hne⟩ := mem_diskRawRemove_partList.mp hp
        exact hclear p hp hne
      · intro p hp
        rcases mem_insertOrdered.mp hp with rfl | hp
        · exact hfit.inside
        · exact hin p hp
      · intro a ha b hb hae hbe
        rcases mem_insertOrdered.mp ha with rfl | ha
        · rcases mem_insertOrdered.mp hb with rfl | hb
          · rfl
          · exact ((hfit.extended hae).1 b (mem_diskRawRemove_partList.mp hb).1 hbe).symm
        · rcases mem_insertOrdered.mp hb with rfl | hb
          · exact (hfit.extended hbe).1 a (mem_diskRawRemove_partList.mp ha).1 hae
          · exact hone a ha b hb hae hbe
      · intro ext hext hisExt p hp
        rcases mem_insertOrdered.mp hext with rfl | hext
        · exact (hfit.extended hisExt).2 p (mem_diskRawRemove_logicals.mp hp).1
        · exact hwith ext hext hisExt p hp

end

end Libparted
