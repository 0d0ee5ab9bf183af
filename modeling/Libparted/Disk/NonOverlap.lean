import Libparted.Disk.Rules

/-!
# Partitions never overlap

For a label whose alignment respects the constraint it is given, and with every
exception answered "Cancel", no sequence of calls leads from a table that is laid
out well to one that is not (`nonOverlapping_of_calls`).

The argument has three parts.

* The gap handed to the label meets no other partition (`overlap_clear`), so an
  aligned partition is clear of the others, wherever the solver moved it.
* What `_check_partition` lets through lies inside the device, or inside the
  extended partition, and is the only extended partition (`checkPartition_placed`).
* Together the two say that the partition `Fits`, and a partition that fits may be
  placed (`Sound.place`).  Every failure puts the old geometry back.

`SoundTable` is the invariant of the programs: the table is sound and the disk is not
being read.  The rules for the operations carry it from call to call.
-/

namespace Libparted

open Library

variable {π δ : Type}

/-! ## The gap -/

/-- Whatever starts and ends in the gap is clear of every other partition. -/
theorem overlap_clear {disk : PedDisk π δ} {part : PedPartition π} {geom : PedGeometry}
    {c : PedConstraint} (h : partitionGetOverlapConstraint disk part geom = .ok (some c))
    (hord : Ordered PedPartition.lo PedPartition.hi (disk.level part.type))
    {g : PedGeometry} (hs : c.startRange.start ≤ g.start) (he : g.end ≤ c.endRange.end)
    {p : PedPartition π} (hp : p ∈ disk.level part.type) (hne : p.id ≠ part.id) :
    g.end < p.lo ∨ p.hi < g.start := by
  unfold partitionGetOverlapConstraint at h
  simp only [bind_eq_ok] at h
  obtain ⟨-, -, limits, -, h⟩ := h
  split at h
  · simp at h
  obtain ⟨free, hfree, h⟩ := bind_eq_ok.mp h
  simp only [pure_eq_ok, Except.ok.injEq, Option.some.injEq] at h
  subst h
  obtain ⟨hstart, hlength⟩ := pedGeometryInitUnchecked_ok hfree
  simp only [pedConstraintNewFromMax] at hs he
  refine gapWalk_clear (·.id == part.id) hord (fun q _ => q.lo_le_hi)
    (hstart ▸ hs) (fun z hz => ?_) hp (by simpa using hne)
  rw [hz] at hlength
  simp only [Option.map_some, Option.getD_some] at hlength
  have hend := free.length_eq
  simp only [PedPartition.lo]
  omega

/-- The ranges of an intersection lie in the ranges of its left side. -/
theorem pedConstraintIntersect_ranges {a b : Option PedConstraint} {k : PedConstraint}
    (h : pedConstraintIntersect a b = some k) :
    ∃ c, a = some c ∧ c.startRange.start ≤ k.startRange.start ∧
      k.endRange.end ≤ c.endRange.end := by
  cases a with
  | none => simp [pedConstraintIntersect] at h
  | some a =>
      cases b with
      | none => simp [pedConstraintIntersect] at h
      | some b =>
          obtain ⟨-, -, -, -, startRange, hs, endRange, he, rfl⟩ :=
            pedConstraintIntersect_eq_some.mp h
          refine ⟨a, rfl, ?_, ?_⟩
          · rw [pedGeometryIntersect_start hs]
            exact le_max_left _ _
          · rw [pedGeometryIntersect_end he]
            exact min_le_left _ _

/-- A solution of the gap intersected with anything is clear of the other
partitions. -/
theorem solution_clear {disk : PedDisk π δ} {part : PedPartition π} {geom g : PedGeometry}
    {overlap constraint : Option PedConstraint} {k : PedConstraint}
    (h : partitionGetOverlapConstraint disk part geom = .ok overlap)
    (hk : pedConstraintIntersect overlap constraint = some k)
    (hsol : pedConstraintIsSolution k g = true)
    (hord : Ordered PedPartition.lo PedPartition.hi (disk.level part.type))
    {p : PedPartition π} (hp : p ∈ disk.level part.type) (hne : p.id ≠ part.id) :
    g.end < p.lo ∨ p.hi < g.start := by
  obtain ⟨c, rfl, hs, he⟩ := pedConstraintIntersect_ranges hk
  obtain ⟨-, -, ⟨hstart, -⟩, ⟨-, hend⟩, -⟩ := pedConstraintIsSolution_iff.mp hsol
  exact overlap_clear h hord (hs.trans hstart) (hend.trans he) hp hne

/-! ## The checks -/

/-- What a partition let through by `_check_partition` satisfies. -/
structure Placed (env : Env) (disk : PedDisk π δ) (part : PedPartition π) : Prop where
  inside : part.geom.InsideDevice env.dev
  logical : part.type.logical = true → ∃ ext, pedDiskExtendedPartition disk = some ext ∧
    pedGeometryTestInside ext.geom part.geom = true
  extended : part.isExtended = true → ∀ ext, pedDiskExtendedPartition disk = some ext →
    ext.id = part.id ∧ ∀ p ∈ disk.logicals, pedGeometryTestInside ext.geom p.geom = true

section Checks

variable {env : Env} {disk : PedDisk π δ} {part : PedPartition π} {thrown : List PedException}

/-- With "Cancel" as every answer, nothing is ignored. -/
theorem allIgnored_cancel (hcancel : ∀ n, env.answers n = .cancel) (l : List String) :
    Spec (fun _ => True) (allIgnored env l) thrown fun ok _ => ok = true → l = [] := by
  cases l with
  | nil => exact fun _ => rfl
  | cons message rest =>
      have hanswer : pedExceptionIgnored env message thrown
          = .ok (false, thrown ++ [⟨.error, [.ignore, .cancel], message⟩]) := by
        simp [pedExceptionIgnored, pedExceptionThrow, hcancel, bind, StateT.bind, Except.bind,
          pure, StateT.pure, Except.pure]
      unfold allIgnored
      rw [spec_bind, spec_iff]
      refine ⟨fun ok t hok => ?_, fun _ _ => trivial⟩
      rw [hanswer] at hok
      cases hok
      exact fun h => absurd h (by decide)

theorem checkExtendedPartition_spec :
    Spec (fun _ => True) (checkExtendedPartition env disk part) thrown fun ok _ => ok = true →
      ∀ ext, pedDiskExtendedPartition disk = some ext →
        ext.id = part.id ∧ ∀ p ∈ disk.logicals, pedGeometryTestInside ext.geom p.geom = true := by
  unfold checkExtendedPartition
  rw [spec_iff]
  refine ⟨fun ok t hok htrue ext hext => ?_, fun _ _ => trivial⟩
  subst htrue
  simp only [hext] at hok
  by_cases hid : part.id = ext.id
  · rw [if_neg (by simpa using hid)] at hok
    refine ⟨hid.symm, fun p hp => ?_⟩
    by_contra hout
    rw [if_pos] at hok
    · cases hok
    · exact List.any_eq_true.mpr ⟨p, hp, by rw [Bool.eq_false_iff.mpr hout]; rfl⟩
  · rw [if_pos (by simpa using hid)] at hok
    cases hok

/-- A partition to whose place there is no objection. -/
theorem placementObjections_nil (h : placementObjections env disk part = .ok [])
    (hext : part.isExtended = true → ∀ ext, pedDiskExtendedPartition disk = some ext →
      ext.id = part.id ∧ ∀ p ∈ disk.logicals, pedGeometryTestInside ext.geom p.geom = true) :
    Placed env disk part := by
  unfold placementObjections at h
  obtain ⟨outside, hout, h⟩ := bind_eq_ok.mp h
  simp only [pure_eq_ok, Except.ok.injEq, List.append_eq_nil_iff, ite_eq_right_iff,
    List.cons_ne_nil, imp_false] at h
  obtain ⟨⟨hnot, -⟩, hend⟩ := h
  refine ⟨by simpa [PedGeometry.InsideDevice] using hend, fun hl => ?_, hext⟩
  unfold outsideExtended at hout
  rw [if_pos hl] at hout
  cases hx : pedDiskExtendedPartition disk with
  | none => simp [hx] at hout
  | some ext =>
      simp only [hx, Except.ok.injEq] at hout
      subst hout
      exact ⟨ext, rfl, by simpa using hnot⟩

theorem checkPartition_placed {ops : PedDiskOps π δ} (hcancel : ∀ n, env.answers n = .cancel) :
    Spec (fun _ => True) (checkPartition ops env disk part) thrown
      fun ok _ => ok = true → Placed env disk part := by
  unfold checkPartition
  refine Spec.seq (R := fun ok _ => ok = true → part.isExtended = true →
    ∀ ext, pedDiskExtendedPartition disk = some ext → ext.id = part.id ∧
      ∀ p ∈ disk.logicals, pedGeometryTestInside ext.geom p.geom = true) ?_ fun ok t hext => ?_
  · unfold checkIfExtended
    refine Spec.ite (fun _ => ?_) fun hno => ?_
    · exact checkExtendedPartition_spec.imp fun _ _ h hok _ => h hok
    · exact fun _ hyes => absurd hyes hno
  cases ok with
  | false => exact fun h => absurd h (by decide)
  | true =>
      simp only [Bool.not_true, Bool.false_eq_true, if_false, spec_bind]
      rw [spec_lift]
      refine ⟨fun objections hobj => ?_, fun _ _ => trivial⟩
      refine (allIgnored_cancel hcancel objections).imp fun ok t hnone => ?_
      cases ok with
      | false => exact fun h => absurd h (by decide)
      | true =>
          have hempty := hnone rfl
          have hplaced : Placed env disk part := by
            rw [hempty] at hobj
            exact placementObjections_nil hobj (hext rfl)
          rw [spec_iff]
          exact ⟨fun _ _ _ _ => hplaced, fun _ _ => trivial⟩

end Checks

/-! ## A placed partition fits -/

section Fit

variable {env : Env} {disk : PedDisk π δ} {part : PedPartition π}

theorem exists_pedDiskExtendedPartition {ext : PedPartition π} (hext : ext ∈ disk.partList)
    (hisExt : ext.isExtended = true) : ∃ ext', pedDiskExtendedPartition disk = some ext' :=
  Option.isSome_iff_exists.mp (List.find?_isSome.mpr ⟨ext, hext, hisExt⟩)

theorem Sound.ordered_level {dev : PedDevice} (h : Sound dev disk) (type : PedPartitionType) :
    Ordered PedPartition.lo PedPartition.hi (disk.level type) := by
  unfold PedDisk.level
  split
  · exact h.layout.logical
  · exact h.layout.top

/-- A new partition that passed the checks fits. -/
theorem Placed.fits_new (h : Sound env.dev disk) (hclean : disk.Clean)
    (hplaced : Placed env disk part) (hid : part.id ≠ 0) (hnew : disk.find? part.id = none)
    (hclear : ∀ p ∈ disk.level part.type, p.id ≠ part.id →
      part.geom.end < p.lo ∨ p.hi < part.geom.start) : Fits env.dev disk part := by
  have hno : ∀ p, p ∈ disk.partList ∨ p ∈ disk.logicals → p.id ≠ part.id := by
    intro p hp heq
    have hact : p.isActive = true := hp.elim (hclean.1 p) (hclean.2 p)
    have := List.find?_eq_none.mp hnew p (List.mem_append.mpr hp)
    simp [hact, heq] at this
  refine ⟨hid, ⟨fun p hp heq => absurd heq (hno p (Or.inl hp)),
    fun p hp heq => absurd heq (hno p (Or.inr hp))⟩, hclear, hplaced.inside, fun hl => ?_,
    fun hx => ⟨fun p hp hpx => ?_, fun p hp => ?_⟩⟩
  · obtain ⟨ext, hext, hin⟩ := hplaced.logical hl
    obtain ⟨hmem, hisExt⟩ := mem_of_pedDiskExtendedPartition hext
    exact ⟨ext, hmem, hisExt, hin⟩
  · obtain ⟨ext, hext⟩ := exists_pedDiskExtendedPartition hp hpx
    have hmem := (mem_of_pedDiskExtendedPartition hext).1
    exact absurd (hplaced.extended hx ext hext).1 (hno ext (Or.inl hmem))
  · -- a logical partition would hang below an extended one, which is not there
    obtain ⟨ext, hmem, hisExt⟩ := h.links.linked (List.ne_nil_of_mem hp)
    obtain ⟨ext', hext'⟩ := exists_pedDiskExtendedPartition hmem hisExt
    have hmem' := (mem_of_pedDiskExtendedPartition hext').1
    exact absurd (hplaced.extended hx ext' hext').1 (hno ext' (Or.inl hmem'))

theorem mem_setGeom_of_ne {id : ℕ} {g : PedGeometry} {l : List (PedPartition π)}
    {p : PedPartition π} (hne : p.id ≠ id) :
    p ∈ l.map (fun part => if part.id = id then { part with geom := g } else part) ↔ p ∈ l := by
  constructor
  · intro hp
    obtain ⟨q, hq, rfl⟩ := List.mem_map.mp hp
    by_cases hid : q.id = id
    · simp [hid] at hne
    · simpa [hid] using hq
  · intro hp
    exact List.mem_map.mpr ⟨p, hp, by simp [hne]⟩

/-- A moved partition that passed the checks fits. -/
theorem Placed.fits_moved {g : PedGeometry} {old : PedPartition π} (h : Sound env.dev disk)
    (hold : disk.find? old.id = some old)
    (hplaced : Placed env (disk.setGeom old.id g) { old with geom := g })
    (hclear : ∀ p ∈ disk.level old.type, p.id ≠ old.id → g.end < p.lo ∨ p.hi < g.start) :
    Fits env.dev disk { old with geom := g } := by
  obtain ⟨hmem, -⟩ := PedDisk.mem_of_find? hold
  have huniq : ∀ p, p ∈ disk.partList ∨ p ∈ disk.logicals → p.id = old.id → p = old :=
    fun p hp hid => h.links.eq_of_id hp hmem hid
  have hidne : old.id ≠ 0 := hmem.elim (h.links.ids.1 old) (h.links.ids.2 old)
  have htop : PedPartition.isExtended { old with geom := g } = true → old ∈ disk.partList := by
    intro hx
    refine hmem.resolve_right fun hlog => ?_
    have hnl := PedPartition.not_logical_of_isExtended hx
    simp [h.links.leveled.2 old hlog] at hnl
  refine ⟨hidne, ⟨fun p hp hid => by rw [huniq p (Or.inl hp) hid],
    fun p hp hid => by rw [huniq p (Or.inr hp) hid]⟩, hclear, hplaced.inside, fun hl => ?_,
    fun hx => ⟨fun p hp hpx => ?_, fun p hp => ?_⟩⟩
  · obtain ⟨ext, hext, hin⟩ := hplaced.logical hl
    obtain ⟨hextMem, hisExt⟩ := mem_of_pedDiskExtendedPartition hext
    have hne : ext.id ≠ old.id := by
      intro heq
      obtain ⟨q, hq, rfl⟩ := List.mem_map.mp hextMem
      have hqid : q.id = old.id := by
        by_cases hid : q.id = old.id
        · exact hid
        · simp [hid] at heq
      have hlev := h.links.leveled.1 q hq
      rw [huniq q (Or.inl hq) hqid] at hlev
      simp [hlev] at hl
    exact ⟨ext, (mem_setGeom_of_ne hne).mp hextMem, hisExt, hin⟩
  · exact h.layout.oneExtended p hp old (htop hx) hpx hx
  · have holdTop := htop hx
    have hnew : { old with geom := g } ∈ (disk.setGeom old.id g).partList :=
      List.mem_map.mpr ⟨old, holdTop, if_pos rfl⟩
    obtain ⟨ext, hext⟩ := exists_pedDiskExtendedPartition hnew hx
    obtain ⟨hextId, hinside⟩ := hplaced.extended hx ext hext
    have hpne : p.id ≠ old.id := by
      intro heq
      have := h.links.leveled.2 p hp
      rw [huniq p (Or.inr hp) heq, h.links.leveled.1 old holdTop] at this
      simp at this
    have hgeom : ext.geom = g := by
      obtain ⟨q, -, hq⟩ := List.mem_map.mp (mem_of_pedDiskExtendedPartition hext).1
      by_cases hid : q.id = old.id
      · rw [← hq, if_pos hid]
      · rw [if_neg hid] at hq
        exact absurd (hq ▸ hextId) hid
    exact hgeom ▸ hinside p ((mem_setGeom_of_ne hpne).mpr hp)

end Fit

/-! ## The programs -/

/-- The label aligns a partition to a solution of the constraint it is given. -/
def AlignSound (ops : PedDiskOps π δ) (env : Env) : Prop :=
  ∀ disk part constraint thrown geom thrown',
    ops.partitionAlign env disk part (some constraint) thrown = .ok ((true, geom), thrown') →
    pedConstraintIsSolution constraint geom = true

/-- The invariant of the programs: a sound table that is not being read. -/
structure SoundTable (dev : PedDevice) (c : PedDisk π δ) : Prop where
  sound : Sound dev c
  clobber : c.needsClobber = false

section Programs

variable {label : PedDiskType π δ} {env : Env} {s : Session π δ} {n : ℕ}

/-- On a clean disk the table is the disk. -/
theorem SoundTable.sound_disk {disk : PedDisk π δ} (h : SoundTable env.dev disk.core)
    (hclean : disk.Clean) : Sound env.dev disk := by
  rw [hclean.eq_core]
  exact sound_withMode.mpr h.sound

theorem SoundTable.of_disk {disk : PedDisk π δ} (h : Sound env.dev disk)
    (hclobber : disk.needsClobber = false) (hclean : disk.Clean) :
    SoundTable env.dev disk.core := by
  rw [hclean.eq_core] at h
  exact ⟨sound_withMode.mp h, hclobber⟩

theorem soundTable_renumbers :
    Renumbers label env (fun _ => True) (fun _ => True) (SoundTable env.dev) (SoundTable env.dev) :=
  renumbers_of_unnumbered fun _ _ heq h =>
    ⟨h.sound.renumbered heq, (congrArg PedDisk.needsClobber heq).trans h.clobber⟩

theorem soundTable_removes (id : ℕ) :
    RemovesTo (π := π) (δ := δ) (SoundTable env.dev) (SoundTable env.dev) id := by
  intro c part h hfind hext
  exact ⟨⟨h.sound.links.remove hfind hext, h.sound.remove_layout id⟩, h.clobber⟩

/-! ### Placing -/

/-- What the label does when it aligns inside a gap. -/
theorem partitionAlign_spec (halign : AlignSound label.toPedDiskOps env) {disk : PedDisk π δ}
    {part : PedPartition π} {k : PedConstraint} {thrown : List PedException}
    (hclobber : disk.needsClobber = false) :
    Spec (fun _ => True) (partitionAlign label.toPedDiskOps env disk part (some k)) thrown
      fun r _ => r.1 = true → pedConstraintIsSolution k r.2 = true := by
  unfold partitionAlign
  simp only [spec_bind]
  rw [spec_lift]
  refine ⟨fun _ _ => ?_, fun _ _ => trivial⟩
  rw [spec_lift]
  refine ⟨fun _ _ => ?_, fun _ _ => trivial⟩
  rw [hclobber]
  simp only [Bool.false_eq_true, if_false]
  rw [spec_iff]
  refine ⟨fun r thrown' hr htrue => ?_, fun _ _ => trivial⟩
  obtain ⟨ok, geom⟩ := r
  subst htrue
  exact halign disk part k thrown geom thrown' hr

theorem resolveOverlap_cancel (hcancel : ∀ n, env.answers n = .cancel)
    {overlap : Option PedConstraint} {c : PedConstraint} {thrown : List PedException} :
    Spec (fun _ => True) (resolveOverlap env overlap (some c)) thrown fun r _ =>
      ∀ k, r = some k → pedConstraintIntersect overlap (some c) = k ∧ k ≠ none := by
  unfold resolveOverlap
  dsimp only
  refine Spec.ite (fun _ => ?_) fun hsome => ?_
  · refine Spec.bind ?_
    rw [spec_iff]
    refine ⟨fun ok t hok => ?_, fun _ _ => trivial⟩
    have hfalse : ok = false := by
      simp only [pedExceptionIgnored, pedExceptionThrow, hcancel, bind, StateT.bind, Except.bind,
        pure, StateT.pure, Except.pure, Except.ok.injEq, Prod.mk.injEq] at hok
      rw [← hok.1]
      rfl
    subst hfalse
    simp
  · rintro k hk
    cases hk
    refine ⟨rfl, fun hnone => hsome ?_⟩
    simp [hnone]

theorem addPartitionAlign_spec (hcancel : ∀ n, env.answers n = .cancel)
    (halign : AlignSound label.toPedDiskOps env) {disk : PedDisk π δ} {part : PedPartition π}
    {c : PedConstraint} {thrown : List PedException} (hclobber : disk.needsClobber = false)
    (hord : Ordered PedPartition.lo PedPartition.hi (disk.level part.type)) :
    Spec (fun _ => True) (addPartitionAlign label.toPedDiskOps env disk part (some c)) thrown
      fun r _ => r.2.id = part.id ∧ r.2.type = part.type ∧ (r.1 = true →
        ∀ p ∈ disk.level part.type, p.id ≠ part.id →
          r.2.geom.end < p.lo ∨ p.hi < r.2.geom.start) := by
  unfold addPartitionAlign
  refine Spec.bind (spec_lift.mpr ⟨fun overlap hoverlap => ?_, fun _ _ => trivial⟩)
  refine (resolveOverlap_cancel hcancel).seq fun r t hr => ?_
  cases r with
  | none => exact ⟨rfl, rfl, fun h => absurd h Bool.false_ne_true⟩
  | some k =>
      obtain ⟨hk, hne⟩ := hr k rfl
      obtain ⟨k, rfl⟩ := Option.ne_none_iff_exists'.mp hne
      refine Spec.bind (spec_iff.mpr ⟨fun r t' _ => ?_, fun _ _ => trivial⟩)
      obtain ⟨ok, num⟩ := r
      cases ok with
      | false => exact ⟨rfl, rfl, fun h => absurd h Bool.false_ne_true⟩
      | true =>
          refine (partitionAlign_spec halign hclobber).seq fun r t'' hsol => ?_
          refine ⟨rfl, rfl, fun htrue p hp hid => ?_⟩
          exact solution_clear hoverlap hk (hsol htrue) hord hp hid

theorem soundTable_adds (hcancel : ∀ n, env.answers n = .cancel)
    (halign : AlignSound label.toPedDiskOps env) {part : PedPartition π} {c : PedConstraint}
    (hid : part.id ≠ 0) :
    AddsTo label env (fun _ => True) (fun _ => True) 0 part (some c) (SoundTable env.dev)
      (SoundTable env.dev) fun _ => True := by
  intro disk thrown h hclean hmode
  have hs := h.sound_disk hclean
  have hclobber : disk.needsClobber = false := h.clobber
  refine Spec.imp (Q := fun r _ => r.2.id = part.id ∧ r.2.type = part.type ∧
    (r.1 = true → part.isActive = true → ∀ p ∈ disk.level part.type, p.id ≠ part.id →
      r.2.geom.end < p.lo ∨ p.hi < r.2.geom.start)) ?_
    fun r thrown' ⟨hrid, htype, hclear⟩ => ⟨trivial, fun _ => ⟨rfl, trivial⟩, fun hok => ?_⟩
  · unfold addPartitionAlignIfActive
    refine Spec.ite (fun _ => ?_) fun hno => ⟨rfl, rfl, fun _ hyes => absurd hyes hno⟩
    exact (addPartitionAlign_spec hcancel halign hclobber (hs.ordered_level _)).imp
      fun r _ ⟨h₁, h₂, h₃⟩ => ⟨h₁, h₂, fun hok _ => h₃ hok⟩
  refine (checkPartition_placed hcancel).imp fun ok _ hplaced htrue hnew => ?_
  cases hact : r.2.isActive with
  | false => exact (core_place_inactive hact).symm ▸ h
  | true =>
      have hpartAct : part.isActive = true := by
        unfold PedPartition.isActive at hact ⊢
        rwa [← htype]
      have hfit : Fits env.dev disk r.2 :=
        (hplaced htrue).fits_new hs hclean (hrid ▸ hid) (hnew hact) (by
          rw [htype, hrid]
          exact hclear hok hpartAct)
      have hplace := hs.place hfit
      rw [diskRawRemove_eq_self hclean (hnew hact)] at hplace
      exact SoundTable.of_disk hplace ((place_rest disk r.2).1.trans h.clobber) (hclean.place hact)

theorem soundTable_moves (hcancel : ∀ n, env.answers n = .cancel)
    (halign : AlignSound label.toPedDiskOps env) (id : ℕ) (c : PedConstraint) :
    MovesTo label env (fun _ => True) id (some c) (SoundTable env.dev) (SoundTable env.dev) := by
  intro disk old part newGeom overlap thrown h hclean hmode hold hpartId htype hoverlap hk
  have hs := h.sound_disk hclean
  have hclobber : (disk.setGeom id newGeom).needsClobber = false := h.clobber
  obtain ⟨-, hact, hid⟩ := PedDisk.mem_of_find? hold
  cases hinter : pedConstraintIntersect overlap (some c) with
  | none => exact absurd (hk hinter) (Option.some_ne_none c)
  | some k =>
      refine (partitionAlign_spec halign hclobber).imp fun r t hsol hok => ?_
      refine (checkPartition_placed hcancel).imp fun ok _ hplaced htrue => ?_
      subst hid
      have hfit : Fits env.dev disk { old with geom := r.2 } := by
        refine (hplaced htrue).fits_moved hs hold fun p hp hne => ?_
        refine solution_clear hoverlap hinter (hsol hok) (hs.ordered_level _) ?_ ?_
        · rwa [htype]
        · rwa [hpartId]
      exact SoundTable.of_disk (hs.place hfit) ((place_rest _ _).1.trans h.clobber)
        (PedDisk.Clean.place hclean.diskRawRemove hact)

theorem setGeom_sound (hcancel : ∀ n, env.answers n = .cancel)
    (halign : AlignSound label.toPedDiskOps env) (id : ℕ) (c : PedConstraint) (start «end» : ℤ)
    (h : At (fun _ => True) (SoundTable env.dev) n s) :
    Spec (fun _ => True) (pedDiskSetPartitionGeom label env id (some c) start «end») s
      fun _ s' => At (fun _ => True) (SoundTable env.dev) n s' := by
  refine (h.setGeom (allows_true label env) (fun _ h => h.sound.links) soundTable_renumbers
    (soundTable_moves hcancel halign id c)).imp fun ok s' ⟨hyes, hno⟩ => ?_
  cases ok with
  | true => exact hyes rfl
  | false => exact hno rfl

/-- A partition of a sound table lies on the device. -/
theorem Sound.inside_of_find? {dev : PedDevice} {disk : PedDisk π δ} {id : ℕ}
    {part : PedPartition π} (h : Sound dev disk.core) (hfind : disk.find? id = some part) :
    part.geom.InsideDevice dev := by
  rw [← PedDisk.find?_core] at hfind
  rcases (PedDisk.mem_of_find? hfind).1 with hmem | hmem
  · exact h.layout.inside part hmem
  · obtain ⟨ext, hext, hisExt⟩ := h.links.linked (List.ne_nil_of_mem hmem)
    have hin := pedGeometryTestInside_iff.mp (h.layout.within ext hext hisExt part hmem)
    exact hin.2.trans_lt (h.layout.inside ext hext)

theorem pedConstraintAny_some {dev : PedDevice} (hdev : 0 < dev.length)
    {any : Option PedConstraint} (h : pedConstraintAny dev = .ok any) : ∃ a, any = some a := by
  unfold pedConstraintAny at h
  rw [pedGeometrySet_eq (le_refl 0) (by omega), ok_bind] at h
  obtain ⟨a, -, ha⟩ := bind_eq_ok.mp h
  exact ⟨a, (Except.ok.inj ha).symm⟩

/-- Maximising is moving, and moving back on failure. -/
theorem maximize_sound (hcancel : ∀ n, env.answers n = .cancel)
    (halign : AlignSound label.toPedDiskOps env) (id : ℕ) (c : PedConstraint)
    (h : At (fun _ => True) (SoundTable env.dev) n s) :
    Spec (fun _ => True) (pedDiskMaximizePartition label env id (some c)) s
      fun _ s' => At (fun _ => True) (SoundTable env.dev) n s' := by
  have hE := allows_true label env
  unfold pedDiskMaximizePartition
  refine Spec.bind (spec_lookup trivial fun part hpart => ?_)
  refine Spec.bind (spec_getDisk.mpr (Spec.bind
    (spec_lift.mpr ⟨fun limits _ => ?_, fun _ _ => trivial⟩)))
  refine (h.push hE soundTable_renumbers).seq fun ok s₁ ⟨hok, h₁, _⟩ => ?_
  subst hok
  refine Spec.bind (spec_getDisk.mpr ?_)
  refine (setGeom_sound hcancel halign id c _ _ h₁).seq fun ok s₂ h₂ => ?_
  cases ok with
  | true =>
      refine (h₂.pop hE).seq fun ok s₃ ⟨hok, h₃⟩ => ?_
      subst hok
      exact h₃
  | false =>
      refine Spec.bind (spec_lift.mpr ⟨fun any hany => ?_, fun _ _ => trivial⟩)
      have hdev : 0 < env.dev.length :=
        part.geom.end_nonneg.trans_lt (h.table.sound.inside_of_find? hpart)
      obtain ⟨a, rfl⟩ := pedConstraintAny_some hdev hany
      refine (setGeom_sound hcancel halign id a _ _ h₂).seq fun _ s₃ h₃ => ?_
      exact (h₃.pop hE).seq fun _ _ h₄ => h₄.2

end Programs

/-! ## Sequences of calls -/

/-- The calls that change the layout. -/
inductive LayoutCall (π : Type) where
  | add (part : PedPartition π) (constraint : PedConstraint)
  | setGeom (id : ℕ) (constraint : PedConstraint) (start «end» : ℤ)
  | delete (id : ℕ)
  | maximize (id : ℕ) (constraint : PedConstraint)

/-- Performs one call. -/
def LayoutCall.run (label : PedDiskType π δ) (env : Env) : LayoutCall π → DiskM π δ Unit
  | .add part constraint => do let _ ← pedDiskAddPartition label env part (some constraint)
  | .setGeom id constraint start «end» => do
      let _ ← pedDiskSetPartitionGeom label env id (some constraint) start «end»
  | .delete id => do let _ ← pedDiskDeletePartition label env id
  | .maximize id constraint => do let _ ← pedDiskMaximizePartition label env id (some constraint)

theorem LayoutCall.run_sound {label : PedDiskType π δ} {env : Env}
    (hcancel : ∀ n, env.answers n = .cancel) (halign : AlignSound label.toPedDiskOps env)
    (call : LayoutCall π) {s : Session π δ} (h : At (fun _ => True) (SoundTable env.dev) 0 s) :
    Spec (fun _ => True) (call.run label env) s fun _ s' => At (fun _ => True) (SoundTable env.dev) 0 s' := by
  have hE := allows_true label env
  cases call with
  | add part constraint =>
      refine (h.add (R := fun _ => True) hE soundTable_renumbers trivial
        fun hid _ => soundTable_adds hcancel halign hid).seq fun r s' ⟨_, hyes, hno⟩ => ?_
      obtain ⟨ok, part'⟩ := r
      cases ok with
      | true => exact hyes rfl
      | false => exact hno rfl
  | setGeom id constraint start «end» =>
      exact (setGeom_sound hcancel halign id constraint start «end» h).seq fun _ _ h => h
  | delete id =>
      exact (At.delete hE soundTable_renumbers soundTable_removes soundTable_renumbers id h).seq
        fun _ _ h => h
  | maximize id constraint =>
      exact (maximize_sound hcancel halign id constraint h).seq fun _ _ h => h

/-- **Partitions never overlap.**  Take a label whose alignment is sound, a disk
outside update mode that is not being read, with a table that is well linked and
well laid out, and "Cancel" as every answer.  Whatever calls have returned, in
whatever order and with whatever outcome, the table is again well linked and well
laid out. -/
theorem nonOverlapping_of_calls (label : PedDiskType π δ) (env : Env)
    (hcancel : ∀ n, env.answers n = .cancel) (halign : AlignSound label.toPedDiskOps env)
    (s : Session π δ) (hmode : s.disk.updateMode = 0) (hclobber : s.disk.needsClobber = false)
    (hlinks : WellLinked s.disk.core) (hlayout : NonOverlapping env.dev s.disk.core)
    (calls : List (LayoutCall π)) (s' : Session π δ)
    (hrun : runAll (LayoutCall.run label env) calls s = .ok ((), s')) :
    WellLinked s'.disk.core ∧ NonOverlapping env.dev s'.disk.core := by
  have hstart : At (fun _ => True) (SoundTable env.dev) 0 s :=
    ⟨⟨⟨hlinks, hlayout⟩, hclobber⟩, hmode, fun hne => absurd rfl hne,
      fun _ _ _ => trivial, fun _ _ _ => trivial⟩
  have hall : Spec (fun _ => True) (runAll (LayoutCall.run label env) calls) s
      fun _ s' => At (fun _ => True) (SoundTable env.dev) 0 s' :=
    Spec.runAll (fun call _ h => call.run_sound hcancel halign h) calls hstart
  have hend := (hall.of_ok hrun).table.sound
  exact ⟨hend.links, hend.layout⟩

end Libparted
