import Libparted.Labels.Numbers

/-!
# What a refused move leaves behind

`ped_disk_set_partition_geom` may refuse a request at two stages.  Before it overwrites
`part->geom` it refuses empty regions, and regions where the free gap and the caller's
constraint have nothing in common; update mode is left again, and the table is what it
was.

Later on the label refuses to align the partition, or its new place fails the checks.
Update mode is then left while `part->geom` holds the refused geometry, so that free
space and metadata are laid out around that, and only afterwards the old geometry is
put back.  The last theorem says what follows: wherever the old geometry reaches out of
the refused one, a placeholder now lies on top of the partition.
-/

namespace Libparted

open Library

variable {π δ : Type}

/-! ## Disks between calls -/

/-- A disk as leaving update mode leaves it: renumbering changes nothing, and the
placeholders are those that would be laid out again. -/
structure Settled (label : PedDiskType π δ) (env : Env) (disk : PedDisk π δ) : Prop where
  mode : disk.updateMode = 0
  links : WellLinked disk.core
  leveled : disk.Leveled
  padding : disk.Padding Unnumbered
  numbers : Renumbers label env (fun _ => False) Unnumbered (· = disk.core) (· = disk.core)
  placeholders : ∀ thrown, ∃ thrown', diskPopUpdateMode label.allocMetadata env
    ⟨disk.strip.withMode 1, thrown⟩ = .ok (true, ⟨disk, thrown'⟩)

/-- The geometry is not overwritten: the request is empty, or there is a constraint that
has nothing in common with the gap around the request. -/
def RefusedEarly (disk : PedDisk π δ) (part : PedPartition π) (constraint : Option PedConstraint)
    (start «end» : ℤ) : Prop :=
  «end» < start ∨ ∃ newGeom overlap,
    pedGeometrySet start («end» - start + 1) = .ok (some newGeom) ∧
    partitionGetOverlapConstraint (disk.strip.withMode 1) part newGeom = .ok overlap ∧
    constraint ≠ none ∧ pedConstraintIntersect overlap constraint = none

/-- The geometry `g` the partition had when the label's alignment or the checks refused
it. -/
def RefusedAt (ops : PedDiskOps π δ) (env : Env) (disk : PedDisk π δ) (part : PedPartition π)
    (constraint : Option PedConstraint) (newGeom g : PedGeometry) : Prop :=
  ∃ overlap ok thrown thrown',
    partitionGetOverlapConstraint disk part newGeom = .ok overlap ∧
    partitionAlign ops env (disk.setGeom part.id newGeom) { part with geom := newGeom }
      (pedConstraintIntersect overlap constraint) thrown = .ok ((ok, g), thrown') ∧
    (ok = true → ∃ thrown'', checkPartition ops env (disk.setGeom part.id g)
      { part with geom := g } thrown' = .ok (false, thrown''))

section Settled

variable {label : PedDiskType π δ} {env : Env} {s : Session π δ} {E : Fault → Prop}

/-- A disk with its numbers in order does not change when it is renumbered. -/
theorem Numbers.settled {Numbered : PedDisk π δ → Prop} {Trusts : ℤ → Prop}
    {Carries : δ → PedPartition π → Prop} (h : Numbers label env E Numbered Trusts Carries)
    {table : PedDisk π δ} (hgood : Orderly Numbered table) :
    Renumbers label env (fun _ => False) Unnumbered (· = table) (· = table) := by
  refine renumbers_keep fun disk hdisk hpad => ?_
  subst hdisk
  exact ⟨hgood.links, h.numbered _ hgood.nums, h.keeps _ hgood.links hpad hgood.nums⟩

/-- Entering update mode takes the placeholders away. -/
theorem Settled.push (h : Settled label env s.disk) :
    Spec E (diskPushUpdateMode label.toPedDiskOps env) s fun ok s' =>
      ok = true ∧ s'.disk = s.disk.strip.withMode 1 := by
  refine (diskPushUpdateMode_spec (I := (· = s.disk.core)) h.numbers (Or.inl h.leveled)
    (fun hne => absurd h.mode hne) rfl h.padding).mono (fun _ => False.elim) ?_
  rintro ok s' ⟨hok, hcore, hmode, hclean, -⟩
  refine ⟨hok, ?_⟩
  rw [hclean.eq_core, hcore, hmode, h.mode]
  rfl

/-- Leaving it puts them back. -/
theorem Settled.pop {disk : PedDisk π δ} (h : Settled label env disk)
    (hs : s.disk = disk.strip.withMode 1) :
    Spec E (diskPopUpdateMode label.allocMetadata env) s fun ok s' =>
      ok = true ∧ s'.disk = disk := by
  obtain ⟨thrown', hpop⟩ := h.placeholders s.thrown
  unfold Spec
  rw [show s = ⟨disk.strip.withMode 1, s.thrown⟩ by rw [← hs], hpop]
  exact ⟨rfl, rfl⟩

/-- Putting back a geometry that has not changed. -/
theorem Settled.setGeomFail {disk : PedDisk π δ} (h : Settled label env disk) {id : ℕ}
    {part : PedPartition π} (hfind : disk.find? id = some part)
    (hs : s.disk = disk.strip.withMode 1) :
    Spec E (setGeomFail label env id part.geom) s fun ok s' => ok = false ∧ s'.disk = disk := by
  unfold Libparted.setGeomFail
  refine (h.pop hs).seq fun ok s' ⟨_, hs'⟩ => ⟨rfl, ?_⟩
  obtain ⟨hmem, hact, hid⟩ := PedDisk.mem_of_find? hfind
  have hcore : disk.core.Has part :=
    hmem.imp (fun hp => List.mem_filter.mpr ⟨hp, hact⟩) fun hp => List.mem_filter.mpr ⟨hp, hact⟩
  show s'.disk.setGeom id part.geom = disk
  rw [hs']
  refine PedDisk.setGeom_eq_self ⟨fun p hp hpid => ?_, fun p hp hpid => ?_⟩
  · rw [h.links.eq_of_disk h.padding hcore (Or.inl hp) (hpid.trans hid.symm)]
  · rw [h.links.eq_of_disk h.padding hcore (Or.inr hp) (hpid.trans hid.symm)]

/-- **A request that is refused early** leaves the disk as it is. -/
theorem Settled.refused_early (h : Settled label env s.disk) {id : ℕ} {part : PedPartition π}
    (hfind : s.disk.find? id = some part) {constraint : Option PedConstraint} {start «end» : ℤ}
    (hstart : 0 ≤ start) (hearly : RefusedEarly s.disk part constraint start «end») :
    Spec E (pedDiskSetPartitionGeom label env id constraint start «end») s fun ok s' =>
      ok = false ∧ s'.disk = s.disk := by
  have hlookup : Spec E (lookup id) s fun p t => p = part ∧ t = s := by
    unfold lookup
    simp only [spec_bind, spec_getDisk, hfind]
    exact ⟨rfl, rfl⟩
  unfold pedDiskSetPartitionGeom
  refine hlookup.seq ?_
  rintro _ _ ⟨rfl, rfl⟩
  rcases hearly with hempty | ⟨newGeom, overlap, hgeom, hoverlap, hsome, hnone⟩
  · have hinit : pedGeometrySet start («end» - start + 1) = .ok none := by
      unfold pedGeometrySet
      rw [dif_pos hstart, dif_pos (by omega)]
    unfold pedGeometryInit
    rw [hinit]
    exact ⟨rfl, rfl⟩
  · have hinit : pedGeometryInit env start («end» - start + 1) = pure (some newGeom) := by
      unfold pedGeometryInit
      rw [hgeom]
      rfl
    rw [hinit]
    refine Spec.bind (spec_ask.mpr (spec_pure.mpr ?_))
    refine h.push.seq fun ok s₁ hpushed => ?_
    obtain ⟨hok, hs₁⟩ := hpushed
    subst hok
    simp only [spec_bind, spec_getDisk, Bool.not_true, Bool.false_eq_true, if_false]
    rw [hs₁]
    refine spec_lift.mpr ⟨fun r hr => ?_, fun f hf => ?_⟩
    · obtain rfl : overlap = r := Except.ok.inj (hoverlap.symm.trans hr)
      rw [if_pos (by simp [hnone, Option.isSome_iff_ne_none, hsome])]
      exact Spec.bind (spec_ask.mpr (h.setGeomFail hfind hs₁))
    · rw [hoverlap] at hf
      cases hf

end Settled

/-! ## Refusing late -/

section Late

variable {label : PedDiskType π δ} {env : Env} {s : Session π δ} {disk : PedDisk π δ} {id : ℕ}
  {part : PedPartition π} {g : PedGeometry}

/-- Every sector of the level of a partition is covered once the gaps are filled, the first
one of an extended partition apart. -/
theorem exists_mem_diskAllocFreespace (htop : part.type.logical = false →
      0 ≤ part.lo ∧ part.hi < env.dev.length)
    (hlog : part.type.logical = true → ∃ ext, pedDiskExtendedPartition (diskRemoveFreespace disk)
      = some ext ∧ ext.lo ≤ part.lo ∧ part.hi ≤ ext.hi)
    {x : ℤ} (hlo : part.lo ≤ x) (hhi : x ≤ part.hi)
    (hfirst : ∀ ext, pedDiskExtendedPartition (diskRemoveFreespace disk) = some ext →
      part.type.logical = true → x ≠ ext.lo) :
    ∃ p ∈ (diskAllocFreespace env disk).level part.type, p.lo ≤ x ∧ x ≤ p.hi := by
  cases hl : part.type.logical with
  | false =>
      obtain ⟨hpos, hlen⟩ := htop hl
      simp only [PedDisk.level, hl, Bool.false_eq_true, if_false]
      exact exists_mem_fillGaps _ (by omega) (by omega)
  | true =>
      obtain ⟨ext, hext, hinlo, hinhi⟩ := hlog hl
      have hne := hfirst ext hext hl
      have hlogicals : (diskAllocFreespace env disk).logicals = fillGaps true ext.geom.end
          ext.geom.start (by have := ext.geom.start_nonneg; omega)
          (diskRemoveFreespace disk).logicals := by
        simp only [diskAllocFreespace, allocExtendedFreespace, hext]
      simp only [PedDisk.level, hl, if_true, hlogicals]
      refine exists_mem_fillGaps _ ?_ ?_
      · simp only [PedPartition.lo] at hinlo hlo hne
        omega
      · simp only [PedPartition.hi] at hinhi hhi
        omega

/-- A placeholder lies on top of sector `x` of a partition. -/
def Buried (disk : PedDisk π δ) (part : PedPartition π) (x : ℤ) : Prop :=
  ∃ p ∈ disk.level part.type, p.isActive = false ∧ p.lo ≤ x ∧ x ≤ p.hi

/-- The sectors of a partition that a move to `g` gives up.  The first sector of the
extended partition, which `_alloc_extended_freespace` never covers, is left out. -/
def GivesUp (disk : PedDisk π δ) (part : PedPartition π) (g : PedGeometry) (x : ℤ) : Prop :=
  (part.lo ≤ x ∧ x ≤ part.hi) ∧ ¬ (g.start ≤ x ∧ x ≤ g.end) ∧
    (part.type.logical = true → ∀ ext ∈ disk.partList, ext.isExtended = true → x ≠ ext.lo)

/-- The extended partition around a logical one that is being moved. -/
theorem WellLinked.extended_setGeom (h : WellLinked disk.core) (hpart : disk.core.Has part)
    (hlogical : part.type.logical = true) {ext : PedPartition π}
    (hext : pedDiskExtendedPartition (disk.core.setGeom part.id g) = some ext) :
    ext ∈ disk.core.partList ∧ ext.isExtended = true := by
  obtain ⟨hmem, hisExt⟩ := mem_of_pedDiskExtendedPartition hext
  obtain ⟨q, hq, rfl⟩ := List.mem_map.mp hmem
  by_cases hid : q.id = part.id
  · have htop := h.leveled.1 q hq
    rw [h.eq_of_id (Or.inl hq) hpart hid, hlogical] at htop
    cases htop
  · rw [if_neg hid] at hisExt ⊢
    exact ⟨hq, hisExt⟩

/-- Other partitions of the level do not have the sectors of this one. -/
theorem NonOverlapping.clear (h : NonOverlapping env.dev disk.core) (hlinks : WellLinked disk.core)
    (hpart : disk.core.Has part) {q : PedPartition π} (hq : q ∈ disk.core.level part.type)
    (hid : q.id ≠ part.id) {x : ℤ} (hlo : part.lo ≤ x) (hhi : x ≤ part.hi) :
    ¬ (q.lo ≤ x ∧ x ≤ q.hi) := by
  have hne : q ≠ part := fun heq => hid (heq ▸ rfl)
  have hord : Ordered PedPartition.lo PedPartition.hi (disk.core.level part.type) ∧
      part ∈ disk.core.level part.type := by
    rcases hpart with hmem | hmem
    · simp only [PedDisk.level, hlinks.leveled.1 part hmem, Bool.false_eq_true, if_false]
      exact ⟨h.top, hmem⟩
    · simp only [PedDisk.level, hlinks.leveled.2 part hmem, if_true]
      exact ⟨h.logical, hmem⟩
  rintro ⟨hqlo, hqhi⟩
  rcases hord.1.disjoint hq hord.2 hne with hlt | hlt
  · omega
  · omega

theorem level_setGeom (disk : PedDisk π δ) (id : ℕ) (g : PedGeometry) (type : PedPartitionType) :
    (disk.setGeom id g).level type = (disk.level type).map
      fun p => if p.id = id then { p with geom := g } else p := by
  unfold PedDisk.level
  split <;> rfl

theorem level_core (disk : PedDisk π δ) (type : PedPartitionType) :
    disk.core.level type = (disk.level type).filter PedPartition.isActive := by
  unfold PedDisk.level
  split <;> rfl

/-- **Leaving update mode around a refused geometry** buries what the partition would
have given up. -/
theorem Settled.buried (h : Settled label env disk) (hlayout : NonOverlapping env.dev disk.core)
    (hfind : disk.find? id = some part) (hs : s.disk = (disk.strip.withMode 1).setGeom id g) :
    Spec (fun _ => True) (Libparted.setGeomFail label env id part.geom) s fun ok s' =>
      ok = false ∧ ∀ x, GivesUp disk part g x → Buried s'.disk part x := by
  obtain ⟨hmem, hact, rfl⟩ := PedDisk.mem_of_find? hfind
  have hpart : disk.core.Has part :=
    hmem.imp (fun hp => List.mem_filter.mpr ⟨hp, hact⟩) fun hp => List.mem_filter.mpr ⟨hp, hact⟩
  have hmode : s.disk.updateMode = 1 := by
    rw [hs]
    rfl
  have hcoreS : s.disk.core = disk.core.setGeom part.id g := by
    rw [hs, PedDisk.core_setGeom]
    simp [PedDisk.core, PedDisk.strip, PedDisk.withMode]
  have hpadS : s.disk.Padding Unnumbered := by
    rw [hs]
    exact (PedDisk.Clean.setGeom (PedDisk.clean_strip disk)).padding _
  have hpop := (diskPopUpdateMode_spec (T := Unnumbered) (fun _ => label.allocMetadata_frame env s)
    (Or.inr fun _ _ => trivial) (by omega) (fun _ _ => ⟨rfl, rfl⟩) hpadS).and
    (diskPopUpdateMode_fills label hmode)
  unfold Libparted.setGeomFail
  refine hpop.seq ?_
  rintro ok s' ⟨⟨-, hcore, -, -, -, hpad⟩, d, hd⟩
  refine ⟨rfl, fun x hx => ?_⟩
  obtain ⟨⟨hlo, hhi⟩, hout, hfirst⟩ := hx
  rw [hcoreS] at hcore
  have hcoreD : d.core = disk.core.setGeom part.id g := by
    rw [← PedDisk.core_diskAllocFreespace env d, ← hd, hcore]
  have hextD : pedDiskExtendedPartition (diskRemoveFreespace d)
      = pedDiskExtendedPartition (disk.core.setGeom part.id g) := by
    rw [← pedDiskExtendedPartition_core, PedDisk.core_diskRemoveFreespace, hcoreD]
  obtain ⟨p, hp, hplo, hphi⟩ : ∃ p ∈ s'.disk.level part.type, p.lo ≤ x ∧ x ≤ p.hi := by
    rw [hd]
    refine exists_mem_diskAllocFreespace (fun hl => ?_) (fun hl => ?_) hlo hhi fun ext hext hl => ?_
    · refine ⟨part.geom.start_nonneg, hlayout.inside part (hpart.resolve_right fun hlog => ?_)⟩
      simp [h.links.leveled.2 part hlog] at hl
    · have hlog : part ∈ disk.core.logicals := hpart.resolve_left fun htop => by
        simp [h.links.leveled.1 part htop] at hl
      obtain ⟨ext, hext, hisExt⟩ := h.links.linked (List.ne_nil_of_mem hlog)
      obtain ⟨ext', hext'⟩ : ∃ ext',
          pedDiskExtendedPartition (disk.core.setGeom part.id g) = some ext' := by
        refine exists_pedDiskExtendedPartition (List.mem_map.mpr ⟨ext, hext, ?_⟩) hisExt
        refine if_neg fun hid => ?_
        have htop := h.links.leveled.1 ext hext
        rw [h.links.eq_of_id (Or.inl hext) hpart hid, hl] at htop
        cases htop
      obtain ⟨hmem', hisExt'⟩ := h.links.extended_setGeom hpart hl hext'
      have hin := pedGeometryTestInside_iff.mp (hlayout.within ext' hmem' hisExt' part hlog)
      exact ⟨ext', hextD.trans hext', hin.1, hin.2⟩
    · obtain ⟨hmem', hisExt'⟩ := h.links.extended_setGeom hpart hl (hextD ▸ hext)
      exact hfirst hl ext (List.mem_filter.mp hmem').1 hisExt'
  have hinactive : p.isActive = false := by
    cases hpact : p.isActive with
    | false => rfl
    | true =>
        have hpcore : p ∈ (disk.core.setGeom part.id g).level part.type := by
          rw [← hcore, level_core]
          exact List.mem_filter.mpr ⟨hp, hpact⟩
        rw [level_setGeom] at hpcore
        obtain ⟨q, hq, rfl⟩ := List.mem_map.mp hpcore
        by_cases hid : q.id = part.id
        · rw [if_pos hid] at hplo hphi
          exact absurd ⟨hplo, hphi⟩ hout
        · rw [if_neg hid] at hplo hphi
          exact absurd ⟨hplo, hphi⟩ (hlayout.clear h.links hpart hq hid hlo hhi)
  -- placeholders have no identity, so that putting back the geometry does not move this one
  have hid : p.id ≠ part.id := by
    have hp0 : p.id = 0 := by
      unfold PedDisk.level at hp
      split at hp
      · exact (hpad.2 p hp hinactive).2
      · exact (hpad.1 p hp hinactive).2
    rw [hp0]
    exact (hpart.elim (h.links.ids.1 part) (h.links.ids.2 part)).symm
  refine ⟨p, ?_, hinactive, hplo, hphi⟩
  show p ∈ (s'.disk.setGeom part.id part.geom).level part.type
  rw [level_setGeom]
  exact (mem_setGeom_of_ne hid).mpr hp

theorem Settled.refused_place (h : Settled label env disk)
    (hlayout : NonOverlapping env.dev disk.core) (hfind : disk.find? id = some part)
    (hstrip : (disk.strip.withMode 1).find? id = some part)
    {constraint overlap : Option PedConstraint} {newGeom : PedGeometry}
    (hoverlap : partitionGetOverlapConstraint (disk.strip.withMode 1) part newGeom = .ok overlap)
    (hs : s.disk = (disk.strip.withMode 1).setGeom id newGeom) :
    Spec (fun _ => True)
      (setGeomPlace label env id (pedConstraintIntersect overlap constraint) part.geom) s
      fun ok s' => ok = false → ∃ g,
        RefusedAt label.toPedDiskOps env (disk.strip.withMode 1) part constraint newGeom g ∧
        ∀ x, GivesUp disk part g x → Buried s'.disk part x := by
  obtain rfl := (PedDisk.mem_of_find? hfind).2.2
  have hfound : ∀ (t : Session π δ) g p, t.disk = (disk.strip.withMode 1).setGeom part.id g →
      t.disk.find? part.id = some p → p = { part with geom := g } := by
    intro t g p ht hp
    obtain ⟨-, old, hold, rfl⟩ := PedDisk.find?_setGeom (ht ▸ hp)
    rw [hstrip] at hold
    rw [Option.some.inj hold]
  unfold setGeomPlace
  refine Spec.bind (spec_lookup trivial fun p hp => ?_)
  obtain rfl := hfound s newGeom p hs hp
  refine Spec.bind (spec_getDisk.mpr (Spec.bind (spec_ask.mpr
    (spec_iff.mpr ⟨fun r t halign => ?_, fun _ _ => trivial⟩))))
  obtain ⟨ok, g⟩ := r
  simp only [spec_bind, spec_modifyDisk]
  have hset : s.disk.setGeom part.id g = (disk.strip.withMode 1).setGeom part.id g := by
    rw [hs, PedDisk.setGeom_setGeom]
  rw [hs] at halign
  have hfail : ∀ t' : Session π δ, t'.disk = (disk.strip.withMode 1).setGeom part.id g →
      RefusedAt label.toPedDiskOps env (disk.strip.withMode 1) part constraint newGeom g →
      Spec (fun _ => True) (Libparted.setGeomFail label env part.id part.geom) t' fun ok s' =>
        ok = false → ∃ g, RefusedAt label.toPedDiskOps env (disk.strip.withMode 1) part constraint
          newGeom g ∧ ∀ x, GivesUp disk part g x → Buried s'.disk part x :=
    fun t' ht' hat => (h.buried hlayout hfind ht').imp fun _ _ hb _ => ⟨g, hat, hb.2⟩
  cases ok with
  | false =>
      refine hfail _ hset ⟨overlap, false, s.thrown, t, hoverlap, halign, fun hno => ?_⟩
      exact absurd hno Bool.false_ne_true
  | true =>
      refine Spec.bind (spec_lookup trivial fun p hp => ?_)
      obtain rfl := hfound _ g p hset hp
      refine Spec.bind (spec_getDisk.mpr (Spec.bind (spec_ask.mpr
        (spec_iff.mpr ⟨fun ok t' hcheck => ?_, fun _ _ => trivial⟩))))
      cases ok with
      | false =>
          refine hfail _ hset ⟨overlap, true, s.thrown, t, hoverlap, halign, fun _ => ⟨t', ?_⟩⟩
          rw [← hset]
          exact hcheck
      | true =>
          simp only [Bool.not_true, Bool.false_eq_true, if_false, spec_bind, spec_modifyDisk]
          refine spec_iff.mpr ⟨fun _ s₂ _ => ?_, fun _ _ => trivial⟩
          refine Spec.bind (diskPopUpdateMode_true.imp fun ok s₃ hok => ?_)
          subst hok
          exact fun hno => absurd hno.symm Bool.false_ne_true

/-- **A request that is refused late** buries what the partition would have given up. -/
theorem Settled.refused_late (h : Settled label env s.disk)
    (hlayout : NonOverlapping env.dev s.disk.core) (hfind : s.disk.find? id = some part)
    {constraint : Option PedConstraint} {start «end» : ℤ}
    (hearly : ¬ RefusedEarly s.disk part constraint start «end») :
    Spec (fun _ => True) (pedDiskSetPartitionGeom label env id constraint start «end») s
      fun ok s' => ok = false → ∃ newGeom g, newGeom.start = start ∧ newGeom.end = «end» ∧
        RefusedAt label.toPedDiskOps env (s.disk.strip.withMode 1) part constraint newGeom g ∧
        ∀ x, GivesUp s.disk part g x → Buried s'.disk part x := by
  have hstrip : (s.disk.strip.withMode 1).find? id = some part := by
    rw [← PedDisk.find?_core, ← hfind, ← PedDisk.find?_core s.disk]
    simp [PedDisk.core, PedDisk.strip, PedDisk.withMode]
  unfold pedDiskSetPartitionGeom
  refine Spec.bind (spec_lookup trivial fun p hp => ?_)
  obtain rfl : part = p := Option.some.inj (hfind.symm.trans hp)
  have hinit : Spec (fun _ => True) (pedGeometryInit env start («end» - start + 1)) s.thrown
      fun r _ => pedGeometrySet start («end» - start + 1) = .ok r := by
    unfold pedGeometryInit
    refine Spec.bind (spec_lift.mpr ⟨fun r hr => ?_, fun _ _ => trivial⟩)
    cases r with
    | none => exact hr
    | some geom => exact hr
  refine Spec.bind (spec_ask.mpr (hinit.imp fun r t hgeom => ?_))
  cases r with
  | none =>
      refine absurd (Or.inl ?_) hearly
      unfold pedGeometrySet at hgeom
      split_ifs at hgeom <;> simp at hgeom
      omega
  | some newGeom =>
      have hpush : Settled label env (Session.mk s.disk t).disk := h
      refine hpush.push.seq fun ok s₁ hpushed => ?_
      obtain ⟨hok, hs₁⟩ := hpushed
      subst hok
      simp only [spec_bind, spec_getDisk, Bool.not_true, Bool.false_eq_true, if_false]
      refine spec_lift.mpr ⟨fun overlap hoverlap => ?_, fun _ _ => trivial⟩
      rw [hs₁] at hoverlap
      refine Spec.ite (fun hrefuse => ?_) fun _ => ?_
      · simp only [Bool.and_eq_true, Option.isNone_iff_eq_none] at hrefuse
        exact absurd (Or.inr ⟨newGeom, overlap, hgeom, hoverlap,
          Option.isSome_iff_ne_none.mp hrefuse.2, hrefuse.1⟩) hearly
      · refine Spec.bind (spec_modifyDisk.mpr ?_)
        obtain ⟨hstart, hlength⟩ := pedGeometrySet_eq_some hgeom
        have hend : newGeom.end = «end» := by
          unfold PedGeometry.end
          omega
        refine (h.refused_place hlayout hfind hstrip hoverlap (hs₁ ▸ rfl)).imp
          fun ok s' hs' hno => ?_
        obtain ⟨g, hat, hburied⟩ := hs' hno
        exact ⟨newGeom, g, hstart, hend, hat, hburied⟩

end Late

/-! ## The two stages together -/

/-- **What a refused move leaves behind.**  On a settled disk whose partitions do not
overlap, a request that is refused before the geometry is overwritten returns 0 and
leaves the whole disk as it was, placeholders included.  A request that gets further and
is refused then has been refused with some geometry `g`, and every sector the partition
would have given up for `g` ends up below a placeholder. -/
theorem setPartitionGeom_refusal (label : PedDiskType π δ) (env : Env) (s : Session π δ)
    (hset : Settled label env s.disk) (hlayout : NonOverlapping env.dev s.disk.core) (id : ℕ)
    (part : PedPartition π) (hfind : s.disk.find? id = some part)
    (constraint : Option PedConstraint) (start «end» : ℤ) (hstart : 0 ≤ start) :
    (RefusedEarly s.disk part constraint start «end» → ∃ thrown,
      pedDiskSetPartitionGeom label env id constraint start «end» s
        = .ok (false, ⟨s.disk, thrown⟩)) ∧
    (¬ RefusedEarly s.disk part constraint start «end» → ∀ s',
      pedDiskSetPartitionGeom label env id constraint start «end» s = .ok (false, s') →
      ∃ newGeom g, newGeom.start = start ∧ newGeom.end = «end» ∧
        RefusedAt label.toPedDiskOps env (s.disk.strip.withMode 1) part constraint newGeom g ∧
        ∀ x, GivesUp s.disk part g x → Buried s'.disk part x) := by
  constructor
  · intro hearly
    obtain ⟨ok, s', hrun, rfl, hdisk⟩ := (hset.refused_early hfind hstart hearly).exists_ok
    exact ⟨s'.thrown, hdisk ▸ hrun⟩
  · intro hlate s' hrun
    exact (hset.refused_late hlayout hfind hlate).of_ok hrun rfl

/-- A GPT disk with partition 1 in sectors 10 to 19. -/
def gptSession : Session GPTPartitionData GPTDiskData where
  disk :=
    { partList := [.placeholder (.ofMetadata false) (.fromTo 0 2),
        .placeholder (.ofFreespace false) (.fromTo 3 9),
        ⟨1, .normal, 1, .fromTo 10 19, some gptData⟩,
        .placeholder (.ofFreespace false) (.fromTo 20 97),
        .placeholder (.ofMetadata false) (.fromTo 98 99)]
      logicals := []
      updateMode := 0
      needsClobber := false
      diskSpecific := gptHundred }
  thrown := []

theorem gptSession_fill : diskAllocFreespace cancelHundred
    ((((gptSession.disk.strip.withMode 1).place (.placeholder (.ofMetadata false)
      (.ofStartEnd 0 2 (by decide) (by decide)))).place (.placeholder (.ofMetadata false)
      (.ofStartEnd 98 99 (by decide) (by decide)))).withMode 0) = gptSession.disk := by
  decide

theorem gptSession_numbers : GptNumbered gptSession.disk.core := by
  refine ⟨by decide, ?_, rfl⟩
  rintro part (hpart | hpart)
  · obtain rfl := List.mem_singleton.mp hpart
    decide
  · exact absurd hpart List.not_mem_nil

theorem gptSession_settled : Settled gptDiskType cancelHundred gptSession.disk := by
  have hlinks : WellLinked gptSession.disk.core :=
    ⟨by decide, ⟨by decide, by decide⟩, ⟨by decide, by decide⟩, by decide⟩
  refine ⟨rfl, hlinks, ⟨by decide, by decide⟩, ?_, gpt_numbers.settled ⟨hlinks, gptSession_numbers⟩,
    fun thrown => ⟨thrown, Spec.eq_ok ?_⟩⟩
  · unfold PedDisk.Padding PedDisk.Each Unnumbered
    decide
  · have hlev : (gptSession.disk.strip.withMode 1).Leveled := ⟨by decide, by decide⟩
    have hsize : (2 : ℤ) = pedDivRoundUp sizeofHeader 512 + pedDivRoundUp (4 * sizeofEntry) 512 := by
      decide
    refine (diskPopUpdateMode_run rfl hlev ?_ (gptAllocMetadata_run 2 hsize (by decide) hlev
      rfl (by decide))).imp ?_
    · exact PedDisk.Each.place (PedDisk.Each.place hlev id id) id id
    · rintro ok s' ⟨rfl, rfl⟩
      exact ⟨rfl, congrArg (Session.mk · thrown) gptSession_fill⟩

/-- Sectors 0 to 2, which the label needs for itself. -/
def metadataArea : PedConstraint := pedConstraintNewFromMax (.fromTo 0 2)

theorem gptSession_layout : NonOverlapping hundredSectors gptSession.disk.core :=
  ⟨by unfold Ordered; decide, by decide, by decide, by unfold Ordered; decide, by decide⟩

/-- A request that ends before it starts. -/
theorem setPartitionGeom_refusal_gpt : ∃ thrown,
    pedDiskSetPartitionGeom gptDiskType cancelHundred 1 (some metadataArea) 30 20 gptSession
      = .ok (false, ⟨gptSession.disk, thrown⟩) :=
  (setPartitionGeom_refusal gptDiskType cancelHundred gptSession gptSession_settled
    gptSession_layout 1 _ rfl (some metadataArea) 30 20 (by decide)).1 (Or.inl (by decide))

/-- The label refuses a place among its metadata; afterwards free space reaches from
sector 3 to 97, over the partition in sectors 10 to 19. -/
theorem setPartitionGeom_buries :
    (pedDiskSetPartitionGeom gptDiskType cancelHundred 1 (some metadataArea) 0 2
      gptSession).toOption.map (fun r => (r.1, r.2.disk.partList.map
        fun part => (part.isActive, part.geom.start, part.geom.end)))
      = some (false, [(true, 10, 19), (false, 0, 2), (false, 3, 97), (false, 98, 99)]) := by
  decide +kernel

end Libparted
