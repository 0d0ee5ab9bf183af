import Libparted.Library.Program

/-!
# Devices and geometries (`libparted/cs/geom.c`)

A `PedGeometry` is a run of sectors on a device.  The C structure stores
`start`, `length` and `end` and every value of it passes through
`ped_geometry_set`, which asserts `start >= 0`, refuses a length below one and
computes `end`.  Here those two facts are fields, so that an invalid geometry
cannot be built, and `end` is a function of the other two.

All geometries of a development live on one device.  The device therefore does
not occur in `PedGeometry`; functions that read `dev->length` take the
`PedDevice`.  A `PedSector` is an integer of `ℤ`: arithmetic on sector numbers is exact.

## Faults

Two things can go wrong in the C code that no return value reports: a
`PED_ASSERT` fails, which aborts the program, or memory is used that was never
set up.  Both are `Fault`s, and a function that can reach one returns in
`Except Fault`.  `outOfFuel` belongs to functions whose recursion the source
does not bound; it stands for "still running".
-/

namespace Libparted

/-- Ways to leave a function without returning from it. -/
inductive Fault where
  /-- `PED_ASSERT (cond)` failed: the program aborts. -/
  | assertion (cond : String)
  /-- The C code reads memory that holds no defined value. -/
  | undefined (what : String)
  /-- The recursion has not ended within the given depth. -/
  | outOfFuel
deriving DecidableEq, Repr

/-- `PED_ASSERT (cond)`. -/
def pedAssert (cond : Bool) (text : String) : Except Fault Unit :=
  if cond then .ok () else .error (.assertion text)

theorem fails_pedAssert {E : Fault → Prop} {cond : Bool} {text : String} (h : cond = true) :
    Library.Fails E (pedAssert cond text) := by
  rw [pedAssert, if_pos h]
  exact Library.fails_ok _

/-- `PedCHSGeometry`.  The device layer and the geometry probes set positive values
only, and the alignment code divides by them. -/
structure PedCHSGeometry where
  cylinders : ℤ
  heads : ℤ
  sectors : ℤ
  heads_pos : 0 < heads
  sectors_pos : 0 < sectors
deriving DecidableEq, Repr

/-- The part of `PedDevice` that the modelled functions read. -/
structure PedDevice where
  path : String
  length : ℤ
  sectorSize : ℕ
  biosGeom : PedCHSGeometry
deriving DecidableEq, Repr

/-- A non-empty run of sectors. -/
structure PedGeometry where
  start : ℤ
  length : ℤ
  start_nonneg : 0 ≤ start
  length_pos : 1 ≤ length
deriving DecidableEq

namespace PedGeometry

/-- `geom->end`, the last sector. -/
def «end» (g : PedGeometry) : ℤ := g.start + g.length - 1

theorem end_mk (s l : ℤ) (hs : 0 ≤ s) (hl : 1 ≤ l) :
    (⟨s, l, hs, hl⟩ : PedGeometry).end = s + l - 1 := rfl

theorem start_le_end (g : PedGeometry) : g.start ≤ g.end := by
  have := g.length_pos
  unfold «end»
  omega

theorem end_nonneg (g : PedGeometry) : 0 ≤ g.end :=
  g.start_nonneg.trans g.start_le_end

theorem length_eq (g : PedGeometry) : g.length = g.end - g.start + 1 := by
  unfold «end»
  omega

/-- A geometry is determined by its first and last sector. -/
theorem ext_start_end {g h : PedGeometry} (hs : g.start = h.start)
    (he : g.end = h.end) : g = h := by
  have hl : g.length = h.length := by
    rw [g.length_eq, h.length_eq, hs, he]
  cases g
  cases h
  simp_all

/-- The geometry from sector `s` to sector `e`. -/
def ofStartEnd (s e : ℤ) (hs : 0 ≤ s) (he : s ≤ e) : PedGeometry :=
  ⟨s, e - s + 1, hs, by omega⟩

@[simp] theorem ofStartEnd_start {s e : ℤ} (hs : 0 ≤ s) (he : s ≤ e) :
    (ofStartEnd s e hs he).start = s := rfl

@[simp] theorem ofStartEnd_end {s e : ℤ} (hs : 0 ≤ s) (he : s ≤ e) :
    (ofStartEnd s e hs he).end = e := by
  simp only [ofStartEnd, end_mk]
  omega

/-- The geometry from sector `first` to sector `last`, for samples. -/
def fromTo (first last : ℕ) : PedGeometry :=
  ⟨first, (last - first : ℕ) + 1, Int.natCast_nonneg first, by omega⟩

/-- The sectors a geometry covers. -/
def sectors (g : PedGeometry) : Set ℤ := Set.Icc g.start g.end

/-- The whole geometry lies on a device of `length` sectors. -/
def InsideDevice (g : PedGeometry) (dev : PedDevice) : Prop := g.end < dev.length

instance (g : PedGeometry) (dev : PedDevice) : Decidable (g.InsideDevice dev) :=
  inferInstanceAs (Decidable (g.end < dev.length))

end PedGeometry

/-- `ped_geometry_set`, and with it `ped_geometry_init` and `ped_geometry_new`:
`none` is the failure return, which comes with the exception "Can't have the end
before the start!". -/
def pedGeometrySet (start length : ℤ) : Except Fault (Option PedGeometry) :=
  if hs : 0 ≤ start then
    if hl : length < 1 then .ok none
    else .ok (some ⟨start, length, hs, by omega⟩)
  else .error (.assertion "start >= 0")

/-- `ped_geometry_init` on a local variable whose result the caller does not
look at.  When the call fails the variable is left as it was, so using it
afterwards reads an indeterminate value. -/
def pedGeometryInitUnchecked (start length : ℤ) : Except Fault PedGeometry := do
  match ← pedGeometrySet start length with
  | some geom => return geom
  | none => throw (.undefined "geometry variable never set")

theorem pedGeometrySet_eq {start length : ℤ} (hs : 0 ≤ start)
    (hl : 1 ≤ length) :
    pedGeometrySet start length = .ok (some ⟨start, length, hs, hl⟩) := by
  have hnl : ¬ length < 1 := by omega
  simp [pedGeometrySet, hs, hnl]

theorem pedGeometryInitUnchecked_eq {start length : ℤ} (hs : 0 ≤ start)
    (hl : 1 ≤ length) :
    pedGeometryInitUnchecked start length = .ok ⟨start, length, hs, hl⟩ := by
  simp only [pedGeometryInitUnchecked, pedGeometrySet_eq hs hl]
  rfl

theorem pedGeometrySet_eq_some {start length : ℤ} {geom : PedGeometry}
    (h : pedGeometrySet start length = .ok (some geom)) :
    geom.start = start ∧ geom.length = length := by
  unfold pedGeometrySet at h
  split at h
  · split at h
    · simp at h
    · cases h
      exact ⟨rfl, rfl⟩
  · simp at h

theorem pedGeometryInitUnchecked_ok {start length : ℤ} {geom : PedGeometry}
    (h : pedGeometryInitUnchecked start length = .ok geom) :
    geom.start = start ∧ geom.length = length := by
  unfold pedGeometryInitUnchecked at h
  rw [Library.bind_eq_ok] at h
  obtain ⟨result, hresult, h⟩ := h
  cases result with
  | none => simp [throw, throwThe, MonadExceptOf.throw] at h
  | some g =>
      cases h
      exact pedGeometrySet_eq_some hresult

/-! ## Predicates on geometries -/

/-- `ped_geometry_test_sector_inside`. -/
def pedGeometryTestSectorInside (geom : PedGeometry) (sector : ℤ) : Bool :=
  sector ≥ geom.start && sector ≤ geom.end

/-- `ped_geometry_test_inside`: does `b` lie completely within `a`? -/
def pedGeometryTestInside (a b : PedGeometry) : Bool :=
  b.start ≥ a.start && b.end ≤ a.end

/-- `ped_geometry_test_equal`. -/
def pedGeometryTestEqual (a b : PedGeometry) : Bool :=
  a.start == b.start && a.end == b.end

/-- `ped_geometry_intersect`: the common region, `none` when there is none.  The
start handed to `ped_geometry_new` is the larger of two starts, hence never
negative. -/
def pedGeometryIntersect (a b : PedGeometry) : Option PedGeometry :=
  if h : max a.start b.start > min a.end b.end then none
  else some ⟨max a.start b.start, min a.end b.end - max a.start b.start + 1,
    le_max_of_le_left a.start_nonneg, by omega⟩

/-- `ped_geometry_map`.  The sector is counted from the start of `src`; the range check
at the top compares it with sectors counted from the start of the device. -/
def pedGeometryMap (dst src : PedGeometry) (sector : ℤ) : ℤ :=
  if ¬ pedGeometryTestSectorInside src sector then -1
  else
    let result := src.start + sector - dst.start
    if result < 0 ∨ result > dst.length then -1 else result

@[simp] theorem pedGeometryTestSectorInside_iff {geom : PedGeometry}
    {sector : ℤ} :
    pedGeometryTestSectorInside geom sector = true ↔
      geom.start ≤ sector ∧ sector ≤ geom.end := by
  simp [pedGeometryTestSectorInside]

@[simp] theorem pedGeometryTestInside_iff {a b : PedGeometry} :
    pedGeometryTestInside a b = true ↔ a.start ≤ b.start ∧ b.end ≤ a.end := by
  simp [pedGeometryTestInside]

/-- A sector lies in the intersection exactly when it lies in both regions. -/
theorem mem_pedGeometryIntersect (a b : PedGeometry) (sector : ℤ) :
    (a.start ≤ sector ∧ sector ≤ a.end) ∧ (b.start ≤ sector ∧ sector ≤ b.end) ↔
      ∃ c, pedGeometryIntersect a b = some c ∧ c.start ≤ sector ∧ sector ≤ c.end := by
  unfold pedGeometryIntersect
  constructor
  · rintro ⟨⟨ha, hae⟩, hb, hbe⟩
    have hle : ¬ max a.start b.start > min a.end b.end := by omega
    refine ⟨_, dif_neg hle, ?_, ?_⟩
    · exact max_le ha hb
    · simp only [PedGeometry.end_mk]
      omega
  · rintro ⟨c, hc, hs, he⟩
    split at hc
    · simp at hc
    · cases hc
      simp only [PedGeometry.end_mk] at hs he ⊢
      omega

theorem pedGeometryIntersect_start {a b c : PedGeometry}
    (h : pedGeometryIntersect a b = some c) : c.start = max a.start b.start := by
  unfold pedGeometryIntersect at h
  split at h
  · simp at h
  · cases h
    rfl

theorem pedGeometryIntersect_end {a b c : PedGeometry}
    (h : pedGeometryIntersect a b = some c) : c.end = min a.end b.end := by
  unfold pedGeometryIntersect at h
  split at h
  · simp at h
  · cases h
    simp only [PedGeometry.end_mk]
    omega

/-- When a sector is mapped: the range check asks too much of it. -/
theorem pedGeometryMap_eq {dst src : PedGeometry} {sector result : ℤ} (hresult : result ≠ -1) :
    pedGeometryMap dst src sector = result ↔
      src.start ≤ sector ∧ sector ≤ src.end ∧ 0 ≤ result ∧ result ≤ dst.length ∧
        dst.start + result = src.start + sector := by
  unfold pedGeometryMap
  simp only [pedGeometryTestSectorInside_iff]
  split_ifs <;> omega

end Libparted
