import Libparted.AlignmentIntersect

/-!
# Constraints and their intersection (`libparted/cs/constraint.c`)

A constraint restricts where a region may start and end (an alignment and a
range for each) and how long it may be.  `pedConstraintIsSolution` is the
library's own meaning of a constraint, and the main result here is that
`ped_constraint_intersect` is intersection with respect to it.  The five
components are intersected independently, which is exact because each of them
restricts one number of the region only.
-/

namespace Libparted

open Library

/-- `PedConstraint`.  `ped_constraint_init` asserts that both sizes are
positive. -/
structure PedConstraint where
  startAlign : Option PedAlignment
  endAlign : Option PedAlignment
  startRange : PedGeometry
  endRange : PedGeometry
  minSize : ℤ
  maxSize : ℤ
  min_pos : 0 < minSize
  max_pos : 0 < maxSize

/-- `ped_constraint_new`: the alignments are duplicated, which normalises their
offsets, and the sizes are asserted to be positive. -/
def pedConstraintNew (startAlign endAlign : Option PedAlignment)
    (startRange endRange : PedGeometry) (minSize maxSize : ℤ) :
    Except Fault PedConstraint :=
  if hmin : 0 < minSize then
    if hmax : 0 < maxSize then
      .ok ⟨startAlign.bind pedAlignmentDuplicate, endAlign.bind pedAlignmentDuplicate,
        startRange, endRange, minSize, maxSize, hmin, hmax⟩
    else .error (.assertion "max_size > 0")
  else .error (.assertion "min_size > 0")

/-- `ped_constraint_new_from_max`: anything inside `max`. -/
def pedConstraintNewFromMax (max : PedGeometry) : PedConstraint :=
  ⟨some pedAlignmentAny, some pedAlignmentAny, max, max, 1, max.length, by decide,
    by have := max.length_pos; omega⟩

/-- `ped_constraint_any`: anything on the device. -/
def pedConstraintAny (dev : PedDevice) : Except Fault (Option PedConstraint) := do
  match ← pedGeometrySet 0 dev.length with
  | none => return none
  | some fullDev =>
      return some (← pedConstraintNew (some pedAlignmentAny) (some pedAlignmentAny)
        fullDev fullDev 1 dev.length)

/-- `ped_constraint_exact`: the given region and no other. -/
def pedConstraintExact (dev : PedDevice) (geom : PedGeometry) :
    Except Fault PedConstraint :=
  pedConstraintNew (pedAlignmentInit geom.start 0) (pedAlignmentInit geom.end 0)
    ⟨geom.start, 1, geom.start_nonneg, by decide⟩
    ⟨geom.end, 1, geom.end_nonneg, by decide⟩ 1 dev.length

/-- `ped_constraint_is_solution`. -/
def pedConstraintIsSolution (constraint : PedConstraint) (geom : PedGeometry) : Bool :=
  pedAlignmentIsAligned constraint.startAlign none geom.start
    && pedAlignmentIsAligned constraint.endAlign none geom.end
    && pedGeometryTestSectorInside constraint.startRange geom.start
    && pedGeometryTestSectorInside constraint.endRange geom.end
    && !decide (geom.length < constraint.minSize)
    && !decide (geom.length > constraint.maxSize)

/-- `ped_constraint_intersect`.  The sizes of the result are again positive, so
the assertions of `ped_constraint_new` cannot fail here. -/
def pedConstraintIntersect :
    Option PedConstraint → Option PedConstraint → Option PedConstraint
  | some a, some b => do
      let startAlign ← pedAlignmentIntersect a.startAlign b.startAlign
      let endAlign ← pedAlignmentIntersect a.endAlign b.endAlign
      let startRange ← pedGeometryIntersect a.startRange b.startRange
      let endRange ← pedGeometryIntersect a.endRange b.endRange
      some ⟨pedAlignmentDuplicate startAlign, pedAlignmentDuplicate endAlign,
        startRange, endRange, max a.minSize b.minSize, min a.maxSize b.maxSize,
        lt_max_of_lt_left a.min_pos, lt_min a.max_pos b.max_pos⟩
  | _, _ => none

/-- The sectors a possibly `NULL` alignment accepts. -/
def Accepts (align : Option PedAlignment) (s : ℤ) : Prop :=
  ∃ a ∈ align, OnGrid a.offset a.grainSize s

@[simp] theorem accepts_some {a : PedAlignment} {s : ℤ} :
    Accepts (some a) s ↔ OnGrid a.offset a.grainSize s := by
  simp [Accepts]

@[simp] theorem not_accepts_none {s : ℤ} : ¬ Accepts none s := by
  simp [Accepts]

theorem pedAlignmentIsAligned_iff_accepts {align : Option PedAlignment} {s : ℤ} :
    pedAlignmentIsAligned align none s = true ↔ Accepts align s := by
  cases align with
  | none => simp [pedAlignmentIsAligned]
  | some a => simp [pedAlignmentIsAligned_iff]

/-- Every sector lies on the grid of `ped_alignment_any`. -/
@[simp] theorem accepts_pedAlignmentAny {s : ℤ} : Accepts (some pedAlignmentAny) s := by
  simp [OnGrid, pedAlignmentAny]

/-- Duplicating an alignment keeps its sectors. -/
@[simp] theorem accepts_pedAlignmentDuplicate {a : PedAlignment} {s : ℤ} :
    Accepts (pedAlignmentDuplicate a) s ↔ OnGrid a.offset a.grainSize s := by
  obtain ⟨c, hc⟩ := Option.ne_none_iff_exists'.mp
    (fun h => absurd ((pedAlignmentInit_eq_none _).mp h) (not_lt.mpr a.grain_nonneg))
  rw [pedAlignmentDuplicate, hc, accepts_some]
  exact onGrid_pedAlignmentInit hc

/-- `ped_constraint_is_solution`, component by component. -/
theorem pedConstraintIsSolution_iff {constraint : PedConstraint} {geom : PedGeometry} :
    pedConstraintIsSolution constraint geom = true ↔
      Accepts constraint.startAlign geom.start ∧ Accepts constraint.endAlign geom.end ∧
      (constraint.startRange.start ≤ geom.start ∧ geom.start ≤ constraint.startRange.end) ∧
      (constraint.endRange.start ≤ geom.end ∧ geom.end ≤ constraint.endRange.end) ∧
      constraint.minSize ≤ geom.length ∧ geom.length ≤ constraint.maxSize := by
  simp only [pedConstraintIsSolution, Bool.and_eq_true, Bool.not_eq_true',
    decide_eq_false_iff_not, not_lt, pedAlignmentIsAligned_iff_accepts,
    pedGeometryTestSectorInside_iff, and_assoc]

/-- Both grains of the constraint fit the `int` parameters of
`extended_euclid`. -/
def PedConstraint.GrainsFit (constraint : PedConstraint) : Prop :=
  (∀ a ∈ constraint.startAlign, a.grainSize < 2 ^ 31) ∧
    ∀ a ∈ constraint.endAlign, a.grainSize < 2 ^ 31

instance (constraint : PedConstraint) : Decidable constraint.GrainsFit :=
  inferInstanceAs (Decidable (_ ∧ _))

theorem accepts_pedAlignmentIntersect {a b : Option PedAlignment}
    (ha : ∀ x ∈ a, x.grainSize < 2 ^ 31) (hb : ∀ x ∈ b, x.grainSize < 2 ^ 31) (s : ℤ) :
    (Accepts a s ∧ Accepts b s) ↔ Accepts (pedAlignmentIntersect a b) s := by
  cases a with
  | none => simp [pedAlignmentIntersect]
  | some a =>
      cases b with
      | none => simp [pedAlignmentIntersect]
      | some b =>
          rw [accepts_some, accepts_some,
            onGrid_pedAlignmentIntersect (ha a rfl) (hb b rfl) s]
          simp [Accepts, Option.mem_def]

/-- The components of a successful intersection. -/
theorem pedConstraintIntersect_eq_some {a b c : PedConstraint} :
    pedConstraintIntersect (some a) (some b) = some c ↔
      ∃ startAlign, pedAlignmentIntersect a.startAlign b.startAlign = some startAlign ∧
      ∃ endAlign, pedAlignmentIntersect a.endAlign b.endAlign = some endAlign ∧
      ∃ startRange, pedGeometryIntersect a.startRange b.startRange = some startRange ∧
      ∃ endRange, pedGeometryIntersect a.endRange b.endRange = some endRange ∧
        c = ⟨pedAlignmentDuplicate startAlign, pedAlignmentDuplicate endAlign,
          startRange, endRange, max a.minSize b.minSize, min a.maxSize b.maxSize,
          lt_max_of_lt_left a.min_pos, lt_min a.max_pos b.max_pos⟩ := by
  simp only [pedConstraintIntersect, bind, Option.bind_eq_some_iff, Option.some.injEq,
    eq_comm (a := c)]

/-- A region satisfies an intersection exactly when it satisfies both sides. -/
theorem isSolution_pedConstraintIntersect {a b : PedConstraint}
    (ha : a.GrainsFit) (hb : b.GrainsFit) (geom : PedGeometry) :
    (pedConstraintIsSolution a geom = true ∧ pedConstraintIsSolution b geom = true) ↔
      ∃ c, pedConstraintIntersect (some a) (some b) = some c ∧
        pedConstraintIsSolution c geom = true := by
  simp only [pedConstraintIntersect_eq_some, pedConstraintIsSolution_iff]
  constructor
  · rintro ⟨⟨sa, ea, sra, era, mina, maxa⟩, sb, eb, srb, erb, minb, maxb⟩
    obtain ⟨startAlign, hsa, hs⟩ := (accepts_pedAlignmentIntersect ha.1 hb.1 _).mp ⟨sa, sb⟩
    obtain ⟨endAlign, hea, he⟩ := (accepts_pedAlignmentIntersect ha.2 hb.2 _).mp ⟨ea, eb⟩
    obtain ⟨startRange, hsr, hs'⟩ := (mem_pedGeometryIntersect _ _ _).mp ⟨sra, srb⟩
    obtain ⟨endRange, her, he'⟩ := (mem_pedGeometryIntersect _ _ _).mp ⟨era, erb⟩
    refine ⟨_, ⟨startAlign, hsa, endAlign, hea, startRange, hsr, endRange, her, rfl⟩, ?_⟩
    simp only [accepts_pedAlignmentDuplicate]
    exact ⟨hs, he, hs', he', max_le mina minb, le_min maxa maxb⟩
  · rintro ⟨c, ⟨startAlign, hsa, endAlign, hea, startRange, hsr, endRange, her, rfl⟩,
      hs, he, hs', he', hmin, hmax⟩
    simp only [accepts_pedAlignmentDuplicate] at hs he
    have hstart := (accepts_pedAlignmentIntersect ha.1 hb.1 _).mpr ⟨startAlign, hsa, hs⟩
    have hend := (accepts_pedAlignmentIntersect ha.2 hb.2 _).mpr ⟨endAlign, hea, he⟩
    have hsrange := (mem_pedGeometryIntersect _ _ _).mpr ⟨startRange, hsr, hs'⟩
    have herange := (mem_pedGeometryIntersect _ _ _).mpr ⟨endRange, her, he'⟩
    exact ⟨⟨hstart.1, hend.1, hsrange.1, herange.1, (le_max_left _ _).trans hmin,
        hmax.trans (min_le_left _ _)⟩,
      hstart.2, hend.2, hsrange.2, herange.2, (le_max_right _ _).trans hmin,
        hmax.trans (min_le_right _ _)⟩

/-- **Constraint intersection is exact.**  A region satisfies two constraints
exactly when their intersection exists and the region satisfies it; and the
intersection of two alignments accepts exactly the sectors both accept. -/
theorem pedConstraintIntersect_exact :
    (∀ a b : PedConstraint, a.GrainsFit → b.GrainsFit → ∀ geom : PedGeometry,
      (pedConstraintIsSolution a geom = true ∧ pedConstraintIsSolution b geom = true) ↔
        ∃ c, pedConstraintIntersect (some a) (some b) = some c ∧
          pedConstraintIsSolution c geom = true) ∧
    (∀ a b : PedAlignment, a.grainSize < 2 ^ 31 → b.grainSize < 2 ^ 31 → ∀ s : ℤ,
      (pedAlignmentIsAligned (some a) none s = true ∧
          pedAlignmentIsAligned (some b) none s = true) ↔
        ∃ c, pedAlignmentIntersect (some a) (some b) = some c ∧
          pedAlignmentIsAligned (some c) none s = true) := by
  refine ⟨fun a b ha hb geom => isSolution_pedConstraintIntersect ha hb geom,
    fun a b ha hb s => ?_⟩
  simp only [pedAlignmentIsAligned_iff_accepts, accepts_some]
  exact onGrid_pedAlignmentIntersect ha hb s

/-- The grids `1 mod 4` and `3 mod 6` meet in `9 mod 12`, and the regions that
fit into both `[0, 99]` and `[50, 149]` are those that fit into `[50, 99]`. -/
theorem pedConstraintIntersect_exact_nine :
    (∃ c, pedConstraintIntersect
        (some (pedConstraintNewFromMax ⟨0, 100, by decide, by decide⟩))
        (some (pedConstraintNewFromMax ⟨50, 100, by decide, by decide⟩)) = some c ∧
      pedConstraintIsSolution c ⟨60, 10, by decide, by decide⟩ = true) ∧
    (∃ c, pedAlignmentIntersect (some ⟨1, 4, by decide⟩) (some ⟨3, 6, by decide⟩) = some c ∧
      pedAlignmentIsAligned (some c) none 9 = true) :=
  ⟨(pedConstraintIntersect_exact.1 _ _ (by decide) (by decide) _).mp (by decide),
    (pedConstraintIntersect_exact.2 ⟨1, 4, by decide⟩ ⟨3, 6, by decide⟩ (by decide)
      (by decide) 9).mp (by decide)⟩

end Libparted
