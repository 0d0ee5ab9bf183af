import Libparted.Library.Grid
import Libparted.Geometry

/-!
# Alignments (`libparted/cs/natmath.c`)

A `PedAlignment` stands for the sectors `offset + X * grain_size`; grain zero
stands for the single sector `offset`.  `ped_alignment_init` refuses a negative
grain, so the sign of the grain is a field.

The source divides with C's `/` and `%`, which truncate towards zero; these are
`Int.tdiv` and `Int.tmod`.  `abs_mod` repairs the remainder of a negative
dividend by adding the divisor, and in doing so maps the negative multiples of
the divisor to the divisor itself rather than to zero: `absMod (-4) 4 = 4`.
Rounding down is off by one grain there.  `pedRoundUpTo` tests for a zero
remainder first and is exact (`pedRoundUpTo_eq_gridCeil`).

The `ped_alignment_align_*` functions search inside a geometry and use `-1` for
"nothing found".  `alignedIn` is the set they search; the main facts are that they
return a member whenever there is one (`pedAlignmentAlignNearest_spec`), and that
rounding down from the first sector, or up from the last, yields the extreme
members (`pedAlignmentAlignDown_start`, `pedAlignmentAlignUp_end`).
-/

namespace Libparted

open Library

/-! ## Rounding -/

/-- `abs_mod`: "a mod b, the way C should have done it". -/
def absMod (a b : ℤ) : ℤ := if a < 0 then a.tmod b + b else a.tmod b

/-- `ped_round_down_to`. -/
def pedRoundDownTo (sector grainSize : ℤ) : ℤ := sector - absMod sector grainSize

/-- `ped_round_up_to`. -/
def pedRoundUpTo (sector grainSize : ℤ) : ℤ :=
  if sector.tmod grainSize ≠ 0 then pedRoundDownTo sector grainSize + grainSize
  else sector

/-- `ped_div_round_up`. -/
def pedDivRoundUp (numerator divisor : ℕ) : ℕ := (numerator + divisor - 1) / divisor

section Rounding

variable {x g : ℤ}

/-- Away from the negative multiples `abs_mod` is the Euclidean remainder. -/
theorem absMod_eq_emod (hg : 0 < g) (h : 0 ≤ x ∨ ¬ g ∣ x) : absMod x g = x % g := by
  unfold absMod
  rw [Int.tmod_eq_emod]
  split <;> rename_i hneg
  · have hnd : ¬ g ∣ x := h.resolve_left (by omega)
    have habs : (g.natAbs : ℤ) = g := by omega
    rw [if_neg (by simp [hnd, hneg]), habs]
    omega
  · rw [if_pos (Or.inl (by omega))]
    omega

theorem dvd_sub_absMod (x g : ℤ) : g ∣ x - absMod x g := by
  have hmod : g ∣ x - x.tmod g := Int.dvd_self_sub_of_tmod_eq rfl
  unfold absMod
  split
  · rw [show x - (x.tmod g + g) = (x - x.tmod g) - g by ring]
    exact dvd_sub hmod dvd_rfl
  · exact hmod

theorem absMod_nonneg (hg : 0 < g) : 0 ≤ absMod x g := by
  have hlt := Int.lt_tmod_of_pos x hg
  have hpos := Int.tmod_nonneg (a := x) g
  unfold absMod
  split
  · omega
  · exact hpos (by omega)

/-- The remainder stays within the grain, bound included: it *is* the grain on
negative multiples. -/
theorem absMod_le (hg : 0 < g) : absMod x g ≤ g := by
  have hlt := Int.tmod_lt_of_pos x hg
  have hsign : x < 0 → x.tmod g ≤ 0 := by
    intro hx
    have hopp := Int.tmod_nonneg g (show 0 ≤ -x by omega)
    rw [Int.neg_tmod] at hopp
    omega
  unfold absMod
  split
  · rename_i hneg
    have := hsign hneg
    omega
  · omega

theorem dvd_pedRoundDownTo (x g : ℤ) : g ∣ pedRoundDownTo x g := dvd_sub_absMod x g

theorem pedRoundDownTo_le (hg : 0 < g) : pedRoundDownTo x g ≤ x := by
  have := absMod_nonneg (x := x) hg
  unfold pedRoundDownTo
  omega

/-- Rounding up is exact, also for negative arguments: the multiples are handled
before `abs_mod` is asked. -/
theorem pedRoundUpTo_eq_gridCeil (hg : 0 < g) : pedRoundUpTo x g = gridCeil x g := by
  unfold pedRoundUpTo gridCeil
  by_cases hd : g ∣ x
  · rw [if_neg (by simp [Int.tmod_eq_zero_of_dvd hd]),
      if_pos (Int.emod_eq_zero_of_dvd hd)]
    simp [gridFloor, Int.emod_eq_zero_of_dvd hd]
  · rw [if_pos (fun h => hd (Int.dvd_of_tmod_eq_zero h)),
      if_neg (fun h => hd (Int.dvd_of_emod_eq_zero h))]
    rw [pedRoundDownTo, absMod_eq_emod hg (Or.inr hd), gridFloor]

end Rounding

/-! ## Alignments -/

/-- The sectors of the form `offset + X * grainSize`. -/
structure PedAlignment where
  offset : ℤ
  grainSize : ℤ
  grain_nonneg : 0 ≤ grainSize

/-- `ped_alignment_init` and `ped_alignment_new`; `none` for a negative grain. -/
def pedAlignmentInit (offset grainSize : ℤ) : Option PedAlignment :=
  if h : grainSize < 0 then none
  else if grainSize ≠ 0 then
    some ⟨absMod offset grainSize, grainSize, by omega⟩
  else some ⟨offset, grainSize, by omega⟩

/-- `ped_alignment_any`. -/
def pedAlignmentAny : PedAlignment := ⟨0, 1, by decide⟩

/-- `ped_alignment_duplicate` on a non-`NULL` alignment. -/
def pedAlignmentDuplicate (align : PedAlignment) : Option PedAlignment :=
  pedAlignmentInit align.offset align.grainSize

/-- `ped_alignment_is_aligned`.  A `NULL` alignment accepts nothing; a `NULL`
geometry leaves the sector unrestricted. -/
def pedAlignmentIsAligned (align : Option PedAlignment) (geom : Option PedGeometry)
    (sector : ℤ) : Bool :=
  match align with
  | none => false
  | some align =>
      if geom.any (fun geom => !pedGeometryTestSectorInside geom sector) then false
      else if align.grainSize ≠ 0 then
        (sector - align.offset).tmod align.grainSize == 0
      else sector == align.offset

theorem pedAlignmentIsAligned_iff {align : PedAlignment} {geom : Option PedGeometry}
    {sector : ℤ} :
    pedAlignmentIsAligned (some align) geom sector = true ↔
      OnGrid align.offset align.grainSize sector ∧
        ∀ g ∈ geom, g.start ≤ sector ∧ sector ≤ g.end := by
  have hgrid : (if align.grainSize ≠ 0 then
      (sector - align.offset).tmod align.grainSize == 0
      else sector == align.offset) = true ↔
        OnGrid align.offset align.grainSize sector := by
    by_cases hz : align.grainSize = 0
    · rw [if_neg (by simpa using hz), hz, OnGrid.zero_iff, beq_iff_eq]
    · rw [if_pos hz, beq_iff_eq, OnGrid, Int.dvd_iff_tmod_eq_zero]
  unfold pedAlignmentIsAligned
  cases geom with
  | none => simpa using hgrid
  | some g =>
      by_cases hin : g.start ≤ sector ∧ sector ≤ g.end
      · have hany : ¬ (Option.any (fun geom => !pedGeometryTestSectorInside geom sector)
            (some g) = true) := by simpa using hin
        simp only [if_neg hany, Option.mem_some_iff, forall_eq']
        rw [hgrid]
        exact ⟨fun h => ⟨h, hin⟩, fun h => h.1⟩
      · have hany : Option.any (fun geom => !pedGeometryTestSectorInside geom sector)
            (some g) = true := by
          simp only [Option.any_some, Bool.not_eq_true', Bool.eq_false_iff]
          exact fun h => hin (pedGeometryTestSectorInside_iff.mp h)
        simp only [if_pos hany, Bool.false_eq_true, Option.mem_some_iff, forall_eq',
          false_iff]
        exact fun h => hin h.2

/-- `ped_alignment_init` normalises the offset and changes nothing else. -/
theorem onGrid_pedAlignmentInit {offset grainSize sector : ℤ} {align : PedAlignment}
    (h : pedAlignmentInit offset grainSize = some align) :
    OnGrid align.offset align.grainSize sector ↔ OnGrid offset grainSize sector := by
  unfold pedAlignmentInit at h
  split at h
  · simp at h
  · split at h <;> cases h
    · refine (OnGrid.congr_offset ?_).symm
      exact dvd_sub_absMod offset grainSize
    · rfl

theorem pedAlignmentInit_eq_none (offset : ℤ) {grainSize : ℤ} :
    pedAlignmentInit offset grainSize = none ↔ grainSize < 0 := by
  unfold pedAlignmentInit
  split
  · simp_all
  · split <;> simp_all

theorem pedAlignmentInit_grainSize {offset grainSize : ℤ} {align : PedAlignment}
    (h : pedAlignmentInit offset grainSize = some align) :
    align.grainSize = grainSize := by
  unfold pedAlignmentInit at h
  split at h
  · simp at h
  · split at h <;> cases h <;> rfl

/-! ## Searching for aligned sectors inside a geometry -/

/-- The aligned sectors of a geometry. -/
def alignedIn (align : PedAlignment) (geom : PedGeometry) : Set ℤ :=
  {t | OnGrid align.offset align.grainSize t ∧ geom.start ≤ t ∧ t ≤ geom.end}

/-- `_closest_inside_geometry`. -/
def closestInsideGeometry (align : PedAlignment) (geom : PedGeometry)
    (sector : ℤ) : ℤ :=
  if align.grainSize = 0 then
    if pedAlignmentIsAligned (some align) (some geom) sector
        && pedGeometryTestSectorInside geom sector then sector else -1
  else
    let sector := if sector < geom.start then
        sector + pedRoundUpTo (geom.start - sector) align.grainSize else sector
    let sector := if sector > geom.end then
        sector - pedRoundUpTo (sector - geom.end) align.grainSize else sector
    if pedGeometryTestSectorInside geom sector then sector else -1

/-- `ped_alignment_align_up` with a non-`NULL` geometry. -/
def pedAlignmentAlignUp (align : PedAlignment) (geom : PedGeometry) (sector : ℤ) : ℤ :=
  closestInsideGeometry align geom <|
    if align.grainSize = 0 then align.offset
    else pedRoundUpTo (sector - align.offset) align.grainSize + align.offset

/-- `ped_alignment_align_down` with a non-`NULL` geometry. -/
def pedAlignmentAlignDown (align : PedAlignment) (geom : PedGeometry) (sector : ℤ) : ℤ :=
  closestInsideGeometry align geom <|
    if align.grainSize = 0 then align.offset
    else pedRoundDownTo (sector - align.offset) align.grainSize + align.offset

/-- `closest`: whichever of `a` and `b` is nearer to `sector`. -/
def closest (sector a b : ℤ) : ℤ :=
  if a = -1 then b
  else if b = -1 then a
  else if |sector - a| < |sector - b| then a else b

/-- `ped_alignment_align_nearest`. -/
def pedAlignmentAlignNearest (align : PedAlignment) (geom : PedGeometry)
    (sector : ℤ) : ℤ :=
  closest sector (pedAlignmentAlignUp align geom sector)
    (pedAlignmentAlignDown align geom sector)

/-- `r` is the answer of a search over `S`: a member, or `-1` when there is
none. -/
def Found (S : Set ℤ) (r : ℤ) : Prop := r ∈ S ∨ (r = -1 ∧ S = ∅)

section Search

variable {align : PedAlignment} {geom : PedGeometry} {sector r : ℤ}

theorem nonneg_of_mem_alignedIn {t : ℤ} (h : t ∈ alignedIn align geom) : 0 ≤ t :=
  geom.start_nonneg.trans h.2.1

/-- A member of `alignedIn` is never mistaken for the failure value. -/
theorem ne_neg_one_of_mem_alignedIn {t : ℤ} (h : t ∈ alignedIn align geom) : t ≠ -1 := by
  have := nonneg_of_mem_alignedIn h
  omega

/-- Grain zero: the search looks at the offset and nowhere else. -/
theorem closestInsideGeometry_zero (geom : PedGeometry) (hz : align.grainSize = 0) :
    (align.offset ∈ alignedIn align geom ∧
        closestInsideGeometry align geom align.offset = align.offset ∧
        alignedIn align geom = {align.offset}) ∨
      (alignedIn align geom = ∅ ∧
        closestInsideGeometry align geom align.offset = -1) := by
  have honly : ∀ t ∈ alignedIn align geom, t = align.offset := by
    rintro t ⟨ht, -⟩
    rwa [hz, OnGrid.zero_iff] at ht
  by_cases hin : geom.start ≤ align.offset ∧ align.offset ≤ geom.end
  · have hmem : align.offset ∈ alignedIn align geom := ⟨OnGrid.self _ _, hin⟩
    have haligned : pedAlignmentIsAligned (some align) (some geom) align.offset = true :=
      pedAlignmentIsAligned_iff.mpr ⟨OnGrid.self _ _, by simpa using hin⟩
    refine Or.inl ⟨hmem, ?_, ?_⟩
    · simp [closestInsideGeometry, hz, haligned, hin]
    · ext t
      exact ⟨fun ht => honly t ht, fun ht => by rw [Set.mem_singleton_iff.mp ht]; exact hmem⟩
  · refine Or.inr ⟨?_, ?_⟩
    · ext t
      simp only [Set.mem_empty_iff_false, iff_false]
      intro ht
      exact hin (honly t ht ▸ ht.2)
    · have hout : pedGeometryTestSectorInside geom align.offset = false := by
        rw [Bool.eq_false_iff]
        exact fun h => hin (pedGeometryTestSectorInside_iff.mp h)
      simp [closestInsideGeometry, hz, hout]

/-- Positive grain, starting point below the geometry: the first aligned sector
of the geometry. -/
theorem closestInsideGeometry_below (hg : 0 < align.grainSize)
    (hs : OnGrid align.offset align.grainSize sector) (hlt : sector < geom.start) :
    IsLeast (alignedIn align geom) (closestInsideGeometry align geom sector) ∨
      (alignedIn align geom = ∅ ∧ closestInsideGeometry align geom sector = -1) := by
  obtain ⟨⟨hgrid, hge⟩, hleast⟩ := isLeast_of_below (a := geom.start) hg hs
  unfold closestInsideGeometry
  rw [if_neg hg.ne']
  simp only [if_pos hlt, pedRoundUpTo_eq_gridCeil hg]
  generalize hfirst : sector + gridCeil (geom.start - sector) align.grainSize = first at *
  by_cases hend : first > geom.end
  · -- The least aligned sector past the start is already past the end.
    right
    have hempty : alignedIn align geom = ∅ := by
      ext t
      simp only [Set.mem_empty_iff_false, iff_false]
      rintro ⟨ht, hst, hte⟩
      have := hleast ⟨ht, hst⟩
      omega
    refine ⟨hempty, ?_⟩
    rw [if_pos hend, if_neg]
    intro hin
    rw [pedGeometryTestSectorInside_iff] at hin
    have hmem : first - gridCeil (first - geom.end) align.grainSize ∈
        alignedIn align geom := ⟨hgrid.sub_dvd (dvd_gridCeil _ _), hin⟩
    simp [hempty] at hmem
  · left
    rw [if_neg hend, if_pos (by rw [pedGeometryTestSectorInside_iff]; omega)]
    exact ⟨⟨hgrid, hge, by omega⟩, fun t ht => hleast ⟨ht.1, ht.2.1⟩⟩

/-- Positive grain, starting point above the geometry: the last aligned sector
of the geometry. -/
theorem closestInsideGeometry_above (hg : 0 < align.grainSize)
    (hs : OnGrid align.offset align.grainSize sector) (hgt : geom.end < sector) :
    IsGreatest (alignedIn align geom) (closestInsideGeometry align geom sector) ∨
      (alignedIn align geom = ∅ ∧ closestInsideGeometry align geom sector = -1) := by
  obtain ⟨⟨hgrid, hle⟩, hgreatest⟩ := isGreatest_of_above (b := geom.end) hg hs
  have hns : ¬ sector < geom.start := by
    have := geom.start_le_end
    omega
  unfold closestInsideGeometry
  rw [if_neg hg.ne']
  simp only [if_neg hns, if_pos hgt, pedRoundUpTo_eq_gridCeil hg]
  generalize hlast : sector - gridCeil (sector - geom.end) align.grainSize = last at *
  by_cases hstart : geom.start ≤ last
  · left
    rw [if_pos (by rw [pedGeometryTestSectorInside_iff]; omega)]
    exact ⟨⟨hgrid, hstart, hle⟩, fun t ht => hgreatest ⟨ht.1, ht.2.2⟩⟩
  · right
    refine ⟨?_, ?_⟩
    · ext t
      simp only [Set.mem_empty_iff_false, iff_false]
      rintro ⟨ht, hst, hte⟩
      have := hgreatest ⟨ht, hte⟩
      omega
    · rw [if_neg]
      rw [pedGeometryTestSectorInside_iff]
      omega

/-- Positive grain, starting point inside: it is returned unchanged. -/
theorem closestInsideGeometry_inside (hg : 0 < align.grainSize)
    (hin : geom.start ≤ sector ∧ sector ≤ geom.end) :
    closestInsideGeometry align geom sector = sector := by
  have h₁ : ¬ sector < geom.start := by omega
  have h₂ : ¬ sector > geom.end := by omega
  unfold closestInsideGeometry
  rw [if_neg hg.ne']
  simp only [if_neg h₁, if_neg h₂]
  rw [if_pos (pedGeometryTestSectorInside_iff.mpr hin)]

/-- The search from an aligned sector finds an aligned sector of the geometry
whenever there is one. -/
theorem closestInsideGeometry_spec (hg : 0 < align.grainSize)
    (hs : OnGrid align.offset align.grainSize sector) :
    Found (alignedIn align geom) (closestInsideGeometry align geom sector) := by
  rcases lt_trichotomy sector geom.start with hlt | heq | hgt
  · exact (closestInsideGeometry_below hg hs hlt).imp (·.1) fun h => ⟨h.2, h.1⟩
  · have hin : geom.start ≤ sector ∧ sector ≤ geom.end :=
      ⟨heq.ge, heq ▸ geom.start_le_end⟩
    rw [closestInsideGeometry_inside hg hin]
    exact Or.inl ⟨hs, hin⟩
  · by_cases hend : sector ≤ geom.end
    · have hin : geom.start ≤ sector ∧ sector ≤ geom.end := ⟨hgt.le, hend⟩
      rw [closestInsideGeometry_inside hg hin]
      exact Or.inl ⟨hs, hin⟩
    · exact (closestInsideGeometry_above hg hs (not_le.mp hend)).imp (·.1)
        fun h => ⟨h.2, h.1⟩

theorem onGrid_add_of_dvd (align : PedAlignment) {d : ℤ} (hd : align.grainSize ∣ d) :
    OnGrid align.offset align.grainSize (d + align.offset) := by
  simpa [OnGrid] using hd

/-- The point `ped_alignment_align_up` starts its search from, for a positive
grain: the least aligned sector at or above the given one. -/
theorem isLeast_roundUp (hg : 0 < align.grainSize) (sector : ℤ) :
    IsLeast {t | OnGrid align.offset align.grainSize t ∧ sector ≤ t}
      (pedRoundUpTo (sector - align.offset) align.grainSize + align.offset) := by
  rw [pedRoundUpTo_eq_gridCeil hg, add_comm]
  exact isLeast_of_below hg (OnGrid.self _ _)

theorem pedAlignmentAlignUp_spec (align : PedAlignment) (geom : PedGeometry) (sector : ℤ) :
    Found (alignedIn align geom) (pedAlignmentAlignUp align geom sector) := by
  unfold pedAlignmentAlignUp
  by_cases hz : align.grainSize = 0
  · rw [if_pos hz]
    rcases closestInsideGeometry_zero geom hz with ⟨hmem, heq, -⟩ | ⟨hempty, heq⟩
    · rw [heq]
      exact Or.inl hmem
    · exact Or.inr ⟨heq, hempty⟩
  · have hg : 0 < align.grainSize := lt_of_le_of_ne align.grain_nonneg (Ne.symm hz)
    rw [if_neg hz]
    exact closestInsideGeometry_spec hg (isLeast_roundUp hg sector).1.1

theorem pedAlignmentAlignDown_spec (align : PedAlignment) (geom : PedGeometry) (sector : ℤ) :
    Found (alignedIn align geom) (pedAlignmentAlignDown align geom sector) := by
  unfold pedAlignmentAlignDown
  by_cases hz : align.grainSize = 0
  · rw [if_pos hz]
    rcases closestInsideGeometry_zero geom hz with ⟨hmem, heq, -⟩ | ⟨hempty, heq⟩
    · rw [heq]
      exact Or.inl hmem
    · exact Or.inr ⟨heq, hempty⟩
  · have hg : 0 < align.grainSize := lt_of_le_of_ne align.grain_nonneg (Ne.symm hz)
    rw [if_neg hz]
    exact closestInsideGeometry_spec hg (onGrid_add_of_dvd align (dvd_pedRoundDownTo _ _))

theorem pedAlignmentAlignNearest_spec :
    Found (alignedIn align geom) (pedAlignmentAlignNearest align geom sector) := by
  have hup := pedAlignmentAlignUp_spec align geom sector
  have hdown := pedAlignmentAlignDown_spec align geom sector
  unfold pedAlignmentAlignNearest closest
  split
  · exact hdown
  · split
    · exact hup
    · split
      · exact hup
      · exact hdown

/-- Rounding the first sector down finds the first aligned sector. -/
theorem pedAlignmentAlignDown_start (align : PedAlignment) (geom : PedGeometry) :
    IsLeast (alignedIn align geom) (pedAlignmentAlignDown align geom geom.start) ∨
      (alignedIn align geom = ∅ ∧ pedAlignmentAlignDown align geom geom.start = -1) := by
  unfold pedAlignmentAlignDown
  by_cases hz : align.grainSize = 0
  · rw [if_pos hz]
    refine (closestInsideGeometry_zero geom hz).imp_left ?_
    rintro ⟨-, heq, hall⟩
    rw [heq, hall]
    exact isLeast_singleton
  · have hg : 0 < align.grainSize := lt_of_le_of_ne align.grain_nonneg (Ne.symm hz)
    rw [if_neg hz]
    have hgrid := onGrid_add_of_dvd align
      (dvd_pedRoundDownTo (geom.start - align.offset) align.grainSize)
    have hle : pedRoundDownTo (geom.start - align.offset) align.grainSize
        + align.offset ≤ geom.start := by
      have := pedRoundDownTo_le (x := geom.start - align.offset) hg
      omega
    generalize pedRoundDownTo (geom.start - align.offset) align.grainSize + align.offset
      = from_ at *
    by_cases heq : from_ = geom.start
    · left
      have hin : geom.start ≤ from_ ∧ from_ ≤ geom.end := ⟨heq.ge, heq ▸ geom.start_le_end⟩
      rw [closestInsideGeometry_inside hg hin]
      exact ⟨⟨hgrid, hin⟩, fun t ht => heq ▸ ht.2.1⟩
    · exact closestInsideGeometry_below hg hgrid (by omega)

/-- Rounding the last sector up finds the last aligned sector. -/
theorem pedAlignmentAlignUp_end (align : PedAlignment) (geom : PedGeometry) :
    IsGreatest (alignedIn align geom) (pedAlignmentAlignUp align geom geom.end) ∨
      (alignedIn align geom = ∅ ∧ pedAlignmentAlignUp align geom geom.end = -1) := by
  unfold pedAlignmentAlignUp
  by_cases hz : align.grainSize = 0
  · rw [if_pos hz]
    refine (closestInsideGeometry_zero geom hz).imp_left ?_
    rintro ⟨-, heq, hall⟩
    rw [heq, hall]
    exact isGreatest_singleton
  · have hg : 0 < align.grainSize := lt_of_le_of_ne align.grain_nonneg (Ne.symm hz)
    rw [if_neg hz]
    obtain ⟨⟨hgrid, hge⟩, -⟩ := isLeast_roundUp hg geom.end
    generalize pedRoundUpTo (geom.end - align.offset) align.grainSize + align.offset
      = from_ at *
    by_cases heq : from_ = geom.end
    · left
      have hin : geom.start ≤ from_ ∧ from_ ≤ geom.end := ⟨heq ▸ geom.start_le_end, heq.le⟩
      rw [closestInsideGeometry_inside hg hin]
      exact ⟨⟨hgrid, hin⟩, fun t ht => heq ▸ ht.2.2⟩
    · exact closestInsideGeometry_above hg hgrid (by omega)

/-- Rounding up finds the first aligned sector of the geometry that is not below the given
one, and the last one of all where there is none. -/
theorem pedAlignmentAlignUp_prefers (align : PedAlignment) (geom : PedGeometry) (sector : ℤ) :
    IsLeast {t ∈ alignedIn align geom | sector ≤ t} (pedAlignmentAlignUp align geom sector) ∨
      ((∀ t ∈ alignedIn align geom, t < sector) ∧
        IsGreatest (alignedIn align geom) (pedAlignmentAlignUp align geom sector)) ∨
      (alignedIn align geom = ∅ ∧ pedAlignmentAlignUp align geom sector = -1) := by
  unfold pedAlignmentAlignUp
  by_cases hz : align.grainSize = 0
  · rw [if_pos hz]
    rcases closestInsideGeometry_zero geom hz with ⟨-, heq, hall⟩ | hnone
    · rw [heq, hall]
      by_cases hle : sector ≤ align.offset
      · exact Or.inl ⟨⟨rfl, hle⟩, fun t ht => (Set.mem_singleton_iff.mp ht.1).ge⟩
      · refine Or.inr (Or.inl ⟨fun t ht => ?_, isGreatest_singleton⟩)
        rw [Set.mem_singleton_iff.mp ht]
        omega
    · exact Or.inr (Or.inr hnone)
  · have hg : 0 < align.grainSize := lt_of_le_of_ne align.grain_nonneg (Ne.symm hz)
    rw [if_neg hz]
    obtain ⟨⟨hgrid, hge⟩, hleast⟩ := isLeast_roundUp hg sector
    generalize pedRoundUpTo (sector - align.offset) align.grainSize + align.offset = from_ at *
    by_cases hlow : from_ < geom.start
    · -- all of the geometry is above the sector
      refine (closestInsideGeometry_below hg hgrid hlow).imp (fun h => ⟨⟨h.1, ?_⟩, ?_⟩) Or.inr
      · have := h.1.2.1
        omega
      · exact fun t ht => h.2 ht.1
    · by_cases hhigh : geom.end < from_
      · refine Or.inr ((closestInsideGeometry_above hg hgrid hhigh).imp_left fun h =>
          ⟨fun t ht => ?_, h⟩)
        by_contra hle
        have := hleast ⟨ht.1, not_lt.mp hle⟩
        have := ht.2.2
        omega
      · have hin : geom.start ≤ from_ ∧ from_ ≤ geom.end := by omega
        rw [closestInsideGeometry_inside hg hin]
        exact Or.inl ⟨⟨⟨hgrid, hin⟩, hge⟩, fun t ht => hleast ⟨ht.1.1, ht.2⟩⟩

/-- Where rounding down goes a grain too far, it goes below every geometry. -/
theorem pedRoundDownTo_neg (hg : 0 < align.grainSize) (hoffset : align.offset ≤ align.grainSize)
    {t : ℤ} (ht : OnGrid align.offset align.grainSize t) (hle : t ≤ sector)
    (hlt : pedRoundDownTo (sector - align.offset) align.grainSize + align.offset < t) :
    sector ≤ 0 := by
  by_contra hpos
  have hexact : 0 ≤ sector - align.offset ∨ ¬align.grainSize ∣ sector - align.offset := by
    by_contra hneg
    simp only [not_or, not_not, not_le] at hneg
    -- an aligned sector before the offset is not positive
    have := Int.le_of_dvd (by omega) (Int.dvd_neg.mpr hneg.2)
    omega
  have hmod := absMod_eq_emod hg hexact
  have hlt' := Int.emod_lt_of_pos (sector - align.offset) hg
  have hstep := OnGrid.add_le_of_lt hg (onGrid_add_of_dvd align (dvd_pedRoundDownTo _ _)) ht hlt
  unfold pedRoundDownTo at hstep
  omega

/-- Rounding down finds the last aligned sector of the geometry that is not above the given
one, and the first one of all where there is none. -/
theorem pedAlignmentAlignDown_prefers (geom : PedGeometry) (sector : ℤ)
    (hoffset : 0 < align.grainSize → align.offset ≤ align.grainSize) :
    IsGreatest {t ∈ alignedIn align geom | t ≤ sector} (pedAlignmentAlignDown align geom sector) ∨
      ((∀ t ∈ alignedIn align geom, sector < t) ∧
        IsLeast (alignedIn align geom) (pedAlignmentAlignDown align geom sector)) ∨
      (alignedIn align geom = ∅ ∧ pedAlignmentAlignDown align geom sector = -1) := by
  unfold pedAlignmentAlignDown
  by_cases hz : align.grainSize = 0
  · rw [if_pos hz]
    rcases closestInsideGeometry_zero geom hz with ⟨-, heq, hall⟩ | hnone
    · rw [heq, hall]
      by_cases hle : align.offset ≤ sector
      · exact Or.inl ⟨⟨rfl, hle⟩, fun t ht => (Set.mem_singleton_iff.mp ht.1).le⟩
      · refine Or.inr (Or.inl ⟨fun t ht => ?_, isLeast_singleton⟩)
        rw [Set.mem_singleton_iff.mp ht]
        omega
    · exact Or.inr (Or.inr hnone)
  · have hg : 0 < align.grainSize := lt_of_le_of_ne align.grain_nonneg (Ne.symm hz)
    rw [if_neg hz]
    have hgrid := onGrid_add_of_dvd align
      (dvd_pedRoundDownTo (sector - align.offset) align.grainSize)
    have hle := pedRoundDownTo_le (x := sector - align.offset) hg
    have hneg (t : ℤ) (ht : OnGrid align.offset align.grainSize t) (hts : t ≤ sector) :=
      pedRoundDownTo_neg hg (hoffset hg) ht hts
    have hle' : pedRoundDownTo (sector - align.offset) align.grainSize + align.offset ≤ sector := by
      omega
    have hstart := geom.start_nonneg
    generalize pedRoundDownTo (sector - align.offset) align.grainSize + align.offset = from_ at *
    by_cases hhigh : geom.end < from_
    · -- all of the geometry is below the sector
      refine (closestInsideGeometry_above hg hgrid hhigh).imp (fun h => ⟨⟨h.1, ?_⟩, ?_⟩) Or.inr
      · have := h.1.2.2
        omega
      · exact fun t ht => h.2 ht.1
    · by_cases hlow : from_ < geom.start
      · rcases closestInsideGeometry_below hg hgrid hlow with h | h
        · by_cases hall : ∀ t ∈ alignedIn align geom, sector < t
          · exact Or.inr (Or.inl ⟨hall, h⟩)
          · -- rounding went a grain too far: the sector is 0, where the geometry starts
            simp only [not_forall, not_lt] at hall
            obtain ⟨t, ht, hts⟩ := hall
            have hzero := hneg t ht.1 hts (by have := ht.2.1; omega)
            have hfirst := h.2 ht
            have hr := h.1.2.1
            exact Or.inl ⟨⟨h.1, by omega⟩, fun u hu => by have := hu.2; omega⟩
        · exact Or.inr (Or.inr h)
      · have hin : geom.start ≤ from_ ∧ from_ ≤ geom.end := by omega
        rw [closestInsideGeometry_inside hg hin]
        refine Or.inl ⟨⟨⟨hgrid, hin⟩, hle'⟩, fun t ht => ?_⟩
        by_contra hlt
        have := hneg t ht.1.1 ht.2 (not_le.mp hlt)
        have := ht.2
        omega

/-- The nearest of the two is nearest of all. -/
theorem pedAlignmentAlignNearest_prefers (geom : PedGeometry) (sector : ℤ)
    (hoffset : 0 < align.grainSize → align.offset ≤ align.grainSize) {t : ℤ}
    (ht : t ∈ alignedIn align geom) :
    |pedAlignmentAlignNearest align geom sector - sector| ≤ |t - sector| := by
  have hne {r : ℤ} (hr : Found (alignedIn align geom) r) : r ∈ alignedIn align geom :=
    hr.resolve_right fun h => by simp [h.2] at ht
  have hup := hne (pedAlignmentAlignUp_spec align geom sector)
  have hdown := hne (pedAlignmentAlignDown_spec align geom sector)
  have hnear : |pedAlignmentAlignUp align geom sector - sector| ≤ |t - sector| ∨
      |pedAlignmentAlignDown align geom sector - sector| ≤ |t - sector| := by
    rcases le_total sector t with hst | hts
    · left
      rcases pedAlignmentAlignUp_prefers align geom sector with h | ⟨h, -⟩ | ⟨h, -⟩
      · have hleast := h.2 ⟨ht, hst⟩
        have hge := h.1.2
        rw [abs_of_nonneg (by omega), abs_of_nonneg (by omega)]
        omega
      · have := h t ht
        omega
      · simp [h] at ht
    · right
      rcases pedAlignmentAlignDown_prefers geom sector hoffset with h | ⟨h, -⟩ | ⟨h, -⟩
      · have hgreatest := h.2 ⟨ht, hts⟩
        have hle := h.1.2
        rw [abs_of_nonpos (by omega), abs_of_nonpos (by omega)]
        omega
      · have := h t ht
        omega
      · simp [h] at ht
  unfold pedAlignmentAlignNearest closest
  rw [if_neg (ne_neg_one_of_mem_alignedIn hup), if_neg (ne_neg_one_of_mem_alignedIn hdown),
    abs_sub_comm sector, abs_sub_comm sector]
  split
  · rcases hnear with h | h <;> omega
  · rcases hnear with h | h <;> omega

theorem pedAlignmentInit_offset_le {offset grainSize : ℤ}
    (h : pedAlignmentInit offset grainSize = some align) (hg : 0 < align.grainSize) :
    align.offset ≤ align.grainSize := by
  rw [pedAlignmentInit_grainSize h] at hg ⊢
  unfold pedAlignmentInit at h
  rw [dif_neg (by omega), if_pos hg.ne'] at h
  cases h
  exact absMod_le hg

/-- The sectors of a geometry on the grid that `ped_alignment_init` is given. -/
def requestedIn (offset grainSize : ℤ) (geom : PedGeometry) : Set ℤ :=
  {t | OnGrid offset grainSize t ∧ geom.start ≤ t ∧ t ≤ geom.end}

theorem requestedIn_eq {offset grainSize : ℤ} (geom : PedGeometry)
    (h : pedAlignmentInit offset grainSize = some align) :
    requestedIn offset grainSize geom = alignedIn align geom :=
  Set.ext fun _ => and_congr_left' (onGrid_pedAlignmentInit h).symm

/-- **Rounding into a geometry is exact.**  `ped_alignment_align_nearest` finds an aligned sector
of the geometry at the least distance, `ped_alignment_align_up` the first one that is not
below the given sector, and `ped_alignment_align_down` the last one that is not above it.
-/
theorem pedAlignmentAlign_exact {offset grainSize : ℤ}
    (h : pedAlignmentInit offset grainSize = some align) (geom : PedGeometry) (sector : ℤ) :
    let S := requestedIn offset grainSize geom
    (S.Nonempty → pedAlignmentAlignNearest align geom sector ∈ S ∧
        ∀ t ∈ S, |pedAlignmentAlignNearest align geom sector - sector| ≤ |t - sector|) ∧
      (pedAlignmentAlignNearest align geom sector = -1 ↔ S = ∅) ∧
      ((∃ t ∈ S, sector ≤ t) →
        IsLeast {t ∈ S | sector ≤ t} (pedAlignmentAlignUp align geom sector)) ∧
      (S.Nonempty → (∀ t ∈ S, t < sector) →
        IsGreatest S (pedAlignmentAlignUp align geom sector)) ∧
      ((∃ t ∈ S, t ≤ sector) →
        IsGreatest {t ∈ S | t ≤ sector} (pedAlignmentAlignDown align geom sector)) ∧
      (S.Nonempty → (∀ t ∈ S, sector < t) →
        IsLeast S (pedAlignmentAlignDown align geom sector)) ∧
      (grainSize = 0 → ∀ t ∈ S, t = offset) := by
  intro S
  have hzero : grainSize = 0 → ∀ t ∈ S, t = offset := by
    rintro rfl t ht
    exact OnGrid.zero_iff.mp ht.1
  have hS : S = alignedIn align geom := requestedIn_eq geom h
  rw [hS] at hzero ⊢
  have hoffset := pedAlignmentInit_offset_le h
  have hfound : Found (alignedIn align geom) (pedAlignmentAlignNearest align geom sector) :=
    pedAlignmentAlignNearest_spec
  have hup := pedAlignmentAlignUp_prefers align geom sector
  have hdown := pedAlignmentAlignDown_prefers geom sector hoffset
  refine ⟨fun hne => ⟨?_, ?_⟩, ⟨fun hnone => ?_, fun hempty => ?_⟩, ?_, ?_, ?_, ?_, hzero⟩
  · exact hfound.resolve_right fun hnone => hne.ne_empty hnone.2
  · exact fun t ht => pedAlignmentAlignNearest_prefers geom sector hoffset ht
  · rcases hfound with hmem | ⟨-, hempty⟩
    · exact absurd hnone (ne_neg_one_of_mem_alignedIn hmem)
    · exact hempty
  · exact (hfound.resolve_left (by simp [hempty])).1
  · rintro ⟨t, ht, hst⟩
    rcases hup with hleast | ⟨hall, -⟩ | ⟨hempty, -⟩
    · exact hleast
    · have := hall t ht
      omega
    · simp [hempty] at ht
  · rintro ⟨u, hu⟩ hall
    rcases hup with hleast | ⟨-, hgreatest⟩ | ⟨hempty, -⟩
    · have := hall _ hleast.1.1
      have := hleast.1.2
      omega
    · exact hgreatest
    · simp [hempty] at hu
  · rintro ⟨t, ht, hts⟩
    rcases hdown with hgreatest | ⟨hall, -⟩ | ⟨hempty, -⟩
    · exact hgreatest
    · have := hall t ht
      omega
    · simp [hempty] at ht
  · rintro ⟨u, hu⟩ hall
    rcases hdown with hgreatest | ⟨-, hleast⟩ | ⟨hempty, -⟩
    · have := hall _ hgreatest.1.1
      have := hgreatest.1.2
      omega
    · exact hleast
    · simp [hempty] at hu

/-- Grain 3 from -3 on, which becomes grain 3 from 3 on, and no aligned sector in the geometry. -/
theorem pedAlignmentAlign_exact_sample :
    pedAlignmentInit (-3) 3 = some ⟨3, 3, by decide⟩ ∧
      (pedAlignmentAlignNearest ⟨3, 3, by decide⟩ ⟨4, 2, by decide, by decide⟩ 7 = -1 ↔
        requestedIn (-3) 3 ⟨4, 2, by decide, by decide⟩ = ∅) := by
  have hinit : pedAlignmentInit (-3) 3 = some ⟨3, 3, by decide⟩ := rfl
  exact ⟨hinit, (pedAlignmentAlign_exact hinit ⟨4, 2, by decide, by decide⟩ 7).2.1⟩

end Search

end Libparted
