import Libparted.Constraint

/-!
# The constraint solver (`ped_constraint_solve_nearest`)

The solver picks a start first and an end second.  Admissible starts are
collected in a *canonical start range*, computed from the first and the last
aligned end only; the start nearest to the request is taken from it, and then
the aligned end nearest to the request among the ends that this start allows.

Write `E` for the aligned sectors of the end range.  A start `s` allows the ends
of the window `[s + min - 1, s + max - 1]`, and the two ranges the solver works
with are, as sets,

* canonical starts: `s` in the start range with an end of `E` at or below the top
  of its window, an end of `E` at or above the bottom of its window, and some end
  of `E` not below `min` (`mem_canonicalStartRange`);
* ends of `s`: the ends of the end range inside the window (`mem_endRange`).

Soundness (`pedConstraintSolveNearest_sound`) needs no more than that.
Completeness fails in two ways.  The canonical range asks for an end on either
side of the window instead of one inside it, so a start whose window falls
strictly between two aligned ends is let in; and the last condition above should
read `min - 1 ≤ e`: as written it throws away the region from sector 0 to
`min - 1`.  `StartsReachEnds` excludes exactly these two configurations and
`pedConstraintSolveNearest_complete_iff` says that nothing else goes wrong.
-/

namespace Libparted

open Library

/-- A non-`NULL` alignment, as every `ped_alignment_align_*` function asserts. -/
def requireAlign (align : Option PedAlignment) : Except Fault PedAlignment :=
  match align with
  | some align => .ok align
  | none => .error (.assertion "align != NULL")

/-- `_constraint_get_canonical_start_range`. -/
def constraintGetCanonicalStartRange (constraint : PedConstraint) :
    Except Fault (Option PedGeometry) := do
  if constraint.minSize > constraint.maxSize then
    return none
  let endAlign ← requireAlign constraint.endAlign
  let firstEndSoln := pedAlignmentAlignDown endAlign constraint.endRange
    constraint.endRange.start
  let lastEndSoln := pedAlignmentAlignUp endAlign constraint.endRange
    constraint.endRange.end
  if firstEndSoln = -1 ∨ lastEndSoln = -1 ∨ firstEndSoln > lastEndSoln
      ∨ lastEndSoln < constraint.minSize then
    return none
  let minStart := if firstEndSoln - constraint.maxSize + 1 < 0 then 0
    else firstEndSoln - constraint.maxSize + 1
  let maxStart := lastEndSoln - constraint.minSize + 1
  if maxStart < 0 then
    return none
  let startMinMaxRange ← pedGeometryInitUnchecked minStart (maxStart - minStart + 1)
  return pedGeometryIntersect startMinMaxRange constraint.startRange

/-- `_constraint_get_nearest_start_soln`. -/
def constraintGetNearestStartSoln (constraint : PedConstraint) (start : ℤ) :
    Except Fault ℤ := do
  match ← constraintGetCanonicalStartRange constraint with
  | none => return -1
  | some startRange =>
      let startAlign ← requireAlign constraint.startAlign
      return pedAlignmentAlignNearest startAlign startRange start

/-- `_constraint_get_end_range`. -/
def constraintGetEndRange (dev : PedDevice) (constraint : PedConstraint) (start : ℤ) :
    Except Fault (Option PedGeometry) := do
  if start + constraint.minSize - 1 > dev.length - 1 then
    return none
  let firstMinMaxEnd := start + constraint.minSize - 1
  let lastMinMaxEnd := if start + constraint.maxSize - 1 > dev.length - 1
    then dev.length - 1 else start + constraint.maxSize - 1
  let endMinMaxRange ← pedGeometryInitUnchecked firstMinMaxEnd
    (lastMinMaxEnd - firstMinMaxEnd + 1)
  return pedGeometryIntersect endMinMaxRange constraint.endRange

/-- `_constraint_get_nearest_end_soln`. -/
def constraintGetNearestEndSoln (dev : PedDevice) (constraint : PedConstraint)
    (start «end» : ℤ) : Except Fault ℤ := do
  match ← constraintGetEndRange dev constraint start with
  | none => return -1
  | some endRange =>
      let endAlign ← requireAlign constraint.endAlign
      return pedAlignmentAlignNearest endAlign endRange «end»

/-- `ped_constraint_solve_nearest`. -/
def pedConstraintSolveNearest (dev : PedDevice) (constraint : Option PedConstraint)
    (geom : PedGeometry) : Except Fault (Option PedGeometry) := do
  match constraint with
  | none => return none
  | some constraint =>
      let start ← constraintGetNearestStartSoln constraint geom.start
      if start = -1 then
        return none
      let «end» ← constraintGetNearestEndSoln dev constraint start geom.end
      if «end» = -1 then
        return none
      match ← pedGeometrySet start («end» - start + 1) with
      | none => return none
      | some result =>
          pedAssert (pedConstraintIsSolution constraint result)
            "ped_constraint_is_solution (constraint, result)"
          return some result

/-- A constraint the solver may be asked about: alignments present, ranges on
the device. -/
structure PedConstraint.OnDevice (constraint : PedConstraint) (dev : PedDevice)
    (startAlign endAlign : PedAlignment) : Prop where
  startAlign_eq : constraint.startAlign = some startAlign
  endAlign_eq : constraint.endAlign = some endAlign
  startRange_inside : constraint.startRange.InsideDevice dev
  endRange_inside : constraint.endRange.InsideDevice dev

/-- A device of 100 sectors, for small runs of the solver. -/
def hundredSectors : PedDevice := ⟨"/dev/sda", 100, 512, ⟨1, 1, 1, Int.one_pos, Int.one_pos⟩⟩

/-- Starts on multiples of 4, ends on multiples of 6, sizes from 5 to 40. -/
def hundredConstraint : PedConstraint where
  startAlign := some ⟨0, 4, by decide⟩
  endAlign := some ⟨0, 6, by decide⟩
  startRange := .fromTo 0 99
  endRange := .fromTo 0 99
  minSize := 5
  maxSize := 40
  min_pos := by decide
  max_pos := by decide

/-! ## The two ranges as sets -/

section Ranges

variable {constraint : PedConstraint} {dev : PedDevice} {startAlign endAlign : PedAlignment}

/-- Membership in the canonical start range, in terms of the aligned ends. -/
structure Canonical (constraint : PedConstraint) (endAlign : PedAlignment)
    (s : ℤ) : Prop where
  sizes : constraint.minSize ≤ constraint.maxSize
  inRange : constraint.startRange.start ≤ s ∧ s ≤ constraint.startRange.end
  endBelow : ∃ e ∈ alignedIn endAlign constraint.endRange, e ≤ s + constraint.maxSize - 1
  endAbove : ∃ e ∈ alignedIn endAlign constraint.endRange, s + constraint.minSize - 1 ≤ e
  endLarge : ∃ e ∈ alignedIn endAlign constraint.endRange, constraint.minSize ≤ e

/-- The canonical start range is computed without a fault and contains exactly
the canonical starts. -/
theorem mem_canonicalStartRange (hend : constraint.endAlign = some endAlign) :
    ∃ range, constraintGetCanonicalStartRange constraint = .ok range ∧
      ∀ s, (∃ r ∈ range, r.start ≤ s ∧ s ≤ r.end) ↔ Canonical constraint endAlign s := by
  have hnone : ∀ s, (∃ r ∈ (none : Option PedGeometry), r.start ≤ s ∧ s ≤ r.end) ↔ False := by
    simp
  unfold constraintGetCanonicalStartRange
  by_cases hsize : constraint.minSize > constraint.maxSize
  · refine ⟨none, by rw [if_pos hsize]; rfl, fun s => (hnone s).trans ?_⟩
    simp only [false_iff]
    exact fun h => absurd h.sizes (not_le.mpr hsize)
  rw [if_neg hsize, hend]
  simp only [requireAlign, ok_bind]
  have hdown := pedAlignmentAlignDown_start endAlign constraint.endRange
  have hup := pedAlignmentAlignUp_end endAlign constraint.endRange
  generalize pedAlignmentAlignDown endAlign constraint.endRange constraint.endRange.start
    = first at *
  generalize pedAlignmentAlignUp endAlign constraint.endRange constraint.endRange.end
    = last at *
  rcases hdown with hfirst | ⟨hempty, rfl⟩
  swap
  · refine ⟨none, by simp, fun s => (hnone s).trans ?_⟩
    simp only [false_iff]
    rintro h
    obtain ⟨e, he, -⟩ := h.endBelow
    simp [hempty] at he
  rcases hup with hlast | ⟨hempty, -⟩
  swap
  · exact absurd hfirst.1 (by simp [hempty])
  have hfl : first ≤ last := hfirst.2 hlast.1
  have hfne := ne_neg_one_of_mem_alignedIn hfirst.1
  have hlne := ne_neg_one_of_mem_alignedIn hlast.1
  by_cases hlarge : last < constraint.minSize
  · refine ⟨none, by simp [hlarge], fun s => (hnone s).trans ?_⟩
    simp only [false_iff]
    rintro h
    obtain ⟨e, he, hle⟩ := h.endLarge
    exact absurd (hlast.2 he) (by omega)
  have hguard : ¬ (first = -1 ∨ last = -1 ∨ first > last ∨ last < constraint.minSize) := by
    omega
  have hmax : ¬ last - constraint.minSize + 1 < 0 := by omega
  rw [if_neg hguard]
  simp only [if_neg hmax]
  have hstart : (0 : ℤ) ≤ if first - constraint.maxSize + 1 < 0 then 0
      else first - constraint.maxSize + 1 := by split <;> omega
  have hlen : 1 ≤ last - constraint.minSize + 1 - (if first - constraint.maxSize + 1 < 0 then 0
      else first - constraint.maxSize + 1) + 1 := by split <;> omega
  rw [pedGeometryInitUnchecked_eq hstart hlen]
  refine ⟨_, rfl, fun s => ?_⟩
  have hmem := mem_pedGeometryIntersect ⟨_, _, hstart, hlen⟩ constraint.startRange s
  simp only [Option.mem_def]
  rw [← hmem]
  simp only [PedGeometry.end_mk]
  have hsnn := constraint.startRange.start_nonneg
  constructor
  · rintro ⟨⟨hlo, hhi⟩, hr⟩
    refine ⟨by omega, hr, ⟨first, hfirst.1, ?_⟩, ⟨last, hlast.1, ?_⟩, last, hlast.1, by omega⟩
    · split at hlo <;> omega
    · omega
  · rintro ⟨-, hr, ⟨e, he, hle⟩, ⟨e', he', hle'⟩, -⟩
    have h₁ := hfirst.2 he
    have h₂ := hlast.2 he'
    refine ⟨⟨?_, by omega⟩, hr⟩
    split <;> omega

/-- The range of ends for a start is computed without a fault and contains
exactly the ends of its window. -/
theorem mem_endRange (hinside : constraint.endRange.InsideDevice dev)
    (hsizes : constraint.minSize ≤ constraint.maxSize) {start : ℤ} (hstart : 0 ≤ start) :
    ∃ range, constraintGetEndRange dev constraint start = .ok range ∧
      ∀ e, (∃ r ∈ range, r.start ≤ e ∧ e ≤ r.end) ↔
        (constraint.endRange.start ≤ e ∧ e ≤ constraint.endRange.end) ∧
          start + constraint.minSize - 1 ≤ e ∧ e ≤ start + constraint.maxSize - 1 := by
  have hmin := constraint.min_pos
  unfold PedGeometry.InsideDevice at hinside
  unfold constraintGetEndRange
  by_cases hfit : start + constraint.minSize - 1 > dev.length - 1
  · refine ⟨none, by rw [if_pos hfit]; rfl, fun e => ?_⟩
    simp only [Option.mem_def, reduceCtorEq, false_and, exists_false, false_iff]
    omega
  rw [if_neg hfit]
  simp only
  have hfirst : 0 ≤ start + constraint.minSize - 1 := by omega
  have hlen : 1 ≤ (if start + constraint.maxSize - 1 > dev.length - 1 then dev.length - 1
      else start + constraint.maxSize - 1) - (start + constraint.minSize - 1) + 1 := by
    split <;> omega
  rw [pedGeometryInitUnchecked_eq hfirst hlen]
  refine ⟨_, rfl, fun e => ?_⟩
  have hmem := mem_pedGeometryIntersect ⟨_, _, hfirst, hlen⟩ constraint.endRange e
  simp only [Option.mem_def]
  rw [← hmem]
  simp only [PedGeometry.end_mk]
  split <;> omega

end Ranges

/-! ## What the solver returns -/

section Solve

variable {constraint : PedConstraint} {dev : PedDevice} {startAlign endAlign : PedAlignment}

/-- A region starting at `start` and ending at `e` solves the constraint exactly
when both are aligned, in range, and `e` lies in the window of `start`. -/
theorem isSolution_iff_window (h : constraint.OnDevice dev startAlign endAlign)
    {geom : PedGeometry} :
    pedConstraintIsSolution constraint geom = true ↔
      geom.start ∈ alignedIn startAlign constraint.startRange ∧
      geom.end ∈ alignedIn endAlign constraint.endRange ∧
      geom.start + constraint.minSize - 1 ≤ geom.end ∧
      geom.end ≤ geom.start + constraint.maxSize - 1 := by
  rw [pedConstraintIsSolution_iff, h.startAlign_eq, h.endAlign_eq, accepts_some,
    accepts_some, geom.length_eq]
  simp only [alignedIn, Set.mem_ofPred_eq]
  constructor
  · rintro ⟨hs, he, hsr, her, hmin, hmax⟩
    exact ⟨⟨hs, hsr⟩, ⟨he, her⟩, by omega, by omega⟩
  · rintro ⟨⟨hs, hsr⟩, ⟨he, her⟩, hlo, hhi⟩
    exact ⟨hs, he, hsr, her, by omega, by omega⟩

/-- The start the solver settles on: a canonical aligned one, or `-1` when there
is none; a canonical aligned request is taken as it is. -/
theorem nearestStartSoln_spec (h : constraint.OnDevice dev startAlign endAlign) (start : ℤ) :
    ∃ s, constraintGetNearestStartSoln constraint start = .ok s ∧
      Found {t | OnGrid startAlign.offset startAlign.grainSize t ∧
        Canonical constraint endAlign t} s := by
  obtain ⟨range, hrange, hmem⟩ := mem_canonicalStartRange h.endAlign_eq
  unfold constraintGetNearestStartSoln
  rw [hrange, h.startAlign_eq]
  cases range with
  | none =>
      refine ⟨-1, rfl, Or.inr ⟨rfl, ?_⟩⟩
      ext t
      simp only [Set.mem_ofPred_eq, Set.mem_empty_iff_false, iff_false]
      rintro ⟨-, ht⟩
      simpa using (hmem t).mpr ht
  | some r =>
      have hset : {t | OnGrid startAlign.offset startAlign.grainSize t ∧
          Canonical constraint endAlign t} = alignedIn startAlign r := by
        ext t
        simp only [Set.mem_ofPred_eq, alignedIn, ← hmem t, Option.mem_def, Option.some.injEq,
          exists_eq_left']
      rw [hset]
      exact ⟨_, rfl, pedAlignmentAlignNearest_spec⟩

/-- The end the solver settles on for a given start. -/
theorem nearestEndSoln_spec (h : constraint.OnDevice dev startAlign endAlign)
    (hsizes : constraint.minSize ≤ constraint.maxSize) {start : ℤ} (hstart : 0 ≤ start)
    («end» : ℤ) :
    ∃ e, constraintGetNearestEndSoln dev constraint start «end» = .ok e ∧
      Found {t | t ∈ alignedIn endAlign constraint.endRange ∧
        start + constraint.minSize - 1 ≤ t ∧ t ≤ start + constraint.maxSize - 1} e := by
  obtain ⟨range, hrange, hmem⟩ := mem_endRange h.endRange_inside hsizes hstart
  unfold constraintGetNearestEndSoln
  rw [hrange, h.endAlign_eq]
  cases range with
  | none =>
      refine ⟨-1, rfl, Or.inr ⟨rfl, ?_⟩⟩
      ext t
      simp only [alignedIn, Set.mem_ofPred_eq, Set.mem_empty_iff_false, iff_false]
      rintro ⟨⟨-, ht⟩, hw⟩
      simpa using (hmem t).mpr ⟨ht, hw⟩
  | some r =>
      have hset : {t | t ∈ alignedIn endAlign constraint.endRange ∧
          start + constraint.minSize - 1 ≤ t ∧ t ≤ start + constraint.maxSize - 1}
            = alignedIn endAlign r := by
        ext t
        have := hmem t
        simp only [Option.mem_def, Option.some.injEq, exists_eq_left'] at this
        simp only [alignedIn, Set.mem_ofPred_eq, this]
        tauto
      rw [hset]
      exact ⟨_, rfl, pedAlignmentAlignNearest_spec⟩

/-- Everything the solver can do: it gives up because no start is canonical, it
gives up because the start it chose has no end, or it returns a solution. -/
theorem pedConstraintSolveNearest_cases (h : constraint.OnDevice dev startAlign endAlign)
    (geom : PedGeometry) :
    (pedConstraintSolveNearest dev (some constraint) geom = .ok none ∧
      ∀ t, OnGrid startAlign.offset startAlign.grainSize t →
        ¬ Canonical constraint endAlign t) ∨
    (∃ s, OnGrid startAlign.offset startAlign.grainSize s ∧ Canonical constraint endAlign s ∧
      ((pedConstraintSolveNearest dev (some constraint) geom = .ok none ∧
        ∀ t ∈ alignedIn endAlign constraint.endRange,
          ¬ (s + constraint.minSize - 1 ≤ t ∧ t ≤ s + constraint.maxSize - 1)) ∨
      ∃ result : PedGeometry,
        pedConstraintSolveNearest dev (some constraint) geom = .ok (some result) ∧
        result.start = s ∧ pedConstraintIsSolution constraint result = true)) := by
  obtain ⟨s, hs, hfound⟩ := nearestStartSoln_spec h geom.start
  unfold pedConstraintSolveNearest
  simp only [hs, ok_bind]
  rcases hfound with ⟨hgrid, hcanon⟩ | ⟨rfl, hempty⟩
  swap
  · refine Or.inl ⟨by simp, fun t ht hc => ?_⟩
    have : t ∈ ({t | OnGrid startAlign.offset startAlign.grainSize t ∧
        Canonical constraint endAlign t} : Set ℤ) := ⟨ht, hc⟩
    rw [hempty] at this
    exact this
  refine Or.inr ⟨s, hgrid, hcanon, ?_⟩
  have hsnn : 0 ≤ s := constraint.startRange.start_nonneg.trans hcanon.inRange.1
  obtain ⟨e, he, hfound⟩ := nearestEndSoln_spec h hcanon.sizes hsnn geom.end
  rw [if_neg (by omega : s ≠ -1), he, ok_bind]
  rcases hfound with ⟨hemem, hlo, hhi⟩ | ⟨rfl, hempty⟩
  swap
  · refine Or.inl ⟨by simp, fun t ht hw => ?_⟩
    have : t ∈ ({t | t ∈ alignedIn endAlign constraint.endRange ∧
        s + constraint.minSize - 1 ≤ t ∧ t ≤ s + constraint.maxSize - 1} : Set ℤ) := ⟨ht, hw⟩
    rw [hempty] at this
    exact this
  right
  have hmin := constraint.min_pos
  have hene := ne_neg_one_of_mem_alignedIn hemem
  have hlen : 1 ≤ e - s + 1 := by omega
  have hend : (⟨s, e - s + 1, hsnn, hlen⟩ : PedGeometry).end = e := by
    simp only [PedGeometry.end_mk]
    omega
  have hsol : pedConstraintIsSolution constraint ⟨s, e - s + 1, hsnn, hlen⟩ = true := by
    rw [isSolution_iff_window h, hend]
    exact ⟨⟨hgrid, hcanon.inRange⟩, hemem, hlo, hhi⟩
  rw [if_neg hene, pedGeometrySet_eq hsnn hlen]
  simp only [ok_bind, hsol, pedAssert, if_true]
  exact ⟨_, rfl, rfl, hsol⟩

/-- **Soundness of the solver.**  Every run ends without a failed assertion,
and a returned region is a solution on the device. -/
theorem pedConstraintSolveNearest_sound (constraint : PedConstraint) (dev : PedDevice)
    (startAlign endAlign : PedAlignment)
    (h : constraint.OnDevice dev startAlign endAlign) (geom : PedGeometry) :
    ∃ result, pedConstraintSolveNearest dev (some constraint) geom = .ok result ∧
      ∀ g ∈ result, pedConstraintIsSolution constraint g = true ∧ g.InsideDevice dev := by
  rcases pedConstraintSolveNearest_cases h geom with
    ⟨heq, -⟩ | ⟨s, -, -, ⟨heq, -⟩ | ⟨result, heq, -, hsol⟩⟩
  · exact ⟨none, heq, by simp⟩
  · exact ⟨none, heq, by simp⟩
  · refine ⟨some result, heq, fun g hg => ?_⟩
    cases hg
    refine ⟨hsol, ?_⟩
    have hend := ((isSolution_iff_window h).mp hsol).2.1.2.2
    have hinside := h.endRange_inside
    unfold PedGeometry.InsideDevice at hinside ⊢
    omega

/-- A grid of 4 and 6 sectors on a device of 100 sectors: the request `[11, 30]`
is moved to `[12, 30]`. -/
theorem pedConstraintSolveNearest_sound_hundred :
    pedConstraintSolveNearest hundredSectors (some hundredConstraint) ⟨11, 20, by decide, by decide⟩
      = .ok (some ⟨12, 19, by decide, by decide⟩) ∧
    ∃ result, pedConstraintSolveNearest hundredSectors (some hundredConstraint)
        ⟨11, 20, by decide, by decide⟩ = .ok result ∧
      ∀ g ∈ result, pedConstraintIsSolution hundredConstraint g = true ∧
        g.InsideDevice hundredSectors :=
  ⟨by decide +kernel, pedConstraintSolveNearest_sound hundredConstraint hundredSectors
    ⟨0, 4, by decide⟩ ⟨0, 6, by decide⟩ ⟨rfl, rfl, by decide, by decide⟩ _⟩

end Solve

/-! ## When the solver is complete -/

section Complete

variable {constraint : PedConstraint} {dev : PedDevice} {startAlign endAlign : PedAlignment}

/-- The two configurations that defeat the solver do not occur.

* `windows`: when aligned ends lie on both sides of the window of an aligned
  start, the distance from the bottom of the window up to the next aligned
  sector is within the slack `max - min`, so that the window is not skipped.
* `origin`: sector 0 is not an aligned start whose shortest region ends on the
  very last aligned end. -/
structure StartsReachEnds (constraint : PedConstraint) (startAlign endAlign : PedAlignment) :
    Prop where
  windows : ∀ s ∈ alignedIn startAlign constraint.startRange,
    (∃ e ∈ alignedIn endAlign constraint.endRange, e < s + constraint.minSize - 1) →
    (∃ e ∈ alignedIn endAlign constraint.endRange, s + constraint.maxSize - 1 < e) →
    (endAlign.offset - (s + constraint.minSize - 1)) % endAlign.grainSize
      ≤ constraint.maxSize - constraint.minSize
  origin : ¬ (0 ∈ alignedIn startAlign constraint.startRange ∧
    IsGreatest (alignedIn endAlign constraint.endRange) (constraint.minSize - 1))

/-- The aligned ends around a window that is not skipped include one inside it. -/
theorem exists_end_in_window (h : StartsReachEnds constraint startAlign endAlign) {s : ℤ}
    (hs : OnGrid startAlign.offset startAlign.grainSize s)
    (hc : Canonical constraint endAlign s) :
    ∃ e ∈ alignedIn endAlign constraint.endRange,
      s + constraint.minSize - 1 ≤ e ∧ e ≤ s + constraint.maxSize - 1 := by
  obtain ⟨e₁, he₁, hle₁⟩ := hc.endBelow
  obtain ⟨e₂, he₂, hle₂⟩ := hc.endAbove
  by_cases h₁ : s + constraint.minSize - 1 ≤ e₁
  · exact ⟨e₁, he₁, h₁, hle₁⟩
  by_cases h₂ : e₂ ≤ s + constraint.maxSize - 1
  · exact ⟨e₂, he₂, hle₂, h₂⟩
  have hnext := h.windows s ⟨hs, hc.inRange⟩ ⟨e₁, he₁, by omega⟩ ⟨e₂, he₂, by omega⟩
  have hgrain : endAlign.grainSize ≠ 0 := by
    intro hzero
    have h₁ := OnGrid.zero_iff.mp (hzero ▸ he₁.1)
    have h₂ := OnGrid.zero_iff.mp (hzero ▸ he₂.1)
    omega
  have hnn := Int.emod_nonneg (endAlign.offset - (s + constraint.minSize - 1)) hgrain
  refine ⟨_, ⟨OnGrid.next (x := s + constraint.minSize - 1), ?_⟩, by omega, by omega⟩
  have := he₁.2
  have := he₂.2
  omega

/-- A start with an end in its window extends to a solution on the device. -/
theorem exists_solution_of_end (h : constraint.OnDevice dev startAlign endAlign) {s e : ℤ}
    (hs : s ∈ alignedIn startAlign constraint.startRange)
    (he : e ∈ alignedIn endAlign constraint.endRange)
    (hlo : s + constraint.minSize - 1 ≤ e) (hhi : e ≤ s + constraint.maxSize - 1) :
    ∃ g : PedGeometry, g.start = s ∧ g.end = e ∧ g.InsideDevice dev ∧
      pedConstraintIsSolution constraint g = true := by
  have hmin := constraint.min_pos
  have hsnn : 0 ≤ s := nonneg_of_mem_alignedIn hs
  have hend : (⟨s, e - s + 1, hsnn, by omega⟩ : PedGeometry).end = e := by
    simp only [PedGeometry.end_mk]
    omega
  refine ⟨⟨s, e - s + 1, hsnn, by omega⟩, rfl, hend, ?_, ?_⟩
  · have hinside := h.endRange_inside
    unfold PedGeometry.InsideDevice at hinside ⊢
    have := he.2.2
    omega
  · rw [isSolution_iff_window h, hend]
    exact ⟨hs, he, hlo, hhi⟩

/-- Outside the origin configuration the start of every solution is canonical. -/
theorem canonical_of_isSolution (h : constraint.OnDevice dev startAlign endAlign)
    (hreach : StartsReachEnds constraint startAlign endAlign) {g : PedGeometry}
    (hsol : pedConstraintIsSolution constraint g = true) :
    OnGrid startAlign.offset startAlign.grainSize g.start ∧
      Canonical constraint endAlign g.start := by
  obtain ⟨hs, he, hlo, hhi⟩ := (isSolution_iff_window h).mp hsol
  refine ⟨hs.1, by omega, hs.2, ⟨_, he, hhi⟩, ⟨_, he, hlo⟩, ?_⟩
  by_contra hnone
  push Not at hnone
  have hsnn := g.start_nonneg
  have hemin := hnone _ he
  have hzero : g.start = 0 := by omega
  have hend : g.end = constraint.minSize - 1 := by omega
  refine hreach.origin ⟨hzero ▸ hs, hend ▸ he, fun e he' => ?_⟩
  have := hnone e he'
  omega

/-- **Completeness of the solver, exactly.**  For a request on the device, the
two halves of completeness (a `NULL` answer means that no region on the device
solves the constraint; every aligned canonical start extends to a solution) hold
together if and only if the starts of the constraint reach its ends. -/
theorem pedConstraintSolveNearest_complete_iff (constraint : PedConstraint) (dev : PedDevice)
    (startAlign endAlign : PedAlignment)
    (h : constraint.OnDevice dev startAlign endAlign)
    (hsizes : constraint.minSize ≤ constraint.maxSize)
    (geom : PedGeometry) :
    ((pedConstraintSolveNearest dev (some constraint) geom = .ok none →
        ∀ g : PedGeometry, g.InsideDevice dev → pedConstraintIsSolution constraint g = false) ∧
      (∀ range, constraintGetCanonicalStartRange constraint = .ok (some range) →
        ∀ s ∈ alignedIn startAlign range, ∃ g : PedGeometry,
          g.start = s ∧ g.InsideDevice dev ∧ pedConstraintIsSolution constraint g = true)) ↔
      StartsReachEnds constraint startAlign endAlign := by
  obtain ⟨canon, hcanon, hmem⟩ := mem_canonicalStartRange h.endAlign_eq
  have hmin := constraint.min_pos
  constructor
  · rintro ⟨hnull, hstarts⟩
    refine ⟨fun s hs ⟨e₁, he₁, hlt₁⟩ ⟨e₂, he₂, hlt₂⟩ => ?_, fun ⟨hzero, hlast⟩ => ?_⟩
    · -- the start is canonical, so it has an end, which bounds the next aligned sector
      have hsnn := nonneg_of_mem_alignedIn hs
      have hc : Canonical constraint endAlign s :=
        ⟨hsizes, hs.2, ⟨e₁, he₁, by omega⟩, ⟨e₂, he₂, by omega⟩, e₂, he₂, by omega⟩
      obtain ⟨r, hr, hsr⟩ := (hmem s).mpr hc
      obtain ⟨g, rfl, -, hsol⟩ := hstarts r (by rw [hcanon, hr]) s ⟨hs.1, hsr⟩
      obtain ⟨-, he, hlo, hhi⟩ := (isSolution_iff_window h).mp hsol
      have := OnGrid.next_le endAlign.grain_nonneg he.1 hlo
      omega
    · -- the region `[0, min - 1]` is a solution, and the solver gives up on it
      have hnone : pedConstraintSolveNearest dev (some constraint) geom = .ok none := by
        rcases pedConstraintSolveNearest_cases h geom with ⟨heq, -⟩ | ⟨s, -, hc, -⟩
        · exact heq
        · obtain ⟨e, he, hle⟩ := hc.endLarge
          exact absurd (hlast.2 he) (by omega)
      obtain ⟨g, -, -, hinside, hsol⟩ := exists_solution_of_end h hzero hlast.1 (by omega)
        (by omega)
      rw [hnull hnone g hinside] at hsol
      exact absurd hsol (by decide)
  · intro hreach
    refine ⟨fun hnone g _ => ?_, fun range hrange s hs => ?_⟩
    · rw [Bool.eq_false_iff]
      intro hsol
      obtain ⟨hgrid, hc⟩ := canonical_of_isSolution h hreach hsol
      rcases pedConstraintSolveNearest_cases h geom with
        ⟨-, hno⟩ | ⟨s, hsgrid, hsc, ⟨-, hno⟩ | ⟨result, heq, -⟩⟩
      · exact hno g.start hgrid hc
      · obtain ⟨e, he, hw⟩ := exists_end_in_window hreach hsgrid hsc
        exact hno e he hw
      · rw [heq] at hnone
        simp at hnone
    · rw [hcanon] at hrange
      cases hrange
      have hc := (hmem s).mp ⟨range, rfl, hs.2⟩
      obtain ⟨e, he, hlo, hhi⟩ := exists_end_in_window hreach hs.1 hc
      obtain ⟨g, hstart, -, hinside, hsol⟩ :=
        exists_solution_of_end h ⟨hs.1, hc.inRange⟩ he hlo hhi
      exact ⟨g, hstart, hinside, hsol⟩

/-- On 100 sectors, with slack 35 against a grain of 6, the solver is complete. -/
theorem pedConstraintSolveNearest_complete_iff_hundred :
    (pedConstraintSolveNearest hundredSectors (some hundredConstraint)
          ⟨11, 20, by decide, by decide⟩ = .ok none →
        ∀ g : PedGeometry, g.InsideDevice hundredSectors →
          pedConstraintIsSolution hundredConstraint g = false) ∧
      (∀ range, constraintGetCanonicalStartRange hundredConstraint = .ok (some range) →
        ∀ s ∈ alignedIn ⟨0, 4, by decide⟩ range, ∃ g : PedGeometry,
          g.start = s ∧ g.InsideDevice hundredSectors ∧
            pedConstraintIsSolution hundredConstraint g = true) := by
  refine (pedConstraintSolveNearest_complete_iff hundredConstraint hundredSectors
    ⟨0, 4, by decide⟩ ⟨0, 6, by decide⟩ ⟨rfl, rfl, by decide, by decide⟩ (by decide) _).mpr
    ⟨fun s _ _ _ => ?_, fun ⟨_, hlast, _⟩ => absurd hlast.1 (by decide)⟩
  change (0 - (s + 5 - 1)) % 6 ≤ 40 - 5
  omega

/-- One region of 100 sectors is asked for on a device of 100 sectors. -/
def wholeDevice : PedConstraint where
  startAlign := some pedAlignmentAny
  endAlign := some pedAlignmentAny
  startRange := .fromTo 0 99
  endRange := .fromTo 0 99
  minSize := 100
  maxSize := 100
  min_pos := by decide
  max_pos := by decide

/-- Regions of exactly 5 sectors that start anywhere and end on a multiple of 10. -/
def fiveSectors : PedConstraint where
  startAlign := some pedAlignmentAny
  endAlign := some ⟨0, 10, by decide⟩
  startRange := .fromTo 0 99
  endRange := .fromTo 0 99
  minSize := 5
  maxSize := 5
  min_pos := by decide
  max_pos := by decide

/-- Asked for the whole device, which is a solution, the solver returns `NULL`;
and asked for five sectors near `[20, 24]`, it settles on start 20, from which
no end on a multiple of 10 is five sectors away, although `[16, 20]` solves the
constraint. -/
theorem pedConstraintSolveNearest_incomplete :
    (pedConstraintSolveNearest hundredSectors (some wholeDevice)
        ⟨0, 100, by decide, by decide⟩ = .ok none ∧
      pedConstraintIsSolution wholeDevice ⟨0, 100, by decide, by decide⟩ = true) ∧
    (pedConstraintSolveNearest hundredSectors (some fiveSectors)
        ⟨20, 5, by decide, by decide⟩ = .ok none ∧
      pedConstraintIsSolution fiveSectors ⟨16, 5, by decide, by decide⟩ = true) := by
  refine ⟨⟨?_, ?_⟩, ?_, ?_⟩ <;> decide +kernel

end Complete

end Libparted
