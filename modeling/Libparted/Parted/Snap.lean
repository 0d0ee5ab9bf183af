import Libparted.Disk.Placeholders

/-!
# Snapping to boundaries (`snap_to_boundaries` in `parted/parted.c`)

Before a partition is made, its start and its end are moved to boundaries of the entries that they
are in, if the ranges allow that.  Each of them prefers the boundary that is nearer.  They must not
cross each other.  In one entry the start does not move up and the end does not move down.  If the
entry of the start is next to that of the end and they want to meet, the one that has farther to go
is asked again without this move.  Otherwise there is something between the entries.

**They never cross**, on a disk that is covered by entries without gaps, whether the entries are
primary or logical (`snapToBoundaries_safe`).
-/

namespace Libparted.Parted

open Library Pointers

variable {π : Type}

/-! ## The functions -/

/-- `EMoves`, as the move that is wanted. -/
inductive EMoves where
  | still
  | up
  | down
deriving DecidableEq, Repr

/-- `EMoves`, as the set of moves that are allowed; staying is never excluded. -/
structure Allowed where
  up : Bool
  down : Bool
deriving DecidableEq, Repr

/-- `snap`: the sector and whether it has been changed. -/
def snap (sector newSector : ℤ) (range : PedGeometry) : Except Fault (Bool × ℤ) := do
  pedAssert (pedGeometryTestSectorInside range sector)
    "ped_geometry_test_sector_inside (range, *sector)"
  if !pedGeometryTestSectorInside range newSector then return (false, sector)
  return (true, newSector)

/-- `SECT_START`. -/
def sectStart : ℤ := 0

/-- `SECT_END`. -/
def sectEnd : ℤ := -1

/-- `prefer_snap`: the move, the moves that are allowed, and the distance. -/
def preferSnap (s what : ℤ) (range : PedGeometry) (allow : Allowed) (part : PedGeometry) :
    Except Fault (EMoves × Allowed × ℤ) := do
  pedAssert (what == sectStart || what == sectEnd) "what == SECT_START || what == SECT_END"
  if !allow.up && !allow.down then return (.still, allow, 0)
  let upSect := part.end + 1 + what
  let downSect := part.start + what
  let allow : Allowed := ⟨allow.up && pedGeometryTestSectorInside range upSect,
    allow.down && pedGeometryTestSectorInside range downSect⟩
  let upDist := if allow.up then upSect - s else -1
  let downDist := if allow.down then s - downSect else -1
  let move ← if allow.up && allow.down then
      if downDist < upDist ∨ (downDist = upDist ∧ what = sectStart) then pure .down
      else if upDist < downDist ∨ (downDist = upDist ∧ what = sectEnd) then pure .up
      else throw (.assertion "0")
    else if allow.up then pure .up
    else if allow.down then pure .down
    else pure .still
  let dist := match move with
    | .down => downDist
    | .up => upDist
    | .still => 0
  return (move, allow, dist)

/-- The new start. -/
def startAfter (part : PedGeometry) (start : ℤ) : EMoves → ℤ
  | .down => part.start
  | .up => part.end + 1
  | .still => start

/-- The new end. -/
def endAfter (part : PedGeometry) (end' : ℤ) : EMoves → ℤ
  | .down => part.start - 1
  | .up => part.end
  | .still => end'

/-- The moves of the start and of the end, which are in the given entries. -/
def findMoves (start end' : ℤ) (startRange endRange startPart endPart : PedGeometry)
    (startAllow endAllow : Allowed) : Except Fault (EMoves × EMoves) := do
  let adjacent := startPart.end + 1 = endPart.start
  let (startWant, startAllow, startDist) ←
    preferSnap start sectStart startRange startAllow startPart
  let (endWant, endAllow, endDist) ← preferSnap end' sectEnd endRange endAllow endPart
  pedAssert (decide (startDist ≥ 0 ∧ endDist ≥ 0)) "start_dist >= 0 && end_dist >= 0"
  if adjacent ∧ startWant = .up ∧ endWant = .down then
    if endDist < startDist then
      let (startWant, _, startDist) ←
        preferSnap start sectStart startRange { startAllow with up := false } startPart
      pedAssert (decide (startDist ≥ 0)) "start_dist >= 0"
      return (startWant, endWant)
    else
      let (endWant, _, endDist) ←
        preferSnap end' sectEnd endRange { endAllow with down := false } endPart
      pedAssert (decide (endDist ≥ 0)) "end_dist >= 0"
      return (startWant, endWant)
  return (startWant, endWant)

/-- `snap_to_boundaries`, for the entries that the start and the end are in. -/
def snapBetween (newGeom : PedGeometry) (oldGeom : Option PedGeometry) (samePart : Bool)
    (startPart endPart startRange endRange : PedGeometry) : Except Fault (Option PedGeometry) := do
  let allow : Allowed := ⟨true, true⟩
  -- if we can snap to old_geom, then we will
  let (startSnapped, start) ← match oldGeom with
    | some oldGeom => snap newGeom.start oldGeom.start startRange
    | none => pure (false, newGeom.start)
  let (endSnapped, end') ← match oldGeom with
    | some oldGeom => snap newGeom.end oldGeom.end endRange
    | none => pure (false, newGeom.end)
  let startAllow := if startSnapped then ⟨false, false⟩ else allow
  let endAllow := if endSnapped then ⟨false, false⟩ else allow
  let startAllow := if samePart then { startAllow with up := false } else startAllow
  let endAllow := if samePart then { endAllow with down := false } else endAllow
  let (startWant, endWant) ←
    findMoves start end' startRange endRange startPart endPart startAllow endAllow
  let start := startAfter startPart start startWant
  let end' := endAfter endPart end' endWant
  pedAssert (pedGeometryTestSectorInside startRange start)
    "ped_geometry_test_sector_inside(start_range,start)"
  pedAssert (pedGeometryTestSectorInside endRange end')
    "ped_geometry_test_sector_inside (end_range, end)"
  pedAssert (decide (start ≤ end')) "start <= end"
  pedGeometrySet start (end' - start + 1)

/-- `snap_to_boundaries`: what `ped_geometry_set` makes of `new_geom`. -/
def snapToBoundaries (newGeom : PedGeometry) (oldGeom : Option PedGeometry)
    (startRange endRange : PedGeometry) (fuel : ℕ) : HeapM π (Option PedGeometry) := do
  let startPart ← pedDiskGetPartitionBySector newGeom.start fuel
  let endPart ← pedDiskGetPartitionBySector newGeom.end fuel
  match startPart, endPart with
  | some startPart, some endPart =>
      let s ← get
      liftM (snapBetween newGeom oldGeom (startPart == endPart) (s.part startPart).geom
        (s.part endPart).geom startRange endRange)
  | _, _ => throw (.undefined "start_part->geom")

/-! ## Moves -/

section Moves

variable {s what : ℤ} {part : PedGeometry}

/-- A move that `prefer_snap` may want: it is allowed, and leads into the range. -/
structure Admissible (what : ℤ) (range : PedGeometry) (allow : Allowed) (part : PedGeometry)
    (want : EMoves) : Prop where
  up : want = .up → allow.up = true ∧ pedGeometryTestSectorInside range (part.end + 1 + what) = true
  down : want = .down → allow.down = true ∧
    pedGeometryTestSectorInside range (part.start + what) = true

/-- **`prefer_snap`** fails no assertion, and the distance is not negative. -/
theorem preferSnap_spec (range : PedGeometry) (allow : Allowed)
    (hwhat : what = sectStart ∨ what = sectEnd) (hlow : part.start ≤ s) (hhigh : s ≤ part.end) :
    ∃ want allow' dist,
      preferSnap s what range allow part = .ok (want, allow', dist) ∧ 0 ≤ dist ∧
      Admissible what range allow part want ∧
      (allow'.up = true → allow.up = true) ∧ (allow'.down = true → allow.down = true) := by
  have hassert : pedAssert (what == sectStart || what == sectEnd)
      "what == SECT_START || what == SECT_END" = .ok () := by
    obtain rfl | rfl := hwhat <;> rfl
  have hdist : 0 ≤ part.end + 1 + what - s ∧ 0 ≤ s - (part.start + what) := by
    obtain rfl | rfl := hwhat
    · simp only [sectStart]
      omega
    · simp only [sectEnd]
      omega
  unfold preferSnap
  rw [hassert, ok_bind]
  by_cases hnone : (!allow.up && !allow.down) = true
  · rw [if_pos hnone]
    exact ⟨.still, allow, 0, rfl, le_rfl, ⟨nofun, nofun⟩, id, id⟩
  · rw [if_neg hnone]
    dsimp only
    cases hup : allow.up && pedGeometryTestSectorInside range (part.end + 1 + what) with
    | false =>
        cases hdown : allow.down && pedGeometryTestSectorInside range (part.start + what) with
        | false => exact ⟨.still, ⟨false, false⟩, 0, rfl, le_rfl, ⟨nofun, nofun⟩, nofun, nofun⟩
        | true =>
            have hdown := Bool.and_eq_true_iff.mp hdown
            exact ⟨.down, ⟨false, true⟩, s - (part.start + what), rfl, hdist.2,
              ⟨nofun, fun _ => hdown⟩, nofun, fun _ => hdown.1⟩
    | true =>
        have hup := Bool.and_eq_true_iff.mp hup
        cases hdown : allow.down && pedGeometryTestSectorInside range (part.start + what) with
        | false =>
            exact ⟨.up, ⟨true, false⟩, part.end + 1 + what - s, rfl, hdist.1,
              ⟨fun _ => hup, nofun⟩, fun _ => hup.1, nofun⟩
        | true =>
            have hdown := Bool.and_eq_true_iff.mp hdown
            simp only [Bool.and_self, if_true]
            split_ifs with hnear hnear'
            · exact ⟨.down, ⟨true, true⟩, s - (part.start + what), rfl, hdist.2,
                ⟨nofun, fun _ => hdown⟩, fun _ => hup.1, fun _ => hdown.1⟩
            · exact ⟨.up, ⟨true, true⟩, part.end + 1 + what - s, rfl, hdist.1,
                ⟨fun _ => hup, nofun⟩, fun _ => hup.1, fun _ => hdown.1⟩
            · -- one of the distances is less, or they are equal
              exfalso
              obtain rfl | rfl := hwhat <;> omega

/-- **The moves** are admissible, and do not cross where the entries are adjacent. -/
theorem findMoves_spec {start end' : ℤ} {startRange endRange startPart endPart : PedGeometry}
    {startAllow endAllow : Allowed} (hstart : startPart.start ≤ start ∧ start ≤ startPart.end)
    (hend : endPart.start ≤ end' ∧ end' ≤ endPart.end) :
    ∃ startWant endWant, findMoves start end' startRange endRange startPart endPart startAllow
        endAllow = .ok (startWant, endWant) ∧
      Admissible sectStart startRange startAllow startPart startWant ∧
      Admissible sectEnd endRange endAllow endPart endWant ∧
      (startPart.end + 1 = endPart.start → ¬ (startWant = .up ∧ endWant = .down)) := by
  obtain ⟨startWant, startAllow', startDist, hprefer, hdist, hadm, -, hmono⟩ :=
    preferSnap_spec startRange startAllow (Or.inl rfl) hstart.1 hstart.2
  obtain ⟨endWant, endAllow', endDist, hprefer', hdist', hadm', hmono', -⟩ :=
    preferSnap_spec endRange endAllow (Or.inr rfl) hend.1 hend.2
  unfold findMoves
  rw [hprefer, ok_bind]
  dsimp only
  rw [hprefer', ok_bind]
  dsimp only
  rw [decide_eq_true ⟨hdist, hdist'⟩, pedAssert, if_pos rfl, ok_bind]
  split_ifs with hcross hnear
  · obtain ⟨want, allow, dist, hagain, hdist, hadm, -, -⟩ :=
      preferSnap_spec startRange { startAllow' with up := false }
        (Or.inl rfl) hstart.1 hstart.2
    rw [hagain, ok_bind]
    dsimp only
    rw [decide_eq_true (show dist ≥ 0 from hdist), pedAssert, if_pos rfl]
    refine ⟨want, endWant, rfl, ⟨fun h => ?_, fun h => ?_⟩, hadm', fun _ h => ?_⟩
    · exact absurd (hadm.up h).1 Bool.false_ne_true
    · exact ⟨hmono (hadm.down h).1, (hadm.down h).2⟩
    · exact absurd (hadm.up h.1).1 Bool.false_ne_true
  · obtain ⟨want, allow, dist, hagain, hdist, hadm', -, -⟩ :=
      preferSnap_spec endRange { endAllow' with down := false }
        (Or.inr rfl) hend.1 hend.2
    rw [hagain, ok_bind]
    dsimp only
    rw [decide_eq_true (show dist ≥ 0 from hdist), pedAssert, if_pos rfl]
    refine ⟨startWant, want, rfl, hadm, ⟨fun h => ?_, fun h => ?_⟩, fun _ h => ?_⟩
    · exact ⟨hmono' (hadm'.up h).1, (hadm'.up h).2⟩
    · exact absurd (hadm'.down h).1 Bool.false_ne_true
    · exact absurd (hadm'.down h.2).1 Bool.false_ne_true
  · exact ⟨startWant, endWant, rfl, hadm, hadm', fun hadj h => hcross ⟨hadj, h.1, h.2⟩⟩

end Moves

/-! ## Positions -/

/-- What becomes of a geometry that is snapped: both ends stay in their ranges and move to
boundaries of their entries, if they move, and what is between the entries stays inside. -/
structure Snapped (startRange endRange startPart endPart geom geom' : PedGeometry) : Prop where
  startRange : startRange.start ≤ geom'.start ∧ geom'.start ≤ startRange.end
  endRange : endRange.start ≤ geom'.end ∧ geom'.end ≤ endRange.end
  start : geom'.start = geom.start ∨ geom'.start = startPart.start ∨
    geom'.start = startPart.end + 1
  «end» : geom'.end = geom.end ∨ geom'.end = endPart.end ∨ geom'.end = endPart.start - 1
  le : geom'.start ≤ geom'.end
  between : ∀ x, startPart.end < x → x < endPart.start → geom'.start ≤ x ∧ x ≤ geom'.end

section Positions

variable {geom startPart endPart startRange endRange : PedGeometry}

/-- The new start is in its range and at most behind its entry. -/
theorem startAfter_spec {allow : Allowed} {want : EMoves}
    (hadm : Admissible sectStart startRange allow startPart want)
    (hstart : startPart.start ≤ geom.start ∧ geom.start ≤ startPart.end)
    (hrange : startRange.start ≤ geom.start ∧ geom.start ≤ startRange.end) :
    (startRange.start ≤ startAfter startPart geom.start want ∧
      startAfter startPart geom.start want ≤ startRange.end) ∧
    startAfter startPart geom.start want ≤ startPart.end + 1 ∧
    (want ≠ .up → startAfter startPart geom.start want ≤ geom.start) := by
  have hle := startPart.start_le_end
  cases want with
  | still => exact ⟨hrange, by simp only [startAfter]; omega, fun _ => le_rfl⟩
  | up =>
      have hinside := pedGeometryTestSectorInside_iff.mp (hadm.up rfl).2
      simp only [sectStart, Int.add_zero] at hinside
      exact ⟨hinside, le_rfl, fun h => absurd rfl h⟩
  | down =>
      have hinside := pedGeometryTestSectorInside_iff.mp (hadm.down rfl).2
      simp only [sectStart, Int.add_zero] at hinside
      exact ⟨hinside, by simp only [startAfter]; omega, fun _ => hstart.1⟩

/-- The new end is in its range and at least before its entry. -/
theorem endAfter_spec {allow : Allowed} {want : EMoves}
    (hadm : Admissible sectEnd endRange allow endPart want)
    (hend : endPart.start ≤ geom.end ∧ geom.end ≤ endPart.end)
    (hrange : endRange.start ≤ geom.end ∧ geom.end ≤ endRange.end) :
    (endRange.start ≤ endAfter endPart geom.end want ∧
      endAfter endPart geom.end want ≤ endRange.end) ∧
    endPart.start - 1 ≤ endAfter endPart geom.end want ∧
    (want ≠ .down → geom.end ≤ endAfter endPart geom.end want) := by
  have hle := endPart.start_le_end
  cases want with
  | still => exact ⟨hrange, by simp only [endAfter]; omega, fun _ => le_rfl⟩
  | up =>
      have hinside := pedGeometryTestSectorInside_iff.mp (hadm.up rfl).2
      simp only [sectEnd, endAfter] at hinside ⊢
      exact ⟨by omega, by omega, fun _ => hend.2⟩
  | down =>
      have hinside := pedGeometryTestSectorInside_iff.mp (hadm.down rfl).2
      simp only [sectEnd, endAfter] at hinside ⊢
      exact ⟨by omega, by omega, fun h => absurd rfl h⟩

/-- The ends do not cross if the entries are the same or one behind the other. -/
theorem snapBetween_spec {samePart : Bool}
    (hstart : startPart.start ≤ geom.start ∧ geom.start ≤ startPart.end)
    (hend : endPart.start ≤ geom.end ∧ geom.end ≤ endPart.end)
    (hparts : samePart = false → startPart.end < endPart.start)
    (hstartRange : startRange.start ≤ geom.start ∧ geom.start ≤ startRange.end)
    (hendRange : endRange.start ≤ geom.end ∧ geom.end ≤ endRange.end) :
    ∃ geom', snapBetween geom none samePart startPart endPart startRange endRange
        = .ok (some geom') ∧ Snapped startRange endRange startPart endPart geom geom' := by
  have hle := geom.start_le_end
  have hnonneg := startRange.start_nonneg
  obtain ⟨startWant, endWant, hmoves, hadm, hadm', hcross⟩ :=
    @findMoves_spec geom.start geom.end startRange endRange startPart endPart
      (if samePart then ⟨false, true⟩ else ⟨true, true⟩)
      (if samePart then ⟨true, false⟩ else ⟨true, true⟩) hstart hend
  obtain ⟨hinS, hleS, hstayS⟩ := startAfter_spec hadm hstart hstartRange
  obtain ⟨hinE, hleE, hstayE⟩ := endAfter_spec hadm' hend hendRange
  have hmovedS : ∃ x, startAfter startPart geom.start startWant = x ∧
      (x = geom.start ∨ x = startPart.start ∨ x = startPart.end + 1) := by
    cases startWant <;> simp [startAfter]
  have hmovedE : ∃ x, endAfter endPart geom.end endWant = x ∧
      (x = geom.end ∨ x = endPart.end ∨ x = endPart.start - 1) := by
    cases endWant <;> simp [endAfter]
  obtain ⟨newStart, hS, hmovedS⟩ := hmovedS
  obtain ⟨newEnd, hE, hmovedE⟩ := hmovedE
  rw [hS] at hinS hleS hstayS
  rw [hE] at hinE hleE hstayE
  have horder : newStart ≤ newEnd := by
    cases samePart with
    | true =>
        -- the start does not move up, and the end does not move down
        have hS := hstayS fun h => Bool.false_ne_true (hadm.up h).1
        have hE := hstayE fun h => Bool.false_ne_true (hadm'.down h).1
        omega
    | false =>
        have hbehind := hparts rfl
        by_cases hadjacent : startPart.end + 1 = endPart.start
        · by_cases hup : startWant = .up
          · have hE := hstayE fun hdown => hcross hadjacent ⟨hup, hdown⟩
            omega
          · have hS := hstayS hup
            omega
        · omega
  have hrun : snapBetween geom none samePart startPart endPart startRange endRange
      = pedGeometrySet newStart (newEnd - newStart + 1) := by
    have hassert : ∀ text, pedAssert (pedGeometryTestSectorInside startRange newStart) text
        = .ok () := fun text => by rw [pedGeometryTestSectorInside_iff.mpr hinS]; rfl
    have hassert' : ∀ text, pedAssert (pedGeometryTestSectorInside endRange newEnd) text
        = .ok () := fun text => by rw [pedGeometryTestSectorInside_iff.mpr hinE]; rfl
    have hassert'' : ∀ text, pedAssert (decide (newStart ≤ newEnd)) text = .ok () :=
      fun text => by rw [decide_eq_true horder]; rfl
    unfold snapBetween
    simp only [pure_bind, Bool.false_eq_true, if_false, hmoves, ok_bind, hS, hE, hassert, hassert',
      hassert'']
  rw [hrun, pedGeometrySet_eq (by omega) (by omega)]
  refine ⟨_, rfl, ?_⟩
  have hlast : (⟨newStart, newEnd - newStart + 1, by omega, by omega⟩ : PedGeometry).end
      = newEnd := by
    rw [PedGeometry.end_mk]
    omega
  refine ⟨hinS, by rw [hlast]; exact hinE, hmovedS, by rw [hlast]; exact hmovedE,
    PedGeometry.start_le_end _, fun x hx hx' => ?_⟩
  rw [hlast]
  dsimp only
  omega

end Positions

/-- **Snapping is safe.**  On a disk without gaps, for a geometry on it whose ends are in their
ranges, no assertion fails, and the ends move to boundaries of the entries that they are in,
without leaving the ranges or what is between the entries. -/
theorem snapToBoundaries_safe {dev : PedDevice} {s : PartitionHeap π} {lists : Bool → List ℕ}
    (h : Linked s lists) (ht : Tiled dev s lists) {fuel : ℕ}
    (hfuel : (lists false).length + (lists true).length < fuel)
    {geom startRange endRange : PedGeometry} (hdev : geom.InsideDevice dev)
    (hstart : pedGeometryTestSectorInside startRange geom.start = true)
    (hend : pedGeometryTestSectorInside endRange geom.end = true) :
    ∃ geom' a b, snapToBoundaries geom none startRange endRange fuel s = .ok (some geom', s) ∧
      (∃ c, a ∈ lists c) ∧ s.Covers geom.start a ∧ (∃ c, b ∈ lists c) ∧ s.Covers geom.end b ∧
      Snapped startRange endRange (s.part a).geom (s.part b).geom geom geom' := by
  have hle := geom.start_le_end
  have hnonneg := geom.start_nonneg
  have hlt : geom.end < dev.length := hdev
  obtain ⟨a, hfindA, hmemA, hcoverA, -⟩ := ht.bySector h hfuel hnonneg (by omega)
  obtain ⟨b, hfindB, hmemB, hcoverB, -⟩ := ht.bySector h hfuel geom.end_nonneg (by omega)
  have hbehind : (a == b) = false → (s.part a).geom.end < (s.part b).geom.start := by
    intro hne
    by_contra hnot
    -- a sector of both
    have hloA : (s.part a).geom.start ≤ geom.start := hcoverA.1
    have hloB : (s.part b).geom.start ≤ geom.end := hcoverB.1
    have hhiB : geom.end ≤ (s.part b).geom.end := hcoverB.2.1
    have hA := (s.part a).geom.start_le_end
    have hA' := (s.part a).geom.start_nonneg
    obtain ⟨c, -, -, -, hunique⟩ := ht.bySector h hfuel
      (show 0 ≤ max (s.part a).geom.start (s.part b).geom.start by omega) (by omega)
    have hhighA : max (s.part a).geom.start (s.part b).geom.start ≤ (s.part a).geom.end := by omega
    have hhighB : max (s.part a).geom.start (s.part b).geom.start ≤ (s.part b).geom.end := by omega
    have hcA := hunique a hmemA ⟨le_max_left _ _, hhighA, hcoverA.2.2⟩
    have hcB := hunique b hmemB ⟨le_max_right _ _, hhighB, hcoverB.2.2⟩
    exact beq_eq_false_iff_ne.mp hne (hcA.trans hcB.symm)
  obtain ⟨geom', hrun, hsnapped⟩ := snapBetween_spec ⟨hcoverA.1, hcoverA.2.1⟩
    ⟨hcoverB.1, hcoverB.2.1⟩ hbehind (pedGeometryTestSectorInside_iff.mp hstart)
    (pedGeometryTestSectorInside_iff.mp hend)
  refine ⟨geom', a, b, ?_, hmemA, hcoverA, hmemB, hcoverB, hsnapped⟩
  unfold snapToBoundaries
  rw [run_bind_ok hfindA, run_bind_ok hfindB]
  dsimp only
  rw [run_bind_ok run_get, hrun]
  rfl

/-- A partition, and an extended partition with metadata and a logical partition. -/
def tiledHeap : PartitionHeap Unit where
  part
    | 0 => ⟨0, .normal, 1, .fromTo 0 29, none⟩
    | 1 => ⟨1, .ofExtended, 2, .fromTo 30 99, none⟩
    | 2 => ⟨2, .ofMetadata true, -1, .fromTo 30 30, none⟩
    | _ => ⟨3, .ofLogical, 5, .fromTo 31 99, none⟩
  links :=
    { prev := fun | 1 => some 0 | 3 => some 2 | _ => none
      next := fun | 0 => some 1 | 2 => some 3 | _ => none }
  inner := fun | 1 => some 2 | _ => none
  partList := some 0
  fresh := 4

def tiledLists : Bool → List ℕ
  | false => [0, 1]
  | true => [2, 3]

theorem linked_tiledHeap : Linked tiledHeap tiledLists where
  linked b := by
    cases b with
    | false => exact ⟨by decide, rfl, rfl, rfl, rfl, rfl, trivial⟩
    | true => exact ⟨by decide, rfl, rfl, rfl, rfl, rfl, trivial⟩
  apart := by decide
  old := by decide
  level := by decide
  one := by decide

theorem tiled_tiledHeap : Tiled hundredSectors tiledHeap tiledLists where
  disk := .cons_of_eq (.cons_of_eq (.nil (by decide)) rfl rfl (by decide)) rfl rfl (by decide)
  logicals ext hext := by
    obtain rfl : 1 = ext := Option.some.inj hext
    exact .cons_of_eq (.cons_of_eq (.nil (by decide)) rfl rfl (by decide)) rfl rfl (by decide)
  separate c := by cases c <;> decide

/-- From the partition into the logical one, with all of the disk as range. -/
theorem snapToBoundaries_safe_tiledHeap :
    ∃ geom' a b, snapToBoundaries ⟨25, 21, by decide, by decide⟩ none
        ⟨0, 100, by decide, by decide⟩ ⟨0, 100, by decide, by decide⟩ 5 tiledHeap
        = .ok (some geom', tiledHeap) ∧
      (∃ c, a ∈ tiledLists c) ∧ tiledHeap.Covers 25 a ∧
      (∃ c, b ∈ tiledLists c) ∧ tiledHeap.Covers 45 b ∧
      Snapped ⟨0, 100, by decide, by decide⟩ ⟨0, 100, by decide, by decide⟩
        (tiledHeap.part a).geom (tiledHeap.part b).geom ⟨25, 21, by decide, by decide⟩ geom' :=
  snapToBoundaries_safe linked_tiledHeap tiled_tiledHeap (show _ < 5 by decide)
    (show (⟨25, 21, by decide, by decide⟩ : PedGeometry).InsideDevice hundredSectors by decide)
    (by decide) (by decide)

end Libparted.Parted
