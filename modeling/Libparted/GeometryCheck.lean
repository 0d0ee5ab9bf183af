import Libparted.Geometry

/-!
# Reading through a geometry (`libparted/cs/geom.c`)

`ped_geometry_read` counts sectors from the start of a region.  Two functions are for such offsets.

`ped_geometry_map` takes an offset in one region to the offset of the same sector in another one.
Its range check compares the offset with sectors of the device, and the sector behind the end of
the other region counts as part of it.  It is right where neither matters
(`pedGeometryMap_relates_iff`).

`ped_geometry_check` looks for sectors that cannot be read.  It reads the region in large pieces;
when one fails, that piece is read again in groups of `granularity` sectors, to see which of them
fails.  The second scan leaves out the last group, and when it finds nothing everything starts over.
The groups are counted from the piece, not from the start of the region, and 0 is both a sector and
the answer that there is none.  **The answer is right if the first unreadable sector is not in one
of these places** (`pedGeometryCheck_right_iff`).
-/

namespace Libparted

open Library

/-- `ped_geometry_read`, given `ped_device_read`. -/
def geometryRead {α : Type} (deviceRead : ℤ → ℤ → Option α) (geom : PedGeometry)
    (offset count : ℤ) : Except Fault (Option α) := do
  pedAssert (offset ≥ 0) "offset >= 0"
  pedAssert (count ≥ 0) "count >= 0"
  let realStart := geom.start + offset
  if realStart + count - 1 > geom.end then return none
  return deviceRead realStart count

section Read

variable {α : Type} {deviceRead : ℤ → ℤ → Option α} {geom : PedGeometry} {offset count : ℤ}

theorem geometryRead_eq (hoffset : 0 ≤ offset) (hcount : 0 ≤ count) :
    geometryRead deviceRead geom offset count
      = .ok (if offset + count ≤ geom.length then deviceRead (geom.start + offset) count
        else none) := by
  unfold geometryRead
  rw [pedAssert, if_pos (decide_eq_true hoffset), ok_bind, pedAssert,
    if_pos (decide_eq_true hcount), ok_bind]
  have hend : geom.end = geom.start + geom.length - 1 := rfl
  dsimp only
  split_ifs
  · omega
  · rfl
  · rfl
  · omega

end Read

/-! ## Offsets in two regions -/

/-- What the offset of a sector in another region is for: there is one if the sector is in both
regions, and reading there is reading the sector. -/
def Relates (dst src : PedGeometry) (n : ℤ) : Prop :=
  (pedGeometryMap dst src n ≠ -1 ↔
    (0 ≤ n ∧ n < src.length) ∧ (dst.start ≤ src.start + n ∧ src.start + n ≤ dst.end)) ∧
  (pedGeometryMap dst src n ≠ -1 → ∀ (α : Type) (deviceRead : ℤ → ℤ → Option α),
    geometryRead deviceRead dst (pedGeometryMap dst src n) 1 = .ok (deviceRead (src.start + n) 1) ∧
      geometryRead deviceRead src n 1 = .ok (deviceRead (src.start + n) 1))

section Map

variable {dst src : PedGeometry} {n : ℤ}

/-- When there is an offset. -/
theorem pedGeometryMap_ne_iff : pedGeometryMap dst src n ≠ -1 ↔
    (src.start ≤ n ∧ n ≤ src.end) ∧ (dst.start ≤ src.start + n ∧ src.start + n ≤ dst.end + 1) := by
  have hend : dst.end = dst.start + dst.length - 1 := rfl
  unfold pedGeometryMap
  simp only [pedGeometryTestSectorInside_iff]
  split_ifs <;> omega

/-- Reading at the offset is reading the sector, if there is one to be read. -/
theorem geometryRead_pedGeometryMap {α : Type} {deviceRead : ℤ → ℤ → Option α}
    (hmap : pedGeometryMap dst src n ≠ -1) (hn : n < src.length) (hdst : src.start + n ≤ dst.end) :
    geometryRead deviceRead dst (pedGeometryMap dst src n) 1 = .ok (deviceRead (src.start + n) 1) ∧
      geometryRead deviceRead src n 1 = .ok (deviceRead (src.start + n) 1) := by
  obtain ⟨hstart, -, hresult, -, hsame⟩ := (pedGeometryMap_eq hmap).mp rfl
  have hend : dst.end = dst.start + dst.length - 1 := rfl
  have hnonneg := src.start_nonneg
  rw [geometryRead_eq hresult (by omega), geometryRead_eq (by omega) (by omega),
    if_pos (by omega), if_pos (by omega), hsame]
  exact ⟨rfl, rfl⟩

end Map

/-- **The map relates the regions** if the offset, taken as a sector of the device, is in `src`
exactly when it is an offset in `src`, where the sector is in `dst`; and if it is not in `src`,
where the sector is the one behind `dst`. -/
theorem pedGeometryMap_relates_iff (dst src : PedGeometry) (n : ℤ) : Relates dst src n ↔
    (src.start + n ∈ dst.sectors → (n ∈ src.sectors ↔ 0 ≤ n ∧ n < src.length)) ∧
      (src.start + n = dst.end + 1 → n ∉ src.sectors) := by
  have hdst := dst.start_le_end
  have hsrc := src.start_le_end
  unfold Relates
  simp only [PedGeometry.sectors, Set.mem_Icc]
  constructor
  · rintro ⟨hiff, -⟩
    rw [pedGeometryMap_ne_iff] at hiff
    omega
  · rintro ⟨hin, hbehind⟩
    have hiff : pedGeometryMap dst src n ≠ -1 ↔
        (0 ≤ n ∧ n < src.length) ∧ (dst.start ≤ src.start + n ∧ src.start + n ≤ dst.end) := by
      rw [pedGeometryMap_ne_iff]
      omega
    refine ⟨hiff, fun hmap α deviceRead => ?_⟩
    obtain ⟨⟨-, hn⟩, -, hle⟩ := hiff.mp hmap
    exact geometryRead_pedGeometryMap hmap hn hle

/-- The first sector of a region that does not start with the device has no offset in that
region. -/
theorem pedGeometryMap_first_sector :
    ¬ Relates ⟨10, 10, by decide, by decide⟩ ⟨10, 10, by decide, by decide⟩ 0 := by
  rintro ⟨hiff, -⟩
  exact absurd (hiff.mpr (by decide)) (by decide)

/-! ## Looking for unreadable sectors -/

/-- `ped_device_read` on a device where some sectors cannot be read. -/
def failingRead (bad : ℤ → Bool) (start count : ℤ) : Option Unit :=
  if (List.range count.toNat).any fun i => bad (start + i) then none else some ()

/-- One of the loops of `ped_geometry_check`: `len` sectors are read at each place, until a read
fails.  `none` if none does. -/
def checkLoop (read : ℤ → ℤ → Except Fault (Option Unit)) (more : ℤ → Bool) (len : ℤ → ℤ)
    (step : ℤ) : ℕ → ℤ → Except Fault (Option ℤ)
  | 0, _ => throw .outOfFuel
  | fuel + 1, i =>
    if more i then do
      match ← read i (len i) with
      | none => return some i
      | some () => checkLoop read more len step fuel (i + step)
    else return none

/-- The loop over the large pieces. -/
def checkPieces (read : ℤ → ℤ → Except Fault (Option Unit)) (bufferSize offset count : ℤ) :
    ℕ → ℤ → Except Fault (Option ℤ) :=
  checkLoop read (fun group => group < offset + count)
    (fun group => min bufferSize (offset + count - group)) bufferSize

/-- The loop behind `found_error`. -/
def checkGroups (read : ℤ → ℤ → Except Fault (Option Unit)) (granularity group count : ℤ) :
    ℕ → ℤ → Except Fault (Option ℤ) :=
  checkLoop read (fun i => i + granularity < group + count) (fun _ => granularity) granularity

/-- `ped_geometry_check`, from `retry` on. -/
def pedGeometryCheck (deviceRead : ℤ → ℤ → Option Unit) (geom : PedGeometry)
    (bufferSize offset granularity count : ℤ) : ℕ → Except Fault ℤ
  | 0 => throw .outOfFuel
  | fuel + 1 => do
    let read := geometryRead deviceRead geom
    match ← checkPieces read bufferSize offset count fuel offset with
    | none => return 0
    | some group =>
      match ← checkGroups read granularity group count fuel group with
      | some i => return i
      | none => pedGeometryCheck deviceRead geom bufferSize offset granularity count fuel

section Loop

variable {read : ℤ → ℤ → Except Fault (Option Unit)} {more : ℤ → Bool} {len : ℤ → ℤ} {step : ℤ}
  {fuel : ℕ} {i : ℤ}

theorem checkLoop_of_fail {k : ℕ} (hmore : ∀ j ≤ k, more (i + j * step) = true)
    (hgood : ∀ j < k, read (i + j * step) (len (i + j * step)) = .ok (some ()))
    (hbad : read (i + k * step) (len (i + k * step)) = .ok none) (hfuel : k < fuel) :
    checkLoop read more len step fuel i = .ok (some (i + k * step)) := by
  -- the induction is on the reads before that one
  induction k generalizing fuel i with
  | zero =>
    obtain ⟨fuel, rfl⟩ := Nat.exists_eq_add_one_of_ne_zero (show fuel ≠ 0 by omega)
    have hmore := hmore 0 le_rfl
    simp only [Nat.cast_zero, Int.zero_mul, Int.add_zero] at hmore hbad ⊢
    rw [checkLoop, if_pos hmore, hbad]
    rfl
  | succ k ih =>
    obtain ⟨fuel, rfl⟩ := Nat.exists_eq_add_one_of_ne_zero (show fuel ≠ 0 by omega)
    have hshift : ∀ j : ℕ, i + step + j * step = i + ((j + 1 : ℕ) : ℤ) * step := by
      intro j
      push_cast
      ring
    have hmore0 := hmore 0 (Nat.zero_le _)
    have hgood0 := hgood 0 (Nat.succ_pos _)
    simp only [Nat.cast_zero, Int.zero_mul, Int.add_zero] at hmore0 hgood0
    rw [checkLoop, if_pos hmore0, hgood0, ← hshift]
    refine ih (fun j hj => ?_) (fun j hj => ?_) ?_ (by omega)
    · rw [hshift]
      exact hmore (j + 1) (by omega)
    · rw [hshift]
      exact hgood (j + 1) (by omega)
    · rw [hshift]
      exact hbad

theorem checkLoop_of_end {k : ℕ} (hmore : ∀ j < k, more (i + j * step) = true)
    (hend : more (i + k * step) = false)
    (hgood : ∀ j < k, read (i + j * step) (len (i + j * step)) = .ok (some ()))
    (hfuel : k < fuel) : checkLoop read more len step fuel i = .ok none := by
  induction k generalizing fuel i with
  | zero =>
    obtain ⟨fuel, rfl⟩ := Nat.exists_eq_add_one_of_ne_zero (show fuel ≠ 0 by omega)
    simp only [Nat.cast_zero, Int.zero_mul, Int.add_zero] at hend
    rw [checkLoop, if_neg (by rw [hend]; decide)]
    rfl
  | succ k ih =>
    obtain ⟨fuel, rfl⟩ := Nat.exists_eq_add_one_of_ne_zero (show fuel ≠ 0 by omega)
    have hshift : ∀ j : ℕ, i + step + j * step = i + ((j + 1 : ℕ) : ℤ) * step := by
      intro j
      push_cast
      ring
    have hmore0 := hmore 0 (Nat.succ_pos _)
    have hgood0 := hgood 0 (Nat.succ_pos _)
    simp only [Nat.cast_zero, Int.zero_mul, Int.add_zero] at hmore0 hgood0
    rw [checkLoop, if_pos hmore0, hgood0]
    refine ih (fun j hj => ?_) ?_ (fun j hj => ?_) (by omega)
    · rw [hshift]
      exact hmore (j + 1) (by omega)
    · rw [hshift]
      exact hend
    · rw [hshift]
      exact hgood (j + 1) (by omega)

theorem checkLoop_ne_some
    (hgood : ∀ j : ℕ, more (i + j * step) = true →
      read (i + j * step) (len (i + j * step)) = .ok (some ())) (r : ℤ) :
    checkLoop read more len step fuel i ≠ .ok (some r) := by
  induction fuel generalizing i with
  | zero => exact nofun
  | succ fuel ih =>
    have hgood0 := hgood 0
    simp only [Nat.cast_zero, Int.zero_mul, Int.add_zero] at hgood0
    rw [checkLoop]
    split_ifs with hmore
    · rw [hgood0 hmore]
      refine ih fun j hj => ?_
      have hshift : i + step + j * step = i + ((j + 1 : ℕ) : ℤ) * step := by
        push_cast
        ring
      rw [hshift] at hj ⊢
      exact hgood (j + 1) hj
    · exact nofun

end Loop

section Check

variable {bad : ℤ → Bool} {geom : PedGeometry} {bufferSize offset granularity count : ℤ}

/-- The sectors that are checked and cannot be read, counted from the start of the region. -/
def unreadable (bad : ℤ → Bool) (geom : PedGeometry) (offset count : ℤ) : Set ℤ :=
  {x | (offset ≤ x ∧ x < offset + count) ∧ bad (geom.start + x) = true}

/-- The first sectors of the groups with an unreadable sector. -/
def badGroups (bad : ℤ → Bool) (geom : PedGeometry) (offset granularity : ℤ) : Set ℤ :=
  {i | ∃ k : ℕ, i = offset + k * granularity ∧
    ∃ x, (i ≤ x ∧ x < i + granularity) ∧ bad (geom.start + x) = true}

/-- What the check is for.  It ends, and the answer is 0 if all sectors can be read; otherwise it is
another one, the first of the groups that cannot be read. -/
def ChecksRight (bad : ℤ → Bool) (geom : PedGeometry) (bufferSize offset granularity count : ℤ) :
    Prop :=
  ∃ (enough : ℕ) (r : ℤ), (∀ fuel ≥ enough,
    pedGeometryCheck (failingRead bad) geom bufferSize offset granularity count fuel = .ok r) ∧
      (unreadable bad geom offset count = ∅ → r = 0) ∧
      (unreadable bad geom offset count ≠ ∅ →
        r ≠ 0 ∧ IsLeast (badGroups bad geom offset granularity) r)

theorem failingRead_eq_none_iff {start n : ℤ} :
    failingRead bad start n = none ↔ ∃ y, (start ≤ y ∧ y < start + n) ∧ bad y = true := by
  unfold failingRead
  split_ifs with h
  · rw [List.any_eq_true] at h
    obtain ⟨i, hi, hbad⟩ := h
    have := List.mem_range.mp hi
    exact iff_of_true rfl ⟨start + i, by omega, hbad⟩
  · refine iff_of_false nofun fun ⟨y, hy, hbad⟩ => h ?_
    rw [List.any_eq_true]
    refine ⟨(y - start).toNat, List.mem_range.mpr (by omega), ?_⟩
    rwa [show start + ((y - start).toNat : ℤ) = y by omega]

theorem geometryRead_good {i n : ℤ} (hi : 0 ≤ i) (hn : 0 ≤ n) (hin : i + n ≤ geom.length)
    (hgood : ∀ x, i ≤ x → x < i + n → bad (geom.start + x) = false) :
    geometryRead (failingRead bad) geom i n = .ok (some ()) := by
  rw [geometryRead_eq hi hn, if_pos hin]
  cases hread : failingRead bad (geom.start + i) n with
  | some u => rfl
  | none =>
    obtain ⟨y, hy, hbad⟩ := failingRead_eq_none_iff.mp hread
    have := hgood (y - geom.start) (by omega) (by omega)
    rw [show geom.start + (y - geom.start) = y by omega, hbad] at this
    exact nomatch this

theorem geometryRead_bad {i n x : ℤ} (hi : 0 ≤ i) (hx : i ≤ x ∧ x < i + n)
    (hbad : bad (geom.start + x) = true) :
    geometryRead (failingRead bad) geom i n = .ok none := by
  rw [geometryRead_eq hi (by omega)]
  split_ifs
  · rw [failingRead_eq_none_iff.mpr ⟨geom.start + x, by omega, hbad⟩]
  · rfl

section Runs

variable (hoffset : 0 ≤ offset) (hgranularity : 1 ≤ granularity)
  (hbuffer : granularity ≤ bufferSize) (hcount : 1 ≤ count) (hdvd : granularity ∣ count)
  (hin : offset + count ≤ geom.length)
include hoffset hgranularity hbuffer hcount hin

/-- Without unreadable sectors there is one pass. -/
theorem pedGeometryCheck_of_readable (hnone : unreadable bad geom offset count = ∅) :
    ∀ fuel ≥ count.toNat + 2,
      pedGeometryCheck (failingRead bad) geom bufferSize offset granularity count fuel = .ok 0 := by
  intro fuel hfuel
  obtain ⟨fuel, rfl⟩ := Nat.exists_eq_add_one_of_ne_zero (show fuel ≠ 0 by omega)
  have hgood : ∀ x, offset ≤ x → x < offset + count → bad (geom.start + x) = false := by
    intro x hx hx'
    by_contra hbad
    have : x ∈ unreadable bad geom offset count := ⟨⟨hx, hx'⟩, by simpa using hbad⟩
    rw [hnone] at this
    exact this
  have hpieces : checkPieces (geometryRead (failingRead bad) geom) bufferSize offset count fuel
      offset = .ok none := by
    have hquot : 0 ≤ (count - 1) / bufferSize := Int.ediv_nonneg (by omega) (by omega)
    have hle : (count - 1) / bufferSize ≤ count - 1 := Int.ediv_le_self _ (by omega)
    have hmul : (count - 1) / bufferSize * bufferSize ≤ count - 1 :=
      Int.ediv_mul_le _ (by omega)
    have hlast : count - 1 < ((count - 1) / bufferSize + 1) * bufferSize :=
      Int.lt_ediv_add_one_mul_self _ (by omega)
    have hplace : ∀ j : ℕ, j < ((count - 1) / bufferSize + 1).toNat →
        (j : ℤ) * bufferSize ≤ count - 1 := fun j hj =>
      le_trans (Int.mul_le_mul_of_nonneg_right (by omega) (by omega)) hmul
    refine checkLoop_of_end (k := ((count - 1) / bufferSize + 1).toNat) (fun j hj => ?_) ?_
      (fun j hj => ?_) (by omega)
    · have := hplace j hj
      exact decide_eq_true (by omega)
    · rw [Int.toNat_of_nonneg (by omega)]
      exact decide_eq_false (by omega)
    · have := hplace j hj
      have : 0 ≤ (j : ℤ) * bufferSize := Int.mul_nonneg (by omega) (by omega)
      exact geometryRead_good (by omega) (by omega) (by omega)
        fun x hx hx' => hgood x (by omega) (by omega)
  rw [pedGeometryCheck, hpieces]
  rfl

/-- The piece that fails is the one with the first unreadable sector. -/
theorem checkPieces_of_unreadable {x : ℤ} (hx : IsLeast (unreadable bad geom offset count) x)
    {fuel : ℕ} (hfuel : count.toNat < fuel) :
    checkPieces (geometryRead (failingRead bad) geom) bufferSize offset count fuel offset
      = .ok (some (offset + (x - offset) / bufferSize * bufferSize)) := by
  obtain ⟨⟨hrange, hbad⟩, hfirst⟩ := hx
  have hquot : 0 ≤ (x - offset) / bufferSize := Int.ediv_nonneg (by omega) (by omega)
  have hle : (x - offset) / bufferSize ≤ x - offset := Int.ediv_le_self _ (by omega)
  have hmul : (x - offset) / bufferSize * bufferSize ≤ x - offset := Int.ediv_mul_le _ (by omega)
  have hlast : x - offset < ((x - offset) / bufferSize + 1) * bufferSize :=
    Int.lt_ediv_add_one_mul_self _ (by omega)
  have hexpand : ((x - offset) / bufferSize + 1) * bufferSize
      = (x - offset) / bufferSize * bufferSize + bufferSize := by ring
  have hk : (((x - offset) / bufferSize).toNat : ℤ) = (x - offset) / bufferSize :=
    Int.toNat_of_nonneg hquot
  have hplace : ∀ j : ℕ, j ≤ ((x - offset) / bufferSize).toNat →
      (j : ℤ) * bufferSize ≤ (x - offset) / bufferSize * bufferSize := fun j hj =>
    Int.mul_le_mul_of_nonneg_right (by omega) (by omega)
  have hbefore : ∀ j : ℕ, j < ((x - offset) / bufferSize).toNat →
      (j : ℤ) * bufferSize + bufferSize ≤ (x - offset) / bufferSize * bufferSize := by
    intro j hj
    have := hplace (j + 1) hj
    push_cast at this
    linarith
  rw [← hk]
  refine checkLoop_of_fail (k := ((x - offset) / bufferSize).toNat) (fun j hj => ?_)
    (fun j hj => ?_) ?_ (by omega)
  · have := hplace j hj
    exact decide_eq_true (by omega)
  · have := hbefore j hj
    have : 0 ≤ (j : ℤ) * bufferSize := Int.mul_nonneg (by omega) (by omega)
    refine geometryRead_good (by omega) (by omega) (by omega) fun y hy hy' => ?_
    by_contra hybad
    have := hfirst (show y ∈ unreadable bad geom offset count from
      ⟨⟨by omega, by omega⟩, by simpa using hybad⟩)
    omega
  · rw [hk]
    have : 0 ≤ (x - offset) / bufferSize * bufferSize := Int.mul_nonneg hquot (by omega)
    exact geometryRead_bad (by omega) (x := x) (by omega) hbad

/-- **The answer**, if the second scan gets to the group that fails. -/
theorem pedGeometryCheck_of_unreadable {x : ℤ} (hx : IsLeast (unreadable bad geom offset count) x)
    (hplace : x - offset < bufferSize → x < offset + count - granularity) :
    ∀ fuel ≥ count.toNat + 2,
      pedGeometryCheck (failingRead bad) geom bufferSize offset granularity count fuel
        = .ok (offset + (x - offset) / bufferSize * bufferSize
          + (x - offset) % bufferSize / granularity * granularity) := by
  intro fuel hfuel
  obtain ⟨fuel, rfl⟩ := Nat.exists_eq_add_one_of_ne_zero (show fuel ≠ 0 by omega)
  have hpieces := checkPieces_of_unreadable hoffset hgranularity hbuffer hcount hin hx
    (show count.toNat < fuel by omega)
  obtain ⟨⟨hrange, hbad⟩, hfirst⟩ := hx
  have hmod := Int.emod_nonneg (x - offset) (show bufferSize ≠ 0 by omega)
  have hsplit := Int.emod_add_mul_ediv (x - offset) bufferSize
  rw [Int.mul_comm bufferSize] at hsplit
  set piece := (x - offset) / bufferSize * bufferSize with hpiece
  set r := (x - offset) % bufferSize with hr
  have hpieceNonneg : 0 ≤ piece :=
    Int.mul_nonneg (Int.ediv_nonneg (by omega) (by omega)) (by omega)
  -- a piece behind the first one is shorter than what the second scan covers
  have hcovered : r < count - granularity := by
    by_cases hsmall : x - offset < bufferSize
    · have := hplace hsmall
      omega
    · have hone : 1 ≤ (x - offset) / bufferSize := by
        rw [Int.le_ediv_iff_mul_le (by omega)]
        omega
      have : bufferSize ≤ piece := by
        calc bufferSize = 1 * bufferSize := (Int.one_mul _).symm
          _ ≤ piece := Int.mul_le_mul_of_nonneg_right hone (by omega)
      omega
  have hquot : 0 ≤ r / granularity := Int.ediv_nonneg hmod (by omega)
  have hle : r / granularity ≤ r := Int.ediv_le_self _ hmod
  have hmul : r / granularity * granularity ≤ r := Int.ediv_mul_le _ (by omega)
  have hlast : r < (r / granularity + 1) * granularity := Int.lt_ediv_add_one_mul_self _ (by omega)
  have hexpand : (r / granularity + 1) * granularity
      = r / granularity * granularity + granularity := by ring
  have hk : ((r / granularity).toNat : ℤ) = r / granularity := Int.toNat_of_nonneg hquot
  have hgroups : checkGroups (geometryRead (failingRead bad) geom) granularity (offset + piece)
      count fuel (offset + piece)
      = .ok (some (offset + piece + r / granularity * granularity)) := by
    have hj : ∀ j : ℕ, j ≤ (r / granularity).toNat →
        (j : ℤ) * granularity ≤ r / granularity * granularity := fun j hj =>
      Int.mul_le_mul_of_nonneg_right (by omega) (by omega)
    rw [← hk]
    refine checkLoop_of_fail (k := (r / granularity).toNat) (fun j hj' => ?_) (fun j hj' => ?_) ?_
      (by omega)
    · have := hj j hj'
      exact decide_eq_true (by omega)
    · have hnext := hj (j + 1) hj'
      push_cast at hnext
      have : 0 ≤ (j : ℤ) * granularity := Int.mul_nonneg (by omega) (by omega)
      have : (j : ℤ) * granularity + granularity ≤ r / granularity * granularity := by linarith
      refine geometryRead_good (by omega) (by omega) (by omega) fun y hy hy' => ?_
      by_contra hybad
      have := hfirst (show y ∈ unreadable bad geom offset count from
        ⟨⟨by omega, by omega⟩, by simpa using hybad⟩)
      omega
    · rw [hk]
      have : 0 ≤ r / granularity * granularity := Int.mul_nonneg hquot (by omega)
      exact geometryRead_bad (by omega) (x := x) (by omega) hbad
  rw [pedGeometryCheck, hpieces, ok_bind]
  dsimp only
  rw [hgroups]
  rfl

omit hbuffer in
include hdvd in
/-- **The check starts over and over**, if the first unreadable sector is in the last group and in
the first piece. -/
theorem pedGeometryCheck_diverges {x : ℤ} (hx : IsLeast (unreadable bad geom offset count) x)
    (hfirst : x - offset < bufferSize) (hlast : offset + count - granularity ≤ x) (fuel : ℕ)
    (r : ℤ) :
    pedGeometryCheck (failingRead bad) geom bufferSize offset granularity count fuel ≠ .ok r := by
  induction fuel with
  | zero => exact nofun
  | succ fuel ih =>
    obtain ⟨⟨hrange, hbad⟩, hleast⟩ := hx
    rw [pedGeometryCheck]
    cases fuel with
    | zero => exact nofun
    | succ fuel =>
      -- the first read fails
      have hpieces : checkPieces (geometryRead (failingRead bad) geom) bufferSize offset count
          (fuel + 1) offset = .ok (some (offset + (0 : ℕ) * bufferSize)) := by
        refine checkLoop_of_fail (k := 0) (fun j hj => ?_) (fun j hj => absurd hj (by omega)) ?_
          (by omega)
        · obtain rfl := Nat.le_zero.mp hj
          exact decide_eq_true (by simp only [Nat.cast_zero]; omega)
        · simp only [Nat.cast_zero, Int.zero_mul, Int.add_zero]
          exact geometryRead_bad hoffset (x := x) (by omega) hbad
      simp only [Nat.cast_zero, Int.zero_mul, Int.add_zero] at hpieces
      rw [hpieces, ok_bind]
      dsimp only
      -- the second scan stops before the sector
      cases hgroups : checkGroups (geometryRead (failingRead bad) geom) granularity offset count
          (fuel + 1) offset with
      | error e => exact fun h => nomatch h
      | ok found =>
        cases found with
        | none => exact ih
        | some i =>
          refine absurd hgroups (checkLoop_ne_some (fun j hj => ?_) i)
          have hmore := of_decide_eq_true hj
          have : 0 ≤ (j : ℤ) * granularity := Int.mul_nonneg (by omega) (by omega)
          -- the number of sectors is a multiple of the granularity
          have : (j : ℤ) * granularity + granularity ≤ count - granularity := by
            obtain ⟨groups, rfl⟩ := hdvd
            have hlt : ((j : ℤ) + 1) * granularity < groups * granularity := by linarith
            have hle := Int.lt_of_mul_lt_mul_right hlt (by omega)
            have := Int.mul_le_mul_of_nonneg_right (show (j : ℤ) + 1 ≤ groups - 1 by omega)
              (show 0 ≤ granularity by omega)
            linarith
          refine geometryRead_good (by omega) (by omega) (by omega) fun y hy hy' => ?_
          by_contra hybad
          have := hleast (show y ∈ unreadable bad geom offset count from
            ⟨⟨by omega, by omega⟩, by simpa using hybad⟩)
          omega

omit hoffset hbuffer hcount hin in
/-- The first group that fails is the one with the first unreadable sector. -/
theorem isLeast_badGroups {x : ℤ} (hx : IsLeast (unreadable bad geom offset count) x) :
    IsLeast (badGroups bad geom offset granularity)
      (offset + (x - offset) / granularity * granularity) := by
  obtain ⟨⟨hrange, hbad⟩, hfirst⟩ := hx
  have hquot : 0 ≤ (x - offset) / granularity := Int.ediv_nonneg (by omega) (by omega)
  have hmul : (x - offset) / granularity * granularity ≤ x - offset := Int.ediv_mul_le _ (by omega)
  have hlast : x - offset < ((x - offset) / granularity + 1) * granularity :=
    Int.lt_ediv_add_one_mul_self _ (by omega)
  constructor
  · refine ⟨((x - offset) / granularity).toNat, by rw [Int.toNat_of_nonneg hquot], x, ?_, hbad⟩
    constructor <;> linarith
  · rintro i ⟨k, rfl, y, hy, hybad⟩
    have hk : 0 ≤ (k : ℤ) * granularity := Int.mul_nonneg (by omega) (by omega)
    have hxy : x ≤ y := by
      by_cases hin : y < offset + count
      · exact hfirst ⟨⟨by omega, hin⟩, hybad⟩
      · omega
    have hlt : (x - offset) / granularity < k + 1 :=
      Int.ediv_lt_of_lt_mul (by omega) (by linarith)
    have := Int.mul_le_mul_of_nonneg_right (show (x - offset) / granularity ≤ k by omega)
      (show 0 ≤ granularity by omega)
    omega

end Runs

theorem exists_isLeast_unreadable (h : unreadable bad geom offset count ≠ ∅) :
    ∃ x, IsLeast (unreadable bad geom offset count) x := by
  obtain ⟨x, hx, hleast⟩ := Int.exists_least_of_bdd (P := (· ∈ unreadable bad geom offset count))
    ⟨offset, fun y hy => hy.1.1⟩ (Set.nonempty_iff_ne_empty.mpr h)
  exact ⟨x, hx, hleast⟩

end Check

/-- **When the answer is right.**  The first unreadable sector, if there is one, is in a piece that
starts with a group, it is not in the group with number 0, and it is not in the last group if
everything is in one piece up to there. -/
theorem pedGeometryCheck_right_iff (bad : ℤ → Bool) (geom : PedGeometry)
    (bufferSize offset granularity count : ℤ) (hoffset : 0 ≤ offset)
    (hgranularity : 1 ≤ granularity) (hbuffer : granularity ≤ bufferSize) (hcount : 1 ≤ count)
    (hdvd : granularity ∣ count) (hin : offset + count ≤ geom.length) :
    ChecksRight bad geom bufferSize offset granularity count ↔
      ∀ x, IsLeast (unreadable bad geom offset count) x →
        granularity ∣ (x - offset) / bufferSize * bufferSize ∧ (offset = 0 → granularity ≤ x) ∧
          (x - offset < bufferSize → x < offset + count - granularity) := by
  by_cases hnone : unreadable bad geom offset count = ∅
  · refine iff_of_true ⟨count.toNat + 2, 0, pedGeometryCheck_of_readable hoffset hgranularity
      hbuffer hcount hin hnone, fun _ => rfl, fun hne => absurd hnone hne⟩ fun x hx => ?_
    have := hx.1
    rw [hnone] at this
    exact this.elim
  · obtain ⟨x, hx⟩ := exists_isLeast_unreadable hnone
    have hgroup := isLeast_badGroups hgranularity hx
    have hanswer := pedGeometryCheck_of_unreadable hoffset hgranularity hbuffer hcount hin hx
    have hrange := hx.1.1
    -- the sector is in the piece at some distance, which is cut into groups
    have hsplit := Int.emod_add_mul_ediv (x - offset) bufferSize
    rw [Int.mul_comm bufferSize] at hsplit
    constructor
    · rintro ⟨enough, r, hrun, -, hright⟩ x' hx'
      obtain rfl := hx'.unique hx
      obtain ⟨hne, hleast⟩ := hright hnone
      obtain rfl := hleast.unique hgroup
      have hplace : x' - offset < bufferSize → x' < offset + count - granularity := by
        intro hfirst
        by_contra hlast
        exact pedGeometryCheck_diverges hoffset hgranularity hcount hdvd hin hx hfirst (by omega)
          enough _ (hrun enough le_rfl)
      refine ⟨?_, fun hzero => ?_, hplace⟩
      · have hsame := (hrun (max enough (count.toNat + 2)) (le_max_left _ _)).symm.trans
          (hanswer hplace _ (le_max_right _ _))
        have hsame := Except.ok.inj hsame
        refine ⟨(x' - offset) / granularity - (x' - offset) % bufferSize / granularity, ?_⟩
        linarith
      · by_contra hlt
        refine hne ?_
        rw [hzero, Int.ediv_eq_zero_of_lt (by omega) (by omega), Int.zero_mul, Int.zero_add]
    · intro hcond
      obtain ⟨⟨q, hq⟩, hzero, hplace⟩ := hcond x hx
      refine ⟨count.toNat + 2, _, hanswer hplace, fun h => absurd h hnone, fun _ => ?_⟩
      have hsame : offset + (x - offset) / bufferSize * bufferSize
          + (x - offset) % bufferSize / granularity * granularity
          = offset + (x - offset) / granularity * granularity := by
        have hdiv : (x - offset) / granularity = (x - offset) % bufferSize / granularity + q := by
          rw [← hsplit, hq, Int.add_mul_ediv_left _ _ (by omega), ← hq, hsplit]
        rw [hdiv, hq]
        ring
      rw [hsame]
      refine ⟨fun hr => ?_, hgroup⟩
      have hnonneg : 0 ≤ (x - offset) / granularity * granularity :=
        Int.mul_nonneg (Int.ediv_nonneg (by omega) (by omega)) (by omega)
      have hlast : x - offset < ((x - offset) / granularity + 1) * granularity :=
        Int.lt_ediv_add_one_mul_self _ (by omega)
      have := hzero (by omega)
      linarith

/-- Sector 5 is in the second piece of four sectors, the first of its groups is sector 4. -/
theorem pedGeometryCheck_right_sector5 :
    ChecksRight (· == 5) ⟨0, 10, by decide, by decide⟩ 4 0 2 10 := by
  refine (pedGeometryCheck_right_iff _ _ 4 0 2 10 (by decide) (by decide) (by decide) (by decide)
    (by decide) (by decide)).mpr fun x hx => ?_
  have h5 : x = 5 := by simpa using hx.1.2
  rw [h5]
  decide

/-- With a buffer for everything, an unreadable sector in the last group is not found. -/
theorem pedGeometryCheck_last_group :
    ¬ ChecksRight (· == 9) ⟨0, 10, by decide, by decide⟩ 16 0 2 10 := by
  rintro ⟨enough, r, hrun, -⟩
  have hleast : IsLeast (unreadable (· == 9) ⟨0, 10, by decide, by decide⟩ 0 10) 9 :=
    ⟨⟨by decide, by decide⟩, fun y hy => ge_of_eq (by simpa using hy.2)⟩
  exact pedGeometryCheck_diverges (by decide) (by decide) (by decide) (by decide) (by decide) hleast
    (by decide) (by decide) enough r (hrun enough le_rfl)

end Libparted
