import Libparted.Labels.Dos.Label

/-!
# Inferring the BIOS geometry (`libparted/labels/dos.c`)

An entry of the table has the two ends of its partition as sector numbers `a`, `A` and as
CHS addresses `(c, h, s)`, `(C, H, S)`.  If the addresses are those of the sectors, the size
`x` of a cylinder and the size `y` of a head solve

  `c * x + h * y = a - s` and `C * x + H * y = A - S`.

`probe_partition_for_geom` solves these equations by elimination, with an integer division at
each step.  Where the determinant is not zero there is one solution, and it is found
(`probePartitionForGeom_of_chs`).  What is returned solves the equations in any case, but for
the end, for which the next cylinder will do.

The code computes with 64-bit numbers and divides by what it finds.  `probeForGeomWords` has
these steps one by one, each of them with what can go wrong; nothing does.
-/

namespace Libparted

open Library

/-! ## CHS addresses -/

/-- `chs_to_sector`. -/
def chsToSector (biosGeom : PedCHSGeometry) (chs : RawCHS) : ℤ :=
  let c := chsGetCylinder chs
  let h := chsGetHead chs
  let s := chsGetSector chs
  if c > maxChsCylinder then 0
  else if s < 0 then 0
  else (c * biosGeom.heads + h) * biosGeom.sectors + s

namespace PedCHSGeometry

/-- The cylinder of a sector. -/
def cylinderOf (g : PedCHSGeometry) (sector : ℤ) : ℤ := sector / (g.heads * g.sectors)

/-- The head of a sector in its cylinder. -/
def headOf (g : PedCHSGeometry) (sector : ℤ) : ℤ := sector / g.sectors % g.heads

end PedCHSGeometry

section Addresses

variable {g : PedCHSGeometry} {sector : ℤ}

theorem cylinderOf_eq (g : PedCHSGeometry) (sector : ℤ) :
    g.cylinderOf sector = sector / g.sectors / g.heads := by
  rw [PedCHSGeometry.cylinderOf, mul_comm, Int.ediv_ediv_of_nonneg g.sectors_pos.le]

/-- A sector from its address. -/
theorem chs_decompose (g : PedCHSGeometry) (sector : ℤ) :
    (g.cylinderOf sector * g.heads + g.headOf sector) * g.sectors + sector % g.sectors
      = sector := by
  have hcyl := Int.mul_ediv_add_emod (sector / g.sectors) g.heads
  have hhead := Int.mul_ediv_add_emod sector g.sectors
  rw [cylinderOf_eq, PedCHSGeometry.headOf]
  linear_combination g.sectors * hcyl + hhead

theorem toNat_ofInt_of_lt {x : ℤ} (h0 : 0 ≤ x) (hx : x < 256) :
    ((BitVec.ofInt 8 x).toNat : ℤ) = x := by
  rw [BitVec.toNat_ofInt, Int.toNat_of_nonneg (Int.emod_nonneg _ (by norm_num)),
    Int.emod_eq_of_lt h0 (by simpa using hx)]

/-- **`sector_to_chs`** keeps the address, where it has one. -/
theorem chsGet_sectorToChs (hheads : g.heads ≤ 255) (hsectors : g.sectors ≤ 63)
    (hsector : 0 ≤ sector) (hcyl : g.cylinderOf sector ≤ maxChsCylinder) :
    chsGetCylinder (sectorToChs g sector) = g.cylinderOf sector ∧
      chsGetHead (sectorToChs g sector) = g.headOf sector ∧
      chsGetSector (sectorToChs g sector) = sector % g.sectors := by
  have hsize : 0 ≤ g.heads * g.sectors := (mul_pos g.heads_pos g.sectors_pos).le
  have hc0 : 0 ≤ g.cylinderOf sector := Int.ediv_nonneg hsector hsize
  have hh0 : 0 ≤ g.headOf sector := Int.emod_nonneg _ g.heads_pos.ne'
  have hh : g.headOf sector < g.heads := Int.emod_lt_of_pos _ g.heads_pos
  have hs0 : 0 ≤ sector % g.sectors := Int.emod_nonneg _ g.sectors_pos.ne'
  have hs : sector % g.sectors < g.sectors := Int.emod_lt_of_pos _ g.sectors_pos
  have hdiv : sector.tdiv (g.heads * g.sectors) = g.cylinderOf sector :=
    Int.tdiv_eq_ediv_of_nonneg hsector
  have hhead : (sector.tdiv g.sectors).tmod g.heads = g.headOf sector := by
    rw [Int.tdiv_eq_ediv_of_nonneg hsector,
      Int.tmod_eq_emod_of_nonneg (Int.ediv_nonneg hsector g.sectors_pos.le)]
    rfl
  have hsec : sector.tmod g.sectors = sector % g.sectors := Int.tmod_eq_emod_of_nonneg hsector
  have hmod : (g.cylinderOf sector).tmod 256 = g.cylinderOf sector % 256 :=
    Int.tmod_eq_emod_of_nonneg hc0
  have hchs : sectorToChs g sector = ⟨BitVec.ofInt 8 (g.headOf sector),
      BitVec.ofInt 8 (sector % g.sectors + 1 + g.cylinderOf sector / 256 * 64),
      BitVec.ofInt 8 (g.cylinderOf sector % 256)⟩ := by
    unfold sectorToChs
    simp only [hdiv, if_neg (not_lt.mpr hcyl), hhead, hsec, hmod]
  unfold maxChsCylinder at hcyl
  generalize g.cylinderOf sector = c at *
  generalize g.headOf sector = h at *
  generalize sector % g.sectors = s at *
  have hlow := toNat_ofInt_of_lt (x := c % 256) (by omega) (by omega)
  have hpacked := toNat_ofInt_of_lt (x := s + 1 + c / 256 * 64) (by omega) (by omega)
  have hhigh := toNat_ofInt_of_lt (x := h) hh0 (by omega)
  rw [hchs, chsGetCylinder, chsGetHead, chsGetSector]
  refine ⟨?_, hhigh, ?_⟩ <;> dsimp only <;> omega

theorem chsToSector_sectorToChs (hheads : g.heads ≤ 255) (hsectors : g.sectors ≤ 63)
    (hsector : 0 ≤ sector) (hcyl : g.cylinderOf sector ≤ maxChsCylinder) :
    chsToSector g (sectorToChs g sector) = sector := by
  obtain ⟨hc, hh, hs⟩ := chsGet_sectorToChs hheads hsectors hsector hcyl
  have hs0 : 0 ≤ sector % g.sectors := Int.emod_nonneg _ g.sectors_pos.ne'
  unfold chsToSector
  rw [hc, hh, hs]
  dsimp only
  rw [if_neg (not_lt.mpr hcyl), if_neg (not_lt.mpr hs0)]
  exact chs_decompose g sector

end Addresses

/-! ## Solving the equations -/

section Elimination

variable {c h a C H A x y : ℤ}

theorem eliminate_head (ha : a = c * x + h * y) (hA : A = C * x + H * y)
    (hdet : c * H - C * h ≠ 0) : (a * H - A * h).tdiv (c * H - C * h) = x := by
  have hnum : a * H - A * h = (c * H - C * h) * x := by
    rw [ha, hA]
    ring
  rw [hnum, Int.mul_tdiv_cancel_left _ hdet]

theorem substitute_cylinder (ha : a = c * x + h * y) (hA : A = C * x + H * y)
    (hh : 0 ≤ h) (hdet : c * H - C * h ≠ 0) :
    (if 0 < h then (a - c * x).tdiv h else (A - C * x).tdiv H) = y := by
  split
  case isTrue hpos =>
    have hnum : a - c * x = h * y := by rw [ha]; ring
    rw [hnum, Int.mul_tdiv_cancel_left _ hpos.ne']
  case isFalse hnot =>
    obtain rfl : h = 0 := by omega
    have hne : H ≠ 0 := fun hzero => hdet (by rw [hzero]; ring)
    have hnum : A - C * x = H * y := by rw [hA]; ring
    rw [hnum, Int.mul_tdiv_cancel_left _ hne]

end Elimination

/-- **The geometry is found** that the addresses were made with. -/
theorem probePartitionForGeom_of_chs (dev : PedDevice) {g : PedCHSGeometry} {orig : OrigState}
    (hheads : g.heads ≤ 255) (hsectors : g.sectors ≤ 63)
    (hstart : orig.rawPart.chsStart = sectorToChs g orig.geom.start)
    (hend : orig.rawPart.chsEnd = sectorToChs g orig.geom.end)
    (hfirst : 1 ≤ g.cylinderOf orig.geom.end)
    (hlast : g.cylinderOf orig.geom.end ≤ maxChsCylinder)
    (hdet : g.cylinderOf orig.geom.start * g.headOf orig.geom.end
      - g.cylinderOf orig.geom.end * g.headOf orig.geom.start ≠ 0) :
    probePartitionForGeom dev orig
      = some { g with cylinders := dev.length.tdiv (g.heads * g.sectors) } := by
  have hsize : 0 < g.heads * g.sectors := mul_pos g.heads_pos g.sectors_pos
  have horder := orig.geom.start_le_end
  have hle : g.cylinderOf orig.geom.start ≤ g.cylinderOf orig.geom.end :=
    Int.ediv_le_ediv hsize horder
  obtain ⟨hc, hh, hs⟩ := chsGet_sectorToChs hheads hsectors orig.geom.start_nonneg
    (hle.trans hlast)
  obtain ⟨hC, hH, hS⟩ := chsGet_sectorToChs hheads hsectors orig.geom.end_nonneg hlast
  have ha := chs_decompose g orig.geom.start
  have hA := chs_decompose g orig.geom.end
  have hh0 : 0 ≤ g.headOf orig.geom.start := Int.emod_nonneg _ g.heads_pos.ne'
  have hH0 : 0 ≤ g.headOf orig.geom.end := Int.emod_nonneg _ g.heads_pos.ne'
  have hhlt : g.headOf orig.geom.start < g.heads := Int.emod_lt_of_pos _ g.heads_pos
  have hHlt : g.headOf orig.geom.end < g.heads := Int.emod_lt_of_pos _ g.heads_pos
  have hSlt : orig.geom.end % g.sectors < g.sectors := Int.emod_lt_of_pos _ g.sectors_pos
  have hS0 : 0 ≤ orig.geom.end % g.sectors := Int.emod_nonneg _ g.sectors_pos.ne'
  have hs0 : 0 ≤ orig.geom.start % g.sectors := Int.emod_nonneg _ g.sectors_pos.ne'
  unfold probePartitionForGeom
  simp only [hstart, hend, hc, hh, hs, hC, hH, hS]
  generalize g.cylinderOf orig.geom.start = c at *
  generalize g.headOf orig.geom.start = h at *
  generalize g.cylinderOf orig.geom.end = C at *
  generalize g.headOf orig.geom.end = H at *
  generalize orig.geom.start % g.sectors = s at *
  generalize orig.geom.end % g.sectors = S at *
  have ha' : orig.geom.start - s = c * (g.heads * g.sectors) + h * g.sectors := by
    rw [← ha]
    ring
  have hA' : orig.geom.end - S = C * (g.heads * g.sectors) + H * g.sectors := by
    rw [← hA]
    ring
  have hcylSize := eliminate_head ha' hA' hdet
  have hheadSize := substitute_cylinder ha' hA' hh0 hdet
  have hheadsEq : (g.heads * g.sectors).tdiv g.sectors = g.heads :=
    Int.mul_tdiv_cancel _ g.sectors_pos.ne'
  have hsmall : g.heads * g.sectors ≤ 255 * 63 :=
    mul_le_mul hheads hsectors g.sectors_pos.le (by norm_num)
  have hbound : orig.geom.end ≤ (C + 1) * 255 * 63 := by
    have hin : H * g.sectors + S ≤ g.heads * g.sectors := by nlinarith [g.sectors_pos]
    have hmul : (C + 1) * (g.heads * g.sectors) ≤ (C + 1) * (255 * 63) :=
      mul_le_mul_of_nonneg_left hsmall (by omega)
    linarith
  have hnum : g.heads * g.sectors * (c * H - C * h)
      = (orig.geom.start - s) * H - (orig.geom.end - S) * h := by
    rw [ha', hA']
    ring
  have hnext : ¬ ((C + 1) * g.heads + H) * g.sectors + S = orig.geom.end := by
    intro hnext
    linarith
  unfold maxChsCylinder at hlast ⊢
  simp only [hcylSize, hheadSize, hheadsEq]
  rw [if_neg ?_, dif_pos ⟨g.sectors_pos, hsectors⟩, dif_pos ⟨g.heads_pos, by omega⟩,
    if_neg hnext, if_pos ⟨ha, hA⟩]
  have hCbound : (C + 1) * 255 * 63 ≤ 1022 * 255 * 63 := by omega
  simp only [not_or, not_lt, not_not, not_false_eq_true, and_true, hnum, hdet, hsize, hsmall]
  exact ⟨hh0, hH0, by omega, by omega, hle, hbound, hlast, by omega, by omega, by omega⟩

/-- The geometry fits a CHS address, and the two sectors are at their addresses, the last one
perhaps a cylinder further. -/
structure SolvesAddresses (orig : OrigState) (bios : PedCHSGeometry) : Prop where
  heads_le : bios.heads ≤ 255
  sectors_le : bios.sectors ≤ 63
  start_eq : (chsGetCylinder orig.rawPart.chsStart * bios.heads
      + chsGetHead orig.rawPart.chsStart) * bios.sectors + chsGetSector orig.rawPart.chsStart
    = orig.geom.start
  end_eq : ∃ C, (C = chsGetCylinder orig.rawPart.chsEnd
      ∨ C = chsGetCylinder orig.rawPart.chsEnd + 1) ∧
    (C * bios.heads + chsGetHead orig.rawPart.chsEnd) * bios.sectors
      + chsGetSector orig.rawPart.chsEnd = orig.geom.end

/-- **What is found is a geometry.** -/
theorem solvesAddresses_of_probe {dev : PedDevice} {orig : OrigState} {bios : PedCHSGeometry}
    (h : probePartitionForGeom dev orig = some bios) : SolvesAddresses orig bios := by
  simp only [probePartitionForGeom, Option.ite_none_left_eq_some,
    Option.dite_none_right_eq_some, Option.ite_none_right_eq_some, Option.some.injEq] at h
  obtain ⟨-, hsectors, hheads, ⟨hstart, hend⟩, rfl⟩ := h
  exact ⟨Int.le_of_lt_add_one hheads.2, hsectors.2, hstart, _, (ite_eq_or_eq _ _ _).symm, hend⟩

/-! ## The computation on 64-bit sectors -/

/-- The result of an operation on `PedSector`s. -/
def sector64 (x : ℤ) : Except Fault ℤ :=
  if |x| < 2 ^ 63 then .ok x else .error (.undefined "signed overflow")

/-- `x / y` on `PedSector`s. -/
def sectorDiv (x y : ℤ) : Except Fault ℤ :=
  if y = 0 then .error (.undefined "division by zero") else sector64 (x.tdiv y)

theorem sector64_eq {x : ℤ} (hx : |x| < 2 ^ 63) : sector64 x = .ok x := if_pos hx

theorem abs_tdiv_le (x y : ℤ) : |x.tdiv y| ≤ |x| := by
  rw [Int.abs_eq_natAbs, Int.abs_eq_natAbs, Int.natAbs_tdiv]
  exact_mod_cast Nat.div_le_self _ _

theorem sectorDiv_eq {x y : ℤ} (hx : |x| < 2 ^ 63) (hy : y ≠ 0) :
    sectorDiv x y = .ok (x.tdiv y) := by
  rw [sectorDiv, if_neg hy, sector64_eq ((abs_tdiv_le x y).trans_lt hx)]

theorem sector64_bind {α : Type} {x : ℤ} (f : ℤ → Except Fault α) (hx : |x| < 2 ^ 63) :
    (sector64 x >>= f) = f x := by
  rw [sector64_eq hx]
  rfl

theorem sectorDiv_bind {α : Type} {x y : ℤ} (f : ℤ → Except Fault α) (hx : |x| < 2 ^ 63)
    (hy : y ≠ 0) : (sectorDiv x y >>= f) = f (x.tdiv y) := by
  rw [sectorDiv_eq hx hy]
  rfl

/-- `(cylinder * heads + head) * sectors + sector`. -/
def addressWords (cylinder heads head sectors sector : ℤ) : Except Fault ℤ := do
  let tracks ← sector64 (cylinder * heads)
  let track ← sector64 (tracks + head)
  let first ← sector64 (track * sectors)
  sector64 (first + sector)

/-- `(rest - cylinder * cyl_size) / head`. -/
def headSizeWords (rest cylinder cylSize head : ℤ) : Except Fault ℤ := do
  let cylinders ← sector64 (cylinder * cylSize)
  let tracks ← sector64 (rest - cylinders)
  sectorDiv tracks head

/-- The substitution of the size of a cylinder in one of the two equations. -/
def substituteWords (c h a' C H A' cylSize : ℤ) : Except Fault ℤ :=
  if 0 < h then headSizeWords a' c cylSize h
  else if 0 < H then headSizeWords A' C cylSize H
  else .error (.assertion "0")

/-- The checks of `probe_partition_for_geom` on the solution. -/
def checkSolutionWords (dev : PedDevice) (c h s a C H S A cylSize headSize : ℤ) :
    Except Fault (Option PedCHSGeometry) := do
  if hsectors : 0 < headSize ∧ headSize ≤ 63 then
    let cylinders ← sectorDiv dev.length cylSize
    let heads ← sectorDiv cylSize headSize
    if hheads : 0 < heads ∧ heads < 256 then
      let next ← sector64 (C + 1)
      let beyond ← addressWords next heads H headSize S
      let C' := if beyond = A then next else C
      let first ← addressWords c heads h headSize s
      if first ≠ a then return none
      let last ← addressWords C' heads H headSize S
      if last ≠ A then return none
      return some ⟨cylinders, heads, headSize, hheads.1, hsectors.1⟩
    else return none
  else return none

/-- `probe_partition_for_geom` with its operations one by one. -/
def probeForGeomWords (dev : PedDevice) (orig : OrigState) :
    Except Fault (Option PedCHSGeometry) := do
  let c := chsGetCylinder orig.rawPart.chsStart
  let h := chsGetHead orig.rawPart.chsStart
  let s := chsGetSector orig.rawPart.chsStart
  let a := orig.geom.start
  let a' ← sector64 (a - s)
  let C := chsGetCylinder orig.rawPart.chsEnd
  let H := chsGetHead orig.rawPart.chsEnd
  let S := chsGetSector orig.rawPart.chsEnd
  let A := orig.geom.end
  let A' ← sector64 (A - S)
  if h < 0 ∨ H < 0 ∨ h > 254 ∨ H > 254 then return none
  if c > C then return none
  let next ← sector64 (C + 1)
  let tracks ← sector64 (next * 255)
  let feasible ← sector64 (tracks * 63)
  if A > feasible then return none
  if C > maxChsCylinder then return none
  if C = 0 then return none
  let dontOverflow := 2 ^ 55 - 1
  if a' > dontOverflow ∨ A' > dontOverflow then return none
  let cH ← sector64 (c * H)
  let Ch ← sector64 (C * h)
  let denum ← sector64 (cH - Ch)
  if denum = 0 then return none
  let aH ← sector64 (a' * H)
  let Ah ← sector64 (A' * h)
  let num ← sector64 (aH - Ah)
  let cylSize ← sectorDiv num denum
  let back ← sector64 (cylSize * denum)
  if back ≠ num then return none
  if ¬ 0 < cylSize then return none
  if ¬ cylSize ≤ 255 * 63 then return none
  let headSize ← substituteWords c h a' C H A' cylSize
  checkSolutionWords dev c h s a C H S A cylSize headSize

section Words

variable {x y p q : ℤ}

theorem abs_mul_le (hx : |x| ≤ p) (hy : |y| ≤ q) : |x * y| ≤ p * q := by
  rw [abs_mul]
  exact mul_le_mul hx hy (abs_nonneg y) ((abs_nonneg x).trans hx)

theorem abs_sub_le_add (hx : |x| ≤ p) (hy : |y| ≤ q) : |x - y| ≤ p + q :=
  (abs_sub x y).trans (add_le_add hx hy)

theorem addressWords_eq {cylinder heads head sectors sector : ℤ} (hcyl : |cylinder| ≤ 1024)
    (hheads : |heads| ≤ 256) (hhead : |head| ≤ 256) (hsectors : |sectors| ≤ 64)
    (hsector : |sector| ≤ 64) : addressWords cylinder heads head sectors sector
      = .ok ((cylinder * heads + head) * sectors + sector) := by
  have htracks := abs_mul_le hcyl hheads
  have htrack : |cylinder * heads + head| ≤ 1024 * 256 + 256 :=
    (abs_add_le _ _).trans (add_le_add htracks hhead)
  have hfirst := abs_mul_le htrack hsectors
  have hall : |(cylinder * heads + head) * sectors + sector| ≤ (1024 * 256 + 256) * 64 + 64 :=
    (abs_add_le _ _).trans (add_le_add hfirst hsector)
  unfold addressWords
  rw [sector64_bind _ (htracks.trans_lt (by norm_num)),
    sector64_bind _ (htrack.trans_lt (by norm_num)),
    sector64_bind _ (hfirst.trans_lt (by norm_num)), sector64_eq (hall.trans_lt (by norm_num))]

theorem addressWords_bind {α : Type} {cylinder heads head sectors sector : ℤ}
    (f : ℤ → Except Fault α) (hcyl : |cylinder| ≤ 1024) (hheads : |heads| ≤ 256)
    (hhead : |head| ≤ 256) (hsectors : |sectors| ≤ 64) (hsector : |sector| ≤ 64) :
    (addressWords cylinder heads head sectors sector >>= f)
      = f ((cylinder * heads + head) * sectors + sector) := by
  rw [addressWords_eq hcyl hheads hhead hsectors hsector]
  rfl

theorem headSizeWords_eq {rest cylinder cylSize head : ℤ} (hrest : |rest| ≤ 2 ^ 60)
    (hcyl : |cylinder| ≤ 1024) (hsize : |cylSize| ≤ 255 * 63) (hhead : head ≠ 0) :
    headSizeWords rest cylinder cylSize head = .ok ((rest - cylinder * cylSize).tdiv head) := by
  have hmul := abs_mul_le hcyl hsize
  have hsub := abs_sub_le_add hrest hmul
  unfold headSizeWords
  rw [sector64_bind _ (hmul.trans_lt (by norm_num)),
    sector64_bind _ (hsub.trans_lt (by norm_num)), sectorDiv_eq (hsub.trans_lt (by norm_num)) hhead]

/-- One of the heads is positive where there is a solution. -/
theorem substituteWords_eq {c h a' C H A' cylSize : ℤ} (ha : |a'| ≤ 2 ^ 60)
    (hA : |A'| ≤ 2 ^ 60) (hc : |c| ≤ 1024) (hC : |C| ≤ 1024) (hsize : |cylSize| ≤ 255 * 63)
    (hh : 0 ≤ h) (hH : 0 ≤ H) (hdet : c * H - C * h ≠ 0) :
    substituteWords c h a' C H A' cylSize
      = .ok (if 0 < h then (a' - c * cylSize).tdiv h else (A' - C * cylSize).tdiv H) := by
  unfold substituteWords
  split
  case isTrue hpos => exact headSizeWords_eq ha hc hsize hpos.ne'
  case isFalse hnot =>
    obtain rfl : h = 0 := by omega
    have hpos : 0 < H := by
      refine lt_of_le_of_ne hH fun hzero => hdet ?_
      rw [← hzero]
      ring
    rw [if_pos hpos, headSizeWords_eq hA hC hsize hpos.ne']

/-- A test that ends the function. -/
theorem stop_eq {α : Type} {p : Prop} [Decidable p] {x : Except Fault (Option α)} {y : Option α}
    (hgo : ¬ p → x = .ok y) :
    (if p then pure none else x) = .ok (if p then none else y) := by
  split
  case isTrue hp => rfl
  case isFalse hp => exact hgo hp

theorem pass_eq {α : Type} {p : Prop} [Decidable p] {x : Except Fault (Option α)} {y : Option α}
    (hgo : p → x = .ok y) :
    (if ¬ p then pure none else x) = .ok (if p then y else none) := by
  rw [ite_not]
  split
  case isTrue hp => exact hgo hp
  case isFalse hp => rfl

theorem checkSolutionWords_eq {dev : PedDevice} {c h s a C H S A cylSize headSize : ℤ}
    (hdev : |dev.length| < 2 ^ 63) (hc : |c| ≤ 1023) (hh : |h| ≤ 256) (hs : |s| ≤ 64)
    (hC : |C| ≤ 1023) (hH : |H| ≤ 256) (hS : |S| ≤ 64) (hpos : 0 < cylSize)
    (hsize : |cylSize| ≤ 255 * 63) :
    checkSolutionWords dev c h s a C H S A cylSize headSize
      = .ok (if hsectors : 0 < headSize ∧ headSize ≤ 63 then
          let heads := cylSize.tdiv headSize
          if hheads : 0 < heads ∧ heads < 256 then
            let C' := if ((C + 1) * heads + H) * headSize + S = A then C + 1 else C
            if (c * heads + h) * headSize + s = a ∧ (C' * heads + H) * headSize + S = A then
              some ⟨dev.length.tdiv cylSize, heads, headSize, hheads.1, hsectors.1⟩
            else none
          else none
        else none) := by
  unfold checkSolutionWords
  split
  case isFalse => rfl
  case isTrue hsectors =>
    have hheadSize : |headSize| ≤ 64 := abs_le.mpr ⟨by omega, by omega⟩
    have hnext : |C + 1| ≤ 1024 := (abs_add_le C 1).trans (by rw [abs_one]; omega)
    have hC' : |C| ≤ 1024 := hC.trans (by norm_num)
    have hc' : |c| ≤ 1024 := hc.trans (by norm_num)
    rw [sectorDiv_bind _ hdev hpos.ne',
      sectorDiv_bind _ (hsize.trans_lt (by norm_num)) hsectors.1.ne']
    dsimp only
    split
    case isFalse => rfl
    case isTrue hheads =>
      have hheads' : |cylSize.tdiv headSize| ≤ 256 := abs_le.mpr ⟨by omega, by omega⟩
      rw [sector64_bind _ (hnext.trans_lt (by norm_num)),
        addressWords_bind _ hnext hheads' hH hheadSize hS,
        addressWords_bind _ hc' hheads' hh hheadSize hs, ite_and]
      refine pass_eq fun _ => ?_
      rw [addressWords_bind _ (by split <;> assumption) hheads' hH hheadSize hS]
      exact pass_eq fun _ => rfl

end Words

theorem chsGetCylinder_bounds (chs : RawCHS) :
    0 ≤ chsGetCylinder chs ∧ chsGetCylinder chs ≤ 1023 := by
  have hcyl := chs.cylinder.isLt
  have hsec := chs.sector.isLt
  unfold chsGetCylinder
  omega

theorem chsGetHead_bounds (chs : RawCHS) : 0 ≤ chsGetHead chs ∧ chsGetHead chs ≤ 255 := by
  have hhead := chs.head.isLt
  unfold chsGetHead
  omega

theorem chsGetSector_bounds (chs : RawCHS) :
    -1 ≤ chsGetSector chs ∧ chsGetSector chs ≤ 62 := by
  unfold chsGetSector
  omega

/-- **No step goes wrong.** -/
theorem probeForGeomWords_eq {dev : PedDevice} {orig : OrigState}
    (hdev : |dev.length| < 2 ^ 63) (hfit : orig.geom.end < 2 ^ 63 - 1) :
    probeForGeomWords dev orig = .ok (probePartitionForGeom dev orig) := by
  have hstart := orig.geom.start_nonneg
  have horder := orig.geom.start_le_end
  obtain ⟨hc0, hc⟩ := chsGetCylinder_bounds orig.rawPart.chsStart
  obtain ⟨hh0, hh⟩ := chsGetHead_bounds orig.rawPart.chsStart
  obtain ⟨hs0, hs⟩ := chsGetSector_bounds orig.rawPart.chsStart
  obtain ⟨hC0, hC⟩ := chsGetCylinder_bounds orig.rawPart.chsEnd
  obtain ⟨hH0, hH⟩ := chsGetHead_bounds orig.rawPart.chsEnd
  obtain ⟨hS0, hS⟩ := chsGetSector_bounds orig.rawPart.chsEnd
  unfold probeForGeomWords probePartitionForGeom
  dsimp only
  set c := chsGetCylinder orig.rawPart.chsStart
  set h := chsGetHead orig.rawPart.chsStart
  set s := chsGetSector orig.rawPart.chsStart
  set C := chsGetCylinder orig.rawPart.chsEnd
  set H := chsGetHead orig.rawPart.chsEnd
  set S := chsGetSector orig.rawPart.chsEnd
  set a := orig.geom.start
  set A := orig.geom.end
  have ha' : |a - s| < 2 ^ 63 := abs_lt.mpr ⟨by omega, by omega⟩
  have hA' : |A - S| < 2 ^ 63 := abs_lt.mpr ⟨by omega, by omega⟩
  rw [sector64_bind _ ha', sector64_bind _ hA']
  simp only [ite_or]
  refine stop_eq fun _ => stop_eq fun _ => stop_eq fun _ => stop_eq fun _ => ?_
  refine stop_eq fun _ => ?_
  have hnext : |C + 1| < 2 ^ 63 := abs_lt.mpr ⟨by omega, by omega⟩
  have htracks : |(C + 1) * 255| < 2 ^ 63 := abs_lt.mpr ⟨by omega, by omega⟩
  have hfeasible : |(C + 1) * 255 * 63| < 2 ^ 63 := abs_lt.mpr ⟨by omega, by omega⟩
  rw [sector64_bind _ hnext, sector64_bind _ htracks, sector64_bind _ hfeasible]
  refine stop_eq fun hbound => stop_eq fun _ => stop_eq fun _ => stop_eq fun _ =>
    stop_eq fun _ => ?_
  -- the end is at most where the last cylinder can be, so everything is small from here on
  have hsmall : A ≤ 1024 * 255 * 63 := by omega
  have hc1 : |c| ≤ 1023 := abs_le.mpr ⟨by omega, hc⟩
  have hC1 : |C| ≤ 1023 := abs_le.mpr ⟨by omega, hC⟩
  have hh1 : |h| ≤ 256 := abs_le.mpr ⟨by omega, by omega⟩
  have hH1 : |H| ≤ 256 := abs_le.mpr ⟨by omega, by omega⟩
  have ha1 : |a - s| ≤ 2 ^ 24 := abs_le.mpr ⟨by omega, by omega⟩
  have hA1 : |A - S| ≤ 2 ^ 24 := abs_le.mpr ⟨by omega, by omega⟩
  have hcH := abs_mul_le hc1 hH1
  have hCh := abs_mul_le hC1 hh1
  have hdet := abs_sub_le_add hcH hCh
  rw [sector64_bind _ (hcH.trans_lt (by norm_num)), sector64_bind _ (hCh.trans_lt (by norm_num)),
    sector64_bind _ (hdet.trans_lt (by norm_num))]
  refine stop_eq fun hne => ?_
  have haH := abs_mul_le ha1 hH1
  have hAh := abs_mul_le hA1 hh1
  have hnum := abs_sub_le_add haH hAh
  have hback := abs_mul_le ((abs_tdiv_le _ (c * H - C * h)).trans hnum) hdet
  rw [sector64_bind _ (haH.trans_lt (by norm_num)), sector64_bind _ (hAh.trans_lt (by norm_num)),
    sector64_bind _ (hnum.trans_lt (by norm_num)),
    sectorDiv_bind _ (hnum.trans_lt (by norm_num)) hne,
    sector64_bind _ (hback.trans_lt (by norm_num))]
  refine stop_eq fun _ => stop_eq fun hpos => stop_eq fun hsize => ?_
  have hsize1 : |((a - s) * H - (A - S) * h).tdiv (c * H - C * h)| ≤ 255 * 63 :=
    abs_le.mpr ⟨by omega, by omega⟩
  rw [substituteWords_eq (ha1.trans (by norm_num)) (hA1.trans (by norm_num))
    (hc1.trans (by norm_num)) (hC1.trans (by norm_num)) hsize1 hh0 hH0 hne]
  exact checkSolutionWords_eq hdev hc1 hh1 (abs_le.mpr ⟨by omega, by omega⟩) hC1 hH1
    (abs_le.mpr ⟨by omega, by omega⟩) (not_not.mp hpos) hsize1

/-! ## The inference -/

/-- An entry of the table whose addresses are those of its sectors in the geometry. -/
structure AddressedIn (g : PedCHSGeometry) (orig : OrigState) : Prop where
  heads_le : g.heads ≤ 255
  sectors_le : g.sectors ≤ 63
  chsStart_eq : orig.rawPart.chsStart = sectorToChs g orig.geom.start
  chsEnd_eq : orig.rawPart.chsEnd = sectorToChs g orig.geom.end
  one_le : 1 ≤ g.cylinderOf orig.geom.end
  le_max : g.cylinderOf orig.geom.end ≤ maxChsCylinder

theorem AddressedIn.chsToSector {g : PedCHSGeometry} {orig : OrigState}
    (h : AddressedIn g orig) : chsToSector g orig.rawPart.chsStart = orig.geom.start ∧
      chsToSector g orig.rawPart.chsEnd = orig.geom.end := by
  have hle : g.cylinderOf orig.geom.start ≤ g.cylinderOf orig.geom.end :=
    Int.ediv_le_ediv (mul_pos g.heads_pos g.sectors_pos) orig.geom.start_le_end
  rw [h.chsStart_eq, h.chsEnd_eq]
  exact ⟨chsToSector_sectorToChs h.heads_le h.sectors_le orig.geom.start_nonneg
      (hle.trans h.le_max),
    chsToSector_sectorToChs h.heads_le h.sectors_le orig.geom.end_nonneg h.le_max⟩

/-- **The geometry of a disk is inferred from an entry.**  It is found if the addresses were
made with it and determine it; what is found has the sectors at their addresses; and the
function comes to its end without an overflow, a division by zero or a failed assertion. -/
theorem probePartitionForGeom_exact_and_sound (dev : PedDevice) (orig : OrigState) :
    (∀ g, AddressedIn g orig →
      g.cylinderOf orig.geom.start * g.headOf orig.geom.end
        - g.cylinderOf orig.geom.end * g.headOf orig.geom.start ≠ 0 →
      (∃ bios, probePartitionForGeom dev orig = some bios ∧
        bios.heads = g.heads ∧ bios.sectors = g.sectors) ∧
      chsToSector g orig.rawPart.chsStart = orig.geom.start ∧
      chsToSector g orig.rawPart.chsEnd = orig.geom.end) ∧
    (∀ bios, probePartitionForGeom dev orig = some bios → SolvesAddresses orig bios) ∧
    (|dev.length| < 2 ^ 63 → orig.geom.end < 2 ^ 63 - 1 →
      probeForGeomWords dev orig = .ok (probePartitionForGeom dev orig)) := by
  refine ⟨fun g hg hdet => ⟨?_, hg.chsToSector⟩, fun bios => solvesAddresses_of_probe,
    probeForGeomWords_eq⟩
  have hfound := probePartitionForGeom_of_chs dev hg.heads_le hg.sectors_le hg.chsStart_eq
    hg.chsEnd_eq hg.one_le hg.le_max hdet
  exact ⟨_, hfound, rfl, rfl⟩

/-- 255 heads of 63 sectors. -/
def lbaAssist : PedCHSGeometry := ⟨1024, 255, 63, by norm_num, by norm_num⟩

/-- A partition from the second track to the end of the third cylinder. -/
def secondTrack : OrigState where
  geom := ⟨63, 48132, by norm_num, by norm_num⟩
  rawPart := ⟨0x80, sectorToChs lbaAssist 63, 0x0c, sectorToChs lbaAssist 48194, 63, 48132⟩
  lbaOffset := 0

theorem addressedIn_secondTrack : AddressedIn lbaAssist secondTrack where
  heads_le := by decide
  sectors_le := by decide
  chsStart_eq := rfl
  chsEnd_eq := by decide +kernel
  one_le := by decide +kernel
  le_max := by decide +kernel

/-- A device that ends where the partition does. -/
def secondTrackDevice : PedDevice := ⟨"/dev/sda", 48195, 512, lbaAssist⟩

theorem probePartitionForGeom_secondTrack :
    ∃ bios, probePartitionForGeom secondTrackDevice secondTrack = some bios ∧
      bios.heads = 255 ∧ bios.sectors = 63 ∧ SolvesAddresses secondTrack bios ∧
      probeForGeomWords secondTrackDevice secondTrack = .ok (some bios) := by
  obtain ⟨hexact, hsound, hwords⟩ :=
    probePartitionForGeom_exact_and_sound secondTrackDevice secondTrack
  obtain ⟨bios, hprobe, hheads, hsectors⟩ :=
    (hexact lbaAssist addressedIn_secondTrack (by decide +kernel)).1
  refine ⟨bios, hprobe, hheads, hsectors, hsound bios hprobe, ?_⟩
  rw [hwords (by decide +kernel) (by decide +kernel), hprobe]

end Libparted
