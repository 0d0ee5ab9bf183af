import Libparted.Alignment

/-!
# Intersecting two alignments (`extended_euclid`, `ped_alignment_intersect`)

The source solves `Ao + X*Ag = Bo + Y*Bg` with the extended Euclidean algorithm
and scales the Bézout coefficients by `(Bo - Ao) / gcd`, a truncated quotient.
It never tests that the division is exact.  Instead it computes the candidate
offset from both sides and compares: the two agree exactly when
`quotient * gcd = Bo - Ao`, that is, when the gcd divides the difference.

`extended_euclid` has `int` parameters while the grains are 64-bit sectors, so
the call narrows them (`narrowToInt`); grains below `2^31` pass unchanged.
-/

namespace Libparted

open Library

/-- Conversion of a `PedSector` to a 32-bit `int` argument. -/
def narrowToInt (x : ℤ) : ℤ := x.bmod (2 ^ 32)

theorem narrowToInt_eq {x : ℤ} (h₀ : 0 ≤ x) (h₁ : x < 2 ^ 31) : narrowToInt x = x := by
  unfold narrowToInt
  apply Int.bmod_eq_of_le_mul_two <;> push_cast <;> omega

/-- `EuclidTriple`. -/
structure EuclidTriple where
  gcd : ℤ
  x : ℤ
  y : ℤ
deriving DecidableEq

/-- `extended_euclid`. -/
def extendedEuclid (a b : ℤ) : EuclidTriple :=
  if b = 0 then ⟨a, 1, 0⟩
  else
    let tmp := extendedEuclid b (a.tmod b)
    ⟨tmp.gcd, tmp.y, tmp.x - a.tdiv b * tmp.y⟩
termination_by b.natAbs
decreasing_by
  rw [Int.natAbs_tmod]
  exact Nat.mod_lt _ (by omega)

/-- The coefficients satisfy Bézout's identity, whatever the signs. -/
theorem extendedEuclid_bezout (a b : ℤ) :
    (extendedEuclid a b).gcd = (extendedEuclid a b).x * a + (extendedEuclid a b).y * b := by
  induction a, b using extendedEuclid.induct with
  | case1 a =>
      rw [extendedEuclid]
      simp
  | case2 a b hb ih =>
      rw [extendedEuclid, if_neg hb]
      simp only
      rw [ih]
      have hdiv := Int.tmod_add_tdiv_mul a b
      linear_combination (extendedEuclid b (a.tmod b)).y * hdiv

/-- On non-negative arguments the first component is the gcd. -/
theorem extendedEuclid_gcd (a b : ℤ) (ha : 0 ≤ a) (hb : 0 ≤ b) :
    (extendedEuclid a b).gcd = Int.gcd a b := by
  induction a, b using extendedEuclid.induct with
  | case1 a =>
      rw [extendedEuclid]
      simp only [if_true, Int.gcd_zero_right]
      omega
  | case2 a b hne ih =>
      rw [extendedEuclid, if_neg hne]
      simp only
      rw [ih hb (Int.tmod_nonneg b ha), Int.tmod_eq_emod_of_nonneg ha]
      rw [Int.gcd_comm b, Int.gcd_emod]

/-- The tail of `ped_alignment_intersect`, after `a` and `b` have been swapped
so that `a` has the larger grain. -/
def alignmentIntersectOrdered (a b : PedAlignment) : Option PedAlignment :=
  if a.grainSize = 0 ∧ b.grainSize = 0 then
    if a.offset = b.offset then pedAlignmentDuplicate a else none
  else
    let gcdFactors := extendedEuclid (narrowToInt a.grainSize) (narrowToInt b.grainSize)
    let deltaOnGcd := (b.offset - a.offset).tdiv gcdFactors.gcd
    let newOffset := a.offset + gcdFactors.x * deltaOnGcd * a.grainSize
    let newGrainSize := (a.grainSize * b.grainSize).tdiv gcdFactors.gcd
    -- inconsistency => no solution
    if newOffset ≠ b.offset - gcdFactors.y * deltaOnGcd * b.grainSize then none
    else pedAlignmentInit newOffset newGrainSize

/-- `ped_alignment_intersect`. -/
def pedAlignmentIntersect :
    Option PedAlignment → Option PedAlignment → Option PedAlignment
  | some a, some b =>
      if a.grainSize < b.grainSize then alignmentIntersectOrdered b a
      else alignmentIntersectOrdered a b
  | _, _ => none

/-- The product of two grains over their gcd is the lcm. -/
theorem mul_tdiv_gcd {g₁ g₂ : ℤ} (h₁ : 0 ≤ g₁) (h₂ : 0 ≤ g₂) :
    (g₁ * g₂).tdiv (Int.gcd g₁ g₂) = Int.lcm g₁ g₂ := by
  rw [Int.tdiv_eq_ediv_of_nonneg (mul_nonneg h₁ h₂)]
  obtain ⟨m, rfl⟩ := Int.eq_ofNat_of_zero_le h₁
  obtain ⟨n, rfl⟩ := Int.eq_ofNat_of_zero_le h₂
  rw [Int.gcd_natCast_natCast, Int.lcm_natCast_natCast, Nat.lcm]
  norm_cast

/-- Scaling a Bézout pair by the truncated quotient gives a common point of the
two grids exactly when the two ways of computing it agree. -/
theorem scaled_bezout_iff (o₁ o₂ : ℤ) {g₁ g₂ d x y : ℤ} (hd : d = x * g₁ + y * g₂) :
    o₁ + x * (o₂ - o₁).tdiv d * g₁ = o₂ - y * (o₂ - o₁).tdiv d * g₂ ↔
      d ∣ o₂ - o₁ := by
  have hsum : o₁ + x * (o₂ - o₁).tdiv d * g₁ - (o₂ - y * (o₂ - o₁).tdiv d * g₂)
      = (o₂ - o₁).tdiv d * d - (o₂ - o₁) := by
    linear_combination (-(o₂ - o₁).tdiv d) * hd
  constructor
  · intro h
    refine ⟨(o₂ - o₁).tdiv d, ?_⟩
    linear_combination hsum - h
  · intro hdvd
    have := Int.tdiv_mul_cancel hdvd
    linear_combination hsum + this

/-- Intersection of ordered alignments: exactly the common sectors. -/
theorem alignmentIntersectOrdered_iff {a b : PedAlignment}
    (hb : b.grainSize ≤ a.grainSize) (ha : a.grainSize < 2 ^ 31) (s : ℤ) :
    (OnGrid a.offset a.grainSize s ∧ OnGrid b.offset b.grainSize s) ↔
      ∃ c, alignmentIntersectOrdered a b = some c ∧ OnGrid c.offset c.grainSize s := by
  have hna := a.grain_nonneg
  have hnb := b.grain_nonneg
  unfold alignmentIntersectOrdered
  by_cases hz : a.grainSize = 0 ∧ b.grainSize = 0
  · rw [if_pos hz, hz.1, hz.2, OnGrid.zero_iff, OnGrid.zero_iff]
    by_cases ho : a.offset = b.offset
    · rw [if_pos ho]
      have hsome : pedAlignmentDuplicate a = some ⟨a.offset, a.grainSize, hna⟩ := by
        simp [pedAlignmentDuplicate, pedAlignmentInit, hz.1]
      simp only [hsome, Option.some.injEq, exists_eq_left', hz.1, OnGrid.zero_iff]
      omega
    · rw [if_neg ho]
      simp only [reduceCtorEq, false_and, exists_false, iff_false]
      omega
  · rw [if_neg hz, narrowToInt_eq hna ha, narrowToInt_eq hnb (by omega)]
    have hgcd := extendedEuclid_gcd a.grainSize b.grainSize hna hnb
    have hbez := extendedEuclid_bezout a.grainSize b.grainSize
    have hscale := scaled_bezout_iff a.offset b.offset hbez
    generalize extendedEuclid a.grainSize b.grainSize = factors at *
    simp only
    by_cases hdvd : factors.gcd ∣ b.offset - a.offset
    · -- Consistent: the candidate is a common point.
      have hcand := hscale.mpr hdvd
      rw [if_neg (not_not_intro hcand)]
      generalize hp : a.offset + factors.x * (b.offset - a.offset).tdiv factors.gcd
        * a.grainSize = p at *
      have h₁ : OnGrid a.offset a.grainSize p := by
        rw [← hp]
        exact (OnGrid.self _ _).add_dvd (dvd_mul_left _ _)
      have h₂ : OnGrid b.offset b.grainSize p := by
        rw [hcand]
        exact (OnGrid.self _ _).sub_dvd (dvd_mul_left _ _)
      rw [onGrid_and_iff_of_common h₁ h₂, hgcd, mul_tdiv_gcd hna hnb]
      have hnn : ¬ (Int.lcm a.grainSize b.grainSize : ℤ) < 0 := by omega
      obtain ⟨c, hc⟩ := Option.ne_none_iff_exists'.mp
        (fun h => hnn ((pedAlignmentInit_eq_none p).mp h))
      rw [hc]
      simp only [Option.some.injEq, exists_eq_left']
      exact (onGrid_pedAlignmentInit hc).symm
    · -- Inconsistent: no common point can exist.
      rw [if_pos (fun h => hdvd (hscale.mp h))]
      simp only [reduceCtorEq, false_and, exists_false, iff_false]
      rintro ⟨h₁, h₂⟩
      rw [hgcd] at hdvd
      exact hdvd (gcd_dvd_of_common h₁ h₂)

/-- **`ped_alignment_intersect` is intersection**, in whichever order the grains
are given, for zero grains and for offsets outside `[0, grain)`. -/
theorem onGrid_pedAlignmentIntersect {a b : PedAlignment}
    (ha : a.grainSize < 2 ^ 31) (hb : b.grainSize < 2 ^ 31) (s : ℤ) :
    (OnGrid a.offset a.grainSize s ∧ OnGrid b.offset b.grainSize s) ↔
      ∃ c, pedAlignmentIntersect (some a) (some b) = some c ∧
        OnGrid c.offset c.grainSize s := by
  unfold pedAlignmentIntersect
  by_cases hlt : a.grainSize < b.grainSize
  · simp only [if_pos hlt]
    rw [and_comm]
    exact alignmentIntersectOrdered_iff hlt.le hb s
  · simp only [if_neg hlt]
    exact alignmentIntersectOrdered_iff (not_lt.mp hlt) ha s

end Libparted
