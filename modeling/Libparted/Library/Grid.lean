import Mathlib

/-!
# Grids of integers

A *grid* is the set of integers congruent to an offset `o` modulo a grain `g`.
The grain may be zero, and then the grid is the single point `o`: writing
membership as `g ∣ s - o` covers both cases with one formula, because `0 ∣ n`
says exactly `n = 0`.

Three things are needed about grids.

* **Rounding.**  Truncating division rounds towards zero, so a remainder has to
  be corrected for negative dividends.  `gridFloor`/`gridCeil` are the two
  neighbouring multiples of a positive grain; `OnGrid.next` is the same step for
  a grid with an offset, by Euclidean remainder.
* **The first and last grid point of an interval.**  Any grid point below the
  interval determines the first one inside by one rounding step, and likewise
  from above.
* **Intersection.**  Two grids meet exactly when the gcd of the grains divides
  the difference of the offsets, and a common point turns the pair of
  congruences into one modulo the lcm.
-/

namespace Libparted.Library

/-- `s` lies on the grid with offset `o` and grain `g`. -/
def OnGrid (o g s : ℤ) : Prop := g ∣ s - o

instance decidableOnGrid (o g s : ℤ) : Decidable (OnGrid o g s) :=
  inferInstanceAs (Decidable (g ∣ s - o))

namespace OnGrid

variable {o g s t : ℤ}

/-- With grain zero the offset is the only grid point. -/
theorem zero_iff : OnGrid o 0 s ↔ s = o := by
  unfold OnGrid
  rw [zero_dvd_iff]
  omega

theorem self (o g : ℤ) : OnGrid o g o := by
  simp [OnGrid]

/-- Moving by a multiple of the grain stays on the grid. -/
theorem add_dvd (h : OnGrid o g s) {d : ℤ} (hd : g ∣ d) : OnGrid o g (s + d) := by
  have hsum : g ∣ (s - o) + d := dvd_add h hd
  unfold OnGrid
  rwa [show s + d - o = (s - o) + d by ring]

theorem sub_dvd (h : OnGrid o g s) {d : ℤ} (hd : g ∣ d) : OnGrid o g (s - d) := by
  have hneg : g ∣ -d := (dvd_neg).mpr hd
  simpa [sub_eq_add_neg] using h.add_dvd hneg

/-- Two points of one grid differ by a multiple of the grain. -/
theorem dvd_sub' (hs : OnGrid o g s) (ht : OnGrid o g t) : g ∣ s - t := by
  have hdiff : g ∣ (s - o) - (t - o) := dvd_sub hs ht
  rwa [show (s - o) - (t - o) = s - t by ring] at hdiff

/-- Only the residue of the offset matters. -/
theorem congr_offset {p : ℤ} (ho : g ∣ o - p) : OnGrid o g s ↔ OnGrid p g s := by
  unfold OnGrid
  constructor
  · intro h
    rw [show s - p = (s - o) + (o - p) by ring]
    exact dvd_add h ho
  · intro h
    rw [show s - o = (s - p) - (o - p) by ring]
    exact dvd_sub h ho

/-- Distinct points of a grid are at least one grain apart. -/
theorem add_le_of_lt (hg : 0 < g) (hs : OnGrid o g s) (ht : OnGrid o g t)
    (hlt : s < t) : s + g ≤ t := by
  obtain ⟨k, hk⟩ := dvd_sub' ht hs
  have hkpos : 0 < k := by
    by_contra hle
    have : g * k ≤ 0 := by nlinarith
    omega
  have : g * 1 ≤ g * k := by
    apply mul_le_mul_of_nonneg_left <;> omega
  omega

/-- The first grid point at or above `x`. -/
theorem next {x : ℤ} : OnGrid o g (x + (o - x) % g) := by
  refine ⟨-((o - x) / g), ?_⟩
  have := Int.emod_add_mul_ediv (o - x) g
  linarith [mul_neg g ((o - x) / g)]

/-- No grid point at or above `x` comes before the first one. -/
theorem next_le {x : ℤ} (hg : 0 ≤ g) (hs : OnGrid o g s) (hx : x ≤ s) :
    (o - x) % g ≤ s - x := by
  have hmod : (o - x) % g = (s - x) % g := by
    rw [Int.emod_eq_emod_iff_emod_sub_eq_zero]
    refine Int.emod_eq_zero_of_dvd ?_
    rw [show o - x - (s - x) = -(s - o) by ring]
    exact dvd_neg.mpr hs
  have hdiv := Int.emod_add_mul_ediv (s - x) g
  have hnn : 0 ≤ g * ((s - x) / g) := mul_nonneg hg (Int.ediv_nonneg (by omega) hg)
  omega

end OnGrid

/-! ## Rounding to a multiple of a positive grain -/

/-- The greatest multiple of `g` at or below `x`. -/
def gridFloor (x g : ℤ) : ℤ := x - x % g

/-- The least multiple of `g` at or above `x`. -/
def gridCeil (x g : ℤ) : ℤ := gridFloor x g + if x % g = 0 then 0 else g

section Rounding

variable {x g : ℤ}

theorem dvd_gridFloor (x g : ℤ) : g ∣ gridFloor x g := by
  unfold gridFloor
  exact Int.dvd_self_sub_emod

theorem dvd_gridCeil (x g : ℤ) : g ∣ gridCeil x g := by
  unfold gridCeil
  split
  · simpa using dvd_gridFloor x g
  · exact dvd_add (dvd_gridFloor x g) dvd_rfl

theorem le_gridCeil (hg : 0 < g) : x ≤ gridCeil x g := by
  have hnn := Int.emod_nonneg x (by omega : g ≠ 0)
  have hlt := Int.emod_lt_of_pos x hg
  unfold gridCeil gridFloor
  split <;> omega

theorem gridCeil_lt_add (hg : 0 < g) : gridCeil x g < x + g := by
  have hnn := Int.emod_nonneg x (by omega : g ≠ 0)
  unfold gridCeil gridFloor
  split <;> omega

end Rounding

/-! ## The first and the last grid point of an interval -/

section Extremes

variable {o g a b s t : ℤ}

/-- From a grid point at or below `a`, one rounding step reaches the least grid
point at or above `a`. -/
theorem isLeast_of_below (hg : 0 < g) (hs : OnGrid o g s) :
    IsLeast {t | OnGrid o g t ∧ a ≤ t} (s + gridCeil (a - s) g) := by
  refine ⟨⟨hs.add_dvd (dvd_gridCeil _ _), ?_⟩, ?_⟩
  · have := le_gridCeil (x := a - s) hg
    omega
  · rintro t ⟨ht, hat⟩
    by_contra hlt
    have hstep := OnGrid.add_le_of_lt hg ht (hs.add_dvd (dvd_gridCeil (a - s) g))
      (not_le.mp hlt)
    have := gridCeil_lt_add (x := a - s) hg
    omega

/-- The mirror image: from any grid point, the greatest one at or below `b`. -/
theorem isGreatest_of_above (hg : 0 < g) (hs : OnGrid o g s) :
    IsGreatest {t | OnGrid o g t ∧ t ≤ b} (s - gridCeil (s - b) g) := by
  refine ⟨⟨hs.sub_dvd (dvd_gridCeil _ _), ?_⟩, ?_⟩
  · have := le_gridCeil (x := s - b) hg
    omega
  · rintro t ⟨ht, htb⟩
    by_contra hlt
    have hstep := OnGrid.add_le_of_lt hg (hs.sub_dvd (dvd_gridCeil (s - b) g)) ht
      (not_le.mp hlt)
    have := gridCeil_lt_add (x := s - b) hg
    omega

end Extremes

/-! ## Intersecting two grids -/

section Intersection

variable {o₁ g₁ o₂ g₂ p s : ℤ}

/-- Two grids with a common point `p` intersect in the grid through `p` whose
grain is the least common multiple. -/
theorem onGrid_and_iff_of_common (h₁ : OnGrid o₁ g₁ p) (h₂ : OnGrid o₂ g₂ p) :
    (OnGrid o₁ g₁ s ∧ OnGrid o₂ g₂ s) ↔ OnGrid p (Int.lcm g₁ g₂) s := by
  rw [OnGrid.congr_offset (o := o₁) (p := p), OnGrid.congr_offset (o := o₂) (p := p)]
  · unfold OnGrid
    exact (Int.coe_lcm_dvd_iff).symm
  · exact (dvd_sub_comm).mp h₂
  · exact (dvd_sub_comm).mp h₁

/-- A common point forces the gcd of the grains to divide the difference of the
offsets. -/
theorem gcd_dvd_of_common (h₁ : OnGrid o₁ g₁ p) (h₂ : OnGrid o₂ g₂ p) :
    (Int.gcd g₁ g₂ : ℤ) ∣ o₂ - o₁ := by
  have d₁ : (Int.gcd g₁ g₂ : ℤ) ∣ p - o₁ := dvd_trans (Int.gcd_dvd_left _ _) h₁
  have d₂ : (Int.gcd g₁ g₂ : ℤ) ∣ p - o₂ := dvd_trans (Int.gcd_dvd_right _ _) h₂
  have hdiff := dvd_sub d₁ d₂
  rwa [show (p - o₁) - (p - o₂) = o₂ - o₁ by ring] at hdiff

end Intersection

end Libparted.Library
