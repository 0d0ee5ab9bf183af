import Mathlib

/-!
# Circular areas

The positions from `lo` up to `hi` form a circle: behind the last one comes `lo` again.
`ahead lo hi p e` is the number of steps from `p` to `e`.  It gets smaller with every step
that does not start at `e` (`ahead_advance`), so a walk that never steps over `e` comes
to it.
-/

namespace Libparted.Library

/-- The next position. -/
def nextPos (lo hi p : ℤ) : ℤ := if p + 1 = hi then lo else p + 1

/-- The position `n` steps ahead. -/
def advance (lo hi : ℤ) : ℕ → ℤ → ℤ
  | 0, p => p
  | n + 1, p => advance lo hi n (nextPos lo hi p)

/-- The number of steps from `p` to `e`. -/
def ahead (lo hi p e : ℤ) : ℤ := (e - p) % (hi - lo)

section Circles

variable {lo hi p e : ℤ}

theorem nextPos_mem (hp : lo ≤ p ∧ p < hi) : lo ≤ nextPos lo hi p ∧ nextPos lo hi p < hi := by
  unfold nextPos
  split <;> omega

theorem advance_mem (n : ℕ) (hp : lo ≤ p ∧ p < hi) :
    lo ≤ advance lo hi n p ∧ advance lo hi n p < hi := by
  induction n generalizing p with
  | zero => exact hp
  | succ n ih => exact ih (nextPos_mem hp)

theorem advance_add (m n : ℕ) : advance lo hi (m + n) p = advance lo hi n (advance lo hi m p) := by
  induction m generalizing p with
  | zero => rw [Nat.zero_add, advance]
  | succ m ih => rw [Nat.succ_add, advance, ih, advance]

theorem ahead_nonneg (hp : lo ≤ p ∧ p < hi) : 0 ≤ ahead lo hi p e :=
  Int.emod_nonneg _ (by omega)

theorem ahead_eq_zero (hp : lo ≤ p ∧ p < hi) (he : lo ≤ e ∧ e < hi) :
    ahead lo hi p e = 0 ↔ p = e := by
  unfold ahead
  refine ⟨fun h => ?_, fun h => by rw [h, sub_self, Int.zero_emod]⟩
  -- the difference is smaller than the circle
  have hlt : |e - p| < hi - lo := abs_lt.mpr ⟨by omega, by omega⟩
  have hzero := Int.eq_zero_of_abs_lt_dvd (Int.dvd_of_emod_eq_zero h) hlt
  omega

theorem ahead_nextPos (hp : lo ≤ p ∧ p < hi) (hne : 1 ≤ ahead lo hi p e) :
    ahead lo hi (nextPos lo hi p) e = ahead lo hi p e - 1 := by
  have hpos : 0 < hi - lo := by omega
  have hlt : ahead lo hi p e < hi - lo := Int.emod_lt_of_pos _ hpos
  have hmod : (ahead lo hi p e - 1) % (hi - lo) = ahead lo hi p e - 1 :=
    Int.emod_eq_of_lt (by omega) (by omega)
  have hstep : (e - (p + 1)) % (hi - lo) = ahead lo hi p e - 1 := by
    rw [← hmod, ahead, Int.emod_sub_emod]
    congr 1
    ring
  unfold nextPos
  split
  case isTrue hlast =>
    have : e - lo = e - (p + 1) + (hi - lo) := by omega
    rw [ahead, this, Int.add_emod_right, hstep]
  case isFalse => exact hstep

/-- **Every step that stays before `e` brings it nearer.** -/
theorem ahead_advance (n : ℕ) (hp : lo ≤ p ∧ p < hi) (hn : (n : ℤ) ≤ ahead lo hi p e) :
    ahead lo hi (advance lo hi n p) e = ahead lo hi p e - n := by
  induction n generalizing p with
  | zero => simp [advance]
  | succ n ih =>
    push_cast at hn ⊢
    have hstep := ahead_nextPos hp (show 1 ≤ ahead lo hi p e by omega)
    rw [advance, ih (nextPos_mem hp) (by omega), hstep]
    ring

end Circles

end Libparted.Library
