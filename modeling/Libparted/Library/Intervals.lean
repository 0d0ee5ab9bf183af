import Mathlib

/-!
# Lists of disjoint intervals

The elements of a list are intervals through two functions `lo` and `hi`.  The
list is `Ordered` when each interval ends before the next one starts; for
non-empty intervals this is disjointness and increasing order in one relation.

* `insertOrdered` puts an interval in front of the first one that starts behind
  it, and keeps the list ordered when the interval meets none of them.
* `gapWalk` looks for the gap around a position, ignoring a marked element: it
  walks over everything that starts before the position or before the end of
  what it has already passed.  `gapWalk_clear` says that the gap it stops at
  meets no unmarked element.
* `Tiles` says that the intervals follow each other without a gap, from one position to
  another.
-/

namespace Libparted.Library

variable {α β : Type} {lo hi : α → ℤ} {l : List α} {x : α}

/-- Every interval ends before the next one starts. -/
def Ordered (lo hi : α → ℤ) (l : List α) : Prop := l.Pairwise fun a b => hi a < lo b

/-- Inserts `x` in front of the first interval that starts after `x` ends. -/
def insertOrdered (lo hi : α → ℤ) (x : α) : List α → List α
  | [] => [x]
  | y :: ys => if lo y > hi x then x :: y :: ys else y :: insertOrdered lo hi x ys

theorem insertOrdered_perm (lo hi : α → ℤ) (x : α) (l : List α) :
    (insertOrdered lo hi x l).Perm (x :: l) := by
  induction l with
  | nil => exact List.Perm.refl _
  | cons y ys ih =>
      unfold insertOrdered
      split
      · exact List.Perm.refl _
      · exact (ih.cons y).trans (List.Perm.swap x y ys)

@[simp] theorem mem_insertOrdered {y : α} : y ∈ insertOrdered lo hi x l ↔ y = x ∨ y ∈ l := by
  rw [(insertOrdered_perm lo hi x l).mem_iff, List.mem_cons]

/-- An interval that meets none of an ordered list finds its place in it. -/
theorem Ordered.insertOrdered (hl : Ordered lo hi l) (hv : ∀ y ∈ l, lo y ≤ hi y)
    (hx : ∀ y ∈ l, hi x < lo y ∨ hi y < lo x) : Ordered lo hi (insertOrdered lo hi x l) := by
  unfold Ordered at hl ⊢
  induction l with
  | nil => simp [Library.insertOrdered]
  | cons y ys ih =>
      obtain ⟨hy, hys⟩ := List.pairwise_cons.mp hl
      unfold Library.insertOrdered
      split
      case isTrue hlt =>
        refine List.pairwise_cons.mpr ⟨fun z hz => ?_, hl⟩
        rcases List.mem_cons.mp hz with rfl | hz
        · exact hlt
        · have := hy z hz
          have := hv y List.mem_cons_self
          omega
      case isFalse hlt =>
        have hyx : hi y < lo x := (hx y List.mem_cons_self).resolve_left hlt
        refine List.pairwise_cons.mpr ⟨fun z hz => ?_, ih hys
          (fun z hz => hv z (List.mem_cons_of_mem _ hz))
          (fun z hz => hx z (List.mem_cons_of_mem _ hz))⟩
        rcases mem_insertOrdered.mp hz with rfl | hz
        · exact hyx
        · exact hy z hz

/-- Filtering does not see an inserted element that it drops. -/
theorem filter_insertOrdered {p : α → Bool} (hx : p x = false) (l : List α) :
    (insertOrdered lo hi x l).filter p = l.filter p := by
  induction l with
  | nil => simp [insertOrdered, hx]
  | cons y ys ih =>
      unfold insertOrdered
      split
      · simp [hx]
      · simp [List.filter_cons, ih]

theorem Ordered.sublist {l' : List α} (h : Ordered lo hi l) (hs : l'.Sublist l) :
    Ordered lo hi l' := List.Pairwise.sublist hs h

/-- Two intervals of an ordered list do not meet. -/
theorem Ordered.disjoint (h : Ordered lo hi l) {a b : α} (ha : a ∈ l) (hb : b ∈ l)
    (hne : a ≠ b) : hi a < lo b ∨ hi b < lo a := by
  induction l with
  | nil => exact absurd ha List.not_mem_nil
  | cons y ys ih =>
      obtain ⟨hy, hys⟩ := List.pairwise_cons.mp h
      rcases List.mem_cons.mp ha with rfl | ha'
      · exact Or.inl (hy b ((List.mem_cons.mp hb).resolve_left (Ne.symm hne)))
      · rcases List.mem_cons.mp hb with rfl | hb'
        · exact Or.inr (hy a ha')
        · exact ih hys ha' hb'

/-! ## The gap around a position -/

/-- Walks over the intervals that start before `pos`, or before the end of an
interval already passed.  Returns the first sector behind the unmarked intervals
passed, and the intervals not passed. -/
def gapWalk (lo hi : α → ℤ) (marked : α → Bool) (pos : ℤ) : ℤ → List α → ℤ × List α
  | low, [] => (low, [])
  | low, y :: ys =>
      if lo y < pos ∨ low ≥ lo y then
        gapWalk lo hi marked pos (if marked y then low else hi y + 1) ys
      else (low, y :: ys)

/-- The intervals not passed, without a marked one at their head. -/
def dropMarked (marked : α → Bool) : List α → List α
  | [] => []
  | y :: ys => if marked y then ys else y :: ys

theorem dropMarked_sublist (marked : α → Bool) (l : List α) : (dropMarked marked l).Sublist l := by
  cases l with
  | nil => exact List.Sublist.refl _
  | cons y ys =>
      simp only [dropMarked]
      split
      · exact List.sublist_cons_self y ys
      · exact List.Sublist.refl _

theorem mem_dropMarked {marked : α → Bool} {y : α} (hy : y ∈ l) (hm : marked y = false) :
    y ∈ dropMarked marked l := by
  cases l with
  | nil => exact hy
  | cons z zs =>
      simp only [dropMarked]
      split
      case isTrue hz =>
        rcases List.mem_cons.mp hy with rfl | hy
        · simp [hz] at hm
        · exact hy
      case isFalse => exact hy

section Walk

variable {marked : α → Bool} {pos : ℤ}

/-- The walk never steps back behind where it started, as long as no interval
ends before that. -/
theorem le_gapWalk (low : ℤ) (l : List α) (h : ∀ y ∈ l, low ≤ hi y + 1)
    (hl : Ordered lo hi l) (hv : ∀ y ∈ l, lo y ≤ hi y) :
    low ≤ (gapWalk lo hi marked pos low l).1 := by
  induction l generalizing low with
  | nil => exact le_refl _
  | cons y ys ih =>
      obtain ⟨hy, hys⟩ := List.pairwise_cons.mp hl
      have hv' := fun z hz => hv z (List.mem_cons_of_mem y hz)
      unfold gapWalk
      split
      · cases hm : marked y with
        | true => exact ih low (fun z hz => h z (List.mem_cons_of_mem _ hz)) hys hv'
        | false =>
            refine (h y List.mem_cons_self).trans (ih (hi y + 1) (fun z hz => ?_) hys hv')
            have := hy z hz
            have := hv' z hz
            omega
      · exact le_refl _

/-- The walk ends at no negative position, in whatever order the intervals are. -/
theorem gapWalk_nonneg {low : ℤ} (hlow : 0 ≤ low) (l : List α) (h : ∀ y ∈ l, 0 ≤ hi y + 1) :
    0 ≤ (gapWalk lo hi marked pos low l).1 := by
  induction l generalizing low with
  | nil => exact hlow
  | cons y ys ih =>
      have htail := fun z hz => h z (List.mem_cons_of_mem y hz)
      unfold gapWalk
      split
      · cases marked y with
        | true => exact ih hlow htail
        | false => exact ih (h y List.mem_cons_self) htail
      · exact hlow

/-- An interval that meets nothing lies in the gap around its start. -/
theorem gapWalk_around (marked : α → Bool) {low a b : ℤ} (hlow : low ≤ a) (hab : a ≤ b) (l : List α)
    (hv : ∀ y ∈ l, lo y ≤ hi y) (hm : ∀ y ∈ l, marked y = false)
    (h : ∀ y ∈ l, b < lo y ∨ hi y < a) :
    (gapWalk lo hi marked a low l).1 ≤ a ∧
      ∀ z, (dropMarked marked (gapWalk lo hi marked a low l).2).head? = some z → b < lo z := by
  induction l generalizing low with
  | nil => exact ⟨hlow, by simp [gapWalk, dropMarked]⟩
  | cons y ys ih =>
      have hy := h y List.mem_cons_self
      have hmy := hm y List.mem_cons_self
      have hvy := hv y List.mem_cons_self
      unfold gapWalk
      split
      case isTrue hpass =>
        -- what is passed starts before `b`, so it ends before `a`
        rw [hmy]
        exact ih (by simp only [Bool.false_eq_true, if_false]; omega)
          (fun z hz => hv z (List.mem_cons_of_mem y hz))
          (fun z hz => hm z (List.mem_cons_of_mem y hz))
          fun z hz => h z (List.mem_cons_of_mem y hz)
      case isFalse hstop =>
        refine ⟨hlow, fun z hz => ?_⟩
        simp only [dropMarked, hmy, Bool.false_eq_true, if_false, List.head?_cons,
          Option.some.injEq] at hz
        subst hz
        omega

theorem gapWalk_sublist (lo hi : α → ℤ) (marked : α → Bool) (pos low : ℤ) (l : List α) :
    (gapWalk lo hi marked pos low l).2.Sublist l := by
  induction l generalizing low with
  | nil => exact List.Sublist.refl _
  | cons y ys ih =>
      unfold gapWalk
      split
      · exact (ih _).trans (List.sublist_cons_self y ys)
      · exact List.Sublist.refl _

/-- An unmarked interval is either passed, and ends below the gap, or not passed. -/
theorem gapWalk_passed (pos low : ℤ) (l : List α) (hl : Ordered lo hi l)
    (hv : ∀ y ∈ l, lo y ≤ hi y) {y : α} (hy : y ∈ l) (hm : marked y = false) :
    hi y < (gapWalk lo hi marked pos low l).1 ∨ y ∈ (gapWalk lo hi marked pos low l).2 := by
  induction l generalizing low with
  | nil => exact absurd hy List.not_mem_nil
  | cons z zs ih =>
      obtain ⟨hz, hzs⟩ := List.pairwise_cons.mp hl
      have hv' := fun w hw => hv w (List.mem_cons_of_mem z hw)
      unfold gapWalk
      split
      · rcases List.mem_cons.mp hy with rfl | hy
        · left
          simp only [hm, Bool.false_eq_true, if_false]
          have : hi y + 1 ≤ (gapWalk lo hi marked pos (hi y + 1) zs).1 := by
            refine le_gapWalk _ _ (fun w hw => ?_) hzs hv'
            have := hz w hw
            have := hv' w hw
            omega
          omega
        · exact ih _ hzs hv' hy
      · exact Or.inr hy

/-- **The gap is clear.**  An interval between the end of what was passed and the
start of the next interval not passed meets no unmarked interval. -/
theorem gapWalk_clear (marked : α → Bool) {low a b : ℤ} (hl : Ordered lo hi l) (hv : ∀ y ∈ l, lo y ≤ hi y)
    (ha : (gapWalk lo hi marked pos low l).1 ≤ a)
    (hb : ∀ z, (dropMarked marked (gapWalk lo hi marked pos low l).2).head? = some z → b < lo z)
    {y : α} (hy : y ∈ l) (hm : marked y = false) : b < lo y ∨ hi y < a := by
  rcases gapWalk_passed pos low l hl hv hy hm with hpass | hrest
  · right
    omega
  · left
    have hmem := mem_dropMarked hrest hm
    have hsub := (dropMarked_sublist marked _).trans
      (gapWalk_sublist lo hi marked pos low l)
    generalize dropMarked marked (gapWalk lo hi marked pos low l).2 = rest at hb hmem hsub
    cases rest with
    | nil => exact absurd hmem List.not_mem_nil
    | cons z zs =>
        have hbz := hb z rfl
        rcases List.mem_cons.mp hmem with rfl | hmem
        · exact hbz
        · have := (List.pairwise_cons.mp (hl.sublist hsub)).1 y hmem
          have := hv z (hsub.subset List.mem_cons_self)
          omega

end Walk

/-! ## Lists without gaps -/

/-- The intervals follow each other without a gap, from some position up to `last`. -/
inductive Tiles (lo hi : α → ℤ) (last : ℤ) : ℤ → List α → Prop where
  | nil {first : ℤ} : last < first → Tiles lo hi last first []
  | cons {a : α} {l : List α} :
      hi a ≤ last → Tiles lo hi last (hi a + 1) l → Tiles lo hi last (lo a) (a :: l)

section Tiles

variable {first last : ℤ}

theorem Tiles.cons_of_eq {next : ℤ} (h : Tiles lo hi last next l) (hlo : lo x = first)
    (hhi : hi x + 1 = next) (hlast : hi x ≤ last) : Tiles lo hi last first (x :: l) := by
  subst hlo hhi
  exact .cons hlast h

theorem tiles_map {lo hi : β → ℤ} (f : α → β) :
    Tiles lo hi last first (l.map f) ↔
      Tiles (fun a => lo (f a)) (fun a => hi (f a)) last first l := by
  refine ⟨fun h => ?_, fun h => ?_⟩
  · induction l generalizing first with
    | nil =>
        cases h with
        | nil hlast => exact .nil hlast
    | cons a l ih =>
        cases h with
        | cons hlast h => exact .cons (a := a) hlast (ih h)
  · induction h with
    | nil hlast => exact .nil hlast
    | @cons a l hlast _ ih => exact .cons (a := f a) hlast ih

theorem Tiles.bounds (h : Tiles lo hi last first l) (hv : ∀ a ∈ l, lo a ≤ hi a) :
    ∀ a ∈ l, first ≤ lo a ∧ hi a ≤ last := by
  induction h with
  | nil => simp
  | @cons a l hlast _ ih =>
      intro c hc
      have ha := hv a List.mem_cons_self
      rcases List.mem_cons.mp hc with rfl | hc
      · exact ⟨le_rfl, hlast⟩
      · have := ih (fun d hd => hv d (List.mem_cons_of_mem a hd)) c hc
        exact ⟨by omega, this.2⟩

theorem Tiles.ordered (h : Tiles lo hi last first l) (hv : ∀ a ∈ l, lo a ≤ hi a) :
    Ordered lo hi l := by
  induction h with
  | nil => exact List.Pairwise.nil
  | @cons a l _ h ih =>
      have hv' := fun c hc => hv c (List.mem_cons_of_mem a hc)
      refine List.pairwise_cons.mpr ⟨fun c hc => ?_, ih hv'⟩
      have := (h.bounds hv' c hc).1
      omega

/-- Every position is covered. -/
theorem Tiles.exists_mem (h : Tiles lo hi last first l) {y : ℤ} (hy : first ≤ y)
    (hlast : y ≤ last) : ∃ a ∈ l, lo a ≤ y ∧ y ≤ hi a := by
  induction h with
  | nil => omega
  | @cons a l _ _ ih =>
      by_cases hend : y ≤ hi a
      · exact ⟨a, List.mem_cons_self, hy, hend⟩
      · obtain ⟨c, hc, hcover⟩ := ih (by omega)
        exact ⟨c, List.mem_cons_of_mem a hc, hcover⟩

/-- No position is covered twice. -/
theorem Tiles.eq_of_covers (h : Tiles lo hi last first l) (hv : ∀ a ∈ l, lo a ≤ hi a)
    {a b : α} (ha : a ∈ l) (hb : b ∈ l) {y : ℤ} (hya : lo a ≤ y ∧ y ≤ hi a)
    (hyb : lo b ≤ y ∧ y ≤ hi b) : a = b := by
  by_contra hne
  have := (h.ordered hv).disjoint ha hb hne
  omega

end Tiles

end Libparted.Library
