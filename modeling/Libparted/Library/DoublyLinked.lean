import Mathlib

/-!
# Doubly linked lists

The nodes of a heap point to the node before them and to the one behind them.  A piece of
a list (`Piece`) is a sequence of nodes that point to their neighbours, with what stands
before and behind it given.  Pieces can be put together and taken apart (`piece_append`), and
the ends of a piece can be tied to something else (`Piece.relink`).  A list is a piece with
nothing on either side.

So a node is put between two others by changing the pointers of the three of them
(`IsList.insert`), and taken out by changing those of the neighbours (`IsList.erase`).
`insertBefore`, `insertAfter` and `remove` do this, each from the pointers of one node, and
they touch no node of another list.
-/

namespace Libparted.Library

/-- The pointers of a heap. -/
structure Links (α : Type) where
  prev : α → Option α
  next : α → Option α

variable {α : Type}

/-- The nodes of a list point to each other, the first one to `before` and the last one to
`after`. -/
def Piece (L : Links α) (before after : Option α) : List α → Prop
  | [] => True
  | a :: l => L.prev a = before ∧ L.next a = l.head?.or after ∧ Piece L (some a) after l

/-- The nodes of `l` are a linked list, and the first one is `head`. -/
structure IsList (L : Links α) (head : Option α) (l : List α) : Prop where
  nodup : l.Nodup
  head : head = l.head?
  piece : Piece L none none l

section Pieces

variable {L L' : Links α} {before before' after after' : Option α} {l xs ys : List α} {a new : α}

theorem piece_append : Piece L before after (xs ++ ys) ↔
    Piece L before (ys.head?.or after) xs ∧ Piece L (xs.getLast?.or before) after ys := by
  induction xs generalizing before with
  | nil => simp [Piece]
  | cons a xs ih =>
    have hlast : xs.getLast?.or (some a) = (a :: xs).getLast?.or before := by
      cases xs with
      | nil => rfl
      | cons b xs =>
        rw [List.getLast?_cons_cons, List.getLast?_cons, Option.some_or, Option.some_or]
    rw [List.cons_append, Piece, Piece, ih, hlast, List.head?_append, Option.or_assoc]
    simp only [and_assoc]

/-- **The ends of a piece are tied to something else.** -/
theorem Piece.relink (h : Piece L before after l) (hnodup : l.Nodup)
    (hhead : ∀ b, l.head? = some b → L'.prev b = before')
    (hlast : ∀ b, l.getLast? = some b → L'.next b = after')
    (hprev : ∀ b ∈ l, l.head? ≠ some b → L'.prev b = L.prev b)
    (hnext : ∀ b ∈ l, l.getLast? ≠ some b → L'.next b = L.next b) :
    Piece L' before' after' l := by
  induction l generalizing before before' with
  | nil => trivial
  | cons a l ih =>
    obtain ⟨-, hnextA, hrest⟩ := h
    obtain ⟨hout, hnodup⟩ := List.nodup_cons.mp hnodup
    refine ⟨hhead a rfl, ?_, ?_⟩
    · cases l with
      | nil => exact hlast a rfl
      | cons b l =>
        rw [hnext a List.mem_cons_self fun heq => ?_, hnextA]
        · rfl
        · rw [List.getLast?_cons_cons] at heq
          exact hout (List.mem_of_getLast? heq)
    · refine ih hrest hnodup (fun b hb => ?_) (fun b hb => ?_) (fun b hb hne => ?_)
        fun b hb hne => ?_
      · -- the first node of the rest is not the first one
        have hmem := List.mem_of_head? hb
        rw [hprev b (List.mem_cons_of_mem _ hmem) fun heq => hout (Option.some.inj heq ▸ hmem)]
        cases l with
        | nil => cases hb
        | cons c l =>
          obtain rfl := Option.some.inj hb
          exact hrest.1
      · refine hlast b ?_
        cases l with
        | nil => cases hb
        | cons c l => rwa [List.getLast?_cons_cons]
      · exact hprev b (List.mem_cons_of_mem _ hb) fun heq => hout (Option.some.inj heq ▸ hb)
      · refine hnext b (List.mem_cons_of_mem _ hb) fun heq => hne ?_
        cases l with
        | nil => cases hb
        | cons c l => rwa [List.getLast?_cons_cons] at heq

end Pieces

section Lists

variable {L L' : Links α} {head : Option α} {l xs ys : List α} {a new : α}

theorem IsList.prev_eq (h : IsList L head (xs ++ a :: ys)) : L.prev a = xs.getLast? := by
  have := (piece_append.mp h.piece).2.1
  rwa [Option.or_none] at this

theorem IsList.next_eq (h : IsList L head (xs ++ a :: ys)) : L.next a = ys.head? := by
  have := (piece_append.mp h.piece).2.2.1
  rwa [Option.or_none] at this

/-- What other nodes point to does not matter. -/
theorem IsList.congr (h : IsList L head l) (hprev : ∀ b ∈ l, L'.prev b = L.prev b)
    (hnext : ∀ b ∈ l, L'.next b = L.next b) : IsList L' head l := by
  refine ⟨h.nodup, h.head, h.piece.relink h.nodup (fun b hb => ?_) (fun b hb => ?_)
    (fun b hb _ => hprev b hb) fun b hb _ => hnext b hb⟩
  · obtain ⟨ys, rfl⟩ := List.head?_eq_some_iff.mp hb
    rw [hprev b List.mem_cons_self]
    exact h.piece.1
  · obtain ⟨xs, rfl⟩ := List.getLast?_eq_some_iff.mp hb
    rw [hnext b (by simp), h.next_eq]
    rfl

/-- **A node is put between two others.** -/
theorem IsList.insert (h : IsList L head (xs ++ ys)) (hnew : new ∉ xs ++ ys)
    (hprev : L'.prev new = xs.getLast?) (hnext : L'.next new = ys.head?)
    (hleft : ∀ b, xs.getLast? = some b → L'.next b = some new)
    (hright : ∀ b, ys.head? = some b → L'.prev b = some new)
    (hprevs : ∀ b ∈ xs ++ ys, ys.head? ≠ some b → L'.prev b = L.prev b)
    (hnexts : ∀ b ∈ xs ++ ys, xs.getLast? ≠ some b → L'.next b = L.next b) :
    IsList L' (xs ++ new :: ys).head? (xs ++ new :: ys) := by
  obtain ⟨hxs, hys, hapart⟩ := List.nodup_append.mp h.nodup
  obtain ⟨hpieceX, hpieceY⟩ := piece_append.mp h.piece
  refine ⟨?_, rfl, piece_append.mpr ⟨?_, ?_, ?_, ?_⟩⟩
  · rw [List.nodup_middle]
    exact List.nodup_cons.mpr ⟨hnew, h.nodup⟩
  · refine hpieceX.relink hxs (fun b hb => ?_) hleft (fun b hb _ => ?_) fun b hb => ?_
    · have hmem := List.mem_of_head? hb
      obtain ⟨zs, rfl⟩ := List.head?_eq_some_iff.mp hb
      rw [hprevs b (by simp) fun heq => hapart b hmem b (List.mem_of_head? heq) rfl]
      exact hpieceX.1
    · exact hprevs b (List.mem_append_left _ hb)
        fun heq => hapart b hb b (List.mem_of_head? heq) rfl
    · exact hnexts b (List.mem_append_left _ hb)
  · rw [hprev, Option.or_none]
  · rw [hnext, Option.or_none]
  · refine hpieceY.relink hys hright (fun b hb => ?_) (fun b hb => ?_) fun b hb _ => ?_
    · have hmem := List.mem_of_getLast? hb
      rw [hnexts b (List.mem_append_right _ hmem)
        fun heq => hapart b (List.mem_of_getLast? heq) b hmem rfl]
      obtain ⟨zs, rfl⟩ := List.getLast?_eq_some_iff.mp hb
      rw [← List.append_assoc] at h
      exact h.next_eq
    · exact hprevs b (List.mem_append_right _ hb)
    · exact hnexts b (List.mem_append_right _ hb)
        fun heq => hapart b (List.mem_of_getLast? heq) b hb rfl

/-- **A node is taken out.** -/
theorem IsList.erase (h : IsList L head (xs ++ a :: ys))
    (hleft : ∀ b, xs.getLast? = some b → L'.next b = ys.head?)
    (hright : ∀ b, ys.head? = some b → L'.prev b = xs.getLast?)
    (hprevs : ∀ b ∈ xs ++ ys, ys.head? ≠ some b → L'.prev b = L.prev b)
    (hnexts : ∀ b ∈ xs ++ ys, xs.getLast? ≠ some b → L'.next b = L.next b) :
    IsList L' (xs ++ ys).head? (xs ++ ys) := by
  have hnodup : (xs ++ ys).Nodup := (List.nodup_cons.mp (List.nodup_middle.mp h.nodup)).2
  obtain ⟨hxs, hys, hapart⟩ := List.nodup_append.mp hnodup
  obtain ⟨hpieceX, -, -, hpieceY⟩ := piece_append.mp h.piece
  refine ⟨hnodup, rfl, piece_append.mpr ⟨?_, ?_⟩⟩
  · refine hpieceX.relink hxs (fun b hb => ?_) (by simpa using hleft) (fun b hb _ => ?_)
      fun b hb => ?_
    · have hmem := List.mem_of_head? hb
      obtain ⟨zs, rfl⟩ := List.head?_eq_some_iff.mp hb
      rw [hprevs b (by simp) fun heq => hapart b hmem b (List.mem_of_head? heq) rfl]
      exact hpieceX.1
    · exact hprevs b (List.mem_append_left _ hb)
        fun heq => hapart b hb b (List.mem_of_head? heq) rfl
    · exact hnexts b (List.mem_append_left _ hb)
  · refine hpieceY.relink hys (by simpa using hright) (fun b hb => ?_) (fun b hb => ?_)
      fun b hb _ => ?_
    · have hmem := List.mem_of_getLast? hb
      rw [hnexts b (List.mem_append_right _ hmem)
        fun heq => hapart b (List.mem_of_getLast? heq) b hmem rfl]
      obtain ⟨zs, rfl⟩ := List.getLast?_eq_some_iff.mp hb
      rw [show xs ++ a :: (zs ++ [b]) = (xs ++ a :: zs) ++ b :: [] by simp] at h
      exact h.next_eq
    · exact hprevs b (List.mem_append_right _ hb)
    · exact hnexts b (List.mem_append_right _ hb)
        fun heq => hapart b (List.mem_of_getLast? heq) b hb rfl

end Lists

/-! ## Operations -/

namespace Links

variable [DecidableEq α]

/-- `a->prev = b`. -/
def setPrev (L : Links α) (a : α) (b : Option α) : Links α :=
  { L with prev := Function.update L.prev a b }

/-- `a->next = b`. -/
def setNext (L : Links α) (a : α) (b : Option α) : Links α :=
  { L with next := Function.update L.next a b }

/-- `if (a) a->prev = b`. -/
def setPrev? (L : Links α) (a b : Option α) : Links α :=
  match a with
  | some a => L.setPrev a b
  | none => L

/-- `if (a) a->next = b`. -/
def setNext? (L : Links α) (a b : Option α) : Links α :=
  match a with
  | some a => L.setNext a b
  | none => L

/-- Ties `new` in before `loc`. -/
def insertBefore (L : Links α) (loc new : α) : Links α :=
  (((L.setPrev new (L.prev loc)).setNext new (some loc)).setNext? (L.prev loc) (some new)).setPrev
    loc (some new)

/-- Ties `new` in behind `loc`. -/
def insertAfter (L : Links α) (loc new : α) : Links α :=
  (((L.setPrev new (some loc)).setNext new (L.next loc)).setPrev? (L.next loc) (some new)).setNext
    loc (some new)

/-- Ties the neighbours of `a` together. -/
def remove (L : Links α) (a : α) : Links α :=
  (L.setNext? (L.prev a) (L.next a)).setPrev? (L.next a) (L.prev a)

variable {L : Links α} {a b c : α} {o x : Option α}

@[simp] theorem setPrev_prev : (L.setPrev a x).prev b = if b = a then x else L.prev b :=
  Function.update_apply ..

@[simp] theorem setPrev_next : (L.setPrev a x).next b = L.next b := rfl

@[simp] theorem setNext_prev : (L.setNext a x).prev b = L.prev b := rfl

@[simp] theorem setNext_next : (L.setNext a x).next b = if b = a then x else L.next b :=
  Function.update_apply ..

@[simp] theorem setPrev?_prev : (L.setPrev? o x).prev b = if o = some b then x else L.prev b := by
  cases o with
  | none => rfl
  | some a => simp [setPrev?, eq_comm]

@[simp] theorem setPrev?_next : (L.setPrev? o x).next b = L.next b := by
  cases o <;> rfl

@[simp] theorem setNext?_prev : (L.setNext? o x).prev b = L.prev b := by
  cases o <;> rfl

@[simp] theorem setNext?_next : (L.setNext? o x).next b = if o = some b then x else L.next b := by
  cases o with
  | none => rfl
  | some a => simp [setNext?, eq_comm]

end Links

section Operations

variable [DecidableEq α] {L : Links α} {head : Option α} {l xs ys : List α} {a loc new : α}

/-- **Insertion in front of a node.** -/
theorem IsList.insertBefore (h : IsList L head (xs ++ loc :: ys)) (hnew : new ∉ xs ++ loc :: ys) :
    IsList (L.insertBefore loc new) (xs ++ new :: loc :: ys).head? (xs ++ new :: loc :: ys) := by
  have hprev := h.prev_eq
  have hlast {b : α} (hb : xs.getLast? = some b) : b ∈ xs ++ loc :: ys :=
    List.mem_append_left _ (List.mem_of_getLast? hb)
  have hne {b : α} (hb : b ∈ xs ++ loc :: ys) : b ≠ new := fun heq => hnew (heq ▸ hb)
  have hloc : new ≠ loc := fun heq => hnew (by simp [heq])
  have hnotLast : xs.getLast? ≠ some new := fun heq => hnew (hlast heq)
  refine h.insert hnew ?_ ?_ (fun b hb => ?_) (fun b hb => ?_) (fun b hb hneq => ?_)
    fun b hb hneq => ?_
  · simp [Links.insertBefore, hloc, hprev]
  · simp [Links.insertBefore, hprev, hnotLast]
  · simp [Links.insertBefore, hprev, hb]
  · obtain rfl := Option.some.inj hb
    simp [Links.insertBefore]
  · have hb' : b ≠ loc := fun heq => hneq (by simp [heq])
    simp [Links.insertBefore, hb', hne hb]
  · simp [Links.insertBefore, hprev, hneq, hne hb]

/-- **Insertion behind a node.** -/
theorem IsList.insertAfter (h : IsList L head (xs ++ loc :: ys)) (hnew : new ∉ xs ++ loc :: ys) :
    IsList (L.insertAfter loc new) (xs ++ loc :: new :: ys).head? (xs ++ loc :: new :: ys) := by
  have hnext := h.next_eq
  have hfirst {b : α} (hb : ys.head? = some b) : b ∈ xs ++ loc :: ys :=
    List.mem_append_right _ (List.mem_cons_of_mem _ (List.mem_of_head? hb))
  have hne {b : α} (hb : b ∈ xs ++ loc :: ys) : b ≠ new := fun heq => hnew (heq ▸ hb)
  have hloc : new ≠ loc := fun heq => hnew (by simp [heq])
  have hnotFirst : ys.head? ≠ some new := fun heq => hnew (hfirst heq)
  have hmove : xs ++ loc :: ys = (xs ++ [loc]) ++ ys := by simp
  rw [show xs ++ loc :: new :: ys = (xs ++ [loc]) ++ new :: ys by simp]
  rw [hmove] at h hnew hne
  refine h.insert hnew ?_ ?_ (fun b hb => ?_) (fun b hb => ?_) (fun b hb hneq => ?_)
    fun b hb hneq => ?_
  · simp [Links.insertAfter, hnext, hnotFirst]
  · simp [Links.insertAfter, hloc, hnext]
  · obtain rfl : loc = b := by simpa using hb
    simp [Links.insertAfter]
  · simp [Links.insertAfter, hnext, hb]
  · simp [Links.insertAfter, hnext, hneq, hne hb]
  · have hb' : b ≠ loc := fun heq => hneq (by simp [heq])
    simp [Links.insertAfter, hb', hne hb]

/-- **Removal of a node.** -/
theorem IsList.remove (h : IsList L head (xs ++ a :: ys)) :
    IsList (L.remove a) (xs ++ ys).head? (xs ++ ys) := by
  have hprev := h.prev_eq
  have hnext := h.next_eq
  refine h.erase (fun b hb => ?_) (fun b hb => ?_) (fun b hb hneq => ?_) fun b hb hneq => ?_
  · simp [Links.remove, hprev, hnext, hb]
  · simp [Links.remove, hprev, hnext, hb]
  · simp [Links.remove, hnext, hneq]
  · simp [Links.remove, hprev, hneq]

/-- The nodes of other lists keep their pointers. -/
theorem IsList.insertBefore_apart (h : IsList L head (xs ++ loc :: ys)) {b : α}
    (hb : b ∉ xs ++ loc :: ys) (hnew : b ≠ new) :
    (L.insertBefore loc new).prev b = L.prev b ∧ (L.insertBefore loc new).next b = L.next b := by
  have hloc : b ≠ loc := fun heq => hb (by simp [heq])
  have hlast : xs.getLast? ≠ some b := fun heq =>
    hb (List.mem_append_left _ (List.mem_of_getLast? heq))
  simp [Links.insertBefore, h.prev_eq, hloc, hlast, hnew]

theorem IsList.insertAfter_apart (h : IsList L head (xs ++ loc :: ys)) {b : α}
    (hb : b ∉ xs ++ loc :: ys) (hnew : b ≠ new) :
    (L.insertAfter loc new).prev b = L.prev b ∧ (L.insertAfter loc new).next b = L.next b := by
  have hloc : b ≠ loc := fun heq => hb (by simp [heq])
  have hfirst : ys.head? ≠ some b := fun heq =>
    hb (List.mem_append_right _ (List.mem_cons_of_mem _ (List.mem_of_head? heq)))
  simp [Links.insertAfter, h.next_eq, hloc, hfirst, hnew]

theorem IsList.remove_apart (h : IsList L head (xs ++ a :: ys)) {b : α} (hb : b ∉ xs ++ a :: ys) :
    (L.remove a).prev b = L.prev b ∧ (L.remove a).next b = L.next b := by
  have hlast : xs.getLast? ≠ some b := fun heq =>
    hb (List.mem_append_left _ (List.mem_of_getLast? heq))
  have hfirst : ys.head? ≠ some b := fun heq =>
    hb (List.mem_append_right _ (List.mem_cons_of_mem _ (List.mem_of_head? heq)))
  simp [Links.remove, h.prev_eq, h.next_eq, hlast, hfirst]

end Operations

end Libparted.Library
