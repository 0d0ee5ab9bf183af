import Mathlib

/-!
# Programs with a state and faults

`Prog ε σ α` is a program that reads and writes a state `σ`, returns an `α`, or
stops with a fault of `ε`.  A fault is not an error return: nothing runs after
it and no later state exists.

There is one specification predicate, `Spec E x s Q`: started in `s`, the program
`x` either returns with `Q` or stops with a fault of `E`.  Choosing `E` gives the
usual readings:

* `E = fun _ => True` is partial correctness, "whenever `x` returns, `Q`";
* `E = fun _ => False` is total correctness, "`x` returns, and with `Q`";
* anything between says which faults are still allowed.

The rules below follow the program text, one for each construct of the `do`
notation, and `Spec.runAll` turns what one operation preserves into what a
sequence of operations preserves.
-/

namespace Libparted.Library

section Except

variable {ε α β : Type}

@[simp] theorem ok_bind (a : α) (f : α → Except ε β) : (Except.ok a >>= f) = f a := rfl

@[simp] theorem error_bind (e : ε) (f : α → Except ε β) :
    (Except.error e >>= f) = .error e := rfl

@[simp] theorem pure_eq_ok (a : α) : (pure a : Except ε α) = .ok a := rfl

theorem bind_eq_ok {x : Except ε α} {f : α → Except ε β} {b : β} :
    (x >>= f) = .ok b ↔ ∃ a, x = .ok a ∧ f a = .ok b := by
  cases x with
  | error e => simp
  | ok a => simp

theorem eq_ok_of_toOption {x : Except ε α} {a : α} (h : x.toOption = some a) : x = .ok a := by
  cases x with
  | error e => cases h
  | ok b => exact congrArg Except.ok (Option.some.inj h)

/-- A successful run, found by evaluating what can be compared of it. -/
theorem exists_ok_of_map {x : Except ε α} {f : α → β} {b : β}
    (h : x.toOption.map f = some b) : ∃ a, x = .ok a ∧ f a = b := by
  cases x with
  | error e => cases h
  | ok a => exact ⟨a, rfl, Option.some.inj h⟩

/-- The fault a computation ends with. -/
def faultOf : Except ε α → Option ε
  | .error e => some e
  | .ok _ => none

theorem eq_error_of_faultOf {x : Except ε α} {e : ε} (h : faultOf x = some e) : x = .error e := by
  cases x with
  | error e' => exact congrArg Except.error (Option.some.inj h)
  | ok a => cases h

/-- Every fault `x` can end with is in `E`. -/
def Fails (E : ε → Prop) (x : Except ε α) : Prop := ∀ e, x = .error e → E e

variable {E : ε → Prop}

@[simp] theorem fails_ok (a : α) : Fails E (.ok a : Except ε α) := by
  simp [Fails]

@[simp] theorem fails_pure (a : α) : Fails E (pure a : Except ε α) := fails_ok a

@[simp] theorem fails_error {e : ε} : Fails E (.error e : Except ε α) ↔ E e := by
  simp [Fails]

theorem Fails.bind {x : Except ε α} {f : α → Except ε β} (hx : Fails E x)
    (hf : ∀ a, x = .ok a → Fails E (f a)) : Fails E (x >>= f) := by
  cases x with
  | error e => exact fails_error.mpr (fails_error.mp hx)
  | ok a => exact hf a rfl

theorem Fails.ite {c : Prop} [Decidable c] {x y : Except ε α} (hx : c → Fails E x)
    (hy : ¬ c → Fails E y) : Fails E (if c then x else y) := by
  split
  · exact hx ‹_›
  · exact hy ‹_›

end Except

/-- A program over the state `σ` that may stop with a fault of `ε`. -/
abbrev Prog (ε σ α : Type) : Type := StateT σ (Except ε) α

/-- Started in `s`, `x` returns with `Q` or stops with a fault of `E`. -/
def Spec {ε σ α : Type} (E : ε → Prop) (x : Prog ε σ α) (s : σ) (Q : α → σ → Prop) : Prop :=
  match x s with
  | .ok (a, s') => Q a s'
  | .error e => E e

section Rules

variable {ε σ α β : Type} {E : ε → Prop} {s : σ} {Q : α → σ → Prop}

theorem Spec.of_ok {x : Prog ε σ α} (h : Spec E x s Q) {a : α} {s' : σ}
    (hx : x s = .ok (a, s')) : Q a s' := by
  unfold Spec at h
  rw [hx] at h
  exact h

theorem Spec.of_error {x : Prog ε σ α} (h : Spec E x s Q) {e : ε}
    (hx : x s = .error e) : E e := by
  unfold Spec at h
  rw [hx] at h
  exact h

theorem spec_iff {x : Prog ε σ α} :
    Spec E x s Q ↔ (∀ a s', x s = .ok (a, s') → Q a s') ∧ ∀ e, x s = .error e → E e := by
  constructor
  · intro h
    exact ⟨fun _ _ hx => h.of_ok hx, fun _ hx => h.of_error hx⟩
  · rintro ⟨hok, herr⟩
    unfold Spec
    cases hx : x s with
    | error e => exact herr e hx
    | ok r => exact hok r.1 r.2 hx

/-- The specification of a program whose result is known. -/
theorem spec_of_ok {x : Prog ε σ α} {a : α} {s' : σ} (hx : x s = .ok (a, s')) :
    Spec E x s Q ↔ Q a s' := by
  unfold Spec
  rw [hx]

/-- The specification of a program that is known to stop. -/
theorem spec_of_error {x : Prog ε σ α} {e : ε} (hx : x s = .error e) :
    Spec E x s Q ↔ E e := by
  unfold Spec
  rw [hx]

/-- The result of a program, from what is known of it. -/
theorem Spec.eq_ok {x : Prog ε σ α} {a : α} {s' : σ}
    (h : Spec (fun _ => False) x s fun b t => b = a ∧ t = s') : x s = .ok (a, s') := by
  cases hx : x s with
  | error e => exact (h.of_error hx).elim
  | ok r =>
      obtain ⟨rfl, rfl⟩ := h.of_ok hx
      rfl

/-- Total correctness gives the state the program ends in. -/
theorem Spec.exists_ok {x : Prog ε σ α} (h : Spec (fun _ => False) x s Q) :
    ∃ a s', x s = .ok (a, s') ∧ Q a s' := by
  cases hx : x s with
  | error e => exact (h.of_error hx).elim
  | ok r => exact ⟨r.1, r.2, rfl, h.of_ok hx⟩

theorem Spec.mono {x : Prog ε σ α} {E' : ε → Prop} {Q' : α → σ → Prop} (h : Spec E x s Q)
    (hE : ∀ e, E e → E' e) (hQ : ∀ a s', Q a s' → Q' a s') : Spec E' x s Q' := by
  rw [spec_iff]
  exact ⟨fun a s' hx => hQ a s' (h.of_ok hx), fun e hx => hE e (h.of_error hx)⟩

/-- Strengthening the postcondition only. -/
theorem Spec.imp {x : Prog ε σ α} {Q' : α → σ → Prop} (h : Spec E x s Q)
    (hQ : ∀ a s', Q a s' → Q' a s') : Spec E x s Q' :=
  h.mono (fun _ he => he) hQ

/-- What partial correctness says about the result may be added to any
specification. -/
theorem Spec.and {x : Prog ε σ α} {E' : ε → Prop} {Q' : α → σ → Prop} (h : Spec E x s Q)
    (h' : Spec E' x s Q') : Spec E x s fun a s' => Q a s' ∧ Q' a s' := by
  rw [spec_iff]
  exact ⟨fun a s' hx => ⟨h.of_ok hx, h'.of_ok hx⟩, fun e hx => h.of_error hx⟩

/-- Two specifications of one program may be used together. -/
theorem Spec.of_and {x : Prog ε σ α} {E' : ε → Prop} {P Q' : α → σ → Prop} (h : Spec E x s Q)
    (h' : Spec E' x s P) (hQ : ∀ a s', Q a s' → P a s' → Q' a s') : Spec E x s Q' :=
  (h.and h').imp fun a s' hq => hQ a s' hq.1 hq.2

@[simp] theorem spec_pure {a : α} : Spec E (pure a : Prog ε σ α) s Q ↔ Q a s := Iff.rfl

@[simp] theorem spec_throw {e : ε} : Spec E (throw e : Prog ε σ α) s Q ↔ E e := Iff.rfl

@[simp] theorem spec_get {Q : σ → σ → Prop} : Spec E (get : Prog ε σ σ) s Q ↔ Q s s := Iff.rfl

@[simp] theorem spec_set {t : σ} {Q : PUnit → σ → Prop} :
    Spec E (set t : Prog ε σ PUnit) s Q ↔ Q ⟨⟩ t := Iff.rfl

@[simp] theorem spec_modify {f : σ → σ} {Q : PUnit → σ → Prop} :
    Spec E (modify f : Prog ε σ PUnit) s Q ↔ Q ⟨⟩ (f s) := Iff.rfl

theorem spec_bind {x : Prog ε σ β} {f : β → Prog ε σ α} :
    Spec E (x >>= f) s Q ↔ Spec E x s fun b s' => Spec E (f b) s' Q := by
  unfold Spec
  change (match x s >>= fun r => f r.1 r.2 with | .ok (a, s') => Q a s' | .error e => E e) ↔ _
  cases x s with
  | error e => exact Iff.rfl
  | ok r => exact Iff.rfl

theorem Spec.bind {x : Prog ε σ β} {f : β → Prog ε σ α}
    (h : Spec E x s fun b s' => Spec E (f b) s' Q) : Spec E (x >>= f) s Q :=
  spec_bind.mpr h

/-- A run whose first part is known goes on with the rest. -/
theorem run_bind_ok {x : Prog ε σ β} {f : β → Prog ε σ α} {b : β} {s' : σ}
    (h : x s = .ok (b, s')) : (x >>= f) s = f b s' := by
  change (x s >>= fun r => f r.1 r.2) = _
  rw [h]
  rfl

theorem run_bind_error {x : Prog ε σ β} {f : β → Prog ε σ α} {e : ε} (h : x s = .error e) :
    (x >>= f) s = .error e := by
  change (x s >>= fun r => f r.1 r.2) = _
  rw [h]
  rfl

/-- Sequencing with a named intermediate condition. -/
theorem Spec.seq {x : Prog ε σ β} {f : β → Prog ε σ α} {R : β → σ → Prop}
    (h : Spec E x s R) (hf : ∀ b s', R b s' → Spec E (f b) s' Q) : Spec E (x >>= f) s Q :=
  Spec.bind (h.imp hf)

theorem Spec.ite {c : Prop} [Decidable c] {x y : Prog ε σ α} (hx : c → Spec E x s Q)
    (hy : ¬ c → Spec E y s Q) : Spec E (if c then x else y) s Q := by
  split
  · exact hx ‹_›
  · exact hy ‹_›

/-- A computation that does not use the state, by the faults it can end with. -/
theorem Spec.lift {x : Except ε α} (hx : Fails E x) (h : ∀ a, x = .ok a → Q a s) :
    Spec E (liftM x : Prog ε σ α) s Q := by
  cases x with
  | error e => exact hx e rfl
  | ok a => exact h a rfl

theorem run_lift_ok {x : Except ε α} {a : α} (h : x = .ok a) :
    (liftM x : Prog ε σ α) s = .ok (a, s) := by
  subst h
  rfl

/-- A computation that does not use the state. -/
theorem spec_lift {x : Except ε α} :
    Spec E (liftM x : Prog ε σ α) s Q ↔
      (∀ a, x = .ok a → Q a s) ∧ ∀ e, x = .error e → E e := by
  cases x with
  | error e => simp [Spec, liftM, monadLift, MonadLift.monadLift, StateT.lift]
  | ok a => simp [Spec, liftM, monadLift, MonadLift.monadLift, StateT.lift]

end Rules

/-! ## Enough fuel -/

section Fuel

variable {ε σ α β : Type} {out : ε}

/-- Where `x` does not run out of fuel, `y` does the same. -/
def Extends (out : ε) (x y : Prog ε σ α) : Prop := ∀ s, x s ≠ .error out → y s = x s

theorem Extends.refl (x : Prog ε σ α) : Extends out x x := fun _ _ => rfl

theorem Extends.trans {x y z : Prog ε σ α} (hxy : Extends out x y) (hyz : Extends out y z) :
    Extends out x z := fun s hs => by
  have hy := hxy s hs
  rw [← hy] at hs ⊢
  exact hyz s hs

theorem extends_throw (y : Prog ε σ α) : Extends out (throw out) y := fun _ hs => absurd rfl hs

theorem Extends.bind {x y : Prog ε σ β} {f g : β → Prog ε σ α} (h : Extends out x y)
    (hf : ∀ b, Extends out (f b) (g b)) : Extends out (x >>= f) (y >>= g) := by
  intro s hs
  change (y s >>= fun r => g r.1 r.2) = (x s >>= fun r => f r.1 r.2)
  change (x s >>= fun r => f r.1 r.2) ≠ _ at hs
  cases hx : x s with
  | error e =>
      have hne : x s ≠ .error out := fun hout => hs (by rw [hout, error_bind])
      rw [h s hne, hx, error_bind, error_bind]
  | ok r =>
      rw [hx, ok_bind] at hs
      rw [h s (by simp [hx]), hx, ok_bind, ok_bind, hf r.1 r.2 hs]

theorem Extends.ite {c : Prop} [Decidable c] {x y x' y' : Prog ε σ α} (h : Extends out x y)
    (h' : Extends out x' y') : Extends out (if c then x else x') (if c then y else y') := by
  split
  · exact h
  · exact h'

/-- What holds with one unit of fuel more holds with any fuel more. -/
theorem extends_of_le {x : ℕ → Prog ε σ α} (h : ∀ n, Extends out (x n) (x (n + 1))) {m n : ℕ}
    (hmn : m ≤ n) : Extends out (x m) (x n) := by
  induction hmn with
  | refl => exact .refl _
  | step _ ih => exact ih.trans (h _)

end Fuel

/-! ## Sequences of operations -/

section Runs

variable {ε σ ι β : Type} {E : ε → Prop}

/-- Performs the operations of a list one after another. -/
def runAll (step : ι → Prog ε σ β) : List ι → Prog ε σ Unit
  | [] => pure ()
  | i :: is => do
      let _ ← step i
      runAll step is

/-- What every operation preserves holds after every sequence of operations. -/
theorem Spec.runAll {step : ι → Prog ε σ β} {I : σ → Prop}
    (hstep : ∀ i s, I s → Spec E (step i) s fun _ s' => I s') (is : List ι) {s : σ} (hs : I s) :
    Spec E (runAll step is) s fun _ s' => I s' := by
  induction is generalizing s with
  | nil => exact hs
  | cons i is ih => exact (hstep i s hs).seq fun _ _ h => ih h

/-- The invariant rule for counting loops: the invariant may depend on the counter. -/
theorem Spec.runAll_range {step : ℕ → Prog ε σ β} {I : ℕ → σ → Prop} {start count : ℕ}
    (hstep : ∀ i s, start ≤ i → i < start + count → I i s →
      Spec E (step i) s fun _ s' => I (i + 1) s') {s : σ} (hs : I start s) :
    Spec E (Library.runAll step (List.range' start count)) s
      fun _ s' => I (start + count) s' := by
  induction count generalizing start s with
  | zero => exact hs
  | succ count ih =>
      rw [List.range'_succ, show start + (count + 1) = start + 1 + count by omega]
      exact (hstep start s (by omega) (by omega) hs).seq fun _ s' hs' =>
        ih (fun i t hi hlt => hstep i t (by omega) (by omega)) hs'

/-- Performs the operations of a list until one returns `false`; did all succeed? -/
def allOf (step : ι → Prog ε σ Bool) : List ι → Prog ε σ Bool
  | [] => pure true
  | i :: is => do
      if ← step i then allOf step is
      else pure false

/-- The invariant rule for counting loops that a failure ends. -/
theorem Spec.allOf_range {step : ℕ → Prog ε σ Bool} {I : ℕ → σ → Prop} {start count : ℕ}
    (hstep : ∀ i s, start ≤ i → i < start + count → I i s →
      Spec E (step i) s fun ok s' => ok = true → I (i + 1) s') {s : σ} (hs : I start s) :
    Spec E (Library.allOf step (List.range' start count)) s
      fun ok s' => ok = true → I (start + count) s' := by
  induction count generalizing start s with
  | zero => exact fun _ => hs
  | succ count ih =>
      rw [List.range'_succ, show start + (count + 1) = start + 1 + count by omega]
      refine (hstep start s (by omega) (by omega) hs).seq fun ok s' hs' => ?_
      cases ok with
      | false => exact fun h => absurd h Bool.false_ne_true
      | true => exact ih (fun i t hi hlt => hstep i t (by omega) (by omega)) (hs' rfl)

/-- The same for loops in which nothing fails. -/
theorem Spec.allOf_range_true {step : ℕ → Prog ε σ Bool} {I : ℕ → σ → Prop} {start count : ℕ}
    (hstep : ∀ i s, start ≤ i → i < start + count → I i s →
      Spec E (step i) s fun ok s' => ok = true ∧ I (i + 1) s') {s : σ} (hs : I start s) :
    Spec E (Library.allOf step (List.range' start count)) s
      fun ok s' => ok = true ∧ I (start + count) s' := by
  induction count generalizing start s with
  | zero => exact ⟨rfl, hs⟩
  | succ count ih =>
      rw [List.range'_succ, show start + (count + 1) = start + 1 + count by omega]
      refine (hstep start s (by omega) (by omega) hs).seq fun ok s' ⟨hok, hs'⟩ => ?_
      subst hok
      exact ih (fun i t hi hlt => hstep i t (by omega) (by omega)) hs'

end Runs

/-! ## What a program leaves alone -/

section Keeps

variable {ε σ α β γ : Type} {f : σ → γ}

/-- Whenever `x` returns, `f` of the state is what it was. -/
def Keeps (f : σ → γ) (x : Prog ε σ α) : Prop := ∀ s a s', x s = .ok (a, s') → f s' = f s

theorem Keeps.of_ok {x : Prog ε σ α} (h : Keeps f x) {s s' : σ} {a : α}
    (hx : x s = .ok (a, s')) : f s' = f s := h s a s' hx

theorem Keeps.pure (a : α) : Keeps f (pure a : Prog ε σ α) := by
  intro s b s' hx
  obtain ⟨-, rfl⟩ := Prod.mk.inj (Except.ok.inj hx)
  rfl

theorem Keeps.get : Keeps f (get : Prog ε σ σ) := by
  intro s b s' hx
  obtain ⟨-, rfl⟩ := Prod.mk.inj (Except.ok.inj hx)
  rfl

theorem Keeps.modify {g : σ → σ} (h : ∀ s, f (g s) = f s) :
    Keeps f (modify g : Prog ε σ PUnit) := by
  intro s b s' hx
  obtain ⟨-, rfl⟩ := Prod.mk.inj (Except.ok.inj hx)
  exact h s

theorem Keeps.throw (e : ε) : Keeps f (throw e : Prog ε σ α) := by
  intro s b s' hx
  exact nomatch hx

theorem Keeps.lift (x : Except ε α) : Keeps f (liftM x : Prog ε σ α) := by
  intro s b s' hx
  cases x with
  | error e => exact nomatch hx
  | ok a =>
      obtain ⟨-, rfl⟩ := Prod.mk.inj (Except.ok.inj hx)
      rfl

theorem Keeps.bind {x : Prog ε σ β} {g : β → Prog ε σ α} (hx : Keeps f x)
    (hg : ∀ b, Keeps f (g b)) : Keeps f (x >>= g) := by
  intro s a s' h
  obtain ⟨⟨b, t⟩, hxt, hgt⟩ := bind_eq_ok.mp h
  exact (hg b t a s' hgt).trans (hx s b t hxt)

theorem Keeps.ite {c : Prop} [Decidable c] {x y : Prog ε σ α} (hx : Keeps f x) (hy : Keeps f y) :
    Keeps f (if c then x else y) := by
  split
  · exact hx
  · exact hy

end Keeps

/-! ## Sequences of calls -/

section Calls

variable {σ ι : Type} {step : σ → ι → σ} {I : σ → Prop} {P Q : σ → ι → Prop}

/-- Each call of a list has a property in the state it is made in. -/
def EachCall (step : σ → ι → σ) (P : σ → ι → Prop) : σ → List ι → Prop
  | _, [] => True
  | s, i :: is => P s i ∧ EachCall step P (step s i) is

/-- What two properties of a call say is the same in all states that are reached, if the
states in which it is the same are not left. -/
theorem eachCall_iff (hiff : ∀ s i, I s → (P s i ↔ Q s i))
    (hkeep : ∀ s i, I s → Q s i → I (step s i)) {s : σ} (hs : I s) (is : List ι) :
    EachCall step P s is ↔ EachCall step Q s is := by
  induction is generalizing s with
  | nil => exact Iff.rfl
  | cons i is ih =>
      have hhead := hiff s i hs
      constructor
      · rintro ⟨hP, hrest⟩
        exact ⟨hhead.mp hP, (ih (hkeep s i hs (hhead.mp hP))).mp hrest⟩
      · rintro ⟨hQ, hrest⟩
        exact ⟨hhead.mpr hQ, (ih (hkeep s i hs hQ)).mpr hrest⟩

end Calls

end Libparted.Library
