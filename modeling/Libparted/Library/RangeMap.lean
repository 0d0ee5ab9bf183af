import Mathlib

/-!
# Finite maps whose values keep apart

A `RangeMap κ ρ clash` holds finitely many values of `ρ` under distinct keys, no
two of which clash.  An entry may always be erased; a value may be put under a key
when it clashes with no value under another key (`RangeMap.Free`), and replaces
what was there.

The map is a list, so that it can be computed with.  What is known about it is
said through `RangeMap.lookup`, and the lemmas below give `lookup` after each
operation.
-/

namespace Libparted.Library

/-- Values under distinct keys, no two of which clash. -/
structure RangeMap (κ ρ : Type) (clash : ρ → ρ → Prop) where
  entries : List (κ × ρ)
  apart : entries.Pairwise fun p q => p.1 ≠ q.1 ∧ ¬ clash p.2 q.2

namespace RangeMap

variable {κ ρ : Type} {clash : ρ → ρ → Prop} [DecidableEq κ]

/-- The value under a key. -/
def lookup (m : RangeMap κ ρ clash) (k : κ) : Option ρ :=
  (m.entries.find? fun p => p.1 = k).map Prod.snd

/-- The map without the entry of a key. -/
def erase (m : RangeMap κ ρ clash) (k : κ) : RangeMap κ ρ clash where
  entries := m.entries.filter fun p => p.1 ≠ k
  apart := m.apart.filter _

/-- The value clashes with nothing that is under another key. -/
def Free (m : RangeMap κ ρ clash) (k : κ) (r : ρ) : Prop :=
  ∀ p ∈ m.entries, p.1 ≠ k → ¬ clash r p.2

instance [DecidableRel clash] (m : RangeMap κ ρ clash) (k : κ) (r : ρ) :
    Decidable (m.Free k r) :=
  inferInstanceAs (Decidable (∀ p ∈ m.entries, p.1 ≠ k → ¬ clash r p.2))

/-- The map with `r` under `k`. -/
def put (m : RangeMap κ ρ clash) (k : κ) (r : ρ) (h : m.Free k r) : RangeMap κ ρ clash where
  entries := (k, r) :: (m.erase k).entries
  apart := by
    refine List.pairwise_cons.mpr ⟨fun p hp => ?_, (m.erase k).apart⟩
    obtain ⟨hp, hk⟩ := List.mem_filter.mp hp
    have hne : p.1 ≠ k := of_decide_eq_true hk
    exact ⟨hne.symm, h p hp hne⟩

variable [Std.Symm clash] {m : RangeMap κ ρ clash} {k j : κ} {r a b : ρ}

omit [DecidableEq κ] in
theorem apart_of_mem {p q : κ × ρ} (hp : p ∈ m.entries) (hq : q ∈ m.entries) (hne : p ≠ q) :
    p.1 ≠ q.1 ∧ ¬ clash p.2 q.2 := by
  have : Std.Symm fun p q : κ × ρ => p.1 ≠ q.1 ∧ ¬ clash p.2 q.2 :=
    ⟨fun _ _ h => ⟨h.1.symm, fun hc => h.2 (symm hc)⟩⟩
  exact m.apart.forall hp hq hne

omit [Std.Symm clash] in
theorem mem_of_lookup (h : m.lookup k = some r) : (k, r) ∈ m.entries := by
  obtain ⟨p, hp, rfl⟩ := Option.map_eq_some_iff.mp h
  have hk : p.1 = k := by simpa using List.find?_some hp
  rw [← hk]
  exact List.mem_of_find?_eq_some hp

theorem lookup_of_mem (h : (k, r) ∈ m.entries) : m.lookup k = some r := by
  cases hl : m.lookup k with
  | none =>
      have hnone := List.find?_eq_none.mp (Option.map_eq_none_iff.mp hl) (k, r) h
      simp at hnone
  | some a =>
      -- two entries with one key are one entry
      by_contra hne
      have hdiff : (k, a) ≠ (k, r) := by
        rintro ⟨⟩
        exact hne rfl
      exact (apart_of_mem (mem_of_lookup hl) h hdiff).1 rfl

theorem lookup_eq_some : m.lookup k = some r ↔ (k, r) ∈ m.entries :=
  ⟨mem_of_lookup, lookup_of_mem⟩

theorem free_iff : m.Free k r ↔ ∀ j b, m.lookup j = some b → j ≠ k → ¬ clash r b :=
  ⟨fun h j b hb hne => h (j, b) (mem_of_lookup hb) hne,
    fun h p hp hne => h p.1 p.2 (lookup_of_mem hp) hne⟩

theorem lookup_erase (m : RangeMap κ ρ clash) (k j : κ) :
    (m.erase k).lookup j = if j = k then none else m.lookup j := by
  refine Option.ext fun b => ?_
  rw [lookup_eq_some]
  split
  · rename_i hjk
    simp [erase, hjk]
  · rename_i hjk
    rw [lookup_eq_some]
    simp [erase, hjk]

theorem lookup_put (h : m.Free k r) (j : κ) :
    (m.put k r h).lookup j = if j = k then some r else m.lookup j := by
  refine Option.ext fun b => ?_
  have hmem : (j, b) ∈ (m.put k r h).entries ↔ (j, b) = (k, r) ∨ (m.erase k).lookup j = some b := by
    rw [lookup_eq_some]
    exact List.mem_cons
  rw [lookup_eq_some, hmem, lookup_erase]
  split
  · rename_i hjk
    simp [hjk, eq_comm]
  · rename_i hjk
    simp [hjk]

end RangeMap

end Libparted.Library
