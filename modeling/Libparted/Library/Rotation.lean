import Mathlib

/-!
# Going around

A search for one of the numbers below `n` starts behind the place where the last one
ended, and goes once around.  `around n last` is the order in which it comes through the
numbers.  If it ends at `c`, the next search comes first through what this one has not
reached, then through what it has passed, and last through `c` (`around_of_split`).

So if the search is for numbers with a property that does not change, all of them turn up
before the first one turns up again (`filter_around_hit`); and numbers that the search
finds and that lack the property make no difference (`filter_around_miss`).
-/

namespace Libparted.Library

/-- The numbers below `n`, from the one behind `last` on. -/
def around (n last : ℕ) : List ℕ := (List.range n).rotate (last + 1)

variable {n last c : ℕ}

theorem around_eq_map (n last : ℕ) :
    around n last = (List.range' 1 n).map fun i => (i + last) % n := by
  refine List.ext_getElem (by simp [around]) fun k hk hk' => ?_
  simp only [around, List.getElem_rotate, List.getElem_range, List.length_range, List.getElem_map,
    List.getElem_range', Nat.one_mul]
  congr 1
  omega

theorem mem_around : c ∈ around n last ↔ c < n := by
  simp [around]

theorem nodup_around (n last : ℕ) : (around n last).Nodup :=
  List.nodup_rotate.mpr List.nodup_range

/-- A search that has ended at `c` starts behind it, and comes to `c` last. -/
theorem around_of_split {passed rest : List ℕ} (h : around n last = passed ++ c :: rest) :
    around n c = rest ++ passed ++ [c] := by
  have hc : (passed.length + (last + 1)) % n = c := by
    have hget : (around n last)[passed.length]? = some c := by simp [h]
    obtain ⟨hlt, hget⟩ := List.getElem?_eq_some_iff.mp hget
    simpa [around, List.getElem_rotate] using hget
  have hturn : (around n last).rotate (passed.length + 1) = rest ++ passed ++ [c] := by
    rw [h, show passed ++ c :: rest = (passed ++ [c]) ++ rest by simp,
      show passed.length + 1 = (passed ++ [c]).length by simp, List.rotate_append_length_eq,
      List.append_assoc]
  rw [← hturn]
  unfold around
  rw [List.rotate_rotate, ← List.rotate_mod _ (c + 1), ← List.rotate_mod _ (last + 1 + _),
    List.length_range, ← hc, Nat.mod_add_mod]
  congr 2
  omega

section Search

variable {found wanted : ℕ → Bool}

/-- What a search has passed, and what is left. -/
theorem exists_split_of_find? (h : (around n last).find? found = some c) :
    found c = true ∧ ∃ passed rest, around n last = passed ++ c :: rest ∧
      around n c = rest ++ passed ++ [c] ∧ ∀ x ∈ passed, found x = false := by
  obtain ⟨hc, passed, rest, hsplit, hpassed⟩ := List.find?_eq_some_iff_append.mp h
  exact ⟨hc, passed, rest, hsplit, around_of_split hsplit, by simpa using hpassed⟩

theorem filter_passed {passed : List ℕ} (hsub : ∀ x, wanted x = true → found x = true)
    (h : ∀ x ∈ passed, found x = false) : passed.filter wanted = [] := by
  refine List.filter_eq_nil_iff.mpr fun x hx hwanted => ?_
  simpa [h x hx] using hsub x hwanted

/-- A number that was found and is not wanted makes no difference. -/
theorem filter_around_miss (hsub : ∀ x, wanted x = true → found x = true)
    (h : (around n last).find? found = some c) (hc : wanted c = false) :
    (around n c).filter wanted = (around n last).filter wanted := by
  obtain ⟨-, passed, rest, hlast, hnext, hpassed⟩ := exists_split_of_find? h
  rw [hlast, hnext]
  simp [List.filter_append, filter_passed hsub hpassed, hc]

/-- A number that was found and is wanted goes to the end. -/
theorem filter_around_hit (hsub : ∀ x, wanted x = true → found x = true)
    (h : (around n last).find? found = some c) (hc : wanted c = true) :
    ∃ rest, (around n last).filter wanted = c :: rest ∧
      (around n c).filter wanted = rest ++ [c] := by
  obtain ⟨-, passed, rest, hlast, hnext, hpassed⟩ := exists_split_of_find? h
  refine ⟨rest.filter wanted, ?_, ?_⟩
  · rw [hlast]
    simp [List.filter_append, filter_passed hsub hpassed, hc]
  · rw [hnext]
    simp [List.filter_append, filter_passed hsub hpassed, hc]

end Search

end Libparted.Library
