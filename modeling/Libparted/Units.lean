import Libparted.Geometry

/-!
# Locations as text (`libparted/unit.c`)

A location on a device can be written with a unit, or as cylinder, head and sector with commas in
between.  A text with two punctuation characters is read in the second way: spaces are taken out,
the punctuation is replaced by spaces, and three numbers are scanned.

`strip_string` takes out a space by moving down what is behind it, but not the end of the text: the
last character is there twice.  Two spaces in a row are not both seen.  So a text with a space is
never stripped of it (`stripString_eq_filter_iff`), and the sector number at the end of a location
gets another digit for every space that is taken out.

**A location that is printed is read back** if there are no spaces in it, or if its sector number is
0, which does not change when digits are repeated (`pedUnitParseCustom_format_iff`).

What is done with a text in another unit uses floating point numbers, and is a parameter.
-/

namespace Libparted

open Library

/-! ## Characters -/

/-- `isspace`. -/
def isspace (c : Char) : Bool := c.toNat = 32 ∨ 9 ≤ c.toNat ∧ c.toNat ≤ 13

/-- `ispunct`. -/
def ispunct (c : Char) : Bool :=
  33 ≤ c.toNat ∧ c.toNat ≤ 47 ∨ 58 ≤ c.toNat ∧ c.toNat ≤ 64 ∨ 91 ≤ c.toNat ∧ c.toNat ≤ 96 ∨
    123 ≤ c.toNat ∧ c.toNat ≤ 126

/-- The inner loop of `strip_string`.  The end of the list is the terminating NUL, which is never
moved; `fuel` is the length of the text. -/
def moveDown : ℕ → List Char → ℕ → List Char
  | 0, str, _ => str
  | fuel + 1, str, j =>
    match str[j]? with
    | none => str
    | some c => moveDown fuel (str.set (j - 1) c) (j + 1)

/-- The outer loop of `strip_string`. -/
def stripFrom : ℕ → List Char → ℕ → List Char
  | 0, str, _ => str
  | fuel + 1, str, i =>
    match str[i]? with
    | none => str
    | some c =>
      stripFrom fuel (if isspace c then moveDown str.length str (i + 1) else str) (i + 1)

/-- `strip_string`. -/
def stripString (str : List Char) : List Char := stripFrom str.length str 0

/-- `remove_punct`. -/
def removePunct (str : List Char) : List Char := str.map fun c => if ispunct c then ' ' else c

/-- `is_chs`. -/
def isChs (str : List Char) : Bool := str.countP ispunct = 2

/-! ## Numbers -/

/-- `%lld` of `printf`. -/
def formatInt (n : ℤ) : List Char :=
  if n < 0 then '-' :: Nat.toDigits 10 (-n).toNat else Nat.toDigits 10 n.toNat

/-- `%d` of `sscanf`: the number, and what is behind it.  The result of a conversion that does not
fit into an `int` is not defined. -/
def scanInt (str : List Char) : Except Fault (Option (ℤ × List Char)) :=
  let str := str.dropWhile isspace
  let (sign, str) : ℤ × List Char := match str with
    | '-' :: str => (-1, str)
    | '+' :: str => (1, str)
    | str => (1, str)
  let digits := str.takeWhile Char.isDigit
  let n := sign * Nat.ofDigitChars 10 digits 0
  if digits = [] then .ok none
  else if -2 ^ 31 ≤ n ∧ n < 2 ^ 31 then .ok (some (n, str.dropWhile Char.isDigit))
  else .error (.undefined "sscanf")

/-- `sscanf (str, "%d %d %d", ...)`, `none` if it does not return 3. -/
def scanThree (str : List Char) : Except Fault (Option (ℤ × ℤ × ℤ)) := do
  match ← scanInt str with
  | none => return none
  | some (a, str) =>
    match ← scanInt str with
    | none => return none
    | some (b, str) =>
      match ← scanInt str with
      | none => return none
      | some (c, _) => return some (a, b, c)

/-! ## Locations -/

/-- `PedUnit`. -/
inductive PedUnit where
  | sector | byte | kilobyte | megabyte | gigabyte | terabyte | compact | cylinder | chs | percent
  | kibibyte | mebibyte | gibibyte | tebibyte
deriving DecidableEq, Repr

/-- `heads * sectors` of the geometry of a device. -/
def cylSize (dev : PedDevice) : ℤ := dev.biosGeom.heads * dev.biosGeom.sectors

/-- `ped_unit_format_custom_byte`, given what is done for the units that need a fraction. -/
def pedUnitFormatCustomByte (formatReal : PedDevice → ℤ → PedUnit → List Char) (dev : PedDevice)
    (byte : ℤ) : PedUnit → List Char
  | .chs =>
    let sector := byte.tdiv dev.sectorSize
    let chs := dev.biosGeom
    formatInt ((sector.tdiv chs.sectors).tdiv chs.heads) ++ ',' ::
      (formatInt ((sector.tdiv chs.sectors).tmod chs.heads) ++ ',' ::
        formatInt (sector.tmod chs.sectors))
  | .cylinder => formatInt (byte.tdiv (cylSize dev * dev.sectorSize)) ++ ['c', 'y', 'l']
  | .sector => formatInt (byte.tdiv dev.sectorSize) ++ ['s']
  | .byte => formatInt (byte.tdiv 1) ++ ['B']
  | unit => formatReal dev byte unit

/-- `ped_unit_format_custom`. -/
def pedUnitFormatCustom (formatReal : PedDevice → ℤ → PedUnit → List Char) (dev : PedDevice)
    (sector : ℤ) (unit : PedUnit) : List Char :=
  pedUnitFormatCustomByte formatReal dev (sector * dev.sectorSize) unit

/-- What is thrown when a location cannot be read. -/
inductive LocationException where
  /-- `"\"%s\" has invalid syntax for locations."` -/
  | invalidSyntax (copy : List Char)
  /-- `"The maximum head value is %d."` -/
  | maximumHead (head : ℤ)
  /-- `"The maximum sector value is %d."` -/
  | maximumSector (sector : ℤ)
  /-- `"The location %s is outside of the device %s."` -/
  | outside (str : List Char) (path : String)
  /-- What `ped_geometry_new` throws. -/
  | noGeometry
deriving DecidableEq

/-- `parse_chs`, with a pointer for the range: the sector and the range, or what is thrown before 0
is returned. -/
def parseChs (str : List Char) (dev : PedDevice) :
    Except Fault (Except LocationException (ℤ × PedGeometry)) := do
  let copy := removePunct (stripString str)
  match ← scanThree copy with
  | none => return .error (.invalidSyntax copy)
  | some (cylinders, heads, sectors) =>
    if heads ≥ dev.biosGeom.heads then return .error (.maximumHead (dev.biosGeom.heads - 1))
    if sectors ≥ dev.biosGeom.sectors then return .error (.maximumSector (dev.biosGeom.sectors - 1))
    let sector := cylinders * cylSize dev + heads * dev.biosGeom.sectors + sectors
    if sector ≥ dev.length then return .error (.outside str dev.path)
    match ← pedGeometrySet sector 1 with
    | none => return .error .noGeometry
    | some range => return .ok (sector, range)

/-- `ped_unit_parse_custom`, given what is done with a number and a unit. -/
def pedUnitParseCustom (parseNumber : List Char → PedDevice → PedUnit →
      Except Fault (Except LocationException (ℤ × PedGeometry)))
    (str : List Char) (dev : PedDevice) (unit : PedUnit) :
    Except Fault (Except LocationException (ℤ × PedGeometry)) :=
  if isChs str then parseChs str dev else parseNumber str dev unit

/-! ## Taking out spaces -/

section Strip

variable {str before rest : List Char} {c : Char}

/-- What is behind a character is moved down, and the last one stays where it is as well. -/
theorem moveDown_eq {fuel : ℕ} (hfuel : rest.length ≤ fuel) :
    moveDown fuel (before ++ c :: rest) (before.length + 1)
      = before ++ (rest ++ [(c :: rest).getLast (List.cons_ne_nil _ _)]) := by
  -- the induction is on what is still to be moved
  induction rest generalizing before c fuel with
  | nil =>
    cases fuel with
    | zero => rfl
    | succ fuel =>
      rw [moveDown, List.getElem?_eq_none (by simp)]
      rfl
  | cons d rest ih =>
    obtain ⟨fuel, rfl⟩ := Nat.exists_eq_add_one_of_ne_zero (show fuel ≠ 0 by
      rw [List.length_cons] at hfuel
      omega)
    have hget : (before ++ c :: d :: rest)[before.length + 1]? = some d := by
      rw [List.getElem?_append_right (by omega)]
      simp
    have hset : (before ++ c :: d :: rest).set (before.length + 1 - 1) d
        = (before ++ [d]) ++ d :: rest := by
      rw [Nat.add_sub_cancel, List.set_append_right _ _ le_rfl, Nat.sub_self]
      simp
    have hnext := @ih (before ++ [d]) d fuel (by rw [List.length_cons] at hfuel; omega)
    rw [List.length_append, List.length_singleton] at hnext
    rw [moveDown, hget]
    dsimp only
    rw [hset, hnext]
    simp

theorem stripFrom_cons {fuel : ℕ} (hc : isspace c = false) :
    stripFrom (fuel + 1) (before ++ c :: rest) before.length
      = stripFrom fuel (before ++ c :: rest) (before.length + 1) := by
  rw [stripFrom, List.getElem?_append_right le_rfl, Nat.sub_self]
  simp only [List.getElem?_cons_zero, hc, Bool.false_eq_true, if_false]

theorem stripFrom_space {fuel : ℕ} (hc : isspace c = true) :
    stripFrom (fuel + 1) (before ++ c :: rest) before.length
      = stripFrom fuel (before ++ (rest ++ [(c :: rest).getLast (List.cons_ne_nil _ _)]))
        (before.length + 1) := by
  rw [stripFrom, List.getElem?_append_right le_rfl, Nat.sub_self]
  simp only [List.getElem?_cons_zero, hc, if_true]
  rw [moveDown_eq (by rw [List.length_append, List.length_cons]; omega)]

theorem length_moveDown {fuel j : ℕ} : (moveDown fuel str j).length = str.length := by
  induction fuel generalizing str j with
  | zero => rfl
  | succ fuel ih =>
    rw [moveDown]
    split
    · rfl
    · rw [ih, List.length_set]

theorem length_stripFrom {fuel i : ℕ} : (stripFrom fuel str i).length = str.length := by
  induction fuel generalizing str i with
  | zero => rfl
  | succ fuel ih =>
    rw [stripFrom]
    split
    · rfl
    · rw [ih]
      split_ifs
      · exact length_moveDown
      · rfl

theorem length_stripString (str : List Char) : (stripString str).length = str.length :=
  length_stripFrom

/-- A text without spaces stays as it is. -/
theorem stripFrom_of_no_space (hrest : ∀ c ∈ rest, isspace c = false) {fuel : ℕ} :
    stripFrom fuel (before ++ rest) before.length = before ++ rest := by
  induction fuel generalizing before rest with
  | zero => rfl
  | succ fuel ih =>
    cases rest with
    | nil =>
      rw [stripFrom, List.getElem?_eq_none (by simp)]
    | cons c rest =>
      have hnext := @ih (before ++ [c]) rest fun d hd => hrest d (List.mem_cons_of_mem c hd)
      rw [List.length_append, List.length_singleton, List.append_assoc, List.singleton_append]
        at hnext
      rw [stripFrom_cons (hrest c List.mem_cons_self), hnext]

theorem stripString_of_no_space (h : ∀ c ∈ str, isspace c = false) : stripString str = str :=
  @stripFrom_of_no_space [] str h str.length

/-- **The spaces are taken out** of a text that has none. -/
theorem stripString_eq_filter_iff :
    stripString str = str.filter (fun c => !isspace c) ↔ ∀ c ∈ str, isspace c = false := by
  constructor
  · intro h
    have hlength := congrArg List.length h
    rw [length_stripString] at hlength
    have hall := List.length_filter_eq_length_iff.mp hlength.symm
    intro c hc
    simpa using hall c hc
  · intro h
    rw [stripString_of_no_space h, List.filter_eq_self.mpr]
    intro c hc
    rw [h c hc]
    rfl

/-- What is left of a text when each space that is seen is taken out: the character that moves into
its place is not looked at. -/
def dropSeen : List Char → List Char
  | [] => []
  | [c] => if isspace c then [] else [c]
  | c :: d :: rest => if isspace c then d :: dropSeen rest else c :: dropSeen (d :: rest)

/-- **Each space that is taken out** gives another copy of the last character. -/
theorem stripFrom_append {z : Char} (hz : isspace z = false) (u : List Char) {m fuel : ℕ}
    (hfuel : u.length ≤ fuel) :
    ∃ n, (dropSeen u).length + n = u.length + m + 1 ∧
      stripFrom fuel (before ++ (u ++ List.replicate (m + 1) z)) before.length
        = before ++ (dropSeen u ++ List.replicate n z) := by
  have hreplicate : ∀ n, ∀ c ∈ List.replicate n z, isspace c = false := fun n c hc =>
    List.eq_of_mem_replicate hc ▸ hz
  have hlast : ∀ (m : ℕ) (c : Char) (u : List Char),
      (c :: (u ++ List.replicate (m + 1) z)).getLast (List.cons_ne_nil _ _) = z := by
    intro m c u
    rw [List.getLast_cons (by simp), List.getLast_append_of_ne_nil _ (by simp),
      List.getLast_replicate]
  have hstep : ∀ (before : List Char) (c : Char) (rest : List Char) (fuel : ℕ),
      stripFrom fuel (before ++ c :: rest) (before.length + 1)
        = stripFrom fuel ((before ++ [c]) ++ rest) (before ++ [c]).length := by
    intro before c rest fuel
    rw [List.length_append, List.length_singleton, List.append_assoc, List.singleton_append]
  -- the induction follows `dropSeen`
  induction u using dropSeen.induct generalizing before m fuel with
  | case1 => exact ⟨m + 1, by simp [dropSeen], stripFrom_of_no_space (hreplicate _)⟩
  | case2 c hc =>
    obtain ⟨fuel, rfl⟩ := Nat.exists_eq_add_one_of_ne_zero (show fuel ≠ 0 by
      rw [List.length_singleton] at hfuel
      omega)
    refine ⟨m + 2, by simp [dropSeen, hc]; omega, ?_⟩
    rw [List.singleton_append, stripFrom_space hc, show (c :: List.replicate (m + 1) z).getLast
      (List.cons_ne_nil _ _) = z from hlast m c [], dropSeen, if_pos hc, List.nil_append,
      ← List.replicate_succ', List.replicate_succ, hstep, stripFrom_of_no_space (hreplicate _)]
    simp
  | case3 c hc =>
    obtain ⟨fuel, rfl⟩ := Nat.exists_eq_add_one_of_ne_zero (show fuel ≠ 0 by
      rw [List.length_singleton] at hfuel
      omega)
    refine ⟨m + 1, by simp [dropSeen, hc]; omega, ?_⟩
    rw [List.singleton_append, stripFrom_cons (by simpa using hc), dropSeen, if_neg hc, hstep,
      stripFrom_of_no_space (hreplicate _)]
    simp
  | case4 c d rest hc ih =>
    obtain ⟨fuel, rfl⟩ := Nat.exists_eq_add_one_of_ne_zero (show fuel ≠ 0 by
      rw [List.length_cons] at hfuel
      omega)
    obtain ⟨n, hn, hrest⟩ := @ih (before ++ [d]) (m + 1) fuel
      (by simp only [List.length_cons] at hfuel; omega)
    refine ⟨n, by simp only [dropSeen, hc, if_true, List.length_cons]; omega, ?_⟩
    rw [List.cons_append, stripFrom_space hc, hlast, List.append_assoc, ← List.replicate_succ',
      List.cons_append, hstep, hrest, dropSeen, if_pos hc]
    simp
  | case5 c d rest hc ih =>
    obtain ⟨fuel, rfl⟩ := Nat.exists_eq_add_one_of_ne_zero (show fuel ≠ 0 by
      rw [List.length_cons] at hfuel
      omega)
    obtain ⟨n, hn, hrest⟩ := @ih (before ++ [c]) m fuel
      (by simp only [List.length_cons] at hfuel ⊢; omega)
    refine ⟨n, ?_, ?_⟩
    · simp only [dropSeen, hc, List.length_cons] at hn ⊢
      simp only [Bool.false_eq_true, if_false, List.length_cons]
      omega
    · rw [List.cons_append, stripFrom_cons (by simpa using hc), hstep, hrest, dropSeen, if_neg hc]
      simp

theorem dropSeen_cons (hc : isspace c = false) : dropSeen (c :: rest) = c :: dropSeen rest := by
  cases rest <;> simp [dropSeen, hc]

theorem dropSeen_append (hbefore : ∀ c ∈ before, isspace c = false) :
    dropSeen (before ++ rest) = before ++ dropSeen rest := by
  induction before with
  | nil => rfl
  | cons c before ih =>
    rw [List.cons_append, dropSeen_cons (hbefore c List.mem_cons_self),
      ih fun d hd => hbefore d (List.mem_cons_of_mem c hd), List.cons_append]

/-- Half of the spaces in a row are left. -/
theorem dropSeen_spaces (a : ℕ) :
    dropSeen (List.replicate a ' ') = List.replicate (a / 2) ' ' := by
  induction a using Nat.twoStepInduction with
  | zero => rfl
  | one => rfl
  | more a ih =>
    rw [List.replicate_succ, List.replicate_succ, dropSeen, if_pos (by decide), ih,
      Nat.add_div_right a (by decide), List.replicate_succ]

theorem dropSeen_spaces_cons (hc : isspace c = false) (a : ℕ) :
    dropSeen (List.replicate a ' ' ++ c :: rest)
      = List.replicate (a / 2) ' ' ++ c :: dropSeen rest := by
  induction a using Nat.twoStepInduction with
  | zero => exact dropSeen_cons hc
  | one => rfl
  | more a ih =>
    rw [List.replicate_succ, List.replicate_succ, List.cons_append, List.cons_append, dropSeen,
      if_pos (by decide), ih, Nat.add_div_right a (by decide), List.replicate_succ,
      List.cons_append]

end Strip

/-! ## Scanning -/

section Scan

variable {str digits rest : List Char} {c : Char}

theorem isDigit_iff : c.isDigit = true ↔ 48 ≤ c.toNat ∧ c.toNat ≤ 57 := by
  rw [Char.isDigit, Bool.and_eq_true, decide_eq_true_iff, decide_eq_true_iff]
  rfl

theorem not_isspace_of_isDigit (h : c.isDigit = true) : isspace c = false := by
  have := isDigit_iff.mp h
  exact decide_eq_false (by omega)

theorem not_ispunct_of_isDigit (h : c.isDigit = true) : ispunct c = false := by
  have := isDigit_iff.mp h
  exact decide_eq_false (by omega)

/-- A number is scanned up to its end. -/
theorem scanInt_eq {k : ℕ} (hne : digits ≠ []) (hdigits : ∀ c ∈ digits, c.isDigit = true)
    (hrest : ∀ c ∈ rest.head?, c.isDigit = false) :
    scanInt (List.replicate k ' ' ++ (digits ++ rest))
      = if Nat.ofDigitChars 10 digits 0 < 2 ^ 31
        then .ok (some ((Nat.ofDigitChars 10 digits 0 : ℤ), rest))
        else .error (.undefined "sscanf") := by
  obtain ⟨d, digits', rfl⟩ := List.exists_cons_of_ne_nil hne
  have hd := hdigits d List.mem_cons_self
  have hstart : (List.replicate k ' ' ++ (d :: digits' ++ rest)).dropWhile isspace
      = d :: digits' ++ rest := by
    rw [List.dropWhile_append_of_pos
      fun c hc => by rw [List.eq_of_mem_replicate hc]; decide]
    exact List.dropWhile_cons_of_neg (by rw [not_isspace_of_isDigit hd]; decide)
  have hsign : (match (d :: digits' ++ rest : List Char) with
      | '-' :: str => ((-1 : ℤ), str)
      | '+' :: str => (1, str)
      | str => (1, str)) = (1, d :: digits' ++ rest) := by
    rw [List.cons_append]
    split
    · next heq =>
      obtain ⟨rfl, -⟩ := List.cons.inj heq
      exact absurd hd (by decide)
    · next heq =>
      obtain ⟨rfl, -⟩ := List.cons.inj heq
      exact absurd hd (by decide)
    · rfl
  have htake : (d :: digits' ++ rest).takeWhile Char.isDigit = d :: digits' := by
    rw [List.takeWhile_append_of_pos hdigits]
    cases rest with
    | nil => simp
    | cons c rest =>
      rw [List.takeWhile_cons_of_neg (by rw [hrest c rfl]; decide), List.append_nil]
  have hdrop : (d :: digits' ++ rest).dropWhile Char.isDigit = rest := by
    rw [List.dropWhile_append_of_pos hdigits]
    cases rest with
    | nil => rfl
    | cons c rest => exact List.dropWhile_cons_of_neg (by rw [hrest c rfl]; decide)
  unfold scanInt
  dsimp only
  rw [hstart, hsign]
  dsimp only
  rw [htake, hdrop, if_neg (List.cons_ne_nil _ _), Int.one_mul]
  by_cases hfits : Nat.ofDigitChars 10 (d :: digits') 0 < 2 ^ 31
  · rw [if_pos hfits, if_pos (by constructor <;> omega)]
  · rw [if_neg hfits, if_neg (by omega)]

theorem scanInt_end {k : ℕ} (hne : digits ≠ []) (hdigits : ∀ c ∈ digits, c.isDigit = true) :
    scanInt (List.replicate k ' ' ++ digits)
      = if Nat.ofDigitChars 10 digits 0 < 2 ^ 31
        then .ok (some ((Nat.ofDigitChars 10 digits 0 : ℤ), []))
        else .error (.undefined "sscanf") := by
  have h := scanInt_eq (k := k) hne hdigits (show ∀ c ∈ ([] : List Char).head?, c.isDigit = false
    from nofun)
  rwa [List.append_nil] at h

theorem isDigit_of_mem {n : ℕ} (h : c ∈ Nat.toDigits 10 n) : c.isDigit = true :=
  Nat.isDigit_of_mem_toDigits (by decide) (by decide) h

/-- **A number whose last digit is repeated** is another one, unless it is 0. -/
theorem ofDigitChars_repeat_iff {n m : ℕ} {init : List Char} {z : Char}
    (h : Nat.toDigits 10 n = init ++ [z]) :
    Nat.ofDigitChars 10 (init ++ List.replicate (m + 1) z) 0 = n ↔ m = 0 ∨ n = 0 := by
  have hvalue : Nat.ofDigitChars 10 (init ++ List.replicate (m + 1) z) 0
      = 10 ^ m * n + Nat.ofDigitChars 10 (List.replicate m z) 0 := by
    rw [List.replicate_succ, ← List.singleton_append, ← List.append_assoc, ← h,
      Nat.ofDigitChars_append, Nat.ofDigitChars_toDigits (by decide) (by decide),
      Nat.ofDigitChars_eq_ofDigitChars_zero, List.length_replicate]
  rw [hvalue]
  constructor
  · intro hsame
    by_contra hne
    obtain ⟨m, rfl⟩ := Nat.exists_eq_add_one_of_ne_zero (show m ≠ 0 by omega)
    have : 1 ≤ 10 ^ m := Nat.one_le_pow _ _ (by decide)
    have : n ≤ 10 ^ m * n := Nat.le_mul_of_pos_left _ (by omega)
    rw [Nat.pow_succ, Nat.mul_assoc, Nat.mul_comm 10 n, ← Nat.mul_assoc] at hsame
    omega
  · rintro (rfl | rfl)
    · simp [Nat.ofDigitChars]
    · have hz : z = '0' := by
        rw [Nat.toDigits_zero] at h
        have := congrArg List.getLast? h
        simpa using this.symm
      rw [hz, Nat.ofDigitChars_replicate_zero]
      simp

end Scan

/-! ## Locations that are read back -/

/-- The text with spaces behind some of the commas. -/
inductive Spaced : List Char → List Char → Prop
  | nil : Spaced [] []
  | other {c : Char} {t t' : List Char} (hc : c ≠ ',') (h : Spaced t t') : Spaced (c :: t) (c :: t')
  | comma {t t' : List Char} (k : ℕ) (h : Spaced t t') :
      Spaced (',' :: t) (',' :: (List.replicate k ' ' ++ t'))

section Location

variable {t text before : List Char} {dev : PedDevice} {sector : ℤ}

theorem spaced_append (hbefore : ∀ c ∈ before, c ≠ ',') (h : Spaced (before ++ t) text) :
    ∃ text', text = before ++ text' ∧ Spaced t text' := by
  induction before generalizing text with
  | nil => exact ⟨text, rfl, h⟩
  | cons c before ih =>
    rw [List.cons_append] at h
    cases h with
    | other hc h =>
      obtain ⟨text', rfl, h'⟩ := ih (fun d hd => hbefore d (List.mem_cons_of_mem c hd)) h
      exact ⟨text', rfl, h'⟩
    | comma k h => exact absurd rfl (hbefore _ List.mem_cons_self)

theorem spaced_comma (h : Spaced (',' :: t) text) :
    ∃ k text', text = ',' :: (List.replicate k ' ' ++ text') ∧ Spaced t text' := by
  cases h with
  | other hc h => exact absurd rfl hc
  | comma k h => exact ⟨k, _, rfl, h⟩

theorem spaced_nil (h : Spaced [] text) : text = [] := by
  cases h
  rfl

theorem ne_comma_of_mem {n : ℕ} {c : Char} (h : c ∈ Nat.toDigits 10 n) : c ≠ ',' := by
  rintro rfl
  exact absurd (isDigit_of_mem h) (by decide)

/-- The location of a sector with spaces in it. -/
def location (c h s a b : ℕ) : List Char :=
  Nat.toDigits 10 c ++ ',' :: (List.replicate a ' ' ++ (Nat.toDigits 10 h ++ ',' ::
    (List.replicate b ' ' ++ Nat.toDigits 10 s)))

theorem location_of_spaced {c h s : ℕ}
    (hspaced : Spaced (Nat.toDigits 10 c ++ ',' :: (Nat.toDigits 10 h ++ ',' :: Nat.toDigits 10 s))
      text) : ∃ a b, text = location c h s a b := by
  obtain ⟨t₁, rfl, h₁⟩ := spaced_append (fun _ hc => ne_comma_of_mem hc) hspaced
  obtain ⟨a, t₂, rfl, h₂⟩ := spaced_comma h₁
  obtain ⟨t₃, rfl, h₃⟩ := spaced_append (fun _ hc => ne_comma_of_mem hc) h₂
  obtain ⟨b, t₄, rfl, h₄⟩ := spaced_comma h₃
  rw [← List.append_nil (Nat.toDigits 10 s)] at h₄
  obtain ⟨t₅, rfl, h₅⟩ := spaced_append (fun _ hc => ne_comma_of_mem hc) h₄
  rw [spaced_nil h₅, List.append_nil]
  exact ⟨a, b, rfl⟩

theorem removePunct_digits (h : ∀ c ∈ t, c.isDigit = true) : removePunct t = t := by
  rw [removePunct, List.map_congr_left (g := id) fun c hc => ?_, List.map_id]
  rw [if_neg (by rw [not_ispunct_of_isDigit (h c hc)]; decide), id]

theorem removePunct_append : removePunct (before ++ t) = removePunct before ++ removePunct t :=
  List.map_append

/-- The text that is scanned: half of the spaces are left, and the last digit is repeated. -/
theorem removePunct_stripString_location {c h s a b : ℕ} {init : List Char} {z : Char}
    (hs : Nat.toDigits 10 s = init ++ [z]) :
    removePunct (stripString (location c h s a b))
      = Nat.toDigits 10 c ++ (List.replicate (a / 2 + 1) ' ' ++ (Nat.toDigits 10 h ++
        (List.replicate (b / 2 + 1) ' ' ++
          (init ++ List.replicate (a - a / 2 + (b - b / 2) + 1) z)))) := by
  have hdigits : ∀ d ∈ init ++ [z], d.isDigit = true := fun d hd => isDigit_of_mem (hs ▸ hd)
  have hspace : ∀ {n : ℕ}, ∀ d ∈ Nat.toDigits 10 n, isspace d = false := fun d hd =>
    not_isspace_of_isDigit (isDigit_of_mem hd)
  have hz : z.isDigit = true := hdigits z (by simp)
  have hinit : ∀ d ∈ init, d.isDigit = true := fun d hd => hdigits d (List.mem_append_left _ hd)
  set u := Nat.toDigits 10 c ++ ',' :: (List.replicate a ' ' ++ (Nat.toDigits 10 h ++ ',' ::
    (List.replicate b ' ' ++ init))) with hu
  have hlocation : location c h s a b = u ++ List.replicate (0 + 1) z := by
    rw [location, hs, hu]
    simp
  have hdrop : dropSeen u = Nat.toDigits 10 c ++ ',' :: (List.replicate (a / 2) ' ' ++
      (Nat.toDigits 10 h ++ ',' :: (List.replicate (b / 2) ' ' ++ init))) := by
    have hlast : dropSeen (List.replicate b ' ' ++ init) = List.replicate (b / 2) ' ' ++ init := by
      cases init with
      | nil => rw [List.append_nil, List.append_nil, dropSeen_spaces]
      | cons d init =>
        rw [dropSeen_spaces_cons (not_isspace_of_isDigit (hinit d List.mem_cons_self)),
          ← List.append_nil init, dropSeen_append
          fun e he => not_isspace_of_isDigit (hinit e (List.mem_cons_of_mem d he))]
        rfl
    obtain ⟨d, digits, hh⟩ := List.exists_cons_of_ne_nil (Nat.toDigits_ne_nil (n := h) (b := 10))
    have hhead : ∀ e ∈ d :: digits, isspace e = false := hh ▸ hspace
    rw [hu, dropSeen_append hspace, dropSeen_cons (by decide), hh, List.cons_append,
      dropSeen_spaces_cons (hhead d List.mem_cons_self),
      dropSeen_append fun e he => hhead e (List.mem_cons_of_mem d he), dropSeen_cons (by decide),
      hlast, List.cons_append]
  obtain ⟨n, hn, hstrip⟩ := @stripFrom_append [] z (not_isspace_of_isDigit hz) u 0
    (location c h s a b).length (by
      rw [hlocation]
      exact (List.length_append ▸ Nat.le_add_right _ _ : u.length ≤ (u ++ _).length))
  have hcopies : n = a - a / 2 + (b - b / 2) + 1 := by
    rw [hdrop, hu] at hn
    simp only [List.length_append, List.length_cons, List.length_replicate] at hn
    omega
  rw [stripString]
  nth_rewrite 2 [hlocation]
  rw [List.nil_append, List.length_nil] at hstrip
  rw [hstrip, hdrop, hcopies, List.nil_append]
  have hcomma : ∀ w : List Char, removePunct (',' :: w) = ' ' :: removePunct w := fun w => rfl
  have hspaces : ∀ k, removePunct (List.replicate k ' ') = List.replicate k ' ' := fun k => by
    rw [removePunct, List.map_replicate]
    rfl
  simp only [removePunct_append, hcomma, hspaces, List.append_assoc, List.cons_append]
  rw [removePunct_digits fun d hd => isDigit_of_mem hd,
    removePunct_digits fun d hd => isDigit_of_mem hd, removePunct_digits hinit,
    removePunct_digits fun d hd => List.eq_of_mem_replicate hd ▸ hz, List.replicate_succ,
    List.replicate_succ (n := b / 2)]
  rfl

/-- What is scanned in a location. -/
theorem scanThree_location {c h s a b : ℕ} {init : List Char} {z : Char}
    (hs : Nat.toDigits 10 s = init ++ [z]) (hc : c < 2 ^ 31) (hh : h < 2 ^ 31) :
    scanThree (removePunct (stripString (location c h s a b)))
      = if Nat.ofDigitChars 10 (init ++ List.replicate (a - a / 2 + (b - b / 2) + 1) z) 0 < 2 ^ 31
        then .ok (some ((c : ℤ), (h : ℤ),
          (Nat.ofDigitChars 10 (init ++ List.replicate (a - a / 2 + (b - b / 2) + 1) z) 0 : ℤ)))
        else .error (.undefined "sscanf") := by
  have hdigits : ∀ d ∈ init ++ List.replicate (a - a / 2 + (b - b / 2) + 1) z,
      d.isDigit = true := by
    intro d hd
    refine isDigit_of_mem (n := s) (hs ▸ ?_)
    rcases List.mem_append.mp hd with hd | hd
    · exact List.mem_append_left _ hd
    · rw [List.eq_of_mem_replicate hd]
      simp
  have hspaces : ∀ (k : ℕ) (w : List Char), ∀ d ∈ (List.replicate (k + 1) ' ' ++ w).head?,
      d.isDigit = false := by
    intro k w d hd
    rw [List.replicate_succ, List.cons_append, List.head?_cons, Option.mem_def] at hd
    obtain rfl := Option.some.inj hd
    decide
  have hvalue : ∀ n : ℕ, Nat.ofDigitChars 10 (Nat.toDigits 10 n) 0 = n := fun n =>
    Nat.ofDigitChars_toDigits (by decide) (by decide)
  rw [removePunct_stripString_location hs, scanThree]
  rw [← List.nil_append (Nat.toDigits 10 c ++ _), ← List.replicate_zero (a := ' '),
    scanInt_eq Nat.toDigits_ne_nil (fun d hd => isDigit_of_mem hd) (hspaces _ _), hvalue,
    if_pos hc, ok_bind]
  dsimp only
  rw [scanInt_eq Nat.toDigits_ne_nil (fun d hd => isDigit_of_mem hd) (hspaces _ _), hvalue,
    if_pos hh, ok_bind]
  dsimp only
  rw [scanInt_end (by simp) hdigits]
  split_ifs <;> rfl

/-- A location as it is printed. -/
theorem pedUnitFormatCustom_chs {formatReal : PedDevice → ℤ → PedUnit → List Char}
    (hsize : 0 < dev.sectorSize) (hsector : 0 ≤ sector) :
    pedUnitFormatCustom formatReal dev sector .chs
      = Nat.toDigits 10 (sector / dev.biosGeom.sectors / dev.biosGeom.heads).toNat ++ ',' ::
        (Nat.toDigits 10 (sector / dev.biosGeom.sectors % dev.biosGeom.heads).toNat ++ ',' ::
          Nat.toDigits 10 (sector % dev.biosGeom.sectors).toNat) := by
  have hs := dev.biosGeom.sectors_pos
  have hh := dev.biosGeom.heads_pos
  have htrack : 0 ≤ sector / dev.biosGeom.sectors := Int.ediv_nonneg hsector hs.le
  have hformat : ∀ n : ℤ, 0 ≤ n → formatInt n = Nat.toDigits 10 n.toNat := fun n hn =>
    if_neg (by omega)
  rw [pedUnitFormatCustom, pedUnitFormatCustomByte, Int.mul_tdiv_cancel _ (by omega),
    Int.tdiv_eq_ediv_of_nonneg hsector, Int.tdiv_eq_ediv_of_nonneg htrack,
    Int.tmod_eq_emod_of_nonneg htrack, Int.tmod_eq_emod_of_nonneg hsector, hformat _ (Int.ediv_nonneg htrack hh.le),
    hformat _ (Int.emod_nonneg _ hh.ne'), hformat _ (Int.emod_nonneg _ hs.ne')]

theorem isChs_location (c h s a b : ℕ) : isChs (location c h s a b) = true := by
  have hdigits : ∀ n : ℕ, (Nat.toDigits 10 n).countP ispunct = 0 := fun n =>
    List.countP_eq_zero.mpr fun d hd => by rw [not_ispunct_of_isDigit (isDigit_of_mem hd)]; decide
  have hspaces : ∀ k : ℕ, (List.replicate k ' ').countP ispunct = 0 := fun k =>
    List.countP_eq_zero.mpr fun d hd => by rw [List.eq_of_mem_replicate hd]; decide
  have hcomma : ispunct ',' = true := by decide
  unfold isChs location
  simp [List.countP_append, hdigits, hspaces, hcomma]

/-- There are no spaces in a location if none have been inserted. -/
theorem no_space_location_iff {c h s a b : ℕ} :
    (∀ d ∈ location c h s a b, isspace d = false) ↔ a = 0 ∧ b = 0 := by
  have hdigits : ∀ n : ℕ, ∀ d ∈ Nat.toDigits 10 n, isspace d = false := fun n d hd =>
    not_isspace_of_isDigit (isDigit_of_mem hd)
  constructor
  · intro h
    by_contra hne
    refine absurd (h ' ' ?_) (by decide)
    unfold location
    simp only [List.mem_append, List.mem_cons, List.mem_replicate]
    tauto
  · rintro ⟨rfl, rfl⟩ d hd
    unfold location at hd
    simp only [List.replicate_zero, List.nil_append, List.mem_append, List.mem_cons] at hd
    rcases hd with hd | rfl | hd | rfl | hd
    · exact hdigits _ d hd
    · decide
    · exact hdigits _ d hd
    · decide
    · exact hdigits _ d hd

end Location

/-- **Locations are read back** when they have no spaces, or the number of the sector in its track
is 0; and spaces are taken out of a text when there are none. -/
theorem pedUnitParseCustom_format_iff (formatReal : PedDevice → ℤ → PedUnit → List Char)
    (parseNumber : List Char → PedDevice → PedUnit →
      Except Fault (Except LocationException (ℤ × PedGeometry)))
    (dev : PedDevice) (unit : PedUnit) (sector : ℤ) (text : List Char)
    (hsize : 0 < dev.sectorSize) (hheads : dev.biosGeom.heads ≤ 255)
    (hsectors : dev.biosGeom.sectors ≤ 255) (hsector : 0 ≤ sector ∧ sector < dev.length)
    (hcylinder : sector / dev.biosGeom.sectors / dev.biosGeom.heads < 2 ^ 31)
    (htext : Spaced (pedUnitFormatCustom formatReal dev sector .chs) text) :
    ((∃ range, pedUnitParseCustom parseNumber text dev unit = .ok (.ok (sector, range)) ∧
        range.start = sector ∧ range.length = 1) ↔
      (∀ c ∈ text, isspace c = false) ∨ sector % dev.biosGeom.sectors = 0) ∧
    ∀ str : List Char, stripString str = str.filter (fun c => !isspace c) ↔
      ∀ c ∈ str, isspace c = false := by
  refine ⟨?_, fun str => stripString_eq_filter_iff⟩
  have hs := dev.biosGeom.sectors_pos
  have hh := dev.biosGeom.heads_pos
  have htrack : 0 ≤ sector / dev.biosGeom.sectors := Int.ediv_nonneg hsector.1 hs.le
  have hc0 := Int.ediv_nonneg htrack hh.le
  have hh0 := Int.emod_nonneg (sector / dev.biosGeom.sectors) hh.ne'
  have hh1 := Int.emod_lt_of_pos (sector / dev.biosGeom.sectors) hh
  have hs0 := Int.emod_nonneg sector hs.ne'
  have hs1 := Int.emod_lt_of_pos sector hs
  rw [pedUnitFormatCustom_chs hsize hsector.1] at htext
  obtain ⟨a, b, rfl⟩ := location_of_spaced htext
  rw [no_space_location_iff, pedUnitParseCustom, if_pos (isChs_location _ _ _ _ _), parseChs]
  set c := sector / dev.biosGeom.sectors / dev.biosGeom.heads
  set h := sector / dev.biosGeom.sectors % dev.biosGeom.heads
  set s := sector % dev.biosGeom.sectors
  have hdigits := (List.dropLast_append_getLast (Nat.toDigits_ne_nil (n := s.toNat) (b := 10))).symm
  rw [scanThree_location hdigits (by omega) (by omega)]
  have hrepeat := ofDigitChars_repeat_iff (m := a - a / 2 + (b - b / 2)) hdigits
  set v := Nat.ofDigitChars 10 ((Nat.toDigits 10 s.toNat).dropLast ++ List.replicate
    (a - a / 2 + (b - b / 2) + 1) ((Nat.toDigits 10 s.toNat).getLast Nat.toDigits_ne_nil)) 0
  have hright : (a = 0 ∧ b = 0 ∨ s = 0) ↔ (v : ℤ) = s := by omega
  have hsplit : c * cylSize dev + h * dev.biosGeom.sectors + s = sector := by
    have hinner : h + dev.biosGeom.heads * c = sector / dev.biosGeom.sectors :=
      Int.emod_add_mul_ediv _ _
    have houter : s + dev.biosGeom.sectors * (sector / dev.biosGeom.sectors) = sector :=
      Int.emod_add_mul_ediv _ _
    rw [← hinner] at houter
    rw [cylSize]
    linarith
  rw [hright]
  by_cases hv : v < 2 ^ 31
  · rw [if_pos hv, ok_bind]
    dsimp only
    rw [Int.toNat_of_nonneg hc0, Int.toNat_of_nonneg hh0, if_neg (by omega)]
    by_cases hmax : (v : ℤ) ≥ dev.biosGeom.sectors
    · rw [if_pos hmax]
      exact iff_of_false (fun ⟨range, hrange, _⟩ => nomatch hrange) (by omega)
    · rw [if_neg hmax]
      by_cases hout : c * cylSize dev + h * dev.biosGeom.sectors + v ≥ dev.length
      · rw [if_pos hout]
        exact iff_of_false (fun ⟨range, hrange, _⟩ => nomatch hrange) (by omega)
      · have hnonneg : 0 ≤ c * cylSize dev + h * dev.biosGeom.sectors + v := by
          have : 0 ≤ cylSize dev := Int.mul_nonneg hh.le hs.le
          positivity
        rw [if_neg hout, pedGeometrySet_eq hnonneg le_rfl, ok_bind]
        constructor
        · rintro ⟨range, hrange, -⟩
          have := congrArg Prod.fst (Except.ok.inj (Except.ok.inj hrange))
          dsimp only at this
          omega
        · intro hsame
          have hplace : c * cylSize dev + h * dev.biosGeom.sectors + v = sector := by omega
          exact ⟨⟨_, 1, hnonneg, le_rfl⟩, congrArg (fun x => Except.ok (Except.ok (x, _))) hplace,
            hplace, rfl⟩
  · rw [if_neg hv]
    exact iff_of_false (fun ⟨range, hrange, _⟩ => nomatch hrange) (by omega)

theorem trackedHeads_pos : (0 : ℤ) < 16 := by decide

theorem trackedSectors_pos : (0 : ℤ) < 63 := by decide

/-- A device with tracks of 63 sectors. -/
def trackedDevice : PedDevice :=
  ⟨"/dev/sda", 10000, 512, ⟨10, 16, 63, trackedHeads_pos, trackedSectors_pos⟩⟩

/-- Sector 126 is the first one of its track. -/
theorem pedUnitParseCustom_first_of_track :
    ∃ range, pedUnitParseCustom (fun _ _ _ => .ok (.error .noGeometry))
      ['0', ',', ' ', '2', ',', ' ', ' ', '0'] trackedDevice .chs = .ok (.ok (126, range)) ∧
        range.start = 126 ∧ range.length = 1 := by
  refine (pedUnitParseCustom_format_iff (fun _ _ _ => []) _ trackedDevice .chs 126 _ (by decide)
    (by decide) (by decide) (by decide) (by decide) ?_).1.mpr (Or.inr (by decide))
  exact .other (by decide) (.comma 1 (.other (by decide) (.comma 2 (.other (by decide) .nil))))

/-- With one space in it, the location of sector 1 is read as that of sector 11. -/
theorem pedUnitParseCustom_misread :
    Spaced (pedUnitFormatCustom (fun _ _ _ => []) trackedDevice 1 .chs)
        ['0', ',', '0', ',', ' ', '1'] ∧
      pedUnitParseCustom (fun _ _ _ => .ok (.error .noGeometry)) ['0', ',', '0', ',', ' ', '1']
        trackedDevice .chs = .ok (.ok (11, ⟨11, 1, by decide, by decide⟩)) := by
  refine ⟨?_, by decide⟩
  exact .other (by decide) (.comma 0 (.other (by decide) (.comma 1 (.other (by decide) .nil))))

end Libparted
