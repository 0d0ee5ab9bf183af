import Libparted.Geometry

/-!
# Wrapping text (`str_list_print_wrap` in `parted/strlist.c`)

Strings are printed one behind the other, and cut where a line is full.  A cut is made behind a word
or at a line break of the string, and the spaces around it are not printed.  The index `cut_left` of
the last character of a line moves to the left, first to a character that a line may be cut at
and then over spaces, until it is zero.

What a line is in the text is said without indices: the *room* is what fits into the line, and a
space behind it.  The line ends at the first line break of the room or else behind its last word
that ends in the room (`firstLine`), and has one character if there is no such word.

A line of one character is not printed, since `cut_left` is zero then.  And if a string is to
begin where the line is full, the character before the string is looked at.  **Nothing else goes
wrong**: all visible characters are printed exactly if there are no lines of a single visible
character and no string begins where the line is full, unless it begins with a space
(`strListPrintWrap_keeps_iff`).
-/

namespace Libparted.Parted

open Library

/-- The classes of characters that the locale has. -/
structure Wctype where
  iswalnum : Char → Bool
  iswpunct : Char → Bool
  iswalnum_newline : iswalnum '\n' = false
  iswpunct_newline : iswpunct '\n' = false

/-- `is_break_point`. -/
def isBreakPoint (wc : Wctype) (c : Char) : Bool := !wc.iswalnum c && !wc.iswpunct c

/-- `is_space`. -/
def isSpace (c : Char) : Bool := c == ' '

/-- `str [i]`; behind the last character there is a NUL. -/
def charAt (str : List Char) (i : ℤ) : Except Fault Char :=
  if 0 ≤ i ∧ i ≤ str.length then .ok (str.getD i.toNat (Char.ofNat 0))
  else .error (.undefined "str[i]")

/-- `while (cut_left && p (str [cut_left])) cut_left--;`, where the index is not negative. -/
def backFrom (p : Char → Bool) (str : List Char) : ℕ → Except Fault ℕ
  | 0 => .ok 0
  | cutLeft + 1 => do
      if p (← charAt str (cutLeft + 1 : ℕ)) then backFrom p str cutLeft else return cutLeft + 1

/-- `while (cut_left && p (str [cut_left])) cut_left--;` -/
def backWhile (p : Char → Bool) (str : List Char) (cutLeft : ℤ) : Except Fault ℤ := do
  if cutLeft < 0 then
    let _ ← charAt str cutLeft
  return (← backFrom p str cutLeft.toNat)

/-- The loop of `str_search`, with `n` characters to go. -/
def searchFrom (str : List Char) (c : Char) (i : ℕ) : ℕ → Except Fault (Option ℕ)
  | 0 => .ok none
  | n + 1 => do if (← charAt str i) = c then return some i else searchFrom str c (i + 1) n

/-- `str_search`. -/
def strSearch (str : List Char) (n : ℤ) (c : Char) : Except Fault (Option ℕ) :=
  searchFrom str c 0 n.toNat

/-- `for (…; cut_right < str_len && is_space (str [cut_right]); cut_right++);`, with `n` characters
to go. -/
def skipSpaces (str : List Char) (cutRight : ℤ) : ℕ → Except Fault ℤ
  | 0 => .ok cutRight
  | n + 1 => do
      if isSpace (← charAt str cutRight) then skipSpaces str (cutRight + 1) n
      else return cutRight

/-- The body of the `while` loop: what is printed of the string, what is left of it, and whether it
has been cut at a line break. -/
def cutLine (wc : Wctype) (lineLeft : ℤ) (str : List Char) :
    Except Fault (List Char × List Char × Bool) := do
  let cutLeft := min (lineLeft - 1) (str.length - 1)
  -- we can have a space "over", but not a comma
  let spaceOver ← if cutLeft < str.length then do pure (isSpace (← charAt str (cutLeft + 1)))
    else pure false
  let cutLeft := if spaceOver then cutLeft + 1 else cutLeft
  let cutLeft ← backWhile (fun c => !isBreakPoint wc c) str cutLeft
  let cutLeft ← backWhile isSpace str cutLeft
  let searchResult ← strSearch str (cutLeft + 1) '\n'
  let (cutLeft, lineBreak) : ℤ × Bool := match searchResult with
    | some i => (i - 1, true)
    | none => (cutLeft, false)
  let cutRight := cutLeft + if lineBreak then 2 else 1
  let cutRight ← skipSpaces str cutRight (str.length - cutRight).toNat
  let printed := if cutLeft > 0 then str.take (cutLeft + 1).toNat else []
  return (printed, str.drop cutRight.toNat, lineBreak)

/-- The `while` loop for a string.  `next` says whether there is another string, and `out` is what
has been printed.  Every line takes a character of the string. -/
def wrapString (wc : Wctype) (lineLength indent : ℤ) (next : Bool) :
    ℕ → ℤ → List Char → List Char → Except Fault (ℤ × List Char)
  | 0, _, _, _ => .error .outOfFuel
  | fuel + 1, lineLeft, str, out => do
      if lineLeft < str.length ∨ '\n' ∈ str then
        let (printed, rest, lineBreak) ← cutLine wc lineLeft str
        let lineEnd :=
          if next || !rest.isEmpty then '\n' :: List.replicate indent.natAbs ' '
          else if lineBreak then ['\n']
          else []
        wrapString wc lineLength indent next fuel (lineLength - indent) rest
          (out ++ printed ++ lineEnd)
      else
        return (lineLeft - str.length, out ++ str)

/-- The `for` loop over the strings. -/
def wrapStrings (wc : Wctype) (lineLength indent : ℤ) :
    List (Option (List Char)) → ℤ → List Char → Except Fault (List Char)
  | [], _, out => .ok out
  | none :: list, lineLeft, out => wrapStrings wc lineLength indent list lineLeft out
  | some str :: list, lineLeft, out => do
      let (lineLeft, out) ←
        wrapString wc lineLength indent (!list.isEmpty) (str.length + 1) lineLeft str out
      wrapStrings wc lineLength indent list lineLeft out

/-- `str_list_print_wrap`: what is printed. -/
def strListPrintWrap (wc : Wctype) (list : List (Option (List Char)))
    (lineLength offset indent : ℤ) : Except Fault (List Char) := do
  pedAssert (decide (lineLength - indent > 10)) "line_length - indent > 10"
  wrapStrings wc lineLength indent list (lineLength - offset) []

/-! ## Lines -/

/-- What fits into the line, and a space behind it. -/
def room (lineLeft : ℤ) (str : List Char) : List Char :=
  str.take (lineLeft.toNat + if str[lineLeft.toNat]? = some ' ' then 1 else 0)

/-- The words of the room that end in it, without the spaces behind them. -/
def wholeWords (wc : Wctype) (room : List Char) : List Char :=
  (room.rdropWhile fun c => !isBreakPoint wc c).rdropWhile isSpace

/-- The first line of the string. -/
def firstLine (wc : Wctype) (lineLeft : ℤ) (str : List Char) : List Char :=
  if '\n' ∈ room lineLeft str then str.takeWhile (· ≠ '\n')
  else str.take (max 1 (wholeWords wc (room lineLeft str)).length)

/-- What is behind the first line, the line break or the spaces. -/
def otherLines (wc : Wctype) (lineLeft : ℤ) (str : List Char) : List Char :=
  (str.drop ((firstLine wc lineLeft str).length
    + if '\n' ∈ room lineLeft str then 1 else 0)).dropWhile isSpace

/-- A character that is not a space or a line break. -/
def visible (c : Char) : Bool := c != ' ' && c != '\n'

/-- The strings can be wrapped: no line is a single visible character, and no string begins where
the line is full, unless it begins with a space. -/
inductive Wraps (wc : Wctype) (width : ℤ) : ℤ → List (List Char) → Prop
  | nil {lineLeft : ℤ} : Wraps wc width lineLeft []
  | fits {lineLeft : ℤ} {str : List Char} {strs : List (List Char)} :
      str.length ≤ lineLeft → '\n' ∉ str → Wraps wc width (lineLeft - str.length) strs →
      Wraps wc width lineLeft (str :: strs)
  | cut {lineLeft : ℤ} {str : List Char} {strs : List (List Char)} :
      lineLeft < str.length ∨ '\n' ∈ str → (lineLeft = 0 → str.head? = some ' ') →
      (∀ c, firstLine wc lineLeft str = [c] → visible c = false) →
      Wraps wc width width (otherLines wc lineLeft str :: strs) →
      Wraps wc width lineLeft (str :: strs)

/-! ## The loops of a line -/

section Loops

variable {str : List Char} {p : Char → Bool} {c : Char} {i k n : ℕ}

theorem charAt_eq (h : i ≤ str.length) :
    charAt str (i : ℤ) = .ok (str.getD i (Char.ofNat 0)) := by
  rw [charAt, if_pos ⟨by omega, by omega⟩, Int.toNat_natCast]

theorem take_succ_concat (h : k < str.length) :
    str.take (k + 1) = str.take k ++ [str.getD k (Char.ofNat 0)] := by
  rw [List.take_succ_eq_append_getElem h, List.getD_eq_getElem _ _ h]

/-- The index moves to the last character that is not skipped. -/
theorem backFrom_eq (h : k < str.length) :
    backFrom p str k = .ok (max 1 ((str.take (k + 1)).rdropWhile p).length - 1) := by
  induction k with
  | zero =>
      have hle : ((str.take 1).rdropWhile p).length ≤ 1 :=
        (List.rdropWhile_prefix p _).length_le.trans (List.length_take_le 1 str)
      rw [backFrom, Nat.max_eq_left hle]
  | succ k ih =>
      rw [backFrom, charAt_eq (by omega), ok_bind, take_succ_concat h]
      split_ifs with hp
      · rw [List.rdropWhile_concat_pos _ _ _ hp]
        exact ih (by omega)
      · rw [List.rdropWhile_concat_neg _ _ _ hp, List.length_append,
          List.length_take_of_le (by omega)]
        simp

theorem searchFrom_eq (h : i + n ≤ str.length) : searchFrom str c i n
    = .ok (if c ∈ (str.drop i).take n then some (i + ((str.drop i).takeWhile (· ≠ c)).length)
      else none) := by
  induction n generalizing i with
  | zero => simp [searchFrom]
  | succ n ih =>
      have hlt : i < str.length := by omega
      rw [searchFrom, charAt_eq hlt.le, ok_bind, List.getD_eq_getElem _ _ hlt,
        List.drop_eq_getElem_cons hlt, List.take_succ_cons, List.takeWhile_cons]
      by_cases heq : str[i] = c
      · simp [heq]
      · rw [if_neg heq, ih (by omega), if_pos (decide_eq_true heq), List.length_cons]
        have hmem : c ∈ str[i] :: (str.drop (i + 1)).take n ↔ c ∈ (str.drop (i + 1)).take n :=
          List.mem_cons.trans (or_iff_right (Ne.symm heq))
        exact congrArg Except.ok (if_congr hmem.symm (congrArg some (by omega)) rfl)

theorem skipSpaces_eq (h : i + n ≤ str.length) : skipSpaces str (i : ℤ) n
    = .ok ((i + (((str.drop i).take n).takeWhile isSpace).length : ℕ) : ℤ) := by
  induction n generalizing i with
  | zero => simp [skipSpaces]
  | succ n ih =>
      have hlt : i < str.length := by omega
      rw [skipSpaces, charAt_eq hlt.le, ok_bind, List.getD_eq_getElem _ _ hlt,
        List.drop_eq_getElem_cons hlt, List.take_succ_cons, List.takeWhile_cons]
      split_ifs with hspace
      · have hnext := @ih (i + 1) (by omega)
        rw [Nat.cast_add, Nat.cast_one] at hnext
        rw [hnext, List.length_cons]
        congr 2
        omega
      · simp

/-- Behind the cut there are no spaces. -/
theorem skipSpaces_drop (h : i ≤ str.length) : ∃ cutRight : ℕ,
    skipSpaces str (i : ℤ) (str.length - i) = .ok (cutRight : ℤ) ∧
      str.drop cutRight = (str.drop i).dropWhile isSpace := by
  refine ⟨_, skipSpaces_eq (by omega), ?_⟩
  have hsplit := @List.takeWhile_append_dropWhile _ isSpace (str.drop i)
  rw [List.take_of_length_le (by rw [List.length_drop]), ← List.drop_drop]
  exact (congrArg _ hsplit.symm).trans List.drop_left

/-- The end of the body of the `while` loop, for a line with `gap` characters behind it. -/
theorem cut_end {line : List Char} {gap : ℕ} (hline : line <+: str)
    (hgap : line.length + gap ≤ str.length) (lineBreak : Bool) {cutLeft cutRight : ℤ}
    (hleft : cutLeft = line.length - 1) (hright : cutRight = line.length + gap) :
    (do
      let cutRight ← skipSpaces str cutRight (str.length - cutRight).toNat
      pure (if cutLeft > 0 then str.take (cutLeft + 1).toNat else [], str.drop cutRight.toNat,
        lineBreak))
      = Except.ok (if 2 ≤ line.length then line else [],
        (str.drop (line.length + gap)).dropWhile isSpace, lineBreak) := by
  obtain ⟨right, hskip, hdrop⟩ := skipSpaces_drop hgap
  have hcast : cutRight = ((line.length + gap : ℕ) : ℤ) := by omega
  have hcount : ((str.length : ℤ) - ((line.length + gap : ℕ) : ℤ)).toNat
      = str.length - (line.length + gap) := by omega
  have htake : str.take (cutLeft + 1).toNat = line := by
    rw [show (cutLeft + 1).toNat = line.length by omega]
    exact (List.prefix_iff_eq_take.mp hline).symm
  rw [hcast, hcount, hskip, ok_bind, Int.toNat_natCast, hdrop, htake]
  exact congrArg Except.ok (congrArg (·, _) (if_congr (by omega) rfl rfl))

end Loops

/-! ## One line -/

section Line

variable {wc : Wctype} {str : List Char} {lineLeft : ℤ}

theorem mem_rdropWhile {p : Char → Bool} {l : List Char} {c : Char} (hc : c ∈ l)
    (hp : p c = false) : c ∈ l.rdropWhile p := by
  induction l using List.reverseRecOn with
  | nil => exact absurd hc List.not_mem_nil
  | append_singleton l a ih =>
      by_cases ha : p a = true
      · rw [List.rdropWhile_concat_pos _ _ _ ha]
        obtain hmem | hmem := List.mem_append.mp hc
        · exact ih hmem
        · obtain rfl := List.mem_singleton.mp hmem
          exact absurd ha (Bool.eq_false_iff.mp hp)
      · rwa [List.rdropWhile_concat_neg _ _ _ ha]

theorem isBreakPoint_newline : isBreakPoint wc '\n' = true := by
  rw [isBreakPoint, wc.iswalnum_newline, wc.iswpunct_newline]
  rfl

/-- A line break is kept with what stands before it. -/
theorem newline_mem_wholeWords (wc : Wctype) {l : List Char} (h : '\n' ∈ l) :
    '\n' ∈ wholeWords wc l :=
  mem_rdropWhile (mem_rdropWhile h (by rw [isBreakPoint_newline]; rfl)) rfl

theorem wholeWords_initial (wc : Wctype) (l : List Char) : wholeWords wc l <+: l :=
  (List.rdropWhile_prefix _ _).trans (List.rdropWhile_prefix _ _)

theorem room_initial : room lineLeft str <+: str := List.take_prefix ..

/-- The first two loops: from the end of the room to the end of its last whole word. -/
theorem backFrom_room (wc : Wctype) (hpos : 0 < (room lineLeft str).length) :
    (backFrom (fun c => !isBreakPoint wc c) str ((room lineLeft str).length - 1)
        >>= backFrom isSpace str)
      = .ok (max 1 (wholeWords wc (room lineLeft str)).length - 1) := by
  have hle : (room lineLeft str).length ≤ str.length := room_initial.length_le
  have hroom : str.take ((room lineLeft str).length - 1 + 1) = room lineLeft str := by
    rw [Nat.sub_add_cancel hpos]
    exact (List.prefix_iff_eq_take.mp room_initial).symm
  rw [backFrom_eq (by omega), ok_bind, hroom]
  set kept := (room lineLeft str).rdropWhile fun c => !isBreakPoint wc c with hkept
  have hinitial : kept <+: str := (List.rdropWhile_prefix _ _).trans room_initial
  have hkle : kept.length ≤ str.length := hinitial.length_le
  rw [backFrom_eq (by omega), wholeWords, ← hkept]
  cases hnil : kept with
  | nil =>
      have hone : ((str.take (max 1 ([] : List Char).length - 1 + 1)).rdropWhile isSpace).length
          ≤ 1 := (List.rdropWhile_prefix _ _).length_le.trans (List.length_take_le ..)
      rw [Nat.max_eq_left hone]
      rfl
  | cons a l =>
      have htake : str.take (max 1 (a :: l).length - 1 + 1) = a :: l := by
        have := List.prefix_iff_eq_take.mp (hnil ▸ hinitial)
        rw [List.length_cons] at this ⊢
        rw [Nat.max_eq_right (by omega), Nat.sub_add_cancel (by omega)]
        exact this.symm
      rw [htake]

theorem isSpace_getD_min (n : ℕ) : isSpace (str.getD (min n str.length) (Char.ofNat 0))
    = decide (str[n]? = some ' ') := by
  by_cases hlt : n < str.length
  · rw [Nat.min_eq_left hlt.le, List.getD_eq_getElem _ _ hlt, List.getElem?_eq_getElem hlt, isSpace,
      Bool.beq_eq_decide_eq]
    exact decide_eq_decide.mpr Option.some_inj.symm
  · rw [Nat.min_eq_right (by omega), List.getD_eq_default _ _ le_rfl,
      List.getElem?_eq_none (by omega)]
    rfl

theorem start_eq {n : ℕ} (hne : str ≠ []) (hfull : n = 0 → str.head? = some ' ') :
    0 < (room n str).length ∧
    charAt str (min ((n : ℤ) - 1) (str.length - 1) + 1)
      = .ok (str.getD (min n str.length) (Char.ofNat 0)) ∧
    (if isSpace (str.getD (min n str.length) (Char.ofNat 0))
      then min ((n : ℤ) - 1) (str.length - 1) + 1 else min ((n : ℤ) - 1) (str.length - 1))
        = ((room n str).length - 1 : ℕ) := by
  have hlength : 0 < str.length := List.length_pos_iff.mpr hne
  have hroom : (room n str).length = min (n + if str[n]? = some ' ' then 1 else 0) str.length := by
    rw [room, List.length_take, Int.toNat_natCast]
  have hzero : n = 0 → str[n]? = some ' ' := fun hn => by
    rw [hn, ← List.head?_eq_getElem?]
    exact hfull hn
  refine ⟨?_, ?_, ?_⟩
  · rw [hroom]
    by_cases hn : n = 0
    · rw [if_pos (hzero hn)]
      omega
    · omega
  · rw [← charAt_eq (Nat.min_le_right _ _)]
    congr 1
    omega
  · rw [isSpace_getD_min, hroom]
    simp only [decide_eq_true_eq]
    split_ifs with hspace
    · have hlt := (List.getElem?_eq_some_iff.mp hspace).1
      omega
    · have : n ≠ 0 := fun hn => hspace (hzero hn)
      omega

theorem backWhile_natCast (p : Char → Bool) (k : ℕ) :
    backWhile p str (k : ℤ) = (backFrom p str k).map fun j => (j : ℤ) := by
  unfold backWhile
  rw [if_neg (by omega), Int.toNat_natCast]
  cases backFrom p str k <;> rfl

/-- The line break is looked for in the right place. -/
theorem newline_mem_take (wc : Wctype) (hpos : 0 < (room lineLeft str).length) :
    '\n' ∈ str.take (max 1 (wholeWords wc (room lineLeft str)).length) ↔
      '\n' ∈ room lineLeft str := by
  have hinitial := wholeWords_initial wc (room lineLeft str)
  constructor
  · intro hmem
    have htake : str.take (max 1 (wholeWords wc (room lineLeft str)).length)
        <+: room lineLeft str := List.prefix_of_prefix_length_le (List.take_prefix ..) room_initial
        ((List.length_take_le ..).trans (max_le hpos hinitial.length_le))
    exact htake.subset hmem
  · intro hmem
    have hwords := newline_mem_wholeWords wc hmem
    have heq := List.prefix_iff_eq_take.mp (hinitial.trans room_initial)
    rw [Nat.max_eq_right (List.length_pos_of_mem hwords), ← heq]
    exact hwords

theorem length_firstLine (wc : Wctype) (hpos : 0 < (room lineLeft str).length)
    (h : '\n' ∉ room lineLeft str) :
    (firstLine wc lineLeft str).length = max 1 (wholeWords wc (room lineLeft str)).length := by
  have hroom : (room lineLeft str).length ≤ str.length := room_initial.length_le
  have hwords := (wholeWords_initial wc (room lineLeft str)).length_le
  rw [firstLine, if_neg h, List.length_take_of_le (by omega)]

theorem length_takeWhile_lt (h : '\n' ∈ str) :
    (str.takeWhile (· ≠ '\n')).length + 1 ≤ str.length := by
  by_contra hle
  have hall := List.takeWhile_eq_self_iff.mp
    ((List.takeWhile_prefix (· ≠ '\n')).eq_of_length_le (by omega : str.length ≤ _))
  exact of_decide_eq_true (hall _ h) rfl

/-- **A line is cut as the text says**; it is printed if it has two characters or more. -/
theorem cutLine_eq {n : ℕ} (hne : str ≠ []) (hfull : n = 0 → str.head? = some ' ') :
    cutLine wc n str = .ok
      (if 2 ≤ (firstLine wc n str).length then firstLine wc n str else [],
        otherLines wc n str, decide ('\n' ∈ room n str)) := by
  obtain ⟨hpos, hchar, hstart⟩ := start_eq hne hfull
  have hlength : 0 < str.length := List.length_pos_iff.mpr hne
  have hroom : (room n str).length ≤ str.length := room_initial.length_le
  have hwords := (wholeWords_initial wc (room n str)).length_le
  obtain ⟨k, hback, hback'⟩ := bind_eq_ok.mp (backFrom_room wc hpos)
  have hmem := newline_mem_take wc hpos
  have hsearch : strSearch str (((max 1 (wholeWords wc (room n str)).length - 1 : ℕ) : ℤ) + 1) '\n'
      = .ok (if '\n' ∈ room n str then some (str.takeWhile (· ≠ '\n')).length else none) := by
    have hnat : (((max 1 (wholeWords wc (room n str)).length - 1 : ℕ) : ℤ) + 1).toNat
        = max 1 (wholeWords wc (room n str)).length := by omega
    rw [strSearch, hnat, searchFrom_eq (by omega), List.drop_zero, Nat.zero_add]
    exact congrArg Except.ok (if_congr hmem rfl rfl)
  have hleft : backWhile (fun c => !isBreakPoint wc c) str ((room n str).length - 1 : ℕ)
      = .ok (k : ℤ) := by
    rw [backWhile_natCast, hback]
    rfl
  have hleft' : backWhile isSpace str (k : ℤ)
      = .ok ((max 1 (wholeWords wc (room n str)).length - 1 : ℕ) : ℤ) := by
    rw [backWhile_natCast, hback']
    rfl
  unfold cutLine
  dsimp only
  rw [if_pos (by omega), hchar]
  simp only [ok_bind, pure_bind, hstart, hleft, hleft', hsearch]
  by_cases hbreak : '\n' ∈ room n str
  · have hline : firstLine wc n str = str.takeWhile (· ≠ '\n') := if_pos hbreak
    have hlt := length_takeWhile_lt (room_initial.subset hbreak)
    rw [if_pos hbreak, otherLines, if_pos hbreak, decide_eq_true hbreak, hline]
    exact cut_end (List.takeWhile_prefix _) hlt true rfl (by simp; omega)
  · have hline := length_firstLine wc hpos hbreak
    rw [if_neg hbreak, otherLines, if_neg hbreak, decide_eq_false hbreak]
    dsimp only
    refine cut_end ?_ (by omega) false (by omega) (by simp; omega)
    rw [firstLine, if_neg hbreak]
    exact List.take_prefix ..

/-- Where a string begins with a word and there is no room, the character before it is looked at. -/
theorem cutLine_error (hne : str ≠ []) (hfull : str.head? ≠ some ' ') :
    cutLine wc 0 str = .error (.undefined "str[i]") := by
  have hlength : 0 < str.length := List.length_pos_iff.mpr hne
  have hhead : isSpace (str.getD 0 (Char.ofNat 0)) = false := by
    have := @isSpace_getD_min str 0
    rw [Nat.zero_min, ← List.head?_eq_getElem?, decide_eq_false hfull] at this
    exact this
  have hcut : min ((0 : ℤ) - 1) (str.length - 1) = -1 := by omega
  unfold cutLine
  dsimp only
  rw [hcut, if_pos (by omega), show (-1 : ℤ) + 1 = (0 : ℕ) from rfl, charAt_eq (Nat.zero_le _)]
  simp only [ok_bind, pure_bind, hhead]
  rfl

theorem filter_dropWhile_isSpace (l : List Char) :
    (l.dropWhile isSpace).filter visible = l.filter visible := by
  induction l with
  | nil => rfl
  | cons c l ih =>
      rw [List.dropWhile_cons]
      split_ifs with hspace
      · have hc : c = ' ' := by simpa [isSpace] using hspace
        rw [ih, hc]
        rfl
      · rfl

theorem filter_newline (h : '\n' ∈ str) : (str.takeWhile (· ≠ '\n')).filter visible
    ++ (str.drop ((str.takeWhile (· ≠ '\n')).length + 1)).filter visible = str.filter visible := by
  induction str with
  | nil => exact absurd h List.not_mem_nil
  | cons c l ih =>
      by_cases hc : c = '\n'
      · subst hc
        rfl
      · have hmem : '\n' ∈ l := (List.mem_cons.mp h).resolve_left (Ne.symm hc)
        rw [List.takeWhile_cons_of_pos (by simpa using hc), List.length_cons, List.drop_succ_cons,
          List.filter_cons, List.filter_cons, ← ih hmem]
        split_ifs <;> rfl

/-- Nothing visible is between the lines. -/
theorem filter_lines (wc : Wctype) (hpos : 0 < (room lineLeft str).length) :
    (firstLine wc lineLeft str).filter visible ++ (otherLines wc lineLeft str).filter visible
      = str.filter visible ∧ (otherLines wc lineLeft str).length < str.length := by
  rw [otherLines, filter_dropWhile_isSpace]
  have hdrop : ∀ i, ((str.drop i).dropWhile isSpace).length ≤ str.length - i := fun i =>
    (List.dropWhile_suffix isSpace).length_le.trans (by rw [List.length_drop])
  have hlength : 0 < str.length := hpos.trans_le room_initial.length_le
  by_cases hbreak : '\n' ∈ room lineLeft str
  · have hline : firstLine wc lineLeft str = str.takeWhile (· ≠ '\n') := if_pos hbreak
    have hlt := length_takeWhile_lt (room_initial.subset hbreak)
    rw [if_pos hbreak, hline]
    exact ⟨filter_newline (room_initial.subset hbreak), lt_of_le_of_lt (hdrop _) (by omega)⟩
  · have hline := length_firstLine wc hpos hbreak
    rw [if_neg hbreak, Nat.add_zero]
    refine ⟨?_, lt_of_le_of_lt (hdrop _) (by omega)⟩
    have hinitial : firstLine wc lineLeft str <+: str := by
      rw [firstLine, if_neg hbreak]
      exact List.take_prefix ..
    rw [← List.filter_append]
    conv_lhs => rw [List.prefix_iff_eq_take.mp hinitial]
    rw [List.length_take, Nat.min_eq_left hinitial.length_le, List.take_append_drop]

end Line

/-! ## Strings -/

section Strings

variable {wc : Wctype} {lineLength indent lineLeft : ℤ} {str out : List Char} {next : Bool}
  {strs : List (List Char)}

theorem filter_lineEnd (indent : ℤ) (b c : Bool) :
    (if b then '\n' :: List.replicate indent.natAbs ' ' else if c then ['\n'] else []).filter
      visible = [] := by
  split_ifs <;> simp [visible]

/-- A line that is printed or lost. -/
theorem filter_printed {line : List Char} (h : ∀ c, line = [c] → visible c = false) :
    (if 2 ≤ line.length then line else []).filter visible = line.filter visible := by
  split_ifs with hlong
  · rfl
  · cases line with
    | nil => rfl
    | cons c l =>
        rw [List.length_cons] at hlong
        obtain rfl := List.eq_nil_of_length_eq_zero (by omega : l.length = 0)
        rw [List.filter_cons_of_neg (by rw [h c rfl]; decide)]

theorem Wraps.of_cut (h : Wraps wc (lineLength - indent) lineLeft (str :: strs))
    (hcut : lineLeft < str.length ∨ '\n' ∈ str) :
    (lineLeft = 0 → str.head? = some ' ') ∧
      (∀ c, firstLine wc lineLeft str = [c] → visible c = false) ∧
      Wraps wc (lineLength - indent) (lineLength - indent)
        (otherLines wc lineLeft str :: strs) := by
  cases h with
  | fits hle hbreak => exact absurd hcut (not_or.mpr ⟨by omega, hbreak⟩)
  | cut _ hfull hone hrest => exact ⟨hfull, hone, hrest⟩

/-- The line and the others: all is printed exactly if the line is not a single visible character,
and the others are. -/
theorem filter_eq_iff {line rest shown lineEnd printed : List Char}
    (hsplit : line.filter visible ++ rest.filter visible = str.filter visible)
    (hshown : shown = if 2 ≤ line.length then line else []) (hend : lineEnd.filter visible = [])
    (hle : (printed.filter visible).length ≤ (rest.filter visible).length) :
    ((shown ++ lineEnd ++ printed).filter visible).length ≤ (str.filter visible).length ∧
      ((shown ++ lineEnd ++ printed).filter visible = str.filter visible ↔
        (∀ c, line = [c] → visible c = false) ∧ printed.filter visible = rest.filter visible) := by
  rw [List.filter_append, List.filter_append, hend, List.append_nil, ← hsplit]
  by_cases hone : ∀ c, line = [c] → visible c = false
  · rw [hshown, filter_printed hone, List.length_append, List.length_append,
      List.append_cancel_left_eq]
    exact ⟨by omega, (and_iff_right hone).symm⟩
  · simp only [not_forall, Bool.not_eq_false] at hone
    obtain ⟨c, rfl, hc⟩ := hone
    rw [hshown, if_neg (by simp), List.filter_nil, List.nil_append, List.length_append,
      List.filter_cons_of_pos hc]
    refine ⟨by omega, fun heq => ?_, fun h => ?_⟩
    · have := congrArg List.length heq
      simp only [List.filter_nil, List.length_append, List.length_cons, List.length_nil] at this
      omega
    · exact absurd hc (Bool.eq_false_iff.mp (h.1 c rfl))

/-- **A string**: the loop fails or ends.  What it prints is no more than what is there to see, and
it is all of that exactly if the string can be wrapped. -/
theorem wrapString_spec (hwidth : 0 ≤ lineLength - indent) {fuel : ℕ} (hleft : 0 ≤ lineLeft)
    (hfuel : str.length < fuel) :
    ((∃ e, wrapString wc lineLength indent next fuel lineLeft str out = .error e) ∧
      ∀ strs, ¬ Wraps wc (lineLength - indent) lineLeft (str :: strs)) ∨
    ∃ lineLeft' printed, wrapString wc lineLength indent next fuel lineLeft str out
        = .ok (lineLeft', out ++ printed) ∧ 0 ≤ lineLeft' ∧
      (printed.filter visible).length ≤ (str.filter visible).length ∧
      ∀ strs, Wraps wc (lineLength - indent) lineLeft (str :: strs) ↔
        printed.filter visible = str.filter visible ∧
          Wraps wc (lineLength - indent) lineLeft' strs := by
  induction fuel generalizing lineLeft str out with
  | zero => omega
  | succ fuel ih =>
      unfold wrapString
      by_cases hcut : lineLeft < str.length ∨ '\n' ∈ str
      · rw [if_pos hcut]
        obtain ⟨n, rfl⟩ := Int.eq_ofNat_of_zero_le hleft
        have hne : str ≠ [] := by
          rintro rfl
          simp at hcut
          omega
        by_cases hfull : n = 0 → str.head? = some ' '
        · obtain ⟨hpos, -, -⟩ := start_eq hne hfull
          obtain ⟨hsplit, hshort⟩ := filter_lines wc hpos
          rw [cutLine_eq hne hfull, ok_bind]
          dsimp only
          generalize hend : (if next || !(otherLines wc n str).isEmpty then
            '\n' :: List.replicate indent.natAbs ' '
            else if decide ('\n' ∈ room n str) then ['\n'] else []) = lineEnd
          generalize hshown : (if 2 ≤ (firstLine wc n str).length then firstLine wc n str else [])
            = shown
          have hinvisible : lineEnd.filter visible = [] := hend ▸ filter_lineEnd ..
          obtain ⟨⟨e, he⟩, hnot⟩ | ⟨lineLeft', printed, hrun, hleft', hle, hiff⟩ :=
            @ih (lineLength - indent) (otherLines wc n str) (out ++ shown ++ lineEnd) hwidth
              (by omega)
          · exact .inl ⟨⟨e, he⟩, fun strs h => hnot strs (h.of_cut hcut).2.2⟩
          · obtain ⟨hlength, heq⟩ := filter_eq_iff hsplit hshown.symm hinvisible hle
            refine .inr
              ⟨lineLeft', shown ++ lineEnd ++ printed, ?_, hleft', hlength, fun strs => ?_⟩
            · rw [hrun, List.append_assoc, List.append_assoc, List.append_assoc]
            · rw [heq, and_assoc, ← hiff]
              refine ⟨fun h => (h.of_cut hcut).2, fun h => .cut hcut ?_ h.1 h.2⟩
              exact fun hzero => hfull (by omega)
        · obtain ⟨hzero, hhead⟩ := Classical.not_imp.mp hfull
          subst hzero
          refine .inl ⟨⟨.undefined "str[i]", ?_⟩, fun strs h => hhead ((h.of_cut hcut).1 rfl)⟩
          rw [show ((0 : ℕ) : ℤ) = 0 from rfl, cutLine_error hne hhead]
          rfl
      · rw [if_neg hcut]
        obtain ⟨hlong, hbreak⟩ := not_or.mp hcut
        refine .inr ⟨lineLeft - str.length, str, rfl, by omega, le_rfl, fun strs => ⟨fun h => ?_,
          fun h => .fits (by omega) hbreak h.2⟩⟩
        cases h with
        | fits _ _ hrest => exact ⟨rfl, hrest⟩
        | cut hcut' => exact absurd hcut' hcut

/-- **All the strings.** -/
theorem wrapStrings_spec (hwidth : 0 ≤ lineLength - indent) (hleft : 0 ≤ lineLeft)
    (list : List (Option (List Char))) :
    ((∃ e, wrapStrings wc lineLength indent list lineLeft out = .error e) ∧
      ¬ Wraps wc (lineLength - indent) lineLeft (list.filterMap id)) ∨
    ∃ printed, wrapStrings wc lineLength indent list lineLeft out = .ok (out ++ printed) ∧
      (printed.filter visible).length ≤ ((list.filterMap id).flatten.filter visible).length ∧
      (Wraps wc (lineLength - indent) lineLeft (list.filterMap id) ↔
        printed.filter visible = (list.filterMap id).flatten.filter visible) := by
  induction list generalizing lineLeft out with
  | nil => exact .inr ⟨[], by rw [List.append_nil]; rfl, le_rfl, iff_of_true .nil rfl⟩
  | cons str list ih =>
      cases str with
      | none => exact ih hleft
      | some str =>
          rw [show (some str :: list).filterMap id = str :: list.filterMap id from rfl,
            List.flatten_cons, List.filter_append, List.length_append]
          unfold wrapStrings
          obtain ⟨⟨e, he⟩, hnot⟩ | ⟨lineLeft', printed, hrun, hleft', hle, hiff⟩ :=
            @wrapString_spec wc lineLength indent lineLeft str out (!list.isEmpty) hwidth
              (str.length + 1) hleft (Nat.lt_succ_self _)
          · exact .inl ⟨⟨e, by rw [he]; rfl⟩, hnot _⟩
          · rw [hrun, ok_bind]
            dsimp only
            obtain ⟨⟨e, he⟩, hnot⟩ | ⟨printed', hrun', hle', hiff'⟩ :=
              @ih lineLeft' (out ++ printed) hleft'
            · exact .inl ⟨⟨e, he⟩, fun h => hnot ((hiff _).mp h).2⟩
            · refine .inr ⟨printed ++ printed', by rw [hrun', List.append_assoc], ?_, ?_⟩
              · rw [List.filter_append, List.length_append]
                omega
              · rw [hiff, hiff', List.filter_append]
                refine ⟨fun h => by rw [h.1, h.2], fun h => ?_⟩
                have hlength := congrArg List.length h
                rw [List.length_append, List.length_append] at hlength
                exact List.append_inj h (by omega)

end Strings

/-- **Wrapping loses no text** exactly if the strings can be wrapped: no line of them is a single
visible character, and no string begins where the line is full unless it begins with a space. -/
theorem strListPrintWrap_keeps_iff (wc : Wctype) (list : List (Option (List Char)))
    {lineLength offset indent : ℤ} (hwidth : 10 < lineLength - indent)
    (hoffset : 0 ≤ offset ∧ offset < lineLength) :
    (∃ out, strListPrintWrap wc list lineLength offset indent = .ok out ∧
      out.filter visible = (list.filterMap id).flatten.filter visible) ↔
      Wraps wc (lineLength - indent) (lineLength - offset) (list.filterMap id) := by
  have hrun : strListPrintWrap wc list lineLength offset indent
      = wrapStrings wc lineLength indent list (lineLength - offset) [] := by
    rw [strListPrintWrap, decide_eq_true hwidth]
    rfl
  rw [hrun]
  obtain ⟨⟨e, he⟩, hnot⟩ | ⟨printed, hok, -, hiff⟩ :=
    @wrapStrings_spec wc lineLength indent (lineLength - offset) [] (by omega) (by omega) list
  · refine iff_of_false ?_ hnot
    rintro ⟨out, hout, -⟩
    exact nomatch he.symm.trans hout
  · rw [hiff, hok]
    simp

/-- Letters and digits, and nothing else. -/
def plainWctype : Wctype := ⟨Char.isAlphanum, fun _ => false, rfl, rfl⟩

/-- Three words of four letters. -/
def threeWords : List Char :=
  List.replicate 4 'a' ++ ' ' :: (List.replicate 4 'b' ++ ' ' :: List.replicate 4 'c')

/-- Two of the words fit into a line of twelve characters. -/
theorem strListPrintWrap_threeWords :
    ∃ out, strListPrintWrap plainWctype [some threeWords] 12 0 0 = .ok out ∧
      out.filter visible = threeWords.filter visible := by
  have hline : firstLine plainWctype 12 threeWords = threeWords.take 9 := by decide
  have hother : otherLines plainWctype 12 threeWords = List.replicate 4 'c' := by decide
  have hwraps : Wraps plainWctype 12 12 [threeWords] := by
    refine .cut (.inl (by decide)) (by decide) (fun c hc => ?_) ?_
    · exact nomatch congrArg List.length (hline.symm.trans hc)
    · rw [hother]
      exact .fits (by decide) (by decide) .nil
  obtain ⟨out, hrun, hout⟩ := (@strListPrintWrap_keeps_iff plainWctype [some threeWords] 12 0 0
    (by decide) (by decide)).mpr hwraps
  exact ⟨out, hrun, hout.trans (by decide)⟩

/-- **A character is lost** if a word is longer than the line, and the character before a string is
looked at if the line is full. -/
theorem strListPrintWrap_loses :
    strListPrintWrap plainWctype [some (List.replicate 13 'a')] 12 0 0
      = .ok ('\n' :: List.replicate 12 'a') ∧
    faultOf (strListPrintWrap plainWctype [some (List.replicate 12 'a'), some ['b']] 12 0 0)
      = some (.undefined "str[i]") := by
  decide

end Libparted.Parted
