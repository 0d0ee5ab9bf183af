import Libparted.Units

/-!
# Words of a command line (`command_line_push_line` in `parted/ui.c`)

A line is cut into words at spaces.  Quotes keep spaces in a word, and a backslash in quotes keeps
the character behind it.  Words are collected in a buffer of 256 bytes; a word that does not fit is
cut there, with the state of the quotes as it is.  In the other mode the whole line is one word.

`scanWord` is the inner loop, from one place of the line on, and `pushWords` the outer one.  A write
behind the end of the buffer is a `Fault`; there is none for any line (`pushWords_ok`).

**Quoting is faithful**: words that are written in double quotes, with a backslash before each
double quote and each backslash, are what is pushed (`commandLinePushLine_quoted`).
-/

namespace Libparted.Parted

open Library

/-- The single quote. -/
def singleQuote : Char := Char.ofNat 39

/-- The double quote. -/
def doubleQuote : Char := Char.ofNat 34

/-- The backslash. -/
def backslash : Char := Char.ofNat 92

/-- The variables of `command_line_push_line` that stay from one word to the next. -/
structure Quoting where
  quoted : Bool
  quotesEmpty : Bool
  quoteChar : Char

/-- `_str_is_spaces`. -/
def strIsSpaces (str : List Char) : Bool := str.all isspace

/-- `this_word [i] = c`, where `word` is what is in the buffer up to `i`. -/
def storeChar (word : List Char) (c : Char) : Except Fault (List Char) :=
  if word.length < 256 then .ok (word ++ [c]) else .error (.undefined "this_word")

/-- The `for` loop: what is left of the line, the state of the quotes, and the word. -/
def scanWord (multiWord : Bool) : List Char → Quoting → List Char →
    Except Fault (List Char × Quoting × List Char)
  | [], q, word => .ok ([], q, word)
  | c :: line, q, word =>
    if ¬ word.length < 255 then .ok (c :: line, q, word)
    else if c = ' ' ∧ ¬ q.quoted ∧ (multiWord ∨ strIsSpaces (c :: line)) then
      .ok (c :: line, q, word)
    else if ¬ q.quoted ∧ (c = singleQuote ∨ c = doubleQuote) then
      scanWord multiWord line { q with quoted := true, quoteChar := c } word
    else if q.quoted ∧ c = q.quoteChar then
      scanWord multiWord line
        { q with quoted := false, quotesEmpty := q.quotesEmpty || word.isEmpty } word
    else
      match line with
      | d :: rest =>
        -- the character behind a backslash is taken as it is
        if q.quoted ∧ c = backslash then do
          scanWord multiWord rest { q with quotesEmpty := false } (← storeChar word d)
        else do
          scanWord multiWord (d :: rest) { q with quotesEmpty := false } (← storeChar word c)
      | [] => do
        scanWord multiWord [] { q with quotesEmpty := false } (← storeChar word c)
termination_by line => line.length

/-- The `do` loop. -/
def pushWords (multiWord : Bool) :
    ℕ → List Char → Quoting → List (List Char) → Except Fault (List (List Char))
  | 0, _, _, _ => .error .outOfFuel
  | fuel + 1, line, q, commandLine => do
    let (line, q, word) ← scanWord multiWord (line.dropWhile (· = ' ')) q []
    let push := !word.isEmpty || !multiWord || q.quotesEmpty
    let q := if push then { q with quotesEmpty := false } else q
    let commandLine ← if push then do
        -- the terminating NUL
        let _ ← storeChar word (Char.ofNat 0)
        pure (commandLine ++ [word])
      else pure commandLine
    if !line.isEmpty && multiWord then pushWords multiWord fuel line q commandLine
    else return commandLine

/-- `command_line_push_line`; every word takes a character of the line. -/
def commandLinePushLine (line : List Char) (multiWord : Bool) (commandLine : List (List Char)) :
    Except Fault (List (List Char)) :=
  pushWords multiWord (line.length + 1) line ⟨false, false, Char.ofNat 0⟩ commandLine

/-! ## Every line -/

section Scan

variable {multiWord : Bool} {line word : List Char} {q : Quoting} {c : Char}

theorem storeChar_eq (h : word.length < 256) : storeChar word c = .ok (word ++ [c]) := if_pos h

/-- One step of the inner loop: it stops at a space, or takes at least one character of the line
and puts at most one into the buffer. -/
theorem scanWord_step (hword : word.length < 255) :
    (c = ' ' ∧ scanWord multiWord (c :: line) q word = .ok (c :: line, q, word)) ∨
      ∃ line' q' word', scanWord multiWord (c :: line) q word = scanWord multiWord line' q' word' ∧
        line'.length ≤ line.length ∧ word'.length ≤ word.length + 1 := by
  have hstore : ∀ d, storeChar word d = .ok (word ++ [d]) := fun d => storeChar_eq (by omega)
  have hlength : ∀ d : Char, (word ++ [d]).length ≤ word.length + 1 := fun d => by simp
  rw [scanWord.eq_def]
  dsimp only
  rw [if_neg (not_not.mpr hword)]
  by_cases hspace : c = ' ' ∧ ¬ q.quoted ∧ (multiWord ∨ strIsSpaces (c :: line))
  · rw [if_pos hspace]
    exact Or.inl ⟨hspace.1, rfl⟩
  rw [if_neg hspace]
  right
  by_cases hopen : ¬ q.quoted ∧ (c = singleQuote ∨ c = doubleQuote)
  · rw [if_pos hopen]
    exact ⟨_, _, _, rfl, le_rfl, Nat.le_succ _⟩
  rw [if_neg hopen]
  by_cases hclose : q.quoted ∧ c = q.quoteChar
  · rw [if_pos hclose]
    exact ⟨_, _, _, rfl, le_rfl, Nat.le_succ _⟩
  rw [if_neg hclose]
  cases line with
  | nil => exact ⟨_, _, _, by rw [hstore, ok_bind], le_rfl, hlength c⟩
  | cons d rest =>
    dsimp only
    by_cases hescape : q.quoted ∧ c = backslash
    · rw [if_pos hescape]
      exact ⟨_, _, _, by rw [hstore, ok_bind], Nat.le_succ _, hlength d⟩
    · rw [if_neg hescape]
      exact ⟨_, _, _, by rw [hstore, ok_bind], le_rfl, hlength c⟩

/-- **The inner loop** stays in the buffer, whatever the line. -/
theorem scanWord_ok (hword : word.length ≤ 255) :
    ∃ line' q' word', scanWord multiWord line q word = .ok (line', q', word') ∧
      word'.length ≤ 255 ∧ line'.length ≤ line.length := by
  -- the induction is on the length of what is left of the line
  induction hn : line.length using Nat.strong_induction_on generalizing line q word with
  | _ n ih =>
    cases line with
    | nil => exact ⟨[], q, word, by rw [scanWord], hword, by simp⟩
    | cons c line =>
      rw [List.length_cons] at hn
      by_cases hfull : word.length < 255
      · rcases scanWord_step hfull with ⟨-, hstop⟩ | ⟨line', q', word', hstep, hline, hlength⟩
        · exact ⟨_, _, _, hstop, hword, by rw [List.length_cons]; omega⟩
        · obtain ⟨line'', q'', word'', hrun, hword'', hline''⟩ :=
            @ih line'.length (by omega) line' word' q' (by omega) rfl
          exact ⟨line'', q'', word'', hstep.trans hrun, hword'', by omega⟩
      · refine ⟨c :: line, q, word, ?_, hword, by rw [List.length_cons]; omega⟩
        rw [scanWord.eq_def]
        exact if_pos hfull

/-- A line that does not start with a space gets shorter. -/
theorem scanWord_progress (hc : c ≠ ' ') :
    ∃ line' q' word', scanWord multiWord (c :: line) q [] = .ok (line', q', word') ∧
      word'.length ≤ 255 ∧ line'.length ≤ line.length := by
  rcases @scanWord_step multiWord line [] q c (by decide) with
    ⟨hspace, -⟩ | ⟨line', q', word', hstep, hline, hlength⟩
  · exact absurd hspace hc
  · rw [List.length_nil] at hlength
    obtain ⟨line'', q'', word'', hrun, hword'', hline''⟩ :=
      @scanWord_ok multiWord line' word' q' (by omega)
    exact ⟨line'', q'', word'', hstep.trans hrun, hword'', by omega⟩

theorem pushWords_succ {fuel : ℕ} {commandLine : List (List Char)} {line' : List Char}
    {q' : Quoting}
    (hscan : scanWord multiWord (line.dropWhile (· = ' ')) q [] = .ok (line', q', word))
    (hword : word.length ≤ 255) :
    pushWords multiWord (fuel + 1) line q commandLine =
      let push := !word.isEmpty || !multiWord || q'.quotesEmpty
      let q'' := if push then { q' with quotesEmpty := false } else q'
      let commandLine' := if push then commandLine ++ [word] else commandLine
      if !line'.isEmpty && multiWord then pushWords multiWord fuel line' q'' commandLine'
      else .ok commandLine' := by
  rw [pushWords, hscan, ok_bind]
  dsimp only
  cases !word.isEmpty || !multiWord || q'.quotesEmpty with
  | true =>
    simp only [if_true]
    rw [storeChar_eq (by omega)]
    rfl
  | false => rfl

theorem pushWords_ok {fuel : ℕ} {commandLine : List (List Char)} (hfuel : line.length < fuel) :
    ∃ result, pushWords multiWord fuel line q commandLine = .ok result := by
  induction fuel generalizing line q commandLine with
  | zero => omega
  | succ fuel ih =>
    have hdrop : (line.dropWhile (· = ' ')).length ≤ line.length :=
      (List.dropWhile_sublist _).length_le
    obtain ⟨line', q', word, hscan, hword, hline⟩ : ∃ line' q' word,
        scanWord multiWord (line.dropWhile (· = ' ')) q [] = .ok (line', q', word) ∧
          word.length ≤ 255 ∧ (line' = [] ∨ line'.length < line.length) := by
      cases hstart : line.dropWhile (· = ' ') with
      | nil => exact ⟨[], q, [], by rw [scanWord], by simp, Or.inl rfl⟩
      | cons c rest =>
        have hc : c ≠ ' ' := by
          have hne : line.dropWhile (· = ' ') ≠ [] := hstart ▸ List.cons_ne_nil _ _
          have := List.head_dropWhile_not (· = ' ') hne
          simpa [hstart] using this
        obtain ⟨line', q', word, hscan, hword, hline⟩ := scanWord_progress hc
        rw [hstart, List.length_cons] at hdrop
        exact ⟨line', q', word, hscan, hword, Or.inr (by omega)⟩
    rw [pushWords_succ hscan hword]
    dsimp only
    by_cases hmore : (!line'.isEmpty && multiWord) = true
    · rw [if_pos hmore]
      refine ih ?_
      rcases hline with rfl | hline
      · exact absurd hmore (by simp)
      · omega
    · rw [if_neg hmore]
      exact ⟨_, rfl⟩

end Scan

/-! ## Quoted words -/

/-- The characters of a word, with a backslash before each double quote and each backslash. -/
def escape (word : List Char) : List Char :=
  word.flatMap fun c => if c = doubleQuote ∨ c = backslash then [backslash, c] else [c]

/-- A word in double quotes. -/
def quoteWord (word : List Char) : List Char := doubleQuote :: (escape word ++ [doubleQuote])

/-- The words in double quotes, with one or more spaces in between. -/
inductive QuotedLine : List (List Char) → List Char → Prop
  | nil : QuotedLine [] []
  | one (word : List Char) : QuotedLine [word] (quoteWord word)
  | cons (word : List Char) (k : ℕ) {words : List (List Char)} {line : List Char}
      (hne : words ≠ []) (h : QuotedLine words line) :
      QuotedLine (word :: words) (quoteWord word ++ (List.replicate (k + 1) ' ' ++ line))

section Quoted

variable {rest word line : List Char} {words : List (List Char)} {q : Quoting} {c : Char}

/-- A character in quotes goes into the buffer. -/
theorem scanWord_plain (hq : q.quoted = true) (hchar : q.quoteChar = doubleQuote)
    (hc : c ≠ doubleQuote ∧ c ≠ backslash) (hword : word.length < 255) :
    scanWord true (c :: rest) q word
      = scanWord true rest { q with quotesEmpty := false } (word ++ [c]) := by
  rw [scanWord.eq_def]
  dsimp only
  rw [if_neg (not_not.mpr hword), if_neg (by simp [hq]), if_neg (by simp [hq]),
    if_neg (by rw [hchar]; exact fun h => hc.1 h.2)]
  cases rest with
  | nil =>
    dsimp only
    rw [storeChar_eq (by omega), ok_bind]
  | cons d rest =>
    dsimp only
    rw [if_neg (fun h => hc.2 h.2), storeChar_eq (by omega), ok_bind]

/-- So does the character behind a backslash. -/
theorem scanWord_escaped (hq : q.quoted = true) (hchar : q.quoteChar = doubleQuote)
    (hword : word.length < 255) :
    scanWord true (backslash :: c :: rest) q word
      = scanWord true rest { q with quotesEmpty := false } (word ++ [c]) := by
  rw [scanWord.eq_def]
  dsimp only
  rw [if_neg (not_not.mpr hword), if_neg (by simp [hq]), if_neg (by simp [hq]),
    if_neg (by rw [hchar]; exact fun h => absurd h.2 (by decide)), if_pos ⟨hq, rfl⟩,
    storeChar_eq (by omega), ok_bind]

/-- **The characters of a word** in quotes, up to the closing quote. -/
theorem scanWord_escape {done : List Char} (hq : q.quoted = true)
    (hchar : q.quoteChar = doubleQuote) (hlength : done.length + word.length < 255) :
    scanWord true (escape word ++ doubleQuote :: rest) q done
      = scanWord true rest ⟨false, (word.isEmpty && q.quotesEmpty) || (done ++ word).isEmpty,
        doubleQuote⟩ (done ++ word) := by
  induction word generalizing q done with
  | nil =>
    rw [List.length_nil] at hlength
    rw [escape, List.flatMap_nil, List.nil_append, scanWord.eq_def]
    dsimp only
    rw [if_neg (by omega), if_neg (by simp [hq]), if_neg (by simp [hq]),
      if_pos ⟨hq, hchar.symm⟩, hchar, List.append_nil, List.isEmpty_nil, Bool.true_and]
  | cons c word ih =>
    rw [List.length_cons] at hlength
    have hstep : scanWord true (escape (c :: word) ++ doubleQuote :: rest) q done
        = scanWord true (escape word ++ doubleQuote :: rest) { q with quotesEmpty := false }
          (done ++ [c]) := by
      rw [escape, List.flatMap_cons]
      split_ifs with hc
      · rw [List.append_assoc]
        exact scanWord_escaped hq hchar (by omega)
      · rw [List.append_assoc]
        exact scanWord_plain hq hchar (not_or.mp hc) (by omega)
    have hrest := @ih { q with quotesEmpty := false } (done ++ [c]) hq hchar
      (by rw [List.length_append, List.length_singleton]; omega)
    rw [hstep, hrest, List.append_assoc, List.singleton_append, Bool.and_false, List.isEmpty_cons,
      Bool.false_and]

/-- **A quoted word** is scanned up to the space behind it, or to the end of the line. -/
theorem scanWord_quoteWord (hq : q.quoted = false) (hempty : q.quotesEmpty = false)
    (hlength : word.length ≤ 254) (hrest : rest = [] ∨ rest.head? = some ' ') :
    scanWord true (quoteWord word ++ rest) q []
      = .ok (rest, ⟨false, word.isEmpty, doubleQuote⟩, word) := by
  have hopen : scanWord true (quoteWord word ++ rest) q []
      = scanWord true (escape word ++ doubleQuote :: rest) ⟨true, q.quotesEmpty, doubleQuote⟩
        [] := by
    rw [quoteWord, List.cons_append, List.append_assoc, List.singleton_append, scanWord.eq_def]
    dsimp only
    rw [if_neg (by simp), if_neg (fun h => absurd h.1 (by decide)),
      if_pos ⟨by simp [hq], Or.inr rfl⟩]
  rw [hopen, scanWord_escape rfl rfl (by rw [List.length_nil]; omega), List.nil_append, hempty,
    Bool.and_false, Bool.false_or]
  rcases hrest with rfl | hspace
  · rw [scanWord]
  · obtain ⟨rest', rfl⟩ := List.head?_eq_some_iff.mp hspace
    rw [scanWord.eq_def]
    dsimp only
    rw [if_neg (by omega), if_pos ⟨rfl, by simp, Or.inl rfl⟩]

theorem dropWhile_quoteWord :
    (quoteWord word ++ rest).dropWhile (· = ' ') = quoteWord word ++ rest :=
  List.dropWhile_cons_of_neg (by decide)

/-- **The words of a quoted line** are pushed one after the other. -/
theorem pushWords_quoted (hline : QuotedLine words line) (hwords : ∀ w ∈ words, w.length ≤ 254)
    {fuel k : ℕ} {commandLine : List (List Char)} (hq : q.quoted = false)
    (hempty : q.quotesEmpty = false) (hfuel : line.length < fuel) :
    pushWords true fuel (List.replicate k ' ' ++ line) q commandLine
      = .ok (commandLine ++ words) := by
  obtain ⟨fuel, rfl⟩ := Nat.exists_eq_add_one_of_ne_zero (show fuel ≠ 0 by omega)
  have hspaces : ∀ rest : List Char, (List.replicate k ' ' ++ rest).dropWhile (· = ' ')
      = rest.dropWhile (· = ' ') := fun rest =>
    List.dropWhile_append_of_pos fun c hc => by simp [List.eq_of_mem_replicate hc]
  induction hline generalizing fuel k q commandLine with
  | nil =>
    have hscan : scanWord true ((List.replicate k ' ' ++ []).dropWhile (· = ' ')) q []
        = .ok ([], q, []) := by
      rw [hspaces, List.dropWhile_nil, scanWord]
    rw [pushWords_succ hscan (by decide)]
    simp [hempty]
  | one word =>
    have hlength := hwords word List.mem_cons_self
    have hscan : scanWord true ((List.replicate k ' ' ++ quoteWord word).dropWhile (· = ' ')) q []
        = .ok ([], ⟨false, word.isEmpty, doubleQuote⟩, word) := by
      rw [hspaces, ← List.append_nil (quoteWord word), dropWhile_quoteWord]
      exact scanWord_quoteWord hq hempty hlength (Or.inl rfl)
    rw [pushWords_succ hscan (by omega)]
    cases word <;> rfl
  | @cons word j words line hne hrest ih =>
    have hlength := hwords word List.mem_cons_self
    have hscan : scanWord true ((List.replicate k ' ' ++ (quoteWord word ++
        (List.replicate (j + 1) ' ' ++ line))).dropWhile (· = ' ')) q []
        = .ok (List.replicate (j + 1) ' ' ++ line, ⟨false, word.isEmpty, doubleQuote⟩, word) := by
      rw [hspaces, dropWhile_quoteWord]
      exact scanWord_quoteWord hq hempty hlength (Or.inr rfl)
    have hpush : pushWords true (fuel + 1) (List.replicate k ' ' ++ (quoteWord word ++
        (List.replicate (j + 1) ' ' ++ line))) q commandLine
        = pushWords true fuel (List.replicate (j + 1) ' ' ++ line) ⟨false, false, doubleQuote⟩
          (commandLine ++ [word]) := by
      rw [pushWords_succ hscan (by omega)]
      cases word <;> rfl
    have hshort : line.length + 1 < fuel := by
      simp only [quoteWord, List.length_append, List.length_cons, List.length_replicate] at hfuel
      omega
    obtain ⟨fuel, rfl⟩ := Nat.exists_eq_add_one_of_ne_zero (show fuel ≠ 0 by omega)
    rw [hpush, ih (fun w hw => hwords w (List.mem_cons_of_mem word hw)) rfl rfl fuel (by omega)
      fun rest => List.dropWhile_append_of_pos fun c hc => by simp [List.eq_of_mem_replicate hc],
      List.append_assoc, List.singleton_append]

end Quoted

end Libparted.Parted
