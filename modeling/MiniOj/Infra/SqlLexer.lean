import Mathlib.Data.List.Basic
import MiniOj.Infra.Bytes

/-!
# The tokens of an SQL text

How MySQL cuts a statement into tokens when backslashes escape. Bytes outside a string literal
that begin a comment, a quoted name or a number with a point are not in this fragment, and
neither is a literal with a prefix: `lex` refuses them.

A character set says which bytes belong together. Inside a literal the bytes of a character are
taken as they are, so that a quote among them would end nothing. In a character set in which
they are never ASCII this makes no difference.

* `scan_eq_run` — in such a character set the text is read byte by byte
* `run_escaped` — an escaped value is read as the value
* `run_decimal` — a numeral is read as the number
-/

namespace MiniOj.Infra.Sql

/-- The parts of a statement. -/
inductive Token where
  /-- a keyword or a name -/
  | word (name : Bytes)
  | number (value : Nat)
  /-- a string literal -/
  | text (value : Bytes)
  | symbol (b : UInt8)
  /-- `?` -/
  | param
  deriving DecidableEq, Repr

/-- What is being read. -/
inductive Mode where
  | blank
  | word (read : Bytes)
  | number (value : Nat)
  /-- an operator that may have more bytes -/
  | operator (b : UInt8)
  | text (value : Bytes)
  /-- after a backslash in a literal -/
  | backslash (value : Bytes)
  /-- after a quote in a literal: its end, or the first of two -/
  | quote (value : Bytes)
  deriving DecidableEq, Repr

/-- The tokens so far, and what is being read. -/
structure Lexer where
  done : List Token
  mode : Mode
  deriving DecidableEq, Repr

/-! ## Bytes -/

/-- The blanks of ASCII. -/
def isSpace (b : UInt8) : Bool := b == 32 || 9 ≤ b && b ≤ 13

/-- The digits of ASCII. -/
def isDigit (b : UInt8) : Bool := 48 ≤ b && b ≤ 57

/-- The characters that words begin with. -/
def isLetter (b : UInt8) : Bool := 65 ≤ b && b ≤ 90 || 97 ≤ b && b ≤ 122 || b == 95 || b == 36

/-- `(`, `)` and `,` -/
def isSymbol (b : UInt8) : Bool := b == 40 || b == 41 || b == 44

/-- `=`, `<`, `>`, `!` and `.` -/
def isOperator (b : UInt8) : Bool := b == 61 || b == 60 || b == 62 || b == 33 || b == 46

/-- What a backslash and this byte stand for. -/
def unescaped (b : UInt8) : Bytes :=
  if b == 48 then [0]
  else if b == 98 then [8]
  else if b == 110 then [10]
  else if b == 114 then [13]
  else if b == 116 then [9]
  else if b == 90 then [26]
  -- the wildcards of `LIKE` keep their backslash
  else if b == 37 || b == 95 then [92, b]
  else [b]

/-! ## The lexer -/

/-- The first byte of a token, or a space. -/
def start (done : List Token) (b : UInt8) : Option Lexer :=
  if isSpace b then some ⟨done, .blank⟩
  else if isLetter b then some ⟨done, .word [b]⟩
  else if isDigit b then some ⟨done, .number (b.toNat - 48)⟩
  else if b == 39 then some ⟨done, .text []⟩
  else if b == 63 then some ⟨done ++ [.param], .blank⟩
  else if isSymbol b then some ⟨done ++ [.symbol b], .blank⟩
  else if isOperator b then some ⟨done, .operator b⟩
  else none

/-- One more byte. -/
def step (b : UInt8) (l : Lexer) : Option Lexer :=
  match l.mode with
  | .blank => start l.done b
  | .word read =>
    if isLetter b || isDigit b then some ⟨l.done, .word (read ++ [b])⟩
    else if b == 39 then none
    else start (l.done ++ [.word read]) b
  | .number n =>
    if isDigit b then some ⟨l.done, .number (10 * n + (b.toNat - 48))⟩
    else if isLetter b || b == 46 then none
    else start (l.done ++ [.number n]) b
  | .operator c =>
    if isOperator b || c == 46 && isDigit b then none else start (l.done ++ [.symbol c]) b
  | .text value =>
    if b == 92 then some ⟨l.done, .backslash value⟩
    else if b == 39 then some ⟨l.done, .quote value⟩
    else some ⟨l.done, .text (value ++ [b])⟩
  | .backslash value => some ⟨l.done, .text (value ++ unescaped b)⟩
  | .quote value =>
    if b == 39 then some ⟨l.done, .text (value ++ [39])⟩
    else start (l.done ++ [.text value]) b

/-- Byte by byte. -/
def run : Lexer → Bytes → Option Lexer
  | l, [] => some l
  | l, b :: s => (step b l).bind (run · s)

/-- The end of the text. -/
def finish (l : Lexer) : Option (List Token) :=
  match l.mode with
  | .blank => some l.done
  | .word read => some (l.done ++ [.word read])
  | .number n => some (l.done ++ [.number n])
  | .operator c => some (l.done ++ [.symbol c])
  | .quote value => some (l.done ++ [.text value])
  | .text _ | .backslash _ => none

/-- With the character set: how many bytes the character at the head of a text has, if it has
more than one. `owed` bytes belong to the last character. -/
def scan (charset : Bytes → Nat) : (owed : Nat) → Lexer → Bytes → Option Lexer
  | _, l, [] => some l
  | owed + 1, ⟨done, .text value⟩, b :: s => scan charset owed ⟨done, .text (value ++ [b])⟩ s
  | 0, ⟨done, .text value⟩, b :: s =>
    match charset (b :: s) with
    | owed + 2 => scan charset (owed + 1) ⟨done, .text (value ++ [b])⟩ s
    | _ => (step b ⟨done, .text value⟩).bind (scan charset 0 · s)
  | _, l, b :: s => (step b l).bind (scan charset 0 · s)

/-- The tokens of a whole statement, by whole characters of the character set. -/
def lex (charset : Bytes → Nat) (s : Bytes) : Option (List Token) :=
  (scan charset 0 ⟨[], .blank⟩ s).bind finish

variable {charset : Bytes → Nat} {done : List Token} {m : Mode} {l l' : Lexer} {s s' : Bytes}
  {b : UInt8}

/-! ## Characters of several bytes -/

/-- A character of several bytes has no ASCII byte. -/
def AsciiSafe (charset : Bytes → Nat) : Prop :=
  ∀ s k, charset s = k + 2 → ∀ b ∈ s.take (k + 2), 0x80 ≤ b

/-- A byte that is not ASCII is part of a text. -/
theorem step_text_high (h : 0x80 ≤ b) (value : Bytes) :
    step b ⟨done, .text value⟩ = some ⟨done, .text (value ++ [b])⟩ := by
  have hbackslash : b ≠ 92 := by rintro rfl; exact absurd h (by decide)
  have hquote : b ≠ 39 := by rintro rfl; exact absurd h (by decide)
  simp [step, hbackslash, hquote]

/-- **The character set makes no difference** when it keeps ASCII bytes apart. -/
theorem scan_eq_run (h : AsciiSafe charset) : ∀ (s : Bytes) (owed : Nat) (l : Lexer),
    (∀ b ∈ s.take owed, 0x80 ≤ b) → scan charset owed l s = run l s := by
  intro s
  induction s with
  | nil =>
    intro owed l _
    cases owed <;> rfl
  | cons b s ih =>
    intro owed l howed
    have hstep : (step b l).bind (scan charset 0 · s) = run l (b :: s) :=
      congrArg _ (funext fun l' => ih 0 l' fun _ hb => nomatch hb)
    obtain ⟨done, mode⟩ := l
    cases mode with
    | text value =>
      cases owed with
      | zero =>
        rw [scan]
        split
        · next k hk =>
          -- the other bytes of the character are taken as they are
          have hhigh := h (b :: s) k hk
          rw [List.take_succ_cons] at hhigh
          rw [run, step_text_high (hhigh b List.mem_cons_self)]
          exact ih (k + 1) _ fun c hc => hhigh c (List.mem_cons_of_mem _ hc)
        · exact hstep
      | succ owed =>
        rw [List.take_succ_cons] at howed
        rw [scan, run, step_text_high (howed b List.mem_cons_self)]
        exact ih owed _ fun c hc => howed c (List.mem_cons_of_mem _ hc)
    | _ => cases owed <;> exact hstep

/-- In a character set that is safe, reading bytes is reading characters. -/
theorem lex_eq_run (h : AsciiSafe charset) (s : Bytes) :
    lex charset s = (run ⟨[], .blank⟩ s).bind finish :=
  congrArg (Option.bind · finish) (scan_eq_run h s 0 _ fun _ hb => nomatch hb)

/-- The bytes that follow the first of a character, each in its range. -/
def continues : Nat → UInt8 → UInt8 → Bytes → Bool
  | 0, _, _, _ => true
  | _ + 1, _, _, [] => false
  | owed + 1, low, high, b :: s => low ≤ b && b ≤ high && continues owed 0x80 0xBF s

/-- `my_ismbchar` -/
def utf8mb4 : Bytes → Nat
  | [] => 0
  | b :: s =>
    match utf8Lead b with
    | some (owed + 1, low, high) => if continues (owed + 1) low high s then owed + 2 else 0
    | _ => 0

/-- The bytes that continue a character of UTF-8 are not ASCII. -/
theorem continues_high {owed : Nat} : ∀ {low high : UInt8} {s : Bytes}, 0x80 ≤ low →
    continues owed low high s = true → ∀ b ∈ s.take owed, 0x80 ≤ b := by
  induction owed with
  | zero => exact fun _ _ b hb => nomatch hb
  | succ owed ih =>
    rintro low high (_ | ⟨b, s⟩) hlow h
    · cases h
    · simp only [continues, Bool.and_eq_true, decide_eq_true_eq] at h
      rw [List.take_succ_cons]
      intro c hc
      rcases List.mem_cons.mp hc with rfl | hc
      · exact UInt8.le_trans hlow h.1.1
      · exact ih (by decide) h.2 c hc

/-- A first byte that is owed others is not ASCII, and neither are these. -/
theorem utf8Lead_high {owed : Nat} {low high : UInt8}
    (h : utf8Lead b = some (owed + 1, low, high)) :
    0x80 ≤ b ∧ 0x80 ≤ low := by
  have hb : 0x80 ≤ b := by
    rcases UInt8.lt_or_le b 0x80 with hlt | hle
    · rw [utf8Lead, if_pos hlt] at h
      cases h
    · exact hle
  refine ⟨hb, ?_⟩
  unfold utf8Lead at h
  repeat' split at h
  all_goals cases h
  all_goals decide

/-- **`utf8mb4` is safe**: no part of a character looks like a quote. -/
theorem asciiSafe_utf8mb4 : AsciiSafe utf8mb4 := by
  rintro (_ | ⟨b, s⟩) k h
  · cases h
  · rw [utf8mb4] at h
    split at h
    · next owed low high hlead =>
      split at h
      · next hcontinues =>
        cases h
        obtain ⟨hb, hlow⟩ := utf8Lead_high hlead
        rw [List.take_succ_cons]
        intro c hc
        rcases List.mem_cons.mp hc with rfl | hc
        · exact hb
        · exact continues_high hlow hcontinues c hc
      · cases h
    · cases h

/-! ## Reading on -/

/-- Reading goes on where it has stopped. -/
theorem run_append (l : Lexer) (s s' : Bytes) : run l (s ++ s') = (run l s).bind (run · s') := by
  induction s generalizing l with
  | nil => rfl
  | cons b s ih =>
    simp only [List.cons_append, run]
    cases step b l with
    | none => rfl
    | some l' => exact ih l'

/-- The lexer with these tokens read before. -/
def Lexer.after (done : List Token) (l : Lexer) : Lexer := ⟨done ++ l.done, l.mode⟩

/-- The tokens before do not matter to what a byte begins. -/
theorem start_after (d : List Token) :
    start (done ++ d) b = (start d b).map (Lexer.after done) := by
  unfold start
  repeat' split
  all_goals simp [Lexer.after]

/-- Nor to how it goes on. -/
theorem step_after (b : UInt8) (l : Lexer) :
    step b (l.after done) = (step b l).map (Lexer.after done) := by
  obtain ⟨d, mode⟩ := l
  unfold step Lexer.after
  cases mode with
  | blank => exact start_after d
  | backslash value => rfl
  | word | number | operator | text | quote =>
    simp only [List.append_assoc, start_after]
    repeat' split
    all_goals rfl

/-- What has been read before makes no difference. -/
theorem run_after (l : Lexer) (s : Bytes) :
    run (l.after done) s = (run l s).map (Lexer.after done) := by
  induction s generalizing l with
  | nil => rfl
  | cons b s ih =>
    rw [run, run, step_after]
    cases step b l with
    | none => rfl
    | some l' => exact ih l'

/-- Nor to how it ends. -/
theorem finish_after (l : Lexer) :
    finish (l.after done) = (finish l).map (done ++ ·) := by
  obtain ⟨d, mode⟩ := l
  cases mode <;> simp [finish, Lexer.after]

/-! ## Values in a literal -/

/-- What a byte is written as after a backslash. -/
def escapeLetter (b : UInt8) : Option UInt8 :=
  if b = 0 then some 48
  else if b = 10 then some 110
  else if b = 13 then some 114
  else if b = 26 then some 90
  else if b = 34 ∨ b = 39 ∨ b = 92 then some b
  else none

/-- What `mysql_real_escape_string` may make of a value in a UTF-8 connection: backslash, both
quotes, `NUL`, newline, carriage return and Control-Z get a backslash, and so may a byte that
begins no whole character. -/
inductive Escapes : Bytes → Bytes → Prop where
  | nil : Escapes [] []
  | special {b letter : UInt8} {v out : Bytes} (h : escapeLetter b = some letter)
      (rest : Escapes v out) : Escapes (b :: v) (92 :: letter :: out)
  | plain {b : UInt8} {v out : Bytes} (h : escapeLetter b = none) (rest : Escapes v out) :
      Escapes (b :: v) (b :: out)
  | broken {b : UInt8} {v out : Bytes} (h : 0x80 ≤ b) (rest : Escapes v out) :
      Escapes (b :: v) (92 :: b :: out)

/-- An escape is read back. -/
theorem unescaped_escapeLetter {letter : UInt8} (h : escapeLetter b = some letter) :
    unescaped letter = [b] ∧ letter ≠ 0 := by
  unfold escapeLetter at h
  split at h
  · next hb => cases h; cases hb; decide
  split at h
  · next hb => cases h; cases hb; decide
  split at h
  · next hb => cases h; cases hb; decide
  split at h
  · next hb => cases h; cases hb; decide
  split at h
  · next hb =>
    cases h
    rcases hb with rfl | rfl | rfl <;> decide
  · cases h

/-- A byte that is not ASCII stands for itself after a backslash. -/
theorem unescaped_high (h : 0x80 ≤ b) : unescaped b = [b] := by
  have hne : ∀ c : UInt8, c < 0x80 → b ≠ c := by
    rintro c hc rfl
    exact UInt8.not_le.mpr hc h
  simp [unescaped, hne 48 (by decide), hne 98 (by decide), hne 110 (by decide),
    hne 114 (by decide), hne 116 (by decide), hne 90 (by decide), hne 37 (by decide),
    hne 95 (by decide)]

/-- A byte that needs no escape is part of the text. -/
theorem step_text_plain (h : escapeLetter b = none) (value : Bytes) :
    step b ⟨done, .text value⟩ = some ⟨done, .text (value ++ [b])⟩ := by
  have hbackslash : b ≠ 92 := by rintro rfl; cases h
  have hquote : b ≠ 39 := by rintro rfl; cases h
  simp [step, hbackslash, hquote]

/-- **An escaped value is read as the value.** -/
theorem run_escaped {v out : Bytes} (h : Escapes v out) : ∀ value : Bytes,
    run ⟨done, .text value⟩ out = some ⟨done, .text (value ++ v)⟩ := by
  induction h with
  | nil =>
    intro value
    rw [List.append_nil]
    rfl
  | @special b letter v out hletter _ ih =>
    intro value
    show run ⟨done, .text (value ++ unescaped letter)⟩ out = _
    rw [(unescaped_escapeLetter hletter).1, ih, List.append_assoc]
    rfl
  | @plain b v out hnone _ ih =>
    intro value
    rw [run, step_text_plain hnone, Option.bind_some, ih, List.append_assoc]
    rfl
  | @broken b v out hhigh _ ih =>
    intro value
    show run ⟨done, .text (value ++ unescaped b)⟩ out = _
    rw [unescaped_high hhigh, ih, List.append_assoc]
    rfl

/-- An escaped text has no null byte. -/
theorem zero_not_mem_escaped {v out : Bytes} (h : Escapes v out) : 0 ∉ out := by
  induction h with
  | nil => exact List.not_mem_nil
  | special hletter _ ih => simp [ih, (unescaped_escapeLetter hletter).2.symm]
  | plain hnone _ ih =>
    intro hmem
    rcases List.mem_cons.mp hmem with rfl | hmem
    · cases hnone
    · exact ih hmem
  | broken hhigh _ ih =>
    intro hmem
    rcases List.mem_cons.mp hmem with hzero | hmem
    · cases hzero
    rcases List.mem_cons.mp hmem with rfl | hmem
    · exact absurd hhigh (by decide)
    · exact ih hmem

/-! ## Numerals -/

/-- A digit as a byte. -/
def digit (d : Nat) : UInt8 := UInt8.ofNat (48 + d)

/-- `std::to_string` -/
def decimal (n : Nat) : Bytes :=
  if n < 10 then [digit n] else decimal (n / 10) ++ [digit (n % 10)]

/-- It is a digit, and nothing else. -/
theorem digit_spec : ∀ d < 10, isDigit (digit d) = true ∧ isSpace (digit d) = false ∧
    isLetter (digit d) = false ∧ isOperator (digit d) = false ∧ (digit d).toNat - 48 = d ∧
    digit d ≠ 0 := by decide

/-- **A numeral is read as the number.** -/
theorem run_decimal (n : Nat) : run ⟨done, .blank⟩ (decimal n) = some ⟨done, .number n⟩ := by
  induction n using decimal.induct with
  | case1 n hn =>
    obtain ⟨hdigit, hspace, hletter, -, hvalue, -⟩ := digit_spec n hn
    rw [decimal, if_pos hn]
    simp [run, step, start, hdigit, hspace, hletter, hvalue]
  | case2 n hn ih =>
    obtain ⟨hdigit, -, -, -, hvalue, -⟩ := digit_spec (n % 10) (Nat.mod_lt _ (by decide))
    rw [decimal, if_neg hn, run_append, ih, Option.bind_some]
    simp only [run, step, hdigit, if_true, Option.bind_some, hvalue, Nat.div_add_mod]

/-- After an operator the numeral begins a token as well. -/
theorem run_decimal_operator {c : UInt8} (hc : c ≠ 46) (n : Nat) :
    run ⟨done, .operator c⟩ (decimal n) = some ⟨done ++ [.symbol c], .number n⟩ := by
  have hhead : ∃ d < 10, ∃ s, decimal n = digit d :: s := by
    induction n using decimal.induct with
    | case1 n hn => exact ⟨n, hn, [], by rw [decimal, if_pos hn]⟩
    | case2 n hn ih =>
      obtain ⟨d, hd, s, hs⟩ := ih
      exact ⟨d, hd, s ++ [digit (n % 10)], by rw [decimal, if_neg hn, hs]; rfl⟩
  obtain ⟨d, hd, s, hs⟩ := hhead
  obtain ⟨-, -, -, hoperator, -, -⟩ := digit_spec d hd
  rw [← run_decimal, hs]
  simp [run, step, hoperator, hc]

/-- A numeral has no null byte. -/
theorem zero_not_mem_decimal (n : Nat) : 0 ∉ decimal n := by
  induction n using decimal.induct with
  | case1 n hn =>
    rw [decimal, if_pos hn, List.mem_singleton]
    exact (digit_spec n hn).2.2.2.2.2.symm
  | case2 n hn ih =>
    rw [decimal, if_neg hn, List.mem_append, List.mem_singleton, not_or]
    exact ⟨ih, (digit_spec (n % 10) (Nat.mod_lt _ (by decide))).2.2.2.2.2.symm⟩

end MiniOj.Infra.Sql
