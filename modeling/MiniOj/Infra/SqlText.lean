import Mathlib.Data.Option.Basic
import MiniOj.Infra.SqlLexer

/-!
# SQL texts put together from values

A statement is the concatenation of fixed text, escaped values between quotes, and numerals.
Whether it is put together rightly can be seen from the fixed text alone: `template` reads it
with a placeholder for each value.

* `lex_render` — the tokens are those of the template, with the values for the placeholders
* `zero_not_mem_render` — there is no `NUL` in the text
-/

namespace MiniOj.Infra.Sql

/-- An operand of the concatenation. -/
inductive Piece where
  | lit (text : String)
  /-- `escape(connection, value)` -/
  | escaped (value : Bytes)
  /-- `std::to_string(value)` -/
  | number (value : Nat)
  deriving DecidableEq, Repr

variable {escape : Bytes → Bytes} {charset : Bytes → Nat} {done ts before : List Token} {t : Token}
  {s after after' : Bytes} {rest : List (Token × Bytes)} {sql : List Piece} {l : Lexer}

/-- The text of a value. -/
def Token.bytes (escape : Bytes → Bytes) : Token → Bytes
  | .text value => escape value
  | .number n => decimal n
  | _ => []

/-- What is put into the text for a piece. -/
def Piece.bytes (escape : Bytes → Bytes) : Piece → Bytes
  | .lit text => utf8 text
  | .escaped value => escape value
  | .number n => decimal n

/-- The whole text. -/
def render (escape : Bytes → Bytes) (sql : List Piece) : Bytes := sql.flatMap (Piece.bytes escape)

/-- The text up to the first value, and each value with the text after it. -/
def frames : List Piece → Bytes × List (Token × Bytes)
  | [] => ([], [])
  | .lit text :: sql => (utf8 text ++ (frames sql).1, (frames sql).2)
  | .escaped value :: sql => ([], (.text value, (frames sql).1) :: (frames sql).2)
  | .number n :: sql => ([], (.number n, (frames sql).1) :: (frames sql).2)

/-- The values that are put in. -/
def values (sql : List Piece) : List Token := (frames sql).2.map Prod.fst

/-- The text with the values put in. -/
def weave (escape : Bytes → Bytes) (rest : List (Token × Bytes)) : Bytes :=
  rest.flatMap fun p => p.1.bytes escape ++ p.2

/-- The text is fixed text with the values woven in. -/
theorem render_eq (sql : List Piece) :
    render escape sql = (frames sql).1 ++ weave escape (frames sql).2 := by
  induction sql with
  | nil => rfl
  | cons p sql ih =>
    have hcons : render escape (p :: sql) = p.bytes escape ++ render escape sql := rfl
    rw [hcons, ih]
    cases p with
    | lit text => exact (List.append_assoc _ _ _).symm
    | escaped value => exact (List.append_assoc (escape value) _ _).symm
    | number n => exact (List.append_assoc (decimal n) _ _).symm

/-! ## Templates -/

/-- The tokens before a value, when the text before it has been read: for a text a quote has just
been opened, for a number a token may begin. -/
def opens : Token → Lexer → Option (List Token)
  | .text _, ⟨done, .text []⟩ => some done
  | .number _, ⟨done, .blank⟩ => some done
  | .number _, ⟨done, .operator c⟩ => if c = 46 then none else some (done ++ [.symbol c])
  | _, _ => none

/-- What is left of the text after a value when the value has ended. -/
def closes : Token → Bytes → Option Bytes
  | .text _, s =>
    if s.head? = some 39 ∧ s.tail.head? ≠ some 39 then some s.tail else none
  | .number _, s => if s.head?.any fun b => isDigit b || isLetter b || b == 46 then none else some s
  | _, _ => none

/-- The tokens, with a placeholder for each value, whatever the values are. -/
def template : Bytes → List (Token × Bytes) → Option (List Token)
  | s, [] => do
    let ts ← (run ⟨[], .blank⟩ s).bind finish
    guard (.param ∉ ts)
    return ts
  | s, (t, after) :: rest => do
    let before ← (run ⟨[], .blank⟩ s).bind (opens t)
    let after ← closes t after
    guard (.param ∉ before ∧ (after = [] → rest = []))
    let more ← template after rest
    return before ++ .param :: more

/-- The values for the placeholders, in their order. -/
def fill : List Token → List Token → List Token
  | [], _ => []
  | .param :: ts, value :: values => value :: fill ts values
  | t :: ts, values => t :: fill ts values

/-- Text without parameters is left as it is. -/
theorem fill_append (h : .param ∉ before) (ts values : List Token) :
    fill (before ++ ts) values = before ++ fill ts values := by
  induction before with
  | nil => rfl
  | cons t before ih =>
    obtain ⟨ht, hbefore⟩ := not_or.mp (List.mem_cons.not.mp h)
    cases t with
    | param => exact absurd rfl ht
    | _ => exact congrArg _ (ih hbefore)

/-- There is nothing to fill in. -/
theorem fill_nil (ts : List Token) : fill ts [] = ts := by
  induction ts with
  | nil => rfl
  | cons t ts ih => cases t <;> exact congrArg _ ih

/-! ## Reading a value -/

/-- The tokens before do not matter to how a value begins. -/
theorem opens_after (done : List Token) (t : Token) (l : Lexer) :
    opens t (l.after done) = (opens t l).map (done ++ ·) := by
  obtain ⟨d, mode⟩ := l
  cases t with
  | text value =>
    cases mode with
    | text v => cases v <;> rfl
    | _ => rfl
  | number n =>
    cases mode with
    | operator c =>
      simp only [opens, Lexer.after]
      split
      · rfl
      · simp
    | _ => rfl
  | _ => rfl

/-- A string ends with its quote, and no other quote follows. -/
theorem closes_text {value : Bytes} (h : closes (.text value) after = some after') :
    after = 39 :: after' ∧ ∀ b s, after' = b :: s → b ≠ 39 := by
  obtain ⟨⟨hhead, hnext⟩, htail⟩ := Option.ite_none_right_eq_some.mp h
  cases after with
  | nil => cases hhead
  | cons c s =>
    cases hhead
    cases htail
    refine ⟨rfl, ?_⟩
    rintro b s hs rfl
    exact hnext (congrArg List.head? hs)

/-- No digit, letter or dot follows a number. -/
theorem closes_number {n : Nat} (h : closes (.number n) after = some after') :
    after = after' ∧ ∀ b s, after' = b :: s →
      isDigit b = false ∧ isLetter b = false ∧ b ≠ 46 := by
  obtain ⟨hnone, h⟩ := Option.ite_none_left_eq_some.mp h
  cases h
  refine ⟨rfl, ?_⟩
  rintro b s rfl
  simp only [List.head?_cons, Option.any_some, Bool.not_eq_true, Bool.or_eq_false_iff,
    beq_eq_false_iff_ne] at hnone
  exact ⟨hnone.1.1, hnone.1.2, hnone.2⟩

/-- A value of its kind at the place that has been opened for it is read up to its end. -/
theorem run_value (hescape : ∀ v, Escapes v (escape v)) (hopen : opens t l = some before)
    (hclose : closes t after = some after') {tail : Bytes} (htail : after' = [] → tail = []) :
    (run l (t.bytes escape ++ (after ++ tail))).bind finish =
      (run ⟨before ++ [t], .blank⟩ (after' ++ tail)).bind finish := by
  -- the value has ended, and the next byte begins something else
  have hnext : ∀ l' : Lexer, finish l' = some (before ++ [t]) →
      (∀ b s, after' = b :: s → step b l' = start (before ++ [t]) b) →
      (run l' (after' ++ tail)).bind finish =
        (run ⟨before ++ [t], .blank⟩ (after' ++ tail)).bind finish := by
    intro l' hfinish hstep
    cases after' with
    | nil =>
      rw [htail rfl]
      exact hfinish
    | cons b s =>
      rw [List.cons_append, run, run, hstep b s rfl]
      rfl
  obtain ⟨d, mode⟩ := l
  rw [run_append]
  cases t with
  | text value =>
    obtain ⟨rfl, hquote⟩ := closes_text hclose
    have hmode : d = before ∧ mode = .text [] := by
      cases mode with
      | text v =>
        cases v with
        | nil => cases hopen; exact ⟨rfl, rfl⟩
        | cons => cases hopen
      | _ => cases hopen
    obtain ⟨rfl, rfl⟩ := hmode
    have hread : run ⟨d, .text []⟩ (Token.bytes escape (.text value)) = some ⟨d, .text value⟩ :=
      run_escaped (hescape value) []
    rw [hread]
    refine hnext ⟨d, .quote value⟩ rfl ?_
    intro b s hb
    simp [step, hquote b s hb]
  | number n =>
    obtain ⟨rfl, hbyte⟩ := closes_number hclose
    have hread : run ⟨d, mode⟩ (Token.bytes escape (.number n)) = some ⟨before, .number n⟩ := by
      cases mode with
      | blank =>
        cases hopen
        exact run_decimal n
      | operator c =>
        simp only [opens] at hopen
        split at hopen
        · cases hopen
        · next hc =>
          cases hopen
          exact run_decimal_operator hc n
      | _ => cases hopen
    rw [hread]
    refine hnext ⟨before, .number n⟩ rfl ?_
    intro b s hb
    obtain ⟨hdigit, hletter, hpoint⟩ := hbyte b s hb
    simp [step, hdigit, hletter, hpoint]
  | _ => cases hopen

/-! ## Reading the whole text -/

/-- Fixed text alone has no parameter. -/
theorem template_nil_eq_some (h : template s [] = some ts) :
    (run ⟨[], .blank⟩ s).bind finish = some ts ∧ .param ∉ ts := by
  obtain ⟨ts', hread, h⟩ := Option.bind_eq_some_iff.mp h
  obtain ⟨_, hguard, h⟩ := Option.bind_eq_some_iff.mp h
  cases h
  exact ⟨hread, (Option.guard_eq_some' _).mp hguard⟩

/-- A template with one more value. -/
theorem template_cons_eq_some (h : template s ((t, after) :: rest) = some ts) :
    ∃ l before after' more, run ⟨[], .blank⟩ s = some l ∧ opens t l = some before ∧
      closes t after = some after' ∧ .param ∉ before ∧ (after' = [] → rest = []) ∧
      template after' rest = some more ∧ ts = before ++ .param :: more := by
  obtain ⟨before, hbefore, h⟩ := Option.bind_eq_some_iff.mp h
  obtain ⟨after', hclose, h⟩ := Option.bind_eq_some_iff.mp h
  obtain ⟨_, hguard, h⟩ := Option.bind_eq_some_iff.mp h
  obtain ⟨more, hmore, h⟩ := Option.bind_eq_some_iff.mp h
  obtain ⟨l, hread, hopen⟩ := Option.bind_eq_some_iff.mp hbefore
  obtain ⟨hparam, hend⟩ := (Option.guard_eq_some' _).mp hguard
  cases h
  exact ⟨l, before, after', more, hread, hopen, hclose, hparam, hend, hmore, rfl⟩

/-- Reading goes on from any tokens. -/
theorem run_blank (done : List Token) (s : Bytes) :
    run ⟨done, .blank⟩ s = (run ⟨[], .blank⟩ s).map (Lexer.after done) := by
  rw [← run_after, Lexer.after, List.append_nil]

/-- **The values are read as single tokens**, and the rest as it is. -/
theorem run_weave (hescape : ∀ v, Escapes v (escape v)) (h : template s rest = some ts) :
    ∀ done, (run ⟨done, .blank⟩ (s ++ weave escape rest)).bind finish =
      some (done ++ fill ts (rest.map Prod.fst)) := by
  induction rest generalizing s ts with
  | nil =>
    intro done
    obtain ⟨hread, -⟩ := template_nil_eq_some h
    obtain ⟨l, hl, hfinish⟩ := Option.bind_eq_some_iff.mp hread
    rw [weave, List.flatMap_nil, List.append_nil, run_blank, hl, Option.map_some, Option.bind_some,
      finish_after, hfinish, List.map_nil, fill_nil]
    rfl
  | cons p rest ih =>
    intro done
    obtain ⟨t, after⟩ := p
    obtain ⟨l, before, after', more, hread, hopen, hclose, hparam, hend, hmore, rfl⟩ :=
      template_cons_eq_some h
    have hweave : weave escape ((t, after) :: rest) =
        t.bytes escape ++ (after ++ weave escape rest) := List.append_assoc _ _ _
    have hopen' : opens t (l.after done) = some (done ++ before) := by
      rw [opens_after, hopen]
      rfl
    have hrest : after' = [] → weave escape rest = [] := fun hnil => by
      rw [hend hnil]
      rfl
    rw [hweave, run_append, run_blank, hread, Option.map_some, Option.bind_some,
      run_value hescape hopen' hclose hrest, ih hmore, fill_append hparam, List.map_cons, fill]
    simp only [List.append_assoc, List.singleton_append]

/-- **The tokens of a statement** are those of its template, with the values for the
placeholders. -/
theorem lex_render (hcharset : AsciiSafe charset) (hescape : ∀ v, Escapes v (escape v))
    (h : template (frames sql).1 (frames sql).2 = some ts) :
    lex charset (render escape sql) = some (fill ts (values sql)) := by
  rw [lex_eq_run hcharset, render_eq]
  exact run_weave hescape h []

/-- There is a placeholder for every value. -/
theorem count_template (h : template s rest = some ts) :
    ts.count .param = rest.length := by
  induction rest generalizing s ts with
  | nil => exact List.count_eq_zero.mpr (template_nil_eq_some h).2
  | cons p rest ih =>
    obtain ⟨t, after⟩ := p
    obtain ⟨l, before, after', more, -, -, -, hparam, -, hmore, rfl⟩ := template_cons_eq_some h
    rw [List.count_append, List.count_eq_zero.mpr hparam, List.count_cons_self, ih hmore,
      List.length_cons, Nat.zero_add]

/-- **There is no `NUL` in a statement** if there is none in the fixed text. -/
theorem zero_not_mem_render (hescape : ∀ v, Escapes v (escape v)) (hs : 0 ∉ (frames sql).1)
    (hrest : ∀ p ∈ (frames sql).2, 0 ∉ p.2) : 0 ∉ render escape sql := by
  have hvalue : ∀ t : Token, 0 ∉ t.bytes escape := by
    intro t
    cases t with
    | text value => exact zero_not_mem_escaped (hescape value)
    | number n => exact zero_not_mem_decimal n
    | _ => exact List.not_mem_nil
  rw [render_eq]
  intro hmem
  rcases List.mem_append.mp hmem with hmem | hmem
  · exact hs hmem
  · obtain ⟨p, hp, hmem⟩ := List.mem_flatMap.mp hmem
    rcases List.mem_append.mp hmem with hmem | hmem
    · exact hvalue p.1 hmem
    · exact hrest p hp hmem

/-! ## The fixed text -/

/-- Any values in the place of the ones there are. -/
def Piece.blank : Piece → Piece
  | .lit text => .lit text
  | .escaped _ => .escaped []
  | .number _ => .number 0

/-- The kind of a value, without the value. -/
def Token.blank : Token → Token
  | .text _ => .text []
  | .number _ => .number 0
  | t => t

/-- The fixed text does not depend on the values. -/
theorem frames_blank (sql : List Piece) : frames (sql.map Piece.blank) =
    ((frames sql).1, (frames sql).2.map (Prod.map Token.blank id)) := by
  induction sql with
  | nil => rfl
  | cons p sql ih => cases p <;> simp [frames, Piece.blank, Token.blank, ih]

/-- Nor does how a value begins. -/
theorem opens_blank (t : Token) (l : Lexer) : opens t.blank l = opens t l := by
  obtain ⟨d, mode⟩ := l
  cases t with
  | text v =>
    cases mode with
    | text w => cases w <;> rfl
    | _ => rfl
  | number n => cases mode <;> rfl
  | _ => rfl

/-- Nor how it ends. -/
theorem closes_blank (t : Token) (s : Bytes) : closes t.blank s = closes t s := by
  cases t <;> rfl

/-- **The template depends on the fixed text alone.** -/
theorem template_blank (s : Bytes) (rest : List (Token × Bytes)) :
    template s (rest.map (Prod.map Token.blank id)) = template s rest := by
  induction rest generalizing s with
  | nil => rfl
  | cons p rest ih =>
    obtain ⟨t, after⟩ := p
    simp only [List.map_cons, Prod.map, id, template, opens_blank, closes_blank, ih,
      List.map_eq_nil_iff]

end MiniOj.Infra.Sql
