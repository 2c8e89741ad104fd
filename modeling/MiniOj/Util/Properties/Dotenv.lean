import MiniOj.Infra.Separator
import MiniOj.Util.Dotenv

/-!
# What a dotenv file says

A file that writes each entry as `key="value"` on a line of its own is read back by `loadDotenv`.
Blank lines, comments and white space around the keys make no difference, and every value
without a line end survives: quotes, separators and blanks in it are not touched.
-/

namespace MiniOj.Util

open Infra

/-! ## Files -/

/-- A key and a value as they may stand in a dotenv file. -/
structure Entry where
  key : Bytes
  value : Bytes
  key_ne_nil : key ≠ []
  /-- no `=` -/
  key_separator : 61 ∉ key
  key_newline : 10 ∉ key
  key_head : ∀ b, key.head? = some b → isTrimmed b = false ∧ b ≠ 35
  key_last : ∀ b, key.getLast? = some b → isTrimmed b = false
  value_newline : 10 ∉ value

/-- White space within a line. -/
structure Padding where
  text : Bytes
  trimmed : ∀ b ∈ text, isTrimmed b = true
  newline : 10 ∉ text

/-- A line of a dotenv file. -/
inductive DotenvLine where
  | blank (padding : Padding)
  /-- `#` and anything after it -/
  | comment (indent : Padding) (text : Bytes) (newline : 10 ∉ text)
  | entry (before : Padding) (entry : Entry) (after : Padding)

/-- A value between double quotes. -/
def quote (value : Bytes) : Bytes := 34 :: value ++ [34]

namespace DotenvLine

/-- The bytes of a line, without its end. -/
def text : DotenvLine → Bytes
  | blank padding => padding.text
  | comment indent text _ => indent.text ++ 35 :: text
  | entry before e after => before.text ++ (e.key ++ after.text ++ 61 :: quote e.value)

/-- The entry of a line that has one. -/
def entry? : DotenvLine → Option Entry
  | entry _ e _ => some e
  | _ => none

/-- A line has no line end inside. -/
theorem newline_notMem (line : DotenvLine) : 10 ∉ line.text := by
  cases line with
  | blank padding => exact padding.newline
  | comment indent comment h => simp [text, indent.newline, h]
  | entry before e after =>
    simp [text, quote, before.newline, after.newline, e.key_newline, e.value_newline]

end DotenvLine

/-- The lines with a line end between them. A file that ends with one has a blank line last. -/
def dotenvText (lines : List DotenvLine) : Bytes :=
  List.intercalate [10] (lines.map DotenvLine.text)

/-- The value in the last entry of each key. -/
def lastValues (lines : List DotenvLine) : Values := fun key =>
  ((lines.filterMap DotenvLine.entry?).reverse.find? fun e => e.key == key).map Entry.value

/-! ## Reading lines -/

/-- A line ends at its line end. -/
theorem linesFrom_append {l : Bytes} (h : 10 ∉ l) (line rest : Bytes) :
    linesFrom line (l ++ 10 :: rest) = (line ++ l) :: linesFrom [] rest := by
  induction l generalizing line with
  | nil => rw [List.nil_append, linesFrom, if_pos rfl, List.append_nil]
  | cons b l ih =>
    rw [List.mem_cons, not_or] at h
    rw [List.cons_append, linesFrom, if_neg (Ne.symm h.1), ih h.2, List.append_assoc,
      List.singleton_append]

/-- The last line ends with the file. -/
theorem linesFrom_last {l : Bytes} (h : 10 ∉ l) (line : Bytes) :
    linesFrom line l = if line ++ l = [] then [] else [line ++ l] := by
  induction l generalizing line with
  | nil => rw [linesFrom, List.append_nil]
  | cons b l ih =>
    rw [List.mem_cons, not_or] at h
    rw [linesFrom, if_neg (Ne.symm h.1), ih h.2, List.append_assoc, List.singleton_append]

/-! ## One line -/

/-- A blank line says nothing. -/
theorem readLine_blank (values : Values) {line : Bytes} (h : trim line = []) :
    readLine values line = .ok values := by
  unfold readLine
  dsimp only
  rw [h]
  exact if_pos (.inl rfl)

/-- A comment is one also when it is indented. -/
theorem trim_comment (indent : Padding) (text : Bytes) :
    (trim (indent.text ++ 35 :: text)).head? = some 35 := by
  have hdrop : (indent.text ++ 35 :: text).dropWhile isTrimmed = 35 :: text := by
    rw [List.dropWhile_append_of_pos indent.trimmed]
    exact List.dropWhile_cons_of_neg (by decide)
  have hprefix := List.rdropWhile_prefix isTrimmed (35 :: text)
  unfold trim Infra.trim
  rw [hdrop]
  cases hcut : (35 :: text).rdropWhile isTrimmed with
  | nil =>
    have hall := List.rdropWhile_eq_nil_iff.mp hcut 35 List.mem_cons_self
    exact absurd hall (by decide)
  | cons b rest =>
    rw [hcut] at hprefix
    rw [(List.cons_prefix_cons.mp hprefix).1]
    rfl

theorem getLast?_quote (l value : Bytes) : (l ++ quote value).getLast? = some 34 := by
  unfold quote
  rw [← List.append_assoc]
  exact List.getLast?_concat

/-- One pair of quotes is taken off, whatever is in between. -/
theorem unquote_quote (value : Bytes) : unquote (quote value) = value := by
  have hlen : 2 ≤ (quote value).length := by simp [quote]
  unfold unquote
  rw [if_pos ⟨hlen, .inl ⟨rfl, getLast?_quote [] value⟩⟩]
  simp [quote]

/-- Quotes protect the blanks of a value. -/
theorem trim_quote (value : Bytes) : trim (quote value) = quote value := by
  refine trim_eq_self (fun b hb => ?_) fun b hb => ?_
  · cases hb
    decide
  · cases (getLast?_quote [] value).symm.trans hb
    decide

/-- The line of an entry between the blanks around it. -/
theorem trim_entry (before after : Padding) (e : Entry) :
    trim (DotenvLine.entry before e after).text = e.key ++ after.text ++ 61 :: quote e.value := by
  have hnil : ∀ b ∈ ([] : Bytes), isTrimmed b = true := fun _ h => nomatch h
  have hpad := trim_append (l := e.key ++ after.text ++ 61 :: quote e.value) before.trimmed hnil
  rw [List.append_nil] at hpad
  refine hpad.trans (trim_eq_self (fun b hb => ?_) fun b hb => ?_)
  · obtain ⟨k, rest, hkey⟩ := List.exists_cons_of_ne_nil e.key_ne_nil
    rw [hkey] at hb
    exact (e.key_head b (by rw [hkey]; exact hb)).1
  · have hlast := getLast?_quote (e.key ++ after.text ++ [61]) e.value
    rw [List.append_assoc, List.singleton_append] at hlast
    cases hlast.symm.trans hb
    decide

/-- The blanks around a key are cut. -/
theorem trim_key (e : Entry) (after : Padding) : trim (e.key ++ after.text) = e.key := by
  have hnil : ∀ b ∈ ([] : Bytes), isTrimmed b = true := fun _ h => nomatch h
  have hpad := trim_append (l := e.key) hnil after.trimmed
  rw [List.nil_append] at hpad
  exact hpad.trans (trim_eq_self (fun b hb => (e.key_head b hb).1) e.key_last)

/-- The first `=` of the line is the one behind the key. -/
theorem separator_notMem (e : Entry) (after : Padding) : 61 ∉ e.key ++ after.text := by
  rw [List.mem_append, not_or]
  exact ⟨e.key_separator, fun h => absurd (after.trimmed 61 h) (by decide)⟩

/-- **An entry sets its key.** -/
theorem readLine_entry (values : Values) (before after : Padding) (e : Entry) :
    readLine values (DotenvLine.entry before e after).text =
      .ok (Function.update values e.key (some e.value)) := by
  obtain ⟨k, rest, hkey⟩ := List.exists_cons_of_ne_nil e.key_ne_nil
  have hhead : k ≠ 35 := (e.key_head k (by rw [hkey]; rfl)).2
  have hsep : (e.key ++ after.text ++ 61 :: quote e.value).idxOf? 61 =
      some (e.key ++ after.text).length := by
    rw [idxOf?_eq_length_takeWhile, if_pos (by simp), takeWhile_ne_append,
      takeWhile_ne_eq_self (separator_notMem e after)]
  have hdrop : (e.key ++ after.text ++ 61 :: quote e.value).drop
      ((e.key ++ after.text).length + 1) = quote e.value := by
    rw [← List.drop_drop, List.drop_left, List.drop_succ_cons, List.drop_zero]
  unfold readLine
  dsimp only
  rw [trim_entry, if_neg (by simp [hkey, hhead]), hsep]
  dsimp only
  rw [List.take_left, trim_key, if_neg e.key_ne_nil, hdrop, trim_quote, unquote_quote]

/-! ## The whole file -/

/-- What a line adds to the values read before it. -/
def DotenvLine.apply (values : Values) (line : DotenvLine) : Values :=
  match line.entry? with
  | some e => Function.update values e.key (some e.value)
  | none => values

/-- Each line is read as what it is. -/
theorem readLine_text (values : Values) (line : DotenvLine) :
    readLine values line.text = .ok (line.apply values) := by
  cases line with
  | blank padding => exact readLine_blank values (trim_eq_nil padding.trimmed)
  | comment indent text h =>
    unfold readLine
    exact if_pos (.inr (trim_comment indent text))
  | entry before e after => exact readLine_entry values before after e

/-- No line throws. -/
theorem foldlM_readLine (lines : List DotenvLine) (values : Values) :
    (lines.map DotenvLine.text).foldlM readLine values =
      .ok (lines.foldl DotenvLine.apply values) := by
  induction lines generalizing values with
  | nil => rfl
  | cons line lines ih =>
    rw [List.map_cons, List.foldlM_cons, readLine_text]
    exact ih (line.apply values)

/-- A file is read line by line. An empty line at its end is not a line, and says nothing. -/
theorem foldlM_linesFrom (lines : List DotenvLine) (values : Values) :
    (linesFrom [] (dotenvText lines)).foldlM readLine values =
      (lines.map DotenvLine.text).foldlM readLine values := by
  induction lines generalizing values with
  | nil => rfl
  | cons line lines ih =>
    cases lines with
    | nil =>
      rw [show dotenvText [line] = line.text by simp [dotenvText], linesFrom_last
        line.newline_notMem, List.nil_append]
      split
      · next hempty =>
        have hread := readLine_text values line
        rw [List.map_cons, List.foldlM_cons, hempty, readLine_blank values rfl]
        rfl
      · rfl
    | cons line' lines =>
      have htext : dotenvText (line :: line' :: lines) =
          line.text ++ 10 :: dotenvText (line' :: lines) := by
        simp [dotenvText, List.intercalate]
      rw [htext, linesFrom_append line.newline_notMem, List.nil_append, List.map_cons,
        List.foldlM_cons, List.foldlM_cons, readLine_text]
      exact ih (line.apply values)

/-- The last entry of a key counts. -/
theorem foldl_apply (lines : List DotenvLine) : lines.foldl DotenvLine.apply (fun _ => none) =
    lastValues lines := by
  induction lines using List.reverseRecOn with
  | nil => rfl
  | append_singleton lines line ih =>
    rw [List.foldl_append, ih, List.foldl_cons, List.foldl_nil]
    funext key
    unfold DotenvLine.apply lastValues
    rw [List.filterMap_append, List.reverse_append]
    cases he : line.entry? with
    | none => simp [he]
    | some e =>
      simp only [List.filterMap_cons, he, List.filterMap_nil, List.reverse_singleton,
        List.singleton_append, List.find?_cons]
      by_cases hkey : key = e.key
      · simp [hkey]
      · have hne : (e.key == key) = false := beq_false_of_ne (Ne.symm hkey)
        simp [Function.update_of_ne hkey, hne]

/--
**A dotenv file is read back.**

Whatever entries are written, with blank lines and comments between them and white space around
the keys, `loadDotenv` does not throw and returns the value in the last entry of each key.
-/
theorem loadDotenv_text (lines : List DotenvLine) :
    loadDotenv (some (dotenvText lines)) = .ok (lastValues lines) := by
  unfold loadDotenv
  rw [Option.getD_some, foldlM_linesFrom, foldlM_readLine, foldl_apply]

/-- A line for the key `DB_USER`. -/
def userLine (before after : Padding) (value : Bytes) (h : 10 ∉ value) : DotenvLine :=
  .entry before
    { key := utf8 "DB_USER", value
      key_ne_nil := by decide
      key_separator := by decide
      key_newline := by decide
      key_head := by rintro b ⟨⟩; decide
      key_last := by rintro b ⟨⟩; decide
      value_newline := h } after

/-- A comment, and a key that is given twice, the second time with quotes in its value. -/
def twoUsers : List DotenvLine :=
  let none : Padding := ⟨[], by simp, by simp⟩
  let space : Padding := ⟨[32], by simp [isTrimmed], by simp⟩
  [.comment space (utf8 " who connects") (by decide),
    userLine none none (utf8 "root") (by decide),
    userLine space space (utf8 "the \"judge\"") (by decide)]

example : dotenvText twoUsers =
    utf8 " # who connects\nDB_USER=\"root\"\n DB_USER =\"the \"judge\"\"" := by
  decide +kernel

/-- The quotes inside the value stay. -/
example : (loadDotenv (some (dotenvText twoUsers))).toOption.map (· (utf8 "DB_USER")) =
    some (some (utf8 "the \"judge\"")) := by decide +kernel

end MiniOj.Util
