/-!
# HTML put together from strings

The tokenizer of the HTML standard, as far as markup goes that consists of text, start and end
tags, attributes with values in double quotes, and five named character references; for any other
markup it gives up. Line ends become line feeds before it, and the tree is built after it: a
browser then leaves out U+0000 in text and a line feed right after `<pre>`.

Markup that a page puts together is a concatenation of fixed text, escaped strings and numerals.
Whether it is put together rightly can be seen from the fixed text alone.

* `tokens` — what the tokenizer makes of the text given to `innerHTML`
* `escapeText` — how a text node is serialized; `escapeQuotes` — and made fit for an attribute
* `Node` — a tree, and its tokens
* `Piece`, `readPieces` — the pieces of a concatenation, read without escaping anything
* `tokens_render` — the tokens of the concatenation are those of its pieces
-/

namespace MiniOj.Infra.Html

/-- What the tokenizer emits. -/
inductive Token where
  | start (name : List Char) (attributes : List (List Char × List Char))
  | close (name : List Char)
  | char (c : Char)
  deriving DecidableEq, Repr

/-- A start tag that is being read. -/
structure Tag where
  name : List Char
  attributes : List (List Char × List Char)
  deriving DecidableEq, Repr

/-- An attribute whose value is being read. -/
structure Attribute where
  tag : Tag
  name : List Char
  value : List Char
  deriving DecidableEq, Repr

/-- The states have the names of the standard. In a character reference `none` stands for text. -/
inductive State where
  | data
  | characterReference (back : Option Attribute) (name : List Char)
  | tagOpen
  | endTagOpen
  | endTagName (name : List Char)
  | tagName (name : List Char)
  | beforeAttributeName (tag : Tag)
  | attributeName (tag : Tag) (name : List Char)
  | beforeAttributeValue (tag : Tag) (name : List Char)
  | attributeValue (a : Attribute)
  | afterAttributeValue (tag : Tag)
  deriving DecidableEq, Repr

/-! ## The tokenizer -/

/-- The text with line feeds for all line ends, as the input stream has it. -/
def normalizeNewlines : List Char → List Char
  | [] => []
  | '\r' :: '\n' :: s => '\n' :: normalizeNewlines s
  | '\r' :: s => '\n' :: normalizeNewlines s
  | c :: s => c :: normalizeNewlines s

/-- The characters of the names that occur. -/
def isNameChar (c : Char) : Bool := c.isLower || c.isDigit || c == '-'

/-- The blanks between attributes. -/
def isBlank (c : Char) : Bool := c == ' ' || c == '\n' || c == '\t'

/-- The references that serializing a string takes. -/
def namedReference (name : List Char) : Option Char :=
  if name = ['a', 'm', 'p'] then some '&'
  else if name = ['l', 't'] then some '<'
  else if name = ['g', 't'] then some '>'
  else if name = ['q', 'u', 'o', 't'] then some '"'
  else if name = ['n', 'b', 's', 'p'] then some (Char.ofNat 160)
  else none

/-- Elements whose content is not read as markup. -/
def rawTextNames : List (List Char) :=
  ["script", "style", "textarea", "title", "xmp", "iframe", "noembed", "noframes", "noscript",
    "plaintext"].map String.toList

/-- A start tag is complete. -/
def emit (tag : Tag) : Option (State × List Token) :=
  if rawTextNames.contains tag.name then none else some (.data, [.start tag.name tag.attributes])

/-- What is kept of a character of an attribute value. -/
def attributeChar (c : Char) : Char := if c = Char.ofNat 0 then Char.ofNat 0xFFFD else c

/-- One more character of a value. -/
def Attribute.push (a : Attribute) (c : Char) : Attribute := { a with value := a.value ++ [c] }

/-- The quotes are closed. -/
def Attribute.closed (a : Attribute) : Tag :=
  { a.tag with attributes := a.tag.attributes ++ [(a.name, a.value)] }

/-- The character of a reference. -/
def resume (c : Char) : Option Attribute → State × List Token
  | none => (.data, [.char c])
  | some a => (.attributeValue (a.push c), [])

/-- One character. An attribute whose name the tag has already is given up. -/
def step : State → Char → Option (State × List Token)
  | .data, c =>
    if c = '<' then some (.tagOpen, [])
    else if c = '&' then some (.characterReference none [], [])
    else some (.data, [.char c])
  | .characterReference back name, c =>
    if c = ';' then (namedReference name).map fun c => resume c back
    else if c.isAlphanum then some (.characterReference back (name ++ [c]), [])
    else none
  | .tagOpen, c =>
    if c = '/' then some (.endTagOpen, [])
    else if c.isLower then some (.tagName [c], [])
    else none
  | .endTagOpen, c => if c.isLower then some (.endTagName [c], []) else none
  | .endTagName name, c =>
    if c = '>' then some (.data, [.close name])
    else if isNameChar c then some (.endTagName (name ++ [c]), [])
    else none
  | .tagName name, c =>
    if isBlank c then some (.beforeAttributeName ⟨name, []⟩, [])
    else if c = '>' then emit ⟨name, []⟩
    else if isNameChar c then some (.tagName (name ++ [c]), [])
    else none
  | .beforeAttributeName tag, c =>
    if isBlank c then some (.beforeAttributeName tag, [])
    else if c = '>' then emit tag
    else if isNameChar c then some (.attributeName tag [c], [])
    else none
  | .attributeName tag name, c =>
    if c = '=' then
      if tag.attributes.any fun a => a.1 == name then none
      else some (.beforeAttributeValue tag name, [])
    else if isNameChar c then some (.attributeName tag (name ++ [c]), [])
    else none
  | .beforeAttributeValue tag name, c =>
    if c = '"' then some (.attributeValue ⟨tag, name, []⟩, []) else none
  | .attributeValue a, c =>
    if c = '"' then some (.afterAttributeValue a.closed, [])
    else if c = '&' then some (.characterReference (some a) [], [])
    else some (.attributeValue (a.push (attributeChar c)), [])
  | .afterAttributeValue tag, c =>
    if isBlank c then some (.beforeAttributeName tag, [])
    else if c = '>' then emit tag
    else none

/-- The whole text, from a state. -/
def scan : State → List Char → Option (State × List Token)
  | s, [] => some (s, [])
  | s, c :: cs => do
    let (s, ts) ← step s c
    let (s, ts') ← scan s cs
    return (s, ts ++ ts')

/-- The tokens of the text, with line feeds for all line ends; `none` when it ends inside of a tag,
or is not of the kind described. -/
def tokens (html : List Char) : Option (List Token) :=
  match scan .data (normalizeNewlines html) with
  | some (.data, ts) => some ts
  | _ => none

/-! ## Escaping -/

/-- The characters that the serialization of a text node escapes. -/
def escapeChar (c : Char) : List Char :=
  if c = '&' then ['&', 'a', 'm', 'p', ';']
  else if c = Char.ofNat 160 then ['&', 'n', 'b', 's', 'p', ';']
  else if c = '<' then ['&', 'l', 't', ';']
  else if c = '>' then ['&', 'g', 't', ';']
  else [c]

/-- How the text of an element is serialized. -/
def escapeText (s : List Char) : List Char := s.flatMap escapeChar

/-- `.replace(/"/g, '&quot;')`. -/
def escapeQuotes (s : List Char) : List Char :=
  s.flatMap fun c => if c = '"' then ['&', 'q', 'u', 'o', 't', ';'] else [c]

/-! ## Trees -/

/-- A part of a document: an element with its children, or a text. -/
inductive Node where
  | text (s : List Char)
  | element (name : String) (attributes : List (String × List Char)) (children : List Node)

mutual

/-- The tokens of the node in front of others. -/
def Node.push : Node → List Token → List Token
  | .text s, rest => s.map .char ++ rest
  | .element name attributes children, rest =>
    .start name.toList (attributes.map fun a => (a.1.toList, a.2)) ::
      Node.pushAll children (.close name.toList :: rest)

/-- The tokens of several nodes, in front of others. -/
def Node.pushAll : List Node → List Token → List Token
  | [], rest => rest
  | n :: ns, rest => n.push (Node.pushAll ns rest)

end

/-- Nodes one after another. -/
theorem Node.pushAll_append (ns ns' : List Node) (rest : List Token) :
    Node.pushAll (ns ++ ns') rest = Node.pushAll ns (Node.pushAll ns' rest) := by
  induction ns with
  | nil => rfl
  | cons n ns ih => exact congrArg n.push ih

mutual

/-- The tokens of a node do not depend on what follows. -/
theorem Node.push_append (n : Node) (rest rest' : List Token) :
    n.push (rest ++ rest') = n.push rest ++ rest' := by
  cases n with
  | text s => exact (List.append_assoc _ _ _).symm
  | element name attributes children =>
    exact congrArg (_ :: ·) (Node.pushAll_append_rest children (.close name.toList :: rest) rest')

theorem Node.pushAll_append_rest (ns : List Node) (rest rest' : List Token) :
    Node.pushAll ns (rest ++ rest') = Node.pushAll ns rest ++ rest' := by
  cases ns with
  | nil => rfl
  | cons n ns =>
    rw [Node.pushAll, Node.pushAll_append_rest ns, Node.push_append n]
    rfl

end

/-! ## Pieces -/

/-- An operand of the concatenation. -/
inductive Piece where
  | lit (text : String)
  /-- `escapeHtml(value)` -/
  | text (value : List Char)
  /-- `escapeAttr(value)` -/
  | attr (value : List Char)
  /-- a number -/
  | number (n : Nat)
  deriving DecidableEq, Repr

/-- What the program writes for a piece. -/
def Piece.chars : Piece → List Char
  | .lit fixed => fixed.toList
  | .text value => escapeText value
  | .attr value => escapeQuotes (escapeText value)
  | .number n => Nat.toDigits 10 n

/-- The concatenation. -/
def render (pieces : List Piece) : List Char := pieces.flatMap Piece.chars

/-- What comes after a value is fixed text that does not begin with a line feed: with a carriage
return at the end of the value that would be one line end. -/
def separates : List Piece → Bool
  | .lit text :: _ => text.toList.head?.any (· ≠ '\n')
  | _ => false

/-- What is kept of an attribute value. -/
def kept (value : List Char) : List Char := (normalizeNewlines value).map attributeChar

/-- The pieces read as what they are: a value escaped for text is text, one escaped for an attribute
is part of its value, and none is anywhere else. Letters and digits need no escaping. -/
def readPieces : State → List Piece → Option (State × List Token)
  | s, [] => some (s, [])
  | s, .lit text :: ps =>
    if '\r' ∈ text.toList then none
    else do
      let (s, ts) ← scan s text.toList
      let (s, ts') ← readPieces s ps
      return (s, ts ++ ts')
  | .data, .text value :: ps =>
    if separates ps then do
      let (s, ts) ← readPieces .data ps
      return (s, (normalizeNewlines value).map .char ++ ts)
    else none
  | .attributeValue a, .attr value :: ps =>
    if separates ps then readPieces (.attributeValue { a with value := a.value ++ kept value }) ps
    else none
  | .attributeValue a, .text value :: ps =>
    if value.all Char.isAlphanum then
      readPieces (.attributeValue { a with value := a.value ++ value }) ps
    else none
  | .data, .number n :: ps => do
    let (s, ts) ← readPieces .data ps
    return (s, (Nat.toDigits 10 n).map .char ++ ts)
  | .attributeValue a, .number n :: ps =>
    readPieces (.attributeValue { a with value := a.value ++ Nat.toDigits 10 n }) ps
  | _, _ => none

/-! ## Reading what has been escaped -/

/-- **The tokenizer goes on from the state in which it has stopped.** -/
theorem scan_append (s : State) (cs ds : List Char) : scan s (cs ++ ds) = (scan s cs).bind
    fun r => (scan r.1 ds).map fun r' => (r'.1, r.2 ++ r'.2) := by
  induction cs generalizing s with
  | nil =>
    show scan s ds = (scan s ds).map fun r' => (r'.1, [] ++ r'.2)
    simp
  | cons c cs ih =>
    rw [List.cons_append, scan, scan]
    cases step s c with
    | none => rfl
    | some r =>
      obtain ⟨t, ts⟩ := r
      dsimp only [Option.bind_eq_bind, Option.bind_some]
      rw [ih]
      cases scan t cs with
      | none => rfl
      | some r =>
        cases h : scan r.1 ds <;> simp [h]

/-- A piece of text that is read completely. -/
theorem scan_append_of {s t u : State} {cs ds : List Char} {ts us : List Token}
    (h : scan s cs = some (t, ts)) (h' : scan t ds = some (u, us)) :
    scan s (cs ++ ds) = some (u, ts ++ us) := by
  rw [scan_append, h, Option.bind_some, h', Option.map_some]

/-- An escaped character of a text is read as that character. -/
theorem scan_escapeChar (c : Char) : scan .data (escapeChar c) = some (.data, [.char c]) := by
  unfold escapeChar
  split
  · next h =>
    subst h
    decide
  · next hamp =>
    split
    · next h =>
      subst h
      decide
    · split
      · next h =>
        subst h
        decide
      · next hlt =>
        split
        · next h =>
          subst h
          decide
        · simp [scan, step, hamp, hlt]

/-- **Escaped text is text**, and it is not markup. -/
theorem scan_escapeText (s : List Char) :
    scan .data (escapeText s) = some (.data, s.map .char) := by
  induction s with
  | nil => rfl
  | cons c s ih => exact scan_append_of (scan_escapeChar c) ih

/-- The reference with this name, in an attribute value. -/
theorem scan_reference (name : List Char) {c : Char} (a : Attribute)
    (hname : name.all Char.isAlphanum = true) (hsemi : ';' ∉ name)
    (hc : namedReference name = some c) :
    scan (.attributeValue a) ('&' :: (name ++ [';'])) = some (.attributeValue (a.push c), []) := by
  have hrest : ∀ done rest, rest.all Char.isAlphanum = true → ';' ∉ rest → done ++ rest = name →
      scan (.characterReference (some a) done) (rest ++ [';']) =
        some (.attributeValue (a.push c), []) := by
    intro done rest
    induction rest generalizing done with
    | nil =>
      intro _ _ hdone
      rw [List.append_nil] at hdone
      simp [scan, step, hdone, hc, resume]
    | cons d rest ih =>
      intro hall hnot hdone
      rw [List.all_cons, Bool.and_eq_true] at hall
      obtain ⟨hd, hall⟩ := hall
      rw [List.mem_cons, not_or] at hnot
      rw [List.cons_append, scan, step, if_neg (Ne.symm hnot.1), if_pos hd]
      show (scan _ _).bind _ = _
      rw [ih (done ++ [d]) hall hnot.2 (by rw [List.append_assoc]; exact hdone)]
      rfl
  rw [scan]
  show (scan (.characterReference (some a) []) (name ++ [';'])).bind _ = _
  rw [hrest [] name hname hsemi rfl]
  rfl

/-- How a character stands in an attribute value. -/
def escapeAttrChar (c : Char) : List Char := escapeQuotes (escapeChar c)

/-- An attribute value is escaped character by character. -/
theorem escapeQuotes_escapeText (s : List Char) :
    escapeQuotes (escapeText s) = s.flatMap escapeAttrChar :=
  List.flatMap_assoc

/-- An escaped character stays in the value. -/
theorem scan_escapeAttrChar (a : Attribute) (c : Char) :
    scan (.attributeValue a) (escapeAttrChar c) =
      some (.attributeValue (a.push (attributeChar c)), []) := by
  by_cases hamp : c = '&'
  · subst hamp
    exact scan_reference ['a', 'm', 'p'] a rfl (by decide) rfl
  by_cases hnbsp : c = Char.ofNat 160
  · subst hnbsp
    exact scan_reference ['n', 'b', 's', 'p'] a rfl (by decide) rfl
  by_cases hlt : c = '<'
  · subst hlt
    exact scan_reference ['l', 't'] a rfl (by decide) rfl
  by_cases hgt : c = '>'
  · subst hgt
    exact scan_reference ['g', 't'] a rfl (by decide) rfl
  by_cases hquot : c = '"'
  · subst hquot
    exact scan_reference ['q', 'u', 'o', 't'] a rfl (by decide) rfl
  simp [escapeAttrChar, escapeQuotes, escapeChar, scan, step, hamp, hnbsp, hlt, hgt, hquot]

/-- **An escaped value is the whole value.** -/
theorem scan_escapeAttr (a : Attribute) (s : List Char) :
    scan (.attributeValue a) (escapeQuotes (escapeText s)) =
      some (.attributeValue { a with value := a.value ++ s.map attributeChar }, []) := by
  rw [escapeQuotes_escapeText]
  induction s generalizing a with
  | nil => simp [scan]
  | cons c s ih =>
    rw [List.flatMap_cons, scan_append_of (scan_escapeAttrChar a c) (ih _)]
    simp [Attribute.push]

/-- Letters and digits stand for themselves everywhere. -/
theorem plain_of_isAlphanum {c : Char} (h : c.isAlphanum = true) :
    escapeChar c = [c] ∧ escapeAttrChar c = [c] ∧ attributeChar c = c ∧ c ≠ '\r' := by
  have hne : ∀ d : Char, d.isAlphanum = false → c ≠ d := by
    intro d hd hcd
    rw [hcd, hd] at h
    exact Bool.false_ne_true h
  have hamp := hne '&' (by decide)
  have hnbsp := hne (Char.ofNat 160) (by decide)
  have hlt := hne '<' (by decide)
  have hgt := hne '>' (by decide)
  have hquot := hne '"' (by decide)
  have hnull := hne (Char.ofNat 0) (by decide)
  have hescape : escapeChar c = [c] := by simp [escapeChar, hamp, hnbsp, hlt, hgt]
  refine ⟨hescape, ?_, if_neg hnull, hne '\r' (by decide)⟩
  simp [escapeAttrChar, hescape, escapeQuotes, hquot]

/-- Letters and digits are not escaped. -/
theorem escapeText_alphanum {s : List Char} (h : s.all Char.isAlphanum = true) :
    escapeText s = s := by
  induction s with
  | nil => rfl
  | cons c s ih =>
    rw [List.all_cons, Bool.and_eq_true] at h
    show escapeChar c ++ escapeText s = c :: s
    rw [(plain_of_isAlphanum h.1).1, ih h.2]
    rfl

/-- They are text. -/
theorem scan_alphanum_data {s : List Char} (h : s.all Char.isAlphanum = true) :
    scan .data s = some (.data, s.map .char) := by
  rw [← scan_escapeText, escapeText_alphanum h]

/-- They are part of a value. -/
theorem scan_alphanum_attributeValue (a : Attribute) {s : List Char}
    (h : s.all Char.isAlphanum = true) :
    scan (.attributeValue a) s =
      some (.attributeValue { a with value := a.value ++ s }, []) := by
  have hescape : escapeQuotes (escapeText s) = s ∧ s.map attributeChar = s := by
    rw [escapeQuotes_escapeText]
    induction s with
    | nil => exact ⟨rfl, rfl⟩
    | cons c s ih =>
      rw [List.all_cons, Bool.and_eq_true] at h
      obtain ⟨_, hattr, hkeep, _⟩ := plain_of_isAlphanum h.1
      rw [List.flatMap_cons, hattr, List.map_cons, hkeep, (ih h.2).1, (ih h.2).2]
      exact ⟨rfl, rfl⟩
  have hscan := scan_escapeAttr a s
  rwa [hescape.1, hescape.2] at hscan

/-! ## Line ends -/

theorem normalizeNewlines_cons {c : Char} (h : c ≠ '\r') (s : List Char) :
    normalizeNewlines (c :: s) = c :: normalizeNewlines s := by
  cases s <;> simp [normalizeNewlines, h]

/-- Text without carriage returns is left as it is. -/
theorem normalizeNewlines_append {s : List Char} (h : '\r' ∉ s) (rest : List Char) :
    normalizeNewlines (s ++ rest) = s ++ normalizeNewlines rest := by
  induction s with
  | nil => rfl
  | cons c s ih =>
    rw [List.mem_cons, not_or] at h
    rw [List.cons_append, normalizeNewlines_cons (Ne.symm h.1), ih h.2]
    rfl

/-- A carriage return that no line feed follows. -/
theorem normalizeNewlines_return {s : List Char} (h : s.head? ≠ some '\n') :
    normalizeNewlines ('\r' :: s) = '\n' :: normalizeNewlines s := by
  cases s with
  | nil => simp [normalizeNewlines]
  | cons c s =>
    have hc : c ≠ '\n' := fun hc => h (congrArg some hc)
    simp [normalizeNewlines, hc]

/-- An escaping that neither removes nor adds line ends. -/
structure KeepsLines (f : Char → List Char) : Prop where
  lineFeed : f '\n' = ['\n']
  carriageReturn : f '\r' = ['\r']
  nonempty : ∀ c, f c ≠ []
  noReturn : ∀ c, c ≠ '\r' → '\r' ∉ f c
  noLineFeed : ∀ c, c ≠ '\n' → (f c).head? ≠ some '\n'

/-- Escaping text keeps line ends. -/
theorem keepsLines_escapeChar : KeepsLines escapeChar where
  lineFeed := by decide
  carriageReturn := by decide
  nonempty c := by
    unfold escapeChar
    repeat' split
    all_goals simp
  noReturn c hc := by
    unfold escapeChar
    repeat' split
    all_goals simp [Ne.symm hc]
  noLineFeed c hc := by
    unfold escapeChar
    repeat' split
    all_goals simp [hc]

/-- So does escaping a value. -/
theorem keepsLines_escapeAttrChar : KeepsLines escapeAttrChar where
  lineFeed := by decide
  carriageReturn := by decide
  nonempty c := by
    unfold escapeAttrChar escapeChar
    repeat' split
    all_goals simp [escapeQuotes]
    split <;> simp
  noReturn c hc := by
    unfold escapeAttrChar escapeChar
    repeat' split
    all_goals simp [escapeQuotes]
    split <;> simp [Ne.symm hc]
  noLineFeed c hc := by
    unfold escapeAttrChar escapeChar
    repeat' split
    all_goals simp [escapeQuotes]
    split <;> simp [hc]

/-- Line ends can be normalized before escaping, up to the end of the value. -/
theorem KeepsLines.normalizeNewlines_flatMap {f : Char → List Char} (hf : KeepsLines f)
    (s : List Char) {rest : List Char} (hrest : rest.head? ≠ some '\n') :
    normalizeNewlines (s.flatMap f ++ rest) =
      (normalizeNewlines s).flatMap f ++ normalizeNewlines rest := by
  have hhead : ∀ s : List Char, s.head? ≠ some '\n' →
      (s.flatMap f ++ rest).head? ≠ some '\n' := by
    intro s hs
    cases s with
    | nil => exact hrest
    | cons c s =>
      have hc := hf.noLineFeed c fun hc => hs (congrArg some hc)
      cases hfc : f c with
      | nil => exact absurd hfc (hf.nonempty c)
      | cons d ds =>
        rw [hfc] at hc
        simpa [hfc] using hc
  fun_induction normalizeNewlines s with
  | case1 => rfl
  | case2 s ih =>
    simp only [List.flatMap_cons, hf.lineFeed, hf.carriageReturn, List.cons_append, List.nil_append]
    rw [normalizeNewlines, ih]
  | case3 s hs ih =>
    have hs : s.head? ≠ some '\n' := by
      cases s with
      | nil => simp
      | cons c s => exact fun hc => hs s (congrArg (· :: s) (Option.some.inj hc))
    simp only [List.flatMap_cons, hf.lineFeed, hf.carriageReturn, List.cons_append, List.nil_append]
    rw [normalizeNewlines_return (hhead s hs), ih]
  | case4 c s _ hc ih =>
    have hc : c ≠ '\r' := hc
    rw [List.flatMap_cons, List.append_assoc, normalizeNewlines_append (hf.noReturn c hc), ih,
      List.flatMap_cons, List.append_assoc]

/-! ## Reading the concatenation -/

/-- Fixed text that separates does not begin with a line feed. -/
theorem head_of_separates {ps : List Piece} (h : separates ps = true) :
    (render ps).head? ≠ some '\n' := by
  cases ps with
  | nil => simp [separates] at h
  | cons p ps =>
    cases p with
    | lit text =>
      show (text.toList ++ render ps).head? ≠ some '\n'
      cases htext : text.toList with
      | nil => simp [separates, htext] at h
      | cons c cs =>
        simp only [separates, htext, List.head?_cons, Option.any_some, decide_eq_true_eq] at h
        exact fun hc => h (Option.some.inj hc)
    | text _ => simp [separates] at h
    | attr _ => simp [separates] at h
    | number _ => simp [separates] at h

/-- Numerals are digits. -/
theorem alphanum_toDigits (n : Nat) : (Nat.toDigits 10 n).all Char.isAlphanum = true := by
  rw [List.all_eq_true]
  intro c hc
  have hdigit : c.isDigit = true := Nat.isDigit_of_mem_toDigits (by decide) (by decide) hc
  rw [Char.isAlphanum, hdigit, Bool.or_true]

theorem normalizeNewlines_alphanum {s : List Char} (h : s.all Char.isAlphanum = true)
    (rest : List Char) : normalizeNewlines (s ++ rest) = s ++ normalizeNewlines rest :=
  normalizeNewlines_append
    (fun hr => (plain_of_isAlphanum (List.all_eq_true.mp h _ hr)).2.2.2 rfl) rest

/-- Escaping has the effect that the pieces are read as what they are. -/
theorem scan_render {s t : State} {ps : List Piece} {ts : List Token}
    (h : readPieces s ps = some (t, ts)) :
    scan s (normalizeNewlines (render ps)) = some (t, ts) := by
  fun_induction readPieces s ps generalizing t ts with
  | case1 s => simpa [render, normalizeNewlines, scan] using h
  | case2 | case5 | case7 | case9 => cases h
  | case3 s text ps hreturn ih =>
    simp only [Option.bind_eq_bind, Option.bind_eq_some_iff, Option.pure_def,
      Option.some.injEq, Prod.exists, Prod.mk.injEq] at h
    obtain ⟨u, us, hscan, v, vs, hrest, rfl, rfl⟩ := h
    show scan s (normalizeNewlines (text.toList ++ render ps)) = _
    rw [normalizeNewlines_append hreturn]
    exact scan_append_of hscan (ih u hrest)
  | case4 value ps hsep ih =>
    simp only [Option.bind_eq_bind, Option.bind_eq_some_iff, Option.pure_def,
      Option.some.injEq, Prod.exists, Prod.mk.injEq] at h
    obtain ⟨u, us, hrest, rfl, rfl⟩ := h
    show scan .data (normalizeNewlines (escapeText value ++ render ps)) = _
    rw [escapeText, keepsLines_escapeChar.normalizeNewlines_flatMap value (head_of_separates hsep)]
    exact scan_append_of (scan_escapeText _) (ih hrest)
  | case6 a value ps hsep ih =>
    show scan (.attributeValue a)
      (normalizeNewlines (escapeQuotes (escapeText value) ++ render ps)) = _
    rw [escapeQuotes_escapeText,
      keepsLines_escapeAttrChar.normalizeNewlines_flatMap value (head_of_separates hsep),
      ← escapeQuotes_escapeText]
    exact scan_append_of (scan_escapeAttr a _) (ih h)
  | case8 a value ps hplain ih =>
    show scan (.attributeValue a) (normalizeNewlines (escapeText value ++ render ps)) = _
    rw [escapeText_alphanum hplain, normalizeNewlines_alphanum hplain]
    exact scan_append_of (scan_alphanum_attributeValue a hplain) (ih h)
  | case10 n ps ih =>
    simp only [Option.bind_eq_bind, Option.bind_eq_some_iff, Option.pure_def,
      Option.some.injEq, Prod.exists, Prod.mk.injEq] at h
    obtain ⟨u, us, hrest, rfl, rfl⟩ := h
    have hplain := alphanum_toDigits n
    show scan .data (normalizeNewlines (Nat.toDigits 10 n ++ render ps)) = _
    rw [normalizeNewlines_alphanum hplain]
    exact scan_append_of (scan_alphanum_data hplain) (ih hrest)
  | case11 a n ps ih =>
    have hplain := alphanum_toDigits n
    show scan (.attributeValue a) (normalizeNewlines (Nat.toDigits 10 n ++ render ps)) = _
    rw [normalizeNewlines_alphanum hplain]
    exact scan_append_of (scan_alphanum_attributeValue a hplain) (ih h)
  | case12 s ps => cases h

/-- Only the first piece matters. -/
theorem separates_append {ps : List Piece} (h : separates ps = true) (qs : List Piece) :
    separates (ps ++ qs) = true := by
  cases ps with
  | nil => cases h
  | cons p ps => cases p <;> exact h

/-- Reading goes on from the state in which it has stopped. -/
theorem readPieces_append {s t u : State} {ps qs : List Piece} {ts us : List Token}
    (h : readPieces s ps = some (t, ts)) (h' : readPieces t qs = some (u, us)) :
    readPieces s (ps ++ qs) = some (u, ts ++ us) := by
  fun_induction readPieces s ps generalizing t ts with
  | case1 s =>
    cases h
    exact h'
  | case2 | case5 | case7 | case9 => cases h
  | case3 s text ps hreturn ih =>
    simp only [Option.bind_eq_bind, Option.bind_eq_some_iff, Option.pure_def,
      Option.some.injEq, Prod.exists, Prod.mk.injEq] at h
    obtain ⟨v, vs, hscan, w, ws, hrest, rfl, rfl⟩ := h
    rw [List.cons_append, readPieces, if_neg hreturn, hscan, Option.bind_eq_bind, Option.bind_some]
    dsimp only
    rw [ih v hrest h', List.append_assoc]
    rfl
  | case4 value ps hsep ih =>
    simp only [Option.bind_eq_bind, Option.bind_eq_some_iff, Option.pure_def,
      Option.some.injEq, Prod.exists, Prod.mk.injEq] at h
    obtain ⟨v, vs, hrest, rfl, rfl⟩ := h
    rw [List.cons_append, readPieces, if_pos (separates_append hsep qs), ih hrest h',
      List.append_assoc]
    rfl
  | case6 a value ps hsep ih =>
    rw [List.cons_append, readPieces, if_pos (separates_append hsep qs), ih h h']
  | case8 a value ps hplain ih =>
    rw [List.cons_append, readPieces, if_pos hplain, ih h h']
  | case10 n ps ih =>
    simp only [Option.bind_eq_bind, Option.bind_eq_some_iff, Option.pure_def,
      Option.some.injEq, Prod.exists, Prod.mk.injEq] at h
    obtain ⟨v, vs, hrest, rfl, rfl⟩ := h
    rw [List.cons_append, readPieces, ih hrest h', List.append_assoc]
    rfl
  | case11 a n ps ih => rw [List.cons_append, readPieces, ih h h']
  | case12 s ps => cases h

/-- The markup of the nodes. -/
def Shows (ps : List Piece) (ns : List Node) : Prop :=
  readPieces .data ps = some (.data, Node.pushAll ns [])

/-- What is shown one after another. -/
theorem Shows.append {ps qs : List Piece} {ns ms : List Node} (h : Shows ps ns)
    (h' : Shows qs ms) : Shows (ps ++ qs) (ns ++ ms) := by
  rw [Shows, readPieces_append h h', Node.pushAll_append, ← Node.pushAll_append_rest]
  rfl

/-- A list of values is shown item by item. -/
theorem Shows.flatMap {α : Type} {f : α → List Piece} {g : α → List Node}
    (h : ∀ a, Shows (f a) (g a)) (as : List α) : Shows (as.flatMap f) (as.flatMap g) := by
  induction as with
  | nil => rfl
  | cons a as ih => exact (h a).append ih

/-- A list whose elements are shown with their numbers. -/
theorem Shows.mapIdx {α β : Type} {e : α → β} {f : Nat → β → List Piece}
    {g : Nat → α → List Node} (h : ∀ i a, Shows (f i (e a)) (g i a)) (as : List α) :
    Shows ((as.map e).mapIdx f).flatten (as.mapIdx g).flatten := by
  induction as generalizing f g with
  | nil => rfl
  | cons a as ih =>
    rw [List.map_cons, List.mapIdx_cons, List.mapIdx_cons, List.flatten_cons, List.flatten_cons]
    exact (h 0 a).append (ih fun i => h (i + 1))

/-- Markup in the middle of a template, in the element that the template leaves open there. -/
theorem Shows.inElement {pre mid post : List Piece} {content : List Node}
    (left : List Node) (name : String) (attributes : List (String × List Char))
    (before after right : List Node)
    (hpre : readPieces .data pre = some (.data, Node.pushAll left
      (.start name.toList (attributes.map fun a => (a.1.toList, a.2)) :: Node.pushAll before [])))
    (hmid : Shows mid content)
    (hpost : readPieces .data post =
      some (.data, Node.pushAll after (.close name.toList :: Node.pushAll right []))) :
    Shows (pre ++ mid ++ post)
      (left ++ .element name attributes (before ++ content ++ after) :: right) := by
  have hread := readPieces_append hpre (readPieces_append hmid hpost)
  rw [← Node.pushAll_append_rest, List.cons_append, ← Node.pushAll_append_rest, List.nil_append,
    ← Node.pushAll_append_rest content, List.nil_append] at hread
  rw [Shows, List.append_assoc, hread, Node.pushAll_append, Node.pushAll, Node.push,
    Node.pushAll_append, Node.pushAll_append]

/-- **The tokens of a concatenation are those of its pieces.** -/
theorem tokens_render {ps : List Piece} {ts : List Token}
    (h : readPieces .data ps = some (.data, ts)) : tokens (render ps) = some ts := by
  rw [tokens, scan_render h]

/-- **What the pieces show is what the tokenizer finds.** -/
theorem Shows.tokens {ps : List Piece} {ns : List Node} (h : Shows ps ns) :
    tokens (render ps) = some (Node.pushAll ns []) :=
  tokens_render h

end MiniOj.Infra.Html
