import Mathlib.Data.List.Flatten
import MiniOj.Db.Properties.Replacing
import MiniOj.Frontend.AdminEdit

/-!
# The form of a problem

* `parseTags_join` — the names of tags come back as the parts between their commas
* `loadForEdit_ofAdminDetail` — what the form shows of a problem
* `validate_formOf` — what the form refuses of it
* `parseProblemInput_buildPayload` — what the server reads of the form
-/

namespace MiniOj.Frontend.AdminEdit

open Infra Db Admin

/-! ## Tags -/

/-- What the form makes of names between two commas. -/
theorem parseTags_append (l r : JsString) :
    parseTags (l ++ ',' :: r) = parseTags l ++ parseTags r := by
  have hsep : isComma ',' = true := rfl
  unfold parseTags
  rw [List.splitOnP_append_cons l r hsep, List.map_append, List.filter_append]

/-- A space at the front is cut off with the rest. -/
theorem parseTags_space (r : JsString) : parseTags (' ' :: r) = parseTags r := by
  have hblank : ∀ x ∈ [' '], JsString.isBlank x = true := List.forall_mem_singleton.mpr rfl
  have htrim (s : JsString) : JsString.trim (' ' :: s) = s.trim := by
    have hspace : trim JsString.isBlank ([' '] ++ s ++ []) = trim JsString.isBlank s :=
      trim_append hblank fun _ h => nomatch h
    rwa [List.append_nil] at hspace
  obtain ⟨first, rest, hsplit⟩ := List.exists_cons_of_ne_nil (List.splitOnP_ne_nil isComma r)
  unfold parseTags
  rw [List.splitOnP_cons_eq_if_modifyHead, if_neg (by decide), hsplit]
  show ((JsString.trim (' ' :: first) :: rest.map JsString.trim).filter _) = _
  rw [htrim]
  rfl

/-- Tags joined with commas are taken apart name by name. -/
theorem parseTags_join (names : List JsString) :
    parseTags (", ".toList.intercalate names) = names.flatMap parseTags := by
  induction names with
  | nil => rfl
  | cons name names ih =>
    cases names with
    | nil =>
      simp [List.intercalate]
    | cons next names =>
      rw [List.flatMap_cons, ← ih]
      show parseTags (name ++ ',' :: ' ' :: _) = _
      rw [parseTags_append, parseTags_space]
      rfl

theorem length_pos_iff {s : JsString} : 0 < JsString.length s ↔ s ≠ [] := by
  cases s with
  | nil => simp [JsString.length, utf16Length]
  | cons c s =>
    refine ⟨fun _ => List.cons_ne_nil c s, fun _ => ?_⟩
    have hone : 1 ≤ utf16Size c := by
      unfold utf16Size
      split <;> omega
    show 0 < ((c :: s).map utf16Size).sum
    rw [List.map_cons, List.sum_cons]
    omega

/-- A tag that the form gives back as it is. -/
theorem parseTags_plain {name : JsString} (hne : name ≠ []) (hcomma : ∀ c ∈ name, isComma c = false)
    (htrim : name.trim = name) : parseTags name = [name] := by
  unfold parseTags
  rw [List.splitOnP_eq_singleton hcomma, List.map_singleton, htrim]
  exact List.filter_eq_self.mpr fun s hs => by
    rw [List.mem_singleton.mp hs]
    exact decide_eq_true (length_pos_iff.mpr hne)

/-- A part is not longer than the whole. -/
theorem length_of_mem_splitOnP {p : Char → Bool} {l part : JsString} (h : part ∈ l.splitOnP p) :
    List.length part ≤ List.length l := by
  induction l generalizing part with
  | nil =>
    rw [List.splitOnP_nil, List.mem_singleton] at h
    rw [h]
  | cons c l ih =>
    obtain ⟨first, rest, hsplit⟩ := List.exists_cons_of_ne_nil (List.splitOnP_ne_nil p l)
    rw [List.splitOnP_cons_eq_if_modifyHead, hsplit] at h
    rw [hsplit] at ih
    split at h
    · rcases List.mem_cons.mp h with rfl | h
      · exact Nat.zero_le _
      · exact Nat.le_succ_of_le (ih h)
    · rcases List.mem_cons.mp h with rfl | h
      · exact Nat.succ_le_succ (ih List.mem_cons_self)
      · exact Nat.le_succ_of_le (ih (List.mem_cons_of_mem _ h))

/-- Trimming only takes away. -/
theorem trim_sublist (s : JsString) : List.Sublist s.trim s :=
  (List.rdropWhile_prefix _ _).sublist.trans (List.dropWhile_sublist _)

/-- A piece of a name is not empty and no longer than the name. -/
theorem mem_parseTags {raw piece : JsString} (h : piece ∈ parseTags raw) :
    piece ≠ [] ∧ List.length piece ≤ List.length raw := by
  obtain ⟨hmem, hlength⟩ := List.mem_filter.mp h
  obtain ⟨part, hpart, rfl⟩ := List.mem_map.mp hmem
  exact ⟨length_pos_iff.mp (of_decide_eq_true hlength),
    (trim_sublist part).length_le.trans (length_of_mem_splitOnP hpart)⟩

/-! ## Numbers -/

/-- A number that the page has written is read back. -/
theorem parseInt_numberText (n : Nat) : parseInt (numberText n) = some (n : Int) := by
  have hdigits : ∀ c ∈ numberText n, c.isDigit = true := fun c hc =>
    Nat.isDigit_of_mem_toDigits (by decide) (by decide) hc
  have hvalue : Nat.ofDigitChars 10 (numberText n) 0 = n := Nat.ofDigitChars_ten_toDigits
  have hne : numberText n ≠ [] := Nat.toDigits_ne_nil
  generalize numberText n = digits at hdigits hvalue hne
  obtain ⟨c, cs, rfl⟩ := List.exists_cons_of_ne_nil hne
  have hc : 48 ≤ c.toNat ∧ c.toNat ≤ 57 := by
    have := hdigits c List.mem_cons_self
    simp only [Char.isDigit, Bool.and_eq_true, decide_eq_true_eq] at this
    exact ⟨UInt32.le_iff_toNat_le.mp this.1, UInt32.le_iff_toNat_le.mp this.2⟩
  have hall : ∀ n < 58, 48 ≤ n → JsString.isBlank (.ofNat n) = false ∧
      (Char.ofNat n == '-') = false ∧ (Char.ofNat n == '+') = false := by decide
  obtain ⟨hblank, hminus, hplus⟩ := hall c.toNat (by omega) hc.1
  rw [Char.ofNat_toNat] at hblank hminus hplus
  have htake : (c :: cs).takeWhile Char.isDigit = c :: cs :=
    List.takeWhile_eq_self_iff.mpr hdigits
  unfold parseInt
  rw [List.dropWhile_cons_of_neg (by rw [hblank]; exact Bool.false_ne_true)]
  simp only [List.head?_cons, Option.some_beq_some, hminus, hplus, Bool.or_self,
    Bool.false_eq_true, if_false]
  rw [htake, if_neg hne, hvalue]

/-- It is sent as an integer. -/
theorem number_uint32 (n : UInt32) : number (some (n.toNat : Int)) = .int (.ofInt n.toNat) := by
  have hlt := n.toNat_lt
  have hin : -2 ^ 63 ≤ (n.toNat : Int) ∧ (n.toNat : Int) < 2 ^ 63 := by omega
  unfold number
  dsimp only
  rw [if_pos hin]

/-- Which has room for 32 bits. -/
theorem toInt_uint32 (n : UInt32) : (Int64.ofInt n.toNat).toInt = n.toNat := by
  have hlt := n.toNat_lt
  have hlow : -2 ^ 63 ≤ (n.toNat : Int) := by omega
  have hhigh : (n.toNat : Int) < 2 ^ 63 := by omega
  exact Int64.toInt_ofInt_of_le hlow hhigh

/-- A number of 32 bits is read as it was sent. -/
theorem requireUInt_number {body : Json} {key : String} {n : UInt32}
    (h : body.member? key = some (number (some (n.toNat : Int)))) :
    requireUInt body key = .ok n := by
  rw [number_uint32] at h
  have hint : (Json.int (.ofInt n.toNat)).asInt64 = .ok (n.toNat : Int) := by
    rw [Json.asInt64, toInt_uint32]
  have huint : (Json.int (.ofInt n.toNat)).asUInt64 = .ok (.ofNat n.toNat) := by
    rw [Json.asUInt64, toInt_uint32, if_pos (Int.natCast_nonneg _), Int.toNat_natCast]
  have hlow : (UInt64.ofNat n.toNat).toUInt32 = n := by
    have hlt := n.toNat_lt
    rw [← UInt32.toNat_inj, UInt64.toNat_toUInt32, UInt64.toNat_ofNat']
    omega
  have hsign : ¬ (n.toNat : Int) < 0 := by omega
  unfold requireUInt
  rw [h]
  dsimp only
  rw [hint, huint]
  refine (if_neg Bool.false_ne_true).trans ?_
  dsimp only [bind, Except.bind]
  rw [if_neg hsign]
  exact congrArg Except.ok hlow

/-! ## Loading -/

/-- A problem that the server has stored from an accepted body. -/
structure Sound (d : AdminProblemDetail) : Prop where
  title_ne : d.title ≠ []
  title_length : d.title.length ≤ 255
  title : (utf8Length d.title).isSome
  descriptionMd : fitText d.descriptionMd = some d.descriptionMd
  timeLimitMs : 0 < d.timeLimitMs
  memoryLimitMb : 0 < d.memoryLimitMb
  tags : ∀ t ∈ d.tags, t.name ≠ [] ∧ fitVarchar 64 t.name = some t.name
  testcases_ne : d.testcases ≠ []
  testcases_length : d.testcases.length ≤ 1000
  testcases : ∀ c ∈ d.testcases,
    fitText c.input = some c.input ∧ fitText c.expectedOutput = some c.expectedOutput

/-- The choice of a difficulty in the form. -/
def difficultyText : Difficulty → JsString
  | .easy => "easy".toList
  | .medium => "medium".toList
  | .hard => "hard".toList

/-- The names are those of the server. -/
theorem encode_difficultyText (difficulty : Difficulty) :
    encode (difficultyText difficulty) = Dto.difficultyToString difficulty := by
  cases difficulty <;> decide

/-- A testcase in the form. -/
def rowOf (c : AdminTestCase) : CaseRow where
  inputArea := decode c.input
  outputArea := decode c.expectedOutput
  isSample := c.isSample
  scoreInput := numberText c.score.toNat

/-- The form with the problem in it. -/
def formOf (d : AdminProblemDetail) : ProblemForm where
  titleInput := decode d.title
  difficultySelect := difficultyText d.difficulty
  timeInput := numberText d.timeLimitMs.toNat
  memInput := numberText d.memoryLimitMb.toNat
  descInput := decode d.descriptionMd
  tagsInput := ", ".toList.intercalate (d.tags.map fun t => decode t.name)
  cases := d.testcases.map rowOf

/-- A text of the answer is shown as it is. -/
theorem textOr_string {detail : Json} {key : String} {value : Bytes}
    (h : detail.member? key = some (.string value)) : textOr [] detail key = decode value := by
  unfold textOr
  rw [h]
  dsimp only
  split
  · next hnil => exact hnil.symm
  · rfl

/-- Tags are given as objects, and shown by their names. -/
theorem tagName_ofTag {t : Tag} (hne : decode t.name ≠ []) :
    tagName (Dto.ofTag t) = decode t.name := by
  have hname : textOr [] (Dto.ofTag t) "name" = decode t.name := textOr_string rfl
  obtain ⟨c, name, heq⟩ := List.exists_cons_of_ne_nil hne
  rw [heq] at hname ⊢
  unfold tagName
  rw [hname]

/-- A testcase of the answer fills a row of the form. -/
theorem appendCase_ofAdminTestCase (c : AdminTestCase) :
    appendCase (Dto.ofAdminTestCase c) = rowOf c := by
  have hinput : textOr [] (Dto.ofAdminTestCase c) "input" = decode c.input := textOr_string rfl
  have houtput : textOr [] (Dto.ofAdminTestCase c) "expected_output" = decode c.expectedOutput :=
    textOr_string rfl
  have hscore : (Dto.ofAdminTestCase c).member? "score" = some (Dto.uint c.score) := rfl
  unfold appendCase rowOf
  dsimp only
  rw [hinput, houtput, hscore]
  dsimp only [Dto.uint]
  rw [UInt32.toNat_toUInt64]
  rfl

/-- A text that is not empty is shown as one. -/
theorem decode_ne_nil {bs : Bytes} (hne : bs ≠ []) (h : (utf8Length bs).isSome) :
    decode bs ≠ [] := by
  intro hnil
  have hbytes := encode_decode h
  rw [hnil] at hbytes
  exact hne hbytes.symm

/-- What a column has taken is UTF-8. -/
theorem utf8Length_of_fitVarchar {limit : Nat} {value kept : Bytes}
    (h : fitVarchar limit value = some kept) : (utf8Length value).isSome := by
  obtain ⟨n, hn, -⟩ := Option.bind_eq_some_iff.mp h
  exact Option.isSome_of_eq_some hn

/-- The same of a long text. -/
theorem utf8Length_of_fitText {value kept : Bytes} (h : fitText value = some kept) :
    (utf8Length value).isSome := by
  obtain ⟨n, hn, -⟩ := Option.bind_eq_some_iff.mp h
  exact Option.isSome_of_eq_some hn

/-- A number of the answer is shown in decimal. -/
theorem numberOr_uint {detail : Json} {key : String} {fallback : Nat} {n : UInt32}
    (h : detail.member? key = some (Dto.uint n)) :
    numberOr fallback detail key = numberText n.toNat := by
  unfold numberOr
  rw [h]
  dsimp only [Dto.uint]
  rw [UInt32.toNat_toUInt64]

/-- The difficulty of the answer is chosen. -/
theorem difficulty_textOr {detail : Json} {key : String} {fallback : JsString}
    {difficulty : Difficulty}
    (h : detail.member? key = some (.string (Dto.difficultyToString difficulty))) :
    textOr fallback detail key = difficultyText difficulty := by
  unfold textOr
  rw [h, ← encode_difficultyText]
  dsimp only
  rw [decode_encode]
  cases difficulty <;> rfl

/-- **What the form shows of a problem.** -/
theorem loadForEdit_ofAdminDetail {d : AdminProblemDetail} (h : Sound d) :
    loadForEdit (Dto.ofAdminDetail d) = formOf d := by
  have htags : (itemsOf (Dto.ofAdminDetail d) "tags").map tagName =
      d.tags.map fun t => decode t.name := by
    show (d.tags.map Dto.ofTag).map tagName = _
    rw [List.map_map]
    refine List.map_congr_left fun t ht => ?_
    obtain ⟨hne, hfit⟩ := h.tags t ht
    exact tagName_ofTag (decode_ne_nil hne (utf8Length_of_fitVarchar hfit))
  have hcases : (itemsOf (Dto.ofAdminDetail d) "testcases").map appendCase =
      d.testcases.map rowOf := by
    show (d.testcases.map Dto.ofAdminTestCase).map appendCase = _
    rw [List.map_map]
    exact List.map_congr_left fun c _ => appendCase_ofAdminTestCase c
  have hne : (d.testcases.map rowOf).isEmpty = false := by
    rw [List.isEmpty_map, List.isEmpty_eq_false_iff]
    exact h.testcases_ne
  have htitle : textOr [] (Dto.ofAdminDetail d) "title" = decode d.title := textOr_string rfl
  have htext : textOr [] (Dto.ofAdminDetail d) "description_md" = decode d.descriptionMd :=
    textOr_string rfl
  have hdifficulty : (Dto.ofAdminDetail d).member? "difficulty" =
      some (.string (Dto.difficultyToString d.difficulty)) := rfl
  unfold loadForEdit formOf
  dsimp only
  rw [htags, hcases, hne, htitle, htext, numberOr_uint (n := d.timeLimitMs) rfl,
    numberOr_uint (n := d.memoryLimitMb) rfl, difficulty_textOr hdifficulty]
  rfl

/-! ## Sending -/

/-- Trimming does not lengthen. -/
theorem length_encode_trim (s : JsString) : (encode s.trim).length ≤ (encode s).length :=
  ((trim_sublist s).flatMap String.utf8EncodeChar).length_le

/-- A title of the bank is not too long for the form. -/
theorem length_title {d : AdminProblemDetail} (h : Sound d) :
    (encode (JsString.trim (decode d.title))).length ≤ 255 := by
  refine (length_encode_trim _).trans ?_
  rw [encode_decode h.title]
  exact h.title_length

/-- The form accepts a limit above 0. -/
theorem positive_numberText {n : UInt32} (h : 0 < n) :
    ¬ (!(parseInt (numberText n.toNat)).any fun value => decide (0 < value)) = true := by
  have hpos : 0 < n.toNat := UInt32.lt_iff_toNat_lt.mp h
  rw [parseInt_numberText]
  simp only [Option.any_some, Int.natCast_pos, hpos, decide_true, Bool.not_true,
    Bool.false_eq_true, not_false_iff]

/-- **What the form refuses** of what the server has accepted: a title or a description of blanks
only. -/
theorem validate_formOf {d : AdminProblemDetail} (h : Sound d) : validate (formOf d) = "" ↔
    JsString.trim (decode d.title) ≠ [] ∧ JsString.trim (decode d.descriptionMd) ≠ [] := by
  have hlength : ¬ 255 < JsString.length (JsString.trim (decode d.title)) :=
    Nat.not_lt_of_le ((length_encode _).1.trans (length_title h))
  have hdifficulty : difficultyText d.difficulty ∈
      ["easy".toList, "medium".toList, "hard".toList] := by
    cases d.difficulty <;> decide
  have hcases : (d.testcases.map rowOf).length ≠ 0 := by
    rw [List.length_map]
    exact fun hnil => h.testcases_ne (List.length_eq_zero_iff.mp hnil)
  have hmany : ¬ 1000 < (d.testcases.map rowOf).length := by
    rw [List.length_map]
    exact Nat.not_lt_of_le h.testcases_length
  unfold validate formOf
  dsimp only
  by_cases htitle : JsString.trim (decode d.title) = []
  · rw [if_pos htitle]
    constructor
    · intro h
      exact absurd h (by decide)
    · intro h
      exact absurd htitle h.1
  · rw [if_neg htitle, if_neg hlength, if_neg (not_not_intro hdifficulty),
      if_neg (positive_numberText h.timeLimitMs), if_neg (positive_numberText h.memoryLimitMb)]
    by_cases htext : JsString.trim (decode d.descriptionMd) = []
    · rw [if_pos htext]
      constructor
      · intro h
        exact absurd h (by decide)
      · intro h
        exact absurd htext h.2
    · rw [if_neg htext, if_neg hcases, if_neg hmany]
      exact ⟨fun _ => ⟨htitle, htext⟩, fun _ => rfl⟩

/-- The testcase as it is sent. -/
def caseInput (c : AdminTestCase) : TestCaseInput where
  input := c.input
  expectedOutput := c.expectedOutput
  isSample := c.isSample
  score := c.score

/-- The problem as it is sent. -/
def resaved (d : AdminProblemDetail) : ProblemInput where
  title := encode (JsString.trim (decode d.title))
  descriptionMd := d.descriptionMd
  difficulty := d.difficulty
  timeLimitMs := d.timeLimitMs
  memoryLimitMb := d.memoryLimitMb
  tags := (d.tags.flatMap fun t => parseTags (decode t.name)).map encode
  testcases := d.testcases.map caseInput

/-- **A testcase comes back as it was**, with its score. -/
theorem parseTestCaseInput_collectCase {c : AdminTestCase} (hinput : (utf8Length c.input).isSome)
    (houtput : (utf8Length c.expectedOutput).isSome) :
    parseTestCaseInput (collectCase (rowOf c)) = .ok (caseInput c) := by
  have hscore : requireUInt (collectCase (rowOf c)) "score" = .ok c.score := by
    refine requireUInt_number ?_
    have hpos : ((parseInt (numberText c.score.toNat)).any fun value => decide (0 ≤ value)) =
        true := by
      rw [parseInt_numberText]
      exact decide_eq_true (Int.natCast_nonneg c.score.toNat)
    have hmember : (collectCase (rowOf c)).member? "score" = some (number
        (if (parseInt (numberText c.score.toNat)).any (fun value => decide (0 ≤ value)) then
          parseInt (numberText c.score.toNat) else some 0)) := rfl
    rw [hmember, if_pos hpos, parseInt_numberText]
  have hin : requireString (collectCase (rowOf c)) "input" = .ok c.input :=
    congrArg Except.ok (encode_decode hinput)
  have hout : requireString (collectCase (rowOf c)) "expected_output" = .ok c.expectedOutput :=
    congrArg Except.ok (encode_decode houtput)
  unfold parseTestCaseInput
  rw [hscore, hin, hout]
  rfl

/-- A loop none of whose turns throws. -/
theorem mapM_ok {α β γ : Type} {f : β → Except Exn γ} {g : α → β} {k : α → γ} {as : List α}
    (h : ∀ a ∈ as, f (g a) = .ok (k a)) : (as.map g).mapM f = .ok (as.map k) := by
  induction as with
  | nil => rfl
  | cons a as ih =>
    rw [List.map_cons, List.mapM_cons, h a List.mem_cons_self,
      ih fun b hb => h b (List.mem_cons_of_mem a hb)]
    rfl

/-- A text that is not empty is sent as one. -/
theorem encode_ne_nil {s : JsString} (h : s ≠ []) : encode s ≠ [] := by
  obtain ⟨c, rest, rfl⟩ := List.exists_cons_of_ne_nil h
  rw [encode_cons]
  exact List.append_ne_nil_of_left_ne_nil String.utf8EncodeChar_ne_nil _

/-- Names that are not empty are accepted as tags. -/
theorem parseTags_text {pieces : List JsString} (h : ∀ piece ∈ pieces, piece ≠ []) :
    (pieces.map text).mapM Admin.parseTag = .ok (pieces.map encode) := by
  refine mapM_ok fun piece hpiece => ?_
  obtain ⟨b, bs, heq⟩ := List.exists_cons_of_ne_nil (encode_ne_nil (h piece hpiece))
  unfold text
  rw [heq]
  rfl

/-- All testcases come back. -/
theorem parseTestcases_collectCase {cases : List AdminTestCase} (hne : cases ≠ [])
    (hlength : cases.length ≤ 1000)
    (h : ∀ c ∈ cases, (utf8Length c.input).isSome ∧ (utf8Length c.expectedOutput).isSome)
    {body : Json}
    (hbody : body.member? "testcases" = some (.array ((cases.map rowOf).map collectCase))) :
    parseTestcases body = .ok (cases.map caseInput) := by
  have hempty : ¬ ((cases.map rowOf).map collectCase).isEmpty = true := by
    simpa using hne
  have hmany : ¬ ((cases.map rowOf).map collectCase).length > 1000 := by
    simpa using hlength
  unfold parseTestcases
  rw [hbody]
  dsimp only
  rw [if_neg hempty, if_neg hmany, List.map_map]
  exact mapM_ok fun c hc => parseTestCaseInput_collectCase (h c hc).1 (h c hc).2

/-- The tags that are sent are the parts of the names between their commas. -/
theorem parseTags_buildPayload (d : AdminProblemDetail) :
    Admin.parseTags (buildPayload (formOf d)) = .ok (resaved d).tags := by
  have hpieces : AdminEdit.parseTags (formOf d).tagsInput =
      d.tags.flatMap fun t => parseTags (decode t.name) :=
    (parseTags_join _).trans (List.flatMap_map _ _ _)
  show (List.map text (AdminEdit.parseTags (formOf d).tagsInput)).mapM Admin.parseTag = _
  rw [hpieces]
  refine parseTags_text fun piece hpiece => ?_
  obtain ⟨t, -, hmem⟩ := List.mem_flatMap.mp hpiece
  exact (mem_parseTags hmem).1

/-- The server reads the names that it writes. -/
theorem parseDifficulty_difficultyToString (difficulty : Difficulty) :
    parseDifficulty (Dto.difficultyToString difficulty) = .ok difficulty := by
  cases difficulty <;> decide

/-- **What the server reads of the form.** -/
theorem parseProblemInput_buildPayload {d : AdminProblemDetail} (h : Sound d)
    (htitle : JsString.trim (decode d.title) ≠ []) :
    parseProblemInput (buildPayload (formOf d)) = .ok (resaved d) := by
  obtain ⟨body, hbody⟩ : ∃ body, body = buildPayload (formOf d) := ⟨_, rfl⟩
  have hobject : ¬ (!body.isObject) = true := by
    rw [hbody]
    exact Bool.false_ne_true
  have htitle' : requireString body "title" = .ok (resaved d).title := by
    rw [hbody]
    rfl
  have htext : requireString body "description_md" = .ok d.descriptionMd := by
    rw [hbody]
    exact congrArg Except.ok (encode_decode (utf8Length_of_fitText h.descriptionMd))
  have hname : requireString body "difficulty" = .ok (Dto.difficultyToString d.difficulty) := by
    rw [hbody]
    exact congrArg Except.ok (encode_difficultyText d.difficulty)
  have htime : requireUInt body "time_limit_ms" = .ok d.timeLimitMs := by
    refine requireUInt_number ?_
    rw [hbody, ← parseInt_numberText]
    rfl
  have hmemory : requireUInt body "memory_limit_mb" = .ok d.memoryLimitMb := by
    refine requireUInt_number ?_
    rw [hbody, ← parseInt_numberText]
    rfl
  have htags : Admin.parseTags body = .ok (resaved d).tags := by
    rw [hbody]
    exact parseTags_buildPayload d
  have hcases : parseTestcases body = .ok (resaved d).testcases := by
    refine parseTestcases_collectCase h.testcases_ne h.testcases_length (fun c hc => ?_)
      (by rw [hbody]; rfl)
    obtain ⟨hinput, houtput⟩ := h.testcases c hc
    exact ⟨utf8Length_of_fitText hinput, utf8Length_of_fitText houtput⟩
  have hne : ¬ (resaved d).title.isEmpty = true := by
    rw [List.isEmpty_iff]
    exact encode_ne_nil htitle
  have hshort : ¬ (resaved d).title.length > 255 := Nat.not_lt_of_le (length_title h)
  rw [← hbody]
  unfold parseProblemInput
  rw [if_neg hobject, htitle', htext, hname, htime, hmemory, htags, hcases]
  dsimp only [bind, Except.bind]
  rw [if_neg hne, if_neg hshort, parseDifficulty_difficultyToString]
  dsimp only
  rw [if_neg (UInt32.pos_iff_ne_zero.mp h.timeLimitMs),
    if_neg (UInt32.pos_iff_ne_zero.mp h.memoryLimitMb)]
  rfl

end MiniOj.Frontend.AdminEdit
