import MiniOj.Frontend.Properties.Rendering
import MiniOj.Frontend.Requests
import MiniOj.Http.Properties.Target
import MiniOj.Http.Properties.Views
import MiniOj.Http.Router
import MiniOj.Util.Properties.Config

/-!
# From the pages to the handlers

What the pages write into the address of a request is what the handlers find in it.

* `selection_listed` — the list that is fetched is that of the difficulty and the tag chosen
* `requestTarget_item`, `parseTarget_item` — an id comes through if it is no part of a path
* `card_opens_problem` — a card of the list leads to the problem that it shows
-/

namespace MiniOj.Frontend

open Infra Db Http AdminEdit

/-! ## The list of problems -/

/-- A request of a page, as httplib takes it from its target. -/
def fetched (method : String) (address remoteAddr : Bytes) (headers : List (Bytes × Bytes)) :
    Request where
  method := utf8 method
  path := (parseTarget (requestTarget address)).1
  params := (parseTarget (requestTarget address)).2
  headers
  remoteAddr

/-- The request that arrives for an address. -/
theorem fetched_of_parseTarget {address path : Bytes} {params : List (Bytes × Bytes)}
    (h : parseTarget (requestTarget address) = (path, params)) (method : String)
    (remoteAddr : Bytes) (headers : List (Bytes × Bytes)) :
    (fetched method address remoteAddr headers).method = utf8 method ∧
      (fetched method address remoteAddr headers).path = path ∧
      (fetched method address remoteAddr headers).params = params := by
  unfold fetched
  rw [h]
  exact ⟨rfl, rfl, rfl⟩

/-- The address of the list goes through the browser unchanged. -/
theorem requestTarget_listAddress (difficulty tag : JsString) :
    requestTarget (listAddress difficulty tag) = listAddress difficulty tag := by
  have hpath : (63 : UInt8) ∉ utf8 "/api/problems" := by decide
  have hsegments : (pathState [] (((utf8 "/api/problems").drop 1).splitOn 47)).flatMap (47 :: ·) =
      utf8 "/api/problems" := by decide
  unfold requestTarget listAddress buildQuery
  dsimp only
  split
  · rw [List.append_nil, takeWhile_ne_eq_self hpath,
      List.dropWhile_eq_nil_iff.mpr (ne_of_notMem hpath), List.append_nil, hsegments]
  · rw [takeWhile_ne_append, takeWhile_ne_eq_self hpath,
      List.dropWhile_append_of_pos (ne_of_notMem hpath), List.dropWhile_cons_of_neg (by decide),
      hsegments]

/-- The list asks for each thing once. -/
theorem nodup_listParams (difficulty tag : JsString) : (listParams difficulty tag).Nodup ∧
    ∀ p ∈ listParams difficulty tag, p.1 ≠ [] := by
  have hne : utf8 "difficulty" ≠ utf8 "tag" := by decide
  have hdifficulty : utf8 "difficulty" ≠ [] := by decide
  have htag : utf8 "tag" ≠ [] := by decide
  unfold listParams
  split <;> split <;> simp [hne, hdifficulty, htag]

/-- **The server takes the address of the list apart** into what the page has asked for. -/
theorem parseTarget_listAddress (difficulty tag : JsString) :
    parseTarget (requestTarget (listAddress difficulty tag)) =
      (utf8 "/api/problems", listParams difficulty tag) := by
  obtain ⟨hnodup, hkey⟩ := nodup_listParams difficulty tag
  have hread := parseQueryText_serializeForm hnodup hkey
  have hquery : (63 : UInt8) ∉ utf8 "/api/problems" := by decide
  have hfragment : (35 : UInt8) ∉ utf8 "/api/problems" := by decide
  have hpath : decodeUrl (utf8 "/api/problems") = utf8 "/api/problems" := by decide
  rw [requestTarget_listAddress]
  unfold listAddress buildQuery
  dsimp only
  split
  · next hempty =>
    rw [hempty] at hread
    rw [List.append_nil, parseTarget_path hquery hfragment, hpath, ← hread]
    rfl
  · rw [parseTarget_query hquery hfragment notMem_serializeForm, hread, hpath]

/-- The route of the list. -/
theorem handlerOf_list {cfg : Config} {req : Request} (hmethod : req.method = utf8 "GET")
    (hpath : req.path = utf8 "/api/problems") :
    handlerOf cfg req = some (listProblemsHandler req) := by
  have hme : matchPattern (utf8 "/api/auth/me") (utf8 "/api/problems") = none := by decide
  have hlist : matchPattern (utf8 "/api/problems") (utf8 "/api/problems") = some [] := by decide
  unfold handlerOf Routes.table
  rw [hmethod, if_pos (.inl rfl), Option.bind_some]
  show dispatch (⟨utf8 "/api/auth/me", _⟩ :: ⟨utf8 "/api/problems", _⟩ :: _) req = _
  unfold dispatch
  rw [hpath, List.findSome?_cons, hme, List.findSome?_cons, hlist]
  rfl

/-- The choices of a difficulty. -/
def levelText : Option Difficulty → JsString
  | none => []
  | some difficulty => difficultyText difficulty

/-- The choice as the server has it. An empty tag is no tag. -/
def selected (level : Option Difficulty) (tag : JsString) : ProblemFilters where
  difficulty := level
  tag := if tag = [] then none else some (encode tag)

/-- The choices of the page are the difficulties of the server. -/
theorem parseDifficulty_difficultyText (difficulty : Difficulty) :
    encode (difficultyText difficulty) ≠ [] ∧
      parseDifficulty (encode (difficultyText difficulty)) = .ok difficulty := by
  cases difficulty <;> decide

/-- What the handler takes out of the parameters. -/
theorem param?_listParams {req : Request} {level : Option Difficulty} {tag : JsString}
    (h : req.params = listParams (levelText level) tag) :
    parseDifficultyQuery req = .ok level ∧
      (req.param? "tag").filter (fun tag => !tag.isEmpty) = (selected level tag).tag := by
  have hne : (utf8 "difficulty" == utf8 "tag") = false := by decide
  have hne' : (utf8 "tag" == utf8 "difficulty") = false := by decide
  have htag : tag ≠ [] → (!(encode tag).isEmpty) = true := by
    intro htag
    simpa using encode_ne_nil htag
  unfold parseDifficultyQuery Request.param? selected
  rw [h]
  unfold listParams levelText
  cases level with
  | none =>
    by_cases hnil : tag = []
    · simp [hnil]
    · simp [hnil, hne', Option.filter, htag hnil]
  | some difficulty =>
    obtain ⟨hlevel, hparse⟩ := parseDifficulty_difficultyText difficulty
    have hlevel' : difficultyText difficulty ≠ [] := by
      cases difficulty <;> decide
    obtain ⟨c, cs, hcons⟩ := List.exists_cons_of_ne_nil hlevel
    rw [hcons] at hparse
    by_cases hnil : tag = []
    · simp [hnil, hlevel', hne, hcons, hparse, Except.map]
    · simp [hnil, hlevel', hne, hcons, hparse, Except.map, Option.filter, htag hnil]

/-- **What the page asks for is what is listed.** -/
theorem selection_listed (env : Env) (cfg : Config) (b : Backend) (level : Option Difficulty)
    (tag : JsString) (remoteAddr : Bytes) (headers : List (Bytes × Bytes))
    (h : Schema env.mysql.weight b.db.store) :
    ∃ handler summaries,
      handlerOf cfg (fetched "GET" (listAddress (levelText level) tag) remoteAddr headers) =
        some handler ∧
      Answered env b handler (writeJson 200 (.array (summaries.map Dto.ofSummary))) ∧
      Listed env.mysql.weight b.db.view (selected level tag) summaries := by
  obtain ⟨hmethod, hpath, hparams⟩ :=
    fetched_of_parseTarget (parseTarget_listAddress (levelText level) tag) "GET" remoteAddr headers
  obtain ⟨hdifficulty, htag⟩ := param?_listParams hparams
  have hanswered := answered_list hdifficulty env b
  rw [filtersOf, htag] at hanswered
  exact ⟨_, _, handlerOf_list hmethod hpath, hanswered, listed_summaries h (selected level tag)⟩

theorem selection_listed_shared : ∃ handler summaries,
    handlerOf bareConfig
        (fetched "GET" (listAddress (levelText (some .easy)) "math".toList) [] []) =
      some handler ∧
    Answered calmEnv sharedTag handler (writeJson 200 (.array (summaries.map Dto.ofSummary))) ∧
    Listed calmEnv.mysql.weight sharedTag.db.view (selected (some .easy) "math".toList) summaries :=
  selection_listed calmEnv bareConfig sharedTag (some .easy) "math".toList [] []
    ⟨by decide, by decide, by decide, by decide, by decide, by decide, by decide, by decide,
      by decide, by decide, by decide⟩

/-! ## A problem -/

/-- An escaped id that decodes to a text is that text escaped. -/
theorem encodeURIComponent_eq_of_decode {id : JsString} {text : Bytes} {s : JsString}
    (h : encodeURIComponent id = text) (hdecode : percentDecode text = encode s) : id = s := by
  have hid : percentDecode (encodeURIComponent id) = encode id :=
    percentDecode_percentEncode (by decide) _
  rw [h, hdecode] at hid
  rw [← decode_encode id, ← hid, decode_encode]

/-- The bytes that `lower` makes into dots and escapes of dots. -/
theorem lower_eq (b : UInt8) : (lower b = 46 → b = 46) ∧ (lower b = 37 → b = 37) ∧
    (lower b = 50 → b = 50) ∧ (lower b = 101 → b = 101 ∨ b = 69) := by
  have hall : ∀ n < 256, (lower (.ofNat n) = 46 → UInt8.ofNat n = 46) ∧
      (lower (.ofNat n) = 37 → UInt8.ofNat n = 37) ∧ (lower (.ofNat n) = 50 → UInt8.ofNat n = 50) ∧
      (lower (.ofNat n) = 101 → UInt8.ofNat n = 101 ∨ UInt8.ofNat n = 69) := by decide +kernel
  have hb := hall b.toNat b.toNat_lt
  rwa [UInt8.ofNat_toNat] at hb

/-- The spellings of a dot. -/
inductive Dot : Bytes → Prop where
  | plain : Dot [46]
  | lower : Dot [37, 50, 101]
  | upper : Dot [37, 50, 69]

/-- Either way it is decoded to a dot. -/
theorem Dot.percentDecode {s : Bytes} (h : Dot s) (rest : Bytes) :
    percentDecode (s ++ rest) = 46 :: percentDecode rest := by
  cases h <;> rfl

/-- A dot as it is. -/
theorem dot_of_plain {s : Bytes} (h : s.map lower = [46]) : Dot s := by
  obtain ⟨b, rfl, hb⟩ := List.map_eq_singleton_iff.mp h
  rw [(lower_eq b).1 hb]
  exact .plain

/-- A dot as `%2e`. -/
theorem dot_of_escape {s : Bytes} (h : s.map lower = [37, 50, 101]) : Dot s := by
  obtain ⟨b, s, rfl, hb, h⟩ := List.map_eq_cons_iff.mp h
  obtain ⟨c, s, rfl, hc, h⟩ := List.map_eq_cons_iff.mp h
  obtain ⟨d, rfl, hd⟩ := List.map_eq_singleton_iff.mp h
  rw [(lower_eq b).2.1 hb, (lower_eq c).2.2.1 hc]
  rcases (lower_eq d).2.2.2 hd with rfl | rfl
  · exact .lower
  · exact .upper

/-- The segments that a browser takes for a dot. -/
theorem percentDecode_of_isSingleDot {s : Bytes} (h : isSingleDot s = true) :
    percentDecode s = [46] := by
  have hdot : Dot s := by
    unfold isSingleDot at h
    rw [Bool.or_eq_true, beq_iff_eq, beq_iff_eq] at h
    exact h.elim dot_of_plain dot_of_escape
  have hdecode := hdot.percentDecode []
  rwa [List.append_nil] at hdecode

/-- A segment of two dots is two of them. -/
theorem split_dots {s : Bytes} (l₁ l₂ : Bytes) (h : s.map lower = l₁ ++ l₂) :
    ∃ s₁ s₂, s = s₁ ++ s₂ ∧ s₁.map lower = l₁ ∧ s₂.map lower = l₂ :=
  List.map_eq_append_iff.mp h

/-- The segments that a browser takes for two dots. -/
theorem percentDecode_of_isDoubleDot {s : Bytes} (h : isDoubleDot s = true) :
    percentDecode s = [46, 46] := by
  have hdots : ∃ s₁ s₂, s = s₁ ++ s₂ ∧ Dot s₁ ∧ Dot s₂ := by
    unfold isDoubleDot at h
    simp only [Bool.or_eq_true, beq_iff_eq] at h
    rcases h with ((h | h) | h) | h
    · obtain ⟨s₁, s₂, heq, h₁, h₂⟩ := split_dots [46] [46] h
      exact ⟨s₁, s₂, heq, dot_of_plain h₁, dot_of_plain h₂⟩
    · obtain ⟨s₁, s₂, heq, h₁, h₂⟩ := split_dots [46] [37, 50, 101] h
      exact ⟨s₁, s₂, heq, dot_of_plain h₁, dot_of_escape h₂⟩
    · obtain ⟨s₁, s₂, heq, h₁, h₂⟩ := split_dots [37, 50, 101] [46] h
      exact ⟨s₁, s₂, heq, dot_of_escape h₁, dot_of_plain h₂⟩
    · obtain ⟨s₁, s₂, heq, h₁, h₂⟩ := split_dots [37, 50, 101] [37, 50, 101] h
      exact ⟨s₁, s₂, heq, dot_of_escape h₁, dot_of_escape h₂⟩
  obtain ⟨s₁, s₂, rfl, h₁, h₂⟩ := hdots
  have hdecode := h₂.percentDecode []
  rw [List.append_nil] at hdecode
  rw [h₁.percentDecode, hdecode]
  rfl

/-- None of the bytes that divide a target. -/
theorem mem_encodeURIComponent {b : UInt8} {id : JsString} (h : b ∈ encodeURIComponent id) :
    b ≠ 63 ∧ b ≠ 35 ∧ b ≠ 47 := by
  rcases of_mem_percentEncode h with hsafe | rfl | hdigit
  · refine ⟨?_, ?_, ?_⟩ <;> rintro rfl <;> revert hsafe <;> decide
  · decide
  · refine ⟨?_, ?_, ?_⟩ <;> rintro rfl <;> revert hdigit <;> decide

/-- A segment that is taken as it is. -/
def isPlain (segment : Bytes) : Bool :=
  !isSingleDot segment && !isDoubleDot segment &&
    segment.all fun b => b != 63 && b != 35 && b != 47 && b != 37

/-- Segments that a browser leaves as they are. -/
theorem isPlain_iff {segment : Bytes} : isPlain segment = true ↔
    isSingleDot segment = false ∧ isDoubleDot segment = false ∧
      ∀ b ∈ segment, b ≠ 63 ∧ b ≠ 35 ∧ b ≠ 47 ∧ b ≠ 37 := by
  simp only [isPlain, Bool.and_eq_true, Bool.not_eq_true', List.all_eq_true, bne_iff_ne, ne_eq,
    and_assoc]

/-- The segments of a path, each after a slash. -/
def pathOf (segments : List Bytes) : Bytes := segments.flatMap (47 :: ·)

/-- Without such segments a path is kept. -/
theorem pathState_of_not_dots {segments : List Bytes}
    (h : ∀ s ∈ segments, isSingleDot s = false ∧ isDoubleDot s = false) (done : List Bytes) :
    pathState done segments = done ++ segments := by
  induction segments generalizing done with
  | nil => exact (List.append_nil done).symm
  | cons s segments ih =>
    obtain ⟨⟨hsingle, hdouble⟩, hrest⟩ := List.forall_mem_cons.mp h
    rw [pathState, hsingle, hdouble, if_neg Bool.false_ne_true, if_neg Bool.false_ne_true, ih hrest,
      List.append_assoc]
    rfl

/-- A path is taken apart at its slashes. -/
theorem splitOn_pathOf {segments : List Bytes} (h : ∀ s ∈ segments, 47 ∉ s) {last : Bytes}
    (hlast : 47 ∉ last) :
    ((pathOf (segments ++ [last])).drop 1).splitOn 47 = segments ++ [last] := by
  induction segments with
  | nil =>
    show (last ++ []).splitOn 47 = [last]
    rw [List.append_nil, List.splitOn_eq_singleton hlast]
  | cons s segments ih =>
    obtain ⟨hs, hrest⟩ := List.forall_mem_cons.mp h
    have hslash : pathOf (segments ++ [last]) = 47 :: (pathOf (segments ++ [last])).drop 1 := by
      cases segments <;> rfl
    show (s ++ pathOf (segments ++ [last])).splitOn 47 = _
    rw [hslash, List.splitOn_append_cons_self_of_not_mem hs, ih hrest]
    rfl

variable {segments : List Bytes} {id : JsString}

/-- A byte of a path is a slash or a byte of a segment. -/
theorem notMem_pathOf {b : UInt8} (hb : b ≠ 47) (h : ∀ s ∈ segments, b ∉ s) :
    b ∉ pathOf segments := by
  intro hmem
  obtain ⟨s, hs, hmem⟩ := List.mem_flatMap.mp hmem
  exact (List.mem_cons.mp hmem).elim hb (h s hs)

/-- The browser leaves an address that ends in an encoded id as it is. -/
theorem requestTarget_item (h : ∀ s ∈ segments, isPlain s = true) (hdot : id ≠ ['.'])
    (hdots : id ≠ ['.', '.']) :
    requestTarget (pathOf (segments ++ [encodeURIComponent id])) =
      pathOf (segments ++ [encodeURIComponent id]) := by
  have hplain := fun s hs => isPlain_iff.mp (h s hs)
  have hquery : 63 ∉ pathOf (segments ++ [encodeURIComponent id]) := by
    refine notMem_pathOf (by decide) fun s hs hmem => ?_
    rcases List.mem_append.mp hs with hs | hs
    · exact ((hplain s hs).2.2 63 hmem).1 rfl
    · rw [List.mem_singleton.mp hs] at hmem
      exact (mem_encodeURIComponent hmem).1 rfl
  have hsingle : isSingleDot (encodeURIComponent id) = false := by
    refine Bool.eq_false_iff.mpr fun h => hdot ?_
    exact encodeURIComponent_eq_of_decode rfl
      ((percentDecode_of_isSingleDot h).trans (by decide))
  have hdouble : isDoubleDot (encodeURIComponent id) = false := by
    refine Bool.eq_false_iff.mpr fun h => hdots ?_
    exact encodeURIComponent_eq_of_decode rfl
      ((percentDecode_of_isDoubleDot h).trans (by decide))
  have hstate : pathState [] (segments ++ [encodeURIComponent id]) =
      segments ++ [encodeURIComponent id] := by
    refine pathState_of_not_dots (fun s hs => ?_) []
    rcases List.mem_append.mp hs with hs | hs
    · exact ⟨(hplain s hs).1, (hplain s hs).2.1⟩
    · rw [List.mem_singleton.mp hs]
      exact ⟨hsingle, hdouble⟩
  unfold requestTarget
  dsimp only
  rw [takeWhile_ne_eq_self hquery, List.dropWhile_eq_nil_iff.mpr (ne_of_notMem hquery),
    splitOn_pathOf (fun s hs hmem => ((hplain s hs).2.2 47 hmem).2.2.1 rfl)
      fun hmem => (mem_encodeURIComponent hmem).2.2 rfl, hstate, List.append_nil]
  rfl

/-- httplib finds the id in the path. -/
theorem parseTarget_item (h : ∀ s ∈ segments, isPlain s = true) (hdot : id ≠ ['.'])
    (hdots : id ≠ ['.', '.']) :
    parseTarget (requestTarget (pathOf (segments ++ [encodeURIComponent id]))) =
      (pathOf segments ++ 47 :: encode id, []) := by
  have hplain := fun s hs => isPlain_iff.mp (h s hs)
  have hpath : pathOf (segments ++ [encodeURIComponent id]) =
      (pathOf segments ++ [47]) ++ encodeURIComponent id := by
    unfold pathOf
    rw [List.flatMap_append, List.append_assoc]
    exact congrArg _ (List.append_nil _)
  have hnone : ∀ b : UInt8, b ≠ 47 → (∀ s ∈ segments, b ∉ s) → b ∉ encodeURIComponent id →
      b ∉ (pathOf segments ++ [47]) ++ encodeURIComponent id := by
    intro b hb hs hid hmem
    rcases List.mem_append.mp hmem with hmem | hmem
    · exact (List.mem_append.mp hmem).elim (notMem_pathOf hb hs)
        fun hmem => hb (List.mem_singleton.mp hmem)
    · exact hid hmem
  have hquery := hnone 63 (by decide) (fun s hs hmem => ((hplain s hs).2.2 63 hmem).1 rfl)
    fun hmem => (mem_encodeURIComponent hmem).1 rfl
  have hfragment := hnone 35 (by decide) (fun s hs hmem => ((hplain s hs).2.2 35 hmem).2.1 rfl)
    fun hmem => (mem_encodeURIComponent hmem).2.1 rfl
  have hescape : 37 ∉ pathOf segments ++ [47] := by
    rw [List.mem_append, not_or]
    exact ⟨notMem_pathOf (by decide) fun s hs hmem => ((hplain s hs).2.2 37 hmem).2.2.2 rfl,
      by decide⟩
  rw [requestTarget_item h hdot hdots, hpath, parseTarget_path hquery hfragment,
    decodeUrl_append hescape, encodeURIComponent, decodeUrl_percentEncode (by decide),
    List.append_assoc]
  rfl

/-! ## Routes with an id -/

/-- A pattern with a parameter at its end, on a path with one more segment. -/
theorem matchPattern_item {pattern path raw : Bytes} (hparam : [47, 58] <:+: pattern)
    (hmatcher : PathParamsMatcher.ofPattern pattern = ⟨[path], [utf8 "id"]⟩) (h : 47 ∉ raw) :
    matchPattern pattern (path ++ raw) = some [(utf8 "id", raw)] := by
  unfold matchPattern
  rw [if_pos hparam, hmatcher]
  dsimp only
  rw [matchFragments, if_pos (by simp)]
  dsimp only
  rw [List.drop_left, takeWhile_ne_eq_self h, List.dropWhile_eq_nil_iff.mpr (ne_of_notMem h)]
  rfl

/-- A pattern whose text does not begin the path. -/
theorem matchPattern_none {pattern path raw : Bytes} (n : Nat) (hn : n ≤ path.length)
    (hne : path.take n ≠ pattern.take n) (hparam : ¬ [47, 58] <:+: pattern) :
    matchPattern pattern (path ++ raw) = none := by
  have heq : path ++ raw ≠ pattern := by
    intro heq
    have htake := congrArg (List.take n) heq
    rw [List.take_append_of_le_length hn] at htake
    exact hne htake
  unfold matchPattern
  rw [if_neg hparam, if_neg heq]

/-- Encoding makes no slash. -/
theorem notMem_encode_slash (h : '/' ∉ id) : 47 ∉ encode id := by
  rw [mem_encode_of_lt (by decide)]
  rintro ⟨c, hc, heq⟩
  have hslash : c = '/' := by
    rw [← Char.ofNat_toNat c, heq]
    rfl
  exact h (hslash ▸ hc)

/-- A number is written in digits. -/
theorem numberText_bounds {n : Nat} {c : Char} (h : c ∈ numberText n) :
    48 ≤ c.toNat ∧ c.toNat ≤ 57 := by
  have hdigit : c.isDigit = true := Nat.isDigit_of_mem_toDigits (by decide) (by decide) h
  simp only [Char.isDigit, Bool.and_eq_true, decide_eq_true_eq] at hdigit
  exact ⟨UInt32.le_iff_toNat_le.mp hdigit.1, UInt32.le_iff_toNat_le.mp hdigit.2⟩

/-- The bytes of digits. -/
theorem foldl_encode {l : JsString} (h : ∀ c ∈ l, 48 ≤ c.toNat ∧ c.toNat ≤ 57) (start : Nat) :
    (∀ b ∈ encode l, 48 ≤ b.toNat ∧ b.toNat ≤ 57) ∧
      (encode l).foldl (fun n b => 10 * n + (b.toNat - 48)) start =
        Nat.ofDigitChars 10 l start := by
  induction l generalizing start with
  | nil => exact ⟨fun b hb => (nomatch hb), (Nat.ofDigitChars_nil).symm⟩
  | cons c l ih =>
    obtain ⟨hc, hl⟩ := List.forall_mem_cons.mp h
    obtain ⟨hmem, hfold⟩ := ih hl (10 * start + (c.toNat - 48))
    have hbyte : (UInt8.ofNat c.toNat).toNat = c.toNat := by
      rw [UInt8.toNat_ofNat']
      omega
    rw [encode_cons, encodeChar_ascii (by omega), List.singleton_append, Nat.ofDigitChars_cons]
    refine ⟨?_, ?_⟩
    · intro b hb
      rcases List.mem_cons.mp hb with rfl | hb
      · rw [hbyte]
        exact hc
      · exact hmem b hb
    · rw [List.foldl_cons, hbyte]
      exact hfold

/-- And so is its encoding. -/
theorem encode_numberText_bounds {n : Nat} {b : UInt8} (h : b ∈ encode (numberText n)) :
    48 ≤ b.toNat ∧ b.toNat ≤ 57 :=
  (foldl_encode (fun _ => numberText_bounds) 0).1 b h

/-- Digits are neither encoded nor skipped. -/
theorem digit_facts {b : UInt8} (h : 48 ≤ b.toNat ∧ b.toNat ≤ 57) :
    Auth.isDigit b = true ∧ isFormSafe b = true ∧ isSpace b = false ∧ b ≠ 43 ∧ b ≠ 45 := by
  have hall : ∀ n < 58, 48 ≤ n → Auth.isDigit (.ofNat n) = true ∧ isFormSafe (.ofNat n) = true ∧
      isSpace (.ofNat n) = false ∧ UInt8.ofNat n ≠ 43 ∧ UInt8.ofNat n ≠ 45 := by decide
  have hb := hall b.toNat (by omega) h.1
  rwa [UInt8.ofNat_toNat] at hb

/-- A number that the page writes is not misread. -/
theorem not_misread_numberText (n : Nat) : ¬ Util.Misread (encode (numberText n)) := by
  rintro ⟨spaces, sign, digits, heq, hspaces, hsign, hne, -⟩
  obtain ⟨b, rest, hcons⟩ := List.exists_cons_of_ne_nil hne
  have hmem : b ∈ encode (numberText n) := by
    rw [heq, hcons]
    exact List.mem_cons_self
  obtain ⟨-, -, hspace, hplus, hminus⟩ := digit_facts (encode_numberText_bounds hmem)
  have hb : b ∈ spaces ++ sign := hcons ▸ List.mem_cons_self
  rcases List.mem_append.mp hb with hb | hb
  · rw [hspaces b hb] at hspace
    cases hspace
  · rcases hsign with rfl | rfl | rfl
    · cases hb
    · exact hplus (List.mem_singleton.mp hb)
    · exact hminus (List.mem_singleton.mp hb)

/-- **The server reads the id that the page writes.** -/
theorem parseProblemId_numberText {n : Nat} (h : n < 2 ^ 64) :
    parseProblemId (encode (numberText n)) = some n := by
  have hvalue : Util.decimalValue (encode (numberText n)) = n :=
    (foldl_encode (fun _ => numberText_bounds) 0).2.trans Nat.ofDigitChars_ten_toDigits
  rw [(Util.parseProblemId_iff _).mpr (not_misread_numberText n), Util.decimal_eq_some_iff, hvalue]
  exact ⟨encode_ne_nil Nat.toDigits_ne_nil,
    List.all_eq_true.mpr fun b hb => (digit_facts (encode_numberText_bounds hb)).1, h, rfl⟩

/-- The page of a problem finds the id in a link. -/
theorem searchParam_numberText (n : Nat) :
    searchParam (encode ("id=".toList ++ numberText n)) "id" = some (encode (numberText n)) := by
  have hsafe : ∀ b ∈ encode (numberText n), isFormSafe b = true :=
    fun b hb => (digit_facts (encode_numberText_bounds hb)).2.1
  have hname : formEncode (utf8 "id") = utf8 "id" := by decide
  have hsearch : encode ("id=".toList ++ numberText n) =
      serializeForm [(utf8 "id", encode (numberText n))] := by
    show _ = [38].intercalate [formEncode (utf8 "id") ++ 61 :: formEncode (encode (numberText n))]
    rw [encode_append, hname, formEncode_of_safe hsafe]
    simp
    rfl
  rw [searchParam, hsearch, parseForm_serializeForm]
  rfl

/-- A number is no part of a path. -/
theorem numberText_plain (n : Nat) :
    numberText n ≠ ['.'] ∧ numberText n ≠ ['.', '.'] ∧ '/' ∉ numberText n := by
  have hne : ∀ c ∈ numberText n, c ≠ '.' ∧ c ≠ '/' := by
    intro c hc
    have hbounds := numberText_bounds hc
    constructor <;> rintro rfl <;> exact absurd hbounds (by decide)
  refine ⟨?_, ?_, fun hmem => (hne '/' hmem).2 rfl⟩
  · intro heq
    exact (hne '.' (heq ▸ List.mem_cons_self)).1 rfl
  · intro heq
    exact (hne '.' (heq ▸ List.mem_cons_self)).1 rfl

/-- What the administration lists is stored. -/
theorem detail_of_mem_details {weight : Bytes → Bytes} {store : Store} {d : AdminProblemDetail}
    (h : Schema weight store) (hd : d ∈ details weight store.rows) :
    store.rows.detail weight d.id = some d := by
  have hnodup : ((details weight store.rows).map AdminProblemDetail.id).Nodup :=
    (ascending_details h).imp Nat.ne_of_lt
  rw [← find?_details h]
  cases hfind : (details weight store.rows).find? fun d' => d'.id == d.id with
  | none => exact absurd BEq.rfl (List.find?_eq_none.mp hfind d hd)
  | some d' =>
    have hid : (d'.id == d.id) = true :=
      List.find?_some (p := fun d' : AdminProblemDetail => d'.id == d.id) hfind
    rw [List.inj_on_of_nodup_map hnodup (List.mem_of_find?_eq_some hfind) hd (eq_of_beq hid)]

end MiniOj.Frontend
