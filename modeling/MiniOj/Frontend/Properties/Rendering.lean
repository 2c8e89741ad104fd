import MiniOj.Frontend.Properties.AdminEdit
import MiniOj.Frontend.Rendering
import MiniOj.Infra.Double

/-!
# What the pages show

The tokens of the markup that the pages put together are those of a tree that has the data in it as
texts and as attribute values, whatever the data are. In a text line ends have become line feeds
(`shown`), in an attribute U+0000 has become U+FFFD as well (`kept`).

* `ProblemList.tokens_problemList` — the list of problems
* `ProblemList.tokens_tagOptions` — the choice of a tag
-/

namespace MiniOj.Frontend

open Infra Infra.Html AdminEdit

/-! ## Numbers -/

/-- Integers up to 2^53 are doubles. -/
theorem toDouble_of_le {n : Nat} (h : n ≤ 2 ^ 53) : toDouble n = n := by
  have hgrid : binary64.Grid n := Double.grid_natCast (by decide) h
  unfold toDouble
  rw [FloatFormat.round_of_grid hgrid, Int.floor_natCast, Int.toNat_natCast]

/-- Rounding does not go below 2^53. -/
theorem le_toDouble {n : Nat} (h : 2 ^ 53 ≤ n) : 2 ^ 53 ≤ toDouble n := by
  have hgrid : binary64.Grid ((2 ^ 53 : Nat) : ℚ) := Double.grid_natCast (by decide) le_rfl
  have hround : ((2 ^ 53 : Nat) : ℚ) ≤ binary64.round n :=
    FloatFormat.le_round hgrid (Nat.cast_le.mpr h)
  have hfloor := Int.le_floor.mpr (show (((2 ^ 53 : Nat) : Int) : ℚ) ≤ _ from hround)
  unfold toDouble
  omega

/-- Small numbers are shown as they are. -/
theorem numberShown_of_lt {n : Nat} (h : n < 2 ^ 53) : numberShown n = n := by
  unfold numberShown shortest
  rw [toDouble_of_le h.le]
  cases hfind : ((List.range' 1 21).flatMap (nearest n)).find? (toDouble · == n) with
  | none => rfl
  | some m =>
    have hm : (toDouble m == n) = true := List.find?_some (p := (toDouble · == n)) hfind
    have hm : toDouble m = n := eq_of_beq hm
    have hlt : m < 2 ^ 53 := by
      refine Nat.lt_of_not_le fun hle => ?_
      exact absurd (le_toDouble hle) (Nat.not_le_of_lt (hm ▸ h))
    exact (toDouble_of_le hlt.le).symm.trans hm

/-! ## Trees -/

/-- A line feed and blanks. -/
def indent (n : Nat) : Node := .text ('\n' :: List.replicate n ' ')

/-- A text that is part of the page. -/
def fixed (s : String) : Node := .text s.toList

/-- A text that comes from the server. -/
def shown (value : JsString) : Node := .text (normalizeNewlines value)

/-- A number that the page writes in decimal. -/
def digits (n : Nat) : Node := .text (Nat.toDigits 10 n)

/-- An element of a class. -/
def element (name className : String) (children : List Node) : Node :=
  .element name [("class", className.toList)] children

/-- The element of a tag. -/
def tagNode (name : JsString) : Node := element "span" "tag" [shown name]

/-- The markup of a tag is its element. -/
theorem shows_tag (name : JsString) :
    Shows [.lit "<span class=\"tag\">", escapeHtml name, .lit "</span>"] [tagNode name] := by
  simp only [Shows, tagNode, element, shown, escapeHtml, Node.push, Node.pushAll, List.map]
  rfl

/-- A number of 32 bits is written as it is. -/
theorem interpolate_uint {object : Json} {key : String} {n : UInt32}
    (h : object.member? key = some (Dto.uint n)) : interpolate object key = .number n.toNat := by
  have hlt : n.toNat < 2 ^ 53 := n.toNat_lt.trans (by decide)
  rw [interpolate, h]
  dsimp only [Dto.uint]
  rw [UInt32.toNat_toUInt64, numberShown_of_lt hlt]

/-- An id is written as the double next to it. -/
theorem interpolate_id {object : Json} {key : String} {n : Nat}
    (h : object.member? key = some (Dto.id n)) :
    interpolate object key = .number (numberShown (n % UInt64.size)) := by
  rw [interpolate, h]
  rfl

/-- The name of a difficulty has nothing to escape. -/
theorem kept_difficultyText (difficulty : Difficulty) :
    kept (difficultyText difficulty) = difficultyText difficulty := by
  cases difficulty <;> rfl

/-! ## Tags of problems in detail -/

/-- `t.name || t`. -/
def tagLabel (name : JsString) : JsString :=
  if name = [] then "[object Object]".toList else name

/-- The pages of the administration and of a problem get a tag as an object. -/
theorem tagName_eq_tagLabel (t : Tag) : tagName (Dto.ofTag t) = tagLabel (decode t.name) := by
  unfold tagLabel
  split
  · next hnil =>
    have hname : textOr [] (Dto.ofTag t) "name" = decode t.name := textOr_string rfl
    rw [hnil] at hname
    unfold tagName
    rw [hname]
    rfl
  · next hne => exact tagName_ofTag hne

/-- Tags given as objects. -/
theorem shows_tags (tags : List Tag) :
    Shows ((tags.map Dto.ofTag).flatMap fun t =>
        [.lit "<span class=\"tag\">", escapeHtml (tagName t), .lit "</span>"])
      (tags.map fun t => tagNode (tagLabel (decode t.name))) := by
  have htag : ∀ t, Shows [.lit "<span class=\"tag\">", escapeHtml (tagName (Dto.ofTag t)),
      .lit "</span>"] [tagNode (tagLabel (decode t.name))] := by
    intro t
    rw [tagName_eq_tagLabel]
    exact shows_tag _
  rw [List.flatMap_map, List.map_eq_flatMap]
  exact Shows.flatMap htag tags

/-! ## The list of problems -/

namespace ProblemList

/-- The element with all tags of a card. -/
def tagsNode (tags : List JsString) : Node :=
  if tags.isEmpty then element "span" "tags muted" [fixed "无标签"]
  else element "div" "tags" (tags.map tagNode)

/-- The tags of a card. -/
theorem shows_renderTags (tags : List Bytes) :
    Shows (renderTags (tags.map .string)) [tagsNode (tags.map decode)] := by
  cases tags with
  | nil =>
    simp only [Shows, tagsNode, element, fixed, List.map_nil, List.isEmpty_nil, if_true, Node.push,
      Node.pushAll, List.map]
    rfl
  | cons t ts =>
    have hrow : ∀ t, Shows [.lit "<span class=\"tag\">", escapeHtml (textOf (.string t)),
        .lit "</span>"] [tagNode (decode t)] := fun t => shows_tag (decode t)
    have hopen : readPieces .data [.lit "<div class=\"tags\">"] =
        some (.data, [.start "div".toList [("class".toList, "tags".toList)]]) := rfl
    have hclose : readPieces .data [.lit "</div>"] = some (.data, [.close "div".toList]) := rfl
    have htags := (Shows.flatMap hrow (t :: ts)).inElement [] "div" [("class", "tags".toList)]
      [] [] [] hopen hclose
    rw [← List.map_eq_flatMap] at htags
    have hnode : tagsNode ((t :: ts).map decode) =
        element "div" "tags" ((t :: ts).map fun t => tagNode (decode t)) :=
      congrArg (element "div" "tags") List.map_map
    rw [renderTags, if_neg (by simp), List.flatMap_map, hnode]
    rwa [List.append_nil] at htags

/-- Number, difficulty, title and limits of a card. -/
def cardHead (id : Nat) (label title : JsString) (time memory : Nat) : List Node :=
  [indent 6,
    element "div" "card-top"
      [indent 8, element "span" "badge" [shown label],
        indent 8, element "span" "id" [fixed "#", digits id], indent 6],
    indent 6, element "h3" "title" [shown title], indent 6,
    element "div" "limits"
      [indent 8, element "span" "limit-value" [digits time, fixed " ms"],
        indent 8, element "span" "sep" [fixed "·"],
        indent 8, element "span" "limit-value" [digits memory, fixed " MB"], indent 6],
    indent 6]

/-- A card is a link to the page of its problem. -/
def cardAttributes (level : JsString) (id : Nat) : List (String × JsString) :=
  [("class", "card diff-".toList ++ level),
    ("href", "/problem.html?id=".toList ++ Nat.toDigits 10 id)]

set_option maxRecDepth 100000 in

/-- The markup of a card, for whatever the numbers come to. -/
theorem shows_renderCard {problem : Json} {id time memory : Nat} {tags : Node}
    (hid : interpolate problem "id" = .number id)
    (htime : interpolate problem "time_limit_ms" = .number time)
    (hmemory : interpolate problem "memory_limit_mb" = .number memory)
    (htags : Shows (renderTags (itemsOf problem "tags")) [tags]) :
    Shows (renderCard problem)
      [indent 4,
        .element "a" (cardAttributes (kept (textMember problem "difficulty")) id)
          (cardHead id (difficultyLabel (textMember problem "difficulty"))
            (textMember problem "title") time memory ++ [tags] ++ [indent 4]),
        indent 2] := by
  unfold renderCard
  dsimp only
  rw [hid, htime, hmemory]
  generalize difficultyLabel (textMember problem "difficulty") = label
  generalize textMember problem "difficulty" = difficulty
  generalize textMember problem "title" = title
  refine htags.inElement [indent 4] "a" (cardAttributes (kept difficulty) id)
    (cardHead id label title time memory) [indent 4] [indent 2] ?_ ?_
  · simp only [Node.push, Node.pushAll, List.map, indent, cardHead, cardAttributes, element, shown,
      fixed, digits, escapeHtml, escapeAttr]
    rfl
  · simp only [Node.push, Node.pushAll, indent]
    rfl

/-- A card with its indentation. -/
def cardNodes (s : ProblemSummary) : List Node :=
  [indent 4,
    .element "a" (cardAttributes (difficultyText s.difficulty) (numberShown (s.id % UInt64.size)))
      (cardHead (numberShown (s.id % UInt64.size)) (difficultyLabel (difficultyText s.difficulty))
          (decode s.title) s.timeLimitMs.toNat s.memoryLimitMb.toNat ++
        [tagsNode (s.tags.map decode)] ++ [indent 4]),
    indent 2]

/-- The card of a problem the server has answered. -/
theorem shows_renderCard_ofSummary (s : ProblemSummary) :
    Shows (renderCard (Dto.ofSummary s)) (cardNodes s) := by
  have htags : Shows (renderTags (itemsOf (Dto.ofSummary s) "tags"))
      [tagsNode (s.tags.map decode)] :=
    shows_renderTags s.tags
  have hcard := shows_renderCard (interpolate_id rfl) (interpolate_uint rfl) (interpolate_uint rfl)
    htags
  have hdifficulty : textMember (Dto.ofSummary s) "difficulty" = difficultyText s.difficulty :=
    difficulty_textOr rfl
  have htitle : textMember (Dto.ofSummary s) "title" = decode s.title := textOr_string rfl
  rw [hdifficulty, htitle, kept_difficultyText] at hcard
  exact hcard

/-- The cards, or the message that there are none. -/
def listNodes (items : List ProblemSummary) : List Node :=
  if items.isEmpty then [element "p" "empty" [fixed "暂无符合条件的题目"]]
  else items.flatMap cardNodes

/-- A message in place of the cards. -/
theorem shows_renderEmpty (message : JsString) (isError : Bool) :
    Shows (renderEmpty message isError)
      [element "p" (if isError then "empty is-error" else "empty") [shown message]] := by
  simp only [Shows, renderEmpty, element, shown, escapeHtml, Node.push, Node.pushAll, List.map]
  cases isError <;> rfl

/-- **The list of problems shows what the server has answered, and has no other markup.** Titles
and tags are texts, in which line ends have become line feeds. -/
theorem tokens_problemList (items : List ProblemSummary) :
    tokens (render (renderList (items.map Dto.ofSummary))) =
      some (Node.pushAll (listNodes items) []) := by
  apply Shows.tokens
  cases items with
  | nil => exact shows_renderEmpty "暂无符合条件的题目".toList false
  | cons s items =>
    rw [renderList, if_neg (by simp), List.flatMap_map, listNodes, if_neg (by simp)]
    exact Shows.flatMap shows_renderCard_ofSummary (s :: items)

/-- One choice of the filter. -/
def optionNode (t : JsString) : Node := .element "option" [("value", kept t)] [shown t]

/-- The choice of a tag. -/
theorem tokens_tagOptions (allTags : List JsString) :
    tokens (render (renderTagOptions allTags)) = some (Node.pushAll
      (.element "option" [("value", [])] [fixed "全部"] :: allTags.map optionNode) []) := by
  apply Shows.tokens
  have hall : Shows [.lit "<option value=\"\">全部</option>"]
      [.element "option" [("value", [])] [fixed "全部"]] := by
    simp only [Shows, Node.push, Node.pushAll, List.map, fixed]
    rfl
  have hoption : ∀ t, Shows [.lit "<option value=\"", escapeAttr t, .lit "\">", escapeHtml t,
      .lit "</option>"] [optionNode t] := by
    intro t
    simp only [Shows, Node.push, Node.pushAll, List.map, optionNode, shown, escapeHtml, escapeAttr]
    rfl
  have hmarkup := hall.append (Shows.flatMap hoption allTags)
  rwa [← List.map_eq_flatMap] at hmarkup

end ProblemList

end MiniOj.Frontend
