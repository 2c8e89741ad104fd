import Mathlib.Algebra.Order.Ring.Cast
import Mathlib.Algebra.Order.Ring.Rat
import Mathlib.Data.Rat.Lemmas
import MiniOj.Http.Handlers

/-!
# What a body can be refused with

The handlers answer 400 to `std::invalid_argument` and to nothing else. Every check of the
parsers is written down here as a condition on the body, in the order of the source, with what
comes of it. Only the reader beyond its nesting limit and the integers from `2 ^ 63` on end in
another exception.

* `first` — the first check that is not passed decides
* `outcome_problem`, `outcome_submission`, `outcome_auth` — the checks of the parsers
* `only_invalid_iff` — the bodies for which there is no other exception
-/

namespace MiniOj.Http

open Infra Admin

variable {α β : Type}

/-! ## Checks -/

/-- What comes of a check. -/
inductive Check where
  | passed
  /-- `std::invalid_argument` -/
  | invalid
  /-- an exception of another kind -/
  | thrown
  deriving DecidableEq, Repr

namespace Check

/-- A check that refuses what does not meet it. -/
def of (b : Bool) : Check := if b then passed else invalid

/-- The second check is made only when the first has passed. -/
def andThen : Check → Check → Check
  | passed, c => c
  | c, _ => c

/-- The first check that is not passed decides. -/
def first (checks : List Check) : Check := checks.foldr andThen passed

@[simp] theorem passed_andThen (c : Check) : passed.andThen c = c := rfl
@[simp] theorem invalid_andThen (c : Check) : invalid.andThen c = invalid := rfl
@[simp] theorem thrown_andThen (c : Check) : thrown.andThen c = thrown := rfl

@[simp] theorem andThen_passed (c : Check) : c.andThen passed = c := by cases c <;> rfl

/-- Only the order of the checks matters. -/
theorem andThen_assoc (c d e : Check) : (c.andThen d).andThen e = c.andThen (d.andThen e) := by
  cases c <;> rfl

/-- A conjunction is checked from the left. -/
theorem of_and (a b : Bool) : of (a && b) = (of a).andThen (of b) := by
  cases a <;> rfl

@[simp] theorem first_nil : first [] = passed := rfl

@[simp] theorem first_cons (c : Check) (cs : List Check) :
    first (c :: cs) = c.andThen (first cs) := rfl

/-- The checks of a list come before those appended to it. -/
theorem first_append : ∀ cs ds : List Check, first (cs ++ ds) = (first cs).andThen (first ds)
  | [], _ => rfl
  | c :: cs, ds => by
    rw [List.cons_append, first_cons, first_append cs ds, first_cons, andThen_assoc]

end Check

/-- What comes of a parser. -/
def outcome (x : Except Exn α) : Check :=
  match x with
  | .ok _ => .passed
  | .error e => if e.kind = .invalidArgument then .invalid else .thrown

@[simp] theorem outcome_ok (a : α) : outcome (.ok a : Except Exn α) = .passed := rfl

@[simp] theorem outcome_pure (a : α) : outcome (pure a : Except Exn α) = .passed := rfl

@[simp] theorem outcome_invalid (message : String) :
    outcome (invalid message : Except Exn α) = .invalid := rfl

/-- Neither a value nor a refusal. -/
theorem outcome_eq_thrown_iff {x : Except Exn α} :
    outcome x = .thrown ↔ ∃ e, x = .error e ∧ e.kind ≠ .invalidArgument := by
  cases x with
  | ok a => exact ⟨nofun, fun ⟨_, h, _⟩ => nomatch h⟩
  | error e =>
    unfold outcome
    by_cases hk : e.kind = .invalidArgument
    · simp [hk]
    · simp [hk]

/-- What comes after the first step is checked only when that has passed. -/
theorem outcome_bind {x : Except Exn α} {f : α → Except Exn β} {c d : Check}
    (hx : outcome x = c) (hf : ∀ a, outcome (f a) = d) : outcome (x >>= f) = c.andThen d := by
  subst hx
  cases x with
  | ok a => exact hf a
  | error e =>
    show outcome (.error e) = _
    unfold outcome
    dsimp only
    split <;> rfl

/-- A pure step at the end checks nothing. -/
theorem outcome_map (f : α → β) (x : Except Exn α) : outcome (f <$> x) = outcome x := by
  cases x <;> rfl

/-- An early refusal is a check. -/
theorem outcome_check {p : Prop} [Decidable p] {b : Bool} {message : String}
    {f : Unit → Except Exn β} {c : Check} (hp : p ↔ b = false) (hf : outcome (f ()) = c) :
    outcome (if p then Admin.invalid message >>= f else f ()) = (Check.of b).andThen c := by
  cases b with
  | false => rw [if_pos (hp.mpr rfl)]; rfl
  | true => rw [if_neg fun h => Bool.noConfusion (hp.mp h), hf]; rfl

/-- A loop over a list makes the checks of its elements in order. -/
theorem outcome_mapM {f : α → Except Exn β} : ∀ xs : List α,
    outcome (xs.mapM f) = Check.first (xs.map fun x => outcome (f x))
  | [] => rfl
  | x :: xs => by
    rw [List.mapM_cons, List.map_cons, Check.first_cons]
    refine outcome_bind rfl fun y => ?_
    rw [outcome_bind (outcome_mapM xs) fun ys => outcome_pure _, Check.andThen_passed]

/-! ## Fields -/

/-- A field that holds a text of a certain kind. -/
def isText (accepts : Bytes → Bool) : Option Json → Bool
  | some (.string value) => accepts value
  | _ => false

/-- The integer that a value stands for. -/
def integer? : Json → Option Int
  | .int n => some n.toInt
  | .uint n => some n.toNat
  | .real x => if x.den = 1 then some x.num else none
  | _ => none

/-- The integers that `asInt64` throws at, although `isIntegral` lets them through. -/
def Throws (x : Int) : Prop := 2 ^ 63 ≤ x ∧ x < 2 ^ 64

instance (x : Int) : Decidable (Throws x) := inferInstanceAs (Decidable (_ ∧ _))

/-- A field that holds an integer of a certain kind. -/
def integerCheck (accepts : Int → Bool) (field : Option Json) : Check :=
  match field.bind integer? with
  | some x => if Throws x then .thrown else .of (0 ≤ x && x < 2 ^ 63 && accepts x)
  | none => .invalid

/-- No condition on a text. -/
def anyText (_ : Bytes) : Bool := true

/-- A text that is asked for is checked for being there, for its type and then for the condition. -/
theorem outcome_requireString (body : Json) (key : String) (accepts : Bytes → Bool)
    {f : Bytes → Except Exn β} {c : Check}
    (hf : ∀ value, outcome (f value) = (Check.of (accepts value)).andThen c) :
    outcome (requireString body key >>= f) =
      (Check.of (isText accepts (body.member? key))).andThen c := by
  unfold requireString
  cases body.member? key with
  | none => rfl
  | some field =>
    cases field with
    | string value => exact hf value
    | null => rfl
    | bool b => rfl
    | int n => rfl
    | uint n => rfl
    | real x => rfl
    | array items => rfl
    | object members => rfl

/-! ## Integers -/

theorem le_num_iff {x : ℚ} (h : x.den = 1) {n : Int} : (n : ℚ) ≤ x ↔ n ≤ x.num := by
  conv_lhs => rw [← (Rat.den_eq_one_iff x).mp h]
  exact Int.cast_le

theorem num_lt_iff {x : ℚ} (h : x.den = 1) {n : Int} : x < (n : ℚ) ↔ x.num < n := by
  rw [← not_le, le_num_iff h, not_le]

/-- A double is an integer when it has no fraction. -/
theorem integer_real_iff {q : ℚ} {x : Int} :
    integer? (.real q) = some x ↔ q.den = 1 ∧ q.num = x := by
  show (if q.den = 1 then some q.num else none) = some x ↔ _
  split
  · next h => exact ⟨fun hx => ⟨h, Option.some.inj hx⟩, fun hx => congrArg some hx.2⟩
  · next h => exact ⟨nofun, fun hx => absurd hx.1 h⟩

/-- jsoncpp's `isIntegral` is about two ranges: those of `Int64` and of `UInt64`. -/
theorem isIntegral_iff {field : Json} :
    field.isIntegral = true ↔ ∃ x, integer? field = some x ∧ -2 ^ 63 ≤ x ∧ x < 2 ^ 64 := by
  cases field with
  | int n => exact ⟨fun _ => ⟨_, rfl, n.le_toInt, lt_trans n.toInt_lt (by decide)⟩, fun _ => rfl⟩
  | uint n =>
    refine ⟨fun _ => ⟨_, rfl, by omega, ?_⟩, fun _ => rfl⟩
    exact_mod_cast n.toNat_lt
  | real x =>
    have hlow (hden : x.den = 1) : -2 ^ 63 ≤ x ↔ -2 ^ 63 ≤ x.num := by
      exact_mod_cast le_num_iff hden
    have hhigh (hden : x.den = 1) : x < 2 ^ 64 ↔ x.num < 2 ^ 64 := by
      exact_mod_cast num_lt_iff hden
    unfold Json.isIntegral
    simp only [Bool.and_eq_true, beq_iff_eq, decide_eq_true_eq, integer_real_iff]
    constructor
    · rintro ⟨⟨hden, hle⟩, hlt⟩
      exact ⟨x.num, ⟨hden, rfl⟩, (hlow hden).mp hle, (hhigh hden).mp hlt⟩
    · rintro ⟨n, ⟨hden, rfl⟩, hle, hlt⟩
      exact ⟨⟨hden, (hlow hden).mpr hle⟩, (hhigh hden).mpr hlt⟩
  | null => exact ⟨nofun, fun ⟨_, h, _⟩ => nomatch h⟩
  | bool b => exact ⟨nofun, fun ⟨_, h, _⟩ => nomatch h⟩
  | string s => exact ⟨nofun, fun ⟨_, h, _⟩ => nomatch h⟩
  | array items => exact ⟨nofun, fun ⟨_, h, _⟩ => nomatch h⟩
  | object members => exact ⟨nofun, fun ⟨_, h, _⟩ => nomatch h⟩

/-- The three ways in which jsoncpp holds an integer. -/
theorem integer_cases {field : Json} {x : Int} (h : integer? field = some x) :
    (∃ n : Int64, field = .int n ∧ n.toInt = x) ∨
      (∃ n : UInt64, field = .uint n ∧ (n.toNat : Int) = x) ∨
      ∃ q : ℚ, field = .real q ∧ q.den = 1 ∧ q.num = x := by
  cases field with
  | int n => exact .inl ⟨n, rfl, Option.some.inj h⟩
  | uint n => exact .inr (.inl ⟨n, rfl, Option.some.inj h⟩)
  | real q => exact .inr (.inr ⟨q, rfl, integer_real_iff.mp h⟩)
  | null => cases h
  | bool b => cases h
  | string s => cases h
  | array items => cases h
  | object members => cases h

/-- Within the range of `Int64` the conversion is exact. -/
theorem asInt64_eq {field : Json} {x : Int} (h : integer? field = some x) (hlow : -2 ^ 63 ≤ x)
    (hhigh : x < 2 ^ 63) : field.asInt64 = .ok x := by
  obtain ⟨n, rfl, rfl⟩ | ⟨n, rfl, rfl⟩ | ⟨q, rfl, hden, rfl⟩ := integer_cases h
  · rfl
  · exact if_pos (by exact_mod_cast hhigh)
  · have hle : -2 ^ 63 ≤ q := by exact_mod_cast (le_num_iff hden).mpr hlow
    have hlt : q < 2 ^ 63 := by exact_mod_cast (num_lt_iff hden).mpr hhigh
    show (if _ then Except.ok _ else _) = _
    rw [if_pos ⟨hle, hlt⟩, hden, Nat.cast_one, Int.tdiv_one]

/-- Above the range of `Int64`, `isIntegral` accepts and `asInt64` throws. -/
theorem asInt64_throws {field : Json} {x : Int} (h : integer? field = some x)
    (hx : 2 ^ 63 ≤ x) : ∃ message, field.asInt64 = .error (Json.logicError message) := by
  obtain ⟨n, rfl, rfl⟩ | ⟨n, rfl, rfl⟩ | ⟨q, rfl, hden, rfl⟩ := integer_cases h
  · exact absurd n.toInt_lt (not_lt.mpr hx)
  · exact ⟨_, if_neg fun hlt => absurd (Int.ofNat_lt.mpr hlt) (not_lt.mpr (by exact_mod_cast hx))⟩
  · refine ⟨_, if_neg fun hq => absurd ?_ (not_lt.mpr hx)⟩
    exact (num_lt_iff hden).mp (by exact_mod_cast hq.2)

/-- Within the range of `UInt64` the conversion is exact. -/
theorem asUInt64_eq {field : Json} {x : Int} (h : integer? field = some x) (hlow : 0 ≤ x)
    (hhigh : x < 2 ^ 64) : field.asUInt64 = .ok (.ofNat x.toNat) := by
  obtain ⟨n, rfl, rfl⟩ | ⟨n, rfl, rfl⟩ | ⟨q, rfl, hden, rfl⟩ := integer_cases h
  · exact if_pos hlow
  · unfold Json.asUInt64
    rw [Int.toNat_natCast, UInt64.ofNat_toNat]
  · have hle : 0 ≤ q := by exact_mod_cast (le_num_iff hden).mpr hlow
    have hlt : q < 2 ^ 64 := by exact_mod_cast (num_lt_iff hden).mpr hhigh
    show (if _ then Except.ok _ else _) = _
    rw [if_pos ⟨hle, hlt⟩, hden, Nat.cast_one, Int.tdiv_one]

/-- The checks that all integer fields have in common. -/
theorem outcome_integer {field : Json} (message message' : String) (low : Int → Prop)
    [DecidablePred low] {accepts : Int → Bool} {rest : Except Exn β} {c : Check}
    (hneg : ∀ x < 0, low x) (hlow : ∀ x, low x → 0 ≤ x → accepts x = false)
    (hrest : ∀ x, ¬ low x → field.asUInt64 = .ok (.ofNat x.toNat) →
      outcome rest = (Check.of (accepts x)).andThen c) :
    outcome (do
      if !field.isIntegral then
        invalid message
      if low (← field.asInt64) then
        invalid message'
      rest) = (integerCheck accepts (some field)).andThen c := by
  unfold integerCheck
  rw [Option.bind_some]
  cases hi : field.isIntegral with
  | false =>
    rw [if_pos (by decide)]
    show Check.invalid = _
    cases hx : integer? field with
    | none => rfl
    | some x =>
      have hout : ¬ (-2 ^ 63 ≤ x ∧ x < 2 ^ 64) := fun h =>
        Bool.noConfusion (hi.symm.trans (isIntegral_iff.mpr ⟨x, hx, h⟩))
      dsimp only
      rw [if_neg fun h : Throws x => hout ⟨by have := h.1; omega, h.2⟩]
      cases hb : (decide (0 ≤ x) && decide (x < 2 ^ 63) && accepts x) with
      | false => rfl
      | true =>
        simp only [Bool.and_eq_true, decide_eq_true_eq] at hb
        omega
  | true =>
    obtain ⟨x, hx, hle, hlt⟩ := isIntegral_iff.mp hi
    rw [if_neg (by decide), hx]
    dsimp only
    by_cases ht : Throws x
    · obtain ⟨message, hm⟩ := asInt64_throws hx ht.1
      rw [if_pos ht, hm]
      rfl
    · have hlt' : x < 2 ^ 63 := by
        unfold Throws at ht
        omega
      rw [if_neg ht, asInt64_eq hx hle hlt']
      show outcome (if low x then _ else _) = _
      by_cases h0 : x < 0
      · rw [if_pos (hneg x h0)]
        have hb : (decide (0 ≤ x) && decide (x < 2 ^ 63) && accepts x) = false := by
          rw [decide_eq_false (not_le.mpr h0), Bool.false_and, Bool.false_and]
        rw [hb]
        rfl
      · have hpos : 0 ≤ x := not_lt.mp h0
        rw [decide_eq_true hpos, decide_eq_true hlt', Bool.true_and, Bool.true_and]
        by_cases hl : low x
        · rw [if_pos hl, hlow x hl hpos]
          rfl
        · rw [if_neg hl]
          exact hrest x hl (asUInt64_eq hx hpos hlt)

/-- `static_cast<std::uint32_t>` of a number of 64 bits. -/
def narrow (x : Int) : UInt32 := (UInt64.ofNat x.toNat).toUInt32

/-- `static_cast<std::uint32_t>` takes the number modulo 2^32. -/
theorem toNat_narrow (x : Int) : (narrow x).toNat = x.toNat % 2 ^ 32 := by
  unfold narrow
  rw [UInt64.toNat_toUInt32, UInt64.toNat_ofNat']
  omega

/-- A number that is asked for is narrowed before the condition is looked at. -/
theorem outcome_requireUInt (body : Json) (key : String) (accepts : Int → Bool)
    {f : UInt32 → Except Exn β} {c : Check}
    (hf : ∀ x, 0 ≤ x → outcome (f (narrow x)) = (Check.of (accepts x)).andThen c) :
    outcome (requireUInt body key >>= f) =
      (integerCheck accepts (body.member? key)).andThen c := by
  unfold requireUInt
  cases body.member? key with
  | none => rfl
  | some field =>
    have hrest (x : Int) (hx : ¬ x < 0) (hv : field.asUInt64 = .ok (.ofNat x.toNat)) :
        outcome (field.asUInt64 >>= fun n => f n.toUInt32) =
          (Check.of (accepts x)).andThen c := by
      rw [hv]
      exact hf x (not_lt.mp hx)
    rw [← outcome_integer (key ++ " must be an integer") (key ++ " must not be negative") (· < 0)
      (fun x hx => hx) (fun x hx h0 => absurd hx (not_lt.mpr h0)) hrest]
    -- the two texts differ in where the rest of the parser stands
    congr 1
    dsimp only
    cases field.isIntegral with
    | false => rfl
    | true =>
      cases field.asInt64 with
      | error e => rfl
      | ok x =>
        show (if x < 0 then _ else _) >>= f = if x < 0 then _ else _
        split
        · rfl
        · exact bind_assoc _ _ _

/-- An id is a positive integer. -/
def idCheck (field : Option Json) : Check := integerCheck (0 < ·) field

/-- An id is compared with 0 as `Int64`, and only then read as `UInt64`. -/
theorem outcome_id {field : Json} {message message' : String} :
    outcome (do
      if !field.isIntegral then
        invalid message
      if (← field.asInt64) ≤ 0 then
        invalid message'
      field.asUInt64) = idCheck (some field) := by
  refine (outcome_integer (c := .passed) _ _ (· ≤ 0) ?_ ?_ ?_).trans (Check.andThen_passed _)
  · exact fun x hx => le_of_lt hx
  · exact fun x hx _ => decide_eq_false (not_lt.mpr hx)
  · intro x hx hv
    rw [hv, decide_eq_true (not_le.mp hx)]
    rfl

theorem outcome_requireId (body : Json) (key : String) :
    outcome (requireId body key) = idCheck (body.member? key) := by
  unfold requireId
  cases body.member? key with
  | none => rfl
  | some field => exact outcome_id

theorem outcome_parseTestCaseId (id : Json) :
    outcome (parseTestCaseId id) = idCheck (some id) := outcome_id

/-! ## Test cases -/

/-- A field that may be left out. -/
def optionally (check : Json → Check) : Option Json → Check
  | none => .passed
  | some field => check field

/-- A boolean, and nothing that can be converted to one. -/
def isBool : Json → Bool
  | .bool _ => true
  | _ => false

/-- No condition on a number. -/
def anyInteger (_ : Int) : Bool := true

/-- Every integer is a score. -/
def scoreCheck (score : Json) : Check := integerCheck anyInteger (some score)

def testcaseChecks (testcase : Json) : List Check :=
  [.of testcase.isObject,
    optionally (fun id => idCheck (some id)) (testcase.member? "id"),
    .of (isText anyText (testcase.member? "input")),
    .of (isText anyText (testcase.member? "expected_output")),
    optionally (fun flag => .of (isBool flag)) (testcase.member? "is_sample"),
    optionally scoreCheck (testcase.member? "score")]

/-- `parseTestCaseInput` makes these checks in this order. -/
theorem outcome_testcase (testcase : Json) :
    outcome (parseTestCaseInput testcase) = Check.first (testcaseChecks testcase) := by
  unfold parseTestCaseInput testcaseChecks
  simp only [Check.first_cons]
  refine outcome_check (by cases testcase.isObject <;> decide) ?_
  refine outcome_bind ?_ fun id => ?_
  · cases testcase.member? "id" with
    | none => rfl
    | some id =>
      rw [Option.mapM_some, outcome_map, outcome_parseTestCaseId]
      rfl
  refine outcome_requireString _ _ anyText fun input => ?_
  refine outcome_requireString _ _ anyText fun expectedOutput => ?_
  have hscore (isSample : Bool) : outcome (match testcase.member? "score" with
      | none => do
        let score ← pure 0
        pure (⟨id, input, expectedOutput, isSample, score⟩ : TestCaseInput)
      | some _ => do
        let score ← requireUInt testcase "score"
        pure ⟨id, input, expectedOutput, isSample, score⟩) =
      (optionally scoreCheck (testcase.member? "score")).andThen .passed := by
    cases h : testcase.member? "score" with
    | none => rfl
    | some score =>
      have hs := outcome_requireUInt testcase "score" anyInteger (c := .passed)
        (f := fun score => .ok (⟨id, input, expectedOutput, isSample, score⟩ : TestCaseInput))
        fun _ _ => rfl
      rw [h] at hs
      exact hs
  cases testcase.member? "is_sample" with
  | none => exact hscore false
  | some flag =>
    cases flag with
    | bool b => exact hscore b
    | null => rfl
    | int n => rfl
    | uint n => rfl
    | real x => rfl
    | string s => rfl
    | array items => rfl
    | object members => rfl

/-! ## Problems -/

/-- A text that is not empty. -/
def isTag : Json → Bool
  | .string (_ :: _) => true
  | _ => false

/-- An array of tags. -/
def areTags : Json → Bool
  | .array tags => tags.all isTag
  | _ => false

/-- A tag is refused or taken. -/
theorem outcome_parseTag (tag : Json) : outcome (parseTag tag) = .of (isTag tag) := by
  cases tag with
  | string s => cases s <;> rfl
  | null => rfl
  | bool b => rfl
  | int n => rfl
  | uint n => rfl
  | real x => rfl
  | array items => rfl
  | object members => rfl

/-- Checks that only refuse can be made at once. -/
theorem Check.first_map_of {p : α → Bool} : ∀ xs : List α,
    Check.first (xs.map fun x => .of (p x)) = .of (xs.all p)
  | [] => rfl
  | x :: xs => by
    rw [List.map_cons, Check.first_cons, Check.first_map_of xs, List.all_cons, Check.of_and]

/-- Tags may be left out. -/
theorem outcome_parseTags (body : Json) :
    outcome (parseTags body) =
      optionally (fun tags => .of (areTags tags)) (body.member? "tags") := by
  unfold parseTags
  cases body.member? "tags" with
  | none => rfl
  | some tags =>
    cases tags with
    | array tags =>
      refine (outcome_mapM tags).trans ?_
      simp only [outcome_parseTag]
      exact Check.first_map_of tags
    | null => rfl
    | bool b => rfl
    | int n => rfl
    | uint n => rfl
    | real x => rfl
    | string s => rfl
    | object members => rfl

/-- The entries of an array. -/
def entries : Option Json → List Json
  | some (.array items) => items
  | _ => []

/-- A problem has from one to a thousand test cases. -/
def hasTestcases (field : Option Json) : Bool :=
  !(entries field).isEmpty && (entries field).length ≤ 1000

/-- The checks of all testcases, one testcase after another. -/
theorem first_testcases (testcases : List Json) :
    Check.first (testcases.flatMap testcaseChecks) =
      Check.first (testcases.map fun testcase => outcome (parseTestCaseInput testcase)) := by
  induction testcases with
  | nil => rfl
  | cons testcase testcases ih =>
    rw [List.flatMap_cons, Check.first_append, ih, List.map_cons, Check.first_cons,
      outcome_testcase]

/-- The array is checked before its elements. -/
theorem outcome_parseTestcases (body : Json) : outcome (parseTestcases body) =
    (Check.of (hasTestcases (body.member? "testcases"))).andThen
      (Check.first ((entries (body.member? "testcases")).flatMap testcaseChecks)) := by
  unfold parseTestcases hasTestcases
  cases body.member? "testcases" with
  | none => rfl
  | some testcases =>
    cases testcases with
    | array testcases =>
      rw [Check.of_and, Check.andThen_assoc]
      refine outcome_check (b := !testcases.isEmpty) (by cases testcases.isEmpty <;> decide) ?_
      refine outcome_check (b := testcases.length ≤ 1000) (by
        rw [decide_eq_false_iff_not, not_le]) ?_
      rw [outcome_mapM]
      exact (first_testcases testcases).symm
    | null => rfl
    | bool b => rfl
    | int n => rfl
    | uint n => rfl
    | real x => rfl
    | string s => rfl
    | object members => rfl

/-- The length is counted in bytes, as `std::string::size` has it. -/
def isTitle (title : Bytes) : Bool := !title.isEmpty && title.length ≤ 255

/-- The three names that `parseDifficulty` knows. -/
def isDifficulty (name : Bytes) : Bool :=
  name == utf8 "easy" || name == utf8 "medium" || name == utf8 "hard"

/-- The test against 0 comes after the conversion to 32 bits. -/
def isLimit (x : Int) : Bool := x % 2 ^ 32 ≠ 0

/-- A limit is refused when its low 32 bits are 0. -/
theorem isLimit_eq_false_iff {x : Int} (hx : 0 ≤ x) : narrow x = 0 ↔ isLimit x = false := by
  unfold isLimit
  rw [decide_eq_false_iff_not, not_not, ← UInt32.toNat_inj, toNat_narrow, UInt32.toNat_zero]
  omega

/-- A name of a difficulty is refused or taken. -/
theorem outcome_parseDifficulty (name : Bytes) :
    outcome (parseDifficulty name) = .of (isDifficulty name) := by
  unfold parseDifficulty isDifficulty
  by_cases heasy : name = utf8 "easy"
  · rw [if_pos heasy, beq_iff_eq.mpr heasy]
    rfl
  by_cases hmedium : name = utf8 "medium"
  · rw [if_neg heasy, if_pos hmedium, beq_iff_eq.mpr hmedium, Bool.or_true]
    rfl
  by_cases hhard : name = utf8 "hard"
  · rw [if_neg heasy, if_neg hmedium, if_pos hhard, beq_iff_eq.mpr hhard, Bool.or_true]
    rfl
  · rw [if_neg heasy, if_neg hmedium, if_neg hhard, beq_eq_false_iff_ne.mpr heasy,
      beq_eq_false_iff_ne.mpr hmedium, beq_eq_false_iff_ne.mpr hhard]
    rfl

/-- The checks of a problem, in the order of `parseProblemInput`. -/
def problemChecks (body : Json) : List Check :=
  [.of body.isObject,
    .of (isText isTitle (body.member? "title")),
    .of (isText anyText (body.member? "description_md")),
    .of (isText isDifficulty (body.member? "difficulty")),
    integerCheck isLimit (body.member? "time_limit_ms"),
    integerCheck isLimit (body.member? "memory_limit_mb"),
    optionally (fun tags => .of (areTags tags)) (body.member? "tags"),
    .of (hasTestcases (body.member? "testcases"))] ++
  (entries (body.member? "testcases")).flatMap testcaseChecks

/-- **`parseProblemInput` makes these checks in this order.** -/
theorem outcome_problem (body : Json) :
    outcome (parseProblemInput body) = Check.first (problemChecks body) := by
  unfold parseProblemInput problemChecks
  simp only [Check.first_append, Check.first_cons, Check.first_nil, Check.andThen_assoc]
  refine outcome_check (by cases body.isObject <;> decide) ?_
  refine outcome_requireString body "title" isTitle fun title => ?_
  have htitle {rest : Except Exn ProblemInput} {c : Check} (hrest : outcome rest = c) :
      outcome (do
        if title.isEmpty then
          invalid "title must not be empty"
        if title.length > 255 then
          invalid "title must not exceed 255 characters"
        rest) = (Check.of (isTitle title)).andThen c := by
    unfold isTitle
    rw [Check.of_and, Check.andThen_assoc]
    refine outcome_check (by cases title.isEmpty <;> decide) ?_
    exact outcome_check (by rw [decide_eq_false_iff_not, not_le]) hrest
  refine htitle ?_
  refine outcome_requireString body "description_md" anyText fun descriptionMd => ?_
  refine outcome_requireString body "difficulty" isDifficulty fun name => ?_
  refine outcome_bind (outcome_parseDifficulty name) fun difficulty => ?_
  have hlimit {x : Int} (hx : 0 ≤ x) {message : String} {rest : Except Exn ProblemInput}
      {c : Check} (hrest : outcome rest = c) : outcome (do
        if narrow x = 0 then
          invalid message
        rest) = (Check.of (isLimit x)).andThen c :=
    outcome_check (isLimit_eq_false_iff hx) hrest
  refine outcome_requireUInt body "time_limit_ms" isLimit fun time ht => hlimit ht ?_
  refine outcome_requireUInt body "memory_limit_mb" isLimit fun memory hm => hlimit hm ?_
  refine outcome_bind (outcome_parseTags body) fun tags => ?_
  rw [Check.passed_andThen, ← outcome_parseTestcases,
    ← Check.andThen_passed (outcome (parseTestcases body))]
  exact outcome_bind rfl fun testcases => rfl

/-! ## Submissions and credentials -/

/-- The two languages of `parseSubmissionInput`. -/
def isLanguage (name : Bytes) : Bool := name == utf8 "cpp" || name == utf8 "c"

/-- A source that is not empty and not above 256 KiB. -/
def isSource (code : Bytes) : Bool := !code.isEmpty && code.length ≤ 256 * 1024

/-- The checks of a submission, in the order of `parseSubmissionInput`. -/
def submissionChecks (body : Json) : List Check :=
  [.of body.isObject,
    idCheck (body.member? "problem_id"),
    .of (isText isLanguage (body.member? "lang")),
    .of (isText isSource (body.member? "code"))]

/-- The reader comes first, then the checks on what it has read. -/
def readChecks (read : Db.JsonReader) (raw : Bytes) (checks : Json → List Check) : List Check :=
  match read raw with
  | .error (.thrown _) => [.thrown]
  | .error (.invalid _) => [.invalid]
  | .ok root => checks root

/-- An empty body is refused before anything is read. -/
def bodyChecks (read : Db.JsonReader) (raw : Bytes) (checks : Json → List Check) : List Check :=
  .of (!raw.isEmpty) :: readChecks read raw checks

/-- What holds of the parser of a value holds behind `parseJsonBody`. -/
theorem outcome_body {read : Db.JsonReader} {raw : Bytes} {parse : Json → Except Exn α}
    {checks : Json → List Check} (h : ∀ body, outcome (parse body) = Check.first (checks body)) :
    outcome (parseJsonBody read raw >>= parse) = Check.first (bodyChecks read raw checks) := by
  unfold parseJsonBody bodyChecks readChecks
  cases raw.isEmpty with
  | true => rfl
  | false =>
    rw [if_neg Bool.false_ne_true]
    cases read raw with
    | ok root => exact h root
    | error failure => cases failure <;> rfl

/-- **`parseSubmissionInput` makes these checks in this order.** -/
theorem outcome_submission (read : Db.JsonReader) (raw : Bytes) :
    outcome (parseSubmissionInput read raw) =
      Check.first (bodyChecks read raw submissionChecks) := by
  unfold parseSubmissionInput
  refine outcome_body fun body => ?_
  unfold submissionChecks
  simp only [Check.first_cons, Check.first_nil]
  refine outcome_check (by cases body.isObject <;> decide) ?_
  refine outcome_bind (outcome_requireId body "problem_id") fun problemId => ?_
  refine outcome_requireString body "lang" isLanguage fun language => ?_
  refine outcome_check ?_ ?_
  · unfold isLanguage
    rw [Bool.or_eq_false_iff, beq_eq_false_iff_ne, beq_eq_false_iff_ne]
  refine outcome_requireString body "code" isSource fun code => ?_
  unfold isSource
  rw [Check.of_and, Check.andThen_assoc]
  refine outcome_check (by cases code.isEmpty <;> decide) ?_
  exact outcome_check (by rw [decide_eq_false_iff_not, not_le]) rfl

/-- A name or a password has to be a text. -/
theorem outcome_requireCredential (root : Json) (key : String) :
    outcome (requireCredential root key) = .of (isText anyText (root.member? key)) := by
  unfold requireCredential
  split
  · next h => rw [h]; rfl
  · next h =>
    cases hm : root.member? key with
    | none => rfl
    | some field =>
      cases field with
      | string value => exact absurd hm (h value)
      | null => rfl
      | bool b => rfl
      | int n => rfl
      | uint n => rfl
      | real x => rfl
      | array items => rfl
      | object members => rfl

/-- The checks of a name and a password. -/
def authChecks (root : Json) : List Check :=
  [.of root.isObject,
    .of (isText anyText (root.member? "username")),
    .of (isText anyText (root.member? "password"))]

/-- **`parseAuthPayload` makes these checks in this order.** -/
theorem outcome_auth (read : Db.JsonReader) (raw : Bytes) :
    outcome (parseAuthPayload read raw) = Check.first (readChecks read raw authChecks) := by
  unfold parseAuthPayload readChecks
  cases read raw with
  | error failure => cases failure <;> rfl
  | ok root =>
    unfold authChecks
    simp only [Check.first_cons, Check.first_nil]
    refine outcome_check (by cases root.isObject <;> decide) ?_
    refine outcome_bind (outcome_requireCredential root "username") fun username => ?_
    exact outcome_bind (outcome_requireCredential root "password") fun password => rfl

/-! ## Other exceptions -/

namespace Check

/-- In front of every check that throws stands one that refuses. -/
def Guarded (checks : List Check) : Prop :=
  ∀ before after, checks = before ++ thrown :: after → ∃ c ∈ before, c ≠ passed

/-- In a guarded list the first check that does not pass refuses. -/
theorem guarded_iff : ∀ {checks : List Check}, Guarded checks ↔ first checks ≠ thrown
  | [] => ⟨fun _ => nofun, fun _ before after h => by simp at h⟩
  | passed :: checks => by
    rw [first_cons, passed_andThen, ← guarded_iff]
    constructor
    · intro h before after hc
      obtain ⟨c, hmem, hne⟩ := h (passed :: before) after (congrArg (passed :: ·) hc)
      rcases List.mem_cons.mp hmem with rfl | hmem
      · exact absurd rfl hne
      · exact ⟨c, hmem, hne⟩
    · intro h before after hc
      cases before with
      | nil => cases hc
      | cons c before =>
        obtain ⟨rfl, hchecks⟩ := List.cons_eq_cons.mp hc
        obtain ⟨c, hmem, hne⟩ := h before after hchecks
        exact ⟨c, List.mem_cons_of_mem _ hmem, hne⟩
  | invalid :: checks => by
    refine ⟨fun _ => nofun, fun _ before after hc => ?_⟩
    cases before with
    | nil => cases hc
    | cons c before =>
      obtain ⟨rfl, -⟩ := List.cons_eq_cons.mp hc
      exact ⟨invalid, List.mem_cons_self, nofun⟩
  | thrown :: checks => by
    refine ⟨fun h => ?_, fun h => absurd rfl h⟩
    obtain ⟨c, hmem, -⟩ := h [] checks rfl
    cases hmem

end Check

/-- A parser that throws nothing but `std::invalid_argument`. -/
def OnlyInvalid (x : Except Exn α) : Prop := ∀ e, x = .error e → e.kind = .invalidArgument

/-- A parser throws nothing but refusals when its checks are guarded. -/
theorem onlyInvalid_iff {x : Except Exn α} {checks : List Check}
    (h : outcome x = Check.first checks) : OnlyInvalid x ↔ Check.Guarded checks := by
  rw [Check.guarded_iff, ← h, Ne, outcome_eq_thrown_iff]
  unfold OnlyInvalid
  push Not
  rfl

/-- The credentials hold no number. -/
theorem guarded_authChecks_iff {read : Db.JsonReader} {raw : Bytes} :
    Check.Guarded (readChecks read raw authChecks) ↔
      ∀ what, read raw ≠ .error (.thrown what) := by
  rw [Check.guarded_iff]
  unfold readChecks
  cases read raw with
  | error failure => cases failure <;> simp [Check.first]
  | ok root =>
    refine ⟨fun _ _ => nofun, fun _ => ?_⟩
    unfold authChecks
    simp only [Check.first_cons, Check.first_nil, ← Check.of_and, Check.andThen_passed]
    unfold Check.of
    split <;> exact nofun

/-- **A body ends in another exception exactly when the reader meets its nesting limit, or an
integer from `2 ^ 63` on stands where an id or a number is read and every check before it is
passed.** -/
theorem only_invalid_iff (read : Db.JsonReader) (raw : Bytes) :
    (OnlyInvalid (parseSubmissionInput read raw) ↔
      Check.Guarded (bodyChecks read raw submissionChecks)) ∧
    (OnlyInvalid (parseJsonBody read raw >>= parseProblemInput) ↔
      Check.Guarded (bodyChecks read raw problemChecks)) ∧
    (OnlyInvalid (parseAuthPayload read raw) ↔ ∀ what, read raw ≠ .error (.thrown what)) := by
  refine ⟨?_, ?_, ?_⟩
  · exact onlyInvalid_iff (outcome_submission read raw)
  · exact onlyInvalid_iff (outcome_body outcome_problem)
  · rw [← guarded_authChecks_iff]
    exact onlyInvalid_iff (outcome_auth read raw)

/-- An id of 2^63 in a body. -/
def largeIdText : Bytes :=
  utf8 "\x7b\"problem_id\":9223372036854775808,\"lang\":\"cpp\",\"code\":\"x\"\x7d"

/-- What jsoncpp makes of it: the id is a `UInt64`. -/
def largeId : Json :=
  .object [(utf8 "problem_id", .uint (.ofNat (2 ^ 63))), (utf8 "lang", .string (utf8 "cpp")),
    (utf8 "code", .string (utf8 "x"))]

/-- A reader that knows this one text. -/
def readLargeId (raw : Bytes) : Except Db.JsonFailure Json :=
  if raw = largeIdText then .ok largeId else .error (.invalid [])

/-- The id `2 ^ 63` ends in `Json::LogicError`, which `submitHandler` does not catch. -/
theorem large_id_throws : ∃ e : Exn, e.kind = .jsonLogicError ∧
    parseSubmissionInput readLargeId largeIdText = .error e ∧
    ∀ (cfg : Config) (req : Request), cfg.readJson = readLargeId → req.body = largeIdText →
      submitHandler cfg req = .throw e := by
  have hread : readLargeId largeIdText = .ok largeId := if_pos rfl
  have hparse : parseSubmissionInput readLargeId largeIdText =
      .error (Json.logicError "LargestUInt out of Int64 range") := by
    unfold parseSubmissionInput parseJsonBody
    rw [hread]
    decide +kernel
  refine ⟨_, rfl, hparse, fun cfg req hcfg hreq => ?_⟩
  unfold submitHandler
  rw [hcfg, hreq, hparse]
  rfl

end MiniOj.Http
