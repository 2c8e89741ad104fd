import Mathlib.Data.List.Forall2
import MiniOj.Http.Properties.Bodies

/-!
# The numbers of a problem

The limits and the scores are written as JSON numbers of up to 64 bits and kept in 32. The
conversion drops the upper half without a word, and what is left is tested against 0.

* `written_of_fits` — numbers that fit are kept
* `exact_numbers_iff` — the bodies whose numbers are kept or refused
* `large_limit_is_narrowed` — `2 ^ 32 + 5` milliseconds become 5
-/

namespace MiniOj.Http

open Infra Admin

/-! ## The numbers of a body -/

/-- A number of any of the three kinds. -/
def isNumber : Json → Bool
  | .int _ => true
  | .uint _ => true
  | .real _ => true
  | _ => false

/-- The number is one of a `std::uint32_t`. -/
def Fits (field : Json) : Prop := ∃ x, integer? field = some x ∧ 0 ≤ x ∧ x < 2 ^ 32

/-- The fields for which the body may have a number that does not fit. -/
def numberFields (body : Json) : List Json :=
  (body.member? "time_limit_ms").toList ++ (body.member? "memory_limit_mb").toList ++
    (entries (body.member? "testcases")).flatMap fun testcase =>
      (testcase.member? "score").toList

/-- Every number of the body that is to have 32 bits fits them. -/
def AllFit (body : Json) : Prop :=
  ∀ field ∈ numberFields body, isNumber field = true → Fits field

/-- The problem has the numbers of the body. -/
structure Written (body : Json) (input : ProblemInput) : Prop where
  timeLimitMs : (body.member? "time_limit_ms").bind integer? = some ↑input.timeLimitMs.toNat
  memoryLimitMb : (body.member? "memory_limit_mb").bind integer? = some ↑input.memoryLimitMb.toNat
  scores : List.Forall₂ (fun testcase (kept : TestCaseInput) => ∀ score,
    testcase.member? "score" = some score → integer? score = some ↑kept.score.toNat)
    (entries (body.member? "testcases")) input.testcases

/-- Numbers are kept, or the body is refused for one that cannot be. -/
def ExactNumbers (body : Json) : Prop :=
  (∀ input, parseProblemInput body = .ok input → Written body input) ∧
    (¬ AllFit body → ∃ e, parseProblemInput body = .error e ∧ e.kind = .invalidArgument)

/-! ## What is kept -/

theorem isNumber_of_integer {field : Json} {x : Int} (h : integer? field = some x) :
    isNumber field = true := by
  obtain ⟨n, rfl, -⟩ | ⟨n, rfl, -⟩ | ⟨q, rfl, -⟩ := integer_cases h
  · rfl
  · rfl
  · rfl

theorem requireUInt_ok {body : Json} {key : String} {n : UInt32}
    (h : requireUInt body key = .ok n) : ∃ field x, body.member? key = some field ∧
      integer? field = some x ∧ 0 ≤ x ∧ n = narrow x := by
  unfold requireUInt at h
  cases hm : body.member? key with
  | none =>
    rw [hm] at h
    cases h
  | some field =>
    rw [hm] at h
    obtain ⟨hi, h⟩ := ok_of_check h
    obtain ⟨value, hvalue, h⟩ := ok_of_bind h
    obtain ⟨hneg, h⟩ := ok_of_check h
    obtain ⟨n', hn', h⟩ := ok_of_bind h
    cases h
    rw [Bool.not_eq_true, Bool.not_eq_false'] at hi
    obtain ⟨x, hx, hle, hlt⟩ := isIntegral_iff.mp hi
    by_cases hx63 : x < 2 ^ 63
    · rw [asInt64_eq hx hle hx63] at hvalue
      cases hvalue
      rw [asUInt64_eq hx (not_lt.mp hneg) hlt] at hn'
      cases hn'
      exact ⟨field, value, rfl, hx, not_lt.mp hneg, rfl⟩
    · obtain ⟨message, hm⟩ := asInt64_throws hx (not_lt.mp hx63)
      rw [hm] at hvalue
      cases hvalue

/-- A number that fits is kept. -/
theorem requireUInt_exact {body : Json} {key : String} {n : UInt32}
    (h : requireUInt body key = .ok n)
    (hfits : ∀ field, body.member? key = some field → isNumber field = true → Fits field) :
    (body.member? key).bind integer? = some ↑n.toNat := by
  obtain ⟨field, x, hm, hx, h0, rfl⟩ := requireUInt_ok h
  obtain ⟨y, hy, -, hlt⟩ := hfits field hm (isNumber_of_integer hx)
  obtain rfl : x = y := Option.some.inj (hx.symm.trans hy)
  rw [hm, Option.bind_some, hx, toNat_narrow, Nat.mod_eq_of_lt (by omega),
    Int.toNat_of_nonneg h0]

theorem forall₂_of_mapM {α β : Type} {f : α → Except Exn β} : ∀ {xs : List α} {ys : List β},
    xs.mapM f = .ok ys → List.Forall₂ (fun x y => f x = .ok y) xs ys
  | [], _, h => by
    cases h
    exact .nil
  | x :: xs, ys, h => by
    rw [List.mapM_cons] at h
    obtain ⟨y, hy, h⟩ := ok_of_bind h
    obtain ⟨rest, hrest, h⟩ := ok_of_bind h
    cases h
    exact .cons hy (forall₂_of_mapM hrest)

theorem parseTestCaseInput_score {testcase : Json} {kept : TestCaseInput}
    (h : parseTestCaseInput testcase = .ok kept) {score : Json}
    (hscore : testcase.member? "score" = some score) :
    requireUInt testcase "score" = .ok kept.score := by
  unfold parseTestCaseInput at h
  obtain ⟨-, h⟩ := ok_of_check h
  obtain ⟨id, -, h⟩ := ok_of_bind h
  obtain ⟨input, -, h⟩ := ok_of_bind h
  obtain ⟨expectedOutput, -, h⟩ := ok_of_bind h
  have hkept {isSample : Bool} (h : (do
      let score ← requireUInt testcase "score"
      return (⟨id, input, expectedOutput, isSample, score⟩ : TestCaseInput)) = .ok kept) :
      requireUInt testcase "score" = .ok kept.score := by
    obtain ⟨n, hn, h⟩ := ok_of_bind h
    cases h
    exact hn
  simp only [hscore] at h
  split at h
  · exact hkept h
  · exact hkept h
  · cases h

theorem parseTestcases_ok {body : Json} {testcases : List TestCaseInput}
    (h : parseTestcases body = .ok testcases) :
    (entries (body.member? "testcases")).mapM parseTestCaseInput = .ok testcases := by
  unfold parseTestcases at h
  cases hm : body.member? "testcases" with
  | none =>
    rw [hm] at h
    cases h
  | some field =>
    rw [hm] at h
    cases field with
    | array items =>
      obtain ⟨-, h⟩ := ok_of_check h
      obtain ⟨-, h⟩ := ok_of_check h
      exact h
    | null => cases h
    | bool b => cases h
    | int n => cases h
    | uint n => cases h
    | real x => cases h
    | string s => cases h
    | object members => cases h

theorem score_mem_numberFields {body testcase score : Json}
    (h : testcase ∈ entries (body.member? "testcases"))
    (hscore : testcase.member? "score" = some score) : score ∈ numberFields body := by
  refine List.mem_append_right _ (List.mem_flatMap.mpr ⟨testcase, h, ?_⟩)
  rw [hscore]
  exact List.mem_singleton_self score

/-- **Numbers that fit are kept.** -/
theorem written_of_fits {body : Json} {input : ProblemInput}
    (h : parseProblemInput body = .ok input) (hfit : AllFit body) : Written body input := by
  obtain ⟨-, htime, hmemory, -, htestcases⟩ := parseProblemInput_ok h
  have hmem {field : Json} {key : String} (hm : body.member? key = some field)
      (hkey : (body.member? key).toList ⊆ numberFields body) (hn : isNumber field = true) :
      Fits field :=
    hfit field (hkey (by rw [hm]; exact List.mem_singleton_self field)) hn
  refine ⟨?_, ?_, ?_⟩
  · refine requireUInt_exact htime fun field hm hn => hmem hm ?_ hn
    exact fun f hf => List.mem_append_left _ (List.mem_append_left _ hf)
  · refine requireUInt_exact hmemory fun field hm hn => hmem hm ?_ hn
    exact fun f hf => List.mem_append_left _ (List.mem_append_right _ hf)
  · have hall := forall₂_of_mapM (parseTestcases_ok htestcases)
    refine List.forall₂_iff_get.mpr ⟨hall.length_eq, fun i hi hi' score hscore => ?_⟩
    have hkept := parseTestCaseInput_score (hall.get hi hi') hscore
    have hexact := requireUInt_exact hkept fun field hm hn =>
      hfit field (score_mem_numberFields (List.get_mem _ ⟨i, hi⟩) hm) hn
    rwa [hscore, Option.bind_some] at hexact

/-- **The numbers of a body are kept or refused exactly when they all fit, or the first check
that is not passed refuses the body.** -/
theorem exact_numbers_iff (body : Json) :
    ExactNumbers body ↔ AllFit body ∨ Check.first (problemChecks body) = .invalid := by
  rw [← outcome_problem]
  constructor
  · rintro ⟨-, hrefused⟩
    by_cases hfit : AllFit body
    · exact Or.inl hfit
    · obtain ⟨e, he, hkind⟩ := hrefused hfit
      right
      rw [he]
      exact if_pos hkind
  · rintro (hfit | hinvalid)
    · exact ⟨fun input h => written_of_fits h hfit, fun h => absurd hfit h⟩
    · cases h : parseProblemInput body with
      | ok input =>
        rw [h] at hinvalid
        cases hinvalid
      | error e =>
        rw [h] at hinvalid
        refine ⟨fun input hok => (nomatch h.symm.trans hok), fun _ => ⟨e, h, ?_⟩⟩
        by_contra hkind
        unfold outcome at hinvalid
        dsimp only at hinvalid
        rw [if_neg hkind] at hinvalid
        cases hinvalid

/-- A problem with a time limit of about fifty days. -/
def largeLimit : Json :=
  .object [
    (utf8 "title", .string (utf8 "t")), (utf8 "description_md", .string []),
    (utf8 "difficulty", .string (utf8 "easy")),
    (utf8 "time_limit_ms", .int (.ofInt (2 ^ 32 + 5))), (utf8 "memory_limit_mb", .int 256),
    (utf8 "testcases", .array [.object [
      (utf8 "input", .string []), (utf8 "expected_output", .string [])]])]

/-- It is accepted, and allows five milliseconds. -/
theorem large_limit_is_narrowed :
    (largeLimit.member? "time_limit_ms").bind integer? = some (2 ^ 32 + 5) ∧
      (parseProblemInput largeLimit).map (fun input => input.timeLimitMs) = .ok 5 := by
  decide +kernel

end MiniOj.Http
