import MiniOj.Frontend.Url

/-!
# Where the browser goes after login

The handlers test only that `next` begins with a slash. The parser takes tabs and newlines out
first, and then reads an authority behind two slashes or backslashes.

* `resolve_locationHref` — an authority is read behind two slashes, and nowhere else
* `staysOnSite_iff` — the values of `next` with which the browser stays on the site
-/

namespace MiniOj.Frontend

open Infra Url

variable {η : Type} {hostParser : JsString → Option η} {page : Origin η} {next : Option JsString}

/-- The address has the origin of the page, or is none. -/
def StaysOnSite (hostParser : JsString → Option η) (page : Origin η) (next : Option JsString) :
    Prop :=
  ∀ origin, resolve hostParser page (locationHref next) = some origin → origin = page

/-- What stands behind the slashes and backslashes, if there are two or more. -/
def afterSlashes : JsString → Option JsString
  | _ :: second :: rest => if isSlash second then some (rest.dropWhile isSlash) else none
  | _ => none

/-- What the parser reads as an authority and a path, if `next` is used. -/
def authorityOf (next : Option JsString) : Option JsString :=
  match next with
  | some ('/' :: text) => afterSlashes (prepare ('/' :: text))
  | _ => none

/-! ## What is resolved -/

/-- Nothing is taken away in front of a slash. -/
theorem prepare_slash (rest : JsString) : ∃ rest', prepare ('/' :: rest) = '/' :: rest' := by
  have hslash : isC0ControlOrSpace '/' = false := rfl
  unfold prepare Infra.trim
  rw [List.dropWhile_cons_of_neg (by rw [hslash]; exact Bool.false_ne_true),
    rdropWhile_cons_of_neg hslash, List.filter_cons_of_pos rfl]
  exact ⟨_, rfl⟩

/-- Behind the first slash an authority begins or does not. -/
theorem relativeState_slash (rest : JsString) : relativeState hostParser page ('/' :: rest) =
    match afterSlashes ('/' :: rest) with
    | none => some page
    | some text => authorityState hostParser page text := by
  cases rest with
  | nil => rfl
  | cons c rest =>
    unfold afterSlashes
    dsimp only [relativeState, relativeSlashState]
    rw [if_pos (show isSlash '/' = true from rfl)]
    cases isSlash c <;> rfl

/-- Without a slash at its beginning `next` is not used. -/
theorem of_not_slash (h : ∀ text, next ≠ some ('/' :: text)) :
    locationHref next = "/problems.html".toList ∧ authorityOf next = none := by
  unfold locationHref authorityOf
  constructor
  · split
    · next text => exact absurd rfl (h text)
    · rfl
  · split
    · next text => exact absurd rfl (h text)
    · rfl

theorem resolve_locationHref : resolve hostParser page (locationHref next) =
    match authorityOf next with
    | none => some page
    | some text => authorityState hostParser page text := by
  by_cases hslash : ∃ text, next = some ('/' :: text)
  · obtain ⟨text, rfl⟩ := hslash
    obtain ⟨rest, hrest⟩ := prepare_slash text
    show relativeState hostParser page (prepare ('/' :: text)) =
      match afterSlashes (prepare ('/' :: text)) with
      | none => some page
      | some text => authorityState hostParser page text
    rw [hrest]
    exact relativeState_slash rest
  · obtain ⟨hhref, hnone⟩ := of_not_slash (not_exists.mp hslash)
    rw [hhref, hnone]
    rfl

/-- **When the browser stays on the site.** -/
theorem staysOnSite_iff (hostParser : JsString → Option η) (page : Origin η)
    (next : Option JsString) : StaysOnSite hostParser page next ↔
      ∀ text, authorityOf next = some text →
        ∀ origin, authorityState hostParser page text = some origin → origin = page := by
  unfold StaysOnSite
  rw [resolve_locationHref]
  cases authorityOf next with
  | none => simp
  | some text => simp

/-- What the host parser does with lower-case letters and dots, and no other host. -/
def plainHost (text : JsString) : Option JsString :=
  if text.all fun c => c.isLower || c == '.' then some text else none

/-- Two slashes lead to another site. -/
theorem leaves_site : ¬ ∀ next, StaysOnSite plainHost ⟨true, "oj.example".toList, none⟩ next := by
  intro h
  have hstays := h (some "//evil.example".toList) ⟨true, "evil.example".toList, none⟩ (by decide)
  revert hstays
  decide

end MiniOj.Frontend
