import Mathlib.Data.List.Nodup
import MiniOj.Http.Properties.ClientKey
import MiniOj.Http.Target
import MiniOj.Infra.Percent

/-!
# Reading a target

* `parseQueryText_serializeForm` — httplib reads the parameters that a form has written
* `decodeUrl_percentEncode` — and the text that `encodeURIComponent` has encoded
-/

namespace MiniOj.Http

open Infra

variable {b : UInt8} {s rest : Bytes} {keep : UInt8 → Bool}

/-! ## Escapes -/

theorem escape_percentEscape (b : UInt8) (rest : Bytes) :
    escape (hexDigitUpper (b.toNat / 16) :: hexDigitUpper (b.toNat % 16) :: rest) =
      some ([b], 2) := by
  have hdigit : ∀ n < 16, hexDigit (hexDigitUpper n) = some n ∧ hexDigitUpper n ≠ 117 := by decide
  obtain ⟨hhigh, hlow⟩ := digits_lt b
  unfold escape
  split
  · next heq =>
    injection heq with heq
    exact absurd heq (hdigit _ hhigh).2
  · rw [fromHex, (hdigit _ hhigh).1, Option.bind_some, fromHex, (hdigit _ hlow).1,
      Option.bind_some, fromHex, Option.map_some]
    have hvalue : (0 * 16 + b.toNat / 16) * 16 + b.toNat % 16 = b.toNat := by omega
    rw [hvalue, UInt8.ofNat_toNat]

/-- An escape is decoded to its byte. -/
theorem decodeUrl_percentEscape (b : UInt8) (rest : Bytes) :
    decodeUrl (percentEscape b ++ rest) = b :: decodeUrl rest := by
  show decodeUrlFrom 0 (37 :: hexDigitUpper (b.toNat / 16) ::
    hexDigitUpper (b.toNat % 16) :: rest) = _
  rw [decodeUrlFrom, if_pos rfl, escape_percentEscape]
  rfl

theorem decodeQuery_percentEscape (b : UInt8) (rest : Bytes) :
    decodeQuery (percentEscape b ++ rest) = b :: decodeQuery rest := by
  show decodeQueryFrom 0 (37 :: hexDigitUpper (b.toNat / 16) ::
    hexDigitUpper (b.toNat % 16) :: rest) = _
  rw [decodeQueryFrom, if_pos rfl, escape_percentEscape]
  rfl

theorem decodeUrl_append (h : 37 ∉ s) (rest : Bytes) :
    decodeUrl (s ++ rest) = s ++ decodeUrl rest := by
  induction s with
  | nil => rfl
  | cons b s ih =>
    rw [List.mem_cons, not_or] at h
    show decodeUrlFrom 0 (b :: (s ++ rest)) = b :: (s ++ decodeUrl rest)
    rw [decodeUrlFrom, if_neg (Ne.symm h.1)]
    exact congrArg (b :: ·) (ih h.2)

/-- Percent-encoding is undone by `decode_url`, if `%` is among what it escapes. -/
theorem decodeUrl_percentEncode (hkeep : keep 37 = false) (s : Bytes) :
    decodeUrl (percentEncode keep s) = s := by
  induction s with
  | nil => rfl
  | cons b s ih =>
    show decodeUrl ((if keep b then [b] else percentEscape b) ++ percentEncode keep s) = _
    split
    · next hb =>
      have hne : 37 ∉ [b] := by
        rw [List.mem_singleton]
        rintro rfl
        rw [hkeep] at hb
        cases hb
      rw [decodeUrl_append hne, ih]
      rfl
    · rw [decodeUrl_percentEscape, ih]

/-- The encoding of forms is undone, too. -/
theorem decodeQuery_formEncode (s : Bytes) : decodeQuery (formEncode s) = s := by
  induction s with
  | nil => rfl
  | cons b s ih =>
    show decodeQuery ((if b = 32 then [43] else if isFormSafe b then [b] else percentEscape b) ++
      formEncode s) = _
    split
    · next hspace =>
      rw [hspace]
      exact congrArg (32 :: ·) ih
    · split
      · next hsafe =>
        have hplus : b ≠ 43 := by
          rintro rfl
          exact absurd hsafe (by decide)
        have hpercent : b ≠ 37 := by
          rintro rfl
          exact absurd hsafe (by decide)
        show decodeQueryFrom 0 (b :: formEncode s) = _
        rw [decodeQueryFrom, if_neg hpercent, if_neg hplus]
        exact congrArg (b :: ·) ih
      · rw [decodeQuery_percentEscape, ih]

/-! ## Parameters -/

theorem trimBlanks_of_notMem (h : ∀ b ∈ s, isBlank b = false) : trimBlanks s = s := by
  have hdrop : ∀ s : Bytes, (∀ b ∈ s, isBlank b = false) → dropBlanks s = s := by
    intro s hs
    cases s with
    | nil => rfl
    | cons b s => exact dropBlanks_of_head (hs b List.mem_cons_self) s
  unfold trimBlanks
  rw [hdrop s h, hdrop s.reverse fun b hb => h b (List.mem_reverse.mp hb), List.reverse_reverse]

theorem eraseDups_of_nodup {α : Type} [BEq α] [LawfulBEq α] {l : List α} (h : l.Nodup) :
    l.eraseDups = l := by
  induction l with
  | nil => rfl
  | cons a l ih =>
    obtain ⟨ha, hl⟩ := List.nodup_cons.mp h
    have hfilter : l.filter (fun b => !b == a) = l := by
      refine List.filter_eq_self.mpr fun b hb => ?_
      have hne : b ≠ a := by
        rintro rfl
        exact ha hb
      simpa using hne
    rw [List.eraseDups_cons, hfilter, ih hl]

theorem not_isBlank_formEncode (h : b ∈ formEncode s) : isBlank b = false := by
  have hsafe : ∀ n < 256, isFormSafe (.ofNat n) = true → isBlank (.ofNat n) = false := by
    decide +kernel
  rcases of_mem_formEncode h with rfl | rfl | hb
  · rfl
  · rfl
  · have hall := hsafe b.toNat b.toNat_lt
    rw [UInt8.ofNat_toNat] at hall
    exact hall hb

/-- A pair with a name is read as it was written. -/
theorem parsePair_formEncode {p : Bytes × Bytes} (h : p.1 ≠ []) :
    parsePair (formEncode p.1 ++ 61 :: formEncode p.2) = some p := by
  have hdivide : divide 61 (formEncode p.1 ++ 61 :: formEncode p.2) =
      (formEncode p.1, formEncode p.2) := splitPair_formEncode p
  unfold parsePair
  rw [hdivide]
  dsimp only
  rw [if_neg (by simpa using formEncode_ne_nil h), decodeQuery_formEncode, decodeQuery_formEncode]

/-- **The query of a form is read as its pairs**, when they are different and have names. -/
theorem parseQueryText_serializeForm {pairs : List (Bytes × Bytes)} (hnodup : pairs.Nodup)
    (hkey : ∀ p ∈ pairs, p.1 ≠ []) : parseQueryText (serializeForm pairs) = pairs := by
  cases pairs with
  | nil => rfl
  | cons p pairs =>
    generalize hpairs : p :: pairs = all at *
    have hne : all ≠ [] := hpairs ▸ List.cons_ne_nil p pairs
    let piece (p : Bytes × Bytes) : Bytes := formEncode p.1 ++ 61 :: formEncode p.2
    have hparse : ∀ p ∈ all, parsePair (piece p) = some p := fun p hp =>
      parsePair_formEncode (hkey p hp)
    have htrim : ∀ p, trimBlanks (piece p) = piece p := by
      intro p
      refine trimBlanks_of_notMem fun b hb => ?_
      rcases List.mem_append.mp hb with hb | hb
      · exact not_isBlank_formEncode hb
      · rcases List.mem_cons.mp hb with rfl | hb
        · rfl
        · exact not_isBlank_formEncode hb
    have hsplit : split 38 (serializeForm all) = all.map piece := by
      unfold split
      rw [splitOn_serializeForm hne, List.map_map]
      have hmap : all.map (trimBlanks ∘ piece) = all.map piece :=
        List.map_congr_left fun p _ => htrim p
      rw [hmap]
      refine List.filter_eq_self.mpr fun b hb => ?_
      obtain ⟨q, -, rfl⟩ := List.mem_map.mp hb
      simp [piece]
    have hdups : (all.map piece).eraseDups = all.map piece := by
      refine eraseDups_of_nodup (List.Nodup.map_on ?_ hnodup)
      intro p hp q hq heq
      have hp := hparse p hp
      rw [heq, hparse q hq] at hp
      exact (Option.some.inj hp).symm
    unfold parseQueryText
    rw [hsplit, hdups, List.filterMap_map]
    have hmap : all.filterMap (parsePair ∘ piece) = all.filterMap some :=
      List.filterMap_congr hparse
    rw [hmap, List.filterMap_some]

/-! ## Targets -/

theorem notMem_serializeForm {pairs : List (Bytes × Bytes)} : 35 ∉ serializeForm pairs := by
  intro h
  rcases of_mem_serializeForm h with heq | heq | heq | heq | hsafe
  · exact absurd heq (by decide)
  · exact absurd heq (by decide)
  · exact absurd heq (by decide)
  · exact absurd heq (by decide)
  · exact absurd hsafe (by decide)

/-- A target without a query. -/
theorem parseTarget_path {path : Bytes} (hquery : 63 ∉ path) (hfragment : 35 ∉ path) :
    parseTarget path = (decodeUrl path, []) := by
  unfold parseTarget divide
  rw [takeWhile_ne_eq_self hfragment, takeWhile_ne_eq_self hquery,
    List.dropWhile_eq_nil_iff.mpr (ne_of_notMem hquery)]
  rfl

/-- A target with a query. -/
theorem parseTarget_query {path query : Bytes} (hquery : 63 ∉ path) (hfragment : 35 ∉ path)
    (h : 35 ∉ query) :
    parseTarget (path ++ 63 :: query) = (decodeUrl path, parseQueryText query) := by
  have hnone : 35 ∉ path ++ 63 :: query := by
    rw [List.mem_append, List.mem_cons, not_or, not_or]
    exact ⟨hfragment, by decide, h⟩
  unfold parseTarget divide
  rw [takeWhile_ne_eq_self hnone, takeWhile_ne_append, takeWhile_ne_eq_self hquery,
    List.dropWhile_append_of_pos (ne_of_notMem hquery), List.dropWhile_cons_of_neg (by decide)]
  rfl

end MiniOj.Http
