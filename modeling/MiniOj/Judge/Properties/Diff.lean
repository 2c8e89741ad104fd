import MiniOj.Infra.Trimming
import MiniOj.Judge.Pipeline

/-!
# Which outputs are accepted

`outputsMatch` (`judge/diff.cpp`) forgives spaces, tabs and line ends at the end of an output and
nothing else.
-/

namespace MiniOj.Judge

open Infra

/-- Only characters that `trimTrailingWhitespace` cuts. -/
def Blank (w : Bytes) : Prop := ∀ ch ∈ w, isTrailingSpace ch = true

theorem outputsMatch_iff_trimmed {e a : Bytes} :
    outputsMatch e a = true ↔ trimTrailingWhitespace e = trimTrailingWhitespace a := beq_iff_eq

/-- Outputs match exactly when both are one text with blanks after it. -/
theorem outputsMatch_iff {e a : Bytes} : outputsMatch e a = true ↔
    ∃ p w₁ w₂, Blank w₁ ∧ Blank w₂ ∧ e = p ++ w₁ ∧ a = p ++ w₂ :=
  outputsMatch_iff_trimmed.trans rdropWhile_eq_iff

theorem outputsMatch_equivalence : Equivalence fun e a => outputsMatch e a = true where
  refl _ := outputsMatch_iff_trimmed.mpr rfl
  symm h := outputsMatch_iff_trimmed.mpr (outputsMatch_iff_trimmed.mp h).symm
  trans h h' := outputsMatch_iff_trimmed.mpr
    ((outputsMatch_iff_trimmed.mp h).trans (outputsMatch_iff_trimmed.mp h'))

/-- Up to a character of `e` that is no blank, matching outputs are the same. -/
theorem getElem?_of_outputsMatch {e a : Bytes} {i j : Nat} {ch : UInt8}
    (h : outputsMatch e a = true) (hj : e[j]? = some ch) (hch : isTrailingSpace ch = false)
    (hij : i ≤ j) : e[i]? = a[i]? := by
  have htrim : ∀ k ≤ j, (trimTrailingWhitespace a)[k]? = e[k]? := fun k hk => by
    rw [← outputsMatch_iff_trimmed.mp h]
    exact getElem?_rdropWhile hj hch hk
  -- the character at `j` is not among the blanks cut off `a` either
  have haj : a[j]? = some ch := getElem?_of_rdropWhile ((htrim j le_rfl).trans hj)
  rw [← htrim i hij]
  exact getElem?_rdropWhile haj hch hij

/--
**Outputs match up to blanks at the end.**

`outputsMatch e a` holds exactly when `e` and `a` are one string followed by blanks. It is an
equivalence relation, and matching outputs agree up to the last character of either that is no
blank.
-/
theorem outputs_match_up_to_blanks :
    (∀ e a : Bytes, outputsMatch e a = true ↔
      ∃ p w₁ w₂, Blank w₁ ∧ Blank w₂ ∧ e = p ++ w₁ ∧ a = p ++ w₂) ∧
    (Equivalence fun e a => outputsMatch e a = true) ∧
    ∀ (e a : Bytes) (i j : Nat) (ch : UInt8), outputsMatch e a = true →
      e[j]? = some ch ∨ a[j]? = some ch → isTrailingSpace ch = false → i ≤ j → e[i]? = a[i]? := by
  refine ⟨fun e a => outputsMatch_iff, outputsMatch_equivalence, ?_⟩
  rintro e a i j ch h (hj | hj) hch hij
  · exact getElem?_of_outputsMatch h hj hch hij
  · exact (getElem?_of_outputsMatch (outputsMatch_equivalence.symm h) hj hch hij).symm

example : outputsMatch (utf8 "a\nb\n   \n") (utf8 "a\nb\r") = true := by decide

end MiniOj.Judge
