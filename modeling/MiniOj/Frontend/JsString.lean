import MiniOj.Infra.Trimming
import MiniOj.Infra.Unicode

/-!
# Strings of JavaScript

A string as the list of its code points. None of the texts here has a surrogate that stands
alone: they come from form fields and from JSON in UTF-8. `length` counts code units.
-/

namespace MiniOj.Frontend

open Infra

/-- A text without unpaired surrogates. -/
abbrev JsString := List Char

namespace JsString

/-- `s.length`: the UTF-16 code units. -/
def length (s : JsString) : Nat := utf16Length s

/-- White space and line terminators. -/
def isBlank (c : Char) : Bool :=
  (9 ≤ c.toNat && c.toNat ≤ 13) || c == ' ' || c.toNat == 0xA0 || c.toNat == 0x1680 ||
    (0x2000 ≤ c.toNat && c.toNat ≤ 0x200A) || c.toNat == 0x2028 || c.toNat == 0x2029 ||
    c.toNat == 0x202F || c.toNat == 0x205F || c.toNat == 0x3000 || c.toNat == 0xFEFF

/-- `s.trim()`. -/
def trim (s : JsString) : JsString := Infra.trim isBlank s

end JsString

end MiniOj.Frontend
