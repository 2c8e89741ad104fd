import MiniOj.Frontend.JsString

/-!
# Checks of the registration form

`validation.js`. A value is `none` when it is `null` or `undefined`.
-/

namespace MiniOj.Frontend

/-- Whether the value can be sent, and the text under the field. -/
structure Hint where
  ok : Bool
  message : String
  deriving DecidableEq, Repr

/-- `[A-Za-z]`. -/
def isLetter (ch : Char) : Bool := ('a' ≤ ch && ch ≤ 'z') || ('A' ≤ ch && ch ≤ 'Z')

/-- `[0-9]`. -/
def isDigit (ch : Char) : Bool := '0' ≤ ch && ch ≤ '9'

/-- `/[A-Za-z]/.test(v)`. -/
def hasLetter (v : JsString) : Bool := v.any isLetter

/-- `/[0-9]/.test(v)`. -/
def hasDigit (v : JsString) : Bool := v.any isDigit

/-- `USERNAME_RE.test`. -/
def usernameRe (v : JsString) : Bool :=
  v.all (fun ch => isLetter ch || isDigit ch || ch == '_') && 3 ≤ v.length && v.length ≤ 20

/-- An empty field is no mistake yet. -/
def validateUsernameInput (value : Option JsString) : Hint :=
  let trimmed := (value.getD []).trim
  if trimmed = [] then ⟨true, "3-20 位字母、数字或下划线"⟩
  else if trimmed.length < 3 || 20 < trimmed.length then ⟨false, "用户名长度需在 3 到 20 个字符之间"⟩
  else if !usernameRe trimmed then ⟨false, "仅允许字母、数字与下划线"⟩
  else ⟨true, "✓ 用户名可用"⟩

/-- The blanks at the ends of a password belong to it. -/
def validatePasswordInput (value : Option JsString) : Hint :=
  let v := value.getD []
  if v = [] then ⟨true, "8-64 位，至少包含一个字母与一个数字"⟩
  else if v.length < 8 || 64 < v.length then ⟨false, "密码长度需在 8 到 64 个字符之间"⟩
  else if !hasLetter v || !hasDigit v then ⟨false, "密码必须同时包含字母与数字"⟩
  else ⟨true, "✓ 密码强度符合要求"⟩

end MiniOj.Frontend
