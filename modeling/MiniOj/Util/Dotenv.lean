import MiniOj.Infra.Trimming
import MiniOj.Types

/-!
# The dotenv file

`trim`, `loadDotenv` and `valueOf` (`util/config.cpp`).
-/

namespace MiniOj.Util

open Infra

/-- The characters that `trim` cuts: `" \t\r\n"`. -/
def isTrimmed (b : UInt8) : Bool := b == 32 || b == 9 || b == 13 || b == 10

/-- Without the blanks at both ends. -/
def trim (value : Bytes) : Bytes := Infra.trim isTrimmed value

/-- Settings by name. -/
abbrev Values := Bytes → Option Bytes

/-- What `std::getline` reads from the rest of a stream, the first line of which begins with
`line`. There is no line after the last line end. -/
def linesFrom (line : Bytes) : Bytes → List Bytes
  | [] => if line = [] then [] else [line]
  | b :: rest => if b = 10 then line :: linesFrom [] rest else linesFrom (line ++ [b]) rest

/-- One pair of quotes around a value is taken off. -/
def unquote (value : Bytes) : Bytes :=
  if 2 ≤ value.length ∧ (value.head? = some 34 ∧ value.getLast? = some 34 ∨
      value.head? = some 39 ∧ value.getLast? = some 39) then
    (value.drop 1).take (value.length - 2)
  else value

/-- The body of the loop of `loadDotenv`. -/
def readLine (values : Values) (line : Bytes) : Except Exn Values :=
  let line := trim line
  if line = [] ∨ line.head? = some 35 then .ok values
  else
    match line.idxOf? 61 with
    | none => .error (runtimeError (utf8 "invalid dotenv entry"))
    | some separator =>
      let key := trim (line.take separator)
      let value := trim (line.drop (separator + 1))
      if key = [] then .error (runtimeError (utf8 "invalid dotenv key"))
      else .ok (Function.update values key (some (unquote value)))

/-- `file` is `none` when it cannot be opened. -/
def loadDotenv (file : Option Bytes) : Except Exn Values :=
  (linesFrom [] (file.getD [])).foldlM readLine fun _ => none

/-- `environment` is `std::getenv`. -/
def valueOf (environment dotenv : Values) (key fallback : Bytes) : Bytes :=
  (environment key).getD ((dotenv key).getD fallback)

end MiniOj.Util
