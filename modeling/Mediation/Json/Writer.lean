/-
Writing JSON text: no blanks, members in the order given, characters beyond ASCII as they are. A
number with a fraction or an exponent reads back as the binary64 number it stands for; one that is
not finite is written `null`.
-/
import Mediation.Json.Basic
import Mediation.Decimal.Layout

namespace Mediation.Json

/-- Numbers are positional from 1e-5 up to below 1e16, always show a point or an exponent, and sign
every exponent. -/
def numberLayout : Decimal.Layout where
  tie := .toEven
  positional := fun lead => -5 ≤ lead && lead < 16
  wholeMark := ".0"
  plus := "+"
  notANumber := "null"
  infinity := "null"

example : numberLayout.format 1125899906842624.25 = "1125899906842624.2" := by decide +kernel

def hexChar (n : Nat) : Char := Nat.digitChar n

/-- A character inside quotes. -/
def writeChar (c : Char) : List Char :=
  if c = '"' then ['\\', '"']
  else if c = '\\' then ['\\', '\\']
  else if c = '\x08' then ['\\', 'b']
  else if c = '\x0C' then ['\\', 'f']
  else if c = '\n' then ['\\', 'n']
  else if c = '\r' then ['\\', 'r']
  else if c = '\t' then ['\\', 't']
  else if c.toNat < 0x20 then ['\\', 'u', '0', '0', hexChar (c.toNat / 16), hexChar (c.toNat % 16)]
  else [c]

def writeString (s : String) : String := "\"" ++ String.ofList (s.toList.flatMap writeChar) ++ "\""

def writeFloat (x : Float) : String := if x.isFinite then numberLayout.format x else "null"

mutual

/-- The text of a value. -/
def write : Json → String
  | .null | .unreadable => "null"
  | .bool b => if b then "true" else "false"
  | .int n => toString n
  | .float x => writeFloat x
  | .str s => writeString s
  | .arr items => "[" ++ writeItems items ++ "]"
  | .obj members => "\x7b" ++ writeMembers members ++ "\x7d"

def writeItems : List Json → String
  | [] => ""
  | [v] => write v
  | v :: r => write v ++ "," ++ writeItems r

def writeMembers : List (String × Json) → String
  | [] => ""
  | [(n, v)] => writeString n ++ ":" ++ write v
  | (n, v) :: r => writeString n ++ ":" ++ write v ++ "," ++ writeMembers r

end

end Mediation.Json
