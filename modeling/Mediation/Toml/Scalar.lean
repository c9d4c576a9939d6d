/-
Numbers, dates and times of TOML, written without quotes. Digits may be set apart by single
underscores. A date or a time is taken as text; what it leaves out stays out.
-/
import Mediation.Text.Digits
import Mediation.Toml.Basic

namespace Mediation.Toml

/-! ## Digits -/

/-- Digits of a base with single underscores between them; at least one. -/
def digits? (base : Nat) : List Char → Option (List Nat)
  | [] => none
  | c :: cs =>
    match Text.digit? base c, cs with
    | some d, [] => some [d]
    | some d, '_' :: cs => (digits? base cs).map (d :: ·)
    | some d, cs => (digits? base cs).map (d :: ·)
    | none, _ => none

/-- Decimal digits that do not begin with a zero, unless they are just that. -/
def plainDigits? (cs : List Char) : Option (List Nat) :=
  match digits? 10 cs with
  | some (0 :: _ :: _) => none
  | found => found

/-- A sign, if there is one, and what follows it. -/
def splitSign : List Char → Bool × List Char
  | '-' :: cs => (true, cs)
  | '+' :: cs => (false, cs)
  | cs => (false, cs)

/-! ## Integers -/

/-- An integer; it must fit 64 bits. Hexadecimal, octal and binary ones have no sign. -/
def integer? (cs : List Char) : Option Int :=
  let found : Option Int :=
    match cs with
    | '0' :: 'x' :: cs => (digits? 16 cs).map fun ds => (Text.digitsValue 16 ds : Int)
    | '0' :: 'o' :: cs => (digits? 8 cs).map fun ds => (Text.digitsValue 8 ds : Int)
    | '0' :: 'b' :: cs => (digits? 2 cs).map fun ds => (Text.digitsValue 2 ds : Int)
    | cs =>
      let (negative, cs) := splitSign cs
      (plainDigits? cs).map fun ds =>
        let n := Text.digitsValue 10 ds
        if negative then -(n : Int) else n
  found.filter Text.fitsInt64

/-! ## Floats -/

/-- An exponent: a sign and digits. -/
def exponent? (cs : List Char) : Option Int :=
  let (negative, cs) := splitSign cs
  (digits? 10 cs).map fun ds =>
    let n := Text.digitsValue 10 ds
    if negative then -(n : Int) else n

/-- `n * 10^e`, where `n` has at most `digits` digits. None if it is out of range. -/
def scaled? (n digits : Nat) (e : Int) : Option Float :=
  if n = 0 then some 0.0
  else if 400 < e then none
  else if e + digits < -400 then some 0.0
  else
    let x := if 0 ≤ e then Float.ofScientific n false e.toNat else Float.ofScientific n true (-e).toNat
    if x.isFinite then some x else none

/-- A float without its sign: a fraction or an exponent must be there. -/
def magnitude? (cs : List Char) : Option Float :=
  let isExponent (c : Char) := c == 'e' || c == 'E'
  let mantissa := cs.takeWhile fun c => !isExponent c
  let exponent : Option Int :=
    match cs.dropWhile fun c => !isExponent c with
    | [] => some 0
    | _ :: cs => exponent? cs
  let whole := mantissa.takeWhile (· != '.')
  let fraction : Option (List Nat) :=
    match mantissa.dropWhile (· != '.') with
    | [] => if mantissa.length = cs.length then none else some []
    | _ :: cs => digits? 10 cs
  match plainDigits? whole, fraction, exponent with
  | some ds, some fs, some e =>
    scaled? (Text.digitsValue 10 (ds ++ fs)) (ds ++ fs).length (e - fs.length)
  | _, _, _ => none

/-- A float; one that is written with digits must be finite. -/
def float? (cs : List Char) : Option Float :=
  let (negative, cs) := splitSign cs
  let signed (x : Float) := if negative then -x else x
  if cs = "inf".toList then some (signed (1.0 / 0.0))
  else if cs = "nan".toList then some (0.0 / 0.0)
  else (magnitude? cs).map signed

/-! ## Dates and times -/

/-- A number of exactly `n` decimal digits from `low` to `high`. -/
def fieldIn? (n low high : Nat) (cs : List Char) : Option Nat :=
  if cs.length = n then (Text.natural? 10 cs).filter fun v => low ≤ v && v ≤ high else none

def isLeap (year : Nat) : Bool := year % 4 == 0 && (year % 100 != 0 || year % 400 == 0)

/-- Days of a month. -/
def monthDays (year month : Nat) : Nat :=
  if month = 2 then (if isLeap year then 29 else 28)
  else if month = 4 ∨ month = 6 ∨ month = 9 ∨ month = 11 then 30
  else 31

/-- A date that the calendar has. -/
def date? (cs : List Char) : Option (List Char) :=
  match cs with
  | [a, b, c, d, '-', e, f, '-', g, h] => do
    let year ← fieldIn? 4 0 9999 [a, b, c, d]
    let month ← fieldIn? 2 1 12 [e, f]
    let _ ← fieldIn? 2 1 (monthDays year month) [g, h]
    some cs
  | _ => none

/-- The fraction of a second: nine digits count, and zeros at the end are left out, but for one that
stands alone. -/
def secondFraction? : List Char → Option (List Char)
  | [] => some []
  | '.' :: cs => do
    let _ ← Text.natural? 10 cs
    let kept := ((cs.take 9).reverse.dropWhile (· == '0')).reverse
    some ('.' :: (if kept.isEmpty then ['0'] else kept))
  | _ => none

/-- A time of day; the seconds may be left out. -/
def time? : List Char → Option (List Char)
  | [a, b, ':', c, d] => do
    let _ ← fieldIn? 2 0 23 [a, b]
    let _ ← fieldIn? 2 0 59 [c, d]
    some [a, b, ':', c, d]
  | a :: b :: ':' :: c :: d :: ':' :: e :: f :: rest => do
    let _ ← fieldIn? 2 0 23 [a, b]
    let _ ← fieldIn? 2 0 59 [c, d]
    let _ ← fieldIn? 2 0 60 [e, f]
    some ([a, b, ':', c, d, ':', e, f] ++ (← secondFraction? rest))
  | _ => none

/-- A distance from universal time, where none at all has a plus sign; nothing for a local time. -/
def offset? : List Char → Option (List Char)
  | [] => some []
  | [z] => if z = 'z' ∨ z = 'Z' then some ['Z'] else none
  | [s, a, b, ':', c, d] =>
    if s = '+' ∨ s = '-' then do
      let hours ← fieldIn? 2 0 23 [a, b]
      let minutes ← fieldIn? 2 0 59 [c, d]
      some [if hours = 0 ∧ minutes = 0 then '+' else s, a, b, ':', c, d]
    else none
  | _ => none

/-- A date, a time, or both with or without an offset. -/
def dateTime? (cs : List Char) : Option String :=
  let isTimeChar (c : Char) := c.isDigit || c == ':' || c == '.'
  let found :=
    match cs[10]? with
    | none => (date? cs).or (time? cs)
    | some s =>
      if s = 'T' ∨ s = 't' ∨ s = ' ' then do
        let rest := cs.drop 11
        let date ← date? (cs.take 10)
        let time ← time? (rest.takeWhile isTimeChar)
        let offset ← offset? (rest.dropWhile isTimeChar)
        some (date ++ 'T' :: (time ++ offset))
      else time? cs
  found.map String.ofList

/-- The value that is written without quotes. -/
def scalar? (cs : List Char) : Option Toml :=
  if cs = "true".toList then some (.boolean true)
  else if cs = "false".toList then some (.boolean false)
  else
    ((integer? cs).map Toml.integer).or
      (((float? cs).map Toml.float).or ((dateTime? cs).map Toml.text))

end Mediation.Toml
