/-
What a JSON number denotes. A whole number that fits 64 bits is kept exactly. Any other is read as
binary64 from its leading digits, as many as fit 64 bits: they are rounded to a binary64 number,
which is then scaled by a power of ten with a second rounding.
-/
import Mediation.Json.Basic

namespace Mediation

/-- The parts of a number as written; digits are values below ten. -/
structure Numeral where
  negative : Bool
  whole : List Nat
  /-- The digits behind a point. -/
  fraction : Option (List Nat)
  /-- Whether the exponent is negative, and its digits. -/
  exponent : Option (Bool × List Nat)
  deriving DecidableEq, Repr

namespace Numeral

/-- Value of a digit list. -/
def natValue (ds : List Nat) : Nat := ds.foldl (fun n d => 10 * n + d) 0

/-- Appends digits to a significand while it fits 64 bits; gives it with the digits left over. -/
def absorb (significand : Nat) : List Nat → Nat × List Nat
  | [] => (significand, [])
  | d :: r =>
    if 10 * significand + d < UInt64.size then absorb (10 * significand + d) r else (significand, d :: r)

/-- The binary64 number nearest to `10^n`. -/
def powerOfTen (n : Nat) : Float := Float.ofScientific 1 false n

/-- Divides by `10^n` in steps that stay in the range of binary64 numbers. -/
def scaleDown (x : Float) : (steps n : Nat) → Float
  | 0, n => x / powerOfTen n
  | steps + 1, n => if n ≤ 308 then x / powerOfTen n else scaleDown (x / powerOfTen 308) steps (n - 308)

/-- `significand * 10^exponent`, the significand rounded first. None if it is out of range. -/
def scale (significand : Nat) (exponent : Int) : Option Float :=
  let x := significand.toUInt64.toFloat
  if 0 ≤ exponent then
    if exponent ≤ 308 then
      let y := x * powerOfTen exponent.toNat
      if y.isInf then none else some y
    else if significand = 0 then some x
    else none
  else if significand = 0 then some x
  else if exponent < -1000 then some 0.0
  else some (scaleDown x 4 (-exponent).toNat)

/-- The number as binary64. -/
def float? (n : Numeral) : Option Float :=
  let (s, rest) := absorb 0 n.whole
  let fraction := n.fraction.getD []
  let (s, unused) := absorb s fraction
  let absorbed := fraction.length - unused.length
  let written : Int :=
    match n.exponent with
    | none => 0
    | some (negative, ds) => if negative then -(natValue ds : Int) else natValue ds
  let magnitude := scale s (rest.length - absorbed + written)
  magnitude.map fun x => if n.negative then -x else x

/-- The value of a number; unreadable if it is out of range. Negative zero is not a whole number. -/
def toJson (n : Numeral) : Json :=
  let v := natValue n.whole
  let fits := if n.negative then v ≠ 0 ∧ v ≤ Int64.minValue.toInt.natAbs else v < UInt64.size
  if n.fraction.isNone ∧ n.exponent.isNone ∧ fits then
    .int (if n.negative then -(v : Int) else v)
  else
    match n.float? with
    | some x => .float x
    | none => .unreadable

end Numeral

end Mediation
