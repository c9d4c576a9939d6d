/-
How the digits of a number are laid out as text. Which way ties go, where positional notation ends,
whether a whole number keeps its `.0`, how an exponent is signed and what stands for infinity and NaN
are fields of one record.
-/
import Mediation.Decimal.Shortest

namespace Mediation.Decimal

/-- The choices of a number format. -/
structure Layout where
  tie : Tie
  /-- Whether a number whose first digit has this exponent is written positionally. -/
  positional : Int → Bool
  /-- A whole number is followed by `.0`. -/
  wholeMark : String
  /-- Sign of a non-negative exponent. -/
  plus : String
  notANumber : String
  infinity : String

/-- Digits of a natural number. -/
def digitText (n : Nat) : List Char := Nat.toDigits 10 n

/-- Digits with the point after the `point`-th one; `point` may lie outside the digits. -/
def placed (l : Layout) (ds : List Char) (point : Int) : String :=
  if point ≤ 0 then
    "0." ++ String.ofList (List.replicate (-point).toNat '0' ++ ds)
  else if (ds.length : Int) ≤ point then
    String.ofList (ds ++ List.replicate (point.toNat - ds.length) '0') ++ l.wholeMark
  else
    String.ofList (ds.take point.toNat) ++ "." ++ String.ofList (ds.drop point.toNat)

/-- One digit, the others behind a point, and the exponent. -/
def scientific (l : Layout) (ds : List Char) (lead : Int) : String :=
  let head := String.ofList (ds.take 1)
  let tail := ds.drop 1
  let exponent := if lead < 0 then "-" ++ toString lead.natAbs else l.plus ++ toString lead.natAbs
  head ++ (if tail.isEmpty then "" else "." ++ String.ofList tail) ++ "e" ++ exponent

/-- Text of the magnitude `s`. -/
def layOut (l : Layout) (s : Scaled) : String :=
  let ds := digitText s.digits
  let lead := s.exponent + ds.length - 1
  if s.digits = 0 then "0" ++ l.wholeMark
  else if l.positional lead then placed l ds (lead + 1)
  else scientific l ds lead

/-- Text of a number: its sign and the shortest digits that read back to it. -/
def Layout.format (l : Layout) (x : Float) : String :=
  if x.isNaN then l.notANumber
  else
    let sign := if x.toBits.toNat < Nat.pow 2 63 then "" else "-"
    sign ++ (if x.isInf then l.infinity else layOut l (shortest l.tie x))

end Mediation.Decimal
