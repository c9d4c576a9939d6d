/-
Numbers in text: runs of digits in a given base, with or without a sign, and nothing else around
them.
-/

namespace Mediation.Text

/-- Value of a digit: figures, then the Latin letters of either case, below the base. -/
def digit? (base : Nat) (c : Char) : Option Nat :=
  let n := c.toNat
  let v :=
    if 0x30 ≤ n ∧ n ≤ 0x39 then some (n - 0x30)
    else if 0x61 ≤ n ∧ n ≤ 0x7A then some (n - 0x61 + 10)
    else if 0x41 ≤ n ∧ n ≤ 0x5A then some (n - 0x41 + 10)
    else none
  v.filter (· < base)

/-- Value of a digit list, the most significant digit first. -/
def digitsValue (base : Nat) (ds : List Nat) : Nat := ds.foldl (fun n d => base * n + d) 0

/-- The number that a non-empty run of digits denotes. -/
def natural? (base : Nat) (cs : List Char) : Option Nat :=
  if cs.isEmpty then none else (cs.mapM (digit? base)).map (digitsValue base)

/-- A number with an optional plus sign. -/
def plusNatural? (base : Nat) : List Char → Option Nat
  | '+' :: cs => natural? base cs
  | cs => natural? base cs

/-- A decimal number with an optional sign. -/
def integer? : List Char → Option Int
  | '-' :: cs => (natural? 10 cs).map fun n => -(n : Int)
  | cs => (plusNatural? 10 cs).map fun n => (n : Int)

/-- Whether a number fits 64 bits with a sign. -/
def fitsInt64 (n : Int) : Bool := Int64.minValue.toInt ≤ n && n ≤ Int64.maxValue.toInt

/-- A decimal number with an optional sign that fits 64 bits. -/
def int64? (s : String) : Option Int64 := ((integer? s.toList).filter fitsInt64).map Int64.ofInt

example : plusNatural? 32 "+Vv".toList = some 1023 := by decide
example : plusNatural? 32 "+".toList = none ∧ natural? 32 "w".toList = none := by decide
example : int64? "-9223372036854775808" = some Int64.minValue := by decide
example : int64? "9223372036854775808" = none ∧ int64? "1 " = none ∧ int64? "-+1" = none := by decide

end Mediation.Text
