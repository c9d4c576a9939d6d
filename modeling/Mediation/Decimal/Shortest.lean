/-
The shortest decimal of a binary64 number: the fewest digits that read back to the same number,
and of those the ones nearest to it. Everything is decided in exact integer arithmetic on the number
written as `m * 2^q`. Two decimals can be equally near; which one is taken then is for a format to say.
-/

namespace Mediation.Decimal

/-- Which of two neighbours on a decimal grid stands for a number halfway between them. -/
inductive Tie where
  /-- The one that ends in an even digit. -/
  | toEven
  /-- The one of greater magnitude. -/
  | awayFromZero
  deriving DecidableEq, Repr

/-- The neighbour taken: `below`, or the next one. -/
def Tie.choose : Tie → Nat → Nat
  | .toEven, below => if below % 2 = 0 then below else below + 1
  | .awayFromZero, below => below + 1

/-- `digits * 10^exponent`. -/
structure Scaled where
  digits : Nat
  exponent : Int
  deriving DecidableEq, Repr

/-- Magnitude `mantissa * 2^exponent` of a finite number, and whether the number below it is only
half as far away as the one above. -/
structure Binary where
  mantissa : Nat
  exponent : Int
  narrowBelow : Bool
  deriving DecidableEq, Repr

namespace Binary

/-- The magnitude that the bits of a finite number denote. -/
def ofFloat (x : Float) : Binary :=
  let bits : Nat := x.toBits.toNat % Nat.pow 2 63
  let biased : Nat := bits / Nat.pow 2 52
  let fraction : Nat := bits % Nat.pow 2 52
  if biased = 0 then ⟨fraction, -1074, false⟩
  else ⟨Nat.pow 2 52 + fraction, (biased : Int) - 1075, fraction == 0 && biased != 1⟩

/-- `mantissa * 2^exponent` as a fraction. -/
def ratio (b : Binary) : Nat × Nat :=
  if 0 ≤ b.exponent then (b.mantissa * Nat.pow 2 b.exponent.toNat, 1)
  else (b.mantissa, Nat.pow 2 (-b.exponent).toNat)

/-- Compares `c * 10^p` with `quarters * 2^(exponent - 2)`. -/
def compareQuarters (b : Binary) (c : Nat) (p : Int) (quarters : Nat) : Ordering :=
  let e := b.exponent - 2
  compare (c * Nat.pow 10 p.toNat * Nat.pow 2 (-e).toNat)
    (quarters * Nat.pow 2 e.toNat * Nat.pow 10 (-p).toNat)

/-- Whether `c * 10^p` rounds to this number: it lies between the midpoints to both neighbours, which
themselves round to it when the mantissa is even. -/
def roundsTo (b : Binary) (c : Nat) (p : Int) : Bool :=
  let ends := b.mantissa % 2 == 0
  let low := b.compareQuarters c p (4 * b.mantissa - (if b.narrowBelow then 1 else 2))
  let high := b.compareQuarters c p (4 * b.mantissa + 2)
  (low == .gt || (ends && low == .eq)) && (high == .lt || (ends && high == .eq))

/-- Number of decimal digits of a natural number, at most `fuel`. -/
def digitCount : Nat → Nat → Nat
  | 0, _ => 0
  | fuel + 1, n => if n = 0 then 0 else digitCount fuel (n / 10) + 1

/-- Least `k ≤ fuel` with `den ≤ num * 10^k`. -/
def leadingZeros (num den : Nat) : Nat → Nat
  | 0 => 0
  | fuel + 1 => if den ≤ num then 0 else leadingZeros (num * 10) den fuel + 1

/-- Exponent of the first decimal digit of a positive number. -/
def leadingExponent (b : Binary) : Int :=
  let (num, den) := b.ratio
  if den ≤ num then digitCount 400 (num / den) - 1 else -(leadingZeros num den 400 : Nat)

/-- The two decimals next to the number on the grid of step `10^p`: the one at or below it is given,
the other is one step up. -/
def gridBelow (b : Binary) (p : Int) : Nat :=
  let (num, den) := b.ratio
  num * Nat.pow 10 (-p).toNat / (den * Nat.pow 10 p.toNat)

/-- The nearer of the two grid neighbours that read back to the number, if one does. -/
def onGrid (tie : Tie) (b : Binary) (p : Int) : Option Scaled :=
  let c := b.gridBelow p
  match b.roundsTo c p, b.roundsTo (c + 1) p with
  | false, false => none
  | true, false => some ⟨c, p⟩
  | false, true => some ⟨c + 1, p⟩
  | true, true =>
    -- the midpoint of the two neighbours against the number itself
    match b.compareQuarters (10 * c + 5) (p - 1) (4 * b.mantissa) with
    | .gt => some ⟨c, p⟩
    | .lt => some ⟨c + 1, p⟩
    | .eq => some ⟨tie.choose c, p⟩

/-- Tries grids from the coarsest on: `count` digits at first, `fuel` grids at most. -/
def search (tie : Tie) (b : Binary) (lead : Int) (count : Nat) : Nat → Option Scaled
  | 0 => none
  | fuel + 1 =>
    match b.onGrid tie (lead - count + 1) with
    | some s => some s
    | none => b.search tie lead (count + 1) fuel

end Binary

/-- Drops trailing zeros, raising the exponent. -/
def Scaled.trim : Nat → Scaled → Scaled
  | 0, s => s
  | fuel + 1, s =>
    if s.digits ≠ 0 && s.digits % 10 = 0 then Scaled.trim fuel ⟨s.digits / 10, s.exponent + 1⟩ else s

/-- The shortest decimal that reads back to the magnitude of a finite number; seventeen digits always
suffice. -/
def shortest (tie : Tie) (x : Float) : Scaled :=
  let b := Binary.ofFloat x
  if b.mantissa = 0 then ⟨0, 0⟩
  else ((b.search tie b.leadingExponent 1 17).getD ⟨b.mantissa, 0⟩).trim 20

end Mediation.Decimal
