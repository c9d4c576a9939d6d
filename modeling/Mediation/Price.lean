/-
Prices are binary64 numbers, by their bit patterns. Ranking uses the total order on the patterns, in which
-0.0 comes just below 0.0 and every pattern has its place, also the many that stand for no number; raising a
floor and clearing it compare numerically.
-/
import Mediation.Json.Record

namespace Mediation

/-- A price in the auction's currency, per thousand impressions. -/
structure Price where
  bits : UInt64
  deriving DecidableEq, Repr

namespace Price

/-! ## Numbers -/

/-- The number that a price is; one and the same for all patterns that stand for none. -/
def toFloat (x : Price) : Float := .ofBits x.bits

def ofFloat (x : Float) : Price := ⟨x.toBits⟩

instance : OfScientific Price := ⟨fun m negative e => ofFloat (OfScientific.ofScientific m negative e)⟩

instance : Neg Price := ⟨fun x => ⟨x.bits ^^^ 0x8000000000000000⟩⟩

instance : Add Price := ⟨fun x y => ofFloat (x.toFloat + y.toFloat)⟩

/-- Numeric equality: it holds of zeros of either sign, and of nothing that is no number. -/
instance : BEq Price := ⟨fun x y => x.toFloat == y.toFloat⟩

instance : LT Price := ⟨fun x y => x.toFloat < y.toFloat⟩

instance : LE Price := ⟨fun x y => x.toFloat ≤ y.toFloat⟩

instance (x y : Price) : Decidable (x < y) := inferInstanceAs (Decidable (x.toFloat < y.toFloat))

instance (x y : Price) : Decidable (x ≤ y) := inferInstanceAs (Decidable (x.toFloat ≤ y.toFloat))

def isNaN (x : Price) : Bool := x.toFloat.isNaN

def isFinite (x : Price) : Bool := x.toFloat.isFinite

/-! ## Total order -/

/-- The bit patterns from here on are those with a sign. -/
def signBit : Nat := 0x8000000000000000

/-- Place of a bit pattern in the total order: its sign and magnitude, where a negative magnitude counts
down from -1. -/
def rank (x : Price) : Int :=
  let bits := x.bits.toNat
  if bits < signBit then bits else -1 - (bits - signBit : Nat)

/-- Whether `a` may stand before `b` in a listing from the highest rank down. -/
def ranksFirst (a b : Price) : Bool := decide (b.rank ≤ a.rank)

theorem ranksFirst_total (a b : Price) : ranksFirst a b || ranksFirst b a := by
  simp only [ranksFirst, Bool.or_eq_true, decide_eq_true_eq]; omega

theorem ranksFirst_trans (a b c : Price) (h₁ : ranksFirst a b) (h₂ : ranksFirst b c) :
    ranksFirst a c := by
  simp only [ranksFirst, decide_eq_true_eq] at *; omega

/-! ## Highest price -/

/-- The numerically larger of two prices. Of two that are equal it is the second one, which tells zeros
of different sign apart; where one is not a number, it is the other. -/
def highest (a b : Price) : Price :=
  if b.isNaN ∨ b < a then a else b

/-- The highest of a starting price and further ones, taken in order. -/
def highestOf (start : Price) (ps : List Price) : Price := ps.foldl highest start

/-! ## JSON -/

def toJson (x : Price) : Json := .ofFloat x.toFloat

def ofJson? (v : Json) : Option Price := v.number?.map ofFloat

end Price

end Mediation
