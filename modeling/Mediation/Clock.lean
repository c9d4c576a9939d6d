/-
The wall clock, as a reading for each instant of the virtual clock.
-/

namespace Mediation

/-- What the wall clock shows at each instant. -/
structure Clock where
  /-- Microseconds since the Unix epoch. -/
  micros : Nat → Int

namespace Clock

/-- Milliseconds since the Unix epoch. -/
def millis (c : Clock) (now : Nat) : Int64 := Int64.ofInt ((c.micros now).fdiv 1000)

/-- Seconds since the Unix epoch, with their fraction. -/
def seconds (c : Clock) (now : Nat) : Float := Float.ofInt (c.micros now) / 1000000.0

end Clock

end Mediation
