/-
Versions of the SDK, as it states them in a request header: `1.2.3` with an optional leading `v`,
an optional third number and an optional suffix that is not looked at.
-/
import Mediation.Error
import Mediation.Text.Blank
import Mediation.Text.Digits

namespace Mediation

/-- Version of the calling SDK. -/
structure SdkVersion where
  major : UInt64
  minor : UInt64
  patch : UInt64
  deriving DecidableEq, Repr

namespace SdkVersion

/-! ## Order -/

/-- Versions are ordered by their numbers, the major one first. -/
def compare (a b : SdkVersion) : Ordering :=
  (Ord.compare a.major b.major).then ((Ord.compare a.minor b.minor).then (Ord.compare a.patch b.patch))

/-! ## Reading -/

/-- A run of decimal digits, and what follows it. -/
def splitDigits (cs : List Char) : List Char × List Char :=
  (cs.takeWhile Char.isDigit, cs.dropWhile Char.isDigit)

/-- A number of a version; it must fit 64 bits. -/
def number? (ds : List Char) : Option UInt64 :=
  (Text.natural? 10 ds).bind fun n => if n < UInt64.size then some n.toUInt64 else none

/-- Characters of a suffix. -/
def isSuffixChar (c : Char) : Bool := c.isAlphanum || c = '.' || c = '-' || c = '+'

/-- Nothing, or a suffix that a dash or a plus sign starts. -/
def isSuffix : List Char → Bool
  | [] => true
  | c :: cs => (c = '-' || c = '+') && cs.all isSuffixChar

/-- The third number, zero when it is absent, and the suffix. -/
def readPatch? : List Char → Option UInt64
  | '.' :: cs =>
    let (ds, rest) := splitDigits cs
    if isSuffix rest then number? ds else none
  | cs => if isSuffix cs then some 0 else none

/-- A version without white space around it. -/
def readTrimmed? (cs : List Char) : Option SdkVersion :=
  let (major, rest) := splitDigits (match cs with
    | 'v' :: cs => cs
    | cs => cs)
  match rest with
  | '.' :: rest =>
    let (minor, rest) := splitDigits rest
    match number? major, number? minor, readPatch? rest with
    | some major, some minor, some patch => some ⟨major, minor, patch⟩
    | _, _, _ => none
  | _ => none

/-- Reads a version; white space around it does not matter. -/
def parse (s : String) : Except AuctionError SdkVersion :=
  match readTrimmed? (Text.trim s.toList) with
  | some v => .ok v
  | none => .error .invalidSdkVersion

example : readTrimmed? "v1.2-beta.1".toList = some ⟨1, 2, 0⟩ := by decide
example : readTrimmed? "0.7.2".toList = some ⟨0, 7, 2⟩ := by decide
example : readTrimmed? "1.2.".toList = none ∧ readTrimmed? "1".toList = none := by decide

end SdkVersion

end Mediation
