/-
Reading JSON text, given as bytes, by the strict grammar: blanks are space, tab, line feed and
carriage return; nothing follows the value; control characters in a string are escaped. A part that
is well-formed and yet names no value becomes `Json.unreadable` and does not stop the reader: a
number out of range, a string with half a surrogate pair or with bytes that are no UTF-8, and
everything nested more than 127 deep.
-/
import Mediation.Json.Numeral

namespace Mediation.Json

/-- Arrays and objects nested deeper than this are unreadable. -/
def nestingLimit : Nat := 127

def isBlank (b : UInt8) : Bool := b == 0x20 || b == 0x0A || b == 0x0D || b == 0x09

def skipBlank (bs : List UInt8) : List UInt8 := bs.dropWhile isBlank

/-! ## Strings -/

/-- A piece of a string as written. -/
inductive Piece where
  | byte (b : UInt8)
  /-- A UTF-16 code unit written as `\uXXXX`. -/
  | unit (n : Nat)
  deriving DecidableEq, Repr

/-- The byte that a one-letter escape stands for. -/
def escaped? (b : UInt8) : Option UInt8 :=
  if b == 0x22 || b == 0x5C || b == 0x2F then some b  -- quote, backslash, slash
  else if b == 0x62 then some 0x08
  else if b == 0x66 then some 0x0C
  else if b == 0x6E then some 0x0A
  else if b == 0x72 then some 0x0D
  else if b == 0x74 then some 0x09
  else none

def hexDigit? (b : UInt8) : Option Nat :=
  let n := b.toNat
  if 0x30 ≤ n ∧ n ≤ 0x39 then some (n - 0x30)
  else if 0x61 ≤ n ∧ n ≤ 0x66 then some (n - 0x61 + 10)
  else if 0x41 ≤ n ∧ n ≤ 0x46 then some (n - 0x41 + 10)
  else none

def hexUnit? (a b c d : UInt8) : Option Nat :=
  match hexDigit? a, hexDigit? b, hexDigit? c, hexDigit? d with
  | some a, some b, some c, some d => some (a * 4096 + b * 256 + c * 16 + d)
  | _, _, _, _ => none

/-- The pieces up to the closing quote, and what follows it. -/
def readPieces (acc : List Piece) : List UInt8 → Option (List Piece × List UInt8)
  | [] => none
  | b :: r =>
    if b == 0x22 then some (acc.reverse, r)
    else if b.toNat < 0x20 then none
    else if b != 0x5C then readPieces (.byte b :: acc) r
    else
      match r with
      | [] => none
      | e :: r =>
        if e == 0x75 then
          match r with
          | a :: b :: c :: d :: r =>
            match hexUnit? a b c d with
            | some n => readPieces (.unit n :: acc) r
            | none => none
          | _ => none
        else
          match escaped? e with
          | some c => readPieces (.byte c :: acc) r
          | none => none

def isHighSurrogate (n : Nat) : Bool := 0xD800 ≤ n && n < 0xDC00

def isLowSurrogate (n : Nat) : Bool := 0xDC00 ≤ n && n < 0xE000

/-- The bytes that the pieces stand for; a surrogate counts only in a pair. -/
def pieceBytes? : List Piece → Option (List UInt8)
  | [] => some []
  | .byte b :: r => (pieceBytes? r).map (b :: ·)
  | .unit n :: r =>
    if isHighSurrogate n then
      match r with
      | .unit m :: r =>
        if isLowSurrogate m then
          let c := Char.ofNat (0x10000 + (n - 0xD800) * 0x400 + (m - 0xDC00))
          (pieceBytes? r).map (String.utf8EncodeChar c ++ ·)
        else none
      | _ => none
    else if isLowSurrogate n then none
    else (pieceBytes? r).map (String.utf8EncodeChar (Char.ofNat n) ++ ·)

/-- The text that the pieces stand for. -/
def pieceText? (ps : List Piece) : Option String :=
  (pieceBytes? ps).bind fun bs => String.fromUTF8? ⟨bs.toArray⟩

/-! ## Numbers -/

def digit? (b : UInt8) : Option Nat :=
  if 0x30 ≤ b.toNat ∧ b.toNat ≤ 0x39 then some (b.toNat - 0x30) else none

/-- A run of digits, and what follows it. -/
def readDigits : List UInt8 → List Nat × List UInt8
  | [] => ([], [])
  | b :: r =>
    match digit? b with
    | some d => let (ds, rest) := readDigits r; (d :: ds, rest)
    | none => ([], b :: r)

/-- A run of digits that is not empty. -/
def readDigits1 (bs : List UInt8) : Option (List Nat × List UInt8) :=
  match readDigits bs with
  | ([], _) => none
  | found => some found

/-- The whole part of a number: no leading zero before another digit. -/
def readWhole (bs : List UInt8) : Option (List Nat × List UInt8) :=
  match readDigits1 bs with
  | some (0 :: _ :: _, _) => none
  | found => found

def readFraction : List UInt8 → Option (Option (List Nat) × List UInt8)
  | 0x2E :: r => (readDigits1 r).map fun (ds, r) => (some ds, r)
  | bs => some (none, bs)

def readExponent : List UInt8 → Option (Option (Bool × List Nat) × List UInt8)
  | [] => some (none, [])
  | b :: r =>
    if b == 0x65 || b == 0x45 then
      let (negative, r) :=
        match r with
        | 0x2B :: r => (false, r)
        | 0x2D :: r => (true, r)
        | r => (false, r)
      (readDigits1 r).map fun (ds, r) => (some (negative, ds), r)
    else some (none, b :: r)

def readNumeral (bs : List UInt8) : Option (Numeral × List UInt8) := do
  let (negative, bs) :=
    match bs with
    | 0x2D :: r => (true, r)
    | bs => (false, bs)
  let (whole, bs) ← readWhole bs
  let (fraction, bs) ← readFraction bs
  let (exponent, bs) ← readExponent bs
  some (⟨negative, whole, fraction, exponent⟩, bs)

/-! ## Values -/

/-- An array or object at nesting depth `depth` (one for the outermost). -/
def nested (depth : Nat) (v : Json) : Json := if depth ≤ nestingLimit then v else .unreadable

/-- The object with these members; unreadable if a name is no text. -/
def objectOf (members : List (Option String × Json)) : Json :=
  match members.mapM (fun m => m.1.map fun n => (n, m.2)) with
  | some ms => .obj ms
  | none => .unreadable

/-- Drops a literal from the front. -/
def expect (literal : List UInt8) (bs : List UInt8) : Option (List UInt8) :=
  if literal.isPrefixOf bs then some (bs.drop literal.length) else none

mutual

/-- A value, after blanks, inside `depth` arrays and objects. -/
def readValue (depth : Nat) : (fuel : Nat) → List UInt8 → Option (Json × List UInt8)
  | 0, _ => none
  | fuel + 1, bs =>
    match skipBlank bs with
    | [] => none
    | b :: r =>
      if b == 0x22 then
        (readPieces [] r).map fun (ps, r) =>
          (match pieceText? ps with
            | some s => .str s
            | none => .unreadable, r)
      else if b == 0x5B then
        match skipBlank r with
        | 0x5D :: r => some (nested (depth + 1) (.arr []), r)
        | r => (readItems (depth + 1) [] fuel r).map fun (vs, r) => (nested (depth + 1) (.arr vs), r)
      else if b == 0x7B then
        match skipBlank r with
        | 0x7D :: r => some (nested (depth + 1) (.obj []), r)
        | r => (readMembers (depth + 1) [] fuel r).map fun (ms, r) => (nested (depth + 1) (objectOf ms), r)
      else if b == 0x6E then (expect [0x75, 0x6C, 0x6C] r).map (.null, ·)
      else if b == 0x74 then (expect [0x72, 0x75, 0x65] r).map (.bool true, ·)
      else if b == 0x66 then (expect [0x61, 0x6C, 0x73, 0x65] r).map (.bool false, ·)
      else (readNumeral (b :: r)).map fun (n, r) => (n.toJson, r)

/-- The items of an array from the next one on, up to its closing bracket. -/
def readItems (depth : Nat) (acc : List Json) : (fuel : Nat) → List UInt8 → Option (List Json × List UInt8)
  | 0, _ => none
  | fuel + 1, bs =>
    match readValue depth fuel bs with
    | none => none
    | some (v, r) =>
      match skipBlank r with
      | 0x2C :: r => readItems depth (v :: acc) fuel r
      | 0x5D :: r => some ((v :: acc).reverse, r)
      | _ => none

/-- The members of an object from the next one on, up to its closing brace. -/
def readMembers (depth : Nat) (acc : List (Option String × Json)) :
    (fuel : Nat) → List UInt8 → Option (List (Option String × Json) × List UInt8)
  | 0, _ => none
  | fuel + 1, bs =>
    match skipBlank bs with
    | 0x22 :: r =>
      match readPieces [] r with
      | none => none
      | some (name, r) =>
        match skipBlank r with
        | 0x3A :: r =>
          match readValue depth fuel r with
          | none => none
          | some (v, r) =>
            let acc := (pieceText? name, v) :: acc
            match skipBlank r with
            | 0x2C :: r => readMembers depth acc fuel r
            | 0x7D :: r => some (acc.reverse, r)
            | _ => none
        | _ => none
    | _ => none

end

/-- The one value that the bytes are a text of. Each step of the reader takes a byte or goes one level
down, so twice their number of steps is enough. -/
def read (bs : List UInt8) : Option Json :=
  match readValue 0 (2 * bs.length + 2) bs with
  | some (v, r) => if (skipBlank r).isEmpty then some v else none
  | none => none

/-- Reads a text. -/
def parse (s : String) : Option Json := read s.toUTF8.data.toList

end Mediation.Json
