/-
Reading TOML documents: lines with pairs of a key and a value and with headers, comments and empty
lines between them. Lines end with a line feed, which a carriage return may precede. Arrays and inline
tables may be nested, and keys be long, up to a limit.
-/
import Mediation.Toml.Scalar

namespace Mediation.Toml

/-- How deep arrays and inline tables may be nested, and how many parts a key may have. -/
def nestingLimit : Nat := 80

/-! ## Blanks and comments -/

def isSpace (c : Char) : Bool := c == ' ' || c == '\t'

def skipSpace (cs : List Char) : List Char := cs.dropWhile isSpace

/-- Control characters other than the tab, which stand nowhere but in line ends. -/
def isControl (c : Char) : Bool := (c.toNat < 0x20 && c != '\t') || c.toNat == 0x7F

/-- Drops a line end. -/
def newline? : List Char → Option (List Char)
  | '\n' :: cs => some cs
  | '\r' :: '\n' :: cs => some cs
  | _ => none

/-- Drops a comment up to the line end, if there is one. -/
def skipComment : List Char → List Char
  | '#' :: cs => cs.dropWhile fun c => !isControl c
  | cs => cs

/-- Drops the rest of a line in which nothing more may stand. -/
def endOfLine? (cs : List Char) : Option (List Char) :=
  match skipComment (skipSpace cs) with
  | [] => some []
  | cs => newline? cs

/-- Drops spaces and line ends. -/
def skipBlank : (fuel : Nat) → List Char → List Char
  | 0, cs => cs
  | fuel + 1, cs =>
    let cs := skipSpace cs
    match newline? cs with
    | some cs => skipBlank fuel cs
    | none => cs

/-- Drops spaces, comments and line ends. -/
def skipLines : (fuel : Nat) → List Char → List Char
  | 0, cs => cs
  | fuel + 1, cs =>
    let cs := skipSpace cs
    match newline? (skipComment cs) with
    | some cs => skipLines fuel cs
    | none => cs

/-! ## Strings -/

/-- A character by its number in so many hexadecimal digits, and what follows them. -/
def codePoint? (n : Nat) (cs : List Char) : Option (Char × List Char) :=
  let ds := cs.take n
  if ds.length = n then
    (Text.natural? 16 ds).bind fun v =>
      if h : v.isValidChar then some (Char.ofNatAux v h, cs.drop n) else none
  else none

/-- The character that an escape stands for, and what follows it. -/
def escape? : List Char → Option (Char × List Char)
  | 'b' :: cs => some ('\x08', cs)
  | 't' :: cs => some ('\t', cs)
  | 'n' :: cs => some ('\n', cs)
  | 'f' :: cs => some ('\x0C', cs)
  | 'r' :: cs => some ('\r', cs)
  | 'e' :: cs => some ('\x1B', cs)
  | '"' :: cs => some ('"', cs)
  | '\\' :: cs => some ('\\', cs)
  | 'x' :: cs => codePoint? 2 cs
  | 'u' :: cs => codePoint? 4 cs
  | 'U' :: cs => codePoint? 8 cs
  | _ => none

/-- A string between quotes on one line, from behind its first quote on. -/
def basicString (acc : List Char) : (fuel : Nat) → List Char → Option (String × List Char)
  | 0, _ | _, [] => none
  | fuel + 1, c :: cs =>
    if c = '"' then some (String.ofList acc.reverse, cs)
    else if c = '\\' then (escape? cs).bind fun (e, cs) => basicString (e :: acc) fuel cs
    else if isControl c then none
    else basicString (c :: acc) fuel cs

/-- A string between apostrophes on one line, from behind its first apostrophe on. -/
def literalString (acc : List Char) : List Char → Option (String × List Char)
  | [] => none
  | c :: cs =>
    if c = '\'' then some (String.ofList acc.reverse, cs)
    else if isControl c then none
    else literalString (c :: acc) cs

/-- Drops the line end right behind the opening of a string of several lines. -/
def skipFirstNewline (cs : List Char) : List Char := (newline? cs).getD cs

/-- The end of a string of several lines: three quotes, of which up to two more before them belong to
the string. -/
def closing? (quote : Char) (cs : List Char) : Option (List Char × List Char) :=
  let n := (cs.takeWhile (· == quote)).length
  if n < 3 then none
  else
    let extra := min (n - 3) 2
    some (List.replicate extra quote, cs.drop (extra + 3))

/-- Behind a backslash at the end of a line: what follows the blanks and line ends after it. -/
def continued? (cs : List Char) : Option (List Char) :=
  (newline? (skipSpace cs)).map fun cs => skipBlank (cs.length + 1) cs

/-- A string of several lines, with its line ends as they are; escapes count if it is between quotes. -/
def longString (quote : Char) (acc : List Char) : (fuel : Nat) → List Char → Option (String × List Char)
  | 0, _ | _, [] => none
  | fuel + 1, c :: cs =>
    match closing? quote (c :: cs) with
    | some (extra, rest) => some (String.ofList (acc.reverse ++ extra), rest)
    | none =>
      if isControl c && (newline? (c :: cs)).isNone then none
      else if c = '\\' ∧ quote = '"' then
        match continued? cs with
        | some rest => longString quote acc fuel rest
        | none => (escape? cs).bind fun (e, rest) => longString quote (e :: acc) fuel rest
      else longString quote (c :: acc) fuel cs

/-! ## Keys -/

def isBareChar (c : Char) : Bool := c.isAlphanum || c == '_' || c == '-'

/-- One part of a key, and what follows it. -/
def keyPart? : List Char → Option (String × List Char)
  | '"' :: cs => basicString [] (cs.length + 1) cs
  | '\'' :: cs => literalString [] cs
  | cs =>
    let name := cs.takeWhile isBareChar
    if name.isEmpty then none else some (String.ofList name, cs.dropWhile isBareChar)

/-- At most so many parts of a key, with dots between them. -/
def keyParts? : (limit : Nat) → List Char → Option (List String × List Char)
  | 0, _ => none
  | limit + 1, cs =>
    (keyPart? (skipSpace cs)).bind fun (part, cs) =>
      match skipSpace cs with
      | '.' :: cs => (keyParts? limit cs).map fun (parts, cs) => (part :: parts, cs)
      | cs => some ([part], cs)

/-- A key, and what follows it and the spaces behind it. -/
def key? (cs : List Char) : Option (List String × List Char) := keyParts? nestingLimit cs

/-! ## Values -/

/-- Characters of values that are written without quotes. -/
def isScalarChar (c : Char) : Bool :=
  c.isAlphanum || c == '_' || c == '-' || c == '+' || c == '.' || c == ':'

/-- Whether a date and a blank are followed by a time of day. -/
def timeFollows (date rest : List Char) : Bool :=
  (date? date).isSome
    && match rest with
      | ' ' :: a :: b :: ':' :: _ => a.isDigit && b.isDigit
      | _ => false

/-- A value without quotes, and what follows it. -/
def readScalar (cs : List Char) : Option (Toml × List Char) :=
  let word := cs.takeWhile isScalarChar
  let rest := cs.dropWhile isScalarChar
  if timeFollows word rest then
    let rest := rest.drop 1
    (scalar? (word ++ ' ' :: rest.takeWhile isScalarChar)).map fun v => (v, rest.dropWhile isScalarChar)
  else (scalar? word).map fun v => (v, rest)

mutual

/-- A value in which arrays and inline tables are nested at most `depth` deep, and what follows it. -/
def readValue (depth : Nat) : (fuel : Nat) → List Char → Option (Toml × List Char)
  | 0, _ => none
  | fuel + 1, cs =>
    match cs with
    | '"' :: '"' :: '"' :: cs =>
      (longString '"' [] (cs.length + 1) (skipFirstNewline cs)).map fun (s, cs) => (.text s, cs)
    | '\'' :: '\'' :: '\'' :: cs =>
      (longString '\'' [] (cs.length + 1) (skipFirstNewline cs)).map fun (s, cs) => (.text s, cs)
    | '"' :: cs => (basicString [] (cs.length + 1) cs).map fun (s, cs) => (.text s, cs)
    | '\'' :: cs => (literalString [] cs).map fun (s, cs) => (.text s, cs)
    | '[' :: cs =>
      match depth with
      | 0 => none
      | depth + 1 => (readItems depth [] fuel cs).map fun (vs, cs) => (.array vs, cs)
    | '\x7b' :: cs =>
      match depth with
      | 0 => none
      | depth + 1 =>
        (readPairs depth [] fuel cs).bind fun (ps, cs) => (inlineTable? ps).map fun t => (t, cs)
    | cs => readScalar cs

/-- The items of an array up to its closing bracket; a comma may stand behind the last one. -/
def readItems (depth : Nat) (acc : List Toml) :
    (fuel : Nat) → List Char → Option (List Toml × List Char)
  | 0, _ => none
  | fuel + 1, cs =>
    match skipLines cs.length cs with
    | ']' :: cs => some (acc.reverse, cs)
    | cs =>
      match readValue depth fuel cs with
      | none => none
      | some (v, cs) =>
        match skipLines cs.length cs with
        | ',' :: cs => readItems depth (v :: acc) fuel cs
        | ']' :: cs => some ((v :: acc).reverse, cs)
        | _ => none

/-- The pairs of an inline table up to its closing brace; a comma may stand behind the last one. -/
def readPairs (depth : Nat) (acc : List (List String × Toml)) :
    (fuel : Nat) → List Char → Option (List (List String × Toml) × List Char)
  | 0, _ => none
  | fuel + 1, cs =>
    match skipLines cs.length cs with
    | '\x7d' :: cs => some (acc.reverse, cs)
    | cs =>
      match readPair depth (fun cs => skipLines cs.length cs) fuel cs with
      | none => none
      | some (p, cs) =>
        match skipLines cs.length cs with
        | ',' :: cs => readPairs depth (p :: acc) fuel cs
        | '\x7d' :: cs => some ((p :: acc).reverse, cs)
        | _ => none

/-- A key and its value; `skip` drops what may stand on either side of the sign between them. -/
def readPair (depth : Nat) (skip : List Char → List Char) :
    (fuel : Nat) → List Char → Option ((List String × Toml) × List Char)
  | 0, _ => none
  | fuel + 1, cs =>
    (key? cs).bind fun (key, cs) =>
      match skip cs with
      | '=' :: cs => (readValue depth fuel (skip cs)).map fun (v, cs) => ((key, v), cs)
      | _ => none

end

/-! ## Documents -/

/-- A statement, and what follows it on its line. -/
def readStatement (cs : List Char) : Option (Statement × List Char) :=
  match cs with
  | '[' :: '[' :: cs =>
    match key? cs with
    | some (path, ']' :: ']' :: cs) => some (.nextHeader path, cs)
    | _ => none
  | '[' :: cs =>
    match key? cs with
    | some (path, ']' :: cs) => some (.header path, cs)
    | _ => none
  | cs => (readPair nestingLimit skipSpace (2 * cs.length + 2) cs).map fun ((key, v), cs) => (.pair key v, cs)

/-- The statements of a document. -/
def readStatements (acc : List Statement) : (fuel : Nat) → List Char → Option (List Statement)
  | 0, _ => none
  | fuel + 1, cs =>
    match skipLines cs.length cs with
    | [] => some acc.reverse
    | cs =>
      match readStatement (skipComment cs) with
      | none => if (skipComment cs).isEmpty then some acc.reverse else none
      | some (s, cs) => (endOfLine? cs).bind (readStatements (s :: acc) fuel)

/-- The tables of a document. A byte order mark in front does not count. -/
def parse (s : String) : Option Entries :=
  let cs :=
    match s.toList with
    | '\uFEFF' :: cs => cs
    | cs => cs
  (readStatements [] (cs.length + 1) cs).bind document?

end Mediation.Toml
