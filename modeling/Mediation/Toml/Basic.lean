/-
TOML documents as tables. A table remembers how it came about, because that decides what may still be
added to it: an inline table is closed, one that has had its header gets no second one, and one that
a dotted key has made or entered gets none at all.
-/

namespace Mediation

namespace Toml

/-- How a table came about. -/
inductive Origin where
  /-- Written between braces. -/
  | inline
  /-- Named in the header of a table inside it. -/
  | implied
  /-- Named by a header of its own. -/
  | header
  /-- Named in front of a dot in a key, whether or not a header inside it had implied it before. -/
  | dotted
  deriving DecidableEq, Repr

end Toml

/-- A value of a document. Dates and times are texts. -/
inductive Toml where
  | text (s : String)
  | integer (n : Int)
  | float (x : Float)
  | boolean (b : Bool)
  | array (items : List Toml)
  /-- An array of tables, each under a header of its own; never empty. -/
  | tables (items : List (List (String × Toml)))
  | table (origin : Toml.Origin) (entries : List (String × Toml))

namespace Toml

/-- Entries in the order written, each name once. -/
abbrev Entries := List (String × Toml)

def find? (k : String) : Entries → Option Toml
  | [] => none
  | e :: r => if k = e.1 then some e.2 else find? k r

/-- Changes the value of a name. -/
def replace (k : String) (v : Toml) (es : Entries) : Entries :=
  es.map fun e => if e.1 = k then (k, v) else e

/-! ## Adding to tables -/

/-- Adds the value of a key, whose dots name tables. None if something stands there already, or if a
table is closed to dotted keys. Of an array of tables a key may pass through the last one, though it
adds nothing to that table itself. -/
def addPair (v : Toml) : List String → Entries → Option Entries
  | [], _ => none
  | [k], es => if (find? k es).isSome then none else some (es ++ [(k, v)])
  | k :: k' :: ks, es =>
    match find? k es with
    | none => (addPair v (k' :: ks) []).map fun sub => es ++ [(k, .table .dotted sub)]
    | some (.table .dotted sub) | some (.table .implied sub) =>
      (addPair v (k' :: ks) sub).map fun sub => replace k (.table .dotted sub) es
    | some (.tables items) =>
      if ks.isEmpty then none
      else
        items.getLast?.bind fun last =>
          (addPair v (k' :: ks) last).map fun last => replace k (.tables (items.dropLast ++ [last])) es
    | some _ => none

/-- Works on the table at a path; of an array of tables that is the last one. Tables that are missing
on the way are made. -/
def atPath (f : Entries → Option Entries) : List String → Entries → Option Entries
  | [], es => f es
  | k :: ks, es =>
    match find? k es with
    | none => (atPath f ks []).map fun sub => es ++ [(k, .table .implied sub)]
    | some (.table .inline _) => none
    | some (.table origin sub) => (atPath f ks sub).map fun sub => replace k (.table origin sub) es
    | some (.tables items) =>
      items.getLast?.bind fun last =>
        (atPath f ks last).map fun last => replace k (.tables (items.dropLast ++ [last])) es
    | some _ => none

/-- Opens the table of a header. -/
def openTable (k : String) (es : Entries) : Option Entries :=
  match find? k es with
  | none => some (es ++ [(k, .table .header [])])
  | some (.table .implied sub) => some (replace k (.table .header sub) es)
  | some _ => none

/-- Opens the next table of an array of tables. -/
def openNext (k : String) (es : Entries) : Option Entries :=
  match find? k es with
  | none => some (es ++ [(k, .tables [[]])])
  | some (.tables items) => some (replace k (.tables (items ++ [[]])) es)
  | some _ => none

/-! ## Documents -/

/-- A line of a document, or several that belong together. -/
inductive Statement where
  | pair (key : List String) (v : Toml)
  | header (path : List String)
  | nextHeader (path : List String)

/-- A document in the making: its tables, and the path of the one that is open. -/
structure Draft where
  root : Entries
  path : List String

/-- Opens a table, given what opens it in the table around it. -/
def Draft.open? (d : Draft) (make : String → Entries → Option Entries) (path : List String) :
    Option Draft :=
  path.getLast?.bind fun k => (atPath (make k) path.dropLast d.root).map fun root => ⟨root, path⟩

def Draft.add? (d : Draft) : Statement → Option Draft
  | .pair key v => (atPath (addPair v key) d.path d.root).map fun root => ⟨root, d.path⟩
  | .header path => d.open? openTable path
  | .nextHeader path => d.open? openNext path

/-- The tables that statements describe. None if they contradict each other. -/
def document? (statements : List Statement) : Option Entries :=
  (statements.foldlM Draft.add? ⟨[], []⟩).map (·.root)

/-- An inline table. -/
def inlineTable? (pairs : List (List String × Toml)) : Option Toml :=
  (pairs.foldlM (fun es p => addPair p.2 p.1 es) []).map (.table .inline)

end Toml

end Mediation
