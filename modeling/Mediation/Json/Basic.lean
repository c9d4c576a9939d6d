/-
JSON values. An object is what a text says of it: its members in the order written, a name possibly
more than once. `Json.settle` gives the value that a program holds: names once, the last writing of
each, in increasing order.
-/
import Mediation.Dict

namespace Mediation

/-- A JSON value as written. Whole numbers that fit 64 bits are kept apart from binary64 numbers. -/
inductive Json where
  | null
  | bool (b : Bool)
  | int (n : Int)
  | float (x : Float)
  | str (s : String)
  | arr (items : List Json)
  | obj (members : List (String × Json))
  /-- Well-formed text that names no value: a number out of range, a string that is no text, or
  nesting beyond the limit. Only a reader that ignores it gets past it. -/
  | unreadable

namespace Json

instance : Inhabited Json := ⟨null⟩

/-! ## Equality -/

mutual

def same : Json → Json → Bool
  | .null, .null => true
  | .bool a, .bool b => a == b
  | .int a, .int b => a == b
  | .float a, .float b => decide (a = b)
  | .str a, .str b => a == b
  | .arr a, .arr b => sameItems a b
  | .obj a, .obj b => sameMembers a b
  | .unreadable, .unreadable => true
  | _, _ => false

def sameItems : List Json → List Json → Bool
  | [], [] => true
  | a :: r, b :: r' => same a b && sameItems r r'
  | _, _ => false

def sameMembers : List (String × Json) → List (String × Json) → Bool
  | [], [] => true
  | (n, a) :: r, (n', b) :: r' => n == n' && same a b && sameMembers r r'
  | _, _ => false

end

mutual

theorem eq_of_same : ∀ {a b : Json}, same a b = true → a = b := by
  intro a b h
  match a, b with
  | .null, .null => rfl
  | .bool a, .bool b => simpa [same] using h
  | .int a, .int b => simpa [same] using h
  | .float a, .float b => simpa [same] using h
  | .str a, .str b => simpa [same] using h
  | .arr a, .arr b => exact congrArg _ (eq_of_sameItems h)
  | .obj a, .obj b => exact congrArg _ (eq_of_sameMembers h)
  | .unreadable, .unreadable => rfl

theorem eq_of_sameItems : ∀ {a b : List Json}, sameItems a b = true → a = b := by
  intro a b h
  match a, b with
  | [], [] => rfl
  | a :: r, b :: r' =>
    simp only [sameItems, Bool.and_eq_true] at h
    rw [eq_of_same h.1, eq_of_sameItems h.2]

theorem eq_of_sameMembers : ∀ {a b : List (String × Json)}, sameMembers a b = true → a = b := by
  intro a b h
  match a, b with
  | [], [] => rfl
  | (n, a) :: r, (n', b) :: r' =>
    simp only [sameMembers, Bool.and_eq_true, beq_iff_eq] at h
    rw [h.1.1, eq_of_same h.1.2, eq_of_sameMembers h.2]

end

mutual

theorem same_self : ∀ a : Json, same a a = true
  | .null | .unreadable => rfl
  | .bool _ | .int _ | .float _ | .str _ => by simp [same]
  | .arr a => same_self_items a
  | .obj a => same_self_members a

theorem same_self_items : ∀ a : List Json, sameItems a a = true
  | [] => rfl
  | a :: r => by simp [sameItems, same_self a, same_self_items r]

theorem same_self_members : ∀ a : List (String × Json), sameMembers a a = true
  | [] => rfl
  | (n, a) :: r => by simp [sameMembers, same_self a, same_self_members r]

end

instance : DecidableEq Json := fun a b =>
  if h : same a b = true then isTrue (eq_of_same h) else isFalse fun e => h (e ▸ same_self a)

/-! ## The value held -/

/-- The object with these members, each name once. -/
def ofDict (d : Dict String Json) : Json := .obj d.entries

mutual

/-- The value that a program holds for what was written: of members with one name the last stays,
and the names come in increasing order. None if a part is unreadable. -/
def settle : Json → Option Json
  | .arr items => (settleItems items).map .arr
  | .obj members => (settleMembers members).map fun ms => ofDict (Dict.ofList ms)
  | .unreadable => none
  | v => some v

def settleItems : List Json → Option (List Json)
  | [] => some []
  | v :: r =>
    match settle v, settleItems r with
    | some v, some r => some (v :: r)
    | _, _ => none

def settleMembers : List (String × Json) → Option (List (String × Json))
  | [] => some []
  | (n, v) :: r =>
    match settle v, settleMembers r with
    | some v, some r => some ((n, v) :: r)
    | _, _ => none

end

/-- The members of an object, names once. -/
def dict? : Json → Option (Dict String Json)
  | .obj members => some (Dict.ofList members)
  | _ => none

/-- The held value of a text that must be an object. -/
def settleObject (v : Json) : Option (Dict String Json) := v.settle.bind dict?

def str? : Json → Option String
  | .str s => some s
  | _ => none

/-- Numeric value of any number, whole or not. -/
def number? : Json → Option Float
  | .int n => some (Float.ofInt n)
  | .float x => some x
  | _ => none

end Json

end Mediation
