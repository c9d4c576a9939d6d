/-
Payloads of ad events. A row has one as soon as its extension is the text of an object, and then every
column of the row that is no object stands in it under its own name: what an extension adds has a path,
and no name of a column has a separator in it.
-/
import Mathlib.Data.List.Infix
import Mediation.Event.AdEvent

namespace Mediation

/-! ## Values that can be read -/

namespace Json

mutual

/-- Every part of a value names a value: numbers are in range, strings are texts, and the nesting is
within the limit. -/
def Readable : Json → Prop
  | .unreadable => False
  | .arr items => ReadableItems items
  | .obj members => ReadableMembers members
  | _ => True

def ReadableItems : List Json → Prop
  | [] => True
  | v :: r => Readable v ∧ ReadableItems r

def ReadableMembers : List (String × Json) → Prop
  | [] => True
  | (_, v) :: r => Readable v ∧ ReadableMembers r

end

mutual

theorem isSome_settle_iff : ∀ v : Json, v.settle.isSome ↔ v.Readable
  | .null | .bool _ | .int _ | .float _ | .str _ | .unreadable => by simp [settle, Readable]
  | .arr items => by simp [settle, Readable, isSome_settleItems_iff items]
  | .obj members => by simp [settle, Readable, isSome_settleMembers_iff members]

theorem isSome_settleItems_iff : ∀ items : List Json, (settleItems items).isSome ↔ ReadableItems items
  | [] => by simp [settleItems, ReadableItems]
  | v :: r => by
    rw [settleItems, ReadableItems, ← isSome_settle_iff v, ← isSome_settleItems_iff r]
    cases settle v <;> cases settleItems r <;> simp

theorem isSome_settleMembers_iff : ∀ members : List (String × Json),
    (settleMembers members).isSome ↔ ReadableMembers members
  | [] => by simp [settleMembers, ReadableMembers]
  | (_, v) :: r => by
    rw [settleMembers, ReadableMembers, ← isSome_settle_iff v, ← isSome_settleMembers_iff r]
    cases settle v <;> cases settleMembers r <;> simp

end

/-- What can be held as an object is an object that can be read. -/
theorem isSome_settleObject_iff (v : Json) :
    v.settleObject.isSome ↔ ∃ members, v = .obj members ∧ v.Readable := by
  unfold settleObject
  rw [← isSome_settle_iff]
  cases v with
  | obj members =>
    rw [settle]
    cases settleMembers members <;> simp [dict?, ofDict]
  | arr items =>
    rw [settle]
    cases settleItems items <;> simp [dict?]
  | _ => simp [settle, dict?]

end Json

namespace Event

/-! ## Extensions -/

/-- A text is nothing, or the text of an object. -/
def NamesObject (ext : String) : Prop :=
  ext = "" ∨ ∃ members, Json.parse ext = some (.obj members) ∧ (Json.obj members).Readable

theorem namesObject_iff {ext : String} :
    NamesObject ext ↔ ext = "" ∨ ((Json.parse ext).bind Json.settleObject).isSome := by
  unfold NamesObject
  refine or_congr_right ?_
  rcases Json.parse ext with _ | v
  · simp
  · rw [Option.bind_some, Json.isSome_settleObject_iff]
    constructor
    · rintro ⟨members, ⟨⟩, h⟩
      exact ⟨members, rfl, h⟩
    · rintro ⟨members, rfl, h⟩
      exact ⟨members, rfl, h⟩

instance {ext : String} : Decidable (NamesObject ext) := decidable_of_iff _ namesObject_iff.symm

theorem parseExt_of_namesObject {ext : String} (h : NamesObject ext) : ∃ d, parseExt ext = .ok d := by
  unfold parseExt
  rcases namesObject_iff.1 h with rfl | h
  · exact ⟨_, rfl⟩
  · split
    · exact ⟨_, rfl⟩
    · obtain ⟨d, hd⟩ := Option.isSome_iff_exists.1 h
      rw [hd]
      exact ⟨d, rfl⟩

theorem parseExt_of_not_namesObject {ext : String} (h : ¬ NamesObject ext) :
    parseExt ext = .error (.event "unmarshal ext") := by
  rw [namesObject_iff, not_or, Option.not_isSome_iff_eq_none] at h
  unfold parseExt
  rw [if_neg (by simpa using h.1), h.2]

/-! ## Flat payloads -/

/-- A path goes on from another one. -/
def Below (path longer : String) : Prop := ∃ rest, longer = path ++ "__" ++ rest

theorem joinPath_of_ne {path part : String} (h : path ≠ "") : joinPath path part = path ++ "__" ++ part := by
  unfold joinPath
  rw [if_neg (by simpa using h)]

mutual

/-- The leaves of a value are the value itself or go on from its path. -/
theorem leaf_of_mem_leavesAt {path : String} (hpath : path ≠ "") {leaf : String × Json} :
    ∀ {v : Json}, leaf ∈ leavesAt path v → leaf = (path, v) ∨ Below path leaf.1
  | .obj _, h => .inr (below_of_mem_leavesOf hpath h)
  | .null, h | .bool _, h | .int _, h | .float _, h | .str _, h | .arr _, h | .unreadable, h =>
    .inl (List.mem_singleton.1 h)

theorem below_of_mem_leavesOf {path : String} (hpath : path ≠ "") {leaf : String × Json} :
    ∀ {members : List (String × Json)}, leaf ∈ leavesOf path members → Below path leaf.1
  | [], h => absurd h List.not_mem_nil
  | (n, v) :: r, h => by
    rw [leavesOf, joinPath_of_ne hpath] at h
    rcases List.mem_append.1 h with h | h
    · have hne : path ++ "__" ++ n ≠ "" := by simp [hpath]
      rcases leaf_of_mem_leavesAt hne h with rfl | ⟨rest, hrest⟩
      · exact ⟨n, rfl⟩
      · exact ⟨n ++ "__" ++ rest, by rw [hrest]; simp only [String.append_assoc]⟩
    · exact below_of_mem_leavesOf hpath h

end

theorem leavesAt_eq_singleton {path : String} {v : Json} (hv : ∀ members, v ≠ .obj members) :
    leavesAt path v = [(path, v)] := by
  cases v with
  | obj members => exact absurd rfl (hv members)
  | _ => rfl

/-- A leaf of an object is one of its members, or is below one. -/
theorem mem_leavesOf_root {members : List (String × Json)} (hnames : ∀ m ∈ members, m.1 ≠ "")
    {leaf : String × Json} (h : leaf ∈ leavesOf "" members) :
    leaf ∈ members ∨ ∃ m ∈ members, Below m.1 leaf.1 := by
  induction members with
  | nil => cases h
  | cons m members ih =>
    obtain ⟨n, v⟩ := m
    rw [leavesOf] at h
    rcases List.mem_append.1 h with h | h
    · rcases leaf_of_mem_leavesAt (hnames _ List.mem_cons_self) h with rfl | hbelow
      · exact .inl List.mem_cons_self
      · exact .inr ⟨_, List.mem_cons_self, hbelow⟩
    · rcases ih (fun m hm => hnames m (List.mem_cons_of_mem _ hm)) h with h | ⟨m, hm, hbelow⟩
      · exact .inl (List.mem_cons_of_mem _ h)
      · exact .inr ⟨m, List.mem_cons_of_mem _ hm, hbelow⟩

theorem member_mem_leavesOf_root {members : List (String × Json)} {n : String} {v : Json}
    (h : (n, v) ∈ members) (hv : ∀ members, v ≠ .obj members) : (n, v) ∈ leavesOf "" members := by
  induction members with
  | nil => cases h
  | cons m members ih =>
    obtain ⟨n', v'⟩ := m
    rw [leavesOf]
    rcases List.mem_cons.1 h with h | h
    · cases h
      refine List.mem_append_left _ ?_
      rw [leavesAt_eq_singleton hv]
      exact List.mem_singleton_self _
    · exact List.mem_append_right _ (ih h)

/-- A member that is no object stands in the flat payload under its own name, if no separator is in the
name and no member is without one. -/
theorem get?_flatten {d : Dict String Json} {k : String} {v : Json} (hk : ∀ path, ¬ Below path k)
    (hnames : "" ∉ d.keys) (h : d.get? k = some v) (hv : ∀ members, v ≠ .obj members) :
    (flatten d).get? k = some v := by
  unfold flatten
  rw [Dict.get?_ofList]
  refine Dict.lookupEntry_eq_some_of_unique ?_ fun leaf hleaf hname => ?_
  · exact List.mem_reverse.2 (member_mem_leavesOf_root (Dict.get?_eq_some_iff.1 h) hv)
  · have hnames' : ∀ m ∈ d.entries, m.1 ≠ "" := fun m hm hempty =>
      hnames (hempty ▸ List.mem_map_of_mem hm)
    rcases mem_leavesOf_root hnames' (List.mem_reverse.1 hleaf) with hmem | ⟨m, -, hbelow⟩
    · obtain ⟨n, w⟩ := leaf
      cases hname
      rw [Dict.get?_eq_some_iff.2 hmem] at h
      exact Option.some.inj h
    · exact absurd (hname ▸ hbelow) (hk m.1)

theorem not_below_of_not_isInfix {k : String} (hk : ¬ "__".toList <:+: k.toList) (path : String) :
    ¬ Below path k := by
  rintro ⟨rest, rfl⟩
  exact hk ⟨path.toList, rest.toList, by simp⟩

end Event

namespace AdEvent

/-! ## Columns -/

variable (e : AdEvent) (ext : Dict String Json)

/-- The columns that say what a row is about. -/
theorem get?_columns : (e.columns ext).get? "event_type" = some (.str e.eventType) ∧
    (e.columns ext).get? "demand_id" = some (.str e.demandId) ∧
    (e.columns ext).get? "status" = some (.str e.status) := by
  unfold columns
  rw [Dict.get?_ofList, Dict.get?_ofList, Dict.get?_ofList]
  exact ⟨rfl, rfl, rfl⟩

theorem empty_not_mem_keys_columns : "" ∉ (e.columns ext).keys := by
  rw [Dict.mem_keys_iff]
  unfold columns Dict.contains
  rw [Dict.get?_ofList]
  exact Bool.false_ne_true

end AdEvent

end Mediation
