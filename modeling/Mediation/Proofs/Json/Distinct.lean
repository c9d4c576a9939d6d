/-
Objects that are written member by member. As long as no name is written twice, it does not matter that nothing
sorts the members: what is written settles into the record of the same members, and is read like it.
-/
import Mediation.Proofs.Json.Recoding

namespace Mediation.Json

/-! ## Distinct names -/

mutual

/-- Whether no object, at any depth, has a name twice. -/
def distinct : Json → Bool
  | .arr items => distinctItems items
  | .obj members => (members.map (·.1)).Nodup && distinctMembers members
  | _ => true

def distinctItems : List Json → Bool
  | [] => true
  | v :: r => distinct v && distinctItems r

def distinctMembers : List (String × Json) → Bool
  | [] => true
  | (_, v) :: r => distinct v && distinctMembers r

end

theorem distinctItems_iff {l : List Json} : distinctItems l ↔ ∀ v ∈ l, v.distinct := by
  induction l with
  | nil => simp [distinctItems]
  | cons v l ih => simp [distinctItems, ih]

theorem distinctMembers_iff {l : List (String × Json)} : distinctMembers l ↔ ∀ m ∈ l, m.2.distinct := by
  induction l with
  | nil => simp [distinctMembers]
  | cons m l ih => simp [distinctMembers, ih]

theorem distinct_arr {l : List Json} : (arr l).distinct ↔ ∀ v ∈ l, v.distinct := by
  rw [← distinctItems_iff, distinct]

theorem distinct_obj {l : List (String × Json)} :
    (obj l).distinct ↔ (l.map (·.1)).Nodup ∧ ∀ m ∈ l, m.2.distinct := by
  rw [← distinctMembers_iff, distinct, Bool.and_eq_true, decide_eq_true_iff]

/-- The members of a value that is held have distinct names: it is the record of its members. -/
theorem IsValue.nodup {members : List (String × Json)} (h : (obj members).IsValue) :
    (members.map (·.1)).Nodup := by
  obtain ⟨d, rfl⟩ := h.exists_dict
  exact d.nodup_keys

mutual

theorem IsValue.distinct : ∀ {v : Json}, v.IsValue → v.distinct
  | .null, _ | .bool _, _ | .int _, _ | .float _, _ | .str _, _ | .unreadable, _ => rfl
  | .arr _, h => distinct_arr.2 (distinct_of_isValue h.of_mem_arr)
  | .obj _, h => distinct_obj.2 ⟨h.nodup, distinct_of_isValue_members h.of_mem⟩

theorem distinct_of_isValue : ∀ {l : List Json}, (∀ v ∈ l, v.IsValue) → ∀ v ∈ l, v.distinct
  | [], _ => List.forall_mem_nil _
  | _ :: _, h =>
    have ⟨hv, hl⟩ := List.forall_mem_cons.1 h
    List.forall_mem_cons.2 ⟨hv.distinct, distinct_of_isValue hl⟩

theorem distinct_of_isValue_members : ∀ {l : List (String × Json)}, (∀ m ∈ l, m.2.IsValue) →
    ∀ m ∈ l, m.2.distinct
  | [], _ => List.forall_mem_nil _
  | (_, _) :: _, h =>
    have ⟨hv, hl⟩ := List.forall_mem_cons.1 h
    List.forall_mem_cons.2 ⟨hv.distinct, distinct_of_isValue_members hl⟩

end

/-! ## Streams -/

/-- What is written where `w` is held: it settles into it, and no name is written twice. -/
structure Streams (v w : Json) : Prop where
  settled : v.settle = some w
  distinct : v.distinct

theorem streams_self {v : Json} (h : v.IsValue) : Streams v v := ⟨h.settled, h.distinct⟩

theorem streams_arr {α : Type} {f g : α → Json} {l : List α} (h : ∀ a ∈ l, Streams (f a) (g a)) :
    Streams (ofList f l) (ofList g l) := by
  refine ⟨?_, ?_⟩
  · have hsettled : (l.map f).mapM settle = some (l.map g) := by
      rw [List.mapM_map]
      exact mapM_eq_some_map fun a ha => (h a ha).settled
    rw [ofList, settle, settleItems_eq_mapM, hsettled, Option.map_some]
    rfl
  · rw [ofList, distinct_arr, List.forall_mem_map]
    exact fun a ha => (h a ha).distinct

/-- An object streams the record of its members if each of its values is streamed. -/
theorem streams_obj {l l' : List (String × Json)} (hnames : (l.map (·.1)).Nodup)
    (h : List.Forall₂ (fun m m' => m.1 = m'.1 ∧ Streams m.2 m'.2) l l') : Streams (obj l) (record l') := by
  refine ⟨?_, distinct_obj.2 ⟨hnames, ?_⟩⟩
  · have hsettled : settleMembers l = some l' := by
      rw [settleMembers_eq_mapM, mapM_eq_some_iff]
      refine h.imp ?_
      rintro ⟨name, v⟩ ⟨name', v'⟩ ⟨rfl, hv⟩
      dsimp only
      rw [hv.settled, Option.map_some]
    rw [settle, hsettled, Option.map_some]
    rfl
  · clear hnames
    induction h with
    | nil => exact List.forall_mem_nil _
    | cons hm _ ih => exact List.forall_mem_cons.2 ⟨hm.2.distinct, ih⟩

/-! ## Reading -/

theorem lookupEntry_eq_get? {l : List (String × Json)} (h : (l.map (·.1)).Nodup) (name : String) :
    Dict.lookupEntry name l = (Dict.ofList l).get? name := by
  rw [Dict.get?_ofList, Dict.lookupEntry_reverse h]

/-- An object without a name twice has the fields of the record of its members. -/
theorem fields?_obj {l : List (String × Json)} (h : (l.map (·.1)).Nodup) (known : List String) :
    (obj l).fields? known = some (Dict.ofList l).get? := by
  unfold fields?
  dsimp only
  rw [if_pos (distinctKnown_of_nodup h known)]
  exact congrArg some (funext (lookupEntry_eq_get? h))

/-- The same for an open record, which keeps what comes after the fields. -/
theorem openFields?_obj {known : List String} {l : List (String × Json)} {extra : Dict String Json}
    (hnodup : ((l ++ extra.entries).map (·.1)).Nodup) (hnames : ∀ m ∈ l, m.1 ∈ known)
    (hextra : IsExtra known extra) :
    ∃ fs, (obj (l ++ extra.entries)).openFields? known = some (fs, extra) ∧
      ∀ name ∈ known, fs name = (Dict.ofList l).get? name := by
  have hfields : l.filter (fun m => !known.contains m.1) = [] := by
    rw [List.filter_eq_nil_iff]
    intro m hm
    simpa using hnames m hm
  have hkept : extra.entries.filter (fun m => !known.contains m.1) = extra.entries := by
    rw [List.filter_eq_self]
    intro m hm
    simpa using hextra.unknown m hm
  have hsettled : settleMembers extra.entries = some (extra.entries.map id) := by
    rw [settleMembers_eq_mapM]
    refine mapM_eq_some_map fun m hm => ?_
    rw [(hextra.isValue m hm).settled]
    rfl
  refine ⟨(Dict.ofList (l ++ extra.entries)).get?, ?_, fun name hname => ?_⟩
  · unfold openFields?
    dsimp only
    rw [if_pos (distinctKnown_of_nodup hnodup known), List.filter_append, hfields, hkept, List.nil_append,
      hsettled, List.map_id, Option.map_some, Dict.ofList_entries]
    exact congrArg (fun fs : Fields => some (fs, extra)) (funext (lookupEntry_eq_get? hnodup))
  · rw [Dict.get?_ofList_append, Dict.ofList_entries, hextra.get?_eq_none hname, Option.none_or]

end Mediation.Json
