/-
What a flat payload has of the object that it is made from. Every value in the object that is no object itself is a
leaf, and the path of names to it is joined to its name in the payload. Where several paths join to one name, the
last of them stays, in depth-first order with the names sorted; any other leaf is kept as it is.
-/
import Mediation.Proofs.Event.Payload
import Mediation.Proofs.Json.Value

namespace Mediation

/-! ## Leaves -/

namespace Json

/-- A path of names leads to a leaf: a value that is no object, an array for instance. -/
inductive LeadsTo : Json → List String → Json → Prop
  | leaf {v : Json} : (∀ members, v ≠ obj members) → LeadsTo v [] v
  | member {members : List (String × Json)} {n : String} {v leaf : Json} {path : List String} :
      (n, v) ∈ members → LeadsTo v path leaf → LeadsTo (obj members) (n :: path) leaf

/-- Depth-first order with sorted names: the first names that differ decide. -/
def Earlier (path path' : List String) : Prop := List.Lex (fun n n' => compare n n' = .lt) path path'

mutual

/-- The leaves of a value with the paths to them, depth first. -/
def leaves : Json → List (List String × Json)
  | .obj members => memberLeaves members
  | v => [([], v)]

def memberLeaves : List (String × Json) → List (List String × Json)
  | [] => []
  | (n, v) :: r => (leaves v).map (fun l => (n :: l.1, l.2)) ++ memberLeaves r

end

variable {v leaf : Json} {path : List String}

theorem leaves_of_ne_obj (hv : ∀ members, v ≠ obj members) : leaves v = [([], v)] := by
  cases v with
  | obj members => exact absurd rfl (hv members)
  | _ => rfl

theorem LeadsTo.ne_obj (h : LeadsTo v path leaf) : ∀ members, leaf ≠ obj members := by
  induction h with
  | leaf hv => exact hv
  | member _ _ ih => exact ih

theorem leadsTo_obj_iff {members : List (String × Json)} : LeadsTo (obj members) path leaf ↔
    ∃ m ∈ members, ∃ rest, path = m.1 :: rest ∧ LeadsTo m.2 rest leaf := by
  constructor
  · intro h
    cases h with
    | leaf hv => exact absurd rfl (hv members)
    | member hm hrest => exact ⟨_, hm, _, rfl, hrest⟩
  · rintro ⟨m, hm, rest, rfl, hrest⟩
    exact .member hm hrest

theorem mem_leaves_iff_of_ne_obj (hv : ∀ members, v ≠ obj members) :
    (path, leaf) ∈ leaves v ↔ LeadsTo v path leaf := by
  rw [leaves_of_ne_obj hv, List.mem_singleton]
  constructor
  · rintro ⟨⟩
    exact .leaf hv
  · intro h
    cases h with
    | leaf => rfl
    | member => exact absurd rfl (hv _)

mutual

theorem mem_leaves_iff : ∀ {v : Json} {path : List String} {leaf : Json},
    (path, leaf) ∈ leaves v ↔ LeadsTo v path leaf
  | .obj members, path, leaf => by rw [leaves, mem_memberLeaves_iff, leadsTo_obj_iff]
  | .null, _, _ | .bool _, _, _ | .int _, _, _ | .float _, _, _ | .str _, _, _ | .arr _, _, _
  | .unreadable, _, _ => mem_leaves_iff_of_ne_obj nofun

theorem mem_memberLeaves_iff : ∀ {members : List (String × Json)} {path : List String} {leaf : Json},
    (path, leaf) ∈ memberLeaves members ↔ ∃ m ∈ members, ∃ rest, path = m.1 :: rest ∧ LeadsTo m.2 rest leaf
  | [], _, _ => by simp [memberLeaves]
  | (n, v) :: r, path, leaf => by
    have hfirst : (path, leaf) ∈ (leaves v).map (fun l => (n :: l.1, l.2)) ↔
        ∃ rest, path = n :: rest ∧ LeadsTo v rest leaf := by
      simp only [List.mem_map, Prod.exists, mem_leaves_iff, Prod.mk.injEq]
      constructor
      · rintro ⟨rest, _, hrest, rfl, rfl⟩
        exact ⟨rest, rfl, hrest⟩
      · rintro ⟨rest, rfl, hrest⟩
        exact ⟨rest, leaf, hrest, rfl, rfl⟩
    rw [memberLeaves, List.mem_append, mem_memberLeaves_iff, hfirst, List.exists_mem_cons_iff]

end

theorem Earlier.irrefl (path : List String) : ¬ Earlier path path :=
  List.lex_irrefl (fun n h => by rw [Std.ReflOrd.compare_self] at h; cases h) path

theorem Earlier.trans {path path' path'' : List String} (h : Earlier path path') (h' : Earlier path' path'') :
    Earlier path path'' :=
  List.lex_trans (fun hn hn' => Std.TransCmp.lt_trans hn hn') h h'

mutual

/-- The names of a value that is held are sorted, so the leaves are listed in depth-first order. -/
theorem pairwise_leaves : ∀ {v : Json}, v.IsValue → (leaves v).Pairwise (fun l l' => Earlier l.1 l'.1)
  | .obj _, h => by
    rw [leaves]
    obtain ⟨d, hd⟩ := h.exists_dict
    exact pairwise_memberLeaves (hd ▸ d.increasing) h.of_mem
  | .null, _ | .bool _, _ | .int _, _ | .float _, _ | .str _, _ | .arr _, _ | .unreadable, _ =>
    List.pairwise_singleton _ _

theorem pairwise_memberLeaves : ∀ {members : List (String × Json)},
    members.Pairwise (fun m m' => compare m.1 m'.1 = .lt) → (∀ m ∈ members, m.2.IsValue) →
      (memberLeaves members).Pairwise (fun l l' => Earlier l.1 l'.1)
  | [], _, _ => .nil
  | (n, v) :: r, hnames, hvalues => by
    rw [List.pairwise_cons] at hnames
    rw [List.forall_mem_cons] at hvalues
    rw [memberLeaves, List.pairwise_append, List.pairwise_map]
    refine ⟨(pairwise_leaves hvalues.1).imp .cons, pairwise_memberLeaves hnames.2 hvalues.2, ?_⟩
    rintro l hl ⟨path, leaf⟩ hl'
    obtain ⟨m, hm, rest, rfl, -⟩ := mem_memberLeaves_iff.1 hl'
    obtain ⟨l, -, rfl⟩ := List.mem_map.1 hl
    exact .rel (hnames.1 m hm)

end

/-! ## Empty objects -/

mutual

/-- A value without the members in it that have no leaf: empty objects, and objects that hold only such. -/
def pruned : Json → Json
  | .obj members => .obj (prunedMembers members)
  | v => v

def prunedMembers : List (String × Json) → List (String × Json)
  | [] => []
  | (n, v) :: r => if pruned v = .obj [] then prunedMembers r else (n, pruned v) :: prunedMembers r

end

mutual

theorem leaves_pruned : ∀ v : Json, leaves (pruned v) = leaves v
  | .obj members => by rw [pruned, leaves, leaves, memberLeaves_prunedMembers]
  | .null | .bool _ | .int _ | .float _ | .str _ | .arr _ | .unreadable => rfl

theorem memberLeaves_prunedMembers : ∀ members, memberLeaves (prunedMembers members) = memberLeaves members
  | [] => rfl
  | (n, v) :: r => by
    have hv := leaves_pruned v
    rw [prunedMembers, memberLeaves]
    split
    · rename_i hempty
      rw [hempty] at hv
      rw [memberLeaves_prunedMembers, ← hv]
      rfl
    · rw [memberLeaves, memberLeaves_prunedMembers, hv]

end

theorem prunedMembers_sublist (members : List (String × Json)) :
    ((prunedMembers members).map (·.1)).Sublist (members.map (·.1)) := by
  induction members with
  | nil => exact .slnil
  | cons m members ih =>
    rw [prunedMembers]
    split
    · exact ih.cons _
    · exact ih.cons_cons _

end Json

namespace Event

open Json

/-! ## Joined paths -/

/-- The parts of a path joined by two underscores. The empty parts that it starts with are dropped. -/
def joined (path : List String) : String := "__".intercalate (path.dropWhile (·.isEmpty))

theorem foldl_joinPath_of_ne {n : String} (hn : n ≠ "") (path : List String) :
    path.foldl joinPath n = "__".intercalate (n :: path) := by
  induction path generalizing n with
  | nil => rw [List.foldl_nil, String.intercalate_singleton]
  | cons part path ih =>
    have hlonger : n ++ "__" ++ part ≠ "" := by simp [hn]
    rw [List.foldl_cons, joinPath_of_ne hn, ih hlonger, String.intercalate_cons_cons]
    cases path with
    | nil => rw [String.intercalate_singleton, String.intercalate_singleton]
    | cons next path =>
      rw [String.intercalate_cons_cons, String.intercalate_cons_cons]
      simp only [String.append_assoc]

theorem foldl_joinPath (path : List String) : path.foldl joinPath "" = joined path := by
  unfold joined
  induction path with
  | nil => rfl
  | cons n path ih =>
    by_cases hn : n = ""
    · subst hn
      exact ih
    · rw [List.foldl_cons, List.dropWhile_cons_of_neg (by simpa using hn)]
      exact foldl_joinPath_of_ne hn path

mutual

/-- The leaves of a flat payload are those of the object, each with the joined path to it. -/
theorem leavesAt_eq_map : ∀ (path : String) (v : Json),
    leavesAt path v = (leaves v).map fun l => (l.1.foldl joinPath path, l.2)
  | path, .obj members => leavesOf_eq_map path members
  | _, .null | _, .bool _ | _, .int _ | _, .float _ | _, .str _ | _, .arr _ | _, .unreadable => rfl

theorem leavesOf_eq_map : ∀ (path : String) (members : List (String × Json)),
    leavesOf path members = (memberLeaves members).map fun l => (l.1.foldl joinPath path, l.2)
  | _, [] => rfl
  | path, (n, v) :: r => by
    rw [leavesOf, memberLeaves, List.map_append, List.map_map, leavesAt_eq_map, leavesOf_eq_map path r]
    rfl

end

theorem flatten_eq (d : Dict String Json) :
    flatten d = .ofList ((leaves (ofDict d)).map fun l => (joined l.1, l.2)) := by
  unfold flatten
  rw [leavesOf_eq_map]
  simp only [foldl_joinPath]
  rfl

/-- Of entries with one key the last is found, in whatever order they are listed. -/
theorem exists_last_of_get? {α : Type} {f : α → String × Json} {R : α → α → Prop} {l : List α} {k : String} {v : Json}
    (hl : l.Pairwise R) (h : (Dict.ofList (l.map f)).get? k = some v) :
    ∃ a ∈ l, f a = (k, v) ∧ ∀ b ∈ l, (f b).1 = k → b = a ∨ R b a := by
  rw [Dict.get?_ofList] at h
  obtain ⟨after, before, hreverse, hafter⟩ := Dict.exists_split_of_lookupEntry h
  have hsplit : l.map f = before.reverse ++ (k, v) :: after.reverse := by
    rw [← List.reverse_reverse (l.map f), hreverse]
    simp
  obtain ⟨earlier, rest, rfl, -, hrest⟩ := List.map_eq_append_iff.1 hsplit
  obtain ⟨a, later, rfl, ha, hlater⟩ := List.map_eq_cons_iff.1 hrest
  rw [List.pairwise_append] at hl
  refine ⟨a, List.mem_append_right _ List.mem_cons_self, ha, fun b hb hk => ?_⟩
  rcases List.mem_append.1 hb with hb | hb
  · exact .inr (hl.2.2 b hb a List.mem_cons_self)
  · rcases List.mem_cons.1 hb with rfl | hb
    · exact .inl rfl
    · have hmem : f b ∈ after := List.mem_reverse.1 (hlater ▸ List.mem_map_of_mem hb)
      exact absurd hk (hafter _ hmem)

/-! ## Flat payloads by leaves -/

section

variable {d : Dict String Json} {k : String} {v : Json} {path : List String}

theorem ne_obj_of_mem_flatten {e : String × Json} (h : e ∈ (flatten d).entries) : ∀ members, e.2 ≠ .obj members := by
  rw [flatten_eq] at h
  obtain ⟨⟨path, leaf⟩, hleaf, rfl⟩ := List.mem_map.1 (Dict.mem_of_mem_ofList h)
  exact (mem_leaves_iff.1 hleaf).ne_obj

theorem mem_keys_flatten_iff :
    k ∈ (flatten d).keys ↔ ∃ path leaf, (ofDict d).LeadsTo path leaf ∧ joined path = k := by
  rw [flatten_eq, Dict.mem_keys_ofList_iff, List.map_map, List.mem_map]
  simp only [Prod.exists, mem_leaves_iff, Function.comp]

/-- The leaf that a path leads to is the one that the payload has if no other path to its name is later. -/
theorem get?_flatten_iff (hd : (ofDict d).IsValue) : (flatten d).get? k = some v ↔
    ∃ path, (ofDict d).LeadsTo path v ∧ joined path = k ∧
      ∀ path' leaf, (ofDict d).LeadsTo path' leaf → joined path' = k → path' = path ∨ Earlier path' path := by
  have hordered := pairwise_leaves hd
  have hlast : ∀ w, (flatten d).get? k = some w → ∃ path, (ofDict d).LeadsTo path w ∧ joined path = k ∧
      ∀ path' leaf, (ofDict d).LeadsTo path' leaf → joined path' = k →
        path' = path ∧ leaf = w ∨ Earlier path' path := by
    intro w hw
    rw [flatten_eq] at hw
    obtain ⟨⟨path, leaf⟩, hleaf, hentry, hbefore⟩ := exists_last_of_get? hordered hw
    obtain ⟨rfl, rfl⟩ := Prod.mk.inj hentry
    refine ⟨path, mem_leaves_iff.1 hleaf, rfl, fun path' leaf' hleaf' hjoined => ?_⟩
    have hcases := hbefore (path', leaf') (mem_leaves_iff.2 hleaf') hjoined
    rwa [Prod.mk.injEq] at hcases
  constructor
  · intro h
    obtain ⟨path, hpath, hjoined, hbefore⟩ := hlast v h
    exact ⟨path, hpath, hjoined, fun path' leaf hleaf hk => (hbefore path' leaf hleaf hk).imp_left And.left⟩
  · rintro ⟨path, hpath, hjoined, hbefore⟩
    have hkey := Dict.mem_keys_iff.1 (mem_keys_flatten_iff.2 ⟨path, v, hpath, hjoined⟩)
    obtain ⟨w, hw⟩ := Option.isSome_iff_exists.1 hkey
    obtain ⟨path', hpath', hjoined', hbefore'⟩ := hlast w hw
    -- neither of the two last paths is before the other
    rcases hbefore' path v hpath hjoined with ⟨-, rfl⟩ | hearlier
    · exact hw
    · rcases hbefore path' w hpath' hjoined' with rfl | hearlier'
      · exact absurd hearlier (Earlier.irrefl _)
      · exact absurd (hearlier.trans hearlier') (Earlier.irrefl _)

/-- The object without the members in it that have no leaf. -/
def prune (d : Dict String Json) : Dict String Json where
  entries := prunedMembers d.entries
  increasing := by
    have hnames : (d.entries.map (·.1)).Pairwise (fun n n' => compare n n' = .lt) := List.pairwise_map.2 d.increasing
    exact List.pairwise_map.1 (hnames.sublist (prunedMembers_sublist d.entries))

theorem flatten_prune (d : Dict String Json) : flatten (prune d) = flatten d := by
  have hleaves : leaves (ofDict (prune d)) = leaves (ofDict d) := leaves_pruned (ofDict d)
  rw [flatten_eq, flatten_eq, hleaves]

theorem flatten_of_flat (h : ∀ e ∈ d.entries, ∀ members, e.2 ≠ .obj members) : flatten d = d := by
  have hself : ∀ members : List (String × Json), (∀ m ∈ members, ∀ inner, m.2 ≠ .obj inner) →
      leavesOf "" members = members := by
    intro members hmembers
    induction members with
    | nil => rfl
    | cons m members ih =>
      rw [List.forall_mem_cons] at hmembers
      obtain ⟨n, v⟩ := m
      rw [leavesOf, leavesAt_eq_singleton hmembers.1, ih hmembers.2]
      rfl
  unfold flatten
  rw [hself d.entries h, d.ofList_entries]

end

/-- What a flat payload is made of. None of its values is an object, and its names are the joined paths to the leaves
of the object. A name has the value of the leaf whose path is the last of those that join to it, in depth-first order
with sorted names; so a leaf is kept as it is, arrays whole, if no other path joins to the same name. Empty objects
add nothing, wherever they are, and what is flat is not changed. -/
theorem flatten_by_leaves {d : Dict String Json} (hd : (ofDict d).IsValue) :
    (∀ e ∈ (flatten d).entries, ∀ members, e.2 ≠ .obj members) ∧
    (∀ k, k ∈ (flatten d).keys ↔ ∃ path leaf, (ofDict d).LeadsTo path leaf ∧ joined path = k) ∧
    (∀ k v, (flatten d).get? k = some v ↔ ∃ path, (ofDict d).LeadsTo path v ∧ joined path = k ∧
      ∀ path' leaf, (ofDict d).LeadsTo path' leaf → joined path' = k → path' = path ∨ Earlier path' path) ∧
    (∀ path leaf, (ofDict d).LeadsTo path leaf →
      (∀ path' leaf', (ofDict d).LeadsTo path' leaf' → joined path' = joined path → path' = path) →
        (flatten d).get? (joined path) = some leaf) ∧
    flatten (prune d) = flatten d ∧ flatten (flatten d) = flatten d := by
  refine ⟨fun e he => ne_obj_of_mem_flatten he, fun k => mem_keys_flatten_iff, fun k v => get?_flatten_iff hd, ?_,
    flatten_prune d, flatten_of_flat fun e he => ne_obj_of_mem_flatten he⟩
  intro path leaf hleaf hunshared
  rw [get?_flatten_iff hd]
  exact ⟨path, hleaf, rfl, fun path' leaf' hleaf' hjoined => .inl (hunshared path' leaf' hleaf' hjoined)⟩

/-- Members without a name, with a separator in their names, with paths that join to one name, and without a leaf. -/
def clashing : Dict String Json :=
  .ofList [("", .obj [("", .obj [("x", .null)]), ("b", .int 1)]),
    ("a", .obj [("c", .obj [("d", .int 3), ("e", .obj [])]), ("c__d", .int 2), ("f", .arr [.obj [("g", .obj [])]])]),
    ("z", .obj [("y", .obj [])])]

/-- The later of two paths to one name stays, the array is kept whole, and the objects without a leaf leave nothing. -/
theorem flatten_by_leaves_clashing : (flatten clashing).keys = ["a__c__d", "a__f", "b", "x"] ∧
    (flatten clashing).get? "a__c__d" = some (.int 2) ∧
    (∃ path, (ofDict clashing).LeadsTo path (.int 2) ∧ joined path = "a__c__d" ∧
      ∀ path' leaf, (ofDict clashing).LeadsTo path' leaf → joined path' = "a__c__d" →
        path' = path ∨ Earlier path' path) ∧
    (flatten clashing).get? "a__f" = some (.arr [.obj [("g", .obj [])]]) ∧
    (prune clashing).keys = ["", "a"] ∧ flatten (prune clashing) = flatten clashing := by
  have hvalue : (ofDict clashing).IsValue := ⟨by decide +kernel, by decide +kernel⟩
  obtain ⟨-, -, hlast, -, hprune, -⟩ := flatten_by_leaves hvalue
  have hshared : (flatten clashing).get? "a__c__d" = some (.int 2) := by decide +kernel
  exact ⟨by decide +kernel, hshared, (hlast _ _).1 hshared, by decide +kernel, by decide +kernel, hprune⟩

end Event

end Mediation
