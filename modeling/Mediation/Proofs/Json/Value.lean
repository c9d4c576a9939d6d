/-
Values that a program holds. What was written settles into such a value: an object has each name once, in
order, and every number can be held. A value that is held settles into itself, and every number of a text can
be held.
-/
import Mediation.Json.Reader
import Mediation.Json.Record
import Mediation.Proofs.Json.Numeral
import Mediation.Proofs.Lists

namespace Mediation.Json

/-! ## Numbers that can be held -/

mutual

/-- Whether every number is one that can be held: a whole number of 64 bits, with a sign or without, or a
finite binary64 number. -/
def inRange : Json → Bool
  | .int n => Int64.minValue.toInt ≤ n && n < UInt64.size
  | .float x => x.isFinite
  | .arr items => inRangeItems items
  | .obj members => inRangeMembers members
  | _ => true

def inRangeItems : List Json → Bool
  | [] => true
  | v :: r => inRange v && inRangeItems r

def inRangeMembers : List (String × Json) → Bool
  | [] => true
  | (_, v) :: r => inRange v && inRangeMembers r

end

theorem inRangeItems_iff {l : List Json} : inRangeItems l ↔ ∀ v ∈ l, v.inRange := by
  induction l with
  | nil => simp [inRangeItems]
  | cons v l ih => simp [inRangeItems, ih]

theorem inRangeMembers_iff {l : List (String × Json)} : inRangeMembers l ↔ ∀ m ∈ l, m.2.inRange := by
  induction l with
  | nil => simp [inRangeMembers]
  | cons m l ih => simp [inRangeMembers, ih]

theorem inRange_arr {l : List Json} : (arr l).inRange ↔ ∀ v ∈ l, v.inRange := by
  rw [← inRangeItems_iff, inRange]

theorem inRange_obj {l : List (String × Json)} : (obj l).inRange ↔ ∀ m ∈ l, m.2.inRange := by
  rw [← inRangeMembers_iff, inRange]

theorem inRange_int {n : Int} : (int n).inRange ↔ Int64.minValue.toInt ≤ n ∧ n < UInt64.size := by
  rw [inRange, Bool.and_eq_true, decide_eq_true_iff, decide_eq_true_iff]

/-- A number that is held is finite as a binary64 number. -/
theorem isFinite_of_number? {v : Json} {x : Float} (hv : v.inRange) (h : v.number? = some x) :
    x.isFinite = true := by
  unfold number? at h
  split at h
  · obtain ⟨hlow, hhigh⟩ := inRange_int.1 hv
    rw [← Option.some.inj h]
    exact Numeral.isFinite_ofInt hlow hhigh
  · obtain rfl := Option.some.inj h
    exact hv
  · cases h

/-! ## Reading -/

theorem inRange_float? (n : Numeral) :
    (match n.float? with
      | some x => float x
      | none => unreadable).inRange := by
  split
  · rename_i x hx
    exact Numeral.isFinite_of_float? hx
  · rfl

theorem inRange_toJson (n : Numeral) : n.toJson.inRange := by
  have hmin : Int64.minValue.toInt = -2 ^ 63 := rfl
  have habs : Int64.minValue.toInt.natAbs = 2 ^ 63 := rfl
  have hsize : UInt64.size = 2 ^ 64 := rfl
  unfold Numeral.toJson
  dsimp only
  cases n.negative with
  | true =>
    simp only [if_true]
    split
    · rw [inRange_int]
      omega
    · exact inRange_float? n
  | false =>
    simp only [Bool.false_eq_true, if_false]
    split
    · rw [inRange_int]
      omega
    · exact inRange_float? n

theorem inRange_nested {v : Json} (depth : Nat) (h : v.inRange) : (nested depth v).inRange := by
  unfold nested
  split
  · exact h
  · rfl

theorem inRange_objectOf {members : List (Option String × Json)} (h : ∀ m ∈ members, m.2.inRange) :
    (objectOf members).inRange := by
  unfold objectOf
  split
  · rename_i ms hms
    rw [inRange_obj]
    refine forall_mem_of_mapM hms fun m hm e he => ?_
    obtain ⟨n, -, rfl⟩ := Option.map_eq_some_iff.1 he
    exact h m hm
  · rfl

/-- What the readers find with a number of steps is in range. -/
structure ReadsInRange (fuel : Nat) : Prop where
  value : ∀ {depth bs v r}, readValue depth fuel bs = some (v, r) → v.inRange
  items : ∀ {depth acc bs vs r}, (∀ v ∈ acc, v.inRange) → readItems depth acc fuel bs = some (vs, r) →
    ∀ v ∈ vs, v.inRange
  members : ∀ {depth acc bs ms r}, (∀ m ∈ acc, m.2.inRange) →
    readMembers depth acc fuel bs = some (ms, r) → ∀ m ∈ ms, m.2.inRange

section

variable {fuel depth : Nat} {bs r : List UInt8}

theorem inRange_readValue (ih : ReadsInRange fuel) {v : Json}
    (h : readValue depth (fuel + 1) bs = some (v, r)) : v.inRange := by
  rw [readValue] at h
  split at h
  · cases h
  · split_ifs at h
    · obtain ⟨⟨ps, _⟩, -, ⟨⟩⟩ := Option.map_eq_some_iff.1 h
      split <;> rfl
    · split at h
      · cases h
        exact inRange_nested _ rfl
      · obtain ⟨⟨vs, _⟩, hvs, ⟨⟩⟩ := Option.map_eq_some_iff.1 h
        exact inRange_nested _ (inRange_arr.2 (ih.items (List.forall_mem_nil _) hvs))
    · split at h
      · cases h
        exact inRange_nested _ rfl
      · obtain ⟨⟨ms, _⟩, hms, ⟨⟩⟩ := Option.map_eq_some_iff.1 h
        exact inRange_nested _ (inRange_objectOf (ih.members (List.forall_mem_nil _) hms))
    · obtain ⟨_, -, ⟨⟩⟩ := Option.map_eq_some_iff.1 h
      rfl
    · obtain ⟨_, -, ⟨⟩⟩ := Option.map_eq_some_iff.1 h
      rfl
    · obtain ⟨_, -, ⟨⟩⟩ := Option.map_eq_some_iff.1 h
      rfl
    · obtain ⟨⟨n, _⟩, -, ⟨⟩⟩ := Option.map_eq_some_iff.1 h
      exact inRange_toJson n

theorem inRange_readItems (ih : ReadsInRange fuel) {acc vs : List Json} (hacc : ∀ v ∈ acc, v.inRange)
    (h : readItems depth acc (fuel + 1) bs = some (vs, r)) : ∀ v ∈ vs, v.inRange := by
  rw [readItems] at h
  split at h
  · cases h
  · rename_i v _ hv
    have hcons : ∀ w ∈ v :: acc, w.inRange := List.forall_mem_cons.2 ⟨ih.value hv, hacc⟩
    split at h
    · exact ih.items hcons h
    · cases h
      exact fun w hw => hcons w (List.mem_reverse.1 hw)
    · cases h

theorem inRange_readMembers (ih : ReadsInRange fuel) {acc ms : List (Option String × Json)}
    (hacc : ∀ m ∈ acc, m.2.inRange) (h : readMembers depth acc (fuel + 1) bs = some (ms, r)) :
    ∀ m ∈ ms, m.2.inRange := by
  rw [readMembers] at h
  split at h
  · split at h
    · cases h
    · rename_i name _ _
      split at h
      · split at h
        · cases h
        · rename_i v _ hv
          have hcons : ∀ m ∈ (pieceText? name, v) :: acc, m.2.inRange :=
            List.forall_mem_cons.2 ⟨ih.value hv, hacc⟩
          dsimp only at h
          split at h
          · exact ih.members hcons h
          · cases h
            exact fun m hm => hcons m (List.mem_reverse.1 hm)
          · cases h
      · cases h
  · cases h

end

theorem readsInRange (fuel : Nat) : ReadsInRange fuel := by
  induction fuel with
  | zero => exact ⟨nofun, nofun, nofun⟩
  | succ fuel ih => exact ⟨inRange_readValue ih, inRange_readItems ih, inRange_readMembers ih⟩

/-- The value of a text has numbers that can be held. -/
theorem inRange_of_read {bs : List UInt8} {v : Json} (h : read bs = some v) : v.inRange := by
  unfold read at h
  split at h
  · rename_i hw
    split at h
    · cases h
      exact (readsInRange _).value hw
    · cases h
  · cases h

/-! ## Values that are held -/

theorem settleItems_eq_mapM (l : List Json) : settleItems l = l.mapM settle := by
  induction l with
  | nil => rfl
  | cons v l ih =>
    rw [settleItems, ih, List.mapM_cons]
    cases settle v <;> cases l.mapM settle <;> rfl

theorem settleMembers_eq_mapM (l : List (String × Json)) :
    settleMembers l = l.mapM fun m => m.2.settle.map (m.1, ·) := by
  induction l with
  | nil => rfl
  | cons m l ih =>
    rw [settleMembers, ih, List.mapM_cons]
    cases settle m.2 <;> cases l.mapM (fun m : String × Json => m.2.settle.map (m.1, ·)) <;> rfl

/-- A value as a program holds it. -/
structure IsValue (v : Json) : Prop where
  settled : v.settle = some v
  inRange : v.inRange

@[simp] theorem isValue_null : IsValue null := ⟨rfl, rfl⟩

@[simp] theorem isValue_bool (b : Bool) : IsValue (bool b) := ⟨rfl, rfl⟩

@[simp] theorem isValue_str (s : String) : IsValue (str s) := ⟨rfl, rfl⟩

@[simp] theorem isValue_ofInt64 (n : Int64) : IsValue (ofInt64 n) := by
  refine ⟨rfl, inRange_int.2 ⟨n.minValue_le_toInt, ?_⟩⟩
  exact Int.lt_trans n.toInt_lt (by decide)

@[simp] theorem isValue_ofInt32 (n : Int32) : IsValue (ofInt32 n) := by
  refine ⟨rfl, inRange_int.2 ⟨?_, ?_⟩⟩
  · exact Int.le_trans (by decide) n.minValue_le_toInt
  · exact Int.lt_trans n.toInt_lt (by decide)

theorem isValue_ofNat {n : Nat} (h : n < UInt64.size) : IsValue (ofNat n) :=
  ⟨rfl, inRange_int.2 ⟨Int.le_trans (by decide) (Int.natCast_nonneg n), Int.ofNat_lt.2 h⟩⟩

@[simp] theorem isValue_uint8 (n : UInt8) : IsValue (ofNat n.toNat) :=
  isValue_ofNat (Nat.lt_trans n.toNat_lt (by decide))

@[simp] theorem isValue_uint32 (n : UInt32) : IsValue (ofNat n.toNat) :=
  isValue_ofNat (Nat.lt_trans n.toNat_lt (by decide))

@[simp] theorem isValue_uint64 (n : UInt64) : IsValue (ofNat n.toNat) := isValue_ofNat n.toNat_lt

/-- A number without a JSON form is held as null. -/
@[simp] theorem isValue_ofFloat (x : Float) : IsValue (ofFloat x) := by
  unfold ofFloat
  split
  · rename_i h
    exact ⟨rfl, h⟩
  · exact isValue_null

@[simp] theorem isValue_price (x : Price) : IsValue x.toJson := isValue_ofFloat x.toFloat

theorem isValue_arr {l : List Json} (h : ∀ v ∈ l, v.IsValue) : IsValue (arr l) := by
  refine ⟨?_, inRange_arr.2 fun v hv => (h v hv).inRange⟩
  have hsettled : l.mapM settle = some (l.map id) := mapM_eq_some_map fun v hv => (h v hv).settled
  rw [settle, settleItems_eq_mapM, hsettled, List.map_id, Option.map_some]

theorem isValue_ofDict {d : Dict String Json} (h : ∀ e ∈ d.entries, e.2.IsValue) : IsValue (ofDict d) := by
  refine ⟨?_, inRange_obj.2 fun e he => (h e he).inRange⟩
  have hsettled : d.entries.mapM (fun m => m.2.settle.map (m.1, ·)) = some (d.entries.map id) :=
    mapM_eq_some_map fun e he => by
      rw [(h e he).settled]
      rfl
  rw [ofDict, settle, settleMembers_eq_mapM, hsettled, List.map_id, Option.map_some, Dict.ofList_entries]
  rfl

theorem isValue_record {l : List (String × Json)} (h : ∀ m ∈ l, m.2.IsValue) : IsValue (record l) :=
  isValue_ofDict fun e he => h e (Dict.mem_of_mem_ofList he)

mutual

/-- What settles becomes a value that is held. -/
theorem isValue_of_settle : ∀ {v w : Json}, v.inRange → v.settle = some w → w.IsValue
  | .null, _, hv, h | .bool _, _, hv, h | .str _, _, hv, h | .int _, _, hv, h | .float _, _, hv, h => by
    cases h
    exact ⟨rfl, hv⟩
  | .arr items, _, hv, h => by
    rw [settle] at h
    obtain ⟨vs, hvs, rfl⟩ := Option.map_eq_some_iff.1 h
    exact isValue_arr (isValue_of_settleItems (inRange_arr.1 hv) hvs)
  | .obj members, _, hv, h => by
    rw [settle] at h
    obtain ⟨ms, hms, rfl⟩ := Option.map_eq_some_iff.1 h
    exact isValue_record (isValue_of_settleMembers (inRange_obj.1 hv) hms)
  | .unreadable, _, _, h => by cases h

theorem isValue_of_settleItems : ∀ {l l' : List Json}, (∀ v ∈ l, v.inRange) →
    settleItems l = some l' → ∀ v ∈ l', v.IsValue
  | [], _, _, h => by
    cases h
    exact List.forall_mem_nil _
  | v :: l, _, hl, h => by
    rw [List.forall_mem_cons] at hl
    rw [settleItems] at h
    split at h
    · rename_i w r hw hr
      cases h
      exact List.forall_mem_cons.2 ⟨isValue_of_settle hl.1 hw, isValue_of_settleItems hl.2 hr⟩
    · cases h

theorem isValue_of_settleMembers : ∀ {l l' : List (String × Json)}, (∀ m ∈ l, m.2.inRange) →
    settleMembers l = some l' → ∀ m ∈ l', m.2.IsValue
  | [], _, _, h => by
    cases h
    exact List.forall_mem_nil _
  | (name, v) :: l, _, hl, h => by
    rw [List.forall_mem_cons] at hl
    rw [settleMembers] at h
    split at h
    · rename_i w r hw hr
      cases h
      exact List.forall_mem_cons.2 ⟨isValue_of_settle hl.1 hw, isValue_of_settleMembers hl.2 hr⟩
    · cases h

end

/-- What an array holds is held as well. -/
theorem IsValue.of_mem_arr {l : List Json} (h : (arr l).IsValue) : ∀ v ∈ l, v.IsValue := by
  have hsettled := h.settled
  rw [settle] at hsettled
  obtain ⟨l', hl', he⟩ := Option.map_eq_some_iff.1 hsettled
  cases he
  exact isValue_of_settleItems (inRange_arr.1 h.inRange) hl'

/-- The same for an object. -/
theorem IsValue.of_mem {l : List (String × Json)} (h : (obj l).IsValue) : ∀ m ∈ l, m.2.IsValue := by
  have hsettled := h.settled
  rw [settle] at hsettled
  obtain ⟨l', hl', he⟩ := Option.map_eq_some_iff.1 hsettled
  cases he
  exact fun m hm => isValue_of_settleMembers (inRange_obj.1 h.inRange) hl' m (Dict.mem_of_mem_ofList hm)

/-- The members of a value that is held are the entries of a map. -/
theorem IsValue.exists_dict {l : List (String × Json)} (h : (obj l).IsValue) :
    ∃ d : Dict String Json, d.entries = l := by
  have hsettled := h.settled
  rw [settle] at hsettled
  obtain ⟨l', -, he⟩ := Option.map_eq_some_iff.1 hsettled
  cases he
  exact ⟨_, rfl⟩

/-- Only null is held as null. -/
theorem eq_null_of_settle {v : Json} (h : v.settle = some .null) : v = .null := by
  cases v with
  | null => rfl
  | arr items =>
    rw [settle] at h
    obtain ⟨_, -, he⟩ := Option.map_eq_some_iff.1 h
    cases he
  | obj members =>
    rw [settle] at h
    obtain ⟨_, -, he⟩ := Option.map_eq_some_iff.1 h
    cases he
  | _ => cases h

end Mediation.Json
