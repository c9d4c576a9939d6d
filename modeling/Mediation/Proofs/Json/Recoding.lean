/-
Reading back what was written. A writer is faithful to what it is given if it makes a value of it from which
the reader gets the same again. Scalars, lists and maps are written faithfully if their parts are; a record
is, if its reader finds under each name what was written there. What comes from a value that was read is
written faithfully.
-/
import Mediation.Proofs.InitConfig
import Mediation.Proofs.Json.Value

namespace Mediation.Json

variable {α β : Type} {read : Json → Option α} {write : α → Json}

/-- What is written of `a` is a value other than null, from which the reader gets `a` again. -/
structure Faithful (read : Json → Option α) (write : α → Json) (a : α) : Prop where
  isValue : (write a).IsValue
  ne_null : write a ≠ .null
  read_write : read (write a) = some a

/-- Whatever is read is written faithfully. -/
def Recodes (read : Json → Option α) (write : α → Json) : Prop :=
  ∀ v, v.inRange → ∀ a, read v = some a → Faithful read write a

theorem recodes_of_forall (h : ∀ a, Faithful read write a) : Recodes read write := fun _ _ a _ => h a

/-! ## Scalars -/

@[simp] theorem str?_str (s : String) : (str s).str? = some s := rfl

theorem str?_eq_some_iff {v : Json} {s : String} : v.str? = some s ↔ v = str s := by
  constructor
  · intro h
    cases v <;> cases h
    rfl
  · rintro rfl
    rfl

@[simp] theorem bool?_bool (b : Bool) : (bool b).bool? = some b := rfl

@[simp] theorem int64?_ofInt64 (n : Int64) : (ofInt64 n).int64? = some n := by
  unfold ofInt64 int64? intIn?
  dsimp only
  rw [if_pos ⟨n.minValue_le_toInt, n.toInt_le⟩, Option.map_some, Int64.ofInt_toInt]

theorem intIn?_ofNat {n size : Nat} (h : n < size) : (ofNat n).intIn? 0 (size - 1) = some (n : Int) := by
  unfold ofNat intIn?
  dsimp only
  rw [if_pos (by omega)]

@[simp] theorem uint8?_ofNat (n : UInt8) : (ofNat n.toNat).uint8? = some n := by
  unfold uint8?
  rw [intIn?_ofNat n.toNat_lt, Option.map_some]
  simp

@[simp] theorem uint32?_ofNat (n : UInt32) : (ofNat n.toNat).uint32? = some n := by
  unfold uint32?
  rw [intIn?_ofNat n.toNat_lt, Option.map_some]
  simp

@[simp] theorem uint64?_ofNat (n : UInt64) : (ofNat n.toNat).uint64? = some n := by
  unfold uint64?
  rw [intIn?_ofNat n.toNat_lt, Option.map_some]
  simp

theorem faithful_str (s : String) : Faithful str? .str s := ⟨isValue_str s, nofun, str?_str s⟩

theorem faithful_bool (b : Bool) : Faithful bool? .bool b := ⟨isValue_bool b, nofun, bool?_bool b⟩

theorem faithful_int32 (n : Int32) : Faithful int32? ofInt32 n := ⟨isValue_ofInt32 n, nofun, int32?_ofInt32 n⟩

theorem faithful_int64 (n : Int64) : Faithful int64? ofInt64 n := ⟨isValue_ofInt64 n, nofun, int64?_ofInt64 n⟩

theorem faithful_uint8 (n : UInt8) : Faithful uint8? (ofNat ·.toNat) n :=
  ⟨isValue_uint8 n, nofun, uint8?_ofNat n⟩

/-- A number is written faithfully if it is finite. -/
theorem faithful_number {x : Float} (h : x.isFinite) : Faithful number? ofFloat x := by
  have hwrite : ofFloat x = .float x := if_pos h
  refine ⟨isValue_ofFloat x, ?_, ?_⟩
  · rw [hwrite]
    nofun
  · rw [hwrite]
    rfl

theorem faithful_zero : Faithful number? ofFloat 0.0 := faithful_number rfl

theorem recodes_number : Recodes number? ofFloat := fun _ hv _ h => faithful_number (isFinite_of_number? hv h)

/-- A price is written as the number it is. -/
theorem faithful_price {x : Price} (h : x.isFinite) : Faithful Price.ofJson? Price.toJson x := by
  have hx := faithful_number h
  refine ⟨hx.isValue, hx.ne_null, ?_⟩
  show ((ofFloat x.toFloat).number?.map Price.ofFloat) = some x
  rw [hx.read_write, Option.map_some, Price.ofFloat_toFloat (Numeral.isNaN_of_isFinite h)]

theorem isFinite_of_faithful_price {x : Price} (h : Faithful Price.ofJson? Price.toJson x) :
    x.isFinite = true := by
  by_cases hx : x.isFinite = true
  · exact hx
  · have hwrite : Price.toJson x = .null := if_neg hx
    exact absurd hwrite h.ne_null

theorem faithful_price_zero : Faithful Price.ofJson? Price.toJson 0.0 := faithful_price rfl

theorem recodes_price : Recodes Price.ofJson? Price.toJson := by
  rintro v hv x h
  obtain ⟨y, hy, rfl⟩ := Option.map_eq_some_iff.1 h
  exact faithful_price ((Price.isFinite_ofFloat y).trans (isFinite_of_number? hv hy))

/-- Any value is held as it is; null stands for what is absent. -/
theorem faithful_settle {v : Json} (h : v.IsValue) (hne : v ≠ .null) : Faithful settle (fun v => v) v :=
  ⟨h, hne, h.settled⟩

/-! ## Collections -/

theorem faithful_list {l : List α} (h : ∀ a ∈ l, Faithful read write a) :
    Faithful (list? read) (ofList write) l := by
  refine ⟨isValue_arr ?_, nofun, ?_⟩
  · rw [List.forall_mem_map]
    exact fun a ha => (h a ha).isValue
  · exact mapM_map_eq_some fun a ha => (h a ha).read_write

theorem faithful_list_nil : Faithful (list? read) (ofList write) [] := faithful_list (List.forall_mem_nil _)

theorem recodes_list (h : Recodes read write) : Recodes (list? read) (ofList write) := by
  intro v hv l hl
  unfold list? at hl
  split at hl
  · exact faithful_list (forall_mem_of_mapM hl fun w hw => h w (inRange_arr.1 hv w hw))
  · cases hl

theorem faithful_dictOf {d : Dict String α} (h : ∀ e ∈ d.entries, Faithful read write e.2) :
    Faithful (dictOf? read) (ofDictOf write) d := by
  refine ⟨isValue_ofDict ?_, nofun, ?_⟩
  · show ∀ e ∈ d.entries.map _, _
    rw [List.forall_mem_map]
    exact fun e he => (h e he).isValue
  · have hread : ((d.mapValues write).entries.mapM fun m => (read m.2).map fun v => (m.1, v)) =
        some d.entries := by
      refine mapM_map_eq_some fun e he => ?_
      dsimp only
      rw [(h e he).read_write, Option.map_some]
    unfold ofDictOf ofDict dictOf?
    dsimp only
    rw [hread, Option.map_some, Dict.ofList_entries]

theorem faithful_dictOf_empty : Faithful (dictOf? read) (ofDictOf write) .empty :=
  faithful_dictOf (List.forall_mem_nil _)

theorem recodes_dictOf (h : Recodes read write) : Recodes (dictOf? read) (ofDictOf write) := by
  intro v hv d hd
  unfold dictOf? at hd
  split at hd
  · obtain ⟨l, hl, rfl⟩ := Option.map_eq_some_iff.1 hd
    refine faithful_dictOf fun e he => ?_
    refine forall_mem_of_mapM (p := fun e => Faithful read write e.2) hl ?_ e (Dict.mem_of_mem_ofList he)
    intro m hm e he
    obtain ⟨a, ha, rfl⟩ := Option.map_eq_some_iff.1 he
    exact h m.2 (inRange_obj.1 hv m hm) a ha
  · cases hd

theorem faithful_settleObject {d : Dict String Json} (h : ∀ e ∈ d.entries, e.2.IsValue) :
    Faithful settleObject ofDict d := by
  refine ⟨isValue_ofDict h, nofun, ?_⟩
  unfold settleObject
  rw [(isValue_ofDict h).settled, Option.bind_some]
  exact congrArg some d.ofList_entries

theorem recodes_settleObject : Recodes settleObject ofDict := by
  intro v hv d hd
  obtain ⟨w, hw, hd⟩ := Option.bind_eq_some_iff.1 hd
  have hvalue := isValue_of_settle hv hw
  unfold dict? at hd
  split at hd
  · obtain rfl := Option.some.inj hd
    exact faithful_settleObject fun e he => hvalue.of_mem e (Dict.mem_of_mem_ofList he)
  · cases hd

/-! ## Options -/

theorem isValue_ofOption {o : Option α} (h : ∀ a ∈ o, Faithful read write a) : (ofOption write o).IsValue := by
  cases o with
  | none => exact isValue_null
  | some a => exact (h a rfl).isValue

theorem faithful_of_mem_none : ∀ a ∈ (none : Option α), Faithful read write a := nofun

theorem nullable?_of_ne_null {v : Json} (h : v ≠ .null) : nullable? read v = (read v).map some := by
  cases v <;> first | rfl | exact absurd rfl h

theorem nullable?_write {a : α} (h : Faithful read write a) : nullable? read (write a) = some (some a) := by
  rw [nullable?_of_ne_null h.ne_null, h.read_write, Option.map_some]

theorem nullable?_ofOption {o : Option α} (h : ∀ a ∈ o, Faithful read write a) :
    nullable? read (ofOption write o) = some o := by
  cases o with
  | none => rfl
  | some a => exact nullable?_write (h a rfl)

theorem forall_mem_of_nullable? (h : Recodes read write) {v : Json} (hv : v.inRange) {o : Option α}
    (ho : nullable? read v = some o) : ∀ a ∈ o, Faithful read write a := by
  unfold nullable? at ho
  split at ho
  · obtain rfl := Option.some.inj ho
    nofun
  · obtain ⟨a, ha, rfl⟩ := Option.map_eq_some_iff.1 ho
    intro b hb
    cases hb
    exact h v hv a ha

theorem forall_mem_of_nullable?_settle {v : Json} (hv : v.inRange) {o : Option Json}
    (ho : nullable? settle v = some o) : ∀ w ∈ o, Faithful settle (fun w => w) w := by
  unfold nullable? at ho
  split at ho
  · obtain rfl := Option.some.inj ho
    nofun
  · rename_i hne
    obtain ⟨w, hw, rfl⟩ := Option.map_eq_some_iff.1 ho
    intro w' hw'
    cases hw'
    refine faithful_settle (isValue_of_settle hv hw) ?_
    rintro rfl
    exact hne (eq_null_of_settle hw)

/-! ## Fields that are read -/

theorem some_bind (a : α) (f : α → Option β) : (some a >>= f) = f a := by
  rw [Option.bind_eq_bind, Option.bind_some]

/-- What holds of a record that is read, from what each of its fields is read from. -/
theorem forall_bind {o : Option α} {f : α → Option β} {p : β → Prop} :
    (∀ b, (o >>= f) = some b → p b) ↔ ∀ a, o = some a → ∀ b, f a = some b → p b := by
  cases o with
  | none => simp
  | some a => simp

theorem forall_some {a : α} {p : α → Prop} : (∀ b, some a = some b → p b) ↔ p a := by simp

/-- Reads a field that may be absent. -/
def readOr (absent : Option α) (f : Json → Option α) : Option Json → Option α
  | none => absent
  | some v => f v

-- The next two are proven by rewriting on purpose: a step of simp by a lemma that holds by `rfl` would have the
-- kernel compute with the readers.
@[simp] theorem readOr_none (absent : Option α) (f : Json → Option α) : readOr absent f none = absent := by
  rw [readOr]

@[simp] theorem readOr_some (absent : Option α) (f : Json → Option α) (v : Json) :
    readOr absent f (some v) = f v := by
  rw [readOr]

@[simp] theorem withDefault_eq (fs : Fields) (name : String) (default : α) (f : Json → Option α) :
    fs.withDefault name default f = readOr (some default) f (fs name) := by
  unfold Fields.withDefault
  cases fs name <;> rfl

@[simp] theorem optional_eq (fs : Fields) (name : String) (f : Json → Option α) :
    fs.optional name f = readOr (some none) (nullable? f) (fs name) := withDefault_eq fs name none _

@[simp] theorem required_eq (fs : Fields) (name : String) (f : Json → Option α) :
    fs.required name f = readOr none f (fs name) := by
  unfold Fields.required
  cases fs name <;> rfl

/-- Every field that is found is in range. -/
def Fields.InRange (fs : Fields) : Prop := ∀ name v, fs name = some v → v.inRange

theorem inRange_of_lookupEntry {l : List (String × Json)} (hl : ∀ m ∈ l, m.2.inRange) {name : String}
    {v : Json} (h : Dict.lookupEntry name l = some v) : v.inRange :=
  hl (name, v) (Dict.mem_of_lookupEntry h)

theorem inRange_fields? {known : List String} {v : Json} {fs : Fields} (hv : v.inRange)
    (h : v.fields? known = some fs) : fs.InRange := by
  unfold fields? at h
  split at h
  · split at h
    · obtain rfl := Option.some.inj h
      exact fun _ _ => inRange_of_lookupEntry (inRange_obj.1 hv)
    · cases h
  · split at h
    · obtain rfl := Option.some.inj h
      exact fun _ _ => inRange_of_lookupEntry fun m hm => inRange_arr.1 hv m.2 (List.of_mem_zip hm).2
    · cases h
  · cases h

/-- What an open record keeps beside its fields: values under names that it does not know. -/
structure IsExtra (known : List String) (extra : Dict String Json) : Prop where
  isValue : ∀ e ∈ extra.entries, e.2.IsValue
  unknown : ∀ e ∈ extra.entries, e.1 ∉ known

/-- What an open record is read from. -/
theorem exists_of_openFields? {known : List String} {v : Json} {fs : Fields} {extra : Dict String Json}
    (h : v.openFields? known = some (fs, extra)) : ∃ members kept, v = obj members ∧
      settleMembers (members.filter fun m => !known.contains m.1) = some kept ∧
      fs = (Dict.lookupEntry · members) ∧ extra = .ofList kept := by
  unfold openFields? at h
  split at h
  · split at h
    · obtain ⟨kept, hkept, he⟩ := Option.map_eq_some_iff.1 h
      obtain ⟨rfl, rfl⟩ := Prod.mk.inj he
      exact ⟨_, kept, rfl, hkept, rfl, rfl⟩
    · cases h
  · cases h

/-- An open record keeps nothing under a name that it knows. -/
theorem unknown_of_openFields? {known : List String} {v : Json} {fs : Fields} {extra : Dict String Json}
    (h : v.openFields? known = some (fs, extra)) : ∀ e ∈ extra.entries, e.1 ∉ known := by
  obtain ⟨members, kept, -, hkept, -, rfl⟩ := exists_of_openFields? h
  rw [settleMembers_eq_mapM] at hkept
  have hunknown : ∀ e ∈ kept, e.1 ∉ known := by
    refine forall_mem_of_mapM hkept fun m hm e he => ?_
    obtain ⟨w, -, rfl⟩ := Option.map_eq_some_iff.1 he
    simpa using (List.mem_filter.1 hm).2
  exact fun e he => hunknown e (Dict.mem_of_mem_ofList he)

theorem inRange_openFields? {known : List String} {v : Json} {fs : Fields} {extra : Dict String Json}
    (hv : v.inRange) (h : v.openFields? known = some (fs, extra)) : fs.InRange ∧ IsExtra known extra := by
  have hunknown := unknown_of_openFields? h
  obtain ⟨members, kept, rfl, hkept, rfl, rfl⟩ := exists_of_openFields? h
  have hl := inRange_obj.1 hv
  have hvalues := isValue_of_settleMembers (fun m hm => hl m (List.mem_of_mem_filter hm)) hkept
  exact ⟨fun _ _ => inRange_of_lookupEntry hl, fun e he => hvalues e (Dict.mem_of_mem_ofList he), hunknown⟩

/-- What holds of a record whenever its fields are in range holds of all that is read. -/
theorem of_fields {known : List String} {body : Fields → Option α} {p : α → Prop} {v : Json} {a : α}
    (ha : read v = some a) (hv : v.inRange) (hread : ∀ v, read v = v.fields? known >>= body)
    (h : ∀ fs : Fields, fs.InRange → ∀ a, body fs = some a → p a) : p a := by
  rw [hread] at ha
  obtain ⟨fs, hfs, ha⟩ := Option.bind_eq_some_iff.1 ha
  exact h fs (inRange_fields? hv hfs) a ha

/-- The same for an open record, which keeps what it does not know. -/
theorem of_openFields {known : List String} {body : Fields × Dict String Json → Option α} {p : α → Prop}
    {v : Json} {a : α} (ha : read v = some a) (hv : v.inRange)
    (hread : ∀ v, read v = v.openFields? known >>= body)
    (h : ∀ fs extra, fs.InRange → IsExtra known extra → ∀ a, body (fs, extra) = some a → p a) : p a := by
  rw [hread] at ha
  obtain ⟨⟨fs, extra⟩, hfs, ha⟩ := Option.bind_eq_some_iff.1 ha
  obtain ⟨hin, hextra⟩ := inRange_openFields? hv hfs
  exact h fs extra hin hextra a ha

theorem recodes_of_fields {known : List String} {body : Fields → Option α}
    (hread : ∀ v, read v = v.fields? known >>= body)
    (h : ∀ fs : Fields, fs.InRange → ∀ a, body fs = some a → Faithful read write a) : Recodes read write :=
  fun _ hv _ ha => of_fields ha hv hread h

theorem recodes_of_openFields {known : List String} {body : Fields × Dict String Json → Option α}
    (hread : ∀ v, read v = v.openFields? known >>= body)
    (h : ∀ fs extra, fs.InRange → IsExtra known extra → ∀ a, body (fs, extra) = some a →
      Faithful read write a) : Recodes read write :=
  fun _ hv _ ha => of_openFields ha hv hread h

section

variable {fs : Fields} {name : String} (hfs : fs.InRange)

include hfs

theorem Recodes.required (h : Recodes read write) {a : α} (ha : fs.required name read = some a) :
    Faithful read write a := by
  obtain ⟨v, hv, ha⟩ := Option.bind_eq_some_iff.1 ha
  exact h v (hfs name v hv) a ha

theorem Recodes.withDefault (h : Recodes read write) {a default : α} (hdefault : Faithful read write default)
    (ha : fs.withDefault name default read = some a) : Faithful read write a := by
  unfold Fields.withDefault at ha
  split at ha
  · obtain rfl := Option.some.inj ha
    exact hdefault
  · rename_i v hv
    exact h v (hfs name v hv) a ha

theorem Recodes.optional (h : Recodes read write) {o : Option α} (ho : fs.optional name read = some o) :
    ∀ a ∈ o, Faithful read write a := by
  unfold Fields.optional Fields.withDefault at ho
  split at ho
  · obtain rfl := Option.some.inj ho
    nofun
  · rename_i v hv
    exact forall_mem_of_nullable? h (hfs name v hv) ho

theorem optional_settle {o : Option Json} (ho : fs.optional name settle = some o) :
    ∀ v ∈ o, Faithful settle (fun v => v) v := by
  unfold Fields.optional Fields.withDefault at ho
  split at ho
  · obtain rfl := Option.some.inj ho
    nofun
  · rename_i v hv
    exact forall_mem_of_nullable?_settle (hfs name v hv) ho

end

/-! ## Fields that are written -/

@[simp] theorem get?_ofList_present (name name' : String) (write : α → Json) (o : Option α) :
    (Dict.ofList (present name write o)).get? name' = if name' = name then o.map write else none := by
  cases o with
  | none => simp [present]
  | some a => simp [present]

@[simp] theorem get?_ofList_nonEmpty (name name' s : String) :
    (Dict.ofList (nonEmpty name s)).get? name' =
      if name' = name then (if s = "" then none else some (.str s)) else none := by
  unfold nonEmpty
  by_cases h : s = "" <;> simp [h]

/-- All members of a record are as they should be. -/
def EachMember (p : String × Json → Prop) (l : List (String × Json)) : Prop := ∀ m ∈ l, p m

section

variable {p : String × Json → Prop} {name : String}

@[simp] theorem eachMember_nil : EachMember p [] := List.forall_mem_nil _

@[simp] theorem eachMember_cons {m : String × Json} {l : List (String × Json)} :
    EachMember p (m :: l) ↔ p m ∧ EachMember p l := List.forall_mem_cons

@[simp] theorem eachMember_append {l l' : List (String × Json)} :
    EachMember p (l ++ l') ↔ EachMember p l ∧ EachMember p l' := List.forall_mem_append

@[simp] theorem eachMember_present {o : Option α} :
    EachMember p (present name write o) ↔ ∀ a ∈ o, p (name, write a) := by
  unfold EachMember
  cases o <;> simp [present]

@[simp] theorem eachMember_nonEmpty {s : String} :
    EachMember p (nonEmpty name s) ↔ (s ≠ "" → p (name, .str s)) := by
  unfold EachMember nonEmpty
  by_cases h : s = "" <;> simp [h]

end

@[simp] theorem readOr_nonEmpty (s : String) :
    readOr (some "") str? (if s = "" then none else some (str s)) = some s := by
  by_cases h : s = "" <;> simp [h]

theorem readOr_present {o : Option α} (h : ∀ a ∈ o, Faithful read write a) :
    readOr (some none) (nullable? read) (o.map write) = some o := by
  cases o with
  | none => rfl
  | some a => exact nullable?_write (h a rfl)

@[simp] theorem readOr_present_str (o : Option String) :
    readOr (some none) (nullable? str?) (o.map str) = some o := readOr_present fun s _ => faithful_str s

@[simp] theorem readOr_present_uint8 (o : Option UInt8) :
    readOr (some none) (nullable? uint8?) (o.map fun n => ofNat n.toNat) = some o :=
  readOr_present fun n _ => faithful_uint8 n

theorem readOr_present_self {o : Option Json} (h : ∀ v ∈ o, Faithful settle (fun v => v) v) :
    readOr (some none) (nullable? settle) o = some o := by
  have hread := readOr_present h
  rwa [Option.map_id'] at hread

theorem fields?_record (known : List String) (l : List (String × Json)) :
    (record l).fields? known = some (Dict.ofList l).get? := fields?_ofDict known _

theorem IsExtra.get?_eq_none {known : List String} {extra : Dict String Json} (h : IsExtra known extra)
    {name : String} (hname : name ∈ known) : extra.get? name = none := by
  rw [Option.eq_none_iff_forall_not_mem]
  exact fun v hv => h.unknown _ (Dict.get?_eq_some_iff.1 hv) hname

theorem isValue_openRecord {known : List String} {l : List (String × Json)} {extra : Dict String Json}
    (hl : ∀ m ∈ l, m.2.IsValue) (h : IsExtra known extra) : (openRecord l extra).IsValue :=
  isValue_record (List.forall_mem_append.2 ⟨hl, h.isValue⟩)

/-- Unknown members are kept where the names of the fields are known. -/
theorem filterKeys_openRecord {known : List String} {l : List (String × Json)} {extra : Dict String Json}
    (hnames : ∀ m ∈ l, m.1 ∈ known) (h : IsExtra known extra) :
    (Dict.ofList (l ++ extra.entries)).filterKeys (fun name => !known.contains name) = extra := by
  refine Dict.ext_get? fun name => ?_
  rw [Dict.get?_filterKeys, Dict.get?_ofList_append, Dict.ofList_entries]
  by_cases hname : name ∈ known
  · rw [if_neg (by simpa using hname), h.get?_eq_none hname]
  · have hnone : (Dict.ofList l).get? name = none := by
      rw [Option.eq_none_iff_forall_not_mem]
      intro v hv
      exact hname (hnames _ (Dict.mem_of_mem_ofList (Dict.get?_eq_some_iff.1 hv)))
    rw [if_pos (by simpa using hname), hnone, Option.or_none]

/-- A value that is held has its members for fields, and keeps those that are not known. -/
theorem openFields?_ofDict {d : Dict String Json} (h : (ofDict d).IsValue) (known : List String) :
    (ofDict d).openFields? known = some (d.get?, d.filterKeys fun name => !known.contains name) := by
  have hsettled : (d.entries.filter fun m => !known.contains m.1).mapM (fun m => m.2.settle.map (m.1, ·)) =
      some ((d.entries.filter fun m => !known.contains m.1).map id) :=
    mapM_eq_some_map fun m hm => by
      rw [(h.of_mem m (List.mem_of_mem_filter hm)).settled]
      rfl
  unfold openFields? ofDict
  dsimp only
  rw [if_pos (distinctKnown_of_nodup d.nodup_keys known), settleMembers_eq_mapM, hsettled, List.map_id,
    Option.map_some]
  exact congrArg (fun kept => some (d.get?, kept)) (d.filterKeys fun name => !known.contains name).ofList_entries

/-- An open record finds its fields again, and beside them what it kept. -/
theorem openFields?_openRecord {known : List String} {l : List (String × Json)} {extra : Dict String Json}
    (hl : ∀ m ∈ l, m.2.IsValue) (hnames : ∀ m ∈ l, m.1 ∈ known) (h : IsExtra known extra) :
    ∃ fs, (openRecord l extra).openFields? known = some (fs, extra) ∧
      ∀ name ∈ known, fs name = (Dict.ofList l).get? name := by
  refine ⟨(Dict.ofList (l ++ extra.entries)).get?, ?_, fun name hname => ?_⟩
  · have hfields := openFields?_ofDict (isValue_openRecord hl h) known
    rwa [filterKeys_openRecord hnames h] at hfields
  · rw [Dict.get?_ofList_append, Dict.ofList_entries, h.get?_eq_none hname, Option.none_or]

/-- A record is written faithfully if its values are, and if it is read from its own fields. -/
theorem faithful_of_fields {known : List String} {l : List (String × Json)} {body : Fields → Option α} {a : α}
    (hread : ∀ v, read v = v.fields? known >>= body) (hwrite : write a = record l)
    (hl : EachMember (·.2.IsValue) l) (hbody : body (Dict.ofList l).get? = some a) : Faithful read write a := by
  refine ⟨?_, ?_, ?_⟩
  · rw [hwrite]
    exact isValue_record hl
  · rw [hwrite]
    nofun
  · rw [hwrite, hread, fields?_record, some_bind, hbody]

/-- The same for an open record. -/
theorem faithful_of_openFields {known : List String} {l : List (String × Json)} {extra : Dict String Json}
    {body : Fields × Dict String Json → Option α} {a : α}
    (hread : ∀ v, read v = v.openFields? known >>= body) (hwrite : write a = openRecord l extra)
    (hextra : IsExtra known extra) (hnames : EachMember (·.1 ∈ known) l) (hl : EachMember (·.2.IsValue) l)
    (hbody : ∀ fs : Fields, (∀ name ∈ known, fs name = (Dict.ofList l).get? name) →
      body (fs, extra) = some a) : Faithful read write a := by
  obtain ⟨fs, hfs, hget⟩ := openFields?_openRecord hl hnames hextra
  refine ⟨?_, ?_, ?_⟩
  · rw [hwrite]
    exact isValue_openRecord hl hextra
  · rw [hwrite]
    nofun
  · rw [hwrite, hread, hfs, some_bind, hbody fs hget]

end Mediation.Json
