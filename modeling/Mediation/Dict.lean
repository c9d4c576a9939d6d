/-
Finite maps with one value per key, kept as a list in strictly increasing key order. A later entry
replaces an earlier one of the same key, a listing is always in key order, and two maps that look
up alike are equal (`Dict.ext_get?`).
-/

namespace Mediation

/-- A finite map, listed in strictly increasing key order. -/
structure Dict (κ α : Type) [Ord κ] where
  entries : List (κ × α)
  increasing : entries.Pairwise (fun a b => compare a.1 b.1 = .lt)
  deriving DecidableEq

namespace Dict

variable {κ α β : Type}

/-! ## Entry lists -/

/-- The value of the first entry with key `k`. -/
def lookupEntry [DecidableEq κ] (k : κ) : List (κ × α) → Option α
  | [] => none
  | e :: r => if k = e.1 then some e.2 else lookupEntry k r

theorem lookupEntry_append [DecidableEq κ] (k : κ) (l l' : List (κ × α)) :
    lookupEntry k (l ++ l') = (lookupEntry k l).or (lookupEntry k l') := by
  induction l with
  | nil => rfl
  | cons a l ih => by_cases h : k = a.1 <;> simp [lookupEntry, h, ih]

theorem lookupEntry_filter [DecidableEq κ] (p : κ → Bool) (k : κ) (l : List (κ × α)) :
    lookupEntry k (l.filter (fun e => p e.1)) = if p k then lookupEntry k l else none := by
  induction l with
  | nil => simp [lookupEntry]
  | cons a l ih =>
    by_cases hk : k = a.1
    · subst hk
      cases hp : p a.1 <;> simp [lookupEntry, hp, ih]
    · cases hp : p a.1 <;> simp [lookupEntry, hp, ih, hk]

theorem lookupEntry_map [DecidableEq κ] (f : α → β) (k : κ) (l : List (κ × α)) :
    lookupEntry k (l.map (fun e => (e.1, f e.2))) = (lookupEntry k l).map f := by
  induction l with
  | nil => rfl
  | cons a l ih => by_cases h : k = a.1 <;> simp [lookupEntry, h, ih]

theorem lookupEntry_eq_some_iff [DecidableEq κ] {l : List (κ × α)} (h : (l.map (·.1)).Nodup) {k : κ}
    {v : α} : lookupEntry k l = some v ↔ (k, v) ∈ l := by
  induction l with
  | nil => simp [lookupEntry]
  | cons a l ih =>
    obtain ⟨k', v'⟩ := a
    simp only [List.map_cons, List.nodup_cons, List.mem_map] at h
    unfold lookupEntry
    split
    · rename_i hk
      subst hk
      simp only [List.mem_cons, Prod.mk.injEq, true_and, Option.some.injEq]
      constructor
      · rintro rfl; exact .inl rfl
      · rintro (rfl | hm)
        · rfl
        · exact absurd ⟨_, hm, rfl⟩ h.1
    · rename_i hk
      simp [ih h.2, hk]

/-- With distinct keys, it does not matter from which side a key is looked up. -/
theorem lookupEntry_reverse [DecidableEq κ] {l : List (κ × α)} (h : (l.map (·.1)).Nodup) (k : κ) :
    lookupEntry k l.reverse = lookupEntry k l := by
  have hreverse : (l.reverse.map (·.1)).Nodup := by
    rw [List.map_reverse]
    unfold List.Nodup at h ⊢
    rw [List.pairwise_reverse]
    exact h.imp Ne.symm
  ext v
  rw [lookupEntry_eq_some_iff hreverse, lookupEntry_eq_some_iff h, List.mem_reverse]

/-- A value that is looked up stands at the first entry with its key. -/
theorem exists_split_of_lookupEntry [DecidableEq κ] {k : κ} {v : α} {l : List (κ × α)}
    (h : lookupEntry k l = some v) :
    ∃ before after, l = before ++ (k, v) :: after ∧ ∀ e ∈ before, e.1 ≠ k := by
  induction l with
  | nil => cases h
  | cons e l ih =>
    rw [lookupEntry] at h
    split at h
    · rename_i hk
      obtain rfl := Option.some.inj h
      exact ⟨[], l, by rw [hk]; rfl, List.forall_mem_nil _⟩
    · rename_i hk
      obtain ⟨before, after, rfl, hbefore⟩ := ih h
      exact ⟨e :: before, after, rfl, List.forall_mem_cons.2 ⟨Ne.symm hk, hbefore⟩⟩

theorem mem_of_lookupEntry [DecidableEq κ] {k : κ} {v : α} {l : List (κ × α)}
    (h : lookupEntry k l = some v) : (k, v) ∈ l := by
  obtain ⟨before, after, rfl, -⟩ := exists_split_of_lookupEntry h
  exact List.mem_append_right _ List.mem_cons_self

theorem lookupEntry_eq_some_of_unique [DecidableEq κ] {k : κ} {v : α} {l : List (κ × α)}
    (hmem : (k, v) ∈ l) (hunique : ∀ e ∈ l, e.1 = k → e.2 = v) : lookupEntry k l = some v := by
  induction l with
  | nil => cases hmem
  | cons e l ih =>
    rw [lookupEntry]
    by_cases h : k = e.1
    · rw [if_pos h, hunique e List.mem_cons_self h.symm]
    · rw [if_neg h]
      rcases List.mem_cons.1 hmem with rfl | hmem
      · exact absurd rfl h
      · exact ih hmem fun e he => hunique e (List.mem_cons_of_mem _ he)

theorem lookupEntry_eq_none_iff [DecidableEq κ] {l : List (κ × α)} {k : κ} :
    lookupEntry k l = none ↔ ∀ e ∈ l, e.1 ≠ k := by
  induction l with
  | nil => simp [lookupEntry]
  | cons a l ih => by_cases h : k = a.1 <;> simp [lookupEntry, h, ih, Ne.symm]

theorem filter_eq_lookupEntry [DecidableEq κ] {l : List (κ × α)} (h : (l.map (·.1)).Nodup) (k : κ) :
    l.filter (·.1 == k) = ((lookupEntry k l).map (k, ·)).toList := by
  induction l with
  | nil => rfl
  | cons a l ih =>
    obtain ⟨k', v⟩ := a
    rw [List.map_cons, List.nodup_cons] at h
    unfold lookupEntry
    by_cases hk : k = k'
    · subst hk
      have hrest : l.filter (·.1 == k) = [] := by
        rw [List.filter_eq_nil_iff]
        intro e he heq
        exact h.1 (List.mem_map.2 ⟨e, he, eq_of_beq heq⟩)
      simp [hrest]
    · simp [hk, Ne.symm hk, ih h.2]

variable [Ord κ]

/-- One pass: the new entry goes before the first larger key and replaces an equal one. -/
def insertEntry (k : κ) (v : α) : List (κ × α) → List (κ × α)
  | [] => [(k, v)]
  | e :: r =>
    match compare k e.1 with
    | .lt => (k, v) :: e :: r
    | .eq => (k, v) :: r
    | .gt => e :: insertEntry k v r

theorem mem_insertEntry {k : κ} {v : α} {e : κ × α} {l : List (κ × α)} (h : e ∈ insertEntry k v l) :
    e = (k, v) ∨ e ∈ l := by
  induction l with
  | nil => simpa [insertEntry] using h
  | cons a l ih =>
    simp only [insertEntry] at h
    split at h
    · simpa using h
    · simp only [List.mem_cons] at h ⊢; rcases h with h | h <;> simp [h]
    · simp only [List.mem_cons] at h ⊢
      rcases h with h | h
      · simp [h]
      · rcases ih h with h | h <;> simp [h]

theorem pairwise_insertEntry [Std.TransOrd κ] [Std.LawfulEqOrd κ] (k : κ) (v : α) (l : List (κ × α))
    (h : l.Pairwise (fun a b => compare a.1 b.1 = .lt)) :
    (insertEntry k v l).Pairwise (fun a b => compare a.1 b.1 = .lt) := by
  induction l with
  | nil => simp [insertEntry]
  | cons a l ih =>
    rw [List.pairwise_cons] at h
    simp only [insertEntry]
    split
    · rename_i hlt
      refine .cons (fun b hb => ?_) (.cons h.1 h.2)
      rcases List.mem_cons.1 hb with rfl | hb
      · exact hlt
      · exact Std.TransCmp.lt_trans hlt (h.1 b hb)
    · rename_i heq
      rw [Std.LawfulEqOrd.compare_eq_iff_eq] at heq
      subst heq
      exact .cons h.1 h.2
    · rename_i hgt
      refine .cons (fun b hb => ?_) (ih h.2)
      rcases mem_insertEntry hb with rfl | hb
      · exact Std.OrientedCmp.lt_of_gt hgt
      · exact h.1 b hb

theorem lookupEntry_insertEntry [DecidableEq κ] [Std.LawfulEqOrd κ] (k k' : κ) (v : α)
    (l : List (κ × α)) :
    lookupEntry k' (insertEntry k v l) = if k' = k then some v else lookupEntry k' l := by
  induction l with
  | nil => rfl
  | cons a l ih =>
    simp only [insertEntry]
    split
    · rfl
    · rename_i heq
      rw [Std.LawfulEqOrd.compare_eq_iff_eq] at heq
      by_cases h : k' = k
      · simp [lookupEntry, h]
      · simp [lookupEntry, h, ← heq]
    · rename_i hgt
      have hne : k ≠ a.1 := by
        rintro e
        rw [e, Std.ReflOrd.compare_self] at hgt
        cases hgt
      by_cases h : k' = k
      · simpa [lookupEntry, h, hne] using ih.trans (if_pos h)
      · simp [lookupEntry, ih, h]

/-! ## Building -/

/-- The map without entries. -/
def empty : Dict κ α := ⟨[], .nil⟩

instance : EmptyCollection (Dict κ α) := ⟨empty⟩

instance : Inhabited (Dict κ α) := ⟨empty⟩

section Insert

variable [Std.TransOrd κ] [Std.LawfulEqOrd κ]

/-- Sets the value of a key. -/
def insert (d : Dict κ α) (k : κ) (v : α) : Dict κ α :=
  ⟨insertEntry k v d.entries, pairwise_insertEntry k v d.entries d.increasing⟩

/-- Sets several values in turn; the last one given for a key stays. -/
def insertAll (d : Dict κ α) (l : List (κ × α)) : Dict κ α :=
  l.foldl (fun d e => d.insert e.1 e.2) d

def ofList (l : List (κ × α)) : Dict κ α := empty.insertAll l

/-- The entries of `d` laid over those of `base`: `d` wins where both have a key. -/
def layOver (d base : Dict κ α) : Dict κ α := base.insertAll d.entries

end Insert

/-! ## Reading -/

def get? [DecidableEq κ] (d : Dict κ α) (k : κ) : Option α := lookupEntry k d.entries

def contains [DecidableEq κ] (d : Dict κ α) (k : κ) : Bool := (d.get? k).isSome

def keys (d : Dict κ α) : List κ := d.entries.map (·.1)

def values (d : Dict κ α) : List α := d.entries.map (·.2)

def isEmpty (d : Dict κ α) : Bool := d.entries.isEmpty

/-- Drops the entries whose key fails the test. -/
def filterKeys (d : Dict κ α) (keep : κ → Bool) : Dict κ α :=
  ⟨d.entries.filter (fun e => keep e.1), d.increasing.filter _⟩

def erase [DecidableEq κ] (d : Dict κ α) (k : κ) : Dict κ α := d.filterKeys (· != k)

/-- Changes every value, keeping the keys. -/
def mapValues (f : α → β) (d : Dict κ α) : Dict κ β :=
  ⟨d.entries.map (fun e => (e.1, f e.2)), by simpa [List.pairwise_map] using d.increasing⟩

/-! ## Lookup laws -/

theorem nodup_keys [Std.ReflOrd κ] (d : Dict κ α) : d.keys.Nodup := by
  unfold keys List.Nodup
  rw [List.pairwise_map]
  refine d.increasing.imp fun {a b} h e => ?_
  rw [e, Std.ReflOrd.compare_self] at h
  cases h

theorem get?_eq_some_iff [DecidableEq κ] [Std.ReflOrd κ] {d : Dict κ α} {k : κ} {v : α} :
    d.get? k = some v ↔ (k, v) ∈ d.entries :=
  lookupEntry_eq_some_iff d.nodup_keys

/-- Of one key there is the entry that is looked up, or none. -/
theorem filter_entries_eq [DecidableEq κ] [Std.ReflOrd κ] (d : Dict κ α) (k : κ) :
    d.entries.filter (·.1 == k) = ((d.get? k).map (k, ·)).toList :=
  filter_eq_lookupEntry d.nodup_keys k

theorem mem_keys_iff [DecidableEq κ] [Std.ReflOrd κ] {d : Dict κ α} {k : κ} :
    k ∈ d.keys ↔ d.contains k = true := by
  unfold keys contains
  rw [List.mem_map, Option.isSome_iff_exists]
  simp only [get?_eq_some_iff]
  constructor
  · rintro ⟨e, he, rfl⟩
    exact ⟨e.2, he⟩
  · rintro ⟨v, hv⟩
    exact ⟨(k, v), hv, rfl⟩

@[simp] theorem get?_empty [DecidableEq κ] (k : κ) : (empty : Dict κ α).get? k = none := rfl

theorem eq_empty_of_isEmpty {d : Dict κ α} (h : d.isEmpty) : d = empty := by
  obtain ⟨entries, increasing⟩ := d
  obtain rfl : entries = [] := List.isEmpty_iff.1 h
  rfl

theorem get?_filterKeys [DecidableEq κ] (d : Dict κ α) (p : κ → Bool) (k : κ) :
    (d.filterKeys p).get? k = if p k then d.get? k else none :=
  lookupEntry_filter p k d.entries

theorem get?_erase [DecidableEq κ] (d : Dict κ α) (k k' : κ) :
    (d.erase k).get? k' = if k' = k then none else d.get? k' := by
  rw [erase, get?_filterKeys]; by_cases h : k' = k <;> simp [h]

theorem get?_mapValues [DecidableEq κ] (f : α → β) (d : Dict κ α) (k : κ) :
    (d.mapValues f).get? k = (d.get? k).map f :=
  lookupEntry_map f k d.entries

section Laws

variable [DecidableEq κ] [Std.TransOrd κ] [Std.LawfulEqOrd κ]

theorem get?_insert (d : Dict κ α) (k k' : κ) (v : α) :
    (d.insert k v).get? k' = if k' = k then some v else d.get? k' :=
  lookupEntry_insertEntry k k' v d.entries

/-- The last value given for a key is the one found. -/
theorem get?_insertAll (d : Dict κ α) (l : List (κ × α)) (k : κ) :
    (d.insertAll l).get? k = (lookupEntry k l.reverse).or (d.get? k) := by
  unfold insertAll
  induction l generalizing d with
  | nil => rfl
  | cons a l ih =>
    rw [List.foldl_cons, ih, get?_insert, List.reverse_cons, lookupEntry_append]
    by_cases h : k = a.1 <;> cases lookupEntry k l.reverse <;> simp [lookupEntry, h]

theorem get?_ofList (l : List (κ × α)) (k : κ) : (ofList l).get? k = lookupEntry k l.reverse := by
  rw [ofList, get?_insertAll]; simp

@[simp] theorem get?_ofList_nil (k : κ) : (ofList ([] : List (κ × α))).get? k = none := rfl

@[simp] theorem get?_ofList_append (l l' : List (κ × α)) (k : κ) :
    (ofList (l ++ l')).get? k = ((ofList l').get? k).or ((ofList l).get? k) := by
  rw [get?_ofList, get?_ofList, get?_ofList, List.reverse_append, lookupEntry_append]

@[simp] theorem get?_ofList_cons (e : κ × α) (l : List (κ × α)) (k : κ) :
    (ofList (e :: l)).get? k = ((ofList l).get? k).or (if k = e.1 then some e.2 else none) := by
  rw [get?_ofList, get?_ofList, List.reverse_cons, lookupEntry_append]
  rfl

theorem mem_of_mem_ofList {e : κ × α} {l : List (κ × α)} (h : e ∈ (ofList l).entries) : e ∈ l := by
  have hget := get?_eq_some_iff.2 h
  rw [get?_ofList] at hget
  exact List.mem_reverse.1 (mem_of_lookupEntry hget)

/-- With distinct keys, no entry is lost. -/
theorem mem_ofList_iff_of_nodup {l : List (κ × α)} (h : (l.map (·.1)).Nodup) {e : κ × α} :
    e ∈ (ofList l).entries ↔ e ∈ l := by
  rw [← get?_eq_some_iff (k := e.1) (v := e.2), get?_ofList, lookupEntry_reverse h, lookupEntry_eq_some_iff h]

theorem mem_keys_ofList_iff {l : List (κ × α)} {k : κ} : k ∈ (ofList l).keys ↔ k ∈ l.map (·.1) := by
  rw [mem_keys_iff, contains, get?_ofList, Option.isSome_iff_ne_none, Ne, lookupEntry_eq_none_iff]
  simp

omit [DecidableEq κ] [Std.LawfulEqOrd κ] in
theorem eq_of_mem_iff {d d' : Dict κ α} (h : ∀ e, e ∈ d.entries ↔ e ∈ d'.entries) : d = d' := by
  obtain ⟨l, hl⟩ := d
  obtain ⟨l', hl'⟩ := d'
  congr
  refine List.Perm.eq_of_pairwise ?_ hl hl' ?_
  · intro a b _ _ hab hba
    exact absurd hba (Std.OrientedCmp.not_lt_of_lt hab)
  · have nd : ∀ {m : List (κ × α)}, m.Pairwise (fun a b => compare a.1 b.1 = .lt) → m.Nodup :=
      fun hp => hp.imp fun {a b} hlt e => by
        rw [e, Std.ReflOrd.compare_self] at hlt
        cases hlt
    exact (List.perm_ext_iff_of_nodup (nd hl) (nd hl')).2 h

omit [Std.LawfulEqOrd κ] in
/-- Maps that look up alike are the same map. -/
theorem ext_get? {d d' : Dict κ α} (h : ∀ k, d.get? k = d'.get? k) : d = d' :=
  eq_of_mem_iff fun e => by
    rw [← get?_eq_some_iff (k := e.1) (v := e.2), ← get?_eq_some_iff (k := e.1) (v := e.2), h]

/-- The value of a key after laying one map over another. -/
theorem get?_layOver (d base : Dict κ α) (k : κ) :
    (d.layOver base).get? k = (d.get? k).or (base.get? k) := by
  rw [layOver, get?_insertAll, lookupEntry_reverse d.nodup_keys]
  rfl

theorem ofList_entries (d : Dict κ α) : ofList d.entries = d :=
  ext_get? fun k => by
    have := get?_layOver d empty k
    rw [layOver] at this
    rw [ofList, this]; simp

end Laws

end Dict

end Mediation
