/-
Ad units grouped by adapter and bid type. Each unit is in one bucket, behind the units of that bucket that
were listed before it, and a bucket is there only for units that are in it. So a grouping is given by the parts
of the list, one for each adapter and bid type, and does not depend on how the parts stand against each other.
-/
import Mathlib.Data.List.Nodup
import Mediation.AdUnit.Buckets

namespace Mediation

/-! ## Lists in parts -/

section

variable {α κ : Type} [DecidableEq κ] {f : α → κ}

/-- Lists that have the same parts have the same elements. -/
theorem perm_of_filter_eq [DecidableEq α] {l l' : List α}
    (h : ∀ k, l.filter (f · = k) = l'.filter (f · = k)) : l.Perm l' := by
  rw [List.perm_iff_count]
  intro a
  have hcount (l : List α) : (l.filter (f · = f a)).count a = l.count a :=
    List.count_filter (by simp)
  rw [← hcount l, h, hcount]

/-- Of parts that are put together one is found again, if none has elements of another. -/
theorem filter_flatMap_parts {l : List (κ × List α)} (hkeys : (l.map (·.1)).Nodup)
    (hparts : ∀ e ∈ l, ∀ a ∈ e.2, f a = e.1) (k : κ) :
    (l.flatMap (·.2)).filter (f · = k) = (Dict.lookupEntry k l).getD [] := by
  induction l with
  | nil => rfl
  | cons e l ih =>
    rw [List.map_cons, List.nodup_cons] at hkeys
    rw [List.forall_mem_cons] at hparts
    rw [List.flatMap_cons, List.filter_append, ih hkeys.2 hparts.2, Dict.lookupEntry]
    split
    · rename_i hk
      -- no later part has the same key
      have hnone : Dict.lookupEntry k l = none := by
        rw [Dict.lookupEntry_eq_none_iff]
        rintro e' he' rfl
        exact hkeys.1 (hk ▸ List.mem_map_of_mem he')
      rw [hnone, Option.getD_none, List.append_nil, List.filter_eq_self.2, Option.getD_some]
      intro a ha
      rw [hparts.1 a ha, hk, decide_eq_true rfl]
    · rename_i hk
      rw [List.filter_eq_nil_iff.2, List.nil_append]
      intro a ha hka
      exact hk (of_decide_eq_true hka ▸ hparts.1 a ha)

end

namespace AdUnits

/-! ## Buckets that are there -/

/-- No bucket is empty. -/
def Occupied (d : AdUnits) : Prop := ∀ b units, d.get? b = some units → units ≠ []

theorem Occupied.push {d : AdUnits} (h : d.Occupied) (u : AdUnit) : (d.push u).Occupied := by
  intro b units hb
  unfold AdUnits.push at hb
  rw [Dict.get?_insert] at hb
  split at hb
  · obtain rfl := Option.some.inj hb
    exact List.concat_ne_nil _ _
  · exact h b units hb

theorem occupied_ofUnits (units : List AdUnit) : (ofUnits units).Occupied := by
  have hfold {d : AdUnits} (h : d.Occupied) : (units.foldl AdUnits.push d).Occupied := by
    induction units generalizing d with
    | nil => exact h
    | cons u units ih => exact ih (h.push u)
  exact hfold nofun

/-- A bucket is there if there are units of it, and holds them. -/
theorem get?_ofUnits_eq_some_iff {units l : List AdUnit} {b : Bucket} :
    (ofUnits units).get? b = some l ↔ l = units.filter (·.bucket = b) ∧ l ≠ [] := by
  have hall : ((ofUnits units).get? b).getD [] = units.filter (·.bucket = b) :=
    all_ofUnits units b.adapter b.bidType
  rw [← hall]
  constructor
  · intro h
    rw [h]
    exact ⟨rfl, occupied_ofUnits units b l h⟩
  · rintro ⟨rfl, hne⟩
    cases h : (ofUnits units).get? b with
    | none =>
      rw [h] at hne
      exact absurd rfl hne
    | some l => rfl

/-- A list is grouped like another one exactly if it has the same parts. -/
theorem ofUnits_eq_iff {units units' : List AdUnit} : ofUnits units = ofUnits units' ↔
    ∀ b, units.filter (·.bucket = b) = units'.filter (·.bucket = b) := by
  constructor
  · intro h b
    have hall := congrArg (fun d => all d b.adapter b.bidType) h
    rwa [all_ofUnits, all_ofUnits] at hall
  · intro h
    refine Dict.ext_get? fun b => Option.ext fun l => ?_
    rw [get?_ofUnits_eq_some_iff, get?_ofUnits_eq_some_iff, h]

/-! ## Buckets put together -/

section

variable {units : List AdUnit} {order : List (Bucket × List AdUnit)}

/-- With the buckets one after the other, in whatever order, the parts are those of the list. -/
theorem filter_flatMap_buckets (h : order.Perm (ofUnits units).entries) (b : Bucket) :
    (order.flatMap (·.2)).filter (·.bucket = b) = units.filter (·.bucket = b) := by
  have hkeys : (order.map (·.1)).Nodup := (h.map _).nodup_iff.2 (Dict.nodup_keys _)
  have hget (b : Bucket) (l : List AdUnit) : (b, l) ∈ order ↔ (ofUnits units).get? b = some l := by
    rw [h.mem_iff, Dict.get?_eq_some_iff]
  have hparts : ∀ e ∈ order, ∀ u ∈ e.2, u.bucket = e.1 := by
    rintro ⟨b, l⟩ he u hu
    obtain ⟨rfl, -⟩ := get?_ofUnits_eq_some_iff.1 ((hget b l).1 he)
    exact of_decide_eq_true (List.mem_filter.1 hu).2
  have hlookup : Dict.lookupEntry b order = (ofUnits units).get? b := by
    ext l
    rw [Dict.lookupEntry_eq_some_iff hkeys, hget]
  rw [filter_flatMap_parts hkeys hparts, hlookup]
  exact all_ofUnits units b.adapter b.bidType

theorem isEmpty_ofUnits_iff : (ofUnits units).isEmpty ↔ units = [] := by
  constructor
  · intro h
    have hnone := fun b => congrArg (Dict.get? · b) (Dict.eq_empty_of_isEmpty h)
    rw [List.eq_nil_iff_forall_not_mem]
    intro u hu
    have hpart : units.filter (·.bucket = u.bucket) ≠ [] :=
      List.ne_nil_of_mem (List.mem_filter.2 ⟨hu, decide_eq_true rfl⟩)
    have hsome := get?_ofUnits_eq_some_iff.2 ⟨rfl, hpart⟩
    rw [hnone] at hsome
    cases hsome
  · rintro rfl
    rfl

end

/-- Units are grouped without loss or repetition. The units of an adapter and a bid type are those of the list in
their order, and the first of them is the first one listed; no bucket is empty, and there is none at all exactly
if nothing is listed. The buckets, one after the other in whatever order, have the units of the list between
them, and are grouped into the same again. -/
theorem ofUnits_in_parts (units : List AdUnit) :
    (∀ a t, (ofUnits units).all a t = units.filter (fun u => u.adapter = a ∧ u.bidType = t)) ∧
    (∀ a t, (ofUnits units).first a t = units.find? (fun u => u.adapter = a ∧ u.bidType = t)) ∧
    (∀ b l, (ofUnits units).get? b = some l → l ≠ []) ∧
    ((ofUnits units).isEmpty ↔ units = []) ∧
    ∀ order : List (Bucket × List AdUnit), order.Perm (ofUnits units).entries →
      (order.flatMap (·.2)).Perm units ∧ ofUnits (order.flatMap (·.2)) = ofUnits units := by
  have hall (a : Adapter) (t : BidType) :
      (ofUnits units).all a t = units.filter (fun u => u.adapter = a ∧ u.bidType = t) := by
    rw [all_ofUnits]
    unfold AdUnit.bucket
    simp only [Bucket.mk.injEq]
  refine ⟨hall, fun a t => ?_, occupied_ofUnits units, isEmpty_ofUnits_iff, fun order horder => ?_⟩
  · unfold first
    rw [hall, List.head?_filter]
  · have hparts := filter_flatMap_buckets horder
    exact ⟨perm_of_filter_eq hparts, ofUnits_eq_iff.2 hparts⟩

/-- Two units that bids fill, with one of another adapter between them, and one with a fixed price. -/
def listedUnits : List AdUnit :=
  [{ adapter := .bidmachine, uid := "1", label := "", bidType := .rtb },
    { adapter := .gam, uid := "2", label := "", bidType := .cpm },
    { adapter := .bidmachine, uid := "3", label := "", bidType := .rtb },
    { adapter := .bidmachine, uid := "4", label := "", bidType := .cpm }]

/-- From the last bucket to the first the units stand in another order than they were listed in, and are grouped
into the same. -/
theorem ofUnits_in_parts_listed :
    let backwards := (ofUnits listedUnits).entries.reverse.flatMap (·.2)
    ((ofUnits listedUnits).all .bidmachine .rtb).map (·.uid) = ["1", "3"] ∧
      backwards.map (·.uid) = ["2", "1", "3", "4"] ∧ backwards.Perm listedUnits ∧
      ofUnits backwards = ofUnits listedUnits := by
  obtain ⟨hall, -, -, -, horder⟩ := ofUnits_in_parts listedUnits
  obtain ⟨hperm, hsame⟩ := horder _ (List.reverse_perm _)
  refine ⟨?_, by decide, hperm, hsame⟩
  rw [hall]
  decide

end AdUnits

end Mediation
