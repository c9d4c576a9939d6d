/-
Ad units grouped by adapter and bid type. A group is never empty and keeps its units in the order in
which they were listed.
-/
import Mediation.AdUnit

namespace Mediation

/-! ## Groups -/

/-- An adapter and the way its units are priced. -/
structure Bucket where
  adapter : Adapter
  bidType : BidType
  deriving DecidableEq, Repr

namespace Bucket

/-- Place among all buckets. -/
def index (b : Bucket) : Nat := 2 * b.adapter.index + b.bidType.ctorIdx

theorem index_injective {a b : Bucket} (h : a.index = b.index) : a = b := by
  obtain ⟨x, s⟩ := a
  obtain ⟨y, t⟩ := b
  simp only [index] at h
  have hs : s.ctorIdx < 2 := by cases s <;> decide
  have ht : t.ctorIdx < 2 := by cases t <;> decide
  have hxy : x = y := Adapter.index_injective (by omega)
  have hst : s.ctorIdx = t.ctorIdx := by omega
  subst hxy
  cases s <;> cases t <;> first | rfl | exact absurd hst (by decide)

instance : Ord Bucket := ⟨fun a b => compare a.index b.index⟩

instance : Std.TransOrd Bucket where
  eq_swap {a b} := Std.OrientedOrd.eq_swap (a := a.index) (b := b.index)
  isLE_trans {a b c} := Std.TransOrd.isLE_trans (a := a.index) (b := b.index) (c := c.index)

instance : Std.LawfulEqOrd Bucket where
  eq_of_compare h := index_injective (Std.LawfulEqOrd.compare_eq_iff_eq.1 h)

end Bucket

def AdUnit.bucket (u : AdUnit) : Bucket := ⟨u.adapter, u.bidType⟩

/-! ## Grouped units -/

/-- Ad units by bucket. -/
abbrev AdUnits := Dict Bucket (List AdUnit)

namespace AdUnits

/-- The units of a bucket, in their order. -/
def all (d : AdUnits) (a : Adapter) (t : BidType) : List AdUnit := (d.get? ⟨a, t⟩).getD []

/-- The first unit of a bucket. -/
def first (d : AdUnits) (a : Adapter) (t : BidType) : Option AdUnit := (d.all a t).head?

/-- Puts a unit behind those of its bucket. -/
def push (d : AdUnits) (u : AdUnit) : AdUnits :=
  d.insert u.bucket (d.all u.adapter u.bidType ++ [u])

/-- Groups units. -/
def ofUnits (units : List AdUnit) : AdUnits := units.foldl push .empty

theorem all_push (d : AdUnits) (u : AdUnit) (a : Adapter) (t : BidType) :
    (d.push u).all a t = if u.bucket = ⟨a, t⟩ then d.all a t ++ [u] else d.all a t := by
  unfold push all
  rw [Dict.get?_insert]
  by_cases h : u.bucket = ⟨a, t⟩
  · have ha : u.adapter = a := congrArg Bucket.adapter h
    have ht : u.bidType = t := congrArg Bucket.bidType h
    simp [h, ha, ht]
  · simp [h, Ne.symm h]

/-- A bucket holds the units of its adapter and bid type, in the order in which they were listed. -/
theorem all_ofUnits (units : List AdUnit) (a : Adapter) (t : BidType) :
    (ofUnits units).all a t = units.filter (·.bucket = ⟨a, t⟩) := by
  have hfold (d : AdUnits) :
      (units.foldl push d).all a t = d.all a t ++ units.filter (·.bucket = ⟨a, t⟩) := by
    induction units generalizing d with
    | nil => simp
    | cons u units ih =>
      rw [List.foldl_cons, ih, all_push]
      by_cases h : u.bucket = ⟨a, t⟩ <;> simp [h]
  exact (hfold .empty).trans (List.nil_append _)

end AdUnits

end Mediation
