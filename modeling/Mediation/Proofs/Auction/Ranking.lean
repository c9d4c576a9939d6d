/-
The order of the units in a response. They stand from the highest price down, in the total order of
prices, and units of one price stand as they were put in: those with a fixed price in the order in which
they were matched, then the bids in the order of the round. There is only one such list.
-/
import Mediation.Proofs.Auction.Assembly
import Mediation.Proofs.Price

namespace Mediation.Auction

/-! ## Stable sorting -/

section

variable {α : Type}

/-- Sorting does not move elements against each other that may stand in either order. -/
theorem filter_mergeSort {le : α → α → Bool} (htrans : ∀ a b c, le a b → le b c → le a c)
    (htotal : ∀ a b, le a b || le b a) {p : α → Bool} (hp : ∀ a b, p a → p b → le a b) (l : List α) :
    (l.mergeSort le).filter p = l.filter p := by
  have hsorted : (l.filter p).Pairwise fun a b => le a b :=
    List.pairwise_of_forall_mem_list fun a ha b hb =>
      hp a b (List.mem_filter.1 ha).2 (List.mem_filter.1 hb).2
  -- what sorting keeps in order is all that it keeps of the kind
  have hsub := (List.sublist_mergeSort htrans htotal hsorted List.filter_sublist).filter p
  rw [List.filter_filter] at hsub
  simp only [Bool.and_self] at hsub
  exact (hsub.eq_of_length ((List.mergeSort_perm l le).filter p).length_eq.symm).symm

theorem le_head {f : α → Int} {a b : α} {l : List α} (hl : (b :: l).Pairwise fun a b => f b ≤ f a)
    (ha : a ∈ b :: l) : f a ≤ f b := by
  rcases List.mem_cons.1 ha with rfl | ha
  · exact Int.le_refl _
  · exact (List.pairwise_cons.1 hl).1 a ha

/-- Of lists that fall in some measure, one is part of the other if its parts of one measure each are. -/
theorem sublist_of_filter_sublist {f : α → Int} {l l' : List α} (hl : l.Pairwise fun a b => f b ≤ f a)
    (hl' : l'.Pairwise fun a b => f b ≤ f a)
    (h : ∀ k, (l'.filter (f · = k)).Sublist (l.filter (f · = k))) : l'.Sublist l := by
  have hmem {l l' : List α} (h : ∀ k, (l'.filter (f · = k)).Sublist (l.filter (f · = k))) {a : α}
      (ha : a ∈ l') : a ∈ l := by
    have hfilter : a ∈ l'.filter (f · = f a) := List.mem_filter.2 ⟨ha, decide_eq_true rfl⟩
    exact (List.mem_filter.1 ((h (f a)).subset hfilter)).1
  induction l generalizing l' with
  | nil =>
    rw [List.eq_nil_iff_forall_not_mem.2 fun a ha => List.not_mem_nil (hmem h ha)]
  | cons a l ih =>
    have htail := (List.pairwise_cons.1 hl).2
    have hother {k : Int} (hk : f a ≠ k) : (a :: l).filter (f · = k) = l.filter (f · = k) :=
      List.filter_cons_of_neg (by simpa using hk)
    have hsame : (a :: l).filter (f · = f a) = a :: l.filter (f · = f a) :=
      List.filter_cons_of_pos (by simp)
    have hhead := h (f a)
    rw [hsame, List.sublist_cons_iff] at hhead
    rcases hhead with hskip | ⟨rest, hrest, hsub⟩
    · -- the head is not among those that are left
      refine (ih htail hl' fun k => ?_).cons a
      by_cases hk : f a = k
      · exact hk ▸ hskip
      · exact hother hk ▸ h k
    · -- the head is left, and it is the first one there, since nothing that is left is above it
      have ha : a ∈ l' := (List.mem_filter.1 (hrest ▸ List.mem_cons_self : a ∈ l'.filter _)).1
      cases l' with
      | nil => cases ha
      | cons b l' =>
        have hba : f b = f a := Int.le_antisymm (le_head hl (hmem h List.mem_cons_self)) (le_head hl' ha)
        rw [List.filter_cons_of_pos (by simp [hba]), List.cons.injEq] at hrest
        obtain ⟨rfl, hrest⟩ := hrest
        refine (ih htail (List.pairwise_cons.1 hl').2 fun k => ?_).cons_cons b
        by_cases hk : f b = k
        · subst hk
          rw [hrest]
          exact hsub
        · have hk' := h k
          rwa [hother hk, List.filter_cons_of_neg (by simpa using hk)] at hk'

/-- A list that falls in some measure is given by its parts of one measure each. -/
theorem eq_of_filter_eq {f : α → Int} {l l' : List α} (hl : l.Pairwise fun a b => f b ≤ f a)
    (hl' : l'.Pairwise fun a b => f b ≤ f a)
    (h : ∀ k, l.filter (f · = k) = l'.filter (f · = k)) : l = l' :=
  (sublist_of_filter_sublist hl' hl fun k => h k ▸ List.Sublist.refl _).antisymm
    (sublist_of_filter_sublist hl hl' fun k => h k ▸ List.Sublist.refl _)

end

/-! ## Units of a response -/

/-- A list of units ranks others: it falls in the total order of prices, where a unit without a price
counts as free, and its units of one price are the others of that price in their order. -/
structure Ranks (units inserted : List AdUnit) : Prop where
  descending : units.Pairwise fun u v => v.rankingPrice.rank ≤ u.rankingPrice.rank
  stable : ∀ k, units.filter (·.rankingPrice.rank = k) = inserted.filter (·.rankingPrice.rank = k)

/-- Only the prices that occur matter for the parts of one price. -/
theorem ranks_iff {units inserted : List AdUnit} : Ranks units inserted ↔
    (units.Pairwise fun u v => v.rankingPrice.rank ≤ u.rankingPrice.rank) ∧
      ∀ k ∈ (units ++ inserted).map (·.rankingPrice.rank),
        units.filter (·.rankingPrice.rank = k) = inserted.filter (·.rankingPrice.rank = k) := by
  refine ⟨fun h => ⟨h.descending, fun k _ => h.stable k⟩, fun ⟨hdescending, hstable⟩ =>
    ⟨hdescending, fun k => ?_⟩⟩
  by_cases hk : k ∈ (units ++ inserted).map (·.rankingPrice.rank)
  · exact hstable k hk
  · have hnone {l : List AdUnit} (hl : l ⊆ units ++ inserted) :
        l.filter (·.rankingPrice.rank = k) = [] :=
      List.filter_eq_nil_iff.2 fun u hu h => hk (List.mem_map.2 ⟨u, hl hu, of_decide_eq_true h⟩)
    rw [hnone (List.subset_append_left _ _), hnone (List.subset_append_right _ _)]

instance {units inserted : List AdUnit} : Decidable (Ranks units inserted) :=
  decidable_of_iff _ ranks_iff.symm

theorem Ranks.unique {units units' inserted : List AdUnit} (h : Ranks units inserted)
    (h' : Ranks units' inserted) : units = units' :=
  eq_of_filter_eq (f := fun u => u.rankingPrice.rank) h.descending h'.descending fun k =>
    (h.stable k).trans (h'.stable k).symm

theorem Ranks.mem_iff {units inserted : List AdUnit} (h : Ranks units inserted) {u : AdUnit} :
    u ∈ units ↔ u ∈ inserted := by
  have hpart (l : List AdUnit) : u ∈ l ↔ u ∈ l.filter (·.rankingPrice.rank = u.rankingPrice.rank) := by
    rw [List.mem_filter, and_iff_left (decide_eq_true rfl)]
  rw [hpart units, h.stable, ← hpart]

/-- What ranks part of the others is part of what ranks them all. -/
theorem Ranks.sublist {units units' inserted inserted' : List AdUnit} (h : Ranks units inserted)
    (h' : Ranks units' inserted') (hsub : inserted'.Sublist inserted) : units'.Sublist units := by
  refine sublist_of_filter_sublist (f := fun u => u.rankingPrice.rank) h.descending h'.descending
    fun k => ?_
  rw [h.stable k, h'.stable k]
  exact hsub.filter _

theorem Ranks.filter {units inserted : List AdUnit} (h : Ranks units inserted) (p : AdUnit → Bool) :
    Ranks (units.filter p) (inserted.filter p) where
  descending := h.descending.filter p
  stable k := by
    rw [List.filter_comm, h.stable k, List.filter_comm]

theorem standsBefore_trans (u v w : AdUnit) : standsBefore u v → standsBefore v w → standsBefore u w :=
  Price.ranksFirst_trans _ _ _

theorem standsBefore_total (u v : AdUnit) : standsBefore u v || standsBefore v u :=
  Price.ranksFirst_total _ _

theorem standsBefore_iff {u v : AdUnit} :
    standsBefore u v ↔ v.rankingPrice.rank ≤ u.rankingPrice.rank := decide_eq_true_iff

theorem ranks_mergeSort (l : List AdUnit) : Ranks (l.mergeSort standsBefore) l where
  descending :=
    (List.pairwise_mergeSort standsBefore_trans standsBefore_total l).imp fun h => standsBefore_iff.1 h
  stable k := by
    refine filter_mergeSort standsBefore_trans standsBefore_total (fun u v hu hv => ?_) l
    rw [decide_eq_true_iff] at hu hv
    exact standsBefore_iff.2 (Int.le_of_eq (hv.trans hu.symm))

/-- The units of a response as they are put in: those with a fixed price as they were matched, then the
bids above the floor in the order of the round. -/
def insertedUnits (r : Request) (result : Result) : List AdUnit :=
  result.cpmAdUnits.map (withMediator r.mediator) ++
    converted r result (result.round.responses.filter (clears result.priceFloor))

theorem ranks_respond (r : Request) (result : Result) :
    Ranks (respond r result).adUnits (insertedUnits r result) := by
  rw [adUnits_respond]
  exact ranks_mergeSort _

/-- The units of a response are those that are put in, from the highest price down in the total order, and
so in the numeric one where prices are numbers; units of one price keep their order. No other list has
this property. -/
theorem adUnits_ranked (r : Request) (result : Result) :
    Ranks (respond r result).adUnits (insertedUnits r result) ∧
    (respond r result).adUnits.Perm (insertedUnits r result) ∧
    ((respond r result).adUnits.Pairwise fun u v => u.rankingPrice.isNaN = false →
      v.rankingPrice.isNaN = false → v.rankingPrice ≤ u.rankingPrice) ∧
    ∀ units, Ranks units (insertedUnits r result) → units = (respond r result).adUnits := by
  have hranks := ranks_respond r result
  refine ⟨hranks, adUnits_respond_perm r result, ?_, fun units h => h.unique hranks⟩
  exact hranks.descending.imp fun h hu hv => Price.le_of_rank_le hv hu h

/-- Six units with a fixed price, one of them without a floor, two at zeros of either sign and two at what
is no number, with either sign too, and one unit for two bids. -/
def mixedResult : Result where
  config := { id := 1, uid := "1" }
  segment := .zero
  adUnits := [⟨.bidmachine, "5", "", .rtb, none, none, {}⟩]
  cpmAdUnits := [⟨.metaNetwork, "1", "", .cpm, some (-0.0), none, {}⟩, ⟨.gam, "2", "", .cpm, none, none, {}⟩,
    ⟨.inmobi, "6", "", .cpm, some ⟨0xfff8000000000000⟩, none, {}⟩,
    ⟨.admob, "3", "", .cpm, some 5.0, none, {}⟩, ⟨.vungle, "4", "", .cpm, some 0.0, none, {}⟩,
    ⟨.mintegral, "7", "", .cpm, some ⟨0x7ff8000000000000⟩, none, {}⟩]
  round := { responses := [.ofBid .bidmachine { price := 5.0 }, .ofBid .bidmachine { price := 7.0 }] }
  priceFloor := 0.01
  timeout := 1000

/-- The bid at the price of a unit stands after it, the unit without a floor before the one at zero, and
the negative zero after both. What is no number stands first or last, by its sign. -/
theorem adUnits_ranked_mixed :
    (respond { impression := {} } mixedResult).adUnits.map (·.uid) = ["7", "5", "3", "5", "2", "4", "1", "6"] := by
  have hranks : ∃ units, Ranks units (insertedUnits { impression := {} } mixedResult) ∧
      units.map (·.uid) = ["7", "5", "3", "5", "2", "4", "1", "6"] := by
    refine ⟨[5, 7, 3, 6, 1, 4, 0, 2].filterMap ((insertedUnits { impression := {} } mixedResult)[·]?), ?_⟩
    decide +kernel
  -- the sort does not reduce, but no other list than this one ranks the units
  obtain ⟨units, hranks, huids⟩ := hranks
  obtain ⟨-, -, -, hunique⟩ := adUnits_ranked { impression := {} } mixedResult
  rw [← hunique units hranks]
  exact huids

end Mediation.Auction
