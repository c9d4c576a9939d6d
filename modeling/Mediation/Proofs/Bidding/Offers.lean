/-
Which bid of an OpenRTB answer becomes the answer of an adapter: of the bids with the highest rank the last one,
seat by seat, and with it the seat that makes it. The others do not matter: seats without bids and bids of a
lower rank may stand anywhere.
-/
import Mathlib.Order.Basic
import Mediation.Bidding.Response
import Mediation.Proofs.Lists

namespace Mediation

/-! ## The last of the highest -/

/-- An element of a list that no element outranks, and none after it comes up to. -/
def LastHighest {α : Type} (rank : α → Int) (l : List α) (a : α) : Prop :=
  ∃ before after, l = before ++ a :: after ∧ (∀ x ∈ before, rank x ≤ rank a) ∧
    ∀ x ∈ after, rank x < rank a

namespace LastHighest

variable {α : Type} {rank : α → Int} {l : List α} {a b x : α}

theorem singleton (a : α) : LastHighest rank [a] a :=
  ⟨[], [], rfl, List.forall_mem_nil _, List.forall_mem_nil _⟩

theorem le (h : LastHighest rank l a) (hx : x ∈ l) : rank x ≤ rank a := by
  obtain ⟨before, after, rfl, hbefore, hafter⟩ := h
  rcases List.mem_append.1 hx with hx | hx
  · exact hbefore x hx
  · rcases List.mem_cons.1 hx with rfl | hx
    · exact Int.le_refl _
    · exact Int.le_of_lt (hafter x hx)

theorem concat_of_lt (h : LastHighest rank l a) (hx : rank x < rank a) : LastHighest rank (l ++ [x]) a := by
  obtain ⟨before, after, rfl, hbefore, hafter⟩ := h
  refine ⟨before, after ++ [x], by simp, hbefore, fun y hy => ?_⟩
  rcases List.mem_append.1 hy with hy | hy
  · exact hafter y hy
  · rwa [List.mem_singleton.1 hy]

theorem concat_of_le (h : LastHighest rank l a) (hx : rank a ≤ rank x) : LastHighest rank (l ++ [x]) x :=
  ⟨l, [], rfl, fun _ hy => Int.le_trans (h.le hy) hx, List.forall_mem_nil _⟩

theorem unique (ha : LastHighest rank l a) (hb : LastHighest rank l b) : a = b := by
  obtain ⟨before, after, hl, hbefore, hafter⟩ := ha
  obtain ⟨before', after', hl', hbefore', hafter'⟩ := hb
  rw [hl] at hl'
  -- if one stands before the other, it is outranked by it and yet not
  rcases List.append_eq_append_iff.1 hl' with ⟨mid, rfl, hmid⟩ | ⟨mid, rfl, hmid⟩
  · cases mid with
    | nil => exact (List.cons.inj hmid).1
    | cons y mid =>
      obtain ⟨rfl, rfl⟩ := List.cons.inj hmid
      have hlt := hafter b (by simp)
      have hle := hbefore' a (by simp)
      omega
  · cases mid with
    | nil => exact (List.cons.inj hmid).1.symm
    | cons y mid =>
      obtain ⟨rfl, rfl⟩ := List.cons.inj hmid
      have hlt := hafter' a (by simp)
      have hle := hbefore b (by simp)
      omega

end LastHighest

/-! ## Insertions -/

/-- A list with further elements of a kind put in anywhere. -/
inductive Inserted {α : Type} (P : α → Prop) : List α → List α → Prop
  | nil : Inserted P [] []
  | keep (a : α) {l l' : List α} : Inserted P l l' → Inserted P (a :: l) (a :: l')
  | insert {a : α} {l l' : List α} : P a → Inserted P l l' → Inserted P l (a :: l')

namespace Inserted

variable {α β : Type} {P Q : α → Prop} {l l' l₁ l₁' l₂ l₂' : List α}

theorem of_forall (h : ∀ a ∈ l, P a) : Inserted P [] l := by
  induction l with
  | nil => exact .nil
  | cons a l ih =>
    rw [List.forall_mem_cons] at h
    exact .insert h.1 (ih h.2)

theorem append (h₁ : Inserted P l₁ l₁') (h₂ : Inserted P l₂ l₂') : Inserted P (l₁ ++ l₂) (l₁' ++ l₂') := by
  induction h₁ with
  | nil => exact h₂
  | keep a _ ih => exact .keep a ih
  | insert ha _ ih => exact .insert ha ih

theorem map {P : β → Prop} (f : α → β) (h : Inserted (fun a => P (f a)) l l') :
    Inserted P (l.map f) (l'.map f) := by
  induction h with
  | nil => exact .nil
  | keep a _ ih => exact .keep (f a) ih
  | insert ha _ ih => exact .insert ha ih

theorem imp (hPQ : ∀ a, P a → Q a) (h : Inserted P l l') : Inserted Q l l' := by
  induction h with
  | nil => exact .nil
  | keep a _ ih => exact .keep a ih
  | insert ha _ ih => exact .insert (hPQ _ ha) ih

/-- What holds of the elements and of those put in holds of them all. -/
theorem forall_mem (h : Inserted P l l') (hl : ∀ a ∈ l, Q a) (hP : ∀ a, P a → Q a) : ∀ a ∈ l', Q a := by
  induction h with
  | nil => exact hl
  | keep a _ ih =>
    rw [List.forall_mem_cons] at hl ⊢
    exact ⟨hl.1, ih hl.2⟩
  | insert ha _ ih =>
    rw [List.forall_mem_cons]
    exact ⟨hP _ ha, ih hl⟩

/-- What is put in around an element is put in before it and after it. -/
theorem exists_split {a : α} (h : Inserted P (l₁ ++ a :: l₂) l') :
    ∃ l₁' l₂', l' = l₁' ++ a :: l₂' ∧ Inserted P l₁ l₁' ∧ Inserted P l₂ l₂' := by
  generalize hl : l₁ ++ a :: l₂ = l at h
  induction h generalizing l₁ with
  | nil => simp at hl
  | @keep b l l' hrest ih =>
    cases l₁ with
    | nil =>
      obtain ⟨rfl, rfl⟩ := List.cons.inj hl
      exact ⟨[], l', rfl, .nil, hrest⟩
    | cons c l₁ =>
      obtain ⟨rfl, htail⟩ := List.cons.inj hl
      obtain ⟨l₁', l₂', rfl, h₁, h₂⟩ := ih htail
      exact ⟨c :: l₁', l₂', rfl, .keep c h₁, h₂⟩
  | @insert b l l' hb _ ih =>
    obtain ⟨l₁', l₂', rfl, h₁, h₂⟩ := ih hl
    exact ⟨b :: l₁', l₂', rfl, .insert hb h₁, h₂⟩

end Inserted

/-- Elements of a lower rank make no difference to which one is the last of the highest. -/
theorem LastHighest.of_inserted {α : Type} {rank : α → Int} {l l' : List α} {a : α}
    (h : LastHighest rank l a) (hins : Inserted (fun x => rank x < rank a) l l') : LastHighest rank l' a := by
  obtain ⟨before, after, rfl, hbefore, hafter⟩ := h
  obtain ⟨before', after', rfl, hins₁, hins₂⟩ := hins.exists_split
  exact ⟨before', after', rfl, hins₁.forall_mem hbefore fun _ => Int.le_of_lt,
    hins₂.forall_mem hafter fun _ hx => hx⟩

namespace OpenRtb

/-- Place of an offer among the offers of an answer. -/
def offerRank (o : Bid × Option String) : Int := o.1.price.rank

namespace BidResponse

/-! ## The best offer -/

/-- One more offer: the better of it and the best one so far is the last of the highest. -/
theorem lastHighest_better {l : List (Bid × Option String)} {best : Bid × Option String}
    (h : LastHighest offerRank l best) (o : Bid × Option String) :
    LastHighest offerRank (l ++ [o]) (better best o) := by
  unfold better
  split
  · rename_i hlt
    exact h.concat_of_lt hlt
  · rename_i hle
    exact h.concat_of_le (Int.not_lt.1 hle)

theorem lastHighest_foldl_better {l rest : List (Bid × Option String)} {best : Bid × Option String}
    (h : LastHighest offerRank l best) : LastHighest offerRank (l ++ rest) (rest.foldl better best) := by
  induction rest generalizing l best with
  | nil => rwa [List.append_nil]
  | cons o rest ih =>
    rw [List.foldl_cons, List.append_cons]
    exact ih (lastHighest_better h o)

variable {r r' : BidResponse} {o : Bid × Option String}

theorem best_eq_none_iff : r.best = none ↔ r.offers = [] := by
  unfold best
  cases r.offers <;> simp

/-- The best offer is the last of the highest. -/
theorem best_eq_some_iff : r.best = some o ↔ LastHighest offerRank r.offers o := by
  have hbest : ∀ o', r.best = some o' → LastHighest offerRank r.offers o' := by
    intro o' h
    unfold best at h
    split at h
    · cases h
    · rename_i first rest hoffers
      obtain rfl := Option.some.inj h
      rw [hoffers]
      exact lastHighest_foldl_better (LastHighest.singleton first)
  refine ⟨hbest o, fun h => ?_⟩
  cases hr : r.best with
  | none =>
    obtain ⟨before, after, hoffers, -⟩ := h
    rw [best_eq_none_iff.1 hr] at hoffers
    simp at hoffers
  | some o' => rw [(hbest o' hr).unique h]

/-! ## Seats -/

/-- The bids of seats, each with its seat. -/
def offersOf (seats : List SeatBid) : List (Bid × Option String) :=
  seats.flatMap fun s => s.bids.map fun b => (b, s.seat)

theorem map_fst_offersOf (seats : List SeatBid) : (offersOf seats).map (·.1) = seats.flatMap (·.bids) := by
  unfold offersOf
  rw [List.map_flatMap]
  refine List.flatMap_congr fun s _ => ?_
  rw [List.map_map]
  exact List.map_id _

/-- What holds of the bids of offers, held by the bids themselves. -/
theorem forall_offersOf {seats : List SeatBid} {P : Bid → Prop} :
    (∀ o ∈ offersOf seats, P o.1) ↔ ∀ b ∈ seats.flatMap (·.bids), P b := by
  rw [← map_fst_offersOf, List.forall_mem_map]

/-- A bid of a seat is the best of an answer: no bid before it has a higher rank, and every bid after it has a lower
one, in its own seat and in the seats around it. -/
def IsBest (r : BidResponse) (s : SeatBid) (b : Bid) : Prop :=
  ∃ seats seats' bids bids', r.seats = seats ++ s :: seats' ∧ s.bids = bids ++ b :: bids' ∧
    (∀ x ∈ seats.flatMap (·.bids) ++ bids, x.price.rank ≤ b.price.rank) ∧
    ∀ x ∈ bids' ++ seats'.flatMap (·.bids), x.price.rank < b.price.rank

theorem lastHighest_offers_iff : LastHighest offerRank r.offers o ↔ ∃ s b, r.IsBest s b ∧ o = (b, s.seat) := by
  constructor
  · rintro ⟨before, after, hoffers, hbefore, hafter⟩
    obtain ⟨seats, s, seats', x, y, hseats, hs, rfl, rfl⟩ := exists_split_of_flatMap hoffers
    obtain ⟨bids, rest, hbids, rfl, hrest⟩ := List.map_eq_append_iff.1 hs
    obtain ⟨b, bids', rfl, rfl, rfl⟩ := List.map_eq_cons_iff.1 hrest
    refine ⟨s, b, ⟨seats, seats', bids, bids', hseats, hbids, ?_, ?_⟩, rfl⟩
    · rw [List.forall_mem_append] at hbefore ⊢
      exact ⟨forall_offersOf.1 hbefore.1, fun x hx => hbefore.2 (x, s.seat) (List.mem_map_of_mem hx)⟩
    · rw [List.forall_mem_append] at hafter ⊢
      exact ⟨fun x hx => hafter.1 (x, s.seat) (List.mem_map_of_mem hx), forall_offersOf.1 hafter.2⟩
  · rintro ⟨s, b, ⟨seats, seats', bids, bids', hseats, hbids, hbefore, hafter⟩, rfl⟩
    rw [List.forall_mem_append] at hbefore hafter
    refine ⟨offersOf seats ++ bids.map fun x => (x, s.seat), (bids'.map fun x => (x, s.seat)) ++ offersOf seats',
      ?_, ?_, ?_⟩
    · show offersOf r.seats = _
      rw [hseats]
      unfold offersOf
      rw [List.flatMap_append, List.flatMap_cons, hbids, List.map_append, List.map_cons]
      simp only [List.append_assoc, List.cons_append]
    · exact List.forall_mem_append.2 ⟨forall_offersOf.2 hbefore.1, List.forall_mem_map.2 hbefore.2⟩
    · exact List.forall_mem_append.2 ⟨List.forall_mem_map.2 hafter.1, forall_offersOf.2 hafter.2⟩

theorem best_eq_some_iff_isBest : r.best = some o ↔ ∃ s b, r.IsBest s b ∧ o = (b, s.seat) :=
  best_eq_some_iff.trans lastHighest_offers_iff

theorem best_of_isBest {s : SeatBid} {b : Bid} (h : r.IsBest s b) : r.best = some (b, s.seat) :=
  best_eq_some_iff_isBest.2 ⟨s, b, h, rfl⟩

theorem exists_isBest_iff : (∃ s b, r.IsBest s b) ↔ ∃ s ∈ r.seats, s.bids ≠ [] := by
  constructor
  · rintro ⟨s, b, seats, seats', bids, bids', hseats, hbids, -⟩
    exact ⟨s, by rw [hseats]; simp, by rw [hbids]; simp⟩
  · rintro ⟨s, hs, hne⟩
    cases hr : r.best with
    | none =>
      -- without a best offer no seat would have a bid
      have hnone := List.flatMap_eq_nil_iff.1 (best_eq_none_iff.1 hr) s hs
      exact absurd (List.map_eq_nil_iff.1 hnone) hne
    | some o =>
      obtain ⟨s, b, hbest, -⟩ := best_eq_some_iff_isBest.1 hr
      exact ⟨s, b, hbest⟩

/-! ## Further bids -/

/-- Seats with further bids of a kind put in anywhere, in their own seats or in further ones. A further seat may have
no bid at all. -/
inductive Widened (P : Bid → Prop) : List SeatBid → List SeatBid → Prop
  | nil : Widened P [] []
  | seat {s s' : SeatBid} {l l' : List SeatBid} :
    s'.seat = s.seat → Inserted P s.bids s'.bids → Widened P l l' → Widened P (s :: l) (s' :: l')
  | further {s : SeatBid} {l l' : List SeatBid} : (∀ b ∈ s.bids, P b) → Widened P l l' → Widened P l (s :: l')

theorem Widened.inserted {P : Bid → Prop} {l l' : List SeatBid} (h : Widened P l l') :
    Inserted (fun o => P o.1) (offersOf l) (offersOf l') := by
  induction h with
  | nil => exact .nil
  | @seat s s' l l' hseat hbids _ ih =>
    refine Inserted.append ?_ ih
    show Inserted _ (s.bids.map fun b => (b, s.seat)) (s'.bids.map fun b => (b, s'.seat))
    rw [hseat]
    exact Inserted.map _ hbids
  | @further s l l' hbids _ ih =>
    have hseat : Inserted (fun o => P o.1) [] (s.bids.map fun b => (b, s.seat)) :=
      .of_forall (List.forall_mem_map.2 hbids)
    exact hseat.append ih

/-- Bids of a lower rank than the best one, and seats without bids, change nothing about the best one. -/
theorem best_of_widened
    (h : Widened (fun x => ∃ s b, r.IsBest s b ∧ x.price.rank < b.price.rank) r.seats r'.seats) :
    r'.best = r.best := by
  have hins := h.inserted
  cases hr : r.best with
  | none =>
    -- there is nothing that a bid could have a lower rank than
    have hnone : ∀ s b, ¬ r.IsBest s b := fun s b hbest => by
      rw [best_of_isBest hbest] at hr
      cases hr
    rw [best_eq_none_iff] at hr ⊢
    refine List.eq_nil_iff_forall_not_mem.2 (hins.forall_mem (Q := fun _ => False) ?_ ?_)
    · show ∀ o ∈ r.offers, False
      rw [hr]
      exact List.forall_mem_nil _
    · rintro o ⟨s, b, hbest, -⟩
      exact hnone s b hbest
  | some o =>
    rw [best_eq_some_iff] at hr ⊢
    refine hr.of_inserted (hins.imp ?_)
    rintro x ⟨s, b, hbest, hlt⟩
    rw [hr.unique (lastHighest_offers_iff.2 ⟨s, b, hbest, rfl⟩)]
    exact hlt

end BidResponse

end OpenRtb

namespace Bidding.Response

open OpenRtb (BidResponse SeatBid)

variable {a : Adapter} {rawRequest rawResponse : String} {answer : Option BidResponse} {resp : BidResponse}

/-! ## Answers -/

/-- A bid of a seat, as it is told of an adapter. Texts that the bid does not have are empty. -/
def bidOf (s : SeatBid) (b : OpenRtb.Bid) : Bid where
  id := b.id
  impId := b.impid
  price := b.price
  payload := b.adm.getD ""
  adId := b.adid.getD ""
  seatId := s.seat.getD ""
  lossUrl := b.lurl.getD ""
  noticeUrl := b.nurl.getD ""
  billingUrl := b.burl.getD ""

theorem ofOpenRtb_of_best_none (h : answer.bind BidResponse.best = none) :
    ofOpenRtb a rawRequest rawResponse answer =
      { noBid a with rawRequest := rawRequest, rawResponse := rawResponse } := by
  unfold ofOpenRtb
  rw [h]

theorem ofOpenRtb_of_isBest {s : SeatBid} {b : OpenRtb.Bid} (h : resp.IsBest s b) :
    ofOpenRtb a rawRequest rawResponse (some resp) =
      { ofBid a (bidOf s b) with rawRequest := rawRequest, rawResponse := rawResponse } := by
  unfold ofOpenRtb
  rw [Option.bind_some, BidResponse.best_of_isBest h]
  rfl

theorem isBid_ofOpenRtb_iff : (ofOpenRtb a rawRequest rawResponse answer).isBid ↔
    ∃ resp ∈ answer, ∃ s ∈ resp.seats, s.bids ≠ [] := by
  cases hanswer : answer.bind BidResponse.best with
  | none =>
    rw [ofOpenRtb_of_best_none hanswer]
    refine iff_of_false Bool.false_ne_true ?_
    rintro ⟨resp, rfl, hbid⟩
    obtain ⟨s, b, hbest⟩ := BidResponse.exists_isBest_iff.2 hbid
    rw [Option.bind_some, BidResponse.best_of_isBest hbest] at hanswer
    cases hanswer
  | some o =>
    obtain ⟨resp, rfl, ho⟩ := Option.bind_eq_some_iff.1 hanswer
    obtain ⟨s, b, hbest, -⟩ := BidResponse.best_eq_some_iff_isBest.1 ho
    rw [ofOpenRtb_of_isBest hbest]
    exact iff_of_true rfl ⟨resp, rfl, BidResponse.exists_isBest_iff.1 ⟨s, b, hbest⟩⟩

/-- An OpenRTB answer is a bid exactly if one of its seats has one, and else it says that there is none. Its bid is
told with all its texts and with its own seat, and it is the last one, seat by seat, of those with the highest rank.
Further seats without bids, and further bids of a lower rank, change nothing wherever they stand. What was sent and
what came back is kept as it is in either case. -/
theorem ofOpenRtb_by_best (a : Adapter) (rawRequest rawResponse : String) (answer : Option BidResponse) :
    ((ofOpenRtb a rawRequest rawResponse answer).isBid ↔ ∃ resp ∈ answer, ∃ s ∈ resp.seats, s.bids ≠ []) ∧
    ((ofOpenRtb a rawRequest rawResponse answer).isBid = false →
      ofOpenRtb a rawRequest rawResponse answer =
        { noBid a with rawRequest := rawRequest, rawResponse := rawResponse }) ∧
    (∀ resp ∈ answer, ∀ s b, resp.IsBest s b →
      ofOpenRtb a rawRequest rawResponse answer =
        { ofBid a (bidOf s b) with rawRequest := rawRequest, rawResponse := rawResponse }) ∧
    (∀ resp ∈ answer, (∃ s ∈ resp.seats, s.bids ≠ []) → ∃ s b, resp.IsBest s b) ∧
    ∀ resp ∈ answer, ∀ resp' : BidResponse,
      BidResponse.Widened (fun x => ∃ s b, resp.IsBest s b ∧ x.price.rank < b.price.rank) resp.seats resp'.seats →
      ofOpenRtb a rawRequest rawResponse (some resp') = ofOpenRtb a rawRequest rawResponse answer := by
  refine ⟨isBid_ofOpenRtb_iff, fun h => ?_, ?_, fun resp _ => BidResponse.exists_isBest_iff.2, ?_⟩
  · refine ofOpenRtb_of_best_none (Option.eq_none_iff_forall_ne_some.2 fun o ho => ?_)
    obtain ⟨resp, rfl, ho⟩ := Option.bind_eq_some_iff.1 ho
    obtain ⟨s, b, hbest, -⟩ := BidResponse.best_eq_some_iff_isBest.1 ho
    rw [ofOpenRtb_of_isBest hbest] at h
    cases h
  · rintro resp rfl s b hbest
    exact ofOpenRtb_of_isBest hbest
  · rintro resp rfl resp' hwidened
    unfold ofOpenRtb
    rw [Option.bind_some, Option.bind_some, BidResponse.best_of_widened hwidened]

/-- A bid with an identifier and a price and with nothing else. -/
def plainBid (id : String) (price : Price) : OpenRtb.Bid :=
  ⟨id, "1", price, none, none, none, none, none, .empty⟩

def markedBid : OpenRtb.Bid := { plainBid "c" 2.0 with adm := some "<ad/>" }

def seatOf (name : String) (bids : List OpenRtb.Bid) : SeatBid := ⟨bids, some name, .empty⟩

/-- Two seats with bids at the same highest price, the later one with a markup, and a seat without bids. -/
def evenAnswer : BidResponse where
  id := "r"
  seats := [seatOf "first" [plainBid "a" 1.5, plainBid "b" 2.0], seatOf "none" [],
    seatOf "second" [markedBid, plainBid "d" 1.0]]
  extra := .empty

/-- The same bids, with a seat without bids before them and a bid at a lower price after the best one. -/
def widenedAnswer : BidResponse where
  id := "r"
  seats := [seatOf "zeroth" [], seatOf "first" [plainBid "a" 1.5, plainBid "b" 2.0], seatOf "none" [],
    seatOf "second" [markedBid, plainBid "e" 1.9, plainBid "d" 1.0]]
  extra := .empty

/-- The later of two bids at one price is told with its own seat, whatever lower bids there are. -/
theorem ofOpenRtb_by_best_even :
    evenAnswer.IsBest (seatOf "second" [markedBid, plainBid "d" 1.0]) markedBid ∧
      (ofOpenRtb .moloco "q" "r" (some evenAnswer)).bid =
        some { id := "c", impId := "1", price := 2.0, payload := "<ad/>", seatId := "second" } ∧
      ofOpenRtb .moloco "q" "r" (some widenedAnswer) = ofOpenRtb .moloco "q" "r" (some evenAnswer) ∧
      ofOpenRtb .moloco "q" "" none = { noBid .moloco with rawRequest := "q" } := by
  obtain ⟨-, -, hbest, -, hwidened⟩ := ofOpenRtb_by_best .moloco "q" "r" (some evenAnswer)
  have hmarked : evenAnswer.IsBest (seatOf "second" [markedBid, plainBid "d" 1.0]) markedBid :=
    ⟨[seatOf "first" [plainBid "a" 1.5, plainBid "b" 2.0], seatOf "none" []], [], [], [plainBid "d" 1.0], rfl, rfl,
      by decide +kernel, by decide +kernel⟩
  refine ⟨hmarked, ?_, hwidened _ rfl _ ?_, (ofOpenRtb_by_best .moloco "q" "" none).2.1 rfl⟩
  · rw [hbest _ rfl _ _ hmarked]
    rfl
  · have he : ∃ s b, evenAnswer.IsBest s b ∧ (plainBid "e" 1.9).price.rank < b.price.rank :=
      ⟨_, _, hmarked, by decide +kernel⟩
    exact .further (List.forall_mem_nil _)
      (.seat rfl (.keep _ (.keep _ .nil)) (.seat rfl .nil (.seat rfl (.keep _ (.insert he (.keep _ .nil))) .nil)))

end Bidding.Response

end Mediation
