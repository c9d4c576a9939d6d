/-
The fan-out of a bidding round against a round in which every call stands alone. Calls overlap and end
in any order, but what a round answers is one block for each adapter that was asked, in the order of
asking, and a block depends on nothing but the bidder of its adapter.
-/
import Mathlib.Data.List.Basic
import Mathlib.Data.List.Find
import Mathlib.Data.List.Forall2
import Mathlib.Data.List.Nodup
import Mediation.Bidding.Round

namespace Mediation.Bidding

/-! ## One call by itself -/

/-- The answers to one call, held by itself: what the bidder says if it is ready at once or by the
deadline, and else that the time is up. -/
def block (p : Params) (start : Nat) (a : Adapter) : Option Bidder → List Response
  | none => [{ adapter := a, status := .error, errorMessage := some "bidder not registered" }]
  | some b =>
    let reply := b.fetch (p.baseRequest start) p.request p.initConfigs
    if reply.delay = 0 ∨ start + reply.delay ≤ p.deadline then
      match reply.answer with
      | .ok [] => [{ adapter := a, status := .noBid }]
      | .ok answers => answers
      | .error e => [{ adapter := a, status := .error, errorMessage := some e.message }]
    else [{ adapter := a, status := .timeout, errorMessage := some "deadline exceeded" }]

theorem heard_iff {deadline start delay : Nat} :
    heard deadline start delay = true ↔ delay = 0 ∨ start + delay ≤ deadline := by
  unfold heard
  rw [Bool.or_eq_true, beq_iff_eq, decide_eq_true_iff]

theorem answersOf_eq (a : Adapter) (answer : Except AuctionError (List Response)) :
    answersOf a answer = match answer with
      | .ok [] => [{ adapter := a, status := .noBid }]
      | .ok answers => answers
      | .error e => [{ adapter := a, status := .error, errorMessage := some e.message }] := by
  rcases answer with e | (_ | ⟨r, rs⟩) <;> rfl

theorem answersOf_ne_nil (a : Adapter) (answer : Except AuctionError (List Response)) :
    answersOf a answer ≠ [] := by
  rcases answer with e | (_ | ⟨r, rs⟩) <;> exact List.cons_ne_nil _ _

section

variable (bidders : Bidders) (p : Params) (start : Nat)

theorem place_arrival (i : Nat) (a : Adapter) : (arrival bidders p start i a).place = i := by
  unfold arrival
  split
  · rfl
  · dsimp only
    split <;> rfl

/-- A call ends with the block of its adapter, whatever becomes of the other calls. -/
theorem answers_arrival (i : Nat) (a : Adapter) :
    (arrival bidders p start i a).answers = block p start a (bidders.get? a) := by
  unfold arrival block
  cases bidders.get? a with
  | none => rfl
  | some b =>
    simp only [← heard_iff, ← answersOf_eq]
    split <;> rfl

end

/-- Every adapter that is asked has something to its name in the round. -/
theorem block_ne_nil (p : Params) (start : Nat) (a : Adapter) (b : Option Bidder) :
    block p start a b ≠ [] := by
  unfold block
  cases b with
  | none => exact List.cons_ne_nil _ _
  | some b =>
    simp only [← answersOf_eq]
    split
    · exact answersOf_ne_nil _ _
    · exact List.cons_ne_nil _ _

/-- The answers that a bidder itself gives in time. -/
def heardFrom (p : Params) (start : Nat) (b : Bidder) : List Response :=
  let reply := b.fetch (p.baseRequest start) p.request p.initConfigs
  if reply.delay = 0 ∨ start + reply.delay ≤ p.deadline then
    match reply.answer with
    | .ok answers => answers
    | .error _ => []
  else []

/-- What a bidder says is in its block, and whatever else is in it is to the name of its adapter. -/
theorem mem_block_some {p : Params} {start : Nat} {a : Adapter} {b : Bidder} {r : Response}
    (h : r ∈ block p start a (some b)) : r ∈ heardFrom p start b ∨ r.adapter = a := by
  revert h
  unfold block heardFrom
  dsimp only
  rcases b.fetch (p.baseRequest start) p.request p.initConfigs with ⟨delay, e | (_ | ⟨q, qs⟩)⟩
  all_goals dsimp only; split <;> intro h
  case ok.cons.isTrue => exact .inl h
  all_goals cases List.mem_singleton.1 h; exact .inr rfl

theorem mem_block {p : Params} {start : Nat} {a : Adapter} {bidder : Option Bidder} {r : Response}
    (h : r ∈ block p start a bidder) :
    (∃ b, bidder = some b ∧ r ∈ heardFrom p start b) ∨ r.adapter = a := by
  cases bidder with
  | none =>
    cases List.mem_singleton.1 h
    exact .inr rfl
  | some b => exact (mem_block_some h).imp_left fun h => ⟨b, rfl, h⟩

theorem heardFrom_subset_block (p : Params) (start : Nat) (a : Adapter) (b : Bidder) :
    heardFrom p start b ⊆ block p start a (some b) := by
  unfold block heardFrom
  dsimp only
  rcases b.fetch (p.baseRequest start) p.request p.initConfigs with ⟨delay, e | (_ | ⟨q, qs⟩)⟩
  all_goals dsimp only; split
  case ok.cons.isTrue => exact List.Subset.refl _
  all_goals exact List.nil_subset _

/-! ## Places -/

/-- Where no two calls have one place, the call of a place is found in any order of their ends. -/
theorem find?_place_perm {l l' : List Arrival} (h : l.Perm l') (hn : (l.map (·.place)).Nodup) (i : Nat) :
    l.find? (·.place == i) = l'.find? (·.place == i) := by
  refine List.find?_eq_find?_of_perm h ?_
  rintro x ⟨hx, hxi⟩ y ⟨hy, hyi⟩
  exact List.inj_on_of_nodup_map hn hx hy ((beq_iff_eq.1 hxi).trans (beq_iff_eq.1 hyi).symm)

theorem collect_perm {l l' : List Arrival} (h : l.Perm l') (hn : (l.map (·.place)).Nodup) (n : Nat) :
    collect n l = collect n l' := by
  unfold collect
  simp only [find?_place_perm h hn]

/-- Calls that are listed by their places are collected as they are listed. -/
theorem flatMap_range'_places {l : List Arrival} {k : Nat}
    (h : l.map (·.place) = List.range' k l.length) :
    (List.range' k l.length).flatMap (fun i => ((l.find? (·.place == i)).map (·.answers)).getD []) =
      l.flatMap (·.answers) := by
  induction l generalizing k with
  | nil => rfl
  | cons x l ih =>
    rw [List.map_cons, List.length_cons, List.range'_succ, List.cons.injEq] at h
    rw [List.length_cons, List.range'_succ, List.flatMap_cons, List.flatMap_cons, ← ih h.2]
    -- the first call has the first place, and no call after it has that place
    have hx : (x :: l).find? (·.place == k) = some x := List.find?_cons_of_pos (by simp [h.1])
    have hl : ∀ i ∈ List.range' (k + 1) l.length,
        (x :: l).find? (·.place == i) = l.find? (·.place == i) := by
      intro i hi
      have := (List.mem_range'_1.1 hi).1
      exact List.find?_cons_of_neg (by rw [beq_iff_eq, h.1]; omega)
    rw [hx]
    congr 1
    exact List.flatMap_congr fun i hi => by rw [hl i hi]

/-! ## All calls together -/

section

variable (bidders : Bidders) (p : Params) (start : Nat)

/-- The ends of the calls of a round, in the order of asking. -/
def callEnds : List Arrival :=
  p.dispatched.zipIdx.map fun (a, place) => arrival bidders p start place a

theorem arrivals_perm : (arrivals bidders p start).Perm (callEnds bidders p start) :=
  List.mergeSort_perm _ _

theorem length_callEnds : (callEnds bidders p start).length = p.dispatched.length := by
  unfold callEnds; rw [List.length_map, List.length_zipIdx]

theorem map_place_callEnds :
    (callEnds bidders p start).map (·.place) = List.range' 0 p.dispatched.length := by
  unfold callEnds
  rw [List.map_map, ← List.zipIdx_map_snd 0 p.dispatched]
  exact List.map_congr_left fun a _ => place_arrival bidders p start a.2 a.1

theorem flatMap_answers_callEnds : (callEnds bidders p start).flatMap (·.answers) =
    p.dispatched.flatMap fun a => block p start a (bidders.get? a) := by
  unfold callEnds
  rw [List.flatMap_map]
  conv_rhs => rw [← List.zipIdx_map_fst 0 p.dispatched, List.flatMap_map]
  exact List.flatMap_congr fun a _ => answers_arrival bidders p start a.2 a.1

/-- Whatever order the calls end in, what is collected is one block after the other. -/
theorem collect_of_perm {ends : List Arrival} (h : ends.Perm (callEnds bidders p start)) :
    collect p.dispatched.length ends =
      p.dispatched.flatMap fun a => block p start a (bidders.get? a) := by
  -- the places are the numbers below the number of calls, in whatever order the calls end
  have hn : (ends.map (·.place)).Nodup := by
    rw [(h.map _).nodup_iff, map_place_callEnds]
    exact List.nodup_range'
  rw [collect_perm h hn, ← flatMap_answers_callEnds]
  unfold collect
  rw [List.range_eq_range', ← length_callEnds bidders p start]
  refine flatMap_range'_places ?_
  rw [map_place_callEnds, length_callEnds]

/-- The instant at which the last call of a round has ended. -/
def roundEnd : Nat := lastArrival start (arrivals bidders p start)

end

/-! ## When calls end -/

/-- The instant at which the call of an adapter has been answered or cut off. Without a bidder it has as soon as it
is made. -/
def callEnd (p : Params) (start : Nat) : Option Bidder → Nat
  | none => start
  | some b =>
    let delay := (b.fetch (p.baseRequest start) p.request p.initConfigs).delay
    if delay = 0 ∨ start + delay ≤ p.deadline then start + delay else max start p.deadline

theorem time_arrival (bidders : Bidders) (p : Params) (start place : Nat) (a : Adapter) :
    (arrival bidders p start place a).time = callEnd p start (bidders.get? a) := by
  unfold arrival callEnd
  cases bidders.get? a with
  | none => rfl
  | some b =>
    simp only [← heard_iff]
    split <;> rfl

theorem le_callEnd (p : Params) (start : Nat) (b : Option Bidder) : start ≤ callEnd p start b := by
  unfold callEnd
  cases b with
  | none => exact Nat.le_refl start
  | some b =>
    dsimp only
    split
    · exact Nat.le_add_right _ _
    · exact Nat.le_max_left _ _

theorem le_lastArrival (start : Nat) (l : List Arrival) :
    start ≤ lastArrival start l ∧ ∀ e ∈ l, e.time ≤ lastArrival start l := by
  unfold lastArrival
  induction l generalizing start with
  | nil => exact ⟨Nat.le_refl _, fun e he => absurd he List.not_mem_nil⟩
  | cons y l ih =>
    obtain ⟨hstart, hall⟩ := ih (max start y.time)
    refine ⟨Nat.le_trans (Nat.le_max_left _ _) hstart, fun e he => ?_⟩
    rcases List.mem_cons.1 he with rfl | he
    · exact Nat.le_trans (Nat.le_max_right _ _) hstart
    · exact hall e he

theorem lastArrival_mem (start : Nat) (l : List Arrival) :
    lastArrival start l = start ∨ ∃ e ∈ l, lastArrival start l = e.time := by
  unfold lastArrival
  induction l generalizing start with
  | nil => exact .inl rfl
  | cons y l ih =>
    rw [List.foldl_cons]
    rcases ih (max start y.time) with h | ⟨e, he, h⟩
    · rw [h]
      rcases Nat.le_total start y.time with hle | hle
      · exact .inr ⟨y, List.mem_cons_self, Nat.max_eq_right hle⟩
      · exact .inl (Nat.max_eq_left hle)
    · exact .inr ⟨e, List.mem_cons_of_mem _ he, h⟩

section

variable (bidders : Bidders) (p : Params) (start : Nat)

theorem mem_arrivals_iff {e : Arrival} : e ∈ arrivals bidders p start ↔
    ∃ a place, (a, place) ∈ p.dispatched.zipIdx ∧ arrival bidders p start place a = e := by
  rw [(arrivals_perm bidders p start).mem_iff]
  unfold callEnds
  rw [List.mem_map, Prod.exists]

theorem callEnd_le_roundEnd {a : Adapter} (ha : a ∈ p.dispatched) :
    callEnd p start (bidders.get? a) ≤ roundEnd bidders p start := by
  rw [← List.zipIdx_map_fst 0 p.dispatched] at ha
  obtain ⟨⟨a, place⟩, hplace, rfl⟩ := List.mem_map.1 ha
  rw [← time_arrival bidders p start place]
  exact (le_lastArrival start _).2 _ ((mem_arrivals_iff bidders p start).2 ⟨a, place, hplace, rfl⟩)

/-- A round ends when the last of its calls does. -/
theorem exists_callEnd_eq_roundEnd (h : p.dispatched ≠ []) :
    ∃ a ∈ p.dispatched, callEnd p start (bidders.get? a) = roundEnd bidders p start := by
  rcases lastArrival_mem start (arrivals bidders p start) with hstart | ⟨e, he, htime⟩
  · -- a round that takes no time ends with any of its calls
    obtain ⟨a, ha⟩ := List.exists_mem_of_ne_nil _ h
    have hend : roundEnd bidders p start ≤ callEnd p start (bidders.get? a) :=
      Nat.le_trans (Nat.le_of_eq hstart) (le_callEnd p start _)
    exact ⟨a, ha, Nat.le_antisymm (callEnd_le_roundEnd bidders p start ha) hend⟩
  · obtain ⟨a, place, ha, rfl⟩ := (mem_arrivals_iff bidders p start).1 he
    rw [time_arrival] at htime
    exact ⟨a, List.fst_mem_of_mem_zipIdx ha, htime.symm⟩

end

/-! ## Rounds -/

section

variable (clock : Clock) (bidders : Bidders) (listener : Listener) (p : Params) (start : Nat)

theorem value_gather : (gather clock bidders p start).value =
    { responses := (p.dispatched.flatMap fun a => block p start a (bidders.get? a)).map
        (stamp p (clock.millis (roundEnd bidders p start))) } := by
  rw [← collect_of_perm bidders p start (arrivals_perm bidders p start)]
  rfl

/-- A round is one block for each adapter that was asked, in the order of asking. -/
theorem value_holdRound : (holdRound clock bidders listener p start).value =
    { responses := (p.dispatched.flatMap fun a => block p start a (bidders.get? a)).map
        (stamp p (clock.millis (roundEnd bidders p start))) } := by
  unfold holdRound
  split
  · rename_i h
    rw [List.isEmpty_iff.1 h]
    rfl
  · exact value_gather clock bidders p start

/-- With nobody to ask there is no round: it takes no step and no time. -/
theorem holdRound_of_nil (h : p.dispatched = []) :
    holdRound clock bidders listener p start = ⟨{}, start, []⟩ := by
  unfold holdRound
  rw [h]
  rfl

/-- A round calls all bidders at its start, and its listener is told of the whole round when the last
call has ended. -/
theorem steps_holdRound (h : p.dispatched ≠ []) : (holdRound clock bidders listener p start).steps =
    (calls bidders p start).map (fun c => ⟨start, .called c⟩) ++
      [⟨roundEnd bidders p start,
        .notified ⟨p.request.impression, (holdRound clock bidders listener p start).value,
          p.request.app.bundle, p.request.adType⟩⟩] := by
  unfold holdRound
  rw [if_neg (by rwa [List.isEmpty_iff])]
  rfl

theorem responses_eq_nil_iff :
    (holdRound clock bidders listener p start).value.responses = [] ↔ p.dispatched = [] := by
  rw [value_holdRound, List.map_eq_nil_iff, List.flatMap_eq_nil_iff]
  constructor
  · intro h
    rw [List.eq_nil_iff_forall_not_mem]
    exact fun a ha => block_ne_nil p start a _ (h a ha)
  · intro h
    rw [h]
    exact fun a ha => absurd ha List.not_mem_nil

end

/-! ## Who is asked -/

theorem mem_withToken {p : Params} {a : Adapter} :
    a ∈ p.withToken ↔ (p.request.impression.token a).isSome := by
  unfold Params.withToken
  rw [List.mem_filter, and_iff_right (Adapter.mem_all a)]

/-- The adapters that are asked are the allowed ones that pass three tests, in the order in which they
are allowed. -/
theorem dispatched_eq_filter (p : Params) : p.dispatched = p.allowed.filter fun a =>
    p.request.adapterKeys.contains a && (p.request.impression.token a).isSome &&
      p.initConfigs.contains a := by
  unfold Params.dispatched Adapter.common
  rw [List.filter_filter, List.filter_filter]
  refine List.filter_congr fun a _ => ?_
  rw [Bool.eq_iff_iff]
  simp only [Bool.and_eq_true, List.contains_iff_mem, mem_withToken, Dict.mem_keys_iff]
  tauto

theorem dispatched_of_isEmpty {p : Params} (h : p.initConfigs.isEmpty) : p.dispatched = [] := by
  rw [dispatched_eq_filter, List.filter_eq_nil_iff]
  intro a _ ha
  rw [Bool.and_eq_true, ← Dict.mem_keys_iff] at ha
  unfold Dict.keys at ha
  rw [List.isEmpty_iff.1 h] at ha
  exact List.not_mem_nil ha.2

/-! ## Registrations -/

/-- The bidder that was registered last for an adapter. -/
def lastRegistered (regs : List (Adapter × Bidder)) (a : Adapter) : Option Bidder :=
  (regs.reverse.find? (·.1 == a)).map (·.2)

theorem lookupEntry_eq_find? (regs : List (Adapter × Bidder)) (a : Adapter) :
    Dict.lookupEntry a regs = (regs.find? (·.1 == a)).map (·.2) := by
  induction regs with
  | nil => rfl
  | cons e regs ih =>
    unfold Dict.lookupEntry
    by_cases h : a = e.1
    · rw [if_pos h, List.find?_cons_of_pos (by rw [h]; exact beq_self_eq_true _)]
      rfl
    · rw [if_neg h, ih, List.find?_cons_of_neg (by rw [beq_iff_eq]; exact fun e' => h e'.symm)]

theorem get?_ofList_bidders (regs : List (Adapter × Bidder)) (a : Adapter) :
    (Dict.ofList regs : Bidders).get? a = lastRegistered regs a := by
  rw [Dict.get?_ofList, lookupEntry_eq_find?]
  rfl

theorem lastRegistered_append (regs : List (Adapter × Bidder)) (k : Adapter) (b : Bidder) (a : Adapter) :
    lastRegistered (regs ++ [(k, b)]) a = if a = k then some b else lastRegistered regs a := by
  unfold lastRegistered
  rw [List.reverse_append, List.reverse_singleton, List.singleton_append]
  by_cases h : a = k
  · rw [if_pos h, List.find?_cons_of_pos (by rw [h]; exact beq_self_eq_true _)]
    rfl
  · rw [if_neg h, List.find?_cons_of_neg (by rw [beq_iff_eq]; exact fun e => h e.symm)]

/-! ## Tokens -/

/-- The text that the client reported under a name. Without one it is empty. -/
inductive TextAt (reported : Dict String Json) (name : String) : String → Prop where
  | given {text : String} (h : reported.get? name = some (.str text)) : TextAt reported name text
  | missing (h : ∀ text, reported.get? name ≠ some (.str text)) : TextAt reported name ""

/-- The timestamp that the client reported under a name, cut off below the point and at the ends of 64
bits. Without a number it is zero. -/
inductive TimestampAt (reported : Dict String Json) (name : String) : Int64 → Prop where
  | whole {n : Int} (h : reported.get? name = some (.int n)) :
      TimestampAt reported name (Float.ofInt n).toInt64
  | fraction {x : Float} (h : reported.get? name = some (.float x)) : TimestampAt reported name x.toInt64
  | missing (hwhole : ∀ n, reported.get? name ≠ some (.int n))
      (hfraction : ∀ x, reported.get? name ≠ some (.float x)) : TimestampAt reported name 0

/-- A token as the client reported it. -/
structure Reports (reported : Dict String Json) (t : Token) : Prop where
  value : TextAt reported "token" t.value
  status : TextAt reported "status" t.status
  startTs : TimestampAt reported "token_start_ts" t.startTs
  endTs : TimestampAt reported "token_finish_ts" t.endTs

theorem textAt_getD (reported : Dict String Json) (name : String) :
    TextAt reported name (((reported.get? name).bind Json.str?).getD "") := by
  rcases hget : reported.get? name with _ | v
  · exact .missing (by rw [hget]; nofun)
  · cases v with
    | str text => exact .given hget
    | _ => exact .missing (by rw [hget]; nofun)

theorem timestampAt_getD (reported : Dict String Json) (name : String) :
    TimestampAt reported name (((reported.get? name).map timestampOf).getD 0) := by
  rcases hget : reported.get? name with _ | v
  · exact .missing (by rw [hget]; nofun) (by rw [hget]; nofun)
  · cases v with
    | int n => exact .whole hget
    | float x => exact .fraction hget
    | _ => exact .missing (by rw [hget]; nofun) (by rw [hget]; nofun)

/-- The token of an adapter is read from what the client reported of it, if anything. -/
theorem reports_tokenOf (r : Request) (a : Adapter) :
    Reports ((r.impression.demands.get? a.wire).getD .empty) (tokenOf r a) := by
  unfold tokenOf Request.Impression.demand
  cases r.impression.demands.get? a.wire with
  | none => exact ⟨.missing nofun, .missing nofun, .missing nofun nofun, .missing nofun nofun⟩
  | some reported =>
    exact ⟨textAt_getD _ _, textAt_getD _ _, timestampAt_getD _ _, timestampAt_getD _ _⟩

section

variable {reported : Dict String Json} {name : String}

theorem TextAt.unique {text text' : String} (h : TextAt reported name text)
    (h' : TextAt reported name text') : text = text' := by
  cases h with
  | given h =>
    cases h' with
    | given h' =>
      cases h.symm.trans h'
      rfl
    | missing h' => exact absurd h (h' _)
  | missing h =>
    cases h' with
    | given h' => exact absurd h' (h _)
    | missing h' => rfl

theorem TimestampAt.unique {ts ts' : Int64} (h : TimestampAt reported name ts)
    (h' : TimestampAt reported name ts') : ts = ts' := by
  cases h with
  | whole h =>
    cases h' with
    | whole h' =>
      cases h.symm.trans h'
      rfl
    | fraction h' => cases h.symm.trans h'
    | missing hwhole => exact absurd h (hwhole _)
  | fraction h =>
    cases h' with
    | whole h' => cases h.symm.trans h'
    | fraction h' =>
      cases h.symm.trans h'
      rfl
    | missing _ hfraction => exact absurd h (hfraction _)
  | missing hwhole hfraction =>
    cases h' with
    | whole h' => exact absurd h' (hwhole _)
    | fraction h' => exact absurd h' (hfraction _)
    | missing => rfl

/-- What the client reported determines the token. -/
theorem Reports.unique {t t' : Token} (h : Reports reported t) (h' : Reports reported t') : t = t' := by
  obtain ⟨value, status, startTs, endTs⟩ := t
  obtain ⟨value', status', startTs', endTs'⟩ := t'
  obtain rfl : value = value' := h.value.unique h'.value
  obtain rfl : status = status' := h.status.unique h'.status
  obtain rfl : startTs = startTs' := h.startTs.unique h'.startTs
  obtain rfl : endTs = endTs' := h.endTs.unique h'.endTs
  rfl

end

/-! ## The sequential reference -/

/-- An answer of a round, and the answer that it was in its block. The times are those of the round, the token
is the one that the client reported of the adapter, and the rest is as it was. -/
structure Stamped (p : Params) (endTs : Int64) (r stamped : Response) : Prop where
  startTs : stamped.startTs = p.startTs
  endTs : stamped.endTs = endTs
  token : Reports ((p.request.impression.demands.get? r.adapter.wire).getD .empty) stamped.token
  rest : { stamped with startTs := r.startTs, endTs := r.endTs, token := r.token } = r

/-- The answers of a round in which every call is held by itself: the blocks of the adapters in the order of
asking. The round ends when the last call has ended. -/
structure OneByOne (clock : Clock) (p : Params) (start : Nat) (bidderOf : Adapter → Option Bidder)
    (finish : Nat) (answers : List Response) : Prop where
  ended : ∀ a ∈ p.dispatched, callEnd p start (bidderOf a) ≤ finish
  last : p.dispatched ≠ [] → ∃ a ∈ p.dispatched, callEnd p start (bidderOf a) = finish
  answers : List.Forall₂ (Stamped p (clock.millis finish))
    (p.dispatched.flatMap fun a => block p start a (bidderOf a)) answers

/-- An answer is stamped in one way. -/
theorem Stamped.unique {p : Params} {endTs : Int64} {r x y : Response} (hx : Stamped p endTs r x)
    (hy : Stamped p endTs r y) : x = y := by
  have htoken := hx.token.unique hy.token
  have hrest := hx.rest.trans hy.rest.symm
  obtain ⟨adapter, status, bid, slot, tag, placement, rawRequest, rawResponse, message, start, finish, token⟩ := x
  obtain rfl : start = y.startTs := hx.startTs.trans hy.startTs.symm
  obtain rfl : finish = y.endTs := hx.endTs.trans hy.endTs.symm
  obtain rfl : token = y.token := htoken
  cases y
  cases hrest
  rfl

theorem stamped_stamp (p : Params) (endTs : Int64) (r : Response) : Stamped p endTs r (stamp p endTs r) :=
  ⟨rfl, rfl, reports_tokenOf p.request r.adapter, rfl⟩

theorem oneByOne_holdRound (clock : Clock) (bidders : Bidders) (listener : Listener) (p : Params)
    (start : Nat) : OneByOne clock p start bidders.get? (roundEnd bidders p start)
      (holdRound clock bidders listener p start).value.responses where
  ended _ ha := callEnd_le_roundEnd bidders p start ha
  last h := exists_callEnd_eq_roundEnd bidders p start h
  answers := by
    rw [value_holdRound, List.forall₂_map_right_iff, List.forall₂_same]
    exact fun r _ => stamped_stamp p _ r

/-- A round, whose calls overlap, is the round of calls held one by one: the blocks of the adapters in
the order of asking, each of the bidder registered last for its adapter, in whatever order the calls
end. Times and token are the round's own on every answer. A later registration replaces the block of
its adapter and no other. -/
theorem holdRound_refines (clock : Clock) (regs : List (Adapter × Bidder)) (listener : Listener)
    (p : Params) (start : Nat) :
    (∀ ends, ends.Perm (callEnds (.ofList regs) p start) →
      collect p.dispatched.length ends =
        p.dispatched.flatMap fun a => block p start a (lastRegistered regs a)) ∧
    (∃ finish, OneByOne clock p start (lastRegistered regs) finish
      (holdRound clock (.ofList regs) listener p start).value.responses) ∧
    ∀ k b, ∃ finish, OneByOne clock p start (fun a => if a = k then some b else lastRegistered regs a) finish
      (holdRound clock (.ofList (regs ++ [(k, b)])) listener p start).value.responses := by
  refine ⟨fun ends h => ?_, ⟨roundEnd (.ofList regs) p start, ?_⟩,
    fun k b => ⟨roundEnd (.ofList (regs ++ [(k, b)])) p start, ?_⟩⟩
  · rw [collect_of_perm _ p start h]
    simp only [get?_ofList_bidders]
  · rw [← funext (get?_ofList_bidders regs)]
    exact oneByOne_holdRound clock _ listener p start
  · rw [← funext (lastRegistered_append regs k b), ← funext (get?_ofList_bidders _)]
    exact oneByOne_holdRound clock _ listener p start

/-- Bidders that answer at the deadline, after it, with nothing and with a failure; the first one is
registered twice, and has times and a token of its own. -/
def mixedBidders : List (Adapter × Bidder) :=
  [(.bidmachine, ⟨fun _ _ _ => ⟨0, .error .noAdsFound⟩⟩),
    (.bidmachine, ⟨fun _ _ _ => ⟨5, .ok [.ofBid .metaNetwork { price := 2.0 },
      { Response.noBid .bidmachine with startTs := 1, endTs := 2, token := { value := "own" } }]⟩⟩),
    (.admob, ⟨fun _ _ _ => ⟨6, .ok [.ofBid .admob { price := 9.0 }]⟩⟩),
    (.mintegral, ⟨fun _ _ _ => ⟨0, .ok []⟩⟩),
    (.vungle, ⟨fun _ _ _ => ⟨2, .error (.store "down")⟩⟩)]

/-- A round from instant 5 to 10 in which five adapters are asked, one of them without a bidder. -/
def mixedRound : Params :=
  let asked : List Adapter := [.vungle, .bidmachine, .yandex, .admob, .mintegral]
  { appId := 1
    request :=
      { adapters := .ofList (asked.map fun a => (a.wire, {}))
        impression :=
          { demands := .ofList (asked.map fun a => (a.wire, .ofList
              [("token", .str "t"), ("status", .str "SUCCESS"), ("token_start_ts", .int 1700000000000),
                ("token_finish_ts", .str "late")])) } }
    geo := {}
    initConfigs := .ofList (asked.map fun a => (a, .default a true))
    allowed := asked
    priceFloor := 0.0
    deadline := 10
    startTs := 7
    requestId := "r" }

def mixedToken : Token := ⟨"t", "SUCCESS", (Float.ofInt 1700000000000).toInt64, 0⟩

theorem reports_mixedToken {a : Adapter} (ha : a ∈ mixedRound.allowed) :
    Reports ((mixedRound.request.impression.demands.get? a.wire).getD .empty) mixedToken := by
  have hget : ∀ a ∈ mixedRound.allowed, (mixedRound.request.impression.demands.get? a.wire).getD .empty =
      .ofList [("token", .str "t"), ("status", .str "SUCCESS"), ("token_start_ts", .int 1700000000000),
        ("token_finish_ts", .str "late")] := by decide +kernel
  rw [hget a ha]
  exact ⟨.given rfl, .given rfl, .whole rfl, .missing nofun nofun⟩

/-- The call of Admob is cut off at the deadline, and no call ends after it. -/
theorem OneByOne.finish_mixed {clock : Clock} {finish : Nat} {answers : List Response}
    (h : OneByOne clock mixedRound 5 (lastRegistered mixedBidders) finish answers) : finish = 10 := by
  have hends : ∀ a ∈ mixedRound.dispatched, callEnd mixedRound 5 (lastRegistered mixedBidders a) ≤ 10 := by
    decide +kernel
  have hadmob : Adapter.admob ∈ mixedRound.dispatched := by decide +kernel
  have hcut : callEnd mixedRound 5 (lastRegistered mixedBidders .admob) = 10 := by decide +kernel
  obtain ⟨a, ha, hlast⟩ := h.last (List.ne_nil_of_mem hadmob)
  exact Nat.le_antisymm (hlast ▸ hends a ha) (hcut ▸ h.ended .admob hadmob)

/-- The blocks of a mixed round, collected from calls that ended in the opposite order. The bidder of
Bidmachine has neither the last word on times nor on the token, and an adapter of which the client reports
nothing has an empty token. -/
theorem holdRound_refines_mixed :
    let ends := (callEnds (.ofList mixedBidders) mixedRound 5).reverse
    let stamped (token : Token) (r : Response) := { r with startTs := 7, endTs := 10, token := token }
    ends.Perm (callEnds (.ofList mixedBidders) mixedRound 5) ∧
      collect 5 ends =
        [.ofError .vungle "Store error: down", .ofBid .metaNetwork { price := 2.0 },
          { Response.noBid .bidmachine with startTs := 1, endTs := 2, token := { value := "own" } },
          .ofError .yandex "bidder not registered", .timedOut .admob, .noBid .mintegral] ∧
      (holdRound ⟨fun now => 1000 * now⟩ (.ofList mixedBidders) (fun _ => ⟨0, .ok ()⟩)
          mixedRound 5).value.responses =
        [stamped mixedToken (.ofError .vungle "Store error: down"),
          stamped {} (.ofBid .metaNetwork { price := 2.0 }), stamped mixedToken (.noBid .bidmachine),
          stamped mixedToken (.ofError .yandex "bidder not registered"),
          stamped mixedToken (.timedOut .admob), stamped mixedToken (.noBid .mintegral)] := by
  obtain ⟨hcollect, ⟨finish, hround⟩, -⟩ :=
    holdRound_refines ⟨fun now => 1000 * now⟩ mixedBidders (fun _ => ⟨0, .ok ()⟩) mixedRound 5
  have hreference : (mixedRound.dispatched.flatMap fun a => block mixedRound 5 a (lastRegistered mixedBidders a)) =
      [.ofError .vungle "Store error: down", .ofBid .metaNetwork { price := 2.0 },
        { Response.noBid .bidmachine with startTs := 1, endTs := 2, token := { value := "own" } },
        .ofError .yandex "bidder not registered", .timedOut .admob, .noBid .mintegral] := by
    decide +kernel
  obtain rfl := hround.finish_mixed
  refine ⟨List.reverse_perm _, (hcollect _ (List.reverse_perm _)).trans hreference, ?_⟩
  have hanswers := hround.answers
  rw [hreference] at hanswers
  have hunique : Relator.RightUnique (Stamped mixedRound 10) := fun _ _ _ => Stamped.unique
  refine List.right_unique_forall₂' hunique hanswers ?_
  -- all but the one of Meta are answers of an adapter that the client reported
  refine .cons ⟨rfl, rfl, reports_mixedToken ?_, rfl⟩ (.cons ⟨rfl, rfl, ?_, rfl⟩
    (.cons ⟨rfl, rfl, reports_mixedToken ?_, rfl⟩ (.cons ⟨rfl, rfl, reports_mixedToken ?_, rfl⟩
      (.cons ⟨rfl, rfl, reports_mixedToken ?_, rfl⟩ (.cons ⟨rfl, rfl, reports_mixedToken ?_, rfl⟩ .nil)))))
  · decide
  · exact ⟨.missing nofun, .missing nofun, .missing nofun nofun, .missing nofun nofun⟩
  all_goals decide

end Mediation.Bidding
