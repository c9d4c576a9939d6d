/-
What all events of an auction say alike. Two of their columns hold whole numbers of 64 bits with a sign: the
number of the configuration, and the time since the session began. A configuration has its number from a key of
up to 128 bits, and is named by zero if the number does not fit. The time is the difference of two numbers that
the client sends and nothing checks. If it does not fit, no event can be made, and the call is broken off when
its bidders have answered.
-/
import Mediation.Proofs.Auction.Accounting
import Mediation.Proofs.Auction.Gate
import Mediation.Proofs.Auction.Key

namespace Mediation

open Event (NamesObject handed)

namespace Auction

section

variable {policy : Policy} {s : Services} {x : Subject} {t : Nat}

/-! ## Events of an auction -/

/-- The messages that an auction hands over. -/
def messagesOf (policy : Policy) (s : Services) (x : Subject) (t : Nat) : List Event.Message :=
  handed (loggedSteps ((run policy s x).run t).steps)

/-- What is handed over is a row of the result, with the extension of the request read. -/
theorem exists_row_of_mem_messagesOf {m : Event.Message} (hm : m ∈ messagesOf policy s x t) :
    x.request.session.Fits ∧ ∃ result, ((build policy s x).run t).value = .ok result ∧
      ∃ e ∈ eventRows (eventContext s x result ((build policy s x).run t).finish) result,
        ∃ ext, m = e.message ext := by
  unfold messagesOf at hm
  rcases hv : ((run policy s x).run t).value with stop | response
  · rw [loggedSteps_run_of_error hv] at hm
    cases hm
  · obtain ⟨result, hb, -⟩ := run_ok hv
    have hfits := fits_of_run_ok hv
    rw [loggedSteps_of_build_ok hb hfits] at hm
    by_cases hext : NamesObject x.request.ext
    · obtain ⟨ext, hhanded⟩ := handed_events (c := eventContext s x result _) s.engine hext
      rw [hhanded] at hm
      obtain ⟨e, he, rfl⟩ := List.mem_map.1 hm
      exact ⟨hfits, result, hb, e, he, ext, rfl⟩
    · rw [log_events_of_not (c := eventContext s x result _) s.engine hext, Event.handed_map_reported] at hm
      cases hm

/-- An auction that answers has the event of its request at least. -/
theorem messagesOf_ne_nil {result : Result} (h : ((build policy s x).run t).value = .ok result)
    (hfits : x.request.session.Fits) (hext : NamesObject x.request.ext) :
    messagesOf policy s x t ≠ [] := by
  unfold messagesOf
  rw [loggedSteps_of_build_ok h hfits]
  obtain ⟨ext, hhanded⟩ := handed_events (c := eventContext s x result _) s.engine hext
  rw [hhanded]
  unfold eventRows events
  rw [List.flatMap_append, List.map_append]
  exact List.append_ne_nil_of_right_ne_nil _ (List.cons_ne_nil _ _)

theorem exists_message (h : ((build policy s x).run t).value.toOption.isSome)
    (hfits : x.request.session.Fits) (hext : NamesObject x.request.ext) :
    ∃ m, m ∈ messagesOf policy s x t := by
  cases hb : ((build policy s x).run t).value with
  | error e =>
    rw [hb] at h
    cases h
  | ok result => exact List.exists_mem_of_ne_nil _ (messagesOf_ne_nil hb hfits hext)

/-! ## Columns -/

/-- Every row has the number of the configuration and the time of the session from the context. -/
theorem columns_of_mem_eventRows {c : EventContext} {result : Result} {e : AdEvent}
    (he : e ∈ eventRows c result) :
    e.configUid = (Text.int64? c.config.uid).getD 0 ∧ e.sessionUptime = c.uptime := by
  obtain ⟨g, hg, he⟩ := List.mem_flatMap.1 he
  rcases List.mem_append.1 hg with hg | hg
  · obtain ⟨a, -, rfl⟩ := List.mem_map.1 hg
    unfold AdEventGroup.rows EventContext.answerEvents at he
    rcases List.mem_cons.1 he with rfl | he
    · exact ⟨rfl, rfl⟩
    · dsimp only at he
      split at he
      · cases List.mem_singleton.1 he
        exact ⟨rfl, rfl⟩
      · cases he
  · cases List.mem_singleton.1 hg
    cases List.mem_singleton.1 he
    exact ⟨rfl, rfl⟩

/-- A message has both columns of its row. -/
theorem get?_message_numbers (e : AdEvent) (ext : Dict String Json) :
    (e.message ext).payload.get? "auction_configuration_uid" = some (.ofInt64 e.configUid) ∧
      (e.message ext).payload.get? "session_uptime" = some (.ofInt64 e.sessionUptime) := by
  have hcolumns : (e.columns ext).get? "auction_configuration_uid" = some (.ofInt64 e.configUid) ∧
      (e.columns ext).get? "session_uptime" = some (.ofInt64 e.sessionUptime) := by
    unfold AdEvent.columns
    rw [Dict.get?_ofList, Dict.get?_ofList]
    exact ⟨rfl, rfl⟩
  exact ⟨AdEvent.get?_message (by decide) hcolumns.1 fun _ => Json.noConfusion,
    AdEvent.get?_message (by decide) hcolumns.2 fun _ => Json.noConfusion⟩

theorem numbers_of_mem_messagesOf {m : Event.Message} (hm : m ∈ messagesOf policy s x t) :
    ∃ result, ((build policy s x).run t).value = .ok result ∧
      m.payload.get? "auction_configuration_uid" =
        some (.ofInt64 ((Text.int64? result.config.uid).getD 0)) ∧
      m.payload.get? "session_uptime" = some (.int x.request.session.elapsed) := by
  obtain ⟨hfits, result, hb, e, he, ext, rfl⟩ := exists_row_of_mem_messagesOf hm
  obtain ⟨huid, huptime⟩ := get?_message_numbers e ext
  have helapsed : (Int64.ofInt x.request.session.elapsed).toInt = x.request.session.elapsed :=
    Int64.toInt_ofInt_of_le hfits.1 (Int.lt_add_one_of_le hfits.2)
  rw [(columns_of_mem_eventRows he).1] at huid
  rw [(columns_of_mem_eventRows he).2] at huptime
  exact ⟨result, hb, huid, huptime.trans (congrArg (fun n => some (Json.int n)) helapsed)⟩

end

/-! ## Number of the configuration -/

/-- An auction is pinned to the configuration with a number: its key is decoded into the number, and what is
stored under that has the number for its uid. -/
def PinnedTo (s : Services) (x : Subject) (n : Nat) : Prop :=
  ∃ uid c, decodeKey x.request.impression.auctionKey = .ok uid ∧ IsDecimal uid n ∧
    (s.configs.byUid x.appId "0" uid).answer = some c ∧ IsDecimal c.uid n

/-- The number by which events name a configuration with a number. -/
def uidColumn (n : Nat) : Int := if n < 2 ^ 63 then n else 0

theorem uidColumn_eq_iff {n m : Nat} :
    uidColumn n = uidColumn m ↔ n = m ∨ (n = 0 ∨ 2 ^ 63 ≤ n) ∧ (m = 0 ∨ 2 ^ 63 ≤ m) := by
  unfold uidColumn
  split_ifs <;> omega

theorem toInt_int64?_natural (n : Nat) :
    ((Text.int64? (toString n)).getD 0).toInt = uidColumn n := by
  unfold uidColumn
  rw [Text.int64?_natural]
  split
  · rw [Option.getD_some, Int64.toInt_ofInt_of_le (by omega) (by omega)]
  · rfl

section

variable {policy : Policy} {s : Services} {x : Subject} {t n : Nat}

theorem PinnedTo.resolution (h : PinnedTo s x n) : ∃ c, resolution s x = .ok c ∧ c.uid = toString n := by
  obtain ⟨uid, c, hkey, -, hc, hn⟩ := h
  have hne : ¬ x.request.impression.auctionKey.isEmpty := by
    intro hempty
    rw [String.isEmpty_iff.1 hempty] at hkey
    cases hkey
  refine ⟨c, ?_, Text.spells_digitsOf_iff.1 hn⟩
  unfold Auction.resolution lookupOf
  rw [if_neg hne, hkey]
  show (s.configs.reply (.byUid x.appId "0" uid)).answer = .ok c
  rw [answer_reply_byUid, hc]
  rfl

theorem PinnedTo.uid_eq (h : PinnedTo s x n) {result : Result}
    (hb : ((build policy s x).run t).value = .ok result) : result.config.uid = toString n := by
  obtain ⟨g, round, hg, -, rfl⟩ := build_ok hb
  obtain ⟨c, hc, hn⟩ := h.resolution
  rw [resolution_of_prepare hg] at hc
  obtain rfl := Except.ok.inj hc
  exact hn

/-- The messages of an auction that is pinned to a number name its configuration by it, or by zero. -/
theorem PinnedTo.get?_configUid (h : PinnedTo s x n) {m : Event.Message}
    (hm : m ∈ messagesOf policy s x t) :
    m.payload.get? "auction_configuration_uid" = some (.int (uidColumn n)) := by
  obtain ⟨result, hb, huid, -⟩ := numbers_of_mem_messagesOf hm
  rw [huid, h.uid_eq hb, ← toInt_int64?_natural]
  rfl

end

/-- All events of an auction that is pinned to a number have it for the number of their configuration if it is
less than `2 ^ 63`, and zero if not. So two auctions that are pinned to different numbers name their
configurations alike if and only if neither number is a positive one that fits. -/
theorem configUid_of_pinnedTo (policy policy' : Policy) (t t' : Nat) {s s' : Services} {x x' : Subject}
    {n n' : Nat} (h : PinnedTo s x n) (h' : PinnedTo s' x' n') :
    (∀ result, ((build policy s x).run t).value = .ok result →
      (∀ now, ∀ e ∈ eventRows (eventContext s x result now) result, e.configUid.toInt = uidColumn n) ∧
      (x.request.session.Fits → NamesObject x.request.ext → messagesOf policy s x t ≠ [])) ∧
    (∀ m ∈ messagesOf policy s x t,
      m.payload.get? "auction_configuration_uid" = some (.int (uidColumn n))) ∧
    ∀ m ∈ messagesOf policy s x t, ∀ m' ∈ messagesOf policy' s' x' t',
      m.payload.get? "auction_configuration_uid" = m'.payload.get? "auction_configuration_uid" ↔
        n = n' ∨ (n = 0 ∨ 2 ^ 63 ≤ n) ∧ (n' = 0 ∨ 2 ^ 63 ≤ n') := by
  refine ⟨fun result hb => ⟨fun now e he => ?_, messagesOf_ne_nil hb⟩, fun m => h.get?_configUid,
    fun m hm m' hm' => ?_⟩
  · rw [(columns_of_mem_eventRows he).1]
    show ((Text.int64? result.config.uid).getD 0).toInt = _
    rw [h.uid_eq hb, toInt_int64?_natural]
  · rw [h.get?_configUid hm, h'.get?_configUid hm', Option.some.injEq, Json.int.injEq, uidColumn_eq_iff]

def numberedConfig (uid : String) : Config := { id := 1, uid, demands := [.gam], adUnitIds := [1] }

/-- Services with one unit at a fixed price, and with a configuration under every number. -/
def numberedServices : Services :=
  { fixedServices (numberedConfig "1") [⟨1, 1, .interstitial, none, .gam, 11, "", false, some 2.0, {}⟩] [] [] with
    configs := ⟨fun _ _ _ _ => ⟨0, .ok (numberedConfig "1")⟩, fun _ _ uid => ⟨0, some (numberedConfig uid)⟩⟩ }

def keyedSubject (key : String) : Subject :=
  ⟨1, { childRequest [.gam] [] with impression := { auctionId := "a", auctionKey := key } }, {}⟩

theorem pinnedTo_keyedSubject {key uid : String} {n : Nat} (hkey : decodeKey key = .ok uid)
    (hn : IsDecimal uid n) : PinnedTo numberedServices (keyedSubject key) n :=
  ⟨uid, _, hkey, hn, rfl, hn⟩

/-- The keys of the highest number that fits and of the two after it. -/
def edgeKeys : List (String × Nat) :=
  [("7vvvvvvvvvvvv", 2 ^ 63 - 1), ("8000000000000", 2 ^ 63), ("8000000000001", 2 ^ 63 + 1)]

theorem pinnedTo_edgeKeys : ∀ p ∈ edgeKeys, PinnedTo numberedServices (keyedSubject p.1) p.2 := by
  have hkeys : ∀ p ∈ edgeKeys, decodeKey p.1 = .ok (toString p.2) := by decide +kernel
  exact fun p hp => pinnedTo_keyedSubject (hkeys p hp) (Text.spells_digitsOf_iff.2 rfl)

theorem exists_message_edgeKeys :
    ∀ p ∈ edgeKeys, ∃ m, m ∈ messagesOf {} numberedServices (keyedSubject p.1) 0 := by
  have hbuild : ∀ p ∈ edgeKeys,
      ((build {} numberedServices (keyedSubject p.1)).run 0).value.toOption.isSome := by decide +kernel
  have hext : NamesObject "" := .inl rfl
  have hfits : ({} : Request.Session).Fits := by decide
  exact fun p hp => exists_message (hbuild p hp) hfits hext

/-- The highest number that fits is told apart from the next one. -/
theorem configUid_of_pinnedTo_edge :
    PinnedTo numberedServices (keyedSubject "7vvvvvvvvvvvv") (2 ^ 63 - 1) ∧
    PinnedTo numberedServices (keyedSubject "8000000000000") (2 ^ 63) ∧
    ∃ m ∈ messagesOf {} numberedServices (keyedSubject "7vvvvvvvvvvvv") 0,
      ∃ m' ∈ messagesOf {} numberedServices (keyedSubject "8000000000000") 0,
        m.payload.get? "auction_configuration_uid" = some (.int (2 ^ 63 - 1)) ∧
        m.payload.get? "auction_configuration_uid" ≠ m'.payload.get? "auction_configuration_uid" := by
  have hpinned := pinnedTo_edgeKeys ("7vvvvvvvvvvvv", 2 ^ 63 - 1) (by decide)
  have hpinned' := pinnedTo_edgeKeys ("8000000000000", 2 ^ 63) (by decide)
  obtain ⟨m, hm⟩ := exists_message_edgeKeys ("7vvvvvvvvvvvv", 2 ^ 63 - 1) (by decide)
  obtain ⟨m', hm'⟩ := exists_message_edgeKeys ("8000000000000", 2 ^ 63) (by decide)
  obtain ⟨-, hnumber, halike⟩ := configUid_of_pinnedTo {} {} 0 0 hpinned hpinned'
  refine ⟨hpinned, hpinned', m, hm, m', hm', (hnumber m hm).trans ?_, fun h => ?_⟩
  · rfl
  · exact absurd ((halike m hm m' hm').1 h) (by decide)

/-- The lowest two numbers that do not fit are different, and the auctions that are pinned to them name their
configurations alike, by neither number. -/
theorem configUid_collides :
    PinnedTo numberedServices (keyedSubject "8000000000000") (2 ^ 63) ∧
    PinnedTo numberedServices (keyedSubject "8000000000001") (2 ^ 63 + 1) ∧
    ∃ m ∈ messagesOf {} numberedServices (keyedSubject "8000000000000") 0,
      ∃ m' ∈ messagesOf {} numberedServices (keyedSubject "8000000000001") 0,
        m.payload.get? "auction_configuration_uid" ≠ some (.int (2 ^ 63)) ∧
        m'.payload.get? "auction_configuration_uid" ≠ some (.int (2 ^ 63 + 1)) ∧
        m.payload.get? "auction_configuration_uid" = m'.payload.get? "auction_configuration_uid" := by
  have hpinned := pinnedTo_edgeKeys ("8000000000000", 2 ^ 63) (by decide)
  have hpinned' := pinnedTo_edgeKeys ("8000000000001", 2 ^ 63 + 1) (by decide)
  obtain ⟨m, hm⟩ := exists_message_edgeKeys ("8000000000000", 2 ^ 63) (by decide)
  obtain ⟨m', hm'⟩ := exists_message_edgeKeys ("8000000000001", 2 ^ 63 + 1) (by decide)
  refine ⟨hpinned, hpinned', m, hm, m', hm', ?_⟩
  -- both are named by zero
  rw [hpinned.get?_configUid hm, hpinned'.get?_configUid hm']
  decide

/-! ## Time of the session of a call -/

/-- The checks of a call do not look at the session. -/
theorem parseRequest_session {path : String} {headers : List Header} {body body' : List UInt8}
    {r raw : Request} {session : Request.Session} (h : parseRequest path headers body = .ok r)
    (hbody : Describes body raw) (hbody' : Describes body' { raw with session := session }) :
    parseRequest path headers body' = .ok { r with session := session } := by
  obtain ⟨hversion, hadType, ⟨raw', hraw', hr⟩, hauction, hfloor⟩ := parseRequest_eq_ok_iff.1 h
  obtain rfl : raw' = raw :=
    Option.some.inj ((ofJson?_of_describes hraw').symm.trans (ofJson?_of_describes hbody))
  refine parseRequest_eq_ok_iff.2 ⟨hversion, hadType, ⟨_, hbody', ?_⟩, hauction, hfloor⟩
  rw [hr]

/-- A call passes with any session, so that nothing bounds the two times of one. If its auction comes to a result
and their difference does not fit, the auction is broken off: its bidders were asked as for any result, but no
event is handed over and the call is not answered. Otherwise all events that are made have the difference, and
so has every message. -/
theorem brokenOff_of_parseRequest (policy : Policy) (s : Services) {path : String} {headers : List Header}
    {body : List UInt8} (appId : Int64) (geo : GeoData) (t : Nat) {r : Request}
    (h : parseRequest path headers body = .ok r) :
    let auction := (run policy s ⟨appId, r, geo⟩).run t
    let found := (build policy s ⟨appId, r, geo⟩).run t
    let call := handle policy s path headers body appId geo t
    let elapsed := r.session.monotonicTs.toInt - r.session.startMonotonicTs.toInt
    (∀ raw session body', Describes body raw → Describes body' { raw with session := session } →
      parseRequest path headers body' = .ok { r with session := session }) ∧
    (auction.value = .error .overflow ↔
      (∃ result, found.value = .ok result) ∧ ¬ (-2 ^ 63 ≤ elapsed ∧ elapsed < 2 ^ 63)) ∧
    (auction.value = .error .overflow → call.value = none ∧ handed (loggedSteps call.steps) = [] ∧
      call.steps = found.steps ++ [⟨found.finish, .entered .assembling⟩]) ∧
    (∀ result, found.value = .ok result → -2 ^ 63 ≤ elapsed → elapsed < 2 ^ 63 →
      (∃ response, call.value = some ⟨200, "application/json", response⟩) ∧
      (NamesObject r.ext → handed (loggedSteps call.steps) ≠ [])) ∧
    (∀ result timestamp, match EventContext.of? timestamp (resolvedRequest r result) geo result with
      | some c => ∀ e ∈ eventRows c result, e.sessionUptime.toInt = elapsed
      | none => ¬ (-2 ^ 63 ≤ elapsed ∧ elapsed < 2 ^ 63)) ∧
    ∀ m ∈ handed (loggedSteps call.steps), m.payload.get? "session_uptime" = some (.int elapsed) := by
  dsimp only
  rw [handle_of_ok h]
  dsimp only
  have htimes : r.session.monotonicTs.toInt - r.session.startMonotonicTs.toInt = r.session.elapsed := rfl
  have hfits : (-2 ^ 63 ≤ r.session.elapsed ∧ r.session.elapsed < 2 ^ 63) ↔ r.session.Fits :=
    and_congr_right' Int.le_sub_one_iff.symm
  rw [htimes, hfits]
  refine ⟨fun raw session body' => parseRequest_session h, ?_, fun hover => ?_, fun result hb hlow hhigh => ?_,
    fun result timestamp => ?_, fun m hm => ?_⟩
  · exact overflow_iff
  · obtain ⟨⟨result, hb⟩, hnot⟩ := overflow_iff.1 hover
    rw [hover, loggedSteps_run_of_error hover]
    rcases hc : (build policy s ⟨appId, r, geo⟩).run t with ⟨e | result', now, l⟩ <;> rw [hc] at hb <;> cases hb
    rw [run_of_build_overflow hc hnot]
    exact ⟨rfl, rfl, rfl⟩
  · have hin := hfits.1 ⟨hlow, hhigh⟩
    rw [value_run_of_fits hb hin]
    exact ⟨⟨_, rfl⟩, messagesOf_ne_nil hb hin⟩
  · unfold EventContext.of?
    rw [show (resolvedRequest r result).session = r.session from rfl]
    rcases hu : r.session.uptime? with _ | u
    · exact fun hfits => by rw [Request.Session.uptime?_of_fits hfits] at hu; cases hu
    · intro e he
      rw [(columns_of_mem_eventRows he).2]
      exact Request.Session.uptime?_eq_some_iff.1 hu
  · obtain ⟨result, -, -, huptime⟩ := numbers_of_mem_messagesOf hm
    exact huptime

/-- A body of an app with Bidmachine, with a session that began one unit before zero. -/
def sessionBody (monotonicTs : String) : List UInt8 :=
  ("\x7b\"adapters\":\x7b\"bidmachine\":\x7b\x7d\x7d," ++
    "\"imp\":\x7b\"auction_id\":\"a\",\"demands\":\x7b\"bidmachine\":\x7b\"token\":\"t\"\x7d\x7d\x7d," ++
    "\"session\":\x7b\"monotonic_ts\":" ++ monotonicTs ++ ",\"start_monotonic_ts\":-1\x7d\x7d").toUTF8.data.toList

/-- Whether a step is a call of a bidder. -/
def isCall : Step → Bool
  | .round (.called _) => true
  | _ => false

/-- Up to the highest time that there is the body passes, and its auction has a result for which the bidder
was called. -/
theorem build_sessionBody {ts : String} {elapsed : Int}
    (h : (ts, elapsed) ∈ [("9223372036854775807", 2 ^ 63), ("9223372036854775806", 2 ^ 63 - 1)]) :
    ∃ r result, parseRequest "interstitial" versionHeaders (sessionBody ts) = .ok r ∧ NamesObject r.ext ∧
      r.session.monotonicTs.toInt - r.session.startMonotonicTs.toInt = elapsed ∧
      ((build {} soleBidderServices ⟨1, r, {}⟩).run 0).value = .ok result ∧
      ∃ u ∈ ((build {} soleBidderServices ⟨1, r, {}⟩).run 0).steps, isCall u.step := by
  have hbody : ∀ p ∈ [("9223372036854775807", 2 ^ 63), ("9223372036854775806", 2 ^ 63 - 1)],
      (parseRequest "interstitial" versionHeaders (sessionBody p.1)).map (fun r =>
        (decide (NamesObject r.ext), r.session.monotonicTs.toInt - r.session.startMonotonicTs.toInt,
          ((build {} soleBidderServices ⟨1, r, {}⟩).run 0).value.isOk,
          ((build {} soleBidderServices ⟨1, r, {}⟩).run 0).steps.any (isCall ·.step))) =
        .ok (true, p.2, true, true) := by
    decide +kernel
  have hbody := hbody _ h
  rcases hr : parseRequest "interstitial" versionHeaders (sessionBody ts) with e | r <;> rw [hr] at hbody
  · cases hbody
  simp only [Except.map, Except.ok.injEq, Prod.mk.injEq, decide_eq_true_eq, List.any_eq_true] at hbody
  obtain ⟨hext, helapsed, hok, hcall⟩ := hbody
  obtain ⟨result, hb⟩ := Attempt.exists_of_isOk hok
  exact ⟨r, result, rfl, hext, helapsed, hb, hcall⟩

/-- At the highest time there is the body passes, its auction calls the bidder, and the call is broken off. One
unit before that it is answered, with the time in its events. -/
theorem brokenOff_of_parseRequest_highest :
    (∃ r, parseRequest "interstitial" versionHeaders (sessionBody "9223372036854775807") = .ok r ∧
      let call := handle {} soleBidderServices "interstitial" versionHeaders
        (sessionBody "9223372036854775807") 1 {} 0
      (∃ u ∈ call.steps, isCall u.step) ∧ handed (loggedSteps call.steps) = [] ∧ call.value = none) ∧
    ∃ r, parseRequest "interstitial" versionHeaders (sessionBody "9223372036854775806") = .ok r ∧
      ∃ m ∈ handed (loggedSteps (handle {} soleBidderServices "interstitial" versionHeaders
          (sessionBody "9223372036854775806") 1 {} 0).steps),
        m.payload.get? "session_uptime" = some (.int (2 ^ 63 - 1)) := by
  constructor
  · obtain ⟨r, result, hr, -, helapsed, hb, u, hu, hcall⟩ :=
      @build_sessionBody "9223372036854775807" _ List.mem_cons_self
    obtain ⟨-, hover, hbroken, -⟩ := brokenOff_of_parseRequest {} soleBidderServices 1 {} 0 hr
    obtain ⟨hnone, hsilent, hsteps⟩ := hbroken (hover.2 ⟨⟨result, hb⟩, by rw [helapsed]; decide⟩)
    refine ⟨r, hr, ⟨u, ?_, hcall⟩, hsilent, hnone⟩
    rw [hsteps]
    exact List.mem_append_left _ hu
  · obtain ⟨r, result, hr, hext, helapsed, hb, -⟩ :=
      @build_sessionBody "9223372036854775806" _ (List.mem_cons_of_mem _ List.mem_cons_self)
    obtain ⟨-, -, -, hanswered, -, huptime⟩ := brokenOff_of_parseRequest {} soleBidderServices 1 {} 0 hr
    obtain ⟨-, hsome⟩ := hanswered result hb (by rw [helapsed]; decide) (by rw [helapsed]; decide)
    obtain ⟨m, hm⟩ := List.exists_mem_of_ne_nil _ (hsome hext)
    exact ⟨r, hr, m, hm, (huptime m hm).trans (by rw [helapsed])⟩

end Auction

end Mediation
