/-
What gets through to an auction. A call is checked four times, the version first, then the placement type, then
the body as JSON, then the request itself, and the first check that fails names the error. What passes carries
the type of the path and the version of the first version header, whatever its body says of these two, an
identifier that is not empty and a floor that is not negative. A call that is refused does nothing at all.
-/
import Mediation.Auction.Http
import Mediation.Proofs.Auction.Resolution
import Mediation.Proofs.Price
import Mediation.Proofs.Recoding.Request

namespace Mediation.Auction

open Json

/-! ## Checks -/

/-- The first version header states a version, and that can be read. -/
structure Versioned (headers : List Header) (version : String) : Prop where
  stated : ∃ before h after, headers = before ++ h :: after ∧ (∀ h' ∈ before, h'.name ≠ versionHeader) ∧
    h.name = versionHeader ∧ h.text? = some version
  readable : ∃ v, SdkVersion.parse version = .ok v

/-- The body is the JSON text of a request. -/
def Describes (body : List UInt8) (r : Request) : Prop :=
  ∃ v, Json.read body = some v ∧ Request.ofJson? v = some r

/-- A request that has passed: its version is that of the first version header and its type that of the path,
the body describes the rest, and the impression has an identifier and a floor that is not negative. -/
structure Admitted (path : String) (headers : List Header) (body : List UInt8) (r : Request) : Prop where
  version : Versioned headers r.sdkVersion
  adType : r.adType.wire = path
  body : ∃ raw, Describes body raw ∧ r = { raw with adType := r.adType, sdkVersion := r.sdkVersion }
  auctionId : r.impression.auctionId ≠ ""
  priceFloor : 0.0 ≤ r.impression.priceFloor

/-- The first check that a call fails, with the error for it: the checks before it are passed. -/
inductive Refused (path : String) (headers : List Header) (body : List UInt8) : AuctionError → Prop where
  | version (h : ∀ version, ¬ Versioned headers version) : Refused path headers body .invalidSdkVersion
  | adType {version : String} (hversion : Versioned headers version) (h : ∀ t : AdType, t.wire ≠ path) :
    Refused path headers body (.badRequest ("unknown ad type '" ++ path ++ "'"))
  | body {version : String} {t : AdType} (hversion : Versioned headers version) (ht : t.wire = path)
    (h : ∀ raw, ¬ Describes body raw) :
    Refused path headers body (.badRequest "failed to decode auction request")
  | request {version : String} {t : AdType} {raw : Request} (hversion : Versioned headers version)
    (ht : t.wire = path) (hbody : Describes body raw)
    (h : raw.impression.auctionId = "" ∨ raw.impression.priceFloor < 0.0) :
    Refused path headers body (.badRequest "auction request failed validation")

/-! ## The checks one by one -/

section

variable {headers : List Header} {version path : String} {body : List UInt8}

theorem Versioned.statedVersion_eq (h : Versioned headers version) : statedVersion headers = version := by
  obtain ⟨before, h', after, rfl, hbefore, hname, htext⟩ := h.stated
  have hfind : (before ++ h' :: after).find? (·.name == versionHeader) = some h' := by
    rw [List.find?_append, List.find?_eq_none.2 (by simpa using hbefore), Option.none_or]
    simp [hname]
  unfold statedVersion
  rw [hfind, Option.bind_some, htext]
  rfl

theorem parse_eq_error_of_not_ok (h : ∀ v, SdkVersion.parse version ≠ .ok v) :
    SdkVersion.parse version = .error .invalidSdkVersion := by
  unfold SdkVersion.parse at h ⊢
  cases hread : SdkVersion.readTrimmed? (Text.trim version.toList) with
  | none => rfl
  | some v =>
    rw [hread] at h
    exact absurd rfl (h v)

/-- Where no version can be read of the first version header, the version is an empty text, or no version. -/
theorem parse_statedVersion_of_not (h : ∀ version, ¬ Versioned headers version) :
    SdkVersion.parse (statedVersion headers) = .error .invalidSdkVersion := by
  unfold statedVersion
  cases hfind : headers.find? (·.name == versionHeader) with
  | none => decide
  | some h' =>
    rw [Option.bind_some]
    cases htext : h'.text? with
    | none => decide
    | some version =>
      obtain ⟨hname, before, after, hheaders, hbefore⟩ := List.find?_eq_some_iff_append.1 hfind
      have hstated : ∃ before h after, headers = before ++ h :: after ∧
          (∀ h' ∈ before, h'.name ≠ versionHeader) ∧ h.name = versionHeader ∧ h.text? = some version :=
        ⟨before, h', after, hheaders, by simpa using hbefore, by simpa using hname, htext⟩
      exact parse_eq_error_of_not_ok fun v hv => h version ⟨hstated, v, hv⟩

theorem ofWire?_of_forall_ne (h : ∀ t : AdType, t.wire ≠ path) : AdType.ofWire? path = none := by
  unfold AdType.ofWire?
  rw [List.find?_eq_none]
  intro t _
  simpa using h t

theorem ofJson?_of_describes {r : Request} (h : Describes body r) :
    (Json.read body).bind Request.ofJson? = some r := by
  obtain ⟨v, hv, hr⟩ := h
  rw [hv, Option.bind_some, hr]

theorem ofJson?_of_not_describes (h : ∀ r, ¬ Describes body r) :
    (Json.read body).bind Request.ofJson? = none := by
  rw [Option.eq_none_iff_forall_ne_some]
  intro r hr
  obtain ⟨v, hv, hr⟩ := Option.bind_eq_some_iff.1 hr
  exact h r ⟨v, hv, hr⟩

/-- The floor that a body gives is a number, so that it is negative or not. -/
theorem not_lt_zero_iff {r : Request} (h : Describes body r) :
    ¬ r.impression.priceFloor < 0.0 ↔ 0.0 ≤ r.impression.priceFloor := by
  obtain ⟨v, hv, hr⟩ := h
  have hfloor := Numeral.isNaN_of_isFinite (Request.isFinite_of_read (inRange_of_read hv) hr)
  have hzero : (0.0 : Price).isNaN = false := by decide
  exact ⟨Price.le_of_not_lt hfloor hzero, Price.not_lt_of_le⟩

theorem isValid_iff {r : Request} (h : Describes body r) :
    r.isValid ↔ r.impression.auctionId ≠ "" ∧ 0.0 ≤ r.impression.priceFloor := by
  unfold Request.isValid Request.Impression.isValid
  rw [← not_lt_zero_iff h]
  simp

end

/-! ## Requests that pass and requests that do not -/

section

variable {path : String} {headers : List Header} {body : List UInt8}

theorem parseRequest_of_refused {e : AuctionError} (h : Refused path headers body e) :
    parseRequest path headers body = .error e := by
  unfold parseRequest
  dsimp only
  cases h with
  | version h =>
    rw [parse_statedVersion_of_not h]
    rfl
  | adType hversion h =>
    obtain ⟨v, hv⟩ := hversion.readable
    rw [hversion.statedVersion_eq, hv, ofWire?_of_forall_ne h]
    rfl
  | body hversion ht h =>
    obtain ⟨v, hv⟩ := hversion.readable
    rw [hversion.statedVersion_eq, hv, ← ht, AdType.ofWire?_wire, ofJson?_of_not_describes h]
    rfl
  | @request version t raw hversion ht hbody h =>
    obtain ⟨v, hv⟩ := hversion.readable
    have hinvalid : raw.isValid = false := by
      rw [← Bool.not_eq_true, isValid_iff hbody]
      rintro ⟨hid, hfloor⟩
      exact h.elim hid (Price.not_lt_of_le hfloor)
    rw [hversion.statedVersion_eq, hv, ← ht, AdType.ofWire?_wire, ofJson?_of_describes hbody]
    show (if !raw.isValid then _ else _) = _
    rw [hinvalid]
    rfl

theorem parseRequest_of_admitted {r : Request} (h : Admitted path headers body r) :
    parseRequest path headers body = .ok r := by
  obtain ⟨v, hv⟩ := h.version.readable
  obtain ⟨raw, hbody, hr⟩ := h.body
  have himpression : raw.impression = r.impression := by rw [hr]
  have hvalid : raw.isValid = true := by
    rw [isValid_iff hbody, himpression]
    exact ⟨h.auctionId, h.priceFloor⟩
  unfold parseRequest
  dsimp only
  rw [h.version.statedVersion_eq, hv, ← h.adType, AdType.ofWire?_wire, ofJson?_of_describes hbody]
  show (if !raw.isValid then _ else _) = _
  rw [hvalid]
  exact congrArg Except.ok hr.symm

/-- Each call fails a first check or passes them all. -/
theorem refused_or_admitted (path : String) (headers : List Header) (body : List UInt8) :
    (∃ e, Refused path headers body e) ∨ ∃ r, Admitted path headers body r := by
  -- one check after the other, as long as they are passed
  by_cases hversion : ∃ version, Versioned headers version
  swap
  · exact .inl ⟨_, .version (not_exists.1 hversion)⟩
  obtain ⟨version, hversion⟩ := hversion
  by_cases ht : ∃ t : AdType, t.wire = path
  swap
  · exact .inl ⟨_, .adType hversion (not_exists.1 ht)⟩
  obtain ⟨t, ht⟩ := ht
  by_cases hbody : ∃ raw, Describes body raw
  swap
  · exact .inl ⟨_, .body hversion ht (not_exists.1 hbody)⟩
  obtain ⟨raw, hbody⟩ := hbody
  by_cases hinvalid : raw.impression.auctionId = "" ∨ raw.impression.priceFloor < 0.0
  · exact .inl ⟨_, .request hversion ht hbody hinvalid⟩
  · obtain ⟨hid, hfloor⟩ := not_or.1 hinvalid
    refine .inr ⟨{ raw with adType := t, sdkVersion := version }, hversion, ht, ⟨raw, hbody, rfl⟩, hid, ?_⟩
    exact (not_lt_zero_iff hbody).1 hfloor

theorem parseRequest_eq_error_iff {e : AuctionError} :
    parseRequest path headers body = .error e ↔ Refused path headers body e := by
  refine ⟨fun h => ?_, parseRequest_of_refused⟩
  rcases refused_or_admitted path headers body with ⟨e', hrefused⟩ | ⟨r, hadmitted⟩
  · rw [parseRequest_of_refused hrefused] at h
    cases h
    exact hrefused
  · rw [parseRequest_of_admitted hadmitted] at h
    cases h

theorem parseRequest_eq_ok_iff {r : Request} :
    parseRequest path headers body = .ok r ↔ Admitted path headers body r := by
  refine ⟨fun h => ?_, parseRequest_of_admitted⟩
  rcases refused_or_admitted path headers body with ⟨e, hrefused⟩ | ⟨r', hadmitted⟩
  · rw [parseRequest_of_refused hrefused] at h
    cases h
  · rw [parseRequest_of_admitted hadmitted] at h
    cases h
    exact hadmitted

end

/-! ## What a body cannot say -/

/-- Whether a member of a body says something of the placement type or the version. -/
def isReserved (name : String) : Bool := name == "ad_type" || name == "sdk_version"

/-- A record does not see members under other names than those of its fields. -/
theorem fields?_filter {known : List String} {p : String → Bool} (hp : ∀ name ∈ known, p name)
    (members : List (String × Json)) : (obj (members.filter fun m => p m.1)).fields? known =
      ((obj members).fields? known).map fun fs name => if p name then fs name else none := by
  have hdistinct : distinctKnown known (members.filter fun m => p m.1) = distinctKnown known members := by
    unfold distinctKnown
    rw [Bool.eq_iff_iff, List.all_eq_true, List.all_eq_true]
    refine forall₂_congr fun name hname => ?_
    rw [List.filter_filter]
    have hfilter : members.filter (fun m => m.1 == name && p m.1) = members.filter (·.1 == name) := by
      refine List.filter_congr fun m _ => ?_
      by_cases hm : m.1 = name
      · simp [hm, hp name hname]
      · simp [hm]
    rw [hfilter]
  unfold fields?
  dsimp only
  rw [hdistinct]
  split
  · exact congrArg some (funext fun name => Dict.lookupEntry_filter p name members)
  · rfl

/-- A request is read of the other members. -/
theorem ofJson?_filter_isReserved (members : List (String × Json)) :
    Request.ofJson? (.obj (members.filter fun m => !isReserved m.1)) = Request.ofJson? (.obj members) := by
  unfold Request.ofJson?
  rw [fields?_filter (p := fun name => !isReserved name) (by decide)]
  cases (obj members).fields? _ with
  | none => rfl
  | some fs =>
    rw [Option.map_some, some_bind, some_bind]
    -- none of the fields has a reserved name
    rfl

theorem parseRequest_of_reserved {path : String} {headers : List Header} {body body' : List UInt8}
    {members members' : List (String × Json)} (hbody : Json.read body = some (.obj members))
    (hbody' : Json.read body' = some (.obj members'))
    (h : members.filter (fun m => !isReserved m.1) = members'.filter (fun m => !isReserved m.1)) :
    parseRequest path headers body = parseRequest path headers body' := by
  have hrequest : Request.ofJson? (.obj members) = Request.ofJson? (.obj members') := by
    rw [← ofJson?_filter_isReserved members, h, ofJson?_filter_isReserved]
  unfold parseRequest
  rw [hbody, hbody', Option.bind_some, Option.bind_some, hrequest]

/-! ## Answers -/

/-- What a client reads of an error: its status once more, and the text that it is told. -/
def errorBody (e : AuctionError) : Json :=
  .obj [("error", .obj [("code", .int e.status), ("message", .str e.userMessage)])]

theorem record_eq_obj {fields : List (String × Json)}
    (h : fields.Pairwise fun a b => compare a.1 b.1 = .lt) : Json.record fields = .obj fields :=
  congrArg Json.ofDict (Dict.ofList_entries ⟨fields, h⟩)

theorem ofError_eq (e : AuctionError) :
    HttpAnswer.ofError e = ⟨e.status, "application/json", errorBody e⟩ := by
  have hnames : compare "code" "message" = .lt := by decide
  unfold HttpAnswer.ofError HttpAnswer.ofBody
  rw [record_eq_obj (List.pairwise_singleton _ _), record_eq_obj (List.pairwise_pair.2 hnames)]
  rfl

theorem Refused.isClientFault {path : String} {headers : List Header} {body : List UInt8} {e : AuctionError}
    (h : Refused path headers body e) : e.isClientFault = true := by
  cases h <;> rfl

theorem status_ne_ok (e : AuctionError) : e.status ≠ 200 := by
  unfold AuctionError.status
  split <;> decide

section

variable {policy : Policy} {s : Services} {path : String} {headers : List Header} {body : List UInt8}
  {appId : Int64} {geo : GeoData}

/-- A call that is refused is told so at once. -/
theorem handle_of_refused {e : AuctionError} (h : Refused path headers body e) (t : Nat) :
    handle policy s path headers body appId geo t = ⟨some ⟨422, "application/json",
      .obj [("error", .obj [("code", .int 422), ("message", .str e.message)])]⟩, t, []⟩ := by
  have hstatus : e.status = 422 := if_pos h.isClientFault
  have hmessage : e.userMessage = e.message := if_pos h.isClientFault
  unfold handle
  rw [parseRequest_of_refused h]
  dsimp only
  rw [ofError_eq, errorBody, hstatus, hmessage]
  rfl

/-- A call that passes goes as its auction does, and says how that went. -/
theorem handle_of_ok {r : Request} (h : parseRequest path headers body = .ok r) (t : Nat) :
    handle policy s path headers body appId geo t =
      ⟨match ((run policy s ⟨appId, r, geo⟩).run t).value with
        | .ok response => some ⟨200, "application/json", response.toJson⟩
        | .error (.failed e) => some ⟨e.status, "application/json", errorBody e⟩
        | .error .overflow => none,
        ((run policy s ⟨appId, r, geo⟩).run t).finish, ((run policy s ⟨appId, r, geo⟩).run t).steps⟩ := by
  unfold handle
  rw [h]
  show Activity.andThen (run policy s ⟨appId, r, geo⟩).run _ t = _
  unfold Activity.andThen
  rcases (run policy s ⟨appId, r, geo⟩).run t with ⟨(e | _) | response, now, l⟩
  · dsimp only
    rw [← ofError_eq]
    exact congrArg (Course.mk _ _) (List.append_nil l)
  · exact congrArg (Course.mk _ _) (List.append_nil l)
  · exact congrArg (Course.mk _ _) (List.append_nil l)

end

/-- A call is refused with the error of the first check that it fails, or it passes with a request that carries
the type of the path and the version of the first version header. Members of the body that are named like these
two do not matter. A call that is refused is answered with 422 and its error at once, and takes no step; one
that passes takes the steps of the auction. It is answered with 200 and the response, as JSON, if and only if
the auction answers; with the error if the auction fails, and not at all if it is broken off. -/
theorem call_refused_or_admitted (policy : Policy) (s : Services) (path : String) (headers : List Header)
    (body : List UInt8) (appId : Int64) (geo : GeoData) (t : Nat) :
    (∀ e, parseRequest path headers body = .error e ↔ Refused path headers body e) ∧
    (∀ r, parseRequest path headers body = .ok r ↔ Admitted path headers body r) ∧
    (∀ body' members members', Json.read body = some (.obj members) → Json.read body' = some (.obj members') →
      members.filter (fun m => !isReserved m.1) = members'.filter (fun m => !isReserved m.1) →
      parseRequest path headers body = parseRequest path headers body') ∧
    (∀ e, parseRequest path headers body = .error e →
      handle policy s path headers body appId geo t = ⟨some ⟨422, "application/json",
        .obj [("error", .obj [("code", .int 422), ("message", .str e.message)])]⟩, t, []⟩) ∧
    ∀ r, parseRequest path headers body = .ok r →
      let auction := (run policy s ⟨appId, r, geo⟩).run t
      let call := handle policy s path headers body appId geo t
      call.steps = auction.steps ∧
      (∀ response, auction.value = .ok response →
        call.value = some ⟨200, "application/json", response.toJson⟩) ∧
      (∀ e, auction.value = .error (.failed e) →
        call.value = some ⟨e.status, "application/json", errorBody e⟩) ∧
      (auction.value = .error .overflow → call.value = none) ∧
      ((∃ answer, call.value = some answer ∧ answer.status = 200) ↔
        ∃ response, auction.value = .ok response) := by
  refine ⟨fun e => parseRequest_eq_error_iff, fun r => parseRequest_eq_ok_iff,
    fun body' members members' => parseRequest_of_reserved, fun e h => ?_, fun r h => ?_⟩
  · exact handle_of_refused (parseRequest_eq_error_iff.1 h) t
  · rw [handle_of_ok h]
    dsimp only
    rcases ((run policy s ⟨appId, r, geo⟩).run t).value with (e | _) | response
    · refine ⟨rfl, nofun, ?_, nofun, iff_of_false ?_ nofun⟩
      · rintro _ ⟨⟩
        rfl
      · rintro ⟨answer, ⟨⟩, hstatus⟩
        exact status_ne_ok e hstatus
    · exact ⟨rfl, nofun, nofun, fun _ => rfl, iff_of_false nofun nofun⟩
    · refine ⟨rfl, ?_, nofun, nofun, iff_of_true ⟨_, rfl, rfl⟩ ⟨_, rfl⟩⟩
      rintro _ ⟨⟩
      rfl

/-- Two version headers, of which the first one counts. -/
def versionHeaders : List Header :=
  [⟨"x-bidon-version", "v0.7.1".toUTF8.data.toList⟩, ⟨"x-bidon-version", "2".toUTF8.data.toList⟩]

/-- A body that names a placement type and a version of its own. -/
def posingBody : List UInt8 :=
  ("\x7b\"ad_type\":\"rewarded\",\"adapters\":\x7b\"admob\":\x7b\x7d\x7d," ++
    "\"imp\":\x7b\"auction_id\":\"a\"\x7d,\"sdk_version\":[]\x7d").toUTF8.data.toList

/-- The same body without them. -/
def plainBody : List UInt8 :=
  "\x7b\"adapters\":\x7b\"admob\":\x7b\x7d\x7d,\"imp\":\x7b\"auction_id\":\"a\"\x7d\x7d".toUTF8.data.toList

/-- Admob has a unit with a fixed price. -/
def pricedServices : Services :=
  fixedServices { id := 1, uid := "1", adUnitIds := [1], demands := [.admob] }
    [⟨1, 1, .interstitial, none, .admob, 11, "", false, some 2.0, {}⟩] [] []

/-- For an interstitial the body passes as if it named neither, and is answered with the response of the
auction; for an unknown type it is refused, without a step. -/
theorem call_refused_or_admitted_posing :
    (∃ r response, parseRequest "interstitial" versionHeaders posingBody = .ok r ∧
      r.adType = .interstitial ∧ r.sdkVersion = "v0.7.1" ∧
      parseRequest "interstitial" versionHeaders plainBody = .ok r ∧
      ((run {} pricedServices ⟨1, r, {}⟩).run 0).value = .ok response ∧
      (handle {} pricedServices "interstitial" versionHeaders posingBody 1 {} 0).value =
        some ⟨200, "application/json", response.toJson⟩) ∧
    Refused "native" versionHeaders posingBody (.badRequest "unknown ad type 'native'") ∧
    handle {} pricedServices "native" versionHeaders posingBody 1 {} 0 = ⟨some ⟨422, "application/json",
      .obj [("error", .obj [("code", .int 422),
        ("message", .str "Bad request: unknown ad type 'native'")])]⟩, 0, []⟩ := by
  obtain ⟨-, -, hreserved, -, hanswered⟩ :=
    call_refused_or_admitted {} pricedServices "interstitial" versionHeaders posingBody 1 {} 0
  obtain ⟨hrefused, -, -, hsilent, -⟩ :=
    call_refused_or_admitted {} pricedServices "native" versionHeaders posingBody 1 {} 0
  refine ⟨?_, ?_⟩
  · have hparse : (parseRequest "interstitial" versionHeaders posingBody).map (fun r =>
        (r.adType, r.sdkVersion, ((run {} pricedServices ⟨1, r, {}⟩).run 0).value.isOk)) =
          .ok (.interstitial, "v0.7.1", true) := by decide +kernel
    rcases hr : parseRequest "interstitial" versionHeaders posingBody with e | r <;> rw [hr] at hparse
    · cases hparse
    simp only [Except.map, Except.ok.injEq, Prod.mk.injEq] at hparse
    obtain ⟨hadType, hversion, hok⟩ := hparse
    have hplain := hreserved plainBody
      [("ad_type", .str "rewarded"), ("adapters", .obj [("admob", .obj [])]),
        ("imp", .obj [("auction_id", .str "a")]), ("sdk_version", .arr [])]
      [("adapters", .obj [("admob", .obj [])]), ("imp", .obj [("auction_id", .str "a")])]
      (by decide +kernel) (by decide +kernel) (by decide +kernel)
    obtain ⟨-, hresponse, -⟩ := hanswered r hr
    obtain ⟨response, hv⟩ := Attempt.exists_of_isOk hok
    exact ⟨r, response, rfl, hadType, hversion, hplain.symm.trans hr, hv, hresponse response hv⟩
  · have hparse : (parseRequest "native" versionHeaders posingBody).map (fun _ => ()) =
        .error (.badRequest "unknown ad type 'native'") := by decide +kernel
    rcases hr : parseRequest "native" versionHeaders posingBody with e | r
    · rw [hr] at hparse
      obtain rfl := Except.error.inj hparse
      exact ⟨(hrefused _).1 hr, hsilent _ hr⟩
    · rw [hr] at hparse
      cases hparse

end Mediation.Auction
