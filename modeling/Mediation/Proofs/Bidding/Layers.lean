/-
What stored profiles make of the settings of adapters. Whatever fields a profile has, the adapter and its
position stay the default ones. A field that the adapter accepts holds what was computed for it, or else
what the app says, or else what the account says; one that is of the wrong kind spoils the profile, and the
default stays as a whole. Of several profiles of an adapter the last one counts.
-/
import Mediation.Proofs.Bidding.Profiles
import Mediation.Proofs.InitConfig

namespace Mediation.Bidding

/-! ## Layers -/

/-- The placement identifiers that some units name, in the order of the units. -/
inductive PlacementsOf : List AdUnit → List String → Prop where
  | nil : PlacementsOf [] []
  | named {u : AdUnit} {units : List AdUnit} {id : String} {ids : List String}
      (hu : u.extra.placementId = some id) (h : PlacementsOf units ids) :
      PlacementsOf (u :: units) (id :: ids)
  | unnamed {u : AdUnit} {units : List AdUnit} {ids : List String}
      (hu : u.extra.placementId = none) (h : PlacementsOf units ids) : PlacementsOf (u :: units) ids

/-- The placements that are computed for an adapter: those that Bidmachine is found to have, none if they
are not found, and those that the units of TaurusX name that bids fill. Other adapters have none computed. -/
inductive Computed (store : ProfileStore) (appId : Int64) (units : AdUnits) : Adapter → Option Json → Prop where
  | found {placements : Dict String String} (h : (store.placements appId).answer = .ok placements) :
      Computed store appId units .bidmachine (some (.obj (placements.entries.map fun e => (e.1, .str e.2))))
  | notFound {e : AuctionError} (h : (store.placements appId).answer = .error e) :
      Computed store appId units .bidmachine (some (.obj []))
  | named {ids : List String} (h : PlacementsOf ((units.get? ⟨.taurusX, .rtb⟩).getD []) ids) :
      Computed store appId units .taurusX (some (.arr (ids.map .str)))
  | other {a : Adapter} (hbidmachine : a ≠ .bidmachine) (htaurusX : a ≠ .taurusX) :
      Computed store appId units a none

theorem placementsOf_filterMap (units : List AdUnit) :
    PlacementsOf units (units.filterMap fun u => u.extra.placementId) := by
  induction units with
  | nil => exact .nil
  | cons u units ih =>
    cases hu : u.extra.placementId with
    | none =>
      rw [List.filterMap_cons, hu]
      exact .unnamed hu ih
    | some id =>
      rw [List.filterMap_cons, hu]
      exact .named hu ih

/-- The units determine what they name. -/
theorem PlacementsOf.unique {units : List AdUnit} {ids ids' : List String} (h : PlacementsOf units ids)
    (h' : PlacementsOf units ids') : ids = ids' := by
  induction h generalizing ids' with
  | nil =>
    cases h'
    rfl
  | named hu _ ih =>
    cases h' with
    | named hu' h' =>
      cases hu.symm.trans hu'
      rw [ih h']
    | unnamed hu' => cases hu.symm.trans hu'
  | unnamed hu _ ih =>
    cases h' with
    | named hu' => cases hu.symm.trans hu'
    | unnamed _ h' => exact ih h'

/-- Each field that is computed for an adapter has the name of the placements. -/
theorem computed_computedFields (store : ProfileStore) (appId : Int64) (units : AdUnits) (a : Adapter) (t : Nat) :
    ∃ placements, Computed store appId units a placements ∧
      ∀ name, (computedFields store appId units a t).value.get? name =
        if name = "placements" then placements else none := by
  unfold computedFields
  split
  · rcases hreply : store.placements appId with ⟨delay, e | found⟩
    · exact ⟨_, .notFound (by rw [hreply]), Dict.get?_ofList [("placements", Json.ofDict .empty)]⟩
    · exact ⟨_, .found (by rw [hreply]), Dict.get?_ofList [("placements", Json.ofDictOf .str found)]⟩
  · exact ⟨_, .named (placementsOf_filterMap _),
      Dict.get?_ofList [("placements", Json.ofList .str (namedPlacements units))]⟩
  · rename_i hbidmachine htaurusX
    exact ⟨none, .other hbidmachine htaurusX, fun name => (ite_self none).symm⟩

namespace Profile

/-- What a profile has under a name: what was computed, else what the app says, else the account. -/
def layered (p : Profile) (placements : Option Json) : Json.Fields := fun name =>
  (if name = "placements" then placements else none).or
    ((p.appData.get? name).or (p.accountExtra.get? name))

/-- The settings that a profile leads to. They are of its adapter and in the default position. If a field
of the adapter is of the wrong kind they are the default ones; if none is each field holds what the profile
has under its name. They have no other field. -/
structure LeadsTo (p : Profile) (placements : Option Json) (c : InitConfig) : Prop where
  adapter : c.adapter = p.adapter
  order : c.order = p.adapter.defaultOrder
  mistyped : (∃ f ∈ p.adapter.fields, InitConfig.Mistyped (p.layered placements) f) →
    c = .default p.adapter true
  held : (∀ f ∈ p.adapter.fields, ¬ InitConfig.Mistyped (p.layered placements) f) →
    ∀ f ∈ p.adapter.fields, c.fields.get? f.1 = InitConfig.held (p.layered placements) f
  other : ∀ name ∉ p.adapter.fields.map (·.1), c.fields.get? name = none

section

variable {p : Profile} {computed : Dict String Json} {placements : Option Json}

/-- Under a name that a profile may set, a later layer hides an earlier one. -/
theorem get?_merged {name : String} (hname : name ≠ "adapter" ∧ name ≠ "order") :
    (p.merged computed).get? name =
      (computed.get? name).or ((p.appData.get? name).or (p.accountExtra.get? name)) := by
  have hmay : maySet name = true := by
    unfold maySet
    rw [Bool.and_eq_true, bne_iff_ne, bne_iff_ne]
    exact hname
  have hdefault : (defaultFields p.adapter).get? name = none := by
    unfold defaultFields
    rw [Dict.get?_ofList, Dict.lookupEntry_eq_none_iff]
    simpa [eq_comm, and_comm] using hname
  unfold merged
  rw [Dict.get?_layOver, Dict.get?_layOver, Dict.get?_layOver, Dict.get?_filterKeys,
    Dict.get?_filterKeys, Dict.get?_filterKeys, if_pos hmay, if_pos hmay, if_pos hmay, hdefault,
    Option.or_none]

/-- The adapter and its position are those of the default settings. -/
theorem get?_merged_of_not_maySet {name : String} (hname : maySet name = false) :
    (p.merged computed).get? name = (defaultFields p.adapter).get? name := by
  unfold merged
  rw [Dict.get?_layOver, Dict.get?_layOver, Dict.get?_layOver, Dict.get?_filterKeys,
    Dict.get?_filterKeys, Dict.get?_filterKeys, hname]
  rfl

theorem settings_eq : p.settings computed =
    ((InitConfig.fieldsOf? p.adapter ((p.merged computed).erase "adapter").get?).map
      fun fields => ⟨p.adapter, fields, p.adapter.defaultOrder⟩).getD (.default p.adapter true) := by
  have hadapter : (p.merged computed).get? "adapter" = some p.adapter.toJson := by
    have hmay : maySet "adapter" = false := by decide
    rw [get?_merged_of_not_maySet hmay, defaultFields, Dict.get?_ofList]
    rfl
  have horder : (p.merged computed).get? "order" = some (.ofInt32 p.adapter.defaultOrder) := by
    have hmay : maySet "order" = false := by decide
    rw [get?_merged_of_not_maySet hmay, defaultFields, Dict.get?_ofList]
    rfl
  unfold settings
  rw [InitConfig.ofJson?_ofDict hadapter horder]

/-- Whatever its fields are, a profile leads to settings of its adapter, in the default position. -/
theorem leadsTo_settings
    (hcomputed : ∀ name, computed.get? name = if name = "placements" then placements else none) :
    p.LeadsTo placements (p.settings computed) := by
  -- settings are read beside the tag and the position, and no field has the name of either
  have hlayered : ∀ f ∈ p.adapter.fields,
      ((p.merged computed).erase "adapter").get? f.1 = p.layered placements f.1 := by
    intro f hf
    have hname := Adapter.ne_of_mem_fields hf
    rw [Dict.get?_erase, if_neg hname.1, get?_merged hname, hcomputed]
    rfl
  have hmistyped : ∀ f ∈ p.adapter.fields,
      (InitConfig.Mistyped ((p.merged computed).erase "adapter").get? f ↔
        InitConfig.Mistyped (p.layered placements) f) := by
    intro f hf
    unfold InitConfig.Mistyped
    rw [hlayered f hf]
  rw [settings_eq]
  by_cases hspoilt : ∃ f ∈ p.adapter.fields,
      InitConfig.Mistyped ((p.merged computed).erase "adapter").get? f
  · rw [InitConfig.fieldsOf?_of_mistyped hspoilt]
    refine ⟨rfl, rfl, fun _ => rfl, fun hwell => ?_, fun _ _ => rfl⟩
    obtain ⟨f, hf, hbad⟩ := hspoilt
    exact absurd ((hmistyped f hf).1 hbad) (hwell f hf)
  · have hwell : ∀ f ∈ p.adapter.fields,
        ¬ InitConfig.Mistyped ((p.merged computed).erase "adapter").get? f :=
      fun f hf hbad => hspoilt ⟨f, hf, hbad⟩
    rw [InitConfig.fieldsOf?_of_not_mistyped hwell]
    refine ⟨rfl, rfl, ?_, fun _ f hf => ?_, fun name hname => ?_⟩
    · rintro ⟨f, hf, hbad⟩
      exact absurd ((hmistyped f hf).2 hbad) (hwell f hf)
    · refine (InitConfig.get?_fields hf).trans ?_
      unfold InitConfig.held
      rw [hlayered f hf]
    · exact InitConfig.get?_fields_of_not_mem hname

end

end Profile

/-! ## Stores -/

section

variable {store : ProfileStore} {appId : Int64} {adapters : List Adapter} {units : AdUnits}
variable {a : Adapter} {t : Nat}

/-- The settings of an adapter are what the last profile of it leads to. -/
theorem get?_settingsOf {profiles : List Profile} {found : InitConfigs} {c : InitConfig}
    (h : (settingsOf store appId units profiles found t).value.get? a = some c) :
    (∃ before p after, profiles = before ++ p :: after ∧ p.adapter = a ∧ (∀ q ∈ after, q.adapter ≠ a) ∧
        ∃ placements, Computed store appId units a placements ∧ p.LeadsTo placements c) ∨
      (∀ q ∈ profiles, q.adapter ≠ a) ∧ found.get? a = some c := by
  -- a later profile of the adapter replaces what is found up to here, so the rest is asked first
  induction profiles generalizing found t with
  | nil => exact .inr ⟨fun q hq => absurd hq List.not_mem_nil, h⟩
  | cons p profiles ih =>
    rcases ih h with ⟨before, q, after, rfl, hq, hafter, hleads⟩ | ⟨hnone, hfound⟩
    · exact .inl ⟨p :: before, q, after, rfl, hq, hafter, hleads⟩
    · rw [Dict.get?_insert] at hfound
      split at hfound
      · rename_i ha
        subst ha
        obtain rfl := Option.some.inj hfound
        obtain ⟨placements, hplacements, hcomputed⟩ := computed_computedFields store appId units p.adapter t
        exact .inl ⟨[], p, profiles, rfl, rfl, hnone, placements, hplacements,
          Profile.leadsTo_settings hcomputed⟩
      · rename_i ha
        refine .inr ⟨fun q hq => ?_, hfound⟩
        rcases List.mem_cons.1 hq with rfl | hq
        · exact Ne.symm ha
        · exact hnone q hq

/-- The last one of some profiles that are wanted is the last one of its adapter. -/
theorem last_of_filter {profiles before after : List Profile} {p : Profile}
    (h : profiles.filter (fun q => adapters.contains q.adapter) = before ++ p :: after)
    (hafter : ∀ q ∈ after, q.adapter ≠ p.adapter) :
    ∃ before' after', profiles = before' ++ p :: after' ∧ ∀ q ∈ after', q.adapter ≠ p.adapter := by
  obtain ⟨front, back, rfl, -, hback⟩ := List.filter_eq_append_iff.1 h
  obtain ⟨skipped, rest, rfl, -, hp, rfl⟩ := List.filter_eq_cons_iff.1 hback
  refine ⟨front ++ skipped, rest, by rw [List.append_assoc], fun q hq hsame => ?_⟩
  exact hafter q (List.mem_filter.2 ⟨hq, by rw [hsame]; exact hp⟩) hsame

theorem isEmpty_settingsOf_iff {profiles : List Profile} :
    (settingsOf store appId units profiles .empty t).value.isEmpty ↔ profiles = [] := by
  constructor
  · intro hempty
    rw [List.eq_nil_iff_forall_not_mem]
    intro p hp
    have hcontains : (settingsOf store appId units profiles .empty t).value.contains p.adapter :=
      contains_settingsOf_iff.2 (.inr ⟨p, hp, rfl⟩)
    rw [Dict.eq_empty_of_isEmpty hempty] at hcontains
    exact Bool.false_ne_true hcontains
  · rintro rfl
    rfl

/-- Where profiles can be read, an adapter that is asked for has settings if it has a profile; if none has
one there are no settings at all. -/
theorem storedSettings_outcome {profiles : List Profile}
    (h : (store.profiles appId adapters).answer = .ok profiles) :
    let outcome := (storedSettings store appId adapters units t).value
    (outcome = .error .noAdaptersFound ↔ adapters ≠ [] ∧ ∀ p ∈ profiles, p.adapter ∉ adapters) ∧
    (∀ e, outcome = .error e → e = .noAdaptersFound) ∧
    ∀ configs, outcome = .ok configs →
      (∀ a, a ∈ configs.keys ↔ a ∈ adapters ∧ ∃ p ∈ profiles, p.adapter = a) ∧
      ∀ a c, configs.get? a = some c → ∃ before p after, profiles = before ++ p :: after ∧
        p.adapter = a ∧ (∀ q ∈ after, q.adapter ≠ a) ∧
        ∃ placements, Computed store appId units a placements ∧ p.LeadsTo placements c := by
  have hwanted : wantedProfiles store appId adapters =
      profiles.filter fun p => adapters.contains p.adapter := by
    unfold wantedProfiles
    rw [h]
    rfl
  dsimp only
  by_cases hne : adapters = []
  · subst hne
    have hvalue : (storedSettings store appId [] units t).value = .ok .empty := rfl
    rw [hvalue]
    refine ⟨by simp, by simp, ?_⟩
    rintro configs ⟨⟩
    exact ⟨fun a => by simp [Dict.mem_keys_iff, Dict.contains], fun a c hc => by simp at hc⟩
  rw [outcome_storedSettings hne, h, hwanted]
  dsimp only [Except.bind]
  split
  · rename_i hempty
    rw [isEmpty_settingsOf_iff, List.filter_eq_nil_iff] at hempty
    have hnone : ∀ p ∈ profiles, p.adapter ∉ adapters := by simpa using hempty
    exact ⟨iff_of_true rfl ⟨hne, hnone⟩, fun e he => (Except.error.inj he).symm, by simp⟩
  · rename_i hfound
    rw [isEmpty_settingsOf_iff, List.filter_eq_nil_iff] at hfound
    refine ⟨?_, by simp, ?_⟩
    · refine iff_of_false (by simp) fun hnone => hfound fun p hp => ?_
      simpa using hnone.2 p hp
    · rintro configs ⟨⟩
      refine ⟨fun a => ?_, fun a c hc => ?_⟩
      · rw [Dict.mem_keys_iff, contains_settingsOf_iff]
        refine (or_iff_right Bool.false_ne_true).trans ?_
        constructor
        · rintro ⟨p, hp, rfl⟩
          obtain ⟨hp, hasked⟩ := List.mem_filter.1 hp
          exact ⟨List.contains_iff_mem.1 hasked, p, hp, rfl⟩
        · rintro ⟨hasked, p, hp, rfl⟩
          exact ⟨p, List.mem_filter.2 ⟨hp, List.contains_iff_mem.2 hasked⟩, rfl⟩
      · rcases get?_settingsOf hc with ⟨before, p, after, hsplit, rfl, hafter, hleads⟩ | ⟨-, hempty⟩
        · obtain ⟨before', after', hprofiles, hlast⟩ := last_of_filter hsplit hafter
          exact ⟨before', p, after', hprofiles, rfl, hlast, hleads⟩
        · simp at hempty

end

/-- The second profile of Admob poses as one of Vungle, and its app and its account disagree; the one of
Bidmachine has a number for a seller, and the one of TaurusX has placements of its own. -/
def posingProfiles : List Profile :=
  [⟨.admob, .ofList [("app_id", .str "old")], .empty⟩,
    ⟨.admob, .ofList [("adapter", .str "vungle"), ("order", .int 9), ("app_id", .str "account")],
      .ofList [("app_id", .str "app"), ("colour", .null)]⟩,
    ⟨.bidmachine, .ofList [("seller_id", .int 1), ("endpoint", .str "e")], .empty⟩,
    ⟨.taurusX, .empty, .ofList [("placements", .arr [.str "stored"]), ("app_id", .str "tx")]⟩]

def posingStore : ProfileStore where
  profiles _ _ := ⟨3, .ok posingProfiles⟩
  placements _ := ⟨1, .ok (.ofList [("banner", "b")])⟩

/-- Three units of TaurusX that bids fill, one of them without a placement, beside one at a fixed price and
one of another adapter. -/
def posingUnits : AdUnits :=
  let unit (a : Adapter) (t : BidType) (placement : Option String) : AdUnit :=
    { adapter := a, uid := "", label := "", bidType := t, extra := { placementId := placement } }
  .ofUnits [unit .taurusX .rtb (some "second"), unit .taurusX .cpm (some "fixed"), unit .taurusX .rtb none,
    unit .mintegral .rtb (some "other"), unit .taurusX .rtb (some "first")]

def posingTaurusX : Profile :=
  ⟨.taurusX, .empty, .ofList [("placements", .arr [.str "stored"]), ("app_id", .str "tx")]⟩

/-- Three units of TaurusX are for bids, and two of them name a placement. -/
theorem Computed.eq_posing {appId : Int64} {placements : Option Json}
    (h : Computed posingStore appId posingUnits .taurusX placements) :
    placements = some (.arr [.str "second", .str "first"]) := by
  cases h with
  | named h =>
    obtain rfl := (placementsOf_filterMap _).unique h
    decide +kernel
  | other _ h => exact absurd rfl h

/-- The placements of the units hide the one that the profile has. -/
theorem Profile.LeadsTo.fields_posing {c : InitConfig}
    (h : posingTaurusX.LeadsTo (some (.arr [.str "second", .str "first"])) c) :
    c.fields.get? "app_id" = some (.text "tx") ∧
      c.fields.get? "placements" = some (.texts ["second", "first"]) := by
  have hheld : ∀ f ∈ Adapter.taurusX.fields, (InitConfig.held (posingTaurusX.layered
      (some (.arr [.str "second", .str "first"]))) f).isSome := by decide +kernel
  have hfields := h.held fun f hf => InitConfig.not_mistyped_of_held (hheld f hf)
  refine ⟨(hfields ("app_id", .text) (by decide)).trans ?_, (hfields ("placements", .texts) (by decide)).trans ?_⟩
  all_goals decide +kernel

/-- Admob keeps its name and its position and has the identifier that the app says; Bidmachine has the
default settings, which its profile leads to, and Vungle has none. TaurusX has the placements of its units,
in their order. -/
theorem storedSettings_outcome_posing : ∃ configs,
    (storedSettings posingStore 1 [.vungle, .admob, .bidmachine, .taurusX] posingUnits 0).value = .ok configs ∧
      configs.get? .admob = some ⟨.admob, .ofList [("app_id", .text "app")], 1⟩ ∧
      (∃ p ∈ posingProfiles, p.adapter = .bidmachine ∧
        p.LeadsTo (some (.obj [("banner", .str "b")])) (.default .bidmachine true)) ∧
      Adapter.vungle ∉ configs.keys ∧
      ∃ c, configs.get? .taurusX = some c ∧ c.fields.get? "app_id" = some (.text "tx") ∧
        c.fields.get? "placements" = some (.texts ["second", "first"]) := by
  have hget : (storedSettings posingStore 1 [.vungle, .admob, .bidmachine, .taurusX] posingUnits 0).value.toOption.map
      (fun configs => (configs.get? .admob, configs.get? .bidmachine)) =
      some (some ⟨.admob, .ofList [("app_id", .text "app")], 1⟩, some (.default .bidmachine true)) := by
    decide +kernel
  have houtcome := @storedSettings_outcome posingStore 1 [.vungle, .admob, .bidmachine, .taurusX] posingUnits 0
    posingProfiles rfl
  dsimp only at houtcome
  rcases hvalue : (storedSettings posingStore 1 [.vungle, .admob, .bidmachine, .taurusX] posingUnits 0).value with
    e | configs <;> rw [hvalue] at hget houtcome
  · cases hget
  obtain ⟨hadmob, hbidmachine⟩ := Prod.mk.inj (Option.some.inj hget)
  obtain ⟨-, -, hconfigs⟩ := houtcome
  obtain ⟨hkeys, hleads⟩ := hconfigs configs rfl
  refine ⟨configs, rfl, hadmob, ?_, ?_, ?_⟩
  · obtain ⟨before, p, after, hsplit, hp, -, placements, hplacements, hp'⟩ := hleads .bidmachine _ hbidmachine
    refine ⟨p, hsplit ▸ List.mem_append_right _ List.mem_cons_self, hp, ?_⟩
    cases hplacements with
    | found h =>
      cases h
      exact hp'
    | notFound h => cases h
    | other h => exact absurd rfl h
  · rw [hkeys]
    decide
  · have htaurusX : Adapter.taurusX ∈ configs.keys := (hkeys .taurusX).2 (by decide)
    obtain ⟨c, hc⟩ := Option.isSome_iff_exists.1 (Dict.mem_keys_iff.1 htaurusX)
    obtain ⟨before, p, after, hsplit, hp, -, placements, hplacements, hlaid⟩ := hleads .taurusX c hc
    have honly : ∀ q ∈ posingProfiles, q.adapter = .taurusX → q = posingTaurusX := by decide +kernel
    obtain rfl := honly p (hsplit ▸ List.mem_append_right _ List.mem_cons_self) hp
    obtain rfl := hplacements.eq_posing
    exact ⟨c, hc, hlaid.fields_posing⟩

end Mediation.Bidding
