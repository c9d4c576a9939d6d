/-
Which segment a request belongs to: the first one that has filters and whose filters all let the request
pass. A filter that cannot be evaluated, because there is nothing to compare with or because the extension
does not say what the attributes are, lets nothing pass, whichever way round its operator asks.
-/
import Mediation.Proofs.Auction.Stages
import Mediation.Proofs.Json.Recoding

namespace Mediation

open Json

/-! ## Records with one field -/

namespace Json

/-- The one field of a record: in an object the one member with its name, in a list the one item. It may be
absent, but must not be there twice. -/
inductive HasField (name : String) : Json → Option Json → Prop where
  | absent {members : List (String × Json)} (h : ∀ m ∈ members, m.1 ≠ name) : HasField name (.obj members) none
  | member {before after : List (String × Json)} {v : Json} (hbefore : ∀ m ∈ before, m.1 ≠ name)
    (hafter : ∀ m ∈ after, m.1 ≠ name) : HasField name (.obj (before ++ (name, v) :: after)) (some v)
  | noItem : HasField name (.arr []) none
  | item {v : Json} : HasField name (.arr [v]) (some v)

section

variable {name : String}

theorem distinctKnown_single {members : List (String × Json)} :
    distinctKnown [name] members ↔ (members.filter (·.1 == name)).length ≤ 1 := by
  simp [distinctKnown]

theorem filter_eq_nil_of_forall_ne {members : List (String × Json)} (h : ∀ m ∈ members, m.1 ≠ name) :
    members.filter (·.1 == name) = [] := by
  rw [List.filter_eq_nil_iff]
  intro m hm
  simpa using h m hm

theorem hasField_of_fields? {v : Json} {fs : Fields} (h : v.fields? [name] = some fs) :
    HasField name v (fs name) := by
  unfold fields? at h
  split at h
  · rename_i members
    split at h
    · rename_i hdistinct
      obtain rfl := Option.some.inj h
      rw [distinctKnown_single] at hdistinct
      cases hlookup : Dict.lookupEntry name members with
      | none =>
        dsimp only
        rw [hlookup]
        exact .absent (Dict.lookupEntry_eq_none_iff.1 hlookup)
      | some w =>
        dsimp only
        rw [hlookup]
        obtain ⟨before, after, rfl, hbefore⟩ := Dict.exists_split_of_lookupEntry hlookup
        -- the member that was found is the one that there may be
        have hafter : after.filter (·.1 == name) = [] := by
          rw [List.filter_append, filter_eq_nil_of_forall_ne hbefore] at hdistinct
          simpa using hdistinct
        rw [List.filter_eq_nil_iff] at hafter
        exact .member hbefore fun m hm => by simpa using hafter m hm
    · cases h
  · rename_i items
    split at h
    · rename_i hlength
      obtain rfl := Option.some.inj h
      cases items with
      | nil => exact .noItem
      | cons w rest =>
        have hrest : rest = [] := List.eq_nil_of_length_eq_zero (by simpa using hlength)
        have hfound : Dict.lookupEntry name ([name].zip (w :: rest)) = some w := by simp [Dict.lookupEntry]
        dsimp only
        rw [hfound, hrest]
        exact .item
    · cases h
  · cases h

theorem exists_fields?_of_hasField {v : Json} {field : Option Json} (h : HasField name v field) :
    ∃ fs, v.fields? [name] = some fs ∧ fs name = field := by
  unfold fields?
  cases h with
  | @absent members h =>
    refine ⟨fun n => Dict.lookupEntry n members, if_pos ?_, Dict.lookupEntry_eq_none_iff.2 h⟩
    rw [distinctKnown_single, filter_eq_nil_of_forall_ne h]
    exact Nat.zero_le 1
  | @member before after w hbefore hafter =>
    refine ⟨fun n => Dict.lookupEntry n (before ++ (name, w) :: after), if_pos ?_, ?_⟩
    · rw [distinctKnown_single, List.filter_append, filter_eq_nil_of_forall_ne hbefore]
      simp [filter_eq_nil_of_forall_ne hafter]
    · dsimp only
      rw [Dict.lookupEntry_append, Dict.lookupEntry_eq_none_iff.2 hbefore]
      simp [Dict.lookupEntry]
  | noItem => exact ⟨fun n => Dict.lookupEntry n [], if_pos (Nat.zero_le 1), rfl⟩
  | @item w => exact ⟨fun n => Dict.lookupEntry n [(name, w)], if_pos (Nat.le_refl 1), by simp [Dict.lookupEntry]⟩

end

end Json

/-! ## Attributes -/

namespace Segment

/-- The attributes that the field of an extension lists. There are none if it is absent or null. -/
inductive Lists : Option Json → Dict String Json → Prop where
  | absent : Lists none .empty
  | null : Lists (some .null) .empty
  | object {v : Json} {d : Dict String Json} (h : v.settleObject = some d) : Lists (some v) d

/-- An extension says what the custom attributes are: it is the text of an object, or of a list in its place,
whose field lists them. -/
def Declares (ext : String) (attributes : Dict String Json) : Prop :=
  ∃ v field, Json.parse ext = some v ∧ HasField "custom_attributes" v field ∧ Lists field attributes

theorem lists_iff {field : Option Json} {d : Dict String Json} :
    Lists field d ↔ ∃ o, readOr (some none) (nullable? settleObject) field = some o ∧ o.getD .empty = d := by
  constructor
  · intro h
    cases h with
    | absent => exact ⟨none, readOr_none _ _, rfl⟩
    | null => exact ⟨none, readOr_some _ _ _, rfl⟩
    | @object v _ h =>
      have hne : v ≠ .null := by
        rintro rfl
        cases h
      refine ⟨some d, ?_, rfl⟩
      rw [readOr_some, nullable?_of_ne_null hne, h]
      rfl
  · rintro ⟨o, ho, rfl⟩
    cases field with
    | none =>
      rw [readOr_none] at ho
      obtain rfl := Option.some.inj ho
      exact .absent
    | some v =>
      rw [readOr_some] at ho
      by_cases hnull : v = .null
      · subst hnull
        obtain rfl := Option.some.inj ho
        exact .null
      · rw [nullable?_of_ne_null hnull] at ho
        obtain ⟨d, hd, rfl⟩ := Option.map_eq_some_iff.1 ho
        exact .object hd

theorem customAttributes?_eq_some_iff {ext : String} {d : Dict String Json} :
    customAttributes? ext = some d ↔ Declares ext d := by
  unfold customAttributes? Declares
  simp only [Option.bind_eq_bind, Option.bind_eq_some_iff, optional_eq, Option.some.injEq, lists_iff]
  constructor
  · rintro ⟨v, hv, fs, hfs, o, ho, hd⟩
    exact ⟨v, fs "custom_attributes", hv, hasField_of_fields? hfs, o, ho, hd⟩
  · rintro ⟨v, field, hv, hfield, o, ho, hd⟩
    obtain ⟨fs, hfs, rfl⟩ := exists_fields?_of_hasField hfield
    exact ⟨v, hv, fs, hfs, o, ho, hd⟩

/-! ## Filters -/

/-- A request passes a filter. -/
inductive Passes (p : Params) (f : Filter) : Prop where
  | listed (hkind : f.kind = .country) (hoperator : f.operator = "IN") (h : p.country ∈ f.values)
  | unlisted (hkind : f.kind = .country) (hoperator : f.operator = "NOT IN") (h : p.country ∉ f.values)
  | equal {expected : String} {others : List String} {attributes : Dict String Json}
    (hkind : f.kind = .customString) (hoperator : f.operator = "==") (hvalues : f.values = expected :: others)
    (hext : Declares p.ext attributes) (h : attributes.get? f.name = some (.str expected))
  | unequal {expected : String} {others : List String} {attributes : Dict String Json}
    (hkind : f.kind = .customString) (hoperator : f.operator = "!=") (hvalues : f.values = expected :: others)
    (hext : Declares p.ext attributes) (h : attributes.get? f.name ≠ some (.str expected))

/-- A request has what a filter compares, and the filter has what to compare it with. -/
inductive Evaluable (p : Params) (f : Filter) : Prop where
  | country (hkind : f.kind = .country)
  | custom {attributes : Dict String Json} (hkind : f.kind = .customString) (hvalues : f.values ≠ [])
    (hext : Declares p.ext attributes)

/-- The two operators of a kind of filter. -/
inductive Opposite : FilterKind → String → String → Prop where
  | country : Opposite .country "IN" "NOT IN"
  | custom : Opposite .customString "==" "!="

section

variable {p : Params} {f : Filter}

theorem matchesCountry_iff : f.matchesCountry p.country ↔
    f.operator = "IN" ∧ p.country ∈ f.values ∨ f.operator = "NOT IN" ∧ p.country ∉ f.values := by
  unfold Filter.matchesCountry
  by_cases hin : f.operator = "IN"
  · simp [hin]
  · by_cases hnot : f.operator = "NOT IN" <;> simp [hin, hnot]

theorem matchesAttribute_iff {ext expected : String} {others : List String} {attributes : Dict String Json}
    (hvalues : f.values = expected :: others) (hext : Declares ext attributes) : f.matchesAttribute ext ↔
      f.operator = "==" ∧ attributes.get? f.name = some (.str expected) ∨
        f.operator = "!=" ∧ attributes.get? f.name ≠ some (.str expected) := by
  have hequal : (attributes.get? f.name).bind str? = some expected ↔
      attributes.get? f.name = some (.str expected) := by
    simp [Option.bind_eq_some_iff, str?_eq_some_iff]
  unfold Filter.matchesAttribute
  rw [hvalues, customAttributes?_eq_some_iff.2 hext, List.head?_cons]
  dsimp only
  by_cases heq : f.operator = "=="
  · simp [heq, hequal]
  · by_cases hne : f.operator = "!=" <;> simp [heq, hne, hequal]

theorem exists_of_matchesAttribute {ext : String} (h : f.matchesAttribute ext) :
    ∃ expected others attributes, f.values = expected :: others ∧ Declares ext attributes := by
  unfold Filter.matchesAttribute at h
  split at h
  · rename_i expected attributes hvalues hext
    obtain ⟨others, hvalues⟩ := List.head?_eq_some_iff.1 hvalues
    exact ⟨expected, others, attributes, hvalues, customAttributes?_eq_some_iff.1 hext⟩
  · cases h

theorem passes_iff : f.passes p ↔ Passes p f := by
  unfold Filter.passes
  constructor
  · intro h
    split at h
    · rename_i hkind
      rcases matchesCountry_iff.1 h with ⟨hoperator, hmem⟩ | ⟨hoperator, hmem⟩
      · exact .listed hkind hoperator hmem
      · exact .unlisted hkind hoperator hmem
    · rename_i hkind
      obtain ⟨_, _, _, hvalues, hext⟩ := exists_of_matchesAttribute h
      rcases (matchesAttribute_iff hvalues hext).1 h with ⟨hoperator, hget⟩ | ⟨hoperator, hget⟩
      · exact .equal hkind hoperator hvalues hext hget
      · exact .unequal hkind hoperator hvalues hext hget
    · cases h
  · intro h
    cases h with
    | listed hkind hoperator h =>
      rw [hkind]
      exact matchesCountry_iff.2 (.inl ⟨hoperator, h⟩)
    | unlisted hkind hoperator h =>
      rw [hkind]
      exact matchesCountry_iff.2 (.inr ⟨hoperator, h⟩)
    | equal hkind hoperator hvalues hext h =>
      rw [hkind]
      exact (matchesAttribute_iff hvalues hext).2 (.inl ⟨hoperator, h⟩)
    | unequal hkind hoperator hvalues hext h =>
      rw [hkind]
      exact (matchesAttribute_iff hvalues hext).2 (.inr ⟨hoperator, h⟩)

/-- A filter that cannot be evaluated lets nothing pass, whatever its operator is. -/
theorem evaluable_of_passes {operator : String} (h : ({ f with operator := operator } : Filter).passes p) :
    Evaluable p f := by
  cases passes_iff.1 h with
  | listed hkind | unlisted hkind => exact .country hkind
  | equal hkind _ hvalues hext | unequal hkind _ hvalues hext =>
    exact .custom hkind (by simp [show f.values = _ from hvalues]) hext

/-- Of two opposite filters that can be evaluated a request passes one. -/
theorem passes_opposite {operator opposite : String} (h : Opposite f.kind operator opposite)
    (hevaluable : Evaluable p f) :
    ({ f with operator := opposite } : Filter).passes p = !({ f with operator := operator } : Filter).passes p := by
  obtain ⟨kind, name, own, values⟩ := f
  rw [Bool.eq_iff_iff, Bool.not_eq_true', ← Bool.not_eq_true]
  cases h with
  | country => simp [Filter.passes, matchesCountry_iff]
  | custom =>
    cases hevaluable with
    | country hkind => cases hkind
    | custom _ hvalues hext =>
      obtain ⟨expected, others, hvalues⟩ := List.exists_cons_of_ne_nil hvalues
      have hmatches (operator : String) :=
        matchesAttribute_iff (f := ⟨.customString, name, operator, values⟩) hvalues hext
      simp only [Filter.passes, hmatches]
      simp

/-- Two opposite filters are complementary exactly if they can be evaluated. -/
theorem passes_opposite_iff {operator opposite : String} (h : Opposite f.kind operator opposite) :
    ({ f with operator := opposite } : Filter).passes p =
      (!({ f with operator := operator } : Filter).passes p) ↔ Evaluable p f := by
  constructor
  · intro hopposite
    cases hpasses : ({ f with operator := operator } : Filter).passes p with
    | true => exact evaluable_of_passes hpasses
    | false =>
      rw [hpasses] at hopposite
      exact evaluable_of_passes hopposite
  · exact passes_opposite h

end

/-! ## Segments -/

/-- A request belongs to a segment if it comes to it: the segment has filters, and the request passes them. -/
structure Takes (p : Params) (g : Segment) : Prop where
  filtered : g.filters ≠ []
  passes : ∀ f ∈ g.filters, Passes p f

/-- The segment of a request among those of an app: the one at the least place that takes the request, or the
zero segment if none does. -/
inductive FirstTaken (p : Params) (segments : List Segment) : Segment → Prop where
  | first {i : Nat} {g : Segment} (hi : segments[i]? = some g) (hg : Takes p g)
    (hleast : ∀ j < i, ∀ h, segments[j]? = some h → ¬ Takes p h) : FirstTaken p segments g
  | none (h : ∀ g ∈ segments, ¬ Takes p g) : FirstTaken p segments .zero

section

variable {p : Params} {segments : List Segment} {g : Segment}

theorem accepts_iff : g.accepts p ↔ Takes p g := by
  unfold accepts
  rw [Bool.and_eq_true, List.all_eq_true, Bool.not_eq_true', ← Bool.not_eq_true, List.isEmpty_iff]
  constructor
  · rintro ⟨hfiltered, hpasses⟩
    exact ⟨hfiltered, fun f hf => passes_iff.1 (hpasses f hf)⟩
  · rintro ⟨hfiltered, hpasses⟩
    exact ⟨hfiltered, fun f hf => passes_iff.2 (hpasses f hf)⟩

theorem firstTaken_firstMatch (segments : List Segment) (p : Params) :
    FirstTaken p segments (.firstMatch segments p) := by
  unfold firstMatch
  cases hfind : segments.find? (·.accepts p) with
  | none =>
    rw [List.find?_eq_none] at hfind
    exact .none fun g hg htakes => hfind g hg (accepts_iff.2 htakes)
  | some g =>
    obtain ⟨hg, i, hi, rfl, hleast⟩ := List.find?_eq_some_iff_getElem.1 hfind
    refine .first (List.getElem?_eq_getElem hi) (accepts_iff.1 hg) fun j hj h hh htakes => ?_
    obtain ⟨hlength, rfl⟩ := List.getElem?_eq_some_iff.1 hh
    have hnot := hleast j hj
    rw [accepts_iff.2 htakes] at hnot
    cases hnot

/-- There is one segment of a request. -/
theorem eq_firstMatch_of_firstTaken (h : FirstTaken p segments g) : g = .firstMatch segments p := by
  unfold firstMatch
  cases h with
  | @first i _ hi hg hleast =>
    obtain ⟨hlength, rfl⟩ := List.getElem?_eq_some_iff.1 hi
    have hfind : segments.find? (·.accepts p) = some segments[i] := by
      refine List.find?_eq_some_iff_getElem.2 ⟨accepts_iff.2 hg, i, hlength, rfl, fun j hj => ?_⟩
      have hnot := hleast j hj _ (List.getElem?_eq_getElem (hj.trans hlength))
      rw [← accepts_iff] at hnot
      simpa using hnot
    rw [hfind]
    rfl
  | none hnone =>
    have hfind : segments.find? (·.accepts p) = none :=
      List.find?_eq_none.2 fun g hg haccepts => hnone g hg (accepts_iff.1 haccepts)
    rw [hfind]
    rfl

/-- With a filter more a segment that has filters takes no other requests. -/
theorem accepts_of_append {f : Filter} (hfiltered : g.filters ≠ [])
    (h : ({ g with filters := g.filters ++ [f] } : Segment).accepts p) : g.accepts p := by
  obtain ⟨-, hpasses⟩ := accepts_iff.1 h
  exact accepts_iff.2 ⟨hfiltered, fun f hf => hpasses f (List.mem_append_left _ hf)⟩

end

end Segment

namespace Auction

open Segment

/-- A request belongs to the first segment that has filters and whose filters it all passes, and to the zero
segment if there is none; an auction takes the segments in the order in which its store has them. A filter for
countries lets a request pass or not by whether it lists the country. A filter for attributes compares one of
them with its first value, provided that it has one and that the extension says what the attributes are. So a
request passes just one of two opposite filters exactly if they can be evaluated. With a filter more a segment
that has filters takes no other requests. -/
theorem segment_by_filters :
    (∀ (f : Filter) (p : Params), f.passes p ↔ Passes p f) ∧
    (∀ segments p g, firstMatch segments p = g ↔ FirstTaken p segments g) ∧
    (∀ (s : Services) (x : Subject) t segments, (s.segments x.appId).answer = .ok segments →
      ((resolveSegment s x).run t).value = .ok (firstMatch segments ⟨x.geo.country, x.request.segment.ext⟩)) ∧
    (∀ (f : Filter) p operator opposite, Opposite f.kind operator opposite →
      (({ f with operator := opposite } : Filter).passes p =
        (!({ f with operator := operator } : Filter).passes p) ↔ Evaluable p f)) ∧
    ∀ (g : Segment) f p, g.filters ≠ [] →
      ({ g with filters := g.filters ++ [f] } : Segment).accepts p → g.accepts p := by
  refine ⟨fun f p => passes_iff, fun segments p g => ?_, fun s x t segments hsegments => ?_,
    fun f p operator opposite => passes_opposite_iff, fun g f p => accepts_of_append⟩
  · constructor
    · rintro rfl
      exact firstTaken_firstMatch segments p
    · exact fun h => (eq_firstMatch_of_firstTaken h).symm
  · rw [run_resolveSegment]
    unfold segmentOf
    rw [hsegments]

/-- Requests with a golden tier. -/
def goldenFilter : Filter := ⟨.customString, "tier", "==", ["gold"]⟩

/-- Only the last of these takes golden requests from the United States. -/
def tieredSegments : List Segment :=
  [⟨1, "bare", []⟩, ⟨2, "valueless", [⟨.customString, "tier", "!=", []⟩]⟩,
    ⟨3, "there", [goldenFilter, ⟨.country, "", "IN", ["DE"]⟩]⟩,
    ⟨4, "elsewhere", [goldenFilter, ⟨.country, "", "NOT IN", ["DE"]⟩]⟩]

/-- A golden request from the United States, which lists its attributes in place. -/
def tieredSubject : Subject where
  appId := 1
  request := { pickySubject.request with segment := { ext := "[\x7b\"tier\":\"gold\"\x7d]" } }
  geo := { countryCode := "US" }

def tieredParams : Params := ⟨tieredSubject.geo.country, tieredSubject.request.segment.ext⟩

theorem segment_by_filters_tiered :
    ((resolveSegment { pickyServices with segments := fun _ => ⟨0, .ok tieredSegments⟩ } tieredSubject).run 0).value =
      .ok tieredSegments[3] ∧
    ({ goldenFilter with operator := "!=" } : Filter).passes tieredParams = (!goldenFilter.passes tieredParams) ∧
    ({ tieredSegments[3] with filters := [goldenFilter] } : Segment).accepts tieredParams := by
  obtain ⟨-, hfirst, hresolve, hopposite, happend⟩ := segment_by_filters
  have htaken : tieredSegments[3].accepts tieredParams := by decide +kernel
  have hnot : ∀ g ∈ tieredSegments.take 3, g.accepts tieredParams = false := by decide +kernel
  have hext : (customAttributes? tieredParams.ext).isSome := by decide +kernel
  obtain ⟨attributes, hext⟩ := Option.isSome_iff_exists.1 hext
  have hleast : FirstTaken tieredParams tieredSegments tieredSegments[3] := by
    refine .first (i := 3) rfl (accepts_iff.1 htaken) fun j hj h hh htakes => ?_
    have hmem : h ∈ tieredSegments.take 3 := by
      refine List.mem_of_getElem? (i := j) ?_
      rwa [List.getElem?_take_of_lt hj]
    have htakes := accepts_iff.2 htakes
    rw [hnot h hmem] at htakes
    cases htakes
  refine ⟨?_, ?_, ?_⟩
  · rw [hresolve _ _ _ tieredSegments rfl]
    exact congrArg _ ((hfirst _ _ _).2 hleast)
  · exact (hopposite goldenFilter tieredParams _ _ .custom).2
      (.custom rfl (by decide) (customAttributes?_eq_some_iff.1 hext))
  · exact happend _ ⟨.country, "", "NOT IN", ["DE"]⟩ _ (by decide) htaken

end Auction

end Mediation
