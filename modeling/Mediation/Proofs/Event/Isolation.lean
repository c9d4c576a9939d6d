/-
What the extension of a request can do to the payload of a row. Its members all stand below the path
`ext`, however deep they are and whatever their names are, and no other column of a row, a span of the
timings included, has a path that starts so. A payload is therefore that of the row without an extension
with the members of the extension laid over it, and neither part hides anything of the other.
-/
import Mediation.Proofs.Event.Payload

namespace Mediation

namespace Event

/-! ## Paths -/

/-- Going on from a path is starting with it and a separator. -/
theorem below_iff {path k : String} : Below path k ↔ (path ++ "__").toList <+: k.toList := by
  constructor
  · rintro ⟨rest, rfl⟩
    exact ⟨rest.toList, by simp⟩
  · rintro ⟨rest, hrest⟩
    exact ⟨.ofList rest, String.toList_inj.1 (by simp [← hrest])⟩

instance {path k : String} : Decidable (Below path k) := decidable_of_iff _ below_iff.symm

/-- Of two paths with a common continuation one starts the other, the separators included. -/
theorem Below.isPrefix_or {path path' k : String} (h : Below path k) (h' : Below path' k) :
    (path ++ "__").toList <+: (path' ++ "__").toList ∨
      (path' ++ "__").toList <+: (path ++ "__").toList :=
  List.prefix_or_prefix_of_prefix (below_iff.1 h) (below_iff.1 h')

/-! ## Members of a flat payload -/

/-- Which value a flat payload has at a path is settled by the members that have a leaf there. -/
theorem get?_flatten_filterKeys {d : Dict String Json} {k : String} {keep : String → Bool}
    (h : ∀ m ∈ d.entries, keep m.1 = false → ∀ leaf ∈ leavesAt m.1 m.2, leaf.1 ≠ k) :
    (flatten (d.filterKeys keep)).get? k = (flatten d).get? k := by
  unfold flatten Dict.filterKeys
  rw [Dict.get?_ofList, Dict.get?_ofList]
  dsimp only
  generalize d.entries = members at h ⊢
  induction members with
  | nil => rfl
  | cons m members ih =>
    obtain ⟨n, v⟩ := m
    have htail := ih fun m hm => h m (List.mem_cons_of_mem _ hm)
    rw [leavesOf, List.reverse_append, Dict.lookupEntry_append, ← htail]
    cases hkeep : keep n with
    | true =>
      rw [List.filter_cons_of_pos (by exact hkeep), leavesOf, List.reverse_append,
        Dict.lookupEntry_append]
    | false =>
      -- a member that is left out has no leaf at the path
      have hnone : Dict.lookupEntry k (leavesAt (joinPath "" n) v).reverse = none := by
        rw [Dict.lookupEntry_eq_none_iff]
        exact fun leaf hleaf => h (n, v) List.mem_cons_self hkeep leaf (List.mem_reverse.1 hleaf)
      rw [List.filter_cons_of_neg (by simp [hkeep]), hnone, Option.or_none]

end Event

namespace AdEvent

open Event

/-! ## Columns -/

section

variable {e : AdEvent} {ext : Dict String Json} {k : String}

/-- All rows have the same columns. -/
theorem mem_keys_columns_iff {n : String} :
    n ∈ (e.columns ext).keys ↔ n ∈ (({} : AdEvent).columns .empty).keys := by
  unfold columns
  rw [Dict.mem_keys_ofList_iff, Dict.mem_keys_ofList_iff]
  exact Iff.rfl

/-- Nothing goes on both from the path of the extension and from that of another column. -/
theorem columns_apart : ∀ n ∈ (({} : AdEvent).columns .empty).keys, n ≠ "ext" →
    ¬ "ext__".toList <+: (n ++ "__").toList ∧ ¬ (n ++ "__").toList <+: "ext__".toList := by
  unfold columns
  simp only [Dict.mem_keys_ofList_iff]
  decide +kernel

/-- The leaves of the other columns are not below the extension. -/
theorem not_below_ext_of_mem_leavesAt {n : String} {v : Json} {leaf : String × Json}
    (hn : n ∈ (e.columns ext).keys) (hne : n ≠ "ext") (hleaf : leaf ∈ leavesAt n v) :
    ¬ Below "ext" leaf.1 := by
  intro hbelow
  obtain ⟨hext, hcolumn⟩ := columns_apart n (mem_keys_columns_iff.1 hn) hne
  have hempty : n ≠ "" := by
    rintro rfl
    exact e.empty_not_mem_keys_columns ext hn
  rcases leaf_of_mem_leavesAt hempty hleaf with rfl | hcolumnBelow
  · -- the column stands under its own name, which does not start so
    refine hext ((below_iff.1 hbelow).trans ?_)
    rw [String.toList_append]
    exact List.prefix_append _ _
  · rcases hbelow.isPrefix_or hcolumnBelow with h | h
    · exact hext h
    · exact hcolumn h

theorem get?_columns_of_ne (ext ext' : Dict String Json) {n : String} (hn : n ≠ "ext") :
    (e.columns ext).get? n = (e.columns ext').get? n := by
  unfold columns
  rw [Dict.get?_ofList, Dict.get?_ofList]
  exact (if_neg hn).trans (if_neg hn).symm

theorem get?_columns_ext : (e.columns ext).get? "ext" = some (.ofDict ext) := by
  unfold columns
  rw [Dict.get?_ofList]
  rfl

/-! ## Payloads -/

/-- Outside the extension a payload is that of the other columns. -/
theorem get?_flatten_columns_of_not_below (hk : ¬ Below "ext" k) :
    (flatten (e.columns ext)).get? k = (flatten ((e.columns .empty).erase "ext")).get? k := by
  have hcolumns : (e.columns .empty).erase "ext" = (e.columns ext).erase "ext" := by
    refine Dict.ext_get? fun n => ?_
    rw [Dict.get?_erase, Dict.get?_erase]
    split
    · rfl
    · rename_i hn
      exact get?_columns_of_ne _ _ hn
  rw [hcolumns, Dict.erase, get?_flatten_filterKeys]
  rintro ⟨n, v⟩ hm hn leaf hleaf rfl
  obtain rfl : n = "ext" := by simpa using hn
  -- the one column that is left out has all its leaves below it
  obtain rfl := Option.some.inj ((Dict.get?_eq_some_iff.2 hm).symm.trans get?_columns_ext)
  exact hk (below_of_mem_leavesOf (by decide) hleaf)

/-- Below the extension a payload has what the extension says. -/
theorem get?_flatten_columns_of_below (hk : Below "ext" k) :
    (flatten (e.columns ext)).get? k = (Dict.ofList (leavesOf "ext" ext.entries)).get? k := by
  have hcolumn : (e.columns ext).filterKeys (· == "ext") = .ofList [("ext", .ofDict ext)] := by
    refine Dict.ext_get? fun n => ?_
    rw [Dict.get?_filterKeys, Dict.get?_ofList]
    by_cases hn : n = "ext"
    · subst hn
      rw [get?_columns_ext]
      rfl
    · simp [hn, Dict.lookupEntry]
  have hflatten : flatten (.ofList [("ext", .ofDict ext)]) = .ofList (leavesOf "ext" ext.entries) := by
    exact congrArg Dict.ofList (List.append_nil _)
  rw [← hflatten, ← hcolumn, get?_flatten_filterKeys]
  rintro ⟨n, v⟩ hm hn leaf hleaf rfl
  have hne : n ≠ "ext" := by simpa using hn
  exact not_below_ext_of_mem_leavesAt (List.mem_map_of_mem hm) hne hleaf hk

/-- A payload is that of the row without an extension, with the leaves of the extension laid over it. -/
theorem flatten_columns_eq_layOver : flatten (e.columns ext) =
    (Dict.ofList (leavesOf "ext" ext.entries)).layOver (flatten (e.columns .empty)) := by
  refine Dict.ext_get? fun k => ?_
  rw [Dict.get?_layOver]
  by_cases hk : Below "ext" k
  · rw [get?_flatten_columns_of_below hk, get?_flatten_columns_of_below hk]
    exact (Option.or_none).symm
  · have hnone : (Dict.ofList (leavesOf "ext" ext.entries)).get? k = none := by
      rw [Dict.get?_ofList, Dict.lookupEntry_eq_none_iff]
      rintro leaf hleaf rfl
      exact hk (below_of_mem_leavesOf (by decide) (List.mem_reverse.1 hleaf))
    rw [hnone, Option.none_or, get?_flatten_columns_of_not_below hk,
      get?_flatten_columns_of_not_below hk]

/-- The extension of a row matters for its payload by what it says. -/
theorem payload_eq_ok_iff {text : String} {p : Dict String Json} :
    ({ e with ext := text } : AdEvent).payload = .ok p ↔
      ∃ d, parseExt text = .ok d ∧ p = flatten (e.columns d) := by
  show (parseExt text).map (fun d => flatten (e.columns d)) = .ok p ↔ _
  rcases parseExt text with _ | d <;> simp [Except.map, eq_comm]

end

/-- The extension of a row is kept apart. The payload is that of the row without an extension, in which
nothing is below `ext`, with the leaves of the extension laid over it, all of which are below `ext`. So
the payloads with any two extensions have the same names and values outside of it. -/
theorem payload_isolated (e : AdEvent) {ext : String} {p : Dict String Json}
    (h : ({ e with ext := ext } : AdEvent).payload = .ok p) :
    ∃ base d, ({ e with ext := "" } : AdEvent).payload = .ok base ∧ parseExt ext = .ok d ∧
      p = (Dict.ofList (leavesOf "ext" d.entries)).layOver base ∧
      (∀ k ∈ base.keys, ¬ Below "ext" k) ∧
      (∀ leaf ∈ leavesOf "ext" d.entries, Below "ext" leaf.1) ∧
      (∀ k ∈ p.keys, k ∈ base.keys ∨ Below "ext" k) ∧
      ∀ ext' p', ({ e with ext := ext' } : AdEvent).payload = .ok p' →
        ∀ k, ¬ Below "ext" k → p.get? k = p'.get? k := by
  obtain ⟨d, hd, hp⟩ := payload_eq_ok_iff.1 h
  have houtside {k : String} (hk : ¬ Below "ext" k) (d' : Dict String Json) :
      (flatten (e.columns d)).get? k = (flatten (e.columns d')).get? k := by
    rw [get?_flatten_columns_of_not_below hk, get?_flatten_columns_of_not_below hk]
  refine ⟨flatten (e.columns .empty), d, payload_eq_ok_iff.2 ⟨_, rfl, rfl⟩, hd,
    hp.trans flatten_columns_eq_layOver, ?_, ?_, ?_, ?_⟩
  · intro k hk hbelow
    rw [Dict.mem_keys_iff, Dict.contains, get?_flatten_columns_of_below hbelow] at hk
    exact Bool.false_ne_true hk
  · exact fun leaf hleaf => below_of_mem_leavesOf (by decide) hleaf
  · intro k hk
    rw [or_iff_not_imp_right]
    intro hbelow
    rw [hp, Dict.mem_keys_iff, Dict.contains, houtside hbelow .empty] at hk
    exact Dict.mem_keys_iff.2 hk
  · intro ext' p' h' k hk
    obtain ⟨d', -, hp'⟩ := payload_eq_ok_iff.1 h'
    rw [hp, hp']
    exact houtside hk d'

/-- A row about a bid, with one span of time. -/
def spannedRow : AdEvent := { eventType := "bid", timings := .ofList [("ext__", (1, 2))] }

/-- Members without a name, with a separator for a name, with the name of a column, and below it once
more what the extension itself is called. -/
def oddExtension : String :=
  "\x7b\"\":\x7b\"a\":1\x7d,\"__\":2,\"event_type\":\"x\",\"ext\":\x7b\"ext__a\":3\x7d\x7d"

/-- The odd members all stand below the extension, and the row says of itself what it says without. -/
theorem payload_isolated_odd :
    ((parseExt oddExtension).map fun d => (leavesOf "ext" d.entries).map (·.1)) =
      .ok ["ext____a", "ext____", "ext__event_type", "ext__ext__ext__a"] ∧
    ∃ p base, ({ spannedRow with ext := oddExtension } : AdEvent).payload = .ok p ∧
      ({ spannedRow with ext := "" } : AdEvent).payload = .ok base ∧
      (∀ k ∈ p.keys, k ∈ base.keys ∨ Below "ext" k) ∧
      p.get? "event_type" = base.get? "event_type" ∧
      p.get? "timing_map__ext__" = base.get? "timing_map__ext__" := by
  refine ⟨by decide +kernel, ?_⟩
  obtain ⟨d, hd⟩ := parseExt_of_namesObject (by decide +kernel : NamesObject oddExtension)
  have hp : ({ spannedRow with ext := oddExtension } : AdEvent).payload =
      .ok (flatten (spannedRow.columns d)) := payload_eq_ok_iff.2 ⟨d, hd, rfl⟩
  obtain ⟨base, -, hbase, -, -, -, -, hkeys, hsame⟩ := payload_isolated spannedRow hp
  exact ⟨_, base, hp, hbase, hkeys, hsame "" base hbase _ (by decide), hsame "" base hbase _ (by decide)⟩

end AdEvent

end Mediation
