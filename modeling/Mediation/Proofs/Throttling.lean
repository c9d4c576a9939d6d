/-
Which adapters the ads on a device keep out of an auction. All that counts of a cached ad is which adapter it
names. So it does not matter in which order the ads are, what they cost, and what is there under names that no
adapter has; more ads never bring an adapter back, a higher limit never keeps one out, and every adapter is
judged by its own ads alone.
-/
import Mathlib.Data.List.Perm.Subperm
import Mediation.Adapter.Throttle
import Mediation.Proofs.Lists

namespace Mediation.Adapter

open Request (CachedAd)

/-! ## Counting -/

/-- The adapters that cached ads are of, ad by ad. An ad under a name that no adapter has is of none. -/
def owners (cache : List CachedAd) : List Adapter := cache.filterMap fun c => ofWire? c.demandId

/-- Counts one more ad under its name. -/
def countAd (counts : Dict String Nat) (c : CachedAd) : Dict String Nat :=
  counts.insert c.demandId ((counts.get? c.demandId).getD 0 + 1)

/-- The number of ads under each name, from one pass over the cache. -/
def tally (cache : List CachedAd) : Dict String Nat := cache.foldl countAd .empty

theorem getD_get?_countAd (counts : Dict String Nat) (c : CachedAd) (name : String) :
    ((countAd counts c).get? name).getD 0 =
      (counts.get? name).getD 0 + if c.demandId = name then 1 else 0 := by
  unfold countAd
  rw [Dict.get?_insert]
  by_cases h : c.demandId = name
  · rw [if_pos h.symm, if_pos h, h]
    rfl
  · rw [if_neg (Ne.symm h), if_neg h, Nat.add_zero]

/-- In a pass that has counted some ads before, every name gains the number of ads under it. -/
theorem getD_get?_foldl_countAd (counts : Dict String Nat) (cache : List CachedAd) (name : String) :
    ((cache.foldl countAd counts).get? name).getD 0 =
      (counts.get? name).getD 0 + cache.countP (·.demandId == name) := by
  induction cache generalizing counts with
  | nil => rfl
  | cons c cache ih =>
    rw [List.foldl_cons, ih, getD_get?_countAd, List.countP_cons, Nat.add_assoc]
    simp only [beq_iff_eq]
    rw [Nat.add_comm (if c.demandId = name then 1 else 0)]

theorem getD_get?_tally (cache : List CachedAd) (a : Adapter) :
    ((tally cache).get? a.wire).getD 0 = cachedCount cache a := by
  unfold tally
  rw [getD_get?_foldl_countAd, Dict.get?_empty, Option.getD_none, Nat.zero_add]
  rfl

/-- The ads under the name of an adapter are those that are of it. -/
theorem cachedCount_eq_count (cache : List CachedAd) (a : Adapter) :
    cachedCount cache a = (owners cache).count a := by
  unfold cachedCount owners
  rw [List.count_filterMap]
  refine List.countP_congr fun c _ => ?_
  rw [beq_iff_eq, beq_iff_eq, ofWire?_eq_some_iff]

theorem cachedCount_eq_length (cache : List CachedAd) (a : Adapter) :
    cachedCount cache a = (cache.filter (·.demandId = a.wire)).length := by
  unfold cachedCount
  rw [List.countP_eq_length_filter]
  exact congrArg _ (List.filter_congr fun c _ => beq_eq_decide c.demandId a.wire)

/-! ## Limits -/

theorem cacheLimit_mono {default default' : Nat} (h : default ≤ default') (os : Os) (a : Adapter)
    (t : AdType) : cacheLimit default os a t ≤ cacheLimit default' os a t := by
  unfold cacheLimit
  split
  · exact Nat.le_refl 1
  · exact h

section

variable {default default' : Nat} {os : Os} {t : AdType} {adapters : List Adapter}
variable {cache cache' : List CachedAd}

theorem unthrottled_eq_filter : unthrottled default os t adapters cache = adapters.filter fun a =>
    decide ((cache.filter (·.demandId = a.wire)).length < if t ∈ singleAdTypes os a then 1 else default) := by
  unfold unthrottled cacheLimit
  simp only [cachedCount_eq_length, List.contains_iff_mem]

/-- An adapter that is judged alike under two caches has the same part in what is left. -/
theorem count_unthrottled_congr {a : Adapter} (h : cachedCount cache a = cachedCount cache' a) :
    (unthrottled default os t adapters cache).count a =
      (unthrottled default os t adapters cache').count a := by
  unfold unthrottled
  rw [count_filter_ite, count_filter_ite, h]

/-- Fewer ads and a higher limit keep every adapter that more ads and a lower limit keep. -/
theorem unthrottled_sublist (hlimit : default ≤ default')
    (hcount : ∀ a, cachedCount cache a ≤ cachedCount cache' a) :
    (unthrottled default os t adapters cache').Sublist (unthrottled default' os t adapters cache) := by
  unfold unthrottled
  refine filter_sublist_filter fun a _ h => ?_
  rw [decide_eq_true_iff] at h ⊢
  calc cachedCount cache a
    _ ≤ cachedCount cache' a := hcount a
    _ < cacheLimit default os a t := h
    _ ≤ cacheLimit default' os a t := cacheLimit_mono hlimit os a t

end

/-! ## What is left -/

/-- Of the adapters those are left, in their order and as often as they are listed, of which the cache holds fewer
ads than their limit: one where the table says so, and else the default. One pass over the cache finds these
numbers. So caches of the same owners, however ordered, leave the same adapters; a cache that has more of them
leaves nothing that the smaller one does not; a higher default leaves all that the lower one does; and whether an
adapter is left depends on no ad but its own. -/
theorem unthrottled_by_owners (default : Nat) (os : Os) (t : AdType) (adapters : List Adapter)
    (cache : List CachedAd) :
    (unthrottled default os t adapters cache = adapters.filter fun a =>
      decide ((cache.filter (·.demandId = a.wire)).length < if t ∈ singleAdTypes os a then 1 else default)) ∧
    (∀ a : Adapter, (cache.filter (·.demandId = a.wire)).length = ((tally cache).get? a.wire).getD 0) ∧
    (∀ cache', (owners cache).Perm (owners cache') →
      unthrottled default os t adapters cache = unthrottled default os t adapters cache') ∧
    (∀ cache', (owners cache).Subperm (owners cache') →
      (unthrottled default os t adapters cache').Sublist (unthrottled default os t adapters cache)) ∧
    (∀ default', default ≤ default' →
      (unthrottled default os t adapters cache).Sublist (unthrottled default' os t adapters cache)) ∧
    ∀ cache' (a : Adapter), cache.filter (·.demandId = a.wire) = cache'.filter (·.demandId = a.wire) →
      (unthrottled default os t adapters cache).count a =
        (unthrottled default os t adapters cache').count a := by
  refine ⟨unthrottled_eq_filter, fun a => ?_, fun cache' h => ?_, fun cache' h => ?_, fun default' h => ?_,
    fun cache' a h => ?_⟩
  · rw [getD_get?_tally, cachedCount_eq_length]
  · have hcount : ∀ a, cachedCount cache a = cachedCount cache' a := fun a => by
      rw [cachedCount_eq_count, cachedCount_eq_count, h.count_eq]
    unfold unthrottled
    simp only [hcount]
  · refine unthrottled_sublist (Nat.le_refl default) fun a => ?_
    rw [cachedCount_eq_count, cachedCount_eq_count]
    exact h.count_le a
  · exact unthrottled_sublist h fun a => Nat.le_refl _
  · exact count_unthrottled_congr (by rw [cachedCount_eq_length, cachedCount_eq_length, h])

/-- Two ads of Bidmachine, one of AdMob and one of nobody. -/
def mixedCache : List CachedAd :=
  [⟨"bidmachine", 1.0⟩, ⟨"admob", 2.0⟩, ⟨"nobody", 9.0⟩, ⟨"bidmachine", 0.5⟩]

/-- On Android one rewarded ad is enough for AdMob and two are for Bidmachine where the default is two. Without the ad
of nobody, in another order and at other prices, the same is left; with a further ad of Gam less is; with a higher
default more is; and the ads of AdMob alone decide of AdMob. -/
theorem unthrottled_by_owners_mixed :
    let adapters : List Adapter := [.bidmachine, .gam, .admob, .gam]
    let shuffled : List CachedAd := [⟨"admob", 0.0⟩, ⟨"bidmachine", 3.0⟩, ⟨"bidmachine", 3.0⟩]
    let grown : List CachedAd := ⟨"gam", 1.0⟩ :: mixedCache
    unthrottled 2 .android .rewarded adapters mixedCache = [.gam, .gam] ∧
    unthrottled 2 .android .rewarded adapters shuffled = [.gam, .gam] ∧
    (unthrottled 2 .android .rewarded adapters grown).Sublist [.gam, .gam] ∧
    [.gam, .gam].Sublist (unthrottled 3 .android .rewarded adapters mixedCache) ∧
    (unthrottled 2 .android .rewarded adapters [⟨"admob", 2.0⟩]).count .admob = 0 := by
  obtain ⟨hleft, -, horder, hmore, hlimit, hown⟩ := unthrottled_by_owners 2 .android .rewarded
    [.bidmachine, .gam, .admob, .gam] mixedCache
  have hgam : unthrottled 2 .android .rewarded [.bidmachine, .gam, .admob, .gam] mixedCache = [.gam, .gam] :=
    hleft.trans (by decide)
  refine ⟨hgam, ?_, ?_, ?_, ?_⟩
  · rw [← horder _ (by decide), hgam]
  · rw [← hgam]
    exact hmore _ (List.sublist_cons_self ..).subperm
  · rw [← hgam]
    exact hlimit 3 (by decide)
  · rw [← hown [⟨"admob", 2.0⟩] .admob (by decide), hgam]
    rfl

end Mediation.Adapter
