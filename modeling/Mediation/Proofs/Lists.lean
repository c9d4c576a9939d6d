/-
Lists that are filtered or mapped in part: what stands opposite to what, what is a sublist of what, how
often an element occurs, and when a map that may fail does.
-/
import Mathlib.Data.List.Forall2

namespace Mediation

variable {α β : Type}

/-- A partial map: opposite to each element that has a value stands that value. -/
theorem forall₂_filterMap (f : α → Option β) (l : List α) :
    List.Forall₂ (fun a b => f a = some b) (l.filter fun a => (f a).isSome) (l.filterMap f) := by
  induction l with
  | nil => exact .nil
  | cons a l ih =>
    cases h : f a with
    | none => simpa [h] using ih
    | some b => simpa [h] using ih

/-- The same for a test that tells which elements have a value. -/
theorem forall₂_filterMap_of_iff {f : α → Option β} {p : α → Bool} {l : List α}
    (h : ∀ a ∈ l, p a = (f a).isSome) :
    List.Forall₂ (fun a b => f a = some b) (l.filter p) (l.filterMap f) := by
  rw [List.filter_congr h]
  exact forall₂_filterMap f l

/-- A partial map on elements that all have a value. -/
theorem forall₂_filterMap_of_forall {f : α → Option β} {l : List α} (h : ∀ a ∈ l, (f a).isSome) :
    List.Forall₂ (fun a b => f a = some b) l (l.filterMap f) := by
  have hall := forall₂_filterMap f l
  rwa [List.filter_eq_self.2 h] at hall

theorem mapM_eq_some_map {f : α → Option β} {g : α → β} {l : List α} (h : ∀ a ∈ l, f a = some (g a)) :
    l.mapM f = some (l.map g) := by
  induction l with
  | nil => rfl
  | cons a l ih =>
    rw [List.mapM_cons, h a List.mem_cons_self, ih fun a ha => h a (List.mem_cons_of_mem _ ha)]
    rfl

theorem mapM_map_eq_some {f : β → Option α} {g : α → β} {l : List α} (h : ∀ a ∈ l, f (g a) = some a) :
    (l.map g).mapM f = some l := by
  rw [List.mapM_map]
  exact (mapM_eq_some_map h).trans (congrArg some l.map_id)

theorem mapM_eq_none {f : α → Option β} {l : List α} (h : ∃ a ∈ l, f a = none) : l.mapM f = none := by
  induction l with
  | nil => simp at h
  | cons a l ih =>
    rw [List.mapM_cons]
    cases ha : f a with
    | none => rfl
    | some b =>
      obtain ⟨a', hmem, hnone⟩ := h
      rcases List.mem_cons.1 hmem with rfl | hmem
      · rw [ha] at hnone
        cases hnone
      · rw [ih ⟨a', hmem, hnone⟩]
        rfl

/-- A partial map that has a value everywhere: opposite to each element stands its value. -/
theorem mapM_eq_some_iff {f : α → Option β} {l : List α} {l' : List β} :
    l.mapM f = some l' ↔ List.Forall₂ (fun a b => f a = some b) l l' := by
  induction l generalizing l' with
  | nil =>
    rw [List.mapM_nil, List.forall₂_nil_left_iff]
    constructor
    · intro h
      cases h
      rfl
    · rintro rfl
      rfl
  | cons a l ih =>
    rw [List.mapM_cons, List.forall₂_cons_left_iff]
    constructor
    · intro h
      obtain ⟨b, hb, hrest⟩ := Option.bind_eq_some_iff.1 h
      obtain ⟨bs, hbs, hl'⟩ := Option.bind_eq_some_iff.1 hrest
      cases hl'
      exact ⟨b, bs, hb, ih.1 hbs, rfl⟩
    · rintro ⟨b, bs, hb, hbs, rfl⟩
      rw [hb, ih.2 hbs]
      rfl

/-- What holds of each value of a partial map holds of all the values. -/
theorem forall_mem_of_mapM {f : α → Option β} {p : β → Prop} {l : List α} {l' : List β}
    (h : l.mapM f = some l') (hp : ∀ a ∈ l, ∀ b, f a = some b → p b) : ∀ b ∈ l', p b := by
  have hforall := mapM_eq_some_iff.1 h
  clear h
  induction hforall with
  | nil => exact List.forall_mem_nil _
  | @cons a b l l' hab _ ih =>
    rw [List.forall_mem_cons] at hp ⊢
    exact ⟨hp.1 b hab, ih hp.2⟩

theorem filter_sublist_filter {l : List α} {p q : α → Bool} (h : ∀ a ∈ l, p a → q a) :
    (l.filter p).Sublist (l.filter q) := by
  have hboth : l.filter p = (l.filter q).filter p := by
    rw [List.filter_filter]
    refine List.filter_congr fun a ha => ?_
    rw [Bool.eq_iff_iff, Bool.and_eq_true]
    exact (and_iff_left_of_imp (h a ha)).symm
  rw [hboth]
  exact List.filter_sublist

/-- An element of lists that are put together is in one of them, and what is before it and after it there is so in
the whole. -/
theorem exists_split_of_flatMap {f : α → List β} {l : List α} {before after : List β} {b : β}
    (h : l.flatMap f = before ++ b :: after) :
    ∃ l₁ a l₂ x y, l = l₁ ++ a :: l₂ ∧ f a = x ++ b :: y ∧ before = l₁.flatMap f ++ x ∧
      after = y ++ l₂.flatMap f := by
  induction l generalizing before with
  | nil => simp at h
  | cons c l ih =>
    have hrest : ∀ rest, before = f c ++ rest → l.flatMap f = rest ++ b :: after →
        ∃ l₁ a l₂ x y, c :: l = l₁ ++ a :: l₂ ∧ f a = x ++ b :: y ∧ before = l₁.flatMap f ++ x ∧
          after = y ++ l₂.flatMap f := by
      rintro rest rfl h
      obtain ⟨l₁, a, l₂, x, y, rfl, hfa, rfl, rfl⟩ := ih h
      exact ⟨c :: l₁, a, l₂, x, y, rfl, hfa, by rw [List.flatMap_cons, List.append_assoc], rfl⟩
    rw [List.flatMap_cons] at h
    rcases List.append_eq_append_iff.1 h with ⟨rest, hbefore, h⟩ | ⟨rest, hfc, h⟩
    · exact hrest rest hbefore h
    · cases rest with
      | nil => exact hrest [] (by rw [hfc, List.append_nil, List.append_nil]) h.symm
      | cons b' rest =>
        obtain ⟨rfl, rfl⟩ := List.cons.inj h
        exact ⟨[], c, l, before, rest, rfl, hfc, rfl, rfl⟩

/-- What a filter leaves of the occurrences of an element: all of them or none. -/
theorem count_filter_ite [DecidableEq α] (p : α → Bool) (l : List α) (a : α) :
    (l.filter p).count a = if p a then l.count a else 0 := by
  by_cases h : p a = true
  · rw [if_pos h, List.count_filter h]
  · rw [if_neg h, List.count_eq_zero]
    exact fun ha => h (List.mem_filter.1 ha).2

end Mediation
