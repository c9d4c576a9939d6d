/-
How attempts run: the course of one attempt after another is that of the first alone when the first
fails, and else that of both. Beside it frames for what all parts of an activity have in common: its
steps are of a kind, it comes to a value whatever the time is, it goes forward in time. Where the second
of two attempts goes forward, a step that the first one never takes has the first one behind it.
-/
import Mediation.Activity

namespace Mediation

/-! ## Courses of attempts -/

namespace Attempt

variable {ε ε' σ α β : Type} {t : Nat}

theorem exists_of_isOk {v : Except ε α} (h : v.isOk) : ∃ a, v = .ok a := by
  cases v with
  | error e => cases h
  | ok a => exact ⟨a, rfl⟩

/-- An attempt whose failures are told in another way goes as it does. -/
theorem run_adapt (f : ε → ε') (p : Attempt ε σ α) (t : Nat) : (p.adapt f : Attempt ε' σ α).run t =
    ⟨(p.run t).value.mapError f, (p.run t).finish, (p.run t).steps⟩ :=
  congrArg (Course.mk _ _) (List.append_nil _)

theorem run_bind (p : Attempt ε σ α) (f : α → Attempt ε σ β) (t : Nat) :
    (p >>= f).run t = match p.run t with
      | ⟨.ok a, now, l⟩ =>
        ⟨((f a).run now).value, ((f a).run now).finish, l ++ ((f a).run now).steps⟩
      | ⟨.error e, now, l⟩ => ⟨.error e, now, l⟩ := by
  rw [ExceptT.run_bind]
  show Activity.andThen p.run _ t = _
  unfold Activity.andThen
  rcases p.run t with ⟨_ | a, now, l⟩
  · simp [pure, Activity.done]
  · rfl

theorem run_bind_of_ok {p : Attempt ε σ α} {a : α} {now : Nat} {l : List (Timed σ)}
    (h : p.run t = ⟨.ok a, now, l⟩) (f : α → Attempt ε σ β) :
    (p >>= f).run t =
      ⟨((f a).run now).value, ((f a).run now).finish, l ++ ((f a).run now).steps⟩ := by
  rw [run_bind, h]

theorem run_bind_of_error {p : Attempt ε σ α} {e : ε} {now : Nat} {l : List (Timed σ)}
    (h : p.run t = ⟨.error e, now, l⟩) (f : α → Attempt ε σ β) :
    (p >>= f).run t = ⟨.error e, now, l⟩ := by
  rw [run_bind, h]

theorem value_bind (p : Attempt ε σ α) (f : α → Attempt ε σ β) (t : Nat) :
    ((p >>= f).run t).value = (p.run t).value.bind fun a => ((f a).run (p.run t).finish).value := by
  rw [run_bind]
  rcases p.run t with ⟨_ | a, now, l⟩ <;> rfl

/-- What comes after a success starts when that ends, and its steps follow. -/
theorem run_bind_ok {p : Attempt ε σ α} {f : α → Attempt ε σ β} {b : β}
    (h : ((p >>= f).run t).value = .ok b) :
    ∃ a, (p.run t).value = .ok a ∧ ((f a).run (p.run t).finish).value = .ok b ∧
      ((p >>= f).run t).steps = (p.run t).steps ++ ((f a).run (p.run t).finish).steps := by
  rcases hp : p.run t with ⟨_ | a, now, l⟩
  · rw [run_bind_of_error hp] at h
    cases h
  · rw [run_bind_of_ok hp] at h ⊢
    exact ⟨a, rfl, h, rfl⟩

end Attempt

/-! ## Kinds of steps -/

namespace Activity

variable {ε σ τ α β : Type} {P Q : σ → Prop}

/-- Every step that an activity takes is of a kind, whenever it starts. -/
def Takes (P : σ → Prop) (p : Activity σ α) : Prop := ∀ t, ∀ u ∈ (p t).steps, P u.step

theorem Takes.imp (hPQ : ∀ s, P s → Q s) {p : Activity σ α} (h : Takes P p) : Takes Q p :=
  fun t u hu => hPQ _ (h t u hu)

theorem takes_pure (a : α) : Takes P (pure a : Activity σ α) := by
  intro t u hu; cases hu

theorem takes_now : Takes P (now : Activity σ Nat) := by
  intro t u hu; cases hu

theorem takes_await (r : Reply α) : Takes P (await r : Activity σ α) := by
  intro t u hu; cases hu

theorem takes_step {s : σ} (h : P s) : Takes P (step s) := by
  intro t u hu
  cases List.mem_singleton.1 hu
  exact h

theorem takes_ask {s : σ} (h : P s) (r : Reply α) : Takes P (ask s r) := by
  intro t u hu
  cases List.mem_singleton.1 hu
  exact h

theorem takes_allSteps {l : List σ} (h : ∀ s ∈ l, P s) : Takes P (allSteps l) := by
  intro t u hu
  obtain ⟨s, hs, rfl⟩ := List.mem_map.1 hu
  exact h s hs

theorem Takes.bind {p : Activity σ α} {f : α → Activity σ β} (hp : Takes P p)
    (hf : ∀ a, Takes P (f a)) : Takes P (p >>= f) := by
  intro t u hu
  rcases List.mem_append.1 hu with hu | hu
  · exact hp t u hu
  · exact hf _ _ u hu

theorem Takes.mapSteps {f : σ → τ} {R : τ → Prop} {p : Activity σ α} (h : Takes P p)
    (hf : ∀ s, P s → R (f s)) : Takes R (p.mapSteps f) := by
  intro t u hu
  obtain ⟨v, hv, rfl⟩ := List.mem_map.1 hu
  exact hf _ (h t v hv)

/-- An activity of any kind of steps, told in steps of one kind. -/
theorem takes_mapSteps {f : σ → τ} {R : τ → Prop} (hf : ∀ s, R (f s)) (p : Activity σ α) :
    Takes R (p.mapSteps f) :=
  Takes.mapSteps (P := fun _ => True) (fun _ _ _ => trivial) fun s _ => hf s

theorem Takes.lift {p : Activity σ α} (h : Takes P p) : Takes P (liftM p : Attempt ε σ α).run :=
  h.bind fun _ => takes_pure _

theorem Takes.attempt_bind {p : Attempt ε σ α} {f : α → Attempt ε σ β} (hp : Takes P p.run)
    (hf : ∀ a, Takes P (f a).run) : Takes P (p >>= f).run := by
  rw [ExceptT.run_bind]
  refine hp.bind fun r => ?_
  cases r with
  | error e => exact takes_pure _
  | ok a => exact hf a

theorem Takes.adapt {ε' : Type} {f : ε → ε'} {p : Attempt ε σ α} (h : Takes P p.run) :
    Takes P (p.adapt f : Attempt ε' σ α).run := by
  intro t u hu
  rw [Attempt.run_adapt] at hu
  exact h t u hu

/-! ## Values and durations at any time -/

/-- An activity comes to the same value whenever it starts. -/
def Steady (p : Activity σ α) : Prop := ∀ t t', (p t).value = (p t').value

/-- An activity comes to the same value whenever it starts, and takes the same time. -/
def Uniform (p : Activity σ α) : Prop :=
  ∃ a duration, ∀ t, (p t).value = a ∧ (p t).finish = t + duration

theorem Uniform.steady {p : Activity σ α} (h : Uniform p) : Steady p := by
  obtain ⟨a, duration, h⟩ := h
  exact fun t t' => (h t).1.trans (h t').1.symm

theorem Uniform.finish {p : Activity σ α} (h : Uniform p) (t : Nat) :
    (p t).finish = t + (p 0).finish := by
  obtain ⟨a, duration, h⟩ := h
  rw [(h t).2, (h 0).2, Nat.zero_add]

theorem uniform_pure (a : α) : Uniform (pure a : Activity σ α) := ⟨a, 0, fun _ => ⟨rfl, rfl⟩⟩

theorem uniform_await (r : Reply α) : Uniform (await r : Activity σ α) :=
  ⟨r.answer, r.delay, fun _ => ⟨rfl, rfl⟩⟩

theorem uniform_ask (s : σ) (r : Reply α) : Uniform (ask s r) :=
  ⟨r.answer, r.delay, fun _ => ⟨rfl, rfl⟩⟩

theorem Uniform.bind {p : Activity σ α} {f : α → Activity σ β} (hp : Uniform p)
    (hf : ∀ a, Uniform (f a)) : Uniform (p >>= f) := by
  obtain ⟨a, duration, hp⟩ := hp
  obtain ⟨b, duration', hb⟩ := hf a
  refine ⟨b, duration + duration', fun t => ?_⟩
  show (f (p t).value (p t).finish).value = b ∧ (f (p t).value (p t).finish).finish = _
  rw [(hp t).1, (hp t).2, (hb _).1, (hb _).2, Nat.add_assoc]
  exact ⟨rfl, rfl⟩

theorem Uniform.mapSteps {p : Activity σ α} (h : Uniform p) (f : σ → τ) : Uniform (p.mapSteps f) := h

/-! ## Forward in time -/

/-- An activity neither ends nor takes a step before it starts. -/
def Forward (p : Activity σ α) : Prop := ∀ t, t ≤ (p t).finish ∧ ∀ u ∈ (p t).steps, t ≤ u.time

theorem forward_pure (a : α) : Forward (pure a : Activity σ α) :=
  fun _ => ⟨Nat.le_refl _, fun _ hu => absurd hu List.not_mem_nil⟩

theorem forward_now : Forward (now : Activity σ Nat) :=
  fun _ => ⟨Nat.le_refl _, fun _ hu => absurd hu List.not_mem_nil⟩

theorem forward_await (r : Reply α) : Forward (await r : Activity σ α) :=
  fun _ => ⟨Nat.le_add_right _ _, fun _ hu => absurd hu List.not_mem_nil⟩

theorem forward_allSteps (l : List σ) : Forward (allSteps l) := by
  refine fun t => ⟨Nat.le_refl t, fun u hu => ?_⟩
  obtain ⟨s, -, rfl⟩ := List.mem_map.1 hu
  exact Nat.le_refl t

theorem forward_step (s : σ) : Forward (step s) := forward_allSteps [s]

theorem forward_ask (s : σ) (r : Reply α) : Forward (ask s r) :=
  fun t => ⟨Nat.le_add_right t r.delay, (forward_allSteps [s] t).2⟩

theorem Forward.bind {p : Activity σ α} {f : α → Activity σ β} (hp : Forward p)
    (hf : ∀ a, Forward (f a)) : Forward (p >>= f) := by
  intro t
  obtain ⟨hfinish, hsteps⟩ := hp t
  obtain ⟨hfinish', hsteps'⟩ := hf (p t).value (p t).finish
  refine ⟨Nat.le_trans hfinish hfinish', fun u hu => ?_⟩
  rcases List.mem_append.1 hu with hu | hu
  · exact hsteps u hu
  · exact Nat.le_trans hfinish (hsteps' u hu)

theorem Forward.mapSteps {p : Activity σ α} (h : Forward p) (f : σ → τ) : Forward (p.mapSteps f) := by
  refine fun t => ⟨(h t).1, fun u hu => ?_⟩
  obtain ⟨v, hv, rfl⟩ := List.mem_map.1 hu
  exact (h t).2 v hv

theorem Forward.lift {p : Activity σ α} (h : Forward p) : Forward (liftM p : Attempt ε σ α).run :=
  h.bind fun _ => forward_pure _

theorem Forward.attempt_bind {p : Attempt ε σ α} {f : α → Attempt ε σ β} (hp : Forward p.run)
    (hf : ∀ a, Forward (f a).run) : Forward (p >>= f).run := by
  rw [ExceptT.run_bind]
  refine hp.bind fun r => ?_
  cases r with
  | error e => exact forward_pure _
  | ok a => exact hf a

/-! ## Properties of all activities -/

/-- A property of activities that asking has and putting together keeps. -/
structure Compositional (K : (α : Type) → Activity σ α → Prop) : Prop where
  pure {α : Type} (a : α) : K α (pure a)
  ask {α : Type} (s : σ) (r : Reply α) : K α (ask s r)
  bind {α β : Type} {p : Activity σ α} {f : α → Activity σ β} :
    K α p → (∀ a, K β (f a)) → K β (p >>= f)

theorem compositional_uniform : Compositional fun α => Uniform (σ := σ) (α := α) :=
  ⟨uniform_pure, uniform_ask, Uniform.bind⟩

theorem compositional_forward : Compositional fun α => Forward (σ := σ) (α := α) :=
  ⟨forward_pure, forward_ask, Forward.bind⟩

end Activity

/-! ## What is behind a step -/

namespace Attempt

open Activity

variable {ε σ α β : Type} {P : σ → Prop} {t : Nat} {before after : List (Timed σ)} {u : Timed σ}

/-- An attempt that starts at `t` is behind an instant: it succeeded, all its steps are among those taken
before, and it was over by then. -/
structure Behind (p : Attempt ε σ α) (t : Nat) (a : α) (before : List (Timed σ)) (now : Nat) : Prop where
  value : (p.run t).value = .ok a
  steps : (p.run t).steps <:+: before
  ended : (p.run t).finish ≤ now

theorem Behind.mono {p : Attempt ε σ α} {a : α} {before' : List (Timed σ)} {now : Nat}
    (h : Behind p t a before now) (hl : before <:+: before') : Behind p t a before' now :=
  ⟨h.value, h.steps.trans hl, h.ended⟩

/-- What both of two attempts are behind, the first one alone is behind as well. -/
theorem Behind.first {p : Attempt ε σ α} {f : α → Attempt ε σ β} {b : β} {now : Nat}
    (h : Behind (p >>= f) t b before now) (hf : ∀ a, Forward (f a).run) :
    ∃ a, Behind p t a before now ∧ ((f a).run (p.run t).finish).value = .ok b := by
  obtain ⟨hvalue, hsteps, hended⟩ := h
  rcases hc : p.run t with ⟨e | a, now', l⟩
  · rw [run_bind_of_error hc] at hvalue
    cases hvalue
  · rw [run_bind_of_ok hc] at hvalue hsteps hended
    refine ⟨a, ⟨by rw [hc], ?_, ?_⟩, hvalue⟩
    · rw [hc]
      exact (List.prefix_append _ _).isInfix.trans hsteps
    · rw [hc]
      exact Nat.le_trans (hf a now').1 hended

theorem Behind.of_adapt {ε' : Type} {f : ε → ε'} {p : Attempt ε σ α} {a : α} {now : Nat}
    (h : Behind (p.adapt f : Attempt ε' σ α) t a before now) : Behind p t a before now := by
  obtain ⟨hvalue, hsteps, hended⟩ := h
  rw [run_adapt] at hvalue hsteps hended
  refine ⟨?_, hsteps, hended⟩
  rcases hp : (p.run t).value with e | b <;> rw [hp] at hvalue <;> cases hvalue
  rfl

/-- A step that is in one of two lists is in the second one if it is of a kind that the first has none
of. -/
theorem split_append {l l' : List (Timed σ)} (h : l ++ l' = before ++ u :: after)
    (hl : ∀ v ∈ l, P v.step) (hu : ¬ P u.step) :
    ∃ rest, before = l ++ rest ∧ l' = rest ++ u :: after := by
  rcases List.append_eq_append_iff.1 h with ⟨rest, rfl, hl'⟩ | ⟨rest, hl', hafter⟩
  · exact ⟨rest, rfl, hl'⟩
  · cases rest with
    | nil => exact ⟨[], by rw [hl', List.append_nil, List.append_nil], hafter.symm⟩
    | cons v rest =>
      obtain ⟨rfl, -⟩ := List.cons.inj hafter
      exact absurd (hl u (by rw [hl']; exact List.mem_append_right _ List.mem_cons_self)) hu

/-- A step that is in one of two lists is in the first one if it is of a kind that the second has none
of. -/
theorem split_append_left {l l' : List (Timed σ)} (h : l ++ l' = before ++ u :: after)
    (hl' : ∀ v ∈ l', P v.step) (hu : ¬ P u.step) : ∃ after', l = before ++ u :: after' := by
  rcases List.append_eq_append_iff.1 h with ⟨rest, -, hrest⟩ | ⟨rest, rfl, hrest⟩
  · refine absurd (hl' u ?_) hu
    rw [hrest]
    exact List.mem_append_right _ List.mem_cons_self
  · cases rest with
    | nil =>
      refine absurd (hl' u ?_) hu
      rw [show l' = u :: after from hrest.symm]
      exact List.mem_cons_self
    | cons v rest =>
      obtain ⟨rfl, -⟩ := List.cons.inj hrest
      exact ⟨rest, rfl⟩

/-- After the steps of the first of two attempts come those of the second, if there are any. -/
theorem steps_bind {p : Attempt ε σ α} {f : α → Attempt ε σ β} (hf : ∀ a, Takes P (f a).run) (t : Nat) :
    ∃ l, ((p >>= f).run t).steps = (p.run t).steps ++ l ∧ ∀ v ∈ l, P v.step := by
  rcases hc : p.run t with ⟨e | a, now, l⟩
  · rw [run_bind_of_error hc]
    exact ⟨[], (List.append_nil _).symm, List.forall_mem_nil _⟩
  · rw [run_bind_of_ok hc]
    exact ⟨_, rfl, hf a now⟩

/-- A step that the second of two attempts never takes is one of the first. -/
theorem split_bind_left {p : Attempt ε σ α} {f : α → Attempt ε σ β} (hf : ∀ a, Takes P (f a).run)
    (h : ((p >>= f).run t).steps = before ++ u :: after) (hu : ¬ P u.step) :
    ∃ after', (p.run t).steps = before ++ u :: after' := by
  obtain ⟨l, hsteps, hl⟩ := steps_bind (p := p) hf t
  exact split_append_left (hsteps.symm.trans h) hl hu

/-- A step that the first of two attempts never takes is one of the second, and has the first behind
it. -/
theorem behind_of_bind {p : Attempt ε σ α} {f : α → Attempt ε σ β} (hp : Takes P p.run)
    (hf : ∀ a, Forward (f a).run) (h : ((p >>= f).run t).steps = before ++ u :: after)
    (hu : ¬ P u.step) : ∃ a rest, Behind p t a before u.time ∧ before = (p.run t).steps ++ rest ∧
      ((f a).run (p.run t).finish).steps = rest ++ u :: after := by
  rcases hc : p.run t with ⟨e | a, now, l⟩
  · -- a first attempt that fails takes every step there is
    rw [run_bind_of_error hc] at h
    have hmem : u ∈ (p.run t).steps := by
      rw [hc, h]
      exact List.mem_append_right _ List.mem_cons_self
    exact absurd (hp t u hmem) hu
  · rw [run_bind_of_ok hc] at h
    obtain ⟨rest, rfl, hrest⟩ := split_append h (fun v hv => hp t v (by rw [hc]; exact hv)) hu
    refine ⟨a, rest, ⟨by rw [hc], ?_, ?_⟩, rfl, hrest⟩
    · rw [hc]
      exact (List.prefix_append _ _).isInfix
    · rw [hc]
      refine (hf a now).2 u ?_
      rw [hrest]
      exact List.mem_append_right _ List.mem_cons_self

end Attempt

end Mediation
