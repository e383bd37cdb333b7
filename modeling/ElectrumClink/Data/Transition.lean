import Mathlib.Logic.Basic

/-!
# Transition systems with partial steps

A system is a step function `step : σ → α → Option σ`: `none` means that the action is not
enabled. `Reachable step P init` are the states reached from `init` by actions that were enabled
and met `P` in the state they were taken in; `P := fun _ _ => True` puts no condition on the run.

* `Reachable.invariant` is the induction rule: what holds initially and is kept by every step
  holds in every reachable state.
* `Reachable.simulation` relates the reachable states of two systems.
* `Fired` says of an action that it was taken in a run to a state.
* `reachable_of_exec` turns an executed action list into a reachable state, and
  `reachable_of_exec_guarded` does so for runs whose steps meet a decidable condition;
  `exists_reachable_of_exec` and its guarded form read what was computed of that state.
-/

namespace Transition

variable {σ α : Type*}

/-- The states reached from `init` by enabled actions that met `P` when they were taken. -/
inductive Reachable (step : σ → α → Option σ) (P : σ → α → Prop) (init : σ) : σ → Prop
  | init : Reachable step P init init
  | next {s t : σ} {a : α} :
      Reachable step P init s → P s a → step s a = some t → Reachable step P init t

variable {step : σ → α → Option σ} {P Q : σ → α → Prop} {init s t : σ}

/-- What holds initially and is kept by every step holds in every reachable state. -/
theorem Reachable.invariant {I : σ → Prop} (h : Reachable step P init s) (hinit : I init)
    (hstep : ∀ s a t, I s → P s a → step s a = some t → I t) : I s := by
  induction h with
  | init => exact hinit
  | next _ hP hs ih => exact hstep _ _ _ ih hP hs

/-- A weaker condition on the steps reaches at least as many states. -/
theorem Reachable.mono (hPQ : ∀ s a, P s a → Q s a) (h : Reachable step P init s) :
    Reachable step Q init s := by
  induction h with
  | init => exact .init
  | next _ hP hs ih => exact .next ih (hPQ _ _ hP) hs

/-- A run goes on from where another one ended. -/
theorem Reachable.trans (h : Reachable step P init s) (hst : Reachable step P s t) :
    Reachable step P init t := by
  induction hst with
  | init => exact h
  | next _ hP hs ih => exact .next ih hP hs

/-- The action was taken in a run from `init` to `s`. -/
def Fired (step : σ → α → Option σ) (init : σ) (a : α) (s : σ) : Prop :=
  ∃ u v, Reachable step (fun _ _ => True) init u ∧ step u a = some v ∧
    Reachable step (fun _ _ => True) v s

/-- What was taken in a run was taken in any continuation of it. -/
theorem Fired.next {a b : α} (h : Fired step init a s) (hstep : step s b = some t) :
    Fired step init a t := by
  obtain ⟨u, v, hu, hfired, hv⟩ := h
  exact ⟨u, v, hu, hfired, hv.next trivial hstep⟩

/-- Perform the actions in order; `none` as soon as one is not enabled. -/
def exec (step : σ → α → Option σ) : σ → List α → Option σ
  | s, [] => some s
  | s, a :: as => (step s a).bind fun t => exec step t as

/-- A run goes on where its first part ended. -/
theorem exec_append (s : σ) (as bs : List α) :
    exec step s (as ++ bs) = (exec step s as).bind fun t => exec step t bs := by
  induction as generalizing s with
  | nil => rfl
  | cons a as ih => simp only [List.cons_append, exec, ih, Option.bind_assoc]

/-- A run of actions that meet `P` in every state continues a reachable state. -/
theorem Reachable.exec {as : List α} (h : Reachable step P init s) (hP : ∀ a ∈ as, ∀ s, P s a)
    (hexec : exec step s as = some t) : Reachable step P init t := by
  induction as generalizing s with
  | nil =>
    obtain rfl : s = t := by simpa [Transition.exec] using hexec
    exact h
  | cons a as ih =>
    obtain ⟨u, hu, hrest⟩ := Option.bind_eq_some_iff.1 hexec
    exact ih (.next h (hP a List.mem_cons_self s) hu)
      (fun b hb => hP b (List.mem_cons_of_mem a hb)) hrest

/-- The state an executed action list ends in is reachable. -/
theorem reachable_of_exec {as : List α} (h : Transition.exec step init as = some t) :
    Reachable step (fun _ _ => True) init t :=
  Reachable.init.exec (fun _ _ _ => trivial) h

/-- A forward simulation: where every step is matched by a run of another system between related
states, every reachable state is related to a reachable state of the other system. -/
theorem Reachable.simulation {τ β : Type*} {step' : τ → β → Option τ} {R : σ → τ → Prop} {init' : τ}
    (h : Reachable step P init s) (hinit : R init init')
    (hstep : ∀ s a t s', R s s' → P s a → step s a = some t →
      ∃ bs t', Transition.exec step' s' bs = some t' ∧ R t t') :
    ∃ s', Reachable step' (fun _ _ => True) init' s' ∧ R s s' := by
  induction h with
  | init => exact ⟨init', .init, hinit⟩
  | next _ hP hs ih =>
    obtain ⟨s', hs', hR⟩ := ih
    obtain ⟨bs, t', hexec, hR'⟩ := hstep _ _ _ s' hR hP hs
    exact ⟨t', hs'.exec (fun _ _ _ => trivial) hexec, hR'⟩

/-- A step that is not performed unless it meets `P`. -/
def guarded (step : σ → α → Option σ) (P : σ → α → Prop) [∀ s a, Decidable (P s a)] (s : σ)
    (a : α) : Option σ :=
  if P s a then step s a else none

/-- A run of guarded steps is a run. -/
theorem exec_of_guarded [∀ s a, Decidable (P s a)] {as : List α}
    (h : exec (guarded step P) s as = some t) : exec step s as = some t := by
  induction as generalizing s with
  | nil => exact h
  | cons a as ih =>
    obtain ⟨u, hu, hrest⟩ := Option.bind_eq_some_iff.1 h
    exact Option.bind_eq_some_iff.2 ⟨u, (Option.ite_none_right_eq_some.1 hu).2, ih hrest⟩

/-- A run of guarded steps meets its condition. -/
theorem reachable_of_exec_guarded [∀ s a, Decidable (P s a)] {as : List α}
    (h : Transition.exec (guarded step P) init as = some t) : Reachable step P init t := by
  refine (reachable_of_exec h).invariant .init fun s a t hs _ hstep => ?_
  obtain ⟨hP, hstep⟩ := Option.ite_none_right_eq_some.1 hstep
  exact .next hs hP hstep

/-- What an executed action list ends in is reachable. -/
theorem exists_reachable_of_exec {as : List α} {p : σ → Bool}
    (h : (Transition.exec step init as).any p = true) :
    ∃ s, Reachable step (fun _ _ => True) init s ∧ p s = true := by
  obtain ⟨s, hexec, hp⟩ := (Option.any_eq_true _ _).1 h
  exact ⟨s, reachable_of_exec hexec, hp⟩

/-- What a run of guarded steps ends in is reached by steps that meet their condition. -/
theorem exists_reachable_of_exec_guarded [∀ s a, Decidable (P s a)] {as : List α} {p : σ → Bool}
    (h : (Transition.exec (guarded step P) init as).any p = true) :
    ∃ s, Reachable step P init s ∧ p s = true := by
  obtain ⟨s, hexec, hp⟩ := (Option.any_eq_true _ _).1 h
  exact ⟨s, reachable_of_exec_guarded hexec, hp⟩

end Transition
