import Mathlib.Tactic.Common

/-!
# Machines and their runs

A machine has states that events change, where the state permits them. A run is a list of events,
each of which takes place in the state that the one before it left; a rule may restrict the runs
further. What is observed in the steps of a run is put together in order.

## Main definitions

* `Machine`, `Machine.run?`: states and events, and the state after a list of events.
* `Machine.observe`: what is observed on the way.
* `Machine.Leads`: where runs lead.

## Main results

* `Machine.run?_induction`, `Machine.run?_induction_observe`: what the start has and every step
  keeps, the end has.
* `Machine.run?_of_permits`, `Machine.run?_or_broken`: runs under one rule and under another.
* `Machine.Leads.countdown`: what is reached if less and less is left to do.
-/

namespace Ctap

/-- States `σ` that events `ε` change. -/
class Machine (σ : Type) (ε : outParam Type) where
  /-- The state after an event, if the state permits it. -/
  next? : σ → ε → Option σ

namespace Machine

variable {σ ε α β : Type} [Machine σ ε]

/-- The state after events that the rule permits one after the other. -/
def run? (permits : σ → ε → Bool) : σ → List ε → Option σ
  | s, [] => some s
  | s, e :: events => if permits s e then (next? s e).bind (run? permits · events) else none

/-- The rule that forbids nothing. -/
def free (_ : σ) (_ : ε) : Bool := true

/-- What is observed in the steps of a run, in order. -/
def observe (f : σ → ε → List α) : σ → List ε → List α
  | _, [] => []
  | s, e :: events =>
    match next? s e with
    | some t => f s e ++ observe f t events
    | none => []

/-- Whether events that the rule permits lead from one state to another. -/
def Leads (permits : σ → ε → Bool) (s t : σ) : Prop := ∃ events, run? permits s events = some t

variable {permits : σ → ε → Bool} {f : σ → ε → List α} {g : σ → ε → List β} {s t u : σ} {e : ε}
  {events more : List ε}

/-- A run that is not empty is a step that is permitted and a run from there. -/
theorem run?_cons : run? permits s (e :: events) = some t ↔
    permits s e = true ∧ ∃ u, next? s e = some u ∧ run? permits u events = some t := by
  rw [run?]
  split_ifs with h
  · simp only [Option.bind_eq_some_iff, h, true_and]
  · simp only [h, false_and, reduceCtorEq]

theorem run?_append (hfirst : run? permits s events = some t)
    (hmore : run? permits t more = some u) : run? permits s (events ++ more) = some u := by
  induction events generalizing s with
  | nil =>
    cases hfirst
    exact hmore
  | cons e events ih =>
    obtain ⟨hpermits, v, hstep, hrest⟩ := run?_cons.mp hfirst
    exact run?_cons.mpr ⟨hpermits, v, hstep, ih hrest⟩

theorem observe_cons (h : next? s e = some t) (events : List ε) :
    observe f s (e :: events) = f s e ++ observe f t events := by
  rw [observe, h]

/-- A run that is longer by an event is a run and a step that is permitted. -/
theorem run?_concat : run? permits s (events ++ [e]) = some t ↔
    ∃ u, run? permits s events = some u ∧ permits u e = true ∧ next? u e = some t := by
  induction events generalizing s with
  | nil =>
    rw [List.nil_append, run?_cons]
    simp [run?]
  | cons first events ih =>
    simp only [List.cons_append, run?_cons, ih]
    exact ⟨fun ⟨hpermits, v, hv, u, hrun, hstep⟩ => ⟨u, ⟨hpermits, v, hv, hrun⟩, hstep⟩,
      fun ⟨u, ⟨hpermits, v, hv, hrun⟩, hstep⟩ => ⟨hpermits, v, hv, u, hrun, hstep⟩⟩

theorem observe_append (hfirst : run? permits s events = some t) (more : List ε) :
    observe f s (events ++ more) = observe f s events ++ observe f t more := by
  induction events generalizing s with
  | nil =>
    cases hfirst
    rfl
  | cons e events ih =>
    obtain ⟨-, u, hu, hrest⟩ := run?_cons.mp hfirst
    rw [List.cons_append, observe_cons hu, observe_cons hu, ih hrest, List.append_assoc]

/-- What the start of a run has and every permitted step keeps, the end has, together with what two
observers saw on the way. -/
theorem run?_induction_observe₂ {P : σ → List α → List β → Prop}
    (hstep : ∀ s seen seen' e t, P s seen seen' → permits s e = true → next? s e = some t →
      P t (seen ++ f s e) (seen' ++ g s e))
    (hs : P s [] []) (hrun : run? permits s events = some t) :
    P t (observe f s events) (observe g s events) := by
  suffices hall : ∀ seen seen', P s seen seen' →
      P t (seen ++ observe f s events) (seen' ++ observe g s events) from hall [] [] hs
  clear hs
  induction events generalizing s with
  | nil =>
    intro seen seen' hs
    cases hrun
    rwa [observe, observe, List.append_nil, List.append_nil]
  | cons e events ih =>
    intro seen seen' hs
    obtain ⟨hpermits, u, hu, hrest⟩ := run?_cons.mp hrun
    rw [observe_cons hu, observe_cons hu, ← List.append_assoc, ← List.append_assoc]
    exact ih hrest _ _ (hstep s seen seen' e u hs hpermits hu)

/-- What the start of a run has and every permitted step keeps, the end has, together with what was
observed on the way. -/
theorem run?_induction_observe {P : σ → List α → Prop}
    (hstep : ∀ s seen e t, P s seen → permits s e = true → next? s e = some t →
      P t (seen ++ f s e))
    (hs : P s []) (hrun : run? permits s events = some t) : P t (observe f s events) :=
  run?_induction_observe₂ (P := fun s seen _ => P s seen)
    (fun s seen _ e t => hstep s seen e t) hs hrun (g := f)

/-- What the start of a run has and every permitted step keeps, the end has. -/
theorem run?_induction {P : σ → Prop}
    (hstep : ∀ s e t, P s → permits s e = true → next? s e = some t → P t) (hs : P s)
    (hrun : run? permits s events = some t) : P t := by
  induction events generalizing s with
  | nil =>
    cases hrun
    exact hs
  | cons e events ih =>
    obtain ⟨hpermits, u, hu, hrest⟩ := run?_cons.mp hrun
    exact ih (hstep s e u hs hpermits hu) hrest

/-- A run that keeps to one rule keeps to another, if what the start has and every step keeps sees
to it. -/
theorem run?_of_permits {P : σ → Prop} {permits' : σ → ε → Bool}
    (hstep : ∀ s e t, P s → permits s e = true → next? s e = some t → permits' s e = true ∧ P t)
    (hs : P s) (hrun : run? permits s events = some t) : run? permits' s events = some t := by
  induction events generalizing s with
  | nil => exact hrun
  | cons e events ih =>
    obtain ⟨hpermits, u, hu, hrest⟩ := run?_cons.mp hrun
    obtain ⟨hpermits', hP⟩ := hstep s e u hs hpermits hu
    exact run?_cons.mpr ⟨hpermits', u, hu, ih hP hrest⟩

/-- A run keeps to a rule, or there is a first event that breaks it. -/
theorem run?_or_broken (permits : σ → ε → Bool) (hrun : run? free s events = some t) :
    run? permits s events = some t ∨ ∃ before e after u, events = before ++ e :: after ∧
      run? permits s before = some u ∧ (next? u e).isSome = true ∧ permits u e = false := by
  induction events generalizing s with
  | nil => exact .inl hrun
  | cons e events ih =>
    obtain ⟨-, v, hv, hrest⟩ := run?_cons.mp hrun
    by_cases hpermits : permits s e = true
    · rcases ih hrest with hall | ⟨before, e', after, u, rfl, hbefore, hnext, hbroken⟩
      · exact .inl (run?_cons.mpr ⟨hpermits, v, hv, hall⟩)
      · exact .inr ⟨e :: before, e', after, u, rfl, run?_cons.mpr ⟨hpermits, v, hv, hbefore⟩, hnext,
          hbroken⟩
    · exact .inr ⟨[], e, events, s, rfl, rfl, by rw [hv]; rfl, by simpa using hpermits⟩

theorem Leads.refl (s : σ) : Leads permits s s := ⟨[], rfl⟩

theorem Leads.head (hpermits : permits s e = true) (hstep : next? s e = some t)
    (h : Leads permits t u) : Leads permits s u := by
  obtain ⟨events, hrun⟩ := h
  exact ⟨e :: events, run?_cons.2 ⟨hpermits, t, hstep, hrun⟩⟩

theorem Leads.trans (hfirst : Leads permits s t) (hmore : Leads permits t u) :
    Leads permits s u := by
  obtain ⟨events, hrun⟩ := hfirst
  obtain ⟨more, hrun'⟩ := hmore
  exact ⟨events ++ more, run?_append hrun hrun'⟩

/-- A goal is reached if from wherever it is not, a permitted step leaves less to do. -/
theorem Leads.countdown {P : Nat → σ → Prop} {goal : σ → Prop}
    (hstep : ∀ n s, P n s → goal s ∨
      ∃ e t k, permits s e = true ∧ next? s e = some t ∧ k < n ∧ P k t)
    {n : Nat} (hs : P n s) : ∃ t, Leads permits s t ∧ goal t := by
  induction n using Nat.strongRecOn generalizing s with
  | ind n ih =>
    rcases hstep n s hs with hgoal | ⟨e, t, k, hpermits, hnext, hless, ht⟩
    · exact ⟨s, .refl s, hgoal⟩
    · obtain ⟨u, hleads, hgoal⟩ := ih k hless ht
      exact ⟨u, hleads.head hpermits hnext, hgoal⟩

end Machine

end Ctap
