import Mathlib

/-!
A system given by its initial states, the events it may be given in each state, and a partial
step function: its reachable states, the invariant rule over them, and an executable run of a
list of events that stays inside the reachable states.
-/

namespace TransitionSystem

variable {σ ε : Type} (init : σ → Prop) (admissible : σ → ε → Prop) (step : σ → ε → Option σ)

inductive Reachable : σ → Prop where
  | init {s : σ} : init s → Reachable s
  | step {s s' : σ} {event : ε} :
      Reachable s → admissible s event → step s event = some s' → Reachable s'

/-- Runs the events in order while each is admissible and succeeds. -/
def run [DecidableRel admissible] : σ → List ε → Option σ
  | s, [] => some s
  | s, event :: rest =>
    if admissible s event then
      match step s event with
      | some s' => run s' rest
      | none => none
    else none

variable {init admissible step}

/-- An invariant that holds initially and that every admissible step keeps holds in every
reachable state. -/
theorem Reachable.invariant {inv : σ → Prop} (initial : ∀ s, init s → inv s)
    (preserved : ∀ s s' event, inv s → admissible s event → step s event = some s' → inv s')
    {s : σ} (reachable : Reachable init admissible step s) : inv s := by
  induction reachable with
  | init fresh => exact initial _ fresh
  | step _ allowed stepped ih => exact preserved _ _ _ ih allowed stepped

theorem reachable_of_run [DecidableRel admissible] :
    ∀ {s s' : σ} {events : List ε}, Reachable init admissible step s →
      run admissible step s events = some s' → Reachable init admissible step s'
  | s, s', [], reachable, ran => by
    simp only [run, Option.some.injEq] at ran
    exact ran ▸ reachable
  | s, s', event :: rest, reachable, ran => by
    simp only [run] at ran
    split at ran
    · rename_i allowed
      split at ran
      · rename_i next stepped
        exact reachable_of_run (Reachable.step reachable allowed stepped) ran
      · cases ran
    · cases ran

/-- An invariant that every admissible step by an event satisfying `good` keeps holds at the end of
a run of such events. -/
theorem run_invariant [DecidableRel admissible] {inv : σ → Prop} {good : ε → Prop}
    (preserved : ∀ s s' event, inv s → good event → admissible s event → step s event = some s' → inv s') :
    ∀ (events : List ε) {s s' : σ}, inv s → (∀ event ∈ events, good event) →
      run admissible step s events = some s' → inv s'
  | [], s, s', holds, _, ran => by
    simp only [run, Option.some.injEq] at ran
    exact ran ▸ holds
  | event :: rest, s, s', holds, allGood, ran => by
    simp only [run] at ran
    split at ran
    · rename_i allowed
      split at ran
      · rename_i next stepped
        have kept := preserved s next event holds (allGood event List.mem_cons_self) allowed stepped
        exact run_invariant preserved rest kept (fun other member => allGood other (.tail _ member)) ran
      · cases ran
    · cases ran

section Simulation

variable {α : Type} {admissible' : α → ε → Prop} {step' : α → ε → Option α}

/-- A map of states that takes each admissible step from a state of an invariant to the step of a
second system, and admissibility to its admissibility, takes each run to the second system's run. -/
theorem run_map [DecidableRel admissible] [DecidableRel admissible'] (abstract : σ → α)
    {inv : σ → Prop}
    (preserved : ∀ s s' event, inv s → admissible s event → step s event = some s' → inv s')
    (allowed : ∀ s event, inv s → (admissible s event ↔ admissible' (abstract s) event))
    (commutes : ∀ s event, inv s → admissible s event →
      (step s event).map abstract = step' (abstract s) event) :
    ∀ (events : List ε) {s : σ}, inv s →
      (run admissible step s events).map abstract = run admissible' step' (abstract s) events
  | [], s, _ => rfl
  | event :: rest, s, holds => by
    simp only [run]
    by_cases permitted : admissible s event
    · have commuted := commutes s event holds permitted
      rw [if_pos permitted, if_pos ((allowed s event holds).mp permitted)]
      cases stepped : step s event with
      | none =>
        rw [stepped, Option.map_none] at commuted
        rw [← commuted]
        rfl
      | some s' =>
        rw [stepped, Option.map_some] at commuted
        rw [← commuted]
        exact run_map abstract preserved allowed commutes rest (preserved s s' event holds permitted stepped)
    · rw [if_neg permitted, if_neg (mt (allowed s event holds).mpr permitted)]
      rfl

end Simulation

end TransitionSystem
