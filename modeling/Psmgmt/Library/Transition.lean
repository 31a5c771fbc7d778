import Mathlib

/-!
# Transition systems

States reachable from the initial ones, and the rule that an invariant of the
steps holds in all of them.  Nothing here knows what the states are.
-/

structure TransitionSystem (State : Type*) where
  initial : State → Prop
  step : State → State → Prop

namespace TransitionSystem

variable {State : Type*} {system : TransitionSystem State}

/-- The states that runs of the system reach. -/
inductive Reachable (system : TransitionSystem State) : State → Prop where
  | initial {state : State} (start : system.initial state) : Reachable system state
  | step {before after : State} (reachable : Reachable system before)
      (step : system.step before after) : Reachable system after

structure Invariant (system : TransitionSystem State)
    (property : State → Prop) : Prop where
  initial : ∀ state, system.initial state → property state
  step : ∀ before after, property before → system.step before after → property after

theorem Invariant.reachable {property : State → Prop} (invariant : Invariant system property)
    {state : State} (reachable : system.Reachable state) : property state := by
  induction reachable with
  | initial start => exact invariant.initial _ start
  | step _ step induction => exact invariant.step _ _ induction step

end TransitionSystem
