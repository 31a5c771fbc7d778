/-!
# Triples of actions on a state

An action changes a state and returns a value, or it fails.  A triple tells that
from each state with the precondition the action does not fail and ends with the
postcondition.
-/

namespace Triple

variable {State Error Value Next : Type}

def Holds (before : State → Prop) (action : StateT State (Except Error) Value)
    (after : Value → State → Prop) : Prop :=
  ∀ state, before state → ∃ value last, action state = .ok (value, last) ∧ after value last

theorem of_pure {before : State → Prop} {value : Value} {after : Value → State → Prop}
    (holds : ∀ state, before state → after value state) :
    Holds before (pure value : StateT State (Except Error) Value) after :=
  fun state start => ⟨value, state, rfl, holds state start⟩

theorem Holds.bind {before : State → Prop} {action : StateT State (Except Error) Value}
    {next : Value → StateT State (Except Error) Next} {middle : Value → State → Prop}
    {after : Next → State → Prop} (first : Holds before action middle)
    (second : ∀ value, Holds (middle value) (next value) after) :
    Holds before (action >>= next) after := by
  intro state start
  obtain ⟨value, between, done, holds⟩ := first state start
  obtain ⟨result, last, ended, right⟩ := second value between holds
  refine ⟨result, last, ?_, right⟩
  simp only [Bind.bind, StateT.bind, done, Except.bind]
  exact ended

theorem Holds.weaken {before start : State → Prop} {action : StateT State (Except Error) Value}
    {after last : Value → State → Prop} (holds : Holds before action after)
    (stronger : ∀ state, start state → before state)
    (weaker : ∀ value state, after value state → last value state) :
    Holds start action last := by
  intro state good
  obtain ⟨value, ended, done, right⟩ := holds state (stronger state good)
  exact ⟨value, ended, done, weaker value ended right⟩

/-- An action done only under a condition. -/
def whenever (condition : Bool) (action : StateT State (Except Error) Unit) :
    StateT State (Except Error) Unit :=
  if condition then action else pure ()

theorem Holds.whenever {before : State → Prop} {condition : Bool}
    {action : StateT State (Except Error) Unit} {after : State → Prop}
    (holds : condition = true → Holds before action fun _ => after)
    (skips : ∀ state, before state → after state) :
    Holds before (Triple.whenever condition action) fun _ => after := by
  unfold Triple.whenever
  split
  · rename_i true
    exact holds true
  · exact of_pure skips

end Triple
