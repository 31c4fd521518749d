import Ossim.Library.Transition

namespace Ossim
namespace Transition

/-!
# Systems that work in rounds

A goal is inevitable when every run that goes on as long as it can reaches it,
whichever of the enabled labels comes next.  No fairness is needed for that when
each step uses up a part of the current round or ends it: then the length of a
run is bounded by the number of its rounds, and a run that is never stuck goes
through all rounds.
-/

variable {State Label : Type*} {step : State → Label → Option State}

/-- Every way to go on from the state reaches the goal, and before the goal there
is one. -/
inductive Inevitable (step : State → Label → Option State) (goal : State → Prop) : State → Prop
  | now {state : State} (holds : goal state) : Inevitable step goal state
  | later {state : State} (enabled : ∃ label after, step state label = some after)
      (all : ∀ label after, step state label = some after → Inevitable step goal after) :
      Inevitable step goal state

/-- An inevitable goal may use what holds in every state on the way. -/
theorem Inevitable.always {goal goal' Inv : State → Prop} {state : State}
    (inevitable : Inevitable step goal state)
    (keeps : ∀ before label after, Inv before → step before label = some after → Inv after)
    (holds : Inv state) (implied : ∀ state, Inv state → goal state → goal' state) :
    Inevitable step goal' state := by
  induction inevitable with
  | now reached => exact .now (implied _ holds reached)
  | later enabled _ inductionHypothesis =>
      exact .later enabled fun label after taken =>
        inductionHypothesis label after taken (keeps _ _ _ holds taken)

theorem Inevitable.mono {goal goal' : State → Prop} {state : State}
    (inevitable : Inevitable step goal state) (implied : ∀ state, goal state → goal' state) :
    Inevitable step goal' state :=
  inevitable.always (fun _ _ _ _ _ => trivial) trivial fun state _ => implied state

/-- Every step from a state of the invariant keeps it, and either ends a round or
uses up a part of it. -/
structure Rounds (step : State → Label → Option State) (Inv : State → Prop)
    (round rank : State → Nat) (bound : Nat) : Prop where
  keeps : ∀ before label after, Inv before → step before label = some after → Inv after
  spends : ∀ before label after, Inv before → step before label = some after →
    (round after = round before ∧ rank after < rank before) ∨
      (round after = round before + 1 ∧ rank after ≤ bound)

namespace Rounds

variable {Inv : State → Prop} {round rank : State → Nat} {bound : Nat}

/-- A run has at most as many steps in its first round as are left there, and
`bound + 1` in each later one. -/
theorem length_le (rounds : Rounds step Inv round rank bound) {start finish : State}
    {trace : List Label} (path : Run step start trace finish) (base : Inv start) :
    Inv finish ∧ round start ≤ round finish ∧
      trace.length + rank finish ≤ rank start + (bound + 1) * (round finish - round start) := by
  induction path with
  | nil =>
      refine ⟨base, Nat.le_refl _, ?_⟩
      rw [List.length_nil]
      omega
  | @snoc trace before after label _ taken inductionHypothesis =>
      rcases inductionHypothesis with ⟨holds, later, bounded⟩
      refine ⟨rounds.keeps _ _ _ holds taken, ?_⟩
      rw [List.length_append, List.length_singleton]
      rcases rounds.spends _ _ _ holds taken with ⟨same, less⟩ | ⟨next, fresh⟩
      · rw [same]
        omega
      · have passed : round after - round start = round before - round start + 1 := by omega
        refine ⟨by omega, ?_⟩
        rw [passed, Nat.mul_add, Nat.mul_one]
        omega

/-- A goal that holds in the last round, and is not missed by a run that gets
stuck, is inevitable. -/
theorem inevitable (rounds : Rounds step Inv round rank bound) {goal : State → Prop} {last : Nat}
    (late : ∀ state, Inv state → round state = last → goal state)
    (enabled : ∀ state, Inv state → ¬ goal state → ∃ label after, step state label = some after)
    {state : State} (holds : Inv state) (early : round state ≤ last) :
    Inevitable step goal state := by
  -- the steps that are left, a fresh round for each tick to come
  obtain ⟨budget, enough⟩ : ∃ budget, (bound + 1) * (last - round state) + rank state ≤ budget :=
    ⟨_, Nat.le_refl _⟩
  induction budget generalizing state with
  | zero =>
      by_cases reached : goal state
      · exact .now reached
      · have unfinished : round state ≠ last := fun ends => reached (late state holds ends)
        have some_left : 1 ≤ last - round state := by omega
        have positive := Nat.mul_le_mul_left (bound + 1) some_left
        omega
  | succ budget inductionHypothesis =>
      by_cases reached : goal state
      · exact .now reached
      · refine .later (enabled state holds reached) fun label after taken => ?_
        have unfinished : round state ≠ last := fun ends => reached (late state holds ends)
        have kept := rounds.keeps _ _ _ holds taken
        rcases rounds.spends _ _ _ holds taken with ⟨same, less⟩ | ⟨next, fresh⟩
        · refine inductionHypothesis kept (by omega) ?_
          rw [same]
          omega
        · refine inductionHypothesis kept (by omega) ?_
          have split : last - round state = last - round after + 1 := by omega
          rw [split, Nat.mul_add, Nat.mul_one] at enough
          omega

end Rounds

end Transition
end Ossim
