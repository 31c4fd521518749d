import Mathlib.Data.List.Induction
import Mathlib.Order.Basic

namespace Ossim
namespace Transition

/-!
# Labelled runs of a deterministic step function

A system is a partial step function from a state and a label to the next
state.  A label that is not enabled, or whose effect is undefined, has no
successor.  Runs are built by adding the last step, so that a statement about
the state after a trace is proved by looking at the final label only.

Two rules carry the later safety arguments.  `Run.invariant` needs a property
to survive every step.  `RunWhere.invariant` weakens that to the steps which
meet a condition on the label and the state before it, and then speaks about
the runs whose steps all meet that condition.  `RunWhere.simulation` compares
such a run with the run of an abstract system on the same labels, and
`exists_run_of_simulation` also shows that the run exists.  `Run.project` takes
a run of a composed system to a run of one of its parts, which rests while the
others act.
-/

variable {State Label : Type*}

/-- The states reached from `start` by executing the labels of the trace in
order. -/
inductive Run (step : State → Label → Option State) (start : State) :
    List Label → State → Prop
  | nil : Run step start [] start
  | snoc {trace : List Label} {before after : State} {label : Label} :
      Run step start trace before → step before label = some after →
        Run step start (trace ++ [label]) after

/-- A run whose steps all meet a condition on the label and on the state in
which it fires. -/
inductive RunWhere (step : State → Label → Option State) (allowed : State → Label → Prop)
    (start : State) : List Label → State → Prop
  | nil : RunWhere step allowed start [] start
  | snoc {trace : List Label} {before after : State} {label : Label} :
      RunWhere step allowed start trace before → allowed before label →
        step before label = some after → RunWhere step allowed start (trace ++ [label]) after

variable {step : State → Label → Option State} {allowed : State → Label → Prop}
variable {start finish : State} {trace : List Label}

/-- Forgetting the condition leaves an ordinary run. -/
theorem RunWhere.run (path : RunWhere step allowed start trace finish) :
    Run step start trace finish := by
  induction path with
  | nil => exact .nil
  | snoc _ _ taken inductionHypothesis => exact .snoc inductionHypothesis taken

/-- A run may also be extended at its front. -/
theorem RunWhere.cons {middle : State} {label : Label} (holds : allowed start label)
    (taken : step start label = some middle) (path : RunWhere step allowed middle trace finish) :
    RunWhere step allowed start (label :: trace) finish := by
  induction path with
  | nil => exact .snoc .nil holds taken
  | snoc _ last reached inductionHypothesis => exact .snoc inductionHypothesis last reached

/-- Execute a trace as long as every label is allowed and enabled. -/
def exec (step : State → Label → Option State) (allowed : State → Label → Prop)
    [∀ state label, Decidable (allowed state label)] (start : State) : List Label → Option State
  | [] => some start
  | label :: rest =>
      if allowed start label then (step start label).bind fun next => exec step allowed next rest
      else none

theorem runWhere_of_exec [∀ state label, Decidable (allowed state label)]
    (executed : exec step allowed start trace = some finish) :
    RunWhere step allowed start trace finish := by
  induction trace generalizing start with
  | nil =>
      cases executed
      exact .nil
  | cons label rest inductionHypothesis =>
      rw [exec] at executed
      by_cases holds : allowed start label
      · rw [if_pos holds, Option.bind_eq_some_iff] at executed
        rcases executed with ⟨next, taken, later⟩
        exact .cons holds taken (inductionHypothesis later)
      · rw [if_neg holds] at executed
        cases executed

/-- The invariant rule: what holds at the start and survives every step holds
at the end of every run. -/
theorem Run.invariant (path : Run step start trace finish) (Inv : State → Prop)
    (base : Inv start)
    (preserved : ∀ before label after, Inv before → step before label = some after → Inv after) :
    Inv finish := by
  induction path with
  | nil => exact base
  | snoc _ taken inductionHypothesis => exact preserved _ _ _ inductionHypothesis taken

/-- The projection rule: when every step of a system is a step of one of its
parts or leaves that part alone, a run of the system is a run of the part. -/
theorem Run.project {Part PartLabel : Type*} (path : Run step start trace finish)
    (part : State → Part) (partStep : Part → PartLabel → Option Part)
    (matched : ∀ before label after, step before label = some after →
      part after = part before ∨
        ∃ partLabel, partStep (part before) partLabel = some (part after)) :
    ∃ partTrace, Run partStep (part start) partTrace (part finish) := by
  induction path with
  | nil => exact ⟨[], .nil⟩
  | snoc _ taken inductionHypothesis =>
      rcases inductionHypothesis with ⟨partTrace, reached⟩
      rcases matched _ _ _ taken with rests | ⟨partLabel, acts⟩
      · rw [rests]
        exact ⟨partTrace, reached⟩
      · exact ⟨partTrace ++ [partLabel], .snoc reached acts⟩

/-- The conditional invariant rule.  The preservation step may use that the
label was allowed in the state before it. -/
theorem RunWhere.invariant (path : RunWhere step allowed start trace finish)
    (Inv : State → Prop) (base : Inv start)
    (preserved : ∀ before label after, Inv before → allowed before label →
      step before label = some after → Inv after) :
    Inv finish := by
  induction path with
  | nil => exact base
  | snoc _ holds taken inductionHypothesis =>
      exact preserved _ _ _ inductionHypothesis holds taken

/-- The simulation rule.  The abstract system is a total function of the labels,
so that the whole trace determines the abstract state it ends in. -/
theorem RunWhere.simulation {Abstract : Type*} (path : RunWhere step allowed start trace finish)
    (next : Abstract → Label → Abstract) (Rel : State → Abstract → Prop) (initial : Abstract)
    (base : Rel start initial)
    (matched : ∀ before label after abstract, Rel before abstract → allowed before label →
      step before label = some after → Rel after (next abstract label)) :
    Rel finish (trace.foldl next initial) := by
  induction path with
  | nil => exact base
  | snoc _ holds taken inductionHypothesis =>
      rw [List.foldl_append]
      exact matched _ _ _ _ inductionHypothesis holds taken

/-- The simulation rule for a system that never stops: every trace has a run, and
the abstract run on the same labels accompanies it. -/
theorem exists_run_of_simulation {Abstract : Type*} (next : Abstract → Label → Abstract)
    (Rel : State → Abstract → Prop) (initial : Abstract) (base : Rel start initial)
    (matched : ∀ before abstract label, Rel before abstract →
      ∃ after, step before label = some after ∧ Rel after (next abstract label))
    (trace : List Label) :
    ∃ finish, Run step start trace finish ∧ Rel finish (trace.foldl next initial) := by
  induction trace using List.reverseRecOn with
  | nil => exact ⟨start, .nil, base⟩
  | append_singleton trace label inductionHypothesis =>
      rcases inductionHypothesis with ⟨before, path, related⟩
      rcases matched before _ label related with ⟨after, taken, later⟩
      refine ⟨after, .snoc path taken, ?_⟩
      rw [List.foldl_append]
      exact later

end Transition
end Ossim
