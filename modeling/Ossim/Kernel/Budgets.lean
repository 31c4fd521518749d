import Mathlib.Algebra.BigOperators.Fin
import Ossim.Kernel.Dispatches

namespace Ossim
namespace Kernel

/-!
# Slot budgets and waiting times

A priority starts each round, from one slot reset to the next, with `MAX_PRIO`
minus its number as budget, and every dispatch takes one off it.  `Balanced` is
this balance, and it gives the shares of the priorities.

A waiting process is reached because the budgets run out.  `patience` bounds the
number of dispatches that a process can still be made to wait, and every
dispatch of another process lowers it.
-/

/-! ## Dispatches since the last reset -/

/-- The number of dispatches of a priority after an event, from the number
before it. -/
def SchedEvent.countReturns (prio : Fin MAX_PRIO) (count : Nat) : SchedEvent → Nat
  | .reset => 0
  | .returned other _ => if other = prio then count + 1 else count
  | .passed _ => count

/-- How often a priority was dispatched since the last reset, or since
`init_scheduler`. -/
def sinceReset (history : List SchedEvent) (prio : Fin MAX_PRIO) : Nat :=
  history.foldl (SchedEvent.countReturns prio) 0

/-- What is left of a budget and what was dispatched make up the whole. -/
structure Balanced (sched : Sched) (history : List SchedEvent) : Prop where
  balance : ∀ prio, sched.slot prio + sinceReset history prio = MAX_PRIO - prio.val
  nonneg : ∀ prio, 0 ≤ sched.slot prio

theorem sinceReset_append (history events : List SchedEvent) (prio : Fin MAX_PRIO) :
    sinceReset (history ++ events) prio =
      events.foldl (SchedEvent.countReturns prio) (sinceReset history prio) :=
  List.foldl_append

/-- Moving on is no dispatch. -/
theorem foldl_passEvents (sched : Sched) (served prio : Fin MAX_PRIO) (rest : List ProcRef)
    (count : Nat) :
    (passEvents sched served rest).foldl (SchedEvent.countReturns prio) count = count := by
  rcases passEvents_cases sched served rest with passed | nothing
  · rw [passed]
    rfl
  · rw [nothing]
    rfl

/-- Serving a queue takes one off its budget. -/
theorem slot_served (sched : Sched) (prio other : Fin MAX_PRIO) (rest : List ProcRef) :
    (sched.served prio rest).slot other =
      sched.slot other - (if prio = other then 1 else 0) := by
  rw [Sched.served]
  dsimp only
  by_cases same : prio = other
  · subst same
    rw [Function.update_self, if_pos rfl]
  · rw [Function.update_of_ne (Ne.symm same), if_neg same, sub_zero]

theorem countReturns_returned (prio served : Fin MAX_PRIO) (proc : ProcRef) (count : Nat) :
    SchedEvent.countReturns prio count (.returned served proc) =
      count + (if served = prio then 1 else 0) := by
  rw [SchedEvent.countReturns]
  by_cases same : served = prio
  · rw [if_pos same, if_pos same]
  · rw [if_neg same, if_neg same, Nat.add_zero]

/-- A fresh budget is positive. -/
theorem slot_resetMlqSlot_pos (sched : Sched) (prio : Fin MAX_PRIO) :
    0 < (resetMlqSlot sched).slot prio := by
  have bound := prio.isLt
  unfold MAX_PRIO at bound
  rw [resetMlqSlot]
  unfold MAX_PRIO
  dsimp only
  omega

/-- A reset starts a new round. -/
theorem balanced_resetMlqSlot (sched : Sched) (history : List SchedEvent) :
    Balanced (resetMlqSlot sched) (history ++ [.reset]) := by
  constructor
  · intro prio
    rw [sinceReset_append]
    exact add_zero _
  · exact fun prio => (slot_resetMlqSlot_pos sched prio).le

private theorem Balanced.serve {sched : Sched} {history : List SchedEvent}
    (balanced : Balanced sched history) {prio : Fin MAX_PRIO} (proc : ProcRef)
    (rest : List ProcRef) (budget : 0 < sched.slot prio) :
    Balanced (sched.served prio rest)
      (history ++ .returned prio proc :: passEvents sched prio rest) := by
  constructor
  · intro other
    rw [slot_served, sinceReset_append, List.foldl_cons, countReturns_returned, foldl_passEvents,
      ← balanced.balance other]
    push_cast
    ring
  · intro other
    rw [slot_served]
    have left := balanced.nonneg other
    by_cases same : prio = other
    · subst same
      rw [if_pos rfl]
      omega
    · rw [if_neg same]
      omega

theorem Balanced.step {before after : Sched} {history events : List SchedEvent}
    (balanced : Balanced before history) (effect : SchedEffect before events after) :
    Balanced after (history ++ events) := by
  cases effect with
  | idle _ =>
      rw [List.append_nil]
      exact balanced
  | queued prio proc runningList =>
      rw [List.append_nil]
      exact ⟨balanced.balance, balanced.nonneg⟩
  | served prio proc rest _ budget _ => exact balanced.serve proc rest budget
  | renewed prio proc rest _ _ _ =>
      have served := (balanced_resetMlqSlot before history).serve proc rest
        (slot_resetMlqSlot_pos before prio)
      rwa [List.append_assoc, List.singleton_append] at served

theorem balanced_opened {os : Os} {calls : List SchedCall} {session : Session}
    (path : Transition.Run schedStep (opened os) calls session) :
    Balanced session.os.sched session.history := by
  apply path.invariant fun session => Balanced session.os.sched session.history
  · exact ⟨fun prio => add_zero _, fun prio => (slot_resetMlqSlot_pos initScheduler prio).le⟩
  · intro before call after balanced taken
    rcases schedStep_effect taken with ⟨events, recorded, effect⟩
    rw [recorded]
    exact balanced.step effect

/-! ## The shares -/

/-- In every round each priority is dispatched at most as often as its budget
says, and a round ends only when every waiting priority has used up its budget. -/
theorem budget_shares {os : Os} {calls : List SchedCall} {session : Session}
    (path : Transition.Run schedStep (opened os) calls session) :
    (∀ prio : Fin MAX_PRIO, sinceReset session.history prio ≤ MAX_PRIO - prio.val) ∧
      (.reset ∈ getEvents session.os.sched →
        ∀ prio, session.os.sched.mlqReadyQueue prio ≠ [] →
          sinceReset session.history prio = MAX_PRIO - prio.val) := by
  have balanced := balanced_opened path
  constructor
  · intro prio
    have balance := balanced.balance prio
    have nonneg := balanced.nonneg prio
    omega
  · intro reset prio filled
    have unpassed : ∀ (sched : Sched) (served : Fin MAX_PRIO) (rest : List ProcRef),
        .reset ∉ passEvents sched served rest := by
      intro sched served rest
      rcases passEvents_cases sched served rest with passed | nothing
      · rw [passed]
        simp
      · rw [nothing]
        exact List.not_mem_nil
    have effect := getEvents_effect session.os.sched
    generalize getEvents session.os.sched = events at reset effect
    generalize (getMlqProc session.os.sched).2 = after at effect
    cases effect with
    | idle _ => cases reset
    | queued _ _ _ => cases reset
    | served served proc rest _ _ _ =>
        rw [List.mem_cons] at reset
        rcases reset with other | passing
        · cases other
        · exact absurd passing (unpassed _ _ _)
    | renewed served proc rest _ exhausted _ =>
        have balance := balanced.balance prio
        have nonneg := balanced.nonneg prio
        have spent : ¬ 0 < session.os.sched.slot prio := fun budget =>
          exhausted prio ⟨budget, filled⟩
        omega

/-- A kernel with one process, of the lowest priority. -/
def lastProc : Os := load (boot 1024 0 nullHeads) [] 139

/-- The process of the lowest priority has used up its budget and waits again. -/
def spent : Session :=
  (Transition.exec schedStep (fun _ _ => True) (opened lastProc)
    [.addProc 1, .getProc, .putProc 1]).get (by decide +kernel)

theorem spent_reached : ∃ calls, Transition.Run schedStep (opened lastProc) calls spent :=
  ⟨_, (Transition.runWhere_of_exec (Option.some_get _).symm).run⟩

theorem budget_shares_spent :
    sinceReset spent.history 139 ≤ 1 ∧ .reset ∈ getEvents spent.os.sched ∧
      sinceReset spent.history 139 = 1 := by
  rcases spent_reached with ⟨calls, path⟩
  have shares := budget_shares path
  have reset : .reset ∈ getEvents spent.os.sched := by decide +kernel
  exact ⟨shares.1 139, reset, shares.2 reset 139 (by decide +kernel)⟩

/-! ## The budget of all priorities together -/

def Sched.budget (sched : Sched) : Int := ∑ prio, sched.slot prio

/-- All priorities together start a round with half of `140 * 141`. -/
theorem budget_resetMlqSlot (sched : Sched) : (resetMlqSlot sched).budget = 9870 := by
  have total : ∑ prio : Fin MAX_PRIO, (( MAX_PRIO : Int) - prio.val) = 9870 := by decide +kernel
  exact total

theorem budget_served (sched : Sched) (prio : Fin MAX_PRIO) (rest : List ProcRef) :
    (sched.served prio rest).budget = sched.budget - 1 := by
  unfold Sched.budget
  simp only [slot_served, Finset.sum_sub_distrib, Finset.sum_ite_eq, Finset.mem_univ, if_true]

theorem Balanced.slot_le {sched : Sched} {history : List SchedEvent}
    (balanced : Balanced sched history) (prio : Fin MAX_PRIO) :
    sched.slot prio ≤ (resetMlqSlot sched).slot prio := by
  have balance := balanced.balance prio
  rw [resetMlqSlot]
  dsimp only
  omega

theorem Balanced.budget_le {sched : Sched} {history : List SchedEvent}
    (balanced : Balanced sched history) : sched.budget ≤ 9870 := by
  rw [← budget_resetMlqSlot sched]
  exact Finset.sum_le_sum fun prio _ => balanced.slot_le prio

theorem Balanced.slot_le_budget {sched : Sched} {history : List SchedEvent}
    (balanced : Balanced sched history) (prio : Fin MAX_PRIO) :
    sched.slot prio ≤ sched.budget :=
  Finset.single_le_sum (f := sched.slot) (fun other _ => balanced.nonneg other)
    (Finset.mem_univ prio)

/-! ## Waiting -/

/-- The number of calls that returned a process. -/
def returns (events : List SchedEvent) : Nat :=
  events.countP fun event =>
    match event with
    | .returned _ _ => true
    | _ => false

/-- A process stands at a position of its ready queue. -/
def Sched.Waits (sched : Sched) (prio : Fin MAX_PRIO) (proc : ProcRef) (position : Nat) : Prop :=
  (sched.mlqReadyQueue prio)[position]? = some proc

/-- A bound on the dispatches before the process at a position of a ready queue
is returned.  Each place in front of it costs a whole round before and after a
reset.  The reset itself is only needed when the queue has no budget left. -/
def Sched.patience (sched : Sched) (prio : Fin MAX_PRIO) (position : Nat) : Int :=
  position * 19740 + (if 0 < sched.slot prio then sched.budget else sched.budget + 9870)

theorem Balanced.patience_pos {sched : Sched} {history : List SchedEvent}
    (balanced : Balanced sched history) (prio : Fin MAX_PRIO) (position : Nat) :
    0 < sched.patience prio position := by
  have budget := balanced.slot_le_budget prio
  have nonneg := balanced.nonneg prio
  unfold Sched.patience
  by_cases left : 0 < sched.slot prio
  · rw [if_pos left]
    omega
  · rw [if_neg left]
    omega

theorem Balanced.patience_le {sched : Sched} {history : List SchedEvent}
    (balanced : Balanced sched history) (prio : Fin MAX_PRIO) (position : Nat) :
    sched.patience prio position ≤ (position + 1) * 19740 := by
  have budget := balanced.budget_le
  unfold Sched.patience
  by_cases left : 0 < sched.slot prio
  · rw [if_pos left]
    omega
  · rw [if_neg left]
    omega

theorem returns_serve (sched : Sched) (prio : Fin MAX_PRIO) (proc : ProcRef)
    (rest : List ProcRef) :
    returns (.returned prio proc :: passEvents sched prio rest) = 1 := by
  rcases passEvents_cases sched prio rest with passed | nothing
  · rw [passed]
    rfl
  · rw [nothing]
    rfl

/-- A process that waits is not lost by a call that returns another one. -/
theorem waits_served {sched : Sched} {prio served : Fin MAX_PRIO} {proc head : ProcRef}
    {rest : List ProcRef} {position : Nat} (waits : sched.Waits prio proc position)
    (queue : sched.mlqReadyQueue served = head :: rest) :
    (served = prio ∧ head = proc ∧ position = 0) ∨
      (served = prio ∧ ∃ earlier, position = earlier + 1 ∧
        (sched.served served rest).Waits prio proc earlier) ∨
      (served ≠ prio ∧ (sched.served served rest).Waits prio proc position) := by
  unfold Sched.Waits at waits ⊢
  rw [Sched.served]
  dsimp only
  by_cases same : served = prio
  · subst same
    rw [Function.update_self]
    rw [queue] at waits
    cases position with
    | zero => exact Or.inl ⟨rfl, Option.some.inj waits, rfl⟩
    | succ earlier => exact Or.inr (Or.inl ⟨rfl, earlier, rfl, waits⟩)
  · rw [Function.update_of_ne (Ne.symm same)]
    exact Or.inr (Or.inr ⟨same, waits⟩)

/-- Serving a queue uses up patience, whichever queue it is. -/
private theorem patience_served {sched : Sched} {history : List SchedEvent}
    (balanced : Balanced sched history) {prio served : Fin MAX_PRIO} {proc head : ProcRef}
    {rest : List ProcRef} {position : Nat} (waits : sched.Waits prio proc position)
    (queue : sched.mlqReadyQueue served = head :: rest) :
    (served = prio ∧ head = proc) ∨
      ∃ later, (sched.served served rest).Waits prio proc later ∧
        (sched.served served rest).patience prio later + 1 ≤ sched.patience prio position := by
  rcases waits_served waits queue with ⟨here, same, _⟩ | ⟨rfl, earlier, rfl, moved⟩ | ⟨other, kept⟩
  · exact Or.inl ⟨here, same⟩
  · refine Or.inr ⟨earlier, moved, ?_⟩
    unfold Sched.patience
    rw [budget_served]
    have total := balanced.budget_le
    split_ifs <;> push_cast <;> omega
  · refine Or.inr ⟨position, kept, ?_⟩
    unfold Sched.patience
    rw [budget_served, slot_served, if_neg other, sub_zero]
    split_ifs <;> omega

theorem SchedEffect.patience {before after : Sched} {history events : List SchedEvent}
    (effect : SchedEffect before events after) (balanced : Balanced before history)
    {prio : Fin MAX_PRIO} {proc : ProcRef} {position : Nat}
    (waits : before.Waits prio proc position) :
    .returned prio proc ∈ events ∨
      ∃ later, after.Waits prio proc later ∧
        after.patience prio later + returns events ≤ before.patience prio position := by
  cases effect with
  | idle _ => exact Or.inr ⟨position, waits, (add_zero _).le⟩
  | queued added other runningList =>
      refine Or.inr ⟨position, ?_, (add_zero _).le⟩
      unfold Sched.Waits at waits ⊢
      rw [Sched.queued]
      dsimp only
      by_cases same : prio = added
      · subst same
        rw [Function.update_self]
        rcases enqueue_cases (before.mlqReadyQueue prio) other with ⟨_, appended⟩ | ⟨_, dropped⟩
        · rw [appended]
          exact List.getElem?_append_left (List.getElem?_eq_some_iff.mp waits).1 ▸ waits
        · rw [dropped]
          exact waits
      · rw [Function.update_of_ne same]
        exact waits
  | served served head rest queue budget _ =>
      rcases patience_served balanced waits queue with
        ⟨rfl, rfl⟩ | ⟨later, kept, less⟩
      · exact Or.inl List.mem_cons_self
      · refine Or.inr ⟨later, kept, ?_⟩
        rw [returns_serve]
        exact less
  | renewed served head rest queue exhausted _ =>
      have fresh := balanced_resetMlqSlot before history
      have filled : before.mlqReadyQueue prio ≠ [] := by
        intro empty
        rw [Sched.Waits, empty] at waits
        cases waits
      -- the waiting queue has no budget left, so its patience allows for the reset
      have spent : ¬ 0 < before.slot prio := fun budget => exhausted prio ⟨budget, filled⟩
      have allowed : (resetMlqSlot before).patience prio position ≤
          before.patience prio position := by
        have nonneg := balanced.slot_le_budget prio
        have own := balanced.nonneg prio
        rw [Sched.patience, if_pos (slot_resetMlqSlot_pos before prio), budget_resetMlqSlot,
          Sched.patience, if_neg spent]
        omega
      rcases patience_served fresh (show (resetMlqSlot before).Waits prio proc position from waits)
          queue with ⟨rfl, rfl⟩ | ⟨later, kept, less⟩
      · exact Or.inl (List.mem_cons_of_mem _ List.mem_cons_self)
      · refine Or.inr ⟨later, kept, ?_⟩
        have one := returns_serve (resetMlqSlot before) served head rest
        rw [returns, List.countP_cons_of_neg (by simp), ← returns, one]
        exact le_trans less allowed

/-! ## No process starves -/

/-- From any state that a session can reach, a process at a position of its ready
queue is returned before `(position + 1) * 140 * 141` more calls have returned a
process, whatever the calls are. -/
theorem no_starvation {os : Os} {calls : List SchedCall} {session : Session}
    (path : Transition.Run schedStep (opened os) calls session) {prio : Fin MAX_PRIO}
    {proc : ProcRef} {position : Nat} (waits : session.os.sched.Waits prio proc position)
    {further : List SchedCall} {after : Session}
    (continued : Transition.Run schedStep session further after) :
    ∃ events, after.history = session.history ++ events ∧
      (.returned prio proc ∈ events ∨ returns events < (position + 1) * 140 * 141) := by
  have progress : ∃ events, after.history = session.history ++ events ∧
      Balanced after.os.sched after.history ∧
      (.returned prio proc ∈ events ∨ ∃ later, after.os.sched.Waits prio proc later ∧
        after.os.sched.patience prio later + returns events ≤
          session.os.sched.patience prio position) := by
    induction continued with
    | nil =>
        exact ⟨[], (List.append_nil _).symm, balanced_opened path,
          Or.inr ⟨position, waits, (add_zero _).le⟩⟩
    | snoc earlier taken inductionHypothesis =>
        rcases inductionHypothesis with ⟨events, recorded, balanced, outcome⟩
        rcases schedStep_effect taken with ⟨added, extended, effect⟩
        refine ⟨events ++ added, ?_, ?_, ?_⟩
        · rw [extended, recorded, List.append_assoc]
        · rw [extended]
          exact balanced.step effect
        · rcases outcome with returned | ⟨later, waiting, patient⟩
          · exact Or.inl (List.mem_append_left added returned)
          · rcases effect.patience balanced waiting with now | ⟨next, still, less⟩
            · exact Or.inl (List.mem_append_right events now)
            · refine Or.inr ⟨next, still, ?_⟩
              rw [returns, List.countP_append, ← returns, ← returns]
              push_cast
              omega
  rcases progress with ⟨events, recorded, balanced, outcome⟩
  refine ⟨events, recorded, ?_⟩
  rcases outcome with returned | ⟨later, _, patient⟩
  · exact Or.inl returned
  · right
    have positive := balanced.patience_pos prio later
    have bound := (balanced_opened path).patience_le prio position
    omega

/-- The process of `spent` is at the head of the last queue, and one more call
is made. -/
theorem no_starvation_spent : ∃ after events, schedStep spent .getProc = some after ∧
    after.history = spent.history ++ events ∧
      (.returned 139 1 ∈ events ∨ returns events < (0 + 1) * 140 * 141) := by
  rcases spent_reached with ⟨calls, path⟩
  have waits : spent.os.sched.Waits 139 1 0 := by
    unfold Sched.Waits
    decide +kernel
  have taken : schedStep spent .getProc =
      some ⟨(getProc spent.os).2, spent.history ++ getEvents spent.os.sched⟩ := rfl
  rcases no_starvation path waits (.snoc .nil taken) with ⟨events, recorded, outcome⟩
  exact ⟨_, events, taken, recorded, outcome⟩

end Kernel
end Ossim
