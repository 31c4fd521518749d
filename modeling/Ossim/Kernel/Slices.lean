import Mathlib.Algebra.Order.Floor.Div
import Ossim.Kernel.Attendance
import Ossim.Kernel.Execution

namespace Ossim
namespace Kernel

open Memory

/-!
# The slices of a process

A process gets the CPU in slices of `time_slot` calls of `run`, of which the last
may be shorter.  Between two slices it is put back once and dispatched once, and
it is released in the slice that ends its code.  A process without instructions
has one slice with one call, which executes nothing: the loop tests the program
counter only after a process has run.

`Tally` counts what the history says about one process.  `Account` ties the
counts to the place where the process is.
-/

variable {numCpus : Nat}

/-! ## Counting events -/

/-- What a history says about one process. -/
structure Tally where
  dispatches : Nat
  putBacks : Nat
  runs : Nat
  /-- The calls of `run` since the last dispatch. -/
  since : Nat
  releases : Nat
  deriving DecidableEq, Repr

def Tally.zero : Tally := ⟨0, 0, 0, 0, 0⟩

def Tally.add (proc : ProcRef) (counts : Tally) : Event → Tally
  | .dispatched next =>
      if next = proc then { counts with dispatches := counts.dispatches + 1, since := 0 }
      else counts
  | .ran runner _ =>
      if runner = proc then { counts with runs := counts.runs + 1, since := counts.since + 1 }
      else counts
  | .putBack back => if back = proc then { counts with putBacks := counts.putBacks + 1 } else counts
  | .freed gone _ _ =>
      if gone = proc then { counts with releases := counts.releases + 1 } else counts

def tally (history : List Event) (proc : ProcRef) : Tally :=
  history.foldl (Tally.add proc) Tally.zero

@[simp] theorem tally_snoc (history : List Event) (event : Event) (proc : ProcRef) :
    tally (history ++ [event]) proc = (tally history proc).add proc event := by
  rw [tally, List.foldl_append]
  rfl

section Own

/-! One lemma for each event, for the process that it is about. -/

variable (history : List Event) (proc : ProcRef)

theorem tally_dispatched : tally (history ++ [.dispatched proc]) proc =
    { tally history proc with dispatches := (tally history proc).dispatches + 1, since := 0 } := by
  simp [Tally.add]

theorem tally_ran (executed : Option Nat) : tally (history ++ [.ran proc executed]) proc =
    { tally history proc with
      runs := (tally history proc).runs + 1, since := (tally history proc).since + 1 } := by
  simp [Tally.add]

theorem tally_putBack : tally (history ++ [.putBack proc]) proc =
    { tally history proc with putBacks := (tally history proc).putBacks + 1 } := by
  simp [Tally.add]

theorem tally_freed (pc size : Nat) : tally (history ++ [.freed proc pc size]) proc =
    { tally history proc with releases := (tally history proc).releases + 1 } := by
  simp [Tally.add]

end Own

theorem since_tally (history : List Event) (proc : ProcRef) :
    (tally history proc).since = runsSinceDispatch history proc := by
  induction history using List.reverseRecOn with
  | nil => rfl
  | append_singleton history event inductionHypothesis =>
      rw [tally_snoc, runsSinceDispatch_snoc, ← inductionHypothesis]
      cases event <;> simp only [Tally.add, Event.countRuns] <;> split <;> rfl

/-! ## The program of a process -/

/-- The program counter and the program of a process. -/
def Os.stage (os : Os) (proc : ProcRef) : Option (Nat × List Inst) :=
  (os.procs proc).map fun pcb => (pcb.pc, pcb.code)

theorem stage_congr {before after : Os} {proc : ProcRef}
    (procs : after.procs proc = before.procs proc) : after.stage proc = before.stage proc := by
  rw [Os.stage, procs, Os.stage]

theorem stage_of_found {os : Os} {proc : ProcRef} {pcb : Pcb} (found : os.procs proc = some pcb) :
    os.stage proc = some (pcb.pc, pcb.code) := by
  rw [Os.stage, found]
  rfl

theorem stage_putMlqProc (os : Os) (queued proc : ProcRef) :
    (putMlqProc os queued).stage proc = os.stage proc := by
  unfold Os.stage
  by_cases same : proc = queued
  · subst same
    cases found : os.procs proc <;> simp [putMlqProc, Os.updatePcb, found]
  · simp [putMlqProc, Os.updatePcb, same]

theorem stage_load (os : Os) (code : List Inst) (prio : Nat) :
    (addProc (load os code prio) os.availPid).stage os.availPid = some (0, code) := by
  rw [addProc, addMlqProc]
  have queued := stage_putMlqProc (load os code prio) os.availPid os.availPid
  refine Eq.trans queued ?_
  simp [Os.stage, load]

theorem stage_run {os : Os} {proc : ProcRef} {pcb : Pcb} (found : os.procs proc = some pcb) :
    (run os proc).2.stage proc =
      some (if pcb.pc < pcb.code.length then pcb.pc + 1 else pcb.pc, pcb.code) := by
  by_cases inside : pcb.pc < pcb.code.length
  · have fetched : fetch os proc = some pcb.code[pcb.pc] := by
      rw [fetch, found, Option.bind_some, List.getElem?_eq_getElem inside]
    have frame := frame_dispatch (os.advance proc) proc pcb.code[pcb.pc]
    have control := congrArg (Option.map fun control => (control.pc, control.code))
      (frame.control proc)
    have read : ∀ os : Os, os.stage proc =
        (os.control proc).map fun control => (control.pc, control.code) := by
      intro os
      rw [Os.stage, Os.control, Option.map_map]
      rfl
    rw [run_of_fetch fetched, if_pos inside, read, control, ← read]
    simp [Os.stage, Os.advance, Os.updatePcb, found]
  · have ended : fetch os proc = none := by
      rw [fetch, found, Option.bind_some, List.getElem?_eq_none (Nat.le_of_not_lt inside)]
    rw [run_of_end ended, if_neg inside, Os.stage, found]
    rfl

/-- The number of instructions of a process in the configuration. -/
def programSize (config : List (List Inst × Nat)) (proc : ProcRef) : Nat :=
  match config[proc - 1]? with
  | none => 0
  | some spec => spec.1.length

/-! ## What a step does to one process -/

section Step

variable {sim after : Simulator numCpus} {timeSlot : Int} {action : SimAction numCpus}

/-- A step of a CPU leaves the configuration, the process ids and `done`. -/
theorem SimEffect.cpu_frame {id : Fin numCpus} (effect : SimEffect timeSlot sim (.cpu id) after)
    (owned : sim.Owned) :
    after.os.availPid = sim.os.availPid ∧ after.pending = sim.pending ∧ after.done = sim.done := by
  cases effect with
  | acquired _ _ got os asks outcome =>
      rcases getProc_eq outcome with ⟨_, rfl⟩
      exact ⟨rfl, rfl, rfl⟩
  | skipped _ os point idle outcome =>
      rcases getProc_eq outcome with ⟨_, rfl⟩
      exact ⟨rfl, rfl, rfl⟩
  | emptied _ _ os asks elsewhere outcome =>
      rcases getProc_eq outcome with ⟨_, rfl⟩
      exact ⟨rfl, rfl, rfl⟩
  | freed _ gone pcb point holds found =>
      rcases freePcb_cases owned.sound gone with ⟨spare, outcome, _⟩
      refine ⟨?_, ?_, ?_⟩
      · rw [Simulator.record_os, Simulator.setCpu_os, Simulator.setOs_os, outcome]
        rfl
      · rw [Simulator.record_pending, Simulator.setCpu_pending, Simulator.setOs_pending]
      · rw [Simulator.record_done, Simulator.setCpu_done, Simulator.setOs_done]
  | ran _ runner pcb point holds found defined =>
      refine ⟨?_, ?_, ?_⟩
      · rw [Simulator.record_os, Simulator.setCpu_os, Simulator.setOs_os]
        cases fetched : fetch sim.os runner with
        | none => rw [run_of_end fetched]
        | some ins =>
            have frame := frame_dispatch (sim.os.advance runner) runner ins
            rw [run_of_fetch fetched, frame.availPid]
            rfl
      · rw [Simulator.record_pending, Simulator.setCpu_pending, Simulator.setOs_pending]
      · rw [Simulator.record_done, Simulator.setCpu_done, Simulator.setOs_done]
  | removed _ _ _ _ _ _ _ => exact ⟨rfl, rfl, rfl⟩
  | putBack _ _ _ _ _ _ _ _ => exact ⟨rfl, rfl, rfl⟩
  | kept _ _ _ _ _ _ _ _ => exact ⟨rfl, rfl, rfl⟩
  | stopped _ _ _ _ => exact ⟨rfl, rfl, rfl⟩
  | waiting _ _ _ _ => exact ⟨rfl, rfl, rfl⟩
  | dispatched _ _ _ _ _ => exact ⟨rfl, rfl, rfl⟩
  | resumed _ _ _ _ _ => exact ⟨rfl, rfl, rfl⟩
  | nextSlot _ _ => exact ⟨rfl, rfl, rfl⟩

/-- A queued process was queued before, is new, or is put back. -/
theorem SimEffect.queued_from (effect : SimEffect timeSlot sim action after) (owned : sim.Owned)
    {proc : ProcRef} {prio : Fin MAX_PRIO} (queued : proc ∈ after.os.sched.mlqReadyQueue prio) :
    proc ∈ sim.os.sched.mlqReadyQueue prio ∨ (proc = sim.os.availPid ∧ action = .loader) ∨
      ∃ id, action = .cpu id ∧ (sim.cpus id).current = some proc := by
  have joined : ∀ {os : Os} {added : ProcRef},
      proc ∈ (putMlqProc os added).sched.mlqReadyQueue prio →
        proc ∈ os.sched.mlqReadyQueue prio ∨ proc = added := by
    intro os added member
    rw [sched_putMlqProc, Sched.queued] at member
    dsimp only at member
    by_cases here : prio = normalizePrio (os.prio added)
    · subst here
      rw [Function.update_self] at member
      exact mem_of_mem_enqueue member
    · rw [Function.update_of_ne here] at member
      exact Or.inl member
  cases effect with
  | loaded code level rest _ =>
      rcases joined queued with before | fresh
      · exact Or.inl before
      · exact Or.inr (Or.inl ⟨fresh, rfl⟩)
  | putBack id back pcb point holds found unfinished spent =>
      rcases joined queued with before | same
      · exact Or.inl before
      · subst same
        exact Or.inr (Or.inr ⟨id, rfl, Cpu.current_of_point point holds⟩)
  | acquired id timeLeft got os asks outcome =>
      rcases getProc_eq outcome with ⟨_, rfl⟩
      exact Or.inl (queue_getMlqProc sim.os.sched queued)
  | skipped id os point idle outcome =>
      rcases getProc_eq outcome with ⟨_, rfl⟩
      exact Or.inl (queue_getMlqProc sim.os.sched queued)
  | emptied id timeLeft os asks elsewhere outcome =>
      rcases getProc_eq outcome with ⟨_, rfl⟩
      exact Or.inl (queue_getMlqProc sim.os.sched queued)
  | freed id gone pcb point holds found =>
      rw [Simulator.record_os, Simulator.setCpu_os, Simulator.setOs_os,
        sched_freePcb owned.sound] at queued
      exact Or.inl queued
  | ran id runner pcb point holds found defined =>
      rw [Simulator.record_os, Simulator.setCpu_os, Simulator.setOs_os, sched_run] at queued
      exact Or.inl queued
  | removed _ _ _ _ _ _ _ => exact Or.inl queued
  | closed _ _ => exact Or.inl queued
  | kept _ _ _ _ _ _ _ _ => exact Or.inl queued
  | stopped _ _ _ _ => exact Or.inl queued
  | waiting _ _ _ _ => exact Or.inl queued
  | dispatched _ _ _ _ _ => exact Or.inl queued
  | resumed _ _ _ _ _ => exact Or.inl queued
  | nextSlot _ _ => exact Or.inl queued

/-- What happens to a process that is not with the CPU that acts. -/
structure Untouched (sim after : Simulator numCpus) (action : SimAction numCpus) (proc : ProcRef) :
    Prop where
  counts : tally after.history proc = tally sim.history proc
  executed : executedBy after.history proc = executedBy sim.history proc
  stage : after.os.stage proc = sim.os.stage proc ∨
    (action = .loader ∧ proc = sim.os.availPid ∧ ∃ code prio rest,
      sim.pending = (code, prio) :: rest ∧ after.os.stage proc = some (0, code))

theorem SimEffect.untouched (effect : SimEffect timeSlot sim action after) (owned : sim.Owned)
    {proc : ProcRef} (apart : ∀ id, action = .cpu id → (sim.cpus id).current ≠ some proc) :
    Untouched sim after action proc := by
  have other : ∀ {id : Fin numCpus} {held : ProcRef}, action = .cpu id →
      (sim.cpus id).current = some held → held ≠ proc := by
    rintro id held acts current rfl
    exact apart id acts current
  cases effect with
  | loaded code prio rest next =>
      refine ⟨rfl, rfl, ?_⟩
      by_cases fresh : proc = sim.os.availPid
      · subst fresh
        exact Or.inr ⟨rfl, rfl, code, prio, rest, next, stage_load sim.os code prio⟩
      · exact Or.inl (stage_congr (procs_load_of_ne sim.os code prio fresh))
  | acquired id timeLeft got os asks outcome =>
      rcases getProc_eq outcome with ⟨_, rfl⟩
      exact ⟨rfl, rfl, Or.inl rfl⟩
  | skipped id os point idle outcome =>
      rcases getProc_eq outcome with ⟨_, rfl⟩
      exact ⟨rfl, rfl, Or.inl rfl⟩
  | emptied id timeLeft os asks elsewhere outcome =>
      rcases getProc_eq outcome with ⟨_, rfl⟩
      exact ⟨rfl, rfl, Or.inl rfl⟩
  | putBack id back pcb point holds found unfinished spent =>
      have different := other rfl (Cpu.current_of_point point holds)
      refine ⟨by simp [Tally.add, different], by simp [Event.executedBy], Or.inl ?_⟩
      exact stage_putMlqProc sim.os back proc
  | freed id gone pcb point holds found =>
      have different := other rfl (Cpu.current_of_point point holds)
      refine ⟨by simp [Tally.add, different], by simp [Event.executedBy], Or.inl ?_⟩
      refine stage_congr ?_
      rw [Simulator.record_os, Simulator.setCpu_os, Simulator.setOs_os, procs_freePcb owned.sound,
        if_neg (Ne.symm different)]
  | dispatched id next point holds spent =>
      have different := other rfl (Cpu.current_of_point point holds)
      exact ⟨by simp [Tally.add, different], by simp [Event.executedBy], Or.inl rfl⟩
  | ran id runner pcb point holds found defined =>
      have here := Cpu.current_of_point point holds
      have different := other rfl here
      refine ⟨by simp [Tally.add, different], by simp [Event.executedBy, different], Or.inl ?_⟩
      exact stage_congr (run_others owned.sound (owned.current_live here) (Ne.symm different))
  | removed _ _ _ _ _ _ _ => exact ⟨rfl, rfl, Or.inl rfl⟩
  | closed _ _ => exact ⟨rfl, rfl, Or.inl rfl⟩
  | kept _ _ _ _ _ _ _ _ => exact ⟨rfl, rfl, Or.inl rfl⟩
  | stopped _ _ _ _ => exact ⟨rfl, rfl, Or.inl rfl⟩
  | waiting _ _ _ _ => exact ⟨rfl, rfl, Or.inl rfl⟩
  | resumed _ _ _ _ _ => exact ⟨rfl, rfl, Or.inl rfl⟩
  | nextSlot _ _ => exact ⟨rfl, rfl, Or.inl rfl⟩

/-- A CPU comes to hold a process by taking it from a queue. -/
theorem SimEffect.held_from (effect : SimEffect timeSlot sim action after)
    (clocked : sim.Clocked timeSlot) {id : Fin numCpus} {proc : ProcRef}
    (held : (after.cpus id).current = some proc) :
    (sim.cpus id).current = some proc ∨
      (action = .cpu id ∧ after.cpus id = ⟨.recheck, some proc, 0⟩ ∧
        ∃ prio, proc ∈ sim.os.sched.mlqReadyQueue prio) := by
  by_cases acts : action = .cpu id
  · subst acts
    cases effect with
    | acquired _ timeLeft got os asks outcome =>
        rcases getProc_eq outcome with ⟨same, rfl⟩
        have spent := clocked.asks asks
        rw [Simulator.setCpu_cpus, Function.update_self] at held ⊢
        have got_eq : got = proc := Option.some.inj held
        subst got_eq
        have moved := waiting_getMlqProc sim.os.sched got
        rw [← same, share_self] at moved
        rw [spent]
        exact Or.inr ⟨rfl, rfl, (waiting_pos_iff sim.os.sched got).mp (by omega)⟩
    | skipped _ _ _ _ _ => simp [Cpu.current] at held
    | emptied _ _ _ _ _ _ => simp [Cpu.current] at held
    | removed _ gone pcb point holds _ _ =>
        rw [Simulator.setCpu_cpus, Function.update_self] at held
        exact Or.inl ((Cpu.current_of_point point holds).trans held)
    | putBack _ _ _ _ _ _ _ _ => simp [Cpu.current] at held
    | kept _ mine pcb point holds _ _ _ =>
        rw [Simulator.setCpu_cpus, Function.update_self] at held
        exact Or.inl ((Cpu.current_of_point point holds).trans held)
    | freed _ _ _ _ _ _ => simp [Cpu.current] at held
    | stopped _ _ _ _ => simp [Cpu.current] at held
    | waiting _ _ _ _ => simp [Cpu.current] at held
    | dispatched _ mine point holds _ =>
        rw [Simulator.record_cpus, Simulator.setCpu_cpus, Function.update_self] at held
        exact Or.inl ((Cpu.current_of_point point holds).trans held)
    | resumed _ mine point holds _ =>
        rw [Simulator.setCpu_cpus, Function.update_self] at held
        exact Or.inl ((Cpu.current_of_point point holds).trans held)
    | ran _ runner pcb point holds _ _ =>
        rw [Simulator.record_cpus, Simulator.setCpu_cpus, Function.update_self] at held
        exact Or.inl ((Cpu.current_of_point point holds).trans held)
    | nextSlot _ point =>
        rw [Simulator.setCpu_cpus, Function.update_self] at held
        refine Or.inl (Eq.trans ?_ held)
        rw [Cpu.current, Cpu.current, point]
  · rw [effect.cpus_of_ne acts] at held
    exact Or.inl held

end Step

/-! ## The configuration -/

/-- The part of the configuration that the loader has passed, and the programs of
the processes. -/
structure Simulator.Planned (config : List (List Inst × Nat)) (sim : Simulator numCpus) : Prop where
  pending : sim.pending = config.drop (sim.os.availPid - 1)
  first : 1 ≤ sim.os.availPid
  last : sim.os.availPid ≤ config.length + 1
  program : ∀ proc pc code, sim.os.stage proc = some (pc, code) →
    1 ≤ proc ∧ ∃ prio, config[proc - 1]? = some (code, prio)

section Step

variable {sim after : Simulator numCpus} {timeSlot : Int} {action : SimAction numCpus}
variable {config : List (List Inst × Nat)}

/-- The steps of a process that its own CPU takes do not change its program. -/
theorem SimEffect.program (effect : SimEffect timeSlot sim action after) (owned : sim.Owned)
    {proc : ProcRef} {pc : Nat} {code : List Inst}
    (now : after.os.stage proc = some (pc, code)) :
    (∃ before, sim.os.stage proc = some (before, code)) ∨
      (proc = sim.os.availPid ∧ ∃ prio rest, sim.pending = (code, prio) :: rest) := by
  by_cases acting : ∃ id, action = .cpu id ∧ (sim.cpus id).current = some proc
  · rcases acting with ⟨id, rfl, held⟩
    refine Or.inl ?_
    rcases Option.isSome_iff_exists.mp (owned.current_live held) with ⟨pcb, found⟩
    cases effect with
    | ran _ runner mine point holds read defined =>
        have same := (Cpu.current_of_point point holds).symm.trans held
        rw [Option.some.injEq] at same
        subst same
        have stage := (stage_run read).symm.trans now
        rw [Option.some.injEq, Prod.mk.injEq] at stage
        exact ⟨mine.pc, by rw [stage_of_found read, stage.2]⟩
    | freed _ gone mine point holds read =>
        have same := (Cpu.current_of_point point holds).symm.trans held
        rw [Option.some.injEq] at same
        subst same
        rw [Simulator.record_os, Simulator.setCpu_os, Simulator.setOs_os, Os.stage,
          procs_freePcb owned.sound, if_pos rfl] at now
        cases now
    | putBack _ back mine point holds read unfinished spent =>
        exact ⟨pc, (stage_putMlqProc sim.os back proc).symm.trans now⟩
    | acquired _ _ _ os asks outcome =>
        rcases getProc_eq outcome with ⟨_, rfl⟩
        exact ⟨pc, now⟩
    | skipped _ os point idle outcome =>
        rcases getProc_eq outcome with ⟨_, rfl⟩
        exact ⟨pc, now⟩
    | emptied _ _ os asks elsewhere outcome =>
        rcases getProc_eq outcome with ⟨_, rfl⟩
        exact ⟨pc, now⟩
    | removed _ _ _ _ _ _ _ => exact ⟨pc, now⟩
    | kept _ _ _ _ _ _ _ _ => exact ⟨pc, now⟩
    | stopped _ _ _ _ => exact ⟨pc, now⟩
    | waiting _ _ _ _ => exact ⟨pc, now⟩
    | dispatched _ _ _ _ _ => exact ⟨pc, now⟩
    | resumed _ _ _ _ _ => exact ⟨pc, now⟩
    | nextSlot _ _ => exact ⟨pc, now⟩
  · have rest := effect.untouched owned fun id acts held => acting ⟨id, acts, held⟩
    rcases rest.stage with same | ⟨_, fresh, code', prio, rest, next, stage⟩
    · exact Or.inl ⟨pc, same.symm.trans now⟩
    · rw [stage, Option.some.injEq, Prod.mk.injEq] at now
      rw [now.2] at next
      exact Or.inr ⟨fresh, prio, rest, next⟩

theorem Simulator.Planned.step (planned : sim.Planned config) (owned : sim.Owned)
    (effect : SimEffect timeSlot sim action after) : after.Planned config := by
  rcases planned with ⟨pending, first, last, program⟩
  have programs : ∀ proc pc code, after.os.stage proc = some (pc, code) →
      1 ≤ proc ∧ ∃ prio, config[proc - 1]? = some (code, prio) := by
    intro proc pc code now
    rcases effect.program owned now with ⟨before, stage⟩ | ⟨fresh, prio, rest, next⟩
    · exact program proc before code stage
    · rw [fresh]
      refine ⟨first, prio, ?_⟩
      have head := congrArg List.head? (pending.symm.trans next)
      rw [List.head?_drop] at head
      exact head
  cases action with
  | cpu id =>
      rcases effect.cpu_frame owned with ⟨availPid, rest, _⟩
      exact ⟨by rw [rest, availPid, pending], by omega, by omega, programs⟩
  | loader =>
      cases effect with
      | loaded code prio rest next =>
          have length := congrArg List.length (pending.symm.trans next)
          rw [List.length_drop, List.length_cons] at length
          have availPid : (addProc (load sim.os code prio) sim.os.availPid).availPid =
              sim.os.availPid + 1 := rfl
          refine ⟨?_, ?_, ?_, programs⟩
          · dsimp only
            rw [availPid, Nat.add_sub_cancel]
            have tail := congrArg List.tail (pending.symm.trans next)
            rw [List.tail_drop, Nat.sub_add_cancel first] at tail
            exact tail.symm
          · dsimp only
            omega
          · dsimp only
            omega
      | closed _ _ => exact ⟨pending, first, last, programs⟩

end Step

/-! ## The account of one process -/

namespace Tally

variable (slice : Nat) (counts : Tally)

/-- Between two slices. -/
def Rested : Prop := counts.dispatches = counts.putBacks ∧ counts.runs = slice * counts.putBacks

/-- Inside a slice. -/
def Serving : Prop :=
  counts.dispatches = counts.putBacks + 1 ∧
    counts.runs = slice * counts.putBacks + counts.since ∧ counts.since ≤ slice

variable {slice : Nat} {counts : Tally}

/-- A slice ends when all its calls of `run` have been made. -/
theorem Serving.putBack (serving : counts.Serving slice) (full : counts.since = slice) :
    Rested slice { counts with putBacks := counts.putBacks + 1 } := by
  refine ⟨serving.1, ?_⟩
  dsimp only
  rw [serving.2.1, full, Nat.mul_add, Nat.mul_one]

theorem Rested.dispatched (rested : counts.Rested slice) :
    Serving slice { counts with dispatches := counts.dispatches + 1, since := 0 } :=
  ⟨congrArg Nat.succ rested.1, rested.2, Nat.zero_le slice⟩

theorem Serving.ran (serving : counts.Serving slice) (left : counts.since < slice) :
    Serving slice { counts with runs := counts.runs + 1, since := counts.since + 1 } :=
  ⟨serving.1, congrArg Nat.succ serving.2.1, left⟩

end Tally

/-- The counts of a process agree with the point of the CPU that holds it. -/
def Cpu.Agrees (slice : Nat) (counts : Tally) (pc size : Nat) (cpu : Cpu) : Prop :=
  match cpu.point with
  | .recheck =>
      if cpu.timeLeft = 0 then counts.Rested slice ∧ (pc < size ∨ counts.runs = 0)
      else counts.Serving slice ∧ pc < size
  | .running => counts.Serving slice ∧ (pc < size ∨ counts.runs = 0)
  | .slot | .top | .removed => counts.Serving slice ∧ 1 ≤ counts.since
  | _ => True

/-- A process that has been released was served to its end. -/
structure Tally.Complete (slice size : Nat) (counts : Tally) : Prop where
  serving : counts.Serving slice
  last : 1 ≤ counts.since
  runs : counts.runs = max 1 size
  once : counts.releases = 1

/-- What the history says about a process that has a block. -/
structure Simulator.Underway (slice : Nat) (sim : Simulator numCpus) (proc : ProcRef)
    (pc : Nat) (code : List Inst) : Prop where
  inside : pc ≤ code.length
  unreleased : (tally sim.history proc).releases = 0
  executed : executedBy sim.history proc = List.range pc
  runs : code.length ≠ 0 → (tally sim.history proc).runs = pc
  dummy : code.length = 0 → (tally sim.history proc).runs ≤ 1
  queued : ∀ prio, proc ∈ sim.os.sched.mlqReadyQueue prio →
    (tally sim.history proc).Rested slice ∧ (pc < code.length ∨ (tally sim.history proc).runs = 0)
  held : ∀ id, (sim.cpus id).current = some proc →
    (sim.cpus id).Agrees slice (tally sim.history proc) pc code.length

/-- The account of a process through its life. -/
structure Simulator.Account (slice : Nat) (config : List (List Inst × Nat))
    (sim : Simulator numCpus) (proc : ProcRef) : Prop where
  unborn : sim.os.availPid ≤ proc →
    tally sim.history proc = Tally.zero ∧ executedBy sim.history proc = []
  underway : ∀ pc code, sim.os.stage proc = some (pc, code) → sim.Underway slice proc pc code
  gone : sim.os.stage proc = none → 1 ≤ proc → proc < sim.os.availPid →
    (tally sim.history proc).Complete slice (programSize config proc) ∧
      executedBy sim.history proc = List.range (programSize config proc)

/-! ## Preservation -/

section Step

variable {sim after : Simulator numCpus} {slice : Nat} {action : SimAction numCpus}
variable {config : List (List Inst × Nat)} {proc : ProcRef}

theorem stage_availPid (owned : sim.Owned) : sim.os.stage sim.os.availPid = none := by
  rw [Os.stage, owned.sound.absent]
  rfl

/-- A process id that is in use was in use before, or the loader has just given
it to a process. -/
theorem SimEffect.born (effect : SimEffect slice sim action after) (owned : sim.Owned)
    (used : proc < after.os.availPid) :
    proc < sim.os.availPid ∨ (proc = sim.os.availPid ∧ after.os.stage proc ≠ none) := by
  cases action with
  | cpu id =>
      rw [(effect.cpu_frame owned).1] at used
      exact Or.inl used
  | loader =>
      cases effect with
      | loaded code prio rest _ =>
          have next : proc < sim.os.availPid + 1 := used
          rcases Nat.lt_succ_iff_lt_or_eq.mp next with older | fresh
          · exact Or.inl older
          · rw [fresh, stage_load]
            exact Or.inr ⟨rfl, by simp⟩
      | closed _ _ => exact Or.inl used

/-- The account of a process that the acting CPU does not hold. -/
theorem Simulator.Account.untouched (account : sim.Account slice config proc) (owned : sim.Owned)
    (clocked : sim.Clocked slice) (effect : SimEffect slice sim action after)
    (apart : ∀ id, action = .cpu id → (sim.cpus id).current ≠ some proc) :
    after.Account slice config proc := by
  rcases account with ⟨unborn, underway, gone⟩
  have rest := effect.untouched owned apart
  refine ⟨fun young => ?_, fun pc code now => ?_, fun absent positive used => ?_⟩
  · rw [rest.counts, rest.executed]
    exact unborn (le_trans (effect.availPid owned) young)
  · rcases rest.stage with same | ⟨loads, fresh, code', prio, others, next, stage⟩
    · rw [same] at now
      have old := underway pc code now
      refine ⟨old.inside, ?_, ?_, ?_, ?_, fun prio queued => ?_, fun id held => ?_⟩
      · rw [rest.counts]
        exact old.unreleased
      · rw [rest.executed]
        exact old.executed
      · rw [rest.counts]
        exact old.runs
      · rw [rest.counts]
        exact old.dummy
      · rw [rest.counts]
        rcases effect.queued_from owned queued with before | ⟨fresh, _⟩ | ⟨id, acts, held⟩
        · exact old.queued prio before
        · rw [fresh, stage_availPid owned] at now
          cases now
        · exact absurd held (apart id acts)
      · rw [rest.counts]
        rcases effect.held_from clocked held with before | ⟨_, taken, prio, queued⟩
        · rw [effect.cpus_of_ne fun acts => apart id acts before]
          exact old.held id before
        · rw [taken]
          simpa [Cpu.Agrees] using old.queued prio queued
    · -- the process is new, and nothing has happened to it
      rw [stage, Option.some.injEq, Prod.mk.injEq] at now
      rcases now with ⟨rfl, rfl⟩
      have zero := unborn (le_of_eq fresh.symm)
      refine ⟨Nat.zero_le _, ?_, ?_, fun _ => ?_, fun _ => ?_, fun prio queued => ?_,
        fun id held => ?_⟩
      · rw [rest.counts, zero.1]
        rfl
      · rw [rest.executed, zero.2]
        rfl
      · rw [rest.counts, zero.1]
        rfl
      · rw [rest.counts, zero.1]
        exact Nat.zero_le 1
      · rw [rest.counts, zero.1]
        exact ⟨⟨rfl, rfl⟩, Or.inr rfl⟩
      · rcases effect.held_from clocked held with before | ⟨acts, _⟩
        · have alive := owned.current_live before
          rw [fresh, owned.sound.absent] at alive
          cases alive
        · rw [loads] at acts
          cases acts
  · rw [rest.counts, rest.executed]
    rcases effect.born owned used with older | ⟨_, present⟩
    · refine gone ?_ positive older
      rcases rest.stage with same | ⟨_, _, code, _, _, _, stage⟩
      · rw [← same]
        exact absent
      · rw [stage] at absent
        cases absent
    · exact absurd absent present

/-- No other CPU comes to hold the process that the acting CPU holds. -/
theorem Simulator.Owned.acting_of_held (owned : sim.Owned) {id second : Fin numCpus} {cpu : Cpu}
    (held : (sim.cpus id).current = some proc)
    (there : (Function.update sim.cpus id cpu second).current = some proc) : second = id := by
  by_contra different
  rw [Function.update_of_ne different] at there
  exact different (owned.unique there held)

section Underway

variable {pc : Nat} {code : List Inst} {id : Fin numCpus}

/-- A process stays underway when its CPU goes on to a point that agrees with the
counts, and nothing is said about the process. -/
theorem Simulator.Underway.move (old : sim.Underway slice proc pc code) (owned : sim.Owned)
    (held : (sim.cpus id).current = some proc) (os : Os) (cpu : Cpu)
    (queues : os.sched.mlqReadyQueue = sim.os.sched.mlqReadyQueue)
    (agrees : cpu.Agrees slice (tally sim.history proc) pc code.length) :
    ((sim.setOs os).setCpu id cpu).Underway slice proc pc code where
  inside := old.inside
  unreleased := old.unreleased
  executed := old.executed
  runs := old.runs
  dummy := old.dummy
  queued prio member := old.queued prio (queues ▸ member)
  held other there := by
    rw [Simulator.setCpu_cpus] at there ⊢
    rw [owned.acting_of_held held there, Function.update_self]
    exact agrees

/-- The same with an event about the process, after which its counts are known. -/
theorem Simulator.Underway.record {next : Nat} {event : Event} {counts : Tally} (owned : sim.Owned)
    (held : (sim.cpus id).current = some proc) (os : Os) (cpu : Cpu)
    (grown : tally (sim.history ++ [event]) proc = counts) (inside : next ≤ code.length)
    (unreleased : counts.releases = 0)
    (executed : executedBy (sim.history ++ [event]) proc = List.range next)
    (runs : code.length ≠ 0 → counts.runs = next) (dummy : code.length = 0 → counts.runs ≤ 1)
    (queued : ∀ prio, proc ∈ os.sched.mlqReadyQueue prio →
      counts.Rested slice ∧ (next < code.length ∨ counts.runs = 0))
    (agrees : cpu.current = some proc → cpu.Agrees slice counts next code.length) :
    (((sim.setOs os).setCpu id cpu).record event).Underway slice proc next code := by
  subst grown
  refine ⟨inside, unreleased, executed, runs, dummy, queued, fun other there => ?_⟩
  have now : (Function.update sim.cpus id cpu other).current = some proc := there
  have same := owned.acting_of_held held now
  subst same
  rw [Function.update_self] at now
  rw [Simulator.record_cpus, Simulator.setCpu_cpus, Function.update_self]
  exact agrees now

theorem Simulator.Underway.putBack (old : sim.Underway slice proc pc code) (owned : sim.Owned)
    (held : (sim.cpus id).current = some proc) (timeLeft : Int)
    (serving : (tally sim.history proc).Serving slice)
    (full : (tally sim.history proc).since = slice) (unfinished : pc < code.length) :
    (((sim.setOs (putProc sim.os proc)).setCpu id ⟨.yielded, some proc, timeLeft⟩).record
      (.putBack proc)).Underway slice proc pc code := by
  refine .record owned held _ _ (tally_putBack sim.history proc) old.inside old.unreleased ?_
    old.runs old.dummy (fun _ _ => ⟨serving.putBack full, Or.inl unfinished⟩) fun there => ?_
  · simpa [Event.executedBy] using old.executed
  · cases there

theorem Simulator.Underway.dispatched (old : sim.Underway slice proc pc code) (owned : sim.Owned)
    (held : (sim.cpus id).current = some proc)
    (rested : (tally sim.history proc).Rested slice)
    (work : pc < code.length ∨ (tally sim.history proc).runs = 0) :
    ((sim.setCpu id ⟨.running, some proc, slice⟩).record (.dispatched proc)).Underway slice proc
      pc code := by
  refine .record owned held sim.os _ (tally_dispatched sim.history proc) old.inside old.unreleased ?_
    old.runs old.dummy (fun prio queued => ?_) fun _ => ⟨rested.dispatched, work⟩
  · simpa [Event.executedBy] using old.executed
  · exact absurd held (owned.queued_apart queued id)

theorem Simulator.Underway.ran (old : sim.Underway slice proc pc code) (owned : sim.Owned)
    (held : (sim.cpus id).current = some proc) (timeLeft : Int)
    (serving : (tally sim.history proc).Serving slice)
    (work : pc < code.length ∨ (tally sim.history proc).runs = 0)
    (left : (tally sim.history proc).since < slice) :
    (((sim.setOs (run sim.os proc).2).setCpu id ⟨.slot, some proc, timeLeft⟩).record
      (.ran proc (if pc < code.length then some pc else none))).Underway slice proc
        (if pc < code.length then pc + 1 else pc) code := by
  have inside := old.inside
  refine .record owned held _ _ (tally_ran sim.history proc _) ?_ old.unreleased ?_
    (fun nonempty => ?_) (fun empty => ?_) (fun prio queued => ?_)
    fun _ => ⟨serving.ran left, Nat.le_add_left 1 _⟩
  · split <;> omega
  · rw [executedBy_snoc, old.executed]
    by_cases within : pc < code.length
    · simp [Event.executedBy, within, List.range_succ]
    · simp [Event.executedBy, within]
  · have already := old.runs nonempty
    rw [if_pos (by omega)]
    exact congrArg Nat.succ already
  · have unrun := work.resolve_left (by omega)
    exact le_of_eq (congrArg Nat.succ unrun)
  · rw [sched_run] at queued
    exact absurd held (owned.queued_apart queued id)

/-- What is left of a process at its release. -/
theorem Simulator.Underway.complete (old : sim.Underway slice proc code.length code)
    (serving : (tally sim.history proc).Serving slice)
    (last : 1 ≤ (tally sim.history proc).since) (pc size : Nat) :
    (tally (sim.history ++ [.freed proc pc size]) proc).Complete slice code.length ∧
      executedBy (sim.history ++ [.freed proc pc size]) proc = List.range code.length := by
  rw [tally_freed]
  refine ⟨⟨serving, last, ?_, congrArg Nat.succ old.unreleased⟩, ?_⟩
  · dsimp only
    by_cases empty : code.length = 0
    · have one := old.dummy empty
      have sum := serving.2.1
      rw [empty]
      omega
    · have all := old.runs empty
      omega
  · rw [executedBy_snoc, old.executed]
    simp [Event.executedBy]

/-- The account of the process that the acting CPU holds. -/
theorem Simulator.Underway.step (old : sim.Underway slice proc pc code) (owned : sim.Owned)
    (clocked : sim.Clocked slice) (now : sim.os.stage proc = some (pc, code))
    (held : (sim.cpus id).current = some proc) (effect : SimEffect slice sim (.cpu id) after) :
    (∃ next, after.os.stage proc = some (next, code) ∧ after.Underway slice proc next code) ∨
      (after.os.stage proc = none ∧
        (tally after.history proc).Complete slice code.length ∧
        executedBy after.history proc = List.range code.length) := by
  have agrees := old.held id held
  have clock := clocked.clock id proc held
  rw [← since_tally] at clock
  -- the CPU acts on the process that it holds
  have mine : ∀ {place : CpuPoint} {other : ProcRef}, (sim.cpus id).point = place →
      (sim.cpus id).proc = some other → place ≠ .freed ∧ place ≠ .yielded → other = proc :=
    fun point holds plain =>
      Option.some.inj ((Cpu.current_of_point point holds plain).symm.trans held)
  have read : ∀ {pcb : Pcb}, sim.os.procs proc = some pcb → pcb.pc = pc ∧ pcb.code = code := by
    intro pcb found
    have stage := (stage_of_found found).symm.trans now
    rw [Option.some.injEq, Prod.mk.injEq] at stage
    exact stage
  cases effect with
  | removed _ other pcb point holds found ended =>
      have same := mine point holds (by decide)
      subst same
      simp only [Cpu.Agrees, point] at agrees
      exact Or.inl ⟨pc, now, old.move owned held _ _ rfl agrees⟩
  | kept _ other pcb point holds found unfinished left =>
      have same := mine point holds (by decide)
      subst same
      rcases read found with ⟨rfl, rfl⟩
      simp only [Cpu.Agrees, point] at agrees
      refine Or.inl ⟨pcb.pc, now, old.move owned held sim.os _ rfl ?_⟩
      simp only [Cpu.Agrees, if_neg left]
      exact ⟨agrees.1, lt_of_le_of_ne old.inside unfinished⟩
  | resumed _ other point holds left =>
      have same := mine point holds (by decide)
      subst same
      simp only [Cpu.Agrees, point, if_neg left] at agrees
      exact Or.inl ⟨pc, now, old.move owned held sim.os _ rfl ⟨agrees.1, Or.inl agrees.2⟩⟩
  | nextSlot _ point =>
      simp only [Cpu.Agrees, point] at agrees
      exact Or.inl ⟨pc, now, old.move owned held sim.os _ rfl agrees⟩
  | putBack _ other pcb point holds found unfinished spent =>
      have same := mine point holds (by decide)
      subst same
      rcases read found with ⟨rfl, rfl⟩
      simp only [Cpu.Agrees, point] at agrees
      simp only [Cpu.InQuantum, point, spent] at clock
      refine Or.inl ⟨pcb.pc, (stage_putMlqProc sim.os other other).trans now, ?_⟩
      exact old.putBack owned held _ agrees.1 (by omega) (lt_of_le_of_ne old.inside unfinished)
  | dispatched _ other point holds spent =>
      have same := mine point holds (by decide)
      subst same
      simp only [Cpu.Agrees, point, if_pos spent] at agrees
      exact Or.inl ⟨pc, now, old.dispatched owned held agrees.1 agrees.2⟩
  | ran _ other pcb point holds found defined =>
      have same := mine point holds (by decide)
      subst same
      rcases read found with ⟨rfl, rfl⟩
      simp only [Cpu.Agrees, point] at agrees
      simp only [Cpu.InQuantum, point] at clock
      exact Or.inl ⟨_, stage_run found,
        old.ran owned held _ agrees.1 agrees.2 (by omega)⟩
  | freed _ other pcb point holds found =>
      have same := mine point holds (by decide)
      subst same
      rcases read found with ⟨rfl, rfl⟩
      simp only [Cpu.Agrees, point] at agrees
      have ended := (finished_of_found found).mp (owned.parting id point other holds).1
      rw [ended] at old
      refine Or.inr ⟨?_, ?_⟩
      · rw [Simulator.record_os, Simulator.setCpu_os, Simulator.setOs_os, Os.stage,
          procs_freePcb owned.sound, if_pos rfl]
        rfl
      · rw [Simulator.record_history, Simulator.setCpu_history, Simulator.setOs_history]
        exact old.complete agrees.1 agrees.2 pcb.pc pcb.code.length
  | acquired _ _ _ _ asks _ => cases asks.current.symm.trans held
  | emptied _ _ _ asks _ _ => cases asks.current.symm.trans held
  | skipped _ _ point idle _ => cases (Cpu.Asks.top point idle).current.symm.trans held
  | stopped _ point idle _ =>
      rw [Cpu.current, point, idle] at held
      cases held
  | waiting _ point idle _ =>
      rw [Cpu.current, point, idle] at held
      cases held

end Underway

theorem Simulator.Account.step (account : sim.Account slice config proc) (owned : sim.Owned)
    (clocked : sim.Clocked slice) (planned : sim.Planned config)
    (effect : SimEffect slice sim action after) : after.Account slice config proc := by
  by_cases acting : ∃ id, action = .cpu id ∧ (sim.cpus id).current = some proc
  · rcases acting with ⟨id, rfl, held⟩
    have alive := owned.current_live held
    have older := owned.sound.fresh proc alive
    rcases Option.isSome_iff_exists.mp alive with ⟨pcb, found⟩
    have now := stage_of_found found
    have unborn : ¬ after.os.availPid ≤ proc := by
      rw [(effect.cpu_frame owned).1]
      exact Nat.not_le_of_lt older
    rcases (account.underway _ _ now).step owned clocked now held effect with
      ⟨next, stage, underway⟩ | ⟨absent, complete, executed⟩
    · refine ⟨fun young => absurd young unborn, fun pc code later => ?_, fun absent => ?_⟩
      · rw [stage, Option.some.injEq, Prod.mk.injEq] at later
        rcases later with ⟨rfl, rfl⟩
        exact underway
      · rw [stage] at absent
        cases absent
    · have size : programSize config proc = pcb.code.length := by
        rcases (planned.program proc _ _ now).2 with ⟨prio, entry⟩
        rw [programSize, entry]
      refine ⟨fun young => absurd young unborn, fun pc code later => ?_, fun _ _ _ => ?_⟩
      · rw [absent] at later
        cases later
      · rw [size]
        exact ⟨complete, executed⟩
  · exact account.untouched owned clocked effect fun id acts held => acting ⟨id, acts, held⟩

end Step

/-! ## Every interleaving -/

theorem planned_start (numCpus : Nat) (memramsz memswpsz : Addr)
    (freergHeads : ProcRef → List VmRgStruct) (config : List (List Inst × Nat)) :
    (start numCpus memramsz memswpsz freergHeads config).Planned config := by
  refine ⟨rfl, le_refl 1, Nat.le_add_left 1 _, fun proc pc code now => ?_⟩
  cases now

theorem account_start (slice numCpus : Nat) (memramsz memswpsz : Addr)
    (freergHeads : ProcRef → List VmRgStruct) (config : List (List Inst × Nat)) (proc : ProcRef) :
    (start numCpus memramsz memswpsz freergHeads config).Account slice config proc := by
  refine ⟨fun _ => ⟨rfl, rfl⟩, fun pc code now => ?_, fun _ positive used => ?_⟩
  · cases now
  · exact absurd positive (Nat.not_le_of_lt used)

theorem Simulated.planned {timeSlot : Int} {memramsz memswpsz : Addr}
    {config : List (List Inst × Nat)} {sim : Simulator numCpus}
    (reached : Simulated timeSlot memramsz memswpsz config sim) : sim.Planned config := by
  rcases reached with ⟨freergHeads, trace, path⟩
  have kept : sim.Owned ∧ sim.Planned config := by
    refine path.invariant (fun sim => sim.Owned ∧ sim.Planned config)
      ⟨owned_start numCpus memramsz memswpsz freergHeads config,
        planned_start numCpus memramsz memswpsz freergHeads config⟩ ?_
    rintro before action after ⟨owned, planned⟩ taken
    have effect := simStep_effect taken
    exact ⟨owned.step effect, planned.step owned effect⟩
  exact kept.2

theorem Simulated.account {slice : Nat} {memramsz memswpsz : Addr}
    {config : List (List Inst × Nat)} {sim : Simulator numCpus} (positive : 1 ≤ slice)
    (reached : Simulated slice memramsz memswpsz config sim) :
    sim.Planned config ∧ ∀ proc, sim.Account slice config proc := by
  have counted : (1 : Int) ≤ slice := by exact_mod_cast positive
  rcases reached with ⟨freergHeads, trace, path⟩
  have kept : sim.Owned ∧ sim.Clocked slice ∧ sim.Planned config ∧
      ∀ proc, sim.Account slice config proc := by
    refine path.invariant (fun sim => sim.Owned ∧ sim.Clocked slice ∧ sim.Planned config ∧
        ∀ proc, sim.Account slice config proc)
      ⟨owned_start numCpus memramsz memswpsz freergHeads config,
        clocked_start slice numCpus memramsz memswpsz freergHeads config,
        planned_start numCpus memramsz memswpsz freergHeads config,
        account_start slice numCpus memramsz memswpsz freergHeads config⟩ ?_
    rintro before action after ⟨owned, clocked, planned, account⟩ taken
    have effect := simStep_effect taken
    exact ⟨owned.step effect, clocked.step owned counted effect, planned.step owned effect,
      fun proc => (account proc).step owned clocked planned effect⟩
  exact kept.2.2

/-- A process that was added and has no block any more was released once.  Its
instructions were executed once each and in order, and it had as many slices as
its calls of `run` fill, with one return to the queue between two slices. -/
theorem released_in_slices (numCpus slice : Nat) (positive : 1 ≤ slice) (memramsz memswpsz : Addr)
    (config : List (List Inst × Nat)) (sim : Simulator numCpus)
    (reached : Simulated slice memramsz memswpsz config sim) (proc : ProcRef) (valid : 1 ≤ proc)
    (added : proc < sim.os.availPid) (released : sim.os.procs proc = none) :
    executedBy sim.history proc = List.range (programSize config proc) ∧
      (tally sim.history proc).runs = max 1 (programSize config proc) ∧
      (tally sim.history proc).dispatches = max 1 (programSize config proc) ⌈/⌉ slice ∧
      (tally sim.history proc).putBacks + 1 = (tally sim.history proc).dispatches ∧
      (tally sim.history proc).releases = 1 := by
  have absent : sim.os.stage proc = none := by
    rw [Os.stage, released]
    rfl
  rcases ((reached.account positive).2 proc).gone absent valid added with ⟨complete, executed⟩
  rcases complete with ⟨⟨dispatched, sum, short⟩, last, runs, once⟩
  refine ⟨executed, runs, ?_, dispatched.symm, once⟩
  rw [dispatched, ← runs, sum, Nat.ceilDiv_eq_add_pred_div]
  -- the last slice has between one and `slice` calls
  have split : slice * (tally sim.history proc).putBacks + (tally sim.history proc).since +
      slice - 1 = slice * ((tally sim.history proc).putBacks + 1) +
        ((tally sim.history proc).since - 1) := by
    rw [Nat.mul_add, Nat.mul_one]
    omega
  rw [split, Nat.mul_add_div positive, Nat.div_eq_of_lt (by omega), Nat.add_zero]

/-- Three instructions in slices of two: the process is put back once. -/
def threeCalc : List (List Inst × Nat) := [(List.replicate 3 ⟨.CALC, 0, 0, 0, 0⟩, 0)]

def threeCalcReleased : Simulator 1 :=
  (Transition.exec (simStep 2) (fun _ _ => True) (start 1 1024 0 nullHeads threeCalc)
    (.loader :: List.replicate 15 (.cpu 0))).get (by decide +kernel)

theorem released_in_slices_threeCalc :
    (tally threeCalcReleased.history 1).dispatches = max 1 (programSize threeCalc 1) ⌈/⌉ 2 :=
  (released_in_slices 1 2 (by decide) 1024 0 threeCalc threeCalcReleased
    ⟨_, _, (Transition.runWhere_of_exec (Option.some_get _).symm).run⟩ 1 (by decide)
    (by decide +kernel) (by decide +kernel)).2.2.1

end Kernel
end Ossim
