import Ossim.Kernel.Ownership

namespace Ossim
namespace Kernel

open Memory

/-!
# What the loops have done to each process

The history of a run is read in three ways: which instructions of a process
were executed, how often it was run since its last dispatch, and whether it was
released.  `Recorded` ties these readings to the program counters and to the
local `time_left` of the CPU that holds the process.
-/

variable {numCpus : Nat}

/-! ## Reading the history -/

/-- The instruction that an event executes for a process. -/
def Event.executedBy (proc : ProcRef) : Event → Option Nat
  | .ran runner executed => if runner = proc then executed else none
  | _ => none

/-- The instructions of a process in the order of execution. -/
def executedBy (history : List Event) (proc : ProcRef) : List Nat :=
  history.filterMap (Event.executedBy proc)

/-- The number of `run` calls after an event, from the number before it. -/
def Event.countRuns (proc : ProcRef) (runs : Nat) : Event → Nat
  | .dispatched other => if other = proc then 0 else runs
  | .ran runner _ => if runner = proc then runs + 1 else runs
  | _ => runs

/-- The number of `run` calls of a process since its last dispatch. -/
def runsSinceDispatch (history : List Event) (proc : ProcRef) : Nat :=
  history.foldl (Event.countRuns proc) 0

@[simp] theorem executedBy_snoc (history : List Event) (event : Event) (proc : ProcRef) :
    executedBy (history ++ [event]) proc =
      executedBy history proc ++ (Event.executedBy proc event).toList := by
  unfold executedBy
  rw [List.filterMap_append]
  cases read : Event.executedBy proc event <;> simp [read]

@[simp] theorem runsSinceDispatch_snoc (history : List Event) (event : Event) (proc : ProcRef) :
    runsSinceDispatch (history ++ [event]) proc =
      Event.countRuns proc (runsSinceDispatch history proc) event := by
  rw [runsSinceDispatch, List.foldl_append]
  rfl

def Os.pcOf (os : Os) (proc : ProcRef) : Option Nat := (os.procs proc).map Pcb.pc

/-! ## The program counter -/

theorem pcOf_congr {before after : Os} {proc : ProcRef}
    (procs : after.procs proc = before.procs proc) : after.pcOf proc = before.pcOf proc := by
  rw [Os.pcOf, procs, Os.pcOf]

theorem pcOf_putMlqProc (os : Os) (queued proc : ProcRef) :
    (putMlqProc os queued).pcOf proc = os.pcOf proc := by
  unfold Os.pcOf
  by_cases same : proc = queued
  · subst same
    cases found : os.procs proc <;> simp [putMlqProc, Os.updatePcb, found]
  · simp [putMlqProc, Os.updatePcb, same]

theorem pcOf_load (os : Os) (code : List Inst) (prio : Nat) :
    (addProc (load os code prio) os.availPid).pcOf os.availPid = some 0 := by
  rw [addProc, addMlqProc]
  have queued := pcOf_putMlqProc (load os code prio) os.availPid os.availPid
  refine Eq.trans queued ?_
  simp [Os.pcOf, load]

/-- `run` moves the program counter past the instruction it executes, and leaves
it at the end of the code. -/
theorem pcOf_run {os : Os} {proc : ProcRef} {pcb : Pcb} (found : os.procs proc = some pcb) :
    (run os proc).2.pcOf proc = some (if pcb.pc < pcb.code.length then pcb.pc + 1 else pcb.pc) := by
  by_cases inside : pcb.pc < pcb.code.length
  · have fetched : fetch os proc = some pcb.code[pcb.pc] := by
      rw [fetch, found, Option.bind_some, List.getElem?_eq_getElem inside]
    have frame := frame_dispatch (os.advance proc) proc pcb.code[pcb.pc]
    have control := congrArg (Option.map Control.pc) (frame.control proc)
    rw [run_of_fetch fetched, if_pos inside]
    have read : ∀ os : Os, os.pcOf proc = (os.control proc).map Control.pc := by
      intro os
      rw [Os.pcOf, Os.control, Option.map_map]
      rfl
    rw [read, control, ← read]
    simp [Os.pcOf, Os.advance, Os.updatePcb, found]
  · have ended : fetch os proc = none := by
      rw [fetch, found, Option.bind_some, List.getElem?_eq_none (Nat.le_of_not_lt inside)]
    rw [run_of_end ended, if_neg inside, Os.pcOf, found]
    rfl

section Step

variable {sim after : Simulator numCpus} {timeSlot : Int} {action : SimAction numCpus}

theorem SimEffect.availPid (effect : SimEffect timeSlot sim action after) (owned : sim.Owned) :
    sim.os.availPid ≤ after.os.availPid := by
  cases effect with
  | loaded code prio rest _ => exact Nat.le_succ sim.os.availPid
  | acquired id timeLeft got os asks outcome =>
      rcases getProc_eq outcome with ⟨_, rfl⟩
      exact le_refl _
  | skipped id os point idle outcome =>
      rcases getProc_eq outcome with ⟨_, rfl⟩
      exact le_refl _
  | emptied id timeLeft os asks elsewhere outcome =>
      rcases getProc_eq outcome with ⟨_, rfl⟩
      exact le_refl _
  | freed id gone pcb point holds found =>
      rcases freePcb_cases owned.sound gone with ⟨spare, outcome, _⟩
      rw [Simulator.record_os, Simulator.setCpu_os, Simulator.setOs_os, outcome]
      exact le_refl _
  | ran id runner pcb point holds found defined =>
      rw [Simulator.record_os, Simulator.setCpu_os, Simulator.setOs_os]
      cases fetched : fetch sim.os runner with
      | none => rw [run_of_end fetched]
      | some ins =>
          have frame := frame_dispatch (sim.os.advance runner) runner ins
          rw [run_of_fetch fetched, frame.availPid]
          exact le_refl _
  | removed _ _ _ _ _ _ _ => exact le_refl _
  | putBack _ _ _ _ _ _ _ _ => exact le_refl _
  | closed _ _ => exact le_refl _
  | kept _ _ _ _ _ _ _ _ => exact le_refl _
  | stopped _ _ _ _ => exact le_refl _
  | waiting _ _ _ _ => exact le_refl _
  | dispatched _ _ _ _ _ => exact le_refl _
  | resumed _ _ _ _ _ => exact le_refl _
  | nextSlot _ _ => exact le_refl _

/-- One step executes nothing of a process, or exactly the instruction at its
program counter. -/
theorem SimEffect.progress (effect : SimEffect timeSlot sim action after) (owned : sim.Owned)
    (proc : ProcRef) :
    (executedBy after.history proc = executedBy sim.history proc ∧
        ∀ pc, after.os.pcOf proc = some pc →
          sim.os.pcOf proc = some pc ∨ (proc = sim.os.availPid ∧ pc = 0)) ∨
      ∃ pc, sim.os.pcOf proc = some pc ∧ after.os.pcOf proc = some (pc + 1) ∧
        executedBy after.history proc = executedBy sim.history proc ++ [pc] := by
  cases effect with
  | loaded code prio rest _ =>
      refine Or.inl ⟨rfl, fun pc counter => ?_⟩
      by_cases fresh : proc = sim.os.availPid
      · rw [fresh] at counter
        have zero := (pcOf_load sim.os code prio).symm.trans counter
        exact Or.inr ⟨fresh, (Option.some.inj zero).symm⟩
      · exact Or.inl ((pcOf_congr (procs_load_of_ne sim.os code prio fresh)).symm.trans counter)
  | acquired id timeLeft got os asks outcome =>
      rcases getProc_eq outcome with ⟨_, rfl⟩
      exact Or.inl ⟨rfl, fun pc counter => Or.inl counter⟩
  | skipped id os point idle outcome =>
      rcases getProc_eq outcome with ⟨_, rfl⟩
      exact Or.inl ⟨rfl, fun pc counter => Or.inl counter⟩
  | emptied id timeLeft os asks elsewhere outcome =>
      rcases getProc_eq outcome with ⟨_, rfl⟩
      exact Or.inl ⟨rfl, fun pc counter => Or.inl counter⟩
  | putBack id back pcb point holds found unfinished spent =>
      refine Or.inl ⟨by simp [Event.executedBy], fun pc counter => Or.inl ?_⟩
      exact (pcOf_putMlqProc sim.os back proc).symm.trans counter
  | freed id gone pcb point holds found =>
      refine Or.inl ⟨by simp [Event.executedBy], fun pc counter => Or.inl ?_⟩
      rw [Simulator.record_os, Simulator.setCpu_os, Simulator.setOs_os, Os.pcOf,
        procs_freePcb owned.sound] at counter
      by_cases own : proc = gone
      · rw [if_pos own] at counter
        cases counter
      · rw [if_neg own] at counter
        exact counter
  | dispatched id next point holds spent =>
      exact Or.inl ⟨by simp [Event.executedBy], fun pc counter => Or.inl counter⟩
  | ran id runner pcb point holds found defined =>
      by_cases own : proc = runner
      · subst own
        have counter := pcOf_run found
        by_cases inside : pcb.pc < pcb.code.length
        · rw [if_pos inside] at counter
          refine Or.inr ⟨pcb.pc, ?_, counter, ?_⟩
          · rw [Os.pcOf, found]
            rfl
          · simp [Event.executedBy, inside]
        · rw [if_neg inside] at counter
          refine Or.inl ⟨by simp [Event.executedBy, inside], fun pc same => Or.inl ?_⟩
          rw [Os.pcOf, found]
          exact counter.symm.trans same
      · have here := Cpu.current_of_point point holds
        have procs := run_others owned.sound (owned.current_live here) own
        refine Or.inl ⟨by simp [Event.executedBy, Ne.symm own], fun pc counter => Or.inl ?_⟩
        exact (pcOf_congr procs).symm.trans counter
  | removed _ _ _ _ _ _ _ => exact Or.inl ⟨rfl, fun pc counter => Or.inl counter⟩
  | closed _ _ => exact Or.inl ⟨rfl, fun pc counter => Or.inl counter⟩
  | kept _ _ _ _ _ _ _ _ => exact Or.inl ⟨rfl, fun pc counter => Or.inl counter⟩
  | stopped _ _ _ _ => exact Or.inl ⟨rfl, fun pc counter => Or.inl counter⟩
  | waiting _ _ _ _ => exact Or.inl ⟨rfl, fun pc counter => Or.inl counter⟩
  | resumed _ _ _ _ _ => exact Or.inl ⟨rfl, fun pc counter => Or.inl counter⟩
  | nextSlot _ _ => exact Or.inl ⟨rfl, fun pc counter => Or.inl counter⟩

end Step

/-! ## Quanta -/

/-- Where a CPU is in the quantum of its process, given the number of `run` calls
since the last dispatch. -/
def Cpu.InQuantum (timeSlot : Int) (runs : Nat) (cpu : Cpu) : Prop :=
  match cpu.point with
  | .top | .slot => 0 ≤ cpu.timeLeft ∧ runs + cpu.timeLeft = timeSlot
  | .recheck => cpu.timeLeft = 0 ∨ (0 < cpu.timeLeft ∧ runs + cpu.timeLeft = timeSlot)
  | .running => 0 < cpu.timeLeft ∧ runs + cpu.timeLeft = timeSlot
  | _ => True

/-- The local `time_left` of every CPU counts down the quantum of its process. -/
structure Simulator.Clocked (timeSlot : Int) (sim : Simulator numCpus) : Prop where
  clock : ∀ id proc, (sim.cpus id).current = some proc →
    (sim.cpus id).InQuantum timeSlot (runsSinceDispatch sim.history proc)
  rest : ∀ id, (sim.cpus id).current = none → (sim.cpus id).point ≠ .freed →
    (sim.cpus id).timeLeft = 0

section Step

variable {sim after : Simulator numCpus} {timeSlot : Int} {action : SimAction numCpus}

/-- A CPU that asks for a process has no time left. -/
theorem Simulator.Clocked.asks (clocked : sim.Clocked timeSlot) {id : Fin numCpus} {timeLeft : Int}
    (asks : (sim.cpus id).Asks timeLeft) : timeLeft = 0 := by
  have idle := asks.current
  cases asks with
  | top point _ => exact clocked.rest id idle (by simp [point])
  | freed _ => rfl
  | yielded point => exact clocked.rest id idle (by simp [point])

/-- The count of a process changes only by the CPU that holds it. -/
theorem SimEffect.runs (effect : SimEffect timeSlot sim action after) (owned : sim.Owned)
    {other : Fin numCpus} {proc : ProcRef} (distinct : action ≠ .cpu other)
    (held : (sim.cpus other).current = some proc) :
    runsSinceDispatch after.history proc = runsSinceDispatch sim.history proc := by
  cases effect with
  | dispatched id next point holds spent =>
      have here := Cpu.current_of_point point holds
      have different : next ≠ proc := by
        rintro rfl
        exact distinct (congrArg SimAction.cpu (owned.unique here held))
      simp [Event.countRuns, different]
  | ran id runner pcb point holds found defined =>
      have here := Cpu.current_of_point point holds
      have different : runner ≠ proc := by
        rintro rfl
        exact distinct (congrArg SimAction.cpu (owned.unique here held))
      simp [Event.countRuns, different]
  | putBack _ _ _ _ _ _ _ _ => simp [Event.countRuns]
  | freed _ _ _ _ _ _ => simp [Event.countRuns]
  | loaded _ _ _ _ => rfl
  | closed _ _ => rfl
  | acquired _ _ _ _ _ _ => rfl
  | skipped _ _ _ _ _ => rfl
  | emptied _ _ _ _ _ _ => rfl
  | removed _ _ _ _ _ _ _ => rfl
  | kept _ _ _ _ _ _ _ _ => rfl
  | stopped _ _ _ _ => rfl
  | waiting _ _ _ _ => rfl
  | resumed _ _ _ _ _ => rfl
  | nextSlot _ _ => rfl

/-- The clock of the CPU that takes the step. -/
theorem SimEffect.clock (effect : SimEffect timeSlot sim action after)
    (clocked : sim.Clocked timeSlot) (positive : 1 ≤ timeSlot) {id : Fin numCpus}
    (acts : action = .cpu id) :
    (∀ proc, (after.cpus id).current = some proc →
        (after.cpus id).InQuantum timeSlot (runsSinceDispatch after.history proc)) ∧
      ((after.cpus id).current = none → (after.cpus id).point ≠ .freed →
        (after.cpus id).timeLeft = 0) := by
  have before := clocked.clock id
  have resting := clocked.rest id
  cases effect with
  | loaded _ _ _ _ => cases acts
  | closed _ _ => cases acts
  | acquired acting timeLeft got os asks outcome =>
      cases acts
      have spent := clocked.asks asks
      simp [Simulator.setCpu, Cpu.current, Cpu.InQuantum, spent]
  | skipped acting os point idle outcome =>
      cases acts
      have spent := resting (Cpu.Asks.top point idle).current (by simp [point])
      simp [Simulator.setCpu, Cpu.current, spent]
  | emptied acting timeLeft os asks elsewhere outcome =>
      cases acts
      have spent := clocked.asks asks
      simp [Simulator.setCpu, Cpu.current, spent]
  | removed acting gone pcb point holds found ended =>
      cases acts
      simp [Simulator.setCpu, Cpu.current, Cpu.InQuantum]
  | putBack acting back pcb point holds found unfinished spent =>
      cases acts
      simp [Simulator.setCpu, Simulator.record, Cpu.current, spent]
  | kept acting held pcb point holds found unfinished left =>
      cases acts
      have clock := before held (Cpu.current_of_point point holds)
      simp only [Cpu.InQuantum, point] at clock
      simp only [Simulator.setCpu, Function.update_self, Cpu.current, Cpu.InQuantum,
        Option.some.injEq]
      refine ⟨?_, fun impossible => absurd impossible (Option.some_ne_none _)⟩
      rintro proc rfl
      exact Or.inr ⟨lt_of_le_of_ne clock.1 (Ne.symm left), clock.2⟩
  | freed acting gone pcb point holds found =>
      cases acts
      simp [Simulator.setCpu, Simulator.record, Cpu.current]
  | stopped acting point idle closing =>
      cases acts
      have spent := resting (by rw [Cpu.current, point, idle]) (by simp [point])
      simp [Simulator.setCpu, Cpu.current, spent]
  | waiting acting point idle loading =>
      cases acts
      have spent := resting (by rw [Cpu.current, point, idle]) (by simp [point])
      simp [Simulator.setCpu, Cpu.current, spent]
  | dispatched acting next point holds spent =>
      cases acts
      simp only [Simulator.setCpu, Simulator.record, Function.update_self, Cpu.current,
        Cpu.InQuantum, Option.some.injEq]
      refine ⟨?_, fun impossible => absurd impossible (Option.some_ne_none _)⟩
      rintro proc rfl
      rw [runsSinceDispatch_snoc, Event.countRuns, if_pos rfl]
      exact ⟨by omega, by omega⟩
  | resumed acting next point holds left =>
      cases acts
      have clock := before next (Cpu.current_of_point point holds)
      simp only [Cpu.InQuantum, point] at clock
      simp only [Simulator.setCpu, Function.update_self, Cpu.current, Cpu.InQuantum,
        Option.some.injEq]
      refine ⟨?_, fun impossible => absurd impossible (Option.some_ne_none _)⟩
      rintro proc rfl
      exact clock.resolve_left left
  | ran acting runner pcb point holds found defined =>
      cases acts
      have clock := before runner (Cpu.current_of_point point holds)
      simp only [Cpu.InQuantum, point] at clock
      simp only [Simulator.setCpu, Simulator.record, Function.update_self, Cpu.current,
        Cpu.InQuantum, Option.some.injEq]
      refine ⟨?_, fun impossible => absurd impossible (Option.some_ne_none _)⟩
      rintro proc rfl
      rw [Simulator.setOs_history, runsSinceDispatch_snoc, Event.countRuns, if_pos rfl]
      exact ⟨by omega, by omega⟩
  | nextSlot acting point =>
      cases acts
      have current : (⟨.top, (sim.cpus id).proc, (sim.cpus id).timeLeft⟩ : Cpu).current =
          (sim.cpus id).current := by
        rw [Cpu.current, Cpu.current, point]
      simp only [Simulator.setCpu, Function.update_self, current]
      refine ⟨fun proc held => ?_, fun idle _ => resting idle (by simp [point])⟩
      have clock := before proc held
      simp only [Cpu.InQuantum, point] at clock
      exact clock

theorem Simulator.Clocked.step (clocked : sim.Clocked timeSlot) (owned : sim.Owned)
    (positive : 1 ≤ timeSlot) (effect : SimEffect timeSlot sim action after) :
    after.Clocked timeSlot where
  clock := by
    intro id proc held
    by_cases acts : action = .cpu id
    · exact (effect.clock clocked positive acts).1 proc held
    · rw [effect.cpus_of_ne acts] at held ⊢
      rw [effect.runs owned acts held]
      exact clocked.clock id proc held
  rest := by
    intro id idle point
    by_cases acts : action = .cpu id
    · exact (effect.clock clocked positive acts).2 idle point
    · rw [effect.cpus_of_ne acts] at idle point ⊢
      exact clocked.rest id idle point

/-! ## The record -/

/-- What the history says about the processes. -/
structure Simulator.Recorded (timeSlot : Int) (sim : Simulator numCpus) : Prop where
  order : ∀ proc, ∃ count, executedBy sim.history proc = List.range count ∧
    ∀ pc, sim.os.pcOf proc = some pc → pc = count
  fresh : ∀ proc, sim.os.availPid ≤ proc → executedBy sim.history proc = []
  gone : ∀ proc pc size, .freed proc pc size ∈ sim.history →
    pc = size ∧ sim.os.procs proc = none ∧ proc < sim.os.availPid
  quantum : ∀ (index : Nat) proc, sim.history[index]? = some (.putBack proc) →
    (runsSinceDispatch (sim.history.take index) proc : Int) = timeSlot

/-- A step adds at most one event, and says what holds when it is added. -/
theorem SimEffect.history (effect : SimEffect timeSlot sim action after) (owned : sim.Owned)
    (clocked : sim.Clocked timeSlot) :
    after.history = sim.history ∨ ∃ event, after.history = sim.history ++ [event] ∧
      (∀ proc, event = .putBack proc → (runsSinceDispatch sim.history proc : Int) = timeSlot) ∧
      ∀ proc pc size, event = .freed proc pc size →
        pc = size ∧ after.os.procs proc = none ∧ proc < sim.os.availPid := by
  cases effect with
  | putBack id back pcb point holds found unfinished spent =>
      refine Or.inr ⟨.putBack back, rfl, fun proc same => ?_, fun _ _ _ impossible => ?_⟩
      · cases same
        have clock := clocked.clock id back
          (Cpu.current_of_point point holds)
        simp only [Cpu.InQuantum, point] at clock
        omega
      · cases impossible
  | freed id gone pcb point holds found =>
      refine Or.inr ⟨.freed gone pcb.pc pcb.code.length, ?_, fun _ impossible => ?_, ?_⟩
      · rw [Simulator.record_history, Simulator.setCpu_history, Simulator.setOs_history]
      · cases impossible
      · intro proc pc size same
        cases same
        have parting := owned.parting id point gone holds
        refine ⟨(finished_of_found found).mp parting.1, ?_, ?_⟩
        · rw [Simulator.record_os, Simulator.setCpu_os, Simulator.setOs_os,
            procs_freePcb owned.sound, if_pos rfl]
        · exact owned.sound.fresh gone (by rw [found]; rfl)
  | dispatched id next point holds spent =>
      refine Or.inr ⟨.dispatched next, rfl, fun _ impossible => ?_, fun _ _ _ impossible => ?_⟩
      · cases impossible
      · cases impossible
  | ran id runner pcb point holds found defined =>
      refine Or.inr ⟨_, rfl, fun _ impossible => ?_, fun _ _ _ impossible => ?_⟩
      · cases impossible
      · cases impossible
  | loaded _ _ _ _ => exact Or.inl rfl
  | closed _ _ => exact Or.inl rfl
  | acquired _ _ _ _ _ _ => exact Or.inl rfl
  | skipped _ _ _ _ _ => exact Or.inl rfl
  | emptied _ _ _ _ _ _ => exact Or.inl rfl
  | removed _ _ _ _ _ _ _ => exact Or.inl rfl
  | kept _ _ _ _ _ _ _ _ => exact Or.inl rfl
  | stopped _ _ _ _ => exact Or.inl rfl
  | waiting _ _ _ _ => exact Or.inl rfl
  | resumed _ _ _ _ _ => exact Or.inl rfl
  | nextSlot _ _ => exact Or.inl rfl

theorem Simulator.Recorded.step (recorded : sim.Recorded timeSlot) (owned : sim.Owned)
    (clocked : sim.Clocked timeSlot) (effect : SimEffect timeSlot sim action after) :
    after.Recorded timeSlot where
  order := by
    intro proc
    rcases recorded.order proc with ⟨count, executed, counter⟩
    rcases effect.progress owned proc with ⟨same, kept⟩ | ⟨pc, before, later, grown⟩
    · refine ⟨count, same.trans executed, fun pc now => ?_⟩
      rcases kept pc now with earlier | ⟨unused, zero⟩
      · exact counter pc earlier
      · have none := recorded.fresh proc (le_of_eq unused.symm)
        rw [executed] at none
        rw [zero]
        exact (List.range_eq_nil.mp none).symm
    · refine ⟨count + 1, ?_, fun now same => ?_⟩
      · rw [grown, executed, counter pc before, List.range_succ]
      · rw [later] at same
        rw [← Option.some.inj same, counter pc before]
  fresh := by
    intro proc unused
    have earlier := le_trans (effect.availPid owned) unused
    rcases effect.progress owned proc with ⟨same, _⟩ | ⟨pc, before, _, _⟩
    · rw [same]
      exact recorded.fresh proc earlier
    · have alive : (sim.os.procs proc).isSome = true := by
        have read := congrArg Option.isSome before
        rw [Os.pcOf, Option.isSome_map] at read
        exact read
      exact absurd (owned.sound.fresh proc alive) (Nat.not_lt_of_le earlier)
  gone := by
    intro proc pc size member
    have next := effect.availPid owned
    have earlier : Event.freed proc pc size ∈ sim.history →
        pc = size ∧ after.os.procs proc = none ∧ proc < after.os.availPid := by
      intro old
      rcases recorded.gone proc pc size old with ⟨ended, absent, older⟩
      exact ⟨ended, effect.stays_gone owned absent older, lt_of_lt_of_le older next⟩
    rcases effect.history owned clocked with same | ⟨event, grown, _, released⟩
    · rw [same] at member
      exact earlier member
    · rw [grown, List.mem_append, List.mem_singleton] at member
      rcases member with old | new
      · exact earlier old
      · rcases released proc pc size new.symm with ⟨ended, absent, older⟩
        exact ⟨ended, absent, lt_of_lt_of_le older next⟩
  quantum := by
    intro index proc here
    rcases effect.history owned clocked with same | ⟨event, grown, full, _⟩
    · rw [same] at here ⊢
      exact recorded.quantum index proc here
    · rw [grown] at here ⊢
      rcases Nat.lt_trichotomy index sim.history.length with inside | last | outside
      · rw [List.getElem?_append_left inside] at here
        rw [List.take_append_of_le_length (le_of_lt inside)]
        exact recorded.quantum index proc here
      · subst last
        rw [List.getElem?_append_right (le_refl _), Nat.sub_self] at here
        rw [List.take_left]
        exact full proc (Option.some.inj here)
      · rw [List.getElem?_eq_none (by simp; omega)] at here
        cases here

end Step

/-! ## Every interleaving -/

/-- Exclusive ownership and execution in order.  A process is never in two
places, no reference to a released block is kept where anything reads it, the
executed instructions of a process are an initial part of its program, a process
is released at the end of its code only, and it is put back after exactly one
quantum of `run` calls. -/
structure Simulator.Orderly (timeSlot : Int) (sim : Simulator numCpus) : Prop where
  onePlace : ∀ proc, sim.places proc ≤ 1
  currentLive : ∀ id proc, (sim.cpus id).current = some proc →
    (sim.os.procs proc).isSome = true
  noStale : ∀ proc pc size, .freed proc pc size ∈ sim.history →
    (∀ prio, proc ∉ sim.os.sched.mlqReadyQueue prio) ∧ proc ∉ sim.os.sched.runningList ∧
      ∀ id, (sim.cpus id).current ≠ some proc
  inOrder : ∀ proc, ∃ count, executedBy sim.history proc = List.range count
  freedAtEnd : ∀ proc pc size, .freed proc pc size ∈ sim.history → pc = size
  fullQuantum : ∀ (index : Nat) proc, sim.history[index]? = some (.putBack proc) →
    (runsSinceDispatch (sim.history.take index) proc : Int) = timeSlot

theorem clocked_start (timeSlot : Int) (numCpus : Nat) (memramsz memswpsz : Addr)
    (freergHeads : ProcRef → List VmRgStruct) (config : List (List Inst × Nat)) :
    (start numCpus memramsz memswpsz freergHeads config).Clocked timeSlot := by
  refine ⟨fun id proc held => ?_, fun _ _ _ => rfl⟩
  cases held

theorem recorded_start (timeSlot : Int) (numCpus : Nat) (memramsz memswpsz : Addr)
    (freergHeads : ProcRef → List VmRgStruct) (config : List (List Inst × Nat)) :
    (start numCpus memramsz memswpsz freergHeads config).Recorded timeSlot := by
  refine ⟨fun proc => ⟨0, rfl, fun pc counter => ?_⟩, fun _ _ => rfl, fun proc pc size member => ?_,
    fun index proc here => ?_⟩
  · cases counter
  · cases member
  · cases here

theorem Simulated.recorded {timeSlot : Int} {memramsz memswpsz : Addr}
    {config : List (List Inst × Nat)} {sim : Simulator numCpus} (positive : 1 ≤ timeSlot)
    (reached : Simulated timeSlot memramsz memswpsz config sim) :
    sim.Owned ∧ sim.Clocked timeSlot ∧ sim.Recorded timeSlot := by
  rcases reached with ⟨freergHeads, trace, path⟩
  refine path.invariant (fun sim => sim.Owned ∧ sim.Clocked timeSlot ∧ sim.Recorded timeSlot)
    ⟨owned_start numCpus memramsz memswpsz freergHeads config,
      clocked_start timeSlot numCpus memramsz memswpsz freergHeads config,
      recorded_start timeSlot numCpus memramsz memswpsz freergHeads config⟩ ?_
  rintro before action after ⟨owned, clocked, recorded⟩ taken
  have effect := simStep_effect taken
  exact ⟨owned.step effect, clocked.step owned positive effect, recorded.step owned clocked effect⟩

/-- For any number of CPUs, any positive time slot, any configuration and any
interleaving, every state that is reached is orderly. -/
theorem execution_orderly (numCpus : Nat) (timeSlot : Int) (positive : 1 ≤ timeSlot)
    (memramsz memswpsz : Addr) (config : List (List Inst × Nat)) (sim : Simulator numCpus)
    (reached : Simulated timeSlot memramsz memswpsz config sim) : sim.Orderly timeSlot := by
  rcases reached.recorded positive with ⟨owned, _, recorded⟩
  refine ⟨owned.single, fun id proc held => owned.current_live held, fun proc pc size member => ?_,
    fun proc => ?_, fun proc pc size member => (recorded.gone proc pc size member).1,
    recorded.quantum⟩
  · have absent := (recorded.gone proc pc size member).2.1
    have dead : ¬ (sim.os.procs proc).isSome = true := by
      rw [absent]
      exact Bool.false_ne_true
    refine ⟨fun prio queued => dead (owned.live proc ?_), fun listed => dead (owned.listed proc listed),
      fun id held => dead (owned.current_live held)⟩
    have waiting := (waiting_pos_iff sim.os.sched proc).mpr ⟨prio, queued⟩
    rw [Simulator.places]
    omega
  · rcases recorded.order proc with ⟨count, executed, _⟩
    exact ⟨count, executed⟩

end Kernel
end Ossim
