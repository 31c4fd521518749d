import Ossim.Kernel.Process

namespace Ossim
namespace Kernel

open Memory

/-!
# The CPU and loader loops

`cpu_routine` and `ld_routine` of `os.c`, cut at their calls.  A point of the
CPU loop is a place between two of its actions, and each step performs one
locked scheduler call, one `run`, one `free_pcb`, or a test.  The CPUs and the
loader take their steps in any order, so the waits of `next_slot` and the start
times of the configuration only choose among these orders.

A test of a process reads its control block.  A step that would read or run a
released block, or whose instruction leaves an array, has no defined outcome
and is not a step.  `Kernel.Overrun` has the loops that go on there.

`history` is not a variable of the program.  It records what the loops have
done to each process, for the statements about whole runs.
-/

/-! ## State -/

/-- The places of `cpu_routine` between two actions. -/
inductive CpuPoint
  /-- `while (1)`: the test on the current process. -/
  | top
  /-- After `remove_proc`, before `free_pcb`. -/
  | removed
  /-- After `free_pcb`, before `get_proc`. -/
  | freed
  /-- After `put_proc`, before `get_proc`. -/
  | yielded
  /-- The test after a new process was loaded. -/
  | recheck
  /-- Before `run`. -/
  | running
  /-- In `next_slot`. -/
  | slot
  /-- Past the loop. -/
  | stopped
  deriving DecidableEq, Repr

/-- The local variables of `cpu_routine`. -/
structure Cpu where
  point : CpuPoint
  proc : Option ProcRef
  timeLeft : Int

/-- The process that a CPU holds.  After `put_proc` and after `free_pcb` the
variable still has its old value, but the next thing the loop does is to assign
to it. -/
def Cpu.current (cpu : Cpu) : Option ProcRef :=
  match cpu.point with
  | .freed | .yielded => none
  | _ => cpu.proc

inductive Event
  | dispatched (proc : ProcRef)
  /-- One call of `run`, with the index of the instruction it executed. -/
  | ran (proc : ProcRef) (executed : Option Nat)
  | putBack (proc : ProcRef)
  /-- One call of `free_pcb`, with the program counter and the code size. -/
  | freed (proc : ProcRef) (pc size : Nat)
  deriving DecidableEq, Repr

/-- The kernel, the threads that drive it, and what they have done.  `pending`
is the part of the configuration that the loader has not reached. -/
structure Simulator (numCpus : Nat) where
  os : Os
  cpus : Fin numCpus → Cpu
  pending : List (List Inst × Nat)
  done : Bool
  history : List Event

variable {numCpus : Nat}

namespace Simulator

@[simps] def setCpu (sim : Simulator numCpus) (id : Fin numCpus) (cpu : Cpu) :
    Simulator numCpus :=
  { sim with cpus := Function.update sim.cpus id cpu }

@[simps] def setOs (sim : Simulator numCpus) (os : Os) : Simulator numCpus := { sim with os := os }

@[simps] def record (sim : Simulator numCpus) (event : Event) : Simulator numCpus :=
  { sim with history := sim.history ++ [event] }

end Simulator

/-! ## One step of a CPU -/

/-- `proc = get_proc()`, going on to the next point. -/
def takeProc (sim : Simulator numCpus) (id : Fin numCpus) (timeLeft : Int) : Simulator numCpus :=
  match getProc sim.os with
  | (proc, os) => (sim.setOs os).setCpu id ⟨.recheck, proc, timeLeft⟩

/-- The first test of the loop. -/
def stepTop (sim : Simulator numCpus) (id : Fin numCpus) : Option (Simulator numCpus) :=
  let cpu := sim.cpus id
  match cpu.proc with
  | none =>
      match getProc sim.os with
      | (none, os) => some ((sim.setOs os).setCpu id ⟨.slot, none, cpu.timeLeft⟩)
      | (some proc, os) => some ((sim.setOs os).setCpu id ⟨.recheck, some proc, cpu.timeLeft⟩)
  | some proc =>
      match sim.os.procs proc with
      | none => none
      | some pcb =>
          if pcb.pc = pcb.code.length then
            some ((sim.setOs (removeProc sim.os proc)).setCpu id ⟨.removed, some proc, cpu.timeLeft⟩)
          else if cpu.timeLeft = 0 then
            some (((sim.setOs (putProc sim.os proc)).setCpu id
              ⟨.yielded, some proc, cpu.timeLeft⟩).record (.putBack proc))
          else some (sim.setCpu id ⟨.recheck, some proc, cpu.timeLeft⟩)

/-- `free_pcb(proc)`. -/
def stepRemoved (sim : Simulator numCpus) (id : Fin numCpus) : Option (Simulator numCpus) :=
  let cpu := sim.cpus id
  match cpu.proc with
  | none => none
  | some proc =>
      match sim.os.procs proc with
      | none => none
      | some pcb =>
          some (((sim.setOs (freePcb sim.os proc)).setCpu id ⟨.freed, some proc, cpu.timeLeft⟩).record
            (.freed proc pcb.pc pcb.code.length))

/-- The second test of the loop. -/
def stepRecheck (timeSlot : Int) (sim : Simulator numCpus) (id : Fin numCpus) :
    Simulator numCpus :=
  let cpu := sim.cpus id
  match cpu.proc with
  | none =>
      if sim.done then sim.setCpu id ⟨.stopped, none, cpu.timeLeft⟩
      else sim.setCpu id ⟨.slot, none, cpu.timeLeft⟩
  | some proc =>
      if cpu.timeLeft = 0 then
        (sim.setCpu id ⟨.running, some proc, timeSlot⟩).record (.dispatched proc)
      else sim.setCpu id ⟨.running, some proc, cpu.timeLeft⟩

/-- `run(proc); time_left--`. -/
def stepRunning (sim : Simulator numCpus) (id : Fin numCpus) : Option (Simulator numCpus) :=
  let cpu := sim.cpus id
  match cpu.proc with
  | none => none
  | some proc =>
      match sim.os.procs proc with
      | none => none
      | some pcb =>
          if (run sim.os proc).2.Defined then
            some (((sim.setOs (run sim.os proc).2).setCpu id
              ⟨.slot, some proc, cpu.timeLeft - 1⟩).record
                (.ran proc (if pcb.pc < pcb.code.length then some pcb.pc else none)))
          else none

def cpuStep (timeSlot : Int) (sim : Simulator numCpus) (id : Fin numCpus) :
    Option (Simulator numCpus) :=
  let cpu := sim.cpus id
  match cpu.point with
  | .top => stepTop sim id
  | .removed => stepRemoved sim id
  | .freed => some (takeProc sim id 0)
  | .yielded => some (takeProc sim id cpu.timeLeft)
  | .recheck => some (stepRecheck timeSlot sim id)
  | .running => stepRunning sim id
  | .slot => some (sim.setCpu id ⟨.top, cpu.proc, cpu.timeLeft⟩)
  | .stopped => none

/-! ## The loader and the whole system -/

/-- One iteration of the loader, or the assignment to `done` after its last. -/
def loaderStep (sim : Simulator numCpus) : Option (Simulator numCpus) :=
  match sim.pending with
  | (code, prio) :: rest =>
      some { sim with
        os := addProc (load sim.os code prio) sim.os.availPid
        pending := rest }
  | [] => if sim.done then none else some { sim with done := true }

inductive SimAction (numCpus : Nat)
  | cpu (id : Fin numCpus)
  | loader
  deriving DecidableEq, Repr

def simStep (timeSlot : Int) (sim : Simulator numCpus) :
    SimAction numCpus → Option (Simulator numCpus)
  | .cpu id => cpuStep timeSlot sim id
  | .loader => loaderStep sim

/-- The state in which the threads are created. -/
def start (numCpus : Nat) (memramsz memswpsz : Addr) (freergHeads : ProcRef → List VmRgStruct)
    (config : List (List Inst × Nat)) : Simulator numCpus where
  os := boot memramsz memswpsz freergHeads
  cpus := fun _ => ⟨.top, none, 0⟩
  pending := config
  done := false
  history := []

/-- The states reached by any interleaving of the CPUs and the loader, whatever
`init_mm` finds. -/
def Simulated (timeSlot : Int) (memramsz memswpsz : Addr) (config : List (List Inst × Nat))
    (sim : Simulator numCpus) : Prop :=
  ∃ freergHeads trace,
    Transition.Run (simStep timeSlot) (start numCpus memramsz memswpsz freergHeads config) trace sim

theorem Simulated.snoc {timeSlot : Int} {memramsz memswpsz : Addr}
    {config : List (List Inst × Nat)} {before after : Simulator numCpus}
    {action : SimAction numCpus} (reached : Simulated timeSlot memramsz memswpsz config before)
    (taken : simStep timeSlot before action = some after) :
    Simulated timeSlot memramsz memswpsz config after := by
  rcases reached with ⟨freergHeads, trace, path⟩
  exact ⟨freergHeads, trace ++ [action], .snoc path taken⟩

/-! ## What one step does -/

/-- The points at which the loop calls `get_proc`, with the value of
`time_left` after the call. -/
inductive Cpu.Asks (cpu : Cpu) : Int → Prop
  | top (point : cpu.point = .top) (idle : cpu.proc = none) : cpu.Asks cpu.timeLeft
  | freed (point : cpu.point = .freed) : cpu.Asks 0
  | yielded (point : cpu.point = .yielded) : cpu.Asks cpu.timeLeft

/-- The inversion of `simStep`: one constructor for each thing a thread does. -/
inductive SimEffect (timeSlot : Int) (sim : Simulator numCpus) :
    SimAction numCpus → Simulator numCpus → Prop
  | loaded (code : List Inst) (prio : Nat) (rest : List (List Inst × Nat))
      (next : sim.pending = (code, prio) :: rest) :
      SimEffect timeSlot sim .loader
        { sim with os := addProc (load sim.os code prio) sim.os.availPid, pending := rest }
  | closed (last : sim.pending = []) (unset : sim.done = false) :
      SimEffect timeSlot sim .loader { sim with done := true }
  | acquired (id : Fin numCpus) (timeLeft : Int) (proc : ProcRef) (os : Os)
      (asks : (sim.cpus id).Asks timeLeft) (got : getProc sim.os = (some proc, os)) :
      SimEffect timeSlot sim (.cpu id) ((sim.setOs os).setCpu id ⟨.recheck, some proc, timeLeft⟩)
  | skipped (id : Fin numCpus) (os : Os) (point : (sim.cpus id).point = .top)
      (idle : (sim.cpus id).proc = none) (got : getProc sim.os = (none, os)) :
      SimEffect timeSlot sim (.cpu id)
        ((sim.setOs os).setCpu id ⟨.slot, none, (sim.cpus id).timeLeft⟩)
  | emptied (id : Fin numCpus) (timeLeft : Int) (os : Os) (asks : (sim.cpus id).Asks timeLeft)
      (elsewhere : (sim.cpus id).point ≠ .top) (got : getProc sim.os = (none, os)) :
      SimEffect timeSlot sim (.cpu id) ((sim.setOs os).setCpu id ⟨.recheck, none, timeLeft⟩)
  | removed (id : Fin numCpus) (proc : ProcRef) (pcb : Pcb) (point : (sim.cpus id).point = .top)
      (holds : (sim.cpus id).proc = some proc) (found : sim.os.procs proc = some pcb)
      (ended : pcb.pc = pcb.code.length) :
      SimEffect timeSlot sim (.cpu id) ((sim.setOs (removeProc sim.os proc)).setCpu id
        ⟨.removed, some proc, (sim.cpus id).timeLeft⟩)
  | putBack (id : Fin numCpus) (proc : ProcRef) (pcb : Pcb) (point : (sim.cpus id).point = .top)
      (holds : (sim.cpus id).proc = some proc) (found : sim.os.procs proc = some pcb)
      (unfinished : pcb.pc ≠ pcb.code.length) (spent : (sim.cpus id).timeLeft = 0) :
      SimEffect timeSlot sim (.cpu id) (((sim.setOs (putProc sim.os proc)).setCpu id
        ⟨.yielded, some proc, (sim.cpus id).timeLeft⟩).record (.putBack proc))
  | kept (id : Fin numCpus) (proc : ProcRef) (pcb : Pcb) (point : (sim.cpus id).point = .top)
      (holds : (sim.cpus id).proc = some proc) (found : sim.os.procs proc = some pcb)
      (unfinished : pcb.pc ≠ pcb.code.length) (left : (sim.cpus id).timeLeft ≠ 0) :
      SimEffect timeSlot sim (.cpu id) (sim.setCpu id ⟨.recheck, some proc, (sim.cpus id).timeLeft⟩)
  | freed (id : Fin numCpus) (proc : ProcRef) (pcb : Pcb)
      (point : (sim.cpus id).point = .removed) (holds : (sim.cpus id).proc = some proc)
      (found : sim.os.procs proc = some pcb) :
      SimEffect timeSlot sim (.cpu id) (((sim.setOs (freePcb sim.os proc)).setCpu id
        ⟨.freed, some proc, (sim.cpus id).timeLeft⟩).record (.freed proc pcb.pc pcb.code.length))
  | stopped (id : Fin numCpus) (point : (sim.cpus id).point = .recheck)
      (idle : (sim.cpus id).proc = none) (closing : sim.done = true) :
      SimEffect timeSlot sim (.cpu id) (sim.setCpu id ⟨.stopped, none, (sim.cpus id).timeLeft⟩)
  | waiting (id : Fin numCpus) (point : (sim.cpus id).point = .recheck)
      (idle : (sim.cpus id).proc = none) (loading : sim.done = false) :
      SimEffect timeSlot sim (.cpu id) (sim.setCpu id ⟨.slot, none, (sim.cpus id).timeLeft⟩)
  | dispatched (id : Fin numCpus) (proc : ProcRef) (point : (sim.cpus id).point = .recheck)
      (holds : (sim.cpus id).proc = some proc) (spent : (sim.cpus id).timeLeft = 0) :
      SimEffect timeSlot sim (.cpu id)
        ((sim.setCpu id ⟨.running, some proc, timeSlot⟩).record (.dispatched proc))
  | resumed (id : Fin numCpus) (proc : ProcRef) (point : (sim.cpus id).point = .recheck)
      (holds : (sim.cpus id).proc = some proc) (left : (sim.cpus id).timeLeft ≠ 0) :
      SimEffect timeSlot sim (.cpu id) (sim.setCpu id ⟨.running, some proc, (sim.cpus id).timeLeft⟩)
  | ran (id : Fin numCpus) (proc : ProcRef) (pcb : Pcb) (point : (sim.cpus id).point = .running)
      (holds : (sim.cpus id).proc = some proc) (found : sim.os.procs proc = some pcb)
      (defined : (run sim.os proc).2.Defined) :
      SimEffect timeSlot sim (.cpu id) (((sim.setOs (run sim.os proc).2).setCpu id
        ⟨.slot, some proc, (sim.cpus id).timeLeft - 1⟩).record
          (.ran proc (if pcb.pc < pcb.code.length then some pcb.pc else none)))
  | nextSlot (id : Fin numCpus) (point : (sim.cpus id).point = .slot) :
      SimEffect timeSlot sim (.cpu id)
        (sim.setCpu id ⟨.top, (sim.cpus id).proc, (sim.cpus id).timeLeft⟩)

private theorem takeProc_effect {timeSlot timeLeft : Int} {sim : Simulator numCpus}
    {id : Fin numCpus} (asks : (sim.cpus id).Asks timeLeft)
    (elsewhere : (sim.cpus id).point ≠ .top) :
    SimEffect timeSlot sim (.cpu id) (takeProc sim id timeLeft) := by
  unfold takeProc
  cases got : getProc sim.os with
  | mk proc os =>
      cases proc with
      | none => exact .emptied id timeLeft os asks elsewhere got
      | some proc => exact .acquired id timeLeft proc os asks got

private theorem stepTop_effect {timeSlot : Int} {sim after : Simulator numCpus} {id : Fin numCpus}
    (point : (sim.cpus id).point = .top) (taken : stepTop sim id = some after) :
    SimEffect timeSlot sim (.cpu id) after := by
  unfold stepTop at taken
  dsimp only at taken
  cases holds : (sim.cpus id).proc with
  | none =>
      rw [holds] at taken
      dsimp only at taken
      cases got : getProc sim.os with
      | mk proc os =>
          rw [got] at taken
          cases proc with
          | none =>
              cases taken
              exact .skipped id os point holds got
          | some proc =>
              cases taken
              exact .acquired id _ proc os (.top point holds) got
  | some proc =>
      rw [holds] at taken
      dsimp only at taken
      cases found : sim.os.procs proc with
      | none =>
          rw [found] at taken
          cases taken
      | some pcb =>
          rw [found] at taken
          dsimp only at taken
          by_cases ended : pcb.pc = pcb.code.length
          · rw [if_pos ended] at taken
            cases taken
            exact .removed id proc pcb point holds found ended
          · rw [if_neg ended] at taken
            by_cases spent : (sim.cpus id).timeLeft = 0
            · rw [if_pos spent] at taken
              cases taken
              exact .putBack id proc pcb point holds found ended spent
            · rw [if_neg spent] at taken
              cases taken
              exact .kept id proc pcb point holds found ended spent

private theorem stepRemoved_effect {timeSlot : Int} {sim after : Simulator numCpus}
    {id : Fin numCpus} (point : (sim.cpus id).point = .removed)
    (taken : stepRemoved sim id = some after) : SimEffect timeSlot sim (.cpu id) after := by
  unfold stepRemoved at taken
  dsimp only at taken
  cases holds : (sim.cpus id).proc with
  | none =>
      rw [holds] at taken
      cases taken
  | some proc =>
      rw [holds] at taken
      dsimp only at taken
      cases found : sim.os.procs proc with
      | none =>
          rw [found] at taken
          cases taken
      | some pcb =>
          rw [found] at taken
          dsimp only at taken
          rw [← Option.some.inj taken]
          exact .freed id proc pcb point holds found

private theorem stepRecheck_effect {timeSlot : Int} {sim : Simulator numCpus} {id : Fin numCpus}
    (point : (sim.cpus id).point = .recheck) :
    SimEffect timeSlot sim (.cpu id) (stepRecheck timeSlot sim id) := by
  unfold stepRecheck
  dsimp only
  cases holds : (sim.cpus id).proc with
  | none =>
      cases closing : sim.done with
      | false => exact .waiting id point holds closing
      | true => exact .stopped id point holds closing
  | some proc =>
      dsimp only
      by_cases spent : (sim.cpus id).timeLeft = 0
      · rw [if_pos spent]
        exact .dispatched id proc point holds spent
      · rw [if_neg spent]
        exact .resumed id proc point holds spent

private theorem stepRunning_effect {timeSlot : Int} {sim after : Simulator numCpus}
    {id : Fin numCpus} (point : (sim.cpus id).point = .running)
    (taken : stepRunning sim id = some after) : SimEffect timeSlot sim (.cpu id) after := by
  unfold stepRunning at taken
  dsimp only at taken
  cases holds : (sim.cpus id).proc with
  | none =>
      rw [holds] at taken
      cases taken
  | some proc =>
      rw [holds] at taken
      dsimp only at taken
      cases found : sim.os.procs proc with
      | none =>
          rw [found] at taken
          cases taken
      | some pcb =>
          rw [found] at taken
          dsimp only at taken
          by_cases defined : (run sim.os proc).2.Defined
          · rw [if_pos defined] at taken
            cases taken
            exact .ran id proc pcb point holds found defined
          · rw [if_neg defined] at taken
            cases taken

theorem cpuStep_effect {timeSlot : Int} {sim after : Simulator numCpus} {id : Fin numCpus}
    (taken : cpuStep timeSlot sim id = some after) : SimEffect timeSlot sim (.cpu id) after := by
  unfold cpuStep at taken
  cases point : (sim.cpus id).point with
  | top =>
      simp only [point] at taken
      exact stepTop_effect point taken
  | removed =>
      simp only [point] at taken
      exact stepRemoved_effect point taken
  | freed =>
      simp only [point, Option.some.injEq] at taken
      subst taken
      exact takeProc_effect (.freed point) (by rw [point]; exact CpuPoint.noConfusion)
  | yielded =>
      simp only [point, Option.some.injEq] at taken
      subst taken
      exact takeProc_effect (.yielded point) (by rw [point]; exact CpuPoint.noConfusion)
  | recheck =>
      simp only [point, Option.some.injEq] at taken
      subst taken
      exact stepRecheck_effect point
  | running =>
      simp only [point] at taken
      exact stepRunning_effect point taken
  | slot =>
      simp only [point, Option.some.injEq] at taken
      subst taken
      exact .nextSlot id point
  | stopped =>
      simp only [point] at taken
      cases taken

theorem simStep_effect {timeSlot : Int} {sim after : Simulator numCpus}
    {action : SimAction numCpus} (taken : simStep timeSlot sim action = some after) :
    SimEffect timeSlot sim action after := by
  cases action with
  | cpu id => exact cpuStep_effect taken
  | loader =>
      have moved : loaderStep sim = some after := taken
      clear taken
      unfold loaderStep at moved
      split at moved
      · next code prio rest next =>
          rw [← Option.some.inj moved]
          exact .loaded code prio rest next
      · next next =>
          rw [Option.ite_none_left_eq_some] at moved
          rw [← Option.some.inj moved.2]
          exact .closed next (Bool.eq_false_iff.mpr moved.1)

end Kernel
end Ossim
