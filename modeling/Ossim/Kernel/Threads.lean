import Ossim.Kernel.Lockstep
import Ossim.Kernel.Ownership

namespace Ossim
namespace Kernel

open Memory

/-!
# The threads of `main`

`main` attaches one device for every CPU and one for the loader, starts the
timer, and creates the threads.  Here the CPU and loader loops are put together
with the tick barrier.  A thread that is in `next_slot` goes through its two
critical sections, the loader compares `current_time()` with the start time of
its next process, and every thread detaches its device at its end.  `main` joins
them all before `stop_timer`.

The CPU loops alone admit orders in which one CPU runs ahead of the others, and
the barrier alone says nothing about processes.  The steps of this system are
steps of both parts, so what is known of either holds here.

`log` is not a variable of the program.
-/

/-! ## State -/

/-- The places of `ld_routine` between two actions. -/
inductive LoaderPoint
  /-- The tests of the two loops. -/
  | ready
  /-- In `next_slot`, of either loop. -/
  | slot
  /-- After `done = 1`. -/
  | closing
  deriving DecidableEq, Repr

/-- What the threads have done, with the number of ticks before it. -/
inductive LogEntry (numCpus : Nat)
  /-- A CPU called `run`. -/
  | ran (id : Fin numCpus) (tick : Nat)
  /-- The loader called `add_proc`. -/
  | added (tick : Nat)
  deriving DecidableEq, Repr

/-- The threads that `main` creates.  `startTimes` belongs to the processes that
the loader has not added. -/
structure Threads (numCpus : Nat) where
  sim : Simulator numCpus
  barrier : Barrier (numCpus + 1)
  loader : LoaderPoint
  startTimes : List (BitVec 64)
  log : List (LogEntry numCpus)

inductive ThreadAction (numCpus : Nat)
  | timer
  | cpu (id : Fin numCpus)
  | loader
  /-- `stop_timer` in `main`. -/
  | main
  deriving DecidableEq, Repr

variable {numCpus : Nat}

/-- `attach_event` puts each new device in front of `dev_list`, and the loader
attaches last. -/
def loaderDevice : Fin (numCpus + 1) := 0

def cpuDevice (id : Fin numCpus) : Fin (numCpus + 1) := id.rev.succ

/-- The number of ticks so far, of which `_time` keeps 64 bits. -/
def Threads.clock (threads : Threads numCpus) : Nat := ticks threads.barrier.history

/-! ## One step of a thread -/

/-- `next_slot`, from either of its critical sections.  The second component
says whether the call returns. -/
def Barrier.nextSlot (barrier : Barrier (numCpus + 1)) (device : Fin (numCpus + 1)) :
    Option (Barrier (numCpus + 1) × Bool) :=
  match (barrier.devList device).point with
  | .inSlot => (barrierStep barrier (.tell device)).map fun next => (next, false)
  | .waiting => (barrierStep barrier (.proceed device)).map fun next => (next, true)
  | .detached => none

def cpuThread (timeSlot : Int) (threads : Threads numCpus) (id : Fin numCpus) :
    Option (Threads numCpus) :=
  match (threads.sim.cpus id).point with
  | .slot =>
      match threads.barrier.nextSlot (cpuDevice id) with
      | none => none
      | some (barrier, false) => some { threads with barrier := barrier }
      | some (barrier, true) =>
          (cpuStep timeSlot threads.sim id).map fun sim =>
            { threads with sim := sim, barrier := barrier }
  | .stopped =>
      (barrierStep threads.barrier (.detachEvent (cpuDevice id))).map fun barrier =>
        { threads with barrier := barrier }
  | .running =>
      (cpuStep timeSlot threads.sim id).map fun sim =>
        { threads with sim := sim, log := threads.log ++ [.ran id threads.clock] }
  | _ => (cpuStep timeSlot threads.sim id).map fun sim => { threads with sim := sim }

def loaderThread (threads : Threads numCpus) : Option (Threads numCpus) :=
  match threads.loader with
  | .ready =>
      match threads.startTimes with
      | startTime :: rest =>
          if threads.barrier.time < startTime then some { threads with loader := .slot }
          else
            (loaderStep threads.sim).map fun sim =>
              { threads with
                sim := sim
                loader := .slot
                startTimes := rest
                log := threads.log ++ [.added threads.clock] }
      | [] =>
          (loaderStep threads.sim).map fun sim => { threads with sim := sim, loader := .closing }
  | .slot =>
      match threads.barrier.nextSlot loaderDevice with
      | none => none
      | some (barrier, false) => some { threads with barrier := barrier }
      | some (barrier, true) => some { threads with barrier := barrier, loader := .ready }
  | .closing =>
      (barrierStep threads.barrier (.detachEvent loaderDevice)).map fun barrier =>
        { threads with barrier := barrier }

/-- `stop_timer` follows the joins. -/
def mainThread (threads : Threads numCpus) : Option (Threads numCpus) :=
  if threads.barrier.timerStop = false ∧
      ∀ device, (threads.barrier.devList device).point = .detached then
    (barrierStep threads.barrier .stopTimer).map fun barrier => { threads with barrier := barrier }
  else none

def threadStep (timeSlot : Int) (threads : Threads numCpus) :
    ThreadAction numCpus → Option (Threads numCpus)
  | .timer => (timerStep threads.barrier).map fun barrier => { threads with barrier := barrier }
  | .cpu id => cpuThread timeSlot threads id
  | .loader => loaderThread threads
  | .main => mainThread threads

/-- A process of the configuration: its start time, its program, its priority. -/
structure ProcessSpec where
  startTime : BitVec 64
  code : List Inst
  prio : Nat

/-- What `main` has set up when it has created the threads. -/
def create (numCpus : Nat) (memramsz memswpsz : Addr) (freergHeads : ProcRef → List VmRgStruct)
    (config : List ProcessSpec) : Threads numCpus where
  sim := start numCpus memramsz memswpsz freergHeads
    (config.map fun spec => (spec.code, spec.prio))
  barrier := startTimer (numCpus + 1)
  loader := .ready
  startTimes := config.map ProcessSpec.startTime
  log := []

/-- The states that the threads reach in any order of their steps, whatever
`init_mm` finds. -/
def Threaded (timeSlot : Int) (memramsz memswpsz : Addr) (config : List ProcessSpec)
    (threads : Threads numCpus) : Prop :=
  ∃ freergHeads trace, Transition.Run (threadStep timeSlot)
    (create numCpus memramsz memswpsz freergHeads config) trace threads

theorem Threaded.snoc {timeSlot : Int} {memramsz memswpsz : Addr} {config : List ProcessSpec}
    {before after : Threads numCpus} {action : ThreadAction numCpus}
    (reached : Threaded timeSlot memramsz memswpsz config before)
    (taken : threadStep timeSlot before action = some after) :
    Threaded timeSlot memramsz memswpsz config after := by
  rcases reached with ⟨freergHeads, trace, path⟩
  exact ⟨freergHeads, trace ++ [action], .snoc path taken⟩

/-- One process of one instruction, which the only CPU misses in the first tick. -/
def oneCalc : List ProcessSpec := [⟨0, [⟨.CALC, 0, 0, 0, 0⟩], 0⟩]

/-- The order of the threads up to the end of the CPU. -/
def oneCalcTrace : List (ThreadAction 1) :=
  let cpu : ThreadAction 1 := .cpu ⟨0, Nat.one_pos⟩
  [cpu, cpu, .loader, .loader] ++ List.replicate 7 .timer ++
    [.loader, .loader, .loader, cpu, cpu, cpu, cpu, cpu] ++ List.replicate 7 .timer ++
      List.replicate 6 cpu ++ List.replicate 4 .timer

theorem oneCalc_reached : ∃ threads : Threads 1, Threaded 1 1024 0 oneCalc threads ∧
    (∀ id, (threads.sim.cpus id).point = .stopped) ∧ threads.clock = 3 := by
  have executed : ((Transition.exec (threadStep 1) (fun _ _ => True)
      (create 1 1024 0 nullHeads oneCalc) oneCalcTrace).map fun threads => ((threads.sim.cpus 0).point, threads.clock)) =
        some (.stopped, 3) := by
    decide +kernel
  rw [Option.map_eq_some_iff] at executed
  rcases executed with ⟨threads, finished, facts⟩
  rw [Prod.mk.injEq] at facts
  refine ⟨threads, ⟨_, _, (Transition.runWhere_of_exec finished).run⟩, fun id => ?_, facts.2⟩
  rw [Subsingleton.elim id 0]
  exact facts.1

/-- Two processes that start in different ticks. -/
def twoCalcs : List ProcessSpec :=
  [⟨0, List.replicate 4 ⟨.CALC, 0, 0, 0, 0⟩, 0⟩, ⟨1, List.replicate 4 ⟨.CALC, 0, 0, 0, 0⟩, 1⟩]

/-- An order of the threads up to the end of the third tick. -/
def twoCalcsTrace : List (ThreadAction 2) :=
  let first : ThreadAction 2 := .cpu ⟨0, Nat.two_pos⟩
  let second : ThreadAction 2 := .cpu ⟨1, Nat.one_lt_two⟩
  let tick := List.replicate 7 .timer ++ List.replicate 3 .loader ++
    .timer :: List.replicate 5 second ++ .timer :: List.replicate 5 first
  [first, first, second, second, .loader, .loader, .timer] ++ tick ++ tick ++
    List.replicate 6 .timer

theorem twoCalcs_reached : ∃ (threads : Threads 2) (trace : List (ThreadAction 2)),
    Transition.Run (threadStep 2) (create 2 1024 0 nullHeads twoCalcs) trace threads ∧
      threads.clock = 3 ∧ threads.sim.os.availPid = 3 := by
  have executed : ((Transition.exec (threadStep 2) (fun _ _ => True)
      (create 2 1024 0 nullHeads twoCalcs) twoCalcsTrace).map fun threads =>
        (threads.clock, threads.sim.os.availPid)) = some (3, 3) := by
    decide +kernel
  rw [Option.map_eq_some_iff] at executed
  rcases executed with ⟨threads, finished, facts⟩
  rw [Prod.mk.injEq] at facts
  exact ⟨threads, twoCalcsTrace, (Transition.runWhere_of_exec finished).run, facts.1, facts.2⟩

/-! ## What one step does -/

/-- The inversion of `threadStep`: a section of the timer, an action of the CPU
or loader loop inside its slot, a section of `next_slot`, or an end. -/
inductive ThreadEffect (timeSlot : Int) (threads : Threads numCpus) : Threads numCpus → Prop
  | timer (barrier : Barrier (numCpus + 1)) (taken : timerStep threads.barrier = some barrier) :
      ThreadEffect timeSlot threads { threads with barrier := barrier }
  /-- The loop of a CPU goes on, without calling `run`. -/
  | worked (id : Fin numCpus) (sim : Simulator numCpus)
      (outside : (threads.sim.cpus id).point ≠ .slot ∧ (threads.sim.cpus id).point ≠ .running ∧
        (threads.sim.cpus id).point ≠ .stopped)
      (moved : simStep timeSlot threads.sim (.cpu id) = some sim) :
      ThreadEffect timeSlot threads { threads with sim := sim }
  | ran (id : Fin numCpus) (sim : Simulator numCpus)
      (point : (threads.sim.cpus id).point = .running)
      (moved : simStep timeSlot threads.sim (.cpu id) = some sim) :
      ThreadEffect timeSlot threads
        { threads with sim := sim, log := threads.log ++ [.ran id threads.clock] }
  | cpuTold (id : Fin numCpus) (barrier : Barrier (numCpus + 1))
      (point : (threads.sim.cpus id).point = .slot)
      (taken : barrierStep threads.barrier (.tell (cpuDevice id)) = some barrier) :
      ThreadEffect timeSlot threads { threads with barrier := barrier }
  | cpuBegan (id : Fin numCpus) (barrier : Barrier (numCpus + 1)) (sim : Simulator numCpus)
      (point : (threads.sim.cpus id).point = .slot)
      (taken : barrierStep threads.barrier (.proceed (cpuDevice id)) = some barrier)
      (moved : simStep timeSlot threads.sim (.cpu id) = some sim) :
      ThreadEffect timeSlot threads { threads with sim := sim, barrier := barrier }
  | cpuDetached (id : Fin numCpus) (barrier : Barrier (numCpus + 1))
      (point : (threads.sim.cpus id).point = .stopped)
      (taken : barrierStep threads.barrier (.detachEvent (cpuDevice id)) = some barrier) :
      ThreadEffect timeSlot threads { threads with barrier := barrier }
  /-- The start time of the next process is not reached. -/
  | postponed (startTime : BitVec 64) (rest : List (BitVec 64)) (point : threads.loader = .ready)
      (next : threads.startTimes = startTime :: rest) (early : threads.barrier.time < startTime) :
      ThreadEffect timeSlot threads { threads with loader := .slot }
  | added (startTime : BitVec 64) (rest : List (BitVec 64)) (sim : Simulator numCpus)
      (point : threads.loader = .ready) (next : threads.startTimes = startTime :: rest)
      (due : ¬ threads.barrier.time < startTime)
      (moved : simStep timeSlot threads.sim .loader = some sim) :
      ThreadEffect timeSlot threads
        { threads with
          sim := sim
          loader := .slot
          startTimes := rest
          log := threads.log ++ [.added threads.clock] }
  | closed (sim : Simulator numCpus) (point : threads.loader = .ready)
      (last : threads.startTimes = [])
      (moved : simStep timeSlot threads.sim .loader = some sim) :
      ThreadEffect timeSlot threads { threads with sim := sim, loader := .closing }
  | loaderTold (barrier : Barrier (numCpus + 1)) (point : threads.loader = .slot)
      (taken : barrierStep threads.barrier (.tell loaderDevice) = some barrier) :
      ThreadEffect timeSlot threads { threads with barrier := barrier }
  | loaderBegan (barrier : Barrier (numCpus + 1)) (point : threads.loader = .slot)
      (taken : barrierStep threads.barrier (.proceed loaderDevice) = some barrier) :
      ThreadEffect timeSlot threads { threads with barrier := barrier, loader := .ready }
  | loaderDetached (barrier : Barrier (numCpus + 1)) (point : threads.loader = .closing)
      (taken : barrierStep threads.barrier (.detachEvent loaderDevice) = some barrier) :
      ThreadEffect timeSlot threads { threads with barrier := barrier }
  | halted (unset : threads.barrier.timerStop = false)
      (all : ∀ device, (threads.barrier.devList device).point = .detached) :
      ThreadEffect timeSlot threads
        { threads with barrier := { threads.barrier with timerStop := true } }

/-- The two ways through `next_slot`. -/
theorem nextSlot_cases {barrier after : Barrier (numCpus + 1)} {device : Fin (numCpus + 1)}
    {returned : Bool} (taken : barrier.nextSlot device = some (after, returned)) :
    (returned = false ∧ barrierStep barrier (.tell device) = some after) ∨
      (returned = true ∧ barrierStep barrier (.proceed device) = some after) := by
  unfold Barrier.nextSlot at taken
  split at taken
  · rw [Option.map_eq_some_iff] at taken
    rcases taken with ⟨next, told, same⟩
    cases same
    exact Or.inl ⟨rfl, told⟩
  · rw [Option.map_eq_some_iff] at taken
    rcases taken with ⟨next, began, same⟩
    cases same
    exact Or.inr ⟨rfl, began⟩
  · cases taken

theorem cpuThread_effect {timeSlot : Int} {threads after : Threads numCpus} {id : Fin numCpus}
    (taken : cpuThread timeSlot threads id = some after) : ThreadEffect timeSlot threads after := by
  unfold cpuThread at taken
  split at taken
  · next point =>
      split at taken
      · cases taken
      · next barrier through =>
          cases taken
          rcases nextSlot_cases through with ⟨_, told⟩ | ⟨impossible, _⟩
          · exact .cpuTold id barrier point told
          · cases impossible
      · next barrier through =>
          rw [Option.map_eq_some_iff] at taken
          rcases taken with ⟨sim, moved, rfl⟩
          rcases nextSlot_cases through with ⟨impossible, _⟩ | ⟨_, began⟩
          · cases impossible
          · exact .cpuBegan id barrier sim point began moved
  · next point =>
      rw [Option.map_eq_some_iff] at taken
      rcases taken with ⟨barrier, detached, rfl⟩
      exact .cpuDetached id barrier point detached
  · next point =>
      rw [Option.map_eq_some_iff] at taken
      rcases taken with ⟨sim, moved, rfl⟩
      exact .ran id sim point moved
  · next unslotted unstopped unrun =>
      rw [Option.map_eq_some_iff] at taken
      rcases taken with ⟨sim, moved, rfl⟩
      exact .worked id sim ⟨unslotted, unrun, unstopped⟩ moved

theorem loaderThread_effect {timeSlot : Int} {threads after : Threads numCpus}
    (taken : loaderThread threads = some after) : ThreadEffect timeSlot threads after := by
  unfold loaderThread at taken
  split at taken
  · next point =>
      split at taken
      · next startTime rest next =>
          split at taken
          · next early =>
              cases taken
              exact .postponed startTime rest point next early
          · next due =>
              rw [Option.map_eq_some_iff] at taken
              rcases taken with ⟨sim, moved, rfl⟩
              exact .added startTime rest sim point next due moved
      · next last =>
          rw [Option.map_eq_some_iff] at taken
          rcases taken with ⟨sim, moved, rfl⟩
          exact .closed sim point last moved
  · next point =>
      split at taken
      · cases taken
      · next barrier through =>
          cases taken
          rcases nextSlot_cases through with ⟨_, told⟩ | ⟨impossible, _⟩
          · exact .loaderTold barrier point told
          · cases impossible
      · next barrier through =>
          cases taken
          rcases nextSlot_cases through with ⟨impossible, _⟩ | ⟨_, began⟩
          · cases impossible
          · exact .loaderBegan barrier point began
  · next point =>
      rw [Option.map_eq_some_iff] at taken
      rcases taken with ⟨barrier, detached, rfl⟩
      exact .loaderDetached barrier point detached

theorem threadStep_effect {timeSlot : Int} {threads after : Threads numCpus}
    {action : ThreadAction numCpus} (taken : threadStep timeSlot threads action = some after) :
    ThreadEffect timeSlot threads after := by
  cases action with
  | timer =>
      rw [threadStep, Option.map_eq_some_iff] at taken
      rcases taken with ⟨barrier, moved, rfl⟩
      exact .timer barrier moved
  | cpu id => exact cpuThread_effect taken
  | loader => exact loaderThread_effect taken
  | main =>
      rw [threadStep, mainThread, Option.ite_none_right_eq_some] at taken
      rcases taken with ⟨joined, moved⟩
      cases moved
      exact .halted joined.1 joined.2

/-! ## The parts -/

section Step

variable {timeSlot : Int} {threads after : Threads numCpus}

/-- A step acts on the loops as one of their own steps, or not at all. -/
theorem ThreadEffect.sim (effect : ThreadEffect timeSlot threads after) :
    after.sim = threads.sim ∨ ∃ action, simStep timeSlot threads.sim action = some after.sim := by
  cases effect with
  | worked id _ _ moved => exact Or.inr ⟨.cpu id, moved⟩
  | ran id _ _ moved => exact Or.inr ⟨.cpu id, moved⟩
  | cpuBegan id _ _ _ _ moved => exact Or.inr ⟨.cpu id, moved⟩
  | added _ _ _ _ _ _ moved => exact Or.inr ⟨.loader, moved⟩
  | closed _ _ _ moved => exact Or.inr ⟨.loader, moved⟩
  | timer _ _ => exact Or.inl rfl
  | cpuTold _ _ _ _ => exact Or.inl rfl
  | cpuDetached _ _ _ _ => exact Or.inl rfl
  | postponed _ _ _ _ _ => exact Or.inl rfl
  | loaderTold _ _ _ => exact Or.inl rfl
  | loaderBegan _ _ _ => exact Or.inl rfl
  | loaderDetached _ _ _ => exact Or.inl rfl
  | halted _ _ => exact Or.inl rfl

/-- A step acts on the barrier as one of its own steps, or not at all. -/
theorem ThreadEffect.barrier (effect : ThreadEffect timeSlot threads after) :
    after.barrier = threads.barrier ∨
      ∃ action, barrierStep threads.barrier action = some after.barrier := by
  cases effect with
  | timer _ taken => exact Or.inr ⟨.timer, taken⟩
  | cpuTold id _ _ taken => exact Or.inr ⟨.tell (cpuDevice id), taken⟩
  | cpuBegan id _ _ _ taken _ => exact Or.inr ⟨.proceed (cpuDevice id), taken⟩
  | cpuDetached id _ _ taken => exact Or.inr ⟨.detachEvent (cpuDevice id), taken⟩
  | loaderTold _ _ taken => exact Or.inr ⟨.tell loaderDevice, taken⟩
  | loaderBegan _ _ taken => exact Or.inr ⟨.proceed loaderDevice, taken⟩
  | loaderDetached _ _ taken => exact Or.inr ⟨.detachEvent loaderDevice, taken⟩
  | halted _ _ => exact Or.inr ⟨.stopTimer, rfl⟩
  | worked _ _ _ _ => exact Or.inl rfl
  | ran _ _ _ _ => exact Or.inl rfl
  | postponed _ _ _ _ _ => exact Or.inl rfl
  | added _ _ _ _ _ _ _ => exact Or.inl rfl
  | closed _ _ _ _ => exact Or.inl rfl

end Step

/-- The threads refine both parts: the loops are in a state of `Simulated`, and
the barrier in one of `Ticking`. -/
theorem Threaded.parts {timeSlot : Int} {memramsz memswpsz : Addr} {config : List ProcessSpec}
    {threads : Threads numCpus} (reached : Threaded timeSlot memramsz memswpsz config threads) :
    Simulated timeSlot memramsz memswpsz (config.map fun spec => (spec.code, spec.prio))
        threads.sim ∧ Ticking threads.barrier := by
  rcases reached with ⟨freergHeads, trace, path⟩
  constructor
  · exact ⟨freergHeads, path.project Threads.sim (simStep timeSlot) fun _ _ _ taken =>
      (threadStep_effect taken).sim⟩
  · exact path.project Threads.barrier barrierStep fun _ _ _ taken =>
      (threadStep_effect taken).barrier

/-- The invariant rule of the threads.  The preservation step may use what holds
of every state that they reach. -/
theorem Threaded.invariant {timeSlot : Int} {memramsz memswpsz : Addr} {config : List ProcessSpec}
    {threads : Threads numCpus} (reached : Threaded timeSlot memramsz memswpsz config threads)
    (Inv : Threads numCpus → Prop)
    (base : ∀ freergHeads, Inv (create numCpus memramsz memswpsz freergHeads config))
    (preserved : ∀ before after, Inv before →
      Threaded timeSlot memramsz memswpsz config before →
        ThreadEffect timeSlot before after → Inv after) :
    Inv threads := by
  rcases reached with ⟨freergHeads, trace, path⟩
  have tracked : Threaded timeSlot memramsz memswpsz config threads ∧ Inv threads := by
    refine path.invariant (fun threads =>
      Threaded timeSlot memramsz memswpsz config threads ∧ Inv threads)
      ⟨⟨freergHeads, [], .nil⟩, base freergHeads⟩ ?_
    rintro before action after ⟨earlier, holds⟩ taken
    exact ⟨earlier.snoc taken, preserved before after holds earlier (threadStep_effect taken)⟩
  exact tracked.2

end Kernel
end Ossim
