import Ossim.Kernel.Slices
import Ossim.Kernel.Turns

namespace Ossim
namespace Kernel

open Memory

/-!
# When the processes are added

The loader looks at the clock once in every slot and adds its next process when
the start time has come.  Then it waits for the next slot.  So the ticks at which
processes are added follow from the start times alone, whatever the CPUs do: a
start time that has passed, or is the same as that of the process before, delays
the process to the next tick.

`current_time()` has 64 bits, so this holds as long as it has not wrapped.
-/

variable {numCpus : Nat}

/-- The ticks at which processes with these start times are added, when the first
of them is looked at in this tick. -/
def arrivalsFrom (earliest : Nat) : List (BitVec 64) → List Nat
  | [] => []
  | startTime :: rest =>
      max earliest startTime.toNat :: arrivalsFrom (max earliest startTime.toNat + 1) rest

/-- The ticks at which the processes of a configuration are added. -/
def arrivals (config : List ProcessSpec) : List Nat :=
  arrivalsFrom 0 (config.map ProcessSpec.startTime)

theorem le_of_mem_arrivalsFrom {earliest tick : Nat} {startTimes : List (BitVec 64)}
    (member : tick ∈ arrivalsFrom earliest startTimes) : earliest ≤ tick := by
  induction startTimes generalizing earliest with
  | nil => cases member
  | cons startTime rest inductionHypothesis =>
      rcases List.mem_cons.mp member with same | later
      · rw [same]
        exact le_max_left _ _
      · exact le_trans (Nat.le_succ_of_le (le_max_left _ _)) (inductionHypothesis later)

theorem length_arrivalsFrom (earliest : Nat) (startTimes : List (BitVec 64)) :
    (arrivalsFrom earliest startTimes).length = startTimes.length := by
  induction startTimes generalizing earliest with
  | nil => rfl
  | cons startTime rest inductionHypothesis =>
      exact congrArg Nat.succ (inductionHypothesis _)

def LogEntry.addTick : LogEntry numCpus → Option Nat
  | .ran _ _ => none
  | .added tick => some tick

/-- The ticks at which the loader added processes. -/
def addTicks (log : List (LogEntry numCpus)) : List Nat := log.filterMap LogEntry.addTick

@[simp] theorem addTicks_ran (log : List (LogEntry numCpus)) (id : Fin numCpus) (tick : Nat) :
    addTicks (log ++ [.ran id tick]) = addTicks log := by
  simp [addTicks, LogEntry.addTick]

@[simp] theorem addTicks_added (log : List (LogEntry numCpus)) (tick : Nat) :
    addTicks (log ++ [.added tick]) = addTicks log ++ [tick] := by
  simp [addTicks, LogEntry.addTick]

/-! ## The invariant -/

namespace Threads

/-- The tick in which the loader looks at the clock next, or looks at it now. -/
def nextTest (threads : Threads numCpus) : Nat :=
  if threads.loader = .slot then begun threads.barrier.history loaderDevice + 1
  else begun threads.barrier.history loaderDevice

/-- The loader is on time, and the rest of its plan follows from what it tests
next. -/
structure OnTime (config : List ProcessSpec) (threads : Threads numCpus) : Prop where
  time : threads.barrier.time = BitVec.ofNat 64 threads.clock
  plan : threads.clock < 2 ^ 64 →
    addTicks threads.log ++ arrivalsFrom threads.nextTest threads.startTimes = arrivals config
  pending : threads.sim.pending.length = threads.startTimes.length
  closing : threads.loader = .closing → threads.startTimes = []

end Threads

section Step

variable {timeSlot : Int} {threads after : Threads numCpus} {config : List ProcessSpec}

/-- The section of another device, or a quiet section of the timer. -/
theorem Threads.OnTime.still (onTime : threads.OnTime config) {barrier : Barrier (numCpus + 1)}
    (same : Still threads.barrier barrier loaderDevice) (time : barrier.time = threads.barrier.time) :
    Threads.OnTime config { threads with barrier := barrier } := by
  rcases onTime with ⟨now, plan, pending, closing⟩
  refine ⟨?_, fun small => ?_, pending, closing⟩
  · rw [Threads.clock, same.clock]
    exact time.trans now
  · rw [Threads.clock, same.clock] at small
    rw [Threads.nextTest, same.begins]
    exact plan small

theorem tell_time {numDevices : Nat} {before later : Barrier numDevices}
    {device : Fin numDevices} (taken : barrierStep before (.tell device) = some later) :
    later.time = before.time := by
  rw [(tell_eq taken).2]
  rfl

theorem proceed_time {numDevices : Nat} {before later : Barrier numDevices}
    {device : Fin numDevices} (taken : barrierStep before (.proceed device) = some later) :
    later.time = before.time := by
  rw [(proceed_eq taken).2.2]
  rfl

theorem detachEvent_time {numDevices : Nat} {before later : Barrier numDevices}
    {device : Fin numDevices} (taken : barrierStep before (.detachEvent device) = some later) :
    later.time = before.time := by
  rw [(detachEvent_eq taken).2]
  rfl

theorem Threads.OnTime.step (onTime : threads.OnTime config) (inTurn : threads.InTurn)
    (owned : threads.sim.Owned) (standing : ∀ device, threads.barrier.InStep device)
    (effect : ThreadEffect timeSlot threads after) : after.OnTime config := by
  have ready : threads.loader = .ready →
      begun threads.barrier.history loaderDevice = threads.clock := fun point =>
    (standing loaderDevice).begun_inSlot (inTurn.loader.idle (by simp [point])).1
  have pending : ∀ {id : Fin numCpus} {sim : Simulator numCpus},
      simStep timeSlot threads.sim (.cpu id) = some sim → sim.pending = threads.sim.pending :=
    fun moved => ((simStep_effect moved).cpu_frame owned).2.1
  cases effect with
  | timer barrier taken =>
      cases timerStep_turn taken with
      | quiet still time => exact onTime.still (still _) time
      | tick clock time begins devices passed =>
          rcases onTime with ⟨now, plan, length, closing⟩
          refine ⟨?_, fun small => ?_, length, closing⟩
          · rw [Threads.clock, clock]
            dsimp only
            rw [time, now, Threads.clock, BitVec.ofNat_add]
            rfl
          · rw [Threads.clock, clock] at small
            rw [Threads.nextTest, begins]
            exact plan (Nat.lt_of_succ_lt small)
  | worked id sim outside moved =>
      exact ⟨onTime.time, onTime.plan, by rw [pending moved, onTime.pending], onTime.closing⟩
  | ran id sim point moved =>
      refine ⟨onTime.time, fun small => ?_, by rw [pending moved, onTime.pending], onTime.closing⟩
      rw [addTicks_ran]
      exact onTime.plan small
  | cpuTold id barrier point taken =>
      exact onTime.still (tell_still (cpuDevice_ne_loaderDevice id).symm taken) (tell_time taken)
  | cpuBegan id barrier sim point taken moved =>
      have kept := onTime.still (proceed_still (cpuDevice_ne_loaderDevice id).symm taken)
        (proceed_time taken)
      exact ⟨kept.time, kept.plan, by rw [pending moved, onTime.pending], kept.closing⟩
  | cpuDetached id barrier point taken =>
      exact onTime.still (detachEvent_still (cpuDevice_ne_loaderDevice id).symm taken)
        (detachEvent_time taken)
  | postponed startTime rest point next early =>
      rcases onTime with ⟨now, plan, length, closing⟩
      refine ⟨now, fun (small : threads.clock < 2 ^ 64) => ?_, length,
        fun impossible => by cases impossible⟩
      have before := plan small
      rw [Threads.nextTest, if_neg (by simp [point]), ready point, next, arrivalsFrom] at before
      -- the test fails in this tick, so the start time is a later one
      have late : threads.clock < startTime.toNat := by
        have compared := BitVec.lt_def.mp early
        rwa [now, BitVec.toNat_ofNat, Nat.mod_eq_of_lt small] at compared
      rw [Threads.nextTest, if_pos rfl, ready point, next, arrivalsFrom, max_eq_right late]
      rwa [max_eq_right (le_of_lt late)] at before
  | added startTime rest sim point next due moved =>
      rcases onTime with ⟨now, plan, length, closing⟩
      refine ⟨now, fun (small : threads.clock < 2 ^ 64) => ?_, ?_,
        fun impossible => by cases impossible⟩
      · have before := plan small
        rw [Threads.nextTest, if_neg (by simp [point]), ready point, next, arrivalsFrom] at before
        have reached : startTime.toNat ≤ threads.clock := by
          have compared := Nat.le_of_not_lt fun lt => due (BitVec.lt_def.mpr lt)
          rwa [now, BitVec.toNat_ofNat, Nat.mod_eq_of_lt small] at compared
        rw [Threads.nextTest, if_pos rfl, ready point, addTicks_added, List.append_assoc]
        rwa [max_eq_left reached] at before
      · rw [next, List.length_cons] at length
        dsimp only
        cases simStep_effect moved with
        | loaded code prio others first =>
            rw [first, List.length_cons] at length
            exact Nat.succ.inj length
        | closed last _ =>
            rw [last] at length
            cases length
  | closed sim point last moved =>
      rcases onTime with ⟨now, plan, length, closing⟩
      refine ⟨now, fun small => ?_, ?_, fun _ => last⟩
      · rw [Threads.nextTest, last]
        have before := plan small
        rwa [last] at before
      · rw [last] at length
        cases simStep_effect moved with
        | loaded code prio others first =>
            rw [first] at length
            cases length
        | closed _ _ =>
            dsimp only
            rw [last]
            exact length
  | loaderTold barrier point taken =>
      rcases onTime with ⟨now, plan, length, closing⟩
      rcases tell_eq taken with ⟨_, rfl⟩
      refine ⟨?_, fun small => ?_, length, closing⟩
      · simpa [Threads.clock] using now
      · have before := plan (by simpa [Threads.clock] using small)
        simpa [Threads.nextTest, TimerEvent.isBegin] using before
  | loaderBegan barrier point taken =>
      rcases onTime with ⟨now, plan, length, closing⟩
      rcases proceed_eq taken with ⟨_, _, rfl⟩
      refine ⟨?_, fun small => ?_, length, fun impossible => by cases impossible⟩
      · simpa [Threads.clock] using now
      · have before := plan (by simpa [Threads.clock] using small)
        simpa [Threads.nextTest, TimerEvent.isBegin, point] using before
  | loaderDetached barrier point taken =>
      rcases onTime with ⟨now, plan, length, closing⟩
      rcases detachEvent_eq taken with ⟨_, rfl⟩
      refine ⟨?_, fun small => ?_, length, closing⟩
      · simpa [Threads.clock] using now
      · have before := plan (by simpa [Threads.clock] using small)
        simpa [Threads.nextTest, TimerEvent.isBegin] using before
  | halted _ _ => exact onTime.still ⟨rfl, rfl, rfl⟩ rfl

end Step

/-! ## Every order of the threads -/

section Reached

variable {timeSlot : Int} {memramsz memswpsz : Addr} {config : List ProcessSpec}
variable {threads : Threads numCpus}

theorem Threaded.onTime (reached : Threaded timeSlot memramsz memswpsz config threads) :
    threads.OnTime config := by
  refine reached.invariant (Threads.OnTime config)
    (fun _ => ⟨rfl, fun _ => rfl, ?_, fun impossible => by cases impossible⟩)
    fun before after holds earlier effect =>
      holds.step earlier.inTurn earlier.parts.1.owned earlier.parts.2.inStep.1 effect
  change (config.map fun spec => (spec.code, spec.prio)).length =
    (config.map ProcessSpec.startTime).length
  rw [List.length_map, List.length_map]

theorem mem_addTicks {log : List (LogEntry numCpus)} {tick : Nat} (member : tick ∈ addTicks log) :
    addsAt log tick ≠ 0 := by
  rw [addTicks, List.mem_filterMap] at member
  rcases member with ⟨entry, logged, read⟩
  cases entry with
  | ran _ _ => cases read
  | added _ =>
      cases read
      exact Nat.ne_of_gt (List.count_pos_iff.mpr logged)

theorem Threaded.added_past (reached : Threaded timeSlot memramsz memswpsz config threads)
    {tick : Nat} (member : tick ∈ addTicks threads.log) : tick ≤ threads.clock := by
  by_contra future
  exact mem_addTicks member (reached.inTurn.loader.past tick (Nat.lt_of_not_le future))

/-- What is still to be added is added in this tick or later. -/
theorem Threaded.rest_future (reached : Threaded timeSlot memramsz memswpsz config threads)
    {tick : Nat} (member : tick ∈ arrivalsFrom threads.nextTest threads.startTimes) :
    threads.clock ≤ tick := by
  have inTurn := reached.inTurn
  refine le_trans ?_ (le_of_mem_arrivalsFrom member)
  have standing := reached.parts.2.inStep.1 loaderDevice
  by_cases left : (threads.barrier.devList loaderDevice).point = .detached
  · rw [reached.onTime.closing (inTurn.loader.left left)] at member
    cases member
  · unfold Threads.nextTest Threads.clock
    rcases standing.begun_cases left with current | ⟨waits, behind⟩
    · split <;> omega
    · rw [if_pos (inTurn.loader.waits waits)]
      exact le_of_eq behind.symm

/-- The processes that were added are the ones that `os` knows. -/
theorem Threaded.availPid_eq (reached : Threaded timeSlot memramsz memswpsz config threads)
    (small : threads.clock < 2 ^ 64) :
    threads.sim.os.availPid = (addTicks threads.log).length + 1 := by
  have planned := reached.parts.1.planned
  have total := congrArg List.length (reached.onTime.plan small)
  have left := congrArg List.length planned.pending
  have first := planned.first
  have last := planned.last
  rw [arrivals, List.length_append, length_arrivalsFrom, length_arrivalsFrom,
    List.length_map] at total
  rw [reached.onTime.pending, List.length_drop, List.length_map] at left
  rw [List.length_map] at last
  omega

end Reached

/-- As long as the clock has not wrapped, the loader has added the processes whose
ticks have passed, each one at its tick, and no other but for the current tick. -/
theorem processes_added_on_time (timeSlot : Int) (memramsz memswpsz : Addr)
    (config : List ProcessSpec) (threads : Threads numCpus)
    (reached : Threaded timeSlot memramsz memswpsz config threads)
    (small : threads.clock < 2 ^ 64) :
    ∃ later, arrivals config = addTicks threads.log ++ later ∧
      (∀ tick ∈ addTicks threads.log, tick ≤ threads.clock) ∧
      (∀ tick ∈ later, threads.clock ≤ tick) ∧
      threads.sim.os.availPid = (addTicks threads.log).length + 1 :=
  ⟨_, (reached.onTime.plan small).symm, fun _ => reached.added_past, fun _ => reached.rest_future,
    reached.availPid_eq small⟩

/-- In the fourth tick both processes have been added, the second one a tick after
the first. -/
theorem processes_added_on_time_twoCalcs : ∃ threads : Threads 2,
    Threaded 2 1024 0 twoCalcs threads ∧ threads.clock = 3 ∧
      (addTicks threads.log).length = 2 ∧ arrivals twoCalcs = addTicks threads.log := by
  rcases twoCalcs_reached with ⟨threads, trace, path, clock, added⟩
  have small : threads.clock < 2 ^ 64 := by
    rw [clock]
    decide
  have reached : Threaded 2 1024 0 twoCalcs threads := ⟨nullHeads, trace, path⟩
  rcases processes_added_on_time 2 1024 0 twoCalcs threads reached small with
    ⟨later, plan, _, future, availPid⟩
  rw [clock] at future
  have early : ∀ tick ∈ arrivals twoCalcs, tick < 3 := by decide
  cases later with
  | nil => exact ⟨threads, reached, clock, by omega, plan.trans (List.append_nil _)⟩
  | cons tick later =>
      have listed : tick ∈ arrivals twoCalcs := by
        rw [plan]
        exact List.mem_append_right _ List.mem_cons_self
      exact absurd (early tick listed) (Nat.not_lt.mpr (future tick List.mem_cons_self))

end Kernel
end Ossim
