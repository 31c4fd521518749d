import Ossim.Kernel.Threads

namespace Ossim
namespace Kernel

open Memory

/-!
# One turn in each tick

A thread does the job of its slot and calls `next_slot`, which returns after the
next tick only.  So a CPU calls `run` at most once between two ticks, and the
loader adds at most one process.  The loader looks at the clock in every slot,
which gives the tick at which each process is added: its start time, or the tick
after the process before it, whichever is later.
-/

variable {numCpus : Nat}

/-! ## The sections of a device -/

section Barrier

variable {numDevices : Nat} {before after : Barrier numDevices} {device : Fin numDevices}

theorem tell_eq (taken : barrierStep before (.tell device) = some after) :
    (before.devList device).point = .inSlot ∧
      after = (before.setDevice device
        { before.devList device with done := true, point := .waiting }).record
          (.finished device) := by
  rw [barrierStep, Option.ite_none_right_eq_some] at taken
  exact ⟨taken.1, (Option.some.inj taken.2).symm⟩

theorem proceed_eq (taken : barrierStep before (.proceed device) = some after) :
    (before.devList device).point = .waiting ∧ (before.devList device).done = false ∧
      after = (before.setDevice device
        { before.devList device with point := .inSlot }).record (.began device before.time) := by
  rw [barrierStep, Option.ite_none_right_eq_some] at taken
  exact ⟨taken.1.1, taken.1.2, (Option.some.inj taken.2).symm⟩

theorem detachEvent_eq (taken : barrierStep before (.detachEvent device) = some after) :
    (before.devList device).point = .inSlot ∧
      after = (before.setDevice device
        { before.devList device with fsh := true, point := .detached }).record
          (.detached device) := by
  rw [barrierStep, Option.ite_none_right_eq_some] at taken
  exact ⟨taken.1, (Option.some.inj taken.2).symm⟩

/-- Neither the clock nor the place of a device has changed. -/
structure Still (before after : Barrier numDevices) (device : Fin numDevices) : Prop where
  clock : ticks after.history = ticks before.history
  begins : begun after.history device = begun before.history device
  point : (after.devList device).point = (before.devList device).point

/-- What a section of the timer does to the clock and to the places. -/
inductive TimerTurn (before after : Barrier numDevices) : Prop
  | quiet (still : ∀ device, Still before after device) (time : after.time = before.time)
  | tick (clock : ticks after.history = ticks before.history + 1)
      (time : after.time = before.time + 1)
      (begins : ∀ device, begun after.history device = begun before.history device)
      (devices : after.devList = before.devList)
      (passed : ∀ device, before.Collected device)

theorem timerStep_turn (taken : timerStep before = some after) : TimerTurn before after := by
  unfold timerStep at taken
  split at taken
  · split at taken <;> cases taken <;> exact .quiet (fun _ => ⟨rfl, rfl, rfl⟩) rfl
  · next position fsh event timer =>
      split at taken
      · dsimp only at taken
        split at taken
        · cases taken
          exact .quiet (fun _ => ⟨rfl, rfl, rfl⟩) rfl
        · cases taken
      · next outside =>
          cases taken
          refine .tick ?_ rfl ?_ rfl fun device => ⟨position, fsh, event, timer, ?_⟩
          · simp
          · simp [TimerEvent.isBegin]
          · exact lt_of_lt_of_le device.isLt (Nat.le_of_not_lt outside)
  · next position fsh event timer =>
      split at taken
      · next inside =>
          cases taken
          refine .quiet (fun device => ⟨by simp, by simp [TimerEvent.isBegin], ?_⟩) rfl
          by_cases same : device = ⟨position, inside⟩
          · subst same
            simp
          · simp [same]
      · split at taken <;> cases taken <;> exact .quiet (fun _ => ⟨rfl, rfl, rfl⟩) rfl
  · cases taken

/-- A section of one device leaves the others where they are. -/
theorem still_of_ne {acting : Fin numDevices} {state : Device} {event : TimerEvent numDevices}
    (different : device ≠ acting) (unticked : event ≠ .ticked)
    (begins : event.isBegin device = false) :
    Still before ((before.setDevice acting state).record event) device where
  clock := by simp [unticked]
  begins := by simp [begins]
  point := by simp [different]

theorem tell_still {acting : Fin numDevices} (different : device ≠ acting)
    (taken : barrierStep before (.tell acting) = some after) : Still before after device := by
  rw [(tell_eq taken).2]
  exact still_of_ne different (by simp) rfl

theorem proceed_still {acting : Fin numDevices} (different : device ≠ acting)
    (taken : barrierStep before (.proceed acting) = some after) : Still before after device := by
  rw [(proceed_eq taken).2.2]
  exact still_of_ne different (by simp) (by simp [TimerEvent.isBegin, Ne.symm different])

theorem detachEvent_still {acting : Fin numDevices} (different : device ≠ acting)
    (taken : barrierStep before (.detachEvent acting) = some after) :
    Still before after device := by
  rw [(detachEvent_eq taken).2]
  exact still_of_ne different (by simp) rfl

namespace Barrier

/-- A device in its slot has begun every slot so far. -/
theorem InStep.begun_inSlot (standing : before.InStep device)
    (point : (before.devList device).point = .inSlot) :
    begun before.history device = ticks before.history := by
  cases standing with
  | working _ _ _ _ _ begins _ _ => exact begins
  | arrived waits _ _ _ _ _ => cases point.symm.trans waits
  | held waits _ _ _ _ _ => cases point.symm.trans waits
  | leaving waits _ _ _ _ _ _ => cases point.symm.trans waits
  | gone left _ => cases point.symm.trans left

/-- A device whose flag is cleared has not begun the current slot. -/
theorem InStep.begun_released (standing : before.InStep device)
    (point : (before.devList device).point = .waiting)
    (free : (before.devList device).done = false) :
    begun before.history device + 1 = ticks before.history := by
  cases standing with
  | working works _ _ _ _ _ _ _ => cases point.symm.trans works
  | arrived _ set _ _ _ _ => cases free.symm.trans set
  | held _ set _ _ _ _ => cases free.symm.trans set
  | leaving _ _ _ _ _ begins _ => exact begins
  | gone left _ => cases point.symm.trans left

/-- At a tick every device that is left waits, having begun the slot. -/
theorem InStep.begun_collected (standing : before.InStep device)
    (passed : before.Collected device) :
    (before.devList device).point = .detached ∨
      ((before.devList device).point = .waiting ∧
        begun before.history device = ticks before.history) := by
  cases standing with
  | working _ _ _ awaited _ _ _ _ => exact absurd passed awaited
  | arrived point _ _ _ begins _ => exact Or.inr ⟨point, begins⟩
  | held _ _ _ pending _ _ =>
      rcases passed with ⟨_, _, _, timer, _⟩
      exact absurd pending (not_pending_of_collecting timer device)
  | leaving _ _ _ awaited _ _ _ => exact absurd passed awaited
  | gone point _ => exact Or.inl point

/-- An attached device is in the current slot or has yet to begin it. -/
theorem InStep.begun_cases (standing : before.InStep device)
    (attached : (before.devList device).point ≠ .detached) :
    begun before.history device = ticks before.history ∨
      ((before.devList device).point = .waiting ∧
        begun before.history device + 1 = ticks before.history) := by
  cases standing with
  | working _ _ _ _ _ begins _ _ => exact Or.inl begins
  | arrived _ _ _ _ begins _ => exact Or.inl begins
  | held point _ _ _ begins _ => exact Or.inr ⟨point, begins⟩
  | leaving point _ _ _ _ begins _ => exact Or.inr ⟨point, begins⟩
  | gone point _ => exact absurd point attached

end Barrier

end Barrier

/-! ## The turn of one thread -/

/-- How a thread stands to its device, when `resting` says that it is in
`next_slot`, `ended` that its loop is over, and `count` how often it acted in
each tick. -/
structure Turn (barrier : Barrier (numCpus + 1)) (device : Fin (numCpus + 1))
    (resting ended : Prop) (count : Nat → Nat) : Prop where
  waits : (barrier.devList device).point = .waiting → resting
  left : (barrier.devList device).point = .detached → ended
  once : ∀ tick, count tick ≤ 1
  past : ∀ tick, ticks barrier.history < tick → count tick = 0
  used : count (ticks barrier.history) ≠ 0 →
    resting ∧ begun barrier.history device = ticks barrier.history

namespace Turn

variable {before after : Barrier (numCpus + 1)} {device : Fin (numCpus + 1)}
variable {resting ended resting' ended' : Prop} {count : Nat → Nat}

theorem still (turn : Turn before device resting ended count) (same : Still before after device) :
    Turn after device resting ended count where
  waits point := turn.waits (same.point.symm.trans point)
  left point := turn.left (same.point.symm.trans point)
  once := turn.once
  past tick later := turn.past tick (same.clock ▸ later)
  used acted := by
    rw [same.clock] at acted ⊢
    rw [same.begins]
    exact turn.used acted

theorem tick (turn : Turn before device resting ended count)
    (clock : ticks after.history = ticks before.history + 1)
    (devices : after.devList = before.devList) : Turn after device resting ended count where
  waits point := turn.waits (devices ▸ point)
  left point := turn.left (devices ▸ point)
  once := turn.once
  past tick later := turn.past tick (by omega)
  used acted := absurd (turn.past _ (by omega)) acted

/-- A thread that is neither in `next_slot` nor at its end is in its slot, and
has not acted in this tick. -/
theorem idle (turn : Turn before device resting ended count) (works : ¬ resting ∧ ¬ ended) :
    (before.devList device).point = .inSlot ∧ count (ticks before.history) = 0 := by
  constructor
  · cases point : (before.devList device).point with
    | inSlot => rfl
    | waiting => exact absurd (turn.waits point) works.1
    | detached => exact absurd (turn.left point) works.2
  · by_contra acted
    exact works.1 (turn.used acted).1

theorem work (turn : Turn before device resting ended count) (works : ¬ resting ∧ ¬ ended) :
    Turn before device resting' ended' count where
  waits point := by cases (turn.idle works).1.symm.trans point
  left point := by cases (turn.idle works).1.symm.trans point
  once := turn.once
  past := turn.past
  used acted := absurd (turn.idle works).2 acted

/-- A thread acts and goes to `next_slot`. -/
theorem act (turn : Turn before device resting ended count) (works : ¬ resting ∧ ¬ ended)
    (standing : before.InStep device) (rests : resting') {grown : Nat → Nat}
    (stamped : ∀ tick, grown tick = count tick + if tick = ticks before.history then 1 else 0) :
    Turn before device resting' ended' grown where
  waits _ := rests
  left point := by cases (turn.idle works).1.symm.trans point
  once tick := by
    rw [stamped]
    split
    · next now =>
        rw [now, (turn.idle works).2]
    · exact turn.once tick
  past tick later := by
    rw [stamped, turn.past tick later, if_neg (Nat.ne_of_gt later)]
  used _ := ⟨rests, standing.begun_inSlot (turn.idle works).1⟩

theorem told (turn : Turn before device resting ended count) (rests : resting)
    (taken : barrierStep before (.tell device) = some after) :
    Turn after device resting ended count := by
  rcases tell_eq taken with ⟨point, rfl⟩
  refine ⟨fun _ => rests, fun left => ?_, turn.once, fun tick later => ?_, fun acted => ?_⟩
  · simp at left
  · exact turn.past tick (by simpa using later)
  · have used := turn.used (by simpa using acted)
    simpa [TimerEvent.isBegin] using used

/-- A thread returns from `next_slot`. -/
theorem began (turn : Turn before device resting ended count) (standing : before.InStep device)
    (taken : barrierStep before (.proceed device) = some after) :
    Turn after device resting' ended' count := by
  rcases proceed_eq taken with ⟨point, free, rfl⟩
  refine ⟨fun waits => ?_, fun left => ?_, turn.once, fun tick later => ?_, fun acted => ?_⟩
  · simp at waits
  · simp at left
  · exact turn.past tick (by simpa using later)
  · have used := turn.used (by simpa using acted)
    have released := standing.begun_released point free
    omega

theorem detached (turn : Turn before device resting ended count) (ends : ended)
    (taken : barrierStep before (.detachEvent device) = some after) :
    Turn after device resting ended count := by
  rcases detachEvent_eq taken with ⟨point, rfl⟩
  refine ⟨fun waits => ?_, fun _ => ends, turn.once, fun tick later => ?_, fun acted => ?_⟩
  · simp at waits
  · exact turn.past tick (by simpa using later)
  · have used := turn.used (by simpa using acted)
    simpa [TimerEvent.isBegin] using used

end Turn

/-! ## All threads -/

theorem cpuDevice_ne_loaderDevice (id : Fin numCpus) : cpuDevice id ≠ loaderDevice :=
  Fin.succ_ne_zero _

theorem cpuDevice_ne {id other : Fin numCpus} (different : other ≠ id) :
    cpuDevice other ≠ cpuDevice id :=
  fun same => different (Fin.rev_injective (Fin.succ_injective _ same))

/-- How often a CPU called `run` in a tick. -/
def runsAt (log : List (LogEntry numCpus)) (id : Fin numCpus) (tick : Nat) : Nat :=
  log.count (.ran id tick)

/-- How many processes the loader added in a tick. -/
def addsAt (log : List (LogEntry numCpus)) (tick : Nat) : Nat := log.count (.added tick)

structure Threads.InTurn (threads : Threads numCpus) : Prop where
  cpu : ∀ id, Turn threads.barrier (cpuDevice id) ((threads.sim.cpus id).point = .slot)
    ((threads.sim.cpus id).point = .stopped) (runsAt threads.log id)
  loader : Turn threads.barrier loaderDevice (threads.loader = .slot) (threads.loader = .closing)
    (addsAt threads.log)

section Step

variable {timeSlot : Int} {threads after : Threads numCpus}

/-- After `run` a CPU calls `next_slot`. -/
theorem SimEffect.slot_of_running {sim later : Simulator numCpus} {id : Fin numCpus}
    (effect : SimEffect timeSlot sim (.cpu id) later) (point : (sim.cpus id).point = .running) :
    (later.cpus id).point = .slot := by
  cases effect with
  | ran _ _ _ _ _ _ _ => simp
  | acquired _ _ _ _ asks _ => cases asks <;> simp_all
  | emptied _ _ _ asks _ _ => cases asks <;> simp_all
  | skipped _ _ elsewhere _ _ => cases point.symm.trans elsewhere
  | removed _ _ _ elsewhere _ _ _ => cases point.symm.trans elsewhere
  | putBack _ _ _ elsewhere _ _ _ _ => cases point.symm.trans elsewhere
  | kept _ _ _ elsewhere _ _ _ _ => cases point.symm.trans elsewhere
  | freed _ _ _ elsewhere _ _ => cases point.symm.trans elsewhere
  | stopped _ elsewhere _ _ => cases point.symm.trans elsewhere
  | waiting _ elsewhere _ _ => cases point.symm.trans elsewhere
  | dispatched _ _ elsewhere _ _ => cases point.symm.trans elsewhere
  | resumed _ _ elsewhere _ _ => cases point.symm.trans elsewhere
  | nextSlot _ elsewhere => cases point.symm.trans elsewhere

theorem runsAt_ran (log : List (LogEntry numCpus)) (acting id : Fin numCpus) (now tick : Nat) :
    runsAt (log ++ [.ran acting now]) id tick =
      runsAt log id tick + if acting = id ∧ tick = now then 1 else 0 := by
  rw [runsAt, List.count_append, List.count_singleton, runsAt]
  simp only [beq_iff_eq, LogEntry.ran.injEq, eq_comm (a := tick)]

theorem runsAt_added (log : List (LogEntry numCpus)) (id : Fin numCpus) (now tick : Nat) :
    runsAt (log ++ [.added now]) id tick = runsAt log id tick := by
  simp [runsAt]

theorem addsAt_ran (log : List (LogEntry numCpus)) (acting : Fin numCpus) (now tick : Nat) :
    addsAt (log ++ [.ran acting now]) tick = addsAt log tick := by
  simp [addsAt]

theorem addsAt_added (log : List (LogEntry numCpus)) (now tick : Nat) :
    addsAt (log ++ [.added now]) tick = addsAt log tick + if tick = now then 1 else 0 := by
  rw [addsAt, List.count_append, List.count_singleton, addsAt]
  simp only [beq_iff_eq, LogEntry.added.injEq, eq_comm (a := tick)]

theorem Threads.InTurn.step (inTurn : threads.InTurn)
    (standing : ∀ device, threads.barrier.InStep device)
    (effect : ThreadEffect timeSlot threads after) : after.InTurn := by
  rcases inTurn with ⟨cpu, loader⟩
  -- a thread that is not the one that acts keeps its point
  have others : ∀ {id other : Fin numCpus} {sim : Simulator numCpus}, other ≠ id →
      simStep timeSlot threads.sim (.cpu id) = some sim → sim.cpus other = threads.sim.cpus other :=
    fun different moved => (simStep_effect moved).cpus_of_ne fun same =>
      different (SimAction.cpu.inj same).symm
  cases effect with
  | timer barrier taken =>
      cases timerStep_turn taken with
      | quiet still _ => exact ⟨fun id => (cpu id).still (still _), loader.still (still _)⟩
      | tick clock _ _ devices _ =>
          exact ⟨fun id => (cpu id).tick clock devices, loader.tick clock devices⟩
  | worked id sim outside moved =>
      refine ⟨fun other => ?_, loader⟩
      by_cases same : other = id
      · subst same
        exact (cpu other).work ⟨outside.1, outside.2.2⟩
      · dsimp only
        rw [others same moved]
        exact cpu other
  | ran id sim point moved =>
      have effect := simStep_effect moved
      refine ⟨fun other => ?_, ?_⟩
      · dsimp only
        by_cases same : other = id
        · subst same
          refine (cpu other).act (by simp [point]) (standing _) (effect.slot_of_running point)
            fun tick => ?_
          rw [runsAt_ran]
          simp [Threads.clock]
        · rw [others same moved]
          have unchanged : runsAt (threads.log ++ [.ran id threads.clock]) other =
              runsAt threads.log other := by
            funext tick
            rw [runsAt_ran, if_neg (fun both => same both.1.symm), Nat.add_zero]
          rw [unchanged]
          exact cpu other
      · have unchanged : addsAt (threads.log ++ [.ran id threads.clock]) = addsAt threads.log :=
          funext fun tick => addsAt_ran threads.log id threads.clock tick
        dsimp only
        rw [unchanged]
        exact loader
  | cpuTold id barrier point taken =>
      refine ⟨fun other => ?_, loader.still (tell_still (cpuDevice_ne_loaderDevice id).symm taken)⟩
      by_cases same : other = id
      · subst same
        exact (cpu other).told point taken
      · exact (cpu other).still (tell_still (cpuDevice_ne same) taken)
  | cpuBegan id barrier sim point taken moved =>
      refine ⟨fun other => ?_,
        loader.still (proceed_still (cpuDevice_ne_loaderDevice id).symm taken)⟩
      by_cases same : other = id
      · subst same
        exact (cpu other).began (standing _) taken
      · dsimp only
        rw [others same moved]
        exact (cpu other).still (proceed_still (cpuDevice_ne same) taken)
  | cpuDetached id barrier point taken =>
      refine ⟨fun other => ?_,
        loader.still (detachEvent_still (cpuDevice_ne_loaderDevice id).symm taken)⟩
      by_cases same : other = id
      · subst same
        exact (cpu other).detached point taken
      · exact (cpu other).still (detachEvent_still (cpuDevice_ne same) taken)
  | postponed startTime rest point next early =>
      exact ⟨cpu, loader.work (by simp [point])⟩
  | added startTime rest sim point next due moved =>
      have effect := simStep_effect moved
      refine ⟨fun other => ?_, ?_⟩
      · have unchanged : runsAt (threads.log ++ [.added threads.clock]) other =
            runsAt threads.log other :=
          funext fun tick => runsAt_added threads.log other threads.clock tick
        dsimp only
        rw [unchanged, effect.cpus_of_ne (by simp)]
        exact cpu other
      · refine loader.act (by simp [point]) (standing _) rfl fun tick => ?_
        exact addsAt_added threads.log threads.clock tick
  | closed sim point last moved =>
      refine ⟨fun other => ?_, loader.work (by simp [point])⟩
      dsimp only
      rw [(simStep_effect moved).cpus_of_ne (by simp)]
      exact cpu other
  | loaderTold barrier point taken =>
      exact ⟨fun other => (cpu other).still (tell_still (cpuDevice_ne_loaderDevice other) taken),
        loader.told point taken⟩
  | loaderBegan barrier point taken =>
      exact ⟨fun other => (cpu other).still (proceed_still (cpuDevice_ne_loaderDevice other) taken),
        loader.began (standing _) taken⟩
  | loaderDetached barrier point taken =>
      exact ⟨fun other =>
        (cpu other).still (detachEvent_still (cpuDevice_ne_loaderDevice other) taken),
        loader.detached point taken⟩
  | halted _ _ => exact ⟨fun other => (cpu other).still ⟨rfl, rfl, rfl⟩, loader.still ⟨rfl, rfl, rfl⟩⟩

end Step

section Reached

variable {timeSlot : Int} {memramsz memswpsz : Addr} {config : List ProcessSpec}
variable {threads : Threads numCpus}

theorem Threaded.inTurn (reached : Threaded timeSlot memramsz memswpsz config threads) :
    threads.InTurn := by
  refine reached.invariant Threads.InTurn (fun _ => ?_) fun before after holds earlier effect =>
    holds.step earlier.parts.2.inStep.1 effect
  have fresh : ∀ device, ((startTimer (numCpus + 1)).devList device).point = .inSlot := fun _ => rfl
  refine ⟨fun id => ⟨fun point => ?_, fun point => ?_, fun _ => ?_, fun _ _ => rfl, fun acted => ?_⟩,
    ⟨fun point => ?_, fun point => ?_, fun _ => ?_, fun _ _ => rfl, fun acted => ?_⟩⟩
  all_goals first
    | exact Nat.zero_le 1
    | exact absurd rfl acted
    | cases (fresh _).symm.trans point

end Reached

end Kernel
end Ossim
