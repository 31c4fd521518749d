import Ossim.Kernel.Completion
import Ossim.Kernel.Progress

namespace Ossim
namespace Kernel

open Memory

/-!
# No deadlock

The timer waits only for a device that has neither finished its slot nor detached,
and the thread of such a device can act.  The timer ends by itself when it counts
as many detached devices as devices, and its counters are right.  So the threads
are never stuck before all CPUs have stopped, except at an instruction without a
defined outcome.
-/

/-! ## The counters of the timer -/

namespace Barrier

variable {numDevices : Nat}

/-- The walk of the timer has seen `fsh` set at every device that it has passed,
if it counted as many of them as devices. -/
structure Counted (barrier : Barrier numDevices) : Prop where
  flags : ∀ id, (barrier.devList id).fsh = true ↔ (barrier.devList id).point = .detached
  collecting : ∀ position fsh event, barrier.timer = .collecting position fsh event →
    fsh ≤ event ∧ (fsh = event →
      ∀ id : Fin numDevices, id.val < position → (barrier.devList id).point = .detached)
  releasing : ∀ position fsh event, barrier.timer = .releasing position fsh event → fsh = event →
    ∀ id, (barrier.devList id).point = .detached
  stopped : barrier.timer = .stopped →
    barrier.timerStop = true ∨ ∀ id, (barrier.devList id).point = .detached

variable {before after : Barrier numDevices}

/-- A section of a device that is attached. -/
theorem Counted.section {acting : Fin numDevices} {state : Device} (counted : before.Counted)
    (event : TimerEvent numDevices) (attached : (before.devList acting).point ≠ .detached)
    (flags : state.fsh = true ↔ state.point = .detached) :
    ((before.setDevice acting state).record event).Counted := by
  have stays : ∀ id, (before.devList id).point = .detached →
      (((before.setDevice acting state).record event).devList id).point = .detached := by
    intro id left
    have other : id ≠ acting := by
      rintro rfl
      exact attached left
    simpa [other] using left
  refine ⟨fun id => ?_, fun position fsh event walks => ?_, fun position fsh event walks same id =>
    stays id (counted.releasing position fsh event walks same id), fun ended => ?_⟩
  · by_cases mine : id = acting
    · subst mine
      simpa using flags
    · simpa [mine] using counted.flags id
  · rcases counted.collecting position fsh event walks with ⟨bound, all⟩
    exact ⟨bound, fun same id early => stays id (all same id early)⟩
  · exact (counted.stopped ended).imp_right fun all id => stays id (all id)

theorem Counted.timer (counted : before.Counted) (taken : timerStep before = some after) :
    after.Counted := by
  unfold timerStep at taken
  split at taken
  · split at taken
    · next asked =>
        cases taken
        exact ⟨counted.flags, by simp, by simp, fun _ => Or.inl asked⟩
    · cases taken
      refine ⟨counted.flags, fun position fsh event walks => ?_, by simp, by simp⟩
      cases walks
      exact ⟨le_rfl, fun _ id early => absurd early (Nat.not_lt_zero _)⟩
  · next position fsh event timer =>
      rcases counted.collecting position fsh event timer with ⟨bound, all⟩
      split at taken
      · next inside =>
          dsimp only at taken
          split at taken
          · cases taken
            refine ⟨counted.flags, fun next fsh' event' walks => ?_, by simp, by simp⟩
            cases walks
            by_cases left : (before.devList ⟨position, inside⟩).fsh = true
            · rw [if_pos left]
              refine ⟨by omega, fun same id early => ?_⟩
              rcases Nat.lt_or_eq_of_le (Nat.le_of_lt_succ early) with earlier | here
              · exact all (by omega) id earlier
              · have visited : id = ⟨position, inside⟩ := Fin.ext here
                rw [visited]
                exact (counted.flags _).mp left
            · rw [if_neg left]
              exact ⟨by omega, fun same => absurd same (by omega)⟩
          · cases taken
      · next outside =>
          cases taken
          refine ⟨counted.flags, by simp, fun next fsh' event' walks same id => ?_, by simp⟩
          cases walks
          exact all same id (lt_of_lt_of_le id.isLt (Nat.le_of_not_lt outside))
  · next position fsh event timer =>
      have all := counted.releasing position fsh event timer
      split at taken
      · next inside =>
          cases taken
          have points : ∀ id, (((before.setDevice ⟨position, inside⟩
              { before.devList ⟨position, inside⟩ with done := false }).setTimer
                (.releasing (position + 1) fsh event)).record
                  (.released ⟨position, inside⟩)).devList id =
              if id = ⟨position, inside⟩ then { before.devList id with done := false }
              else before.devList id := by
            intro id
            by_cases here : id = ⟨position, inside⟩
            · subst here
              simp
            · simp [here]
          refine ⟨fun id => ?_, by simp, fun next fsh' event' walks same id => ?_, by simp⟩
          · rw [points]
            split <;> exact counted.flags id
          · cases walks
            rw [points]
            split <;> exact all same id
      · split at taken
        · next same =>
            cases taken
            exact ⟨counted.flags, by simp, by simp, fun _ => Or.inr (all same)⟩
        · cases taken
          exact ⟨counted.flags, by simp, by simp, by simp⟩
  · cases taken

theorem Counted.step {action : BarrierAction numDevices} (counted : before.Counted)
    (taken : barrierStep before action = some after) : after.Counted := by
  cases action with
  | timer => exact counted.timer taken
  | tell id =>
      rcases tell_eq taken with ⟨point, rfl⟩
      have unset := (counted.flags id).not.mpr (by simp [point])
      exact counted.section _ (by simp [point]) (by simpa using unset)
  | proceed id =>
      rcases proceed_eq taken with ⟨point, _, rfl⟩
      have unset := (counted.flags id).not.mpr (by simp [point])
      exact counted.section _ (by simp [point]) (by simpa using unset)
  | detachEvent id =>
      rcases detachEvent_eq taken with ⟨point, rfl⟩
      exact counted.section _ (by simp [point]) (by simp)
  | stopTimer =>
      cases taken
      exact ⟨counted.flags, counted.collecting, counted.releasing, fun _ => Or.inl rfl⟩

end Barrier

theorem Ticking.counted {numDevices : Nat} {barrier : Barrier numDevices}
    (reached : Ticking barrier) : barrier.Counted := by
  rcases reached with ⟨trace, path⟩
  refine path.invariant Barrier.Counted ?_ fun before _ after counted taken => counted.step taken
  exact ⟨fun id => by simp [startTimer], by simp [startTimer], by simp [startTimer],
    by simp [startTimer]⟩

/-! ## Who can act -/

variable {numCpus : Nat}

/-- A CPU is about to execute an instruction that leaves an array. -/
def Threads.Faulting (threads : Threads numCpus) : Prop :=
  ∃ id proc, (threads.sim.cpus id).point = .running ∧ (threads.sim.cpus id).proc = some proc ∧
    ¬ (run threads.sim.os proc).2.Defined

section Reached

variable {timeSlot : Int} {memramsz memswpsz : Addr} {config : List ProcessSpec}
variable {threads : Threads numCpus}

/-- `main` stops the timer when the other threads have ended. -/
theorem Threaded.joined (reached : Threaded timeSlot memramsz memswpsz config threads) :
    threads.barrier.timerStop = true →
      ∀ device, (threads.barrier.devList device).point = .detached := by
  refine reached.invariant (fun threads => threads.barrier.timerStop = true →
    ∀ device, (threads.barrier.devList device).point = .detached)
      (fun _ impossible => by cases impossible) ?_
  intro before after holds _ effect stop
  -- a thread that tells, begins or detaches is attached
  have attached : ∀ {device : Fin (numCpus + 1)} {place : DevicePoint}, place ≠ .detached →
      (before.barrier.devList device).point = place → before.barrier.timerStop ≠ true :=
    fun different point stopped => different (point.symm.trans (holds stopped _))
  have told : ∀ {device : Fin (numCpus + 1)} {barrier : Barrier (numCpus + 1)},
      barrierStep before.barrier (.tell device) = some barrier → barrier.timerStop ≠ true :=
    fun taken => (acted_tell taken).timerStop ▸ attached (by decide) (tell_eq taken).1
  have began : ∀ {device : Fin (numCpus + 1)} {barrier : Barrier (numCpus + 1)},
      barrierStep before.barrier (.proceed device) = some barrier → barrier.timerStop ≠ true :=
    fun taken => (acted_proceed taken).timerStop ▸ attached (by decide) (proceed_eq taken).1
  have ended : ∀ {device : Fin (numCpus + 1)} {barrier : Barrier (numCpus + 1)},
      barrierStep before.barrier (.detachEvent device) = some barrier → barrier.timerStop ≠ true :=
    fun taken => (acted_detach taken).timerStop ▸ attached (by decide) (detachEvent_eq taken).1
  cases effect with
  | timer barrier taken =>
      have all := holds ((timerStep_work taken).1.symm.trans stop)
      intro device
      cases timerStep_turn taken with
      | quiet still _ => exact ((still device).point).trans (all device)
      | tick _ _ _ devices _ => exact (congrFun devices device).symm ▸ all device
  | cpuTold _ _ _ taken => exact absurd stop (told taken)
  | cpuBegan _ _ _ _ taken _ => exact absurd stop (began taken)
  | cpuDetached _ _ _ taken => exact absurd stop (ended taken)
  | loaderTold _ _ taken => exact absurd stop (told taken)
  | loaderBegan _ _ taken => exact absurd stop (began taken)
  | loaderDetached _ _ taken => exact absurd stop (ended taken)
  | halted _ all => exact all
  | worked _ _ _ _ => exact holds stop
  | ran _ _ _ _ => exact holds stop
  | postponed _ _ _ _ _ => exact holds stop
  | added _ _ _ _ _ _ _ => exact holds stop
  | closed _ _ _ _ => exact holds stop

end Reached

section Enabled

variable {threads : Threads numCpus} {timeSlot : Int}

/-- A call of `next_slot` waits only for the timer to clear `done`. -/
theorem nextSlot_enabled {barrier : Barrier (numCpus + 1)} {device : Fin (numCpus + 1)}
    (attached : (barrier.devList device).point ≠ .detached)
    (stuck : barrier.nextSlot device = none) :
    (barrier.devList device).point = .waiting ∧ (barrier.devList device).done = true := by
  unfold Barrier.nextSlot at stuck
  cases point : (barrier.devList device).point with
  | inSlot =>
      rw [point, Option.map_eq_none_iff, barrierStep, if_pos point] at stuck
      cases stuck
  | waiting =>
      refine ⟨rfl, ?_⟩
      by_contra set
      rw [Bool.not_eq_true] at set
      rw [point, Option.map_eq_none_iff, barrierStep, if_pos ⟨point, set⟩] at stuck
      cases stuck
  | detached => exact absurd point attached

/-- A CPU calls `run` and `free_pcb` with a process. -/
theorem SimEffect.holds {sim later : Simulator numCpus} {action : SimAction numCpus}
    {id : Fin numCpus} (effect : SimEffect timeSlot sim action later)
    (before : (sim.cpus id).point = .running ∨ (sim.cpus id).point = .removed →
      ∃ proc, (sim.cpus id).proc = some proc) :
    (later.cpus id).point = .running ∨ (later.cpus id).point = .removed →
      ∃ proc, (later.cpus id).proc = some proc := by
  by_cases mine : action = .cpu id
  · subst mine
    cases effect with
    | removed _ proc _ _ _ _ _ => exact fun _ => ⟨proc, by simp⟩
    | dispatched _ proc _ _ _ => exact fun _ => ⟨proc, by simp⟩
    | resumed _ proc _ _ _ => exact fun _ => ⟨proc, by simp⟩
    | acquired _ _ _ _ _ _ => simp
    | emptied _ _ _ _ _ _ => simp
    | skipped _ _ _ _ _ => simp
    | putBack _ _ _ _ _ _ _ _ => simp
    | kept _ _ _ _ _ _ _ _ => simp
    | freed _ _ _ _ _ _ => simp
    | stopped _ _ _ _ => simp
    | waiting _ _ _ _ => simp
    | ran _ _ _ _ _ _ _ => simp
    | nextSlot _ _ => simp
  · rw [effect.cpus_of_ne mine]
    exact before

theorem Simulated.holds {memramsz memswpsz : Addr} {config : List (List Inst × Nat)}
    {sim : Simulator numCpus} (reached : Simulated timeSlot memramsz memswpsz config sim)
    (id : Fin numCpus) : (sim.cpus id).point = .running ∨ (sim.cpus id).point = .removed →
      ∃ proc, (sim.cpus id).proc = some proc := by
  rcases reached with ⟨freergHeads, trace, path⟩
  refine path.invariant (fun sim => (sim.cpus id).point = .running ∨ (sim.cpus id).point = .removed →
      ∃ proc, (sim.cpus id).proc = some proc) ?_
    fun _ _ _ before taken => (simStep_effect taken).holds before
  rintro (running | removed)
  · cases running
  · cases removed

theorem stepTop_enabled {sim : Simulator numCpus} {id : Fin numCpus} (owned : sim.Owned)
    (point : (sim.cpus id).point = .top) : ∃ after, stepTop sim id = some after := by
  unfold stepTop
  cases holds : (sim.cpus id).proc with
  | none =>
      dsimp only
      rw [holds]
      dsimp only
      split <;> exact ⟨_, rfl⟩
  | some proc =>
      rcases Option.isSome_iff_exists.mp
        (owned.current_live (Cpu.current_of_point point holds)) with ⟨pcb, found⟩
      dsimp only
      rw [holds]
      dsimp only
      rw [found]
      dsimp only
      split
      · exact ⟨_, rfl⟩
      · split <;> exact ⟨_, rfl⟩

theorem stepRemoved_enabled {sim : Simulator numCpus} {id : Fin numCpus} (owned : sim.Owned)
    (point : (sim.cpus id).point = .removed) {proc : ProcRef}
    (holds : (sim.cpus id).proc = some proc) : ∃ after, stepRemoved sim id = some after := by
  rcases Option.isSome_iff_exists.mp
    (owned.current_live (Cpu.current_of_point point holds)) with ⟨pcb, found⟩
  unfold stepRemoved
  dsimp only
  rw [holds]
  dsimp only
  rw [found]
  exact ⟨_, rfl⟩

theorem stepRunning_enabled {sim : Simulator numCpus} {id : Fin numCpus} (owned : sim.Owned)
    (point : (sim.cpus id).point = .running) {proc : ProcRef}
    (holds : (sim.cpus id).proc = some proc) (defined : (run sim.os proc).2.Defined) :
    ∃ after, stepRunning sim id = some after := by
  rcases Option.isSome_iff_exists.mp
    (owned.current_live (Cpu.current_of_point point holds)) with ⟨pcb, found⟩
  unfold stepRunning
  dsimp only
  rw [holds]
  dsimp only
  rw [found]
  dsimp only
  rw [if_pos defined]
  exact ⟨_, rfl⟩

/-- A CPU that is stuck waits in `next_slot` or has detached. -/
theorem cpuThread_stuck (simulated : ∃ memramsz memswpsz config,
      Simulated timeSlot memramsz memswpsz config threads.sim) (inTurn : threads.InTurn)
    (clean : ¬ threads.Faulting) {id : Fin numCpus}
    (stuck : cpuThread timeSlot threads id = none) :
    (threads.barrier.devList (cpuDevice id)).point = .detached ∨
      ((threads.barrier.devList (cpuDevice id)).point = .waiting ∧
        (threads.barrier.devList (cpuDevice id)).done = true) := by
  rcases simulated with ⟨memramsz, memswpsz, config, simulated⟩
  have owned := simulated.owned
  unfold cpuThread at stuck
  cases point : (threads.sim.cpus id).point with
  | slot =>
      rw [point] at stuck
      dsimp only at stuck
      by_cases left : (threads.barrier.devList (cpuDevice id)).point = .detached
      · exact Or.inl left
      · refine Or.inr (nextSlot_enabled left ?_)
        split at stuck
        · assumption
        · cases stuck
        · rw [cpuStep] at stuck
          simp [point] at stuck
  | stopped =>
      rw [point, Option.map_eq_none_iff, barrierStep] at stuck
      cases place : (threads.barrier.devList (cpuDevice id)).point with
      | inSlot => simp [place] at stuck
      | waiting => cases point.symm.trans ((inTurn.cpu id).waits place)
      | detached => exact Or.inl rfl
  | running =>
      rcases simulated.holds id (Or.inl point) with ⟨proc, holds⟩
      have defined : (run threads.sim.os proc).2.Defined := by
        by_contra undefined
        exact clean ⟨id, proc, point, holds, undefined⟩
      rcases stepRunning_enabled owned point holds defined with ⟨after, moves⟩
      simp [point, cpuStep, moves] at stuck
  | removed =>
      rcases simulated.holds id (Or.inr point) with ⟨proc, holds⟩
      rcases stepRemoved_enabled owned point holds with ⟨after, moves⟩
      simp [point, cpuStep, moves] at stuck
  | top =>
      rcases stepTop_enabled owned point with ⟨after, moves⟩
      simp [point, cpuStep, moves] at stuck
  | freed => simp [point, cpuStep] at stuck
  | yielded => simp [point, cpuStep] at stuck
  | recheck => simp [point, cpuStep] at stuck

theorem loaderThread_stuck (onTime : threads.sim.pending.length = threads.startTimes.length)
    (closing : threads.sim.done = true → threads.loader = .closing) (inTurn : threads.InTurn)
    (stuck : loaderThread threads = none) :
    (threads.barrier.devList loaderDevice).point = .detached ∨
      ((threads.barrier.devList loaderDevice).point = .waiting ∧
        (threads.barrier.devList loaderDevice).done = true) := by
  unfold loaderThread at stuck
  cases point : threads.loader with
  | ready =>
      have unset : threads.sim.done = false := by
        by_contra set
        rw [Bool.not_eq_false] at set
        cases point.symm.trans (closing set)
      cases times : threads.startTimes with
      | nil =>
          rw [times] at onTime
          have last := List.length_eq_zero_iff.mp onTime
          simp [point, times, loaderStep, last, unset] at stuck
      | cons startTime rest =>
          cases next : threads.sim.pending with
          | nil =>
              rw [times, next] at onTime
              cases onTime
          | cons spec more =>
              rcases spec with ⟨code, prio⟩
              rw [point, times] at stuck
              dsimp only at stuck
              split at stuck
              · cases stuck
              · simp [loaderStep, next] at stuck
  | slot =>
      rw [point] at stuck
      dsimp only at stuck
      by_cases left : (threads.barrier.devList loaderDevice).point = .detached
      · exact Or.inl left
      · refine Or.inr (nextSlot_enabled left ?_)
        split at stuck
        · assumption
        · cases stuck
        · cases stuck
  | closing =>
      rw [point, Option.map_eq_none_iff, barrierStep] at stuck
      cases place : (threads.barrier.devList loaderDevice).point with
      | inSlot => simp [place] at stuck
      | waiting => cases point.symm.trans (inTurn.loader.waits place)
      | detached => exact Or.inl rfl

/-- A timer that is stuck waits for a device in its slot, or has ended. -/
theorem timerStep_stuck {barrier : Barrier (numCpus + 1)} (stuck : timerStep barrier = none) :
    barrier.timer = .stopped ∨
      ∃ device, (barrier.devList device).done = false ∧ (barrier.devList device).fsh = false := by
  unfold timerStep at stuck
  split at stuck
  · split at stuck <;> cases stuck
  · split at stuck
    · next position fsh event timer inside =>
        dsimp only at stuck
        split at stuck
        · cases stuck
        · next waits =>
            rw [Bool.or_eq_true, not_or, Bool.not_eq_true, Bool.not_eq_true] at waits
            exact Or.inr ⟨⟨position, inside⟩, waits⟩
    · cases stuck
  · split at stuck
    · cases stuck
    · split at stuck <;> cases stuck
  · next stopped => exact Or.inl stopped

end Enabled

/-- When no thread can act, all CPUs have stopped, or one of them faults. -/
theorem Threaded.stuck {slice : Nat} {memramsz memswpsz : Addr} {config : List ProcessSpec}
    {threads : Threads numCpus} (some_cpu : 0 < numCpus) (few : config.length ≤ MAX_QUEUE_SIZE)
    (reached : Threaded slice memramsz memswpsz config threads) (clean : ¬ threads.Faulting)
    (stuck : ∀ action, threadStep slice threads action = none) :
    ∀ id, (threads.sim.cpus id).point = .stopped := by
  have inTurn := reached.inTurn
  have counted := reached.parts.2.counted
  -- every device has detached, or waits for the timer to clear `done`
  have devices : ∀ device, (threads.barrier.devList device).point = .detached ∨
      ((threads.barrier.devList device).point = .waiting ∧
        (threads.barrier.devList device).done = true) := by
    intro device
    cases device using Fin.cases with
    | zero =>
        exact loaderThread_stuck reached.onTime.pending (reached.working some_cpu few).closing inTurn
          (stuck .loader)
    | succ id =>
        have mine := cpuThread_stuck ⟨_, _, _, reached.parts.1⟩ inTurn clean (stuck (.cpu id.rev))
        rwa [cpuDevice, Fin.rev_rev] at mine
  have timer := stuck .timer
  rw [threadStep, Option.map_eq_none_iff] at timer
  have all : ∀ device, (threads.barrier.devList device).point = .detached := by
    rcases timerStep_stuck timer with stopped | ⟨device, unset, attached⟩
    · rcases counted.stopped stopped with asked | all
      · exact reached.joined asked
      · exact all
    · -- the timer waits for no device
      rcases devices device with left | ⟨_, set⟩
      · cases attached.symm.trans ((counted.flags device).mpr left)
      · cases unset.symm.trans set
  exact fun id => (inTurn.cpu id).left (all _)

end Kernel
end Ossim
