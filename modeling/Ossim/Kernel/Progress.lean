import Ossim.Kernel.Turns
import Ossim.Library.Rounds

namespace Ossim
namespace Kernel

open Memory

/-!
# The work of a tick

A thread that has called `next_slot` waits for the timer, and the timer waits for
the threads.  So between two ticks each thread goes through its loop at most once,
and the timer through its two walks.  The actions that are left in a tick are
counted here, thread by thread; every action takes one away, and the tick alone
brings new ones.
-/

/-! ## The actions that are left -/

/-- The actions of `cpu_routine` up to its next call of `next_slot` or
`detach_event`, and that call. -/
def CpuPoint.work : CpuPoint → Nat
  | .top => 6
  | .removed => 5
  | .freed => 4
  | .yielded => 4
  | .recheck => 3
  | .running => 2
  | .slot => 1
  | .stopped => 1

def LoaderPoint.work : LoaderPoint → Nat
  | .ready => 2
  | .slot => 1
  | .closing => 1

/-- The sections of `timer_routine` up to the next tick. -/
def TimerPoint.work (numDevices : Nat) : TimerPoint → Nat
  | .top => numDevices + 1
  | .collecting position _ _ => numDevices - position
  | .releasing position _ _ => numDevices - position + (numDevices + 2)
  | .stopped => 0

/-- The actions that the thread of a device has left in this tick, when its loop
has `work` of them up to its next call. -/
def Barrier.remaining {numDevices : Nat} (barrier : Barrier numDevices) (device : Fin numDevices)
    (work : Nat) : Nat :=
  match (barrier.devList device).point with
  | .inSlot => work
  | .waiting => 7 * (ticks barrier.history - begun barrier.history device)
  | .detached => 0

theorem CpuPoint.work_pos (point : CpuPoint) : 0 < point.work := by
  cases point <;> decide

theorem CpuPoint.work_le (point : CpuPoint) : point.work ≤ 6 := by
  cases point <;> decide

theorem LoaderPoint.work_pos (point : LoaderPoint) : 0 < point.work := by
  cases point <;> decide

theorem LoaderPoint.work_le (point : LoaderPoint) : point.work ≤ 6 := by
  cases point <;> decide

theorem TimerPoint.work_le (numDevices : Nat) (point : TimerPoint) :
    point.work numDevices ≤ 2 * numDevices + 2 := by
  cases point <;> simp only [TimerPoint.work] <;> omega

section Device

variable {numDevices : Nat} {before after : Barrier numDevices} {device : Fin numDevices}
variable {work work' : Nat}

theorem Still.remaining (same : Still before after device) :
    after.remaining device work = before.remaining device work := by
  rw [Barrier.remaining, Barrier.remaining, same.point, same.clock, same.begins]

theorem remaining_inSlot (point : (before.devList device).point = .inSlot) :
    before.remaining device work = work := by
  rw [Barrier.remaining, point]

/-- After the first section of `next_slot` the thread has nothing left. -/
theorem remaining_tell (standing : before.InStep device) (positive : 0 < work)
    (taken : barrierStep before (.tell device) = some after) :
    after.remaining device work' < before.remaining device work := by
  rcases tell_eq taken with ⟨point, rfl⟩
  rw [remaining_inSlot point, Barrier.remaining]
  simp [TimerEvent.isBegin, standing.begun_inSlot point, positive]

/-- The second section brings the thread back into its loop. -/
theorem remaining_proceed (standing : before.InStep device) (bounded : work' ≤ 6)
    (taken : barrierStep before (.proceed device) = some after) :
    after.remaining device work' < before.remaining device work := by
  rcases proceed_eq taken with ⟨point, free, rfl⟩
  have released := standing.begun_released point free
  have one : ticks before.history - begun before.history device = 1 := by omega
  rw [remaining_inSlot (by simp), Barrier.remaining, point, one]
  exact Nat.lt_succ_of_le bounded

theorem remaining_detach (positive : 0 < work)
    (taken : barrierStep before (.detachEvent device) = some after) :
    after.remaining device work' < before.remaining device work := by
  rcases detachEvent_eq taken with ⟨point, rfl⟩
  rw [remaining_inSlot point, Barrier.remaining]
  simpa using positive

theorem Barrier.remaining_le (standing : before.InStep device) (bounded : work ≤ 6) :
    before.remaining device work ≤ 7 := by
  unfold Barrier.remaining
  split
  · omega
  · next waits =>
      rcases standing.begun_cases (by simp [waits]) with current | ⟨_, behind⟩ <;> omega
  · exact Nat.zero_le 7

/-- A section of the timer is one of those that it has left, or is the tick. -/
theorem timerStep_work (taken : timerStep before = some after) :
    after.timerStop = before.timerStop ∧
      (after.timer.work numDevices < before.timer.work numDevices ∨
        ticks after.history = ticks before.history + 1) := by
  unfold timerStep at taken
  split at taken
  · next timer =>
      rw [timer]
      split at taken <;> cases taken <;> refine ⟨rfl, Or.inl ?_⟩ <;>
        simp [TimerPoint.work]
  · next position fsh event timer =>
      split at taken
      · next inside =>
          dsimp only at taken
          split at taken
          · cases taken
            refine ⟨rfl, Or.inl ?_⟩
            rw [timer, Barrier.setTimer_timer, TimerPoint.work, TimerPoint.work]
            omega
          · cases taken
      · cases taken
        exact ⟨rfl, Or.inr (by simp)⟩
  · next position fsh event timer =>
      rw [timer]
      split at taken
      · next inside =>
          cases taken
          refine ⟨rfl, Or.inl ?_⟩
          rw [Barrier.record_timer, Barrier.setTimer_timer, TimerPoint.work, TimerPoint.work]
          omega
      · split at taken <;> cases taken <;> refine ⟨rfl, Or.inl ?_⟩ <;>
          simp only [Barrier.setTimer_timer, TimerPoint.work] <;> omega
  · cases taken

/-- A section of one device leaves the timer and the other devices alone. -/
structure Acted (before after : Barrier numDevices) (acting : Fin numDevices) : Prop where
  timer : after.timer = before.timer
  timerStop : after.timerStop = before.timerStop
  clock : ticks after.history = ticks before.history
  others : ∀ other, other ≠ acting → Still before after other

theorem Acted.refl (barrier : Barrier numDevices) (acting : Fin numDevices) :
    Acted barrier barrier acting :=
  ⟨rfl, rfl, rfl, fun _ _ => ⟨rfl, rfl, rfl⟩⟩

theorem acted_tell (taken : barrierStep before (.tell device) = some after) :
    Acted before after device := by
  refine ⟨?_, ?_, ?_, fun other different => tell_still different taken⟩
  all_goals
    rw [(tell_eq taken).2]
    simp

theorem acted_proceed (taken : barrierStep before (.proceed device) = some after) :
    Acted before after device := by
  refine ⟨?_, ?_, ?_, fun other different => proceed_still different taken⟩
  all_goals
    rw [(proceed_eq taken).2.2]
    simp

theorem acted_detach (taken : barrierStep before (.detachEvent device) = some after) :
    Acted before after device := by
  refine ⟨?_, ?_, ?_, fun other different => detachEvent_still different taken⟩
  all_goals
    rw [(detachEvent_eq taken).2]
    simp

end Device

/-- Between two slots every action of the loop takes one away. -/
theorem SimEffect.work {numCpus : Nat} {timeSlot : Int} {sim later : Simulator numCpus}
    {id : Fin numCpus} (effect : SimEffect timeSlot sim (.cpu id) later)
    (outside : (sim.cpus id).point ≠ .slot) :
    (later.cpus id).point.work < (sim.cpus id).point.work := by
  cases effect with
  | acquired _ _ _ _ asks _ =>
      cases asks with
      | top point _ => simp [point, CpuPoint.work]
      | freed point => simp [point, CpuPoint.work]
      | yielded point => simp [point, CpuPoint.work]
  | emptied _ _ _ asks elsewhere _ =>
      cases asks with
      | top point _ => exact absurd point elsewhere
      | freed point => simp [point, CpuPoint.work]
      | yielded point => simp [point, CpuPoint.work]
  | skipped _ _ point _ _ => simp [point, CpuPoint.work]
  | removed _ _ _ point _ _ _ => simp [point, CpuPoint.work]
  | putBack _ _ _ point _ _ _ _ => simp [point, CpuPoint.work]
  | kept _ _ _ point _ _ _ _ => simp [point, CpuPoint.work]
  | freed _ _ _ point _ _ => simp [point, CpuPoint.work]
  | stopped _ point _ _ => simp [point, CpuPoint.work]
  | waiting _ point _ _ => simp [point, CpuPoint.work]
  | dispatched _ _ point _ _ => simp [point, CpuPoint.work]
  | resumed _ _ point _ _ => simp [point, CpuPoint.work]
  | ran _ _ _ point _ _ _ => simp [point, CpuPoint.work]
  | nextSlot _ point => exact absurd point outside

/-! ## All threads -/

variable {numCpus : Nat}

/-- The actions that all threads have left in this tick. -/
def Threads.remaining (threads : Threads numCpus) : Nat :=
  threads.barrier.timer.work (numCpus + 1) + (if threads.barrier.timerStop then 0 else 1) +
    threads.barrier.remaining loaderDevice threads.loader.work +
      ∑ id, threads.barrier.remaining (cpuDevice id) (threads.sim.cpus id).point.work

/-- No tick leaves more to do than this. -/
def actionsPerTick (numCpus : Nat) : Nat := 9 * (numCpus + 1) + 3

section Step

variable {timeSlot : Int} {threads after : Threads numCpus}

theorem Threads.remaining_le (standing : ∀ device, threads.barrier.InStep device) :
    threads.remaining ≤ actionsPerTick numCpus := by
  have timer := threads.barrier.timer.work_le (numCpus + 1)
  have main : (if threads.barrier.timerStop then 0 else 1) ≤ 1 := by
    split <;> decide
  have loader := Barrier.remaining_le (standing loaderDevice) threads.loader.work_le
  have cpus : (∑ id, threads.barrier.remaining (cpuDevice id) (threads.sim.cpus id).point.work) ≤
      numCpus * 7 := by
    calc
      _ ≤ ∑ _id : Fin numCpus, 7 := Finset.sum_le_sum fun id _ =>
        Barrier.remaining_le (standing (cpuDevice id)) (threads.sim.cpus id).point.work_le
      _ = numCpus * 7 := by rw [Finset.sum_const, Finset.card_univ, Fintype.card_fin, smul_eq_mul]
  rw [Threads.remaining, actionsPerTick]
  omega

/-- A CPU acts. -/
theorem Threads.remaining_cpu {id : Fin numCpus} {sim : Simulator numCpus}
    {barrier : Barrier (numCpus + 1)} (log : List (LogEntry numCpus))
    (acted : Acted threads.barrier barrier (cpuDevice id))
    (others : ∀ other, other ≠ id → sim.cpus other = threads.sim.cpus other)
    (less : barrier.remaining (cpuDevice id) (sim.cpus id).point.work <
      threads.barrier.remaining (cpuDevice id) (threads.sim.cpus id).point.work) :
    Threads.remaining { threads with sim := sim, barrier := barrier, log := log } <
      threads.remaining := by
  have same : ∀ other, other ≠ id →
      barrier.remaining (cpuDevice other) (sim.cpus other).point.work =
        threads.barrier.remaining (cpuDevice other) (threads.sim.cpus other).point.work := by
    intro other different
    rw [others other different, (acted.others _ (cpuDevice_ne different)).remaining]
  have total : (∑ other, barrier.remaining (cpuDevice other) (sim.cpus other).point.work) <
      ∑ other, threads.barrier.remaining (cpuDevice other) (threads.sim.cpus other).point.work := by
    refine Finset.sum_lt_sum (fun other _ => ?_) ⟨id, Finset.mem_univ id, less⟩
    by_cases mine : other = id
    · rw [mine]
      exact Nat.le_of_lt less
    · exact Nat.le_of_eq (same other mine)
  unfold Threads.remaining
  dsimp only
  rw [acted.timer, acted.timerStop,
    (acted.others _ (cpuDevice_ne_loaderDevice id).symm).remaining]
  exact Nat.add_lt_add_left total _

/-- The loader acts. -/
theorem Threads.remaining_loader {sim : Simulator numCpus} {barrier : Barrier (numCpus + 1)}
    {loader : LoaderPoint} (startTimes : List (BitVec 64)) (log : List (LogEntry numCpus))
    (acted : Acted threads.barrier barrier loaderDevice) (cpus : sim.cpus = threads.sim.cpus)
    (less : barrier.remaining loaderDevice loader.work <
      threads.barrier.remaining loaderDevice threads.loader.work) :
    Threads.remaining ⟨sim, barrier, loader, startTimes, log⟩ < threads.remaining := by
  have same : ∀ id : Fin numCpus,
      barrier.remaining (cpuDevice id) (sim.cpus id).point.work =
        threads.barrier.remaining (cpuDevice id) (threads.sim.cpus id).point.work := by
    intro id
    rw [cpus, (acted.others _ (cpuDevice_ne_loaderDevice id)).remaining]
  unfold Threads.remaining
  dsimp only
  rw [acted.timer, acted.timerStop, Finset.sum_congr rfl fun id _ => same id]
  omega

/-- Every action is one of those that are left in the tick, or is the tick. -/
theorem ThreadEffect.spends (effect : ThreadEffect timeSlot threads after)
    (inTurn : threads.InTurn) (standing : ∀ device, threads.barrier.InStep device) :
    (after.clock = threads.clock ∧ after.remaining < threads.remaining) ∨
      after.clock = threads.clock + 1 := by
  have others : ∀ {id : Fin numCpus} {sim : Simulator numCpus},
      simStep timeSlot threads.sim (.cpu id) = some sim →
        ∀ other, other ≠ id → sim.cpus other = threads.sim.cpus other :=
    fun moved other different => (simStep_effect moved).cpus_of_ne fun same =>
      different (SimAction.cpu.inj same).symm
  have loading : ∀ {sim : Simulator numCpus},
      simStep timeSlot threads.sim .loader = some sim → sim.cpus = threads.sim.cpus :=
    fun moved => funext fun id => (simStep_effect moved).cpus_of_ne (by simp)
  have ready : threads.loader = .ready →
      (threads.barrier.devList loaderDevice).point = .inSlot := fun point =>
    (inTurn.loader.idle (by simp [point])).1
  cases effect with
  | timer barrier taken =>
      rcases timerStep_work taken with ⟨stop, fewer | tick⟩
      · cases timerStep_turn taken with
        | tick clock _ _ _ _ => exact Or.inr clock
        | quiet still _ =>
            refine Or.inl ⟨(still loaderDevice).clock, ?_⟩
            unfold Threads.remaining
            dsimp only
            rw [stop, (still loaderDevice).remaining,
              Finset.sum_congr rfl fun id _ => (still (cpuDevice id)).remaining]
            omega
      · exact Or.inr tick
  | worked id sim outside moved =>
      refine Or.inl ⟨rfl, Threads.remaining_cpu threads.log (Acted.refl _ _) (others moved) ?_⟩
      have inside := ((inTurn.cpu id).idle ⟨outside.1, outside.2.2⟩).1
      rw [remaining_inSlot inside, remaining_inSlot inside]
      exact (simStep_effect moved).work outside.1
  | ran id sim point moved =>
      refine Or.inl ⟨rfl, Threads.remaining_cpu _ (Acted.refl _ _) (others moved) ?_⟩
      have inside := ((inTurn.cpu id).idle (by simp [point])).1
      rw [remaining_inSlot inside, remaining_inSlot inside]
      exact (simStep_effect moved).work (by simp [point])
  | cpuTold id barrier point taken =>
      have acted := acted_tell taken
      exact Or.inl ⟨acted.clock, Threads.remaining_cpu threads.log acted (fun _ _ => rfl)
        (remaining_tell (standing _) (CpuPoint.work_pos _) taken)⟩
  | cpuBegan id barrier sim point taken moved =>
      have acted := acted_proceed taken
      exact Or.inl ⟨acted.clock, Threads.remaining_cpu threads.log acted (others moved)
        (remaining_proceed (standing _) (CpuPoint.work_le _) taken)⟩
  | cpuDetached id barrier point taken =>
      have acted := acted_detach taken
      exact Or.inl ⟨acted.clock, Threads.remaining_cpu threads.log acted (fun _ _ => rfl)
        (remaining_detach (CpuPoint.work_pos _) taken)⟩
  | postponed startTime rest point next early =>
      refine Or.inl ⟨rfl, Threads.remaining_loader _ _ (Acted.refl _ _) rfl ?_⟩
      rw [remaining_inSlot (ready point), remaining_inSlot (ready point), point]
      decide
  | added startTime rest sim point next due moved =>
      refine Or.inl ⟨rfl, Threads.remaining_loader _ _ (Acted.refl _ _) (loading moved) ?_⟩
      rw [remaining_inSlot (ready point), remaining_inSlot (ready point), point]
      decide
  | closed sim point last moved =>
      refine Or.inl ⟨rfl, Threads.remaining_loader _ _ (Acted.refl _ _) (loading moved) ?_⟩
      rw [remaining_inSlot (ready point), remaining_inSlot (ready point), point]
      decide
  | loaderTold barrier point taken =>
      have acted := acted_tell taken
      exact Or.inl ⟨acted.clock, Threads.remaining_loader _ _ acted rfl
        (remaining_tell (standing _) (LoaderPoint.work_pos _) taken)⟩
  | loaderBegan barrier point taken =>
      have acted := acted_proceed taken
      exact Or.inl ⟨acted.clock, Threads.remaining_loader _ _ acted rfl
        (remaining_proceed (standing _) (LoaderPoint.work_le _) taken)⟩
  | loaderDetached barrier point taken =>
      have acted := acted_detach taken
      exact Or.inl ⟨acted.clock, Threads.remaining_loader _ _ acted rfl
        (remaining_detach (LoaderPoint.work_pos _) taken)⟩
  | halted unset all =>
      refine Or.inl ⟨rfl, ?_⟩
      unfold Threads.remaining
      dsimp only
      rw [unset, if_pos rfl, if_neg Bool.false_ne_true]
      have same : ∀ (device : Fin (numCpus + 1)) (work : Nat),
          Barrier.remaining { threads.barrier with timerStop := true } device work =
            threads.barrier.remaining device work := fun _ _ => rfl
      simp only [same]
      omega

end Step

/-- The ticks are rounds of the threads. -/
theorem threads_rounds (timeSlot : Int) (memramsz memswpsz : Addr) (config : List ProcessSpec) :
    Transition.Rounds (threadStep timeSlot)
      (fun threads : Threads numCpus => Threaded timeSlot memramsz memswpsz config threads)
        Threads.clock Threads.remaining (actionsPerTick numCpus) where
  keeps before action after reached taken := by
    exact reached.snoc taken
  spends before action after reached taken := by
    have standing := reached.parts.2.inStep.1
    rcases (threadStep_effect taken).spends reached.inTurn standing with spent | tick
    · exact Or.inl spent
    · have later := reached.snoc taken
      exact Or.inr ⟨tick, Threads.remaining_le later.parts.2.inStep.1⟩

/-- In any order, from any state on, the threads take at most a fixed number of
steps up to the next tick, and one more in each tick after that. -/
theorem steps_bounded (numCpus : Nat) (timeSlot : Int) (memramsz memswpsz : Addr)
    (config : List ProcessSpec) (trace : List (ThreadAction numCpus))
    (before after : Threads numCpus)
    (reached : Threaded timeSlot memramsz memswpsz config before)
    (path : Transition.Run (threadStep timeSlot) before trace after) :
    before.clock ≤ after.clock ∧
      trace.length ≤ actionsPerTick numCpus +
        (actionsPerTick numCpus + 1) * (after.clock - before.clock) := by
  rcases (threads_rounds timeSlot memramsz memswpsz config).length_le path reached with
    ⟨_, later, bounded⟩
  have left := Threads.remaining_le reached.parts.2.inStep.1
  exact ⟨later, by omega⟩

theorem steps_bounded_twoCalcs : ∃ (trace : List (ThreadAction 2)) (threads : Threads 2),
    Transition.Run (threadStep 2) (create 2 1024 0 nullHeads twoCalcs) trace threads ∧
      threads.clock = 3 ∧ trace.length ≤ actionsPerTick 2 + (actionsPerTick 2 + 1) * 3 := by
  rcases twoCalcs_reached with ⟨threads, trace, path, clock, _⟩
  have bounded := (steps_bounded 2 2 1024 0 twoCalcs trace _ threads ⟨nullHeads, [], .nil⟩ path).2
  rw [clock] at bounded
  exact ⟨trace, threads, path, clock, bounded⟩

end Kernel
end Ossim
