import Ossim.Kernel.Arrivals
import Ossim.Kernel.Demand

namespace Ossim
namespace Kernel

open Memory

/-!
# Every process is finished

From the tick after the last process is added, no tick passes without a call of
`run` while a process is left.  So the processes are finished after as many ticks
as the configuration needs calls of `run`, and two more: one in which the last
process is added, and one in which the last process is released.

The same invariant settles the end of the simulation.  A CPU stops after it has
found all queues empty, and asks for a process and tests `done` in one slot.  The
last process was added in a slot before that, so no CPU stops too early, and
when all of them have stopped there is nothing left.  The loops without the
barrier do not have this property: between the two calls the loader could add a
process and set `done`.
-/

variable {numCpus : Nat}

namespace Threads

/-- No process will be added, and none was added in this tick. -/
def Settled (threads : Threads numCpus) : Prop :=
  threads.sim.pending = [] ∧ addsAt threads.log threads.clock = 0

/-- The CPU has its turn in this tick still before it, or is in it. -/
def Due (threads : Threads numCpus) (id : Fin numCpus) : Prop :=
  ((threads.sim.cpus id).point ≠ .slot ∧ (threads.sim.cpus id).point ≠ .stopped) ∨
    ((threads.sim.cpus id).point = .slot ∧
      begun threads.barrier.history (cpuDevice id) + 1 = threads.clock)

/-- The calls of `run` in this tick. -/
def runsNow (threads : Threads numCpus) : Nat := ∑ id, runsAt threads.log id threads.clock

/-- The tick of the last call of `add_proc`. -/
def lastAdd (threads : Threads numCpus) : Nat := (addTicks threads.log).getLastD 0

/-- The work of a tick is done in it. -/
structure Working (threads : Threads numCpus) : Prop where
  closing : threads.sim.done = true → threads.loader = .closing
  latest : addsAt threads.log threads.clock ≠ 0 → threads.lastAdd = threads.clock
  /-- A CPU that keeps its process to the end of its turn has run it. -/
  served : ∀ id proc, (threads.sim.cpus id).point = .slot →
    (threads.sim.cpus id).proc = some proc →
      begun threads.barrier.history (cpuDevice id) = threads.clock →
        runsAt threads.log id threads.clock ≠ 0
  tended : threads.Settled → threads.sim.Tended
  due : threads.Settled → threads.runsNow = 0 → threads.sim.Demand →
    threads.sim.Awaits threads.Due
  counted : threads.Settled → (∃ proc, (threads.sim.os.procs proc).isSome = true) →
    threads.clock + threads.runsNow ≤ threads.lastAdd + 1 + runCalls threads.sim.history

end Threads

section Step

variable {timeSlot : Int} {threads after : Threads numCpus}

/-- What a tick finds: every CPU has stopped, or waits after its turn. -/
theorem Threads.InTurn.collected (inTurn : threads.InTurn)
    (standing : ∀ device, threads.barrier.InStep device)
    (passed : ∀ device, threads.barrier.Collected device) (id : Fin numCpus) :
    (threads.sim.cpus id).point = .stopped ∨
      ((threads.sim.cpus id).point = .slot ∧
        begun threads.barrier.history (cpuDevice id) = threads.clock) := by
  rcases (standing _).begun_collected (passed _) with left | ⟨waits, current⟩
  · exact Or.inl ((inTurn.cpu id).left left)
  · exact Or.inr ⟨(inTurn.cpu id).waits waits, current⟩

/-- No tick passes without a call of `run` while a process is left. -/
theorem Threads.Working.busy (working : threads.Working) (inTurn : threads.InTurn)
    (attended : threads.sim.Attended) (ended : threads.sim.Ended)
    (standing : ∀ device, threads.barrier.InStep device)
    (passed : ∀ device, threads.barrier.Collected device) (settled : threads.Settled)
    {proc : ProcRef} (alive : (threads.sim.os.procs proc).isSome = true) :
    threads.runsNow ≠ 0 := by
  intro quiet
  have each : ∀ id, runsAt threads.log id threads.clock = 0 := fun id =>
    Finset.sum_eq_zero_iff.mp quiet id (Finset.mem_univ id)
  have placed := attended.placed proc alive
  rw [Simulator.places] at placed
  by_cases waits : 0 < threads.sim.os.sched.waiting proc
  · -- a queued process is awaited by a CPU that is due, and no CPU is due any more
    rcases (waiting_pos_iff _ _).mp waits with ⟨prio, queued⟩
    rcases working.due settled quiet (Or.inl ⟨prio, List.ne_nil_of_mem queued⟩) with
      ⟨server, due, _⟩
    rcases inTurn.collected standing passed server with stopped | ⟨slot, current⟩
    · rcases due with ⟨_, unstopped⟩ | ⟨slot, _⟩
      · exact unstopped stopped
      · cases slot.symm.trans stopped
    · rcases due with ⟨unslotted, _⟩ | ⟨_, behind⟩
      · exact unslotted slot
      · omega
  · rcases (holding_pos_iff _ _).mp (by omega : 0 < holding threads.sim.cpus proc) with ⟨id, held⟩
    rcases inTurn.collected standing passed id with stopped | ⟨slot, current⟩
    · rw [Cpu.current, stopped, (ended id stopped).1] at held
      cases held
    · rw [Cpu.current, slot] at held
      exact working.served id proc slot held current (each id)

/-- A section of the barrier that leaves the slots of the CPUs alone. -/
theorem Threads.Working.still (working : threads.Working) {barrier : Barrier (numCpus + 1)}
    {loader : LoaderPoint} (clock : ticks barrier.history = ticks threads.barrier.history)
    (begins : ∀ id : Fin numCpus,
      begun barrier.history (cpuDevice id) = begun threads.barrier.history (cpuDevice id))
    (closing : threads.sim.done = true → loader = .closing) :
    Threads.Working { threads with barrier := barrier, loader := loader } := by
  have same : Threads.clock { threads with barrier := barrier, loader := loader } = threads.clock :=
    clock
  have settledBefore : Threads.Settled { threads with barrier := barrier, loader := loader } →
      threads.Settled := fun settled => ⟨settled.1, same ▸ settled.2⟩
  have runs : Threads.runsNow { threads with barrier := barrier, loader := loader } =
      threads.runsNow := by
    rw [Threads.runsNow, same, Threads.runsNow]
  refine ⟨closing, fun acted => ?_, fun id proc slot holds current => ?_, fun settled => ?_,
    fun settled quiet demand => ?_, fun settled alive => ?_⟩
  · rw [same] at acted ⊢
    exact working.latest acted
  · rw [same] at current ⊢
    exact working.served id proc slot holds ((begins id).symm.trans current)
  · exact working.tended (settledBefore settled)
  · rcases working.due (settledBefore settled) (runs ▸ quiet) demand with ⟨server, due, service⟩
    refine ⟨server, ?_, service⟩
    rcases due with working | ⟨slot, behind⟩
    · exact Or.inl working
    · refine Or.inr ⟨slot, ?_⟩
      rw [same, ← behind]
      exact congrArg Nat.succ (begins server)
  · rw [same, runs]
    exact working.counted (settledBefore settled) alive

/-- The tick. -/
theorem Threads.Working.tick (working : threads.Working) (inTurn : threads.InTurn)
    (attended : threads.sim.Attended) (ended : threads.sim.Ended) (some_cpu : 0 < numCpus)
    (standing : ∀ device, threads.barrier.InStep device) {barrier : Barrier (numCpus + 1)}
    (clock : ticks barrier.history = ticks threads.barrier.history + 1)
    (begins : ∀ device, begun barrier.history device = begun threads.barrier.history device)
    (passed : ∀ device, threads.barrier.Collected device) :
    Threads.Working { threads with barrier := barrier } := by
  have next : Threads.clock { threads with barrier := barrier } = threads.clock + 1 := clock
  have unrun : ∀ id, runsAt threads.log id (threads.clock + 1) = 0 := fun id =>
    (inTurn.cpu id).past _ (Nat.lt_succ_self _)
  have unadded : addsAt threads.log (threads.clock + 1) = 0 :=
    inTurn.loader.past _ (Nat.lt_succ_self _)
  have none : Threads.runsNow { threads with barrier := barrier } = 0 := by
    rw [Threads.runsNow, next]
    exact Finset.sum_eq_zero fun id _ => unrun id
  -- before the tick the threads were settled, or the loader has just added a process
  have before : threads.sim.pending = [] → threads.Settled ∨
      (threads.loader = .slot ∧ threads.lastAdd = threads.clock) := by
    intro last
    by_cases acted : addsAt threads.log threads.clock = 0
    · exact Or.inl ⟨last, acted⟩
    · exact Or.inr ⟨(inTurn.loader.used acted).1, working.latest acted⟩
  have tended : threads.sim.pending = [] → threads.sim.Tended := by
    intro last backlog
    rcases before last with settled | ⟨slot, _⟩
    · exact working.tended settled backlog
    · refine ⟨⟨0, some_cpu⟩, ?_⟩
      rcases inTurn.collected standing passed ⟨0, some_cpu⟩ with stopped | ⟨point, _⟩
      · have closing := working.closing (ended _ stopped).2
        cases slot.symm.trans closing
      · exact ⟨by simp [point], by simp [point]⟩
  refine ⟨working.closing, fun acted => ?_, fun id proc slot holds current => ?_,
    fun settled => tended settled.1, fun settled _ demand => ?_, fun settled alive => ?_⟩
  · rw [next] at acted
    exact absurd unadded acted
  · rcases inTurn.collected standing passed id with stopped | ⟨_, earlier⟩
    · cases slot.symm.trans stopped
    · dsimp only at current
      rw [next, begins, earlier] at current
      omega
  · -- every CPU that has not stopped has its turn before it
    have due : ∀ id, (threads.sim.cpus id).point ≠ .stopped →
        (threads.sim.cpus id).point = .slot ∧ Threads.Due { threads with barrier := barrier } id := by
      intro id unstopped
      rcases inTurn.collected standing passed id with stopped | ⟨slot, current⟩
      · exact absurd stopped unstopped
      · refine ⟨slot, Or.inr ⟨slot, ?_⟩⟩
        rw [next, ← current]
        exact congrArg Nat.succ (begins _)
    rcases demand with backlog | ⟨server, serves⟩
    · rcases tended settled.1 backlog with ⟨server, active⟩
      rcases due server active.1 with ⟨slot, mine⟩
      exact ⟨server, mine, Or.inr ⟨backlog, by simp [Cpu.Asking, slot]⟩⟩
    · have unstopped : (threads.sim.cpus server).point ≠ .stopped := by
        intro stopped
        rcases serves.held with ⟨_, _, holding⟩
        rw [(ended server stopped).1] at holding
        cases holding
      exact ⟨server, (due server unstopped).2, Or.inl serves⟩
  · rw [next, none]
    rcases alive with ⟨proc, alive⟩
    rcases before settled.1 with earlier | ⟨_, latest⟩
    · have counted := working.counted earlier ⟨proc, alive⟩
      have busy := working.busy inTurn attended ended standing passed earlier alive
      change threads.clock + 1 + 0 ≤ threads.lastAdd + 1 + runCalls threads.sim.history
      omega
    · change threads.clock + 1 + 0 ≤ threads.lastAdd + 1 + runCalls threads.sim.history
      omega

/-- A CPU acts in its turn without calling `run`. -/
theorem Threads.Working.act (working : threads.Working) (owned : threads.sim.Owned)
    (attended : threads.sim.Attended) {id : Fin numCpus} {sim : Simulator numCpus}
    (effect : SimEffect timeSlot threads.sim (.cpu id) sim)
    (quiet : (threads.sim.cpus id).point ≠ .running) (acting : threads.Due id)
    {barrier : Barrier (numCpus + 1)}
    (clock : ticks barrier.history = ticks threads.barrier.history)
    (begins : ∀ other, other ≠ id → begun barrier.history (cpuDevice other) =
      begun threads.barrier.history (cpuDevice other)) :
    Threads.Working { threads with sim := sim, barrier := barrier } := by
  have same : Threads.clock { threads with sim := sim, barrier := barrier } = threads.clock := clock
  rcases effect.cpu_frame owned with ⟨_, pending, done⟩
  have settledBefore : Threads.Settled { threads with sim := sim, barrier := barrier } →
      threads.Settled := fun settled => ⟨pending ▸ settled.1, same ▸ settled.2⟩
  have runs : Threads.runsNow { threads with sim := sim, barrier := barrier } =
      threads.runsNow := by
    rw [Threads.runsNow, same, Threads.runsNow]
  have others : ∀ {other : Fin numCpus}, other ≠ id → sim.cpus other = threads.sim.cpus other :=
    fun different => effect.cpus_of_ne fun acts => different (SimAction.cpu.inj acts).symm
  refine ⟨fun closed => working.closing (done ▸ closed), fun acted => ?_,
    fun other proc slot holds current => ?_, fun settled => ?_, fun settled unrun demand => ?_,
    fun settled alive => ?_⟩
  · rw [same] at acted ⊢
    exact working.latest acted
  · rw [same] at current ⊢
    by_cases mine : other = id
    · subst mine
      have idle := effect.idle_slot quiet slot
      dsimp only at holds
      rw [idle] at holds
      cases holds
    · dsimp only at slot holds current
      rw [others mine] at slot holds
      rw [begins other mine] at current
      exact working.served other proc slot holds current
  · exact effect.tended (working.tended (settledBefore settled))
  · have awaits := working.due (settledBefore settled) (runs ▸ unrun) (effect.demand owned demand)
    rcases effect.awaits owned attended quiet acting awaits with ⟨server, ⟨due, plain⟩, service⟩
    refine ⟨server, ?_, service⟩
    by_cases mine : server = id
    · subst mine
      exact Or.inl (plain rfl)
    · unfold Threads.Due
      rw [same, others mine, begins server mine]
      exact due
  · rw [same, runs]
    rcases alive with ⟨proc, alive⟩
    have calls := effect.runCalls
    rw [if_neg quiet, Nat.add_zero] at calls
    dsimp only
    rw [calls]
    exact working.counted (settledBefore settled) ⟨proc, effect.alive_before owned alive⟩

/-- A CPU calls `run`. -/
theorem Threads.Working.ran (working : threads.Working) (owned : threads.sim.Owned)
    {id : Fin numCpus} {sim : Simulator numCpus}
    (effect : SimEffect timeSlot threads.sim (.cpu id) sim)
    (point : (threads.sim.cpus id).point = .running) :
    Threads.Working { threads with sim := sim, log := threads.log ++ [.ran id threads.clock] } := by
  rcases effect.cpu_frame owned with ⟨_, pending, done⟩
  have others : ∀ {other : Fin numCpus}, other ≠ id → sim.cpus other = threads.sim.cpus other :=
    fun different => effect.cpus_of_ne fun acts => different (SimAction.cpu.inj acts).symm
  have each : ∀ other, runsAt (threads.log ++ [.ran id threads.clock]) other threads.clock =
      runsAt threads.log other threads.clock + if other = id then 1 else 0 := by
    intro other
    rw [runsAt_ran]
    simp [eq_comm]
  have runs : (∑ other, runsAt (threads.log ++ [.ran id threads.clock]) other threads.clock) =
      threads.runsNow + 1 := by
    simp only [each, Finset.sum_add_distrib, Finset.sum_ite_eq', Finset.mem_univ, if_true]
    rfl
  have settledBefore : Threads.Settled
      { threads with sim := sim, log := threads.log ++ [.ran id threads.clock] } →
        threads.Settled := fun settled =>
    ⟨pending ▸ settled.1, (addsAt_ran threads.log id threads.clock threads.clock).symm.trans settled.2⟩
  refine ⟨fun closed => working.closing (done ▸ closed), fun acted => ?_,
    fun other proc slot holds current => ?_, fun settled => ?_, fun _ quiet _ => ?_,
    fun settled alive => ?_⟩
  · rw [Threads.lastAdd, addTicks_ran]
    exact working.latest ((addsAt_ran threads.log id threads.clock threads.clock) ▸ acted)
  · change runsAt (threads.log ++ [.ran id threads.clock]) other threads.clock ≠ 0
    rw [each]
    by_cases mine : other = id
    · rw [if_pos mine]
      exact Nat.succ_ne_zero _
    · rw [if_neg mine, Nat.add_zero]
      dsimp only at slot holds
      rw [others mine] at slot holds
      exact working.served other proc slot holds current
  · exact effect.tended (working.tended (settledBefore settled))
  · have now := runs.symm.trans quiet
    omega
  · rcases alive with ⟨proc, alive⟩
    have counted := working.counted (settledBefore settled) ⟨proc, effect.alive_before owned alive⟩
    have calls := effect.runCalls
    rw [if_pos point] at calls
    have last : Threads.lastAdd
        { threads with sim := sim, log := threads.log ++ [.ran id threads.clock] } =
          threads.lastAdd := by
      rw [Threads.lastAdd, addTicks_ran, Threads.lastAdd]
    rw [last]
    change threads.clock + (∑ other,
      runsAt (threads.log ++ [.ran id threads.clock]) other threads.clock) ≤
        threads.lastAdd + 1 + runCalls sim.history
    rw [runs, calls]
    omega

/-- The loader adds a process, and the threads are unsettled until the next tick. -/
theorem Threads.Working.added (working : threads.Working) {sim : Simulator numCpus}
    (effect : SimEffect timeSlot threads.sim .loader sim) (point : threads.loader = .ready)
    (rest : List (BitVec 64)) (more : threads.sim.pending ≠ []) :
    Threads.Working
      { threads with
        sim := sim
        loader := .slot
        startTimes := rest
        log := threads.log ++ [.added threads.clock] } := by
  have cpus : sim.cpus = threads.sim.cpus := by cases effect <;> rfl
  have unsettled : ¬ Threads.Settled
      { threads with
        sim := sim
        loader := .slot
        startTimes := rest
        log := threads.log ++ [.added threads.clock] } := by
    rintro ⟨_, unadded⟩
    have now := addsAt_added threads.log threads.clock threads.clock
    rw [if_pos rfl] at now
    exact Nat.succ_ne_zero _ (now.symm.trans unadded)
  refine ⟨fun closed => ?_, fun _ => ?_, fun id proc slot holds current => ?_,
    fun settled => absurd settled unsettled, fun settled => absurd settled unsettled,
    fun settled => absurd settled unsettled⟩
  · have open_before : threads.sim.done = true := by
      cases effect with
      | loaded _ _ _ _ => exact closed
      | closed last _ => exact absurd last more
    have closing := working.closing open_before
    cases point.symm.trans closing
  · rw [Threads.lastAdd, addTicks_added, List.getLastD_concat]
    rfl
  · change runsAt (threads.log ++ [.added threads.clock]) id threads.clock ≠ 0
    rw [runsAt_added]
    dsimp only at slot holds
    rw [cpus] at slot holds
    exact working.served id proc slot holds current

theorem Threads.Working.closed (working : threads.Working) {sim : Simulator numCpus}
    (effect : SimEffect timeSlot threads.sim .loader sim) (last : threads.sim.pending = []) :
    Threads.Working { threads with sim := sim, loader := .closing } := by
  cases effect with
  | loaded code prio rest next =>
      rw [last] at next
      cases next
  | closed _ unset =>
      exact ⟨fun _ => rfl, working.latest, working.served, working.tended, working.due,
        working.counted⟩

theorem Threads.Working.step {config : List ProcessSpec} (working : threads.Working)
    (inTurn : threads.InTurn) (onTime : threads.OnTime config) (owned : threads.sim.Owned)
    (attended : threads.sim.Attended) (ended : threads.sim.Ended) (some_cpu : 0 < numCpus)
    (standing : ∀ device, threads.barrier.InStep device)
    (effect : ThreadEffect timeSlot threads after) : after.Working := by
  cases effect with
  | timer barrier taken =>
      cases timerStep_turn taken with
      | quiet still _ =>
          exact working.still (still loaderDevice).clock (fun id => (still _).begins)
            working.closing
      | tick clock _ begins _ passed =>
          exact working.tick inTurn attended ended some_cpu standing clock begins passed
  | worked id sim outside moved =>
      exact working.act owned attended (simStep_effect moved) outside.2.1
        (Or.inl ⟨outside.1, outside.2.2⟩) rfl fun _ _ => rfl
  | ran id sim point moved => exact working.ran owned (simStep_effect moved) point
  | cpuTold id barrier point taken =>
      rcases tell_eq taken with ⟨_, rfl⟩
      exact working.still (by simp) (by simp [TimerEvent.isBegin]) working.closing
  | cpuBegan id barrier sim point taken moved =>
      have behind := (standing _).begun_released (proceed_eq taken).1 (proceed_eq taken).2.1
      have still := fun other (different : other ≠ id) =>
        proceed_still (cpuDevice_ne different) taken
      refine working.act owned attended (simStep_effect moved) (by simp [point])
        (Or.inr ⟨point, behind⟩) ?_ fun other different => (still other different).begins
      rw [(proceed_eq taken).2.2]
      simp
  | cpuDetached id barrier point taken =>
      rcases detachEvent_eq taken with ⟨_, rfl⟩
      exact working.still (by simp) (by simp [TimerEvent.isBegin]) working.closing
  | postponed startTime rest point next early =>
      refine working.still rfl (fun _ => rfl) fun closed => ?_
      cases point.symm.trans (working.closing closed)
  | added startTime rest sim point next due moved =>
      refine working.added (simStep_effect moved) point rest fun last => ?_
      have length := onTime.pending
      rw [last, next] at length
      cases length
  | closed sim point last moved =>
      refine working.closed (simStep_effect moved) ?_
      have length := onTime.pending
      rw [last] at length
      exact List.length_eq_zero_iff.mp length
  | loaderTold barrier point taken =>
      rcases tell_eq taken with ⟨_, rfl⟩
      exact working.still (by simp) (by simp [TimerEvent.isBegin]) working.closing
  | loaderBegan barrier point taken =>
      have still := fun id => proceed_still (cpuDevice_ne_loaderDevice id) taken
      refine working.still ?_ (fun id => (still id).begins) fun closed => ?_
      · rw [(proceed_eq taken).2.2]
        simp
      · cases point.symm.trans (working.closing closed)
  | loaderDetached barrier point taken =>
      rcases detachEvent_eq taken with ⟨_, rfl⟩
      exact working.still (by simp) (by simp [TimerEvent.isBegin]) working.closing
  | halted _ _ => exact working.still rfl (fun _ => rfl) working.closing

end Step

/-! ## Every order of the threads -/

theorem Threaded.working {timeSlot : Int} {memramsz memswpsz : Addr} {config : List ProcessSpec}
    {threads : Threads numCpus} (some_cpu : 0 < numCpus) (few : config.length ≤ MAX_QUEUE_SIZE)
    (reached : Threaded timeSlot memramsz memswpsz config threads) : threads.Working := by
  refine reached.invariant Threads.Working (fun freergHeads => ?_) fun before after working earlier effect =>
    working.step earlier.inTurn earlier.onTime earlier.parts.1.owned
      (earlier.parts.1.attended (by rwa [List.length_map])) earlier.parts.1.ended some_cpu
      earlier.parts.2.inStep.1 effect
  have unqueued : ¬ (create numCpus memramsz memswpsz freergHeads config).sim.os.sched.Backlog := by
    rintro ⟨prio, filled⟩
    exact filled rfl
  refine ⟨fun impossible => ?_, fun acted => absurd rfl acted, fun id proc slot => ?_,
    fun _ backlog => absurd backlog unqueued, fun _ _ demand => ?_, fun _ alive => ?_⟩
  · cases impossible
  · cases slot
  · rcases demand with backlog | ⟨id, serves⟩
    · exact absurd backlog unqueued
    · rcases serves.held with ⟨_, _, holding⟩
      cases holding
  · rcases alive with ⟨proc, alive⟩
    cases alive

/-- Every process of the configuration was executed to its end, once and in
order, and was released once. -/
def Threads.AllFinished (config : List ProcessSpec) (threads : Threads numCpus) : Prop :=
  ∀ (index : Nat) (inside : index < config.length),
    threads.sim.os.procs (index + 1) = none ∧
      executedBy threads.sim.history (index + 1) = List.range config[index].code.length ∧
      (tally threads.sim.history (index + 1)).releases = 1

/-- When no process is to come and none is left, all are finished. -/
theorem Threaded.allFinished {slice : Nat} {memramsz memswpsz : Addr} {config : List ProcessSpec}
    {threads : Threads numCpus} (positive : 1 ≤ slice)
    (reached : Threaded slice memramsz memswpsz config threads)
    (last : threads.sim.pending = [])
    (none_left : ∀ proc, ¬ (threads.sim.os.procs proc).isSome = true) :
    threads.AllFinished config := by
  rcases reached.parts.1.account positive with ⟨planned, account⟩
  intro index inside
  have absent := Option.not_isSome_iff_eq_none.mp (none_left (index + 1))
  have all : config.length ≤ threads.sim.os.availPid - 1 := by
    have passed := planned.pending.symm.trans last
    rw [List.drop_eq_nil_iff, List.length_map] at passed
    exact passed
  have used : index + 1 < threads.sim.os.availPid := by omega
  have stage : threads.sim.os.stage (index + 1) = none := by
    rw [Os.stage, absent]
    rfl
  have gone := (account (index + 1)).gone stage (Nat.le_add_left 1 index) used
  have size : programSize (config.map fun spec => (spec.code, spec.prio)) (index + 1) =
      config[index].code.length := by
    rw [programSize, Nat.add_sub_cancel, List.getElem?_map, List.getElem?_eq_getElem inside]
    rfl
  rw [size] at gone
  exact ⟨absent, gone.2, gone.1.once⟩

/-- When all CPUs have stopped, no process is to come and none is left. -/
theorem Threaded.none_left_of_stopped {slice : Nat} {memramsz memswpsz : Addr}
    {config : List ProcessSpec} {threads : Threads numCpus} (some_cpu : 0 < numCpus)
    (few : config.length ≤ MAX_QUEUE_SIZE)
    (reached : Threaded slice memramsz memswpsz config threads)
    (stopped : ∀ id, (threads.sim.cpus id).point = .stopped) :
    threads.sim.pending = [] ∧ ∀ proc, ¬ (threads.sim.os.procs proc).isSome = true := by
  have working := reached.working some_cpu few
  have ended := reached.parts.1.ended
  have attended := reached.parts.1.attended (by rwa [List.length_map])
  have closing := working.closing (ended ⟨0, some_cpu⟩ (stopped _)).2
  have last : threads.sim.pending = [] := by
    have length := reached.onTime.pending
    rw [reached.onTime.closing closing] at length
    exact List.length_eq_zero_iff.mp length
  have settled : threads.Settled := by
    refine ⟨last, ?_⟩
    by_contra acted
    have slot := (reached.inTurn.loader.used acted).1
    cases closing.symm.trans slot
  refine ⟨last, fun proc alive => ?_⟩
  have placed := attended.placed proc alive
  rw [Simulator.places] at placed
  by_cases waits : 0 < threads.sim.os.sched.waiting proc
  · rcases (waiting_pos_iff _ _).mp waits with ⟨prio, queued⟩
    rcases working.tended settled ⟨prio, List.ne_nil_of_mem queued⟩ with ⟨id, active⟩
    exact active.1 (stopped id)
  · rcases (holding_pos_iff _ _).mp (by omega : 0 < holding threads.sim.cpus proc) with ⟨id, held⟩
    rw [Cpu.current, stopped id, (ended id (stopped id)).1] at held
    cases held

/-- When all CPUs have stopped, nothing is left behind. -/
theorem nothing_left_behind (numCpus slice : Nat) (some_cpu : 0 < numCpus) (positive : 1 ≤ slice)
    (memramsz memswpsz : Addr) (config : List ProcessSpec)
    (few : config.length ≤ MAX_QUEUE_SIZE) (threads : Threads numCpus)
    (reached : Threaded slice memramsz memswpsz config threads)
    (stopped : ∀ id, (threads.sim.cpus id).point = .stopped) : threads.AllFinished config := by
  rcases reached.none_left_of_stopped some_cpu few stopped with ⟨last, none_left⟩
  exact reached.allFinished positive last none_left

theorem nothing_left_behind_oneCalc : ∃ threads : Threads 1,
    Threaded 1 1024 0 oneCalc threads ∧ threads.AllFinished oneCalc := by
  rcases oneCalc_reached with ⟨threads, reached, stopped, _⟩
  exact ⟨threads, reached, nothing_left_behind 1 1 (by decide) (by decide) 1024 0 oneCalc
    (by decide) threads reached stopped⟩

/-- The last tick in which a process is added. -/
def lastArrival (config : List ProcessSpec) : Nat := (arrivals config).getLastD 0

/-- The calls of `run` that the programs of a configuration need. -/
def callsNeeded (config : List ProcessSpec) : Nat :=
  workload (config.map fun spec => (spec.code, spec.prio))

/-- After the last arrival the loader has added all processes. -/
theorem Threaded.all_added {slice : Nat} {memramsz memswpsz : Addr} {config : List ProcessSpec}
    {threads : Threads numCpus} (reached : Threaded slice memramsz memswpsz config threads)
    (small : threads.clock < 2 ^ 64) (late : lastArrival config < threads.clock) :
    threads.sim.pending = [] ∧ threads.lastAdd = lastArrival config := by
  have plan := reached.onTime.plan small
  have exhausted : threads.startTimes = [] := by
    rcases List.eq_nil_or_concat (arrivalsFrom threads.nextTest threads.startTimes) with
      none | ⟨front, tick, ending⟩
    · have length := length_arrivalsFrom threads.nextTest threads.startTimes
      rw [none] at length
      exact List.length_eq_zero_iff.mp length.symm
    · have last : lastArrival config = tick := by
        rw [lastArrival, ← plan, ending, List.concat_eq_append, ← List.append_assoc,
          List.getLastD_concat]
      have bound : threads.clock ≤ tick := reached.rest_future (by rw [ending]; simp)
      omega
  constructor
  · have length := reached.onTime.pending
    rw [exhausted] at length
    exact List.length_eq_zero_iff.mp length
  · rw [exhausted, arrivalsFrom, List.append_nil] at plan
    rw [Threads.lastAdd, plan, lastArrival]

/-- At the deadline no process is to come and none is left. -/
theorem Threaded.none_left_late {slice : Nat} {memramsz memswpsz : Addr}
    {config : List ProcessSpec} {threads : Threads numCpus} (some_cpu : 0 < numCpus)
    (positive : 1 ≤ slice) (few : config.length ≤ MAX_QUEUE_SIZE)
    (reached : Threaded slice memramsz memswpsz config threads) (small : threads.clock < 2 ^ 64)
    (late : lastArrival config + callsNeeded config + 2 ≤ threads.clock) :
    threads.sim.pending = [] ∧ ∀ proc, ¬ (threads.sim.os.procs proc).isSome = true := by
  have working := reached.working some_cpu few
  rcases reached.all_added small (by omega) with ⟨last, latest⟩
  have settled : threads.Settled := by
    refine ⟨last, ?_⟩
    by_contra acted
    have now := working.latest acted
    omega
  refine ⟨last, fun proc alive => ?_⟩
  have counted := working.counted settled ⟨proc, alive⟩
  have enough := reached.parts.1.runCalls_le positive
  rw [callsNeeded] at late
  omega

/-- The deadline: any number of CPUs, in any order of the threads, has finished
all processes when as many ticks have passed since the last arrival as the
programs need calls of `run`, and two more. -/
theorem finished_by_deadline (numCpus slice : Nat) (some_cpu : 0 < numCpus) (positive : 1 ≤ slice)
    (memramsz memswpsz : Addr) (config : List ProcessSpec)
    (few : config.length ≤ MAX_QUEUE_SIZE) (threads : Threads numCpus)
    (reached : Threaded slice memramsz memswpsz config threads) (small : threads.clock < 2 ^ 64)
    (late : lastArrival config + callsNeeded config + 2 ≤ threads.clock) :
    threads.AllFinished config := by
  rcases reached.none_left_late some_cpu positive few small late with ⟨last, none_left⟩
  exact reached.allFinished positive last none_left

theorem finished_by_deadline_oneCalc : ∃ threads : Threads 1,
    Threaded 1 1024 0 oneCalc threads ∧ threads.AllFinished oneCalc := by
  rcases oneCalc_reached with ⟨threads, reached, _, clock⟩
  have small : threads.clock < 2 ^ 64 := by
    rw [clock]
    decide
  have late : lastArrival oneCalc + callsNeeded oneCalc + 2 ≤ threads.clock := by
    rw [clock]
    decide +kernel
  exact ⟨threads, reached, finished_by_deadline 1 1 (by decide) (by decide) 1024 0 oneCalc
    (by decide) threads reached small late⟩

end Kernel
end Ossim
