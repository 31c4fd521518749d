import Ossim.Kernel.Slices

namespace Ossim
namespace Kernel

open Memory

/-!
# Which CPU will run a process

A process that waits is served by a CPU that has still to ask the scheduler, and
a process that a CPU holds is served by that CPU.  `Awaits` says that one of the
CPUs that are due will call `run`.  It survives every step that is not itself a
call of `run`: a CPU stops waiting for a process only when it gets one, and a CPU
that gets none has found all queues empty.
-/

variable {numCpus : Nat}

/-- Some ready queue is not empty. -/
def Sched.Backlog (sched : Sched) : Prop := ∃ prio, sched.mlqReadyQueue prio ≠ []

/-- The CPU holds a process and will call `run` before it asks for another. -/
inductive Cpu.Serves (os : Os) (cpu : Cpu) : Prop
  | loaded (proc : ProcRef) (holds : cpu.proc = some proc)
      (point : cpu.point = .recheck ∨ cpu.point = .running)
  /-- At the first test it may put the process back, and asks at once. -/
  | resuming (proc : ProcRef) (holds : cpu.proc = some proc)
      (point : cpu.point = .slot ∨ cpu.point = .top) (unfinished : os.finished proc = false)

/-- The next call of the scheduler by this CPU is `get_proc`, or may be. -/
def Cpu.Asking (cpu : Cpu) : Prop :=
  cpu.point ≠ .recheck ∧ cpu.point ≠ .running ∧ cpu.point ≠ .stopped

/-- The CPU takes part in the work that is left: it has not stopped, and has not
just found all queues empty. -/
def Cpu.Active (cpu : Cpu) : Prop :=
  cpu.point ≠ .stopped ∧ ¬ (cpu.point = .recheck ∧ cpu.proc = none)

/-- One of the CPUs that are due serves a process or will find one. -/
def Simulator.Awaits (sim : Simulator numCpus) (due : Fin numCpus → Prop) : Prop :=
  ∃ id, due id ∧
    ((sim.cpus id).Serves sim.os ∨ (sim.os.sched.Backlog ∧ (sim.cpus id).Asking))

/-- There is a process to run. -/
def Simulator.Demand (sim : Simulator numCpus) : Prop :=
  sim.os.sched.Backlog ∨ ∃ id, (sim.cpus id).Serves sim.os

/-- Where there is a backlog, some CPU is still there for it. -/
def Simulator.Tended (sim : Simulator numCpus) : Prop :=
  sim.os.sched.Backlog → ∃ id, (sim.cpus id).Active

/-! ## The queues after a step -/

theorem backlog_of_getMlqProc {sched : Sched} (backlog : (getMlqProc sched).2.Backlog) :
    sched.Backlog := by
  rcases backlog with ⟨prio, filled⟩
  rcases List.exists_mem_of_ne_nil _ filled with ⟨proc, member⟩
  exact ⟨prio, List.ne_nil_of_mem (queue_getMlqProc sched member)⟩

/-- `get_proc` returns nothing only when all queues are empty. -/
theorem not_backlog_of_getProc {os after : Os} (got : getProc os = (none, after)) :
    ¬ os.sched.Backlog ∧ ¬ after.sched.Backlog ∧ ∀ proc, after.finished proc = os.finished proc := by
  rcases getProc_eq got with ⟨none_got, rfl⟩
  have empty : ¬ os.sched.Backlog := by
    rintro ⟨prio, filled⟩
    have outcome := getMlqProc_outcome os.sched
    generalize getMlqProc os.sched = result at outcome none_got
    cases outcome with
    | idle empty => exact filled (empty prio)
    | served _ _ _ _ _ _ => cases none_got
    | renewed _ _ _ _ _ _ => cases none_got
  exact ⟨empty, fun backlog => empty (backlog_of_getMlqProc backlog), fun _ => rfl⟩

theorem backlog_of_same {before after : Sched}
    (queues : after.mlqReadyQueue = before.mlqReadyQueue) (backlog : before.Backlog) :
    after.Backlog := by
  rcases backlog with ⟨prio, filled⟩
  exact ⟨prio, queues ▸ filled⟩

/-- A queue with room takes the process. -/
theorem backlog_putMlqProc {os : Os} {proc : ProcRef}
    (room : (os.sched.mlqReadyQueue (normalizePrio (os.prio proc))).length < MAX_QUEUE_SIZE) :
    (putMlqProc os proc).sched.Backlog := by
  refine ⟨normalizePrio (os.prio proc), ?_⟩
  rw [sched_putMlqProc, Sched.queued]
  dsimp only
  rw [Function.update_self, enqueue, if_neg (Nat.not_le_of_lt room)]
  simp

section Step

variable {sim after : Simulator numCpus} {timeSlot : Int} {id : Fin numCpus}
variable {due : Fin numCpus → Prop}

theorem Cpu.Serves.held {os : Os} {cpu : Cpu} (serves : cpu.Serves os) :
    ∃ proc, cpu.current = some proc ∧ cpu.proc = some proc := by
  cases serves with
  | loaded proc holds point =>
      rcases point with point | point <;>
        exact ⟨proc, Cpu.current_of_point point holds, holds⟩
  | resuming proc holds point unfinished =>
      rcases point with point | point <;>
        exact ⟨proc, Cpu.current_of_point point holds, holds⟩

/-- Another CPU keeps serving its process. -/
theorem SimEffect.serves_other (effect : SimEffect timeSlot sim (.cpu id) after)
    (owned : sim.Owned) {other : Fin numCpus} (different : other ≠ id)
    (serves : (sim.cpus other).Serves sim.os) : (after.cpus other).Serves after.os := by
  have distinct : (SimAction.cpu id : SimAction numCpus) ≠ .cpu other := fun same =>
    different (SimAction.cpu.inj same).symm
  rcases serves.held with ⟨held, current, holding⟩
  have finished := effect.stays_finished owned distinct current
  rw [effect.cpus_of_ne distinct]
  cases serves with
  | loaded proc holds point => exact .loaded proc holds point
  | resuming proc holds point unfinished =>
      rw [holding] at holds
      cases holds
      exact .resuming held holding point (finished.trans unfinished)

/-- A CPU that acts without calling `run` leaves a CPU that is due to serve a
process.  If that is itself, it has not gone to `next_slot` or to its end. -/
theorem SimEffect.awaits (effect : SimEffect timeSlot sim (.cpu id) after) (owned : sim.Owned)
    (attended : sim.Attended) (quiet : (sim.cpus id).point ≠ .running) (acting : due id)
    (awaits : sim.Awaits due) :
    after.Awaits fun other => due other ∧
      (other = id → (after.cpus id).point ≠ .slot ∧ (after.cpus id).point ≠ .stopped) := by
  rcases awaits with ⟨server, dueServer, service⟩
  -- the witness is the acting CPU at its next point
  have here : ∀ {place : CpuPoint}, (after.cpus id).point = place →
      place ≠ .slot ∧ place ≠ .stopped →
        ((after.cpus id).Serves after.os ∨ (after.os.sched.Backlog ∧ (after.cpus id).Asking)) →
          after.Awaits fun other => due other ∧
            (other = id → (after.cpus id).point ≠ .slot ∧ (after.cpus id).point ≠ .stopped) := by
    intro place point plain serves
    exact ⟨id, ⟨acting, fun _ => by rw [point]; exact plain⟩, serves⟩
  -- the witness is a CPU that does not act
  have there : server ≠ id → (sim.os.sched.Backlog → after.os.sched.Backlog) →
      after.Awaits fun other => due other ∧
        (other = id → (after.cpus id).point ≠ .slot ∧ (after.cpus id).point ≠ .stopped) := by
    intro different backlog
    refine ⟨server, ⟨dueServer, fun same => absurd same different⟩, ?_⟩
    rcases service with serves | ⟨waiting, asking⟩
    · exact Or.inl (effect.serves_other owned different serves)
    · refine Or.inr ⟨backlog waiting, ?_⟩
      rw [effect.cpus_of_ne fun same => different (SimAction.cpu.inj same).symm]
      exact asking
  cases effect with
  | acquired _ timeLeft got os asks outcome =>
      exact here rfl (by simp) (Or.inl (.loaded got (by simp) (by simp)))
  | kept _ held pcb point holds found unfinished left =>
      exact here rfl (by simp) (Or.inl (.loaded held (by simp) (by simp)))
  | dispatched _ next point holds spent =>
      exact here rfl (by simp) (Or.inl (.loaded next (by simp) (by simp)))
  | resumed _ next point holds left =>
      exact here rfl (by simp) (Or.inl (.loaded next (by simp) (by simp)))
  | putBack _ back pcb point holds found unfinished spent =>
      have room := attended.room_to_put owned point (Cpu.current_of_point point holds)
        (normalizePrio (sim.os.prio back))
      exact here rfl (by simp) (Or.inr ⟨backlog_putMlqProc room, by simp [Cpu.Asking]⟩)
  | skipped _ os point idle outcome =>
      have empty := (not_backlog_of_getProc outcome).1
      refine there ?_ fun backlog => absurd backlog empty
      rintro rfl
      rcases service with serves | ⟨backlog, _⟩
      · rcases serves.held with ⟨_, _, holding⟩
        cases idle.symm.trans holding
      · exact empty backlog
  | emptied _ timeLeft os asks elsewhere outcome =>
      have empty := (not_backlog_of_getProc outcome).1
      refine there ?_ fun backlog => absurd backlog empty
      rintro rfl
      rcases service with serves | ⟨backlog, _⟩
      · rcases serves.held with ⟨_, current, _⟩
        cases asks.current.symm.trans current
      · exact empty backlog
  | removed _ gone pcb point holds found ended =>
      by_cases same : server = id
      · subst same
        rcases service with serves | ⟨backlog, _⟩
        · cases serves with
          | loaded _ _ elsewhere => simp [point] at elsewhere
          | resuming proc holding _ unfinished =>
              rw [holds, Option.some.injEq] at holding
              subst holding
              rw [(finished_of_found found).mpr ended] at unfinished
              cases unfinished
        · exact here rfl (by simp) (Or.inr ⟨backlog, by simp [Cpu.Asking]⟩)
      · exact there same fun backlog => backlog
  | freed _ gone pcb point holds found =>
      have sched : ((sim.setOs (freePcb sim.os gone)).setCpu id
          ⟨.freed, some gone, (sim.cpus id).timeLeft⟩).os.sched = sim.os.sched := by
        rw [Simulator.setCpu_os, Simulator.setOs_os, sched_freePcb owned.sound]
      have backlogs : sim.os.sched.Backlog → _ := fun backlog =>
        backlog_of_same (congrArg Sched.mlqReadyQueue sched) backlog
      by_cases same : server = id
      · subst same
        rcases service with serves | ⟨backlog, _⟩
        · cases serves with
          | loaded _ _ elsewhere => simp [point] at elsewhere
          | resuming _ _ elsewhere _ => simp [point] at elsewhere
        · exact here rfl (by simp) (Or.inr ⟨backlogs backlog, by simp [Cpu.Asking]⟩)
      · exact there same backlogs
  | stopped _ point idle closing =>
      refine there ?_ fun backlog => backlog
      rintro rfl
      rcases service with serves | ⟨_, asking⟩
      · rcases serves.held with ⟨_, _, holding⟩
        cases idle.symm.trans holding
      · exact asking.1 point
  | waiting _ point idle loading =>
      refine there ?_ fun backlog => backlog
      rintro rfl
      rcases service with serves | ⟨_, asking⟩
      · rcases serves.held with ⟨_, _, holding⟩
        cases idle.symm.trans holding
      · exact asking.1 point
  | nextSlot _ point =>
      by_cases same : server = id
      · subst same
        rcases service with serves | ⟨backlog, _⟩
        · cases serves with
          | loaded _ _ elsewhere => simp [point] at elsewhere
          | resuming proc holding _ unfinished =>
              exact here rfl (by simp) (Or.inl (.resuming proc (by simpa using holding) (by simp)
                unfinished))
        · exact here rfl (by simp) (Or.inr ⟨backlog, by simp [Cpu.Asking]⟩)
      · exact there same fun backlog => backlog
  | ran _ _ _ point _ _ _ => exact absurd point quiet

/-- A CPU gives up only when all queues are empty, so it never leaves a backlog
alone. -/
theorem SimEffect.tended (effect : SimEffect timeSlot sim (.cpu id) after)
    (tended : sim.Tended) : after.Tended := by
  intro backlog
  have here : (after.cpus id).Active → ∃ other, (after.cpus other).Active := fun active =>
    ⟨id, active⟩
  -- a CPU that does not act is as active as before
  have there : sim.os.sched.Backlog → ¬ (sim.cpus id).Active →
      ∃ other, (after.cpus other).Active := by
    intro before inactive
    rcases tended before with ⟨other, active⟩
    refine ⟨other, ?_⟩
    by_cases same : other = id
    · exact absurd (same ▸ active) inactive
    · rw [effect.cpus_of_ne fun acts => same (SimAction.cpu.inj acts).symm]
      exact active
  cases effect with
  | skipped _ os point idle outcome =>
      exact absurd backlog (not_backlog_of_getProc outcome).2.1
  | emptied _ timeLeft os asks elsewhere outcome =>
      exact absurd backlog (not_backlog_of_getProc outcome).2.1
  | stopped _ point idle closing => exact there backlog fun active => active.2 ⟨point, idle⟩
  | waiting _ point idle loading => exact here (by simp [Cpu.Active])
  | acquired _ timeLeft got os asks outcome => exact here (by simp [Cpu.Active])
  | removed _ _ _ _ _ _ _ => exact here (by simp [Cpu.Active])
  | putBack _ _ _ _ _ _ _ _ => exact here (by simp [Cpu.Active])
  | kept _ _ _ _ _ _ _ _ => exact here (by simp [Cpu.Active])
  | freed _ _ _ _ _ _ => exact here (by simp [Cpu.Active])
  | dispatched _ _ _ _ _ => exact here (by simp [Cpu.Active])
  | resumed _ _ _ _ _ => exact here (by simp [Cpu.Active])
  | ran _ _ _ _ _ _ _ => exact here (by simp [Cpu.Active])
  | nextSlot _ _ => exact here (by simp [Cpu.Active])

/-- Only the loader creates work: what there is to do after a step of a CPU was
there before it. -/
theorem SimEffect.demand (effect : SimEffect timeSlot sim (.cpu id) after) (owned : sim.Owned)
    (demand : after.Demand) : sim.Demand := by
  -- a CPU that does not act served its process before
  have there : ∀ {other : Fin numCpus}, other ≠ id → (after.cpus other).Serves after.os →
      sim.Demand := by
    intro other different serves
    have distinct : (SimAction.cpu id : SimAction numCpus) ≠ .cpu other := fun same =>
      different (SimAction.cpu.inj same).symm
    rcases serves.held with ⟨held, current, holding⟩
    rw [effect.cpus_of_ne distinct] at serves current holding
    refine Or.inr ⟨other, ?_⟩
    cases serves with
    | loaded proc holds point => exact .loaded proc holds point
    | resuming proc holds point unfinished =>
        rw [holding] at holds
        cases holds
        exact .resuming held holding point
          ((effect.stays_finished owned distinct current).symm.trans unfinished)
  rcases demand with ⟨prio, filled⟩ | ⟨server, serves⟩
  · rcases List.exists_mem_of_ne_nil _ filled with ⟨proc, member⟩
    rcases effect.queued_from owned member with before | ⟨_, loads⟩ | ⟨other, acts, held⟩
    · exact Or.inl ⟨prio, List.ne_nil_of_mem before⟩
    · cases loads
    · cases acts
      cases effect with
      | putBack _ back pcb point holds found unfinished spent =>
          refine Or.inr ⟨id, .resuming back holds (Or.inr point) ?_⟩
          exact Bool.eq_false_iff.mpr fun finished =>
            unfinished ((finished_of_found found).mp finished)
      | acquired _ _ _ _ asks _ => cases asks.current.symm.trans held
      | emptied _ _ _ asks _ _ => cases asks.current.symm.trans held
      | skipped _ _ point idle _ => cases (Cpu.Asks.top point idle).current.symm.trans held
      | freed _ gone pcb point holds found =>
          rw [Simulator.record_os, Simulator.setCpu_os, Simulator.setOs_os,
            sched_freePcb owned.sound] at member
          exact absurd held (owned.queued_apart member id)
      | ran _ runner pcb point holds found defined =>
          rw [Simulator.record_os, Simulator.setCpu_os, Simulator.setOs_os, sched_run] at member
          exact absurd held (owned.queued_apart member id)
      | removed _ _ _ _ _ _ _ => exact absurd held (owned.queued_apart member id)
      | kept _ _ _ _ _ _ _ _ => exact absurd held (owned.queued_apart member id)
      | stopped _ _ _ _ => exact absurd held (owned.queued_apart member id)
      | waiting _ _ _ _ => exact absurd held (owned.queued_apart member id)
      | dispatched _ _ _ _ _ => exact absurd held (owned.queued_apart member id)
      | resumed _ _ _ _ _ => exact absurd held (owned.queued_apart member id)
      | nextSlot _ _ => exact absurd held (owned.queued_apart member id)
  · by_cases same : server = id
    · subst same
      cases effect with
      | acquired _ timeLeft got os asks outcome =>
          rcases getProc_eq outcome with ⟨taken, _⟩
          have moved := waiting_getMlqProc sim.os.sched got
          rw [← taken, share_self] at moved
          rcases (waiting_pos_iff sim.os.sched got).mp (by omega) with ⟨prio, queued⟩
          exact Or.inl ⟨prio, List.ne_nil_of_mem queued⟩
      | kept _ held pcb point holds found unfinished left =>
          refine Or.inr ⟨server, .resuming held holds (Or.inr point) ?_⟩
          exact Bool.eq_false_iff.mpr fun finished =>
            unfinished ((finished_of_found found).mp finished)
      | dispatched _ next point holds spent =>
          exact Or.inr ⟨server, .loaded next holds (Or.inl point)⟩
      | resumed _ next point holds left =>
          exact Or.inr ⟨server, .loaded next holds (Or.inl point)⟩
      | ran _ runner pcb point holds found defined =>
          exact Or.inr ⟨server, .loaded runner holds (Or.inr point)⟩
      | nextSlot _ point =>
          rw [Simulator.setCpu_cpus, Function.update_self] at serves
          cases serves with
          | loaded _ _ elsewhere => simp at elsewhere
          | resuming proc holding _ unfinished =>
              exact Or.inr ⟨server, .resuming proc holding (Or.inl point) unfinished⟩
      | skipped _ _ _ _ _ => cases serves <;> simp_all
      | emptied _ _ _ _ _ _ => cases serves <;> simp_all
      | removed _ _ _ _ _ _ _ => cases serves <;> simp_all
      | putBack _ _ _ _ _ _ _ _ => cases serves <;> simp_all
      | freed _ _ _ _ _ _ => cases serves <;> simp_all
      | stopped _ _ _ _ => cases serves <;> simp_all
      | waiting _ _ _ _ => cases serves <;> simp_all
    · exact there same serves

/-- A process that a step of a CPU leaves was there before. -/
theorem SimEffect.alive_before (effect : SimEffect timeSlot sim (.cpu id) after)
    (owned : sim.Owned) {proc : ProcRef} (alive : (after.os.procs proc).isSome = true) :
    (sim.os.procs proc).isSome = true := by
  by_contra dead
  have absent := Option.not_isSome_iff_eq_none.mp dead
  have used := (owned.step effect).sound.fresh proc alive
  rw [(effect.cpu_frame owned).1] at used
  rw [effect.stays_gone owned absent used] at alive
  cases alive

/-- A CPU that goes to `next_slot` without having called `run` holds no process. -/
theorem SimEffect.idle_slot (effect : SimEffect timeSlot sim (.cpu id) after)
    (quiet : (sim.cpus id).point ≠ .running) (point : (after.cpus id).point = .slot) :
    (after.cpus id).proc = none := by
  cases effect with
  | skipped _ _ _ _ _ => simp
  | waiting _ _ _ _ => simp
  | ran _ _ _ running _ _ _ => exact absurd running quiet
  | acquired _ _ _ _ _ _ => simp at point
  | emptied _ _ _ _ _ _ => simp at point
  | removed _ _ _ _ _ _ _ => simp at point
  | putBack _ _ _ _ _ _ _ _ => simp at point
  | kept _ _ _ _ _ _ _ _ => simp at point
  | freed _ _ _ _ _ _ => simp at point
  | stopped _ _ _ _ => simp at point
  | dispatched _ _ _ _ _ => simp at point
  | resumed _ _ _ _ _ => simp at point
  | nextSlot _ _ => simp at point

/-- A CPU stops when `done` is set, without a process. -/
theorem SimEffect.stopped_idle (effect : SimEffect timeSlot sim (.cpu id) after)
    (point : (after.cpus id).point = .stopped) :
    (after.cpus id).proc = none ∧ after.done = true := by
  cases effect with
  | stopped _ _ _ closing => exact ⟨by simp, by simpa using closing⟩
  | skipped _ _ _ _ _ => simp at point
  | waiting _ _ _ _ => simp at point
  | ran _ _ _ _ _ _ _ => simp at point
  | acquired _ _ _ _ _ _ => simp at point
  | emptied _ _ _ _ _ _ => simp at point
  | removed _ _ _ _ _ _ _ => simp at point
  | putBack _ _ _ _ _ _ _ _ => simp at point
  | kept _ _ _ _ _ _ _ _ => simp at point
  | freed _ _ _ _ _ _ => simp at point
  | dispatched _ _ _ _ _ => simp at point
  | resumed _ _ _ _ _ => simp at point
  | nextSlot _ _ => simp at point

end Step

/-! ## Every interleaving -/

/-- What holds of a CPU that has stopped. -/
def Simulator.Ended (sim : Simulator numCpus) : Prop :=
  ∀ id, (sim.cpus id).point = .stopped → (sim.cpus id).proc = none ∧ sim.done = true

theorem Simulated.ended {timeSlot : Int} {memramsz memswpsz : Addr}
    {config : List (List Inst × Nat)} {sim : Simulator numCpus}
    (reached : Simulated timeSlot memramsz memswpsz config sim) : sim.Ended := by
  rcases reached with ⟨freergHeads, trace, path⟩
  have kept : sim.Owned ∧ sim.Ended := by
    refine path.invariant (fun sim => sim.Owned ∧ sim.Ended)
      ⟨owned_start numCpus memramsz memswpsz freergHeads config, fun id point => by cases point⟩ ?_
    rintro before action after ⟨owned, ended⟩ taken
    have effect := simStep_effect taken
    refine ⟨owned.step effect, fun id point => ?_⟩
    by_cases acts : action = .cpu id
    · subst acts
      exact effect.stopped_idle point
    · rw [effect.cpus_of_ne acts] at point ⊢
      rcases ended id point with ⟨idle, closing⟩
      refine ⟨idle, ?_⟩
      cases action with
      | cpu other =>
          rw [(effect.cpu_frame owned).2.2]
          exact closing
      | loader =>
          cases effect with
          | loaded _ _ _ _ => exact closing
          | closed _ _ => rfl
  exact kept.2

/-! ## Room for everyone -/

/-- A configuration of at most 50 processes never fills the running list. -/
theorem Simulated.attended {timeSlot : Int} {memramsz memswpsz : Addr}
    {config : List (List Inst × Nat)} {sim : Simulator numCpus}
    (reached : Simulated timeSlot memramsz memswpsz config sim)
    (few : config.length ≤ MAX_QUEUE_SIZE) : sim.Attended := by
  rcases reached with ⟨freergHeads, trace, path⟩
  have kept : sim.Owned ∧ sim.Attended ∧
      sim.os.sched.runningList.length + sim.pending.length ≤ config.length := by
    refine path.invariant (fun sim => sim.Owned ∧ sim.Attended ∧
        sim.os.sched.runningList.length + sim.pending.length ≤ config.length)
      ⟨owned_start numCpus memramsz memswpsz freergHeads config,
        attended_start numCpus memramsz memswpsz freergHeads config, le_of_eq (Nat.zero_add _)⟩ ?_
    rintro before action after ⟨owned, attended, listed⟩ taken
    have effect := simStep_effect taken
    have roomy : Roomy before action := by
      intro _ more
      have positive := List.length_pos_iff.mpr more
      omega
    have ownedAfter := owned.step effect
    refine ⟨ownedAfter, attended.step owned roomy effect, ?_⟩
    cases action with
    | cpu id =>
        rcases effect.cpu_frame owned with ⟨availPid, pending, _⟩
        rw [pending]
        rcases effect.runningList owned with same | ⟨_, alive⟩ | ⟨gone, shorter⟩
        · rw [same]
          exact listed
        · have used := ownedAfter.sound.fresh _ alive
          rw [availPid] at used
          exact absurd used (lt_irrefl _)
        · rw [shorter]
          have shrunk := (List.erase_sublist (a := gone) (l := before.os.sched.runningList)).length_le
          omega
    | loader =>
        cases effect with
        | loaded code prio rest next =>
            rw [next, List.length_cons] at listed
            have grown : (addProc (load before.os code prio) before.os.availPid).sched.runningList =
                enqueue before.os.sched.runningList before.os.availPid := rfl
            dsimp only
            rw [grown]
            rcases enqueue_cases before.os.sched.runningList before.os.availPid with
              ⟨_, appended⟩ | ⟨_, dropped⟩
            · rw [appended, List.length_append, List.length_singleton]
              omega
            · rw [dropped]
              omega
        | closed _ _ => exact listed
  exact kept.2.1

/-! ## All calls of `run` -/

/-- The process for which an event is a call of `run`. -/
def Event.runner : Event → Option ProcRef
  | .ran runner _ => some runner
  | _ => none

/-- The calls of `run` for all processes. -/
def runCalls (history : List Event) : Nat := history.countP fun event => event.runner.isSome

/-- The calls that a configuration needs. -/
def workload (config : List (List Inst × Nat)) : Nat :=
  (config.map fun spec => max 1 spec.1.length).sum

@[simp] theorem runCalls_snoc (history : List Event) (event : Event) :
    runCalls (history ++ [event]) = runCalls history + if event.runner.isSome then 1 else 0 := by
  rw [runCalls, List.countP_append, List.countP_singleton, runCalls]

/-- A step of a CPU calls `run` once or not at all. -/
theorem SimEffect.runCalls {sim after : Simulator numCpus} {timeSlot : Int} {id : Fin numCpus}
    (effect : SimEffect timeSlot sim (.cpu id) after) :
    runCalls after.history =
      runCalls sim.history + if (sim.cpus id).point = .running then 1 else 0 := by
  cases effect with
  | ran _ _ _ point _ _ _ => simp [Event.runner, point]
  | putBack _ _ _ point _ _ _ _ => simp [Event.runner, point]
  | freed _ _ _ point _ _ => simp [Event.runner, point]
  | dispatched _ _ point _ _ => simp [Event.runner, point]
  | acquired _ _ _ _ asks _ => cases asks with
      | top point _ => simp [point]
      | freed point => simp [point]
      | yielded point => simp [point]
  | emptied _ _ _ asks _ _ => cases asks with
      | top point _ => simp [point]
      | freed point => simp [point]
      | yielded point => simp [point]
  | skipped _ _ point _ _ => simp [point]
  | removed _ _ _ point _ _ _ => simp [point]
  | kept _ _ _ point _ _ _ _ => simp [point]
  | stopped _ point _ _ => simp [point]
  | waiting _ point _ _ => simp [point]
  | resumed _ _ point _ _ => simp [point]
  | nextSlot _ point => simp [point]

theorem runs_add (counts : Tally) (proc : ProcRef) (event : Event) :
    (counts.add proc event).runs =
      counts.runs + if event.runner = some proc then 1 else 0 := by
  cases event with
  | ran runner executed =>
      by_cases same : runner = proc <;> simp [Tally.add, Event.runner, same]
  | dispatched next => by_cases same : next = proc <;> simp [Tally.add, Event.runner, same]
  | putBack back => by_cases same : back = proc <;> simp [Tally.add, Event.runner, same]
  | freed gone pc size => by_cases same : gone = proc <;> simp [Tally.add, Event.runner, same]

/-- Exactly one index stands for a process. -/
private theorem sum_index {runner limit : Nat} (valid : 1 ≤ runner ∧ runner ≤ limit) :
    (∑ index ∈ Finset.range limit, if some runner = some (index + 1) then 1 else 0) = 1 := by
  have same : ∀ index, some runner = some (index + 1) ↔ runner - 1 = index := by
    intro index
    rw [Option.some.injEq]
    omega
  simp only [same]
  rw [Finset.sum_ite_eq, if_pos (Finset.mem_range.mpr (by omega))]

/-- The calls of `run` are those of the processes that were run. -/
theorem runCalls_eq_sum {limit : Nat} {history : List Event}
    (valid : ∀ proc : Nat, (tally history proc).runs ≠ 0 → 1 ≤ proc ∧ proc ≤ limit) :
    runCalls history = ∑ index ∈ Finset.range limit, (tally history (index + 1)).runs := by
  induction history using List.reverseRecOn with
  | nil => exact (Finset.sum_eq_zero fun index _ => rfl).symm
  | append_singleton history event inductionHypothesis =>
      have earlier : ∀ proc : Nat, (tally history proc).runs ≠ 0 → 1 ≤ proc ∧ proc ≤ limit := by
        intro proc ran
        refine valid proc ?_
        rw [tally_snoc, runs_add]
        omega
      simp only [runCalls_snoc, tally_snoc, runs_add, Finset.sum_add_distrib,
        inductionHypothesis earlier]
      congr 1
      cases acts : event.runner with
      | none => simp
      | some runner =>
          have here := valid runner (by rw [tally_snoc, runs_add, if_pos acts]; exact Nat.succ_ne_zero _)
          exact (sum_index here).symm

theorem Simulated.runs_valid {timeSlot : Int} {memramsz memswpsz : Addr}
    {config : List (List Inst × Nat)} {sim : Simulator numCpus}
    (reached : Simulated timeSlot memramsz memswpsz config sim) (proc : ProcRef)
    (ran : (tally sim.history proc).runs ≠ 0) : 1 ≤ proc ∧ proc < sim.os.availPid := by
  rcases reached with ⟨freergHeads, trace, path⟩
  have kept : sim.Owned ∧ sim.Planned config ∧
      ∀ proc, (tally sim.history proc).runs ≠ 0 → 1 ≤ proc ∧ proc < sim.os.availPid := by
    refine path.invariant (fun sim => sim.Owned ∧ sim.Planned config ∧
        ∀ proc, (tally sim.history proc).runs ≠ 0 → 1 ≤ proc ∧ proc < sim.os.availPid)
      ⟨owned_start numCpus memramsz memswpsz freergHeads config,
        planned_start numCpus memramsz memswpsz freergHeads config, fun proc ran => absurd rfl ran⟩ ?_
    rintro before action after ⟨owned, planned, valid⟩ taken
    have effect := simStep_effect taken
    refine ⟨owned.step effect, planned.step owned effect, fun proc ran => ?_⟩
    have older := effect.availPid owned
    by_cases acting : ∃ id, action = .cpu id ∧ (before.cpus id).current = some proc
    · rcases acting with ⟨id, _, held⟩
      have alive := owned.current_live held
      rcases Option.isSome_iff_exists.mp alive with ⟨pcb, found⟩
      have first := (planned.program proc _ _ (stage_of_found found)).1
      exact ⟨first, lt_of_lt_of_le (owned.sound.fresh proc alive) older⟩
    · have rest := effect.untouched owned fun id acts held => acting ⟨id, acts, held⟩
      rw [rest.counts] at ran
      rcases valid proc ran with ⟨first, used⟩
      exact ⟨first, lt_of_lt_of_le used older⟩
  exact kept.2.2 proc ran

theorem workload_eq_sum (config : List (List Inst × Nat)) :
    workload config =
      ∑ index ∈ Finset.range config.length, max 1 (programSize config (index + 1)) := by
  have sizes : (fun index : Fin config.length => max 1 (programSize config (index.val + 1))) =
      fun index : Fin config.length => max 1 config[index].1.length := by
    funext index
    have entry : config[index.val + 1 - 1]? = some config[index] :=
      List.getElem?_eq_getElem index.isLt
    rw [programSize, entry]
  rw [workload, Finset.sum_range, sizes, ← List.sum_ofFn]
  exact congrArg List.sum (List.ofFn_getElem_eq_map config fun spec => max 1 spec.1.length).symm

/-- No more calls of `run` are made than the configuration needs. -/
theorem Simulated.runCalls_le {slice : Nat} {memramsz memswpsz : Addr}
    {config : List (List Inst × Nat)} {sim : Simulator numCpus} (positive : 1 ≤ slice)
    (reached : Simulated slice memramsz memswpsz config sim) :
    runCalls sim.history ≤ workload config := by
  rcases reached.account positive with ⟨planned, account⟩
  have valid : ∀ proc : Nat, (tally sim.history proc).runs ≠ 0 →
      1 ≤ proc ∧ proc ≤ config.length := by
    intro proc ran
    have used := reached.runs_valid proc ran
    exact ⟨used.1, Nat.le_of_lt_succ (lt_of_lt_of_le used.2 planned.last)⟩
  have bound : ∀ index ∈ Finset.range config.length,
      (tally sim.history (index + 1)).runs ≤ max 1 (programSize config (index + 1)) := by
    intro index _
    have mine := account (index + 1)
    by_cases born : index + 1 < sim.os.availPid
    · cases now : sim.os.stage (index + 1) with
      | none => exact le_of_eq (mine.gone now (Nat.le_add_left 1 index) born).1.runs
      | some stage =>
          rcases stage with ⟨pc, code⟩
          have underway := mine.underway pc code now
          rcases (planned.program _ _ _ now).2 with ⟨prio, entry⟩
          have size : programSize config (index + 1) = code.length := by
            rw [programSize, entry]
          rw [size]
          by_cases empty : code.length = 0
          · exact le_trans (underway.dummy empty) (le_max_left _ _)
          · rw [underway.runs empty]
            exact le_trans underway.inside (le_max_right _ _)
    · rw [(mine.unborn (Nat.le_of_not_lt born)).1]
      exact Nat.zero_le _
  rw [runCalls_eq_sum valid, workload_eq_sum]
  exact Finset.sum_le_sum bound

end Kernel
end Ossim
