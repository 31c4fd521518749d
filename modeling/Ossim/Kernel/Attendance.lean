import Ossim.Kernel.Ownership

namespace Ossim
namespace Kernel

open Memory

/-!
# No process is lost

`enqueue` drops what does not fit into its array of 50 pointers.  Every process
is on `running_list` from `add_proc` to `remove_proc`, and the processes of a
ready queue are different ones of that list, so a ready queue has room whenever
the list has.  As long as no process is added to a full running list, each one
stays with a CPU or in the queue of its priority, and the system-call layer
resolves its id.
-/

variable {numCpus : Nat}

/-- A process is added only while the running list has room. -/
def Roomy (sim : Simulator numCpus) (action : SimAction numCpus) : Prop :=
  action = .loader → sim.pending ≠ [] → sim.os.sched.runningList.length < MAX_QUEUE_SIZE

instance (sim : Simulator numCpus) (action : SimAction numCpus) : Decidable (Roomy sim action) :=
  inferInstanceAs (Decidable (_ → _ → _))

/-- Some CPU is between `remove_proc` and `free_pcb` of the process. -/
def Simulator.Parting (sim : Simulator numCpus) (proc : ProcRef) : Prop :=
  ∃ id, (sim.cpus id).point = .removed ∧ (sim.cpus id).proc = some proc

/-- Every process with a block is somewhere, in the right queue, and listed. -/
structure Simulator.Attended (sim : Simulator numCpus) : Prop where
  placed : ∀ proc, (sim.os.procs proc).isSome = true → 0 < sim.places proc
  sorted : ∀ prio, ∀ proc ∈ sim.os.sched.mlqReadyQueue prio,
    normalizePrio (sim.os.prio proc) = prio
  tracked : ∀ proc, (sim.os.procs proc).isSome = true → ¬ sim.Parting proc →
    proc ∈ sim.os.sched.runningList
  short : sim.os.sched.runningList.length ≤ MAX_QUEUE_SIZE

/-! ## Room in the ready queues -/

section Step

variable {sim after : Simulator numCpus} {timeSlot : Int} {action : SimAction numCpus}

/-- A queued process is with no CPU. -/
theorem Simulator.Owned.queued_apart (owned : sim.Owned) {prio : Fin MAX_PRIO} {proc : ProcRef}
    (queued : proc ∈ sim.os.sched.mlqReadyQueue prio) (id : Fin numCpus) :
    (sim.cpus id).current ≠ some proc := by
  intro held
  have single := owned.single proc
  have waiting := (waiting_pos_iff sim.os.sched proc).mpr ⟨prio, queued⟩
  have holds := (holding_pos_iff sim.cpus proc).mpr ⟨id, held⟩
  rw [Simulator.places] at single
  omega

theorem Simulator.Owned.queue_nodup (owned : sim.Owned) (prio : Fin MAX_PRIO) :
    (sim.os.sched.mlqReadyQueue prio).Nodup := by
  rw [List.nodup_iff_count_le_one]
  intro proc
  have single := owned.single proc
  have part : (sim.os.sched.mlqReadyQueue prio).count proc ≤ sim.os.sched.waiting proc :=
    Finset.single_le_sum (f := fun other => (sim.os.sched.mlqReadyQueue other).count proc)
      (fun other _ => Nat.zero_le _) (Finset.mem_univ prio)
  rw [Simulator.places] at single
  omega

theorem Simulator.Owned.queued_live (owned : sim.Owned) {prio : Fin MAX_PRIO} {proc : ProcRef}
    (queued : proc ∈ sim.os.sched.mlqReadyQueue prio) : (sim.os.procs proc).isSome = true := by
  have waiting := (waiting_pos_iff sim.os.sched proc).mpr ⟨prio, queued⟩
  refine owned.live proc ?_
  rw [Simulator.places]
  omega

/-- The processes of a ready queue are on the running list. -/
theorem Simulator.Attended.queue_tracked (attended : sim.Attended) (owned : sim.Owned)
    {prio : Fin MAX_PRIO} {proc : ProcRef} (queued : proc ∈ sim.os.sched.mlqReadyQueue prio) :
    proc ∈ sim.os.sched.runningList := by
  refine attended.tracked proc (owned.queued_live queued) ?_
  rintro ⟨id, point, holds⟩
  exact owned.queued_apart queued id
    (Cpu.current_of_point point holds)

theorem Simulator.Attended.queue_short (attended : sim.Attended) (owned : sim.Owned)
    (prio : Fin MAX_PRIO) :
    (sim.os.sched.mlqReadyQueue prio).length ≤ sim.os.sched.runningList.length :=
  ((owned.queue_nodup prio).subperm fun _ queued =>
    attended.queue_tracked owned queued).length_le

/-- A process that a CPU is about to put back finds room: it is on the running
list itself, besides the processes of the queue. -/
theorem Simulator.Attended.room_to_put (attended : sim.Attended) (owned : sim.Owned)
    {id : Fin numCpus} {proc : ProcRef} (point : (sim.cpus id).point = .top)
    (held : (sim.cpus id).current = some proc) (prio : Fin MAX_PRIO) :
    (sim.os.sched.mlqReadyQueue prio).length < MAX_QUEUE_SIZE := by
  have unqueued : proc ∉ sim.os.sched.mlqReadyQueue prio := fun queued =>
    owned.queued_apart queued id held
  have listed : proc ∈ sim.os.sched.runningList := by
    refine attended.tracked proc (owned.current_live held) ?_
    rintro ⟨other, removed, holds⟩
    have same := owned.unique held (Cpu.current_of_point removed holds)
    rw [← same, point] at removed
    cases removed
  have distinct : (proc :: sim.os.sched.mlqReadyQueue prio).Nodup :=
    List.nodup_cons.mpr ⟨unqueued, owned.queue_nodup prio⟩
  have within : proc :: sim.os.sched.mlqReadyQueue prio ⊆ sim.os.sched.runningList := by
    intro other member
    rcases List.mem_cons.mp member with same | queued
    · rw [same]
      exact listed
    · exact attended.queue_tracked owned queued
  have bound := (distinct.subperm within).length_le
  rw [List.length_cons] at bound
  exact lt_of_lt_of_le bound attended.short

/-! ## Preservation -/

theorem prio_congr {before after : Os} {proc : ProcRef}
    (procs : after.procs proc = before.procs proc) : after.prio proc = before.prio proc := by
  rw [Os.prio, procs, Os.prio]

/-- The queue of a process does not change with its block. -/
theorem normalizePrio_putMlqProc (os : Os) (queued proc : ProcRef) :
    normalizePrio ((putMlqProc os queued).prio proc) = normalizePrio (os.prio proc) := by
  by_cases same : proc = queued
  · subst same
    have clamped : ∀ prio, normalizePrio (normalizePrio prio).val = normalizePrio prio := by
      intro prio
      rw [normalizePrio, dif_pos (normalizePrio prio).isLt]
    cases found : os.procs proc with
    | none => simp [Os.prio, putMlqProc, Os.updatePcb, found]
    | some pcb => simp [Os.prio, putMlqProc, Os.updatePcb, found, clamped]
  · exact congrArg normalizePrio (prio_congr (by simp [putMlqProc, Os.updatePcb, same]))

theorem prio_run (os : Os) (caller proc : ProcRef) :
    (run os caller).2.prio proc = os.prio proc := by
  have read : ∀ os : Os, os.prio proc = ((os.control proc).map Control.prio).getD 0 := by
    intro os
    unfold Os.prio Os.control
    cases os.procs proc <;> rfl
  cases fetched : fetch os caller with
  | none => rw [run_of_end fetched]
  | some ins =>
      rw [run_of_fetch fetched, read, (frame_dispatch (os.advance caller) caller ins).control,
        ← read]
      by_cases same : proc = caller
      · subst same
        cases found : os.procs proc <;> simp [Os.prio, Os.advance, Os.updatePcb, found]
      · exact prio_congr (by simp [Os.advance, Os.updatePcb, same])

/-- A served queue only gets shorter. -/
theorem queue_getMlqProc (sched : Sched) {prio : Fin MAX_PRIO} {proc : ProcRef}
    (member : proc ∈ (getMlqProc sched).2.mlqReadyQueue prio) :
    proc ∈ sched.mlqReadyQueue prio := by
  have outcome := getMlqProc_outcome sched
  generalize getMlqProc sched = result at outcome member
  have shrunk : ∀ {served : Fin MAX_PRIO} {got : ProcRef} {rest : List ProcRef},
      sched.mlqReadyQueue served = got :: rest →
        proc ∈ Function.update sched.mlqReadyQueue served rest prio →
          proc ∈ sched.mlqReadyQueue prio := by
    intro served got rest queue kept
    by_cases same : prio = served
    · subst same
      rw [Function.update_self] at kept
      rw [queue]
      exact List.mem_cons_of_mem got kept
    · rw [Function.update_of_ne same] at kept
      exact kept
  cases outcome with
  | idle _ => exact member
  | served served got rest queue _ _ => exact shrunk queue member
  | renewed served got rest queue _ _ => exact shrunk queue member

/-- A process in a queue after the step was there before it, or its block names
that queue. -/
theorem SimEffect.sorted (effect : SimEffect timeSlot sim action after) (owned : sim.Owned)
    (sorted : ∀ prio, ∀ proc ∈ sim.os.sched.mlqReadyQueue prio,
      normalizePrio (sim.os.prio proc) = prio) :
    ∀ prio, ∀ proc ∈ after.os.sched.mlqReadyQueue prio,
      normalizePrio (after.os.prio proc) = prio := by
  have queuedAt : ∀ {os : Os} {added proc : ProcRef} {prio : Fin MAX_PRIO},
      (∀ other ∈ os.sched.mlqReadyQueue prio, normalizePrio (os.prio other) = prio) →
        proc ∈ (putMlqProc os added).sched.mlqReadyQueue prio →
          normalizePrio ((putMlqProc os added).prio proc) = prio := by
    intro os added proc prio before member
    rw [normalizePrio_putMlqProc]
    rw [sched_putMlqProc, Sched.queued] at member
    dsimp only at member
    by_cases here : prio = normalizePrio (os.prio added)
    · subst here
      rw [Function.update_self] at member
      rcases mem_of_mem_enqueue member with already | same
      · exact before proc already
      · rw [same]
    · rw [Function.update_of_ne here] at member
      exact before proc member
  cases effect with
  | loaded code prio rest _ =>
      have loaded : ∀ queue, ∀ proc ∈ sim.os.sched.mlqReadyQueue queue,
          normalizePrio ((load sim.os code prio).prio proc) = queue := by
        intro queue proc queued
        have older : proc ≠ sim.os.availPid := by
          rintro rfl
          have alive := owned.queued_live queued
          rw [owned.sound.absent] at alive
          cases alive
        have procs : (load sim.os code prio).procs proc = sim.os.procs proc := by
          simp [load, older]
        rw [prio_congr procs]
        exact sorted queue proc queued
      exact fun queue proc member => queuedAt (loaded queue) member
  | acquired id timeLeft got os asks outcome =>
      rcases getProc_eq outcome with ⟨_, rfl⟩
      exact fun prio proc member => sorted prio proc (queue_getMlqProc sim.os.sched member)
  | skipped id os point idle outcome =>
      rcases getProc_eq outcome with ⟨_, rfl⟩
      exact fun prio proc member => sorted prio proc (queue_getMlqProc sim.os.sched member)
  | emptied id timeLeft os asks elsewhere outcome =>
      rcases getProc_eq outcome with ⟨_, rfl⟩
      exact fun prio proc member => sorted prio proc (queue_getMlqProc sim.os.sched member)
  | putBack id back pcb point holds found unfinished spent =>
      exact fun prio proc member => queuedAt (sorted prio) member
  | freed id gone pcb point holds found =>
      intro prio proc member
      rw [Simulator.record_os, Simulator.setCpu_os, Simulator.setOs_os,
        sched_freePcb owned.sound] at member
      have here := Cpu.current_of_point point holds
      have other : proc ≠ gone := by
        rintro rfl
        exact owned.queued_apart member id here
      have procs : (freePcb sim.os gone).procs proc = sim.os.procs proc := by
        rw [procs_freePcb owned.sound, if_neg other]
      exact (congrArg normalizePrio (prio_congr procs)).trans (sorted prio proc member)
  | ran id runner pcb point holds found defined =>
      intro prio proc member
      rw [Simulator.record_os, Simulator.setCpu_os, Simulator.setOs_os, sched_run] at member
      rw [Simulator.record_os, Simulator.setCpu_os, Simulator.setOs_os, prio_run]
      exact sorted prio proc member
  | removed _ _ _ _ _ _ _ => exact sorted
  | closed _ _ => exact sorted
  | kept _ _ _ _ _ _ _ _ => exact sorted
  | stopped _ _ _ _ => exact sorted
  | waiting _ _ _ _ => exact sorted
  | dispatched _ _ _ _ _ => exact sorted
  | resumed _ _ _ _ _ => exact sorted
  | nextSlot _ _ => exact sorted

/-- A listed process stays listed, unless a CPU removes it and is about to
release it. -/
theorem SimEffect.tracked (effect : SimEffect timeSlot sim action after) (owned : sim.Owned)
    {proc : ProcRef} (listed : proc ∈ sim.os.sched.runningList) :
    proc ∈ after.os.sched.runningList ∨ after.Parting proc := by
  cases effect with
  | loaded code prio rest _ => exact Or.inl (mem_enqueue_of_mem _ listed)
  | acquired id timeLeft got os asks outcome =>
      rw [← runningList_getProc outcome] at listed
      exact Or.inl listed
  | skipped id os point idle outcome =>
      rw [← runningList_getProc outcome] at listed
      exact Or.inl listed
  | emptied id timeLeft os asks elsewhere outcome =>
      rw [← runningList_getProc outcome] at listed
      exact Or.inl listed
  | removed id gone pcb point holds found ended =>
      by_cases own : proc = gone
      · subst own
        exact Or.inr ⟨id, by simp [Simulator.setCpu], by simp [Simulator.setCpu]⟩
      · exact Or.inl ((List.mem_erase_of_ne own).mpr listed)
  | freed id gone pcb point holds found =>
      rw [← sched_freePcb owned.sound gone] at listed
      exact Or.inl listed
  | ran id runner pcb point holds found defined =>
      rw [← runningList_run sim.os runner] at listed
      exact Or.inl listed
  | putBack _ _ _ _ _ _ _ _ => exact Or.inl listed
  | closed _ _ => exact Or.inl listed
  | kept _ _ _ _ _ _ _ _ => exact Or.inl listed
  | stopped _ _ _ _ => exact Or.inl listed
  | waiting _ _ _ _ => exact Or.inl listed
  | dispatched _ _ _ _ _ => exact Or.inl listed
  | resumed _ _ _ _ _ => exact Or.inl listed
  | nextSlot _ _ => exact Or.inl listed

/-- A CPU leaves the point before `free_pcb` only by releasing the process. -/
theorem SimEffect.stays_parting (effect : SimEffect timeSlot sim action after) (owned : sim.Owned)
    {proc : ProcRef} (alive : (after.os.procs proc).isSome = true) (parting : sim.Parting proc) :
    after.Parting proc := by
  rcases parting with ⟨id, point, holds⟩
  by_cases acts : action = .cpu id
  · subst acts
    cases effect with
    | freed _ gone pcb _ held found =>
        rw [holds] at held
        cases held
        rw [Simulator.record_os, Simulator.setCpu_os, Simulator.setOs_os,
          procs_freePcb owned.sound, if_pos rfl] at alive
        cases alive
    | acquired _ _ _ _ asks _ =>
        have idle := asks.current
        rw [Cpu.current_of_point point holds] at idle
        cases idle
    | emptied _ _ _ asks _ _ =>
        have idle := asks.current
        rw [Cpu.current_of_point point holds] at idle
        cases idle
    | skipped _ _ elsewhere _ _ => rw [point] at elsewhere; cases elsewhere
    | removed _ _ _ elsewhere _ _ _ => rw [point] at elsewhere; cases elsewhere
    | putBack _ _ _ elsewhere _ _ _ _ => rw [point] at elsewhere; cases elsewhere
    | kept _ _ _ elsewhere _ _ _ _ => rw [point] at elsewhere; cases elsewhere
    | stopped _ elsewhere _ _ => rw [point] at elsewhere; cases elsewhere
    | waiting _ elsewhere _ _ => rw [point] at elsewhere; cases elsewhere
    | dispatched _ _ elsewhere _ _ => rw [point] at elsewhere; cases elsewhere
    | resumed _ _ elsewhere _ _ => rw [point] at elsewhere; cases elsewhere
    | ran _ _ _ elsewhere _ _ _ => rw [point] at elsewhere; cases elsewhere
    | nextSlot _ elsewhere => rw [point] at elsewhere; cases elsewhere
  · refine ⟨id, ?_⟩
    rw [effect.cpus_of_ne acts]
    exact ⟨point, holds⟩

theorem Simulator.Attended.step (attended : sim.Attended) (owned : sim.Owned)
    (roomy : Roomy sim action) (effect : SimEffect timeSlot sim action after) :
    after.Attended where
  placed := by
    intro proc alive
    cases effect.relocated owned proc with
    | kept same block =>
        rw [same]
        exact attended.placed proc (block.symm.trans alive)
    | entered _ _ loads _ _ room =>
        have free := roomy loads.1 loads.2
        have added := room fun prio => lt_of_le_of_lt (attended.queue_short owned prio) free
        omega
    | dropped id point held full _ _ =>
        exact absurd full (Nat.not_le_of_lt (attended.room_to_put owned point held _))
    | released gone _ _ =>
        rw [gone] at alive
        cases alive
  sorted := effect.sorted owned attended.sorted
  tracked := by
    intro proc alive staying
    have listedBefore : proc ∈ sim.os.sched.runningList → proc ∈ after.os.sched.runningList :=
      fun listed => (effect.tracked owned listed).resolve_right staying
    have keeps : (sim.os.procs proc).isSome = true → proc ∈ after.os.sched.runningList :=
      fun before => listedBefore (attended.tracked proc before fun parting =>
        staying (effect.stays_parting owned alive parting))
    cases effect.relocated owned proc with
    | kept _ block => exact keeps (block.symm.trans alive)
    | entered _ _ loads listing _ _ =>
        rw [listing, enqueue, if_neg (Nat.not_le_of_lt (roomy loads.1 loads.2))]
        exact List.mem_append_right _ (List.mem_singleton_self proc)
    | dropped _ _ _ _ _ block => exact keeps (block.symm.trans alive)
    | released gone _ _ =>
        rw [gone] at alive
        cases alive
  short := by
    rcases effect.runningList owned with same | ⟨added, _⟩ | ⟨gone, shorter⟩
    · rw [same]
      exact attended.short
    · rw [added]
      rcases enqueue_cases sim.os.sched.runningList sim.os.availPid with
        ⟨room, appended⟩ | ⟨_, dropped⟩
      · rw [appended, List.length_append, List.length_singleton]
        exact room
      · rw [dropped]
        exact attended.short
    · rw [shorter]
      exact le_trans (List.erase_sublist.length_le) attended.short

end Step

/-! ## Every roomy run -/

theorem attended_start (numCpus : Nat) (memramsz memswpsz : Addr)
    (freergHeads : ProcRef → List VmRgStruct) (config : List (List Inst × Nat)) :
    (start numCpus memramsz memswpsz freergHeads config).Attended := by
  refine ⟨fun proc alive => ?_, fun prio proc queued => ?_, fun proc alive _ => ?_, ?_⟩
  · cases alive
  · cases queued
  · cases alive
  · exact Nat.zero_le _

/-- The states reached by interleavings that never add a process to a full
running list. -/
def SimulatedRoomy (timeSlot : Int) (memramsz memswpsz : Addr) (config : List (List Inst × Nat))
    (sim : Simulator numCpus) : Prop :=
  ∃ freergHeads trace, Transition.RunWhere (simStep timeSlot) Roomy
    (start numCpus memramsz memswpsz freergHeads config) trace sim

theorem SimulatedRoomy.attended {timeSlot : Int} {memramsz memswpsz : Addr}
    {config : List (List Inst × Nat)} {sim : Simulator numCpus}
    (reached : SimulatedRoomy timeSlot memramsz memswpsz config sim) :
    sim.Owned ∧ sim.Attended := by
  rcases reached with ⟨freergHeads, trace, path⟩
  refine path.invariant (fun sim => sim.Owned ∧ sim.Attended)
    ⟨owned_start numCpus memramsz memswpsz freergHeads config,
      attended_start numCpus memramsz memswpsz freergHeads config⟩ ?_
  rintro before action after ⟨owned, attended⟩ roomy taken
  have effect := simStep_effect taken
  exact ⟨owned.step effect, attended.step owned roomy effect⟩

/-- A process is held by exactly one CPU, or it waits in the queue of its
priority and is held by none, and its id resolves to it. -/
def Simulator.Attends (sim : Simulator numCpus) (proc : ProcRef) : Prop :=
  ((∃! id, (sim.cpus id).current = some proc) ∨
      proc ∈ sim.os.sched.mlqReadyQueue (normalizePrio (sim.os.prio proc)) ∧
        ∀ id, (sim.cpus id).current ≠ some proc) ∧
    schedFindProcByPid sim.os (sim.os.pid proc) = some proc

/-- No process is lost: at any number of CPUs and processes, as long as no
process is added to a full running list, each one that has been added and not
yet removed is attended to. -/
theorem processes_attended (numCpus : Nat) (timeSlot : Int) (memramsz memswpsz : Addr)
    (config : List (List Inst × Nat)) (sim : Simulator numCpus)
    (reached : SimulatedRoomy timeSlot memramsz memswpsz config sim) (proc : ProcRef)
    (added : (sim.os.procs proc).isSome = true) (unfinished : ¬ sim.Parting proc) :
    sim.Attends proc := by
  rcases reached.attended with ⟨owned, attended⟩
  refine ⟨?_, ?_⟩
  · have placed := attended.placed proc added
    by_cases held : ∃ id, (sim.cpus id).current = some proc
    · rcases held with ⟨id, held⟩
      exact Or.inl ⟨id, held, fun other here => owned.unique here held⟩
    · have unheld : ¬ 0 < holding sim.cpus proc := fun holds =>
        held ((holding_pos_iff sim.cpus proc).mp holds)
      rw [Simulator.places] at placed
      rcases (waiting_pos_iff sim.os.sched proc).mp (by omega) with ⟨prio, queued⟩
      rw [attended.sorted prio proc queued]
      exact Or.inr ⟨queued, owned.queued_apart queued⟩
  · have listed := attended.tracked proc added unfinished
    have resolves := (owned.sound.resolves_iff added).mpr listed
    rcases Option.isSome_iff_exists.mp resolves with ⟨found, resolved⟩
    rw [resolved, owned.sound.resolve added resolved]

/-- The loader adds 51 processes before a CPU takes one.  The last process has
its block and its program to run, and is nowhere. -/
theorem not_processes_attended :
    ¬ ∀ (numCpus : Nat) (timeSlot : Int) (memramsz memswpsz : Addr)
      (config : List (List Inst × Nat)) (sim : Simulator numCpus),
      Simulated timeSlot memramsz memswpsz config sim → ∀ proc,
        (sim.os.procs proc).isSome = true → sim.os.finished proc = false → ¬ sim.Parting proc →
          ((∃ id, (sim.cpus id).current = some proc) ∨
              proc ∈ sim.os.sched.mlqReadyQueue (normalizePrio (sim.os.prio proc))) ∧
            schedFindProcByPid sim.os (sim.os.pid proc) = some proc := by
  intro always
  have attends := always 1 1 1024 0 (List.replicate 51 ([⟨.CALC, 0, 0, 0, 0⟩], 0))
    ((Transition.exec (simStep 1) (fun _ _ => True)
      (start 1 1024 0 nullHeads (List.replicate 51 ([⟨.CALC, 0, 0, 0, 0⟩], 0)))
      (List.replicate 51 .loader)).get (by decide +kernel))
    ⟨_, _, (Transition.runWhere_of_exec (Option.some_get _).symm).run⟩ 51 (by decide +kernel)
    (by decide +kernel) (by unfold Simulator.Parting; decide +kernel)
  exact absurd attends.2 (by decide +kernel)

/-- The second process waits while the only CPU runs the first. -/
theorem processes_attended_waiting :
    ((Transition.exec (simStep 1) Roomy
      (start 1 1024 0 nullHeads [([⟨.CALC, 0, 0, 0, 0⟩], 0), ([⟨.CALC, 0, 0, 0, 0⟩], 7)])
      [.loader, .loader, .cpu 0, .cpu 0]).get (by decide +kernel)).Attends 2 :=
  processes_attended 1 1 1024 0 [([⟨.CALC, 0, 0, 0, 0⟩], 0), ([⟨.CALC, 0, 0, 0, 0⟩], 7)] _
    ⟨_, _, Transition.runWhere_of_exec (Option.some_get _).symm⟩ 2 (by decide +kernel)
    (by unfold Simulator.Parting; decide +kernel)

end Kernel
end Ossim
