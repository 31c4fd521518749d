import Mathlib.Algebra.BigOperators.Fin
import Ossim.Kernel.CpuLoop
import Ossim.Kernel.Mlq
import Ossim.Kernel.Residency

namespace Ossim
namespace Kernel

open Memory

/-!
# Ownership of processes

A process is in a ready queue or with a CPU, and `places` counts how often.
The scheduler calls move it: `get_proc` from a queue to the CPU, `put_proc` back,
and `free_pcb` makes it disappear.  None of them copies it, so the count is at
most one in every state that the CPUs and the loader reach in any order.

The other statements rest on this one.  Only the CPU that holds a process can
run it, so its instructions are executed in order and its quantum is counted
once; and no reference to it is left when it is released.
-/

variable {numCpus : Nat}

/-! ## Counting the places of a process -/

/-- The number of times a process is queued. -/
def Sched.waiting (sched : Sched) (proc : ProcRef) : Nat :=
  ∑ prio, (sched.mlqReadyQueue prio).count proc

/-- One for the process that is held, and zero for every other. -/
def share (current : Option ProcRef) (proc : ProcRef) : Nat :=
  if current = some proc then 1 else 0

/-- The number of CPUs that hold a process. -/
def holding (cpus : Fin numCpus → Cpu) (proc : ProcRef) : Nat :=
  ∑ id, share (cpus id).current proc

/-- The number of ready-queue positions and CPUs that a process is at. -/
def Simulator.places (sim : Simulator numCpus) (proc : ProcRef) : Nat :=
  sim.os.sched.waiting proc + holding sim.cpus proc

@[simp] theorem share_none (proc : ProcRef) : share none proc = 0 := rfl

@[simp] theorem share_self (proc : ProcRef) : share (some proc) proc = 1 := if_pos rfl

theorem share_some (got proc : ProcRef) : share (some got) proc = if got = proc then 1 else 0 := by
  simp [share]

theorem share_of_ne {got proc : ProcRef} (different : got ≠ proc) : share (some got) proc = 0 := by
  rw [share_some, if_neg different]

theorem share_pos_iff (current : Option ProcRef) (proc : ProcRef) :
    0 < share current proc ↔ current = some proc := by
  unfold share
  split <;> simp_all

private theorem sum_update {Index : Type*} [Fintype Index] [DecidableEq Index] (f : Index → Nat)
    (index : Index) (value : Nat) :
    ∑ i, Function.update f index value i + f index = ∑ i, f i + value := by
  have rest := Finset.sum_update_of_mem (Finset.mem_univ index) f value
  have split := Finset.add_sum_erase Finset.univ f (Finset.mem_univ index)
  rw [← Finset.erase_eq] at rest
  omega

private theorem count_update (queues : Fin MAX_PRIO → List ProcRef) (prio : Fin MAX_PRIO)
    (q : List ProcRef) (proc : ProcRef) :
    ∑ other, (Function.update queues prio q other).count proc + (queues prio).count proc =
      ∑ other, (queues other).count proc + q.count proc := by
  have moved : (fun other => (Function.update queues prio q other).count proc) =
      Function.update (fun other => (queues other).count proc) prio (q.count proc) := by
    funext other
    by_cases same : other = prio
    · subst same
      rw [Function.update_self, Function.update_self]
    · rw [Function.update_of_ne same, Function.update_of_ne same]
  rw [moved]
  exact sum_update _ prio _

theorem holding_update (cpus : Fin numCpus → Cpu) (id : Fin numCpus) (cpu : Cpu) (proc : ProcRef) :
    holding (Function.update cpus id cpu) proc + share (cpus id).current proc =
      holding cpus proc + share cpu.current proc := by
  have moved : (fun other => share (Function.update cpus id cpu other).current proc) =
      Function.update (fun other => share (cpus other).current proc) id
        (share cpu.current proc) := by
    funext other
    by_cases same : other = id
    · subst same
      rw [Function.update_self, Function.update_self]
    · rw [Function.update_of_ne same, Function.update_of_ne same]
  rw [holding, moved]
  exact sum_update _ id _

private theorem waiting_served {sched : Sched} {prio : Fin MAX_PRIO} {got : ProcRef}
    {rest : List ProcRef} (queue : sched.mlqReadyQueue prio = got :: rest) (proc : ProcRef) :
    (sched.served prio rest).waiting proc + share (some got) proc = sched.waiting proc := by
  have moved := count_update sched.mlqReadyQueue prio rest proc
  rw [queue, List.count_cons] at moved
  simp only [beq_iff_eq] at moved
  rw [share_some, Sched.served, Sched.waiting, Sched.waiting]
  dsimp only
  omega

theorem waiting_getMlqProc (sched : Sched) (proc : ProcRef) :
    (getMlqProc sched).2.waiting proc + share (getMlqProc sched).1 proc = sched.waiting proc := by
  have outcome := getMlqProc_outcome sched
  generalize getMlqProc sched = result at outcome ⊢
  cases outcome with
  | idle _ => simp
  | served prio got rest queue _ _ => exact waiting_served queue proc
  | renewed prio got rest queue _ _ =>
      exact @waiting_served (resetMlqSlot sched) prio got rest queue proc

/-- A process that does not fit into its queue is dropped. -/
theorem waiting_queued (sched : Sched) (prio : Fin MAX_PRIO) (added proc : ProcRef) :
    (sched.queued prio added).waiting proc ≤ sched.waiting proc + share (some added) proc ∧
      ((sched.mlqReadyQueue prio).length < MAX_QUEUE_SIZE →
        (sched.queued prio added).waiting proc = sched.waiting proc + share (some added) proc) := by
  have moved := count_update sched.mlqReadyQueue prio (enqueue (sched.mlqReadyQueue prio) added) proc
  rw [share_some, Sched.queued, Sched.waiting, Sched.waiting]
  dsimp only
  rcases enqueue_cases (sched.mlqReadyQueue prio) added with ⟨room, appended⟩ | ⟨full, dropped⟩
  · rw [appended, List.count_append, List.count_singleton] at moved
    simp only [beq_iff_eq] at moved
    rw [appended]
    exact ⟨by omega, fun _ => by omega⟩
  · rw [dropped] at moved ⊢
    exact ⟨by omega, fun room => absurd full (Nat.not_le_of_lt room)⟩

/-- A process keeps its places in the queues when another one is enqueued. -/
theorem waiting_queued_of_ne (sched : Sched) (prio : Fin MAX_PRIO) {added proc : ProcRef}
    (different : added ≠ proc) : (sched.queued prio added).waiting proc = sched.waiting proc := by
  have moved := count_update sched.mlqReadyQueue prio (enqueue (sched.mlqReadyQueue prio) added) proc
  rw [Sched.queued, Sched.waiting, Sched.waiting]
  dsimp only
  rcases enqueue_cases (sched.mlqReadyQueue prio) added with ⟨_, appended⟩ | ⟨_, dropped⟩
  · rw [appended, List.count_append, List.count_singleton, beq_false_of_ne different,
      if_neg Bool.false_ne_true] at moved
    rw [appended]
    omega
  · rw [dropped] at moved ⊢
    omega

/-- A process is queued exactly when it is in the queue of some priority. -/
theorem waiting_pos_iff (sched : Sched) (proc : ProcRef) :
    0 < sched.waiting proc ↔ ∃ prio, proc ∈ sched.mlqReadyQueue prio := by
  rw [Sched.waiting, Finset.sum_pos_iff]
  simp [List.count_pos_iff]

theorem holding_pos_iff (cpus : Fin numCpus → Cpu) (proc : ProcRef) :
    0 < holding cpus proc ↔ ∃ id, (cpus id).current = some proc := by
  rw [holding, Finset.sum_pos_iff]
  simp [share_pos_iff]

/-- Two CPUs do not hold the same process when it is at one place. -/
theorem holding_unique {cpus : Fin numCpus → Cpu} {proc : ProcRef} (single : holding cpus proc ≤ 1)
    {left right : Fin numCpus} (here : (cpus left).current = some proc)
    (there : (cpus right).current = some proc) : left = right := by
  by_contra different
  have idle : (⟨.stopped, none, 0⟩ : Cpu).current = none := rfl
  have moved := holding_update cpus left ⟨.stopped, none, 0⟩ proc
  rw [here, share_self, idle, share_none] at moved
  have elsewhere : 0 < holding (Function.update cpus left ⟨.stopped, none, 0⟩) proc := by
    rw [holding_pos_iff]
    refine ⟨right, ?_⟩
    rw [Function.update_of_ne (Ne.symm different)]
    exact there
  omega

/-! ## What a step moves -/

theorem Cpu.Asks.current {cpu : Cpu} {timeLeft : Int} (asks : cpu.Asks timeLeft) :
    cpu.current = none := by
  cases asks with
  | top point idle => rw [Cpu.current, point, idle]
  | freed point => rw [Cpu.current, point]
  | yielded point => rw [Cpu.current, point]

/-- A CPU before `put_proc` or `free_pcb` holds its process. -/
theorem Cpu.current_of_point {cpu : Cpu} {place : CpuPoint} {proc : ProcRef}
    (point : cpu.point = place) (holds : cpu.proc = some proc)
    (held : place ≠ .freed ∧ place ≠ .yielded := by decide) : cpu.current = some proc := by
  subst point
  unfold Cpu.current
  split
  · next freed => exact absurd freed held.1
  · next yielded => exact absurd yielded held.2
  · exact holds

/-- What a CPU gives up or gains, and what the queues gain or lose. -/
theorem places_setCpu (sim : Simulator numCpus) (os : Os) (id : Fin numCpus) (cpu : Cpu)
    (old new : Option ProcRef) (before : (sim.cpus id).current = old) (after : cpu.current = new)
    (proc : ProcRef) :
    ((sim.setOs os).setCpu id cpu).places proc + share old proc + sim.os.sched.waiting proc =
      sim.places proc + os.sched.waiting proc + share new proc := by
  have moved := holding_update sim.cpus id cpu proc
  rw [before, after] at moved
  unfold Simulator.places Simulator.setCpu Simulator.setOs
  dsimp only
  omega

/-- A step in which the CPU keeps what it holds moves nothing. -/
theorem places_setCpu_same (sim : Simulator numCpus) {id : Fin numCpus} {cpu : Cpu}
    (same : cpu.current = (sim.cpus id).current) (proc : ProcRef) :
    (sim.setCpu id cpu).places proc = sim.places proc := by
  have moved := holding_update sim.cpus id cpu proc
  rw [same] at moved
  unfold Simulator.places Simulator.setCpu
  dsimp only
  omega

theorem places_record (sim : Simulator numCpus) (event : Event) (proc : ProcRef) :
    (sim.record event).places proc = sim.places proc := rfl

/-! ## The invariant -/

/-- What holds between the queues, the CPUs, the running list and the blocks. -/
structure Simulator.Owned (sim : Simulator numCpus) : Prop where
  sound : sim.os.Sound
  single : ∀ proc, sim.places proc ≤ 1
  live : ∀ proc, 0 < sim.places proc → (sim.os.procs proc).isSome = true
  listed : ∀ proc ∈ sim.os.sched.runningList, (sim.os.procs proc).isSome = true
  once : sim.os.sched.runningList.Nodup
  parting : ∀ id, (sim.cpus id).point = .removed → ∀ proc, (sim.cpus id).proc = some proc →
    sim.os.finished proc = true ∧ proc ∉ sim.os.sched.runningList

namespace Simulator.Owned

variable {sim after : Simulator numCpus} {timeSlot : Int}

theorem places_of_current {id : Fin numCpus} {proc : ProcRef}
    (held : (sim.cpus id).current = some proc) : 0 < sim.places proc := by
  have positive := (holding_pos_iff sim.cpus proc).mpr ⟨id, held⟩
  rw [Simulator.places]
  omega

/-- Two CPUs that hold the same process are one. -/
theorem unique (owned : sim.Owned) {proc : ProcRef} {left right : Fin numCpus}
    (here : (sim.cpus left).current = some proc) (there : (sim.cpus right).current = some proc) :
    left = right := by
  have bound := owned.single proc
  rw [Simulator.places] at bound
  exact holding_unique (by omega) here there

theorem current_live (owned : sim.Owned) {proc : ProcRef} {id : Fin numCpus}
    (held : (sim.cpus id).current = some proc) : (sim.os.procs proc).isSome = true :=
  owned.live proc (places_of_current held)

/-- The next process id has no place. -/
theorem places_availPid (owned : sim.Owned) : sim.places sim.os.availPid = 0 := by
  by_contra placed
  have alive := owned.live _ (Nat.pos_of_ne_zero placed)
  rw [owned.sound.absent] at alive
  cases alive

end Simulator.Owned

/-! ## The blocks after a step -/

theorem sched_run (os : Os) (proc : ProcRef) : (run os proc).2.sched = os.sched := by
  cases fetched : fetch os proc with
  | none => rw [run_of_end fetched]
  | some ins => rw [run_of_fetch fetched, (frame_dispatch (os.advance proc) proc ins).sched]; rfl

theorem finished_of_found {os : Os} {proc : ProcRef} {pcb : Pcb}
    (found : os.procs proc = some pcb) : os.finished proc = true ↔ pcb.pc = pcb.code.length := by
  simp [Os.finished, found]

theorem isSome_load (os : Os) (code : List Inst) (prio : Nat) :
    ((addProc (load os code prio) os.availPid).procs os.availPid).isSome = true := by
  simp [addProc, addMlqProc, putMlqProc, Os.updatePcb, load]

theorem sched_freePcb {os : Os} (sound : os.Sound) (freed : ProcRef) :
    (freePcb os freed).sched = os.sched := by
  rcases freePcb_cases sound freed with ⟨spare, outcome, _⟩
  rw [outcome]
  rfl

theorem getProc_eq {os after : Os} {proc : Option ProcRef} (got : getProc os = (proc, after)) :
    proc = (getMlqProc os.sched).1 ∧ after = os.setSched (getMlqProc os.sched).2 := by
  unfold getProc at got
  generalize getMlqProc os.sched = outcome at got ⊢
  rcases outcome with ⟨found, sched⟩
  cases got
  exact ⟨rfl, rfl⟩

/-! ## Preservation -/

section Step

variable {sim after : Simulator numCpus} {timeSlot : Int} {action : SimAction numCpus}

/-- The loops drive the kernel by its own actions. -/
theorem SimEffect.kernel (effect : SimEffect timeSlot sim action after) (owned : sim.Owned) :
    after.os = sim.os ∨ ∃ kernelAction, kernelStep sim.os kernelAction = some after.os := by
  cases effect with
  | loaded code prio rest _ => exact Or.inr ⟨.load code prio, rfl⟩
  | acquired id timeLeft proc os _ got =>
      refine Or.inr ⟨.getProc, ?_⟩
      rw [kernelStep, got]
      rfl
  | skipped id os _ _ got =>
      refine Or.inr ⟨.getProc, ?_⟩
      rw [kernelStep, got]
      rfl
  | emptied id timeLeft os _ _ got =>
      refine Or.inr ⟨.getProc, ?_⟩
      rw [kernelStep, got]
      rfl
  | removed id proc pcb _ _ found ended =>
      have finished := (finished_of_found found).mpr ended
      exact Or.inr ⟨.removeProc proc, by rw [kernelStep, if_pos finished]; rfl⟩
  | putBack id proc pcb _ _ found _ _ =>
      have alive : (sim.os.procs proc).isSome = true := by rw [found]; rfl
      exact Or.inr ⟨.putProc proc, by rw [kernelStep, if_pos alive]; rfl⟩
  | freed id proc pcb point holds _ =>
      have parting := owned.parting id point proc holds
      exact Or.inr ⟨.freePcb proc, by rw [kernelStep, if_pos parting]; rfl⟩
  | ran id proc pcb _ _ found defined =>
      have alive : (sim.os.procs proc).isSome = true := by rw [found]; rfl
      exact Or.inr ⟨.run proc, by rw [kernelStep, if_pos ⟨alive, defined⟩]; rfl⟩
  | closed _ _ => exact Or.inl rfl
  | kept _ _ _ _ _ _ _ _ => exact Or.inl rfl
  | stopped _ _ _ _ => exact Or.inl rfl
  | waiting _ _ _ _ => exact Or.inl rfl
  | dispatched _ _ _ _ _ => exact Or.inl rfl
  | resumed _ _ _ _ _ => exact Or.inl rfl
  | nextSlot _ _ => exact Or.inl rfl

/-- What a step does to the places of one process, and to its block. -/
inductive Relocated (sim : Simulator numCpus) (action : SimAction numCpus)
    (after : Simulator numCpus) (proc : ProcRef) : Prop
  /-- It stays where it is, or moves from one place to another. -/
  | kept (same : after.places proc = sim.places proc)
      (block : (after.os.procs proc).isSome = (sim.os.procs proc).isSome)
  /-- The loader queues it, if there is room. -/
  | entered (fresh : proc = sim.os.availPid) (alive : (after.os.procs proc).isSome = true)
      (loads : action = .loader ∧ sim.pending ≠ [])
      (listing : after.os.sched.runningList = enqueue sim.os.sched.runningList proc)
      (bound : after.places proc ≤ sim.places proc + 1)
      (room : (∀ prio, (sim.os.sched.mlqReadyQueue prio).length < MAX_QUEUE_SIZE) →
        after.places proc = sim.places proc + 1)
  /-- It is put back and does not fit. -/
  | dropped (id : Fin numCpus) (point : (sim.cpus id).point = .top)
      (held : (sim.cpus id).current = some proc)
      (full : MAX_QUEUE_SIZE ≤
        (sim.os.sched.mlqReadyQueue (normalizePrio (sim.os.prio proc))).length)
      (bound : after.places proc ≤ sim.places proc)
      (block : (after.os.procs proc).isSome = (sim.os.procs proc).isSome)
  /-- It is released. -/
  | released (gone : after.os.procs proc = none) (one : after.places proc + 1 = sim.places proc)
      (unlisted : proc ∉ after.os.sched.runningList)

theorem SimEffect.relocated (effect : SimEffect timeSlot sim action after) (owned : sim.Owned)
    (proc : ProcRef) : Relocated sim action after proc := by
  cases effect with
  | loaded code prio rest next =>
      have queued := waiting_queued sim.os.sched
        (normalizePrio ((load sim.os code prio).prio sim.os.availPid)) sim.os.availPid proc
      have places : Simulator.places { sim with
          os := addProc (load sim.os code prio) sim.os.availPid, pending := rest } proc =
          (sim.os.sched.queued (normalizePrio ((load sim.os code prio).prio sim.os.availPid))
            sim.os.availPid).waiting proc + holding sim.cpus proc := rfl
      by_cases fresh : proc = sim.os.availPid
      · subst fresh
        rw [share_self] at queued
        refine .entered rfl (isSome_load sim.os code prio) ⟨rfl, by simp [next]⟩ rfl ?_ fun room => ?_
        · rw [places, Simulator.places]
          omega
        · have exact := queued.2 (room _)
          rw [places, Simulator.places]
          omega
      · have same := waiting_queued_of_ne sim.os.sched
          (normalizePrio ((load sim.os code prio).prio sim.os.availPid)) (Ne.symm fresh)
        refine .kept ?_ (congrArg Option.isSome (procs_load_of_ne sim.os code prio fresh))
        rw [places, same, Simulator.places]
  | closed _ _ => exact .kept rfl rfl
  | acquired id timeLeft got os asks outcome =>
      rcases getProc_eq outcome with ⟨same, rfl⟩
      have moved := places_setCpu sim (sim.os.setSched (getMlqProc sim.os.sched).2) id
        ⟨.recheck, some got, timeLeft⟩ none (some got) asks.current rfl proc
      have taken := waiting_getMlqProc sim.os.sched proc
      rw [← same] at taken
      rw [share_none, Os.setSched_sched] at moved
      exact .kept (by omega) rfl
  | skipped id os point idle outcome =>
      rcases getProc_eq outcome with ⟨same, rfl⟩
      have moved := places_setCpu sim (sim.os.setSched (getMlqProc sim.os.sched).2) id
        ⟨.slot, none, (sim.cpus id).timeLeft⟩ none none (Cpu.Asks.top point idle).current rfl proc
      have taken := waiting_getMlqProc sim.os.sched proc
      rw [← same, share_none] at taken
      rw [share_none, Os.setSched_sched] at moved
      exact .kept (by omega) rfl
  | emptied id timeLeft os asks elsewhere outcome =>
      rcases getProc_eq outcome with ⟨same, rfl⟩
      have moved := places_setCpu sim (sim.os.setSched (getMlqProc sim.os.sched).2) id
        ⟨.recheck, none, timeLeft⟩ none none asks.current rfl proc
      have taken := waiting_getMlqProc sim.os.sched proc
      rw [← same, share_none] at taken
      rw [share_none, Os.setSched_sched] at moved
      exact .kept (by omega) rfl
  | removed id gone pcb point holds found ended =>
      have held := Cpu.current_of_point point holds
      have moved := places_setCpu sim (removeProc sim.os gone) id
        ⟨.removed, some gone, (sim.cpus id).timeLeft⟩ (some gone) (some gone) held rfl proc
      have queues : (removeProc sim.os gone).sched.waiting proc = sim.os.sched.waiting proc := rfl
      exact .kept (by omega) rfl
  | putBack id back pcb point holds found unfinished spent =>
      have held := Cpu.current_of_point point holds
      have moved := places_setCpu sim (putProc sim.os back) id
        ⟨.yielded, some back, (sim.cpus id).timeLeft⟩ (some back) none held rfl proc
      have queued := waiting_queued sim.os.sched (normalizePrio (sim.os.prio back)) back proc
      have block := isSome_putMlqProc sim.os back proc
      rw [putProc, sched_putMlqProc, share_none] at moved
      by_cases own : back = proc
      · subst own
        by_cases room :
            (sim.os.sched.mlqReadyQueue (normalizePrio (sim.os.prio back))).length < MAX_QUEUE_SIZE
        · have exact := queued.2 room
          refine .kept ?_ block
          rw [places_record, putProc]
          omega
        · refine .dropped id point held (Nat.le_of_not_lt room) ?_ block
          rw [places_record, putProc]
          omega
      · have same := waiting_queued_of_ne sim.os.sched (normalizePrio (sim.os.prio back)) own
        rw [share_of_ne own] at moved
        refine .kept ?_ block
        rw [places_record, putProc]
        omega
  | kept id held pcb point holds _ _ _ =>
      refine .kept (places_setCpu_same sim ?_ proc) rfl
      exact (Cpu.current_of_point point holds).symm
  | freed id gone pcb point holds found =>
      have held := Cpu.current_of_point point holds
      have moved := places_setCpu sim (freePcb sim.os gone) id
        ⟨.freed, some gone, (sim.cpus id).timeLeft⟩ (some gone) none held rfl proc
      have procs := procs_freePcb owned.sound gone proc
      rw [sched_freePcb owned.sound, share_none] at moved
      by_cases own : proc = gone
      · subst own
        rw [share_self] at moved
        rw [if_pos rfl] at procs
        refine .released procs ?_ fun listed => ?_
        · rw [places_record]
          omega
        · rw [Simulator.record_os, Simulator.setCpu_os, Simulator.setOs_os,
            sched_freePcb owned.sound] at listed
          exact (owned.parting id point proc holds).2 listed
      · rw [share_of_ne (Ne.symm own)] at moved
        rw [if_neg own] at procs
        refine .kept ?_ (congrArg Option.isSome procs)
        rw [places_record]
        omega
  | stopped id point idle closing =>
      refine .kept (places_setCpu_same sim ?_ proc) rfl
      rw [Cpu.current, Cpu.current, point, idle]
  | waiting id point idle loading =>
      refine .kept (places_setCpu_same sim ?_ proc) rfl
      rw [Cpu.current, Cpu.current, point, idle]
  | dispatched id next point holds spent =>
      refine .kept (places_setCpu_same sim ?_ proc) rfl
      rw [Cpu.current, Cpu.current, point, holds]
  | resumed id next point holds left =>
      refine .kept (places_setCpu_same sim ?_ proc) rfl
      rw [Cpu.current, Cpu.current, point, holds]
  | ran id runner pcb point holds found defined =>
      have held := Cpu.current_of_point point holds
      have moved := places_setCpu sim (run sim.os runner).2 id
        ⟨.slot, some runner, (sim.cpus id).timeLeft - 1⟩ (some runner) (some runner) held rfl proc
      rw [sched_run] at moved
      refine .kept ?_ (isSome_run sim.os runner proc)
      rw [places_record]
      omega
  | nextSlot id point =>
      refine .kept (places_setCpu_same sim ?_ proc) rfl
      rw [Cpu.current, Cpu.current, point]

/-- A process that still has a place, or is still listed, has its block. -/
theorem SimEffect.stays_live (effect : SimEffect timeSlot sim action after) (owned : sim.Owned)
    {proc : ProcRef} (alive : (sim.os.procs proc).isSome = true)
    (used : 0 < after.places proc ∨ proc ∈ after.os.sched.runningList) :
    (after.os.procs proc).isSome = true := by
  cases effect.relocated owned proc with
  | kept _ block => exact block.trans alive
  | entered _ there _ _ _ _ => exact there
  | dropped _ _ _ _ _ block => exact block.trans alive
  | released _ one unlisted =>
      have before := owned.single proc
      rcases used with placed | listed
      · omega
      · exact absurd listed unlisted

/-- A released block does not come back. -/
theorem SimEffect.stays_gone (effect : SimEffect timeSlot sim action after) (owned : sim.Owned)
    {proc : ProcRef} (absent : sim.os.procs proc = none) (older : proc < sim.os.availPid) :
    after.os.procs proc = none := by
  have dead : (sim.os.procs proc).isSome = false := by
    rw [absent]
    rfl
  cases effect.relocated owned proc with
  | kept _ block =>
      exact Option.isNone_iff_eq_none.mp (Option.isSome_eq_false_iff.mp (block.trans dead))
  | entered fresh _ _ _ _ _ => exact absurd fresh (Nat.ne_of_lt older)
  | dropped _ _ held _ _ _ =>
      rw [owned.current_live held] at dead
      cases dead
  | released gone _ _ => exact gone

theorem runningList_getProc {os after : Os} {proc : Option ProcRef}
    (got : getProc os = (proc, after)) :
    after.sched.runningList = os.sched.runningList := by
  rcases getProc_eq got with ⟨_, rfl⟩
  exact runningList_getMlqProc os.sched

/-- The running list gains a new process, loses a finished one, or stays. -/
theorem SimEffect.runningList (effect : SimEffect timeSlot sim action after) (owned : sim.Owned) :
    after.os.sched.runningList = sim.os.sched.runningList ∨
      (after.os.sched.runningList = enqueue sim.os.sched.runningList sim.os.availPid ∧
        (after.os.procs sim.os.availPid).isSome = true) ∨
      ∃ proc, after.os.sched.runningList = sim.os.sched.runningList.erase proc := by
  cases effect with
  | loaded code prio rest _ => exact Or.inr (Or.inl ⟨rfl, isSome_load sim.os code prio⟩)
  | acquired id timeLeft got os asks outcome => exact Or.inl (runningList_getProc outcome)
  | skipped id os point idle outcome => exact Or.inl (runningList_getProc outcome)
  | emptied id timeLeft os asks elsewhere outcome => exact Or.inl (runningList_getProc outcome)
  | removed id gone pcb point holds found ended => exact Or.inr (Or.inr ⟨gone, rfl⟩)
  | freed id gone pcb point holds found =>
      exact Or.inl (congrArg Sched.runningList (sched_freePcb owned.sound gone))
  | ran id runner pcb point holds found defined =>
      exact Or.inl (runningList_run sim.os runner)
  | putBack _ _ _ _ _ _ _ _ => exact Or.inl rfl
  | closed _ _ => exact Or.inl rfl
  | kept _ _ _ _ _ _ _ _ => exact Or.inl rfl
  | stopped _ _ _ _ => exact Or.inl rfl
  | waiting _ _ _ _ => exact Or.inl rfl
  | dispatched _ _ _ _ _ => exact Or.inl rfl
  | resumed _ _ _ _ _ => exact Or.inl rfl
  | nextSlot _ _ => exact Or.inl rfl

/-- A process that another CPU holds keeps its block unchanged, but for the
clamped priority of a process that is put back. -/
theorem SimEffect.stays_finished (effect : SimEffect timeSlot sim action after) (owned : sim.Owned)
    {other : Fin numCpus} {proc : ProcRef} (distinct : action ≠ .cpu other)
    (held : (sim.cpus other).current = some proc) :
    after.os.finished proc = sim.os.finished proc := by
  have alive := owned.current_live held
  cases effect with
  | loaded code prio rest _ =>
      have older : proc ≠ sim.os.availPid := by
        rintro rfl
        rw [owned.sound.absent] at alive
        cases alive
      exact finished_congr (procs_load_of_ne sim.os code prio older)
  | acquired id timeLeft got os asks outcome =>
      rcases getProc_eq outcome with ⟨_, rfl⟩
      rfl
  | skipped id os point idle outcome =>
      rcases getProc_eq outcome with ⟨_, rfl⟩
      rfl
  | emptied id timeLeft os asks elsewhere outcome =>
      rcases getProc_eq outcome with ⟨_, rfl⟩
      rfl
  | putBack id back pcb point holds found unfinished spent =>
      exact finished_putMlqProc sim.os back proc
  | freed id gone pcb point holds found =>
      have here := Cpu.current_of_point point holds
      have different : proc ≠ gone := by
        rintro rfl
        exact distinct (congrArg SimAction.cpu (owned.unique here held))
      refine finished_congr ?_
      rw [Simulator.record_os, Simulator.setCpu_os, Simulator.setOs_os, procs_freePcb owned.sound,
        if_neg different]
  | ran id runner pcb point holds found defined =>
      have here := Cpu.current_of_point point holds
      have different : proc ≠ runner := by
        rintro rfl
        exact distinct (congrArg SimAction.cpu (owned.unique here held))
      exact finished_congr (run_others owned.sound (owned.current_live here) different)
  | removed _ _ _ _ _ _ _ => rfl
  | closed _ _ => rfl
  | kept _ _ _ _ _ _ _ _ => rfl
  | stopped _ _ _ _ => rfl
  | waiting _ _ _ _ => rfl
  | dispatched _ _ _ _ _ => rfl
  | resumed _ _ _ _ _ => rfl
  | nextSlot _ _ => rfl

/-- The variables of a CPU change only by its own steps. -/
theorem SimEffect.cpus_of_ne (effect : SimEffect timeSlot sim action after) {other : Fin numCpus}
    (distinct : action ≠ .cpu other) : after.cpus other = sim.cpus other := by
  have apart : ∀ {id : Fin numCpus}, (SimAction.cpu id : SimAction numCpus) ≠ .cpu other →
      other ≠ id := fun distinct same => distinct (congrArg SimAction.cpu same.symm)
  cases effect <;>
    first
      | rfl
      | exact Function.update_of_ne (apart distinct) _ _

/-- A CPU is at the point before `free_pcb` only after `remove_proc`. -/
theorem SimEffect.parting (effect : SimEffect timeSlot sim action after) (owned : sim.Owned)
    {id : Fin numCpus} (acts : action = .cpu id) (point : (after.cpus id).point = .removed)
    {proc : ProcRef} (holds : (after.cpus id).proc = some proc) :
    after.os.finished proc = true ∧ proc ∉ after.os.sched.runningList := by
  cases effect with
  | removed acting gone pcb before held found ended =>
      cases acts
      have same : gone = proc := by simpa [Simulator.setCpu] using holds
      subst same
      exact ⟨(finished_of_found found).mpr ended,
        fun member => (owned.once.mem_erase_iff.mp member).1 rfl⟩
  | loaded _ _ _ _ => cases acts
  | closed _ _ => cases acts
  | acquired _ _ _ _ _ _ => cases acts; simp [Simulator.setCpu] at point
  | skipped _ _ _ _ _ => cases acts; simp [Simulator.setCpu] at point
  | emptied _ _ _ _ _ _ => cases acts; simp [Simulator.setCpu] at point
  | putBack _ _ _ _ _ _ _ _ => cases acts; simp [Simulator.setCpu, Simulator.record] at point
  | kept _ _ _ _ _ _ _ _ => cases acts; simp [Simulator.setCpu] at point
  | freed _ _ _ _ _ _ => cases acts; simp [Simulator.setCpu, Simulator.record] at point
  | stopped _ _ _ _ => cases acts; simp [Simulator.setCpu] at point
  | waiting _ _ _ _ => cases acts; simp [Simulator.setCpu] at point
  | dispatched _ _ _ _ _ => cases acts; simp [Simulator.setCpu, Simulator.record] at point
  | resumed _ _ _ _ _ => cases acts; simp [Simulator.setCpu] at point
  | ran _ _ _ _ _ _ _ => cases acts; simp [Simulator.setCpu, Simulator.record] at point
  | nextSlot _ _ => cases acts; simp [Simulator.setCpu] at point

/-- Every step keeps the ownership. -/
theorem Simulator.Owned.step (owned : sim.Owned) (effect : SimEffect timeSlot sim action after) :
    after.Owned where
  sound := by
    rcases effect.kernel owned with same | ⟨kernelAction, taken⟩
    · rw [same]
      exact owned.sound
    · exact owned.sound.kernelStep taken
  single := by
    intro proc
    have before := owned.single proc
    cases effect.relocated owned proc with
    | kept same _ => omega
    | entered fresh _ _ _ bound _ =>
        have none := owned.places_availPid
        rw [← fresh] at none
        omega
    | dropped _ _ _ _ bound _ => omega
    | released _ one _ => omega
  live := by
    intro proc placed
    cases effect.relocated owned proc with
    | kept same _ => exact effect.stays_live owned (owned.live proc (by omega)) (Or.inl placed)
    | entered _ alive _ _ _ _ => exact alive
    | dropped id _ held _ _ _ =>
        exact effect.stays_live owned (owned.current_live held) (Or.inl placed)
    | released _ one _ =>
        have before := owned.single proc
        omega
  listed := by
    intro proc member
    rcases effect.runningList owned with same | ⟨added, alive⟩ | ⟨gone, shorter⟩
    · exact effect.stays_live owned (owned.listed proc (same ▸ member)) (Or.inr member)
    · by_cases fresh : proc = sim.os.availPid
      · rw [fresh]
        exact alive
      · refine effect.stays_live owned (owned.listed proc ?_) (Or.inr member)
        rw [added] at member
        exact (mem_of_mem_enqueue member).resolve_right fresh
    · refine effect.stays_live owned (owned.listed proc ?_) (Or.inr member)
      rw [shorter] at member
      exact List.mem_of_mem_erase member
  once := by
    rcases effect.runningList owned with same | ⟨added, _⟩ | ⟨gone, shorter⟩
    · rw [same]
      exact owned.once
    · have unlisted : sim.os.availPid ∉ sim.os.sched.runningList := by
        intro member
        have alive := owned.listed _ member
        rw [owned.sound.absent] at alive
        cases alive
      rw [added]
      rcases enqueue_cases sim.os.sched.runningList sim.os.availPid with
        ⟨_, appended⟩ | ⟨_, dropped⟩
      · rw [appended, List.nodup_append_comm, List.singleton_append, List.nodup_cons]
        exact ⟨unlisted, owned.once⟩
      · rw [dropped]
        exact owned.once
    · rw [shorter]
      exact owned.once.erase gone
  parting := by
    intro id point proc holds
    by_cases acts : action = .cpu id
    · exact effect.parting owned acts point holds
    · have same := effect.cpus_of_ne acts
      rw [same] at point holds
      have here := Cpu.current_of_point point holds
      have before := owned.parting id point proc holds
      refine ⟨(effect.stays_finished owned acts here).trans before.1, fun member => ?_⟩
      rcases effect.runningList owned with same | ⟨added, _⟩ | ⟨gone, shorter⟩
      · exact before.2 (same ▸ member)
      · rw [added] at member
        rcases mem_of_mem_enqueue member with already | fresh
        · exact before.2 already
        · have alive := owned.current_live here
          rw [fresh, owned.sound.absent] at alive
          cases alive
      · rw [shorter] at member
        exact before.2 (List.mem_of_mem_erase member)

end Step

/-! ## Every interleaving -/

theorem owned_start (numCpus : Nat) (memramsz memswpsz : Addr)
    (freergHeads : ProcRef → List VmRgStruct) (config : List (List Inst × Nat)) :
    (start numCpus memramsz memswpsz freergHeads config).Owned := by
  have empty : ∀ proc, (start numCpus memramsz memswpsz freergHeads config).places proc = 0 := by
    intro proc
    have queues : (start numCpus memramsz memswpsz freergHeads config).os.sched.waiting proc = 0 :=
      Finset.sum_eq_zero fun prio _ => rfl
    have cpus : holding (start numCpus memramsz memswpsz freergHeads config).cpus proc = 0 :=
      Finset.sum_eq_zero fun id _ => rfl
    rw [Simulator.places, queues, cpus]
  refine ⟨sound_boot memramsz memswpsz freergHeads, fun proc => ?_, fun proc placed => ?_,
    fun proc member => ?_, List.nodup_nil, fun id point => ?_⟩
  · rw [empty]
    exact Nat.zero_le 1
  · rw [empty] at placed
    exact absurd placed (lt_irrefl 0)
  · cases member
  · cases point

/-- Ownership does not need a positive time slot. -/
theorem Simulated.owned {timeSlot : Int} {memramsz memswpsz : Addr}
    {config : List (List Inst × Nat)} {sim : Simulator numCpus}
    (reached : Simulated timeSlot memramsz memswpsz config sim) : sim.Owned := by
  rcases reached with ⟨freergHeads, trace, path⟩
  exact path.invariant Simulator.Owned (owned_start numCpus memramsz memswpsz freergHeads config)
    fun before action after owned taken => owned.step (simStep_effect taken)

end Kernel
end Ossim
