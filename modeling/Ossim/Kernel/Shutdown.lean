import Ossim.Kernel.Ownership

namespace Ossim
namespace Kernel

open Memory

/-!
# Shutdown

Once the loader has set `done` and no process is left, nothing changes any more
except the points of the CPUs.  The exit test stands after the branches of the
loop, and the branch for a CPU without a process continues before it.  So a CPU
that is past that branch stops, and one that is not goes around forever.
-/

variable {numCpus : Nat}

/-- The loader has finished, and no process is queued or held. -/
structure Simulator.Quiescent (sim : Simulator numCpus) : Prop where
  closed : sim.done = true
  empty : ∀ prio, sim.os.sched.mlqReadyQueue prio = []
  free : ∀ id, (sim.cpus id).current = none

/-- The CPU goes through a whole iteration of its loop: some run leads to the
top of the loop, and on from there to the top again. -/
def Simulator.GoesRound (timeSlot : Int) (sim : Simulator numCpus) (id : Fin numCpus) : Prop :=
  ∃ before middle iteration finish, Transition.Run (simStep timeSlot) sim before middle ∧
    (middle.cpus id).point = .top ∧ Transition.Run (simStep timeSlot) middle iteration finish ∧
      .cpu id ∈ iteration ∧ (finish.cpus id).point = .top

/-! ## Nothing happens to a quiescent system -/

section Step

variable {sim after : Simulator numCpus} {timeSlot : Int} {action : SimAction numCpus}

/-- The loader sets `done` after its last process. -/
theorem SimEffect.closed_last (effect : SimEffect timeSlot sim action after)
    (last : sim.done = true → sim.pending = []) : after.done = true → after.pending = [] := by
  cases effect with
  | loaded code prio rest next =>
      intro closed
      rw [last closed] at next
      cases next
  | closed exhausted _ => exact fun _ => exhausted
  | acquired _ _ _ _ _ _ => exact last
  | skipped _ _ _ _ _ => exact last
  | emptied _ _ _ _ _ _ => exact last
  | removed _ _ _ _ _ _ _ => exact last
  | putBack _ _ _ _ _ _ _ _ => exact last
  | kept _ _ _ _ _ _ _ _ => exact last
  | freed _ _ _ _ _ _ => simpa using last
  | stopped _ _ _ _ => exact last
  | waiting _ _ _ _ => exact last
  | dispatched _ _ _ _ _ => exact last
  | resumed _ _ _ _ _ => exact last
  | ran _ _ _ _ _ _ _ => exact last
  | nextSlot _ _ => exact last

theorem Simulator.Quiescent.getProc (quiescent : sim.Quiescent) :
    getProc sim.os = (none, sim.os.setSched sim.os.sched) := by
  have empty := (queueEmpty_iff sim.os.sched).mpr quiescent.empty
  rw [Kernel.getProc, getMlqProc, if_pos empty]

/-- A CPU without a process stays without one. -/
private theorem Simulator.Quiescent.setCpu (quiescent : sim.Quiescent) (id : Fin numCpus)
    (cpu : Cpu) (idle : cpu.current = none) : (sim.setCpu id cpu).Quiescent := by
  refine ⟨quiescent.closed, quiescent.empty, fun other => ?_⟩
  by_cases same : other = id
  · subst same
    rw [Simulator.setCpu_cpus, Function.update_self]
    exact idle
  · rw [Simulator.setCpu_cpus, Function.update_of_ne same]
    exact quiescent.free other

private theorem Simulator.Quiescent.setOs (quiescent : sim.Quiescent) :
    (sim.setOs (sim.os.setSched sim.os.sched)).Quiescent :=
  ⟨quiescent.closed, quiescent.empty, quiescent.free⟩

/-- A quiescent system has three kinds of steps: a failed load, the end of a slot
and a stop. -/
theorem Simulator.Quiescent.step (quiescent : sim.Quiescent)
    (last : sim.done = true → sim.pending = []) (effect : SimEffect timeSlot sim action after) :
    after.Quiescent ∧ ∀ id, (sim.cpus id).point ≠ .top → (sim.cpus id).point ≠ .slot →
      (after.cpus id).point ≠ .top ∧ (after.cpus id).point ≠ .slot := by
  have free : ∀ {id : Fin numCpus} {proc : ProcRef}, (sim.cpus id).current ≠ some proc := by
    intro id proc held
    rw [quiescent.free id] at held
    cases held
  -- only the acting CPU changes its point, and it was not at the top or in a slot
  have others : ∀ {acting : Fin numCpus} {cpu : Cpu},
      ((sim.cpus acting).point ≠ .top → (sim.cpus acting).point ≠ .slot →
        cpu.point ≠ .top ∧ cpu.point ≠ .slot) →
      ∀ id, (sim.cpus id).point ≠ .top → (sim.cpus id).point ≠ .slot →
        ((sim.setCpu acting cpu).cpus id).point ≠ .top ∧
          ((sim.setCpu acting cpu).cpus id).point ≠ .slot := by
    intro acting cpu own id top slot
    rw [Simulator.setCpu_cpus]
    by_cases same : id = acting
    · subst same
      rw [Function.update_self]
      exact own top slot
    · rw [Function.update_of_ne same]
      exact ⟨top, slot⟩
  cases effect with
  | loaded code prio rest next =>
      rw [last quiescent.closed] at next
      cases next
  | closed _ unset =>
      rw [quiescent.closed] at unset
      cases unset
  | acquired id timeLeft proc os _ got =>
      rw [quiescent.getProc] at got
      cases got
  | skipped id os point idle got =>
      rw [quiescent.getProc] at got
      cases got
      exact ⟨quiescent.setOs.setCpu id _ rfl, others fun top _ => absurd point top⟩
  | emptied id timeLeft os asks elsewhere got =>
      rw [quiescent.getProc] at got
      cases got
      exact ⟨quiescent.setOs.setCpu id _ rfl, others fun _ _ => by simp⟩
  | removed id proc pcb point holds _ _ => exact absurd (Cpu.current_of_point point holds) free
  | putBack id proc pcb point holds _ _ _ =>
      exact absurd (Cpu.current_of_point point holds) free
  | kept id proc pcb point holds _ _ _ => exact absurd (Cpu.current_of_point point holds) free
  | freed id proc pcb point holds _ => exact absurd (Cpu.current_of_point point holds) free
  | stopped id point idle closing =>
      exact ⟨quiescent.setCpu id _ rfl, others fun _ _ => by simp⟩
  | waiting id point idle loading =>
      rw [quiescent.closed] at loading
      cases loading
  | dispatched id proc point holds _ => exact absurd (Cpu.current_of_point point holds) free
  | resumed id proc point holds _ => exact absurd (Cpu.current_of_point point holds) free
  | ran id proc pcb point holds _ _ => exact absurd (Cpu.current_of_point point holds) free
  | nextSlot id point =>
      refine ⟨quiescent.setCpu id _ ?_, others fun _ slot => absurd point slot⟩
      have idle := quiescent.free id
      rw [Cpu.current, point] at idle
      exact idle

/-! ## Going round -/

/-- A CPU that is past the first branch never comes back to the top. -/
theorem Simulator.Quiescent.leaves (quiescent : sim.Quiescent)
    (last : sim.done = true → sim.pending = []) {id : Fin numCpus}
    (top : (sim.cpus id).point ≠ .top) (slot : (sim.cpus id).point ≠ .slot) :
    ¬ sim.GoesRound timeSlot id := by
  rintro ⟨before, middle, _, _, path, reached, _⟩
  have kept := path.invariant (fun state : Simulator numCpus => (state.Quiescent ∧
      (state.done = true → state.pending = [])) ∧
        (state.cpus id).point ≠ .top ∧ (state.cpus id).point ≠ .slot)
    ⟨⟨quiescent, last⟩, top, slot⟩ fun state action next holds taken => by
      have effect := simStep_effect taken
      rcases holds with ⟨⟨quiet, closing⟩, top, slot⟩
      have stepped := quiet.step closing effect
      exact ⟨⟨stepped.1, effect.closed_last closing⟩, stepped.2 id top slot⟩
  exact kept.2.1 reached

/-- The first branch leads to the slot, and the slot to the top. -/
theorem Simulator.Quiescent.step_top (quiescent : sim.Quiescent) (timeSlot : Int)
    {id : Fin numCpus} (point : (sim.cpus id).point = .top) :
    ∃ after, simStep timeSlot sim (.cpu id) = some after ∧ (after.cpus id).point = .slot := by
  have idle := quiescent.free id
  rw [Cpu.current, point] at idle
  dsimp only at idle
  have skipped : simStep timeSlot sim (.cpu id) =
      some ((sim.setOs (sim.os.setSched sim.os.sched)).setCpu id
        ⟨.slot, none, (sim.cpus id).timeLeft⟩) := by
    rw [simStep, cpuStep, point]
    dsimp only
    rw [stepTop, idle]
    dsimp only
    rw [quiescent.getProc]
  refine ⟨_, skipped, ?_⟩
  rw [Simulator.setCpu_cpus, Function.update_self]

theorem step_slot (timeSlot : Int) {id : Fin numCpus} (point : (sim.cpus id).point = .slot) :
    ∃ after, simStep timeSlot sim (.cpu id) = some after ∧ (after.cpus id).point = .top := by
  have advanced : simStep timeSlot sim (.cpu id) =
      some (sim.setCpu id ⟨.top, (sim.cpus id).proc, (sim.cpus id).timeLeft⟩) := by
    rw [simStep, cpuStep, point]
  refine ⟨_, advanced, ?_⟩
  rw [Simulator.setCpu_cpus, Function.update_self]

/-- A CPU at the top without a process goes round. -/
theorem Simulator.Quiescent.circle (quiescent : sim.Quiescent) (timeSlot : Int)
    {id : Fin numCpus} (point : (sim.cpus id).point = .top) :
    ∃ finish, Transition.Run (simStep timeSlot) sim [.cpu id, .cpu id] finish ∧
      (finish.cpus id).point = .top := by
  rcases quiescent.step_top timeSlot point with ⟨slot, first, inSlot⟩
  rcases step_slot timeSlot inSlot with ⟨finish, second, atTop⟩
  exact ⟨finish, .snoc (.snoc .nil first) second, atTop⟩

end Step

/-! ## Missed shutdown -/

theorem Simulated.closed_last {timeSlot : Int} {memramsz memswpsz : Addr}
    {config : List (List Inst × Nat)} {sim : Simulator numCpus}
    (reached : Simulated timeSlot memramsz memswpsz config sim) :
    sim.done = true → sim.pending = [] := by
  rcases reached with ⟨freergHeads, trace, path⟩
  refine path.invariant (fun sim : Simulator numCpus => sim.done = true → sim.pending = []) ?_ ?_
  · exact fun impossible => Bool.noConfusion impossible
  · exact fun before action after last taken => (simStep_effect taken).closed_last last

/-- In a quiescent state a CPU misses the shutdown exactly if it is in
`next_slot` or at the top of its loop. -/
theorem shutdown_seen_iff (numCpus : Nat) (timeSlot : Int) (memramsz memswpsz : Addr)
    (config : List (List Inst × Nat)) (sim : Simulator numCpus)
    (reached : Simulated timeSlot memramsz memswpsz config sim) (quiescent : sim.Quiescent)
    (id : Fin numCpus) :
    ¬ sim.GoesRound timeSlot id ↔
      (sim.cpus id).point ≠ .top ∧ (sim.cpus id).point ≠ .slot := by
  constructor
  · intro stays
    refine ⟨fun top => stays ?_, fun slot => stays ?_⟩
    · rcases quiescent.circle timeSlot top with ⟨finish, path, atTop⟩
      exact ⟨[], sim, _, finish, .nil, top, path, List.mem_cons_self, atTop⟩
    · rcases step_slot timeSlot slot with ⟨middle, taken, inTop⟩
      have quiet := (quiescent.step reached.closed_last (simStep_effect taken)).1
      rcases quiet.circle timeSlot inTop with ⟨finish, path, atTop⟩
      exact ⟨[.cpu id], middle, _, finish, .snoc .nil taken, inTop, path, List.mem_cons_self, atTop⟩
  · rintro ⟨top, slot⟩
    exact quiescent.leaves reached.closed_last top slot

/-- The state after the loader has closed a configuration without processes, with
a CPU that has not begun. -/
def idleStart : Simulator 1 := { start 1 1024 0 nullHeads [] with done := true }

theorem idleStart_reached : Simulated 1 1024 0 [] idleStart :=
  ⟨nullHeads, [.loader], .snoc .nil rfl⟩

theorem idleStart_quiescent : idleStart.Quiescent := ⟨rfl, fun _ => rfl, fun _ => rfl⟩

/-- The CPU of `idleStart` goes around its loop and never reaches the exit
test. -/
theorem not_shutdown_seen :
    ¬ ∀ (numCpus : Nat) (timeSlot : Int) (memramsz memswpsz : Addr)
      (config : List (List Inst × Nat)) (sim : Simulator numCpus),
      Simulated timeSlot memramsz memswpsz config sim → sim.Quiescent → ∀ id : Fin numCpus,
        (sim.cpus id).point ≠ .stopped → ¬ sim.GoesRound timeSlot id := by
  intro always
  rcases idleStart_quiescent.circle 1 (show (idleStart.cpus 0).point = .top from rfl) with
    ⟨finish, path, atTop⟩
  exact always 1 1 1024 0 [] idleStart idleStart_reached idleStart_quiescent 0 (by decide)
    ⟨[], idleStart, _, finish, .nil, rfl, path, List.mem_cons_self, atTop⟩

/-- The CPU of `idleStart` stands at the top of its loop, so it goes around. -/
theorem shutdown_seen_idle : idleStart.GoesRound 1 0 := by
  by_contra stays
  exact ((shutdown_seen_iff 1 1 1024 0 [] idleStart idleStart_reached idleStart_quiescent 0).mp
    stays).1 rfl

end Kernel
end Ossim
