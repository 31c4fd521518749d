import Ossim.Kernel.Completion

namespace Ossim
namespace Kernel

open Memory

/-!
# At most one call in each tick and CPU

Every call of `run` is one of a CPU in a tick, and no CPU has two in one tick.
So the number of calls is bounded by the CPUs and the ticks, and a configuration
that needs more calls takes more ticks.
-/

variable {numCpus : Nat}

/-- The CPU and the tick of a call of `run`. -/
def LogEntry.turn : LogEntry numCpus → Option (Fin numCpus × Nat)
  | .ran id tick => some (id, tick)
  | .added _ => none

/-- The calls of `run` with their CPUs and ticks. -/
def turns (log : List (LogEntry numCpus)) : List (Fin numCpus × Nat) :=
  log.filterMap LogEntry.turn

@[simp] theorem turns_ran (log : List (LogEntry numCpus)) (id : Fin numCpus) (tick : Nat) :
    turns (log ++ [.ran id tick]) = turns log ++ [(id, tick)] := by
  simp [turns, LogEntry.turn]

@[simp] theorem turns_added (log : List (LogEntry numCpus)) (tick : Nat) :
    turns (log ++ [.added tick]) = turns log := by
  simp [turns, LogEntry.turn]

theorem count_turns (log : List (LogEntry numCpus)) (id : Fin numCpus) (tick : Nat) :
    (turns log).count (id, tick) = runsAt log id tick := by
  induction log using List.reverseRecOn with
  | nil => rfl
  | append_singleton log entry inductionHypothesis =>
      cases entry with
      | ran acting now =>
          rw [turns_ran, List.count_append, inductionHypothesis, runsAt_ran, List.count_singleton]
          simp only [beq_iff_eq, Prod.mk.injEq, eq_comm (a := tick)]
      | added now => rw [turns_added, inductionHypothesis, runsAt_added]

section Step

variable {timeSlot : Int} {threads after : Threads numCpus}

/-- The log holds every call of `run`. -/
theorem ThreadEffect.turns (effect : ThreadEffect timeSlot threads after)
    (logged : (turns threads.log).length = runCalls threads.sim.history) :
    (turns after.log).length = runCalls after.sim.history := by
  have quietly : ∀ {id : Fin numCpus} {sim : Simulator numCpus},
      (threads.sim.cpus id).point ≠ .running → simStep timeSlot threads.sim (.cpu id) = some sim →
        runCalls sim.history = runCalls threads.sim.history := by
    intro id sim quiet moved
    have calls := (simStep_effect moved).runCalls
    rwa [if_neg quiet, Nat.add_zero] at calls
  have loading : ∀ {sim : Simulator numCpus}, simStep timeSlot threads.sim .loader = some sim →
      sim.history = threads.sim.history := by
    intro sim moved
    cases simStep_effect moved <;> rfl
  cases effect with
  | worked id sim outside moved =>
      dsimp only
      rw [quietly outside.2.1 moved]
      exact logged
  | ran id sim point moved =>
      have calls := (simStep_effect moved).runCalls
      rw [if_pos point] at calls
      dsimp only
      rw [turns_ran, List.length_append, List.length_singleton, logged, calls]
  | cpuBegan id barrier sim point taken moved =>
      dsimp only
      rw [quietly (by simp [point]) moved]
      exact logged
  | added startTime rest sim point next due moved =>
      dsimp only
      rw [turns_added, loading moved]
      exact logged
  | closed sim point last moved =>
      dsimp only
      rw [loading moved]
      exact logged
  | timer _ _ => exact logged
  | cpuTold _ _ _ _ => exact logged
  | cpuDetached _ _ _ _ => exact logged
  | postponed _ _ _ _ _ => exact logged
  | loaderTold _ _ _ => exact logged
  | loaderBegan _ _ _ => exact logged
  | loaderDetached _ _ _ => exact logged
  | halted _ _ => exact logged

end Step

/-- No CPU calls `run` twice in a tick, so in the slots up to this tick there were
at most as many calls as CPUs and slots. -/
theorem calls_bounded (timeSlot : Int) (memramsz memswpsz : Addr) (config : List ProcessSpec)
    (threads : Threads numCpus)
    (reached : Threaded timeSlot memramsz memswpsz config threads) :
    (∀ id tick, runsAt threads.log id tick ≤ 1) ∧
      runCalls threads.sim.history ≤ numCpus * (threads.clock + 1) := by
  have inTurn := reached.inTurn
  have logged : (turns threads.log).length = runCalls threads.sim.history := by
    refine reached.invariant
      (fun threads => (turns threads.log).length = runCalls threads.sim.history)
      (fun _ => rfl) fun before after holds _ effect => effect.turns holds
  refine ⟨fun id => (inTurn.cpu id).once, ?_⟩
  have distinct : (turns threads.log).Nodup := by
    rw [List.nodup_iff_count_le_one]
    rintro ⟨id, tick⟩
    rw [count_turns]
    exact (inTurn.cpu id).once tick
  have inside : (turns threads.log).toFinset ⊆
      Finset.univ ×ˢ Finset.range (threads.clock + 1) := by
    rintro ⟨id, tick⟩ member
    rw [List.mem_toFinset] at member
    rw [Finset.mem_product, Finset.mem_range]
    refine ⟨Finset.mem_univ id, Nat.lt_succ_of_le ?_⟩
    by_contra future
    have unused := (inTurn.cpu id).past tick (Nat.lt_of_not_le future)
    rw [← count_turns] at unused
    exact List.count_eq_zero.mp unused member
  calc
    runCalls threads.sim.history = (turns threads.log).length := logged.symm
    _ = (turns threads.log).toFinset.card := (List.toFinset_card_of_nodup distinct).symm
    _ ≤ (Finset.univ ×ˢ Finset.range (threads.clock + 1)).card := Finset.card_le_card inside
    _ = numCpus * (threads.clock + 1) := by
      rw [Finset.card_product, Finset.card_univ, Fintype.card_fin, Finset.card_range]

theorem calls_bounded_twoCalcs : ∃ threads : Threads 2, Threaded 2 1024 0 twoCalcs threads ∧
    (∀ id tick, runsAt threads.log id tick ≤ 1) ∧ runCalls threads.sim.history ≤ 8 := by
  rcases twoCalcs_reached with ⟨threads, trace, path, clock, _⟩
  have reached : Threaded 2 1024 0 twoCalcs threads := ⟨nullHeads, trace, path⟩
  have bounded := calls_bounded 2 1024 0 twoCalcs threads reached
  rw [clock] at bounded
  exact ⟨threads, reached, bounded⟩

end Kernel
end Ossim
