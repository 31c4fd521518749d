import Ossim.Kernel.Deadlock
import Ossim.Kernel.InBounds

namespace Ossim
namespace Kernel

open Memory

/-!
# Every order of the threads finishes all processes

A tick uses up the actions that the threads have in it, no process is left after
the deadline, and the threads are not stuck before.  So the processes are finished
in any order in which the threads act, without an assumption on the scheduler that
runs them.

The threads themselves need not end: a CPU that finds no process at the top of its
loop goes on with `next_slot` and does not test `done`.
-/

variable {numCpus : Nat}

/-- No process is to come, and none is left. -/
def Threads.Emptied (threads : Threads numCpus) : Prop :=
  threads.sim.pending = [] ∧ ∀ proc, threads.sim.os.procs proc = none

theorem Threaded.finished_of_emptied {slice : Nat} {memramsz memswpsz : Addr}
    {config : List ProcessSpec} {threads : Threads numCpus} (positive : 1 ≤ slice)
    (reached : Threaded slice memramsz memswpsz config threads) (empty : threads.Emptied) :
    threads.AllFinished config := by
  refine reached.allFinished positive empty.1 fun proc alive => ?_
  rw [empty.2 proc] at alive
  cases alive

/-- The threads empty the system, or come to an instruction that leaves an array. -/
theorem inevitable_or_faulting {slice : Nat} {memramsz memswpsz : Addr}
    {config : List ProcessSpec} (some_cpu : 0 < numCpus) (positive : 1 ≤ slice)
    (few : config.length ≤ MAX_QUEUE_SIZE)
    (small : lastArrival config + callsNeeded config + 2 < 2 ^ 64) {threads : Threads numCpus}
    (reached : Threaded slice memramsz memswpsz config threads)
    (early : threads.clock ≤ lastArrival config + callsNeeded config + 2) :
    Transition.Inevitable (threadStep slice)
      (fun threads => threads.Emptied ∨ threads.Faulting) threads := by
  have emptied : ∀ {threads : Threads numCpus}, threads.sim.pending = [] ∧
      (∀ proc, ¬ (threads.sim.os.procs proc).isSome = true) → threads.Emptied :=
    fun none_left => ⟨none_left.1, fun proc => Option.not_isSome_iff_eq_none.mp (none_left.2 proc)⟩
  refine (threads_rounds slice memramsz memswpsz config).inevitable
    (fun threads reached last => ?_) (fun threads reached unfinished => ?_) reached early
  · exact Or.inl (emptied (reached.none_left_late some_cpu positive few (by omega)
      (Nat.le_of_eq last.symm)))
  · rw [not_or] at unfinished
    by_contra stuck
    have still : ∀ action, threadStep slice threads action = none := by
      intro action
      cases taken : threadStep slice threads action with
      | none => rfl
      | some after => exact absurd ⟨action, after, taken⟩ stuck
    have stopped := reached.stuck some_cpu few unfinished.2 still
    exact unfinished.1 (emptied (reached.none_left_of_stopped some_cpu few stopped))

/-- Threads that run programs in bounds empty the system. -/
theorem inevitably_emptied {slice : Nat} {memramsz memswpsz : Addr}
    (freergHeads : ProcRef → List VmRgStruct) {config : List ProcessSpec} (some_cpu : 0 < numCpus) (positive : 1 ≤ slice) (ram : memramsz.toNat < 2 ^ 31)
    (few : config.length ≤ MAX_QUEUE_SIZE)
    (small : lastArrival config + callsNeeded config + 2 < 2 ^ 64)
    (inBounds : ∀ spec ∈ config, ∀ ins ∈ spec.code,
      ins.InBounds memramsz.toNat memswpsz.toNat) :
    Transition.Inevitable (threadStep slice)
      (fun threads => Threaded slice memramsz memswpsz config threads ∧ threads.Emptied)
      (create numCpus memramsz memswpsz freergHeads config) := by
  have begins : Threaded slice memramsz memswpsz config
      (create numCpus memramsz memswpsz freergHeads config) := ⟨freergHeads, [], .nil⟩
  have programs : ∀ program ∈ config.map fun spec => (spec.code, spec.prio),
      ∀ ins ∈ program.1, ins.InBounds memramsz.toNat memswpsz.toNat := by
    intro program member
    rw [List.mem_map] at member
    rcases member with ⟨spec, listed, rfl⟩
    exact inBounds spec listed
  have inevitable := inevitable_or_faulting some_cpu positive few small begins (Nat.zero_le _)
  refine inevitable.always (threads_rounds slice memramsz memswpsz config).keeps begins ?_
  rintro threads reached (empty | ⟨_, proc, _, _, undefined⟩)
  · exact ⟨reached, empty⟩
  · exact absurd (reached.parts.1.run_defined ram programs proc) undefined

/-- Whatever thread acts next, any number of CPUs finishes all processes of a
configuration whose programs stay in their arrays, on memory that the heap has not
used before. -/
theorem every_order_finishes (numCpus slice : Nat) (some_cpu : 0 < numCpus) (positive : 1 ≤ slice)
    (memramsz memswpsz : Addr) (ram : memramsz.toNat < 2 ^ 31) (config : List ProcessSpec)
    (few : config.length ≤ MAX_QUEUE_SIZE)
    (small : lastArrival config + callsNeeded config + 2 < 2 ^ 64)
    (inBounds : ∀ spec ∈ config, ∀ ins ∈ spec.code,
      ins.InBounds memramsz.toNat memswpsz.toNat) :
    Transition.Inevitable (threadStep slice) (fun threads => threads.AllFinished config)
      (create numCpus memramsz memswpsz nullHeads config) := by
  refine (inevitably_emptied nullHeads some_cpu positive ram few small inBounds).mono ?_
  rintro threads ⟨reached, empty⟩
  exact reached.finished_of_emptied positive empty

/-- Two processes on two CPUs, of which one uses memory. -/
def twoPrograms : List ProcessSpec :=
  [⟨0, [⟨.ALLOC, 300, 0, 0, 0⟩, ⟨.WRITE, 7, 0, 20, 0⟩, ⟨.READ, 0, 20, 1, 0⟩], 1⟩,
    ⟨2, [⟨.CALC, 0, 0, 0, 0⟩, ⟨.KMALLOC, 16, 0, 0, 0⟩], 0⟩]

theorem every_order_finishes_twoPrograms :
    Transition.Inevitable (threadStep 2) (fun threads => threads.AllFinished twoPrograms)
      (create 2 1024 0 nullHeads twoPrograms) :=
  every_order_finishes 2 2 (by decide) (by decide) 1024 0 (by decide) twoPrograms (by decide)
    (by decide +kernel) (by decide +kernel)

/-! ## The memory afterwards -/

/-- The kernel of a simulator whose programs make no raw system calls. -/
theorem Simulated.reachableWhere {timeSlot : Int} {memramsz memswpsz : Addr}
    {config : List (List Inst × Nat)} {sim : Simulator numCpus}
    (ordinary : ∀ program ∈ config, ∀ ins ∈ program.1, ins.opcode ≠ .SYSCALL)
    (reached : Simulated timeSlot memramsz memswpsz config sim) :
    ReachableWhere NoRawSyscall memramsz memswpsz sim.os := by
  rcases reached with ⟨freergHeads, trace, path⟩
  have kept : sim.Owned ∧ sim.Planned config ∧
      ReachableWhere NoRawSyscall memramsz memswpsz sim.os := by
    refine path.invariant (fun sim => sim.Owned ∧ sim.Planned config ∧
        ReachableWhere NoRawSyscall memramsz memswpsz sim.os)
      ⟨owned_start numCpus memramsz memswpsz freergHeads config,
        planned_start numCpus memramsz memswpsz freergHeads config, ⟨freergHeads, [], .nil⟩⟩ ?_
    rintro before action after ⟨owned, planned, earlier⟩ taken
    have effect := simStep_effect taken
    refine ⟨owned.step effect, planned.step owned effect, ?_⟩
    rcases effect.kernel owned with same | ⟨kernelAction, acts⟩
    · rw [same]
      exact earlier
    · refine earlier.snoc ?_ acts
      cases kernelAction with
      | run proc =>
          intro ins fetched
          rcases planned.program_of_fetch fetched with ⟨code, prio, listed, member⟩
          exact ordinary (code, prio) listed ins member
      | _ => trivial
  exact kept.2.2

/-- Whatever thread acts next, all frames of the RAM and all slots of the swap
device are free in the end, on memory that the heap has not used before. -/
theorem every_order_returns_memory (numCpus slice : Nat) (some_cpu : 0 < numCpus)
    (positive : 1 ≤ slice) (memramsz memswpsz : Addr) (ram : memramsz.toNat < 2 ^ 31)
    (frames : frameCount memramsz ≤ 8192) (config : List ProcessSpec)
    (few : config.length ≤ MAX_QUEUE_SIZE)
    (small : lastArrival config + callsNeeded config + 2 < 2 ^ 64)
    (inBounds : ∀ spec ∈ config, ∀ ins ∈ spec.code, ins.InBounds memramsz.toNat memswpsz.toNat)
    (ordinary : ∀ spec ∈ config, ∀ ins ∈ spec.code, ins.opcode ≠ .SYSCALL) :
    Transition.Inevitable (threadStep slice)
      (fun threads =>
        threads.sim.os.mram.freeFpList.Perm
            ((List.range (frameCount memramsz)).map (BitVec.ofNat 64)) ∧
          threads.sim.os.activeMswp.freeFpList =
            (List.range (frameCount memswpsz)).map (BitVec.ofNat 64) ∧
          ∀ proc, threads.sim.os.procs proc = none)
      (create numCpus memramsz memswpsz nullHeads config) := by
  refine (inevitably_emptied nullHeads some_cpu positive ram few small inBounds).mono ?_
  rintro threads ⟨reached, _, empty⟩
  have programs : ∀ program ∈ config.map fun spec => (spec.code, spec.prio),
      ∀ ins ∈ program.1, ins.opcode ≠ .SYSCALL := by
    intro program member
    rw [List.mem_map] at member
    rcases member with ⟨spec, listed, rfl⟩
    exact ordinary spec listed
  have partitioned := ((reached.parts.1.reachableWhere programs).partitioned frames).1
  have bounded : frameCount memramsz < 2 ^ 64 := by omega
  refine ⟨partitioned.exclusive.spare_perm partitioned.covers ?_ (nodup_frames _ bounded)
    (mem_frames _ bounded), reached.parts.1.reachable.devices.2.2, empty⟩
  rintro ⟨proc, pgn⟩
  change (threads.sim.os.mm proc).frameOf pgn = none
  rw [Os.mm_of_absent (empty proc), frameOf_initMm]

theorem every_order_returns_memory_twoPrograms :
    Transition.Inevitable (threadStep 2)
      (fun threads =>
        threads.sim.os.mram.freeFpList.Perm
            ((List.range (frameCount 1024)).map (BitVec.ofNat 64)) ∧
          threads.sim.os.activeMswp.freeFpList =
            (List.range (frameCount 0)).map (BitVec.ofNat 64) ∧
          ∀ proc, threads.sim.os.procs proc = none)
      (create 2 1024 0 nullHeads twoPrograms) :=
  every_order_returns_memory 2 2 (by decide) (by decide) 1024 0 (by decide) (by decide)
    twoPrograms (by decide) (by decide +kernel) (by decide +kernel) (by decide +kernel)

end Kernel
end Ossim
