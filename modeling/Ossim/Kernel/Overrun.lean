import Ossim.Kernel.InBounds

namespace Ossim
namespace Kernel

open Memory

/-!
# Runs that leave their arrays

`run` indexes the register file with an operand of `READ`, the symbol table
with an operand of `ALLOC` and the storage of the RAM with an operand of a raw
system call, and none of these is checked.  C gives such an access no meaning,
so `simStep` has no step for it.  The compiled program does go on: it reads or
writes whatever lies behind the array.

Here the loops go on as well.  What the access does to the kernel is a
parameter, since it depends on how the program is laid out in memory.  As long
as no executed instruction leaves an array, the parameter is never asked, and
the loops are orderly.  One access beyond the register file is enough to send a
process back to its first instruction.
-/

variable {numCpus : Nat}

/-! ## The loops without the stop -/

/-- `run(proc); time_left--` when the instruction leaves an array. -/
def stepOverrun (beyond : Os → ProcRef → Os) (sim : Simulator numCpus) (id : Fin numCpus) :
    Option (Simulator numCpus) :=
  let cpu := sim.cpus id
  match cpu.point, cpu.proc with
  | .running, some proc =>
      match sim.os.procs proc with
      | none => none
      | some pcb =>
          if (run sim.os proc).2.Defined then none
          else
            some (((sim.setOs (beyond sim.os proc)).setCpu id
              ⟨.slot, some proc, cpu.timeLeft - 1⟩).record
                (.ran proc (if pcb.pc < pcb.code.length then some pcb.pc else none)))
  | _, _ => none

/-- The loops of `simStep`, going on where an instruction leaves an array. -/
def overrunStep (beyond : Os → ProcRef → Os) (timeSlot : Int) (sim : Simulator numCpus)
    (action : SimAction numCpus) : Option (Simulator numCpus) :=
  match simStep timeSlot sim action, action with
  | some after, _ => some after
  | none, .cpu id => stepOverrun beyond sim id
  | none, .loader => none

/-- The instruction that a CPU is about to execute stays in its arrays. -/
def Simulator.InArrays (sim : Simulator numCpus) : SimAction numCpus → Prop
  | .cpu id => (sim.cpus id).point = .running →
      ∀ proc ∈ (sim.cpus id).proc, (run sim.os proc).2.Defined
  | .loader => True

instance (sim : Simulator numCpus) (action : SimAction numCpus) :
    Decidable (sim.InArrays action) :=
  match action with
  | .cpu id =>
      inferInstanceAs (Decidable ((sim.cpus id).point = .running →
        ∀ proc ∈ (sim.cpus id).proc, (run sim.os proc).2.Defined))
  | .loader => inferInstanceAs (Decidable True)

/-! ## Inside the arrays -/

/-- There is nothing to go on with when the instruction stays in its arrays. -/
theorem stepOverrun_of_inArrays {beyond : Os → ProcRef → Os} {sim : Simulator numCpus}
    {id : Fin numCpus} (inside : sim.InArrays (.cpu id)) : stepOverrun beyond sim id = none := by
  unfold stepOverrun
  dsimp only
  split
  · next point holds =>
      have defined := inside point _ holds
      split
      · rfl
      · exact if_pos defined
  · rfl

theorem simStep_of_overrunStep {beyond : Os → ProcRef → Os} {timeSlot : Int}
    {before after : Simulator numCpus} {action : SimAction numCpus}
    (inside : before.InArrays action)
    (taken : overrunStep beyond timeSlot before action = some after) :
    simStep timeSlot before action = some after := by
  unfold overrunStep at taken
  cases acts : simStep timeSlot before action with
  | some next =>
      rw [acts] at taken
      exact taken
  | none =>
      rw [acts] at taken
      cases action with
      | cpu id =>
          dsimp only at taken
          rw [stepOverrun_of_inArrays inside] at taken
          cases taken
      | loader => cases taken

/-- Programs whose operands lie in their arrays never get that far. -/
theorem simulated_of_inBounds {beyond : Os → ProcRef → Os} {timeSlot : Int}
    {memramsz memswpsz : Addr} {freergHeads : ProcRef → List VmRgStruct}
    {config : List (List Inst × Nat)} {trace : List (SimAction numCpus)}
    {sim : Simulator numCpus} (small : memramsz.toNat < 2 ^ 31)
    (inBounds : ∀ program ∈ config, ∀ ins ∈ program.1,
      ins.InBounds memramsz.toNat memswpsz.toNat)
    (path : Transition.Run (overrunStep beyond timeSlot)
      (start numCpus memramsz memswpsz freergHeads config) trace sim) :
    Simulated timeSlot memramsz memswpsz config sim := by
  refine path.invariant (Simulated timeSlot memramsz memswpsz config)
    ⟨freergHeads, [], .nil⟩ ?_
  intro before action after reached taken
  refine reached.snoc (simStep_of_overrunStep ?_ taken)
  cases action with
  | cpu id => exact fun _ proc _ => reached.run_defined small inBounds proc
  | loader => trivial

/-- For any number of CPUs, any positive time slot, any configuration and any
interleaving, and whatever an access outside an array would do: as long as every
executed instruction stays in its arrays, every state that is reached is
orderly. -/
theorem orderly_in_arrays (numCpus : Nat) (timeSlot : Int) (positive : 1 ≤ timeSlot)
    (memramsz memswpsz : Addr) (freergHeads : ProcRef → List VmRgStruct)
    (config : List (List Inst × Nat)) (beyond : Os → ProcRef → Os)
    (trace : List (SimAction numCpus)) (sim : Simulator numCpus)
    (path : Transition.RunWhere (overrunStep beyond timeSlot) Simulator.InArrays
      (start numCpus memramsz memswpsz freergHeads config) trace sim) :
    sim.Orderly timeSlot := by
  refine execution_orderly numCpus timeSlot positive memramsz memswpsz config sim ?_
  refine path.invariant (Simulated timeSlot memramsz memswpsz config)
    ⟨freergHeads, [], .nil⟩ ?_
  intro before action after reached inside taken
  exact reached.snoc (simStep_of_overrunStep inside taken)

/-- A program that reads into its last register. -/
def fillingLast : List Inst := [⟨.ALLOC, 16, 0, 0, 0⟩, ⟨.READ, 0, 0, 9, 0⟩]

/-- The first CPU puts the process back after its quantum of one, and the second one
executes the rest. -/
def handedOverRun (beyond : Os → ProcRef → Os) : Option (Simulator 2) :=
  Transition.exec (overrunStep beyond 1) Simulator.InArrays
    (start 2 1024 0 nullHeads [(fillingLast, 0)])
    (.loader :: List.replicate 5 (.cpu ⟨0, Nat.zero_lt_two⟩) ++
      List.replicate 3 (.cpu ⟨1, Nat.one_lt_two⟩))

theorem isSome_handedOverRun : (handedOverRun fun os _ => os).isSome = true := by decide +kernel

theorem orderly_in_arrays_two_cpus :
    executedBy ((handedOverRun fun os _ => os).get isSome_handedOverRun).history 1 = [0, 1] ∧
      ((handedOverRun fun os _ => os).get isSome_handedOverRun).Orderly 1 :=
  ⟨by decide +kernel, orderly_in_arrays 2 1 (le_refl 1) 1024 0 nullHeads [(fillingLast, 0)]
    (fun os _ => os) _ _ (Transition.runWhere_of_exec (Option.some_get isSome_handedOverRun).symm)⟩

/-! ## Beyond the register file -/

/-- A `READ` into `regs[10]` of `struct pcb_t` on a 64-bit machine.  The word behind
the ten registers holds `pc` in its low half and `prio` in its high half.  Other
accesses outside their arrays are not described. -/
def readIntoPc (os : Os) (proc : ProcRef) : Os :=
  match fetch os proc with
  | none => os
  | some ins =>
      if ins.opcode = .READ ∧ ins.arg2 = 10 then
        match libread (os.advance proc) proc (ins.arg0.setWidth 32) ins.arg1 with
        | (stat, data, done) =>
            if stat = 0 then
              done.updatePcb proc fun pcb => { pcb with pc := data.toNat, prio := 0 }
            else done
      else os

/-- A program that reads a zero into the word behind its registers. -/
def rewinding : List Inst :=
  [⟨.ALLOC, 16, 0, 0, 0⟩, ⟨.WRITE, 0, 0, 0, 0⟩, ⟨.READ, 0, 0, 10, 0⟩]

/-- Its three instructions and one more, on one CPU. -/
def rewoundRun : Option (Simulator 1) :=
  Transition.exec (overrunStep readIntoPc 8) (fun _ _ => True)
    (start 1 1024 0 nullHeads [(rewinding, 0)])
    (.loader :: List.replicate 15 (.cpu ⟨0, Nat.zero_lt_one⟩))

theorem isSome_rewoundRun : rewoundRun.isSome = true := by decide +kernel

theorem executedBy_rewoundRun :
    executedBy (rewoundRun.get isSome_rewoundRun).history 1 = [0, 1, 2, 0] := by decide +kernel

/-- The process starts again at its first instruction. -/
theorem not_orderly_beyond_arrays :
    ¬ ∀ (timeSlot : Int) (memramsz memswpsz : Addr) (config : List (List Inst × Nat))
      (trace : List (SimAction 1)) (sim : Simulator 1), 1 ≤ timeSlot →
        Transition.Run (overrunStep readIntoPc timeSlot)
          (start 1 memramsz memswpsz nullHeads config) trace sim → sim.Orderly timeSlot := by
  intro always
  have orderly := always 8 1024 0 [(rewinding, 0)] _ _ (by decide)
    (Transition.runWhere_of_exec (Option.some_get isSome_rewoundRun).symm).run
  rcases orderly.inOrder 1 with ⟨count, executed⟩
  rw [executedBy_rewoundRun] at executed
  have length := congrArg List.length executed
  rw [List.length_range] at length
  subst length
  exact absurd executed (by decide)

end Kernel
end Ossim
