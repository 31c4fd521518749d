import Ossim.Kernel.Supply

namespace Ossim
namespace Kernel

open Memory

/-!
# Every process as if alone

The loops may take their steps in any order, on any number of CPUs and with any
time slice, and other processes come and go.  A process whose program uses its
own memory only does not notice, unless `init_mm` finds the list of one of them in
the block of its area.  After `n` instructions its regions, its free
list and its break are those of the private machine after `n` instructions, and
this holds even when the RAM has run out of frames.

If the programs together ask for no more frames than there are, the pages, the
bytes that the program has written and the registers that it has read from
them are those of the private machine as well.
-/

variable {numCpus : Nat}

/-- A process with an instruction left is found by the system-call layer. -/
theorem Simulated.resolves_of_fetch {timeSlot : Int} {memramsz memswpsz : Addr}
    {config : List (List Inst × Nat)} {sim : Simulator numCpus}
    (few : config.length ≤ MAX_QUEUE_SIZE)
    (reached : Simulated timeSlot memramsz memswpsz config sim) {proc : ProcRef} {ins : Inst}
    (fetched : fetch sim.os proc = some ins) : sim.os.Resolves proc := by
  have owned := reached.owned
  have live := isSome_of_fetch fetched
  refine (owned.sound.resolves_iff live).mpr ((reached.attended few).tracked proc live ?_)
  rintro ⟨id, point, holds⟩
  have ended := (owned.parting id point proc holds).1
  rw [finished_of_fetch fetched] at ended
  cases ended

/-! ## The layout -/

/-- Every program that uses its own memory only has its layout, if the area of its
process was fresh. -/
def Os.LaidOut (os : Os) : Prop :=
  ∀ proc pc code, os.freergHeads proc = [] → os.stage proc = some (pc, code) →
    (∀ ins ∈ code, ins.User) → os.Lays proc (PrivateMachine.run code pc)

theorem Os.LaidOut.kernelStep {os after : Os} (laidOut : os.LaidOut) (sound : os.Sound)
    (resolves : ∀ proc ins, fetch os proc = some ins → os.Resolves proc) {action : KernelAction}
    (taken : kernelStep os action = some after) : after.LaidOut := by
  intro proc pc code fresh now user
  rw [kernelStep_freergHeads sound taken] at fresh
  rcases kernelStep_own sound taken proc with
    ⟨_, rest⟩ | ⟨loaded, prio, _, stage, begun⟩ | ⟨ins, acts, fetched, same, defined⟩ | ⟨_, gone⟩
  · rw [Os.Lays, rest.mm]
    exact laidOut proc pc code fresh (rest.stage.symm.trans now) user
  · rw [stage, Option.some.injEq, Prod.mk.injEq] at now
    rw [Os.Lays, begun, fresh, ← now.1]
    exact ⟨rfl, rfl, rfl⟩
  · subst acts same
    rcases stage_of_fetch fetched with ⟨counter, text, before, next, moved⟩
    rw [moved, Option.some.injEq, Prod.mk.injEq] at now
    rcases now with ⟨rfl, rfl⟩
    rw [PrivateMachine.run_succ next]
    exact (laidOut proc counter text fresh before user).run sound (resolves proc ins fetched) fetched
      (user ins (List.mem_of_getElem? next)) defined.1
  · rw [Os.stage, gone] at now
    cases now

/-- Wherever the loops are, a process whose program uses its own memory only has
the regions, the free list and the break that its program has made, whatever
the others have done and however many frames were free, as long as `init_mm` found
a null pointer in the block of its area. -/
theorem layout_as_if_alone (timeSlot : Int) (memramsz memswpsz : Addr)
    (config : List (List Inst × Nat)) (few : config.length ≤ MAX_QUEUE_SIZE)
    (sim : Simulator numCpus) (reached : Simulated timeSlot memramsz memswpsz config sim)
    (proc : ProcRef) (pcb : Pcb) (found : sim.os.procs proc = some pcb)
    (fresh : sim.os.freergHeads proc = []) (user : ∀ ins ∈ pcb.code, ins.User) :
    MmLays pcb.mm (PrivateMachine.run pcb.code pcb.pc) := by
  have laidOut : Simulated timeSlot memramsz memswpsz config sim ∧ sim.os.LaidOut := by
    rcases reached with ⟨freergHeads, trace, path⟩
    refine path.invariant
      (fun sim => Simulated timeSlot memramsz memswpsz config sim ∧ sim.os.LaidOut)
      ⟨⟨freergHeads, [], .nil⟩, fun proc pc code _ now => by cases now⟩ ?_
    rintro before action after ⟨here, laidOut⟩ taken
    refine ⟨here.snoc taken, ?_⟩
    rcases (simStep_effect taken).kernel here.owned with same | ⟨kernelAction, acts⟩
    · rw [same]
      exact laidOut
    · exact laidOut.kernelStep here.owned.sound
        (fun _ _ fetched => here.resolves_of_fetch few fetched) acts
  have lays := laidOut.2 proc pcb.pc pcb.code fresh (stage_of_found found) user
  rw [Os.Lays, Os.mm, found] at lays
  exact lays

/-- A program that writes a byte into its second page and reads it back. -/
def echo : List Inst :=
  [⟨.ALLOC, 300, 0, 0, 0⟩, ⟨.WRITE, 7, 0, 280, 0⟩, ⟨.READ, 0, 280, 1, 0⟩]

def echoAndOther : List (List Inst × Nat) :=
  [(echo, 0), ([⟨.ALLOC, 16, 0, 0, 0⟩, ⟨.CALC, 0, 0, 0, 0⟩, ⟨.CALC, 0, 0, 0, 0⟩], 0)]

/-- One CPU with a quantum of one slot runs `echo` to its end, and the other
program in between. -/
def interruptedRun : Option (Simulator 1) :=
  Transition.exec (simStep 1) (fun _ _ => True) (start 1 1024 0 nullHeads echoAndOther)
    (.loader :: .loader :: List.replicate 24 (.cpu ⟨0, Nat.zero_lt_one⟩))

theorem isSome_interruptedRun : interruptedRun.isSome = true := by decide +kernel

def interrupted : Simulator 1 := interruptedRun.get isSome_interruptedRun

theorem isSome_interrupted : (interrupted.os.procs 1).isSome = true := by decide +kernel

def interruptedPcb : Pcb := (interrupted.os.procs 1).get isSome_interrupted

theorem simulated_interrupted : Simulated 1 1024 0 echoAndOther interrupted :=
  ⟨_, _, (Transition.runWhere_of_exec (Option.some_get isSome_interruptedRun).symm).run⟩

theorem found_interrupted : interrupted.os.procs 1 = some interruptedPcb :=
  (Option.some_get isSome_interrupted).symm

theorem fresh_interrupted : interrupted.os.freergHeads 1 = [] := by decide +kernel

theorem user_interruptedPcb : ∀ ins ∈ interruptedPcb.code, ins.User := by decide +kernel

theorem layout_as_if_alone_interrupted :
    interruptedPcb.code = echo ∧ interruptedPcb.pc = 3 ∧
      MmLays interruptedPcb.mm (PrivateMachine.run interruptedPcb.code interruptedPcb.pc) :=
  ⟨by decide +kernel, by decide +kernel,
    layout_as_if_alone 1 1024 0 echoAndOther (by decide) interrupted simulated_interrupted 1
      interruptedPcb found_interrupted fresh_interrupted user_interruptedPcb⟩

/-! ## Pages, bytes and registers -/

/-- Every program that uses its own memory only is shown its machine, if the area of
its process was fresh. -/
def Os.Virtual (os : Os) : Prop :=
  ∀ proc pc code, os.freergHeads proc = [] → os.stage proc = some (pc, code) →
    (∀ ins ∈ code, ins.User) → os.Shows proc (PrivateMachine.run code pc)

theorem Os.Shows.spared {os after : Os} {proc : ProcRef} {machine : PrivateMachine}
    (shown : os.Shows proc machine) (rest : os.Spared after proc)
    (cells : ∀ page fpn, (os.mm proc).frameOf page = some fpn → ∀ cell : Fin 256,
      after.mram.storage (pageCell fpn cell) = os.mram.storage (pageCell fpn cell)) :
    after.Shows proc machine := by
  refine ⟨?_, ?_, ?_, ?_⟩
  · rw [Os.Lays, rest.mm]
    exact shown.lays
  · rw [rest.mm]
    exact shown.resident
  · intro page offset byte known
    rcases shown.cells page offset byte known with ⟨fpn, mapped, stored⟩
    rw [rest.mm]
    exact ⟨fpn, mapped, (cells page fpn mapped offset).trans stored⟩
  · intro index value known
    rw [rest.regs]
    exact shown.regs index value known

theorem Os.Virtual.kernelStep {os after : Os} (isVirtual : os.Virtual) (sound : os.Sound)
    (exclusive : os.ledger.Exclusive)
    (resolves : ∀ proc ins, fetch os proc = some ins → os.Resolves proc)
    (room : ∀ proc ins, fetch os proc = some ins → ins.opcode = .ALLOC →
      RoomFor os.mram ins.arg0)
    {action : KernelAction} (ordinary : NoRawSyscall os action)
    (taken : kernelStep os action = some after) : after.Virtual := by
  intro proc pc code fresh now user
  rw [kernelStep_freergHeads sound taken] at fresh
  rcases kernelStep_own sound taken proc with
    ⟨other, rest⟩ | ⟨loaded, prio, _, stage, begun⟩ | ⟨ins, acts, fetched, same, defined⟩ |
      ⟨_, gone⟩
  · refine (isVirtual proc pc code fresh (rest.stage.symm.trans now) user).spared rest ?_
    intro page fpn mapped cell
    rcases other with different | same
    · exact kernelStep_cells sound exclusive ordinary taken different mapped cell
    · rw [same]
  · rw [stage, Option.some.injEq, Prod.mk.injEq] at now
    rw [← now.1]
    refine ⟨?_, ?_, ?_, ?_⟩
    · rw [Os.Lays, begun, fresh]
      exact ⟨rfl, rfl, rfl⟩
    · intro page
      rw [begun, frameOf_initMm]
      rfl
    · intro page offset byte known
      cases known
    · intro index value known
      cases known
  · subst acts same
    rcases stage_of_fetch fetched with ⟨counter, text, before, next, moved⟩
    rw [moved, Option.some.injEq, Prod.mk.injEq] at now
    rcases now with ⟨rfl, rfl⟩
    rw [PrivateMachine.run_succ next]
    exact (isVirtual proc counter text fresh before user).run sound exclusive
      (resolves proc ins fetched) fetched (user ins (List.mem_of_getElem? next))
      (room proc ins fetched) defined.1
  · rw [Os.stage, gone] at now
    cases now

/-- A machine that has room for all programs of a configuration. -/
structure Ample (memramsz : Addr) (config : List (List Inst × Nat)) : Prop where
  few : config.length ≤ MAX_QUEUE_SIZE
  frames : frameCount memramsz ≤ 8192
  enough : totalDemand config ≤ frameCount memramsz
  ordinary : ∀ program ∈ config, ∀ ins ∈ program.1, ins.opcode ≠ .SYSCALL

theorem Simulated.isVirtual {timeSlot : Int} {memramsz memswpsz : Addr}
    {config : List (List Inst × Nat)} {sim : Simulator numCpus} (ample : Ample memramsz config)
    (reached : Simulated timeSlot memramsz memswpsz config sim) : sim.os.Virtual := by
  rcases reached with ⟨freergHeads, trace, path⟩
  refine (path.invariant
    (fun sim => Simulated timeSlot memramsz memswpsz config sim ∧ sim.os.Virtual)
    ⟨⟨freergHeads, [], .nil⟩, fun proc pc code _ now => by cases now⟩ ?_).2
  rintro before action after ⟨here, isVirtual⟩ taken
  have kernel := here.reachableWhere ample.ordinary
  refine ⟨here.snoc taken, ?_⟩
  rcases (simStep_effect taken).kernel here.owned with same | ⟨kernelAction, acts⟩
  · rw [same]
    exact isVirtual
  · refine isVirtual.kernelStep here.owned.sound (kernel.partitioned ample.frames).1.exclusive
      (fun _ _ fetched => here.resolves_of_fetch ample.few fetched)
      (fun _ _ fetched opcode =>
        here.roomFor ample.frames ample.ordinary ample.enough fetched opcode) ?_ acts
    cases kernelAction with
    | run proc =>
        intro ins fetched
        rcases here.planned.program_of_fetch fetched with ⟨code, prio, listed, member⟩
        exact ample.ordinary (code, prio) listed ins member
    | _ => trivial

end Kernel
end Ossim
