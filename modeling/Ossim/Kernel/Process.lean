import Ossim.Library.Transition
import Ossim.Kernel.Sched

namespace Ossim
namespace Kernel

open Memory

/-!
# Process life cycle and the system of kernel steps

Creation follows `load`, `init_mm` and `add_proc` as `ld_routine` calls them,
and the exit follows `remove_proc` and `free_pcb` as `cpu_routine` does.

`kernelStep` lets these actions, the scheduler calls and the execution of
single instructions happen in any order and for any program text.  It is the
system in which the memory theorems are stated.  The CPU and loader loops are
one way of driving it.
-/

/-! ## Creation and exit -/

/-- `main` up to the start of the threads, for one RAM and the active swap. -/
def boot (memramsz memswpsz : Addr) (freergHeads : ProcRef → List VmRgStruct) : Os where
  mram := initMemphy memramsz 1
  activeMswp := initMemphy memswpsz 1
  activeMswpId := 0
  kmem := Kmem.initial
  procs := fun _ => none
  availPid := 1
  sched := initScheduler
  fault := false
  freergHeads := freergHeads

/-- The heap has not used the memory of any area before. -/
def nullHeads : ProcRef → List VmRgStruct := fun _ => []

/-- `load` followed by `init_mm`: a block with a fresh process id. -/
def load (os : Os) (code : List Inst) (prio : Nat) : Os :=
  { os with
    procs := Function.update os.procs os.availPid
      (some ⟨os.availPid, prio, code, 0, fun _ => 0,
        initMm (os.freergHeads os.availPid)⟩)
    availPid := os.availPid + 1 }

/-- One iteration of the sweep in `free_pcb_memph`. -/
def sweepPage (mm : MmStruct) (devices : MemphyStruct × MemphyStruct) (pagenum : Nat) :
    MemphyStruct × MemphyStruct :=
  let pte := pteGetEntry mm (BitVec.ofNat 64 pagenum)
  if pte = 0 then devices
  else if pagingPagePresent pte && !pagingPageSwapped pte then
    (memphyPutFreefp devices.1 (pagingFpn pte), devices.2)
  else if pagingPageSwapped pte then (devices.1, memphyPutFreefp devices.2 (pagingSwp pte))
  else devices

def freePcbMemph (os : Os) (caller : ProcRef) : Os :=
  match (List.range PAGING_MAX_PGN.toNat).foldl (sweepPage (os.mm caller))
      (os.mram, os.activeMswp) with
  | (mram, mswp) => (os.setMram mram).setActiveMswp mswp

def freePcb (os : Os) (proc : ProcRef) : Os :=
  (freePcbMemph os proc).setProc proc none

/-! ## The system -/

inductive KernelAction
  | load (code : List Inst) (prio : Nat)
  | run (proc : ProcRef)
  | getProc
  | putProc (proc : ProcRef)
  | removeProc (proc : ProcRef)
  | freePcb (proc : ProcRef)
  deriving DecidableEq, Repr

/-- The block has executed its last instruction. -/
def Os.finished (os : Os) (proc : ProcRef) : Bool :=
  match os.procs proc with
  | none => false
  | some pcb => pcb.pc == pcb.code.length

/-- One kernel action.  An action on a released block, an exit before the last
instruction and an instruction without a defined outcome are no steps. -/
def kernelStep (os : Os) : KernelAction → Option Os
  | .load code prio => some (addProc (load os code prio) os.availPid)
  | .run proc =>
      if (os.procs proc).isSome ∧ (run os proc).2.Defined then some (run os proc).2 else none
  | .getProc => some (getProc os).2
  | .putProc proc => if (os.procs proc).isSome then some (putProc os proc) else none
  | .removeProc proc => if os.finished proc then some (removeProc os proc) else none
  | .freePcb proc =>
      if os.finished proc ∧ proc ∉ os.sched.runningList then some (freePcb os proc) else none

/-- What an action does, with what it takes for it to be a step. -/
inductive KernelEffect (os : Os) : KernelAction → Os → Prop
  | load (code : List Inst) (prio : Nat) :
      KernelEffect os (.load code prio) (addProc (load os code prio) os.availPid)
  | run (proc : ProcRef) (live : (os.procs proc).isSome = true)
      (defined : (run os proc).2.Defined) : KernelEffect os (.run proc) (run os proc).2
  | getProc : KernelEffect os .getProc (getProc os).2
  | putProc (proc : ProcRef) (live : (os.procs proc).isSome = true) :
      KernelEffect os (.putProc proc) (putProc os proc)
  | removeProc (proc : ProcRef) (ended : os.finished proc = true) :
      KernelEffect os (.removeProc proc) (removeProc os proc)
  | freePcb (proc : ProcRef) (ended : os.finished proc = true)
      (unlisted : proc ∉ os.sched.runningList) : KernelEffect os (.freePcb proc) (freePcb os proc)

theorem kernelStep_effect {os after : Os} {action : KernelAction}
    (taken : kernelStep os action = some after) : KernelEffect os action after := by
  cases action with
  | load code prio =>
      simp only [kernelStep, Option.some.injEq] at taken
      rw [← taken]
      exact .load code prio
  | run proc =>
      simp only [kernelStep, Option.ite_none_right_eq_some, Option.some.injEq] at taken
      rcases taken with ⟨⟨live, defined⟩, same⟩
      rw [← same]
      exact .run proc live defined
  | getProc =>
      simp only [kernelStep, Option.some.injEq] at taken
      rw [← taken]
      exact .getProc
  | putProc proc =>
      simp only [kernelStep, Option.ite_none_right_eq_some, Option.some.injEq] at taken
      rcases taken with ⟨live, same⟩
      rw [← same]
      exact .putProc proc live
  | removeProc proc =>
      simp only [kernelStep, Option.ite_none_right_eq_some, Option.some.injEq] at taken
      rcases taken with ⟨ended, same⟩
      rw [← same]
      exact .removeProc proc ended
  | freePcb proc =>
      simp only [kernelStep, Option.ite_none_right_eq_some, Option.some.injEq] at taken
      rcases taken with ⟨⟨ended, unlisted⟩, same⟩
      rw [← same]
      exact .freePcb proc ended unlisted

/-- `init_mm` will find a null pointer in the block of the next area. -/
def Os.AreaFresh (os : Os) : Prop := os.freergHeads os.availPid = []

instance (os : Os) : Decidable os.AreaFresh :=
  inferInstanceAs (Decidable (os.freergHeads os.availPid = []))

/-- No process is given an area with an old list. -/
def LoadsFresh (os : Os) : KernelAction → Prop
  | .load _ _ => os.AreaFresh
  | _ => True

instance (os : Os) (action : KernelAction) : Decidable (LoadsFresh os action) :=
  match action with
  | .load _ _ => inferInstanceAs (Decidable os.AreaFresh)
  | .run _ | .getProc | .putProc _ | .removeProc _ | .freePcb _ =>
      inferInstanceAs (Decidable True)

/-- The states reached from boot by any sequence of kernel actions, whatever
`init_mm` finds. -/
def Reachable (memramsz memswpsz : Addr) (os : Os) : Prop :=
  ∃ freergHeads trace, Transition.Run kernelStep (boot memramsz memswpsz freergHeads) trace os

/-- The states reached by actions that all meet a condition. -/
def ReachableWhere (allowed : Os → KernelAction → Prop) (memramsz memswpsz : Addr) (os : Os) :
    Prop :=
  ∃ freergHeads trace,
    Transition.RunWhere kernelStep allowed (boot memramsz memswpsz freergHeads) trace os

theorem ReachableWhere.reachable {allowed : Os → KernelAction → Prop} {memramsz memswpsz : Addr}
    {os : Os} (reached : ReachableWhere allowed memramsz memswpsz os) :
    Reachable memramsz memswpsz os := by
  rcases reached with ⟨freergHeads, trace, path⟩
  exact ⟨freergHeads, trace, path.run⟩

theorem Reachable.snoc {memramsz memswpsz : Addr} {before after : Os} {action : KernelAction}
    (reached : Reachable memramsz memswpsz before) (taken : kernelStep before action = some after) :
    Reachable memramsz memswpsz after := by
  rcases reached with ⟨freergHeads, trace, path⟩
  exact ⟨freergHeads, trace ++ [action], .snoc path taken⟩

theorem ReachableWhere.snoc {allowed : Os → KernelAction → Prop} {memramsz memswpsz : Addr}
    {before after : Os} {action : KernelAction}
    (reached : ReachableWhere allowed memramsz memswpsz before) (holds : allowed before action)
    (taken : kernelStep before action = some after) :
    ReachableWhere allowed memramsz memswpsz after := by
  rcases reached with ⟨freergHeads, trace, path⟩
  exact ⟨freergHeads, trace ++ [action], .snoc path holds taken⟩

end Kernel
end Ossim
