import Ossim.Kernel.Frames
import Ossim.Kernel.PrivateMachine
import Ossim.Kernel.Slices

namespace Ossim
namespace Kernel

open Memory

/-!
# What an action does to one process

A process is loaded, runs and is released by actions on itself.  No other action
changes its program, its counter, its registers or its memory map, and none
changes the bytes in its frames unless it is a raw system call.
-/

/-- Everything that a process has of its own is as before. -/
structure Os.Spared (os after : Os) (proc : ProcRef) : Prop where
  mm : after.mm proc = os.mm proc
  stage : after.stage proc = os.stage proc
  regs : ∀ index, after.register proc index = os.register proc index

/-- The inversion of `kernelStep` for one process. -/
inductive OwnEffect (os : Os) (action : KernelAction) (after : Os) (proc : ProcRef) : Prop
  | spared (other : action ≠ .run proc ∨ after = os) (rest : os.Spared after proc)
  | loaded (code : List Inst) (prio : Nat) (acts : action = .load code prio)
      (stage : after.stage proc = some (0, code)) 
      (fresh : after.mm proc = initMm (os.freergHeads proc))
  | ran (ins : Inst) (acts : action = .run proc) (fetched : fetch os proc = some ins)
      (same : after = (run os proc).2) (defined : after.Defined)
  | released (acts : action = .freePcb proc) (gone : after.procs proc = none)

theorem spared_of_procs {os after : Os} {proc : ProcRef}
    (procs : after.procs proc = os.procs proc) (heads : after.freergHeads = os.freergHeads) :
    os.Spared after proc where
  mm := Os.mm_congr procs heads
  stage := stage_congr procs
  regs := register_congr procs

theorem spared_putMlqProc (os : Os) (queued proc : ProcRef) :
    os.Spared (putMlqProc os queued) proc where
  mm := (quiet_putMlqProc os queued).mm proc
  stage := stage_putMlqProc os queued proc
  regs := register_updatePcb os queued
    (fun pcb => { pcb with prio := (normalizePrio (os.prio queued)).val }) (fun _ => rfl) proc

theorem kernelStep_own {os after : Os} (sound : os.Sound) {action : KernelAction}
    (taken : kernelStep os action = some after) (proc : ProcRef) :
    OwnEffect os action after proc := by
  have heads := kernelStep_freergHeads sound taken
  cases kernelStep_effect taken with
  | load code prio =>
      by_cases fresh : proc = os.availPid
      · refine .loaded code prio rfl ?_ ?_
        · rw [fresh]
          exact stage_load os code prio
        · have adding := (quiet_addProc (load os code prio) os.availPid).mm proc
          rw [adding, (quiet_load sound code prio).mm, fresh, Os.mm_of_absent sound.absent]
      · exact .spared (Or.inl KernelAction.noConfusion)
          (spared_of_procs (procs_load_of_ne os code prio fresh) heads)
  | run caller live defined =>
      by_cases own : proc = caller
      · subst own
        cases fetched : fetch os proc with
        | none =>
            rw [run_of_end fetched]
            exact .spared (Or.inr rfl) (spared_of_procs rfl rfl)
        | some ins => exact .ran ins rfl fetched rfl defined
      · refine .spared (Or.inl fun acts => ?_)
          (spared_of_procs (run_others sound live own) heads)
        cases acts
        exact own rfl
  | getProc => exact .spared (Or.inl KernelAction.noConfusion) (spared_of_procs rfl heads)
  | putProc queued =>
      exact .spared (Or.inl KernelAction.noConfusion) (spared_putMlqProc os queued proc)
  | removeProc => exact .spared (Or.inl KernelAction.noConfusion) (spared_of_procs rfl heads)
  | freePcb freed =>
      have procs := procs_freePcb sound freed proc
      by_cases own : proc = freed
      · rw [if_pos own] at procs
        rw [own] at procs ⊢
        exact .released rfl procs
      · rw [if_neg own] at procs
        exact .spared (Or.inl KernelAction.noConfusion) (spared_of_procs procs heads)

/-! ## The bytes of a process -/

theorem pageCell_div {fpn : Addr} (small : fpn.toNat < 8192) (cell : Fin 256) :
    pageCell fpn cell / PAGING_PAGESZ = fpn := by
  have size : PAGING_PAGESZ.toNat = 256 := rfl
  have inside := cell.isLt
  apply BitVec.eq_of_toNat_eq
  rw [BitVec.toNat_udiv, toNat_pageCell (small.trans (by decide)) inside, size]
  omega

/-- The actions of others do not touch the bytes in the frames of a process. -/
theorem kernelStep_cells {os after : Os} (sound : os.Sound) (exclusive : os.ledger.Exclusive)
    {action : KernelAction} (ordinary : NoRawSyscall os action)
    (taken : kernelStep os action = some after) {proc : ProcRef} (other : action ≠ .run proc)
    {page fpn : Addr} (mapped : (os.mm proc).frameOf page = some fpn) (cell : Fin 256) :
    after.mram.storage (pageCell fpn cell) = os.mram.storage (pageCell fpn cell) := by
  rcases kernelStep_memory sound taken with
    quiet | ⟨caller, ins, running, live, fetched, same, _, effect⟩ | ⟨freed, _, _, _, same⟩
  · rw [quiet.mram]
  · subst running
    refine effect.storage _ (fun writes => ordinary ins fetched writes.1) fun elsewhere held => ?_
    rw [pageCell_div (MmStruct.frameOf_lt mapped)] at held
    have first : os.ledger.loc (caller, elsewhere) = some fpn := held
    have second : os.ledger.loc (proc, page) = some fpn := mapped
    exact other (congrArg KernelAction.run (congrArg Prod.fst (exclusive.injective first second)))
  · rcases freePcb_cases sound freed with ⟨spare, outcome, _⟩
    rw [same, outcome]
    rfl

end Kernel
end Ossim
