import Ossim.Kernel.Indices
import Ossim.Kernel.Slices
import Ossim.Kernel.VirtualBytes

namespace Ossim
namespace Kernel

open Memory

/-!
# Programs that stay in their arrays

Whether an operand lies in its array depends on the instruction and on the sizes
of the two devices only.  So it can be read off a program text, and a
configuration of such programs never comes to an instruction without a defined
outcome, in any order of the threads and whatever the memory calls return.

The loops act on the kernel by its own actions, so what is known of every
reachable state of the kernel holds in every state of the simulator.
-/

/-! ## The condition on the text -/

/-- The cells of the swap device that a raw page copy names. -/
def Inst.swapCells (ins : Inst) : List Addr :=
  if ins.opcode = .SYSCALL ∧ ins.arg0.setWidth 32 = (17 : BitVec 32) ∧
      asInt ins.arg1 = SYSMEM_SWP_OP then (List.range 256).map (pageCell ins.arg3)
  else []

/-- All operands that index an array lie in it, for devices of these sizes. -/
structure Inst.InBounds (ins : Inst) (ramSize swapSize : Nat) : Prop where
  inRange : ins.InRange ramSize
  swapCells : ∀ cell ∈ ins.swapCells, cell.toNat < swapSize

instance (ins : Inst) (ramSize swapSize : Nat) : Decidable (ins.InBounds ramSize swapSize) :=
  decidable_of_iff
    ((ins.regionIds.all (fun rgid => rgid.toNat < PAGING_MAX_SYMTBL_SZ) &&
      ins.registers.all (fun index => index.toNat < 10) &&
        ins.cells.all (fun cell => cell.toNat < ramSize) &&
          ins.swapCells.all fun cell => cell.toNat < swapSize) = true)
    (by
      simp only [Bool.and_eq_true, List.all_eq_true, decide_eq_true_eq]
      exact ⟨fun all => ⟨⟨all.1.1.1, all.1.1.2, all.1.2⟩, all.2⟩, fun bounds =>
        ⟨⟨⟨bounds.inRange.regions, bounds.inRange.registers⟩, bounds.inRange.cells⟩,
          bounds.swapCells⟩⟩)

/-! ## One instruction -/

private theorem foldl_swapCpCell_fault {mpsrc mpdst : MemphyStruct} {srcfpn dstfpn : Addr}
    (random : mpdst.rdmflg = true) (copied : Nat)
    (inside : ∀ offset < copied, (pageCell dstfpn offset).toNat < mpdst.storageSz) :
    ∃ storage, ((List.range copied).foldl (swapCpCell srcfpn dstfpn) (mpsrc, mpdst)).2 =
      { mpdst with storage := storage } := by
  induction copied with
  | zero => exact ⟨mpdst.storage, rfl⟩
  | succ copied inductionHypothesis =>
      rcases inductionHypothesis fun offset early => inside offset (by omega) with ⟨storage, before⟩
      rw [List.range_succ, List.foldl_append, List.foldl_cons, List.foldl_nil, swapCpCell]
      dsimp only
      rw [before]
      have keeps : MemphyStruct.rdmflg { mpdst with storage := storage } = true := random
      rw [memphyWrite_of_random keeps]
      have cell : (pageCell dstfpn copied).toNat <
          MemphyStruct.storageSz { mpdst with storage := storage } :=
        inside copied (Nat.lt_succ_self copied)
      exact ⟨_, store_of_inside cell _⟩

/-- A page copy into cells that exist changes nothing of the target but its
bytes. -/
theorem swapCpPage_target {mpsrc mpdst : MemphyStruct} {srcfpn dstfpn : Addr}
    (random : mpdst.rdmflg = true)
    (inside : ∀ offset < 256, (pageCell dstfpn offset).toNat < mpdst.storageSz) :
    ∃ storage, (swapCpPage mpsrc srcfpn mpdst dstfpn).2 = { mpdst with storage := storage } :=
  foldl_swapCpCell_fault random 256 inside

theorem activeMswp_setSymrg (os : Os) (caller : ProcRef) (rgid : Int) (rg : VmRgStruct) :
    (os.setSymrg caller rgid rg).activeMswp = os.activeMswp := by
  unfold Os.setSymrg
  split <;> rfl

section Dispatch

variable {os : Os} {proc : ProcRef} {ins : Inst}

theorem activeMswp_liballoc (sound : os.Sound) (live : (os.procs proc).isSome = true) (size : Addr)
    (regIndex : BitVec 32) : (liballoc os proc size regIndex).2.activeMswp = os.activeMswp := by
  rcases alloc_cases sound live regIndex.toInt size with
    ⟨newrg, left, _, _, taken⟩ | ⟨searched, _, _, refused⟩ | ⟨_, searched, grown, left, _, _, accepted⟩
  · rw [liballoc_of_alloc taken]
    exact activeMswp_setSymrg _ _ _ _
  · rw [liballoc_of_refused refused]
    rfl
  · rw [liballoc_of_alloc accepted]
    exact activeMswp_setSymrg _ _ _ _

theorem activeMswp_libfree (sound : os.Sound) (live : (os.procs proc).isSome = true)
    (regIndex : BitVec 32) : (libfree os proc regIndex).2.activeMswp = os.activeMswp := by
  rw [libfree_state]
  rcases free_cases sound live regIndex.toInt with failed | ⟨slot, _, dropped | ⟨_, _, returned⟩⟩
  · rw [failed]
  · rw [dropped]
    rfl
  · rw [returned]
    rfl

theorem activeMswp_libkmemMalloc (os : Os) (proc : ProcRef) (size regIndex : BitVec 32) :
    (libkmemMalloc os proc size regIndex).2.activeMswp = os.activeMswp := by
  unfold libkmemMalloc
  split
  · rfl
  · dsimp only
    split
    · rfl
    · exact activeMswp_setSymrg _ _ _ _

theorem activeMswp_libkmemCachePoolCreate (os : Os) (proc : ProcRef)
    (size align cachePoolId : BitVec 32) :
    (libkmemCachePoolCreate os proc size align cachePoolId).2.activeMswp = os.activeMswp := by
  unfold libkmemCachePoolCreate
  split
  · rfl
  · cases poolIndex cachePoolId <;> rfl

theorem activeMswp_libkmemCacheAlloc (os : Os) (proc : ProcRef) (regIndex cachePoolId : BitVec 32) :
    (libkmemCacheAlloc os proc regIndex cachePoolId).2.activeMswp = os.activeMswp := by
  unfold libkmemCacheAlloc
  split
  · rfl
  · cases poolIndex cachePoolId with
    | none => rfl
    | some pool =>
        dsimp only
        cases kmemSlot os.kmem pool with
        | none => rfl
        | some _ => exact activeMswp_setSymrg _ _ _ _

/-- A raw call whose cells exist on both devices. -/
theorem libsyscall_swap (proc : ProcRef) (random : os.activeMswp.rdmflg = true)
    (opcode : ins.opcode = .SYSCALL)
    (inside : ∀ cell ∈ ins.swapCells, cell.toNat < os.activeMswp.storageSz) :
    (libsyscall os proc (ins.arg0.setWidth 32) ins.arg1 ins.arg2 ins.arg3).2.activeMswp.fault =
      os.activeMswp.fault := by
  unfold libsyscall syscall
  dsimp only
  by_cases listing : ins.arg0.setWidth 32 = (0 : BitVec 32)
  · rw [if_pos listing]
    rfl
  rw [if_neg listing]
  by_cases number : ins.arg0.setWidth 32 = (17 : BitVec 32)
  swap
  · rw [if_neg number]
    rfl
  rw [if_pos number]
  unfold sysMemmap
  dsimp only
  cases resolved : schedFindProcByPid os (os.pid proc) with
  | none => rfl
  | some found =>
      dsimp only
      split
      · rfl
      split
      · rfl
      split
      · next swap =>
          have cells : ∀ offset < 256, (pageCell ins.arg3 offset).toNat < os.activeMswp.storageSz := by
            intro offset early
            apply inside
            rw [Inst.swapCells, if_pos ⟨opcode, number, swap⟩]
            exact List.mem_map_of_mem (List.mem_range.mpr early)
          unfold mmSwapPage
          have target : (swapCpPage os.mram ins.arg2 os.activeMswp ins.arg3).2.fault =
              os.activeMswp.fault := by
            rcases swapCpPage_target random cells with ⟨storage, same⟩
            rw [same]
          generalize swapCpPage os.mram ins.arg2 os.activeMswp ins.arg3 = devices at target ⊢
          exact target
      split
      · split <;> rfl
      split <;> rfl

/-- An instruction in bounds does not leave the swap device. -/
theorem dispatch_swap (accessible : os.Accessible) (random : os.activeMswp.rdmflg = true)
    (live : (os.procs proc).isSome = true)
    (inside : ∀ cell ∈ ins.swapCells, cell.toNat < os.activeMswp.storageSz) :
    (dispatch os proc ins).2.activeMswp.fault = os.activeMswp.fault := by
  have sound := accessible.sound
  have plain := accessible.plain proc
  unfold dispatch
  cases opcode : ins.opcode with
  | CALC => rfl
  | ALLOC => exact congrArg MemphyStruct.fault (activeMswp_liballoc sound live _ _)
  | FREE => exact congrArg MemphyStruct.fault (activeMswp_libfree sound live _)
  | READ =>
      rcases libread_plain plain (ins.arg0.setWidth 32) ins.arg1 with
        ⟨_, data, answer⟩ | ⟨_, answer⟩
      · rw [answer]
        dsimp only
        rw [if_pos rfl, Os.setReg]
        split <;> rfl
      · rw [answer]
        rfl
  | WRITE =>
      rcases libwrite_plain plain (ins.arg0.setWidth 8) (ins.arg1.setWidth 32) ins.arg2 with
        ⟨_, bytes, answer⟩ | ⟨_, answer⟩
      · rw [answer]
        rfl
      · rw [answer]
  | KMALLOC => exact congrArg MemphyStruct.fault (activeMswp_libkmemMalloc os proc _ _)
  | KMEM_CACHE_CREATE =>
      exact congrArg MemphyStruct.fault (activeMswp_libkmemCachePoolCreate os proc _ _ _)
  | KMEM_CACHE_ALLOC => exact congrArg MemphyStruct.fault (activeMswp_libkmemCacheAlloc os proc _ _)
  | COPY_FROM_USER =>
      unfold libkmemCopyFromUser
      cases copyRegions os proc (ins.arg0.setWidth 32) (ins.arg1.setWidth 32) with
      | none => rfl
      | some regions =>
          dsimp only
          rw [copyFromUserLoop_plain plain]
          rfl
  | COPY_TO_USER =>
      unfold libkmemCopyToUser
      cases copyRegions os proc (ins.arg1.setWidth 32) (ins.arg0.setWidth 32) with
      | none => rfl
      | some regions =>
          dsimp only
          rw [copyToUserLoop_plain plain]
          rfl
  | SYSCALL => exact libsyscall_swap proc random opcode inside

/-- An instruction in bounds has a defined outcome. -/
theorem run_defined (accessible : os.Accessible) (random : os.activeMswp.rdmflg = true)
    (fits : os.DumpFits)
    (inBounds : ∀ ins, fetch os proc = some ins →
      ins.InBounds os.mram.storageSz os.activeMswp.storageSz) : (run os proc).2.Defined := by
  cases fetched : fetch os proc with
  | none =>
      rw [run_of_end fetched]
      exact accessible.defined
  | some ins =>
      have live : ((os.advance proc).procs proc).isSome = true := by
        rw [isSome_advance]
        exact isSome_of_fetch fetched
      have moved := accessible.advance proc
      have bounds := inBounds ins fetched
      have arrays := (dispatch_faults_iff moved live bounds.inRange).mpr fun _ => Or.inl fits
      have swap := dispatch_swap moved random live bounds.swapCells
      rw [run_of_fetch fetched]
      exact ⟨arrays.1, arrays.2, swap.trans accessible.defined.2.2⟩

end Dispatch

/-! ## Every state -/

/-- The devices keep the shape in which they were opened. -/
theorem Reachable.shapes {memramsz memswpsz : Addr} {os : Os}
    (reached : Reachable memramsz memswpsz os) :
    SameShape (initMemphy memramsz 1) os.mram ∧ SameShape (initMemphy memswpsz 1) os.activeMswp := by
  rcases reached with ⟨freergHeads, trace, path⟩
  refine (path.invariant (fun os => os.Sound ∧ SameShape (initMemphy memramsz 1) os.mram ∧
    SameShape (initMemphy memswpsz 1) os.activeMswp)
      ⟨sound_boot memramsz memswpsz freergHeads, SameShape.refl _, SameShape.refl _⟩ ?_).2
  rintro before action after ⟨sound, ram, swap⟩ taken
  have frame : SameShape before.mram after.mram ∧ SameShape before.activeMswp after.activeMswp := by
    rcases kernelStep_memory sound taken with
      quiet | ⟨proc, ins, _, _, fetched, same, _, _⟩ | ⟨proc, _, _, _, same⟩
    · rw [quiet.mram, quiet.activeMswp]
      exact ⟨SameShape.refl _, SameShape.refl _⟩
    · rw [same, run_of_fetch fetched]
      have frame := frame_dispatch (before.advance proc) proc ins
      exact ⟨frame.mram, frame.activeMswp⟩
    · rcases freePcb_cases sound proc with ⟨spare, outcome, _⟩
      rw [same, outcome]
      exact ⟨⟨rfl, rfl, rfl⟩, SameShape.refl _⟩
  exact ⟨sound.kernelStep taken, ram.trans frame.1, swap.trans frame.2⟩

variable {numCpus : Nat}

/-- The kernel of the simulator is in a state that its own actions reach. -/
theorem Simulated.reachable {timeSlot : Int} {memramsz memswpsz : Addr}
    {config : List (List Inst × Nat)} {sim : Simulator numCpus}
    (reached : Simulated timeSlot memramsz memswpsz config sim) :
    Reachable memramsz memswpsz sim.os := by
  rcases reached with ⟨freergHeads, trace, path⟩
  have kept : sim.Owned ∧ Reachable memramsz memswpsz sim.os := by
    refine path.invariant (fun sim => sim.Owned ∧ Reachable memramsz memswpsz sim.os)
      ⟨owned_start numCpus memramsz memswpsz freergHeads config, ⟨freergHeads, [], .nil⟩⟩ ?_
    rintro before action after ⟨owned, earlier⟩ taken
    have effect := simStep_effect taken
    refine ⟨owned.step effect, ?_⟩
    rcases effect.kernel owned with same | ⟨kernelAction, acts⟩
    · rw [same]
      exact earlier
    · exact earlier.snoc acts
  exact kept.2

/-- The instruction that a process executes belongs to a program of the
configuration. -/
theorem Simulator.Planned.program_of_fetch {sim : Simulator numCpus}
    {config : List (List Inst × Nat)} (planned : sim.Planned config) {proc : ProcRef} {ins : Inst}
    (fetched : fetch sim.os proc = some ins) :
    ∃ code prio, (code, prio) ∈ config ∧ ins ∈ code := by
  rw [fetch, Option.bind_eq_some_iff] at fetched
  rcases fetched with ⟨pcb, found, inside⟩
  have stage : sim.os.stage proc = some (pcb.pc, pcb.code) := by
    rw [Os.stage, found]
    rfl
  rcases planned.program proc pcb.pc pcb.code stage with ⟨_, prio, listed⟩
  exact ⟨pcb.code, prio, List.mem_of_getElem? listed, List.mem_of_getElem? inside⟩

/-- Programs in bounds have a defined outcome at every instruction, wherever the
loops are. -/
theorem Simulated.run_defined {timeSlot : Int} {memramsz memswpsz : Addr}
    {config : List (List Inst × Nat)} {sim : Simulator numCpus} (small : memramsz.toNat < 2 ^ 31)
    (inBounds : ∀ program ∈ config, ∀ ins ∈ program.1,
      ins.InBounds memramsz.toNat memswpsz.toNat)
    (reached : Simulated timeSlot memramsz memswpsz config sim) (proc : ProcRef) :
    (run sim.os proc).2.Defined := by
  have kernel := reached.reachable
  rcases kernel.shapes with ⟨ram, swap⟩
  rcases kernel.devices with ⟨ramSize, swapSize, _⟩
  have random : sim.os.activeMswp.rdmflg = true := by
    rw [swap.rdmflg, initMemphy]
    rfl
  have fits : sim.os.DumpFits := by
    have size : (initMemphy memramsz 1).maxsz = asInt memramsz := by
      unfold initMemphy memphyFormat
      dsimp only
      split <;> rfl
    rw [Os.DumpFits, ram.maxsz, ramSize, size, ofInt_asInt_of_small memramsz small]
  refine Kernel.run_defined kernel.accessible random fits fun ins fetched => ?_
  rw [ramSize, swapSize]
  rcases reached.planned.program_of_fetch fetched with ⟨code, prio, listed, member⟩
  exact inBounds (code, prio) listed ins member

end Kernel
end Ossim
