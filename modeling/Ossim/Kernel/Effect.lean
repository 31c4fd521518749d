import Ossim.Memory.RegionTable
import Ossim.Kernel.Access

namespace Ossim
namespace Kernel

open Memory

/-!
# What an instruction does to a memory map

One inversion covers all opcodes.  `MmEffect` lists the ways in which an
instruction can change the memory map of the process that executes it and the
free list of the RAM, with the tests that select each way.  Invariants of whole
runs are proved by going through these cases once.

The inversion is for sound states: a process id is the reference of its block,
the two devices are random access, and no page is on swap.
-/

namespace Inst

/-- A raw system call that stores a byte at a device address. -/
def WritesDevice (ins : Inst) (phyaddr : Addr) : Prop :=
  ins.opcode = .SYSCALL ∧ ins.arg0.setWidth 32 = (17 : BitVec 32) ∧
    asInt ins.arg1 = SYSMEM_IO_WRITE ∧ ins.arg2 = phyaddr

end Inst

/-! ## Sound states -/

structure Os.Sound (os : Os) : Prop where
  pid : ∀ proc pcb, os.procs proc = some pcb → pcb.pid = proc
  fresh : ∀ proc, (os.procs proc).isSome = true → proc < os.availPid
  memory : ∀ proc, (os.mm proc).Sound
  mramRandom : os.mram.rdmflg = true
  mswpRandom : os.activeMswp.rdmflg = true

namespace Os

theorem Sound.unswapped {os : Os} (sound : os.Sound) (proc : ProcRef) : os.Unswapped proc :=
  (sound.memory proc).unswapped

/-- A process id resolves to its own block or to none. -/
theorem Sound.resolve {os : Os} (sound : os.Sound) {caller found : ProcRef}
    (live : (os.procs caller).isSome = true)
    (resolved : schedFindProcByPid os (os.pid caller) = some found) : found = caller := by
  have accepted := List.find?_some resolved
  rcases Option.isSome_iff_exists.mp live with ⟨pcb, here⟩
  have callerPid : os.pid caller = caller := by
    rw [Os.pid, here]
    exact sound.pid caller pcb here
  cases there : os.procs found with
  | none =>
      rw [there] at accepted
      cases accepted
  | some other =>
      rw [there] at accepted
      have same : other.pid = os.pid caller := beq_iff_eq.mp accepted
      rw [sound.pid found other there, callerPid] at same
      exact same

/-- A live process resolves exactly while it is on `running_list`. -/
theorem Sound.resolves_iff {os : Os} (sound : os.Sound) {caller : ProcRef}
    (live : (os.procs caller).isSome = true) :
    os.Resolves caller ↔ caller ∈ os.sched.runningList := by
  constructor
  · intro resolves
    rcases Option.isSome_iff_exists.mp resolves with ⟨found, resolved⟩
    have same := sound.resolve live resolved
    subst same
    exact List.mem_of_find?_eq_some resolved
  · intro member
    rcases Option.isSome_iff_exists.mp live with ⟨pcb, here⟩
    unfold Resolves schedFindProcByPid
    rw [List.find?_isSome]
    refine ⟨caller, member, ?_⟩
    rw [here, Os.pid, here]
    exact beq_self_eq_true pcb.pid

end Os

/-! ## The cases -/

/-- The memory map and the free RAM frames after an instruction, for a caller
that the system-call layer resolves or does not resolve. -/
inductive MmEffect (ins : Inst) (resolves : Prop) (mm : MmStruct) (mram : MemphyStruct) :
    MmStruct → List Addr → Prop
  | idle : MmEffect ins resolves mm mram mm mram.freeFpList
  | kernelRegion (slot : Fin PAGING_MAX_SYMTBL_SZ) (rg : VmRgStruct)
      (mode : rg.modeBit = .kernel) :
      MmEffect ins resolves mm mram (mm.setRegion slot rg) mram.freeFpList
  | taken (slot : Fin PAGING_MAX_SYMTBL_SZ) (newrg : VmRgStruct) (left : List VmRgStruct)
      (opcode : ins.opcode = .ALLOC)
      (found : firstFit (asInt ins.arg0) mm.area.vmFreergList = some (newrg, left)) :
      MmEffect ins resolves mm mram ((mm.setFreeList left).setRegion slot newrg) mram.freeFpList
  | refused (searched : MmStruct) (opcode : ins.opcode = .ALLOC)
      (search : Searched (asInt ins.arg0) mm searched) :
      MmEffect ins resolves mm mram searched mram.freeFpList
  | grown (slot : Fin PAGING_MAX_SYMTBL_SZ) (searched grown : MmStruct) (left : MemphyStruct)
      (opcode : ins.opcode = .ALLOC) (resolved : resolves)
      (search : Searched (asInt ins.arg0) mm searched)
      (growth : Growth searched mram (pagingPageAlignsz ins.arg0) grown left) :
      MmEffect ins resolves mm mram
        (grown.setRegion slot ⟨mm.area.sbrk, mm.area.sbrk + ins.arg0, .user⟩) left.freeFpList
  | dropped (slot : Fin PAGING_MAX_SYMTBL_SZ) (opcode : ins.opcode = .FREE) :
      MmEffect ins resolves mm mram (mm.setRegion slot VmRgStruct.zero) mram.freeFpList
  | returned (slot : Fin PAGING_MAX_SYMTBL_SZ) (opcode : ins.opcode = .FREE)
      (named : getSymrgByid (ins.arg0.setWidth 32 : BitVec 32).toInt = some slot)
      (outside : kmemAddrIsKernel (mm.symrgtbl slot).rgStart = false)
      (ordered : (mm.symrgtbl slot).rgStart < (mm.symrgtbl slot).rgEnd) :
      MmEffect ins resolves mm mram
        ((mm.setRegion slot VmRgStruct.zero).setFreeList
          (⟨(mm.symrgtbl slot).rgStart, (mm.symrgtbl slot).rgEnd, .user⟩ ::
            mm.area.vmFreergList)) mram.freeFpList
  | extended (grown : MmStruct) (left : MemphyStruct) (opcode : ins.opcode = .SYSCALL)
      (resolved : resolves) (growth : Growth mm mram ins.arg3 grown left) :
      MmEffect ins resolves mm mram grown left.freeFpList
  | marked (marked : MmStruct) (opcode : ins.opcode = .SYSCALL)
      (number : ins.arg0.setWidth 32 = (17 : BitVec 32))
      (operation : asInt ins.arg1 = SYSMEM_MAP_OP)
      (mark : Marked mm ins.arg2 (asInt ins.arg3) marked) :
      MmEffect ins resolves mm mram marked mram.freeFpList

/-- The effect of an instruction on memory: the map of the caller, the free
frames, the bytes outside the frames of the caller, and the free swap slots. -/
structure MemoryEffect (ins : Inst) (caller : ProcRef) (before after : Os) : Prop where
  mm : MmEffect ins (before.Resolves caller) (before.mm caller) before.mram (after.mm caller)
    after.mram.freeFpList
  storage : ∀ phyaddr, ¬ ins.WritesDevice phyaddr →
    (∀ pgn, (before.mm caller).frameOf pgn ≠ some (phyaddr / PAGING_PAGESZ)) →
      after.mram.storage phyaddr = before.mram.storage phyaddr
  swapSpare : after.activeMswp.freeFpList = before.activeMswp.freeFpList

theorem DataStep.effect {ins : Inst} {caller : ProcRef} {before after : Os}
    (step : DataStep caller before after) : MemoryEffect ins caller before after where
  mm := by
    rw [step.mm, step.freeFpList]
    exact .idle
  storage := fun phyaddr _ outside => step.storage phyaddr outside
  swapSpare := by rw [step.activeMswp]

/-! ## Sound states are kept -/

namespace Os

/-- Only the memory map of the caller has to be looked at. -/
theorem Sound.frame {before after : Os} (sound : before.Sound) {caller : ProcRef}
    (live : (before.procs caller).isSome = true) (frame : MemoryFrame caller before after)
    (own : (after.mm caller).Sound) : after.Sound where
  pid := by
    intro proc pcb found
    have same := frame.control proc
    rw [Os.control, Os.control, found] at same
    cases old : before.procs proc with
    | none =>
        rw [old] at same
        cases same
    | some other =>
        rw [old] at same
        have kept := congrArg Control.pid (Option.some.inj same)
        exact kept.trans (sound.pid proc other old)
  fresh := by
    intro proc present
    rw [isSome_of_control (frame.control proc)] at present
    rw [frame.availPid]
    exact sound.fresh proc present
  memory := by
    intro proc
    by_cases same : proc = caller
    · rw [same]
      exact own
    · have outside : ¬ before.Actor caller proc := by
        rintro (isCaller | resolved)
        · exact same isCaller
        · exact same (sound.resolve live resolved)
      rw [frame.mm outside]
      exact sound.memory proc
  mramRandom := frame.mram.rdmflg.trans sound.mramRandom
  mswpRandom := frame.activeMswp.rdmflg.trans sound.mswpRandom

/-- The memory map of every other process is untouched. -/
theorem Sound.others {before after : Os} (sound : before.Sound) {caller proc : ProcRef}
    (live : (before.procs caller).isSome = true) (frame : MemoryFrame caller before after)
    (different : proc ≠ caller) : after.procs proc = before.procs proc := by
  apply frame.others
  rintro (isCaller | resolved)
  · exact different isCaller
  · exact different (sound.resolve live resolved)

/-- A store through a region id that stays inside the table. -/
theorem setSymrg_of_unfaulted {os : Os} {caller : ProcRef} {rgid : Int} {rg : VmRgStruct}
    (defined : (os.setSymrg caller rgid rg).fault = false) :
    ∃ slot, getSymrgByid rgid = some slot ∧
      os.setSymrg caller rgid rg = os.setMm caller ((os.mm caller).setRegion slot rg) := by
  unfold setSymrg at defined ⊢
  cases named : getSymrgByid rgid with
  | none =>
      rw [named] at defined
      cases defined
  | some slot => exact ⟨slot, rfl, rfl⟩

end Os

/-! ## Allocation -/

/-- The growth request that `__alloc` sends. -/
private theorem syscall_inc {os : Os} (sound : os.Sound) {caller : ProcRef}
    (live : (os.procs caller).isSome = true) (incSz : Addr) :
    ((os.Resolves caller →
        ¬ (os.mm caller).area.sbrk < (os.mm caller).area.sbrk + incAmt incSz) ∧
        ∃ regs, syscall os (os.pid caller) 17 ⟨ofInt SYSMEM_INC_OP, ofInt 0, incSz⟩ =
          (-1, regs, os)) ∨
      (os.Resolves caller ∧ ∃ grown left regs,
        syscall os (os.pid caller) 17 ⟨ofInt SYSMEM_INC_OP, ofInt 0, incSz⟩ =
          (0, regs, (os.setMm caller grown).setMram left) ∧
        Growth (os.mm caller) os.mram incSz grown left) := by
  have operation : asInt (ofInt 2) = 2 := by decide
  have area : asInt (ofInt 0) = 0 := by decide
  rw [syscall, if_neg (by decide), if_pos rfl, sysMemmap]
  cases resolved : schedFindProcByPid os (os.pid caller) with
  | none =>
      refine Or.inl ⟨fun resolves => ?_, _, rfl⟩
      rw [Os.Resolves, resolved] at resolves
      cases resolves
  | some found =>
      have same := sound.resolve live resolved
      subst same
      rcases incVmaLimit_cases (sound.memory found) os.mram 0 incSz with
        ⟨reason, refused⟩ | ⟨_, grown, left, accepted, growth⟩
      · refine Or.inl ⟨fun _ => reason.resolve_left (by decide),
          ⟨ofInt SYSMEM_INC_OP, ofInt 0, incSz⟩, ?_⟩
        simp [operation, area, refused, SYSMEM_MAP_OP, SYSMEM_INC_OP, Os.setMm_self]
        rfl
      · refine Or.inr ⟨?_, grown, left, ⟨ofInt SYSMEM_INC_OP, ofInt 0, incSz⟩, ?_, growth⟩
        · rw [Os.Resolves, resolved]
          rfl
        · simp [operation, area, accepted, SYSMEM_MAP_OP, SYSMEM_INC_OP]

/-- The three outcomes of `__alloc`: a region from the free list, a refusal, or
a region at the old break after a growth.  The search and the growth decide
between them. -/
theorem alloc_cases {os : Os} (sound : os.Sound) {caller : ProcRef}
    (live : (os.procs caller).isSome = true) (rgid : Int) (size : Addr) :
    (∃ newrg left, firstFit (asInt size) (os.mm caller).area.vmFreergList = some (newrg, left) ∧
        newrg.rgStart ≠ ofInt (-1) ∧
        alloc os caller 0 rgid size =
          (0, (os.setMm caller ((os.mm caller).setFreeList left)).setSymrg caller rgid newrg)) ∨
      (∃ searched, Searched (asInt size) (os.mm caller) searched ∧
        (os.Resolves caller → ¬ (os.mm caller).area.sbrk <
          (os.mm caller).area.sbrk + incAmt (pagingPageAlignsz size)) ∧
        alloc os caller 0 rgid size = (-1, os.setMm caller searched)) ∨
      (os.Resolves caller ∧ ∃ searched grown left,
        Searched (asInt size) (os.mm caller) searched ∧
        Growth searched os.mram (pagingPageAlignsz size) grown left ∧
        alloc os caller 0 rgid size =
          (0, ((os.setMm caller grown).setMram left).setSymrg caller rgid
            ⟨(os.mm caller).area.sbrk, (os.mm caller).area.sbrk + size, .user⟩)) := by
  have mmSound := sound.memory caller
  rcases getFreeVmrgArea_cases mmSound (asInt size) with
    ⟨newrg, left, found, offered, taken⟩ | ⟨searched, search, missing⟩
  · refine Or.inl ⟨newrg, left, found, offered, ?_⟩
    rw [alloc, mmSound.getVmaByNum, if_neg (show ¬ (0 : Int) < 0 by decide)]
    dsimp only
    rw [taken]
  · have asked : ∀ ret regs grown,
        syscall (os.setMm caller searched) ((os.setMm caller searched).pid caller) 17
          ⟨ofInt SYSMEM_INC_OP, ofInt 0, pagingPageAlignsz size⟩ = (ret, regs, grown) →
        alloc os caller 0 rgid size =
          if ret ≠ 0 then (-1, grown)
          else (0, grown.setSymrg caller rgid
            ⟨(os.mm caller).area.sbrk, (os.mm caller).area.sbrk + size, .user⟩) := by
      intro ret regs grown answered
      rw [alloc, mmSound.getVmaByNum, if_neg (show ¬ (0 : Int) < 0 by decide)]
      dsimp only
      rw [missing]
      dsimp only
      rw [answered]
    have frame := frame_setMm_self os caller searched
    have own : (os.setMm caller searched).mm caller = searched := Os.mm_setMm_self live searched
    have soundSearched : (os.setMm caller searched).Sound := by
      apply sound.frame live frame
      rw [own]
      exact search.sound mmSound
    have liveSearched : ((os.setMm caller searched).procs caller).isSome = true := by
      rw [isSome_of_control (frame.control caller)]
      exact live
    have resolving : (os.setMm caller searched).Resolves caller ↔ os.Resolves caller := by
      rw [Os.Resolves, frame.pid, frame.schedFindProcByPid, Os.Resolves]
    rcases syscall_inc soundSearched liveSearched (pagingPageAlignsz size) with
      ⟨reason, regs, refused⟩ | ⟨resolves, grown, left, regs, accepted, growth⟩
    · rw [resolving, own, search.sbrk mmSound] at reason
      exact Or.inr (Or.inl ⟨searched, search, reason, asked _ _ _ refused⟩)
    · rw [own] at growth
      refine Or.inr (Or.inr ⟨resolving.mp resolves, searched, grown, left, search, growth, ?_⟩)
      rw [asked _ _ _ accepted, Os.setMm_setMm]
      rfl

theorem liballoc_of_alloc {os done : Os} {proc : ProcRef} {size : Addr} {regIndex : BitVec 32}
    (succeeded : alloc os proc 0 regIndex.toInt size = (0, done)) :
    liballoc os proc size regIndex = (0, done.setMram (memphyDump done.mram)) := by
  rw [liballoc, succeeded]
  exact if_neg (by decide)

theorem liballoc_of_refused {os done : Os} {proc : ProcRef} {size : Addr} {regIndex : BitVec 32}
    (refused : alloc os proc 0 regIndex.toInt size = (-1, done)) :
    liballoc os proc size regIndex = (-1, done) := by
  rw [liballoc, refused]
  exact if_pos rfl

theorem liballoc_effect {os : Os} (sound : os.Sound) {proc : ProcRef}
    (live : (os.procs proc).isSome = true) (ins : Inst) (opcode : ins.opcode = .ALLOC)
    (regIndex : BitVec 32) (defined : (liballoc os proc ins.arg0 regIndex).2.fault = false) :
    MemoryEffect ins proc os (liballoc os proc ins.arg0 regIndex).2 := by
  have own : ∀ mm, (os.setMm proc mm).mm proc = mm := fun mm => Os.mm_setMm_self live mm
  rcases alloc_cases sound live regIndex.toInt ins.arg0 with
    ⟨newrg, left, found, _, taken⟩ | ⟨searched, search, _, refused⟩ |
      ⟨resolves, searched, grown, left, search, growth, accepted⟩
  · rw [liballoc_of_alloc taken] at defined ⊢
    rcases Os.setSymrg_of_unfaulted defined with ⟨slot, _, stored⟩
    rw [stored, Os.setMm_setMm, own]
    refine ⟨?_, fun _ _ _ => rfl, rfl⟩
    rw [Os.mm_setMram, own]
    exact .taken slot newrg left opcode found
  · rw [liballoc_of_refused refused]
    refine ⟨?_, fun _ _ _ => rfl, rfl⟩
    rw [own]
    exact .refused searched opcode search
  · rw [liballoc_of_alloc accepted] at defined ⊢
    rcases Os.setSymrg_of_unfaulted defined with ⟨slot, _, stored⟩
    have mapped : ((os.setMm proc grown).setMram left).mm proc = grown := own grown
    rcases growth.device with ⟨spare, _, device⟩
    rw [stored, mapped]
    refine ⟨?_, ?_, rfl⟩
    · have final : ((((os.setMm proc grown).setMram left).setMm proc (grown.setRegion slot
          ⟨(os.mm proc).area.sbrk, (os.mm proc).area.sbrk + ins.arg0, .user⟩)).mm proc) =
          grown.setRegion slot
            ⟨(os.mm proc).area.sbrk, (os.mm proc).area.sbrk + ins.arg0, .user⟩ := by
        apply Os.mm_setMm_self
        rw [Os.setMram_procs, isSome_of_control
          ((frame_setMm_self os proc grown).control proc)]
        exact live
      rw [Os.mm_setMram, final]
      exact .grown slot searched grown left opcode resolves search growth
    · intro phyaddr _ _
      rw [device]
      rfl

/-! ## Release -/

theorem free_cases {os : Os} (sound : os.Sound) {caller : ProcRef}
    (live : (os.procs caller).isSome = true) (rgid : Int) :
    free os caller 0 rgid = (-1, os) ∨
      ∃ slot, getSymrgByid rgid = some slot ∧
        (free os caller 0 rgid =
            (0, os.setMm caller ((os.mm caller).setRegion slot VmRgStruct.zero)) ∨
          (kmemAddrIsKernel ((os.mm caller).symrgtbl slot).rgStart = false ∧
            ((os.mm caller).symrgtbl slot).rgStart < ((os.mm caller).symrgtbl slot).rgEnd ∧
            free os caller 0 rgid =
              (0, os.setMm caller (((os.mm caller).setRegion slot VmRgStruct.zero).setFreeList
                (⟨((os.mm caller).symrgtbl slot).rgStart, ((os.mm caller).symrgtbl slot).rgEnd,
                  .user⟩ :: (os.mm caller).area.vmFreergList))))) := by
  unfold free
  cases named : getSymrgByid rgid with
  | none => exact Or.inl rfl
  | some slot =>
      dsimp only
      by_cases empty : ((os.mm caller).symrgtbl slot).rgStart = 0 ∧
          ((os.mm caller).symrgtbl slot).rgEnd = 0
      · rw [if_pos empty]
        exact Or.inl rfl
      · rw [if_neg empty]
        refine Or.inr ⟨slot, rfl, ?_⟩
        have stored : os.setSymrg caller rgid VmRgStruct.zero =
            os.setMm caller ((os.mm caller).setRegion slot VmRgStruct.zero) := by
          rw [Os.setSymrg, named]
          rfl
        rw [stored, Os.mm_setMm_self live, enlistVmFreergList_eq
          ((sound.memory caller).setRegion slot VmRgStruct.zero)]
        cases inside : kmemAddrIsKernel ((os.mm caller).symrgtbl slot).rgStart with
        | true => exact Or.inl rfl
        | false =>
            dsimp only
            by_cases unordered : ((os.mm caller).symrgtbl slot).rgEnd ≤
                ((os.mm caller).symrgtbl slot).rgStart
            · rw [if_pos unordered, Os.setMm_setMm]
              exact Or.inl rfl
            · rw [if_neg unordered, Os.setMm_setMm]
              exact Or.inr ⟨rfl, BitVec.not_le.mp unordered, rfl⟩

theorem libfree_state (os : Os) (proc : ProcRef) (regIndex : BitVec 32) :
    (libfree os proc regIndex).2 = (free os proc 0 regIndex.toInt).2 := by
  unfold libfree
  dsimp only
  split <;> rfl

theorem libfree_effect {os : Os} (sound : os.Sound) {proc : ProcRef}
    (live : (os.procs proc).isSome = true) (ins : Inst) (opcode : ins.opcode = .FREE) :
    MemoryEffect ins proc os (libfree os proc (ins.arg0.setWidth 32)).2 := by
  have own : ∀ mm, (os.setMm proc mm).mm proc = mm := fun mm => Os.mm_setMm_self live mm
  rw [libfree_state]
  rcases free_cases sound live (ins.arg0.setWidth 32 : BitVec 32).toInt with
    failed | ⟨slot, named, dropped | ⟨outside, ordered, returned⟩⟩
  · rw [failed]
    exact (DataStep.refl proc os).effect
  · rw [dropped]
    refine ⟨?_, fun _ _ _ => rfl, rfl⟩
    rw [own]
    exact .dropped slot opcode
  · rw [returned]
    refine ⟨?_, fun _ _ _ => rfl, rfl⟩
    rw [own]
    exact .returned slot opcode named outside ordered

/-! ## Kernel regions -/

/-- Storing a kernel region after a change of the pool. -/
private theorem setKmem_setSymrg_effect {os : Os} {proc : ProcRef}
    (live : (os.procs proc).isSome = true) (ins : Inst) (kmem : Kmem) (rgid : Int)
    (rg : VmRgStruct) (mode : rg.modeBit = .kernel)
    (defined : ((os.setKmem kmem).setSymrg proc rgid rg).fault = false) :
    MemoryEffect ins proc os ((os.setKmem kmem).setSymrg proc rgid rg) := by
  rcases Os.setSymrg_of_unfaulted defined with ⟨slot, _, stored⟩
  rw [stored]
  refine ⟨?_, fun _ _ _ => rfl, rfl⟩
  rw [Os.mm_setMm_self (by exact live)]
  exact .kernelRegion slot rg mode

theorem libkmemMalloc_effect {os : Os} {proc : ProcRef} (live : (os.procs proc).isSome = true)
    (ins : Inst) (size regIndex : BitVec 32)
    (defined : (libkmemMalloc os proc size regIndex).2.fault = false) :
    MemoryEffect ins proc os (libkmemMalloc os proc size regIndex).2 := by
  unfold libkmemMalloc at defined ⊢
  split
  · exact (DataStep.refl proc os).effect
  · next guard =>
      rw [if_neg guard] at defined
      dsimp only at defined ⊢
      split
      · exact (dataStep_setKmem os proc _).effect
      · next exhausted =>
          rw [if_neg exhausted] at defined
          exact setKmem_setSymrg_effect live ins _ _ _ rfl defined

theorem libkmemCachePoolCreate_effect (os : Os) (proc : ProcRef) (ins : Inst)
    (size align cachePoolId : BitVec 32) :
    MemoryEffect ins proc os (libkmemCachePoolCreate os proc size align cachePoolId).2 := by
  unfold libkmemCachePoolCreate
  split
  · exact (DataStep.refl proc os).effect
  · cases poolIndex cachePoolId with
    | none => exact (DataStep.refl proc os).effect
    | some pool => exact (dataStep_setKmem os proc _).effect

theorem libkmemCacheAlloc_effect {os : Os} {proc : ProcRef} (live : (os.procs proc).isSome = true)
    (ins : Inst) (regIndex cachePoolId : BitVec 32)
    (defined : (libkmemCacheAlloc os proc regIndex cachePoolId).2.fault = false) :
    MemoryEffect ins proc os (libkmemCacheAlloc os proc regIndex cachePoolId).2 := by
  unfold libkmemCacheAlloc at defined ⊢
  split
  · exact (DataStep.refl proc os).effect
  · next guard =>
      rw [if_neg guard] at defined
      cases chosen : poolIndex cachePoolId with
      | none => exact (DataStep.refl proc os).effect
      | some pool =>
          rw [chosen] at defined
          dsimp only at defined ⊢
          cases slotted : kmemSlot os.kmem pool with
          | none => exact (DataStep.refl proc os).effect
          | some slot =>
              rw [slotted] at defined
              have mode : slot.1.modeBit = .kernel := by
                unfold kmemSlot at slotted
                dsimp only at slotted
                split at slotted
                · cases slotted
                · cases slotted
                  rfl
              exact setKmem_setSymrg_effect live ins slot.2 _ slot.1 mode defined

/-! ## Raw system calls -/

theorem libsyscall_effect {os : Os} (sound : os.Sound) {proc : ProcRef}
    (live : (os.procs proc).isSome = true) (ins : Inst) (opcode : ins.opcode = .SYSCALL) :
    MemoryEffect ins proc os
      (libsyscall os proc (ins.arg0.setWidth 32) ins.arg1 ins.arg2 ins.arg3).2 := by
  have own : ∀ mm, (os.setMm proc mm).mm proc = mm := fun mm => Os.mm_setMm_self live mm
  unfold libsyscall syscall
  dsimp only
  split
  · exact (DataStep.refl proc os).effect
  · split
    · next number =>
        unfold sysMemmap
        dsimp only
        cases resolved : schedFindProcByPid os (os.pid proc) with
        | none => exact (DataStep.refl proc os).effect
        | some found =>
            have resolves : os.Resolves proc := by
              rw [Os.Resolves, resolved]
              rfl
            have same := sound.resolve live resolved
            subst same
            dsimp only
            split
            · next operation =>
                refine ⟨?_, fun _ _ _ => rfl, rfl⟩
                rw [own]
                exact .marked _ opcode number operation (vmapPgdMemset_marked _ _ _)
            · split
              · rcases incVmaLimit_cases (sound.memory found) os.mram (asInt ins.arg2) ins.arg3
                  with ⟨_, refused⟩ | ⟨_, grown, left, accepted, growth⟩
                · rw [refused]
                  dsimp only
                  rw [Os.setMm_self]
                  exact (DataStep.refl found os).effect
                · rw [accepted]
                  rcases growth.device with ⟨spare, _, device⟩
                  refine ⟨?_, fun _ _ _ => by rw [device]; rfl, rfl⟩
                  rw [Os.mm_setMram, own]
                  exact .extended grown left opcode resolves growth
              · split
                · have copying := swapCpPage_rest os.mram ins.arg2 os.activeMswp ins.arg3
                  unfold mmSwapPage
                  generalize swapCpPage os.mram ins.arg2 os.activeMswp ins.arg3 = devices at copying ⊢
                  refine ⟨?_, fun phyaddr _ _ => congrFun copying.1 phyaddr, copying.2.2⟩
                  have kept : ((os.setMram devices.1).setActiveMswp devices.2).mram.freeFpList =
                      os.mram.freeFpList := copying.2.1
                  dsimp only
                  rw [kept]
                  exact .idle
                · split
                  · rw [memphyRead_of_random sound.mramRandom]
                    dsimp only
                    rw [if_neg (by decide)]
                    exact ⟨.idle, fun _ _ _ => rfl, rfl⟩
                  · split
                    · next operation =>
                        rw [memphyWrite_of_random sound.mramRandom]
                        refine ⟨.idle, fun phyaddr untouched _ => ?_, rfl⟩
                        have different : phyaddr ≠ ins.arg2 := fun same =>
                          untouched ⟨opcode, number, operation, same.symm⟩
                        exact Function.update_of_ne different _ _
                    · exact (DataStep.refl found os).effect
    · exact (DataStep.refl proc os).effect

/-! ## All instructions -/

theorem dispatch_effect {os : Os} (sound : os.Sound) {proc : ProcRef}
    (live : (os.procs proc).isSome = true) (ins : Inst)
    (defined : (dispatch os proc ins).2.fault = false) :
    MemoryEffect ins proc os (dispatch os proc ins).2 := by
  have unswapped := sound.unswapped proc
  have random := sound.mramRandom
  unfold dispatch at defined ⊢
  cases opcode : ins.opcode with
  | CALC => exact (DataStep.refl proc os).effect
  | ALLOC =>
      rw [opcode] at defined
      exact liballoc_effect sound live ins opcode _ defined
  | FREE => exact libfree_effect sound live ins opcode
  | READ =>
      dsimp only
      have reading := dataStep_libread unswapped random (ins.arg0.setWidth 32) ins.arg1
      split
      · exact (reading.trans (dataStep_setReg _ proc _ _)).effect
      · exact reading.effect
  | WRITE => exact (dataStep_libwrite unswapped random _ _ _).effect
  | KMALLOC =>
      rw [opcode] at defined
      exact libkmemMalloc_effect live ins _ _ defined
  | KMEM_CACHE_CREATE => exact libkmemCachePoolCreate_effect os proc ins _ _ _
  | KMEM_CACHE_ALLOC =>
      rw [opcode] at defined
      exact libkmemCacheAlloc_effect live ins _ _ defined
  | COPY_FROM_USER =>
      dsimp only
      unfold libkmemCopyFromUser
      cases copyRegions os proc (ins.arg0.setWidth 32) (ins.arg1.setWidth 32) with
      | none => exact (DataStep.refl proc os).effect
      | some regions =>
          exact (dataStep_copyFromUserLoop proc _ _ _ _ 0 os unswapped random).effect
  | COPY_TO_USER =>
      dsimp only
      unfold libkmemCopyToUser
      cases copyRegions os proc (ins.arg1.setWidth 32) (ins.arg0.setWidth 32) with
      | none => exact (DataStep.refl proc os).effect
      | some regions =>
          exact (dataStep_copyToUserLoop proc _ _ _ _ 0 os unswapped random).effect
  | SYSCALL => exact libsyscall_effect sound live ins opcode

end Kernel
end Ossim
