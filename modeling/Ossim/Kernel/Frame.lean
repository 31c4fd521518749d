import Ossim.Memory.Growth
import Ossim.Kernel.Cpu

namespace Ossim
namespace Kernel

open Memory

/-!
# What an instruction cannot touch

No memory call moves a process between queues, creates or releases a block,
or changes the program text, the counter, the priority or the process id of a
block.  It changes the memory map of the caller and of the block that the
caller's process id resolves to, and it keeps the shape of both devices.

The frame composes, so each function of the library inherits it from the
calls in its body.  It holds in every state.
-/

/-- The fields of a block that only `run` and the scheduler change. -/
structure Control where
  pid : Nat
  prio : Nat
  code : List Inst
  pc : Nat
  deriving DecidableEq

def Pcb.control (pcb : Pcb) : Control := ⟨pcb.pid, pcb.prio, pcb.code, pcb.pc⟩

def Os.control (os : Os) (proc : ProcRef) : Option Control := (os.procs proc).map Pcb.control

/-- The caller, and the block that the system-call layer finds under its
process id. -/
def Os.Actor (os : Os) (caller proc : ProcRef) : Prop :=
  proc = caller ∨ schedFindProcByPid os (os.pid caller) = some proc

/-- The fields of a device that are fixed when it is opened. -/
structure SameShape (before after : MemphyStruct) : Prop where
  rdmflg : after.rdmflg = before.rdmflg
  storageSz : after.storageSz = before.storageSz
  maxsz : after.maxsz = before.maxsz

structure MemoryFrame (caller : ProcRef) (before after : Os) : Prop where
  sched : after.sched = before.sched
  availPid : after.availPid = before.availPid
  activeMswpId : after.activeMswpId = before.activeMswpId
  freergHeads : after.freergHeads = before.freergHeads
  control : ∀ proc, after.control proc = before.control proc
  others : ∀ proc, ¬ before.Actor caller proc → after.procs proc = before.procs proc
  mram : SameShape before.mram after.mram
  activeMswp : SameShape before.activeMswp after.activeMswp

/-! ## Process lookup -/

/-- The lookup depends on the list and on process ids only. -/
theorem schedFindProcByPid_congr {before after : Os}
    (runningList : after.sched.runningList = before.sched.runningList)
    (pids : ∀ proc, (after.procs proc).map Pcb.pid = (before.procs proc).map Pcb.pid)
    (pid : Nat) : schedFindProcByPid after pid = schedFindProcByPid before pid := by
  have byPid : ∀ os : Os, schedFindProcByPid os pid =
      os.sched.runningList.find? fun proc =>
        match (os.procs proc).map Pcb.pid with
        | none => false
        | some found => found == pid := by
    intro os
    unfold schedFindProcByPid
    congr 1
    funext proc
    cases os.procs proc <;> rfl
  rw [byPid after, byPid before, runningList]
  simp only [pids]

theorem pids_of_control {before after : Os} {proc : ProcRef}
    (control : after.control proc = before.control proc) :
    (after.procs proc).map Pcb.pid = (before.procs proc).map Pcb.pid := by
  have same := congrArg (Option.map Control.pid) control
  rw [Os.control, Os.control, Option.map_map, Option.map_map] at same
  exact same

theorem pid_eq_control (os : Os) (proc : ProcRef) :
    os.pid proc = ((os.control proc).map Control.pid).getD 0 := by
  unfold Os.pid Os.control
  cases os.procs proc <;> rfl

theorem pid_congr {before after : Os} {proc : ProcRef}
    (control : after.control proc = before.control proc) : after.pid proc = before.pid proc := by
  rw [pid_eq_control, pid_eq_control, control]

theorem isSome_of_control {before after : Os} {proc : ProcRef}
    (control : after.control proc = before.control proc) :
    (after.procs proc).isSome = (before.procs proc).isSome := by
  have same := congrArg Option.isSome control
  rw [Os.control, Os.control, Option.isSome_map, Option.isSome_map] at same
  exact same

/-! ## Composition -/

theorem SameShape.refl (device : MemphyStruct) : SameShape device device := ⟨rfl, rfl, rfl⟩

theorem SameShape.trans {first second third : MemphyStruct} (left : SameShape first second)
    (right : SameShape second third) : SameShape first third :=
  ⟨right.rdmflg.trans left.rdmflg, right.storageSz.trans left.storageSz,
    right.maxsz.trans left.maxsz⟩

theorem MemoryFrame.refl (caller : ProcRef) (os : Os) : MemoryFrame caller os os :=
  ⟨rfl, rfl, rfl, rfl, fun _ => rfl, fun _ _ => rfl, SameShape.refl _, SameShape.refl _⟩

theorem MemoryFrame.pid {caller : ProcRef} {before after : Os}
    (frame : MemoryFrame caller before after) (proc : ProcRef) :
    after.pid proc = before.pid proc :=
  pid_congr (frame.control proc)

theorem MemoryFrame.schedFindProcByPid {caller : ProcRef} {before after : Os}
    (frame : MemoryFrame caller before after) (pid : Nat) :
    schedFindProcByPid after pid = schedFindProcByPid before pid :=
  schedFindProcByPid_congr (congrArg Sched.runningList frame.sched)
    (fun proc => pids_of_control (frame.control proc)) pid

theorem MemoryFrame.actor_iff {caller : ProcRef} {before after : Os}
    (frame : MemoryFrame caller before after) (proc : ProcRef) :
    after.Actor caller proc ↔ before.Actor caller proc := by
  rw [Os.Actor, Os.Actor, frame.pid, frame.schedFindProcByPid]

theorem MemoryFrame.trans {caller : ProcRef} {first second third : Os}
    (left : MemoryFrame caller first second) (right : MemoryFrame caller second third) :
    MemoryFrame caller first third where
  sched := right.sched.trans left.sched
  availPid := right.availPid.trans left.availPid
  activeMswpId := right.activeMswpId.trans left.activeMswpId
  freergHeads := right.freergHeads.trans left.freergHeads
  control := fun proc => (right.control proc).trans (left.control proc)
  others := fun proc outside =>
    (right.others proc (fun actor => outside ((left.actor_iff proc).mp actor))).trans
      (left.others proc outside)
  mram := left.mram.trans right.mram
  activeMswp := left.activeMswp.trans right.activeMswp

/-- The memory map of a process that no call can reach is untouched. -/
theorem MemoryFrame.mm {caller proc : ProcRef} {before after : Os}
    (frame : MemoryFrame caller before after) (outside : ¬ before.Actor caller proc) :
    after.mm proc = before.mm proc :=
  Os.mm_congr (frame.others proc outside) frame.freergHeads

/-! ## Single assignments -/

theorem frame_updatePcb {os : Os} {caller proc : ProcRef} (actor : os.Actor caller proc)
    (assign : Pcb → Pcb) (kept : ∀ pcb, (assign pcb).control = pcb.control) :
    MemoryFrame caller os (os.updatePcb proc assign) where
  sched := rfl
  availPid := rfl
  activeMswpId := rfl
  freergHeads := rfl
  control := by
    intro other
    unfold Os.control Os.updatePcb
    by_cases same : other = proc
    · subst same
      cases os.procs other <;> simp [kept]
    · simp [same]
  others := by
    intro other outside
    have different : other ≠ proc := by
      rintro rfl
      exact outside actor
    simp [Os.updatePcb, different]
  mram := SameShape.refl _
  activeMswp := SameShape.refl _

theorem frame_setMm {os : Os} {caller proc : ProcRef} (actor : os.Actor caller proc)
    (mm : MmStruct) : MemoryFrame caller os (os.setMm proc mm) :=
  frame_updatePcb actor _ fun _ => rfl

theorem frame_setMm_self (os : Os) (caller : ProcRef) (mm : MmStruct) :
    MemoryFrame caller os (os.setMm caller mm) :=
  frame_setMm (Or.inl rfl) mm

theorem frame_raise (os : Os) (caller : ProcRef) : MemoryFrame caller os os.raise :=
  ⟨rfl, rfl, rfl, rfl, fun _ => rfl, fun _ _ => rfl, SameShape.refl _, SameShape.refl _⟩

theorem frame_setSymrg (os : Os) (caller : ProcRef) (rgid : Int) (rg : VmRgStruct) :
    MemoryFrame caller os (os.setSymrg caller rgid rg) := by
  unfold Os.setSymrg
  cases getSymrgByid rgid with
  | none => exact frame_raise os caller
  | some slot => exact frame_setMm (Or.inl rfl) _

theorem frame_setReg (os : Os) (caller : ProcRef) (index value : Addr) :
    MemoryFrame caller os (os.setReg caller index value) := by
  unfold Os.setReg
  by_cases inside : index.toNat < 10
  · rw [dif_pos inside]
    exact frame_updatePcb (Or.inl rfl) _ fun _ => rfl
  · rw [dif_neg inside]
    exact frame_raise os caller

theorem frame_setKmem (os : Os) (caller : ProcRef) (kmem : Kmem) :
    MemoryFrame caller os (os.setKmem kmem) :=
  ⟨rfl, rfl, rfl, rfl, fun _ => rfl, fun _ _ => rfl, SameShape.refl _, SameShape.refl _⟩

theorem frame_setMram (os : Os) (caller : ProcRef) {mram : MemphyStruct}
    (shape : SameShape os.mram mram) : MemoryFrame caller os (os.setMram mram) :=
  ⟨rfl, rfl, rfl, rfl, fun _ => rfl, fun _ _ => rfl, shape, SameShape.refl _⟩

theorem frame_setActiveMswp (os : Os) (caller : ProcRef) {mswp : MemphyStruct}
    (shape : SameShape os.activeMswp mswp) : MemoryFrame caller os (os.setActiveMswp mswp) :=
  ⟨rfl, rfl, rfl, rfl, fun _ => rfl, fun _ _ => rfl, SameShape.refl _, shape⟩

/-! ## Devices -/

private theorem shape_memphyRead (mp : MemphyStruct) (addr : Addr) :
    SameShape mp (memphyRead mp addr).2.2 := by
  unfold memphyRead memphySeqRead
  split
  · exact ⟨rfl, rfl, rfl⟩
  · exact ⟨rfl, rfl, rfl⟩

private theorem shape_memphyWrite (mp : MemphyStruct) (addr : Addr) (data : Byte) :
    SameShape mp (memphyWrite mp addr data).2 := by
  unfold memphyWrite memphySeqWrite
  split
  · exact ⟨rfl, rfl, rfl⟩
  · exact ⟨rfl, rfl, rfl⟩

private theorem shape_memphyGetFreefp {mp taken : MemphyStruct} {fpn : Addr}
    (got : memphyGetFreefp mp = some (fpn, taken)) : SameShape mp taken := by
  unfold memphyGetFreefp at got
  cases free : mp.freeFpList with
  | nil =>
      rw [free] at got
      cases got
  | cons head rest =>
      rw [free] at got
      cases got
      exact ⟨rfl, rfl, rfl⟩

private theorem shape_memphyPutFreefp (mp : MemphyStruct) (fpn : Addr) :
    SameShape mp (memphyPutFreefp mp fpn) := ⟨rfl, rfl, rfl⟩

private theorem shape_swapCpPage (mpsrc : MemphyStruct) (srcfpn : Addr) (mpdst : MemphyStruct)
    (dstfpn : Addr) :
    SameShape mpsrc (swapCpPage mpsrc srcfpn mpdst dstfpn).1 ∧
      SameShape mpdst (swapCpPage mpsrc srcfpn mpdst dstfpn).2 := by
  unfold swapCpPage
  induction List.range 256 generalizing mpsrc mpdst with
  | nil => exact ⟨SameShape.refl _, SameShape.refl _⟩
  | cons cellidx rest inductionHypothesis =>
      rw [List.foldl_cons]
      have later := inductionHypothesis
        (swapCpCell srcfpn dstfpn (mpsrc, mpdst) cellidx).1
        (swapCpCell srcfpn dstfpn (mpsrc, mpdst) cellidx).2
      exact ⟨(shape_memphyRead mpsrc _).trans later.1, (shape_memphyWrite mpdst _ _).trans later.2⟩

private theorem shape_incVmaLimit (mm : MmStruct) (mram : MemphyStruct) (vmaid : Int)
    (incSz : Addr) : SameShape mram (incVmaLimit mm mram vmaid incSz).2.2 := by
  have shapeMap : ∀ (mm : MmStruct) (mapstart : Addr) (incpgnum : Int),
      SameShape mram (vmMapRange mm mram mapstart incpgnum).2.2 := by
    intro mm mapstart incpgnum
    rw [vmMapRange, allocPagesRange_eq]
    by_cases enough : incpgnum.toNat ≤ mram.freeFpList.length
    · rw [if_pos enough]
      dsimp only
      rw [if_neg (by decide)]
      rcases (vmapPageLoop_rest (mapstart / PAGING_PAGESZ) incpgnum 0
        (mram.freeFpList.take incpgnum.toNat) mm
        { mram with freeFpList := mram.freeFpList.drop incpgnum.toNat }).2.2 with
        ⟨left, _, device⟩
      rw [vmapPageRange, device]
      exact ⟨rfl, rfl, rfl⟩
    · rw [if_neg enough]
      exact ⟨rfl, rfl, rfl⟩
  unfold incVmaLimit
  cases getVmaByNum mm vmaid with
  | none => exact SameShape.refl _
  | some found =>
      dsimp only
      split
      · exact SameShape.refl _
      · split
        · exact shapeMap _ _ _
        · exact shapeMap _ _ _

/-! ## Functions of the library -/

theorem frame_mmSwapPage (os : Os) (caller : ProcRef) (vicfpn swpfpn : Addr) :
    MemoryFrame caller os (mmSwapPage os vicfpn swpfpn).2 := by
  have shapes := shape_swapCpPage os.mram vicfpn os.activeMswp swpfpn
  unfold mmSwapPage
  generalize swapCpPage os.mram vicfpn os.activeMswp swpfpn = devices at shapes ⊢
  exact (frame_setMram os caller shapes.1).trans (frame_setActiveMswp _ caller shapes.2)

theorem frame_syscall (os : Os) (caller : ProcRef) (nr : BitVec 32) (regs : ScRegs) :
    MemoryFrame caller os (syscall os (os.pid caller) nr regs).2.2 := by
  unfold syscall
  split
  · exact MemoryFrame.refl caller os
  · split
    · unfold sysMemmap
      cases found : schedFindProcByPid os (os.pid caller) with
      | none => exact MemoryFrame.refl caller os
      | some proc =>
          have actor : os.Actor caller proc := Or.inr found
          dsimp only
          split
          · exact frame_setMm actor _
          · split
            · refine (frame_setMm actor _).trans (frame_setMram _ caller ?_)
              exact shape_incVmaLimit _ _ _ _
            · split
              · have swapping := frame_mmSwapPage os caller regs.a2 regs.a3
                generalize mmSwapPage os regs.a2 regs.a3 = outcome at swapping ⊢
                exact swapping
              · split
                · have shape := shape_memphyRead os.mram regs.a2
                  split
                  · exact frame_setMram os caller shape
                  · exact frame_setMram os caller shape
                · split
                  · exact frame_setMram os caller (shape_memphyWrite os.mram _ _)
                  · exact MemoryFrame.refl caller os
    · exact MemoryFrame.refl caller os

theorem frame_pgGetpage (os : Os) (pgn : Int) (caller : ProcRef) :
    MemoryFrame caller os (pgGetpage os pgn caller).2.2 := by
  have self : ∀ os : Os, os.Actor caller caller := fun _ => Or.inl rfl
  unfold pgGetpage
  dsimp only
  split
  · exact MemoryFrame.refl caller os
  · split
    · exact MemoryFrame.refl caller os
    · cases findVictimPage (os.mm caller) with
      | none => exact MemoryFrame.refl caller os
      | some victim =>
          rcases victim with ⟨vicpgn, unlinked⟩
          dsimp only
          have picked := frame_setMm (self os) unlinked
          generalize os.setMm caller unlinked = chosen at picked ⊢
          cases got : memphyGetFreefp chosen.activeMswp with
          | none => exact picked.trans (frame_setMm (self _) _)
          | some slot =>
              rcases slot with ⟨swpfpn, taken⟩
              dsimp only
              have reserved := picked.trans
                (frame_setActiveMswp chosen caller (shape_memphyGetFreefp got))
              generalize chosen.setActiveMswp taken = holding at reserved ⊢
              have copied := reserved.trans (frame_syscall holding caller 17
                ⟨ofInt SYSMEM_SWP_OP, pagingFpn (pteGetEntry (holding.mm caller) vicpgn), swpfpn⟩)
              generalize syscall holding (holding.pid caller) 17
                ⟨ofInt SYSMEM_SWP_OP, pagingFpn (pteGetEntry (holding.mm caller) vicpgn), swpfpn⟩
                = outcome at copied ⊢
              rcases outcome with ⟨ret, regs, evicted⟩
              dsimp only at copied ⊢
              split
              · have released := copied.trans
                  (frame_setActiveMswp evicted caller (shape_memphyPutFreefp _ swpfpn))
                exact released.trans (frame_setMm (self _) _)
              · have shapes := shape_swapCpPage evicted.activeMswp
                  (pagingSwp (pteGetEntry (os.mm caller) (ofInt pgn))) evicted.mram
                  (pagingFpn (pteGetEntry (holding.mm caller) vicpgn))
                generalize swapCpPage evicted.activeMswp
                  (pagingSwp (pteGetEntry (os.mm caller) (ofInt pgn))) evicted.mram
                  (pagingFpn (pteGetEntry (holding.mm caller) vicpgn)) = devices at shapes ⊢
                rcases devices with ⟨mswp, mram⟩
                dsimp only at shapes ⊢
                have loaded := (copied.trans (frame_setMram evicted caller shapes.2)).trans
                  (frame_setActiveMswp (evicted.setMram mram) caller
                    (shapes.1.trans (shape_memphyPutFreefp mswp
                      (pagingSwp (pteGetEntry (os.mm caller) (ofInt pgn))))))
                exact loaded.trans (frame_setMm (self _) _)

theorem frame_pgGetval (os : Os) (addr : Addr) (caller : ProcRef) :
    MemoryFrame caller os (pgGetval os addr caller).2.2 := by
  unfold pgGetval
  dsimp only
  have paging := frame_pgGetpage os (asInt (addr / PAGING_PAGESZ)) caller
  generalize pgGetpage os (asInt (addr / PAGING_PAGESZ)) caller = outcome at paging ⊢
  rcases outcome with ⟨ret, fpn, paged⟩
  dsimp only at paging ⊢
  split
  · exact paging
  · have called := frame_syscall paged caller 17
      ⟨ofInt SYSMEM_IO_READ, fpn * PAGING_PAGESZ + addr % PAGING_PAGESZ, 0⟩
    split
    · exact paging.trans called
    · exact paging.trans called

theorem frame_pgSetval (os : Os) (addr : Addr) (value : Byte) (caller : ProcRef) :
    MemoryFrame caller os (pgSetval os addr value caller).2 := by
  unfold pgSetval
  dsimp only
  have paging := frame_pgGetpage os (asInt (addr / PAGING_PAGESZ)) caller
  generalize pgGetpage os (asInt (addr / PAGING_PAGESZ)) caller = outcome at paging ⊢
  rcases outcome with ⟨ret, fpn, paged⟩
  dsimp only at paging ⊢
  split
  · exact paging
  · have called := frame_syscall paged caller 17
      ⟨ofInt SYSMEM_IO_WRITE, fpn * PAGING_PAGESZ + addr % PAGING_PAGESZ, value.signExtend 64⟩
    split
    · exact paging.trans called
    · exact paging.trans called

theorem frame_read (os : Os) (caller : ProcRef) (rgid : Int) (offset : Addr) :
    MemoryFrame caller os (read os caller rgid offset).2.2 := by
  unfold read
  cases resolveRgAddr os caller rgid offset with
  | none => exact MemoryFrame.refl caller os
  | some addr => exact frame_pgGetval os addr caller

theorem frame_libread (os : Os) (proc : ProcRef) (source : BitVec 32) (offset : Addr) :
    MemoryFrame proc os (libread os proc source offset).2.2 :=
  frame_read os proc source.toInt offset

theorem frame_libwrite (os : Os) (proc : ProcRef) (data : Byte) (destination : BitVec 32)
    (offset : Addr) : MemoryFrame proc os (libwrite os proc data destination offset).2 := by
  unfold libwrite write
  cases resolveRgAddr os proc destination.toInt offset with
  | none => exact MemoryFrame.refl proc os
  | some addr => exact frame_pgSetval os addr data proc

theorem frame_alloc (os : Os) (caller : ProcRef) (vmaid rgid : Int) (size : Addr) :
    MemoryFrame caller os (alloc os caller vmaid rgid size).2 := by
  have self : ∀ os : Os, os.Actor caller caller := fun _ => Or.inl rfl
  unfold alloc
  cases getVmaByNum (os.mm caller) vmaid with
  | none => exact MemoryFrame.refl caller os
  | some found =>
      rcases getFreeVmrgArea (os.mm caller) vmaid (asInt size) with ⟨_ | newrg, mm⟩
      · dsimp only
        have searched := frame_setMm (self os) mm
        generalize os.setMm caller mm = before at searched ⊢
        have called := searched.trans (frame_syscall before caller 17
          ⟨ofInt SYSMEM_INC_OP, ofInt vmaid, pagingPageAlignsz size⟩)
        split
        · exact called
        · exact called.trans (frame_setSymrg _ caller rgid _)
      · exact (frame_setMm (self os) mm).trans (frame_setSymrg _ caller rgid newrg)

theorem frame_liballoc (os : Os) (proc : ProcRef) (size : Addr) (regIndex : BitVec 32) :
    MemoryFrame proc os (liballoc os proc size regIndex).2 := by
  unfold liballoc
  have allocating := frame_alloc os proc 0 regIndex.toInt size
  generalize alloc os proc 0 regIndex.toInt size = outcome at allocating ⊢
  rcases outcome with ⟨val, done⟩
  dsimp only at allocating ⊢
  split
  · exact allocating
  · exact allocating.trans (frame_setMram _ proc ⟨rfl, rfl, rfl⟩)

theorem frame_free (os : Os) (caller : ProcRef) (vmaid rgid : Int) :
    MemoryFrame caller os (free os caller vmaid rgid).2 := by
  unfold free
  cases getSymrgByid rgid with
  | none => exact MemoryFrame.refl caller os
  | some slot =>
      dsimp only
      have dropping := frame_setSymrg os caller rgid VmRgStruct.zero
      split
      · exact MemoryFrame.refl caller os
      · split
        · exact dropping
        · exact dropping.trans (frame_setMm (Or.inl rfl) _)

theorem frame_libfree (os : Os) (proc : ProcRef) (regIndex : BitVec 32) :
    MemoryFrame proc os (libfree os proc regIndex).2 := by
  unfold libfree
  have freeing := frame_free os proc 0 regIndex.toInt
  generalize free os proc 0 regIndex.toInt = outcome at freeing ⊢
  rcases outcome with ⟨val, done⟩
  dsimp only at freeing ⊢
  split
  · exact freeing
  · exact freeing

theorem frame_libkmemMalloc (os : Os) (caller : ProcRef) (size regIndex : BitVec 32) :
    MemoryFrame caller os (libkmemMalloc os caller size regIndex).2 := by
  unfold libkmemMalloc
  split
  · exact MemoryFrame.refl caller os
  · dsimp only
    have carving := frame_setKmem os caller (kmemCarve os.kmem size.toInt).2
    split
    · exact carving
    · exact carving.trans (frame_setSymrg _ caller _ _)

theorem frame_libkmemCachePoolCreate (os : Os) (caller : ProcRef)
    (size align cachePoolId : BitVec 32) :
    MemoryFrame caller os (libkmemCachePoolCreate os caller size align cachePoolId).2 := by
  unfold libkmemCachePoolCreate
  split
  · exact MemoryFrame.refl caller os
  · cases poolIndex cachePoolId with
    | none => exact MemoryFrame.refl caller os
    | some pool => exact frame_setKmem os caller _

theorem frame_libkmemCacheAlloc (os : Os) (caller : ProcRef) (regIndex cachePoolId : BitVec 32) :
    MemoryFrame caller os (libkmemCacheAlloc os caller regIndex cachePoolId).2 := by
  unfold libkmemCacheAlloc
  split
  · exact MemoryFrame.refl caller os
  · cases poolIndex cachePoolId with
    | none => exact MemoryFrame.refl caller os
    | some pool =>
        dsimp only
        cases kmemSlot os.kmem pool with
        | none => exact MemoryFrame.refl caller os
        | some slot =>
            exact (frame_setKmem os caller slot.2).trans (frame_setSymrg _ caller _ slot.1)

/-- A copy into the pool is a step of every kind that reading a byte and filling
a byte of the pool are steps of. -/
theorem step_copyFromUserLoop {Step : Os → Os → Prop} (Ready : Os → Prop) {caller : ProcRef}
    (refl : ∀ os, Step os os)
    (trans : ∀ {os mid after}, Step os mid → Step mid after → Step os after)
    (ready : ∀ {os after}, Step os after → Ready os → Ready after)
    (fetch : ∀ os addr, Ready os → Step os (pgGetval os addr caller).2.2)
    (fill : ∀ os kmem, Step os (os.setKmem kmem))
    (src dst : VmRgStruct) (offset : BitVec 32) (remaining i : Nat) {os : Os} (start : Ready os) :
    Step os (copyFromUserLoop caller src dst offset remaining i os).2 := by
  induction remaining generalizing i os with
  | zero => exact refl os
  | succ remaining inductionHypothesis =>
      unfold copyFromUserLoop
      have fetching := fetch os (src.rgStart + offset.setWidth 64 + BitVec.ofNat 64 i) start
      generalize pgGetval os (src.rgStart + offset.setWidth 64 + BitVec.ofNat 64 i) caller =
        outcome at fetching ⊢
      rcases outcome with ⟨ret, b, fetched⟩
      dsimp only at fetching ⊢
      split
      · exact fetching
      · split
        · exact fetching
        · have filled := fun kmem => trans fetching (fill fetched kmem)
          exact trans (filled _) (inductionHypothesis (i + 1) (ready (filled _) start))

/-- A copy out of the pool is a step of every kind that writing a byte is a step
of. -/
theorem step_copyToUserLoop {Step : Os → Os → Prop} (Ready : Os → Prop) {caller : ProcRef}
    (refl : ∀ os, Step os os)
    (trans : ∀ {os mid after}, Step os mid → Step mid after → Step os after)
    (ready : ∀ {os after}, Step os after → Ready os → Ready after)
    (store : ∀ os addr b, Ready os → Step os (pgSetval os addr b caller).2)
    (src dst : VmRgStruct) (offset : BitVec 32) (remaining i : Nat) {os : Os} (start : Ready os) :
    Step os (copyToUserLoop caller src dst offset remaining i os).2 := by
  induction remaining generalizing i os with
  | zero => exact refl os
  | succ remaining inductionHypothesis =>
      unfold copyToUserLoop
      rcases kmemReadByte os.kmem (src.rgStart + offset.setWidth 64 + BitVec.ofNat 64 i) with
        ⟨ret, b⟩
      dsimp only
      split
      · exact refl os
      · have storing := store os (dst.rgStart + offset.setWidth 64 + BitVec.ofNat 64 i) b start
        generalize pgSetval os (dst.rgStart + offset.setWidth 64 + BitVec.ofNat 64 i) b caller =
          outcome at storing ⊢
        rcases outcome with ⟨status, stored⟩
        dsimp only at storing ⊢
        split
        · exact storing
        · exact trans storing (inductionHypothesis (i + 1) (ready storing start))

theorem frame_copyFromUserLoop (caller : ProcRef) (src dst : VmRgStruct) (offset : BitVec 32)
    (remaining i : Nat) (os : Os) :
    MemoryFrame caller os (copyFromUserLoop caller src dst offset remaining i os).2 := by
  apply step_copyFromUserLoop (fun _ => True) (MemoryFrame.refl caller) MemoryFrame.trans
  · exact fun _ _ => trivial
  · exact fun os addr _ => frame_pgGetval os addr caller
  · exact fun os kmem => frame_setKmem os caller kmem
  · trivial

theorem frame_copyToUserLoop (caller : ProcRef) (src dst : VmRgStruct) (offset : BitVec 32)
    (remaining i : Nat) (os : Os) :
    MemoryFrame caller os (copyToUserLoop caller src dst offset remaining i os).2 := by
  apply step_copyToUserLoop (fun _ => True) (MemoryFrame.refl caller) MemoryFrame.trans
  · exact fun _ _ => trivial
  · exact fun os addr b _ => frame_pgSetval os addr b caller
  · trivial

/-! ## Instructions -/

/-- The dispatch of every opcode stays inside the frame. -/
theorem frame_dispatch (os : Os) (proc : ProcRef) (ins : Inst) :
    MemoryFrame proc os (dispatch os proc ins).2 := by
  unfold dispatch
  cases ins.opcode with
  | CALC => exact MemoryFrame.refl proc os
  | ALLOC => exact frame_liballoc os proc _ _
  | FREE => exact frame_libfree os proc _
  | READ =>
      dsimp only
      have reading := frame_libread os proc (ins.arg0.setWidth 32) ins.arg1
      split
      · exact reading.trans (frame_setReg _ proc _ _)
      · exact reading
  | WRITE => exact frame_libwrite os proc _ _ _
  | KMALLOC => exact frame_libkmemMalloc os proc _ _
  | KMEM_CACHE_CREATE => exact frame_libkmemCachePoolCreate os proc _ _ _
  | KMEM_CACHE_ALLOC => exact frame_libkmemCacheAlloc os proc _ _
  | COPY_FROM_USER =>
      dsimp only
      unfold libkmemCopyFromUser
      cases copyRegions os proc (ins.arg0.setWidth 32) (ins.arg1.setWidth 32) with
      | none => exact MemoryFrame.refl proc os
      | some regions => exact frame_copyFromUserLoop proc _ _ _ _ 0 os
  | COPY_TO_USER =>
      dsimp only
      unfold libkmemCopyToUser
      cases copyRegions os proc (ins.arg1.setWidth 32) (ins.arg0.setWidth 32) with
      | none => exact MemoryFrame.refl proc os
      | some regions => exact frame_copyToUserLoop proc _ _ _ _ 0 os
  | SYSCALL => exact frame_syscall os proc _ _

end Kernel
end Ossim
