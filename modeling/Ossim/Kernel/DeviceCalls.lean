import Ossim.Kernel.Copies

namespace Ossim
namespace Kernel

open Memory CopyLoop

/-!
# System calls on the devices

The access layer makes three system calls: a page out, and the reading and
writing of one cell.  They look a block up under the process id of the caller,
but they work on the devices alone.  Which block is found does not matter, only
whether one is found, and no field of any block changes.

The running list can therefore be exchanged under a copy, as long as the caller
is found or missed as before.
-/

/-- The operations that work on the devices. -/
def DeviceCall (regs : ScRegs) : Prop :=
  asInt regs.a1 = SYSMEM_SWP_OP ∨ asInt regs.a1 = SYSMEM_IO_READ ∨
    asInt regs.a1 = SYSMEM_IO_WRITE

/-- A device call has the same effect on any two machines with the same devices
on which the process id is found or missed alike. -/
theorem syscall_device (os : Os) (pid : Nat) {regs : ScRegs} (device : DeviceCall regs) :
    ∃ ret out mram mswp, ∀ other : Os, other.mram = os.mram → other.activeMswp = os.activeMswp →
      (schedFindProcByPid other pid).isSome = (schedFindProcByPid os pid).isSome →
      syscall other pid 17 regs = (ret, out, (other.setMram mram).setActiveMswp mswp) := by
  cases looked : schedFindProcByPid os pid with
  | none =>
      refine ⟨-1, regs, os.mram, os.activeMswp, fun other mram mswp found => ?_⟩
      have missing : schedFindProcByPid other pid = none := by
        rw [Option.isSome_none, Option.isSome_eq_false_iff, Option.isNone_iff_eq_none] at found
        exact found
      rw [syscall, if_neg (by decide), if_pos rfl, sysMemmap, missing, ← mram, ← mswp]
      rfl
  | some proc =>
      have present : ∀ other : Os, (schedFindProcByPid other pid).isSome =
          (some proc : Option ProcRef).isSome → ∃ found, schedFindProcByPid other pid = some found :=
        fun other found => Option.isSome_iff_exists.mp found
      rcases device with operation | operation | operation
      · refine ⟨0, regs, (swapCpPage os.mram regs.a2 os.activeMswp regs.a3).1,
          (swapCpPage os.mram regs.a2 os.activeMswp regs.a3).2, fun other mram mswp found => ?_⟩
        rcases present other found with ⟨block, lookup⟩
        rw [syscall, if_neg (by decide), if_pos rfl, sysMemmap, lookup]
        simp only [operation, mmSwapPage, mram, mswp]
        rfl
      · generalize outcome : memphyRead os.mram regs.a2 = read
        rcases read with ⟨ret, value, mram⟩
        by_cases failed : ret ≠ 0
        · refine ⟨-1, regs, mram, os.activeMswp, fun other same mswp found => ?_⟩
          rcases present other found with ⟨block, lookup⟩
          rw [syscall, if_neg (by decide), if_pos rfl, sysMemmap, lookup]
          simp only [operation, same, outcome, if_pos failed, ← mswp]
          rfl
        · refine ⟨0, { regs with a3 := value.signExtend 64 }, mram, os.activeMswp,
            fun other same mswp found => ?_⟩
          rcases present other found with ⟨block, lookup⟩
          rw [syscall, if_neg (by decide), if_pos rfl, sysMemmap, lookup]
          simp only [operation, same, outcome, if_neg failed, ← mswp]
          rfl
      · generalize outcome : memphyWrite os.mram regs.a2 (regs.a3.setWidth 8) = written
        rcases written with ⟨ret, mram⟩
        refine ⟨ret, regs, mram, os.activeMswp, fun other same mswp found => ?_⟩
        rcases present other found with ⟨block, lookup⟩
        rw [syscall, if_neg (by decide), if_pos rfl, sysMemmap, lookup]
        simp only [operation, same, outcome, ← mswp]
        rfl

theorem deviceCall_swap (vicfpn swpfpn : Addr) :
    DeviceCall ⟨ofInt SYSMEM_SWP_OP, vicfpn, swpfpn⟩ :=
  Or.inl (show asInt (ofInt SYSMEM_SWP_OP) = SYSMEM_SWP_OP by decide)

theorem deviceCall_ioRead (phyaddr : Addr) : DeviceCall ⟨ofInt SYSMEM_IO_READ, phyaddr, 0⟩ :=
  Or.inr (Or.inl (show asInt (ofInt SYSMEM_IO_READ) = SYSMEM_IO_READ by decide))

theorem deviceCall_ioWrite (phyaddr data : Addr) :
    DeviceCall ⟨ofInt SYSMEM_IO_WRITE, phyaddr, data⟩ :=
  Or.inr (Or.inr (show asInt (ofInt SYSMEM_IO_WRITE) = SYSMEM_IO_WRITE by decide))

/-! ## The symbol tables -/

/-- The symbol tables of all processes are the same. -/
def SameTables (before after : Os) : Prop :=
  ∀ proc, (after.mm proc).symrgtbl = (before.mm proc).symrgtbl

theorem SameTables.trans {first second third : Os} (left : SameTables first second)
    (right : SameTables second third) : SameTables first third :=
  fun proc => (right proc).trans (left proc)

theorem sameTables_setMm {os : Os} {caller : ProcRef} {mm : MmStruct}
    (same : mm.symrgtbl = (os.mm caller).symrgtbl) : SameTables os (os.setMm caller mm) := by
  intro proc
  by_cases own : proc = caller
  · rw [own]
    cases found : os.procs caller with
    | none =>
        have dead : (os.setMm caller mm).procs caller = none := by
          simp [Os.setMm, Os.updatePcb, found]
        rw [Os.mm, dead, Os.mm, found]
        rfl
    | some pcb =>
        rw [Os.mm_setMm_self (by rw [found]; rfl)]
        exact same
  · rw [Os.mm_setMm_of_ne own]

theorem symrgtbl_pteStore (mm : MmStruct) (pgn : Addr) (edit : Addr → Addr) :
    (pteStore mm pgn edit).2.symrgtbl = mm.symrgtbl := by
  rcases pteStore_cases mm pgn edit with ⟨_, stored⟩ | ⟨_, edited, stored, change⟩
  · rw [stored]
  · rw [stored]
    exact change.symrgtbl

theorem sameTables_syscall {os : Os} (pid : Nat) {regs : ScRegs} (device : DeviceCall regs) :
    SameTables os (syscall os pid 17 regs).2.2 := by
  rcases syscall_device os pid device with ⟨ret, out, mram, mswp, answer⟩
  rw [answer os rfl rfl rfl]
  exact fun proc => rfl

theorem sameTables_pgGetpage (os : Os) (pgn : Int) (caller : ProcRef) :
    SameTables os (pgGetpage os pgn caller).2.2 := by
  unfold pgGetpage
  dsimp only
  split
  · exact fun proc => rfl
  · split
    · exact fun proc => rfl
    · unfold findVictimPage
      cases (os.mm caller).fifoPgn.getLast? with
      | none => exact fun proc => rfl
      | some vicpgn =>
          dsimp only
          have unlinked : SameTables os (os.setMm caller
              { os.mm caller with fifoPgn := (os.mm caller).fifoPgn.dropLast }) :=
            sameTables_setMm rfl
          generalize os.setMm caller
            { os.mm caller with fifoPgn := (os.mm caller).fifoPgn.dropLast } = picked at unlinked ⊢
          cases memphyGetFreefp picked.activeMswp with
          | none => exact unlinked.trans (sameTables_setMm rfl)
          | some slot =>
              rcases slot with ⟨swpfpn, taken⟩
              dsimp only
              have reserved : SameTables os (picked.setActiveMswp taken) := unlinked
              generalize picked.setActiveMswp taken = holding at reserved ⊢
              have called := reserved.trans (sameTables_syscall (holding.pid caller)
                (deviceCall_swap (pagingFpn (pteGetEntry (holding.mm caller) vicpgn)) swpfpn))
              generalize syscall holding (holding.pid caller) 17
                ⟨ofInt SYSMEM_SWP_OP, pagingFpn (pteGetEntry (holding.mm caller) vicpgn), swpfpn⟩
                = outcome at called ⊢
              rcases outcome with ⟨ret, regs, evicted⟩
              dsimp only at called ⊢
              split
              · have released : SameTables os
                    (evicted.setActiveMswp (memphyPutFreefp evicted.activeMswp swpfpn)) := called
                exact released.trans (sameTables_setMm rfl)
              · generalize swapCpPage evicted.activeMswp
                  (pagingSwp (pteGetEntry (os.mm caller) (ofInt pgn))) evicted.mram
                  (pagingFpn (pteGetEntry (holding.mm caller) vicpgn)) = devices
                rcases devices with ⟨mswp, mram⟩
                have loaded : SameTables os ((evicted.setMram mram).setActiveMswp
                    (memphyPutFreefp mswp (pagingSwp (pteGetEntry (os.mm caller) (ofInt pgn))))) :=
                  called
                refine loaded.trans (sameTables_setMm ?_)
                exact (symrgtbl_pteStore _ _ _).trans (symrgtbl_pteStore _ _ _)

theorem sameTables_pgGetval (os : Os) (addr : Addr) (caller : ProcRef) :
    SameTables os (pgGetval os addr caller).2.2 := by
  have paging := sameTables_pgGetpage os (asInt (addr / PAGING_PAGESZ)) caller
  unfold pgGetval
  dsimp only
  split
  · exact paging
  · split <;> exact paging.trans (sameTables_syscall _ (deviceCall_ioRead _))

/-! ## Another running list -/

/-- A state and the same state with another running list, on which the caller
is found or missed alike. -/
def FoundAlike (os : Os) (caller : ProcRef) (sched : Sched) : Prop :=
  (schedFindProcByPid (os.setSched sched) (os.pid caller)).isSome =
    (schedFindProcByPid os (os.pid caller)).isSome

section Relisted

variable {os : Os} {caller : ProcRef} {sched : Sched}

/-- Accesses leave the process table and the running list alone. -/
theorem FoundAlike.frame {after : Os} (alike : FoundAlike os caller sched)
    (frame : MemoryFrame caller os after) : FoundAlike after caller sched := by
  have pids : ∀ proc, ((after.setSched sched).procs proc).map Pcb.pid =
      ((os.setSched sched).procs proc).map Pcb.pid := fun proc =>
    pids_of_control (frame.control proc)
  have list : (after.setSched sched).sched.runningList =
      (os.setSched sched).sched.runningList := rfl
  have lookup := schedFindProcByPid_congr list pids (os.pid caller)
  rw [FoundAlike, frame.pid, frame.schedFindProcByPid, lookup]
  exact alike

theorem syscall_relisted (alike : FoundAlike os caller sched) {regs : ScRegs}
    (device : DeviceCall regs) :
    syscall (os.setSched sched) (os.pid caller) 17 regs =
      ((syscall os (os.pid caller) 17 regs).1, (syscall os (os.pid caller) 17 regs).2.1,
        (syscall os (os.pid caller) 17 regs).2.2.setSched sched) := by
  rcases syscall_device os (os.pid caller) device with ⟨ret, out, mram, mswp, answer⟩
  rw [answer os rfl rfl rfl, answer (os.setSched sched) rfl rfl alike]
  rfl

theorem pgGetpage_relisted (alike : FoundAlike os caller sched) (pgn : Int) :
    pgGetpage (os.setSched sched) pgn caller =
      ((pgGetpage os pgn caller).1, (pgGetpage os pgn caller).2.1,
        (pgGetpage os pgn caller).2.2.setSched sched) := by
  have mm : (os.setSched sched).mm caller = os.mm caller := rfl
  unfold pgGetpage
  rw [mm]
  dsimp only
  by_cases present : pagingPagePresent (pteGetEntry (os.mm caller) (ofInt pgn)) = true
  · rw [if_pos present, if_pos present]
  · rw [if_neg present, if_neg present]
    by_cases unmapped : (!pagingPageSwapped (pteGetEntry (os.mm caller) (ofInt pgn))) = true
    · rw [if_pos unmapped, if_pos unmapped]
    · rw [if_neg unmapped, if_neg unmapped]
      cases findVictimPage (os.mm caller) with
      | none => rfl
      | some victim =>
          rcases victim with ⟨vicpgn, unlinked⟩
          dsimp only
          have picked : (os.setSched sched).setMm caller unlinked =
              (os.setMm caller unlinked).setSched sched := rfl
          have chosen := alike.frame (frame_setMm_self os caller unlinked)
          rw [picked]
          generalize os.setMm caller unlinked = holding at chosen ⊢
          have swap : (holding.setSched sched).activeMswp = holding.activeMswp := rfl
          rw [swap]
          cases memphyGetFreefp holding.activeMswp with
          | none => rfl
          | some slot =>
              rcases slot with ⟨swpfpn, taken⟩
              dsimp only
              have reserved : (holding.setSched sched).setActiveMswp taken =
                  (holding.setActiveMswp taken).setSched sched := rfl
              have reservedAlike : FoundAlike (holding.setActiveMswp taken) caller sched := chosen
              rw [reserved]
              generalize holding.setActiveMswp taken = reserving at reservedAlike ⊢
              have frame : ((reserving.setSched sched).mm caller) = reserving.mm caller := rfl
              have pid : ((reserving.setSched sched).pid caller) = reserving.pid caller := rfl
              rw [frame, pid, syscall_relisted reservedAlike (deviceCall_swap _ swpfpn)]
              generalize syscall reserving (reserving.pid caller) 17
                ⟨ofInt SYSMEM_SWP_OP, pagingFpn (pteGetEntry (reserving.mm caller) vicpgn), swpfpn⟩
                = outcome
              rcases outcome with ⟨ret, regs, evicted⟩
              dsimp only
              by_cases failed : ret ≠ 0
              · rw [if_pos failed, if_pos failed]
                rfl
              · have mswp : (evicted.setSched sched).activeMswp = evicted.activeMswp := rfl
                have mram : (evicted.setSched sched).mram = evicted.mram := rfl
                rw [if_neg failed, if_neg failed, mswp, mram]
                generalize swapCpPage evicted.activeMswp
                  (pagingSwp (pteGetEntry (os.mm caller) (ofInt pgn))) evicted.mram
                  (pagingFpn (pteGetEntry (reserving.mm caller) vicpgn)) = devices
                rfl

theorem pgGetval_relisted (alike : FoundAlike os caller sched) (addr : Addr) :
    pgGetval (os.setSched sched) addr caller =
      ((pgGetval os addr caller).1, (pgGetval os addr caller).2.1,
        (pgGetval os addr caller).2.2.setSched sched) := by
  have paged := alike.frame (frame_pgGetpage os (asInt (addr / PAGING_PAGESZ)) caller)
  unfold pgGetval
  dsimp only
  rw [pgGetpage_relisted alike]
  generalize pgGetpage os (asInt (addr / PAGING_PAGESZ)) caller = outcome at paged ⊢
  rcases outcome with ⟨ret, fpn, after⟩
  dsimp only at paged ⊢
  by_cases failed : ret ≠ 0
  · rw [if_pos failed, if_pos failed]
  · have pid : (after.setSched sched).pid caller = after.pid caller := rfl
    rw [if_neg failed, if_neg failed, pid, syscall_relisted paged (deviceCall_ioRead _)]
    generalize syscall after (after.pid caller) 17
      ⟨ofInt SYSMEM_IO_READ, fpn * PAGING_PAGESZ + addr % PAGING_PAGESZ, 0⟩ = answer
    rcases answer with ⟨status, regs, done⟩
    dsimp only
    by_cases denied : status < 0
    · rw [if_pos denied, if_pos denied]
    · rw [if_neg denied, if_neg denied]

theorem pgSetval_relisted (alike : FoundAlike os caller sched) (addr : Addr) (value : Byte) :
    pgSetval (os.setSched sched) addr value caller =
      ((pgSetval os addr value caller).1, (pgSetval os addr value caller).2.setSched sched) := by
  have paged := alike.frame (frame_pgGetpage os (asInt (addr / PAGING_PAGESZ)) caller)
  unfold pgSetval
  dsimp only
  rw [pgGetpage_relisted alike]
  generalize pgGetpage os (asInt (addr / PAGING_PAGESZ)) caller = outcome at paged ⊢
  rcases outcome with ⟨ret, fpn, after⟩
  dsimp only at paged ⊢
  by_cases failed : ret ≠ 0
  · rw [if_pos failed, if_pos failed]
  · have pid : (after.setSched sched).pid caller = after.pid caller := rfl
    rw [if_neg failed, if_neg failed, pid, syscall_relisted paged (deviceCall_ioWrite _ _)]
    generalize syscall after (after.pid caller) 17
      ⟨ofInt SYSMEM_IO_WRITE, fpn * PAGING_PAGESZ + addr % PAGING_PAGESZ, value.signExtend 64⟩
      = answer
    rcases answer with ⟨status, regs, done⟩
    dsimp only
    by_cases denied : status < 0
    · rw [if_pos denied, if_pos denied]
    · rw [if_neg denied, if_neg denied]

/-- The caller is found or missed alike after any number of its own accesses,
so both loops run alike. -/
theorem copyFromUserLoop_relisted (src dst : VmRgStruct) (offset : BitVec 32) (remaining i : Nat)
    (alike : FoundAlike os caller sched) :
    copyFromUserLoop caller src dst offset remaining i (os.setSched sched) =
      ((copyFromUserLoop caller src dst offset remaining i os).1,
        (copyFromUserLoop caller src dst offset remaining i os).2.setSched sched) := by
  induction remaining generalizing i os with
  | zero => rfl
  | succ remaining inductionHypothesis =>
      have fetchedAlike := alike.frame
        (frame_pgGetval os (src.rgStart + offset.setWidth 64 + BitVec.ofNat 64 i) caller)
      rw [copyFromUserLoop, copyFromUserLoop, pgGetval_relisted alike]
      generalize pgGetval os (src.rgStart + offset.setWidth 64 + BitVec.ofNat 64 i) caller = read
        at fetchedAlike ⊢
      rcases read with ⟨ret, b, fetched⟩
      dsimp only at fetchedAlike ⊢
      by_cases refused : ret ≠ 0
      · rw [if_pos refused, if_pos refused]
      · have kmem : (fetched.setSched sched).kmem = fetched.kmem := rfl
        rw [if_neg refused, if_neg refused, kmem]
        generalize kmemWriteByte fetched.kmem
          (dst.rgStart + offset.setWidth 64 + BitVec.ofNat 64 i) b = write
        rcases write with ⟨status, filled⟩
        dsimp only
        by_cases denied : status ≠ 0
        · rw [if_pos denied, if_pos denied]
        · have next : FoundAlike (fetched.setKmem filled) caller sched := fetchedAlike
          rw [if_neg denied, if_neg denied]
          exact inductionHypothesis (i + 1) next

theorem copyToUserLoop_relisted (src dst : VmRgStruct) (offset : BitVec 32) (remaining i : Nat)
    (alike : FoundAlike os caller sched) :
    copyToUserLoop caller src dst offset remaining i (os.setSched sched) =
      ((copyToUserLoop caller src dst offset remaining i os).1,
        (copyToUserLoop caller src dst offset remaining i os).2.setSched sched) := by
  induction remaining generalizing i os with
  | zero => rfl
  | succ remaining inductionHypothesis =>
      have kmem : (os.setSched sched).kmem = os.kmem := rfl
      rw [copyToUserLoop, copyToUserLoop, kmem]
      generalize kmemReadByte os.kmem (src.rgStart + offset.setWidth 64 + BitVec.ofNat 64 i) = read
      rcases read with ⟨ret, b⟩
      dsimp only
      by_cases refused : ret ≠ 0
      · rw [if_pos refused, if_pos refused]
      · have storedAlike := alike.frame
          (frame_pgSetval os (dst.rgStart + offset.setWidth 64 + BitVec.ofNat 64 i) b caller)
        rw [if_neg refused, if_neg refused, pgSetval_relisted alike]
        generalize pgSetval os (dst.rgStart + offset.setWidth 64 + BitVec.ofNat 64 i) b caller
          = write at storedAlike ⊢
        rcases write with ⟨status, stored⟩
        dsimp only at storedAlike ⊢
        by_cases denied : status ≠ 0
        · rw [if_pos denied, if_pos denied]
        · rw [if_neg denied, if_neg denied]
          exact inductionHypothesis (i + 1) storedAlike

theorem libkmemCopyFromUser_relisted (alike : FoundAlike os caller sched)
    (source destination offset size : BitVec 32) :
    libkmemCopyFromUser (os.setSched sched) caller source destination offset size =
      ((libkmemCopyFromUser os caller source destination offset size).1,
        (libkmemCopyFromUser os caller source destination offset size).2.setSched sched) := by
  have regions : copyRegions (os.setSched sched) caller source destination =
      copyRegions os caller source destination := rfl
  unfold libkmemCopyFromUser
  rw [regions]
  cases copyRegions os caller source destination with
  | none => rfl
  | some regions => exact copyFromUserLoop_relisted _ _ offset size.toNat 0 alike

theorem libkmemCopyToUser_relisted (alike : FoundAlike os caller sched)
    (source destination offset size : BitVec 32) :
    libkmemCopyToUser (os.setSched sched) caller source destination offset size =
      ((libkmemCopyToUser os caller source destination offset size).1,
        (libkmemCopyToUser os caller source destination offset size).2.setSched sched) := by
  have regions : copyRegions (os.setSched sched) caller destination source =
      copyRegions os caller destination source := rfl
  unfold libkmemCopyToUser
  rw [regions]
  cases copyRegions os caller destination source with
  | none => rfl
  | some regions => exact copyToUserLoop_relisted _ _ offset size.toNat 0 alike

end Relisted

/-! ## A caller that is not found -/

/-- Every access of such a caller fails. -/
theorem pgGetval_unresolved {os : Os} {caller : ProcRef} (unresolved : ¬ os.Resolves caller)
    (addr : Addr) : (pgGetval os addr caller).1 ≠ 0 := by
  have failed : (-1 : Int) ≠ 0 := by decide
  have frame := frame_pgGetpage os (asInt (addr / PAGING_PAGESZ)) caller
  unfold pgGetval
  dsimp only
  generalize pgGetpage os (asInt (addr / PAGING_PAGESZ)) caller = outcome at frame ⊢
  rcases outcome with ⟨ret, fpn, paged⟩
  dsimp only at frame ⊢
  have missed : ¬ paged.Resolves caller := by
    rw [Os.Resolves, frame.pid, frame.schedFindProcByPid]
    exact unresolved
  by_cases refused : ret ≠ 0
  · rw [if_pos refused]
    exact failed
  · rw [if_neg refused, syscall_unresolved missed]
    exact failed

end Kernel
end Ossim
