import Ossim.Kernel.Frame

namespace Ossim
namespace Kernel

open Memory

/-!
# Byte access to resident pages

A process with no page on swap reaches a byte in one way: the entry gives the
frame, and the frame gives the address on the device.  `translate` is that
address.  The access layer narrows the page number to `int` before it looks
the entry up, and `accessPage` keeps the narrowing.

Reads and writes that go this way are data steps: they change bytes in frames
of the caller, and no block, no free list and no page table.
-/

/-- The page number that the access layer looks up for an address. -/
def accessPage (addr : Addr) : Addr := ofInt (asInt (addr / PAGING_PAGESZ))

/-- The place of an address in its page. -/
def accessCell (addr : Addr) : Fin 256 :=
  ⟨addr.toNat % 256, Nat.mod_lt addr.toNat (by decide)⟩

namespace Os

/-- The system-call layer finds a block for the caller's process id. -/
def Resolves (os : Os) (caller : ProcRef) : Prop :=
  (schedFindProcByPid os (os.pid caller)).isSome = true

instance (os : Os) (caller : ProcRef) : Decidable (os.Resolves caller) :=
  inferInstanceAs (Decidable (_ = true))

/-- The device address behind a user address. -/
def translate (os : Os) (caller : ProcRef) (addr : Addr) : Option Addr :=
  ((os.mm caller).frameOf (accessPage addr)).map fun fpn =>
    fpn * PAGING_PAGESZ + addr % PAGING_PAGESZ

/-- The process has never had a page on swap. -/
def Unswapped (os : Os) (caller : ProcRef) : Prop :=
  ∀ pgn, pagingPageSwapped (pteGetEntry (os.mm caller) pgn) = false

end Os

/-! ## Device operations behind the system call -/

/-- A caller that the system-call layer does not find. -/
theorem syscall_unresolved {os : Os} {caller : ProcRef} (unresolved : ¬ os.Resolves caller)
    (regs : ScRegs) : syscall os (os.pid caller) 17 regs = (-1, regs, os) := by
  have missing : schedFindProcByPid os (os.pid caller) = none := by
    rw [Os.Resolves, Bool.not_eq_true, Option.isSome_eq_false_iff,
      Option.isNone_iff_eq_none] at unresolved
    exact unresolved
  rw [syscall, if_neg (by decide), if_pos rfl, sysMemmap, missing]

theorem syscall_ioRead (os : Os) (pid : Nat) (phyaddr : Addr) (random : os.mram.rdmflg = true) :
    syscall os pid 17 ⟨ofInt SYSMEM_IO_READ, phyaddr, 0⟩ =
      if (schedFindProcByPid os pid).isSome then
        (0, ⟨ofInt SYSMEM_IO_READ, phyaddr, (os.mram.storage phyaddr).signExtend 64⟩,
          os.setMram (os.mram.touch phyaddr))
      else (-1, ⟨ofInt SYSMEM_IO_READ, phyaddr, 0⟩, os) := by
  have operation : asInt (ofInt 4) = 4 := by decide
  rw [syscall, if_neg (by decide), if_pos rfl, sysMemmap]
  cases schedFindProcByPid os pid with
  | none => rfl
  | some proc =>
      simp [operation, memphyRead, random, SYSMEM_MAP_OP, SYSMEM_INC_OP, SYSMEM_SWP_OP,
        SYSMEM_IO_READ]

theorem syscall_ioWrite (os : Os) (pid : Nat) (phyaddr data : Addr)
    (random : os.mram.rdmflg = true) :
    syscall os pid 17 ⟨ofInt SYSMEM_IO_WRITE, phyaddr, data⟩ =
      if (schedFindProcByPid os pid).isSome then
        (0, ⟨ofInt SYSMEM_IO_WRITE, phyaddr, data⟩,
          os.setMram (os.mram.store phyaddr (data.setWidth 8)))
      else (-1, ⟨ofInt SYSMEM_IO_WRITE, phyaddr, data⟩, os) := by
  have operation : asInt (ofInt 5) = 5 := by decide
  rw [syscall, if_neg (by decide), if_pos rfl, sysMemmap]
  cases schedFindProcByPid os pid with
  | none => rfl
  | some proc =>
      simp [operation, memphyWrite, random, SYSMEM_MAP_OP, SYSMEM_INC_OP, SYSMEM_SWP_OP,
        SYSMEM_IO_READ, SYSMEM_IO_WRITE]

/-! ## Pages and bytes -/

theorem pgGetpage_unswapped {os : Os} {caller : ProcRef} (unswapped : os.Unswapped caller)
    (pgn : Int) :
    pgGetpage os pgn caller =
      match (os.mm caller).frameOf (ofInt pgn) with
      | some fpn => (0, fpn, os)
      | none => (-1, 0, os) := by
  have clear := unswapped (ofInt pgn)
  unfold pgGetpage MmStruct.frameOf
  cases resident : pagingPagePresent (pteGetEntry (os.mm caller) (ofInt pgn)) <;>
    simp [resident, clear]

/-- Reading a byte: the frame, then the device. -/
theorem pgGetval_unswapped {os : Os} {caller : ProcRef} (unswapped : os.Unswapped caller)
    (random : os.mram.rdmflg = true) (addr : Addr) :
    pgGetval os addr caller =
      match os.translate caller addr with
      | none => (-1, 0, os)
      | some phyaddr =>
          if os.Resolves caller then
            (0, os.mram.storage phyaddr, os.setMram (os.mram.touch phyaddr))
          else (-1, 0, os) := by
  unfold pgGetval Os.translate accessPage
  dsimp only
  rw [pgGetpage_unswapped unswapped]
  cases (os.mm caller).frameOf (ofInt (asInt (addr / PAGING_PAGESZ))) with
  | none => rfl
  | some fpn =>
      dsimp only [Option.map_some]
      rw [if_neg (by decide), syscall_ioRead _ _ _ random]
      by_cases resolves : (schedFindProcByPid os (os.pid caller)).isSome = true
      · rw [if_pos resolves, if_pos (show os.Resolves caller from resolves)]
        dsimp only
        rw [if_neg (by decide), setWidth_signExtend_byte]
      · rw [if_neg resolves, if_neg (show ¬ os.Resolves caller from resolves)]
        rfl

/-- Writing a byte: the frame, then the device. -/
theorem pgSetval_unswapped {os : Os} {caller : ProcRef} (unswapped : os.Unswapped caller)
    (random : os.mram.rdmflg = true) (addr : Addr) (value : Byte) :
    pgSetval os addr value caller =
      match os.translate caller addr with
      | none => (-1, os)
      | some phyaddr =>
          if os.Resolves caller then (0, os.setMram (os.mram.store phyaddr value))
          else (-1, os) := by
  unfold pgSetval Os.translate accessPage
  dsimp only
  rw [pgGetpage_unswapped unswapped]
  cases (os.mm caller).frameOf (ofInt (asInt (addr / PAGING_PAGESZ))) with
  | none => rfl
  | some fpn =>
      dsimp only [Option.map_some]
      rw [if_neg (by decide), syscall_ioWrite _ _ _ _ random]
      by_cases resolves : (schedFindProcByPid os (os.pid caller)).isSome = true
      · rw [if_pos resolves, if_pos (show os.Resolves caller from resolves),
          setWidth_signExtend_byte]
        rfl
      · rw [if_neg resolves, if_neg (show ¬ os.Resolves caller from resolves)]
        rfl

/-! ## Library reads and writes -/

theorem libread_unswapped {os : Os} {proc : ProcRef} (unswapped : os.Unswapped proc)
    (random : os.mram.rdmflg = true) (source : BitVec 32) (offset : Addr) :
    libread os proc source offset =
      match (resolveRgAddr os proc source.toInt offset).bind (os.translate proc) with
      | none => (-1, 0, os)
      | some phyaddr =>
          if os.Resolves proc then
            (0, (os.mram.storage phyaddr).signExtend 32, os.setMram (os.mram.touch phyaddr))
          else (-1, 0, os) := by
  unfold libread read
  cases resolveRgAddr os proc source.toInt offset with
  | none => rfl
  | some addr =>
      dsimp only
      rw [pgGetval_unswapped unswapped random, Option.bind_some]
      cases os.translate proc addr with
      | none => rfl
      | some phyaddr =>
          dsimp only
          by_cases resolves : os.Resolves proc <;> simp [resolves]

theorem libwrite_unswapped {os : Os} {proc : ProcRef} (unswapped : os.Unswapped proc)
    (random : os.mram.rdmflg = true) (data : Byte) (destination : BitVec 32) (offset : Addr) :
    libwrite os proc data destination offset =
      match (resolveRgAddr os proc destination.toInt offset).bind (os.translate proc) with
      | none => (-1, os)
      | some phyaddr =>
          if os.Resolves proc then (0, os.setMram (os.mram.store phyaddr data)) else (-1, os) := by
  unfold libwrite write
  cases resolveRgAddr os proc destination.toInt offset with
  | none => rfl
  | some addr => exact pgSetval_unswapped unswapped random addr data

/-! ## Data steps -/

/-- The two states differ in the bytes of the caller's frames, in registers
and in the kernel pool, but not in memory maps, free lists or the swap. -/
structure DataStep (caller : ProcRef) (before after : Os) : Prop where
  mm : ∀ proc, after.mm proc = before.mm proc
  freeFpList : after.mram.freeFpList = before.mram.freeFpList
  rdmflg : after.mram.rdmflg = before.mram.rdmflg
  activeMswp : after.activeMswp = before.activeMswp
  storage : ∀ phyaddr, (∀ pgn, (before.mm caller).frameOf pgn ≠ some (phyaddr / PAGING_PAGESZ)) →
    after.mram.storage phyaddr = before.mram.storage phyaddr

theorem DataStep.refl (caller : ProcRef) (os : Os) : DataStep caller os os :=
  ⟨fun _ => rfl, rfl, rfl, rfl, fun _ _ => rfl⟩

theorem DataStep.trans {caller : ProcRef} {first second third : Os}
    (left : DataStep caller first second) (right : DataStep caller second third) :
    DataStep caller first third where
  mm := fun proc => (right.mm proc).trans (left.mm proc)
  freeFpList := right.freeFpList.trans left.freeFpList
  rdmflg := right.rdmflg.trans left.rdmflg
  activeMswp := right.activeMswp.trans left.activeMswp
  storage := fun phyaddr outside =>
    (right.storage phyaddr (by rw [left.mm]; exact outside)).trans (left.storage phyaddr outside)

theorem DataStep.unswapped {caller : ProcRef} {before after : Os}
    (step : DataStep caller before after) (unswapped : before.Unswapped caller) :
    after.Unswapped caller := by
  intro pgn
  rw [step.mm]
  exact unswapped pgn

theorem dataStep_setKmem (os : Os) (caller : ProcRef) (kmem : Kmem) :
    DataStep caller os (os.setKmem kmem) :=
  ⟨fun _ => rfl, rfl, rfl, rfl, fun _ _ => rfl⟩

theorem mm_setReg (os : Os) (caller proc : ProcRef) (index value : Addr) :
    (os.setReg caller index value).mm proc = os.mm proc := by
  unfold Os.setReg
  by_cases inside : index.toNat < 10
  · rw [dif_pos inside]
    by_cases same : proc = caller
    · subst same
      cases found : os.procs proc <;> simp [Os.mm, Os.updatePcb, found]
    · simp [Os.mm, Os.updatePcb, same]
  · rw [dif_neg inside]
    rfl

theorem dataStep_setReg (os : Os) (caller : ProcRef) (index value : Addr) :
    DataStep caller os (os.setReg caller index value) := by
  refine ⟨fun proc => mm_setReg os caller proc index value, ?_, ?_, ?_, ?_⟩ <;>
    · unfold Os.setReg
      split <;> simp [Os.updatePcb]

/-- The address behind a user address lies in a frame of the caller. -/
theorem translate_frame {os : Os} {caller : ProcRef} {addr phyaddr : Addr}
    (found : os.translate caller addr = some phyaddr) :
    (os.mm caller).frameOf (accessPage addr) = some (phyaddr / PAGING_PAGESZ) ∧
      phyaddr % PAGING_PAGESZ = addr % PAGING_PAGESZ := by
  unfold Os.translate at found
  cases mapped : (os.mm caller).frameOf (accessPage addr) with
  | none =>
      rw [mapped] at found
      cases found
  | some fpn =>
      rw [mapped, Option.map_some, Option.some.injEq] at found
      subst found
      have small := MmStruct.frameOf_lt mapped
      have size : PAGING_PAGESZ.toNat = 256 := rfl
      have sum : (fpn * PAGING_PAGESZ + addr % PAGING_PAGESZ).toNat =
          fpn.toNat * 256 + addr.toNat % 256 := by
        rw [BitVec.toNat_add, BitVec.toNat_mul, BitVec.toNat_umod, size]
        omega
      refine ⟨congrArg some (BitVec.eq_of_toNat_eq ?_), BitVec.eq_of_toNat_eq ?_⟩
      · rw [BitVec.toNat_udiv, sum, size]
        omega
      · rw [BitVec.toNat_umod, BitVec.toNat_umod, sum, size]
        omega

theorem dataStep_pgGetval {os : Os} {caller : ProcRef} (unswapped : os.Unswapped caller)
    (random : os.mram.rdmflg = true) (addr : Addr) :
    DataStep caller os (pgGetval os addr caller).2.2 := by
  rw [pgGetval_unswapped unswapped random]
  cases os.translate caller addr with
  | none => exact DataStep.refl caller os
  | some phyaddr =>
      dsimp only
      split
      · exact ⟨fun _ => rfl, rfl, rfl, rfl, fun _ _ => rfl⟩
      · exact DataStep.refl caller os

theorem dataStep_pgSetval {os : Os} {caller : ProcRef} (unswapped : os.Unswapped caller)
    (random : os.mram.rdmflg = true) (addr : Addr) (value : Byte) :
    DataStep caller os (pgSetval os addr value caller).2 := by
  rw [pgSetval_unswapped unswapped random]
  cases found : os.translate caller addr with
  | none => exact DataStep.refl caller os
  | some phyaddr =>
      dsimp only
      split
      · refine ⟨fun _ => rfl, rfl, rfl, rfl, fun other outside => ?_⟩
        have different : other ≠ phyaddr := by
          rintro rfl
          exact outside _ (translate_frame found).1
        exact Function.update_of_ne different _ _
      · exact DataStep.refl caller os

theorem dataStep_libread {os : Os} {proc : ProcRef} (unswapped : os.Unswapped proc)
    (random : os.mram.rdmflg = true) (source : BitVec 32) (offset : Addr) :
    DataStep proc os (libread os proc source offset).2.2 := by
  unfold libread read
  cases resolveRgAddr os proc source.toInt offset with
  | none => exact DataStep.refl proc os
  | some addr => exact dataStep_pgGetval unswapped random addr

theorem dataStep_libwrite {os : Os} {proc : ProcRef} (unswapped : os.Unswapped proc)
    (random : os.mram.rdmflg = true) (data : Byte) (destination : BitVec 32) (offset : Addr) :
    DataStep proc os (libwrite os proc data destination offset).2 := by
  unfold libwrite write
  cases resolveRgAddr os proc destination.toInt offset with
  | none => exact DataStep.refl proc os
  | some addr => exact dataStep_pgSetval unswapped random addr data

/-- Data steps map the caller's pages the same way, and leave the device random. -/
private theorem DataStep.ready {caller : ProcRef} {os after : Os} (step : DataStep caller os after)
    (start : os.Unswapped caller ∧ os.mram.rdmflg = true) :
    after.Unswapped caller ∧ after.mram.rdmflg = true :=
  ⟨step.unswapped start.1, step.rdmflg.trans start.2⟩

theorem dataStep_copyFromUserLoop (caller : ProcRef) (src dst : VmRgStruct) (offset : BitVec 32)
    (remaining i : Nat) (os : Os) (unswapped : os.Unswapped caller)
    (random : os.mram.rdmflg = true) :
    DataStep caller os (copyFromUserLoop caller src dst offset remaining i os).2 := by
  apply step_copyFromUserLoop (fun os => os.Unswapped caller ∧ os.mram.rdmflg = true)
    (DataStep.refl caller) DataStep.trans DataStep.ready
  · exact fun os addr start => dataStep_pgGetval start.1 start.2 addr
  · exact fun os kmem => dataStep_setKmem os caller kmem
  · exact ⟨unswapped, random⟩

theorem dataStep_copyToUserLoop (caller : ProcRef) (src dst : VmRgStruct) (offset : BitVec 32)
    (remaining i : Nat) (os : Os) (unswapped : os.Unswapped caller)
    (random : os.mram.rdmflg = true) :
    DataStep caller os (copyToUserLoop caller src dst offset remaining i os).2 := by
  apply step_copyToUserLoop (fun os => os.Unswapped caller ∧ os.mram.rdmflg = true)
    (DataStep.refl caller) DataStep.trans DataStep.ready
  · exact fun os addr b start => dataStep_pgSetval start.1 start.2 addr b
  · exact ⟨unswapped, random⟩

end Kernel
end Ossim
