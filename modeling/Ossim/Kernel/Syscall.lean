import Ossim.Kernel.Machine

namespace Ossim
namespace Kernel

open Memory

/-!
# System calls

The dispatcher of `syscall.c`, the handler of `sys_mem.c` and the wrapper of
`libstd.c`.  A system call carries a process id and no block: the handler
finds the block by walking `running_list`.  The listing call only prints, and
an unknown number runs the dummy call; both return 0.
-/

/-- The arguments of a system call.  The other register fields are never
read. -/
structure ScRegs where
  a1 : Addr
  a2 : Addr
  a3 : Addr

def mmSwapPage (os : Os) (vicfpn swpfpn : Addr) : Int × Os :=
  match swapCpPage os.mram vicfpn os.activeMswp swpfpn with
  | (mram, mswp) => (0, (os.setMram mram).setActiveMswp mswp)

def sysMemmap (os : Os) (pid : Nat) (regs : ScRegs) : Int × ScRegs × Os :=
  let memop := asInt regs.a1
  match schedFindProcByPid os pid with
  | none => (-1, regs, os)
  | some caller =>
      if memop = SYSMEM_MAP_OP then
        match vmapPgdMemset (os.mm caller) regs.a2 (asInt regs.a3) with
        | (ret, mm) => (ret, regs, os.setMm caller mm)
      else if memop = SYSMEM_INC_OP then
        match incVmaLimit (os.mm caller) os.mram (asInt regs.a2) regs.a3 with
        | (ret, mm, mram) => (ret, regs, (os.setMm caller mm).setMram mram)
      else if memop = SYSMEM_SWP_OP then
        match mmSwapPage os regs.a2 regs.a3 with
        | (ret, swapped) => (ret, regs, swapped)
      else if memop = SYSMEM_IO_READ then
        match memphyRead os.mram regs.a2 with
        | (ret, value, mram) =>
            if ret ≠ 0 then (-1, regs, os.setMram mram)
            else (0, { regs with a3 := value.signExtend 64 }, os.setMram mram)
      else if memop = SYSMEM_IO_WRITE then
        match memphyWrite os.mram regs.a2 (regs.a3.setWidth 8) with
        | (ret, mram) => (ret, regs, os.setMram mram)
      else (-1, regs, os)

def sysListsyscall (os : Os) (regs : ScRegs) : Int × ScRegs × Os := (0, regs, os)

def sysNiSyscall (os : Os) (regs : ScRegs) : Int × ScRegs × Os := (0, regs, os)

/-- `_syscall`, with the cases that `syscall.tbl` generates. -/
def syscall (os : Os) (pid : Nat) (nr : BitVec 32) (regs : ScRegs) : Int × ScRegs × Os :=
  if nr = 0 then sysListsyscall os regs
  else if nr = 17 then sysMemmap os pid regs
  else sysNiSyscall os regs

def libsyscall (os : Os) (caller : ProcRef) (syscallIdx : BitVec 32) (a1 a2 a3 : Addr) : Int × Os :=
  match syscall os (os.pid caller) syscallIdx ⟨a1, a2, a3⟩ with
  | (ret, _, done) => (ret, done)

end Kernel
end Ossim
