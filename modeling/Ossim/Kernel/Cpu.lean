import Ossim.Kernel.UserMemory

namespace Ossim
namespace Kernel

open Memory

/-!
# Instruction execution

`run` of `cpu.c`: fetch at the program counter, advance it, and dispatch on
the opcode.  Operands are 64-bit words; the parameter types of the library
functions narrow them to 32 bits, and `libwrite` narrows its data operand to a
byte.  A program counter at the end of the code leaves the state alone.
-/

/-- `calc`: the block's address masked to zero. -/
def calcInst : Int := 0

/-- The instruction `run` fetches next. -/
def fetch (os : Os) (proc : ProcRef) : Option Inst :=
  (os.procs proc).bind fun pcb => pcb.code[pcb.pc]?

/-- The dispatch of `run`, after the program counter has moved on. -/
def dispatch (os : Os) (proc : ProcRef) (ins : Inst) : Int × Os :=
  match ins.opcode with
  | .CALC => (calcInst, os)
  | .ALLOC => liballoc os proc ins.arg0 (ins.arg1.setWidth 32)
  | .KMALLOC => libkmemMalloc os proc (ins.arg0.setWidth 32) (ins.arg1.setWidth 32)
  | .KMEM_CACHE_CREATE =>
      libkmemCachePoolCreate os proc (ins.arg0.setWidth 32) (ins.arg1.setWidth 32)
        (ins.arg2.setWidth 32)
  | .KMEM_CACHE_ALLOC => libkmemCacheAlloc os proc (ins.arg0.setWidth 32) (ins.arg1.setWidth 32)
  | .COPY_FROM_USER =>
      libkmemCopyFromUser os proc (ins.arg0.setWidth 32) (ins.arg1.setWidth 32)
        (ins.arg2.setWidth 32) (ins.arg3.setWidth 32)
  | .COPY_TO_USER =>
      libkmemCopyToUser os proc (ins.arg0.setWidth 32) (ins.arg1.setWidth 32)
        (ins.arg2.setWidth 32) (ins.arg3.setWidth 32)
  | .FREE => libfree os proc (ins.arg0.setWidth 32)
  | .READ =>
      match libread os proc (ins.arg0.setWidth 32) ins.arg1 with
      | (stat, data, done) =>
          if stat = 0 then (stat, done.setReg proc ins.arg2 (data.setWidth 64)) else (stat, done)
  | .WRITE => libwrite os proc (ins.arg0.setWidth 8) (ins.arg1.setWidth 32) ins.arg2
  | .SYSCALL => libsyscall os proc (ins.arg0.setWidth 32) ins.arg1 ins.arg2 ins.arg3

/-- `proc->pc++`. -/
def Os.advance (os : Os) (proc : ProcRef) : Os :=
  os.updatePcb proc fun pcb => { pcb with pc := pcb.pc + 1 }

def run (os : Os) (proc : ProcRef) : Int × Os :=
  match fetch os proc with
  | none => (1, os)
  | some ins => dispatch (os.advance proc) proc ins

end Kernel
end Ossim
