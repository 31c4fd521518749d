import Ossim.Memory.FreeRegion

namespace Ossim
namespace Kernel

open Memory

/-!
# Processes and the kernel state

The records of `common.h` and the file-scope variables of `sched.c`, gathered
into one state.  A pointer to a process control block is a `ProcRef`.  A block
that is released never comes back under the same reference, whereas the C
allocator may reuse its address; the scheduler theorems show that no stale
reference survives a release.

A region id beyond the symbol table or a register number beyond the register
file leaves its array, like a device address beyond its storage.  A step that
raises one of the fault flags has no defined outcome and is not a step of the
system.  `Kernel.Overrun` goes on from there.
-/

def MAX_QUEUE_SIZE : Nat := 50
def MAX_PRIO : Nat := 140

instance : NeZero MAX_PRIO := ⟨by decide⟩

def SYSMEM_MAP_OP : Int := 1
def SYSMEM_INC_OP : Int := 2
def SYSMEM_SWP_OP : Int := 3
def SYSMEM_IO_READ : Int := 4
def SYSMEM_IO_WRITE : Int := 5

inductive InsOpcode
  | CALC
  | ALLOC
  | FREE
  | READ
  | WRITE
  | KMALLOC
  | KMEM_CACHE_CREATE
  | KMEM_CACHE_ALLOC
  | COPY_FROM_USER
  | COPY_TO_USER
  | SYSCALL
  deriving DecidableEq, Repr

structure Inst where
  opcode : InsOpcode
  arg0 : Addr
  arg1 : Addr
  arg2 : Addr
  arg3 : Addr
  deriving DecidableEq, Repr

abbrev ProcRef := Nat

/-- A process control block.  The loader hands out process ids from a counter
that starts at 1 and is bumped once for each of the `int num_processes`
processes, so it never wraps and is kept as a natural number. -/
structure Pcb where
  pid : Nat
  prio : Nat
  code : List Inst
  pc : Nat
  regs : Fin 10 → Addr
  mm : MmStruct

/-- The scheduler's file-scope variables.  The legacy `ready_queue` and
`run_queue` stay empty under `MLQ_SCHED` and are left out. -/
structure Sched where
  mlqReadyQueue : Fin MAX_PRIO → List ProcRef
  slot : Fin MAX_PRIO → Int
  currentMlqPrio : Fin MAX_PRIO
  runningList : List ProcRef

/-- The whole kernel: the fields of `krnl_t` that are used, the static data of
the library and scheduler files, and the process control blocks in memory.
`freergHeads` is no variable of the program.  It is what `init_mm` finds in the
field `vm_freerg_list` of the block that `malloc` returns for the area of each
process, and no step changes it.  A list that is not empty leads into memory
that the heap has used before, such as the nodes of an exited process, and only
its contents are described. -/
structure Os where
  mram : MemphyStruct
  activeMswp : MemphyStruct
  activeMswpId : Nat
  kmem : Kmem
  procs : ProcRef → Option Pcb
  availPid : Nat
  sched : Sched
  fault : Bool
  freergHeads : ProcRef → List VmRgStruct

namespace Os

/-- No access has left its array. -/
def Defined (os : Os) : Prop :=
  os.fault = false ∧ os.mram.fault = false ∧ os.activeMswp.fault = false

instance (os : Os) : Decidable os.Defined :=
  inferInstanceAs (Decidable (_ ∧ _ ∧ _))

/-- `caller->mm`.  The default, the map that `init_mm` would build, is never read
for a live process. -/
def mm (os : Os) (caller : ProcRef) : MmStruct :=
  match os.procs caller with
  | none => initMm (os.freergHeads caller)
  | some pcb => pcb.mm

def pid (os : Os) (caller : ProcRef) : Nat :=
  match os.procs caller with
  | none => 0
  | some pcb => pcb.pid

@[simps] def setMram (os : Os) (mram : MemphyStruct) : Os := { os with mram := mram }

@[simps] def setActiveMswp (os : Os) (mswp : MemphyStruct) : Os := { os with activeMswp := mswp }

@[simps] def setKmem (os : Os) (kmem : Kmem) : Os := { os with kmem := kmem }

@[simps] def setSched (os : Os) (sched : Sched) : Os := { os with sched := sched }

@[simps] def setProc (os : Os) (proc : ProcRef) (pcb : Option Pcb) : Os :=
  { os with procs := Function.update os.procs proc pcb }

/-- An access has left its array. -/
@[simps] def raise (os : Os) : Os := { os with fault := true }

/-- Assign to the fields of one block. -/
def updatePcb (os : Os) (caller : ProcRef) (assign : Pcb → Pcb) : Os :=
  os.setProc caller ((os.procs caller).map assign)

def setMm (os : Os) (caller : ProcRef) (mm : MmStruct) : Os :=
  os.updatePcb caller fun pcb => { pcb with mm := mm }

/-- Store a symbol-table slot through an unchecked index. -/
def setSymrg (os : Os) (caller : ProcRef) (rgid : Int) (rg : VmRgStruct) : Os :=
  match getSymrgByid rgid with
  | none => os.raise
  | some slot =>
      os.setMm caller
        { os.mm caller with symrgtbl := Function.update (os.mm caller).symrgtbl slot rg }

/-- Store a register through an unchecked index. -/
def setReg (os : Os) (caller : ProcRef) (index value : Addr) : Os :=
  if inside : index.toNat < 10 then
    os.updatePcb caller fun pcb =>
      { pcb with regs := Function.update pcb.regs ⟨index.toNat, inside⟩ value }
  else os.raise

/-- The memory map is read off the block, and off `freergHeads` where there is none. -/
theorem mm_congr {os after : Os} {proc : ProcRef} (procs : after.procs proc = os.procs proc)
    (heads : after.freergHeads = os.freergHeads) : after.mm proc = os.mm proc := by
  rw [Os.mm, Os.mm, procs, heads]

theorem mm_of_absent {os : Os} {proc : ProcRef} (absent : os.procs proc = none) :
    os.mm proc = initMm (os.freergHeads proc) := by
  rw [Os.mm, absent]

@[simp] theorem mm_setMram (os : Os) (mram : MemphyStruct) : (os.setMram mram).mm = os.mm := rfl

/-- The map that is assigned, in any state with the same blocks. -/
theorem mm_of_procs_setMm {os after : Os} {caller : ProcRef}
    (live : (os.procs caller).isSome = true) {mm : MmStruct}
    (procs : after.procs = (os.setMm caller mm).procs) : after.mm caller = mm := by
  rw [Option.isSome_iff_exists] at live
  rcases live with ⟨pcb, found⟩
  simp [Os.mm, procs, setMm, updatePcb, found]

theorem mm_setMm_self {os : Os} {caller : ProcRef} (live : (os.procs caller).isSome = true)
    (mm : MmStruct) : (os.setMm caller mm).mm caller = mm :=
  mm_of_procs_setMm live rfl

theorem setMm_setMm (os : Os) (caller : ProcRef) (first second : MmStruct) :
    (os.setMm caller first).setMm caller second = os.setMm caller second := by
  cases found : os.procs caller <;> simp [setMm, updatePcb, setProc, found]

theorem setMm_self (os : Os) (caller : ProcRef) : os.setMm caller (os.mm caller) = os := by
  have same : (os.procs caller).map (fun pcb => { pcb with mm := os.mm caller }) =
      os.procs caller := by
    cases found : os.procs caller with
    | none => rfl
    | some pcb => simp [Os.mm, found]
  rw [setMm, updatePcb, same, setProc, Function.update_eq_self]

theorem procs_setMm_of_ne {os : Os} {caller other : ProcRef} (different : other ≠ caller)
    (mm : MmStruct) : (os.setMm caller mm).procs other = os.procs other := by
  simp [setMm, updatePcb, different]

theorem mm_setMm_of_ne {os : Os} {caller other : ProcRef} (different : other ≠ caller)
    (mm : MmStruct) : (os.setMm caller mm).mm other = os.mm other :=
  mm_congr (procs_setMm_of_ne different mm) rfl

@[simp] theorem setMm_kmem (os : Os) (caller : ProcRef) (mm : MmStruct) :
    (os.setMm caller mm).kmem = os.kmem := rfl

end Os

/-- `sched_find_proc_by_pid`: the first entry of `running_list` whose block
carries the process id. -/
def schedFindProcByPid (os : Os) (pid : Nat) : Option ProcRef :=
  os.sched.runningList.find? fun proc =>
    match os.procs proc with
    | none => false
    | some pcb => pcb.pid == pid

end Kernel
end Ossim
