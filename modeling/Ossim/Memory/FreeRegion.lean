import Ossim.Memory.Mapping

namespace Ossim
namespace Memory

/-!
# The free-region list and the kernel bump allocator

Two allocators hand out address ranges.  User regions come from the free list
of the process's area by first fit; kernel regions come from one pool that is
shared by all processes and only ever grows.  Sizes arrive as 64-bit or
unsigned 32-bit words and are narrowed to `int` before either test.
-/

/-! ## First fit -/

/-- The loop of `get_free_vmrg_area`: the first node that passes the size test
gives its front.  A node that is used up is overwritten by a clone of its
successor, or left empty when it is the last. -/
def firstFit (size : Int) : List VmRgStruct → Option (VmRgStruct × List VmRgStruct)
  | [] => none
  | rgit :: rest =>
      let newEnd := rgit.rgStart + ofInt size
      if newEnd ≤ rgit.rgEnd then
        let newrg : VmRgStruct := ⟨rgit.rgStart, newEnd, .user⟩
        if newEnd < rgit.rgEnd then some (newrg, { rgit with rgStart := newEnd } :: rest)
        else
          match rest with
          | nextrg :: tail =>
              some (newrg, { rgit with rgStart := nextrg.rgStart, rgEnd := nextrg.rgEnd } :: tail)
          | [] => some (newrg, [{ rgit with rgStart := rgit.rgEnd }])
      else (firstFit size rest).map fun found => (found.1, rgit :: found.2)

/-- `get_free_vmrg_area`.  A result that starts at the all-ones address counts
as not found, although the list has been changed by then. -/
def getFreeVmrgArea (mm : MmStruct) (vmaid : Int) (size : Int) :
    Option VmRgStruct × MmStruct :=
  match getVmaByNum mm vmaid with
  | none => (none, mm)
  | some (idx, curVma) =>
      match firstFit size curVma.vmFreergList with
      | none => (none, mm)
      | some (newrg, left) =>
          let shrunk := mm.setVma idx { curVma with vmFreergList := left }
          if newrg.rgStart = ofInt (-1) then (none, shrunk) else (some newrg, shrunk)

def enlistVmFreergList (mm : MmStruct) (vmaid : Int) (rgElmt : VmRgStruct) : Int × MmStruct :=
  if rgElmt.rgEnd ≤ rgElmt.rgStart then (-1, mm)
  else
    match getVmaByNum mm vmaid with
    | none => (-1, mm)
    | some (idx, vma) =>
        (0, mm.setVma idx { vma with vmFreergList := rgElmt :: vma.vmFreergList })

/-- `get_symrg_byid`, as the index of the slot it points to. -/
def getSymrgByid (rgid : Int) : Option (Fin PAGING_MAX_SYMTBL_SZ) :=
  if inside : 0 ≤ rgid ∧ rgid < 30 then
    some ⟨rgid.toNat, by
      have upper := inside.2
      unfold PAGING_MAX_SYMTBL_SZ
      omega⟩
  else none

/-! ## The kernel pool -/

def kmemAddrIsKernel (addr : Addr) : Bool :=
  decide (KMEM_VBASE ≤ addr) && decide (addr < KMEM_VBASE + BitVec.ofNat 64 KMEM_POOL_SIZE)

def kmemOffset (addr : Addr) : Int := asInt (addr - KMEM_VBASE)

/-- `__kmem_carve`: 0 on exhaustion.  The limit test adds two `int`s. -/
def kmemCarve (kmem : Kmem) (size : Int) : Addr × Kmem :=
  if size ≤ 0 ∨ wrapInt (kmem.brk + size) > KMEM_POOL_SIZE then (0, kmem)
  else (KMEM_VBASE + ofInt kmem.brk, { kmem with brk := wrapInt (kmem.brk + size) })

def kmemWriteByte (kmem : Kmem) (kaddr : Addr) (value : Byte) : Int × Kmem :=
  if !kmemAddrIsKernel kaddr then (-1, kmem)
  else (0, { kmem with storage := Function.update kmem.storage (kmemOffset kaddr) value })

def kmemReadByte (kmem : Kmem) (kaddr : Addr) : Int × Byte :=
  if !kmemAddrIsKernel kaddr then (-1, 0)
  else (0, kmem.storage (kmemOffset kaddr))

/-- The static initial state of the kernel pool. -/
def Kmem.initial : Kmem where
  storage := fun _ => 0
  brk := 0
  pools := fun _ => ⟨false, 0, 0, 0, 0⟩

/-- Array index of a pool id that has passed the range test. -/
def poolIndex (cachePoolId : BitVec 32) : Option (Fin KMEM_MAX_POOLS) :=
  if inside : cachePoolId.toNat < KMEM_MAX_POOLS then some ⟨cachePoolId.toNat, inside⟩ else none

/-- The pool half of `libkmem_cache_pool_create`, under `kmem_lock`. -/
def kmemPoolReserve (kmem : Kmem) (size align : BitVec 32) (pool : Fin KMEM_MAX_POOLS) :
    Int × Kmem :=
  if (kmem.pools pool).used then (-1, kmem)
  else
    match kmemCarve kmem size.toInt with
    | (addr, carved) =>
        if addr = 0 then (-1, carved)
        else (0, { carved with
          pools := Function.update carved.pools pool ⟨true, size.toInt, align.toInt, addr, 0⟩ })

/-- The pool half of `libkmem_cache_alloc`, under `kmem_lock`: the slot it
hands out. -/
def kmemSlot (kmem : Kmem) (pool : Fin KMEM_MAX_POOLS) : Option (VmRgStruct × Kmem) :=
  let state := kmem.pools pool
  if state.used = false ∨ wrapInt (state.nextSlot + state.align) > state.size then none
  else
    let slotAddr := state.storage + ofInt state.nextSlot
    some (⟨slotAddr, slotAddr + ofInt state.align, .kernel⟩,
      { kmem with
        pools := Function.update kmem.pools pool
          { state with nextSlot := wrapInt (state.nextSlot + state.align) } })

end Memory
end Ossim
