import Ossim.Kernel.Syscall

namespace Ossim
namespace Kernel

open Memory

/-!
# The memory library

The functions of `libmem.c`: allocation and release of user regions, access to
a user byte through the page table, kernel allocation, and the copies between
the two spaces.  Each function returns the C status and the state after it.
An out-parameter that the source leaves unset on failure is returned as zero.

Each library call is one step here.  Most of its accesses are made under
`mmvm_lock` or `kmem_lock`.  Outside these locks a call reads and writes the
symbol table of its own process, which no other CPU uses meanwhile, an
allocation prints the RAM after it is done, and a raw system call takes neither
lock.  Orders in which the single accesses of a raw system call meet another
call half way are not described.
-/

/-! ## Allocation and release -/

/-- `__alloc`. -/
def alloc (os : Os) (caller : ProcRef) (vmaid rgid : Int) (size : Addr) : Int × Os :=
  match getVmaByNum (os.mm caller) vmaid with
  | none => (-1, os)
  | some (_, curVma) =>
      match getFreeVmrgArea (os.mm caller) vmaid (asInt size) with
      | (some newrg, mm) => (0, (os.setMm caller mm).setSymrg caller rgid newrg)
      | (none, mm) =>
          let searched := os.setMm caller mm
          let oldSbrk := curVma.sbrk
          match syscall searched (searched.pid caller) 17
              ⟨ofInt SYSMEM_INC_OP, ofInt vmaid, pagingPageAlignsz size⟩ with
          | (ret, _, grown) =>
              if ret ≠ 0 then (-1, grown)
              else (0, grown.setSymrg caller rgid ⟨oldSbrk, oldSbrk + size, .user⟩)

/-- `__free`. -/
def free (os : Os) (caller : ProcRef) (vmaid rgid : Int) : Int × Os :=
  match getSymrgByid rgid with
  | none => (-1, os)
  | some slot =>
      let rgnode := (os.mm caller).symrgtbl slot
      if rgnode.rgStart = 0 ∧ rgnode.rgEnd = 0 then (-1, os)
      else
        let dropped := os.setSymrg caller rgid VmRgStruct.zero
        if kmemAddrIsKernel rgnode.rgStart then (0, dropped)
        else
          match enlistVmFreergList (dropped.mm caller) vmaid
              ⟨rgnode.rgStart, rgnode.rgEnd, .user⟩ with
          | (_, mm) => (0, dropped.setMm caller mm)

def liballoc (os : Os) (proc : ProcRef) (size : Addr) (regIndex : BitVec 32) : Int × Os :=
  match alloc os proc 0 regIndex.toInt size with
  | (val, done) =>
      if val = -1 then (-1, done)
      else (val, done.setMram (memphyDump done.mram))

def libfree (os : Os) (proc : ProcRef) (regIndex : BitVec 32) : Int × Os :=
  match free os proc 0 regIndex.toInt with
  | (val, done) => if val = -1 then (-1, done) else (0, done)

/-! ## One byte of user memory -/

/-- `pg_getpage`: the frame of a page, swapped in when it is on swap. -/
def pgGetpage (os : Os) (pgn : Int) (caller : ProcRef) : Int × Addr × Os :=
  let pte := pteGetEntry (os.mm caller) (ofInt pgn)
  if pagingPagePresent pte then (0, pagingFpn pte, os)
  else if !pagingPageSwapped pte then (-1, 0, os)
  else
    match findVictimPage (os.mm caller) with
    | none => (-1, 0, os)
    | some (vicpgn, unlinked) =>
        let picked := os.setMm caller unlinked
        match memphyGetFreefp picked.activeMswp with
        | none => (-1, 0, picked.setMm caller (enlistPgnNode (picked.mm caller) vicpgn))
        | some (swpfpn, taken) =>
            let reserved := picked.setActiveMswp taken
            let vicfpn := pagingFpn (pteGetEntry (reserved.mm caller) vicpgn)
            let tgtSwptyp : Int := reserved.activeMswpId
            let tgtSwpoff := pagingSwp pte
            match syscall reserved (reserved.pid caller) 17
                ⟨ofInt SYSMEM_SWP_OP, vicfpn, swpfpn⟩ with
            | (ret, _, evicted) =>
                if ret ≠ 0 then
                  let released :=
                    evicted.setActiveMswp (memphyPutFreefp evicted.activeMswp swpfpn)
                  (-1, 0, released.setMm caller (enlistPgnNode (released.mm caller) vicpgn))
                else
                  match swapCpPage evicted.activeMswp tgtSwpoff evicted.mram vicfpn with
                  | (mswp, mram) =>
                      let swappedOut := (pteSetSwap (evicted.mm caller) vicpgn tgtSwptyp swpfpn).2
                      let swappedIn := (pteSetFpn swappedOut (ofInt pgn) vicfpn).2
                      let loaded :=
                        (evicted.setMram mram).setActiveMswp (memphyPutFreefp mswp tgtSwpoff)
                      (0, vicfpn, loaded.setMm caller (enlistPgnNode swappedIn (ofInt pgn)))

def pgGetval (os : Os) (addr : Addr) (caller : ProcRef) : Int × Byte × Os :=
  let pgn := addr / PAGING_PAGESZ
  let off := addr % PAGING_PAGESZ
  match pgGetpage os (asInt pgn) caller with
  | (ret, fpn, paged) =>
      if ret ≠ 0 then (-1, 0, paged)
      else
        let phyaddr := fpn * PAGING_PAGESZ + off
        match syscall paged (paged.pid caller) 17 ⟨ofInt SYSMEM_IO_READ, phyaddr, 0⟩ with
        | (ret, regs, done) =>
            if ret < 0 then (-1, 0, done) else (0, regs.a3.setWidth 8, done)

def pgSetval (os : Os) (addr : Addr) (value : Byte) (caller : ProcRef) : Int × Os :=
  let pgn := addr / PAGING_PAGESZ
  let off := addr % PAGING_PAGESZ
  match pgGetpage os (asInt pgn) caller with
  | (ret, fpn, paged) =>
      if ret ≠ 0 then (-1, paged)
      else
        let phyaddr := fpn * PAGING_PAGESZ + off
        match syscall paged (paged.pid caller) 17
            ⟨ofInt SYSMEM_IO_WRITE, phyaddr, value.signExtend 64⟩ with
        | (ret, _, done) => if ret < 0 then (-1, done) else (0, done)

/-- `__resolve_rg_addr`: the user address of an offset in a user region. -/
def resolveRgAddr (os : Os) (caller : ProcRef) (rgid : Int) (offset : Addr) : Option Addr :=
  match getSymrgByid rgid with
  | none => none
  | some slot =>
      let currg := (os.mm caller).symrgtbl slot
      if currg.rgStart = currg.rgEnd ∨ currg.rgEnd - currg.rgStart ≤ offset then none
      else if currg.modeBit ≠ .user then none
      else some (currg.rgStart + offset)

/-- `__read`. -/
def read (os : Os) (caller : ProcRef) (rgid : Int) (offset : Addr) : Int × Byte × Os :=
  match resolveRgAddr os caller rgid offset with
  | none => (-1, 0, os)
  | some addr => pgGetval os addr caller

/-- `__write`. -/
def write (os : Os) (caller : ProcRef) (rgid : Int) (offset : Addr) (value : Byte) : Int × Os :=
  match resolveRgAddr os caller rgid offset with
  | none => (-1, os)
  | some addr => pgSetval os addr value caller

/-- `libread`, with the word it stores through `destination`. -/
def libread (os : Os) (proc : ProcRef) (source : BitVec 32) (offset : Addr) :
    Int × BitVec 32 × Os :=
  match read os proc source.toInt offset with
  | (val, data, done) => (val, if val = 0 then data.signExtend 32 else 0, done)

def libwrite (os : Os) (proc : ProcRef) (data : Byte) (destination : BitVec 32) (offset : Addr) :
    Int × Os :=
  write os proc destination.toInt offset data

/-! ## Kernel allocation -/

def libkmemMalloc (os : Os) (caller : ProcRef) (size regIndex : BitVec 32) : Int × Os :=
  if (os.procs caller).isNone ∨ PAGING_MAX_SYMTBL_SZ ≤ regIndex.toNat then (-1, os)
  else
    match kmemCarve os.kmem size.toInt with
    | (addr, kmem) =>
        let carved := os.setKmem kmem
        if addr = 0 then (-1, carved)
        else (0, carved.setSymrg caller regIndex.toNat ⟨addr, addr + size.setWidth 64, .kernel⟩)

def libkmemCachePoolCreate (os : Os) (caller : ProcRef) (size align cachePoolId : BitVec 32) :
    Int × Os :=
  if (os.procs caller).isNone ∨ align = 0 then (-1, os)
  else
    match poolIndex cachePoolId with
    | none => (-1, os)
    | some pool =>
        match kmemPoolReserve os.kmem size align pool with
        | (ret, kmem) => (ret, os.setKmem kmem)

def libkmemCacheAlloc (os : Os) (caller : ProcRef) (regIndex cachePoolId : BitVec 32) : Int × Os :=
  if (os.procs caller).isNone ∨ PAGING_MAX_SYMTBL_SZ ≤ regIndex.toNat then (-1, os)
  else
    match poolIndex cachePoolId with
    | none => (-1, os)
    | some pool =>
        match kmemSlot os.kmem pool with
        | none => (-1, os)
        | some (rg, kmem) => (0, (os.setKmem kmem).setSymrg caller regIndex.toNat rg)

/-! ## Copies between user and kernel space -/

/-- The loop of `libkmem_copy_from_user` from iteration `i` on.  The two slots
do not change while it runs. -/
def copyFromUserLoop (caller : ProcRef) (src dst : VmRgStruct) (offset : BitVec 32) :
    Nat → Nat → Os → Int × Os
  | 0, _, os => (0, os)
  | remaining + 1, i, os =>
      match pgGetval os (src.rgStart + offset.setWidth 64 + BitVec.ofNat 64 i) caller with
      | (ret, b, fetched) =>
          if ret ≠ 0 then (-1, fetched)
          else
            match kmemWriteByte fetched.kmem
                (dst.rgStart + offset.setWidth 64 + BitVec.ofNat 64 i) b with
            | (ret, kmem) =>
                if ret ≠ 0 then (-1, fetched)
                else copyFromUserLoop caller src dst offset remaining (i + 1)
                  (fetched.setKmem kmem)

/-- The loop of `libkmem_copy_to_user` from iteration `i` on. -/
def copyToUserLoop (caller : ProcRef) (src dst : VmRgStruct) (offset : BitVec 32) :
    Nat → Nat → Os → Int × Os
  | 0, _, os => (0, os)
  | remaining + 1, i, os =>
      match kmemReadByte os.kmem (src.rgStart + offset.setWidth 64 + BitVec.ofNat 64 i) with
      | (ret, b) =>
          if ret ≠ 0 then (-1, os)
          else
            match pgSetval os (dst.rgStart + offset.setWidth 64 + BitVec.ofNat 64 i) b caller with
            | (ret, stored) =>
                if ret ≠ 0 then (-1, stored)
                else copyToUserLoop caller src dst offset remaining (i + 1) stored

/-- The checks that both copies make on the two slots: one user region, one
kernel region, neither empty, and the kernel one starting in the pool. -/
def copyRegions (os : Os) (caller : ProcRef) (user kernel : BitVec 32) :
    Option (VmRgStruct × VmRgStruct) :=
  match os.procs caller, getSymrgByid user.toInt, getSymrgByid kernel.toInt with
  | some pcb, some userSlot, some kernelSlot =>
      let urg := pcb.mm.symrgtbl userSlot
      let krg := pcb.mm.symrgtbl kernelSlot
      if urg.rgStart = urg.rgEnd ∨ krg.rgStart = krg.rgEnd then none
      else if !kmemAddrIsKernel krg.rgStart then none
      else if urg.modeBit ≠ .user ∨ krg.modeBit ≠ .kernel then none
      else some (urg, krg)
  | _, _, _ => none

def libkmemCopyFromUser (os : Os) (caller : ProcRef) (source destination offset size : BitVec 32) :
    Int × Os :=
  match copyRegions os caller source destination with
  | none => (-1, os)
  | some (src, dst) => copyFromUserLoop caller src dst offset size.toNat 0 os

def libkmemCopyToUser (os : Os) (caller : ProcRef) (source destination offset size : BitVec 32) :
    Int × Os :=
  match copyRegions os caller destination source with
  | none => (-1, os)
  | some (dst, src) => copyToUserLoop caller src dst offset size.toNat 0 os

end Kernel
end Ossim
