import Ossim.Memory.Physical

namespace Ossim
namespace Memory

/-!
# Growing and mapping a virtual memory area

The functions of `mm-vm.c` and the mapping half of `mm64.c`.  They work on the
memory map of one process and on the RAM device; the system-call layer
supplies both.  The region that `vmap_page_range` reports back to its caller
is never read and is left out.

`vm_map_range` returns `addr_t`, and `inc_vma_limit` tests that result with
`< 0`.  The comparison is kept as an unsigned one.
-/

/-! ## Areas of a memory map -/

/-- The loop of `get_vma_by_num`, with the position of the area it stops at. -/
def walkVmas (vmaid : Int) : Nat → List VmAreaStruct → Option (Nat × VmAreaStruct)
  | _, [] => none
  | idx, pvma :: next =>
      if asInt pvma.vmId < vmaid then walkVmas vmaid (idx + 1) next else some (idx, pvma)

def getVmaByNum (mm : MmStruct) (vmaid : Int) : Option (Nat × VmAreaStruct) :=
  walkVmas vmaid 0 mm.mmap

def MmStruct.setVma (mm : MmStruct) (idx : Nat) (vma : VmAreaStruct) : MmStruct :=
  { mm with mmap := mm.mmap.set idx vma }

def validateOverlapVmArea (mm : MmStruct) (vmaid : Int) (vmastart vmaend : Addr) : Int :=
  if vmaend ≤ vmastart then -1
  else if mm.mmap = [] then -1
  else
    match getVmaByNum mm vmaid with
    | none => -1
    | some (cur, _) =>
        if mm.mmap.zipIdx.any (fun entry => decide (entry.2 ≠ cur) &&
            (decide (vmastart < entry.1.vmEnd) && decide (entry.1.vmStart < vmaend))) then -1
        else 0

/-! ## Frames and page-table entries -/

def enlistPgnNode (mm : MmStruct) (pgn : Addr) : MmStruct :=
  { mm with fifoPgn := pgn :: mm.fifoPgn }

/-- The loop of `alloc_pages_range`: `chain` holds the frames taken so far in
the order they were taken, and goes back frame by frame when RAM runs out. -/
def allocPagesLoop : Nat → MemphyStruct → List Addr → Addr × List Addr × MemphyStruct
  | 0, mram, chain => (0, chain, mram)
  | remaining + 1, mram, chain =>
      match memphyGetFreefp mram with
      | none => (ofInt (-1), [], chain.foldl memphyPutFreefp mram)
      | some (fpn, taken) => allocPagesLoop remaining taken (chain ++ [fpn])

def allocPagesRange (mram : MemphyStruct) (reqPgnum : Int) : Addr × List Addr × MemphyStruct :=
  allocPagesLoop reqPgnum.toNat mram []

/-- The two loops of `vmap_page_range`, from iteration `pgit` on. -/
def vmapPageLoop (pgnStart : Addr) (pgnum : Int) :
    Nat → List Addr → MmStruct → MemphyStruct → MmStruct × MemphyStruct
  | _, [], mm, mram => (mm, mram)
  | pgit, fpn :: next, mm, mram =>
      if (pgit : Int) < pgnum then
        let pgn := pgnStart + BitVec.ofNat 64 pgit
        match pteSetFpn mm pgn fpn with
        | (ret, stored) =>
            if ret = 0 then vmapPageLoop pgnStart pgnum (pgit + 1) next (enlistPgnNode stored pgn) mram
            else vmapPageLoop pgnStart pgnum (pgit + 1) next stored (memphyPutFreefp mram fpn)
      else (mm, (fpn :: next).foldl memphyPutFreefp mram)

def vmapPageRange (mm : MmStruct) (mram : MemphyStruct) (addr : Addr) (pgnum : Int)
    (frames : List Addr) : MmStruct × MemphyStruct :=
  vmapPageLoop (addr / PAGING_PAGESZ) pgnum 0 frames mm mram

def vmMapRange (mm : MmStruct) (mram : MemphyStruct) (mapstart : Addr) (incpgnum : Int) :
    Addr × MmStruct × MemphyStruct :=
  match allocPagesRange mram incpgnum with
  | (ret, frames, taken) =>
      if ret ≠ 0 then (ofInt (-1), mm, taken)
      else
        match vmapPageRange mm taken mapstart incpgnum frames with
        | (mapped, left) => (0, mapped, left)

/-- The loop of `vmap_pgd_memset`. -/
def vmapPgdMemsetLoop (pgnStart : Addr) : Nat → Nat → MmStruct → Int × MmStruct
  | 0, _, mm => (0, mm)
  | remaining + 1, pgit, mm =>
      match pteSetEntry mm (pgnStart + BitVec.ofNat 64 pgit) markerWord with
      | (ret, stored) =>
          if ret ≠ 0 then (-1, stored) else vmapPgdMemsetLoop pgnStart remaining (pgit + 1) stored

def vmapPgdMemset (mm : MmStruct) (addr : Addr) (pgnum : Int) : Int × MmStruct :=
  vmapPgdMemsetLoop (addr / PAGING_PAGESZ) pgnum.toNat 0 mm

/-! ## Growth -/

/-- `PAGING_PAGE_ALIGNSZ(sz)` in `addr_t` arithmetic. -/
def pagingPageAlignsz (sz : Addr) : Addr :=
  (sz + PAGING_PAGESZ - 1) / PAGING_PAGESZ * PAGING_PAGESZ

/-- The page count of `inc_vma_limit`, narrowed to `int`. -/
def incNumPage (incSz : Addr) : Int := asInt ((incSz + PAGING_PAGESZ - 1) / PAGING_PAGESZ)

def incAmt (incSz : Addr) : Addr := ofInt (incNumPage incSz) * PAGING_PAGESZ

def incVmaLimit (mm : MmStruct) (mram : MemphyStruct) (vmaid : Int) (incSz : Addr) :
    Int × MmStruct × MemphyStruct :=
  match getVmaByNum mm vmaid with
  | none => (-1, mm, mram)
  | some (idx, curVma) =>
      let oldEnd := curVma.sbrk
      let newEnd := oldEnd + incAmt incSz
      if validateOverlapVmArea mm vmaid oldEnd newEnd < 0 then (-1, mm, mram)
      else
        let moved : VmAreaStruct :=
          { curVma with
            sbrk := newEnd
            vmEnd := if curVma.vmEnd < newEnd then newEnd else curVma.vmEnd }
        match vmMapRange (mm.setVma idx moved) mram oldEnd (incNumPage incSz) with
        | (ret, mapped, left) =>
            -- an unsigned word is never below zero, so this branch is dead in the source too
            if ret < 0 then (-1, mapped.setVma idx curVma, left) else (0, mapped, left)

/-! ## Construction and page replacement -/

/-- `init_mm`.  `vma0` comes from `malloc`, and the first region is linked in
front of its `vm_freerg_list`, a field that has not been set: the parameter is
the list to which the field leads.  It is empty, a null pointer, in memory that
the heap has not used before.  In a block that held the area of an exited
process it leads to nodes that were freed with that process.  What the heap
later does with such nodes is not followed, so the results that read the free
list ask for the empty one. -/
def initMm (vmFreergList : List VmRgStruct) : MmStruct where
  pgd := Dir.cleared
  mm64DirAllocCount := 1
  mm64BytesAlloc := 512 * 8
  mmap := [⟨0, 0, 0, 0, ⟨0, 0, .kernel⟩ :: vmFreergList⟩]
  symrgtbl := fun _ => VmRgStruct.zero
  fifoPgn := []

/-- `find_victim_page` unlinks the tail of the list, the page that has been
resident longest. -/
def findVictimPage (mm : MmStruct) : Option (Addr × MmStruct) :=
  match mm.fifoPgn.getLast? with
  | none => none
  | some pgn => some (pgn, { mm with fifoPgn := mm.fifoPgn.dropLast })

end Memory
end Ossim
