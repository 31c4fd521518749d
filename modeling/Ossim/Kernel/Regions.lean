import Ossim.Kernel.Copies
import Ossim.Kernel.KernelPool
import Ossim.Kernel.Soundness

namespace Ossim
namespace Kernel

open Memory CopyLoop

/-!
# What an instruction does to the regions

Two allocators write the symbol table of a process.  `Regions` is the part of
the state that they share: the table and the free list of one process, and the
break and the pools of the kernel.  `RegionEffect` lists all that an
instruction can do to it, with the slot that the instruction names, the status
that it returns and the tests that it has passed.

`MmEffect` says less about regions and more about pages.  The two inversions
are independent of each other.
-/

structure Regions where
  table : Fin PAGING_MAX_SYMTBL_SZ → VmRgStruct
  nodes : List VmRgStruct
  brk : Int
  pools : Fin KMEM_MAX_POOLS → KmemCachePoolState

namespace Regions

/-- The regions of a process with a memory map, and the kernel pool. -/
def of (mm : MmStruct) (kmem : Kmem) : Regions :=
  ⟨mm.symrgtbl, mm.area.vmFreergList, kmem.brk, kmem.pools⟩

def store (regions : Regions) (slot : Fin PAGING_MAX_SYMTBL_SZ) (rg : VmRgStruct) : Regions :=
  { regions with table := Function.update regions.table slot rg }

def setNodes (regions : Regions) (nodes : List VmRgStruct) : Regions :=
  { regions with nodes := nodes }

def setBrk (regions : Regions) (brk : Int) : Regions := { regions with brk := brk }

def setPool (regions : Regions) (pool : Fin KMEM_MAX_POOLS) (state : KmemCachePoolState) :
    Regions :=
  { regions with pools := Function.update regions.pools pool state }

theorem table_store_self (regions : Regions) (slot : Fin PAGING_MAX_SYMTBL_SZ) (rg : VmRgStruct) :
    (regions.store slot rg).table slot = rg :=
  Function.update_self _ _ _

theorem table_store_of_ne (regions : Regions) {slot other : Fin PAGING_MAX_SYMTBL_SZ}
    (rg : VmRgStruct) (different : other ≠ slot) :
    (regions.store slot rg).table other = regions.table other :=
  Function.update_of_ne different _ _

theorem pools_setPool_self (regions : Regions) (pool : Fin KMEM_MAX_POOLS)
    (state : KmemCachePoolState) : (regions.setPool pool state).pools pool = state :=
  Function.update_self _ _ _

theorem pools_setPool_of_ne (regions : Regions) {pool other : Fin KMEM_MAX_POOLS}
    (state : KmemCachePoolState) (different : other ≠ pool) :
    (regions.setPool pool state).pools other = regions.pools other :=
  Function.update_of_ne different _ _

end Regions

def Os.regions (os : Os) (proc : ProcRef) : Regions := Regions.of (os.mm proc) os.kmem

/-- The slot of the symbol table that an instruction assigns when it
succeeds. -/
def Inst.target (ins : Inst) : Option (Fin PAGING_MAX_SYMTBL_SZ) :=
  match ins.opcode with
  | .ALLOC => getSymrgByid (ins.arg1.setWidth 32 : BitVec 32).toInt
  | .FREE => getSymrgByid (ins.arg0.setWidth 32 : BitVec 32).toInt
  | .KMALLOC => getSymrgByid (ins.arg1.setWidth 32 : BitVec 32).toNat
  | .KMEM_CACHE_ALLOC => getSymrgByid (ins.arg0.setWidth 32 : BitVec 32).toNat
  | _ => none

/-- The calls that hand out kernel memory. -/
def Inst.HandsOut (ins : Inst) : Prop :=
  ins.opcode = .KMALLOC ∨ ins.opcode = .KMEM_CACHE_CREATE ∨ ins.opcode = .KMEM_CACHE_ALLOC

instance (ins : Inst) : Decidable ins.HandsOut := inferInstanceAs (Decidable (_ ∨ _ ∨ _))

/-- The address where the next chunk of the kernel pool starts. -/
def kmemNext (kmem : Kmem) : Addr := KMEM_VBASE + ofInt kmem.brk

/-- An `int` break gives no chunk the error value as its address. -/
theorem kmemNext_ne_zero {kmem : Kmem} (lower : -2 ^ 31 ≤ kmem.brk) (upper : kmem.brk < 2 ^ 31) :
    kmemNext kmem ≠ 0 := by
  intro address
  have base : KMEM_VBASE.toNat = 2 ^ 56 := by decide
  have zero : (0 : Addr).toNat = 0 := rfl
  have oldBreak := toNat_ofInt kmem.brk
  have start := congrArg BitVec.toNat address
  rw [kmemNext, BitVec.toNat_add, base, zero] at start
  omega

/-- The slot of a cache pool that is handed out next. -/
def nextSlot (state : KmemCachePoolState) : VmRgStruct :=
  ⟨state.storage + ofInt state.nextSlot, state.storage + ofInt state.nextSlot + ofInt state.align,
    .kernel⟩

/-- The regions after an instruction, beside its status. -/
inductive RegionEffect (ins : Inst) (resolves : Prop) (mm : MmStruct) (kmem : Kmem) :
    Int → Regions → Prop
  | kept (status : Int) (failed : ins.HandsOut → status ≠ 0) :
      RegionEffect ins resolves mm kmem status (.of mm kmem)
  | taken (slot : Fin PAGING_MAX_SYMTBL_SZ) (newrg : VmRgStruct) (left : List VmRgStruct)
      (opcode : ins.opcode = .ALLOC) (target : ins.target = some slot)
      (found : firstFit (asInt ins.arg0) mm.area.vmFreergList = some (newrg, left)) :
      RegionEffect ins resolves mm kmem 0 (((Regions.of mm kmem).setNodes left).store slot newrg)
  | refused (searched : MmStruct) (opcode : ins.opcode = .ALLOC)
      (search : Searched (asInt ins.arg0) mm searched) :
      RegionEffect ins resolves mm kmem (-1)
        ((Regions.of mm kmem).setNodes searched.area.vmFreergList)
  | grown (slot : Fin PAGING_MAX_SYMTBL_SZ) (searched : MmStruct)
      (opcode : ins.opcode = .ALLOC) (target : ins.target = some slot) (resolved : resolves)
      (search : Searched (asInt ins.arg0) mm searched)
      (accepted : mm.area.sbrk < mm.area.sbrk + incAmt (pagingPageAlignsz ins.arg0)) :
      RegionEffect ins resolves mm kmem 0
        (((Regions.of mm kmem).setNodes searched.area.vmFreergList).store slot
          ⟨mm.area.sbrk, mm.area.sbrk + ins.arg0, .user⟩)
  | dropped (slot : Fin PAGING_MAX_SYMTBL_SZ) (opcode : ins.opcode = .FREE)
      (target : ins.target = some slot)
      (reason : kmemAddrIsKernel (mm.symrgtbl slot).rgStart = true ∨
        (mm.symrgtbl slot).rgEnd ≤ (mm.symrgtbl slot).rgStart) :
      RegionEffect ins resolves mm kmem 0 ((Regions.of mm kmem).store slot VmRgStruct.zero)
  | returned (slot : Fin PAGING_MAX_SYMTBL_SZ) (opcode : ins.opcode = .FREE)
      (target : ins.target = some slot)
      (outside : kmemAddrIsKernel (mm.symrgtbl slot).rgStart = false)
      (ordered : (mm.symrgtbl slot).rgStart < (mm.symrgtbl slot).rgEnd) :
      RegionEffect ins resolves mm kmem 0
        (((Regions.of mm kmem).store slot VmRgStruct.zero).setNodes
          (⟨(mm.symrgtbl slot).rgStart, (mm.symrgtbl slot).rgEnd, .user⟩ ::
            mm.area.vmFreergList))
  | carved (slot : Fin PAGING_MAX_SYMTBL_SZ) (size : BitVec 32)
      (opcode : ins.opcode = .KMALLOC) (target : ins.target = some slot)
      (asked : ins.arg0.setWidth 32 = size) (positive : 0 < size.toInt)
      (room : wrapInt (kmem.brk + size.toInt) ≤ KMEM_POOL_SIZE) :
      RegionEffect ins resolves mm kmem 0
        (((Regions.of mm kmem).setBrk (wrapInt (kmem.brk + size.toInt))).store slot
          ⟨kmemNext kmem, kmemNext kmem + ofInt size.toInt, .kernel⟩)
  | reserved (pool : Fin KMEM_MAX_POOLS) (size align : BitVec 32)
      (opcode : ins.opcode = .KMEM_CACHE_CREATE)
      (named : poolIndex (ins.arg2.setWidth 32) = some pool)
      (asked : ins.arg0.setWidth 32 = size ∧ ins.arg1.setWidth 32 = align) (aligned : align ≠ 0)
      (unused : (kmem.pools pool).used = false) (positive : 0 < size.toInt)
      (room : wrapInt (kmem.brk + size.toInt) ≤ KMEM_POOL_SIZE) :
      RegionEffect ins resolves mm kmem 0
        (((Regions.of mm kmem).setBrk (wrapInt (kmem.brk + size.toInt))).setPool pool
          ⟨true, size.toInt, align.toInt, kmemNext kmem, 0⟩)
  | wasted (size : Int) (address : kmemNext kmem = 0) :
      RegionEffect ins resolves mm kmem (-1)
        ((Regions.of mm kmem).setBrk (wrapInt (kmem.brk + size)))
  | slotted (slot : Fin PAGING_MAX_SYMTBL_SZ) (pool : Fin KMEM_MAX_POOLS)
      (opcode : ins.opcode = .KMEM_CACHE_ALLOC) (target : ins.target = some slot)
      (named : poolIndex (ins.arg1.setWidth 32) = some pool)
      (used : (kmem.pools pool).used = true)
      (room : wrapInt ((kmem.pools pool).nextSlot + (kmem.pools pool).align) ≤
        (kmem.pools pool).size) :
      RegionEffect ins resolves mm kmem 0
        (((Regions.of mm kmem).store slot (nextSlot (kmem.pools pool))).setPool pool
          { kmem.pools pool with
            nextSlot := wrapInt ((kmem.pools pool).nextSlot + (kmem.pools pool).align) })

/-! ## Data steps -/

/-- The regions depend on the memory map and on two fields of the pool. -/
theorem regions_eq {before after : Os} {proc : ProcRef} (mm : after.mm proc = before.mm proc)
    (brk : after.kmem.brk = before.kmem.brk) (pools : after.kmem.pools = before.kmem.pools) :
    after.regions proc = before.regions proc := by
  rw [Os.regions, Os.regions, Regions.of, Regions.of, mm, brk, pools]

private theorem setReg_kmem (os : Os) (proc : ProcRef) (index value : Addr) :
    (os.setReg proc index value).kmem = os.kmem := by
  unfold Os.setReg
  split <;> rfl

private theorem libread_kmem (os : Os) (proc : ProcRef) (source : BitVec 32) (offset : Addr) :
    (libread os proc source offset).2.2.kmem = os.kmem := by
  unfold libread read
  cases resolveRgAddr os proc source.toInt offset with
  | none => rfl
  | some addr => exact kmem_pgGetval os addr proc

private theorem libwrite_kmem (os : Os) (proc : ProcRef) (data : Byte) (destination : BitVec 32)
    (offset : Addr) : (libwrite os proc data destination offset).2.kmem = os.kmem := by
  unfold libwrite write
  cases resolveRgAddr os proc destination.toInt offset with
  | none => rfl
  | some addr => exact kmem_pgSetval os addr data proc

/-- A copy into the pool moves neither the break nor a pool. -/
private theorem copyFromUserLoop_pools (caller : ProcRef) (src dst : VmRgStruct)
    (offset : BitVec 32) (count : Nat) (os : Os) :
    (copyFromUserLoop caller src dst offset count 0 os).2.kmem.brk = os.kmem.brk ∧
      (copyFromUserLoop caller src dst offset count 0 os).2.kmem.pools = os.kmem.pools := by
  rw [copyFromUserLoop_eq]
  have kept : (fun os : Os => (os.kmem.brk, os.kmem.pools))
      (copy (fetchUser caller src offset) (storeKernel dst offset) count 0 os).2 =
        (os.kmem.brk, os.kmem.pools) := by
    refine copy_keeps (fun os : Os => (os.kmem.brk, os.kmem.pools)) (fun _ => False)
      (fun _ => True) ?_ ?_ trivial (fun _ _ => id)
    · intro i state _
      refine ⟨?_, trivial⟩
      rw [fetchUser, kmem_pgGetval]
    · intro i b state _ _
      refine ⟨?_, trivial⟩
      unfold storeKernel kmemWriteByte
      cases kmemAddrIsKernel (cellAddr dst offset i) <;> rfl
  exact Prod.mk.inj kept

private theorem copyToUserLoop_kmem (caller : ProcRef) (src dst : VmRgStruct)
    (offset : BitVec 32) (count : Nat) (os : Os) :
    (copyToUserLoop caller src dst offset count 0 os).2.kmem = os.kmem := by
  rw [copyToUserLoop_eq]
  refine copy_keeps (fun os : Os => os.kmem) (fun _ => False) (fun _ => True) ?_ ?_ trivial
    (fun _ _ => id)
  · intro i state _
    exact ⟨rfl, trivial⟩
  · intro i b state _ _
    exact ⟨kmem_pgSetval state _ b caller, trivial⟩

/-! ## Allocation and release -/

theorem regions_setMm {os : Os} {proc : ProcRef} (live : (os.procs proc).isSome = true)
    (mm : MmStruct) : (os.setMm proc mm).regions proc = Regions.of mm os.kmem := by
  rw [Os.regions, Os.mm_setMm_self live, Os.setMm_kmem]

theorem Regions.of_setRegion (mm : MmStruct) (kmem : Kmem) (slot : Fin PAGING_MAX_SYMTBL_SZ)
    (rg : VmRgStruct) : Regions.of (mm.setRegion slot rg) kmem = (Regions.of mm kmem).store slot rg :=
  rfl

theorem Regions.of_setFreeList {mm : MmStruct} (sound : mm.Sound) (kmem : Kmem)
    (nodes : List VmRgStruct) :
    Regions.of (mm.setFreeList nodes) kmem = (Regions.of mm kmem).setNodes nodes := by
  rw [of, sound.area_setFreeList, MmStruct.symrgtbl_setFreeList]
  rfl

private theorem liballoc_regions {os : Os} (sound : os.Sound) {proc : ProcRef}
    (live : (os.procs proc).isSome = true) (ins : Inst) (opcode : ins.opcode = .ALLOC)
    (defined : (liballoc os proc ins.arg0 (ins.arg1.setWidth 32)).2.fault = false) :
    RegionEffect ins (os.Resolves proc) (os.mm proc) os.kmem
      (liballoc os proc ins.arg0 (ins.arg1.setWidth 32)).1
      ((liballoc os proc ins.arg0 (ins.arg1.setWidth 32)).2.regions proc) := by
  have mmSound := sound.memory proc
  have target : ins.target = getSymrgByid (ins.arg1.setWidth 32 : BitVec 32).toInt := by
    rw [Inst.target, opcode]
  rcases alloc_cases sound live (ins.arg1.setWidth 32 : BitVec 32).toInt ins.arg0 with
    ⟨newrg, left, found, _, taken⟩ | ⟨searched, search, _, refused⟩ |
      ⟨resolves, searched, grown, left, search, growth, accepted⟩
  · rw [liballoc_of_alloc taken] at defined ⊢
    rcases Os.setSymrg_of_unfaulted defined with ⟨slot, named, stored⟩
    have after := regions_setMm live (((os.mm proc).setFreeList left).setRegion slot newrg)
    rw [Regions.of_setRegion, Regions.of_setFreeList mmSound] at after
    dsimp only
    rw [stored, Os.setMm_setMm, Os.mm_setMm_self live]
    refine cast (congrArg _ after.symm) (RegionEffect.taken slot newrg left opcode ?_ found)
    rw [target, named]
  · rw [liballoc_of_refused refused]
    dsimp only
    rw [regions_setMm live]
    have nodes : Regions.of searched os.kmem =
        (Regions.of (os.mm proc) os.kmem).setNodes searched.area.vmFreergList := by
      rw [Regions.of, search.symrgtbl]
      rfl
    rw [nodes]
    exact .refused searched opcode search
  · rw [liballoc_of_alloc accepted] at defined ⊢
    rcases Os.setSymrg_of_unfaulted defined with ⟨slot, named, stored⟩
    have raised := growth.accepted
    rw [search.sbrk mmSound] at raised
    have liveGrown : (((os.setMm proc grown).setMram left).procs proc).isSome = true := by
      rw [Os.setMram_procs, isSome_of_control ((frame_setMm_self os proc grown).control proc)]
      exact live
    have after := regions_setMm liveGrown (grown.setRegion slot
      ⟨(os.mm proc).area.sbrk, (os.mm proc).area.sbrk + ins.arg0, .user⟩)
    have nodes : Regions.of grown os.kmem =
        (Regions.of (os.mm proc) os.kmem).setNodes searched.area.vmFreergList := by
      rw [Regions.of, growth.symrgtbl, search.symrgtbl, growth.vmFreergList]
      rfl
    rw [Regions.of_setRegion, Os.setMram_kmem, Os.setMm_kmem, nodes] at after
    have own : ((os.setMm proc grown).setMram left).mm proc = grown := Os.mm_setMm_self live grown
    dsimp only
    rw [stored, own]
    refine cast (congrArg _ after.symm)
      (RegionEffect.grown slot searched opcode ?_ resolves search raised)
    rw [target, named]

/-- A release, with the reason for which it may drop a region. -/
private theorem free_regions {os : Os} (sound : os.Sound) {proc : ProcRef}
    (live : (os.procs proc).isSome = true) (ins : Inst) (opcode : ins.opcode = .FREE) :
    RegionEffect ins (os.Resolves proc) (os.mm proc) os.kmem
      (free os proc 0 (ins.arg0.setWidth 32 : BitVec 32).toInt).1
      ((free os proc 0 (ins.arg0.setWidth 32 : BitVec 32).toInt).2.regions proc) := by
  have unhanded : ¬ ins.HandsOut := by
    unfold Inst.HandsOut
    rw [opcode]
    decide
  have target : ins.target = getSymrgByid (ins.arg0.setWidth 32 : BitVec 32).toInt := by
    rw [Inst.target, opcode]
  unfold free
  cases named : getSymrgByid (ins.arg0.setWidth 32 : BitVec 32).toInt with
  | none => exact .kept _ fun hands => absurd hands unhanded
  | some slot =>
      rw [named] at target
      dsimp only
      by_cases empty : ((os.mm proc).symrgtbl slot).rgStart = 0 ∧
          ((os.mm proc).symrgtbl slot).rgEnd = 0
      · rw [if_pos empty]
        exact .kept _ fun hands => absurd hands unhanded
      · rw [if_neg empty]
        have stored : os.setSymrg proc (ins.arg0.setWidth 32 : BitVec 32).toInt VmRgStruct.zero =
            os.setMm proc ((os.mm proc).setRegion slot VmRgStruct.zero) := by
          rw [Os.setSymrg, named]
          rfl
        have cleared := (sound.memory proc).setRegion slot VmRgStruct.zero
        rw [stored, Os.mm_setMm_self live, enlistVmFreergList_eq cleared]
        cases inside : kmemAddrIsKernel ((os.mm proc).symrgtbl slot).rgStart with
        | true =>
            rw [if_pos rfl, regions_setMm live, Regions.of_setRegion]
            exact .dropped slot opcode target (Or.inl inside)
        | false =>
            rw [if_neg Bool.false_ne_true]
            by_cases unordered : ((os.mm proc).symrgtbl slot).rgEnd ≤
                ((os.mm proc).symrgtbl slot).rgStart
            · rw [if_pos unordered]
              dsimp only
              rw [Os.setMm_setMm, regions_setMm live, Regions.of_setRegion]
              exact .dropped slot opcode target (Or.inr unordered)
            · rw [if_neg unordered]
              dsimp only
              rw [Os.setMm_setMm, regions_setMm live, Regions.of_setFreeList cleared,
                Regions.of_setRegion]
              exact .returned slot opcode target inside (BitVec.not_le.mp unordered)

private theorem libfree_regions {os : Os} (sound : os.Sound) {proc : ProcRef}
    (live : (os.procs proc).isSome = true) (ins : Inst) (opcode : ins.opcode = .FREE) :
    RegionEffect ins (os.Resolves proc) (os.mm proc) os.kmem
      (libfree os proc (ins.arg0.setWidth 32)).1
      ((libfree os proc (ins.arg0.setWidth 32)).2.regions proc) := by
  have freed := free_regions sound live ins opcode
  have status : (libfree os proc (ins.arg0.setWidth 32)).1 =
      (free os proc 0 (ins.arg0.setWidth 32 : BitVec 32).toInt).1 := by
    unfold libfree
    rcases free_cases sound live (ins.arg0.setWidth 32 : BitVec 32).toInt with
      failed | ⟨slot, _, dropped | ⟨_, _, returned⟩⟩
    · rw [failed]
      rfl
    · rw [dropped]
      rfl
    · rw [returned]
      rfl
  rw [libfree_state, status]
  exact freed

/-! ## Kernel memory -/

private theorem libkmemMalloc_regions {os : Os} {proc : ProcRef}
    (live : (os.procs proc).isSome = true) (ins : Inst) (opcode : ins.opcode = .KMALLOC) :
    RegionEffect ins (os.Resolves proc) (os.mm proc) os.kmem
      (libkmemMalloc os proc (ins.arg0.setWidth 32) (ins.arg1.setWidth 32)).1
      ((libkmemMalloc os proc (ins.arg0.setWidth 32) (ins.arg1.setWidth 32)).2.regions proc) := by
  have failed : (-1 : Int) ≠ 0 := by decide
  generalize asked : ins.arg0.setWidth 32 = size
  unfold libkmemMalloc
  by_cases refused : (os.procs proc).isNone = true ∨
      PAGING_MAX_SYMTBL_SZ ≤ (ins.arg1.setWidth 32 : BitVec 32).toNat
  · rw [if_pos refused]
    exact .kept _ fun _ => failed
  · rw [if_neg refused]
    push Not at refused
    rcases kmemCarve_cases os.kmem size.toInt with ⟨_, nothing⟩ | ⟨positive, room, cut⟩
    · rw [nothing]
      exact .kept _ fun _ => failed
    · rw [cut, ← kmemNext]
      dsimp only
      by_cases address : kmemNext os.kmem = 0
      · rw [if_pos address]
        exact .wasted size.toInt address
      · rw [if_neg address]
        rcases @setSymrg_below (os.setKmem { os.kmem with brk := wrapInt (os.kmem.brk + size.toInt) })
          proc _ (Nat.not_le.mpr refused.2)
          ⟨kmemNext os.kmem, kmemNext os.kmem + size.setWidth 64, .kernel⟩ with
          ⟨slot, named, stored⟩
        have target : ins.target = some slot := by
          rw [Inst.target, opcode, ← named]
        dsimp only
        rw [stored, regions_setMm (by exact live), Regions.of_setRegion,
          ← ofInt_toInt size positive]
        exact .carved slot size opcode target asked positive room

private theorem libkmemCachePoolCreate_regions (os : Os) (proc : ProcRef) (ins : Inst)
    (opcode : ins.opcode = .KMEM_CACHE_CREATE) :
    RegionEffect ins (os.Resolves proc) (os.mm proc) os.kmem
      (libkmemCachePoolCreate os proc (ins.arg0.setWidth 32) (ins.arg1.setWidth 32)
        (ins.arg2.setWidth 32)).1
      ((libkmemCachePoolCreate os proc (ins.arg0.setWidth 32) (ins.arg1.setWidth 32)
        (ins.arg2.setWidth 32)).2.regions proc) := by
  have failed : (-1 : Int) ≠ 0 := by decide
  generalize askedSize : ins.arg0.setWidth 32 = size
  generalize askedAlign : ins.arg1.setWidth 32 = align
  unfold libkmemCachePoolCreate
  by_cases refused : (os.procs proc).isNone = true ∨ align = 0
  · rw [if_pos refused]
    exact .kept _ fun _ => failed
  · rw [if_neg refused]
    push Not at refused
    cases named : poolIndex (ins.arg2.setWidth 32) with
    | none => exact .kept _ fun _ => failed
    | some pool =>
        dsimp only
        unfold kmemPoolReserve
        cases used : (os.kmem.pools pool).used with
        | true =>
            rw [if_pos rfl]
            exact .kept _ fun _ => failed
        | false =>
            rw [if_neg Bool.false_ne_true]
            rcases kmemCarve_cases os.kmem size.toInt with ⟨_, nothing⟩ | ⟨positive, room, cut⟩
            · rw [nothing]
              exact .kept _ fun _ => failed
            · rw [cut, ← kmemNext]
              dsimp only
              by_cases address : kmemNext os.kmem = 0
              · rw [if_pos address]
                exact .wasted size.toInt address
              · rw [if_neg address]
                exact .reserved pool size align opcode named ⟨askedSize, askedAlign⟩ refused.2
                  used positive room

private theorem libkmemCacheAlloc_regions {os : Os} {proc : ProcRef}
    (live : (os.procs proc).isSome = true) (ins : Inst)
    (opcode : ins.opcode = .KMEM_CACHE_ALLOC) :
    RegionEffect ins (os.Resolves proc) (os.mm proc) os.kmem
      (libkmemCacheAlloc os proc (ins.arg0.setWidth 32) (ins.arg1.setWidth 32)).1
      ((libkmemCacheAlloc os proc (ins.arg0.setWidth 32) (ins.arg1.setWidth 32)).2.regions
        proc) := by
  have failed : (-1 : Int) ≠ 0 := by decide
  unfold libkmemCacheAlloc
  by_cases refused : (os.procs proc).isNone = true ∨
      PAGING_MAX_SYMTBL_SZ ≤ (ins.arg0.setWidth 32 : BitVec 32).toNat
  · rw [if_pos refused]
    exact .kept _ fun _ => failed
  · rw [if_neg refused]
    push Not at refused
    cases named : poolIndex (ins.arg1.setWidth 32) with
    | none => exact .kept _ fun _ => failed
    | some pool =>
        dsimp only
        unfold kmemSlot
        by_cases denied : (os.kmem.pools pool).used = false ∨
            wrapInt ((os.kmem.pools pool).nextSlot + (os.kmem.pools pool).align) >
              (os.kmem.pools pool).size
        · rw [if_pos denied]
          exact .kept _ fun _ => failed
        · rw [if_neg denied]
          push Not at denied
          have used := Bool.eq_true_of_not_eq_false denied.1
          dsimp only
          rw [← nextSlot]
          rcases setSymrg_below (Nat.not_le.mpr refused.2) (nextSlot (os.kmem.pools pool)) with
            ⟨slot, found, stored⟩
          have target : ins.target = some slot := by
            rw [Inst.target, opcode, ← found]
          rw [stored, regions_setMm (by exact live), Regions.of_setRegion]
          exact .slotted slot pool opcode target named used denied.2

/-! ## All instructions -/

/-- A raw system call moves the break of the area and marks pages, and leaves
the regions alone. -/
private theorem libsyscall_regions {os : Os} (sound : os.Sound) {proc : ProcRef}
    (live : (os.procs proc).isSome = true) (nr : BitVec 32) (a1 a2 a3 : Addr) :
    (libsyscall os proc nr a1 a2 a3).2.regions proc = os.regions proc := by
  have kmem : (libsyscall os proc nr a1 a2 a3).2.kmem = os.kmem := kmem_syscall _ _ _ _
  suffices kept : Regions.of ((libsyscall os proc nr a1 a2 a3).2.mm proc) os.kmem =
      Regions.of (os.mm proc) os.kmem by
    rw [Os.regions, kmem, kept, Os.regions]
  have own : ∀ mm, (os.setMm proc mm).mm proc = mm := fun mm => Os.mm_setMm_self live mm
  unfold libsyscall syscall
  dsimp only
  split
  · rfl
  · split
    · unfold sysMemmap
      dsimp only
      cases resolved : schedFindProcByPid os (os.pid proc) with
      | none => rfl
      | some found =>
          have same := sound.resolve live resolved
          subst same
          dsimp only
          split
          · have mark := vmapPgdMemset_marked (os.mm found) a2 (asInt a3)
            dsimp only
            rw [own, Regions.of, mark.symrgtbl, MmStruct.area, mark.mmap]
            rfl
          · split
            · rcases incVmaLimit_cases (sound.memory found) os.mram (asInt a2) a3
                with ⟨_, refused⟩ | ⟨_, grown, left, accepted, growth⟩
              · rw [refused]
                dsimp only
                rw [Os.setMm_self]
                rfl
              · rw [accepted]
                dsimp only
                rw [Os.mm_setMram, own, Regions.of, growth.symrgtbl, growth.vmFreergList]
                rfl
            · split
              · unfold mmSwapPage
                generalize swapCpPage os.mram a2 os.activeMswp a3 = devices
                rfl
              · split
                · rw [memphyRead_of_random sound.mramRandom]
                  rfl
                · split <;> rfl
    · rfl

theorem dispatch_regions {os : Os} (sound : os.Sound) {proc : ProcRef}
    (live : (os.procs proc).isSome = true) (ins : Inst)
    (defined : (dispatch os proc ins).2.fault = false) :
    RegionEffect ins (os.Resolves proc) (os.mm proc) os.kmem (dispatch os proc ins).1
      ((dispatch os proc ins).2.regions proc) := by
  have unswapped := sound.unswapped proc
  have random := sound.mramRandom
  have quiet : ∀ {status : Int} {after : Os}, ¬ ins.HandsOut →
      after.regions proc = os.regions proc →
        RegionEffect ins (os.Resolves proc) (os.mm proc) os.kmem status (after.regions proc) := by
    intro status after unhanded same
    rw [same]
    exact .kept status fun hands => absurd hands unhanded
  unfold dispatch at defined ⊢
  cases opcode : ins.opcode with
  | CALC =>
      apply quiet (by simp [Inst.HandsOut, opcode])
      rfl
  | ALLOC =>
      rw [opcode] at defined
      exact liballoc_regions sound live ins opcode defined
  | FREE => exact libfree_regions sound live ins opcode
  | READ =>
      have reading := dataStep_libread unswapped random (ins.arg0.setWidth 32) ins.arg1
      have kmem := libread_kmem os proc (ins.arg0.setWidth 32) ins.arg1
      apply quiet (by simp [Inst.HandsOut, opcode])
      dsimp only
      split
      · apply regions_eq
        · rw [mm_setReg, reading.mm]
        · rw [setReg_kmem, kmem]
        · rw [setReg_kmem, kmem]
      · exact regions_eq (reading.mm proc) (by rw [kmem]) (by rw [kmem])
  | WRITE =>
      have writing := dataStep_libwrite unswapped random (ins.arg0.setWidth 8)
        (ins.arg1.setWidth 32) ins.arg2
      have kmem := libwrite_kmem os proc (ins.arg0.setWidth 8) (ins.arg1.setWidth 32) ins.arg2
      apply quiet (by simp [Inst.HandsOut, opcode])
      exact regions_eq (writing.mm proc) (by rw [kmem]) (by rw [kmem])
  | KMALLOC => exact libkmemMalloc_regions live ins opcode
  | KMEM_CACHE_CREATE => exact libkmemCachePoolCreate_regions os proc ins opcode
  | KMEM_CACHE_ALLOC => exact libkmemCacheAlloc_regions live ins opcode
  | COPY_FROM_USER =>
      apply quiet (by simp [Inst.HandsOut, opcode])
      dsimp only
      unfold libkmemCopyFromUser
      cases copyRegions os proc (ins.arg0.setWidth 32) (ins.arg1.setWidth 32) with
      | none => rfl
      | some regions =>
          have pools := copyFromUserLoop_pools proc regions.1 regions.2 (ins.arg2.setWidth 32)
            (ins.arg3.setWidth 32 : BitVec 32).toNat os
          have copying := dataStep_copyFromUserLoop proc regions.1 regions.2 (ins.arg2.setWidth 32)
            (ins.arg3.setWidth 32 : BitVec 32).toNat 0 os unswapped random
          exact regions_eq (copying.mm proc) pools.1 pools.2
  | COPY_TO_USER =>
      apply quiet (by simp [Inst.HandsOut, opcode])
      dsimp only
      unfold libkmemCopyToUser
      cases copyRegions os proc (ins.arg1.setWidth 32) (ins.arg0.setWidth 32) with
      | none => rfl
      | some regions =>
          have kmem := copyToUserLoop_kmem proc regions.2 regions.1 (ins.arg2.setWidth 32)
            (ins.arg3.setWidth 32 : BitVec 32).toNat os
          have copying := dataStep_copyToUserLoop proc regions.2 regions.1 (ins.arg2.setWidth 32)
            (ins.arg3.setWidth 32 : BitVec 32).toNat 0 os unswapped random
          exact regions_eq (copying.mm proc) (congrArg Kmem.brk kmem) (congrArg Kmem.pools kmem)
  | SYSCALL =>
      apply quiet (by simp [Inst.HandsOut, opcode])
      exact libsyscall_regions sound live _ _ _ _

/-- The effect of `run`, seen from the state before the counter moves. -/
theorem run_regions {os : Os} (sound : os.Sound) {proc : ProcRef}
    (live : (os.procs proc).isSome = true) {ins : Inst} (fetched : fetch os proc = some ins)
    (defined : (run os proc).2.fault = false) :
    RegionEffect ins (os.Resolves proc) (os.mm proc) os.kmem (run os proc).1
      ((run os proc).2.regions proc) := by
  rw [run_of_fetch fetched] at defined ⊢
  have effect := dispatch_regions (sound.advance proc) (by rw [isSome_advance]; exact live) ins
    defined
  rw [mm_advance, resolves_advance] at effect
  exact effect

/-! ## All actions -/

theorem regions_of_quiet {before after : Os} (quiet : Quiet before after)
    (kmem : after.kmem = before.kmem) (proc : ProcRef) :
    after.regions proc = before.regions proc :=
  regions_eq (quiet.mm proc) (congrArg Kmem.brk kmem) (congrArg Kmem.pools kmem)

/-- What an action does to the regions of all processes. -/
theorem kernelStep_regions {os after : Os} (sound : os.Sound) {action : KernelAction}
    (taken : kernelStep os action = some after) :
    ((∀ caller ins, action = .run caller → fetch os caller ≠ some ins) ∧
        ∀ proc, after.regions proc = os.regions proc) ∨
      (∃ caller ins, action = .run caller ∧ (os.procs caller).isSome = true ∧
        fetch os caller = some ins ∧ after = (run os caller).2 ∧
        RegionEffect ins (os.Resolves caller) (os.mm caller) os.kmem (run os caller).1
          (after.regions caller) ∧
        ∀ proc, proc ≠ caller → after.mm proc = os.mm proc) ∨
      ∃ freed, action = .freePcb freed ∧ ∀ proc, after.regions proc =
        if proc = freed then Regions.of (initMm (os.freergHeads proc)) os.kmem
        else os.regions proc := by
  have idle : ∀ {other}, (∀ caller, other ≠ KernelAction.run caller) → ∀ caller ins,
      other = .run caller → fetch os caller ≠ some ins :=
    fun never caller _ same => absurd same (never caller)
  cases kernelStep_effect taken with
  | load code prio =>
      have loading := quiet_load sound code prio
      have adding := quiet_addProc (load os code prio) os.availPid
      refine Or.inl ⟨idle fun _ => KernelAction.noConfusion, fun proc => ?_⟩
      exact (regions_of_quiet adding rfl proc).trans (regions_of_quiet loading rfl proc)
  | run caller live defined =>
      cases fetched : fetch os caller with
      | none =>
          rw [run_of_end fetched]
          refine Or.inl ⟨fun other ins same found => ?_, fun _ => rfl⟩
          rw [← KernelAction.run.inj same, fetched] at found
          cases found
      | some ins =>
          exact Or.inr (Or.inl ⟨caller, ins, rfl, live, fetched, rfl,
            run_regions sound live fetched defined.1,
            fun proc different => mm_run_others sound live different⟩)
  | getProc => exact Or.inl ⟨idle fun _ => KernelAction.noConfusion, fun _ => rfl⟩
  | putProc proc =>
      exact Or.inl ⟨idle fun _ => KernelAction.noConfusion,
        regions_of_quiet (quiet_putMlqProc os proc) rfl⟩
  | removeProc => exact Or.inl ⟨idle fun _ => KernelAction.noConfusion, fun _ => rfl⟩
  | freePcb freed =>
      refine Or.inr (Or.inr ⟨freed, rfl, fun proc => ?_⟩)
      rcases freePcb_cases sound freed with ⟨spare, outcome, _⟩
      rw [Os.regions, mm_freePcb sound, outcome]
      split <;> rfl

end Kernel
end Ossim
