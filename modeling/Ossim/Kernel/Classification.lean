import Ossim.Memory.PoolRange
import Ossim.Memory.UserSpace
import Ossim.Kernel.Regions

namespace Ossim
namespace Kernel

open Memory

/-!
# Kernel and user regions over whole runs

Reads, writes and copies tell kernel regions by their mode; the release tells
them by their address.  As long as both tests agree no kernel object is
recycled into a user free list.

A history is the kernel state with the chunks that the kernel allocator has
handed out.  The condition of the runs excludes, for each allocating
operation, the arguments for which its own arithmetic goes wrong.

* A carve and a cache slot add two `int`s.  A sum that wraps, or a slot size
  that is negative as an `int`, passes the limit test.
* A search of the free list widens an `int`, and may wrap to a low address.
* A growth does not know where the kernel range is, and the region it serves
  may be longer than the growth when the page count does not fit.

It also excludes a new process whose area takes over an old list, which `init_mm`
does not look at.
-/

/-! ## Histories -/

/-- The chunk of a successful call, read back from where the call records it. -/
def Regions.chunk (regions : Regions) (ins : Inst) : Option VmRgStruct :=
  match ins.opcode with
  | .KMALLOC => ins.target.map regions.table
  | .KMEM_CACHE_ALLOC => ins.target.map regions.table
  | .KMEM_CACHE_CREATE =>
      (poolIndex (ins.arg2.setWidth 32)).map fun pool =>
        let state := regions.pools pool
        ⟨state.storage, state.storage + ofInt state.size, .kernel⟩
  | _ => none

/-- The chunk that an action hands out. -/
def handedOver (os : Os) : KernelAction → Option VmRgStruct
  | .run proc =>
      if (run os proc).1 = 0 then (fetch os proc).bind ((run os proc).2.regions proc).chunk
      else none
  | _ => none

theorem Regions.chunk_eq_none (regions : Regions) {ins : Inst} (unhanded : ¬ ins.HandsOut) :
    regions.chunk ins = none := by
  unfold chunk
  unfold Inst.HandsOut at unhanded
  cases opcode : ins.opcode with
  | KMALLOC => exact absurd (Or.inl opcode) unhanded
  | KMEM_CACHE_CREATE => exact absurd (Or.inr (Or.inl opcode)) unhanded
  | KMEM_CACHE_ALLOC => exact absurd (Or.inr (Or.inr opcode)) unhanded
  | _ => rfl

/-- One action, and the chunk that it hands out. -/
def historyStep (history : KmemHistory) (action : KernelAction) : Option KmemHistory :=
  (kernelStep history.os action).map fun after =>
    ⟨after, (handedOver history.os action).toList ++ history.chunks⟩

/-- The two classifications agree, and no free node has an address that the
kernel allocator has handed out. -/
structure Classified (history : KmemHistory) : Prop where
  kernel : ∀ proc, (history.os.procs proc).isSome = true → ∀ rgid,
    ((history.os.mm proc).symrgtbl rgid).modeBit = .kernel →
      ∀ addr, ((history.os.mm proc).symrgtbl rgid).Holds addr → kmemAddrIsKernel addr = true
  user : ∀ proc, (history.os.procs proc).isSome = true → ∀ rgid,
    ((history.os.mm proc).symrgtbl rgid).modeBit = .user →
      ∀ addr, ((history.os.mm proc).symrgtbl rgid).Holds addr → kmemAddrIsKernel addr = false
  nodes : ∀ proc, (history.os.procs proc).isSome = true →
    ∀ node ∈ (history.os.mm proc).area.vmFreergList, ∀ chunk ∈ history.chunks,
      ∀ addr, ¬ (node.Holds addr ∧ chunk.Holds addr)

/-! ## The condition -/

/-- A call that passes the checks before the carve does not make the sum of
the limit test wrap. -/
def CarveFits (os : Os) (call : KmemCall) : Prop :=
  ∀ size ∈ carveSize os call, os.kmem.brk + size < 2 ^ 31

/-- A cache slot that passes the limit test has a positive size, and the sum of
the test does not wrap. -/
def SlotFits (os : Os) (cachePoolId : BitVec 32) : Prop :=
  ∀ pool ∈ poolIndex cachePoolId, (os.kmem.pools pool).used = true →
    wrapInt ((os.kmem.pools pool).nextSlot + (os.kmem.pools pool).align) ≤
        (os.kmem.pools pool).size →
      0 < (os.kmem.pools pool).align ∧
        (os.kmem.pools pool).nextSlot + (os.kmem.pools pool).align < 2 ^ 31

/-- The node that serves an allocation has room for it.  When no node does and
the growth is accepted, the addresses from the break on neither pass the last
one nor meet the kernel range. -/
def AllocFits (os : Os) (proc : ProcRef) (size : Addr) : Prop :=
  PickedHasRoom (asInt size) (os.mm proc).area.vmFreergList ∧
    ((getFreeVmrgArea (os.mm proc) 0 (asInt size)).1.isNone = true → os.Resolves proc →
      ¬ GrowthRefused (os.mm proc).area.sbrk size →
        (os.mm proc).area.sbrk.toNat + size.toNat ≤ KMEM_VBASE.toNat ∨
          (KMEM_VBASE.toNat + KMEM_POOL_SIZE ≤ (os.mm proc).area.sbrk.toNat ∧
            (os.mm proc).area.sbrk.toNat + size.toNat < 2 ^ 64))

def InstFits (os : Os) (proc : ProcRef) (ins : Inst) : Prop :=
  match ins.opcode with
  | .ALLOC => AllocFits os proc ins.arg0
  | .KMALLOC => CarveFits os (.malloc proc (ins.arg0.setWidth 32) (ins.arg1.setWidth 32))
  | .KMEM_CACHE_CREATE =>
      CarveFits os (.poolCreate proc (ins.arg0.setWidth 32) (ins.arg1.setWidth 32)
        (ins.arg2.setWidth 32))
  | .KMEM_CACHE_ALLOC => SlotFits os (ins.arg1.setWidth 32)
  | _ => True

/-- The instruction that an action executes, if any, fits, and the area of a new
process has no old list. -/
def ActionFits (history : KmemHistory) : KernelAction → Prop
  | .run proc => ∀ ins ∈ fetch history.os proc, InstFits history.os proc ins
  | .load _ _ => history.os.AreaFresh
  | _ => True

instance (os : Os) (call : KmemCall) : Decidable (CarveFits os call) :=
  inferInstanceAs (Decidable (∀ size ∈ carveSize os call, _))

instance (os : Os) (cachePoolId : BitVec 32) : Decidable (SlotFits os cachePoolId) :=
  inferInstanceAs (Decidable (∀ pool ∈ poolIndex cachePoolId, _))

instance (os : Os) (proc : ProcRef) (size : Addr) : Decidable (AllocFits os proc size) :=
  inferInstanceAs (Decidable (_ ∧ _))

instance (os : Os) (proc : ProcRef) (ins : Inst) : Decidable (InstFits os proc ins) := by
  unfold InstFits
  split <;> infer_instance

instance (history : KmemHistory) (action : KernelAction) :
    Decidable (ActionFits history action) :=
  match action with
  | .run proc => inferInstanceAs (Decidable (∀ ins ∈ fetch history.os proc, _))
  | .load _ _ => inferInstanceAs (Decidable history.os.AreaFresh)
  | .getProc | .putProc _ | .removeProc _ | .freePcb _ => inferInstanceAs (Decidable True)

/-! ## Placed regions -/

/-- A pool whose slots lie in the kernel pool. -/
structure PoolPlaced (state : KmemCachePoolState) : Prop where
  lower : KMEM_VBASE.toNat ≤ state.storage.toNat
  upper : (state.storage.toNat : Int) + state.size ≤ (KMEM_VBASE.toNat + KMEM_POOL_SIZE : Nat)
  first : 0 ≤ state.nextSlot
  last : state.nextSlot ≤ state.size

/-- The invariant of the runs for one process and the kernel pool. -/
structure Regions.Placed (regions : Regions) : Prop where
  lower : 0 ≤ regions.brk
  upper : regions.brk ≤ KMEM_POOL_SIZE
  table : ∀ rgid, (regions.table rgid).Placed
  nodes : ∀ node ∈ regions.nodes, node.OutsidePool
  pools : ∀ pool, (regions.pools pool).used = true → PoolPlaced (regions.pools pool)

namespace Regions

theorem Placed.store {regions : Regions} (placed : regions.Placed)
    (slot : Fin PAGING_MAX_SYMTBL_SZ) {rg : VmRgStruct} (rgPlaced : rg.Placed) :
    (regions.store slot rg).Placed := by
  refine ⟨placed.lower, placed.upper, fun rgid => ?_, placed.nodes, placed.pools⟩
  by_cases same : rgid = slot
  · rw [same, table_store_self]
    exact rgPlaced
  · rw [table_store_of_ne regions rg same]
    exact placed.table rgid

theorem Placed.setNodes {regions : Regions} (placed : regions.Placed) {nodes : List VmRgStruct}
    (outside : ∀ node ∈ nodes, node.OutsidePool) : (regions.setNodes nodes).Placed :=
  ⟨placed.lower, placed.upper, placed.table, outside, placed.pools⟩

theorem Placed.setBrk {regions : Regions} (placed : regions.Placed) {brk : Int}
    (lower : 0 ≤ brk) (upper : brk ≤ KMEM_POOL_SIZE) : (regions.setBrk brk).Placed :=
  ⟨lower, upper, placed.table, placed.nodes, placed.pools⟩

theorem Placed.setPool {regions : Regions} (placed : regions.Placed)
    (pool : Fin KMEM_MAX_POOLS) {state : KmemCachePoolState} (statePlaced : PoolPlaced state) :
    (regions.setPool pool state).Placed := by
  refine ⟨placed.lower, placed.upper, placed.table, placed.nodes, fun other used => ?_⟩
  by_cases same : other = pool
  · subst same
    rw [pools_setPool_self]
    exact statePlaced
  · rw [pools_setPool_of_ne regions state same] at used ⊢
    exact placed.pools other used

theorem placed_initial : (Regions.of (initMm []) Kmem.initial).Placed where
  lower := le_refl 0
  upper := Int.natCast_nonneg KMEM_POOL_SIZE
  table := fun _ => VmRgStruct.placed_zero
  nodes := by
    intro node member
    rw [List.mem_singleton.mp member]
    exact ⟨le_refl _, Or.inl (Nat.zero_le _)⟩
  pools := by
    intro pool used
    cases used

end Regions

/-! ## One instruction -/

private theorem target_lt {regIndex : BitVec 32} {slot : Fin PAGING_MAX_SYMTBL_SZ}
    (named : getSymrgByid regIndex.toNat = some slot) :
    ¬ PAGING_MAX_SYMTBL_SZ ≤ regIndex.toNat := by
  intro beyond
  have outside : ¬ (0 ≤ (regIndex.toNat : Int) ∧ (regIndex.toNat : Int) < 30) := by
    unfold PAGING_MAX_SYMTBL_SZ at beyond
    omega
  rw [getSymrgByid, dif_neg outside] at named
  cases named

/-- A chunk that is carved without a wrap lies between the break and the end of
the pool. -/
private theorem carved_inPool {kmem : Kmem} {size : Int} (lower : 0 ≤ kmem.brk)
    (upper : kmem.brk ≤ KMEM_POOL_SIZE) (positive : 0 < size) (fits : kmem.brk + size < 2 ^ 31)
    (room : wrapInt (kmem.brk + size) ≤ KMEM_POOL_SIZE) :
    (kmemNext kmem).toNat = KMEM_VBASE.toNat + kmem.brk.toNat ∧
      wrapInt (kmem.brk + size) = kmem.brk + size ∧
      ∀ mode, (⟨kmemNext kmem, kmemNext kmem + ofInt size, mode⟩ : VmRgStruct).InPool := by
  have base : KMEM_VBASE.toNat = 2 ^ 56 := by decide
  have limit : KMEM_POOL_SIZE = 65536 := rfl
  have sum := wrapInt_of_small (kmem.brk + size) (by omega) fits
  rw [sum] at room
  have oldBreak := toNat_ofInt kmem.brk
  have length := toNat_ofInt size
  have start : (kmemNext kmem).toNat = KMEM_VBASE.toNat + kmem.brk.toNat := by
    rw [kmemNext, BitVec.toNat_add, base]
    omega
  have finish : (kmemNext kmem + ofInt size).toNat =
      KMEM_VBASE.toNat + kmem.brk.toNat + size.toNat := by
    rw [BitVec.toNat_add, start, base]
    omega
  refine ⟨start, sum, fun mode => ⟨?_, ?_, ?_⟩⟩
  · rw [start]
    omega
  · rw [start, finish]
    omega
  · rw [finish]
    omega

/-- A cache slot that is handed out without a wrap lies in the storage of its
pool. -/
private theorem nextSlot_inPool {state : KmemCachePoolState} (placed : PoolPlaced state)
    (positive : 0 < state.align) (fits : state.nextSlot + state.align < 2 ^ 31)
    (room : wrapInt (state.nextSlot + state.align) ≤ state.size) :
    (nextSlot state).InPool ∧
      PoolPlaced { state with nextSlot := wrapInt (state.nextSlot + state.align) } := by
  have base : KMEM_VBASE.toNat = 2 ^ 56 := by decide
  have limit : KMEM_POOL_SIZE = 65536 := rfl
  have lower := placed.lower
  have upper := placed.upper
  have first := placed.first
  have sum := wrapInt_of_small (state.nextSlot + state.align) (by omega) fits
  rw [sum] at room ⊢
  have offset := toNat_ofInt state.nextSlot
  have length := toNat_ofInt state.align
  have start : (state.storage + ofInt state.nextSlot).toNat =
      state.storage.toNat + state.nextSlot.toNat := by
    rw [BitVec.toNat_add]
    omega
  have finish : (state.storage + ofInt state.nextSlot + ofInt state.align).toNat =
      state.storage.toNat + state.nextSlot.toNat + state.align.toNat := by
    rw [BitVec.toNat_add, start]
    omega
  refine ⟨⟨?_, ?_, ?_⟩, ⟨lower, upper, by dsimp only; omega, room⟩⟩
  · rw [nextSlot, start]
    omega
  · rw [nextSlot, start, finish]
    omega
  · rw [nextSlot, finish]
    omega

/-- The region that a growth serves. -/
private theorem grown_outsidePool {sbrk size : Addr}
    (clear : sbrk.toNat + size.toNat ≤ KMEM_VBASE.toNat ∨
      (KMEM_VBASE.toNat + KMEM_POOL_SIZE ≤ sbrk.toNat ∧ sbrk.toNat + size.toNat < 2 ^ 64)) :
    (⟨sbrk, sbrk + size, .user⟩ : VmRgStruct).OutsidePool := by
  have base : KMEM_VBASE.toNat = 2 ^ 56 := by decide
  have finish : (sbrk + size).toNat = sbrk.toNat + size.toNat := by
    rw [BitVec.toNat_add]
    omega
  constructor
  · rw [finish]
    dsimp only
    omega
  · rw [finish]
    dsimp only
    omega

/-- An instruction that fits keeps the regions placed, and what it hands out
lies in the pool. -/
theorem RegionEffect.placed {ins : Inst} {os : Os} {proc : ProcRef} {status : Int}
    {after : Regions}
    (effect : RegionEffect ins (os.Resolves proc) (os.mm proc) os.kmem status after)
    (sound : (os.mm proc).Sound) (live : (os.procs proc).isSome = true)
    (placed : (os.regions proc).Placed) (fits : InstFits os proc ins) :
    after.Placed ∧ (status = 0 → ∀ chunk ∈ after.chunk ins, chunk.InPool) := by
  have present : ¬ (os.procs proc).isNone = true :=
    Bool.eq_false_iff.mp (Option.isNone_eq_false_iff.mpr live)
  have ordered : ∀ node ∈ (os.mm proc).area.vmFreergList,
      node.rgStart.toNat ≤ node.rgEnd.toNat :=
    fun node member => (placed.nodes node member).ordered
  have none : ¬ ins.HandsOut → status = 0 → ∀ chunk ∈ after.chunk ins, chunk.InPool := by
    intro unhanded _ chunk member
    rw [Regions.chunk_eq_none after unhanded] at member
    cases member
  cases effect with
  | kept status failed =>
      refine ⟨placed, fun succeeded => ?_⟩
      exact none (fun hands => failed hands succeeded) succeeded
  | taken slot newrg left opcode target found =>
      rw [InstFits, opcode] at fits
      rcases firstFit_pieces found ordered fits.1 with ⟨mode, _, region, rest⟩
      have user : newrg.Placed := by
        rw [VmRgStruct.Placed, mode]
        exact region.outsidePool placed.nodes
      refine ⟨Regions.Placed.store (placed.setNodes ?_) slot user, none ?_⟩
      · exact fun piece member => (rest piece member).outsidePool placed.nodes
      · simp [Inst.HandsOut, opcode]
  | refused searched opcode search =>
      rw [InstFits, opcode] at fits
      refine ⟨placed.setNodes (search.outsidePool sound placed.nodes fits.1), none ?_⟩
      simp [Inst.HandsOut, opcode]
  | grown slot searched opcode target resolved search accepted =>
      rw [InstFits, opcode] at fits
      have missing : (getFreeVmrgArea (os.mm proc) 0 (asInt ins.arg0)).1.isNone = true := by
        rw [search.getFreeVmrgArea sound]
        rfl
      have clear := fits.2 missing resolved fun refused =>
        (growthRefused_iff _ _).mp refused accepted
      refine ⟨Regions.Placed.store (placed.setNodes ?_) slot (grown_outsidePool clear), none ?_⟩
      · exact search.outsidePool sound placed.nodes fits.1
      · simp [Inst.HandsOut, opcode]
  | dropped slot opcode target reason =>
      refine ⟨placed.store slot VmRgStruct.placed_zero, none ?_⟩
      simp [Inst.HandsOut, opcode]
  | returned slot opcode target outside nonempty =>
      refine ⟨Regions.Placed.setNodes (placed.store slot VmRgStruct.placed_zero) ?_, none ?_⟩
      · intro node member
        rcases List.mem_cons.mp member with same | old
        · rw [same]
          have region := (placed.table slot).outsidePool outside nonempty
          exact ⟨region.ordered, region.apart⟩
        · exact placed.nodes node old
      · simp [Inst.HandsOut, opcode]
  | carved slot size opcode target asked positive room =>
      have named : getSymrgByid (ins.arg1.setWidth 32 : BitVec 32).toNat = some slot := by
        rw [← target, Inst.target, opcode]
      have carve : carveSize os (.malloc proc (ins.arg0.setWidth 32) (ins.arg1.setWidth 32)) =
          some size.toInt := by
        rw [carveSize, if_neg (not_or.mpr ⟨present, target_lt named⟩), asked]
      rw [InstFits, opcode] at fits
      rcases carved_inPool placed.lower placed.upper positive (fits _ carve) room with
        ⟨_, sum, inside⟩
      have chunk : VmRgStruct.Placed
          ⟨kmemNext os.kmem, kmemNext os.kmem + ofInt size.toInt, .kernel⟩ :=
        Or.inr (inside .kernel)
      have lower : 0 ≤ os.kmem.brk := placed.lower
      refine ⟨Regions.Placed.store (placed.setBrk ?_ room) slot chunk, fun _ held member => ?_⟩
      · rw [sum]
        exact Int.add_nonneg lower (Int.le_of_lt positive)
      · rw [Regions.chunk, opcode] at member
        dsimp only at member
        rw [target, Option.map_some, Regions.table_store_self, Option.mem_some_iff] at member
        rw [← member]
        exact inside .kernel
  | reserved pool size align opcode named asked aligned unused positive room =>
      have carve : carveSize os (.poolCreate proc (ins.arg0.setWidth 32) (ins.arg1.setWidth 32)
          (ins.arg2.setWidth 32)) = some size.toInt := by
        rw [carveSize, asked.1, asked.2, if_neg (not_or.mpr ⟨present, aligned⟩), named,
          Option.bind_some, unused, if_neg Bool.false_ne_true]
      rw [InstFits, opcode] at fits
      rcases carved_inPool placed.lower placed.upper positive (fits _ carve) room with
        ⟨start, sum, inside⟩
      have lower : 0 ≤ os.kmem.brk := placed.lower
      have bounds := inside .kernel
      refine ⟨Regions.Placed.setPool (placed.setBrk ?_ room) pool ?_, fun _ held member => ?_⟩
      · rw [sum]
        exact Int.add_nonneg lower (Int.le_of_lt positive)
      · refine ⟨bounds.lower, ?_, le_refl 0, Int.le_of_lt positive⟩
        rw [sum] at room
        rw [start]
        push_cast
        omega
      · rw [Regions.chunk, opcode] at member
        dsimp only at member
        rw [named, Option.map_some, Regions.pools_setPool_self, Option.mem_some_iff] at member
        rw [← member]
        exact inside .kernel
  | wasted size address =>
      have lower : 0 ≤ os.kmem.brk := placed.lower
      have upper : os.kmem.brk ≤ KMEM_POOL_SIZE := placed.upper
      have limit : KMEM_POOL_SIZE = 65536 := rfl
      exact absurd address (kmemNext_ne_zero (by omega) (by omega))
  | slotted slot pool opcode target named used room =>
      rw [InstFits, opcode] at fits
      rcases fits pool named used room with ⟨positive, short⟩
      rcases nextSlot_inPool (placed.pools pool used) positive short room with ⟨inside, advanced⟩
      have chunk : (nextSlot (os.kmem.pools pool)).Placed := Or.inr inside
      refine ⟨Regions.Placed.setPool (placed.store slot chunk) pool advanced,
        fun _ held member => ?_⟩
      rw [Regions.chunk, opcode] at member
      dsimp only at member
      rw [target, Option.map_some] at member
      have same : nextSlot (os.kmem.pools pool) = held := by
        rw [← Option.mem_some_iff, ← Regions.table_store_self _ slot (nextSlot _)]
        exact member
      rw [← same]
      exact inside

/-! ## Runs -/

/-- The invariant of the runs.  The pool keeps its part when no process is left. -/
structure HistoryPlaced (history : KmemHistory) : Prop where
  sound : history.os.Sound
  pool : (Regions.of (initMm []) history.os.kmem).Placed
  regions : ∀ proc, (history.os.procs proc).isSome = true → (history.os.regions proc).Placed
  chunks : ∀ chunk ∈ history.chunks, chunk.InPool

theorem HistoryPlaced.classified {history : KmemHistory} (placed : HistoryPlaced history) :
    Classified history where
  kernel := fun proc live rgid mode _ held =>
    ((placed.regions proc live).table rgid).isKernel mode held
  user := fun proc live rgid mode _ held =>
    ((placed.regions proc live).table rgid).not_isKernel mode held
  nodes := by
    rintro proc live node member chunk handed addr ⟨inNode, inChunk⟩
    have outside := ((placed.regions proc live).nodes node member).not_isKernel inNode
    rw [(placed.chunks chunk handed).isKernel inChunk] at outside
    cases outside

theorem historyPlaced_boot (memramsz memswpsz : Addr) (freergHeads : ProcRef → List VmRgStruct) :
    HistoryPlaced ⟨boot memramsz memswpsz freergHeads, []⟩ where
  sound := sound_boot memramsz memswpsz freergHeads
  pool := Regions.placed_initial
  regions := by
    intro proc live
    cases live
  chunks := by
    intro chunk member
    cases member

/-- The pool part of a placed view, with the table and the list of another
one. -/
private theorem placed_other {own other after : Regions} (placed : own.Placed)
    (otherPlaced : other.Placed) (table : after.table = other.table)
    (nodes : after.nodes = other.nodes) (brk : after.brk = own.brk)
    (pools : after.pools = own.pools) : after.Placed where
  lower := brk ▸ placed.lower
  upper := brk ▸ placed.upper
  table := table ▸ otherPlaced.table
  nodes := nodes ▸ otherPlaced.nodes
  pools := pools ▸ placed.pools

theorem HistoryPlaced.step {history after : KmemHistory} {action : KernelAction}
    (placed : HistoryPlaced history) (fits : ActionFits history action)
    (taken : historyStep history action = some after) : HistoryPlaced after := by
  rw [historyStep, Option.map_eq_some_iff] at taken
  rcases taken with ⟨os, stepped, same⟩
  subst same
  have sound := placed.sound.kernelStep stepped
  -- the regions of a process before the action, where it was not the caller's
  have before : ∀ proc, (os.procs proc).isSome = true → (history.os.regions proc).Placed := by
    intro proc alive
    cases found : history.os.procs proc with
    | some pcb => exact placed.regions proc (by rw [found]; rfl)
    | none =>
        rcases loaded_of_born placed.sound stepped found alive with ⟨rfl, code, prio, rfl⟩
        rw [Os.regions, Os.mm_of_absent found, show history.os.freergHeads _ = [] from fits]
        exact placed.pool
  rcases kernelStep_regions placed.sound stepped with
    ⟨idle, kept⟩ | ⟨caller, ins, running, live, fetched, ran, effect, others⟩ |
      ⟨freed, exits, regions⟩
  · refine ⟨sound, ?_, fun proc alive => ?_, ?_⟩
    · have brk : os.kmem.brk = history.os.kmem.brk := congrArg Regions.brk (kept 0)
      have pools : os.kmem.pools = history.os.kmem.pools := congrArg Regions.pools (kept 0)
      exact placed_other placed.pool placed.pool rfl rfl brk pools
    · rw [kept]
      exact before proc alive
    · have nothing : handedOver history.os action = none := by
        cases action with
        | run caller =>
            rw [handedOver]
            cases fetched : fetch history.os caller with
            | none => exact ite_self _
            | some ins => exact absurd fetched (idle caller ins rfl)
        | _ => rfl
      rw [nothing]
      exact placed.chunks
  · subst running
    have result := effect.placed (placed.sound.memory caller) live (placed.regions caller live)
      (fits ins fetched)
    refine ⟨sound, ?_, fun proc alive => ?_, fun chunk member => ?_⟩
    · exact placed_other result.1 placed.pool rfl rfl rfl rfl
    · by_cases own : proc = caller
      · rw [own]
        exact result.1
      · refine placed_other result.1 (before proc alive) ?_ ?_ rfl rfl
        · exact congrArg MmStruct.symrgtbl (others proc own)
        · exact congrArg (fun mm : MmStruct => mm.area.vmFreergList) (others proc own)
    · rcases List.mem_append.mp member with given | old
      · rw [handedOver, fetched, Option.bind_some] at given
        by_cases succeeded : (run history.os caller).1 = 0
        · rw [if_pos succeeded, Option.mem_toList, ← ran] at given
          exact result.2 succeeded chunk given
        · rw [if_neg succeeded] at given
          cases given
      · exact placed.chunks chunk old
  · subst exits
    refine ⟨sound, ?_, fun proc alive => ?_, placed.chunks⟩
    · have brk : os.kmem.brk = history.os.kmem.brk :=
        (congrArg Regions.brk (regions 0)).trans (by split <;> rfl)
      have pools : os.kmem.pools = history.os.kmem.pools :=
        (congrArg Regions.pools (regions 0)).trans (by split <;> rfl)
      exact placed_other placed.pool placed.pool rfl rfl brk pools
    · have different : proc ≠ freed := by
        rintro rfl
        cases kernelStep_effect stepped
        rw [procs_freePcb placed.sound, if_pos rfl] at alive
        cases alive
      rw [regions, if_neg different]
      exact before proc alive

/-- In every run whose steps fit, the mode and the address of a region agree in
every state, and no kernel memory is on a user free list. -/
theorem regions_classified (memramsz memswpsz : Addr) (freergHeads : ProcRef → List VmRgStruct)
    (actions : List KernelAction) (finish : KmemHistory)
    (path : Transition.RunWhere historyStep ActionFits ⟨boot memramsz memswpsz freergHeads, []⟩
      actions finish) : Classified finish := by
  have placed := path.invariant HistoryPlaced (historyPlaced_boot memramsz memswpsz freergHeads)
    fun _ _ _ placed fits taken => placed.step fits taken
  exact placed.classified

/-- After the break has wrapped a kernel object lies below the pool.  Its
release puts it on the free list of the process. -/
theorem not_regions_classified :
    ¬ ∀ (memramsz memswpsz : Addr) (actions : List KernelAction) (finish : KmemHistory),
      Transition.Run historyStep ⟨boot memramsz memswpsz nullHeads, []⟩ actions finish →
        Classified finish := by
  intro always
  let final : KmemHistory := (Transition.exec historyStep (fun _ _ => True)
    ⟨boot 1024 0 nullHeads, []⟩
    [.load [⟨.KMALLOC, 1, 0, 0, 0⟩, ⟨.KMALLOC, 0x7FFFFFFF, 1, 0, 0⟩, ⟨.KMALLOC, 16, 2, 0, 0⟩,
      ⟨.FREE, 2, 0, 0, 0⟩] 0, .run 1, .run 1, .run 1, .run 1]).get (by decide +kernel)
  have path : Transition.RunWhere historyStep (fun _ _ => True) ⟨boot 1024 0 nullHeads, []⟩
      [.load [⟨.KMALLOC, 1, 0, 0, 0⟩, ⟨.KMALLOC, 0x7FFFFFFF, 1, 0, 0⟩, ⟨.KMALLOC, 16, 2, 0, 0⟩,
        ⟨.FREE, 2, 0, 0, 0⟩] 0, .run 1, .run 1, .run 1, .run 1] final :=
    Transition.runWhere_of_exec (Option.some_get _).symm
  have classified := always 1024 0 _ final path.run
  have recycled : ∃ node ∈ (final.os.mm 1).area.vmFreergList, ∃ chunk ∈ final.chunks,
      node.Holds (KMEM_VBASE - 0x80000000) ∧ chunk.Holds (KMEM_VBASE - 0x80000000) := by
    decide +kernel
  rcases recycled with ⟨node, member, chunk, handed, held⟩
  exact classified.nodes 1 (by decide +kernel) node member chunk handed _ held

/-- A user region and a kernel region beside each other, a cache slot, and both
releases. -/
theorem regions_classified_released :
    Classified ((Transition.exec historyStep ActionFits ⟨boot 1024 0 nullHeads, []⟩
      [.load [⟨.ALLOC, 64, 0, 0, 0⟩, ⟨.KMALLOC, 64, 1, 0, 0⟩, ⟨.KMEM_CACHE_CREATE, 64, 16, 0, 0⟩,
        ⟨.KMEM_CACHE_ALLOC, 2, 0, 0, 0⟩, ⟨.FREE, 0, 0, 0, 0⟩, ⟨.FREE, 1, 0, 0, 0⟩] 0,
        .run 1, .run 1, .run 1, .run 1, .run 1, .run 1]).get (by decide +kernel)) :=
  regions_classified 1024 0 _ _ _ (Transition.runWhere_of_exec (Option.some_get _).symm)

end Kernel
end Ossim
