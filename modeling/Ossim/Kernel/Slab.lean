import Ossim.Kernel.KernelPool
import Ossim.Kernel.Regions

namespace Ossim
namespace Kernel

open Memory

/-!
# Slots of a cache pool

A cache pool is a chunk of the kernel pool that is handed out in slots of
`align` bytes, from the front, to any process that asks.  Between the calls the
machine may do anything that leaves the entry of the pool table alone.

Both parameters arrive as unsigned words and are kept as `int`s.  A slot size
below `2 ^ 31` is kept exactly, and then the slots tile the front of the slab.
A larger one turns negative: the limit test passes on any slab, and the slot
ends before it starts.
-/

deriving instance DecidableEq for KmemCachePoolState

/-- The state after a number of calls, with the slots that successful calls
have handed out, newest first, and the number of calls with valid arguments. -/
structure SlabHistory where
  os : Os
  slots : List VmRgStruct
  accepted : Nat

inductive SlabAction
  | alloc (caller : ProcRef) (regIndex : BitVec 32)
  /-- The machine moves on without touching the pool. -/
  | interlude (after : Os)

/-- The checks of `libkmem_cache_alloc` on its caller and its slot id. -/
def AllocAccepted (os : Os) (caller : ProcRef) (regIndex : BitVec 32) : Prop :=
  (os.procs caller).isSome = true ∧ regIndex.toNat < PAGING_MAX_SYMTBL_SZ

instance (os : Os) (caller : ProcRef) (regIndex : BitVec 32) :
    Decidable (AllocAccepted os caller regIndex) :=
  inferInstanceAs (Decidable (_ ∧ _))

/-- The slot that a successful call has recorded for its caller. -/
def recordedSlot (after : Os) (caller : ProcRef) (regIndex : BitVec 32) : Option VmRgStruct :=
  (getSymrgByid regIndex.toNat).map fun slot => (after.mm caller).symrgtbl slot

def slabStep (cachePoolId : BitVec 32) (pool : Fin KMEM_MAX_POOLS) (history : SlabHistory) :
    SlabAction → Option SlabHistory
  | .alloc caller regIndex =>
      let (ret, after) := libkmemCacheAlloc history.os caller regIndex cachePoolId
      some
        { os := after
          slots :=
            if ret = 0 then (recordedSlot after caller regIndex).toList ++ history.slots
            else history.slots
          accepted :=
            if AllocAccepted history.os caller regIndex then history.accepted + 1
            else history.accepted }
  | .interlude after =>
      if after.kmem.pools pool = history.os.kmem.pools pool then some { history with os := after }
      else none

/-- The slots are ranges of exactly `align` bytes inside the slab, no two of
them overlap, and calls succeed until the slab is used up. -/
structure SlabSound (size align : BitVec 32) (storage : Addr) (history : SlabHistory) : Prop where
  length : ∀ slot ∈ history.slots, slot.rgEnd.toNat = slot.rgStart.toNat + align.toNat
  inside : ∀ slot ∈ history.slots,
    storage.toNat ≤ slot.rgStart.toNat ∧ slot.rgEnd.toNat ≤ storage.toNat + size.toNat
  disjoint : history.slots.Pairwise VmRgStruct.Apart
  count : history.slots.length = min history.accepted (size.toNat / align.toNat)

/-! ## One call -/

/-- The pool after it has handed out a slot. -/
def afterSlot (state : KmemCachePoolState) : KmemCachePoolState :=
  { state with nextSlot := wrapInt (state.nextSlot + state.align) }

section Call

variable {cachePoolId : BitVec 32} {pool : Fin KMEM_MAX_POOLS} {os : Os}

theorem libkmemCacheAlloc_of_not_accepted {caller : ProcRef} {regIndex : BitVec 32}
    (refused : ¬ AllocAccepted os caller regIndex) :
    libkmemCacheAlloc os caller regIndex cachePoolId = (-1, os) := by
  unfold libkmemCacheAlloc
  apply if_pos
  by_cases live : (os.procs caller).isSome = true
  · right
    by_contra below
    exact refused ⟨live, Nat.lt_of_not_le below⟩
  · left
    rw [Bool.not_eq_true, Option.isSome_eq_false_iff] at live
    exact live

theorem kmemSlot_of_used {kmem : Kmem} (used : (kmem.pools pool).used = true) :
    kmemSlot kmem pool =
      if wrapInt ((kmem.pools pool).nextSlot + (kmem.pools pool).align) > (kmem.pools pool).size then
        none
      else
        some (nextSlot (kmem.pools pool), { kmem with
          pools := Function.update kmem.pools pool (afterSlot (kmem.pools pool)) }) := by
  unfold kmemSlot
  dsimp only
  by_cases full :
      wrapInt ((kmem.pools pool).nextSlot + (kmem.pools pool).align) > (kmem.pools pool).size
  · rw [if_pos (Or.inr full), if_pos full]
  · have room : ¬ ((kmem.pools pool).used = false ∨
        wrapInt ((kmem.pools pool).nextSlot + (kmem.pools pool).align) >
          (kmem.pools pool).size) := by
      rw [used]
      rintro (impossible | exhausted)
      · cases impossible
      · exact full exhausted
    rw [if_neg room, if_neg full]
    rfl

/-- A call with valid arguments is turned down when the pool has no slot. -/
theorem libkmemCacheAlloc_of_full (named : poolIndex cachePoolId = some pool) {caller : ProcRef}
    {regIndex : BitVec 32} (full : kmemSlot os.kmem pool = none) :
    libkmemCacheAlloc os caller regIndex cachePoolId = (-1, os) := by
  unfold libkmemCacheAlloc
  rw [named]
  dsimp only
  rw [full, ite_self]

/-- Otherwise it records the slot for its caller. -/
theorem libkmemCacheAlloc_of_slot (named : poolIndex cachePoolId = some pool) {caller : ProcRef}
    {regIndex : BitVec 32} (accepted : AllocAccepted os caller regIndex) {rg : VmRgStruct}
    {kmem : Kmem} (slotted : kmemSlot os.kmem pool = some (rg, kmem)) :
    ∃ after, libkmemCacheAlloc os caller regIndex cachePoolId = (0, after) ∧
      after.kmem = kmem ∧ recordedSlot after caller regIndex = some rg := by
  have below : ¬ PAGING_MAX_SYMTBL_SZ ≤ regIndex.toNat := Nat.not_le.mpr accepted.2
  have present : ¬ (os.procs caller).isNone = true :=
    Bool.eq_false_iff.mp (Option.isNone_eq_false_iff.mpr accepted.1)
  rcases @setSymrg_below (os.setKmem kmem) caller regIndex below rg with ⟨slot, target, stored⟩
  refine ⟨(os.setKmem kmem).setMm caller (((os.setKmem kmem).mm caller).setRegion slot rg),
    ?_, rfl, ?_⟩
  · unfold libkmemCacheAlloc
    rw [if_neg (not_or.mpr ⟨present, below⟩), named]
    dsimp only
    rw [slotted]
    dsimp only
    rw [stored]
  · have own := @Os.mm_setMm_self (os.setKmem kmem) caller accepted.1
      (((os.setKmem kmem).mm caller).setRegion slot rg)
    have found : (((os.setKmem kmem).mm caller).setRegion slot rg).symrgtbl slot = rg :=
      Function.update_self _ _ _
    rw [recordedSlot, target, Option.map_some, own, found]

end Call

/-! ## The slots tile the front of the slab -/

/-- The slots handed out so far fill the slab up to the next slot. -/
structure Tiled (pool : Fin KMEM_MAX_POOLS) (size align : BitVec 32) (storage : Addr)
    (history : SlabHistory) : Prop where
  state : history.os.kmem.pools pool =
    ⟨true, size.toNat, align.toNat, storage, (history.slots.length * align.toNat : Nat)⟩
  length : ∀ slot ∈ history.slots, slot.rgEnd.toNat = slot.rgStart.toNat + align.toNat
  inside : ∀ slot ∈ history.slots, storage.toNat ≤ slot.rgStart.toNat ∧
    slot.rgEnd.toNat ≤ storage.toNat + history.slots.length * align.toNat
  disjoint : history.slots.Pairwise VmRgStruct.Apart
  count : history.slots.length = min history.accepted (size.toNat / align.toNat)

section Slab

variable {cachePoolId size align : BitVec 32} {pool : Fin KMEM_MAX_POOLS} {storage : Addr}

theorem Tiled.filled {history : SlabHistory} (tiled : Tiled pool size align storage history) :
    history.slots.length * align.toNat ≤ size.toNat := by
  have most : history.slots.length ≤ size.toNat / align.toNat := by
    rw [tiled.count]
    exact Nat.min_le_right _ _
  calc history.slots.length * align.toNat
      ≤ size.toNat / align.toNat * align.toNat := Nat.mul_le_mul_right _ most
    _ ≤ size.toNat := Nat.div_mul_le_self _ _

theorem Tiled.sound {history : SlabHistory} (tiled : Tiled pool size align storage history) :
    SlabSound size align storage history := by
  refine ⟨tiled.length, fun slot member => ?_, tiled.disjoint, tiled.count⟩
  have bounds := tiled.inside slot member
  have filled := tiled.filled
  exact ⟨bounds.1, by omega⟩

/-- The slab lies in the kernel pool. -/
def SlabInPool (storage : Addr) (size : BitVec 32) : Prop :=
  KMEM_VBASE.toNat ≤ storage.toNat ∧
    storage.toNat + size.toNat ≤ KMEM_VBASE.toNat + KMEM_POOL_SIZE

/-- The limit test is the test for one more slot. -/
theorem Tiled.room {history : SlabHistory} (tiled : Tiled pool size align storage history)
    (inPool : SlabInPool storage size) (positive : 0 < align.toNat) (narrow : align.toNat < 2 ^ 31) :
    wrapInt (((history.slots.length * align.toNat : Nat) : Int) + align.toNat) =
        ((history.slots.length + 1) * align.toNat : Nat) ∧
      ((history.slots.length + 1) * align.toNat ≤ size.toNat ↔
        history.slots.length + 1 ≤ size.toNat / align.toNat) := by
  have limit : KMEM_POOL_SIZE = 65536 := rfl
  have filled := tiled.filled
  have small := inPool.2
  have start := inPool.1
  have next : (history.slots.length + 1) * align.toNat =
      history.slots.length * align.toNat + align.toNat := Nat.succ_mul _ _
  refine ⟨?_, (Nat.le_div_iff_mul_le positive).symm⟩
  rw [next]
  have sum : history.slots.length * align.toNat + align.toNat < 2 ^ 31 := by
    cases fresh : history.slots.length with
    | zero => omega
    | succ before =>
        rw [fresh] at filled
        have one : align.toNat ≤ (before + 1) * align.toNat := Nat.le_mul_of_pos_left _ (by omega)
        omega
  rw [wrapInt_of_small _ (by omega) (by omega)]
  omega

/-- A slot of the tiling is a range of the slab. -/
theorem nextSlot_range (align : BitVec 32) (state : KmemCachePoolState) {offset : Nat}
    (position : state.nextSlot = offset) (size : state.align = align.toNat)
    (fits : state.storage.toNat + (offset + align.toNat) < 2 ^ 64) :
    (nextSlot state).rgStart.toNat = state.storage.toNat + offset ∧
      (nextSlot state).rgEnd.toNat = state.storage.toNat + offset + align.toNat := by
  have start := toNat_ofInt (offset : Int)
  have length := toNat_ofInt (align.toNat : Int)
  have first : (nextSlot state).rgStart.toNat = state.storage.toNat + offset := by
    rw [nextSlot, position, BitVec.toNat_add]
    omega
  refine ⟨first, ?_⟩
  have finish : (nextSlot state).rgEnd = (nextSlot state).rgStart + ofInt state.align := rfl
  rw [finish, size, BitVec.toNat_add, first]
  omega

/-- One more slot extends the tiling. -/
theorem Tiled.cons {history : SlabHistory} {machine : Os}
    (tiled : Tiled pool size align storage history) (inPool : SlabInPool storage size)
    (room : (history.slots.length + 1) * align.toNat ≤ size.toNat)
    (more : history.slots.length + 1 ≤ size.toNat / align.toNat)
    (state : machine.kmem.pools pool =
      ⟨true, size.toNat, align.toNat, storage, ((history.slots.length + 1) * align.toNat : Nat)⟩) :
    Tiled pool size align storage
      ⟨machine, nextSlot ⟨true, size.toNat, align.toNat, storage,
        (history.slots.length * align.toNat : Nat)⟩ :: history.slots, history.accepted + 1⟩ := by
  have limit : KMEM_POOL_SIZE = 65536 := rfl
  have base : KMEM_VBASE.toNat = 2 ^ 56 := by decide
  have below := inPool.2
  have count := tiled.count
  have next : (history.slots.length + 1) * align.toNat =
      history.slots.length * align.toNat + align.toNat := Nat.succ_mul _ _
  rcases nextSlot_range align ⟨true, size.toNat, align.toNat, storage,
    (history.slots.length * align.toNat : Nat)⟩ rfl rfl (by dsimp only; omega) with ⟨start, finish⟩
  dsimp only at start finish
  refine ⟨state, ?_, ?_, ?_, ?_⟩
  · intro slot member
    rcases List.mem_cons.mp member with same | old
    · rw [same, start, finish]
    · exact tiled.length slot old
  · intro slot member
    dsimp only
    rw [List.length_cons, next]
    rcases List.mem_cons.mp member with same | old
    · rw [same, start, finish]
      omega
    · have bounds := tiled.inside slot old
      omega
  · refine List.pairwise_cons.mpr ⟨fun slot old => ?_, tiled.disjoint⟩
    apply VmRgStruct.apart_of_above
    rw [start]
    exact (tiled.inside slot old).2
  · dsimp only
    rw [List.length_cons]
    omega

theorem Tiled.step {history after : SlabHistory} {action : SlabAction}
    (named : poolIndex cachePoolId = some pool) (inPool : SlabInPool storage size)
    (positive : 0 < align.toNat) (narrow : align.toNat < 2 ^ 31)
    (tiled : Tiled pool size align storage history)
    (taken : slabStep cachePoolId pool history action = some after) :
    Tiled pool size align storage after := by
  cases action with
  | interlude machine =>
      rw [slabStep] at taken
      by_cases kept : machine.kmem.pools pool = history.os.kmem.pools pool
      · rw [if_pos kept] at taken
        cases taken
        exact ⟨kept.trans tiled.state, tiled.length, tiled.inside, tiled.disjoint, tiled.count⟩
      · rw [if_neg kept] at taken
        cases taken
  | alloc caller regIndex =>
      rw [slabStep] at taken
      have failed : (-1 : Int) ≠ 0 := by decide
      by_cases accepted : AllocAccepted history.os caller regIndex
      · have used : (history.os.kmem.pools pool).used = true := by rw [tiled.state]
        have slotted := kmemSlot_of_used used
        rcases tiled.room inPool positive narrow with ⟨sum, fits⟩
        rw [tiled.state] at slotted
        dsimp only at slotted
        rw [sum] at slotted
        have count := tiled.count
        by_cases room : (history.slots.length + 1) * align.toNat ≤ size.toNat
        · rw [if_neg (by omega)] at slotted
          rcases libkmemCacheAlloc_of_slot named accepted slotted with
            ⟨machine, outcome, kmem, recorded⟩
          rw [outcome] at taken
          dsimp only at taken
          rw [if_pos rfl, if_pos accepted, recorded] at taken
          cases taken
          refine tiled.cons inPool room (fits.mp room) ?_
          rw [kmem]
          dsimp only
          rw [Function.update_self, afterSlot]
          dsimp only
          rw [sum]
        · rw [if_pos (by omega)] at slotted
          rw [libkmemCacheAlloc_of_full named slotted] at taken
          dsimp only at taken
          rw [if_neg failed, if_pos accepted] at taken
          cases taken
          refine ⟨tiled.state, tiled.length, tiled.inside, tiled.disjoint, ?_⟩
          have full := mt fits.mpr room
          dsimp only
          omega
      · rw [libkmemCacheAlloc_of_not_accepted accepted] at taken
        dsimp only at taken
        rw [if_neg failed, if_neg accepted] at taken
        cases taken
        exact tiled

end Slab

/-! ## Runs -/

/-- A successful `libkmem_cache_pool_create`. -/
theorem libkmemCachePoolCreate_of_success {os after : Os} {caller : ProcRef}
    {size align cachePoolId : BitVec 32} {pool : Fin KMEM_MAX_POOLS}
    (named : poolIndex cachePoolId = some pool)
    (created : libkmemCachePoolCreate os caller size align cachePoolId = (0, after)) :
    (os.procs caller).isSome = true ∧ align ≠ 0 ∧ 0 < size.toInt ∧ after.procs = os.procs ∧
      ∃ storage, after.kmem.pools pool = ⟨true, size.toInt, align.toInt, storage, 0⟩ := by
  have failed : (-1 : Int) ≠ 0 := by decide
  unfold libkmemCachePoolCreate at created
  by_cases refused : (os.procs caller).isNone = true ∨ align = 0
  · rw [if_pos refused] at created
    exact absurd (congrArg Prod.fst created) failed
  · rw [if_neg refused, named] at created
    dsimp only at created
    push Not at refused
    have live : (os.procs caller).isSome = true := by
      rw [← Option.isNone_eq_false_iff, Bool.eq_false_iff]
      exact refused.1
    unfold kmemPoolReserve at created
    by_cases used : (os.kmem.pools pool).used = true
    · rw [if_pos used] at created
      exact absurd (congrArg Prod.fst created) failed
    · rw [if_neg used] at created
      rcases kmemCarve_cases os.kmem size.toInt with ⟨_, nothing⟩ | ⟨positive, _, cut⟩
      · rw [nothing] at created
        exact absurd (congrArg Prod.fst created) failed
      · rw [cut] at created
        dsimp only at created
        by_cases zero : KMEM_VBASE + ofInt os.kmem.brk = 0
        · rw [if_pos zero] at created
          exact absurd (congrArg Prod.fst created) failed
        · rw [if_neg zero] at created
          cases created
          exact ⟨live, refused.2, positive, rfl, _, Function.update_self _ _ _⟩

/-- A slot size that has turned negative passes the limit test of a fresh
pool. -/
theorem slabStep_wide {cachePoolId align : BitVec 32} {pool : Fin KMEM_MAX_POOLS} {created : Os}
    {storage : Addr} {size : Int} (named : poolIndex cachePoolId = some pool) (positive : 0 < size)
    (state : created.kmem.pools pool = ⟨true, size, align.toInt, storage, 0⟩)
    (wide : 2 ^ 31 ≤ align.toNat) {caller : ProcRef} (live : (created.procs caller).isSome = true) :
    ∃ after slot, slabStep cachePoolId pool ⟨created, [], 0⟩ (.alloc caller 0) =
      some ⟨after, [slot], 1⟩ := by
  have accepted : AllocAccepted created caller 0 := ⟨live, by decide⟩
  have used : (created.kmem.pools pool).used = true := by rw [state]
  have negative : align.toInt < 0 := by
    rw [BitVec.toInt_eq_toNat_cond, if_neg (by omega)]
    have bound := align.isLt
    omega
  have slotted := kmemSlot_of_used used
  rw [state] at slotted
  dsimp only at slotted
  have sum : wrapInt (0 + align.toInt) = align.toInt := by
    rw [Int.zero_add]
    exact wrapInt_of_small _ (BitVec.le_toInt align) (by omega)
  rw [sum, if_neg (by omega)] at slotted
  rcases libkmemCacheAlloc_of_slot named accepted slotted with ⟨after, outcome, _, recorded⟩
  refine ⟨after, nextSlot ⟨true, size, align.toInt, storage, 0⟩, ?_⟩
  rw [slabStep, outcome]
  dsimp only
  rw [if_pos rfl, if_pos accepted, recorded]
  rfl

/-- The slots of a pool are sound in every state of every run exactly when its
slot size is below `2 ^ 31`. -/
theorem slab_sound_iff (os created : Os) (caller : ProcRef) (size align cachePoolId : BitVec 32)
    (pool : Fin KMEM_MAX_POOLS) (named : poolIndex cachePoolId = some pool)
    (success : libkmemCachePoolCreate os caller size align cachePoolId = (0, created))
    (inPool : SlabInPool (created.kmem.pools pool).storage size) :
    (∀ actions history,
        Transition.Run (slabStep cachePoolId pool) ⟨created, [], 0⟩ actions history →
        SlabSound size align (created.kmem.pools pool).storage history) ↔
      align.toNat < 2 ^ 31 := by
  rcases libkmemCachePoolCreate_of_success named success with
    ⟨live, nonzero, positive, procs, storage, state⟩
  have size_eq : size.toInt = size.toNat := by
    rw [BitVec.toInt_eq_toNat_cond] at positive ⊢
    have bound := size.isLt
    split at positive <;> omega
  rw [state] at inPool ⊢
  dsimp only at inPool ⊢
  constructor
  · intro always
    by_contra wide
    rcases slabStep_wide named positive state (Nat.le_of_not_lt wide) (procs ▸ live) with
      ⟨after, slot, taken⟩
    have sound := always _ _ (Transition.Run.snoc .nil taken)
    have count := sound.count
    have narrower : size.toNat < align.toNat := by
      have bound := @BitVec.toInt_lt 32 size
      omega
    rw [Nat.div_eq_of_lt narrower, Nat.min_zero] at count
    cases count
  · intro narrow actions history path
    have slotted : 0 < align.toNat := by
      rcases Nat.eq_zero_or_pos align.toNat with zero | positive
      · exact absurd (BitVec.eq_of_toNat_eq zero) nonzero
      · exact positive
    have align_eq : align.toInt = align.toNat := BitVec.toInt_eq_toNat_of_lt (by omega)
    have fresh : Tiled pool size align storage ⟨created, [], 0⟩ := by
      refine ⟨?_, ?_, ?_, List.Pairwise.nil, ?_⟩
      · dsimp only
        rw [state, size_eq, align_eq, List.length_nil, Nat.zero_mul]
        rfl
      · rintro slot ⟨⟩
      · rintro slot ⟨⟩
      · exact (Nat.zero_min _).symm
    have tiled := path.invariant (Tiled pool size align storage) fresh
      fun before action after tiled taken => tiled.step named inPool slotted narrow taken
    exact tiled.sound

/-- One process on a machine without swap. -/
def oneProcess : Os :=
  (Transition.exec kernelStep (fun _ _ => True) (boot 1024 0 nullHeads)
    [.load [⟨.CALC, 0, 0, 0, 0⟩] 0]).get (by decide +kernel)

def firstPool : Fin KMEM_MAX_POOLS := ⟨0, by decide⟩

/-- A pool of 16 bytes with slots of `2 ^ 31` bytes hands out a slot. -/
theorem not_slab_sound :
    ¬ ∀ (os created : Os) (caller : ProcRef) (size align cachePoolId : BitVec 32)
      (pool : Fin KMEM_MAX_POOLS), poolIndex cachePoolId = some pool →
      libkmemCachePoolCreate os caller size align cachePoolId = (0, created) →
      SlabInPool (created.kmem.pools pool).storage size →
      ∀ actions history,
        Transition.Run (slabStep cachePoolId pool) ⟨created, [], 0⟩ actions history →
        SlabSound size align (created.kmem.pools pool).storage history := by
  intro always
  let created : Os := (libkmemCachePoolCreate oneProcess 1 16 0x80000000 0).2
  have success : libkmemCachePoolCreate oneProcess 1 16 0x80000000 0 = (0, created) :=
    Prod.ext (by decide +kernel) rfl
  let history : SlabHistory :=
    (slabStep 0 firstPool ⟨created, [], 0⟩ (.alloc 1 0)).get (by rfl)
  have sound := always oneProcess created 1 16 0x80000000 0 firstPool (by decide) success
    (by unfold SlabInPool; decide +kernel) _ history (.snoc .nil (Option.some_get _).symm)
  have count := sound.count
  have one : history.slots.length = 1 := by decide +kernel
  rw [one] at count
  exact absurd count.symm (by simp)

/-- A pool of 16 bytes with slots of 6 bytes is created, and every run on it is
sound. -/
theorem slab_sound_six :
    (libkmemCachePoolCreate oneProcess 1 16 6 0).1 = 0 ∧ ∀ actions history,
      Transition.Run (slabStep 0 firstPool)
        ⟨(libkmemCachePoolCreate oneProcess 1 16 6 0).2, [], 0⟩ actions history →
      SlabSound 16 6 ((libkmemCachePoolCreate oneProcess 1 16 6 0).2.kmem.pools firstPool).storage
        history :=
  ⟨by decide +kernel,
    (slab_sound_iff oneProcess _ 1 16 6 0 firstPool (by decide) (Prod.ext (by decide +kernel) rfl)
      (by unfold SlabInPool; decide +kernel)).mpr (by decide)⟩

end Kernel
end Ossim
