import Ossim.Memory.UserSpace
import Ossim.Kernel.Storage

namespace Ossim
namespace Kernel

open Memory CopyLoop

/-!
# The array indices of an instruction

Three arrays are indexed with operands: the symbol table, the register file
and the storage of the RAM.  An instruction is safe when no access leaves its
array and when an operand that lies outside is refused without an effect.

The dispatch narrows region ids to 32 bits before any check, so an id of
`2 ^ 32` or more is taken for a small one.  An allocation checks no id at all,
a read does not check its register, and a raw system call passes its device
address through.  `TurnedDown` says when the call fails for some other reason
and has had no effect by then.
-/

/-! ## Operands that index an array -/

/-- The operands that name a slot of the symbol table. -/
def Inst.regionIds (ins : Inst) : List Addr :=
  match ins.opcode with
  | .ALLOC => [ins.arg1]
  | .WRITE => [ins.arg1]
  | .KMALLOC => [ins.arg1]
  | .FREE => [ins.arg0]
  | .READ => [ins.arg0]
  | .KMEM_CACHE_ALLOC => [ins.arg0]
  | .COPY_FROM_USER => [ins.arg0, ins.arg1]
  | .COPY_TO_USER => [ins.arg0, ins.arg1]
  | _ => []

/-- The operands that name a register. -/
def Inst.registers (ins : Inst) : List Addr :=
  match ins.opcode with
  | .READ => [ins.arg2]
  | _ => []

/-- The cells of the RAM that the operands of a raw memory call name: one
address, or the cells of one frame. -/
def Inst.cells (ins : Inst) : List Addr :=
  if ins.opcode = .SYSCALL ∧ ins.arg0.setWidth 32 = (17 : BitVec 32) then
    if asInt ins.arg1 = SYSMEM_IO_READ ∨ asInt ins.arg1 = SYSMEM_IO_WRITE then [ins.arg2]
    else if asInt ins.arg1 = SYSMEM_SWP_OP then (List.range 256).map (pageCell ins.arg2)
    else []
  else []

/-- All indices lie in their arrays, for a RAM of the given size. -/
structure Inst.InRange (ins : Inst) (storageSz : Nat) : Prop where
  regions : ∀ rgid ∈ ins.regionIds, rgid.toNat < PAGING_MAX_SYMTBL_SZ
  registers : ∀ index ∈ ins.registers, index.toNat < 10
  cells : ∀ cell ∈ ins.cells, cell.toNat < storageSz

/-- The instruction stays in its arrays, and an operand outside makes it fail
without an effect.  Only the program counter has moved. -/
structure IndexSafe (os : Os) (proc : ProcRef) (ins : Inst) : Prop where
  arrays : (run os proc).2.fault = false
  storage : (run os proc).2.mram.fault = false
  refuses : ¬ ins.InRange os.mram.storageSz →
    (run os proc).1 ≠ 0 ∧ (run os proc).2 = os.advance proc

/-! ## The condition -/

/-- The dump of the RAM after an allocation prints existing cells only. -/
def Os.DumpFits (os : Os) : Prop := (ofInt os.mram.maxsz).toNat ≤ os.mram.storageSz

/-- An allocation fails: no node of the free list passes the size test, and the
growth is refused.  A node at the all-ones address does not count. -/
def AllocFails (os : Os) (proc : ProcRef) (size : Addr) : Prop :=
  (∀ node ∈ (os.mm proc).area.vmFreergList.find? (fitsNode (asInt size)),
      node.rgStart = ofInt (-1)) ∧
    (os.Resolves proc → GrowthRefused (os.mm proc).area.sbrk size)

/-- The search takes no node out of the list. -/
def SearchKeeps (size : Int) (nodes : List VmRgStruct) : Prop :=
  ∀ found ∈ firstFit size nodes, found.2 = nodes

/-- An access to an offset of a region is granted. -/
def Os.Reaches (os : Os) (proc : ProcRef) (rgid : BitVec 32) (offset : Addr) : Prop :=
  ∃ addr, resolveRgAddr os proc rgid.toInt offset = some addr ∧ os.Grants proc addr

/-- A copy is refused at some index, and the bytes that it stores before are in
place already. -/
def Vain {Loc : Type} [DecidableEq Loc] (granted : Side → Nat → Prop) (size : BitVec 32)
    (mem : Loc → Byte) (stores : List (Loc × Byte)) : Prop :=
  (∃ i < size.toNat, ¬ (granted .source i ∧ granted .target i)) ∧ InPlace mem stores

/-- The call fails and leaves the state as it is. -/
def TurnedDown (os : Os) (proc : ProcRef) (ins : Inst) : Prop :=
  match ins.opcode with
  | .ALLOC => AllocFails os proc ins.arg0 ∧
      SearchKeeps (asInt ins.arg0) (os.mm proc).area.vmFreergList
  | .FREE => ∀ slot ∈ getSymrgByid (ins.arg0.setWidth 32 : BitVec 32).toInt,
      ((os.mm proc).symrgtbl slot).rgStart = 0 ∧ ((os.mm proc).symrgtbl slot).rgEnd = 0
  | .READ => ¬ os.Reaches proc (ins.arg0.setWidth 32) ins.arg1
  | .WRITE => ¬ os.Reaches proc (ins.arg1.setWidth 32) ins.arg2
  | .KMALLOC => PAGING_MAX_SYMTBL_SZ ≤ (ins.arg1.setWidth 32 : BitVec 32).toNat ∨
      (ins.arg0.setWidth 32 : BitVec 32).toInt ≤ 0 ∨
        KMEM_POOL_SIZE < wrapInt (os.kmem.brk + (ins.arg0.setWidth 32 : BitVec 32).toInt)
  | .KMEM_CACHE_ALLOC => PAGING_MAX_SYMTBL_SZ ≤ (ins.arg0.setWidth 32 : BitVec 32).toNat ∨
      ∀ pool ∈ poolIndex (ins.arg1.setWidth 32), kmemSlot os.kmem pool = none
  | .COPY_FROM_USER => ∀ src dst,
      copyRegions os proc (ins.arg0.setWidth 32) (ins.arg1.setWidth 32) = some (src, dst) →
        Vain (fromUserGranted os proc src dst (ins.arg2.setWidth 32)) (ins.arg3.setWidth 32)
          os.kmem.storage
          (fromUserStores os proc src dst (ins.arg2.setWidth 32) (ins.arg3.setWidth 32))
  | .COPY_TO_USER => ∀ dst src,
      copyRegions os proc (ins.arg1.setWidth 32) (ins.arg0.setWidth 32) = some (dst, src) →
        Vain (toUserGranted os proc src dst (ins.arg2.setWidth 32)) (ins.arg3.setWidth 32)
          os.mram.storage
          (toUserStores os proc src dst (ins.arg2.setWidth 32) (ins.arg3.setWidth 32))
  | .SYSCALL => ¬ os.Resolves proc
  | _ => False

/-- Inside the arrays only the dump after an allocation asks for a condition, and
outside the call must be turned down. -/
structure IndicesFit (os : Os) (proc : ProcRef) (ins : Inst) : Prop where
  dump : ins.InRange os.mram.storageSz → ins.opcode = .ALLOC →
    os.DumpFits ∨ AllocFails os proc ins.arg0
  outside : ¬ ins.InRange os.mram.storageSz → TurnedDown os proc ins

/-! ## Allocation -/

private theorem setMm_eq_iff {os : Os} {proc : ProcRef} (live : (os.procs proc).isSome = true)
    (mm : MmStruct) : os.setMm proc mm = os ↔ mm = os.mm proc := by
  constructor
  · intro same
    rw [← Os.mm_setMm_self live mm, same]
  · intro same
    rw [same, Os.setMm_self]

theorem not_allocFails_of_found {os : Os} {proc : ProcRef} {size : Addr} {newrg : VmRgStruct}
    {left : List VmRgStruct}
    (found : firstFit (asInt size) (os.mm proc).area.vmFreergList = some (newrg, left))
    (offered : newrg.rgStart ≠ ofInt (-1)) : ¬ AllocFails os proc size := by
  intro fails
  rcases firstFit_cases found with ⟨_, node, _, _, picked, region, _⟩
  have allOnes := fails.1 node picked
  rw [region] at offered
  exact offered allOnes

theorem not_allocFails_of_growth {os : Os} {proc : ProcRef} {size : Addr}
    (sound : (os.mm proc).Sound) (resolves : os.Resolves proc) {searched grown : MmStruct}
    {left : MemphyStruct} (search : Searched (asInt size) (os.mm proc) searched)
    (growth : Growth searched os.mram (pagingPageAlignsz size) grown left) :
    ¬ AllocFails os proc size := by
  intro fails
  have raised := growth.accepted
  rw [search.sbrk sound] at raised
  exact (growthRefused_iff _ _).mp (fails.2 resolves) raised

/-- A failing allocation changes nothing unless the search has dropped a
node. -/
theorem liballoc_turnedDown_iff {os : Os} (sound : os.Sound) {proc : ProcRef}
    (live : (os.procs proc).isSome = true) (size : Addr) (regIndex : BitVec 32) :
    ((liballoc os proc size regIndex).1 ≠ 0 ∧ (liballoc os proc size regIndex).2 = os) ↔
      AllocFails os proc size ∧ SearchKeeps (asInt size) (os.mm proc).area.vmFreergList := by
  have mmSound := sound.memory proc
  rcases alloc_cases sound live regIndex.toInt size with
    ⟨newrg, left, found, offered, taken⟩ | ⟨searched, search, reason, refused⟩ |
      ⟨resolves, searched, grown, left, search, growth, accepted⟩
  · rw [liballoc_of_alloc taken]
    apply iff_of_false
    · rintro ⟨failed, _⟩
      exact failed rfl
    · rintro ⟨fails, _⟩
      exact not_allocFails_of_found found offered fails
  · rw [liballoc_of_refused refused, setMm_eq_iff live, search.eq_iff mmSound, SearchKeeps]
    have fails : AllocFails os proc size :=
      ⟨search.picked, fun resolves => (growthRefused_iff _ _).mpr (reason resolves)⟩
    have failed : (-1 : Int) ≠ 0 := by decide
    exact and_congr_left' (iff_of_true failed fails)
  · rw [liballoc_of_alloc accepted]
    apply iff_of_false
    · rintro ⟨failed, _⟩
      exact failed rfl
    · rintro ⟨fails, _⟩
      exact not_allocFails_of_growth mmSound resolves search growth fails

/-- The accesses of an allocation under an id of the table. -/
theorem liballoc_faults {os : Os} (sound : os.Sound) (defined : os.Defined) {proc : ProcRef}
    (live : (os.procs proc).isSome = true) (size : Addr) {regIndex : BitVec 32}
    {slot : Fin PAGING_MAX_SYMTBL_SZ} (named : getSymrgByid regIndex.toInt = some slot) :
    (liballoc os proc size regIndex).2.fault = false ∧
      ((liballoc os proc size regIndex).2.mram.fault = false ↔
        os.DumpFits ∨ AllocFails os proc size) := by
  have mmSound := sound.memory proc
  have stored : ∀ (before : Os) (rg : VmRgStruct), before.setSymrg proc regIndex.toInt rg =
      before.setMm proc ((before.mm proc).setRegion slot rg) := by
    intro before rg
    rw [Os.setSymrg, named]
    rfl
  have dumped : ∀ mram : MemphyStruct, mram.fault = false → mram.storageSz = os.mram.storageSz →
      mram.maxsz = os.mram.maxsz → ((memphyDump mram).fault = false ↔ os.DumpFits) := by
    intro mram clean size most
    rw [memphyDump, Os.DumpFits, clean, Bool.false_or, decide_eq_false_iff_not, size, most,
      Nat.not_lt]
  rcases alloc_cases sound live regIndex.toInt size with
    ⟨newrg, left, found, offered, taken⟩ | ⟨searched, search, reason, refused⟩ |
      ⟨resolves, searched, grown, left, search, growth, accepted⟩
  · rw [liballoc_of_alloc taken, stored]
    refine ⟨defined.1, (dumped os.mram defined.2.1 rfl rfl).trans ?_⟩
    exact (or_iff_left (not_allocFails_of_found found offered)).symm
  · rw [liballoc_of_refused refused]
    refine ⟨defined.1, iff_of_true defined.2.1 (Or.inr ⟨search.picked, fun resolves => ?_⟩)⟩
    exact (growthRefused_iff _ _).mpr (reason resolves)
  · rcases growth.device with ⟨spare, _, device⟩
    have fits := dumped left (by rw [device]; exact defined.2.1) (by rw [device]) (by rw [device])
    rw [liballoc_of_alloc accepted, stored]
    refine ⟨defined.1, fits.trans ?_⟩
    exact (or_iff_left (not_allocFails_of_growth mmSound resolves search growth)).symm

/-! ## Release -/

/-- A release is turned down when the id names no slot or an empty one. -/
theorem libfree_turnedDown_iff (os : Os) (proc : ProcRef) (regIndex : BitVec 32) :
    ((libfree os proc regIndex).1 ≠ 0 ∧ (libfree os proc regIndex).2 = os) ↔
      ∀ slot ∈ getSymrgByid regIndex.toInt,
        ((os.mm proc).symrgtbl slot).rgStart = 0 ∧ ((os.mm proc).symrgtbl slot).rgEnd = 0 := by
  have failed : (-1 : Int) ≠ 0 := by decide
  unfold libfree free
  cases named : getSymrgByid regIndex.toInt with
  | none =>
      refine iff_of_true ⟨failed, rfl⟩ ?_
      rintro slot ⟨⟩
  | some slot =>
      dsimp only
      by_cases empty : ((os.mm proc).symrgtbl slot).rgStart = 0 ∧
          ((os.mm proc).symrgtbl slot).rgEnd = 0
      · rw [if_pos empty]
        refine iff_of_true ⟨failed, rfl⟩ ?_
        rintro other ⟨⟩
        exact empty
      · rw [if_neg empty]
        apply iff_of_false
        · rintro ⟨wrong, _⟩
          apply wrong
          cases kmemAddrIsKernel ((os.mm proc).symrgtbl slot).rgStart <;> rfl
        · intro vacant
          exact empty (vacant slot rfl)

/-- A release stores to no array outside the table and to no cell of the RAM. -/
theorem libfree_faults {os : Os} (sound : os.Sound) {proc : ProcRef}
    (live : (os.procs proc).isSome = true) (regIndex : BitVec 32) :
    (libfree os proc regIndex).2.fault = os.fault ∧
      (libfree os proc regIndex).2.mram = os.mram := by
  rw [libfree_state]
  rcases free_cases sound live regIndex.toInt with
    failed | ⟨slot, named, dropped | ⟨_, _, returned⟩⟩
  · rw [failed]
    exact ⟨rfl, rfl⟩
  · rw [dropped]
    exact ⟨rfl, rfl⟩
  · rw [returned]
    exact ⟨rfl, rfl⟩

/-! ## Reads and writes -/

theorem Os.reaches_iff {os : Os} {proc : ProcRef} {source : BitVec 32} {offset addr : Addr}
    (resolved : resolveRgAddr os proc source.toInt offset = some addr) :
    os.Reaches proc source offset ↔ os.Grants proc addr := by
  constructor
  · rintro ⟨other, found, grants⟩
    rw [resolved] at found
    cases found
    exact grants
  · exact fun grants => ⟨addr, resolved, grants⟩

theorem Os.not_reaches {os : Os} {proc : ProcRef} {source : BitVec 32} {offset : Addr}
    (unresolved : resolveRgAddr os proc source.toInt offset = none) :
    ¬ os.Reaches proc source offset := by
  rintro ⟨addr, found, _⟩
  rw [unresolved] at found
  cases found

theorem libread_plain {os : Os} {proc : ProcRef} (plain : os.Plain proc) (source : BitVec 32)
    (offset : Addr) :
    (os.Reaches proc source offset ∧ ∃ data, libread os proc source offset = (0, data, os)) ∨
      (¬ os.Reaches proc source offset ∧ libread os proc source offset = (-1, 0, os)) := by
  unfold libread read
  cases resolved : resolveRgAddr os proc source.toInt offset with
  | none => exact Or.inr ⟨Os.not_reaches resolved, rfl⟩
  | some addr =>
      dsimp only
      by_cases granted : os.Grants proc addr
      · rw [pgGetval_of_grants plain granted]
        exact Or.inl ⟨(Os.reaches_iff resolved).mpr granted, _, rfl⟩
      · rw [pgGetval_of_not_grants plain granted]
        exact Or.inr ⟨fun reaches => granted ((Os.reaches_iff resolved).mp reaches), rfl⟩

theorem libwrite_plain {os : Os} {proc : ProcRef} (plain : os.Plain proc) (data : Byte)
    (destination : BitVec 32) (offset : Addr) :
    (os.Reaches proc destination offset ∧ ∃ bytes,
        libwrite os proc data destination offset = (0, os.setRamBytes bytes)) ∨
      (¬ os.Reaches proc destination offset ∧
        libwrite os proc data destination offset = (-1, os)) := by
  unfold libwrite write
  cases resolved : resolveRgAddr os proc destination.toInt offset with
  | none => exact Or.inr ⟨Os.not_reaches resolved, rfl⟩
  | some addr =>
      dsimp only
      by_cases granted : os.Grants proc addr
      · rw [pgSetval_of_grants plain granted]
        exact Or.inl ⟨(Os.reaches_iff resolved).mpr granted, _, rfl⟩
      · rw [pgSetval_of_not_grants plain granted]
        exact Or.inr ⟨fun reaches => granted ((Os.reaches_iff resolved).mp reaches), rfl⟩

/-! ## Kernel memory -/

theorem libkmemMalloc_turnedDown_iff {os : Os} (intBreak : os.IntBreak) {proc : ProcRef}
    (live : (os.procs proc).isSome = true) (size regIndex : BitVec 32) :
    ((libkmemMalloc os proc size regIndex).1 ≠ 0 ∧
        (libkmemMalloc os proc size regIndex).2 = os) ↔
      PAGING_MAX_SYMTBL_SZ ≤ regIndex.toNat ∨ size.toInt ≤ 0 ∨
        KMEM_POOL_SIZE < wrapInt (os.kmem.brk + size.toInt) := by
  have failed : (-1 : Int) ≠ 0 := by decide
  have present : ¬ (os.procs proc).isNone = true :=
    Bool.eq_false_iff.mp (Option.isNone_eq_false_iff.mpr live)
  unfold libkmemMalloc
  by_cases beyond : PAGING_MAX_SYMTBL_SZ ≤ regIndex.toNat
  · rw [if_pos (Or.inr beyond)]
    exact iff_of_true ⟨failed, rfl⟩ (Or.inl beyond)
  · rw [if_neg (not_or.mpr ⟨present, beyond⟩)]
    rcases kmemCarve_cases os.kmem size.toInt with ⟨refused, nothing⟩ | ⟨positive, room, cut⟩
    · rw [nothing]
      exact iff_of_true ⟨failed, rfl⟩ (Or.inr refused)
    · rw [cut, ← kmemNext]
      dsimp only
      rw [if_neg (kmemNext_ne_zero intBreak.1 intBreak.2)]
      apply iff_of_false
      · rintro ⟨wrong, _⟩
        exact wrong rfl
      · rintro (wrong | wrong | wrong)
        · exact beyond wrong
        · exact absurd positive (Int.not_lt.mpr wrong)
        · exact absurd room (Int.not_le.mpr wrong)

/-- The check of the id keeps the store inside the table. -/
private theorem setSymrg_faults (os : Os) (caller : ProcRef) {regIndex : BitVec 32}
    (below : ¬ PAGING_MAX_SYMTBL_SZ ≤ regIndex.toNat) (rg : VmRgStruct) :
    (os.setSymrg caller regIndex.toNat rg).fault = os.fault ∧
      (os.setSymrg caller regIndex.toNat rg).mram = os.mram := by
  rcases setSymrg_below below rg with ⟨slot, _, stored⟩
  rw [stored]
  exact ⟨rfl, rfl⟩

theorem libkmemMalloc_faults (os : Os) (proc : ProcRef) (size regIndex : BitVec 32) :
    (libkmemMalloc os proc size regIndex).2.fault = os.fault ∧
      (libkmemMalloc os proc size regIndex).2.mram = os.mram := by
  unfold libkmemMalloc
  by_cases refused : (os.procs proc).isNone = true ∨ PAGING_MAX_SYMTBL_SZ ≤ regIndex.toNat
  · rw [if_pos refused]
    exact ⟨rfl, rfl⟩
  · rw [if_neg refused]
    dsimp only
    split
    · exact ⟨rfl, rfl⟩
    · exact setSymrg_faults _ proc (not_or.mp refused).2 _

theorem libkmemCachePoolCreate_faults (os : Os) (proc : ProcRef)
    (size align cachePoolId : BitVec 32) :
    (libkmemCachePoolCreate os proc size align cachePoolId).2.fault = os.fault ∧
      (libkmemCachePoolCreate os proc size align cachePoolId).2.mram = os.mram := by
  unfold libkmemCachePoolCreate
  by_cases refused : (os.procs proc).isNone = true ∨ align = 0
  · rw [if_pos refused]
    exact ⟨rfl, rfl⟩
  · rw [if_neg refused]
    cases poolIndex cachePoolId with
    | none => exact ⟨rfl, rfl⟩
    | some pool => exact ⟨rfl, rfl⟩

theorem libkmemCacheAlloc_turnedDown_iff {os : Os} {proc : ProcRef}
    (live : (os.procs proc).isSome = true) (regIndex cachePoolId : BitVec 32) :
    ((libkmemCacheAlloc os proc regIndex cachePoolId).1 ≠ 0 ∧
        (libkmemCacheAlloc os proc regIndex cachePoolId).2 = os) ↔
      PAGING_MAX_SYMTBL_SZ ≤ regIndex.toNat ∨
        ∀ pool ∈ poolIndex cachePoolId, kmemSlot os.kmem pool = none := by
  have failed : (-1 : Int) ≠ 0 := by decide
  have present : ¬ (os.procs proc).isNone = true :=
    Bool.eq_false_iff.mp (Option.isNone_eq_false_iff.mpr live)
  unfold libkmemCacheAlloc
  by_cases beyond : PAGING_MAX_SYMTBL_SZ ≤ regIndex.toNat
  · rw [if_pos (Or.inr beyond)]
    exact iff_of_true ⟨failed, rfl⟩ (Or.inl beyond)
  · rw [if_neg (not_or.mpr ⟨present, beyond⟩), or_iff_right beyond]
    cases poolIndex cachePoolId with
    | none =>
        refine iff_of_true ⟨failed, rfl⟩ ?_
        rintro pool ⟨⟩
    | some pool =>
        dsimp only
        cases slotted : kmemSlot os.kmem pool with
        | none =>
            refine iff_of_true ⟨failed, rfl⟩ ?_
            rintro other ⟨⟩
            exact slotted
        | some result =>
            apply iff_of_false
            · rintro ⟨wrong, _⟩
              exact wrong rfl
            · intro none
              rw [none pool rfl] at slotted
              cases slotted

theorem libkmemCacheAlloc_faults (os : Os) (proc : ProcRef) (regIndex cachePoolId : BitVec 32) :
    (libkmemCacheAlloc os proc regIndex cachePoolId).2.fault = os.fault ∧
      (libkmemCacheAlloc os proc regIndex cachePoolId).2.mram = os.mram := by
  unfold libkmemCacheAlloc
  by_cases refused : (os.procs proc).isNone = true ∨ PAGING_MAX_SYMTBL_SZ ≤ regIndex.toNat
  · rw [if_pos refused]
    exact ⟨rfl, rfl⟩
  · rw [if_neg refused]
    cases poolIndex cachePoolId with
    | none => exact ⟨rfl, rfl⟩
    | some pool =>
        dsimp only
        cases kmemSlot os.kmem pool with
        | none => exact ⟨rfl, rfl⟩
        | some result => exact setSymrg_faults (os.setKmem result.2) proc (not_or.mp refused).2 _

/-! ## Copies -/

theorem Os.setPoolBytes_eq_iff (os : Os) (bytes : Int → Byte) :
    os.setPoolBytes bytes = os ↔ bytes = os.kmem.storage := by
  constructor
  · intro same
    exact congrArg (fun os : Os => os.kmem.storage) same
  · intro same
    rw [same]
    rfl

theorem Os.setRamBytes_eq_iff (os : Os) (bytes : Addr → Byte) :
    os.setRamBytes bytes = os ↔ bytes = os.mram.storage := by
  constructor
  · intro same
    exact congrArg (fun os : Os => os.mram.storage) same
  · intro same
    rw [same]
    rfl

/-- The status of a copy and what its stores leave, as one condition. -/
private theorem vain_iff {Loc : Type} [DecidableEq Loc] {granted : Side → Nat → Prop}
    [∀ side i, Decidable (granted side i)] {size : BitVec 32} {mem : Loc → Byte}
    {stores : List (Loc × Byte)} :
    ((if ∀ i < size.toNat, granted .source i ∧ granted .target i then (0 : Int) else -1) ≠ 0 ∧
        storeAll mem stores = mem) ↔ Vain granted size mem stores := by
  rw [storeAll_eq_iff, Vain]
  apply and_congr_left'
  by_cases all : ∀ i < size.toNat, granted .source i ∧ granted .target i
  · rw [if_pos all]
    apply iff_of_false (fun failed => failed rfl)
    rintro ⟨i, early, refused⟩
    exact refused (all i early)
  · rw [if_neg all]
    push Not at all
    rcases all with ⟨i, early, refused⟩
    exact iff_of_true (by decide) ⟨i, early, fun both => refused both.1 both.2⟩

theorem libkmemCopyFromUser_turnedDown_iff {os : Os} {proc : ProcRef} (plain : os.Plain proc)
    (source destination offset size : BitVec 32) :
    ((libkmemCopyFromUser os proc source destination offset size).1 ≠ 0 ∧
        (libkmemCopyFromUser os proc source destination offset size).2 = os) ↔
      ∀ src dst, copyRegions os proc source destination = some (src, dst) →
        Vain (fromUserGranted os proc src dst offset) size os.kmem.storage
          (fromUserStores os proc src dst offset size) := by
  have failed : (-1 : Int) ≠ 0 := by decide
  unfold libkmemCopyFromUser
  cases copyRegions os proc source destination with
  | none =>
      refine iff_of_true ⟨failed, rfl⟩ ?_
      intro src dst missing
      cases missing
  | some regions =>
      rcases regions with ⟨src, dst⟩
      dsimp only
      rw [copyFromUserLoop_plain plain, Os.setPoolBytes_eq_iff, vain_iff]
      constructor
      · rintro vain other target ⟨⟩
        exact vain
      · intro vain
        exact vain src dst rfl

theorem libkmemCopyToUser_turnedDown_iff {os : Os} {proc : ProcRef} (plain : os.Plain proc)
    (source destination offset size : BitVec 32) :
    ((libkmemCopyToUser os proc source destination offset size).1 ≠ 0 ∧
        (libkmemCopyToUser os proc source destination offset size).2 = os) ↔
      ∀ dst src, copyRegions os proc destination source = some (dst, src) →
        Vain (toUserGranted os proc src dst offset) size os.mram.storage
          (toUserStores os proc src dst offset size) := by
  have failed : (-1 : Int) ≠ 0 := by decide
  unfold libkmemCopyToUser
  cases copyRegions os proc destination source with
  | none =>
      refine iff_of_true ⟨failed, rfl⟩ ?_
      intro dst src missing
      cases missing
  | some regions =>
      rcases regions with ⟨dst, src⟩
      dsimp only
      rw [copyToUserLoop_plain plain, Os.setRamBytes_eq_iff, vain_iff]
      constructor
      · rintro vain target other ⟨⟩
        exact vain
      · intro vain
        exact vain dst src rfl

/-- A copy reaches the RAM at mapped addresses only. -/
theorem libkmemCopyFromUser_faults {os : Os} {proc : ProcRef} (plain : os.Plain proc)
    (source destination offset size : BitVec 32) :
    (libkmemCopyFromUser os proc source destination offset size).2.fault = os.fault ∧
      (libkmemCopyFromUser os proc source destination offset size).2.mram.fault =
        os.mram.fault := by
  unfold libkmemCopyFromUser
  cases copyRegions os proc source destination with
  | none => exact ⟨rfl, rfl⟩
  | some regions =>
      dsimp only
      rw [copyFromUserLoop_plain plain]
      exact ⟨rfl, rfl⟩

theorem libkmemCopyToUser_faults {os : Os} {proc : ProcRef} (plain : os.Plain proc)
    (source destination offset size : BitVec 32) :
    (libkmemCopyToUser os proc source destination offset size).2.fault = os.fault ∧
      (libkmemCopyToUser os proc source destination offset size).2.mram.fault =
        os.mram.fault := by
  unfold libkmemCopyToUser
  cases copyRegions os proc destination source with
  | none => exact ⟨rfl, rfl⟩
  | some regions =>
      dsimp only
      rw [copyToUserLoop_plain plain]
      exact ⟨rfl, rfl⟩

/-! ## Raw system calls -/

theorem Inst.operation_of_cells {ins : Inst} {cell : Addr} (member : cell ∈ ins.cells) :
    ins.arg0.setWidth 32 = (17 : BitVec 32) ∧
      (asInt ins.arg1 = SYSMEM_IO_READ ∨ asInt ins.arg1 = SYSMEM_IO_WRITE ∨
        asInt ins.arg1 = SYSMEM_SWP_OP) := by
  unfold Inst.cells at member
  by_cases raw : ins.opcode = .SYSCALL ∧ ins.arg0.setWidth 32 = (17 : BitVec 32)
  · rw [if_pos raw] at member
    refine ⟨raw.2, ?_⟩
    by_cases single : asInt ins.arg1 = SYSMEM_IO_READ ∨ asInt ins.arg1 = SYSMEM_IO_WRITE
    · exact single.imp_right Or.inl
    · rw [if_neg single] at member
      by_cases page : asInt ins.arg1 = SYSMEM_SWP_OP
      · exact Or.inr (Or.inr page)
      · rw [if_neg page] at member
        cases member
  · rw [if_neg raw] at member
    cases member

/-- A raw access never fails on its own: only a process that is not found
turns it down. -/
theorem libsyscall_turnedDown_iff {os : Os} (random : os.mram.rdmflg = true) {proc : ProcRef}
    {ins : Inst} {cell : Addr} (member : cell ∈ ins.cells) :
    ((libsyscall os proc (ins.arg0.setWidth 32) ins.arg1 ins.arg2 ins.arg3).1 ≠ 0 ∧
        (libsyscall os proc (ins.arg0.setWidth 32) ins.arg1 ins.arg2 ins.arg3).2 = os) ↔
      ¬ os.Resolves proc := by
  have failed : (-1 : Int) ≠ 0 := by decide
  rcases Inst.operation_of_cells member with ⟨number, operation⟩
  rw [number, Os.Resolves, libsyscall, syscall, if_neg (by decide), if_pos rfl, sysMemmap]
  dsimp only
  cases schedFindProcByPid os (os.pid proc) with
  | none =>
      refine iff_of_true ⟨failed, rfl⟩ ?_
      rintro ⟨⟩
  | some found =>
      apply iff_of_false
      · rintro ⟨wrong, _⟩
        apply wrong
        rcases operation with read | write | page
        · simp [read, memphyRead, random, SYSMEM_MAP_OP, SYSMEM_INC_OP, SYSMEM_SWP_OP,
            SYSMEM_IO_READ]
        · simp [write, memphyWrite, random, SYSMEM_MAP_OP, SYSMEM_INC_OP, SYSMEM_SWP_OP,
            SYSMEM_IO_READ, SYSMEM_IO_WRITE]
        · simp [page, mmSwapPage, SYSMEM_MAP_OP, SYSMEM_INC_OP, SYSMEM_SWP_OP]
      · intro unresolved
        exact unresolved rfl

theorem Inst.mem_cells {ins : Inst} (opcode : ins.opcode = .SYSCALL)
    (number : ins.arg0.setWidth 32 = (17 : BitVec 32)) :
    (asInt ins.arg1 = SYSMEM_IO_READ ∨ asInt ins.arg1 = SYSMEM_IO_WRITE → ins.arg2 ∈ ins.cells) ∧
      (asInt ins.arg1 = SYSMEM_SWP_OP → ∀ offset < 256, pageCell ins.arg2 offset ∈ ins.cells) := by
  unfold Inst.cells
  rw [if_pos (And.intro opcode number)]
  constructor
  · intro single
    rw [if_pos single]
    exact List.mem_singleton_self _
  · intro page offset inside
    rw [page, if_neg (by decide), if_pos rfl]
    exact List.mem_map_of_mem (List.mem_range.mpr inside)

/-- A raw call whose cells exist. -/
theorem libsyscall_faults {os : Os} (sound : os.Sound) {proc : ProcRef}
    (live : (os.procs proc).isSome = true) {ins : Inst} (opcode : ins.opcode = .SYSCALL)
    (inside : ∀ cell ∈ ins.cells, cell.toNat < os.mram.storageSz) :
    (libsyscall os proc (ins.arg0.setWidth 32) ins.arg1 ins.arg2 ins.arg3).2.fault = os.fault ∧
      (libsyscall os proc (ins.arg0.setWidth 32) ins.arg1 ins.arg2 ins.arg3).2.mram.fault =
        os.mram.fault := by
  have random := sound.mramRandom
  unfold libsyscall syscall
  dsimp only
  by_cases listing : ins.arg0.setWidth 32 = (0 : BitVec 32)
  · rw [if_pos listing]
    exact ⟨rfl, rfl⟩
  rw [if_neg listing]
  by_cases number : ins.arg0.setWidth 32 = (17 : BitVec 32)
  swap
  · rw [if_neg number]
    exact ⟨rfl, rfl⟩
  rcases Inst.mem_cells opcode number with ⟨single, page⟩
  rw [if_pos number]
  unfold sysMemmap
  dsimp only
  cases resolved : schedFindProcByPid os (os.pid proc) with
  | none => exact ⟨rfl, rfl⟩
  | some found =>
      have same := sound.resolve live resolved
      subst same
      dsimp only
      split
      · exact ⟨rfl, rfl⟩
      split
      · rcases incVmaLimit_cases (sound.memory found) os.mram (asInt ins.arg2) ins.arg3
          with ⟨_, refused⟩ | ⟨_, grown, left, accepted, growth⟩
        · rw [refused]
          exact ⟨rfl, rfl⟩
        · rcases growth.device with ⟨spare, _, device⟩
          rw [accepted, device]
          exact ⟨rfl, rfl⟩
      split
      · next swap =>
          have source := swapCpPage_source random
            (fun offset early => inside _ (page swap offset early)) os.activeMswp ins.arg3
          unfold mmSwapPage
          generalize swapCpPage os.mram ins.arg2 os.activeMswp ins.arg3 = devices at source ⊢
          exact ⟨rfl, congrArg MemphyStruct.fault source⟩
      split
      · next operation =>
          rw [memphyRead_of_random random, touch_of_inside (inside _ (single (Or.inl operation)))]
          exact ⟨rfl, rfl⟩
      split
      · next operation =>
          rw [memphyWrite_of_random random, store_of_inside (inside _ (single (Or.inr operation)))]
          exact ⟨rfl, rfl⟩
      · exact ⟨rfl, rfl⟩

/-! ## The dispatch -/

theorem getSymrgByid_of_lt {rgid : Addr} (inside : rgid.toNat < PAGING_MAX_SYMTBL_SZ) :
    ∃ slot, getSymrgByid (rgid.setWidth 32 : BitVec 32).toInt = some slot := by
  apply getSymrgByid_of_inside
  unfold PAGING_MAX_SYMTBL_SZ at inside
  have narrowed : (rgid.setWidth 32 : BitVec 32).toNat = rgid.toNat := by
    rw [BitVec.toNat_setWidth, Nat.mod_eq_of_lt (by omega)]
  rw [BitVec.toInt_eq_toNat_of_lt (by omega), narrowed]
  omega

/-- Inside the arrays the dump after an allocation is the only access that may
leave the storage. -/
theorem dispatch_faults_iff {os : Os} (accessible : os.Accessible) {proc : ProcRef}
    (live : (os.procs proc).isSome = true) {ins : Inst}
    (inRange : ins.InRange os.mram.storageSz) :
    ((dispatch os proc ins).2.fault = false ∧ (dispatch os proc ins).2.mram.fault = false) ↔
      (ins.opcode = .ALLOC → os.DumpFits ∨ AllocFails os proc ins.arg0) := by
  have sound := accessible.sound
  have defined := accessible.defined
  have plain := accessible.plain proc
  have quiet : ∀ {opcode : InsOpcode} {after : Os}, opcode ≠ .ALLOC →
      after.fault = os.fault ∧ after.mram.fault = os.mram.fault →
        (after.fault = false ∧ after.mram.fault = false ↔
          (opcode = .ALLOC → os.DumpFits ∨ AllocFails os proc ins.arg0)) := by
    intro opcode after other same
    rw [same.1, same.2]
    exact iff_of_true ⟨defined.1, defined.2.1⟩ (fun allocates => absurd allocates other)
  unfold dispatch
  cases opcode : ins.opcode with
  | CALC =>
      exact quiet (by decide) ⟨rfl, rfl⟩
  | ALLOC =>
      have named : ins.arg1 ∈ ins.regionIds := by simp [Inst.regionIds, opcode]
      rcases getSymrgByid_of_lt (inRange.regions _ named) with ⟨slot, found⟩
      have faults := liballoc_faults sound defined live ins.arg0 found
      exact ⟨fun clean _ => faults.2.mp clean.2, fun fits => ⟨faults.1, faults.2.mpr (fits rfl)⟩⟩
  | FREE =>
      have same := libfree_faults sound live (ins.arg0.setWidth 32)
      exact quiet (by decide) ⟨same.1, congrArg MemphyStruct.fault same.2⟩
  | READ =>
      have named : ins.arg2 ∈ ins.registers := by simp [Inst.registers, opcode]
      have register := inRange.registers _ named
      apply quiet (by decide)
      rcases libread_plain plain (ins.arg0.setWidth 32) ins.arg1 with
        ⟨_, data, answer⟩ | ⟨_, answer⟩
      · rw [answer]
        dsimp only
        rw [if_pos rfl, Os.setReg, dif_pos register]
        exact ⟨rfl, rfl⟩
      · rw [answer]
        exact ⟨rfl, rfl⟩
  | WRITE =>
      apply quiet (by decide)
      rcases libwrite_plain plain (ins.arg0.setWidth 8) (ins.arg1.setWidth 32) ins.arg2 with
        ⟨_, bytes, answer⟩ | ⟨_, answer⟩
      · rw [answer]
        exact ⟨rfl, rfl⟩
      · rw [answer]
        exact ⟨rfl, rfl⟩
  | KMALLOC =>
      have same := libkmemMalloc_faults os proc (ins.arg0.setWidth 32) (ins.arg1.setWidth 32)
      exact quiet (by decide) ⟨same.1, congrArg MemphyStruct.fault same.2⟩
  | KMEM_CACHE_CREATE =>
      have same := libkmemCachePoolCreate_faults os proc (ins.arg0.setWidth 32)
        (ins.arg1.setWidth 32) (ins.arg2.setWidth 32)
      exact quiet (by decide) ⟨same.1, congrArg MemphyStruct.fault same.2⟩
  | KMEM_CACHE_ALLOC =>
      have same := libkmemCacheAlloc_faults os proc (ins.arg0.setWidth 32) (ins.arg1.setWidth 32)
      exact quiet (by decide) ⟨same.1, congrArg MemphyStruct.fault same.2⟩
  | COPY_FROM_USER =>
      exact quiet (by decide) (libkmemCopyFromUser_faults plain _ _ _ _)
  | COPY_TO_USER =>
      exact quiet (by decide) (libkmemCopyToUser_faults plain _ _ _ _)
  | SYSCALL =>
      exact quiet (by decide) (libsyscall_faults sound live opcode inRange.cells)

/-- With an operand outside its array the call fails without an effect exactly
when it is turned down. -/
theorem dispatch_turnedDown_iff {os : Os} (accessible : os.Accessible) {proc : ProcRef}
    (live : (os.procs proc).isSome = true) {ins : Inst}
    (outside : ¬ ins.InRange os.mram.storageSz) :
    ((dispatch os proc ins).1 ≠ 0 ∧ (dispatch os proc ins).2 = os) ↔ TurnedDown os proc ins := by
  have sound := accessible.sound
  have plain := accessible.plain proc
  have failed : (-1 : Int) ≠ 0 := by decide
  have unindexed : ins.regionIds = [] → ins.registers = [] → ins.cells = [] → False := by
    intro regions registers cells
    apply outside
    constructor
    · rw [regions]
      exact fun _ member => absurd member List.not_mem_nil
    · rw [registers]
      exact fun _ member => absurd member List.not_mem_nil
    · rw [cells]
      exact fun _ member => absurd member List.not_mem_nil
  unfold dispatch TurnedDown
  cases opcode : ins.opcode with
  | CALC =>
      refine (unindexed ?_ ?_ ?_).elim <;>
        simp [Inst.regionIds, Inst.registers, Inst.cells, opcode]
  | ALLOC => exact liballoc_turnedDown_iff sound live ins.arg0 (ins.arg1.setWidth 32)
  | FREE => exact libfree_turnedDown_iff os proc (ins.arg0.setWidth 32)
  | READ =>
      dsimp only
      rcases libread_plain plain (ins.arg0.setWidth 32) ins.arg1 with
        ⟨reaches, data, answer⟩ | ⟨refused, answer⟩
      · rw [answer]
        dsimp only
        rw [if_pos rfl]
        exact iff_of_false (fun both => both.1 rfl) (not_not.mpr reaches)
      · rw [answer]
        exact iff_of_true ⟨failed, rfl⟩ refused
  | WRITE =>
      rcases libwrite_plain plain (ins.arg0.setWidth 8) (ins.arg1.setWidth 32) ins.arg2 with
        ⟨reaches, bytes, answer⟩ | ⟨refused, answer⟩
      · dsimp only
        rw [answer]
        exact iff_of_false (fun both => both.1 rfl) (not_not.mpr reaches)
      · dsimp only
        rw [answer]
        exact iff_of_true ⟨failed, rfl⟩ refused
  | KMALLOC =>
      exact libkmemMalloc_turnedDown_iff accessible.intBreak live (ins.arg0.setWidth 32)
        (ins.arg1.setWidth 32)
  | KMEM_CACHE_CREATE =>
      refine (unindexed ?_ ?_ ?_).elim <;>
        simp [Inst.regionIds, Inst.registers, Inst.cells, opcode]
  | KMEM_CACHE_ALLOC =>
      exact libkmemCacheAlloc_turnedDown_iff live (ins.arg0.setWidth 32) (ins.arg1.setWidth 32)
  | COPY_FROM_USER =>
      exact libkmemCopyFromUser_turnedDown_iff plain (ins.arg0.setWidth 32)
        (ins.arg1.setWidth 32) (ins.arg2.setWidth 32) (ins.arg3.setWidth 32)
  | COPY_TO_USER =>
      exact libkmemCopyToUser_turnedDown_iff plain (ins.arg0.setWidth 32)
        (ins.arg1.setWidth 32) (ins.arg2.setWidth 32) (ins.arg3.setWidth 32)
  | SYSCALL =>
      cases cells : ins.cells with
      | nil =>
          refine (unindexed ?_ ?_ cells).elim <;> simp [Inst.regionIds, Inst.registers, opcode]
      | cons cell rest =>
          have member : cell ∈ ins.cells := by
            rw [cells]
            exact List.mem_cons_self
          exact libsyscall_turnedDown_iff sound.mramRandom member

/-! ## After the program counter has moved -/

theorem Os.Accessible.advance {os : Os} (accessible : os.Accessible) (proc : ProcRef) :
    (os.advance proc).Accessible where
  sound := accessible.sound.advance proc
  inStorage := by
    refine ⟨accessible.inStorage.spare, fun other pgn fpn mapped => ?_⟩
    rw [mm_advance] at mapped
    exact accessible.inStorage.mapped other pgn fpn mapped
  defined := accessible.defined
  intBreak := accessible.intBreak

theorem allocFails_advance (os : Os) (proc : ProcRef) (size : Addr) :
    AllocFails (os.advance proc) proc size ↔ AllocFails os proc size := by
  rw [AllocFails, mm_advance, resolves_advance, AllocFails]

/-- The reasons for a refusal do not depend on the program counter. -/
theorem turnedDown_advance (os : Os) (proc : ProcRef) (ins : Inst) :
    TurnedDown (os.advance proc) proc ins ↔ TurnedDown os proc ins := by
  have mm := mm_advance os proc proc
  have resolves := resolves_advance os proc proc
  have translate : (os.advance proc).translate proc = os.translate proc := by
    ext addr
    rw [Os.translate, Os.translate, mm]
  have grants : (os.advance proc).Grants proc = os.Grants proc := by
    ext addr
    rw [Os.Grants, Os.Grants, resolves, translate]
  have regions : ∀ user kernel,
      copyRegions (os.advance proc) proc user kernel = copyRegions os proc user kernel := by
    intro user kernel
    unfold copyRegions
    rw [Os.advance, Os.updatePcb, Os.setProc_procs, Function.update_self]
    cases os.procs proc with
    | none => rfl
    | some pcb => cases getSymrgByid user.toInt <;> cases getSymrgByid kernel.toInt <;> rfl
  have fromUser : ∀ src dst offset,
      fromUserGranted (os.advance proc) proc src dst offset =
        fromUserGranted os proc src dst offset := by
    intro src dst offset
    ext side i
    cases side with
    | source => rw [fromUserGranted, grants, fromUserGranted]
    | target => rfl
  have toUser : ∀ src dst offset,
      toUserGranted (os.advance proc) proc src dst offset =
        toUserGranted os proc src dst offset := by
    intro src dst offset
    ext side i
    cases side with
    | source => rfl
    | target => rw [toUserGranted, grants, toUserGranted]
  unfold TurnedDown
  cases ins.opcode with
  | CALC => rfl
  | ALLOC => simp only [allocFails_advance, mm]
  | FREE => simp only [mm]
  | READ => simp only [Os.Reaches, resolveRgAddr, mm, grants]
  | WRITE => simp only [Os.Reaches, resolveRgAddr, mm, grants]
  | KMALLOC => rfl
  | KMEM_CACHE_CREATE => rfl
  | KMEM_CACHE_ALLOC => rfl
  | COPY_FROM_USER =>
      simp only [regions, fromUser, fromUserStores, Os.userCell, translate]
      rfl
  | COPY_TO_USER =>
      simp only [regions, toUser, toUserStores, Os.userCell, translate]
      rfl
  | SYSCALL => simp only [resolves]

/-! ## Reachable states -/

/-- In every reachable state an instruction is safe exactly when its indices
fit. -/
theorem indices_safe_iff (memramsz memswpsz : Addr) (os : Os)
    (reached : Reachable memramsz memswpsz os) (proc : ProcRef) (ins : Inst)
    (fetched : fetch os proc = some ins) : IndexSafe os proc ins ↔ IndicesFit os proc ins := by
  have accessible := reached.accessible.advance proc
  have live : ((os.advance proc).procs proc).isSome = true := by
    rw [isSome_advance]
    exact isSome_of_fetch fetched
  have ran : run os proc = dispatch (os.advance proc) proc ins := run_of_fetch fetched
  constructor
  · intro safe
    constructor
    · intro inRange allocates
      have clean : (dispatch (os.advance proc) proc ins).2.fault = false ∧
          (dispatch (os.advance proc) proc ins).2.mram.fault = false := by
        rw [← ran]
        exact ⟨safe.arrays, safe.storage⟩
      have fits := (dispatch_faults_iff accessible live inRange).mp clean allocates
      rw [allocFails_advance] at fits
      exact fits
    · intro outside
      have refused := safe.refuses outside
      rw [ran] at refused
      rw [← turnedDown_advance]
      exact (dispatch_turnedDown_iff accessible live outside).mp refused
  · intro fits
    by_cases inRange : ins.InRange os.mram.storageSz
    · have clean := (dispatch_faults_iff accessible live inRange).mpr fun allocates => by
        rw [allocFails_advance]
        exact fits.dump inRange allocates
      rw [← ran] at clean
      exact ⟨clean.1, clean.2, fun outside => absurd inRange outside⟩
    · have down := (turnedDown_advance os proc ins).mpr (fits.outside inRange)
      have refused := (dispatch_turnedDown_iff accessible live inRange).mpr down
      rw [← ran] at refused
      refine ⟨?_, ?_, fun _ => refused⟩
      · rw [refused.2]
        exact accessible.defined.1
      · rw [refused.2]
        exact accessible.defined.2.1

/-- An allocation into slot 30 stores behind the symbol table. -/
theorem not_indices_safe :
    ¬ ∀ (memramsz memswpsz : Addr) (os : Os), Reachable memramsz memswpsz os →
      ∀ (proc : ProcRef) (ins : Inst), fetch os proc = some ins → IndexSafe os proc ins := by
  intro always
  let final : Os := (Transition.exec kernelStep (fun _ _ => True) (boot 1024 0 nullHeads)
    [.load [⟨.ALLOC, 16, 30, 0, 0⟩] 0]).get (by decide +kernel)
  have reached : Reachable 1024 0 final :=
    ⟨_, _, (Transition.runWhere_of_exec (Option.some_get _).symm).run⟩
  have fetched : fetch final 1 = some ⟨.ALLOC, 16, 30, 0, 0⟩ := by decide +kernel
  have faulted : (run final 1).2.fault = true := by decide +kernel
  have clean := (always 1024 0 final reached 1 _ fetched).arrays
  rw [faulted] at clean
  cases clean

/-- A write under an id beyond the table is refused. -/
theorem indices_safe_write :
    IndexSafe ((Transition.exec kernelStep (fun _ _ => True) (boot 1024 0 nullHeads)
        [.load [⟨.ALLOC, 16, 0, 0, 0⟩, ⟨.WRITE, 7, 30, 0, 0⟩] 0, .run 1]).get (by decide +kernel)) 1
        ⟨.WRITE, 7, 30, 0, 0⟩ := by
  refine (indices_safe_iff 1024 0 _
    ⟨_, _, (Transition.runWhere_of_exec (Option.some_get _).symm).run⟩ 1 ⟨.WRITE, 7, 30, 0, 0⟩
    (by decide +kernel)).mpr ⟨fun _ allocates => ?_, fun _ => ?_⟩
  · cases allocates
  · rintro ⟨addr, resolved, _⟩
    have missing : getSymrgByid ((30 : Addr).setWidth 32 : BitVec 32).toInt = none := by decide
    rw [resolveRgAddr, missing] at resolved
    cases resolved

end Kernel
end Ossim
