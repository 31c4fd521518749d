import Ossim.Memory.UserSpace
import Ossim.Kernel.Regions

namespace Ossim
namespace Kernel

open Memory

/-!
# The bytes that a process accounts for

A byte of the address space is accounted for when a user region or a free node
holds it.  Nothing collects the bytes that neither holds, and the area only
grows, so a byte that leaves the account is gone until the process exits.

The search and the release lose nothing, whatever the sizes, and growing adds
to the account.  Bytes leave it in one way by design: an allocation that
succeeds assigns its slot without looking at the region which the slot held.
That region is lost, as a pointer is that a program assigns twice.

The free list is the one that the process has made.  An area that takes over an old
list is left out, since the heap may overwrite the nodes of such a list.
-/

/-- The bytes in the user regions and the free nodes of a process. -/
def Regions.accounted (regions : Regions) : Set Nat :=
  {address | (∃ rgid, (regions.table rgid).modeBit = .user ∧
      address ∈ (regions.table rgid).bytes) ∨ ∃ node ∈ regions.nodes, address ∈ node.bytes}

/-- The slot whose region an action discards: the target of an allocation that
succeeds, and the target of a release whose region starts in the kernel
range. -/
def discardedSlot (os : Os) (proc : ProcRef) : KernelAction → Option (Fin PAGING_MAX_SYMTBL_SZ)
  | .run caller =>
      if caller = proc ∧ (run os caller).1 = 0 then
        (fetch os caller).bind fun ins => ins.target.filter fun slot =>
          ins.opcode ≠ .FREE || kmemAddrIsKernel ((os.mm proc).symrgtbl slot).rgStart
      else none
  | _ => none

/-- The bytes of the user region that an action discards. -/
def discarded (os : Os) (proc : ProcRef) (action : KernelAction) : Set Nat :=
  {address | ∃ slot ∈ discardedSlot os proc action, (os.mm proc).UserSlot slot ∧
    address ∈ ((os.mm proc).symrgtbl slot).bytes}

/-! ## Storing a slot -/

namespace Regions

/-- After a slot is stored only the bytes of its old user region may be
missing. -/
theorem accounted_store {regions : Regions} (slot : Fin PAGING_MAX_SYMTBL_SZ) (rg : VmRgStruct)
    {address : Nat} (inside : address ∈ regions.accounted) :
    address ∈ (regions.store slot rg).accounted ∨
      ((regions.table slot).modeBit = .user ∧ address ∈ (regions.table slot).bytes) := by
  rcases inside with ⟨rgid, user, held⟩ | listed
  · by_cases same : rgid = slot
    · subst same
      exact Or.inr ⟨user, held⟩
    · refine Or.inl (Or.inl ⟨rgid, ?_⟩)
      rw [table_store_of_ne regions rg same]
      exact ⟨user, held⟩
  · exact Or.inl (Or.inr listed)

theorem accounted_stored (regions : Regions) (slot : Fin PAGING_MAX_SYMTBL_SZ) {rg : VmRgStruct}
    (user : rg.modeBit = .user) {address : Nat} (held : address ∈ rg.bytes) :
    address ∈ (regions.store slot rg).accounted := by
  refine Or.inl ⟨slot, ?_⟩
  rw [table_store_self]
  exact ⟨user, held⟩

theorem accounted_setNodes {regions : Regions} {nodes : List VmRgStruct}
    (kept : ∀ node ∈ regions.nodes, ∀ address ∈ node.bytes, ∃ piece ∈ nodes, address ∈ piece.bytes) :
    regions.accounted ⊆ (regions.setNodes nodes).accounted := by
  rintro address (user | ⟨node, member, held⟩)
  · exact Or.inl user
  · exact Or.inr (kept node member address held)

end Regions

/-! ## One instruction -/

/-- Where a byte is after an instruction: still in the account, or in the
region that the instruction has discarded. -/
theorem RegionEffect.accounted {ins : Inst} {resolves : Prop} {mm : MmStruct} {kmem : Kmem}
    {status : Int} {after : Regions} (effect : RegionEffect ins resolves mm kmem status after)
    (sound : mm.Sound) {address : Nat} (inside : address ∈ (Regions.of mm kmem).accounted) :
    address ∈ after.accounted ∨
      (status = 0 ∧ ∃ slot, ins.target = some slot ∧
        (ins.opcode = .FREE → kmemAddrIsKernel (mm.symrgtbl slot).rgStart = true) ∧
        mm.UserSlot slot ∧ address ∈ (mm.symrgtbl slot).bytes) := by
  have allocates : ∀ {opcode}, ins.opcode = opcode → opcode ≠ .FREE → ∀ {goal : Prop},
      ins.opcode = .FREE → goal := by
    intro opcode same different goal freeing
    exact absurd (same.symm.trans freeing) different
  cases effect with
  | kept status failed => exact Or.inl inside
  | taken slot newrg left opcode target found =>
      rcases inside with user | ⟨node, member, held⟩
      · have listed : address ∈ ((Regions.of mm kmem).setNodes left).accounted := Or.inl user
        rcases Regions.accounted_store slot newrg listed with kept | ⟨wasUser, lost⟩
        · exact Or.inl kept
        · exact Or.inr ⟨rfl, slot, target, allocates opcode (by decide), wasUser, lost⟩
      · rcases firstFit_bytes found member held with moved | remains
        · rcases firstFit_cases found with ⟨_, _, _, _, _, region, _⟩
          refine Or.inl (Regions.accounted_stored _ slot ?_ moved)
          rw [region]
        · exact Or.inl (Or.inr remains)
  | refused searched opcode search =>
      exact Or.inl (Regions.accounted_setNodes
        (fun node member byte held => search.bytes sound member held) inside)
  | grown slot searched opcode target _ search _ =>
      have listed : address ∈
          ((Regions.of mm kmem).setNodes searched.area.vmFreergList).accounted :=
        Regions.accounted_setNodes
          (fun node member byte held => search.bytes sound member held) inside
      rcases Regions.accounted_store slot
        ⟨mm.area.sbrk, mm.area.sbrk + ins.arg0, .user⟩ listed with kept | ⟨wasUser, lost⟩
      · exact Or.inl kept
      · exact Or.inr ⟨rfl, slot, target, allocates opcode (by decide), wasUser, lost⟩
  | dropped slot opcode target reason =>
      rcases Regions.accounted_store slot VmRgStruct.zero inside with kept | ⟨wasUser, lost⟩
      · exact Or.inl kept
      · rcases reason with kernel | unordered
        · exact Or.inr ⟨rfl, slot, target, fun _ => kernel, wasUser, lost⟩
        · have start := lost.1
          have finish := lost.2
          have empty := BitVec.le_def.mp unordered
          dsimp only [Regions.of] at start finish
          omega
  | returned slot opcode target outside ordered =>
      rcases Regions.accounted_store slot VmRgStruct.zero inside with kept | ⟨_, freed⟩
      · refine Or.inl (Regions.accounted_setNodes ?_ kept)
        exact fun node member byte held => ⟨node, List.mem_cons_of_mem _ member, held⟩
      · exact Or.inl (Or.inr ⟨_, List.mem_cons_self, freed⟩)
  | carved slot size opcode target _ _ _ =>
      have raised : address ∈
        ((Regions.of mm kmem).setBrk (wrapInt (kmem.brk + size.toInt))).accounted := inside
      rcases Regions.accounted_store slot
        ⟨kmemNext kmem, kmemNext kmem + ofInt size.toInt, .kernel⟩ raised with
        kept | ⟨wasUser, lost⟩
      · exact Or.inl kept
      · exact Or.inr ⟨rfl, slot, target, allocates opcode (by decide), wasUser, lost⟩
  | reserved pool size align opcode _ _ _ _ _ _ => exact Or.inl inside
  | wasted size _ => exact Or.inl inside
  | slotted slot pool opcode target _ _ _ =>
      rcases Regions.accounted_store slot (nextSlot (kmem.pools pool)) inside with
        kept | ⟨wasUser, lost⟩
      · exact Or.inl kept
      · exact Or.inr ⟨rfl, slot, target, allocates opcode (by decide), wasUser, lost⟩

/-! ## All actions -/

/-- Address bytes are never dropped, except with the region in a slot that is
assigned while it holds one. -/
theorem bytes_accounted (memramsz memswpsz : Addr) (os : Os)
    (reached : ReachableWhere LoadsFresh memramsz memswpsz os) (action : KernelAction) (after : Os)
    (taken : kernelStep os action = some after) (proc : ProcRef)
    (remains : action ≠ .freePcb proc) :
    (os.regions proc).accounted ⊆ (after.regions proc).accounted ∪ discarded os proc action := by
  intro address inside
  have sound := reached.reachable.sound
  rcases kernelStep_regions sound taken with
    ⟨_, same⟩ | ⟨caller, ins, running, _, fetched, same, effect, others⟩ | ⟨freed, exits, regions⟩
  · rw [same]
    exact Or.inl inside
  · by_cases own : caller = proc
    · subst own
      rcases effect.accounted (sound.memory caller) inside with
        kept | ⟨succeeded, slot, target, reason, user, held⟩
      · exact Or.inl kept
      · refine Or.inr ⟨slot, ?_, user, held⟩
        rw [running, discardedSlot, if_pos ⟨rfl, succeeded⟩, fetched, Option.bind_some, target]
        simpa [Option.filter] using reason
    · have kept : (after.regions proc).accounted = (os.regions proc).accounted := by
        have memory := others proc (Ne.symm own)
        rw [Regions.accounted, Os.regions, Regions.of, memory]
        rfl
      rw [kept]
      exact Or.inl inside
  · have different : proc ≠ freed := by
      rintro rfl
      exact remains exits
    rw [regions, if_neg different]
    exact Or.inl inside

/-- A call that allocates or releases under a region id of the table, with a size
below `2 ^ 31` if it has one. -/
def Inst.RegionCall (ins : Inst) : Prop :=
  ins.target.isSome = true ∧
    ((ins.opcode = .ALLOC ∨ ins.opcode = .KMALLOC) ∧ ins.arg0.toNat < 2 ^ 31 ∨
      ins.opcode = .FREE ∨ ins.opcode = .KMEM_CACHE_ALLOC)

instance (ins : Inst) : Decidable ins.RegionCall := inferInstanceAs (Decidable (_ ∧ _))

/-- Processes make such calls only. -/
def RegionCallsOnly (os : Os) : KernelAction → Prop
  | .run proc => ∀ ins ∈ fetch os proc, ins.RegionCall
  | .load _ _ => os.AreaFresh
  | _ => True

instance (os : Os) (action : KernelAction) : Decidable (RegionCallsOnly os action) :=
  match action with
  | .run proc => inferInstanceAs (Decidable (∀ ins ∈ fetch os proc, ins.RegionCall))
  | .load _ _ => inferInstanceAs (Decidable os.AreaFresh)
  | .getProc | .putProc _ | .removeProc _ | .freePcb _ => inferInstanceAs (Decidable True)

/-- Two allocations under one region id: the first region is in no slot and on
no list any more. -/
theorem not_bytes_accounted :
    ¬ ∀ (memramsz memswpsz : Addr) (os : Os),
      ReachableWhere RegionCallsOnly memramsz memswpsz os → ∀ (proc : ProcRef) (after : Os),
        RegionCallsOnly os (.run proc) → kernelStep os (.run proc) = some after →
          (os.regions proc).accounted ⊆ (after.regions proc).accounted := by
  intro always
  let before : Os := (Transition.exec kernelStep RegionCallsOnly (boot 1024 0 nullHeads)
    [.load [⟨.ALLOC, 16, 0, 0, 0⟩, ⟨.ALLOC, 16, 0, 0, 0⟩] 0, .run 1]).get (by decide +kernel)
  let after : Os := (kernelStep before (.run 1)).get (by decide +kernel)
  have reached : ReachableWhere RegionCallsOnly 1024 0 before :=
    ⟨_, _, Transition.runWhere_of_exec (Option.some_get _).symm⟩
  let slot : Fin PAGING_MAX_SYMTBL_SZ := ⟨0, by decide⟩
  have held : (0 : Nat) ∈ (before.regions 1).accounted := by
    refine Or.inl ⟨slot, ?_, ?_, ?_⟩ <;> decide +kernel
  have moved : ∀ rgid, ((after.regions 1).table rgid).modeBit = .user →
      0 < ((after.regions 1).table rgid).rgStart.toNat := by
    decide +kernel
  have unlisted : ∀ node ∈ (after.regions 1).nodes, node.rgEnd.toNat = 0 := by decide +kernel
  rcases always 1024 0 before reached 1 after (by decide +kernel) (Option.some_get _).symm
    held with ⟨rgid, user, start, _⟩ | ⟨node, member, _, finish⟩
  · exact absurd start (Nat.not_le.mpr (moved rgid user))
  · exact absurd finish (by rw [unlisted node member]; exact Nat.lt_irrefl 0)

/-- A release hands all bytes of its region to the free list. -/
theorem bytes_accounted_release :
    (((Transition.exec kernelStep LoadsFresh (boot 1024 0 nullHeads)
        [.load [⟨.ALLOC, 16, 0, 0, 0⟩, ⟨.FREE, 0, 0, 0, 0⟩] 0, .run 1]).get
          (by decide +kernel)).regions 1).accounted ⊆
      (((kernelStep ((Transition.exec kernelStep LoadsFresh (boot 1024 0 nullHeads)
        [.load [⟨.ALLOC, 16, 0, 0, 0⟩, ⟨.FREE, 0, 0, 0, 0⟩] 0, .run 1]).get
          (by decide +kernel)) (.run 1)).get (by decide +kernel)).regions 1).accounted ∪
        discarded ((Transition.exec kernelStep LoadsFresh (boot 1024 0 nullHeads)
        [.load [⟨.ALLOC, 16, 0, 0, 0⟩, ⟨.FREE, 0, 0, 0, 0⟩] 0, .run 1]).get
          (by decide +kernel)) 1 (.run 1) :=
  bytes_accounted 1024 0 _ ⟨_, _, Transition.runWhere_of_exec (Option.some_get _).symm⟩
    (.run 1) _ (Option.some_get _).symm 1 KernelAction.noConfusion

end Kernel
end Ossim
