import Ossim.Memory.UserSpace
import Ossim.Kernel.Soundness

namespace Ossim
namespace Kernel

open Memory

/-!
# The user address space over whole runs

In a run whose actions meet `KeepsDivision`, the address space of every process
stays divided.  Two instructions can break the division, and the condition
excludes just the ways in which they do.

* An allocation narrows its size to `int` twice, once for the search of the free
  list and once, as a page count, for the growth.  Either way the region can
  become longer than what it was taken from.
* A release tells kernel regions by their address only.  A kernel region that
  was carved after the break of the pool had become negative lies outside the
  pool, and its addresses end up on the free list of the process.

The third way is open to no instruction: `init_mm` links the first region in
front of whatever list the block of the area holds.
-/

/-- An allocation takes no more than the picked node, or the growth, offers. -/
def AllocDivides (os : Os) (proc : ProcRef) (size : Addr) : Prop :=
  PickedHasRoom (asInt size) (os.mm proc).area.vmFreergList ∧
    ((os.mm proc).area.vmFreergList.find? (fitsNode (asInt size)) = none → os.Resolves proc →
      ¬ GrowthRefused (os.mm proc).area.sbrk size →
        pageCount size < 2 ^ 31 ∨ 2 ^ 31 ≤ pageCount size % 2 ^ 32)

/-- A release puts no kernel region on the free list. -/
def FreeDivides (os : Os) (proc : ProcRef) (rgid : Int) : Prop :=
  ∀ slot ∈ getSymrgByid rgid, ((os.mm proc).symrgtbl slot).modeBit = .kernel →
    kmemAddrIsKernel ((os.mm proc).symrgtbl slot).rgStart = true ∨
      ((os.mm proc).symrgtbl slot).rgEnd ≤ ((os.mm proc).symrgtbl slot).rgStart

/-- The instruction that an action executes, if any, keeps the division, and a
new process starts with an area that is divided. -/
def KeepsDivision (os : Os) : KernelAction → Prop
  | .run proc => ∀ ins ∈ fetch os proc, (ins.opcode = .ALLOC → AllocDivides os proc ins.arg0) ∧
      (ins.opcode = .FREE → FreeDivides os proc (ins.arg0.setWidth 32 : BitVec 32).toInt)
  | .load _ _ => os.AreaFresh
  | _ => True

instance (os : Os) (proc : ProcRef) (size : Addr) : Decidable (AllocDivides os proc size) :=
  inferInstanceAs (Decidable (_ ∧ _))

instance (os : Os) (proc : ProcRef) (rgid : Int) : Decidable (FreeDivides os proc rgid) :=
  inferInstanceAs (Decidable (∀ slot ∈ getSymrgByid rgid, _))

instance (os : Os) (action : KernelAction) : Decidable (KeepsDivision os action) :=
  match action with
  | .run proc => inferInstanceAs (Decidable (∀ ins ∈ fetch os proc, _))
  | .load _ _ => inferInstanceAs (Decidable os.AreaFresh)
  | .getProc | .putProc _ | .removeProc _ | .freePcb _ => inferInstanceAs (Decidable True)

/-- In a division no node starts at the all-ones address, so a search that
reports nothing found nothing. -/
theorem searched_eq {mm searched : MmStruct} (sound : mm.Sound) (separate : mm.Separate)
    {size : Int} (room : PickedHasRoom size mm.area.vmFreergList)
    (search : Searched size mm searched) :
    mm.area.vmFreergList.find? (fitsNode size) = none ∧ searched = mm := by
  rcases search with ⟨missing, same⟩ | ⟨newrg, left, found, allOnes, _⟩
  · exact ⟨find?_of_firstFit missing, same⟩
  · have cut := firstFit_cut found (fun node member => (separate.nodeBelow node member).ordered)
      separate.nodesApart room
    rcases cut.region with ⟨node, member, start, _, _⟩
    have below := separate.nodeBelow node member
    have top : newrg.rgStart.toNat = 2 ^ 64 - 1 := by rw [allOnes]; rfl
    have aligned := sound.aligned
    have bound := mm.area.sbrk.isLt
    have limited := below.limited
    have ordered := below.ordered
    omega

/-- A region that a permitted release returns is a user region. -/
theorem userSlot_of_returned {os : Os} {proc : ProcRef} {rgid : Int}
    {slot : Fin PAGING_MAX_SYMTBL_SZ} (divides : FreeDivides os proc rgid)
    (named : getSymrgByid rgid = some slot)
    (outside : kmemAddrIsKernel ((os.mm proc).symrgtbl slot).rgStart = false)
    (ordered : ((os.mm proc).symrgtbl slot).rgStart < ((os.mm proc).symrgtbl slot).rgEnd) :
    (os.mm proc).UserSlot slot := by
  cases mode : ((os.mm proc).symrgtbl slot).modeBit with
  | user => exact mode
  | kernel =>
      rcases divides slot named mode with inside | unordered
      · rw [outside] at inside
        cases inside
      · exact absurd ordered (BitVec.not_lt.mpr unordered)

/-- The effect of an instruction that keeps the division. -/
theorem MmEffect.separate {ins : Inst} {os : Os} {proc : ProcRef} {after : MmStruct}
    {spare : List Addr}
    (effect : MmEffect ins (os.Resolves proc) (os.mm proc) os.mram after spare)
    (sound : (os.mm proc).Sound) (separate : (os.mm proc).Separate)
    (allocates : ins.opcode = .ALLOC → AllocDivides os proc ins.arg0)
    (frees : ins.opcode = .FREE → FreeDivides os proc (ins.arg0.setWidth 32 : BitVec 32).toInt) :
    after.Separate := by
  cases effect with
  | idle => exact separate
  | kernelRegion slot rg mode => exact separate.setRegion_kernel slot mode
  | taken slot newrg left opcode found =>
      exact separate.take sound slot found (allocates opcode).1
  | refused searched opcode search =>
      rw [(searched_eq sound separate (allocates opcode).1 search).2]
      exact separate
  | grown slot searched grown left opcode resolves search growth =>
      have divides := allocates opcode
      rcases searched_eq sound separate divides.1 search with ⟨missing, same⟩
      subst same
      have taken : ¬ GrowthRefused (os.mm proc).area.sbrk ins.arg0 :=
        fun refused => (growthRefused_iff _ _).mp refused growth.accepted
      exact separate.growRegion growth slot
        (grownBreak_covers (divides.2 missing resolves taken) growth.accepted)
  | dropped slot _ => exact separate.setRegion_kernel slot rfl
  | returned slot opcode named outside ordered =>
      exact separate.release sound slot (userSlot_of_returned (frees opcode) named outside ordered)
  | extended grown left _ _ growth => exact separate.grow growth
  | marked marked _ _ _ mark => exact separate.of_marked mark

/-- The area of a new process is divided when its block held a null pointer. -/
theorem Os.AreaFresh.separate {os : Os} (fresh : os.AreaFresh) :
    (initMm (os.freergHeads os.availPid)).Separate := by
  rw [show os.freergHeads os.availPid = [] from fresh]
  exact MmStruct.separate_initMm

/-- Division of every address space, along every run that keeps it. -/
theorem ReachableWhere.separate {memramsz memswpsz : Addr} {os : Os}
    (reached : ReachableWhere KeepsDivision memramsz memswpsz os) :
    os.Sound ∧ ∀ proc, (os.procs proc).isSome = true → (os.mm proc).Separate := by
  rcases reached with ⟨freergHeads, trace, path⟩
  refine path.invariant
    (fun os => os.Sound ∧ ∀ proc, (os.procs proc).isSome = true → (os.mm proc).Separate) ?_ ?_
  · refine ⟨sound_boot memramsz memswpsz freergHeads, fun proc live => ?_⟩
    cases live
  · rintro before action after ⟨sound, separate⟩ keeps taken
    refine ⟨sound.kernelStep taken, kernelStep_mm sound taken separate ?_ ?_⟩
    · rintro code prio rfl
      exact Os.AreaFresh.separate keeps
    · intro caller ins mm spare running live fetched effect
      subst running
      have conditions := keeps ins fetched
      exact effect.separate (sound.memory caller) (separate caller live) conditions.1 conditions.2

/-- User address spaces never overlap: in every state reached by actions that
keep the division, the user regions and the free nodes of every process are
ordered ranges below the break and pairwise disjoint. -/
theorem userSpace_separate (memramsz memswpsz : Addr) (os : Os)
    (reached : ReachableWhere KeepsDivision memramsz memswpsz os) (proc : ProcRef) (pcb : Pcb)
    (live : os.procs proc = some pcb) : pcb.mm.Separate := by
  have separate := reached.separate.2 proc (by rw [live]; rfl)
  rw [Os.mm, live] at separate
  exact separate

/-- A size of `2 ^ 32 - 256` is narrowed to -256, passes the search, and moves
the picked node 256 bytes down into a live region.  The next allocation gets
these bytes again. -/
theorem not_userSpace_separate :
    ¬ ∀ (memramsz memswpsz : Addr) (os : Os), Reachable memramsz memswpsz os →
      ∀ proc pcb, os.procs proc = some pcb → pcb.mm.Separate := by
  intro always
  let final : Os := (Transition.exec kernelStep (fun _ _ => True) (boot 1024 0 nullHeads)
    [.load [⟨.ALLOC, 256, 0, 0, 0⟩, ⟨.ALLOC, 256, 1, 0, 0⟩, ⟨.FREE, 1, 0, 0, 0⟩,
      ⟨.ALLOC, 0xFFFFFF00, 2, 0, 0⟩, ⟨.ALLOC, 256, 3, 0, 0⟩] 0,
      .run 1, .run 1, .run 1, .run 1, .run 1]).get (by decide +kernel)
  have reached : Reachable 1024 0 final :=
    ⟨_, _, (Transition.runWhere_of_exec (Option.some_get _).symm).run⟩
  have live : (final.procs 1).isSome = true := by decide +kernel
  rcases Option.isSome_iff_exists.mp live with ⟨pcb, found⟩
  have separate := always 1024 0 final reached 1 pcb found
  have same : pcb.mm = final.mm 1 := by rw [Os.mm, found]
  rw [same] at separate
  let first : Fin PAGING_MAX_SYMTBL_SZ := ⟨0, by decide⟩
  let last : Fin PAGING_MAX_SYMTBL_SZ := ⟨3, by decide⟩
  have users : ((final.mm 1).symrgtbl first).modeBit = .user ∧
      ((final.mm 1).symrgtbl last).modeBit = .user := by
    decide +kernel
  have apart := separate.regionsApart first last (by decide) users.1 users.2
  exact @VmRgStruct.not_apart _ _ 0 (by decide +kernel) (by decide +kernel) apart

/-- A process that allocates, releases and allocates again, with sizes that
split the node. -/
theorem userSpace_separate_reuse :
    (((Transition.exec kernelStep KeepsDivision (boot 1024 0 nullHeads)
        [.load [⟨.ALLOC, 300, 0, 0, 0⟩, ⟨.FREE, 0, 0, 0, 0⟩, ⟨.ALLOC, 100, 1, 0, 0⟩] 0,
          .run 1, .run 1, .run 1]).get (by decide +kernel)).procs 1).get
            (by decide +kernel) |>.mm.Separate :=
  userSpace_separate 1024 0 _ ⟨_, _, Transition.runWhere_of_exec (Option.some_get _).symm⟩ 1 _
    (Option.some_get _).symm

end Kernel
end Ossim
