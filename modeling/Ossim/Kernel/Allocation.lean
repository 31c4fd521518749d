import Ossim.Memory.Backing
import Ossim.Kernel.AddressSpace
import Ossim.Kernel.Residency

namespace Ossim
namespace Kernel

open Memory

/-!
# What a successful allocation promises

In a run whose actions meet `KeepsBacking`, a successful allocation gives a user
region of exactly the requested size in which every byte can be written and read
back.

Success is reported too often.  A size from `2 ^ 31` on is cut down to an
`int` by the search.  A growth that finds too few free frames, or that passes
4 MB, moves the break and returns zero although pages are missing, because the
error code is tested as an unsigned word.  And a node of the free list can lose
pages, or never have had them, when a raw system call marks pages, when a kernel
region is released into the list, or when `init_mm` finds the list of another
process.  The condition excludes these cases.
-/

/-- The condition on an allocation: a size that is served from the free list
is not narrowed, and a growth that is not refused finds its frames and stays
below 4 MB. -/
def AllocBacks (os : Os) (proc : ProcRef) (size : Addr) : Prop :=
  match (os.mm proc).area.vmFreergList.find? (fitsNode (asInt size)) with
  | some _ => size.toNat < 2 ^ 31
  | none => os.Resolves proc → ¬ GrowthRefused (os.mm proc).area.sbrk size →
      pageCount size ≤ os.mram.freeFpList.length ∧
        (os.mm proc).area.sbrk.toNat + pageCount size * 256 ≤ busLimit

/-- A raw system call marks no page that a region or a free node needs. -/
def MarkSpares (os : Os) (proc : ProcRef) (ins : Inst) : Prop :=
  ins.arg0.setWidth 32 = (17 : BitVec 32) → asInt ins.arg1 = SYSMEM_MAP_OP →
    ∀ pgit < (asInt ins.arg3).toNat,
      ¬ (os.mm proc).Needs (ins.arg2 / PAGING_PAGESZ + BitVec.ofNat 64 pgit)

/-- The instruction that an action executes, if any, keeps all parts backed, and
the area of a new process has no old list. -/
def KeepsBacking (os : Os) : KernelAction → Prop
  | .run proc => ∀ ins ∈ fetch os proc, (ins.opcode = .ALLOC → AllocBacks os proc ins.arg0) ∧
      (ins.opcode = .FREE → FreeDivides os proc (ins.arg0.setWidth 32 : BitVec 32).toInt) ∧
      (ins.opcode = .SYSCALL → MarkSpares os proc ins)
  | .load _ _ => os.AreaFresh
  | _ => True

instance (os : Os) (proc : ProcRef) (size : Addr) : Decidable (AllocBacks os proc size) := by
  unfold AllocBacks
  split <;> infer_instance

instance (os : Os) (proc : ProcRef) (ins : Inst) : Decidable (MarkSpares os proc ins) :=
  inferInstanceAs (Decidable (_ → _ → ∀ pgit < (asInt ins.arg3).toNat, _))

instance (os : Os) (action : KernelAction) : Decidable (KeepsBacking os action) :=
  match action with
  | .run proc => inferInstanceAs (Decidable (∀ ins ∈ fetch os proc, _))
  | .load _ _ => inferInstanceAs (Decidable os.AreaFresh)
  | .getProc | .putProc _ | .removeProc _ | .freePcb _ => inferInstanceAs (Decidable True)

/-- The region in a slot after an allocation: it has the requested size, and
every byte of it can be written and read back. -/
structure Allocated (os : Os) (proc : ProcRef) (regIndex : BitVec 32)
    (slot : Fin PAGING_MAX_SYMTBL_SZ) (size : Addr) : Prop where
  mode : ((os.mm proc).symrgtbl slot).modeBit = .user
  length : ((os.mm proc).symrgtbl slot).rgEnd.toNat =
    ((os.mm proc).symrgtbl slot).rgStart.toNat + size.toNat
  write : ∀ offset < size, ∀ b, (libwrite os proc b regIndex offset).1 = 0 ∧
    (libwrite os proc b regIndex offset).2.Defined
  readBack : ∀ offset < size, ∀ b,
    (libread (libwrite os proc b regIndex offset).2 proc regIndex offset).1 = 0 ∧
      (libread (libwrite os proc b regIndex offset).2 proc regIndex offset).2.1 =
        b.signExtend 32 ∧
      (libread (libwrite os proc b regIndex offset).2 proc regIndex offset).2.2.Defined

/-! ## The condition keeps the division and the backing -/

theorem AllocBacks.divides {os : Os} {proc : ProcRef} {size : Addr} (backs : AllocBacks os proc size)
    (separate : (os.mm proc).Separate) (backed : (os.mm proc).Backed) :
    AllocDivides os proc size := by
  have limit : busLimit = 4194304 := rfl
  rw [AllocBacks] at backs
  cases found : (os.mm proc).area.vmFreergList.find? (fitsNode (asInt size)) with
  | some node =>
      rw [found] at backs
      dsimp only at backs
      have member := List.mem_of_find?_eq_some found
      have ordered := (separate.nodeBelow node member).ordered
      have low := (backed.nodes node member).low
      refine ⟨?_, fun missing => ?_⟩
      · intro picked same
        rw [found, Option.mem_some_iff] at same
        subst same
        rw [ofInt_asInt_of_small size backs]
        omega
      · rw [found] at missing
        cases missing
  | none =>
      rw [found] at backs
      dsimp only at backs
      refine ⟨?_, fun _ resolves taken => ?_⟩
      · intro picked same
        rw [found] at same
        cases same
      · have fits := backs resolves taken
        omega

/-- The effect of an instruction that meets the condition. -/
theorem MmEffect.backed {ins : Inst} {os : Os} {proc : ProcRef} {after : MmStruct}
    {spare : List Addr}
    (effect : MmEffect ins (os.Resolves proc) (os.mm proc) os.mram after spare)
    (sound : (os.mm proc).Sound) (separate : (os.mm proc).Separate) (backed : (os.mm proc).Backed)
    (allocates : ins.opcode = .ALLOC → AllocBacks os proc ins.arg0)
    (frees : ins.opcode = .FREE → FreeDivides os proc (ins.arg0.setWidth 32 : BitVec 32).toInt)
    (marks : ins.opcode = .SYSCALL → MarkSpares os proc ins) : after.Backed := by
  have ordered : ∀ node ∈ (os.mm proc).area.vmFreergList, node.rgStart.toNat ≤ node.rgEnd.toNat :=
    fun node member => (separate.nodeBelow node member).ordered
  cases effect with
  | idle => exact backed
  | kernelRegion slot rg mode => exact backed.setRegion_kernel slot mode
  | taken slot newrg left opcode found =>
      have room := ((allocates opcode).divides separate backed).1
      exact backed.take sound slot (firstFit_cut found ordered separate.nodesApart room)
  | refused searched opcode search =>
      rw [(searched_eq sound separate ((allocates opcode).divides separate backed).1 search).2]
      exact backed
  | grown slot searched grown left opcode resolves search growth =>
      have room := ((allocates opcode).divides separate backed).1
      rcases searched_eq sound separate room search with ⟨missing, same⟩
      subst same
      have taken : ¬ GrowthRefused (os.mm proc).area.sbrk ins.arg0 :=
        fun refused => (growthRefused_iff _ _).mp refused growth.accepted
      have backs := allocates opcode
      rw [AllocBacks, missing] at backs
      have fits := backs resolves taken
      exact backed.growRegion sound growth slot fits.1 fits.2
  | dropped slot _ => exact backed.setRegion_kernel slot rfl
  | returned slot opcode named outside order =>
      exact backed.release sound slot (userSlot_of_returned (frees opcode) named outside order)
  | extended grown left _ _ growth => exact backed.grow sound growth
  | marked marked opcode number operation mark =>
      exact backed.of_marked mark (marks opcode number operation)

/-! ## The invariant of the runs -/

/-- The address spaces are divided and backed, and resident pages can be
reached. -/
structure Os.Usable (os : Os) : Prop where
  sound : os.Sound
  separate : ∀ proc, (os.procs proc).isSome = true → (os.mm proc).Separate
  backed : ∀ proc, (os.procs proc).isSome = true → (os.mm proc).Backed
  inStorage : os.InStorage
  listed : os.HoldersListed

theorem usable_boot (memramsz memswpsz : Addr) (freergHeads : ProcRef → List VmRgStruct) :
    (boot memramsz memswpsz freergHeads).Usable where
  sound := sound_boot memramsz memswpsz freergHeads
  separate := by
    intro proc live
    cases live
  backed := by
    intro proc live
    cases live
  inStorage := inStorage_boot memramsz memswpsz freergHeads
  listed := by
    intro proc live
    cases live

theorem Os.AreaFresh.backed {os : Os} (fresh : os.AreaFresh) :
    (initMm (os.freergHeads os.availPid)).Backed := by
  rw [show os.freergHeads os.availPid = [] from fresh]
  exact MmStruct.backed_initMm

theorem Os.Usable.kernelStep {os after : Os} (usable : os.Usable) {action : KernelAction}
    (keeps : KeepsBacking os action) (taken : kernelStep os action = some after) :
    after.Usable where
  sound := usable.sound.kernelStep taken
  separate := by
    refine kernelStep_mm usable.sound taken usable.separate ?_ ?_
    · rintro code prio rfl
      exact Os.AreaFresh.separate keeps
    · intro caller ins mm spare running live fetched effect
      subst running
      have conditions := keeps ins fetched
      have separate := usable.separate caller live
      exact effect.separate (usable.sound.memory caller) separate
        (fun opcode => (conditions.1 opcode).divides separate (usable.backed caller live))
        conditions.2.1
  backed := by
    refine kernelStep_mm usable.sound taken usable.backed ?_ ?_
    · rintro code prio rfl
      exact Os.AreaFresh.backed keeps
    · intro caller ins mm spare running live fetched effect
      subst running
      have conditions := keeps ins fetched
      exact effect.backed (usable.sound.memory caller) (usable.separate caller live)
        (usable.backed caller live) conditions.1 conditions.2.1 conditions.2.2
  inStorage := usable.inStorage.kernelStep usable.sound taken
  listed := usable.listed.kernelStep usable.sound taken

theorem ReachableWhere.usable {memramsz memswpsz : Addr} {os : Os}
    (reached : ReachableWhere KeepsBacking memramsz memswpsz os) : os.Usable := by
  rcases reached with ⟨freergHeads, trace, path⟩
  exact path.invariant _ (usable_boot memramsz memswpsz freergHeads)
    fun _ _ _ usable keeps taken => usable.kernelStep keeps taken

/-! ## Access to a backed region -/

/-- The device address behind an offset of a backed user region. -/
private theorem located_of_backed {os : Os} {proc : ProcRef} {regIndex : BitVec 32}
    {slot : Fin PAGING_MAX_SYMTBL_SZ} {size offset : Addr} (inStorage : os.InStorage)
    (named : getSymrgByid regIndex.toInt = some slot) (user : (os.mm proc).UserSlot slot)
    (length : ((os.mm proc).symrgtbl slot).rgEnd.toNat =
      ((os.mm proc).symrgtbl slot).rgStart.toNat + size.toNat)
    (backed : ((os.mm proc).symrgtbl slot).BackedBy (os.mm proc)) (inside : offset < size) :
    ∃ phyaddr, (resolveRgAddr os proc regIndex.toInt offset).bind (os.translate proc) =
        some phyaddr ∧ phyaddr.toNat < os.mram.storageSz := by
  have limit : busLimit = 4194304 := rfl
  have page : PAGING_PAGESZ.toNat = 256 := rfl
  generalize rgDef : (os.mm proc).symrgtbl slot = rg at length backed
  have offsetInside : offset.toNat < size.toNat := inside
  have low := backed.low
  have start : (rg.rgStart + offset).toNat = rg.rgStart.toNat + offset.toNat := by
    rw [BitVec.toNat_add]
    omega
  have long : (rg.rgEnd - rg.rgStart).toNat = size.toNat := by
    rw [BitVec.toNat_sub]
    omega
  have address : resolveRgAddr os proc regIndex.toInt offset = some (rg.rgStart + offset) := by
    have nonempty : ¬ (rg.rgStart = rg.rgEnd ∨ rg.rgEnd - rg.rgStart ≤ offset) := by
      rintro (empty | short)
      · rw [empty] at length
        omega
      · have bounded : (rg.rgEnd - rg.rgStart).toNat ≤ offset.toNat := short
        omega
    have mode : rg.modeBit = .user := by
      rw [← rgDef]
      exact user
    rw [resolveRgAddr, named]
    dsimp only
    rw [rgDef, if_neg nonempty, if_neg (fun other => other mode)]
  have resident := backed.pages (rg.rgStart.toNat + offset.toNat) ⟨by omega, by omega⟩
  rcases Option.isSome_iff_exists.mp resident with ⟨fpn, mapped⟩
  have number : accessPage (rg.rgStart + offset) =
      BitVec.ofNat 64 ((rg.rgStart.toNat + offset.toNat) / 256) := by
    have quotient : ((rg.rgStart + offset) / PAGING_PAGESZ).toNat =
        (rg.rgStart.toNat + offset.toNat) / 256 := by
      rw [BitVec.toNat_udiv, start, page]
    rw [accessPage, ofInt_asInt_of_small _ (by omega)]
    apply BitVec.eq_of_toNat_eq
    rw [quotient, BitVec.toNat_ofNat]
    omega
  have found : os.translate proc (rg.rgStart + offset) =
      some (fpn * PAGING_PAGESZ + (rg.rgStart + offset) % PAGING_PAGESZ) := by
    rw [Os.translate, number, mapped]
    rfl
  refine ⟨_, ?_, inStorage.translate_lt found⟩
  rw [address, Option.bind_some, found]

/-- A byte written to a backed user region is read back. -/
private theorem allocated_of_backed {os : Os} {proc : ProcRef} {regIndex : BitVec 32}
    {slot : Fin PAGING_MAX_SYMTBL_SZ} {size : Addr} (usable : os.Usable) (defined : os.Defined)
    (live : (os.procs proc).isSome = true) (resolves : os.Resolves proc) (named : getSymrgByid regIndex.toInt = some slot)
    (user : (os.mm proc).UserSlot slot)
    (length : ((os.mm proc).symrgtbl slot).rgEnd.toNat =
      ((os.mm proc).symrgtbl slot).rgStart.toNat + size.toNat) :
    Allocated os proc regIndex slot size := by
  have unswapped := usable.sound.unswapped proc
  have random := usable.sound.mramRandom
  have access : ∀ offset < size, ∃ phyaddr,
      (resolveRgAddr os proc regIndex.toInt offset).bind (os.translate proc) = some phyaddr ∧
        (∀ b, libwrite os proc b regIndex offset = (0, os.setMram (os.mram.store phyaddr b))) ∧
        ∀ b, (os.setMram (os.mram.store phyaddr b)).Defined ∧
          (os.setMram ((os.mram.store phyaddr b).touch phyaddr)).Defined := by
    intro offset inside
    rcases located_of_backed usable.inStorage named user length
      ((usable.backed proc live).regions slot user) inside with ⟨phyaddr, located, stored⟩
    refine ⟨phyaddr, located, fun b => ?_, fun b => ?_⟩
    · rw [libwrite_unswapped unswapped random, located]
      exact if_pos resolves
    · have inRange : decide (os.mram.storageSz ≤ phyaddr.toNat) = false :=
        decide_eq_false (Nat.not_le.mpr stored)
      have clean : (os.mram.store phyaddr b).fault = false := by
        rw [MemphyStruct.store, MemphyStruct.touch, defined.2.1, inRange]
        rfl
      refine ⟨⟨defined.1, clean, defined.2.2⟩, defined.1, ?_, defined.2.2⟩
      have again : ((os.mram.store phyaddr b).touch phyaddr).fault =
          ((os.mram.store phyaddr b).fault || decide (os.mram.storageSz ≤ phyaddr.toNat)) := rfl
      rw [Os.setMram_mram, again, clean, inRange]
      rfl
  refine ⟨user, length, fun offset inside b => ?_, fun offset inside b => ?_⟩
  · rcases access offset inside with ⟨phyaddr, _, written, safe⟩
    rw [written]
    exact ⟨rfl, (safe b).1⟩
  · rcases access offset inside with ⟨phyaddr, located, written, safe⟩
    have reading := @libread_unswapped (os.setMram (os.mram.store phyaddr b)) proc
      unswapped random regIndex offset
    have same : (resolveRgAddr (os.setMram (os.mram.store phyaddr b)) proc regIndex.toInt
        offset).bind ((os.setMram (os.mram.store phyaddr b)).translate proc) = some phyaddr := located
    rw [same] at reading
    dsimp only at reading
    rw [if_pos (show (os.setMram (os.mram.store phyaddr b)).Resolves proc from resolves)] at reading
    rw [written, reading]
    refine ⟨rfl, ?_, (safe b).2⟩
    have newest : (os.mram.store phyaddr b).storage phyaddr = b := Function.update_self _ _ _
    rw [Os.setMram_mram, newest]

/-! ## The region of a successful call -/

theorem Os.symrgtbl_setSymrg {os : Os} {caller : ProcRef} (live : (os.procs caller).isSome = true)
    {rgid : Int} {slot : Fin PAGING_MAX_SYMTBL_SZ} (named : getSymrgByid rgid = some slot)
    (rg : VmRgStruct) : ((os.setSymrg caller rgid rg).mm caller).symrgtbl slot = rg := by
  rw [setSymrg, named]
  dsimp only
  rw [mm_setMm_self live]
  exact MmStruct.symrgtbl_setRegion_self _ _ _

/-- Where the region of a successful `liballoc` comes from. -/
theorem liballoc_region {os : Os} (sound : os.Sound) {proc : ProcRef}
    (live : (os.procs proc).isSome = true) {size : Addr} {regIndex : BitVec 32}
    {slot : Fin PAGING_MAX_SYMTBL_SZ} (named : getSymrgByid regIndex.toInt = some slot)
    (succeeded : (liballoc os proc size regIndex).1 = 0) :
    (∃ newrg left,
        firstFit (asInt size) (os.mm proc).area.vmFreergList = some (newrg, left) ∧
        ((liballoc os proc size regIndex).2.mm proc).symrgtbl slot = newrg) ∨
      (os.Resolves proc ∧ ∃ searched, Searched (asInt size) (os.mm proc) searched ∧
        ¬ GrowthRefused searched.area.sbrk size ∧
        ((liballoc os proc size regIndex).2.mm proc).symrgtbl slot =
          ⟨(os.mm proc).area.sbrk, (os.mm proc).area.sbrk + size, .user⟩) := by
  have kept : ∀ mm, ((os.setMm proc mm).procs proc).isSome = true := by
    intro mm
    rw [isSome_of_control ((frame_setMm_self os proc mm).control proc)]
    exact live
  rcases alloc_cases sound live regIndex.toInt size with
    ⟨newrg, left, found, _, taken⟩ | ⟨searched, search, _, refused⟩ |
      ⟨resolves, searched, grown, left, search, growth, accepted⟩
  · refine Or.inl ⟨newrg, left, found, ?_⟩
    rw [liballoc_of_alloc taken, Os.mm_setMram]
    exact Os.symrgtbl_setSymrg (kept _) named newrg
  · rw [liballoc_of_refused refused] at succeeded
    cases succeeded
  · refine Or.inr ⟨resolves, searched, search, ?_, ?_⟩
    · exact fun refused => (growthRefused_iff _ _).mp refused growth.accepted
    · rw [liballoc_of_alloc accepted, Os.mm_setMram]
      exact Os.symrgtbl_setSymrg (by rw [Os.setMram_procs]; exact kept grown) named _

/-- A successful call with a size that the condition admits: the region has
the size, and the caller is resolved. -/
private theorem liballoc_admitted {os : Os} (sound : os.Sound) {proc : ProcRef}
    (live : (os.procs proc).isSome = true) (separate : (os.mm proc).Separate)
    (backed : (os.mm proc).Backed)
    (holder : (∃ pgn, ((os.mm proc).frameOf pgn).isSome = true) → os.Resolves proc) {size : Addr}
    {regIndex : BitVec 32} {slot : Fin PAGING_MAX_SYMTBL_SZ}
    (named : getSymrgByid regIndex.toInt = some slot) (positive : 0 < size)
    (backs : AllocBacks os proc size) (succeeded : (liballoc os proc size regIndex).1 = 0) :
    os.Resolves proc ∧
      ((liballoc os proc size regIndex).2.mm proc).UserSlot slot ∧
      (((liballoc os proc size regIndex).2.mm proc).symrgtbl slot).rgEnd.toNat =
        (((liballoc os proc size regIndex).2.mm proc).symrgtbl slot).rgStart.toNat +
          size.toNat := by
  have divides := backs.divides separate backed
  have ordered : ∀ node ∈ (os.mm proc).area.vmFreergList, node.rgStart.toNat ≤ node.rgEnd.toNat :=
    fun node member => (separate.nodeBelow node member).ordered
  have nonempty : 0 < size.toNat := positive
  rcases liballoc_region sound live named succeeded with
    ⟨newrg, left, found, stored⟩ | ⟨resolves, searched, search, taken, stored⟩
  · have cut := firstFit_cut found ordered separate.nodesApart divides.1
    have small : size.toNat < 2 ^ 31 := by
      rcases firstFit_cases found with ⟨_, node, _, _, picked, _, _⟩
      rw [AllocBacks, picked] at backs
      exact backs
    have length := cut.length
    rw [ofInt_asInt_of_small size small] at length
    rw [MmStruct.UserSlot, stored]
    refine ⟨?_, cut.mode, length⟩
    have resident := (backed.inside cut.region).pages newrg.rgStart.toNat ⟨le_refl _, by omega⟩
    exact holder ⟨_, resident⟩
  · rcases searched_eq (sound.memory proc) separate divides.1 search with ⟨missing, same⟩
    subst same
    rw [AllocBacks, missing] at backs
    have fits := backs resolves taken
    have limit : busLimit = 4194304 := rfl
    have pages : pageCount size = (size.toNat + 255) / 256 := rfl
    rw [MmStruct.UserSlot, stored]
    refine ⟨resolves, rfl, ?_⟩
    dsimp only
    rw [BitVec.toNat_add]
    omega

/-- Allocation is sound in every run that keeps the backing: a successful
allocation of at least one byte gives a user region of exactly the requested
size whose bytes can all be written and read back. -/
theorem alloc_sound (memramsz memswpsz : Addr) (os after : Os) (proc : ProcRef) (ins : Inst)
    (slot : Fin PAGING_MAX_SYMTBL_SZ) (reached : ReachableWhere KeepsBacking memramsz memswpsz os)
    (fetched : fetch os proc = some ins) (opcode : ins.opcode = .ALLOC)
    (named : getSymrgByid (ins.arg1.setWidth 32 : BitVec 32).toInt = some slot)
    (positive : 0 < ins.arg0) (backs : AllocBacks os proc ins.arg0)
    (taken : kernelStep os (.run proc) = some after) (succeeded : (run os proc).1 = 0) :
    Allocated after proc (ins.arg1.setWidth 32) slot ins.arg0 := by
  have usable := reached.usable
  have keeps : KeepsBacking os (.run proc) := by
    intro other same
    rw [fetched, Option.mem_some_iff] at same
    subst same
    rw [opcode]
    exact ⟨fun _ => backs, InsOpcode.noConfusion, InsOpcode.noConfusion⟩
  have usableAfter := usable.kernelStep keeps taken
  rcases kernelStep_effect taken with _ | ⟨_, live, defined⟩
  have called : run os proc = liballoc (os.advance proc) proc ins.arg0 (ins.arg1.setWidth 32) := by
    rw [run_of_fetch fetched, dispatch, opcode]
  have mm := mm_advance os proc proc
  have resolution := resolves_advance os proc proc
  have admitted := liballoc_admitted (usable.sound.advance proc)
    (by rw [isSome_advance]; exact live) (by rw [mm]; exact usable.separate proc live)
    (by rw [mm]; exact usable.backed proc live)
    (by
      rw [mm, resolution]
      exact fun holds => (usable.sound.resolves_iff live).mpr
        (usable.listed proc live (finished_of_fetch fetched) holds))
    named positive (by rw [AllocBacks, mm, resolution]; exact backs)
    (by rw [← called]; exact succeeded)
  rw [← called, resolution] at admitted
  exact allocated_of_backed usableAfter defined (by rw [isSome_run]; exact live)
    ((run_resolves os proc proc).mpr admitted.1) named admitted.2.1 admitted.2.2

/-- A RAM of one frame and a request for two pages: the call succeeds, and the
first byte of the region cannot be written. -/
theorem not_alloc_sound :
    ¬ ∀ (memramsz memswpsz : Addr) (os after : Os) (proc : ProcRef) (ins : Inst)
      (slot : Fin PAGING_MAX_SYMTBL_SZ), Reachable memramsz memswpsz os →
        fetch os proc = some ins → ins.opcode = .ALLOC →
          getSymrgByid (ins.arg1.setWidth 32 : BitVec 32).toInt = some slot → 0 < ins.arg0 →
            kernelStep os (.run proc) = some after → (run os proc).1 = 0 →
              Allocated after proc (ins.arg1.setWidth 32) slot ins.arg0 := by
  intro always
  let start : Os := (Transition.exec kernelStep (fun _ _ => True) (boot 256 0 nullHeads)
    [.load [⟨.ALLOC, 512, 0, 0, 0⟩] 0]).get (by decide +kernel)
  have reached : Reachable 256 0 start :=
    ⟨_, _, (Transition.runWhere_of_exec (Option.some_get _).symm).run⟩
  have allocated := always 256 0 start ((kernelStep start (.run 1)).get (by decide +kernel)) 1
    ⟨.ALLOC, 512, 0, 0, 0⟩ ⟨0, by decide⟩ reached (by decide +kernel) rfl (by decide) (by decide)
    (Option.some_get _).symm (by decide +kernel)
  exact absurd (allocated.write 0 (by decide) 7).1 (by decide +kernel)

/-- The second allocation of a process reuses a part of the first one. -/
theorem alloc_sound_reuse :
    Allocated
      ((kernelStep ((Transition.exec kernelStep KeepsBacking (boot 1024 0 nullHeads)
        [.load [⟨.ALLOC, 300, 0, 0, 0⟩, ⟨.FREE, 0, 0, 0, 0⟩, ⟨.ALLOC, 100, 1, 0, 0⟩] 0,
          .run 1, .run 1]).get (by decide +kernel)) (.run 1)).get (by decide +kernel))
      1 1 ⟨1, by decide⟩ 100 :=
  alloc_sound 1024 0 _ _ 1 ⟨.ALLOC, 100, 1, 0, 0⟩ ⟨1, by decide⟩
    ⟨_, _, Transition.runWhere_of_exec (Option.some_get _).symm⟩ (by decide +kernel) rfl (by decide)
    (by decide) (by decide +kernel) (Option.some_get _).symm (by decide +kernel)

end Kernel
end Ossim
