import Ossim.Kernel.Soundness

namespace Ossim
namespace Kernel

open Memory

/-!
# Conservation of RAM frames

The page tables of all processes and the free list of the RAM form one ledger.
Every kernel action is a sequence of sound moves on it, with one exception: the
raw system call that marks pages can drop a frame.

The frame field of an entry has 13 bits.  The ledger therefore describes the
machine for a RAM of at most 8192 frames, which is where the decoded frame is
the stored one.
-/

/-- Who holds which frame of the RAM. -/
def Os.ledger (os : Os) : Ledger (ProcRef × Addr) Addr :=
  Ledger.ofTables os.mram.freeFpList fun proc => (os.mm proc).frameOf

/-- An occurrence of a frame number: a position of the free list, or the
present entry of a page of a live process. -/
def Os.HoldsFrame (os : Os) (fpn : Addr) : Nat ⊕ ProcRef × Addr → Prop
  | .inl position => os.mram.freeFpList[position]? = some fpn
  | .inr (proc, pgn) => ∃ pcb, os.procs proc = some pcb ∧
      pagingPagePresent (pteGetEntry pcb.mm pgn) = true ∧
      pagingFpn (pteGetEntry pcb.mm pgn) = fpn

/-- The instruction that an action executes is no raw system call. -/
def NoRawSyscall (os : Os) : KernelAction → Prop
  | .run proc => ∀ ins ∈ fetch os proc, ins.opcode ≠ .SYSCALL
  | _ => True

instance (os : Os) (action : KernelAction) : Decidable (NoRawSyscall os action) :=
  match action with
  | .run proc => inferInstanceAs (Decidable (∀ ins ∈ fetch os proc, _))
  | .load _ _ | .getProc | .putProc _ | .removeProc _ | .freePcb _ =>
      inferInstanceAs (Decidable True)

/-! ## One effect on the ledger of its process -/

/-- Any instruction amounts to moves, except that a raw system call may also mark
pages. -/
private theorem MmEffect.moves_or_drift {ins : Inst} {resolves : Prop} {mm after : MmStruct}
    {mram : MemphyStruct} {spare : List Addr} (effect : MmEffect ins resolves mm mram after spare)
    (small : ∀ fpn ∈ mram.freeFpList, fpn.toNat < 8192) :
    Ledger.Moves (mm.ledger mram.freeFpList) (after.ledger spare) ∨
      ins.opcode = .SYSCALL ∧ Ledger.Drift (mm.ledger mram.freeFpList) (after.ledger spare) := by
  cases effect with
  | idle => exact Or.inl .refl
  | kernelRegion _ _ _ => exact Or.inl .refl
  | taken _ _ _ _ _ => exact Or.inl .refl
  | refused searched _ search =>
      rw [MmStruct.ledger, MmStruct.ledger, search.frameOf]
      exact Or.inl .refl
  | grown slot searched grown left _ _ search growth =>
      have moves := growth.moves small
      rw [MmStruct.ledger, search.frameOf] at moves
      exact Or.inl moves
  | dropped _ _ => exact Or.inl .refl
  | returned _ _ _ _ _ => exact Or.inl .refl
  | extended grown left _ _ growth => exact Or.inl (growth.moves small)
  | marked marked opcode _ _ mark => exact Or.inr ⟨opcode, mark.drift mram.freeFpList⟩

/-- Any instruction amounts to moves, or to leaks when it marks pages. -/
theorem MmEffect.drift {ins : Inst} {resolves : Prop} {mm after : MmStruct}
    {mram : MemphyStruct} {spare : List Addr} (effect : MmEffect ins resolves mm mram after spare)
    (small : ∀ fpn ∈ mram.freeFpList, fpn.toNat < 8192) :
    Ledger.Drift (mm.ledger mram.freeFpList) (after.ledger spare) := by
  rcases effect.moves_or_drift small with moves | ⟨_, drift⟩
  · exact moves.drift
  · exact drift

/-- Any instruction but the raw system call amounts to moves. -/
theorem MmEffect.moves {ins : Inst} {resolves : Prop} {mm after : MmStruct}
    {mram : MemphyStruct} {spare : List Addr} (effect : MmEffect ins resolves mm mram after spare)
    (ordinary : ins.opcode ≠ .SYSCALL) (small : ∀ fpn ∈ mram.freeFpList, fpn.toNat < 8192) :
    Ledger.Moves (mm.ledger mram.freeFpList) (after.ledger spare) := by
  rcases effect.moves_or_drift small with moves | ⟨opcode, _⟩
  · exact moves
  · exact absurd opcode ordinary

theorem MmEffect.fifoExact {ins : Inst} {resolves : Prop} {mm after : MmStruct}
    {mram : MemphyStruct} {spare : List Addr} (effect : MmEffect ins resolves mm mram after spare)
    (ordinary : ins.opcode ≠ .SYSCALL) (exact : mm.FifoExact) : after.FifoExact := by
  cases effect with
  | idle => exact exact
  | kernelRegion _ _ _ => exact exact
  | taken _ _ _ _ _ => exact exact
  | refused searched _ search =>
      rw [MmStruct.FifoExact, search.fifoPgn, search.frameOf]
      exact exact
  | grown slot searched grown left _ _ search growth =>
      refine growth.fifoExact ?_
      rw [MmStruct.FifoExact, search.fifoPgn, search.frameOf]
      exact exact
  | dropped _ _ => exact exact
  | returned _ _ _ _ _ => exact exact
  | extended _ _ opcode _ _ => exact absurd opcode ordinary
  | marked _ opcode _ _ _ => exact absurd opcode ordinary

/-! ## One action on the ledger of the machine -/

/-- A change of one memory map and of the free list, lifted to the ledger of
all processes. -/
private theorem ledger_of_update (os after : Os) (proc : ProcRef)
    (others : ∀ other, other ≠ proc → after.mm other = os.mm other) :
    os.ledger = Ledger.ofTables os.mram.freeFpList
        (Function.update (fun other => (os.mm other).frameOf) proc (os.mm proc).frameOf) ∧
      after.ledger = Ledger.ofTables after.mram.freeFpList
        (Function.update (fun other => (os.mm other).frameOf) proc (after.mm proc).frameOf) := by
  constructor
  · rw [Function.update_eq_self]
    rfl
  · rw [Os.ledger]
    congr 1
    funext other
    by_cases same : other = proc
    · rw [same, Function.update_self]
    · rw [Function.update_of_ne same, others other same]

theorem Quiet.ledger {os after : Os} (quiet : Quiet os after) : after.ledger = os.ledger := by
  rw [Os.ledger, Os.ledger, quiet.mram]
  congr 1
  funext proc
  rw [quiet.mm]

theorem freePcb_moves {os : Os} (sound : os.Sound) (proc : ProcRef) :
    Ledger.Moves os.ledger (freePcb os proc).ledger := by
  have own := mm_freePcb sound proc proc
  rw [if_pos rfl] at own
  have lifted := ledger_of_update os (freePcb os proc) proc (by
    intro other different
    rw [mm_freePcb sound, if_neg different])
  rcases freePcb_cases sound proc with ⟨spare, outcome, moves⟩
  have kept : (freePcb os proc).mram.freeFpList = spare := by
    rw [outcome]
    rfl
  rw [lifted.1, lifted.2, own, kept]
  exact moves.ofTable _ proc

/-- A ledger of small frames drifts to a ledger of small frames. -/
theorem kernelStep_drift {os after : Os} (sound : os.Sound)
    (small : ∀ fpn ∈ os.mram.freeFpList, fpn.toNat < 8192) {action : KernelAction}
    (taken : kernelStep os action = some after) : Ledger.Drift os.ledger after.ledger := by
  rcases kernelStep_memory sound taken with
    quiet | ⟨proc, ins, _, live, fetched, same, _, effect⟩ | ⟨proc, _, _, _, same⟩
  · rw [quiet.ledger]
  · subst same
    have lifted := ledger_of_update os (run os proc).2 proc
      (fun other different => mm_run_others sound live different)
    rw [lifted.1, lifted.2]
    exact (effect.mm.drift small).ofTable _ proc
  · rw [same]
    exact Ledger.Moves.drift (freePcb_moves sound proc)

theorem kernelStep_moves {os after : Os} (sound : os.Sound)
    (small : ∀ fpn ∈ os.mram.freeFpList, fpn.toNat < 8192) {action : KernelAction}
    (ordinary : NoRawSyscall os action) (taken : kernelStep os action = some after) :
    Ledger.Moves os.ledger after.ledger := by
  rcases kernelStep_memory sound taken with
    quiet | ⟨proc, ins, running, live, fetched, same, _, effect⟩ | ⟨proc, _, _, _, same⟩
  · rw [quiet.ledger]
  · subst running same
    have lifted := ledger_of_update os (run os proc).2 proc
      (fun other different => mm_run_others sound live different)
    rw [lifted.1, lifted.2]
    exact (effect.mm.moves (ordinary ins fetched) small).ofTable _ proc
  · rw [same]
    exact freePcb_moves sound proc

theorem kernelStep_fifoExact {os after : Os} (sound : os.Sound)
    (exact : ∀ proc, (os.mm proc).FifoExact) {action : KernelAction}
    (ordinary : NoRawSyscall os action) (taken : kernelStep os action = some after) :
    ∀ proc, (after.mm proc).FifoExact := by
  intro proc
  cases found : after.procs proc with
  | none =>
      rw [Os.mm_of_absent found]
      exact fifoExact_initMm _
  | some pcb =>
      refine kernelStep_mm sound taken (fun other _ => exact other) (fun _ _ _ => fifoExact_initMm _)
        ?_ proc (by rw [found]; rfl)
      intro caller ins mm spare running _ fetched effect
      subst running
      exact effect.fifoExact (ordinary ins fetched) (exact caller)

/-! ## Reachable states -/

/-- The frames of the machine are the first ones, and nothing is held twice. -/
structure Os.Partitioned (frames : Nat) (os : Os) : Prop where
  exclusive : os.ledger.Exclusive
  covers : os.ledger.Covers fun fpn => fpn.toNat < frames

theorem partitioned_boot (memramsz memswpsz : Addr) (freergHeads : ProcRef → List VmRgStruct) :
    (boot memramsz memswpsz freergHeads).Partitioned (frameCount memramsz) := by
  have bounded : frameCount memramsz < 2 ^ 64 := by
    have size := asInt_bounds memramsz
    have count := frameCount_eq memramsz
    omega
  have spare : (boot memramsz memswpsz freergHeads).ledger.spare =
      (List.range (frameCount memramsz)).map (BitVec.ofNat 64) :=
    freeFpList_initMemphy memramsz 1
  have unlocated : ∀ page, (boot memramsz memswpsz freergHeads).ledger.loc page = none := fun page =>
    frameOf_initMm _ page.2
  refine ⟨⟨?_, ?_, ?_⟩, ?_⟩
  · rw [spare]
    exact nodup_frames _ bounded
  · intro left right slot located _
    rw [unlocated] at located
    cases located
  · intro page slot located
    rw [unlocated] at located
    cases located
  · intro fpn
    rw [Ledger.Accounted, spare, mem_frames _ bounded]
    constructor
    · rintro (member | ⟨page, located⟩)
      · exact member
      · rw [unlocated] at located
        cases located
    · exact Or.inl

theorem Os.Partitioned.small {frames : Nat} {os : Os} (partitioned : os.Partitioned frames)
    (fits : frames ≤ 8192) : ∀ fpn ∈ os.mram.freeFpList, fpn.toNat < 8192 := by
  intro fpn member
  have inside := (partitioned.covers fpn).mp (Or.inl member)
  omega

/-- Runs without raw system calls keep the partition and the paging lists. -/
theorem ReachableWhere.partitioned {memramsz memswpsz : Addr} {os : Os}
    (fits : frameCount memramsz ≤ 8192)
    (reached : ReachableWhere NoRawSyscall memramsz memswpsz os) :
    os.Partitioned (frameCount memramsz) ∧ ∀ proc, (os.mm proc).FifoExact := by
  rcases reached with ⟨freergHeads, trace, path⟩
  refine (path.invariant (fun os => os.Sound ∧ os.Partitioned (frameCount memramsz) ∧
    ∀ proc, (os.mm proc).FifoExact) ?_ ?_).2
  · exact ⟨sound_boot memramsz memswpsz freergHeads, partitioned_boot memramsz memswpsz freergHeads,
      fun _ => fifoExact_initMm _⟩
  · rintro before action after ⟨sound, partitioned, exact⟩ ordinary taken
    have moves := kernelStep_moves sound (partitioned.small fits) ordinary taken
    exact ⟨sound.kernelStep taken,
      ⟨partitioned.exclusive.drift moves.drift, partitioned.covers.moves moves⟩,
      kernelStep_fifoExact sound exact ordinary taken⟩

/-- An occurrence of a frame is an entry of the ledger. -/
private theorem holdsFrame_located {os : Os} {fpn : Addr} {proc : ProcRef} {pgn : Addr} :
    os.HoldsFrame fpn (.inr (proc, pgn)) ↔ os.ledger.loc (proc, pgn) = some fpn := by
  have loc : os.ledger.loc (proc, pgn) = (os.mm proc).frameOf pgn := rfl
  rw [loc, Os.HoldsFrame, Os.mm]
  cases os.procs proc with
  | none => simp
  | some pcb => simp [MmStruct.frameOf_eq_some_iff]

/-- In a partitioned machine every frame occurs at exactly one place. -/
theorem Os.Partitioned.existsUnique {frames : Nat} {os : Os}
    (partitioned : os.Partitioned frames) {fpn : Addr} (inside : fpn.toNat < frames) :
    ∃! place, os.HoldsFrame fpn place := by
  have exclusive := partitioned.exclusive
  rcases (partitioned.covers fpn).mpr inside with member | ⟨⟨proc, pgn⟩, located⟩
  · rcases List.getElem?_of_mem member with ⟨position, found⟩
    refine ⟨.inl position, found, ?_⟩
    rintro (other | ⟨other, elsewhere⟩) held
    · have first : os.ledger.spare[position]? = some fpn := found
      have second : os.ledger.spare[other]? = some fpn := held
      have inRange := (List.getElem?_eq_some_iff.mp second).1
      have same := (List.getElem?_inj inRange exclusive.spareNodup).mp (second.trans first.symm)
      rw [same]
    · exact absurd member (exclusive.apart (holdsFrame_located.mp held))
  · refine ⟨.inr (proc, pgn), holdsFrame_located.mpr located, ?_⟩
    rintro (other | ⟨other, elsewhere⟩) held
    · exact absurd (List.mem_of_getElem? held) (exclusive.apart located)
    · exact congrArg Sum.inr (exclusive.injective (holdsFrame_located.mp held) located)

/-- RAM frames are conserved: in every state reached without raw system calls,
each frame of the machine occurs once over the free list and the present
entries of all live processes, every paging list names the present pages of
its process once each, and when all processes have exited the free list holds
exactly the frames of the machine. -/
theorem frames_conserved (memramsz memswpsz : Addr) (os : Os)
    (fits : frameCount memramsz ≤ 8192)
    (reached : ReachableWhere NoRawSyscall memramsz memswpsz os) :
    (∀ fpn : Addr, fpn.toNat < frameCount memramsz → ∃! place, os.HoldsFrame fpn place) ∧
      (∀ proc pcb, os.procs proc = some pcb → pcb.mm.fifoPgn.Nodup ∧
        ∀ pgn, pgn ∈ pcb.mm.fifoPgn ↔ pagingPagePresent (pteGetEntry pcb.mm pgn) = true) ∧
      ((∀ proc, os.procs proc = none) →
        os.mram.freeFpList.Perm ((List.range (frameCount memramsz)).map (BitVec.ofNat 64))) := by
  rcases reached.partitioned fits with ⟨partitioned, exact⟩
  refine ⟨fun fpn inside => partitioned.existsUnique inside, ?_, ?_⟩
  · intro proc pcb live
    have listed := exact proc
    rw [Os.mm, live] at listed
    refine ⟨listed.1, fun pgn => ?_⟩
    rw [listed.2 pgn, MmStruct.frameOf_isSome]
  · intro exited
    have bounded : frameCount memramsz < 2 ^ 64 := by omega
    have nodup : os.mram.freeFpList.Nodup := partitioned.exclusive.spareNodup
    rw [List.perm_ext_iff_of_nodup nodup (nodup_frames _ bounded)]
    intro fpn
    rw [mem_frames _ bounded]
    constructor
    · intro member
      exact (partitioned.covers fpn).mp (Or.inl member)
    · intro inside
      rcases (partitioned.covers fpn).mpr inside with member | ⟨⟨proc, pgn⟩, located⟩
      · exact member
      · rcases holdsFrame_located.mpr located with ⟨pcb, live, _⟩
        rw [exited proc] at live
        cases live

/-- Two processes on a RAM of four frames, after the first has allocated 300
bytes and the second has run. -/
theorem frames_conserved_two_processes :
    ∃! place, ((Transition.exec kernelStep NoRawSyscall (boot 1024 0 nullHeads)
        [.load [⟨.ALLOC, 300, 0, 0, 0⟩] 0, .load [⟨.CALC, 0, 0, 0, 0⟩] 5, .run 1, .run 2]).get
          (by decide +kernel)).HoldsFrame 1 place :=
  (frames_conserved 1024 0 _ (by decide)
    ⟨_, _, Transition.runWhere_of_exec (Option.some_get _).symm⟩).1 1 (by decide)

end Kernel
end Ossim
