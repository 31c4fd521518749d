import Ossim.Kernel.Frames

namespace Ossim
namespace Kernel

open Memory

/-!
# Dummy mapping and the accounts of the frames

`vmap_pgd_memset` stores a marker in the entries of a range of pages.  The
marker itself is harmless, because it is neither present nor swapped.  What it
overwrites is not looked at: a present entry in the range is the only record of
its frame, so the frame is lost, while the paging list still names the page.

A range without a present page is marked without any effect on the accounts,
also when it runs past the page limit and the call fails half way.
-/

/-- Each frame of the RAM is free or held by exactly one present entry, and the
paging lists name exactly the present pages. -/
structure Os.Accounts (frames : Nat) (os : Os) : Prop where
  partitioned : os.Partitioned frames
  fifoExact : ∀ proc, (os.mm proc).FifoExact

/-- The states after a call of `vmap_pgd_memset`, made directly or by the
system call. -/
inductive MemsetCall (os : Os) : ProcRef → Addr → Int → Os → Prop
  | direct (caller : ProcRef) (addr : Addr) (pgnum : Int)
      (live : (os.procs caller).isSome = true) (isInt : pgnum < 2 ^ 31) :
      MemsetCall os caller addr pgnum
        (os.setMm caller (vmapPgdMemset (os.mm caller) addr pgnum).2)
  | mapOp (pid : Nat) (caller : ProcRef) (regs : ScRegs)
      (resolved : schedFindProcByPid os pid = some caller)
      (operation : asInt regs.a1 = SYSMEM_MAP_OP) :
      MemsetCall os caller regs.a2 (asInt regs.a3) (syscall os pid 17 regs).2.2

/-! ## The accounts -/

/-- Both ways of calling store into the page table of the caller. -/
theorem MemsetCall.outcome {os after : Os} {caller : ProcRef} {addr : Addr} {pgnum : Int}
    (call : MemsetCall os caller addr pgnum after) :
    (os.procs caller).isSome = true ∧ pgnum < 2 ^ 31 ∧
      after = os.setMm caller (vmapPgdMemset (os.mm caller) addr pgnum).2 := by
  cases call with
  | direct _ _ _ live isInt => exact ⟨live, isInt, rfl⟩
  | mapOp pid caller regs resolved operation =>
      refine ⟨?_, (asInt_bounds regs.a3).2, ?_⟩
      · have picked := List.find?_some resolved
        cases found : os.procs caller with
        | some pcb => rfl
        | none =>
            rw [found] at picked
            cases picked
      · rw [syscall, if_neg (by decide), if_pos rfl, sysMemmap, resolved]
        dsimp only
        rw [if_pos operation]

/-- The accounts survive a call of `vmap_pgd_memset` exactly when no page of
its range is present. -/
theorem accounts_memset_iff (frames : Nat) (os after : Os) (caller : ProcRef) (addr : Addr)
    (pgnum : Int) (accounts : os.Accounts frames)
    (call : MemsetCall os caller addr pgnum after) :
    after.Accounts frames ↔ ¬ CoversPresent (os.mm caller) addr pgnum := by
  rcases call.outcome with ⟨live, isInt, outcome⟩
  let marked : MmStruct := (vmapPgdMemset (os.mm caller) addr pgnum).2
  have mark : Marked (os.mm caller) addr pgnum marked :=
    vmapPgdMemset_marked (os.mm caller) addr pgnum
  have own : after.mm caller = marked := by
    rw [outcome]
    exact Os.mm_setMm_self live marked
  constructor
  · rintro kept ⟨pgit, within, present⟩
    have page := pteGetEntry_vmapPgdMemset isInt within present
    have listed : addr / PAGING_PAGESZ + BitVec.ofNat 64 pgit ∈ (os.mm caller).fifoPgn := by
      rw [((accounts.fifoExact caller).2 _), MmStruct.frameOf_isSome]
      exact present
    have exact := kept.fifoExact caller
    rw [own, MmStruct.FifoExact, mark.fifoPgn] at exact
    have resident := (exact.2 _).mp listed
    rw [MmStruct.frameOf_isSome, page, pagingPagePresent_markerWord] at resident
    cases resident
  · intro absent
    have located := mark.frameOf_eq absent
    have mm : ∀ proc, (after.mm proc).frameOf = (os.mm proc).frameOf ∧
        (after.mm proc).fifoPgn = (os.mm proc).fifoPgn := by
      intro proc
      by_cases here : proc = caller
      · rw [here, own]
        exact ⟨located, mark.fifoPgn⟩
      · rw [outcome, Os.mm_setMm_of_ne here]
        exact ⟨rfl, rfl⟩
    have ledger : after.ledger = os.ledger := by
      have spare : after.mram = os.mram := by
        rw [outcome]
        rfl
      have tables : (fun proc => (after.mm proc).frameOf) = fun proc => (os.mm proc).frameOf := by
        ext1 proc
        exact (mm proc).1
      rw [Os.ledger, Os.ledger, spare, tables]
    refine ⟨⟨?_, ?_⟩, fun proc => ?_⟩
    · rw [ledger]
      exact accounts.partitioned.exclusive
    · rw [ledger]
      exact accounts.partitioned.covers
    · rw [MmStruct.FifoExact, (mm proc).1, (mm proc).2]
      exact accounts.fifoExact proc

/-! ## A page in the range -/

/-- A process that has been given the first two pages of a RAM of four. -/
def twoPages : Os :=
  (Transition.exec kernelStep NoRawSyscall (boot 1024 0 nullHeads)
    [.load [⟨.ALLOC, 300, 0, 0, 0⟩] 0, .getProc, .run 1]).get (by decide +kernel)

theorem accounts_twoPages : twoPages.Accounts 4 := by
  have reached : ReachableWhere NoRawSyscall 1024 0 twoPages :=
    ⟨_, _, Transition.runWhere_of_exec (Option.some_get _).symm⟩
  have kept := reached.partitioned (by decide)
  exact ⟨kept.1, kept.2⟩

/-- Marking page 1 loses its frame. -/
theorem not_accounts_memset :
    ¬ ∀ (frames : Nat) (os after : Os) (caller : ProcRef) (addr : Addr) (pgnum : Int),
      os.Accounts frames → MemsetCall os caller addr pgnum after → after.Accounts frames := by
  intro always
  have call := @MemsetCall.mapOp twoPages 1 1 ⟨ofInt SYSMEM_MAP_OP, 256, 1⟩
    (by decide +kernel) (by decide)
  have kept := always 4 twoPages _ 1 256 1 accounts_twoPages call
  have listed := (kept.fifoExact 1).2 1
  exact absurd listed (by decide +kernel)

/-- Pages 2 and 3 of the same process can be marked. -/
theorem accounts_memset_twoPages :
    (twoPages.setMm 1 (vmapPgdMemset (twoPages.mm 1) 512 2).2).Accounts 4 := by
  refine (accounts_memset_iff 4 twoPages _ 1 512 2 accounts_twoPages
    (.direct 1 512 2 (by decide +kernel) (by decide))).mpr ?_
  rintro ⟨pgit, within, present⟩
  have absent : ∀ pgit < 2, pagingPagePresent (pteGetEntry (twoPages.mm 1)
      (512 / PAGING_PAGESZ + BitVec.ofNat 64 pgit)) = false := by decide +kernel
  rw [absent pgit within] at present
  cases present

end Kernel
end Ossim
