import Ossim.Kernel.Soundness

namespace Ossim
namespace Kernel

open Memory

/-!
# Page replacement is never entered

`pg_getpage` goes on to `find_victim_page`, and from there to `pte_set_swap`,
only for an entry that is swapped and not present.  `pte_set_swap` is the only
writer of swapped entries, so the branch would have to be taken before it can
be taken.

`GetpageCall` lists the calls of `pg_getpage` that an instruction makes, each
with the state in which it is made.
-/

/-- The branch of `pg_getpage` that calls `find_victim_page`. -/
def Os.ReplacesPage (os : Os) (pgn : Int) (caller : ProcRef) : Prop :=
  pagingPagePresent (pteGetEntry (os.mm caller) (ofInt pgn)) = false ∧
    pagingPageSwapped (pteGetEntry (os.mm caller) (ofInt pgn)) = true

/-- The page number that `pg_getval` and `pg_setval` pass on. -/
def pageArgument (addr : Addr) : Int := asInt (addr / PAGING_PAGESZ)

/-- The calls of `pg_getpage` in the execution of an instruction. -/
inductive GetpageCall (os : Os) (proc : ProcRef) (ins : Inst) : Os → Int → Prop
  | read (addr : Addr) (opcode : ins.opcode = .READ)
      (resolved : resolveRgAddr os proc (ins.arg0.setWidth 32).toInt ins.arg1 = some addr) :
      GetpageCall os proc ins os (pageArgument addr)
  | write (addr : Addr) (opcode : ins.opcode = .WRITE)
      (resolved : resolveRgAddr os proc (ins.arg1.setWidth 32).toInt ins.arg2 = some addr) :
      GetpageCall os proc ins os (pageArgument addr)
  /-- Iteration `i` of `libkmem_copy_from_user`. -/
  | copyFrom (src dst : VmRgStruct) (i : Nat) (opcode : ins.opcode = .COPY_FROM_USER)
      (regions : copyRegions os proc (ins.arg0.setWidth 32) (ins.arg1.setWidth 32) =
        some (src, dst))
      (within : i < (ins.arg3.setWidth 32).toNat)
      (running : (copyFromUserLoop proc src dst (ins.arg2.setWidth 32) i 0 os).1 = 0) :
      GetpageCall os proc ins (copyFromUserLoop proc src dst (ins.arg2.setWidth 32) i 0 os).2
        (pageArgument (src.rgStart + (ins.arg2.setWidth 32).setWidth 64 + BitVec.ofNat 64 i))
  /-- Iteration `i` of `libkmem_copy_to_user`. -/
  | copyTo (src dst : VmRgStruct) (i : Nat) (opcode : ins.opcode = .COPY_TO_USER)
      (regions : copyRegions os proc (ins.arg1.setWidth 32) (ins.arg0.setWidth 32) =
        some (dst, src))
      (within : i < (ins.arg3.setWidth 32).toNat)
      (running : (copyToUserLoop proc src dst (ins.arg2.setWidth 32) i 0 os).1 = 0) :
      GetpageCall os proc ins (copyToUserLoop proc src dst (ins.arg2.setWidth 32) i 0 os).2
        (pageArgument (dst.rgStart + (ins.arg2.setWidth 32).setWidth 64 + BitVec.ofNat 64 i))

/-- A process without swapped entries still has none when an instruction calls
`pg_getpage`. -/
theorem GetpageCall.unswapped {os calling : Os} {proc : ProcRef} {ins : Inst} {pgn : Int}
    (call : GetpageCall os proc ins calling pgn) (unswapped : os.Unswapped proc)
    (random : os.mram.rdmflg = true) : calling.Unswapped proc := by
  cases call with
  | read _ _ _ => exact unswapped
  | write _ _ _ => exact unswapped
  | copyFrom src dst i _ _ _ _ =>
      have copied := dataStep_copyFromUserLoop proc src dst (ins.arg2.setWidth 32) i 0 os unswapped
        random
      exact copied.unswapped unswapped
  | copyTo src dst i _ _ _ _ =>
      have copied := dataStep_copyToUserLoop proc src dst (ins.arg2.setWidth 32) i 0 os unswapped
        random
      exact copied.unswapped unswapped

/-- In every reachable state no page-table entry is swapped, and whatever
instruction a process executes there, no call of `pg_getpage` reaches
`find_victim_page`. -/
theorem replacement_never_entered {memramsz memswpsz : Addr} {os : Os}
    (reached : Reachable memramsz memswpsz os) :
    (∀ proc pgn, pagingPageSwapped (pteGetEntry (os.mm proc) pgn) = false) ∧
      ∀ proc ins calling pgn, GetpageCall (os.advance proc) proc ins calling pgn →
        ¬ calling.ReplacesPage pgn proc := by
  have sound := reached.sound
  refine ⟨fun proc => sound.unswapped proc, fun proc ins calling pgn call replaces => ?_⟩
  have moved := sound.advance proc
  have clear := call.unswapped (moved.unswapped proc) moved.mramRandom (ofInt pgn)
  rw [replaces.2] at clear
  cases clear

/-- One process that has written to its region. -/
def oneWriter : Os :=
  (Transition.exec kernelStep (fun _ _ => True) (boot 1024 1024 nullHeads)
    [.load [⟨.ALLOC, 10, 0, 0, 0⟩, ⟨.WRITE, 7, 0, 3, 0⟩] 0, .run 1, .run 1]).get (by decide +kernel)

theorem replacement_never_entered_writer :
    pagingPageSwapped (pteGetEntry (oneWriter.mm 1) 0) = false ∧
      ¬ (oneWriter.advance 1).ReplacesPage (pageArgument 3) 1 := by
  have reached : Reachable 1024 1024 oneWriter :=
    ⟨_, _, (Transition.runWhere_of_exec (Option.some_get _).symm).run⟩
  have never := replacement_never_entered reached
  have call : GetpageCall (oneWriter.advance 1) 1 ⟨.WRITE, 7, 0, 3, 0⟩ (oneWriter.advance 1)
      (pageArgument 3) := by
    apply GetpageCall.write
    · rfl
    · decide +kernel
  exact ⟨never.1 1 0, never.2 1 _ _ _ call⟩

end Kernel
end Ossim
