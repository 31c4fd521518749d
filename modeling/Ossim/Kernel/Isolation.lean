import Ossim.Kernel.Frames

namespace Ossim
namespace Kernel

open Memory

/-!
# Isolation of processes

What a process reads is decided by its memory map, by the bytes in its frames
and by the lookup of its process id.  An instruction of another process cannot
touch the first and the last, and it writes only to its own frames, which the
ledger keeps apart.

The raw system call is the exception.  Its input/output operation takes a
device address from the program and checks nothing, so a program can store a
byte in any frame.
-/

/-- A read at any region and offset has the same status and the same value. -/
def SameReads (before after : Os) (proc : ProcRef) : Prop :=
  ∀ region offset,
    (libread after proc region offset).1 = (libread before proc region offset).1 ∧
      (libread after proc region offset).2.1 = (libread before proc region offset).2.1

/-- The device address lies in a frame of the process. -/
def Os.Maps (os : Os) (proc : ProcRef) (phyaddr : Addr) : Prop :=
  ∃ pgn, (os.mm proc).frameOf pgn = some (phyaddr / PAGING_PAGESZ)

/-- The next instruction of the first process stores a byte, by a raw system
call, into a frame of the second. -/
def Intrudes (os : Os) (intruder victim : ProcRef) : Prop :=
  ∃ ins phyaddr, fetch os intruder = some ins ∧ ins.WritesDevice phyaddr ∧
    os.Maps victim phyaddr

/-! ## What a read depends on -/

/-- Reads agree when the memory map, the lookup and the bytes of the frames do. -/
theorem sameReads_of_agree {before after : Os} {proc : ProcRef}
    (soundBefore : before.Sound) (soundAfter : after.Sound)
    (mm : after.mm proc = before.mm proc)
    (resolves : after.Resolves proc ↔ before.Resolves proc)
    (storage : ∀ phyaddr, before.Maps proc phyaddr →
      after.mram.storage phyaddr = before.mram.storage phyaddr) :
    SameReads before after proc := by
  intro region offset
  have address : resolveRgAddr after proc region.toInt offset =
      resolveRgAddr before proc region.toInt offset := by
    rw [resolveRgAddr, mm, resolveRgAddr]
  have translated : after.translate proc = before.translate proc := by
    funext addr
    rw [Os.translate, mm, Os.translate]
  rw [libread_unswapped (soundAfter.unswapped proc) soundAfter.mramRandom,
    libread_unswapped (soundBefore.unswapped proc) soundBefore.mramRandom, address, translated]
  cases found : (resolveRgAddr before proc region.toInt offset).bind (before.translate proc) with
  | none => exact ⟨rfl, rfl⟩
  | some phyaddr =>
      rw [Option.bind_eq_some_iff] at found
      rcases found with ⟨addr, _, located⟩
      have same := storage phyaddr ⟨_, (translate_frame located).1⟩
      dsimp only
      by_cases reached : before.Resolves proc
      · rw [if_pos reached, if_pos (resolves.mpr reached), same]
        exact ⟨rfl, rfl⟩
      · rw [if_neg reached, if_neg (fun yes => reached (resolves.mp yes))]
        exact ⟨rfl, rfl⟩

/-! ## Exclusive frames in every run -/

/-- No two pages share a frame, even after frames have been dropped. -/
structure Os.Separated (frames : Nat) (os : Os) : Prop where
  exclusive : os.ledger.Exclusive
  within : os.ledger.Within fun fpn => fpn.toNat < frames

theorem Reachable.separated {memramsz memswpsz : Addr} {os : Os}
    (fits : frameCount memramsz ≤ 8192) (reached : Reachable memramsz memswpsz os) :
    os.Separated (frameCount memramsz) := by
  rcases reached with ⟨freergHeads, trace, path⟩
  refine (path.invariant (fun os => os.Sound ∧ os.Separated (frameCount memramsz))
    ?_ ?_).2
  · have partitioned := partitioned_boot memramsz memswpsz freergHeads
    exact ⟨sound_boot memramsz memswpsz freergHeads, partitioned.exclusive,
      partitioned.covers.within⟩
  · rintro before action after ⟨sound, separated⟩ taken
    have small : ∀ fpn ∈ before.mram.freeFpList, fpn.toNat < 8192 := by
      intro fpn member
      have inside := separated.within fpn (Or.inl member)
      omega
    have drift := kernelStep_drift sound small taken
    exact ⟨sound.kernelStep taken, separated.exclusive.drift drift, separated.within.drift drift⟩

/-- Isolation: an instruction of one process that stays in its arrays never changes
what another process reads, unless it is a raw system call that stores into a
frame of the other. -/
theorem run_isolated (memramsz memswpsz : Addr) (os : Os) (proc other : ProcRef)
    (fits : frameCount memramsz ≤ 8192) (reached : Reachable memramsz memswpsz os)
    (live : (os.procs proc).isSome = true) (distinct : other ≠ proc)
    (defined : (run os proc).2.Defined) (kept : ¬ Intrudes os proc other) :
    SameReads os (run os proc).2 other := by
  have sound := reached.sound
  have separated := reached.separated fits
  have taken : kernelStep os (.run proc) = some (run os proc).2 := if_pos ⟨live, defined⟩
  refine sameReads_of_agree sound (sound.kernelStep taken) (mm_run_others sound live distinct)
    (run_resolves os proc other) ?_
  intro phyaddr maps
  cases fetched : fetch os proc with
  | none => rw [run_of_end fetched]
  | some ins =>
      refine (run_effect sound live fetched defined.1).storage phyaddr ?_ ?_
      · exact fun writes => kept ⟨ins, phyaddr, fetched, writes, maps⟩
      · intro pgn mapped
        rcases maps with ⟨elsewhere, held⟩
        have owners : ((proc, pgn) : ProcRef × Addr) = (other, elsewhere) :=
          separated.exclusive.injective mapped held
        exact distinct (congrArg Prod.fst owners).symm

/-- The device write is the way around it.  The second process holds the first
frame of the RAM, and the first process stores 7 at device address 0. -/
theorem not_run_isolated :
    ¬ ∀ (memramsz memswpsz : Addr) (os : Os) (proc other : ProcRef),
      frameCount memramsz ≤ 8192 → Reachable memramsz memswpsz os →
        (os.procs proc).isSome = true → (os.procs other).isSome = true → other ≠ proc →
          (run os proc).2.Defined → SameReads os (run os proc).2 other := by
  intro isolated
  let start : Os := (Transition.exec kernelStep (fun _ _ => True) (boot 1024 0 nullHeads)
    [.load [⟨.SYSCALL, 17, 5, 0, 7⟩] 0, .load [⟨.ALLOC, 256, 0, 0, 0⟩] 0, .run 2]).get
      (by decide +kernel)
  have reached : Reachable 1024 0 start :=
    ⟨_, _, (Transition.runWhere_of_exec (Option.some_get _).symm).run⟩
  have same := isolated 1024 0 start 1 2 (by decide) reached (by decide +kernel)
    (by decide +kernel) (by decide) (by decide +kernel) 0 0
  exact absurd same.2 (by decide +kernel)

/-- A write of the first process into its own region, next to a second process
with a region of its own. -/
theorem run_isolated_two_processes :
    SameReads
      ((Transition.exec kernelStep (fun _ _ => True) (boot 1024 0 nullHeads)
        [.load [⟨.ALLOC, 256, 0, 0, 0⟩, ⟨.WRITE, 7, 0, 0, 0⟩] 0,
          .load [⟨.ALLOC, 256, 0, 0, 0⟩] 0, .run 1, .run 2]).get (by decide +kernel))
      (run ((Transition.exec kernelStep (fun _ _ => True) (boot 1024 0 nullHeads)
        [.load [⟨.ALLOC, 256, 0, 0, 0⟩, ⟨.WRITE, 7, 0, 0, 0⟩] 0,
          .load [⟨.ALLOC, 256, 0, 0, 0⟩] 0, .run 1, .run 2]).get (by decide +kernel)) 1).2 2 := by
  refine run_isolated 1024 0 _ 1 2 (by decide)
    ⟨_, _, (Transition.runWhere_of_exec (Option.some_get _).symm).run⟩ (by decide +kernel) (by decide)
    (by decide +kernel) ?_
  rintro ⟨ins, phyaddr, fetched, ⟨opcode, _⟩, _⟩
  have next : fetch ((Transition.exec kernelStep (fun _ _ => True) (boot 1024 0 nullHeads)
      [.load [⟨.ALLOC, 256, 0, 0, 0⟩, ⟨.WRITE, 7, 0, 0, 0⟩] 0,
        .load [⟨.ALLOC, 256, 0, 0, 0⟩] 0, .run 1, .run 2]).get (by decide +kernel)) 1 =
      some ⟨.WRITE, 7, 0, 0, 0⟩ := by decide +kernel
  rw [next] at fetched
  cases fetched
  cases opcode

end Kernel
end Ossim
