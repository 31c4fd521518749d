import Ossim.Kernel.Effect
import Ossim.Kernel.Process

namespace Ossim
namespace Kernel

open Memory

/-!
# Sound states over whole runs

`kernelStep_memory` is the inversion of one kernel action for everything that
concerns memory.  Most actions are quiet: the scheduler calls and the creation
of a process leave every page table and both devices alone, because a process
without a block already counts as one with an empty memory map.  The two that
are not quiet are the execution of an instruction and the exit of a process.

Boot is sound and every action keeps soundness, so every reachable state is
sound, for all sizes of the two devices and all programs.
-/

/-! ## Effects keep a memory map sound -/

theorem MmEffect.sound {ins : Inst} {resolves : Prop} {mm after : MmStruct}
    {mram : MemphyStruct} {spare : List Addr}
    (effect : MmEffect ins resolves mm mram after spare) (sound : mm.Sound) :
    after.Sound := by
  cases effect with
  | idle => exact sound
  | kernelRegion slot rg _ => exact sound.setRegion slot rg
  | taken slot newrg left _ _ => exact (sound.setFreeList left).setRegion slot newrg
  | refused searched _ search => exact search.sound sound
  | grown slot searched grown left _ _ search growth =>
      exact (growth.sound (search.sound sound)).setRegion slot _
  | dropped slot _ => exact sound.setRegion slot _
  | returned slot _ _ _ _ => exact (sound.setRegion slot _).setFreeList _
  | extended grown left _ _ growth => exact growth.sound sound
  | marked marked _ _ _ mark => exact mark.sound sound

/-! ## Running one instruction -/

theorem mm_advance (os : Os) (caller proc : ProcRef) : (os.advance caller).mm proc = os.mm proc := by
  by_cases same : proc = caller
  · subst same
    cases found : os.procs proc <;> simp [Os.mm, Os.advance, Os.updatePcb, found]
  · simp [Os.mm, Os.advance, Os.updatePcb, same]

theorem isSome_advance (os : Os) (caller proc : ProcRef) :
    ((os.advance caller).procs proc).isSome = (os.procs proc).isSome := by
  by_cases same : proc = caller
  · subst same
    simp [Os.advance, Os.updatePcb]
  · simp [Os.advance, Os.updatePcb, same]

theorem Os.Sound.advance {os : Os} (sound : os.Sound) (caller : ProcRef) :
    (os.advance caller).Sound where
  pid := by
    intro proc pcb found
    by_cases same : proc = caller
    · subst same
      simp only [Os.advance, Os.updatePcb, Os.setProc_procs, Function.update_self,
        Option.map_eq_some_iff] at found
      rcases found with ⟨old, there, moved⟩
      rw [← moved]
      exact sound.pid proc old there
    · simp only [Os.advance, Os.updatePcb, Os.setProc_procs, Function.update_of_ne same] at found
      exact sound.pid proc pcb found
  fresh := by
    intro proc live
    rw [isSome_advance] at live
    exact sound.fresh proc live
  memory := by
    intro proc
    rw [mm_advance]
    exact sound.memory proc
  mramRandom := sound.mramRandom
  mswpRandom := sound.mswpRandom

/-- Process ids do not depend on the program counter. -/
theorem pids_advance (os : Os) (caller proc : ProcRef) :
    ((os.advance caller).procs proc).map Pcb.pid = (os.procs proc).map Pcb.pid := by
  by_cases same : proc = caller
  · subst same
    simp [Os.advance, Os.updatePcb, Function.comp_def]
  · simp [Os.advance, Os.updatePcb, same]

theorem pid_advance (os : Os) (caller proc : ProcRef) :
    (os.advance caller).pid proc = os.pid proc := by
  have kept := pids_advance os caller proc
  unfold Os.pid
  cases here : os.procs proc <;> cases there : (os.advance caller).procs proc <;> simp_all

theorem resolves_advance (os : Os) (caller proc : ProcRef) :
    (os.advance caller).Resolves proc = os.Resolves proc := by
  have lookup : ∀ pid, schedFindProcByPid (os.advance caller) pid = schedFindProcByPid os pid :=
    schedFindProcByPid_congr rfl (pids_advance os caller)
  rw [Os.Resolves, pid_advance, lookup, Os.Resolves]

theorem isSome_of_fetch {os : Os} {proc : ProcRef} {ins : Inst}
    (fetched : fetch os proc = some ins) : (os.procs proc).isSome = true := by
  rcases Option.bind_eq_some_iff.mp fetched with ⟨pcb, found, _⟩
  rw [found]
  rfl

theorem run_of_fetch {os : Os} {proc : ProcRef} {ins : Inst} (fetched : fetch os proc = some ins) :
    run os proc = dispatch (os.advance proc) proc ins := by
  rw [run, fetched]

theorem run_of_end {os : Os} {proc : ProcRef} (ended : fetch os proc = none) :
    run os proc = (1, os) := by
  rw [run, ended]

/-- Running one process does not change what the system-call layer finds. -/
theorem run_resolves (os : Os) (caller proc : ProcRef) :
    (run os caller).2.Resolves proc ↔ os.Resolves proc := by
  cases fetched : fetch os caller with
  | none => rw [run_of_end fetched]
  | some ins =>
      have frame := frame_dispatch (os.advance caller) caller ins
      rw [run_of_fetch fetched, Os.Resolves, frame.pid, frame.schedFindProcByPid, ← Os.Resolves,
        resolves_advance]

/-- The effect of `run` on memory, seen from the state before the counter
moves. -/
theorem run_effect {os : Os} (sound : os.Sound) {proc : ProcRef}
    (live : (os.procs proc).isSome = true) {ins : Inst} (fetched : fetch os proc = some ins)
    (defined : (run os proc).2.fault = false) :
    MemoryEffect ins proc os (run os proc).2 := by
  rw [run_of_fetch fetched] at defined ⊢
  have effect := dispatch_effect (sound.advance proc) (by rw [isSome_advance]; exact live) ins
    defined
  refine ⟨?_, ?_, effect.swapSpare⟩
  · have mm := effect.mm
    rw [mm_advance, resolves_advance] at mm
    exact mm
  · have storage := effect.storage
    rw [mm_advance] at storage
    exact storage

theorem freergHeads_run (os : Os) (proc : ProcRef) :
    (run os proc).2.freergHeads = os.freergHeads := by
  cases fetched : fetch os proc with
  | none => rw [run_of_end fetched]
  | some ins =>
      rw [run_of_fetch fetched]
      exact (frame_dispatch (os.advance proc) proc ins).freergHeads

theorem isSome_run (os : Os) (caller proc : ProcRef) :
    ((run os caller).2.procs proc).isSome = (os.procs proc).isSome := by
  cases fetched : fetch os caller with
  | none => rw [run_of_end fetched]
  | some ins =>
      have frame := frame_dispatch (os.advance caller) caller ins
      rw [run_of_fetch fetched, isSome_of_control (frame.control proc), isSome_advance]

/-- Whatever the instruction, other processes keep their blocks. -/
theorem run_others {os : Os} (sound : os.Sound) {caller proc : ProcRef}
    (live : (os.procs caller).isSome = true) (different : proc ≠ caller) :
    (run os caller).2.procs proc = os.procs proc := by
  cases fetched : fetch os caller with
  | none => rw [run_of_end fetched]
  | some ins =>
      rw [run_of_fetch fetched]
      have kept := (sound.advance caller).others (by rw [isSome_advance]; exact live)
        (frame_dispatch (os.advance caller) caller ins) different
      rw [kept]
      simp [Os.advance, Os.updatePcb, different]

theorem Os.Sound.run {os : Os} (sound : os.Sound) {proc : ProcRef}
    (live : (os.procs proc).isSome = true) (defined : (run os proc).2.fault = false) :
    (run os proc).2.Sound := by
  cases fetched : fetch os proc with
  | none =>
      rw [run_of_end fetched]
      exact sound
  | some ins =>
      have effect := run_effect sound live fetched defined
      have own := effect.mm.sound (sound.memory proc)
      rw [run_of_fetch fetched] at own ⊢
      exact (sound.advance proc).frame (by rw [isSome_advance]; exact live)
        (frame_dispatch (os.advance proc) proc ins) own

/-! ## Scheduler calls and creation -/

/-- No page table and no device differs. -/
structure Quiet (before after : Os) : Prop where
  mm : ∀ proc, after.mm proc = before.mm proc
  mram : after.mram = before.mram
  activeMswp : after.activeMswp = before.activeMswp

theorem quiet_putMlqProc (os : Os) (proc : ProcRef) : Quiet os (putMlqProc os proc) := by
  refine ⟨fun other => ?_, rfl, rfl⟩
  by_cases same : other = proc
  · subst same
    cases found : os.procs other <;> simp [Os.mm, putMlqProc, Os.updatePcb, found]
  · simp [Os.mm, putMlqProc, Os.updatePcb, same]

theorem isSome_putMlqProc (os : Os) (queued proc : ProcRef) :
    ((putMlqProc os queued).procs proc).isSome = (os.procs proc).isSome := by
  by_cases same : proc = queued
  · subst same
    simp [putMlqProc, Os.updatePcb]
  · simp [putMlqProc, Os.updatePcb, same]

theorem quiet_addProc (os : Os) (proc : ProcRef) : Quiet os (addProc os proc) :=
  ⟨(quiet_putMlqProc os proc).mm, rfl, rfl⟩

/-- The next process id names no block yet. -/
theorem Os.Sound.absent {os : Os} (sound : os.Sound) : os.procs os.availPid = none := by
  cases found : os.procs os.availPid with
  | none => rfl
  | some pcb => exact absurd (sound.fresh os.availPid (by rw [found]; rfl)) (lt_irrefl _)

theorem quiet_load {os : Os} (sound : os.Sound) (code : List Inst) (prio : Nat) :
    Quiet os (load os code prio) := by
  refine ⟨fun proc => ?_, rfl, rfl⟩
  by_cases same : proc = os.availPid
  · subst same
    simp [Os.mm, load, sound.absent]
  · simp [Os.mm, load, same]

theorem procs_load_of_ne (os : Os) (code : List Inst) (prio : Nat) {proc : ProcRef}
    (older : proc ≠ os.availPid) :
    (addProc (load os code prio) os.availPid).procs proc = os.procs proc := by
  simp [addProc, addMlqProc, putMlqProc, Os.updatePcb, load, older]

/-- Process ids and the counter after a call that only changes priorities and
queues. -/
theorem Os.Sound.putMlqProc {os : Os} (sound : os.Sound) (proc : ProcRef) :
    (putMlqProc os proc).Sound where
  pid := by
    intro other pcb found
    by_cases same : other = proc
    · subst same
      simp only [Kernel.putMlqProc, Os.updatePcb, Os.setSched_procs, Os.setProc_procs,
        Function.update_self, Option.map_eq_some_iff] at found
      rcases found with ⟨old, there, clamped⟩
      rw [← clamped]
      exact sound.pid other old there
    · simp only [Kernel.putMlqProc, Os.updatePcb, Os.setSched_procs, Os.setProc_procs,
        Function.update_of_ne same] at found
      exact sound.pid other pcb found
  fresh := by
    intro other live
    have present : (os.procs other).isSome = true := by
      by_cases same : other = proc
      · subst same
        simpa [Kernel.putMlqProc, Os.updatePcb] using live
      · simpa [Kernel.putMlqProc, Os.updatePcb, same] using live
    exact sound.fresh other present
  memory := by
    intro other
    rw [(quiet_putMlqProc os proc).mm]
    exact sound.memory other
  mramRandom := sound.mramRandom
  mswpRandom := sound.mswpRandom

theorem Os.Sound.setSched {os : Os} (sound : os.Sound) (sched : Sched) :
    (os.setSched sched).Sound :=
  ⟨sound.pid, sound.fresh, sound.memory, sound.mramRandom, sound.mswpRandom⟩

theorem Os.Sound.load {os : Os} (sound : os.Sound) (code : List Inst) (prio : Nat) :
    (load os code prio).Sound where
  pid := by
    intro proc pcb found
    by_cases same : proc = os.availPid
    · subst same
      simp only [Kernel.load, Function.update_self, Option.some.injEq] at found
      rw [← found]
    · simp only [Kernel.load, Function.update_of_ne same] at found
      exact sound.pid proc pcb found
  fresh := by
    intro proc live
    by_cases same : proc = os.availPid
    · rw [same]
      exact Nat.lt_succ_self os.availPid
    · simp only [Kernel.load, Function.update_of_ne same] at live
      exact Nat.lt_succ_of_lt (sound.fresh proc live)
  memory := by
    intro proc
    rw [(quiet_load sound code prio).mm]
    exact sound.memory proc
  mramRandom := sound.mramRandom
  mswpRandom := sound.mswpRandom

/-! ## Exit -/

/-- The part of a page table that a sweep has not reached yet. -/
private def unsweptFrames (mm : MmStruct) (swept : Nat) (pgn : Addr) : Option Addr :=
  if pgn.toNat < swept then none else mm.frameOf pgn

/-- The sweep after a number of pages: the swap and all other fields of the RAM
are as before, and the frames of the swept pages have been released. -/
private theorem foldl_sweepPage {mm : MmStruct}
    (unswapped : ∀ pgn, pagingPageSwapped (pteGetEntry mm pgn) = false)
    (mram mswp : MemphyStruct) (swept : Nat) (short : swept ≤ 16384) :
    ∃ spare, (List.range swept).foldl (sweepPage mm) (mram, mswp) =
        ({ mram with freeFpList := spare }, mswp) ∧
      Ledger.Moves (mm.ledger mram.freeFpList) ⟨spare, unsweptFrames mm swept⟩ := by
  induction swept with
  | zero =>
      refine ⟨mram.freeFpList, rfl, ?_⟩
      have whole : unsweptFrames mm 0 = mm.frameOf := by
        funext pgn
        exact if_neg (Nat.not_lt_zero _)
      rw [whole]
      exact .refl
  | succ swept inductionHypothesis =>
      rcases inductionHypothesis (by omega) with ⟨spare, devices, moves⟩
      have position : (BitVec.ofNat 64 swept).toNat = swept := by
        rw [BitVec.toNat_ofNat]
        omega
      have next : unsweptFrames mm (swept + 1) =
          Function.update (unsweptFrames mm swept) (BitVec.ofNat 64 swept) none := by
        funext pgn
        by_cases same : pgn = BitVec.ofNat 64 swept
        · rw [same, Function.update_self, unsweptFrames, if_pos (by omega)]
        · have different : pgn.toNat ≠ swept := fun equal =>
            same (BitVec.eq_of_toNat_eq (by rw [position, equal]))
          rw [Function.update_of_ne same, unsweptFrames, unsweptFrames]
          by_cases before : pgn.toNat < swept
          · rw [if_pos before, if_pos (by omega)]
          · rw [if_neg before, if_neg (by omega)]
      have here : unsweptFrames mm swept (BitVec.ofNat 64 swept) =
          mm.frameOf (BitVec.ofNat 64 swept) := by
        rw [unsweptFrames, if_neg (by omega)]
      rw [List.range_succ, List.foldl_append, devices, List.foldl_cons, List.foldl_nil, next]
      cases mapped : mm.frameOf (BitVec.ofNat 64 swept) with
      | none =>
          have absent : pagingPagePresent (pteGetEntry mm (BitVec.ofNat 64 swept)) = false := by
            rw [← MmStruct.frameOf_isSome, mapped]
            rfl
          have kept : sweepPage mm ({ mram with freeFpList := spare }, mswp) swept =
              ({ mram with freeFpList := spare }, mswp) := by
            rw [sweepPage]
            simp [absent, unswapped]
          refine ⟨spare, kept, ?_⟩
          rw [Function.update_eq_self_iff.mpr (by rw [here, mapped])]
          exact moves
      | some fpn =>
          rcases (MmStruct.frameOf_eq_some_iff mm _ fpn).mp mapped with ⟨present, frame⟩
          have entry : pteGetEntry mm (BitVec.ofNat 64 swept) ≠ 0#32 := by
            intro zero
            rw [zero] at present
            exact absurd present (by decide)
          have released : sweepPage mm ({ mram with freeFpList := spare }, mswp) swept =
              ({ mram with freeFpList := fpn :: spare }, mswp) := by
            rw [sweepPage]
            simp [entry, present, unswapped, frame, memphyPutFreefp]
          refine ⟨fpn :: spare, released, moves.tail ?_⟩
          exact .release _ fpn (here.trans mapped) (List.Perm.refl _) rfl

/-- The exit of a process that never had a page on swap: its frames go back to
the free list, and its memory map counts as empty from then on. -/
theorem freePcb_cases {os : Os} (sound : os.Sound) (proc : ProcRef) :
    ∃ spare, freePcb os proc =
        ((os.setMram { os.mram with freeFpList := spare }).setActiveMswp os.activeMswp).setProc
          proc none ∧
      Ledger.Moves ((os.mm proc).ledger os.mram.freeFpList)
        ((initMm (os.freergHeads proc)).ledger spare) := by
  have limit : PAGING_MAX_PGN.toNat = 16384 := rfl
  rcases foldl_sweepPage (sound.unswapped proc) os.mram os.activeMswp 16384 (le_refl _) with
    ⟨spare, devices, moves⟩
  refine ⟨spare, ?_, ?_⟩
  · rw [freePcb, freePcbMemph, limit, devices]
  · have empty : unsweptFrames (os.mm proc) 16384 =
        (initMm (os.freergHeads proc)).frameOf := by
      funext pgn
      rw [frameOf_initMm, unsweptFrames]
      by_cases low : pgn.toNat < 16384
      · rw [if_pos low]
      · rw [if_neg low]
        cases mapped : (os.mm proc).frameOf pgn with
        | none => rfl
        | some fpn => exact absurd (show pgn.toNat < 16384 from MmStruct.lt_of_frameOf mapped) low
    rw [empty] at moves
    exact moves

theorem mm_setProc_none (os : Os) (freed proc : ProcRef) :
    (os.setProc freed none).mm proc =
      if proc = freed then initMm (os.freergHeads proc) else os.mm proc := by
  by_cases same : proc = freed
  · subst same
    simp [Os.mm]
  · simp [Os.mm, same]

theorem Os.Sound.freePcb {os : Os} (sound : os.Sound) (freed : ProcRef) :
    (freePcb os freed).Sound := by
  rcases freePcb_cases sound freed with ⟨spare, outcome, _⟩
  rw [outcome]
  refine ⟨?_, ?_, ?_, sound.mramRandom, sound.mswpRandom⟩
  · intro proc pcb found
    by_cases same : proc = freed
    · subst same
      simp at found
    · simp only [Os.setProc_procs, Function.update_of_ne same] at found
      exact sound.pid proc pcb found
  · intro proc live
    by_cases same : proc = freed
    · subst same
      simp at live
    · simp only [Os.setProc_procs, Function.update_of_ne same] at live
      exact sound.fresh proc live
  · intro proc
    rw [mm_setProc_none]
    by_cases same : proc = freed
    · rw [if_pos same]
      exact sound_initMm _
    · rw [if_neg same]
      exact sound.memory proc

/-! ## Kernel actions -/

/-- What an action does to memory. -/
theorem kernelStep_memory {os after : Os} (sound : os.Sound) {action : KernelAction}
    (taken : kernelStep os action = some after) :
    Quiet os after ∨
      (∃ proc ins, action = .run proc ∧ (os.procs proc).isSome = true ∧
        fetch os proc = some ins ∧ after = (run os proc).2 ∧ after.Defined ∧
        MemoryEffect ins proc os after) ∨
      ∃ proc, action = .freePcb proc ∧ os.finished proc = true ∧
        proc ∉ os.sched.runningList ∧ after = freePcb os proc := by
  cases kernelStep_effect taken with
  | load code prio =>
      have loading := quiet_load sound code prio
      have adding := quiet_addProc (load os code prio) os.availPid
      exact Or.inl ⟨fun proc => (adding.mm proc).trans (loading.mm proc), rfl, rfl⟩
  | run proc live defined =>
      cases fetched : fetch os proc with
      | none =>
          rw [run_of_end fetched]
          exact Or.inl ⟨fun _ => rfl, rfl, rfl⟩
      | some ins =>
          exact Or.inr (Or.inl ⟨proc, ins, rfl, live, fetched, rfl, defined,
            run_effect sound live fetched defined.1⟩)
  | getProc => exact Or.inl ⟨fun _ => rfl, rfl, rfl⟩
  | putProc proc => exact Or.inl (quiet_putMlqProc os proc)
  | removeProc proc => exact Or.inl ⟨fun _ => rfl, rfl, rfl⟩
  | freePcb proc ended unlisted => exact Or.inr (Or.inr ⟨proc, rfl, ended, unlisted, rfl⟩)

theorem mm_run_others {os : Os} (sound : os.Sound) {caller proc : ProcRef}
    (live : (os.procs caller).isSome = true) (different : proc ≠ caller) :
    (run os caller).2.mm proc = os.mm proc :=
  Os.mm_congr (run_others sound live different) (freergHeads_run os caller)

theorem mm_freePcb {os : Os} (sound : os.Sound) (freed proc : ProcRef) :
    (freePcb os freed).mm proc =
      if proc = freed then initMm (os.freergHeads proc) else os.mm proc := by
  rcases freePcb_cases sound freed with ⟨spare, outcome, _⟩
  rw [outcome, mm_setProc_none]
  rfl

theorem procs_freePcb {os : Os} (sound : os.Sound) (freed proc : ProcRef) :
    (freePcb os freed).procs proc = if proc = freed then none else os.procs proc := by
  rcases freePcb_cases sound freed with ⟨spare, outcome, _⟩
  rw [outcome]
  by_cases own : proc = freed
  · simp [own]
  · simp [own]

/-- What the heap holds is not up to the program. -/
theorem kernelStep_freergHeads {os after : Os} (sound : os.Sound) {action : KernelAction}
    (taken : kernelStep os action = some after) : after.freergHeads = os.freergHeads := by
  cases kernelStep_effect taken with
  | load => rfl
  | run proc => rw [freergHeads_run]
  | getProc => rfl
  | putProc => rfl
  | removeProc => rfl
  | freePcb proc =>
      rcases freePcb_cases sound proc with ⟨spare, outcome, _⟩
      rw [outcome]
      rfl

/-- The only block that comes into being is the one that `load` makes. -/
theorem loaded_of_born {os after : Os} (sound : os.Sound) {action : KernelAction}
    (taken : kernelStep os action = some after) {proc : ProcRef} (absent : os.procs proc = none)
    (born : (after.procs proc).isSome = true) :
    proc = os.availPid ∧ ∃ code prio, action = .load code prio := by
  have unborn : ¬ (os.procs proc).isSome = true := by
    rw [absent]
    exact Bool.false_ne_true
  cases kernelStep_effect taken with
  | load code prio =>
      refine ⟨?_, code, prio, rfl⟩
      by_contra different
      rw [procs_load_of_ne os code prio different] at born
      exact unborn born
  | run caller live =>
      have different : proc ≠ caller := fun same => unborn (same ▸ live)
      rw [run_others sound live different] at born
      exact absurd born unborn
  | getProc => exact absurd born unborn
  | putProc queued =>
      rw [putProc, isSome_putMlqProc] at born
      exact absurd born unborn
  | removeProc => exact absurd born unborn
  | freePcb freed =>
      rw [procs_freePcb sound] at born
      split at born
      · cases born
      · exact absurd born unborn

/-- A property of memory maps that holds of the map of a new process holds of the
maps of all live processes after an action, once it survives the instruction
that the action runs. -/
theorem kernelStep_mm {os after : Os} (sound : os.Sound) {action : KernelAction}
    (taken : kernelStep os action = some after) {Good : MmStruct → Prop}
    (holds : ∀ proc, (os.procs proc).isSome = true → Good (os.mm proc))
    (loaded : ∀ code prio, action = .load code prio → Good (initMm (os.freergHeads os.availPid)))
    (kept : ∀ caller ins mm spare, action = .run caller → (os.procs caller).isSome = true →
      fetch os caller = some ins →
        MmEffect ins (os.Resolves caller) (os.mm caller) os.mram mm spare → Good mm) :
    ∀ proc, (after.procs proc).isSome = true → Good (after.mm proc) := by
  intro proc alive
  -- the map before the action, where it was not the caller's
  have before : Good (os.mm proc) := by
    cases found : os.procs proc with
    | some pcb => exact holds proc (by rw [found]; rfl)
    | none =>
        rcases loaded_of_born sound taken found alive with ⟨rfl, code, prio, loads⟩
        rw [Os.mm_of_absent found]
        exact loaded code prio loads
  rcases kernelStep_memory sound taken with
    quiet | ⟨caller, ins, running, live, fetched, same, _, effect⟩ | ⟨freed, _, _, _, same⟩
  · rw [quiet.mm]
    exact before
  · by_cases own : proc = caller
    · rw [own]
      exact kept caller ins _ _ running live fetched effect.mm
    · rw [same, mm_run_others sound live own]
      exact before
  · have different : proc ≠ freed := by
      rintro rfl
      rw [same, procs_freePcb sound, if_pos rfl] at alive
      cases alive
    rw [same, mm_freePcb sound, if_neg different]
    exact before

theorem Os.Sound.kernelStep {os after : Os} (sound : os.Sound) {action : KernelAction}
    (taken : kernelStep os action = some after) : after.Sound := by
  cases kernelStep_effect taken with
  | load code prio => exact ((sound.load code prio).putMlqProc os.availPid).setSched _
  | run proc live defined => exact sound.run live defined.1
  | getProc => exact sound.setSched _
  | putProc proc => exact sound.putMlqProc proc
  | removeProc => exact sound.setSched _
  | freePcb proc => exact sound.freePcb proc

theorem sound_boot (memramsz memswpsz : Addr) (freergHeads : ProcRef → List VmRgStruct) :
    (boot memramsz memswpsz freergHeads).Sound where
  pid := by
    intro proc pcb found
    cases found
  fresh := by
    intro proc live
    cases live
  memory := fun _ => sound_initMm _
  mramRandom := rfl
  mswpRandom := rfl

/-- Every reachable state is sound. -/
theorem Reachable.sound {memramsz memswpsz : Addr} {os : Os}
    (reached : Reachable memramsz memswpsz os) : os.Sound := by
  rcases reached with ⟨freergHeads, trace, path⟩
  exact path.invariant Os.Sound (sound_boot memramsz memswpsz freergHeads)
    (fun _ _ _ sound taken => sound.kernelStep taken)

end Kernel
end Ossim
