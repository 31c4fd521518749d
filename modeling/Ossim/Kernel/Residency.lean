import Ossim.Kernel.Soundness

namespace Ossim
namespace Kernel

open Memory

/-!
# Resident pages can be reached

Two invariants of all runs turn a resident page into successful accesses.
Every frame number in the system names a frame inside the storage of the RAM,
so that no access through a page table leaves the device.  And a process that
is still running and has a resident page is on `running_list`: it got the page
by a system call, which found it there.

Both hold for RAMs of any size.  A frame number that does not fit into its
entry is decoded as a smaller one, which still lies inside the storage.
-/

/-! ## Frames inside the storage -/

/-- The free frames and the frames of resident pages lie in the storage. -/
structure Os.InStorage (os : Os) : Prop where
  spare : ∀ fpn ∈ os.mram.freeFpList, fpn.toNat < os.mram.storageSz / 256
  mapped : ∀ proc pgn fpn, (os.mm proc).frameOf pgn = some fpn →
    fpn.toNat < os.mram.storageSz / 256

/-- The cell behind a user address exists. -/
theorem Os.InStorage.translate_lt {os : Os} (inStorage : os.InStorage) {caller : ProcRef}
    {addr phyaddr : Addr} (found : os.translate caller addr = some phyaddr) :
    phyaddr.toNat < os.mram.storageSz := by
  have page : PAGING_PAGESZ.toNat = 256 := rfl
  have frame := inStorage.mapped caller _ _ (translate_frame found).1
  rw [BitVec.toNat_udiv, page] at frame
  omega

/-- Frames stay below a bound when the free ones and the mapped ones do. -/
theorem MmEffect.frame_lt {ins : Inst} {resolves : Prop} {mm after : MmStruct}
    {mram : MemphyStruct} {spareAfter : List Addr}
    (effect : MmEffect ins resolves mm mram after spareAfter) {bound : Nat}
    (spare : ∀ fpn ∈ mram.freeFpList, fpn.toNat < bound)
    (old : ∀ pgn fpn, mm.frameOf pgn = some fpn → fpn.toNat < bound) :
    (∀ fpn ∈ spareAfter, fpn.toNat < bound) ∧
      ∀ pgn fpn, after.frameOf pgn = some fpn → fpn.toNat < bound := by
  cases effect with
  | idle => exact ⟨spare, old⟩
  | kernelRegion slot rg _ => exact ⟨spare, old⟩
  | taken slot newrg left _ _ => exact ⟨spare, old⟩
  | refused searched _ search =>
      rw [search.frameOf]
      exact ⟨spare, old⟩
  | grown slot searched grown left _ _ search growth =>
      rcases growth.device with ⟨rest, kept, device⟩
      rw [device]
      refine ⟨fun fpn member => spare fpn (kept fpn member), fun pgn fpn mapped => ?_⟩
      exact growth.frame_lt spare (by rw [search.frameOf]; exact old) mapped
  | dropped slot _ => exact ⟨spare, old⟩
  | returned slot _ _ _ _ => exact ⟨spare, old⟩
  | extended grown left _ _ growth =>
      rcases growth.device with ⟨rest, kept, device⟩
      rw [device]
      exact ⟨fun fpn member => spare fpn (kept fpn member),
        fun pgn fpn mapped => growth.frame_lt spare old mapped⟩
  | marked marked _ _ _ mark =>
      exact ⟨spare, fun pgn fpn mapped => old pgn fpn (mark.frameOf_of_some mapped)⟩

/-- The storage of the RAM is never reallocated. -/
theorem kernelStep_storageSz {os after : Os} (sound : os.Sound) {action : KernelAction}
    (taken : kernelStep os action = some after) : after.mram.storageSz = os.mram.storageSz := by
  rcases kernelStep_memory sound taken with
    quiet | ⟨proc, ins, _, _, fetched, same, _, _⟩ | ⟨proc, _, _, _, same⟩
  · rw [quiet.mram]
  · rw [same, run_of_fetch fetched]
    exact (frame_dispatch (os.advance proc) proc ins).mram.storageSz
  · rcases freePcb_cases sound proc with ⟨spare, outcome, _⟩
    rw [same, outcome]
    rfl

theorem Os.InStorage.kernelStep {os after : Os} (inside : os.InStorage) (sound : os.Sound)
    {action : KernelAction} (taken : kernelStep os action = some after) : after.InStorage := by
  have storage := kernelStep_storageSz sound taken
  rcases kernelStep_memory sound taken with
    quiet | ⟨caller, ins, _, live, _, same, _, effect⟩ | ⟨freed, _, _, _, same⟩
  · refine ⟨?_, ?_⟩
    · rw [quiet.mram]
      exact inside.spare
    · intro proc
      rw [storage, quiet.mm]
      exact inside.mapped proc
  · have frames := effect.mm.frame_lt inside.spare (inside.mapped caller)
    refine ⟨?_, ?_⟩
    · rw [storage]
      exact frames.1
    · intro proc
      rw [storage]
      by_cases own : proc = caller
      · rw [own]
        exact frames.2
      · rw [same, mm_run_others sound live own]
        exact inside.mapped proc
  · rcases freePcb_cases sound freed with ⟨spare, outcome, moves⟩
    have kept : (freePcb os freed).mram.freeFpList = spare := by
      rw [outcome]
      rfl
    have before : ((os.mm freed).ledger os.mram.freeFpList).Within
        fun fpn => fpn.toNat < os.mram.storageSz / 256 := by
      rintro fpn (member | ⟨pgn, mapped⟩)
      · exact inside.spare fpn member
      · exact inside.mapped freed pgn fpn mapped
    have swept := before.drift moves.drift
    refine ⟨?_, ?_⟩
    · rw [storage, same, kept]
      exact fun fpn member => swept fpn (Or.inl member)
    · intro proc pgn fpn mapped
      rw [same, mm_freePcb sound] at mapped
      rw [storage]
      split at mapped
      · rw [frameOf_initMm] at mapped
        cases mapped
      · exact inside.mapped proc pgn fpn mapped

theorem inStorage_boot (memramsz memswpsz : Addr) (freergHeads : ProcRef → List VmRgStruct) :
    (boot memramsz memswpsz freergHeads).InStorage where
  spare := by
    intro fpn member
    have bounded : frameCount memramsz < 2 ^ 64 := by
      have size := asInt_bounds memramsz
      have count := frameCount_eq memramsz
      omega
    have stored := frameCount_storage memramsz
    have free : fpn ∈ (initMemphy memramsz 1).freeFpList := member
    have size : (boot memramsz memswpsz freergHeads).mram.storageSz = memramsz.toNat :=
      storageSz_initMemphy memramsz 1
    rw [freeFpList_initMemphy, mem_frames _ bounded] at free
    omega
  mapped := by
    intro proc pgn fpn mapped
    have empty : (boot memramsz memswpsz freergHeads).mm proc = initMm (freergHeads proc) := rfl
    rw [empty, frameOf_initMm] at mapped
    cases mapped

/-! ## Holders of pages are listed -/

/-- An unfinished process with a resident page is on `running_list`. -/
def Os.HoldersListed (os : Os) : Prop :=
  ∀ proc, (os.procs proc).isSome = true → os.finished proc = false →
    (∃ pgn, ((os.mm proc).frameOf pgn).isSome = true) → proc ∈ os.sched.runningList

/-- A page becomes resident only for a caller that the system call resolves. -/
theorem MmEffect.resident {ins : Inst} {resolves : Prop} {mm after : MmStruct}
    {mram : MemphyStruct} {spare : List Addr} (effect : MmEffect ins resolves mm mram after spare)
    {pgn : Addr} (present : (after.frameOf pgn).isSome = true) :
    (mm.frameOf pgn).isSome = true ∨ resolves := by
  cases effect with
  | idle => exact Or.inl present
  | kernelRegion slot rg _ => exact Or.inl present
  | taken slot newrg left _ _ => exact Or.inl present
  | refused searched _ search =>
      rw [search.frameOf] at present
      exact Or.inl present
  | grown slot searched grown left _ resolved _ _ => exact Or.inr resolved
  | dropped slot _ => exact Or.inl present
  | returned slot _ _ _ _ => exact Or.inl present
  | extended grown left _ resolved _ => exact Or.inr resolved
  | marked marked _ _ _ mark =>
      rcases Option.isSome_iff_exists.mp present with ⟨fpn, mapped⟩
      rw [mark.frameOf_of_some mapped]
      exact Or.inl rfl

theorem mem_enqueue_of_mem {q : List ProcRef} {proc : ProcRef} (added : ProcRef)
    (member : proc ∈ q) : proc ∈ enqueue q added := by
  unfold enqueue
  split
  · exact member
  · exact List.mem_append_left _ member

theorem finished_of_fetch {os : Os} {proc : ProcRef} {ins : Inst}
    (fetched : fetch os proc = some ins) : os.finished proc = false := by
  unfold fetch at fetched
  unfold Os.finished
  cases found : os.procs proc with
  | none => rfl
  | some pcb =>
      rw [found, Option.bind_some] at fetched
      have inside := (List.getElem?_eq_some_iff.mp fetched).1
      exact beq_false_of_ne (Nat.ne_of_lt inside)

theorem finished_congr {before after : Os} {proc : ProcRef}
    (procs : after.procs proc = before.procs proc) :
    after.finished proc = before.finished proc := by
  rw [Os.finished, procs, Os.finished]

theorem finished_putMlqProc (os : Os) (queued proc : ProcRef) :
    (putMlqProc os queued).finished proc = os.finished proc := by
  unfold Os.finished
  by_cases same : proc = queued
  · subst same
    cases found : os.procs proc <;> simp [putMlqProc, Os.updatePcb, found]
  · simp [putMlqProc, Os.updatePcb, same]

theorem runningList_run (os : Os) (proc : ProcRef) :
    (run os proc).2.sched.runningList = os.sched.runningList := by
  cases fetched : fetch os proc with
  | none => rw [run_of_end fetched]
  | some ins =>
      rw [run_of_fetch fetched, (frame_dispatch (os.advance proc) proc ins).sched]
      rfl

theorem runningList_getMlqProc (sched : Sched) :
    (getMlqProc sched).2.runningList = sched.runningList := by
  unfold getMlqProc
  split
  · rfl
  · dsimp only
    split
    · rfl
    · split <;> rfl

theorem Os.HoldersListed.kernelStep {os after : Os} (listed : os.HoldersListed) (sound : os.Sound)
    {action : KernelAction} (taken : kernelStep os action = some after) :
    after.HoldersListed := by
  intro proc live unfinished present
  cases kernelStep_effect taken with
  | load code prio =>
      rcases present with ⟨pgn, present⟩
      rw [(quiet_addProc _ _).mm, (quiet_load sound code prio).mm] at present
      by_cases fresh : proc = os.availPid
      · rw [fresh, Os.mm_of_absent sound.absent, frameOf_initMm] at present
        cases present
      · have procs := procs_load_of_ne os code prio fresh
        rw [procs] at live
        rw [finished_congr procs] at unfinished
        exact mem_enqueue_of_mem _ (listed proc live unfinished ⟨pgn, present⟩)
  | run caller callerLive defined =>
      rw [runningList_run]
      by_cases own : proc = caller
      · subst own
        cases fetched : fetch os proc with
        | none =>
            rw [run_of_end fetched] at unfinished present
            exact listed proc callerLive unfinished present
        | some ins =>
            rcases present with ⟨pgn, present⟩
            rcases (run_effect sound callerLive fetched defined.1).mm.resident present with
              already | resolves
            · exact listed proc callerLive (finished_of_fetch fetched) ⟨pgn, already⟩
            · exact (sound.resolves_iff callerLive).mp resolves
      · have procs := run_others sound callerLive own
        rw [procs] at live
        rw [finished_congr procs] at unfinished
        rw [mm_run_others sound callerLive own] at present
        exact listed proc live unfinished present
  | getProc =>
      have kept : (getProc os).2.sched.runningList = os.sched.runningList :=
        runningList_getMlqProc os.sched
      rw [kept]
      exact listed proc live unfinished present
  | putProc queued =>
      rw [putProc, isSome_putMlqProc] at live
      rw [putProc, finished_putMlqProc] at unfinished
      rw [putProc, (quiet_putMlqProc os queued).mm] at present
      exact listed proc live unfinished present
  | removeProc removed done =>
      have different : proc ≠ removed := by
        rintro rfl
        have contra := unfinished.symm.trans done
        cases contra
      exact (List.mem_erase_of_ne different).mpr (listed proc live unfinished present)
  | freePcb freed =>
      have procs := procs_freePcb sound freed proc
      by_cases own : proc = freed
      · rw [procs, if_pos own] at live
        cases live
      · rw [if_neg own] at procs
        rw [procs] at live
        rw [finished_congr procs] at unfinished
        rw [mm_freePcb sound, if_neg own] at present
        have kept : (freePcb os freed).sched = os.sched := by
          rcases freePcb_cases sound freed with ⟨spare, outcome, _⟩
          rw [outcome]
          rfl
        rw [kept]
        exact listed proc live unfinished present

end Kernel
end Ossim
