import Ossim.Kernel.Frames
import Ossim.Kernel.Paging
import Ossim.Kernel.Replacement

namespace Ossim
namespace Kernel

open Memory

/-!
# What a failed page fault leaves behind

`pg_getpage` takes the victim off the tail of the paging list before it knows
whether a swap slot can be had and whether the copy to swap will be made.  When
one of these fails it pushes the victim back, but at the head.  The page that
has been resident longest then counts as the newest one.

The pages, the free lists and both devices are restored exactly.  The order of
the list is restored only when it names a single page.
-/

/-- The paging state is the same: entries, paging lists with their order, free
lists, and the contents of both devices. -/
structure Os.SamePaging (os after : Os) : Prop where
  entry : ∀ proc pgn, pteGetEntry (after.mm proc) pgn = pteGetEntry (os.mm proc) pgn
  fifoPgn : ∀ proc, (after.mm proc).fifoPgn = (os.mm proc).fifoPgn
  ramFree : after.mram.freeFpList = os.mram.freeFpList
  swapFree : after.activeMswp.freeFpList = os.activeMswp.freeFpList
  ram : after.mram.storage = os.mram.storage
  swap : after.activeMswp.storage = os.activeMswp.storage

theorem Os.SamePaging.refl (os : Os) : os.SamePaging os :=
  ⟨fun _ _ => rfl, fun _ => rfl, rfl, rfl, rfl, rfl⟩

/-- The victim cannot be moved to swap. -/
def Os.SwapRefused (os : Os) (caller : ProcRef) : Prop :=
  os.activeMswp.freeFpList = [] ∨ ¬ os.Resolves caller

/-- A fault that takes a victim off a list of two or more pages and cannot move
it to swap. -/
structure Os.EvictsInVain (os : Os) (pgn : Int) (caller : ProcRef) : Prop where
  replaces : os.ReplacesPage pgn caller
  several : 2 ≤ (os.mm caller).fifoPgn.length
  refused : os.SwapRefused caller

/-- The state with the tail of the paging list moved to its head. -/
def Os.requeued (os : Os) (caller : ProcRef) (vicpgn : Addr) (rest : List Addr) : Os :=
  os.setMm caller { os.mm caller with fifoPgn := vicpgn :: rest }

/-! ## The exits after the victim is taken -/

section Exits

variable {os : Os} {pgn : Int} {caller : ProcRef}

theorem Os.ReplacesPage.live (replaces : os.ReplacesPage pgn caller) :
    (os.procs caller).isSome = true := by
  by_contra dead
  have missing : os.procs caller = none := by
    rw [Bool.not_eq_true, Option.isSome_eq_false_iff, Option.isNone_iff_eq_none] at dead
    exact dead
  have swapped := replaces.2
  rw [Os.mm_of_absent missing, pteGetEntry_initMm, pagingPageSwapped_zero] at swapped
  cases swapped

theorem fifoPgn_of_findVictimPage {mm : MmStruct} (missing : findVictimPage mm = none) :
    mm.fifoPgn = [] := by
  unfold findVictimPage at missing
  cases last : mm.fifoPgn.getLast? with
  | none => exact List.getLast?_eq_none_iff.mp last
  | some vicpgn =>
      rw [last] at missing
      cases missing

/-- Both exits behind the choice of the victim put it back at the head. -/
theorem pgGetpage_inVain (replaces : os.ReplacesPage pgn caller) {vicpgn : Addr}
    {rest : List Addr}
    (picked : findVictimPage (os.mm caller) =
      some (vicpgn, { os.mm caller with fifoPgn := rest }))
    (refused : os.SwapRefused caller) :
    pgGetpage os pgn caller = (-1, 0, os.requeued caller vicpgn rest) := by
  let unlinked : MmStruct := { os.mm caller with fifoPgn := rest }
  have live := replaces.live
  unfold pgGetpage
  dsimp only
  rw [replaces.1, replaces.2, if_neg (by decide), if_neg (by decide), picked]
  dsimp only
  have swap : (os.setMm caller unlinked).activeMswp = os.activeMswp := rfl
  cases free : os.activeMswp.freeFpList with
  | nil =>
      have getting : memphyGetFreefp os.activeMswp = none := by
        rw [memphyGetFreefp, free]
      rw [swap, getting]
      dsimp only
      rw [Os.mm_setMm_self live, Os.setMm_setMm]
      rfl
  | cons swpfpn spare =>
      let taken : MemphyStruct := { os.activeMswp with freeFpList := spare }
      let reserved : Os := (os.setMm caller unlinked).setActiveMswp taken
      have getting : memphyGetFreefp os.activeMswp = some (swpfpn, taken) := by
        rw [memphyGetFreefp, free]
      have released : memphyPutFreefp taken swpfpn = os.activeMswp := by
        rw [memphyPutFreefp, ← free]
      have unresolved : ¬ reserved.Resolves caller := by
        have frame := frame_setMm_self os caller unlinked
        rcases refused with full | unresolved
        · rw [free] at full
          cases full
        · rw [Os.Resolves, ← frame.pid, ← frame.schedFindProcByPid] at unresolved
          exact unresolved
      rw [swap, getting]
      dsimp only
      have failed : (-1 : Int) ≠ 0 := by decide
      rw [syscall_unresolved unresolved, if_pos failed]
      dsimp only
      have restored : reserved.setActiveMswp (memphyPutFreefp reserved.activeMswp swpfpn) =
          os.setMm caller unlinked := by
        have same : reserved.activeMswp = taken := rfl
        rw [same, released]
        rfl
      rw [restored, Os.mm_setMm_self live, Os.setMm_setMm]
      rfl

/-- A failure without a victim, or one that finds its victim a place, has not
touched anything. -/
theorem pgGetpage_failed_of_not_inVain (exact : (os.mm caller).FifoExact)
    (apart : os.ReplacesPage pgn caller → (os.mm caller).fifoPgn ≠ [] →
      ¬ os.SwapRefused caller)
    (failed : (pgGetpage os pgn caller).1 = -1) : (pgGetpage os pgn caller).2.2 = os := by
  unfold pgGetpage at failed ⊢
  dsimp only at failed ⊢
  cases present : pagingPagePresent (pteGetEntry (os.mm caller) (ofInt pgn)) with
  | true => rfl
  | false =>
      rw [present, if_neg (by decide)] at failed
      cases swapped : pagingPageSwapped (pteGetEntry (os.mm caller) (ofInt pgn)) with
      | false => rfl
      | true =>
          rw [swapped, if_neg (by decide)] at failed
          rcases findVictimPage_cases exact with missing | ⟨vicpgn, rest, listed, picked, _⟩
          · rw [missing]
            rfl
          · have served := apart ⟨present, swapped⟩ (by rw [listed]; simp)
            let unlinked : MmStruct := { os.mm caller with fifoPgn := rest }
            rw [Os.SwapRefused, not_or, not_not] at served
            rcases List.exists_cons_of_ne_nil served.1 with ⟨swpfpn, spare, free⟩
            let taken : MemphyStruct := { os.activeMswp with freeFpList := spare }
            let reserved : Os := (os.setMm caller unlinked).setActiveMswp taken
            have getting : memphyGetFreefp (os.setMm caller unlinked).activeMswp =
                some (swpfpn, taken) := by
              have same : (os.setMm caller unlinked).activeMswp = os.activeMswp := rfl
              rw [same, memphyGetFreefp, free]
            have frame := frame_setMm_self os caller unlinked
            have resolves : reserved.Resolves caller := by
              rw [Os.Resolves, ← frame.pid, ← frame.schedFindProcByPid] at served
              exact served.2
            rcases Option.isSome_iff_exists.mp resolves with ⟨found, lookup⟩
            rw [picked] at failed
            dsimp only at failed
            rw [getting] at failed
            dsimp only at failed
            rw [syscall_swap lookup, if_neg (show ¬ (0 : Int) ≠ 0 by decide)] at failed
            cases failed

end Exits

/-! ## When the order survives -/

/-- Moving the tail of a list without duplicates to its head changes the list
unless it is the only element. -/
theorem requeued_eq_iff {pages rest : List Addr} {vicpgn : Addr} (listed : pages = rest ++ [vicpgn])
    (nodup : pages.Nodup) : vicpgn :: rest = pages ↔ pages.length < 2 := by
  rw [listed] at nodup ⊢
  cases rest with
  | nil => exact iff_of_true rfl Nat.one_lt_two
  | cons newest older =>
      rw [List.length_append, List.length_cons, List.length_singleton, List.cons_append]
      constructor
      · intro same
        have first : vicpgn = newest := (List.cons.inj same).1
        rw [first, List.cons_append, List.nodup_cons] at nodup
        exact absurd (List.mem_append_right older List.mem_cons_self) nodup.1
      · intro short
        omega

/-- The requeued state has the paging state of before exactly when the list has
its order of before. -/
theorem samePaging_requeued_iff {os : Os} {caller : ProcRef}
    (live : (os.procs caller).isSome = true) (vicpgn : Addr) (rest : List Addr) :
    os.SamePaging (os.requeued caller vicpgn rest) ↔
      vicpgn :: rest = (os.mm caller).fifoPgn := by
  have own : (os.requeued caller vicpgn rest).mm caller =
      { os.mm caller with fifoPgn := vicpgn :: rest } := Os.mm_setMm_self live _
  have others : ∀ proc, proc ≠ caller →
      (os.requeued caller vicpgn rest).mm proc = os.mm proc := fun proc different =>
    Os.mm_setMm_of_ne different _
  constructor
  · intro same
    have order := same.fifoPgn caller
    rw [own] at order
    exact order
  · intro order
    have mm : ∀ proc, (os.requeued caller vicpgn rest).mm proc = os.mm proc := by
      intro proc
      by_cases here : proc = caller
      · rw [here, own, order]
      · exact others proc here
    refine ⟨?_, ?_, rfl, rfl, rfl, rfl⟩
    · intro proc pgn
      rw [mm]
    · intro proc
      rw [mm]

/-- A failed call of `pg_getpage` leaves the paging state alone exactly when it
does not evict in vain. -/
theorem pgGetpage_failure_iff (os : Os) (pgn : Int) (caller : ProcRef)
    (exact : (os.mm caller).FifoExact) :
    ((pgGetpage os pgn caller).1 = -1 → os.SamePaging (pgGetpage os pgn caller).2.2) ↔
      ¬ os.EvictsInVain pgn caller := by
  constructor
  · rintro same ⟨replaces, several, refused⟩
    rcases findVictimPage_cases exact with missing | ⟨vicpgn, rest, listed, picked, _⟩
    · rw [fifoPgn_of_findVictimPage missing] at several
      cases several
    · have outcome := pgGetpage_inVain replaces picked refused
      have kept := same (by rw [outcome])
      rw [outcome] at kept
      have order := (samePaging_requeued_iff replaces.live vicpgn rest).mp kept
      have short := (requeued_eq_iff listed exact.1).mp order
      omega
  · intro useful failed
    by_cases vain : os.ReplacesPage pgn caller ∧ (os.mm caller).fifoPgn ≠ [] ∧
        os.SwapRefused caller
    · rcases vain with ⟨replaces, pages, refused⟩
      rcases findVictimPage_cases exact with missing | ⟨vicpgn, rest, listed, picked, _⟩
      · exact absurd (fifoPgn_of_findVictimPage missing) pages
      · have short : (os.mm caller).fifoPgn.length < 2 := by
          by_contra long
          exact useful ⟨replaces, Nat.le_of_not_lt long, refused⟩
        rw [pgGetpage_inVain replaces picked refused]
        exact (samePaging_requeued_iff replaces.live vicpgn rest).mpr
          ((requeued_eq_iff listed exact.1).mpr short)
    · rw [pgGetpage_failed_of_not_inVain exact (fun replaces pages refused =>
        vain ⟨replaces, pages, refused⟩) failed]
      exact Os.SamePaging.refl os

/-- A process that has made one allocation, on a swap with one slot. -/
def oneAllocation (size : Addr) : Option Os :=
  Transition.exec kernelStep NoRawSyscall (boot 1024 256 nullHeads)
    [.load [⟨.ALLOC, size, 0, 0, 0⟩] 0, .run 1]

/-- The process after a third page has gone to the only slot of the swap. -/
def Os.swappedOut (os : Os) : Os :=
  (os.setMm 1 (pteSetSwap (os.mm 1) 2 0 0).2).setActiveMswp
    { os.activeMswp with freeFpList := [] }

/-- Writing a swapped entry over an absent one keeps the paging list exact. -/
theorem fifoExact_pteSetSwap {mm : MmStruct} (exact : mm.FifoExact) {pgn : Addr} (swptyp : Int)
    (swpoff : Addr) (vacant : mm.frameOf pgn = none) :
    (pteSetSwap mm pgn swptyp swpoff).2.FifoExact := by
  rw [pteSetSwap]
  rcases pteStore_cases mm pgn (swapWord swptyp swpoff) with
    ⟨_, stored⟩ | ⟨_, edited, stored, edit⟩
  · rw [stored]
    exact exact
  · rw [stored]
    have located := edit.frameOf
    rw [pagingPagePresent_swapWord, if_neg (by decide), ← vacant,
      Function.update_eq_self] at located
    refine ⟨?_, fun read => ?_⟩
    · rw [edit.fifoPgn]
      exact exact.1
    · rw [edit.fifoPgn, located]
      exact exact.2 read

theorem fifoExact_swappedOut {size : Addr} {os : Os} (started : oneAllocation size = some os)
    (live : (os.procs 1).isSome = true) (vacant : (os.mm 1).frameOf 2 = none) :
    (os.swappedOut.mm 1).FifoExact := by
  have reached : ReachableWhere NoRawSyscall 1024 256 os :=
    ⟨_, _, Transition.runWhere_of_exec started⟩
  have exact := (reached.partitioned (by decide)).2 1
  have own : os.swappedOut.mm 1 = (pteSetSwap (os.mm 1) 2 0 0).2 := Os.mm_setMm_self live _
  rw [own]
  exact fifoExact_pteSetSwap exact 0 0 vacant

/-- With two resident pages the failed fault makes the older one the newest. -/
theorem not_samePaging :
    ¬ ∀ (os : Os) (pgn : Int) (caller : ProcRef), (os.mm caller).FifoExact →
      (pgGetpage os pgn caller).1 = -1 → os.SamePaging (pgGetpage os pgn caller).2.2 := by
  intro always
  let started : Os := (oneAllocation 300).get (by decide +kernel)
  have exact : (started.swappedOut.mm 1).FifoExact :=
    fifoExact_swappedOut (Option.some_get _).symm (by decide +kernel) (by decide +kernel)
  have same := always started.swappedOut 2 1 exact (by decide +kernel)
  have before : (started.swappedOut.mm 1).fifoPgn = [1, 0] := by decide +kernel
  have after : ((pgGetpage started.swappedOut 2 1).2.2.mm 1).fifoPgn = [0, 1] := by decide +kernel
  have order := same.fifoPgn 1
  rw [before, after] at order
  exact absurd order (by decide)

/-- With a single resident page the failed fault changes nothing. -/
theorem pgGetpage_failure_single :
    ((oneAllocation 200).get (by decide +kernel)).swappedOut.SamePaging
      (pgGetpage ((oneAllocation 200).get (by decide +kernel)).swappedOut 2 1).2.2 :=
  (pgGetpage_failure_iff ((oneAllocation 200).get (by decide +kernel)).swappedOut 2 1
    (fifoExact_swappedOut (Option.some_get _).symm (by decide +kernel) (by decide +kernel))).mpr
    (fun vain => absurd vain.several (by decide +kernel)) (by decide +kernel)

end Kernel
end Ossim
