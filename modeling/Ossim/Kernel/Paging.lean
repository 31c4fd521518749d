import Ossim.Memory.SwapTable
import Ossim.Kernel.Access

namespace Ossim
namespace Kernel

open Memory

/-!
# Demand paging

The places of all pages form one ledger: frames of the RAM and slots of the
active swap are its slots, and the two free lists are its spare list.  Bringing
a page in is two relocations on this ledger, each accompanied by a page copy.
First the victim goes from its frame to the reserved slot, then the wanted
page goes from its slot to that frame.  The order matters: the second copy
overwrites the source of the first.

The content of a virtual byte is read through the ledger.  A relocation with
its copy changes no content, so it does not matter to any process which pages
are resident.
-/

namespace Os

/-- Who holds which frame of the RAM and which slot of the active swap. -/
def places (os : Os) : Ledger (ProcRef × Addr) Place :=
  Ledger.ofTables (os.mram.freeFpList.map .frame ++ os.activeMswp.freeFpList.map .slot)
    fun proc => (os.mm proc).placeOf

/-- The cells of a page, resident or swapped. -/
def pageAt (os : Os) (held : ProcRef × Addr) : Option (Fin 256 → Byte) :=
  os.places.content (cellsOf os.mram os.activeMswp) held

def cellAt (os : Os) (held : ProcRef × Addr) (cell : Fin 256) : Option Byte :=
  (os.pageAt held).map fun cells => cells cell

/-- The content of a virtual byte. -/
def byteAt (os : Os) (proc : ProcRef) (addr : Addr) : Option Byte :=
  os.cellAt (proc, addr / PAGING_PAGESZ) (accessCell addr)

/-- A machine with so many frames and slots in which paging is in order, for a
caller that the system-call layer resolves to itself. -/
structure WellFormed (frames slots : Nat) (caller : ProcRef) (os : Os) : Prop where
  fewFrames : frames ≤ 8192
  fewSlots : slots ≤ 2 ^ 21
  mramStorage : frames * 256 ≤ os.mram.storageSz
  mswpStorage : slots * 256 ≤ os.activeMswp.storageSz
  mramRandom : os.mram.rdmflg = true
  mswpRandom : os.activeMswp.rdmflg = true
  /-- No frame or slot is held twice, by pages or by a free list. -/
  exclusive : os.places.Exclusive
  inRange : os.places.Within (Place.InRange frames slots)
  unmixed : ∀ proc, (os.mm proc).Unmixed
  fifoExact : ∀ proc, (os.mm proc).FifoExact
  resolves : schedFindProcByPid os (os.pid caller) = some caller

/-- The caller is live. -/
theorem WellFormed.live {frames slots : Nat} {caller : ProcRef} {os : Os}
    (wellFormed : os.WellFormed frames slots caller) : (os.procs caller).isSome = true := by
  have accepted := List.find?_some wellFormed.resolves
  cases found : os.procs caller with
  | none =>
      rw [found] at accepted
      cases accepted
  | some pcb => rfl

/-- A located frame lies in the RAM. -/
theorem WellFormed.hasFrame {frames slots : Nat} {caller : ProcRef} {os : Os}
    (wellFormed : os.WellFormed frames slots caller) {held : ProcRef × Addr} {fpn : Addr}
    (located : os.places.loc held = some (.frame fpn)) :
    fpn.toNat < frames ∧ os.mram.HasPage fpn := by
  have inside : fpn.toNat < frames := wellFormed.inRange _ (Or.inr ⟨held, located⟩)
  have few := wellFormed.fewFrames
  refine ⟨inside, by omega, ?_⟩
  exact (Nat.mul_le_mul_right 256 (Nat.succ_le_of_lt inside)).trans wellFormed.mramStorage

/-- A slot that is located or free lies in the swap. -/
theorem WellFormed.hasSlot {frames slots : Nat} {caller : ProcRef} {os : Os}
    (wellFormed : os.WellFormed frames slots caller) {swpoff : Addr}
    (accounted : os.places.Accounted (.slot swpoff)) :
    swpoff.toNat < slots ∧ os.activeMswp.HasPage swpoff := by
  have inside : swpoff.toNat < slots := wellFormed.inRange _ accounted
  have few := wellFormed.fewSlots
  refine ⟨inside, by omega, ?_⟩
  exact (Nat.mul_le_mul_right 256 (Nat.succ_le_of_lt inside)).trans wellFormed.mswpStorage

end Os

/-! ## The system call of a page out -/

theorem syscall_swap {os : Os} {pid : Nat} {caller : ProcRef}
    (resolves : schedFindProcByPid os pid = some caller) (vicfpn swpfpn : Addr) :
    syscall os pid 17 ⟨ofInt SYSMEM_SWP_OP, vicfpn, swpfpn⟩ =
      (0, ⟨ofInt SYSMEM_SWP_OP, vicfpn, swpfpn⟩, (mmSwapPage os vicfpn swpfpn).2) := by
  have operation : asInt (ofInt 3) = 3 := by decide
  rw [syscall, if_neg (by decide), if_pos rfl, sysMemmap, resolves]
  simp [operation, SYSMEM_MAP_OP, SYSMEM_INC_OP, SYSMEM_SWP_OP, mmSwapPage]

/-! ## Bringing a page in -/

/-- The state after a page was brought in, with both copies. -/
structure SwappedIn (os : Os) (caller : ProcRef) (pgn vicpgn vicfpn swpfpn tgtSwpoff : Addr)
    (spare : List Addr) (done : Os) : Prop where
  own : Exchanged (os.mm caller) pgn vicpgn vicfpn swpfpn (done.mm caller)
  others : ∀ proc, proc ≠ caller → done.mm proc = os.mm proc
  fault : done.fault = os.fault
  devices : ∃ ramStorage swapStorage,
    done.mram = { os.mram with storage := ramStorage } ∧
      done.activeMswp =
        { os.activeMswp with storage := swapStorage, freeFpList := tgtSwpoff :: spare } ∧
      (∀ offset < 256,
        swapStorage (pageCell swpfpn offset) = os.mram.storage (pageCell vicfpn offset)) ∧
      (∀ addr, (∀ offset < 256, addr ≠ pageCell swpfpn offset) →
        swapStorage addr = os.activeMswp.storage addr) ∧
      (∀ offset < 256,
        ramStorage (pageCell vicfpn offset) = swapStorage (pageCell tgtSwpoff offset)) ∧
      ∀ addr, (∀ offset < 256, addr ≠ pageCell vicfpn offset) →
        ramStorage addr = os.mram.storage addr

/-- The branch of `pg_getpage` that swaps. -/
theorem pgGetpage_swapIn {os : Os} {frames slots : Nat} {caller : ProcRef}
    (wellFormed : os.WellFormed frames slots caller) {pgn vicpgn swpfpn : Addr}
    {rest spare : List Addr} (number : ofInt (asInt pgn) = pgn)
    (absent : pagingPagePresent (pteGetEntry (os.mm caller) pgn) = false)
    (swapped : pagingPageSwapped (pteGetEntry (os.mm caller) pgn) = true)
    (listed : (os.mm caller).fifoPgn = rest ++ [vicpgn])
    (picked : findVictimPage (os.mm caller) =
      some (vicpgn, { os.mm caller with fifoPgn := rest }))
    (victim : pagingPagePresent (pteGetEntry (os.mm caller) vicpgn) = true)
    (free : os.activeMswp.freeFpList = swpfpn :: spare) :
    ∃ done, pgGetpage os (asInt pgn) caller =
        (0, pagingFpn (pteGetEntry (os.mm caller) vicpgn), done) ∧
      SwappedIn os caller pgn vicpgn (pagingFpn (pteGetEntry (os.mm caller) vicpgn)) swpfpn
        (pagingSwp (pteGetEntry (os.mm caller) pgn)) spare done := by
  set vicfpn := pagingFpn (pteGetEntry (os.mm caller) vicpgn) with vicfpnDef
  set tgtSwpoff := pagingSwp (pteGetEntry (os.mm caller) pgn) with tgtSwpoffDef
  have live := wellFormed.live
  have victimAt : os.places.loc (caller, vicpgn) = some (.frame vicfpn) :=
    MmStruct.placeOf_present victim
  have targetAt : os.places.loc (caller, pgn) = some (.slot tgtSwpoff) :=
    MmStruct.placeOf_swapped absent swapped
  have frame := wellFormed.hasFrame victimAt
  have source := wellFormed.hasSlot (Or.inr ⟨_, targetAt⟩)
  have reservedSlot : os.places.Accounted (.slot swpfpn) := by
    refine Or.inl (List.mem_append_right _ (List.mem_map_of_mem ?_))
    rw [free]
    exact List.mem_cons_self
  have target := wellFormed.hasSlot reservedSlot
  -- the first copy saves the victim
  let taken : MemphyStruct := { os.activeMswp with freeFpList := spare }
  have saving : PageCopied os.mram vicfpn taken swpfpn 256 (swapCpPage os.mram vicfpn taken swpfpn) :=
    swapCpPage_copied wellFormed.mramRandom wellFormed.mswpRandom frame.2
      ⟨target.2.small, target.2.stored⟩
  rcases saving.targetShape with ⟨swapStorage, saved⟩
  -- the second copy fills its frame
  let filled : MemphyStruct := { taken with storage := swapStorage }
  have filling : PageCopied filled tgtSwpoff os.mram vicfpn 256
      (swapCpPage filled tgtSwpoff os.mram vicfpn) :=
    swapCpPage_copied wellFormed.mswpRandom wellFormed.mramRandom
      ⟨source.2.small, source.2.stored⟩ frame.2
  rcases filling.targetShape with ⟨ramStorage, loaded⟩
  let unlinked : MmStruct := { os.mm caller with fifoPgn := rest }
  let reserved : Os := (os.setMm caller unlinked).setActiveMswp taken
  have own : reserved.mm caller = unlinked := Os.mm_setMm_self live unlinked
  have resolves : schedFindProcByPid reserved (reserved.pid caller) = some caller := by
    have frame := frame_setMm_self os caller unlinked
    exact (frame.schedFindProcByPid _).trans
      ((congrArg _ (frame.pid caller)).trans wellFormed.resolves)
  have evicted : (mmSwapPage reserved vicfpn swpfpn).2 =
      (reserved.setMram os.mram).setActiveMswp filled := by
    have devices : swapCpPage os.mram vicfpn taken swpfpn = (os.mram, filled) :=
      Prod.ext saving.sourceSame saved
    rw [mmSwapPage]
    have sameRam : reserved.mram = os.mram := rfl
    have sameSwap : reserved.activeMswp = taken := rfl
    rw [sameRam, sameSwap, devices]
  have fillDevices : swapCpPage filled tgtSwpoff os.mram vicfpn =
      (filled, { os.mram with storage := ramStorage }) :=
    Prod.ext filling.sourceSame loaded
  let mapped : MmStruct := enlistPgnNode (pteSetFpn (pteSetSwap unlinked vicpgn os.activeMswpId
    swpfpn).2 pgn vicfpn).2 pgn
  let done : Os := ((reserved.setMram { os.mram with storage := ramStorage }).setActiveMswp
    (memphyPutFreefp filled tgtSwpoff)).setMm caller mapped
  have outcome : pgGetpage os (asInt pgn) caller = (0, vicfpn, done) := by
    have getting : memphyGetFreefp (os.setMm caller unlinked).activeMswp =
        some (swpfpn, taken) := by
      have head : (os.setMm caller unlinked).activeMswp.freeFpList = swpfpn :: spare := free
      rw [memphyGetFreefp, head]
      rfl
    have frameNumber : pagingFpn (pteGetEntry (reserved.mm caller) vicpgn) = vicfpn := by
      rw [own]
      rfl
    unfold pgGetpage
    dsimp only
    rw [number, absent, swapped, if_neg (by decide), if_neg (by decide), picked]
    dsimp only
    rw [getting]
    dsimp only
    rw [frameNumber, syscall_swap resolves]
    dsimp only
    rw [if_neg (by decide), evicted]
    have sameSwap : ((reserved.setMram os.mram).setActiveMswp filled).activeMswp = filled := rfl
    have sameRam : ((reserved.setMram os.mram).setActiveMswp filled).mram = os.mram := rfl
    have sameMm : ((reserved.setMram os.mram).setActiveMswp filled).mm caller = unlinked := own
    have sameSlot : pagingSwp (pteGetEntry (os.mm caller) pgn) = tgtSwpoff := rfl
    rw [sameSwap, sameRam, sameMm, sameSlot, fillDevices]
    rfl
  have stillLive : (reserved.procs caller).isSome = true := by
    have frame := frame_setMm_self os caller unlinked
    exact (isSome_of_control (frame.control caller)).trans live
  refine ⟨done, outcome, ?_, ?_, rfl, ?_⟩
  · have mm : done.mm caller = mapped := Os.mm_setMm_self stillLive mapped
    have small := frame.1
    have few := wellFormed.fewFrames
    have fewer := wellFormed.fewSlots
    have smallSlot := target.1
    rw [mm]
    exact exchanged_of_swapIn os.activeMswpId (wellFormed.fifoExact caller)
      (wellFormed.unmixed caller) listed victim absent swapped (by omega) (by omega)
  · intro proc different
    exact (Os.mm_setMm_of_ne different _).trans (Os.mm_setMm_of_ne different _)
  · refine ⟨ramStorage, swapStorage, rfl, rfl, ?_, ?_, ?_, ?_⟩
    · intro offset inside
      have copied := saving.copied offset inside
      rw [saved] at copied
      exact copied
    · intro addr outside
      have kept := saving.kept addr outside
      rw [saved] at kept
      exact kept
    · intro offset inside
      have copied := filling.copied offset inside
      rw [loaded] at copied
      exact copied
    · intro addr outside
      have kept := filling.kept addr outside
      rw [loaded] at kept
      exact kept

/-! ## The two relocations -/

/-- The ledger between the two copies: the victim has moved to the reserved
slot and its frame is in hand. -/
private def evictedPlaces (os : Os) (caller : ProcRef) (vicpgn vicfpn swpfpn : Addr)
    (spare : List Addr) : Ledger (ProcRef × Addr) Place :=
  ⟨.frame vicfpn :: (os.mram.freeFpList.map .frame ++ spare.map .slot),
    Function.update os.places.loc (caller, vicpgn) (some (.slot swpfpn))⟩

private theorem evict_relocation {os : Os} {caller : ProcRef} {vicpgn vicfpn swpfpn : Addr}
    {spare : List Addr} (victimAt : os.places.loc (caller, vicpgn) = some (.frame vicfpn))
    (free : os.activeMswp.freeFpList = swpfpn :: spare) :
    Ledger.Relocation os.places (evictedPlaces os caller vicpgn vicfpn swpfpn spare)
      (caller, vicpgn) (.frame vicfpn) (.slot swpfpn) := by
  refine ⟨victimAt, ⟨os.mram.freeFpList.map .frame ++ spare.map .slot, ?_, List.Perm.refl _⟩, rfl⟩
  have lists : os.places.spare =
      os.mram.freeFpList.map .frame ++ Place.slot swpfpn :: spare.map .slot := by
    rw [Os.places, Ledger.ofTables, free]
    rfl
  rw [lists]
  exact List.perm_middle

private theorem load_relocation {os done : Os} {caller : ProcRef}
    {pgn vicpgn vicfpn swpfpn tgtSwpoff : Addr} {spare : List Addr}
    (swapped : SwappedIn os caller pgn vicpgn vicfpn swpfpn tgtSwpoff spare done)
    (different : pgn ≠ vicpgn) (targetAt : os.places.loc (caller, pgn) = some (.slot tgtSwpoff)) :
    Ledger.Relocation (evictedPlaces os caller vicpgn vicfpn swpfpn spare) done.places
      (caller, pgn) (.slot tgtSwpoff) (.frame vicfpn) := by
  have pages : ((caller, pgn) : ProcRef × Addr) ≠ (caller, vicpgn) :=
    fun same => different (congrArg Prod.snd same)
  refine ⟨(Function.update_of_ne pages _ _).trans targetAt,
    ⟨os.mram.freeFpList.map .frame ++ spare.map .slot, List.Perm.refl _, ?_⟩, ?_⟩
  · rcases swapped.devices with ⟨ramStorage, swapStorage, mram, mswp, _⟩
    have lists : done.places.spare =
        os.mram.freeFpList.map .frame ++ Place.slot tgtSwpoff :: spare.map .slot := by
      rw [Os.places, Ledger.ofTables, mram, mswp]
      rfl
    rw [lists]
    exact List.perm_middle
  · funext held
    rcases held with ⟨proc, page⟩
    have before : os.places.loc (proc, page) = (os.mm proc).placeOf page := rfl
    have after : done.places.loc (proc, page) = (done.mm proc).placeOf page := rfl
    rw [after]
    by_cases own : proc = caller
    · subst own
      rw [swapped.own.placeOf]
      by_cases wanted : page = pgn
      · rw [wanted, Function.update_self, Function.update_self]
      · have away : ((proc, page) : ProcRef × Addr) ≠ (proc, pgn) :=
          fun same => wanted (congrArg Prod.snd same)
        rw [Function.update_of_ne wanted, Function.update_of_ne away, evictedPlaces]
        dsimp only
        by_cases isVictim : page = vicpgn
        · rw [isVictim, Function.update_self, Function.update_self]
        · have apart : ((proc, page) : ProcRef × Addr) ≠ (proc, vicpgn) :=
            fun same => isVictim (congrArg Prod.snd same)
          rw [Function.update_of_ne isVictim, Function.update_of_ne apart, before]
    · have away : ∀ other, ((proc, page) : ProcRef × Addr) ≠ (caller, other) :=
        fun other same => own (congrArg Prod.fst same)
      rw [Function.update_of_ne (away pgn), evictedPlaces]
      dsimp only
      rw [Function.update_of_ne (away vicpgn), swapped.others proc own, before]

/-- Bringing a page in keeps the machine in order, and every page keeps its
cells. -/
theorem SwappedIn.transparent {os done : Os} {frames slots : Nat} {caller : ProcRef}
    {pgn vicpgn vicfpn swpfpn tgtSwpoff : Addr} {spare : List Addr}
    (swapped : SwappedIn os caller pgn vicpgn vicfpn swpfpn tgtSwpoff spare done)
    (wellFormed : os.WellFormed frames slots caller) (different : pgn ≠ vicpgn)
    (victimAt : os.places.loc (caller, vicpgn) = some (.frame vicfpn))
    (targetAt : os.places.loc (caller, pgn) = some (.slot tgtSwpoff))
    (free : os.activeMswp.freeFpList = swpfpn :: spare) :
    done.places.Exclusive ∧ done.places.Within (Place.InRange frames slots) ∧
      ∀ held, done.pageAt held = os.pageAt held := by
  have evict := evict_relocation victimAt free
  have load := load_relocation swapped different targetAt
  generalize middleDef : evictedPlaces os caller vicpgn vicfpn swpfpn spare = middle at evict load
  have middleExclusive := wellFormed.exclusive.drift evict.moves.drift
  have middleWithin := wellFormed.inRange.drift evict.moves.drift
  have few := wellFormed.fewFrames
  have fewer := wellFormed.fewSlots
  have inHand : Place.frame vicfpn ∈ middle.spare := by
    rw [← middleDef]
    exact List.mem_cons_self
  have reserved : Place.slot swpfpn ∈ os.places.spare := by
    refine List.mem_append_right _ (List.mem_map_of_mem ?_)
    rw [free]
    exact List.mem_cons_self
  have frameSmall : vicfpn.toNat < frames :=
    wellFormed.inRange (.frame vicfpn) (Or.inr ⟨_, victimAt⟩)
  have slotSmall : swpfpn.toNat < slots := wellFormed.inRange (.slot swpfpn) (Or.inl reserved)
  rcases swapped.devices with
    ⟨ramStorage, swapStorage, mram, mswp, saved, savedRest, loaded, loadedRest⟩
  refine ⟨middleExclusive.drift load.moves.drift, middleWithin.drift load.moves.drift, ?_⟩
  intro held
  have first := evict.content (cellsOf os.mram os.activeMswp)
    (cellsOf os.mram done.activeMswp) (by
      funext offset
      rw [cellsOf, mswp]
      exact saved offset offset.isLt) (by
      intro other place _ located
      cases place with
      | frame fpn => rfl
      | slot swpoff =>
          funext offset
          have small : swpoff.toNat < slots :=
            wellFormed.inRange (.slot swpoff) (Or.inr ⟨other, located⟩)
          rw [cellsOf, mswp]
          refine savedRest _ fun cell inside same => ?_
          have equal := (pageCell_inj (by omega) (by omega) offset.isLt inside same).1
          rw [equal] at located
          exact wellFormed.exclusive.apart located reserved) held
  have second := load.content (cellsOf os.mram done.activeMswp)
    (cellsOf done.mram done.activeMswp) (by
      funext offset
      rw [cellsOf, mram, cellsOf, mswp]
      exact loaded offset offset.isLt) (by
      intro other place _ located
      cases place with
      | slot swpoff => rfl
      | frame fpn =>
          funext offset
          have small : fpn.toNat < frames :=
            middleWithin (.frame fpn) (Or.inr ⟨other, located⟩)
          rw [cellsOf, mram]
          refine loadedRest _ fun cell inside same => ?_
          have equal := (pageCell_inj (by omega) (by omega) offset.isLt inside same).1
          rw [equal] at located
          exact middleExclusive.apart located inHand) held
  exact second.trans first

/-! ## `pg_getpage` -/

/-- What a call does not touch stays in order; the rest is to be shown. -/
theorem Os.WellFormed.frame {os after : Os} {frames slots : Nat} {caller : ProcRef}
    (wellFormed : os.WellFormed frames slots caller) (frame : MemoryFrame caller os after)
    (exclusive : after.places.Exclusive) (inRange : after.places.Within (Place.InRange frames slots))
    (unmixed : ∀ proc, (after.mm proc).Unmixed) (fifoExact : ∀ proc, (after.mm proc).FifoExact) :
    after.WellFormed frames slots caller where
  fewFrames := wellFormed.fewFrames
  fewSlots := wellFormed.fewSlots
  mramStorage := by
    rw [frame.mram.storageSz]
    exact wellFormed.mramStorage
  mswpStorage := by
    rw [frame.activeMswp.storageSz]
    exact wellFormed.mswpStorage
  mramRandom := frame.mram.rdmflg.trans wellFormed.mramRandom
  mswpRandom := frame.activeMswp.rdmflg.trans wellFormed.mswpRandom
  exclusive := exclusive
  inRange := inRange
  unmixed := unmixed
  fifoExact := fifoExact
  resolves := by
    rw [frame.schedFindProcByPid, frame.pid]
    exact wellFormed.resolves

/-- The result of looking a page up, whichever way it goes. -/
structure PagedIn (frames slots : Nat) (os : Os) (caller : ProcRef) (pgn : Addr)
    (outcome : Int × Addr × Os) : Prop where
  wellFormed : outcome.2.2.WellFormed frames slots caller
  pageAt : ∀ held, outcome.2.2.pageAt held = os.pageAt held
  located : outcome.1 = 0 → outcome.2.2.places.loc (caller, pgn) = some (.frame outcome.2.1)
  defined : os.Defined → outcome.2.2.Defined

/-- Nothing happened. -/
private theorem pagedIn_unchanged {os : Os} {frames slots : Nat} {caller : ProcRef}
    (wellFormed : os.WellFormed frames slots caller) {pgn : Addr} {ret : Int} {fpn : Addr}
    (located : ret = 0 → os.places.loc (caller, pgn) = some (.frame fpn)) :
    PagedIn frames slots os caller pgn (ret, fpn, os) :=
  ⟨wellFormed, fun _ => rfl, located, fun defined => defined⟩

/-- No slot is free: the victim goes back to the paging list. -/
private theorem pagedIn_refused {os : Os} {frames slots : Nat} {caller : ProcRef}
    (wellFormed : os.WellFormed frames slots caller) {pgn vicpgn : Addr} {rest : List Addr}
    (number : ofInt (asInt pgn) = pgn)
    (absent : pagingPagePresent (pteGetEntry (os.mm caller) pgn) = false)
    (swapped : pagingPageSwapped (pteGetEntry (os.mm caller) pgn) = true)
    (listed : (os.mm caller).fifoPgn = rest ++ [vicpgn])
    (picked : findVictimPage (os.mm caller) =
      some (vicpgn, { os.mm caller with fifoPgn := rest }))
    (full : os.activeMswp.freeFpList = []) :
    PagedIn frames slots os caller pgn (pgGetpage os (asInt pgn) caller) := by
  let relisted : MmStruct := { os.mm caller with fifoPgn := vicpgn :: rest }
  let unlinked : MmStruct := { os.mm caller with fifoPgn := rest }
  have outcome : pgGetpage os (asInt pgn) caller = (-1, 0, os.setMm caller relisted) := by
    have getting : memphyGetFreefp (os.setMm caller unlinked).activeMswp = none := by
      have empty : (os.setMm caller unlinked).activeMswp.freeFpList = [] := full
      rw [memphyGetFreefp, empty]
    unfold pgGetpage
    dsimp only
    rw [number, absent, swapped, if_neg (by decide), if_neg (by decide), picked]
    dsimp only
    rw [getting]
    dsimp only
    rw [Os.mm_setMm_self wellFormed.live, Os.setMm_setMm]
    rfl
  have mm : ∀ proc, ((os.setMm caller relisted).mm proc).placeOf = (os.mm proc).placeOf ∧
      (((os.setMm caller relisted).mm proc).Unmixed) ∧
      ((os.setMm caller relisted).mm proc).FifoExact := by
    intro proc
    by_cases own : proc = caller
    · subst own
      rw [Os.mm_setMm_self wellFormed.live]
      refine ⟨rfl, wellFormed.unmixed proc, ?_⟩
      have exact := (MmStruct.fifoExact_iff _).mp (wellFormed.fifoExact proc)
      rw [listed] at exact
      have order : (vicpgn :: rest).Perm (rest ++ [vicpgn]) := (List.perm_append_singleton _ _).symm
      rw [MmStruct.fifoExact_iff]
      exact ⟨order.nodup_iff.mpr exact.1, fun page => order.mem_iff.trans (exact.2 page)⟩
    · rw [Os.mm_setMm_of_ne own]
      exact ⟨rfl, wellFormed.unmixed proc, wellFormed.fifoExact proc⟩
  have places : (os.setMm caller relisted).places = os.places := by
    have tables : (fun proc => ((os.setMm caller relisted).mm proc).placeOf) =
        fun proc => (os.mm proc).placeOf := funext fun proc => (mm proc).1
    rw [Os.places, tables]
    rfl
  rw [outcome]
  refine ⟨wellFormed.frame (frame_setMm (Or.inl rfl) relisted) ?_ ?_ (fun proc => (mm proc).2.1)
    fun proc => (mm proc).2.2, fun held => ?_, fun impossible => ?_, fun defined => defined⟩
  · rw [places]
    exact wellFormed.exclusive
  · rw [places]
    exact wellFormed.inRange
  · rw [Os.pageAt, places]
    rfl
  · cases impossible

/-- Looking a page up brings it in where possible, keeps the machine in order
and leaves the cells of every page alone. -/
theorem pgGetpage_pagedIn {os : Os} {frames slots : Nat} {caller : ProcRef}
    (wellFormed : os.WellFormed frames slots caller) {pgn : Addr}
    (number : ofInt (asInt pgn) = pgn) :
    PagedIn frames slots os caller pgn (pgGetpage os (asInt pgn) caller) := by
  cases present : pagingPagePresent (pteGetEntry (os.mm caller) pgn) with
  | true =>
      have outcome : pgGetpage os (asInt pgn) caller =
          (0, pagingFpn (pteGetEntry (os.mm caller) pgn), os) := by
        unfold pgGetpage
        rw [number]
        exact if_pos present
      rw [outcome]
      exact pagedIn_unchanged wellFormed fun _ => MmStruct.placeOf_present present
  | false =>
      cases swapped : pagingPageSwapped (pteGetEntry (os.mm caller) pgn) with
      | false =>
          have outcome : pgGetpage os (asInt pgn) caller = (-1, 0, os) := by
            unfold pgGetpage
            dsimp only
            rw [number, present, swapped]
            rfl
          rw [outcome]
          exact pagedIn_unchanged wellFormed fun impossible => by cases impossible
      | true =>
          rcases findVictimPage_cases (wellFormed.fifoExact caller) with
            missing | ⟨vicpgn, rest, listed, picked, victim⟩
          · have outcome : pgGetpage os (asInt pgn) caller = (-1, 0, os) := by
              unfold pgGetpage
              dsimp only
              rw [number, present, swapped, missing]
              rfl
            rw [outcome]
            exact pagedIn_unchanged wellFormed fun impossible => by cases impossible
          · cases free : os.activeMswp.freeFpList with
            | nil => exact pagedIn_refused wellFormed number present swapped listed picked free
            | cons swpfpn spare =>
                rcases pgGetpage_swapIn wellFormed number present swapped listed picked victim free
                  with ⟨done, outcome, exchange⟩
                have frame := frame_pgGetpage os (asInt pgn) caller
                rw [outcome] at frame ⊢
                have different : pgn ≠ vicpgn := by
                  rintro rfl
                  rw [present] at victim
                  cases victim
                have kept := exchange.transparent wellFormed different
                  (MmStruct.placeOf_present victim) (MmStruct.placeOf_swapped present swapped) free
                rcases exchange.devices with ⟨_, _, mram, mswp, _⟩
                refine ⟨wellFormed.frame frame kept.1 kept.2.1 ?_ ?_, kept.2.2, fun _ => ?_, ?_⟩
                · intro proc
                  by_cases own : proc = caller
                  · rw [own]
                    exact exchange.own.unmixed
                  · rw [exchange.others proc own]
                    exact wellFormed.unmixed proc
                · intro proc
                  by_cases own : proc = caller
                  · rw [own]
                    exact exchange.own.fifoExact
                  · rw [exchange.others proc own]
                    exact wellFormed.fifoExact proc
                · have loc : done.places.loc (caller, pgn) = (done.mm caller).placeOf pgn := rfl
                  rw [loc, exchange.own.placeOf, Function.update_self]
                · intro defined
                  refine ⟨exchange.fault.trans defined.1, ?_, ?_⟩
                  · rw [mram]
                    exact defined.2.1
                  · rw [mswp]
                    exact defined.2.2

end Kernel
end Ossim
