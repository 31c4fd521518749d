import Ossim.Kernel.Frames
import Ossim.Kernel.Paging
import Ossim.Kernel.Residency

namespace Ossim
namespace Kernel

open Memory

/-!
# Virtual bytes

`pg_getval` and `pg_setval` look the page up, bring it in if it is on swap, and
then touch one cell of its frame.  The lookup changes no content.  The frames
are held by one page each, so the cell belongs to one virtual byte only.

The order that these results ask for is the one that runs establish.
`ReachableWhere.wellFormed` gives it for every state that is reached without raw
system calls.
-/

/-- Below 4 MB the page number survives the narrowing to `int`. -/
theorem pageNumber_of_low {addr : Addr} (low : addr.toNat < 2 ^ 22) :
    ofInt (asInt (addr / PAGING_PAGESZ)) = addr / PAGING_PAGESZ := by
  have size : PAGING_PAGESZ.toNat = 256 := rfl
  refine ofInt_asInt_of_small _ ?_
  rw [BitVec.toNat_udiv, size]
  omega

/-- The device address is a cell of the frame. -/
theorem device_address (fpn addr : Addr) :
    fpn * PAGING_PAGESZ + addr % PAGING_PAGESZ = pageCell fpn (accessCell addr) := by
  have size : PAGING_PAGESZ.toNat = 256 := rfl
  have offset : addr % PAGING_PAGESZ = BitVec.ofNat 64 (accessCell addr : Fin 256) := by
    apply BitVec.eq_of_toNat_eq
    rw [BitVec.toNat_umod, BitVec.toNat_ofNat, accessCell, size]
    dsimp only
    omega
  rw [pageCell, offset]

/-- Two addresses on one page with one offset are equal. -/
theorem addr_eq_of_page {left right : Addr} (page : left / PAGING_PAGESZ = right / PAGING_PAGESZ)
    (offset : accessCell left = accessCell right) : left = right := by
  have size : PAGING_PAGESZ.toNat = 256 := rfl
  have pages := congrArg BitVec.toNat page
  have offsets := congrArg Fin.val offset
  rw [BitVec.toNat_udiv, BitVec.toNat_udiv, size] at pages
  rw [accessCell, accessCell] at offsets
  dsimp only at offsets
  exact BitVec.eq_of_toNat_eq (by omega)

/-- The page that is looked up is a page number of type `int`. -/
theorem asInt_accessPage (addr : Addr) : asInt (accessPage addr) = asInt (addr / PAGING_PAGESZ) := by
  have value := toNat_ofInt (asInt (addr / PAGING_PAGESZ))
  have bounds := asInt_bounds (addr / PAGING_PAGESZ)
  rw [accessPage, asInt_eq (ofInt _)]
  split <;> omega

/-- Below 4 MB a byte is the cell that the access layer looks up. -/
theorem byteAt_of_low (os : Os) (proc : ProcRef) {addr : Addr} (low : addr.toNat < 2 ^ 22) :
    os.byteAt proc addr = os.cellAt (proc, accessPage addr) (accessCell addr) := by
  rw [accessPage, pageNumber_of_low low]
  rfl

/-- The content of a cell of a resident page. -/
theorem cellAt_of_frame {os : Os} {held : ProcRef × Addr} {fpn : Addr}
    (located : os.places.loc held = some (.frame fpn)) (cell : Fin 256) :
    os.cellAt held cell = some (os.mram.storage (pageCell fpn cell)) := by
  rw [Os.cellAt, Os.pageAt, Ledger.content, located]
  rfl

theorem cellAt_of_pageAt {os after : Os} (pages : ∀ held, after.pageAt held = os.pageAt held)
    (held : ProcRef × Addr) (cell : Fin 256) : after.cellAt held cell = os.cellAt held cell := by
  rw [Os.cellAt, pages, Os.cellAt]

theorem byteAt_of_pageAt {os after : Os} (pages : ∀ held, after.pageAt held = os.pageAt held)
    (proc : ProcRef) (addr : Addr) : after.byteAt proc addr = os.byteAt proc addr :=
  cellAt_of_pageAt pages (proc, addr / PAGING_PAGESZ) (accessCell addr)

/-- The access layer brings in the page that it looks up. -/
theorem pgGetpage_accessPage {os : Os} {frames slots : Nat} {caller : ProcRef}
    (wellFormed : os.WellFormed frames slots caller) (addr : Addr) :
    PagedIn frames slots os caller (accessPage addr)
      (pgGetpage os (asInt (addr / PAGING_PAGESZ)) caller) := by
  have number : ofInt (asInt (accessPage addr)) = accessPage addr := by
    rw [asInt_accessPage, accessPage]
  rw [← asInt_accessPage]
  exact pgGetpage_pagedIn wellFormed number

/-- The system-call layer finds the caller. -/
theorem Os.WellFormed.resolved {os : Os} {frames slots : Nat} {caller : ProcRef}
    (order : os.WellFormed frames slots caller) :
    (schedFindProcByPid os (os.pid caller)).isSome = true := by
  rw [order.resolves]
  rfl

/-- Reading a byte of any page returns its content and changes no content. -/
theorem pgGetval_paged {os : Os} {frames slots : Nat} {caller : ProcRef}
    (wellFormed : os.WellFormed frames slots caller) (addr : Addr) :
    (pgGetval os addr caller).2.2.WellFormed frames slots caller ∧
      (os.Defined → (pgGetval os addr caller).2.2.Defined) ∧
      (∀ held, (pgGetval os addr caller).2.2.pageAt held = os.pageAt held) ∧
      ((pgGetval os addr caller).1 = 0 →
        os.cellAt (caller, accessPage addr) (accessCell addr) =
          some (pgGetval os addr caller).2.1) := by
  have paging := pgGetpage_accessPage wellFormed addr
  unfold pgGetval
  dsimp only
  generalize pgGetpage os (asInt (addr / PAGING_PAGESZ)) caller = outcome at paging ⊢
  rcases outcome with ⟨ret, fpn, paged⟩
  have pages := paging.pageAt
  have kept := paging.defined
  have order := paging.wellFormed
  have located := paging.located
  dsimp only at pages kept order located ⊢
  by_cases failed : ret ≠ 0
  · rw [if_pos failed]
    refine ⟨order, kept, pages, fun impossible => ?_⟩
    cases impossible
  · rw [if_neg failed]
    have here := located (not_not.mp failed)
    have inRam := order.hasFrame here
    rw [device_address, syscall_ioRead _ _ _ order.mramRandom, if_pos order.resolved]
    dsimp only
    rw [if_neg (by decide), touch_of_inside (inRam.2.cell_lt (Fin.is_lt _)),
      setWidth_signExtend_byte]
    refine ⟨order, kept, pages, fun _ => ?_⟩
    rw [← cellAt_of_pageAt pages]
    exact cellAt_of_frame here (accessCell addr)

theorem pgGetval_transparent {os : Os} {frames slots : Nat} {caller : ProcRef}
    (wellFormed : os.WellFormed frames slots caller) {addr : Addr} (low : addr.toNat < 2 ^ 22) :
    (pgGetval os addr caller).2.2.WellFormed frames slots caller ∧
      (os.Defined → (pgGetval os addr caller).2.2.Defined) ∧
      (∀ proc other, (pgGetval os addr caller).2.2.byteAt proc other = os.byteAt proc other) ∧
      ((pgGetval os addr caller).1 = 0 →
        os.byteAt caller addr = some (pgGetval os addr caller).2.1) := by
  rcases pgGetval_paged wellFormed addr with ⟨order, kept, pages, value⟩
  rw [byteAt_of_low os caller low]
  exact ⟨order, kept, byteAt_of_pageAt pages, value⟩

/-- Storing to a cell of the RAM keeps the machine in order. -/
theorem Os.WellFormed.store {os : Os} {frames slots : Nat} {caller : ProcRef}
    (order : os.WellFormed frames slots caller) (phyaddr : Addr) (value : Byte) :
    (os.setMram (os.mram.store phyaddr value)).WellFormed frames slots caller :=
  ⟨order.fewFrames, order.fewSlots, order.mramStorage, order.mswpStorage, order.mramRandom,
    order.mswpRandom, order.exclusive, order.inRange, order.unmixed, order.fifoExact,
    order.resolves⟩

/-- The content of a stored cell. -/
theorem cellAt_store_self {os : Os} {held : ProcRef × Addr} {fpn : Addr}
    (located : os.places.loc held = some (.frame fpn)) (cell : Fin 256) (value : Byte) :
    (os.setMram (os.mram.store (pageCell fpn cell) value)).cellAt held cell = some value := by
  have after : (os.setMram (os.mram.store (pageCell fpn cell) value)).places.loc held =
      some (.frame fpn) := located
  rw [cellAt_of_frame after]
  exact congrArg some (Function.update_self _ _ _)

/-- A stored cell belongs to one page only: another cell of the page has another
offset, and another page has another frame. -/
theorem Os.WellFormed.cellAt_store_of_ne {os : Os} {frames slots : Nat} {caller : ProcRef}
    (order : os.WellFormed frames slots caller) {held : ProcRef × Addr} {fpn : Addr}
    (located : os.places.loc held = some (.frame fpn)) (cell : Fin 256) (value : Byte)
    {page : ProcRef × Addr} {other : Fin 256} (different : (page, other) ≠ (held, cell)) :
    (os.setMram (os.mram.store (pageCell fpn cell) value)).cellAt page other =
      os.cellAt page other := by
  have inRam := order.hasFrame located
  set stored := os.mram.store (pageCell fpn cell) value with storedDef
  by_cases samePage : page = held
  · subst samePage
    have after : (os.setMram stored).places.loc page = some (.frame fpn) := located
    have apart : pageCell fpn other ≠ pageCell fpn cell := by
      intro same
      have equal := (pageCell_inj inRam.2.small inRam.2.small other.isLt cell.isLt same).2
      exact different (congrArg (Prod.mk page) (Fin.ext equal))
    rw [cellAt_of_frame after, cellAt_of_frame located]
    exact congrArg some (Function.update_of_ne apart _ _)
  · have cells := order.exclusive.content_write (cellsOf os.mram os.activeMswp)
      (cellsOf stored os.activeMswp) located samePage (by
        intro place found apart
        cases place with
        | slot swpoff => rfl
        | frame elsewhere =>
            funext offset
            have small := (order.hasFrame found).2.small
            have away : pageCell elsewhere offset ≠ pageCell fpn cell := by
              intro same
              have equal := pageCell_inj small inRam.2.small offset.isLt cell.isLt same
              exact apart (by rw [equal.1])
            rw [cellsOf, cellsOf, storedDef, MemphyStruct.store]
            dsimp only
            rw [Function.update_of_ne away])
    have same : (os.setMram stored).pageAt page = os.pageAt page := cells
    rw [Os.cellAt, same, Os.cellAt]

/-- Writing a byte of any page gives its cell the value and changes the content
of no other cell.  A write that fails changes none. -/
theorem pgSetval_paged {os : Os} {frames slots : Nat} {caller : ProcRef}
    (wellFormed : os.WellFormed frames slots caller) (addr : Addr) (value : Byte) :
    (pgSetval os addr value caller).2.WellFormed frames slots caller ∧
      (os.Defined → (pgSetval os addr value caller).2.Defined) ∧
      (∀ held cell, (held, cell) ≠ ((caller, accessPage addr), accessCell addr) ∨
          (pgSetval os addr value caller).1 ≠ 0 →
        (pgSetval os addr value caller).2.cellAt held cell = os.cellAt held cell) ∧
      ((pgSetval os addr value caller).1 = 0 →
        (pgSetval os addr value caller).2.cellAt (caller, accessPage addr) (accessCell addr) =
          some value) := by
  have paging := pgGetpage_accessPage wellFormed addr
  unfold pgSetval
  dsimp only
  generalize pgGetpage os (asInt (addr / PAGING_PAGESZ)) caller = outcome at paging ⊢
  rcases outcome with ⟨ret, fpn, paged⟩
  have pages := paging.pageAt
  have kept := paging.defined
  have order := paging.wellFormed
  have located := paging.located
  dsimp only at pages kept order located ⊢
  by_cases failed : ret ≠ 0
  · rw [if_pos failed]
    refine ⟨order, kept, fun held cell _ => cellAt_of_pageAt pages held cell, fun impossible => ?_⟩
    cases impossible
  · rw [if_neg failed]
    have here := located (not_not.mp failed)
    have inside := (order.hasFrame here).2.cell_lt (Fin.is_lt (accessCell addr))
    rw [device_address, syscall_ioWrite _ _ _ _ order.mramRandom, if_pos order.resolved]
    dsimp only
    rw [if_neg (by decide), setWidth_signExtend_byte]
    refine ⟨order.store _ value, fun defined => ?_, fun held cell missed => ?_, fun _ => ?_⟩
    · rw [store_of_inside inside]
      exact kept defined
    · have different := missed.resolve_right (not_not.mpr rfl)
      rw [← cellAt_of_pageAt pages held cell]
      exact order.cellAt_store_of_ne here (accessCell addr) value different
    · exact cellAt_store_self here (accessCell addr) value

/-- Writing a byte of any page gives it the value and changes the content of no
other byte. -/
theorem pgSetval_transparent {os : Os} {frames slots : Nat} {caller : ProcRef}
    (wellFormed : os.WellFormed frames slots caller) {addr : Addr} (low : addr.toNat < 2 ^ 22)
    (value : Byte) :
    (pgSetval os addr value caller).2.WellFormed frames slots caller ∧
      (os.Defined → (pgSetval os addr value caller).2.Defined) ∧
      ((pgSetval os addr value caller).1 = 0 →
        (pgSetval os addr value caller).2.byteAt caller addr = some value ∧
          ∀ proc other, (proc, other) ≠ (caller, addr) →
            (pgSetval os addr value caller).2.byteAt proc other = os.byteAt proc other) := by
  rcases pgSetval_paged wellFormed addr value with ⟨order, kept, others, written⟩
  refine ⟨order, kept, fun done => ⟨?_, fun proc other different => ?_⟩⟩
  · rw [byteAt_of_low _ caller low]
    exact written done
  · refine others (proc, other / PAGING_PAGESZ) (accessCell other)
      (Or.inl fun same => different ?_)
    have page := congrArg (fun pair => pair.1.2) same
    have owner : proc = caller := congrArg (fun pair => pair.1.1) same
    dsimp only at page
    rw [accessPage, pageNumber_of_low low] at page
    rw [owner, addr_eq_of_page page (congrArg Prod.snd same)]

/-! ## Reachable states are in order -/

/-- The swap keeps its size and its free slots. -/
theorem kernelStep_swap {os after : Os} (sound : os.Sound) {action : KernelAction}
    (taken : kernelStep os action = some after) :
    after.activeMswp.storageSz = os.activeMswp.storageSz ∧
      after.activeMswp.freeFpList = os.activeMswp.freeFpList := by
  rcases kernelStep_memory sound taken with
    quiet | ⟨proc, ins, _, _, fetched, same, _, effect⟩ | ⟨proc, _, _, _, same⟩
  · rw [quiet.activeMswp]
    exact ⟨rfl, rfl⟩
  · refine ⟨?_, effect.swapSpare⟩
    rw [same, run_of_fetch fetched]
    exact (frame_dispatch (os.advance proc) proc ins).activeMswp.storageSz
  · rcases freePcb_cases sound proc with ⟨spare, outcome, _⟩
    rw [same, outcome]
    exact ⟨rfl, rfl⟩

/-- The devices of a reached state have the sizes they were opened with, and
the swap is unused. -/
theorem Reachable.devices {memramsz memswpsz : Addr} {os : Os}
    (reached : Reachable memramsz memswpsz os) :
    os.mram.storageSz = memramsz.toNat ∧ os.activeMswp.storageSz = memswpsz.toNat ∧
      os.activeMswp.freeFpList = (List.range (frameCount memswpsz)).map (BitVec.ofNat 64) := by
  rcases reached with ⟨freergHeads, trace, path⟩
  refine (path.invariant (fun os => os.Sound ∧ os.mram.storageSz = memramsz.toNat ∧
    os.activeMswp.storageSz = memswpsz.toNat ∧ os.activeMswp.freeFpList =
      (List.range (frameCount memswpsz)).map (BitVec.ofNat 64)) ?_ ?_).2
  · exact ⟨sound_boot memramsz memswpsz freergHeads, storageSz_initMemphy memramsz 1,
      storageSz_initMemphy memswpsz 1, freeFpList_initMemphy memswpsz 1⟩
  · rintro before action after ⟨sound, ram, swap, free⟩ taken
    have swapKept := kernelStep_swap sound taken
    exact ⟨sound.kernelStep taken, (kernelStep_storageSz sound taken).trans ram,
      swapKept.1.trans swap, swapKept.2.trans free⟩

/-- Without a swapped entry every place is a frame. -/
theorem placeOf_unswapped {mm : MmStruct} (sound : mm.Sound) (pgn : Addr) :
    mm.placeOf pgn = (mm.frameOf pgn).map .frame := by
  unfold MmStruct.placeOf MmStruct.frameOf
  dsimp only
  rw [sound.unswapped]
  cases pagingPagePresent (pteGetEntry mm pgn) <;> rfl

/-- A state reached without raw system calls is in order for every live process
that the system-call layer resolves. -/
theorem ReachableWhere.wellFormed {memramsz memswpsz : Addr} {os : Os} {caller : ProcRef}
    (fits : frameCount memramsz ≤ 8192) (swapFits : frameCount memswpsz ≤ 2 ^ 21)
    (reached : ReachableWhere NoRawSyscall memramsz memswpsz os)
    (live : (os.procs caller).isSome = true) (resolves : os.Resolves caller) :
    os.WellFormed (frameCount memramsz) (frameCount memswpsz) caller := by
  have sound := reached.reachable.sound
  rcases reached.partitioned fits with ⟨partitioned, fifo⟩
  rcases reached.reachable.devices with ⟨ramSize, swapSize, free⟩
  have exclusive := partitioned.exclusive
  have located : ∀ {proc pgn place}, os.places.loc (proc, pgn) = some place →
      ∃ fpn, os.ledger.loc (proc, pgn) = some fpn ∧ place = .frame fpn := by
    intro proc pgn place found
    have mapped : (os.mm proc).placeOf pgn = some place := found
    rw [placeOf_unswapped (sound.memory proc), Option.map_eq_some_iff] at mapped
    rcases mapped with ⟨fpn, frame, same⟩
    exact ⟨fpn, frame, same.symm⟩
  have frames : ∀ fpn, Place.frame fpn ∈ os.places.spare ↔ fpn ∈ os.mram.freeFpList := by
    intro fpn
    rw [Os.places, Ledger.ofTables]
    simp
  have slots : ∀ swpoff, Place.slot swpoff ∈ os.places.spare ↔
      swpoff ∈ os.activeMswp.freeFpList := by
    intro swpoff
    rw [Os.places, Ledger.ofTables]
    simp
  refine ⟨fits, swapFits, ?_, ?_, sound.mramRandom, sound.mswpRandom, ⟨?_, ?_, ?_⟩, ?_, ?_, fifo,
    ?_⟩
  · have stored := frameCount_storage memramsz
    rw [ramSize]
    exact stored
  · have stored := frameCount_storage memswpsz
    rw [swapSize]
    exact stored
  · have ramNodup : os.mram.freeFpList.Nodup := exclusive.spareNodup
    have swapNodup : os.activeMswp.freeFpList.Nodup := by
      rw [free]
      exact nodup_frames _ (by omega)
    refine List.nodup_append.mpr ⟨ramNodup.map fun _ _ => Place.frame.inj,
      swapNodup.map fun _ _ => Place.slot.inj, ?_⟩
    intro left leftMember right rightMember same
    rcases List.mem_map.mp leftMember with ⟨fpn, _, isFrame⟩
    rcases List.mem_map.mp rightMember with ⟨swpoff, _, isSlot⟩
    rw [← isFrame, ← isSlot] at same
    cases same
  · intro left right place leftFound rightFound
    rcases located leftFound with ⟨fpn, leftFrame, same⟩
    rcases located rightFound with ⟨other, rightFrame, again⟩
    cases same.symm.trans again
    exact exclusive.injective leftFrame rightFrame
  · intro held place found member
    rcases located found with ⟨fpn, frame, same⟩
    rw [same, frames] at member
    exact exclusive.apart frame member
  · rintro place (member | ⟨held, found⟩)
    · cases place with
      | frame fpn => exact (partitioned.covers fpn).mp (Or.inl ((frames fpn).mp member))
      | slot swpoff =>
          rw [slots, free, mem_frames _ (by omega)] at member
          exact member
    · rcases located found with ⟨fpn, frame, same⟩
      rw [same]
      exact (partitioned.covers fpn).mp (Or.inr ⟨held, frame⟩)
  · intro proc pgn both
    rw [(sound.memory proc).unswapped pgn] at both
    cases both.2
  · rcases Option.isSome_iff_exists.mp resolves with ⟨found, lookup⟩
    rw [lookup, sound.resolve live lookup]

/-! ## Transparency -/

/-- Demand paging is transparent: on a machine in order, reading and writing a
byte below 4 MB keep the order, a successful write changes the content of that
byte only, and a successful read returns the content and changes none,
whichever pages had to be swapped. -/
theorem paging_transparent (frames slots : Nat) (os : Os) (caller : ProcRef) (addr : Addr)
    (wellFormed : os.WellFormed frames slots caller) (low : addr.toNat < 2 ^ 22) :
    ((pgGetval os addr caller).2.2.WellFormed frames slots caller ∧
        ((pgGetval os addr caller).1 = 0 →
          os.byteAt caller addr = some (pgGetval os addr caller).2.1 ∧
            ∀ proc other,
              (pgGetval os addr caller).2.2.byteAt proc other = os.byteAt proc other)) ∧
      ∀ value, (pgSetval os addr value caller).2.WellFormed frames slots caller ∧
        ((pgSetval os addr value caller).1 = 0 →
          (pgSetval os addr value caller).2.byteAt caller addr = some value ∧
            ∀ proc other, (proc, other) ≠ (caller, addr) →
              (pgSetval os addr value caller).2.byteAt proc other = os.byteAt proc other) := by
  have reading := pgGetval_transparent wellFormed low
  refine ⟨⟨reading.1, fun done => ⟨reading.2.2.2 done, reading.2.2.1⟩⟩, fun value => ?_⟩
  have writing := pgSetval_transparent wellFormed low value
  exact ⟨writing.1, writing.2.2⟩

/-- A byte of the second page of a process that has allocated two pages. -/
theorem paging_transparent_second_page :
    (pgSetval ((Transition.exec kernelStep NoRawSyscall (boot 1024 1024 nullHeads)
        [.load [⟨.ALLOC, 300, 0, 0, 0⟩] 0, .run 1]).get (by decide +kernel)) 258 7 1).2.byteAt
          1 258 = some 7 :=
  (((paging_transparent (frameCount 1024) (frameCount 1024) _ 1 258
    (ReachableWhere.wellFormed (by decide) (by decide)
      ⟨_, _, Transition.runWhere_of_exec (Option.some_get _).symm⟩ (by decide +kernel)
      (by decide +kernel)) (by decide)).2 7).2 (by decide +kernel)).1

end Kernel
end Ossim
