import Ossim.Memory.Growth

namespace Ossim
namespace Memory

/-!
# When growing an area is all or nothing

`inc_vma_limit` is meant to grow the area completely or to leave everything as
it was.  The refusals before the break is moved keep this promise, and so does
a growth that finds its frames and page numbers.  A growth that does not find
them goes wrong: `vm_map_range` answers with an unsigned word, the test for a
negative result never succeeds, and the rollback behind it is never run.

Nothing is assumed here about the memory map and the free list except that the
break is page aligned.
-/

/-! ## What the two outcomes are -/

/-- The request rounded up to whole pages. -/
def pagesNeeded (incSz : Addr) : Nat := (incSz.toNat + 255) / 256

/-- Consecutive page numbers. -/
def pagesFrom (pgnStart : Addr) (first count : Nat) : List Addr :=
  (List.range' first count).map fun pgit => pgnStart + BitVec.ofNat 64 pgit

/-- The pages of the range that a break at `sbrk` grows by. -/
def grownPages (sbrk incSz : Addr) : List Addr :=
  pagesFrom (sbrk / PAGING_PAGESZ) 0 (pagesNeeded incSz)

/-- The area has grown by the request, every page of the range is present, and
the frames behind these pages are exactly what is missing from the free list. -/
structure GrownFully (mm : MmStruct) (mram : MemphyStruct) (idx : Nat) (sbrk incSz : Addr)
    (after : MmStruct) (left : MemphyStruct) : Prop where
  moved : ∃ vma, after.mmap[idx]? = some vma ∧
    vma.sbrk.toNat = sbrk.toNat + pagesNeeded incSz * 256
  present : ∀ pgn ∈ grownPages sbrk incSz, (after.frameOf pgn).isSome = true
  frames : ((grownPages sbrk incSz).filterMap after.frameOf ++ left.freeFpList).Perm
    mram.freeFpList
  listed : after.fifoPgn.Perm (grownPages sbrk incSz ++ mm.fifoPgn)

/-- Areas, entries, paging list and free frames are as before. -/
structure LeftAlone (mm : MmStruct) (mram : MemphyStruct) (after : MmStruct)
    (left : MemphyStruct) : Prop where
  mmap : after.mmap = mm.mmap
  entry : ∀ pgn, pteGetEntry after pgn = pteGetEntry mm pgn
  fifoPgn : after.fifoPgn = mm.fifoPgn
  frames : left.freeFpList.Perm mram.freeFpList

/-- The call reports success and has grown the area, or reports failure and has
changed nothing. -/
def AllOrNothing (mm : MmStruct) (mram : MemphyStruct) (vmaid : Int) (incSz : Addr) : Prop :=
  match incVmaLimit mm mram vmaid incSz with
  | (ret, after, left) =>
      if ret = 0 then
        ∃ idx vma, getVmaByNum mm vmaid = some (idx, vma) ∧
          GrownFully mm mram idx vma.sbrk incSz after left
      else LeftAlone mm mram after left

/-- The checks in front of the growth turn the request down. -/
def TurnedDown (mm : MmStruct) (vmaid : Int) (incSz : Addr) : Prop :=
  match getVmaByNum mm vmaid with
  | none => True
  | some (_, vma) => validateOverlapVmArea mm vmaid vma.sbrk (vma.sbrk + incAmt incSz) < 0

/-- RAM has the frames, the page table has the pages, and the frame numbers to
be taken fit into an entry. -/
structure RoomToGrow (mram : MemphyStruct) (sbrk incSz : Addr) : Prop where
  enough : pagesNeeded incSz ≤ mram.freeFpList.length
  limit : sbrk.toNat / 256 + pagesNeeded incSz ≤ PAGING_MAX_PGN.toNat
  numbered : ∀ fpn ∈ mram.freeFpList.take (pagesNeeded incSz), fpn.toNat < 8192

/-! ## Mapping below the page limit -/

/-- What a frame number becomes in an entry. -/
def frameField (fpn : Addr) : Addr := BitVec.ofNat 64 (fpn.toNat % 8192)

theorem frameField_of_lt {fpn : Addr} (small : fpn.toNat < 8192) : frameField fpn = fpn := by
  apply BitVec.eq_of_toNat_eq
  rw [frameField, Nat.mod_eq_of_lt small, BitVec.toNat_ofNat]
  exact Nat.mod_eq_of_lt fpn.isLt

theorem toNat_frameField_lt (fpn : Addr) : (frameField fpn).toNat < 8192 := by
  rw [frameField, BitVec.toNat_ofNat]
  omega

theorem PteEdited.frameOf_self {mm edited : MmStruct} {pgn fpn word : Addr}
    (edit : PteEdited mm pgn ((fpnWord fpn word).setWidth 32) edited) :
    edited.frameOf pgn = some (frameField fpn) := by
  rw [edit.frameOf, Function.update_self, pagingPagePresent_fpnWord, if_pos rfl]
  apply congrArg some
  apply BitVec.eq_of_toNat_eq
  rw [toNat_pagingFpn_fpnWord, frameField, BitVec.toNat_ofNat]
  omega

theorem pagesFrom_succ (pgnStart : Addr) (first count : Nat) :
    pagesFrom pgnStart first (count + 1) =
      (pgnStart + BitVec.ofNat 64 first) :: pagesFrom pgnStart (first + 1) count := by
  rw [pagesFrom, List.range'_succ, List.map_cons, pagesFrom]

/-- The loop gives the frames to the pages in order when no page is beyond the
limit. -/
theorem vmapPageLoop_maps (pgnStart : Addr) (pgnum : Int) (pgit : Nat) (frames : List Addr)
    (mm : MmStruct) (mram : MemphyStruct) (wanted : frames.length ≤ (pgnum - pgit).toNat)
    (short : pgnStart.toNat + (pgit + frames.length) ≤ PAGING_MAX_PGN.toNat) :
    (pagesFrom pgnStart pgit frames.length).map
        (vmapPageLoop pgnStart pgnum pgit frames mm mram).1.frameOf =
          frames.map (some ∘ frameField) ∧
      (vmapPageLoop pgnStart pgnum pgit frames mm mram).1.fifoPgn =
        (pagesFrom pgnStart pgit frames.length).reverse ++ mm.fifoPgn ∧
      (vmapPageLoop pgnStart pgnum pgit frames mm mram).2 = mram := by
  have limit : PAGING_MAX_PGN.toNat = 16384 := rfl
  induction frames generalizing pgit mm with
  | nil => exact ⟨rfl, rfl, rfl⟩
  | cons fpn next inductionHypothesis =>
      rw [List.length_cons] at wanted short ⊢
      have here : (pgnStart + BitVec.ofNat 64 pgit).toNat = pgnStart.toNat + pgit := by
        rw [BitVec.toNat_add, BitVec.toNat_ofNat]
        omega
      rcases vmapPageLoop_cons pgnStart pgnum pgit fpn next mm mram (by omega) with
        ⟨long, _⟩ | ⟨_, edited, word, edit, same⟩
      · have beyond : PAGING_MAX_PGN.toNat ≤ (pgnStart + BitVec.ofNat 64 pgit).toNat := long
        omega
      · rw [same, pagesFrom_succ]
        have later := inductionHypothesis (pgit + 1)
          (enlistPgnNode edited (pgnStart + BitVec.ofNat 64 pgit)) (by omega) (by omega)
        -- the iterations that follow map other pages
        have kept : (vmapPageLoop pgnStart pgnum (pgit + 1) next
            (enlistPgnNode edited (pgnStart + BitVec.ofNat 64 pgit)) mram).1.frameOf
              (pgnStart + BitVec.ofNat 64 pgit) = some (frameField fpn) := by
          have entry := vmapPageLoop_entry pgnStart pgnum (pgit + 1) next
            (enlistPgnNode edited (pgnStart + BitVec.ofNat 64 pgit)) mram (by omega) (by omega)
            (pgnStart + BitVec.ofNat 64 pgit)
          rcases entry with ⟨inside, _⟩ | ⟨_, unchanged⟩
          · omega
          · rw [← edit.frameOf_self, MmStruct.frameOf, unchanged, pteGetEntry_enlistPgnNode,
              MmStruct.frameOf]
        refine ⟨?_, ?_, later.2.2⟩
        · rw [List.map_cons, List.map_cons, kept, later.1]
          rfl
        · rw [later.2.1, List.reverse_cons, List.append_assoc, enlistPgnNode, edit.fifoPgn]
          rfl

/-! ## The page count -/

theorem incNumPage_eq {incSz : Addr} (few : pagesNeeded incSz ≤ PAGING_MAX_PGN.toNat) :
    incNumPage incSz = pagesNeeded incSz := by
  have limit : PAGING_MAX_PGN.toNat = 16384 := rfl
  have size : PAGING_PAGESZ.toNat = 256 := rfl
  have one : (1 : Addr).toNat = 1 := rfl
  have bound := incSz.isLt
  unfold pagesNeeded at few ⊢
  have count : ((incSz + PAGING_PAGESZ - 1) / PAGING_PAGESZ).toNat = (incSz.toNat + 255) / 256 := by
    rw [BitVec.toNat_udiv, BitVec.toNat_sub, BitVec.toNat_add, size, one]
    omega
  rw [incNumPage, asInt_of_small _ (by omega), count]

theorem pagesNeeded_pos {incSz : Addr} (positive : 0 < incSz) : 0 < pagesNeeded incSz := by
  have larger : 0 < incSz.toNat := positive
  unfold pagesNeeded
  omega

/-! ## The outcome of `inc_vma_limit` -/

/-- The area that `inc_vma_limit` writes before it maps anything. -/
def movedArea (vma : VmAreaStruct) (incSz : Addr) : VmAreaStruct :=
  { vma with
    sbrk := vma.sbrk + incAmt incSz
    vmEnd := if vma.vmEnd < vma.sbrk + incAmt incSz then vma.sbrk + incAmt incSz else vma.vmEnd }

/-- A request that passes the checks is reported as a success, whatever
`vm_map_range` answers. -/
theorem incVmaLimit_accepted {mm : MmStruct} {mram : MemphyStruct} {vmaid : Int} {incSz : Addr}
    {idx : Nat} {vma : VmAreaStruct} (found : getVmaByNum mm vmaid = some (idx, vma))
    (accepted : ¬ TurnedDown mm vmaid incSz) :
    incVmaLimit mm mram vmaid incSz =
      (0, (vmMapRange (mm.setVma idx (movedArea vma incSz)) mram vma.sbrk (incNumPage incSz)).2) := by
  rw [TurnedDown, found] at accepted
  dsimp only at accepted
  rw [incVmaLimit, found]
  dsimp only
  rw [if_neg accepted]
  -- the answer is an unsigned word
  exact if_neg fun below => BitVec.not_lt_zero below

theorem incVmaLimit_turnedDown {mm : MmStruct} {mram : MemphyStruct} {vmaid : Int} {incSz : Addr}
    (refused : TurnedDown mm vmaid incSz) :
    incVmaLimit mm mram vmaid incSz = (-1, mm, mram) := by
  unfold TurnedDown at refused
  rw [incVmaLimit]
  cases found : getVmaByNum mm vmaid with
  | none => rfl
  | some entry =>
      rw [found] at refused
      exact if_pos refused

/-- The position of the area that `get_vma_by_num` finds. -/
theorem lt_of_walkVmas {vmaid : Int} {areas : List VmAreaStruct} {start idx : Nat}
    {vma : VmAreaStruct} (found : walkVmas vmaid start areas = some (idx, vma)) :
    start ≤ idx ∧ idx < start + areas.length := by
  induction areas generalizing start with
  | nil => cases found
  | cons pvma next inductionHypothesis =>
      rw [walkVmas] at found
      rw [List.length_cons]
      by_cases smaller : asInt pvma.vmId < vmaid
      · rw [if_pos smaller] at found
        have later := inductionHypothesis found
        omega
      · rw [if_neg smaller] at found
        cases found
        omega

/-- The frames that a list of pages is mapped to. -/
private theorem filterMap_of_map {pages frames : List Addr} {frameOf : Addr → Option Addr}
    {field : Addr → Addr} (maps : pages.map frameOf = frames.map (some ∘ field)) :
    pages.filterMap frameOf = frames.map field := by
  have flat : pages.filterMap frameOf = (pages.map frameOf).filterMap id := by
    rw [List.filterMap_map]
    rfl
  rw [flat, maps, List.filterMap_map]
  exact congrFun List.filterMap_eq_map frames

/-- With enough frames and page numbers, the range is mapped to the first frames
of the list, as far as their numbers fit into an entry. -/
private theorem vmMapRange_maps (moved : MmStruct) {mram : MemphyStruct} {sbrk incSz : Addr}
    (enough : pagesNeeded incSz ≤ mram.freeFpList.length)
    (limit : sbrk.toNat / 256 + pagesNeeded incSz ≤ PAGING_MAX_PGN.toNat) :
    (grownPages sbrk incSz).map (vmMapRange moved mram sbrk (incNumPage incSz)).2.1.frameOf =
        (mram.freeFpList.take (pagesNeeded incSz)).map (some ∘ frameField) ∧
      (vmMapRange moved mram sbrk (incNumPage incSz)).2.1.fifoPgn =
        (grownPages sbrk incSz).reverse ++ moved.fifoPgn ∧
      (vmMapRange moved mram sbrk (incNumPage incSz)).2.2.freeFpList =
        mram.freeFpList.drop (pagesNeeded incSz) := by
  have most : PAGING_MAX_PGN.toNat = 16384 := rfl
  have count : incNumPage incSz = pagesNeeded incSz := incNumPage_eq (by omega)
  have number : (incNumPage incSz).toNat = pagesNeeded incSz := by omega
  have size : (mram.freeFpList.take (pagesNeeded incSz)).length = pagesNeeded incSz :=
    List.length_take_of_le enough
  have first : (sbrk / PAGING_PAGESZ).toNat = sbrk.toNat / 256 := BitVec.toNat_udiv
  have maps := vmapPageLoop_maps (sbrk / PAGING_PAGESZ) (incNumPage incSz) 0
    (mram.freeFpList.take (pagesNeeded incSz)) moved
    { mram with freeFpList := mram.freeFpList.drop (pagesNeeded incSz) } (by omega) (by omega)
  rw [size] at maps
  rw [vmMapRange, allocPagesRange_eq, number, if_pos enough]
  exact ⟨maps.1, maps.2.1, congrArg MemphyStruct.freeFpList maps.2.2⟩

/-- Mapping does not touch the areas. -/
private theorem mmap_vmMapRange (mm : MmStruct) (mram : MemphyStruct) (mapstart : Addr)
    (incpgnum : Int) : (vmMapRange mm mram mapstart incpgnum).2.1.mmap = mm.mmap := by
  rw [vmMapRange]
  rcases allocPagesRange mram incpgnum with ⟨ret, frames, taken⟩
  dsimp only
  by_cases failed : ret ≠ 0
  · rw [if_pos failed]
  · rw [if_neg failed]
    exact (vmapPageLoop_rest (mapstart / PAGING_PAGESZ) incpgnum 0 frames mm taken).1

/-- With room, the range is mapped completely. -/
private theorem grownFully_of_room {mm : MmStruct} {mram : MemphyStruct} {incSz : Addr} {idx : Nat}
    {vma : VmAreaStruct} (inside : idx < mm.mmap.length) (room : RoomToGrow mram vma.sbrk incSz) :
    GrownFully mm mram idx vma.sbrk incSz
      (vmMapRange (mm.setVma idx (movedArea vma incSz)) mram vma.sbrk (incNumPage incSz)).2.1
      (vmMapRange (mm.setVma idx (movedArea vma incSz)) mram vma.sbrk (incNumPage incSz)).2.2 := by
  have maps := vmMapRange_maps (mm.setVma idx (movedArea vma incSz)) room.enough room.limit
  have own : (mram.freeFpList.take (pagesNeeded incSz)).map frameField =
      mram.freeFpList.take (pagesNeeded incSz) := by
    calc
      (mram.freeFpList.take (pagesNeeded incSz)).map frameField =
          (mram.freeFpList.take (pagesNeeded incSz)).map id :=
        List.map_congr_left fun fpn member => frameField_of_lt (room.numbered fpn member)
      _ = mram.freeFpList.take (pagesNeeded incSz) := List.map_id _
  constructor
  · refine ⟨movedArea vma incSz, ?_, ?_⟩
    · rw [mmap_vmMapRange, MmStruct.setVma]
      exact List.getElem?_set_self inside
    · have most : PAGING_MAX_PGN.toNat = 16384 := rfl
      have below := room.limit
      have amount := toNat_incAmt incSz
      rw [incNumPage_eq (by omega)] at amount
      rw [movedArea]
      dsimp only
      rw [BitVec.toNat_add]
      omega
  · intro pgn member
    have image := List.mem_map_of_mem
      (f := (vmMapRange (mm.setVma idx (movedArea vma incSz)) mram vma.sbrk
        (incNumPage incSz)).2.1.frameOf) member
    rw [maps.1, List.mem_map] at image
    rcases image with ⟨fpn, _, mapped⟩
    rw [← mapped]
    rfl
  · rw [filterMap_of_map maps.1, own, maps.2.2, List.take_append_drop]
  · rw [maps.2.1]
    exact (List.reverse_perm _).append_right _

/-- Nothing but room lets the range be mapped completely. -/
private theorem room_of_grownFully {mm moved : MmStruct} {mram : MemphyStruct} {incSz sbrk : Addr}
    {idx : Nat} (positive : 0 < incSz) (aligned : sbrk.toNat % 256 = 0)
    (full : GrownFully mm mram idx sbrk incSz (vmMapRange moved mram sbrk (incNumPage incSz)).2.1
      (vmMapRange moved mram sbrk (incNumPage incSz)).2.2) : RoomToGrow mram sbrk incSz := by
  have most : PAGING_MAX_PGN.toNat = 16384 := rfl
  have some := pagesNeeded_pos positive
  rcases full.moved with ⟨vma, _, grown⟩
  have unwrapped := vma.sbrk.isLt
  have first : (sbrk / PAGING_PAGESZ).toNat = sbrk.toNat / 256 := BitVec.toNat_udiv
  -- the last page of the range is below the limit
  have limit : sbrk.toNat / 256 + pagesNeeded incSz ≤ PAGING_MAX_PGN.toNat := by
    have last : sbrk / PAGING_PAGESZ + BitVec.ofNat 64 (pagesNeeded incSz - 1) ∈
        grownPages sbrk incSz := by
      rw [grownPages, pagesFrom, List.mem_map]
      exact ⟨pagesNeeded incSz - 1, List.mem_range'_1.mpr ⟨Nat.zero_le _, by omega⟩, rfl⟩
    have present := full.present _ last
    rw [Option.isSome_iff_exists] at present
    rcases present with ⟨fpn, mapped⟩
    have short := MmStruct.lt_of_frameOf mapped
    have number : (sbrk / PAGING_PAGESZ + BitVec.ofNat 64 (pagesNeeded incSz - 1)).toNat <
        PAGING_MAX_PGN.toNat := short
    rw [BitVec.toNat_add, BitVec.toNat_ofNat, first] at number
    omega
  -- every page has used up one frame
  have enough : pagesNeeded incSz ≤ mram.freeFpList.length := by
    have balance := full.frames.length_eq
    rw [List.length_append, List.length_filterMap_eq_countP,
      List.countP_eq_length.mpr full.present, grownPages, pagesFrom, List.length_map,
      List.length_range'] at balance
    omega
  refine ⟨enough, limit, fun fpn member => ?_⟩
  have maps := vmMapRange_maps moved enough limit
  have frames := full.frames
  rw [filterMap_of_map maps.1, maps.2.2] at frames
  have same : ((mram.freeFpList.take (pagesNeeded incSz)).map frameField).Perm
      (mram.freeFpList.take (pagesNeeded incSz)) := by
    apply (List.perm_append_right_iff (mram.freeFpList.drop (pagesNeeded incSz))).mp
    rw [List.take_append_drop]
    exact frames
  rcases List.mem_map.mp (same.mem_iff.mpr member) with ⟨taken, _, field⟩
  rw [← field]
  exact toNat_frameField_lt taken

/-! ## When the promise is kept -/

/-- `inc_vma_limit` is all or nothing exactly for the requests that are turned
down by its checks and for those that RAM, page table and entry format have
room for. -/
theorem allOrNothing_iff (mm : MmStruct) (mram : MemphyStruct) (vmaid : Int) (incSz : Addr)
    (aligned : ∀ idx vma, getVmaByNum mm vmaid = some (idx, vma) → vma.sbrk.toNat % 256 = 0)
    (positive : 0 < incSz) :
    AllOrNothing mm mram vmaid incSz ↔
      TurnedDown mm vmaid incSz ∨
        ∃ idx vma, getVmaByNum mm vmaid = some (idx, vma) ∧ RoomToGrow mram vma.sbrk incSz := by
  unfold AllOrNothing
  by_cases refused : TurnedDown mm vmaid incSz
  · rw [incVmaLimit_turnedDown refused]
    dsimp only
    rw [if_neg (by decide)]
    exact iff_of_true ⟨rfl, fun _ => rfl, rfl, List.Perm.refl _⟩ (Or.inl refused)
  · cases found : getVmaByNum mm vmaid with
    | none =>
        rw [TurnedDown, found] at refused
        exact absurd trivial refused
    | some entry =>
        rcases entry with ⟨idx, vma⟩
        have inside := lt_of_walkVmas found
        rw [Nat.zero_add] at inside
        rw [incVmaLimit_accepted found refused]
        dsimp only
        rw [if_pos rfl]
        constructor
        · rintro ⟨_, _, same, full⟩
          cases same
          exact Or.inr ⟨idx, vma, rfl, room_of_grownFully positive (aligned idx vma found) full⟩
        · rintro (turned | ⟨_, _, same, room⟩)
          · exact absurd turned refused
          · cases same
            exact ⟨idx, vma, rfl, grownFully_of_room inside.2 room⟩

/-- A fresh process on a device with one frame can grow by one page. -/
theorem allOrNothing_onePage : AllOrNothing (initMm []) (initMemphy 256 1) 0 1 := by
  have spare : (initMemphy 256 1).freeFpList = [0] := by decide +kernel
  have room : RoomToGrow (initMemphy 256 1) 0 1 := by
    refine ⟨by rw [spare]; exact Nat.le_refl 1, by decide, fun fpn member => ?_⟩
    rw [spare] at member
    rw [List.mem_singleton.mp (List.mem_of_mem_take member)]
    decide
  apply (allOrNothing_iff (initMm []) (initMemphy 256 1) 0 1 ?_ (by decide)).mpr
  · exact Or.inr ⟨0, _, rfl, room⟩
  · intro idx vma found
    cases found
    rfl

/-- A growth by two pages on a device with one frame reports success and maps
nothing. -/
theorem not_allOrNothing :
    ¬ ∀ mm mram vmaid incSz,
      (∀ idx vma, getVmaByNum mm vmaid = some (idx, vma) → vma.sbrk.toNat % 256 = 0) →
        0 < incSz → AllOrNothing mm mram vmaid incSz := by
  intro always
  have promised := always (initMm []) (initMemphy 256 1) 0 257
    (by
      intro idx vma found
      cases found
      rfl)
    (by decide)
  have reported : (incVmaLimit (initMm []) (initMemphy 256 1) 0 257).1 = 0 := by decide +kernel
  have unmapped : (incVmaLimit (initMm []) (initMemphy 256 1) 0 257).2.1.frameOf 0 = none := by
    decide +kernel
  unfold AllOrNothing at promised
  generalize incVmaLimit (initMm []) (initMemphy 256 1) 0 257 = outcome at promised reported unmapped
  rcases outcome with ⟨ret, after, left⟩
  dsimp only at promised reported unmapped
  rw [if_pos reported] at promised
  rcases promised with ⟨idx, vma, found, full⟩
  have start : vma.sbrk = 0 := by
    cases found
    rfl
  have first : (0 : Addr) ∈ grownPages 0 257 := List.mem_cons_self
  have present := full.present 0 (start ▸ first)
  rw [unmapped] at present
  cases present

end Memory
end Ossim
