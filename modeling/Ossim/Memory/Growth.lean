import Ossim.Memory.FrameTable

namespace Ossim
namespace Memory

/-!
# What growing an area does

`inc_vma_limit` either refuses and changes nothing, or moves the break and
maps as many of the new pages as it can.  Running out of frames is not a
refusal: the call still reports success and the break still moves.

`Growth` states the accepted case for a sound memory map.  The page count is
an `int`, so it can be negative; then no page is mapped, and the break moves
by a wrapped amount that the overlap test has seen to be positive.
-/

/-- The state after an accepted growth. -/
structure Growth (mm : MmStruct) (mram : MemphyStruct) (incSz : Addr) (grown : MmStruct)
    (left : MemphyStruct) : Prop where
  accepted : mm.area.sbrk < mm.area.sbrk + incAmt incSz
  mmap : ∃ vmEnd, grown.mmap =
    [{ mm.area with sbrk := mm.area.sbrk + incAmt incSz, vmEnd := vmEnd }]
  symrgtbl : grown.symrgtbl = mm.symrgtbl
  device : ∃ spare, (∀ fpn ∈ spare, fpn ∈ mram.freeFpList) ∧
    left = { mram with freeFpList := spare }
  entry : ∀ read, (((mm.area.sbrk.toNat ≤ read.toNat * 256 ∧
          read.toNat * 256 < (mm.area.sbrk + incAmt incSz).toNat) ∧
        ∃ fpn ∈ mram.freeFpList, ∃ word,
          pteGetEntry grown read = (fpnWord fpn word).setWidth 32) ∨
      pteGetEntry grown read = pteGetEntry mm read)
  enough : (incNumPage incSz).toNat ≤ mram.freeFpList.length →
    ∀ read, mm.area.sbrk.toNat ≤ read.toNat * 256 →
      read.toNat * 256 < mm.area.sbrk.toNat + (incNumPage incSz).toNat * 256 →
        read < PAGING_MAX_PGN → (grown.frameOf read).isSome = true
  moves : (∀ fpn ∈ mram.freeFpList, fpn.toNat < 8192) →
    Ledger.Moves (mm.ledger mram.freeFpList) (grown.ledger left.freeFpList)
  fifoExact : mm.FifoExact → grown.FifoExact

/-! ## Arithmetic of the break -/

/-- The amount is the page count times the page size, modulo `2 ^ 64`. -/
theorem toNat_incAmt (incSz : Addr) :
    ((incAmt incSz).toNat : Int) = incNumPage incSz * 256 % 2 ^ 64 := by
  have count := toNat_ofInt (incNumPage incSz)
  rw [incAmt, BitVec.toNat_mul]
  have size : PAGING_PAGESZ.toNat = 256 := rfl
  rw [size]
  omega

/-- An accepted growth by a positive page count does not wrap. -/
theorem toNat_grown_break (sbrk incSz : Addr) (accepted : sbrk < sbrk + incAmt incSz)
    (positive : 0 ≤ incNumPage incSz) :
    (sbrk + incAmt incSz).toNat = sbrk.toNat + (incNumPage incSz).toNat * 256 := by
  have amount := toNat_incAmt incSz
  have bounds := asInt_bounds ((incSz + PAGING_PAGESZ - 1) / PAGING_PAGESZ)
  have larger : sbrk.toNat < (sbrk + incAmt incSz).toNat := accepted
  rw [BitVec.toNat_add] at larger ⊢
  rw [incNumPage] at *
  omega

theorem grown_break_aligned (sbrk incSz : Addr) (aligned : sbrk.toNat % 256 = 0) :
    (sbrk + incAmt incSz).toNat % 256 = 0 := by
  have amount := toNat_incAmt incSz
  rw [BitVec.toNat_add]
  omega

/-! ## The cases of `inc_vma_limit` -/

/-- With one area of id 0, every id up to 0 finds it and no other id does. -/
theorem MmStruct.Sound.getVmaByNum {mm : MmStruct} (sound : mm.Sound) (vmaid : Int) :
    getVmaByNum mm vmaid = if 0 < vmaid then none else some (0, mm.area) := by
  rw [Memory.getVmaByNum, sound.single, walkVmas, sound.firstId, walkVmas]
  rfl

/-- With one area, only an empty range overlaps. -/
private theorem validateOverlapVmArea_single {mm : MmStruct} (sound : mm.Sound) (vmaid : Int)
    (vmastart vmaend : Addr) (found : ¬ 0 < vmaid) :
    validateOverlapVmArea mm vmaid vmastart vmaend =
      if vmaend ≤ vmastart then -1 else 0 := by
  rw [validateOverlapVmArea, sound.getVmaByNum, if_neg found]
  by_cases empty : vmaend ≤ vmastart
  · rw [if_pos empty, if_pos empty]
  · rw [if_neg empty, if_neg empty, if_neg (by rw [sound.single]; exact List.cons_ne_nil _ _)]
    dsimp only
    rw [sound.single]
    simp

/-- Taking the frames and mapping them, from a map that has only been given a
new break. -/
private theorem vmMapRange_growth {mm : MmStruct} (sound : mm.Sound) (mram : MemphyStruct)
    (incSz vmEnd : Addr) (accepted : mm.area.sbrk < mm.area.sbrk + incAmt incSz) :
    Growth mm mram incSz
      (vmMapRange (mm.setVma 0 { mm.area with sbrk := mm.area.sbrk + incAmt incSz, vmEnd := vmEnd })
        mram mm.area.sbrk (incNumPage incSz)).2.1
      (vmMapRange (mm.setVma 0 { mm.area with sbrk := mm.area.sbrk + incAmt incSz, vmEnd := vmEnd })
        mram mm.area.sbrk (incNumPage incSz)).2.2 := by
  set moved := mm.setVma 0
    { mm.area with sbrk := mm.area.sbrk + incAmt incSz, vmEnd := vmEnd } with movedDef
  have mmap : moved.mmap =
      [{ mm.area with sbrk := mm.area.sbrk + incAmt incSz, vmEnd := vmEnd }] :=
    MmStruct.mmap_setVma sound.single _
  by_cases enough : (incNumPage incSz).toNat ≤ mram.freeFpList.length
  · set frames := mram.freeFpList.take (incNumPage incSz).toNat with framesDef
    set taken : MemphyStruct :=
      { mram with freeFpList := mram.freeFpList.drop (incNumPage incSz).toNat } with takenDef
    have outcome : vmMapRange moved mram mm.area.sbrk (incNumPage incSz) =
        (0, vmapPageLoop (mm.area.sbrk / PAGING_PAGESZ) (incNumPage incSz) 0 frames moved taken) := by
      rw [vmMapRange, allocPagesRange_eq, if_pos enough]
      rfl
    have first : (mm.area.sbrk / PAGING_PAGESZ).toNat = mm.area.sbrk.toNat / 256 :=
      BitVec.toNat_udiv
    have bounds := asInt_bounds ((incSz + PAGING_PAGESZ - 1) / PAGING_PAGESZ)
    have count : frames.length = (incNumPage incSz).toNat := by
      rw [framesDef, List.length_take]
      omega
    have split : frames ++ taken.freeFpList = mram.freeFpList := List.take_append_drop _ _
    have fits : (mm.area.sbrk / PAGING_PAGESZ).toNat + (0 + frames.length) ≤ 2 ^ 64 := by
      have small := mm.area.sbrk.isLt
      rw [first, count, incNumPage]
      omega
    have vacant : ∀ read : Addr, (mm.area.sbrk / PAGING_PAGESZ).toNat + 0 ≤ read.toNat →
        moved.frameOf read = none := by
      intro read above
      rw [movedDef, MmStruct.frameOf_setVma]
      cases mapped : mm.frameOf read with
      | none => rfl
      | some fpn =>
          have low := sound.below read fpn mapped
          have aligned := sound.aligned
          omega
    rw [outcome]
    have rest := vmapPageLoop_rest (mm.area.sbrk / PAGING_PAGESZ) (incNumPage incSz) 0 frames moved
      taken
    have entry := vmapPageLoop_entry (mm.area.sbrk / PAGING_PAGESZ) (incNumPage incSz) 0 frames moved
      taken (by omega) fits
    have range : ∀ read : Addr, ((mm.area.sbrk / PAGING_PAGESZ).toNat + 0 ≤ read.toNat ∧
        read.toNat < (mm.area.sbrk / PAGING_PAGESZ).toNat + (0 + frames.length)) ↔
          (mm.area.sbrk.toNat ≤ read.toNat * 256 ∧
            read.toNat * 256 < mm.area.sbrk.toNat + (incNumPage incSz).toNat * 256) := by
      intro read
      have aligned := sound.aligned
      rw [first, count]
      omega
    refine ⟨accepted, ⟨vmEnd, rest.1.trans mmap⟩, rest.2.1, ?_, ?_, ?_, ?_, ?_⟩
    · rcases rest.2.2 with ⟨left, origin, device⟩
      refine ⟨left, fun fpn member => ?_, device⟩
      rcases origin fpn member with early | late
      · exact List.mem_of_mem_take early
      · exact List.mem_of_mem_drop late
    · intro read
      rcases entry read with ⟨⟨lower, upper, _⟩, fpn, member, word, found⟩ | ⟨_, same⟩
      · left
        have inside := (range read).mp ⟨lower, upper⟩
        have grown := toNat_grown_break mm.area.sbrk incSz accepted (by omega)
        exact ⟨⟨inside.1, by omega⟩, fpn, List.mem_of_mem_take member, word, found⟩
      · exact Or.inr same
    · intro _ read lower upper short
      rcases entry read with ⟨_, fpn, _, word, found⟩ | ⟨outside, _⟩
      · rw [MmStruct.frameOf_isSome, found]
        exact pagingPagePresent_fpnWord fpn word
      · exact absurd ⟨((range read).mpr ⟨lower, upper⟩).1, ((range read).mpr ⟨lower, upper⟩).2, short⟩
          outside
    · intro small
      have moves := vmapPageLoop_moves (mm.area.sbrk / PAGING_PAGESZ) (incNumPage incSz) 0 frames
        moved taken (by omega) fits
        (fun fpn member => small fpn (List.mem_of_mem_take member)) vacant
      rw [split] at moves
      exact moves
    · intro exact
      exact vmapPageLoop_fifoExact (mm.area.sbrk / PAGING_PAGESZ) (incNumPage incSz) 0 frames
        moved taken (by omega) fits vacant exact
  · have outcome : vmMapRange moved mram mm.area.sbrk (incNumPage incSz) =
        (ofInt (-1), moved, { mram with freeFpList := mram.freeFpList.reverse }) := by
      rw [vmMapRange, allocPagesRange_eq, if_neg enough]
      rfl
    rw [outcome]
    refine ⟨accepted, ⟨vmEnd, mmap⟩, rfl, ⟨_, fun fpn member => List.mem_reverse.mp member, rfl⟩,
      fun read => Or.inr rfl, fun sufficient => absurd sufficient enough, ?_, fun exact => exact⟩
    intro _
    exact .single (.settle rfl (List.reverse_perm _).symm)

/-- `inc_vma_limit` refuses without effect, or grows the area. -/
theorem incVmaLimit_cases {mm : MmStruct} (sound : mm.Sound) (mram : MemphyStruct) (vmaid : Int)
    (incSz : Addr) :
    ((0 < vmaid ∨ ¬ mm.area.sbrk < mm.area.sbrk + incAmt incSz) ∧
        incVmaLimit mm mram vmaid incSz = (-1, mm, mram)) ∨
      (¬ 0 < vmaid ∧ ∃ grown left, incVmaLimit mm mram vmaid incSz = (0, grown, left) ∧
        Growth mm mram incSz grown left) := by
  rw [incVmaLimit, sound.getVmaByNum]
  by_cases missing : 0 < vmaid
  · rw [if_pos missing]
    exact Or.inl ⟨Or.inl missing, rfl⟩
  · rw [if_neg missing]
    dsimp only
    rw [validateOverlapVmArea_single sound vmaid _ _ missing]
    by_cases accepted : mm.area.sbrk < mm.area.sbrk + incAmt incSz
    · rw [if_neg (BitVec.not_le.mpr accepted)]
      exact Or.inr ⟨missing, _, _, rfl, vmMapRange_growth sound mram incSz _ accepted⟩
    · rw [if_pos (BitVec.not_lt.mp accepted)]
      exact Or.inl ⟨Or.inr accepted, rfl⟩

/-! ## Consequences of a growth -/

theorem Growth.area {mm grown : MmStruct} {mram left : MemphyStruct} {incSz : Addr}
    (growth : Growth mm mram incSz grown left) :
    ∃ vmEnd, grown.area =
      { mm.area with sbrk := mm.area.sbrk + incAmt incSz, vmEnd := vmEnd } := by
  rcases growth.mmap with ⟨vmEnd, areas⟩
  exact ⟨vmEnd, MmStruct.area_of_mmap areas⟩

theorem Growth.sbrk {mm grown : MmStruct} {mram left : MemphyStruct} {incSz : Addr}
    (growth : Growth mm mram incSz grown left) :
    grown.area.sbrk = mm.area.sbrk + incAmt incSz := by
  rcases growth.area with ⟨_, area⟩
  rw [area]

theorem Growth.vmFreergList {mm grown : MmStruct} {mram left : MemphyStruct} {incSz : Addr}
    (growth : Growth mm mram incSz grown left) :
    grown.area.vmFreergList = mm.area.vmFreergList := by
  rcases growth.area with ⟨_, area⟩
  rw [area]

/-- Pages stay below the break while it grows. -/
theorem Growth.sound {mm grown : MmStruct} {mram left : MemphyStruct} {incSz : Addr}
    (growth : Growth mm mram incSz grown left) (sound : mm.Sound) : grown.Sound := by
  rcases growth.mmap with ⟨vmEnd, areas⟩
  have area := MmStruct.area_of_mmap areas
  have larger : mm.area.sbrk.toNat < (mm.area.sbrk + incAmt incSz).toNat := growth.accepted
  refine ⟨?_, ?_, ?_, ?_, ?_⟩
  · rw [area, areas]
  · rw [area]
    exact sound.firstId
  · rw [growth.sbrk]
    exact grown_break_aligned _ _ sound.aligned
  · intro pgn fpn mapped
    rw [growth.sbrk]
    rcases growth.entry pgn with ⟨inside, _⟩ | same
    · exact inside.2
    · rw [MmStruct.frameOf_eq_some_iff, same, ← MmStruct.frameOf_eq_some_iff] at mapped
      have low := sound.below pgn fpn mapped
      omega
  · intro pgn
    rcases growth.entry pgn with ⟨_, fpn, _, word, found⟩ | same
    · rw [found]
      exact pagingPageSwapped_fpnWord fpn word
    · rw [same]
      exact sound.unswapped pgn

/-- A resident page stays at its frame. -/
theorem Growth.frameOf_of_some {mm grown : MmStruct} {mram left : MemphyStruct} {incSz : Addr}
    (growth : Growth mm mram incSz grown left) (sound : mm.Sound) {pgn fpn : Addr}
    (mapped : mm.frameOf pgn = some fpn) : grown.frameOf pgn = some fpn := by
  rcases growth.entry pgn with ⟨inside, _⟩ | same
  · have low := sound.below pgn fpn mapped
    omega
  · rw [MmStruct.frameOf_eq_some_iff] at mapped ⊢
    rw [same]
    exact mapped

/-- A new entry decodes to the frame or to a smaller one. -/
theorem Growth.frame_lt {mm grown : MmStruct} {mram left : MemphyStruct} {incSz : Addr}
    (growth : Growth mm mram incSz grown left) {bound : Nat}
    (spare : ∀ fpn ∈ mram.freeFpList, fpn.toNat < bound)
    (old : ∀ pgn fpn, mm.frameOf pgn = some fpn → fpn.toNat < bound) {pgn fpn : Addr}
    (mapped : grown.frameOf pgn = some fpn) : fpn.toNat < bound := by
  rcases growth.entry pgn with ⟨_, taken, member, word, entry⟩ | same
  · rw [MmStruct.frameOf_eq_some_iff, entry] at mapped
    have small := spare taken member
    have decoded := toNat_pagingFpn_fpnWord taken word
    rw [mapped.2] at decoded
    omega
  · rw [MmStruct.frameOf_eq_some_iff, same, ← MmStruct.frameOf_eq_some_iff] at mapped
    exact old pgn fpn mapped

/-! ## Marking pages

`vmap_pgd_memset` overwrites entries without looking at them.  A resident page
in its range loses its frame: the entry forgets it and no list takes it. -/

structure Marked (mm : MmStruct) (addr : Addr) (pgnum : Int) (marked : MmStruct) : Prop where
  mmap : marked.mmap = mm.mmap
  symrgtbl : marked.symrgtbl = mm.symrgtbl
  fifoPgn : marked.fifoPgn = mm.fifoPgn
  entry : ∀ read, ((∃ pgit < pgnum.toNat, read = addr / PAGING_PAGESZ + BitVec.ofNat 64 pgit) ∧
      pteGetEntry marked read = markerWord) ∨ pteGetEntry marked read = pteGetEntry mm read
  drift : ∀ spare, Ledger.Drift (mm.ledger spare) (marked.ledger spare)

private theorem vmapPgdMemsetLoop_marked (addr : Addr) (pgnum : Int) (remaining pgit : Nat)
    (mm : MmStruct) (bounded : pgit + remaining ≤ pgnum.toNat) :
    Marked mm addr pgnum
      (vmapPgdMemsetLoop (addr / PAGING_PAGESZ) remaining pgit mm).2 := by
  induction remaining generalizing pgit mm with
  | zero => exact ⟨rfl, rfl, rfl, fun read => Or.inr rfl, fun spare => .refl⟩
  | succ remaining inductionHypothesis =>
      rw [vmapPgdMemsetLoop, pteSetEntry]
      rcases pteStore_cases mm (addr / PAGING_PAGESZ + BitVec.ofNat 64 pgit)
        (fun _ => markerWord.setWidth 64) with ⟨_, failed⟩ | ⟨_, edited, stored, edit⟩
      · rw [failed]
        exact ⟨rfl, rfl, rfl, fun read => Or.inr rfl, fun spare => .refl⟩
      · rw [stored]
        have word : (BitVec.setWidth 64 markerWord).setWidth 32 = markerWord := by decide
        rw [word] at edit
        have later := inductionHypothesis (pgit + 1) edited (by omega)
        have forgotten := edit.frameOf
        rw [pagingPagePresent_markerWord, if_neg (by decide)] at forgotten
        refine ⟨later.mmap.trans edit.mmap, later.symrgtbl.trans edit.symrgtbl,
          later.fifoPgn.trans edit.fifoPgn, fun read => ?_, fun spare => ?_⟩
        · rcases later.entry read with marked | same
          · exact Or.inl marked
          · rw [edit.entry] at same
            by_cases here : read = addr / PAGING_PAGESZ + BitVec.ofNat 64 pgit
            · rw [if_pos here] at same
              exact Or.inl ⟨⟨pgit, by omega, here⟩, same⟩
            · rw [if_neg here] at same
              exact Or.inr same
        · have leak : Ledger.Leak (mm.ledger spare) (edited.ledger spare) := ⟨rfl, _, forgotten⟩
          exact .head (Or.inr leak) (later.drift spare)

theorem vmapPgdMemset_marked (mm : MmStruct) (addr : Addr) (pgnum : Int) :
    Marked mm addr pgnum (vmapPgdMemset mm addr pgnum).2 :=
  vmapPgdMemsetLoop_marked addr pgnum pgnum.toNat 0 mm (by omega)

theorem Marked.frameOf_of_some {mm marked : MmStruct} {addr : Addr} {pgnum : Int}
    (mark : Marked mm addr pgnum marked) {pgn fpn : Addr}
    (mapped : marked.frameOf pgn = some fpn) : mm.frameOf pgn = some fpn := by
  rw [MmStruct.frameOf_eq_some_iff] at mapped ⊢
  rcases mark.entry pgn with ⟨_, word⟩ | same
  · rw [word, pagingPagePresent_markerWord] at mapped
    cases mapped.1
  · rw [← same]
    exact mapped

theorem Marked.sound {mm marked : MmStruct} {addr : Addr} {pgnum : Int}
    (mark : Marked mm addr pgnum marked) (sound : mm.Sound) : marked.Sound := by
  have area : marked.area = mm.area := by rw [MmStruct.area, mark.mmap, MmStruct.area]
  refine ⟨?_, ?_, ?_, ?_, ?_⟩
  · rw [area, mark.mmap]
    exact sound.single
  · rw [area]
    exact sound.firstId
  · rw [area]
    exact sound.aligned
  · intro pgn fpn mapped
    rw [area]
    exact sound.below pgn fpn (mark.frameOf_of_some mapped)
  · intro pgn
    rcases mark.entry pgn with ⟨_, word⟩ | same
    · rw [word]
      exact pagingPageSwapped_markerWord
    · rw [same]
      exact sound.unswapped pgn

/-- Some page of the range is present. -/
def CoversPresent (mm : MmStruct) (addr : Addr) (pgnum : Int) : Prop :=
  ∃ pgit < pgnum.toNat,
    pagingPagePresent (pteGetEntry mm (addr / PAGING_PAGESZ + BitVec.ofNat 64 pgit)) = true

/-- The marker reaches a page of the range when no page up to it exceeds the
page limit. -/
theorem pteGetEntry_vmapPgdMemsetLoop (addr : Addr) (remaining pgit ahead : Nat) (mm : MmStruct)
    (within : ahead < remaining)
    (short : ∀ passed ≤ ahead,
      addr / PAGING_PAGESZ + BitVec.ofNat 64 (pgit + passed) < PAGING_MAX_PGN) :
    pteGetEntry (vmapPgdMemsetLoop (addr / PAGING_PAGESZ) remaining pgit mm).2
      (addr / PAGING_PAGESZ + BitVec.ofNat 64 (pgit + ahead)) = markerWord := by
  induction remaining generalizing pgit mm ahead with
  | zero => omega
  | succ remaining inductionHypothesis =>
      rw [vmapPgdMemsetLoop, pteSetEntry]
      rcases pteStore_cases mm (addr / PAGING_PAGESZ + BitVec.ofNat 64 pgit)
        (fun _ => markerWord.setWidth 64) with ⟨long, _⟩ | ⟨_, edited, stored, edit⟩
      · exact absurd (short 0 (Nat.zero_le ahead)) (BitVec.not_lt.mpr long)
      · rw [stored]
        have word : (BitVec.setWidth 64 markerWord).setWidth 32 = markerWord := by decide
        rw [word] at edit
        cases ahead with
        | zero =>
            have here : pteGetEntry edited (addr / PAGING_PAGESZ + BitVec.ofNat 64 pgit) =
                markerWord := by
              rw [edit.entry, if_pos rfl]
            have later := vmapPgdMemsetLoop_marked addr (pgit + 1 + remaining : Nat) remaining
              (pgit + 1) edited (le_refl _)
            rcases later.entry (addr / PAGING_PAGESZ + BitVec.ofNat 64 (pgit + 0)) with
              ⟨_, marked⟩ | same
            · exact marked
            · exact same.trans here
        | succ ahead =>
            have position : pgit + (ahead + 1) = pgit + 1 + ahead := by omega
            rw [position]
            apply inductionHypothesis (pgit + 1) ahead edited (by omega)
            intro passed before
            have later := short (passed + 1) (by omega)
            have shifted : pgit + (passed + 1) = pgit + 1 + passed := by omega
            rw [shifted] at later
            exact later

/-- A present page of the range is overwritten. -/
theorem pteGetEntry_vmapPgdMemset {mm : MmStruct} {addr : Addr} {pgnum : Int} {pgit : Nat}
    (isInt : pgnum < 2 ^ 31) (within : pgit < pgnum.toNat)
    (present : pagingPagePresent
      (pteGetEntry mm (addr / PAGING_PAGESZ + BitVec.ofNat 64 pgit)) = true) :
    pteGetEntry (vmapPgdMemset mm addr pgnum).2
      (addr / PAGING_PAGESZ + BitVec.ofNat 64 pgit) = markerWord := by
  have size := addr.isLt
  have start : (addr / PAGING_PAGESZ).toNat = addr.toNat / 256 := BitVec.toNat_udiv
  have number : ∀ passed ≤ pgit,
      (addr / PAGING_PAGESZ + BitVec.ofNat 64 passed).toNat = addr.toNat / 256 + passed := by
    intro passed before
    rw [BitVec.toNat_add, BitVec.toNat_ofNat, start]
    omega
  have limit : addr / PAGING_PAGESZ + BitVec.ofNat 64 pgit < PAGING_MAX_PGN := by
    by_contra long
    rw [pteGetEntry_of_long mm _ (BitVec.not_lt.mp long), pagingPagePresent_zero] at present
    cases present
  have reached := pteGetEntry_vmapPgdMemsetLoop addr pgnum.toNat 0 pgit mm within
  rw [Nat.zero_add] at reached
  apply reached
  intro passed before
  rw [Nat.zero_add, BitVec.lt_def, number passed before]
  rw [BitVec.lt_def, number pgit (le_refl pgit)] at limit
  omega

theorem Marked.frameOf_eq {mm marked : MmStruct} {addr : Addr} {pgnum : Int}
    (mark : Marked mm addr pgnum marked) (absent : ¬ CoversPresent mm addr pgnum) :
    marked.frameOf = mm.frameOf := by
  ext1 read
  rcases mark.entry read with ⟨⟨pgit, within, here⟩, word⟩ | same
  · have before : pagingPagePresent (pteGetEntry mm read) = false := by
      rw [Bool.eq_false_iff]
      intro present
      rw [here] at present
      exact absent ⟨pgit, within, present⟩
    unfold MmStruct.frameOf
    dsimp only
    rw [word, pagingPagePresent_markerWord, before]
    rfl
  · unfold MmStruct.frameOf
    rw [same]

end Memory
end Ossim
