import Ossim.Library.Ledger
import Ossim.Memory.Mapping

namespace Ossim
namespace Memory

/-!
# The page table as a map from pages to frames

`frameOf` forgets the encoding of an entry and the shape of the directory
tree.  A process that never had a page on swap is described by this map, its
paging list and its one memory area.  `MmStruct.Sound` collects what the
source relies on: there is exactly one area, its break is page aligned, no
page at or above the break is resident, and no page is on swap.

The two loops of `alloc_pages_range` and `vmap_page_range` are summarised by
the entries they leave and by the ledger moves they amount to, counting the
frames in hand as spare.
-/

namespace MmStruct

/-- The frame of a resident page. -/
def frameOf (mm : MmStruct) (pgn : Addr) : Option Addr :=
  let pte := pteGetEntry mm pgn
  if pagingPagePresent pte then some (pagingFpn pte) else none

/-- The only area of a memory map that `init_mm` has set up. -/
def area (mm : MmStruct) : VmAreaStruct := mm.mmap.headD ⟨0, 0, 0, 0, []⟩

structure Sound (mm : MmStruct) : Prop where
  single : mm.mmap = [mm.area]
  firstId : mm.area.vmId = 0
  aligned : mm.area.sbrk.toNat % 256 = 0
  below : ∀ pgn fpn, mm.frameOf pgn = some fpn → pgn.toNat * 256 < mm.area.sbrk.toNat
  unswapped : ∀ pgn, pagingPageSwapped (pteGetEntry mm pgn) = false

/-- The paging list names every resident page once, and no other page. -/
def FifoExact (mm : MmStruct) : Prop :=
  mm.fifoPgn.Nodup ∧ ∀ pgn, pgn ∈ mm.fifoPgn ↔ (mm.frameOf pgn).isSome = true

/-- The frames of one process against a spare list. -/
def ledger (mm : MmStruct) (spare : List Addr) : Ledger Addr Addr := ⟨spare, mm.frameOf⟩

theorem frameOf_isSome (mm : MmStruct) (pgn : Addr) :
    (mm.frameOf pgn).isSome = pagingPagePresent (pteGetEntry mm pgn) := by
  unfold frameOf
  cases resident : pagingPagePresent (pteGetEntry mm pgn) <;> simp [resident]

theorem frameOf_eq_some_iff (mm : MmStruct) (pgn fpn : Addr) :
    mm.frameOf pgn = some fpn ↔
      pagingPagePresent (pteGetEntry mm pgn) = true ∧ pagingFpn (pteGetEntry mm pgn) = fpn := by
  unfold frameOf
  cases resident : pagingPagePresent (pteGetEntry mm pgn) <;> simp [resident]

theorem frameOf_lt {mm : MmStruct} {pgn fpn : Addr} (mapped : mm.frameOf pgn = some fpn) :
    fpn.toNat < 8192 := by
  rw [frameOf_eq_some_iff] at mapped
  rw [← mapped.2]
  exact toNat_pagingFpn_lt _

theorem lt_of_frameOf {mm : MmStruct} {pgn fpn : Addr} (mapped : mm.frameOf pgn = some fpn) :
    pgn < PAGING_MAX_PGN :=
  lt_of_pageMapped (Or.inl ((frameOf_eq_some_iff mm pgn fpn).mp mapped).1)

theorem area_of_mmap {mm : MmStruct} {vma : VmAreaStruct} (areas : mm.mmap = [vma]) :
    mm.area = vma := by
  rw [area, areas]
  rfl

theorem mmap_setVma {mm : MmStruct} (single : mm.mmap = [mm.area]) (vma : VmAreaStruct) :
    (mm.setVma 0 vma).mmap = [vma] := by
  rw [setVma, single]
  rfl

@[simp] theorem frameOf_setVma (mm : MmStruct) (idx : Nat) (vma : VmAreaStruct) :
    (mm.setVma idx vma).frameOf = mm.frameOf := rfl

end MmStruct

@[simp] theorem pteGetEntry_enlistPgnNode (mm : MmStruct) (listed pgn : Addr) :
    pteGetEntry (enlistPgnNode mm listed) pgn = pteGetEntry mm pgn := rfl

@[simp] theorem frameOf_enlistPgnNode (mm : MmStruct) (listed : Addr) :
    (enlistPgnNode mm listed).frameOf = mm.frameOf := rfl

/-! ## Single entries -/

theorem pagingFpn_fpnWord_of_lt (fpn word : Addr) (small : fpn.toNat < 8192) :
    pagingFpn ((fpnWord fpn word).setWidth 32) = fpn := by
  apply BitVec.eq_of_toNat_eq
  rw [toNat_pagingFpn_fpnWord, Nat.mod_eq_of_lt small]

theorem PteEdited.frameOf {mm edited : MmStruct} {pgn : Addr} {word : BitVec 32}
    (edit : PteEdited mm pgn word edited) :
    edited.frameOf = Function.update mm.frameOf pgn
      (if pagingPagePresent word then some (pagingFpn word) else none) := by
  funext read
  unfold MmStruct.frameOf
  rw [edit.entry]
  by_cases same : read = pgn
  · subst same
    simp
  · simp [same]

/-- Storing a small frame number locates the page at exactly that frame. -/
theorem PteEdited.frameOf_fpnWord {mm edited : MmStruct} {pgn fpn word : Addr}
    (edit : PteEdited mm pgn ((fpnWord fpn word).setWidth 32) edited)
    (small : fpn.toNat < 8192) :
    edited.frameOf = Function.update mm.frameOf pgn (some fpn) := by
  rw [edit.frameOf, pagingPagePresent_fpnWord, if_pos rfl, pagingFpn_fpnWord_of_lt _ _ small]

/-- The map that `init_mm` builds locates no page. -/
@[simp] theorem pteGetEntry_initMm (list : List VmRgStruct) (pgn : Addr) :
    pteGetEntry (initMm list) pgn = 0#32 := by
  unfold pteGetEntry pteWalk
  by_cases long : PAGING_MAX_PGN ≤ pgn
  · rw [if_pos long]
    rfl
  · rw [if_neg long]
    rfl

@[simp] theorem frameOf_initMm (list : List VmRgStruct) (pgn : Addr) :
    (initMm list).frameOf pgn = none := by
  unfold MmStruct.frameOf
  rw [pteGetEntry_initMm]
  rfl

theorem sound_initMm (list : List VmRgStruct) : (initMm list).Sound where
  single := rfl
  firstId := rfl
  aligned := rfl
  below := by
    intro pgn fpn mapped
    rw [frameOf_initMm] at mapped
    cases mapped
  unswapped := by
    intro pgn
    rw [pteGetEntry_initMm]
    exact pagingPageSwapped_zero

theorem fifoExact_initMm (list : List VmRgStruct) : (initMm list).FifoExact := by
  refine ⟨List.nodup_nil, fun pgn => ?_⟩
  rw [frameOf_initMm]
  exact iff_of_false (List.not_mem_nil) (by decide)

/-- A page that becomes resident goes to the front of the paging list. -/
theorem MmStruct.FifoExact.store {mm edited : MmStruct} {pgn fpn word : Addr}
    (exact : mm.FifoExact) (vacant : mm.frameOf pgn = none)
    (edit : PteEdited mm pgn ((fpnWord fpn word).setWidth 32) edited) :
    (enlistPgnNode edited pgn).FifoExact := by
  have located := edit.frameOf
  rw [pagingPagePresent_fpnWord, if_pos rfl] at located
  have absent : pgn ∉ mm.fifoPgn := by
    intro member
    have resident := (exact.2 pgn).mp member
    rw [vacant] at resident
    cases resident
  refine ⟨?_, fun read => ?_⟩
  · rw [enlistPgnNode, edit.fifoPgn]
    exact List.nodup_cons.mpr ⟨absent, exact.1⟩
  · rw [frameOf_enlistPgnNode, located, enlistPgnNode, List.mem_cons, edit.fifoPgn, exact.2 read]
    by_cases same : read = pgn
    · subst same
      simp
    · simp [same]

/-! ## Taking frames -/

theorem foldl_memphyPutFreefp (frames : List Addr) (mram : MemphyStruct) :
    frames.foldl memphyPutFreefp mram =
      { mram with freeFpList := frames.reverse ++ mram.freeFpList } := by
  induction frames generalizing mram with
  | nil => rfl
  | cons fpn rest inductionHypothesis =>
      rw [List.foldl_cons, inductionHypothesis, memphyPutFreefp, List.reverse_cons]
      simp

/-- Either all frames are taken in list order, or the list has come back in
reverse. -/
private theorem allocPagesLoop_eq (remaining : Nat) (mram : MemphyStruct) (chain : List Addr) :
    allocPagesLoop remaining mram chain =
      if remaining ≤ mram.freeFpList.length then
        (0, chain ++ mram.freeFpList.take remaining,
          { mram with freeFpList := mram.freeFpList.drop remaining })
      else (ofInt (-1), [], { mram with freeFpList := (chain ++ mram.freeFpList).reverse }) := by
  induction remaining generalizing mram chain with
  | zero => simp [allocPagesLoop]
  | succ remaining inductionHypothesis =>
      rw [allocPagesLoop, memphyGetFreefp]
      cases free : mram.freeFpList with
      | nil => simp [foldl_memphyPutFreefp, free]
      | cons fpn rest =>
          dsimp only
          rw [inductionHypothesis]
          simp

theorem allocPagesRange_eq (mram : MemphyStruct) (reqPgnum : Int) :
    allocPagesRange mram reqPgnum =
      if reqPgnum.toNat ≤ mram.freeFpList.length then
        (0, mram.freeFpList.take reqPgnum.toNat,
          { mram with freeFpList := mram.freeFpList.drop reqPgnum.toNat })
      else (ofInt (-1), [], { mram with freeFpList := mram.freeFpList.reverse }) := by
  rw [allocPagesRange, allocPagesLoop_eq]
  rfl

/-! ## Mapping frames -/

/-- One iteration of `vmap_page_range`: a page beyond the limit sends its frame
back, and any other page takes it. -/
theorem vmapPageLoop_cons (pgnStart : Addr) (pgnum : Int) (pgit : Nat) (fpn : Addr)
    (next : List Addr) (mm : MmStruct) (mram : MemphyStruct) (wanted : (pgit : Int) < pgnum) :
    (PAGING_MAX_PGN ≤ pgnStart + BitVec.ofNat 64 pgit ∧
        vmapPageLoop pgnStart pgnum pgit (fpn :: next) mm mram =
          vmapPageLoop pgnStart pgnum (pgit + 1) next mm (memphyPutFreefp mram fpn)) ∨
      (pgnStart + BitVec.ofNat 64 pgit < PAGING_MAX_PGN ∧ ∃ edited word,
        PteEdited mm (pgnStart + BitVec.ofNat 64 pgit) ((fpnWord fpn word).setWidth 32) edited ∧
        vmapPageLoop pgnStart pgnum pgit (fpn :: next) mm mram =
          vmapPageLoop pgnStart pgnum (pgit + 1) next
            (enlistPgnNode edited (pgnStart + BitVec.ofNat 64 pgit)) mram) := by
  rw [vmapPageLoop, if_pos wanted]
  dsimp only
  rcases pteStore_cases mm (pgnStart + BitVec.ofNat 64 pgit) (fpnWord fpn) with
    ⟨long, failed⟩ | ⟨short, edited, stored, edit⟩
  · refine Or.inl ⟨long, ?_⟩
    rw [pteSetFpn, failed]
    rfl
  · refine Or.inr ⟨short, edited, _, edit, ?_⟩
    rw [pteSetFpn, stored]
    rfl

/-- The page at a position of the mapped range. -/
private theorem toNat_add_ofNat (pgnStart : Addr) (pgit : Nat)
    (fits : pgnStart.toNat + pgit < 2 ^ 64) :
    (pgnStart + BitVec.ofNat 64 pgit).toNat = pgnStart.toNat + pgit := by
  rw [BitVec.toNat_add, BitVec.toNat_ofNat]
  omega

/-- Mapping touches neither the areas nor the regions, and of the device only
the free list. -/
theorem vmapPageLoop_rest (pgnStart : Addr) (pgnum : Int) (pgit : Nat) (frames : List Addr)
    (mm : MmStruct) (mram : MemphyStruct) :
    (vmapPageLoop pgnStart pgnum pgit frames mm mram).1.mmap = mm.mmap ∧
      (vmapPageLoop pgnStart pgnum pgit frames mm mram).1.symrgtbl = mm.symrgtbl ∧
      ∃ left, (∀ fpn ∈ left, fpn ∈ frames ∨ fpn ∈ mram.freeFpList) ∧
        (vmapPageLoop pgnStart pgnum pgit frames mm mram).2 =
          { mram with freeFpList := left } := by
  induction frames generalizing pgit mm mram with
  | nil => exact ⟨rfl, rfl, mram.freeFpList, fun _ member => Or.inr member, rfl⟩
  | cons fpn next inductionHypothesis =>
      by_cases wanted : (pgit : Int) < pgnum
      · rcases vmapPageLoop_cons pgnStart pgnum pgit fpn next mm mram wanted with
          ⟨_, same⟩ | ⟨_, edited, word, edit, same⟩
        · rw [same]
          rcases inductionHypothesis (pgit + 1) mm (memphyPutFreefp mram fpn) with
            ⟨areas, regions, left, origin, device⟩
          refine ⟨areas, regions, left, ?_, device⟩
          intro other member
          rcases origin other member with late | early
          · exact Or.inl (List.mem_cons_of_mem fpn late)
          · rw [memphyPutFreefp, List.mem_cons] at early
            rcases early with same | free
            · exact Or.inl (same ▸ List.mem_cons_self)
            · exact Or.inr free
        · rw [same]
          rcases inductionHypothesis (pgit + 1)
            (enlistPgnNode edited (pgnStart + BitVec.ofNat 64 pgit)) mram with
            ⟨areas, regions, left, origin, device⟩
          refine ⟨areas.trans edit.mmap, regions.trans edit.symrgtbl, left, ?_, device⟩
          intro other member
          rcases origin other member with late | free
          · exact Or.inl (List.mem_cons_of_mem fpn late)
          · exact Or.inr free
      · rw [vmapPageLoop, if_neg wanted, foldl_memphyPutFreefp]
        refine ⟨rfl, rfl, _, ?_, rfl⟩
        intro other member
        rw [List.mem_append, List.mem_reverse] at member
        exact member

/-- The entry of a page after the loop: pages of the range below the limit hold
one of the frames, all others are as before. -/
theorem vmapPageLoop_entry (pgnStart : Addr) (pgnum : Int) (pgit : Nat) (frames : List Addr)
    (mm : MmStruct) (mram : MemphyStruct) (wanted : frames.length ≤ (pgnum - pgit).toNat)
    (fits : pgnStart.toNat + (pgit + frames.length) ≤ 2 ^ 64) (read : Addr) :
    ((pgnStart.toNat + pgit ≤ read.toNat ∧
          read.toNat < pgnStart.toNat + (pgit + frames.length) ∧ read < PAGING_MAX_PGN) ∧
        ∃ fpn ∈ frames, ∃ word,
          pteGetEntry (vmapPageLoop pgnStart pgnum pgit frames mm mram).1 read =
            (fpnWord fpn word).setWidth 32) ∨
      (¬ (pgnStart.toNat + pgit ≤ read.toNat ∧
          read.toNat < pgnStart.toNat + (pgit + frames.length) ∧ read < PAGING_MAX_PGN) ∧
        pteGetEntry (vmapPageLoop pgnStart pgnum pgit frames mm mram).1 read =
          pteGetEntry mm read) := by
  induction frames generalizing pgit mm mram with
  | nil =>
      refine Or.inr ⟨?_, rfl⟩
      rw [List.length_nil]
      omega
  | cons fpn next inductionHypothesis =>
      rw [List.length_cons] at wanted fits
      have here := toNat_add_ofNat pgnStart pgit (by omega)
      have first : read = pgnStart + BitVec.ofNat 64 pgit ↔
          read.toNat = pgnStart.toNat + pgit := by
        rw [← here]
        exact BitVec.toNat_inj.symm
      rw [List.length_cons]
      rcases vmapPageLoop_cons pgnStart pgnum pgit fpn next mm mram (by omega) with
        ⟨long, same⟩ | ⟨short, edited, word, edit, same⟩
      · rw [same]
        rcases inductionHypothesis (pgit + 1) mm (memphyPutFreefp mram fpn) (by omega) (by omega)
          with ⟨inside, other, member, old, entry⟩ | ⟨outside, entry⟩
        · exact Or.inl ⟨⟨by omega, by omega, inside.2.2⟩, other,
            List.mem_cons_of_mem fpn member, old, entry⟩
        · refine Or.inr ⟨?_, entry⟩
          rintro ⟨lower, upper, bounded⟩
          by_cases atFirst : read.toNat = pgnStart.toNat + pgit
          · rw [← first.mpr atFirst] at long
            exact BitVec.not_lt.mpr long bounded
          · exact outside ⟨by omega, by omega, bounded⟩
      · rw [same]
        rcases inductionHypothesis (pgit + 1)
          (enlistPgnNode edited (pgnStart + BitVec.ofNat 64 pgit)) mram (by omega) (by omega)
          with ⟨inside, other, member, old, entry⟩ | ⟨outside, entry⟩
        · exact Or.inl ⟨⟨by omega, by omega, inside.2.2⟩, other,
            List.mem_cons_of_mem fpn member, old, entry⟩
        · rw [pteGetEntry_enlistPgnNode, edit.entry read] at entry
          by_cases atFirst : read = pgnStart + BitVec.ofNat 64 pgit
          · rw [if_pos atFirst] at entry
            have position := first.mp atFirst
            exact Or.inl ⟨⟨by omega, by omega, atFirst ▸ short⟩, fpn, List.mem_cons_self, word,
              entry⟩
          · rw [if_neg atFirst] at entry
            have position : read.toNat ≠ pgnStart.toNat + pgit := fun same =>
              atFirst (first.mpr same)
            refine Or.inr ⟨?_, entry⟩
            rintro ⟨lower, upper, bounded⟩
            exact outside ⟨by omega, by omega, bounded⟩

/-- The loop is a sequence of sound moves of the frames in hand. -/
theorem vmapPageLoop_moves (pgnStart : Addr) (pgnum : Int) (pgit : Nat) (frames : List Addr)
    (mm : MmStruct) (mram : MemphyStruct) (wanted : frames.length ≤ (pgnum - pgit).toNat)
    (fits : pgnStart.toNat + (pgit + frames.length) ≤ 2 ^ 64)
    (small : ∀ fpn ∈ frames, fpn.toNat < 8192)
    (vacant : ∀ read : Addr, pgnStart.toNat + pgit ≤ read.toNat → mm.frameOf read = none) :
    Ledger.Moves (mm.ledger (frames ++ mram.freeFpList))
      ((vmapPageLoop pgnStart pgnum pgit frames mm mram).1.ledger
        (vmapPageLoop pgnStart pgnum pgit frames mm mram).2.freeFpList) := by
  induction frames generalizing pgit mm mram with
  | nil => exact .refl
  | cons fpn next inductionHypothesis =>
      rw [List.length_cons] at wanted fits
      have here := toNat_add_ofNat pgnStart pgit (by omega)
      have smallNext : ∀ other ∈ next, other.toNat < 8192 := fun other member =>
        small other (List.mem_cons_of_mem fpn member)
      rcases vmapPageLoop_cons pgnStart pgnum pgit fpn next mm mram (by omega) with
        ⟨_, same⟩ | ⟨_, edited, word, edit, same⟩
      · rw [same]
        have later := inductionHypothesis (pgit + 1) mm (memphyPutFreefp mram fpn) (by omega)
          (by omega) smallNext (fun read above => vacant read (by omega))
        have returned : Ledger.Move (mm.ledger (fpn :: next ++ mram.freeFpList))
            (mm.ledger (next ++ (memphyPutFreefp mram fpn).freeFpList)) :=
          .settle rfl List.perm_middle.symm
        exact .head returned later
      · rw [same]
        have located := edit.frameOf_fpnWord (small fpn List.mem_cons_self)
        have later := inductionHypothesis (pgit + 1)
          (enlistPgnNode edited (pgnStart + BitVec.ofNat 64 pgit)) mram (by omega) (by omega)
          smallNext (by
            intro read above
            have different : read ≠ pgnStart + BitVec.ofNat 64 pgit := by
              rintro rfl
              omega
            rw [frameOf_enlistPgnNode, located, Function.update_of_ne different]
            exact vacant read (by omega))
        have placed : Ledger.Move (mm.ledger (fpn :: next ++ mram.freeFpList))
            ((enlistPgnNode edited (pgnStart + BitVec.ofNat 64 pgit)).ledger
              (next ++ mram.freeFpList)) :=
          .place _ fpn (vacant _ (by omega)) (List.Perm.refl _) located
        exact .head placed later

/-- The loop keeps the paging list exact. -/
theorem vmapPageLoop_fifoExact (pgnStart : Addr) (pgnum : Int) (pgit : Nat) (frames : List Addr)
    (mm : MmStruct) (mram : MemphyStruct) (wanted : frames.length ≤ (pgnum - pgit).toNat)
    (fits : pgnStart.toNat + (pgit + frames.length) ≤ 2 ^ 64)
    (vacant : ∀ read : Addr, pgnStart.toNat + pgit ≤ read.toNat → mm.frameOf read = none)
    (exact : mm.FifoExact) :
    (vmapPageLoop pgnStart pgnum pgit frames mm mram).1.FifoExact := by
  induction frames generalizing pgit mm mram with
  | nil => exact exact
  | cons fpn next inductionHypothesis =>
      rw [List.length_cons] at wanted fits
      have here := toNat_add_ofNat pgnStart pgit (by omega)
      rcases vmapPageLoop_cons pgnStart pgnum pgit fpn next mm mram (by omega) with
        ⟨_, same⟩ | ⟨_, edited, word, edit, same⟩
      · rw [same]
        exact inductionHypothesis (pgit + 1) mm _ (by omega) (by omega)
          (fun read above => vacant read (by omega)) exact
      · rw [same]
        refine inductionHypothesis (pgit + 1) _ mram (by omega) (by omega) ?_
          (exact.store (vacant _ (by omega)) edit)
        intro read above
        have different : read ≠ pgnStart + BitVec.ofNat 64 pgit := by
          rintro rfl
          omega
        rw [frameOf_enlistPgnNode, edit.frameOf, Function.update_of_ne different]
        exact vacant read (by omega)

end Memory
end Ossim
