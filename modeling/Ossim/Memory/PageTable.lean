import Ossim.Memory.Layout

namespace Ossim
namespace Memory

open WordFields

/-!
# Page-table entries and the five-level walk

The first half is the entry word: the masks of `mm.h` and the edits made by
`pte_set_fpn` and `pte_set_swap`, with what each reader decodes afterwards.
The second half is the lazily allocated directory tree of `mm64.c`.

A page number is split into five 9-bit indices, so two page numbers below the
limit that agree in all five are equal.  Everything above this module uses the
tree only through `pteGetEntry` and the facts that a setter changes the entry
of its own page and no other.
-/

/-! ## The entry word -/

def PAGING_PTE_PRESENT_MASK : BitVec 32 := bitMask 32 31
def PAGING_PTE_SWAPPED_MASK : BitVec 32 := bitMask 32 30
def PAGING_PTE_RESERVE_MASK : BitVec 32 := bitMask 32 29
def PAGING_PTE_FPN_MASK : BitVec 32 := fieldMask 32 12 0
def PAGING_PTE_SWPTYP_MASK : BitVec 32 := fieldMask 32 4 0
def PAGING_PTE_SWPOFF_MASK : BitVec 32 := fieldMask 32 25 5

/-- `PAGING_PAGE_PRESENT(pte)` as a truth value. -/
def pagingPagePresent (pte : BitVec 32) : Bool := pte &&& PAGING_PTE_PRESENT_MASK != 0

/-- `pte & PAGING_PTE_SWAPPED_MASK` as a truth value. -/
def pagingPageSwapped (pte : BitVec 32) : Bool := pte &&& PAGING_PTE_SWAPPED_MASK != 0

/-- `PAGING_FPN(pte)`, widened to the frame-number type of its users. -/
def pagingFpn (pte : BitVec 32) : Addr := (takeField pte PAGING_PTE_FPN_MASK 0).setWidth 64

/-- `PAGING_SWP(pte)`. -/
def pagingSwp (pte : BitVec 32) : Addr := (takeField pte PAGING_PTE_SWPOFF_MASK 5).setWidth 64

/-- The edits of `pte_set_fpn` on the cell. -/
def fpnWord (fpn word : Addr) : Addr :=
  let online := setBits word PAGING_PTE_PRESENT_MASK
  let unswapped := clearBits online PAGING_PTE_SWAPPED_MASK
  putField unswapped fpn PAGING_PTE_FPN_MASK 0

/-- The edits of `pte_set_swap` on the cell. -/
def swapWord (swptyp : Int) (swpoff word : Addr) : Addr :=
  let offline := clearBits word PAGING_PTE_PRESENT_MASK
  let frameless := clearBits offline PAGING_PTE_FPN_MASK
  let swapped := setBits frameless PAGING_PTE_SWAPPED_MASK
  let typed := putField swapped (ofInt swptyp) PAGING_PTE_SWPTYP_MASK 0
  putField typed swpoff PAGING_PTE_SWPOFF_MASK 5

/-- The word that `vmap_pgd_memset` stores. -/
def markerWord : BitVec 32 := PAGING_PTE_RESERVE_MASK ||| 0xDEAD

theorem pagingPagePresent_iff (pte : BitVec 32) :
    pagingPagePresent pte = true ↔ pte.getLsbD 31 = true := by
  rw [pagingPagePresent, bne_iff_ne]
  exact and_bitMask_ne_zero_iff pte 31 (by decide)

theorem pagingPageSwapped_iff (pte : BitVec 32) :
    pagingPageSwapped pte = true ↔ pte.getLsbD 30 = true := by
  rw [pagingPageSwapped, bne_iff_ne]
  exact and_bitMask_ne_zero_iff pte 30 (by decide)

/-- One low bit of the word that `pte_set_fpn` leaves. -/
theorem getLsbD_fpnWord (fpn word : Addr) (i : Nat) :
    ((fpnWord fpn word).setWidth 32).getLsbD i =
      if i ≤ 12 then fpn.getLsbD i
      else ((((word.setWidth 32 : BitVec 32).getLsbD i) || decide (i = 31)) && !decide (i = 30)) := by
  have bit := getLsbD_putField (m := 32)
    (clearBits (setBits word PAGING_PTE_PRESENT_MASK) PAGING_PTE_SWAPPED_MASK) fpn 12 0 i
    (by decide) (by decide)
  rw [getLsbD_clearBits _ _ _ (by decide), getLsbD_setBits _ _ _ (by decide)] at bit
  rw [fpnWord, PAGING_PTE_FPN_MASK, bit, PAGING_PTE_PRESENT_MASK, PAGING_PTE_SWAPPED_MASK,
    getLsbD_bitMask 31 i (by decide), getLsbD_bitMask 30 i (by decide)]
  simp

@[simp] theorem pagingPagePresent_fpnWord (fpn word : Addr) :
    pagingPagePresent ((fpnWord fpn word).setWidth 32) = true := by
  rw [pagingPagePresent_iff, getLsbD_fpnWord]
  simp

@[simp] theorem pagingPageSwapped_fpnWord (fpn word : Addr) :
    pagingPageSwapped ((fpnWord fpn word).setWidth 32) = false := by
  rw [Bool.eq_false_iff, ne_eq, pagingPageSwapped_iff, getLsbD_fpnWord]
  simp

/-- The frame field is 13 bits wide, whatever the frame number was. -/
theorem toNat_pagingFpn_fpnWord (fpn word : Addr) :
    (pagingFpn ((fpnWord fpn word).setWidth 32)).toNat = fpn.toNat % 8192 := by
  have field := takeField_putField_same (m := 32)
    (clearBits (setBits word PAGING_PTE_PRESENT_MASK) PAGING_PTE_SWAPPED_MASK) fpn 12 0
    (by decide) (by decide)
  rw [pagingFpn, BitVec.toNat_setWidth, fpnWord, PAGING_PTE_FPN_MASK, field]
  omega

theorem toNat_pagingFpn_lt (pte : BitVec 32) : (pagingFpn pte).toNat < 8192 := by
  rw [pagingFpn, BitVec.toNat_setWidth, takeField, PAGING_PTE_FPN_MASK]
  have low : (fieldMask 32 12 0).toNat = 2 ^ 13 - 1 := by decide
  rw [BitVec.toNat_ushiftRight, BitVec.toNat_and, low, Nat.and_two_pow_sub_one_eq_mod]
  simp only [Nat.shiftRight_zero]
  omega

/-- One low bit of the word that `pte_set_swap` leaves. -/
theorem getLsbD_swapWord (swptyp : Int) (swpoff word : Addr) (i : Nat) :
    ((swapWord swptyp swpoff word).setWidth 32).getLsbD i =
      if 5 ≤ i ∧ i ≤ 25 then swpoff.getLsbD (i - 5)
      else if i ≤ 4 then (ofInt swptyp).getLsbD i
      else if i = 30 then true
      else ((word.setWidth 32 : BitVec 32).getLsbD i && !decide (i = 31) && !decide (i ≤ 12)) := by
  have bit := getLsbD_putField (m := 32)
    (putField (setBits (clearBits (clearBits word PAGING_PTE_PRESENT_MASK) PAGING_PTE_FPN_MASK)
      PAGING_PTE_SWAPPED_MASK) (ofInt swptyp) (fieldMask 32 4 0) 0) swpoff 25 5 i
    (by decide) (by decide)
  rw [getLsbD_putField _ _ 4 0 _ (by decide) (by decide), getLsbD_setBits _ _ _ (by decide),
    getLsbD_clearBits _ _ _ (by decide), getLsbD_clearBits _ _ _ (by decide)] at bit
  rw [swapWord, PAGING_PTE_SWPTYP_MASK, PAGING_PTE_SWPOFF_MASK, bit, PAGING_PTE_PRESENT_MASK,
    PAGING_PTE_SWAPPED_MASK, PAGING_PTE_FPN_MASK, getLsbD_bitMask 31 i (by decide),
    getLsbD_bitMask 30 i (by decide), getLsbD_fieldMask 12 0 i (by decide)]
  by_cases offset : 5 ≤ i ∧ i ≤ 25
  · simp only [if_pos offset]
  · rw [if_neg offset, if_neg offset]
    by_cases typ : i ≤ 4
    · simp [typ]
    · by_cases flag : i = 30
      · subst flag
        simp
      · simp [typ, flag]

@[simp] theorem pagingPagePresent_swapWord (swptyp : Int) (swpoff word : Addr) :
    pagingPagePresent ((swapWord swptyp swpoff word).setWidth 32) = false := by
  rw [Bool.eq_false_iff, ne_eq, pagingPagePresent_iff, getLsbD_swapWord]
  simp

@[simp] theorem pagingPageSwapped_swapWord (swptyp : Int) (swpoff word : Addr) :
    pagingPageSwapped ((swapWord swptyp swpoff word).setWidth 32) = true := by
  rw [pagingPageSwapped_iff, getLsbD_swapWord]
  simp

/-- The swap offset field is 21 bits wide, whatever the slot number was. -/
theorem toNat_pagingSwp_swapWord (swptyp : Int) (swpoff word : Addr) :
    (pagingSwp ((swapWord swptyp swpoff word).setWidth 32)).toNat = swpoff.toNat % 2097152 := by
  have field := takeField_putField_same (m := 32)
    (putField (setBits (clearBits (clearBits word PAGING_PTE_PRESENT_MASK) PAGING_PTE_FPN_MASK)
      PAGING_PTE_SWAPPED_MASK) (ofInt swptyp) PAGING_PTE_SWPTYP_MASK 0) swpoff 25 5
    (by decide) (by decide)
  rw [pagingSwp, BitVec.toNat_setWidth, swapWord, PAGING_PTE_SWPOFF_MASK, field]
  omega

@[simp] theorem pagingPagePresent_markerWord : pagingPagePresent markerWord = false := by
  decide

@[simp] theorem pagingPageSwapped_markerWord : pagingPageSwapped markerWord = false := by
  decide

@[simp] theorem pagingPagePresent_zero : pagingPagePresent 0#32 = false := by
  decide

@[simp] theorem pagingPageSwapped_zero : pagingPageSwapped 0#32 = false := by
  decide

/-! ## The walk -/

/-- The five directory indices of a page number. -/
structure PdIndices where
  pgd : DirIndex
  p4d : DirIndex
  pud : DirIndex
  pmd : DirIndex
  pt : DirIndex
  deriving DecidableEq, Repr

def PAGING64_ADDR_PGD_MASK : Addr := fieldMask 64 56 48
def PAGING64_ADDR_P4D_MASK : Addr := fieldMask 64 47 39
def PAGING64_ADDR_PUD_MASK : Addr := fieldMask 64 38 30
def PAGING64_ADDR_PMD_MASK : Addr := fieldMask 64 29 21
def PAGING64_ADDR_PT_MASK : Addr := fieldMask 64 20 12

def getPdFromAddress (addr : Addr) : PdIndices where
  pgd := (takeField addr PAGING64_ADDR_PGD_MASK 48).setWidth 9
  p4d := (takeField addr PAGING64_ADDR_P4D_MASK 39).setWidth 9
  pud := (takeField addr PAGING64_ADDR_PUD_MASK 30).setWidth 9
  pmd := (takeField addr PAGING64_ADDR_PMD_MASK 21).setWidth 9
  pt := (takeField addr PAGING64_ADDR_PT_MASK 12).setWidth 9

def getPdFromPagenum (pgn : Addr) : PdIndices :=
  getPdFromAddress (pgn <<< 12)

def dirLoad {Child : Type} (parent : Dir Child) (idx : DirIndex) : Option Child :=
  parent idx

/-- `dir_load_or_alloc`.  A missing child is a freshly cleared directory; the
caller stores it in the parent together with whatever it changes below. -/
def dirLoadOrAlloc {Child : Type} (cleared : Child) (parent : Dir Child) (idx : DirIndex) : Child :=
  (dirLoad parent idx).getD cleared

def PtDir.cleared : PtDir := fun _ => 0
def Dir.cleared {Child : Type} : Dir Child := fun _ => none

/-- Number of directories a `dir_load_or_alloc` has to allocate. -/
def allocated {Child : Type} (parent : Dir Child) (idx : DirIndex) : Nat :=
  if (dirLoad parent idx).isNone then 1 else 0

/-- `pte_walk` without allocation: the cell of the page, if every directory on
the way exists. -/
def pteWalk (mm : MmStruct) (pgn : Addr) : Option Addr :=
  if PAGING_MAX_PGN ≤ pgn then none
  else
    let ix := getPdFromPagenum pgn
    (dirLoad mm.pgd ix.pgd).bind fun p4d =>
      (dirLoad p4d ix.p4d).bind fun pud =>
        (dirLoad pud ix.pud).bind fun pmd =>
          (dirLoad pmd ix.pmd).map fun pt => pt ix.pt

/-- `pte_walk` with allocation, followed by the store `*pte = edit(*pte)`.
Missing directories are created top down, and the statistics count them. -/
def pteWalkAlloc (mm : MmStruct) (pgn : Addr) (edit : Addr → Addr) : Option MmStruct :=
  if PAGING_MAX_PGN ≤ pgn then none
  else
    let ix := getPdFromPagenum pgn
    let p4d := dirLoadOrAlloc Dir.cleared mm.pgd ix.pgd
    let pud := dirLoadOrAlloc Dir.cleared p4d ix.p4d
    let pmd := dirLoadOrAlloc Dir.cleared pud ix.pud
    let pt := dirLoadOrAlloc PtDir.cleared pmd ix.pmd
    let fresh := allocated mm.pgd ix.pgd + allocated p4d ix.p4d + allocated pud ix.pud +
      allocated pmd ix.pmd
    let pt' : PtDir := Function.update pt ix.pt (edit (pt ix.pt))
    let pmd' : PmdDir := Function.update pmd ix.pmd (some pt')
    let pud' : PudDir := Function.update pud ix.pud (some pmd')
    let p4d' : P4dDir := Function.update p4d ix.p4d (some pud')
    some { mm with
      pgd := Function.update mm.pgd ix.pgd (some p4d')
      mm64DirAllocCount := mm.mm64DirAllocCount + fresh
      mm64BytesAlloc := mm.mm64BytesAlloc + fresh * (512 * 8) }

/-- The common shape of the three setters: -1 when the walk fails. -/
def pteStore (mm : MmStruct) (pgn : Addr) (edit : Addr → Addr) : Int × MmStruct :=
  match pteWalkAlloc mm pgn edit with
  | none => (-1, mm)
  | some stored => (0, stored)

def pteSetSwap (mm : MmStruct) (pgn : Addr) (swptyp : Int) (swpoff : Addr) : Int × MmStruct :=
  pteStore mm pgn (swapWord swptyp swpoff)

def pteSetFpn (mm : MmStruct) (pgn fpn : Addr) : Int × MmStruct :=
  pteStore mm pgn (fpnWord fpn)

def pteSetEntry (mm : MmStruct) (pgn : Addr) (pteVal : BitVec 32) : Int × MmStruct :=
  pteStore mm pgn (fun _ => pteVal.setWidth 64)

def pteGetEntry (mm : MmStruct) (pgn : Addr) : BitVec 32 :=
  match pteWalk mm pgn with
  | none => 0
  | some pte => pte.setWidth 32

/-! ## The tree as a flat table -/

/-- An index is nine bits of the page number, since the shift by the page size
cancels against the low bit of its field. -/
theorem getLsbD_pdIndex (pgn : Addr) (hi lo i : Nat) (low : i < 9) (above : 12 ≤ lo)
    (width : hi = lo + 8) (inside : hi < 64) :
    ((takeField (pgn <<< 12) (fieldMask 64 hi lo) lo).setWidth 9).getLsbD i =
      pgn.getLsbD (lo - 12 + i) := by
  rw [BitVec.getLsbD_setWidth, getLsbD_takeField _ hi lo i inside, BitVec.getLsbD_shiftLeft]
  have reached : lo + i ≤ hi := by omega
  have short : lo + i < 64 := by omega
  have shifted : ¬ lo + i < 12 := by omega
  have position : lo + i - 12 = lo - 12 + i := by omega
  simp [low, reached, short, shifted, position]

/-- A page number below the limit has fourteen bits. -/
theorem getLsbD_of_short {pgn : Addr} (short : pgn < PAGING_MAX_PGN) (i : Nat) (high : 14 ≤ i) :
    pgn.getLsbD i = false := by
  have low : pgn.toNat < 2 ^ 14 := short
  rw [← BitVec.testBit_toNat]
  apply Nat.testBit_lt_two_pow
  exact Nat.lt_of_lt_of_le low (Nat.pow_le_pow_right (by decide : 0 < 2) high)

/-- Page numbers below the limit are determined by their five indices. -/
theorem getPdFromPagenum_injective (left right : Addr) (leftShort : left < PAGING_MAX_PGN)
    (rightShort : right < PAGING_MAX_PGN)
    (same : getPdFromPagenum left = getPdFromPagenum right) : left = right := by
  have leaf := congrArg PdIndices.pt same
  have middle := congrArg PdIndices.pmd same
  have leafBit : ∀ word : Addr, ∀ i, i < 9 →
      ((getPdFromPagenum word).pt).getLsbD i = word.getLsbD i := by
    intro word i low
    have bit := getLsbD_pdIndex word 20 12 i low (by decide) rfl (by decide)
    rwa [Nat.sub_self, Nat.zero_add] at bit
  have middleBit : ∀ word : Addr, ∀ i, i < 9 →
      ((getPdFromPagenum word).pmd).getLsbD i = word.getLsbD (9 + i) :=
    fun word i low => getLsbD_pdIndex word 29 21 i low (by decide) rfl (by decide)
  apply BitVec.eq_of_getLsbD_eq
  intro i _
  by_cases low : i < 9
  · rw [← leafBit left i low, ← leafBit right i low, leaf]
  · by_cases mid : i < 14
    · have split : i = 9 + (i - 9) := by omega
      rw [split, ← middleBit left (i - 9) (by omega), ← middleBit right (i - 9) (by omega), middle]
    · rw [getLsbD_of_short leftShort i (by omega), getLsbD_of_short rightShort i (by omega)]

/-- The cell of a page as the walk without allocation reads it. -/
def pteCell (mm : MmStruct) (pgn : Addr) : Addr := (pteWalk mm pgn).getD 0

theorem pteGetEntry_eq_cell (mm : MmStruct) (pgn : Addr) :
    pteGetEntry mm pgn = (pteCell mm pgn).setWidth 32 := by
  unfold pteGetEntry pteCell
  cases pteWalk mm pgn <;> rfl

/-- The nested reads of a walk, with a missing directory read as zero. -/
theorem pteCell_eq (mm : MmStruct) (pgn : Addr) (short : pgn < PAGING_MAX_PGN) :
    pteCell mm pgn =
      let ix := getPdFromPagenum pgn
      dirLoadOrAlloc PtDir.cleared (dirLoadOrAlloc Dir.cleared (dirLoadOrAlloc Dir.cleared
        (dirLoadOrAlloc Dir.cleared mm.pgd ix.pgd) ix.p4d) ix.pud) ix.pmd ix.pt := by
  unfold pteCell pteWalk dirLoadOrAlloc
  rw [if_neg (BitVec.not_le.mpr short)]
  dsimp only
  cases dirLoad mm.pgd (getPdFromPagenum pgn).pgd with
  | none => rfl
  | some p4d =>
      simp only [Option.bind_some, Option.getD_some]
      cases dirLoad p4d (getPdFromPagenum pgn).p4d with
      | none => rfl
      | some pud =>
          simp only [Option.bind_some, Option.getD_some]
          cases dirLoad pud (getPdFromPagenum pgn).pud with
          | none => rfl
          | some pmd =>
              simp only [Option.bind_some, Option.getD_some]
              cases dirLoad pmd (getPdFromPagenum pgn).pmd <;> rfl

theorem dirLoadOrAlloc_update {Child : Type} (cleared child : Child) (parent : Dir Child)
    (stored read : DirIndex) :
    dirLoadOrAlloc cleared (Function.update parent stored (some child)) read =
      if read = stored then child else dirLoadOrAlloc cleared parent read := by
  by_cases same : read = stored
  · subst same
    simp [dirLoadOrAlloc, dirLoad]
  · simp [dirLoadOrAlloc, dirLoad, same]

/-- A store succeeds exactly below the page limit. -/
theorem pteWalkAlloc_isSome_iff (mm : MmStruct) (pgn : Addr) (edit : Addr → Addr) :
    (pteWalkAlloc mm pgn edit).isSome = true ↔ pgn < PAGING_MAX_PGN := by
  unfold pteWalkAlloc
  by_cases long : PAGING_MAX_PGN ≤ pgn
  · rw [if_pos long]
    simp [BitVec.not_lt.mpr long]
  · rw [if_neg long]
    simp [BitVec.not_le.mp long]

/-- A store edits the cell of its own page and leaves every other cell. -/
theorem pteCell_pteWalkAlloc {mm stored : MmStruct} {pgn : Addr} {edit : Addr → Addr}
    (succeeded : pteWalkAlloc mm pgn edit = some stored) (read : Addr) :
    pteCell stored read = if read = pgn then edit (pteCell mm pgn) else pteCell mm read := by
  have short : pgn < PAGING_MAX_PGN :=
    (pteWalkAlloc_isSome_iff mm pgn edit).mp (by rw [succeeded]; rfl)
  by_cases readShort : read < PAGING_MAX_PGN
  · rw [pteCell_eq stored read readShort, pteCell_eq mm read readShort, pteCell_eq mm pgn short]
    unfold pteWalkAlloc at succeeded
    rw [if_neg (BitVec.not_le.mpr short), Option.some.injEq] at succeeded
    subst succeeded
    simp only [dirLoadOrAlloc_update]
    by_cases same : read = pgn
    · subst same
      simp [dirLoadOrAlloc_update]
    · have different : getPdFromPagenum read ≠ getPdFromPagenum pgn := fun equal =>
        same (getPdFromPagenum_injective read pgn readShort short equal)
      rw [if_neg same]
      by_cases pgd : (getPdFromPagenum read).pgd = (getPdFromPagenum pgn).pgd
      · rw [if_pos pgd, dirLoadOrAlloc_update, ← pgd]
        by_cases p4d : (getPdFromPagenum read).p4d = (getPdFromPagenum pgn).p4d
        · rw [if_pos p4d, dirLoadOrAlloc_update, ← p4d]
          by_cases pud : (getPdFromPagenum read).pud = (getPdFromPagenum pgn).pud
          · rw [if_pos pud, dirLoadOrAlloc_update, ← pud]
            by_cases pmd : (getPdFromPagenum read).pmd = (getPdFromPagenum pgn).pmd
            · rw [if_pos pmd, ← pmd]
              have pt : (getPdFromPagenum read).pt ≠ (getPdFromPagenum pgn).pt := by
                intro pt
                exact different (by
                  cases left : getPdFromPagenum read
                  cases right : getPdFromPagenum pgn
                  simp_all)
              rw [Function.update_of_ne pt]
            · rw [if_neg pmd]
          · rw [if_neg pud]
        · rw [if_neg p4d]
      · rw [if_neg pgd]
  · have long : PAGING_MAX_PGN ≤ read := BitVec.not_lt.mp readShort
    have different : read ≠ pgn := fun same => readShort (same ▸ short)
    simp [pteCell, pteWalk, long, different]

/-- The memory map after the entry of one page was replaced.  The walk may
have created directories, but no entry of another page differs. -/
structure PteEdited (mm : MmStruct) (pgn : Addr) (word : BitVec 32) (edited : MmStruct) :
    Prop where
  entry : ∀ read, pteGetEntry edited read = if read = pgn then word else pteGetEntry mm read
  mmap : edited.mmap = mm.mmap
  symrgtbl : edited.symrgtbl = mm.symrgtbl
  fifoPgn : edited.fifoPgn = mm.fifoPgn

/-- What a setter does, in one place: it fails without effect at or above the
page limit, and otherwise edits the entry of its own page only. -/
theorem pteStore_cases (mm : MmStruct) (pgn : Addr) (edit : Addr → Addr) :
    (PAGING_MAX_PGN ≤ pgn ∧ pteStore mm pgn edit = (-1, mm)) ∨
      (pgn < PAGING_MAX_PGN ∧ ∃ edited, pteStore mm pgn edit = (0, edited) ∧
        PteEdited mm pgn ((edit (pteCell mm pgn)).setWidth 32) edited) := by
  by_cases short : pgn < PAGING_MAX_PGN
  · right
    cases stored : pteWalkAlloc mm pgn edit with
    | none =>
        have impossible := (pteWalkAlloc_isSome_iff mm pgn edit).mpr short
        rw [stored] at impossible
        cases impossible
    | some edited =>
        refine ⟨short, edited, by rw [pteStore, stored], ?_⟩
        have untouched : edited.mmap = mm.mmap ∧ edited.symrgtbl = mm.symrgtbl ∧
            edited.fifoPgn = mm.fifoPgn := by
          have built := stored
          unfold pteWalkAlloc at built
          rw [if_neg (BitVec.not_le.mpr short), Option.some.injEq] at built
          subst built
          exact ⟨rfl, rfl, rfl⟩
        refine ⟨fun read => ?_, untouched.1, untouched.2.1, untouched.2.2⟩
        rw [pteGetEntry_eq_cell, pteGetEntry_eq_cell, pteCell_pteWalkAlloc stored]
        split <;> rfl
  · left
    have long : PAGING_MAX_PGN ≤ pgn := BitVec.not_lt.mp short
    refine ⟨long, ?_⟩
    rw [pteStore, pteWalkAlloc, if_pos long]

theorem pteGetEntry_of_long (mm : MmStruct) (pgn : Addr) (long : PAGING_MAX_PGN ≤ pgn) :
    pteGetEntry mm pgn = 0#32 := by
  rw [pteGetEntry, pteWalk, if_pos long]
  rfl

/-- A mapped page has a page number below the limit. -/
theorem lt_of_pageMapped {mm : MmStruct} {pgn : Addr}
    (mapped : pagingPagePresent (pteGetEntry mm pgn) = true ∨
      pagingPageSwapped (pteGetEntry mm pgn) = true) : pgn < PAGING_MAX_PGN := by
  by_contra long
  rw [pteGetEntry_of_long mm pgn (BitVec.not_lt.mp long)] at mapped
  simp only [pagingPagePresent_zero, pagingPageSwapped_zero, Bool.false_eq_true, or_self] at mapped

end Memory
end Ossim
