import Ossim.Memory.FrameTable

namespace Ossim
namespace Memory

/-!
# What a page-table entry can hold

The widths of the entry fields are fixed, and the sizes of the devices come
from the configuration.  An entry keeps a frame number below 8192 and a swap
slot below 2097152 exactly, and cuts larger ones to the field.  A device can be
formatted to far more frames than that.
-/

/-- After `pte_set_fpn` the page is present at exactly this frame. -/
def PresentAt (mm : MmStruct) (pgn fpn : Addr) : Prop :=
  let pte := pteGetEntry (pteSetFpn mm pgn fpn).2 pgn
  pagingPagePresent pte = true ∧ pagingPageSwapped pte = false ∧ pagingFpn pte = fpn

/-- After `pte_set_swap` the page is swapped out to exactly this slot. -/
def SwappedAt (mm : MmStruct) (pgn : Addr) (swptyp : Int) (swpoff : Addr) : Prop :=
  let pte := pteGetEntry (pteSetSwap mm pgn swptyp swpoff).2 pgn
  pagingPagePresent pte = false ∧ pagingPageSwapped pte = true ∧ pagingSwp pte = swpoff

/-- The entry format loses nothing for devices of these sizes: every frame and
every slot that the devices hand out decodes to itself, and different frames
stay different. -/
structure FormatLossless (memramsz memswpsz : Addr) : Prop where
  present : ∀ fpn ∈ (initMemphy memramsz 1).freeFpList, ∀ (mm : MmStruct) (pgn : Addr),
    pgn < PAGING_MAX_PGN → PresentAt mm pgn fpn
  swapped : ∀ swpoff ∈ (initMemphy memswpsz 1).freeFpList, ∀ swptyp : Int, 0 ≤ swptyp →
    swptyp < 32 → ∀ (mm : MmStruct) (pgn : Addr), pgn < PAGING_MAX_PGN →
      SwappedAt mm pgn swptyp swpoff
  distinct : ∀ left ∈ (initMemphy memramsz 1).freeFpList,
    ∀ right ∈ (initMemphy memramsz 1).freeFpList, left ≠ right →
      ∀ (leftMm rightMm : MmStruct) (leftPgn rightPgn : Addr), leftPgn < PAGING_MAX_PGN →
        rightPgn < PAGING_MAX_PGN →
          pagingFpn (pteGetEntry (pteSetFpn leftMm leftPgn left).2 leftPgn) ≠
            pagingFpn (pteGetEntry (pteSetFpn rightMm rightPgn right).2 rightPgn)

/-! ## One entry -/

theorem pteGetEntry_pteSetFpn {mm : MmStruct} {pgn : Addr} (short : pgn < PAGING_MAX_PGN)
    (fpn : Addr) :
    pteGetEntry (pteSetFpn mm pgn fpn).2 pgn = (fpnWord fpn (pteCell mm pgn)).setWidth 32 := by
  rcases pteStore_cases mm pgn (fpnWord fpn) with ⟨long, _⟩ | ⟨_, edited, stored, edit⟩
  · exact absurd short (BitVec.not_lt.mpr long)
  · rw [pteSetFpn, stored]
    exact (edit.entry pgn).trans (if_pos rfl)

theorem pteGetEntry_pteSetSwap {mm : MmStruct} {pgn : Addr} (short : pgn < PAGING_MAX_PGN)
    (swptyp : Int) (swpoff : Addr) :
    pteGetEntry (pteSetSwap mm pgn swptyp swpoff).2 pgn =
      (swapWord swptyp swpoff (pteCell mm pgn)).setWidth 32 := by
  rcases pteStore_cases mm pgn (swapWord swptyp swpoff) with ⟨long, _⟩ | ⟨_, edited, stored, edit⟩
  · exact absurd short (BitVec.not_lt.mpr long)
  · rw [pteSetSwap, stored]
    exact (edit.entry pgn).trans (if_pos rfl)

/-- A frame number survives the entry exactly when it fits the field. -/
theorem presentAt_iff (mm : MmStruct) (pgn fpn : Addr) (short : pgn < PAGING_MAX_PGN) :
    PresentAt mm pgn fpn ↔ fpn.toNat < 8192 := by
  unfold PresentAt
  rw [pteGetEntry_pteSetFpn short]
  dsimp only
  rw [pagingPagePresent_fpnWord, pagingPageSwapped_fpnWord]
  have field := toNat_pagingFpn_fpnWord fpn (pteCell mm pgn)
  constructor
  · rintro ⟨_, _, same⟩
    rw [same] at field
    omega
  · intro small
    exact ⟨rfl, rfl, pagingFpn_fpnWord_of_lt fpn _ small⟩

/-- A slot number survives the entry exactly when it fits the field. -/
theorem swappedAt_iff (mm : MmStruct) (pgn : Addr) (swptyp : Int) (swpoff : Addr)
    (short : pgn < PAGING_MAX_PGN) :
    SwappedAt mm pgn swptyp swpoff ↔ swpoff.toNat < 2097152 := by
  unfold SwappedAt
  rw [pteGetEntry_pteSetSwap short]
  dsimp only
  rw [pagingPagePresent_swapWord, pagingPageSwapped_swapWord]
  have field := toNat_pagingSwp_swapWord swptyp swpoff (pteCell mm pgn)
  constructor
  · rintro ⟨_, _, same⟩
    rw [same] at field
    omega
  · intro small
    refine ⟨rfl, rfl, BitVec.eq_of_toNat_eq ?_⟩
    rw [field, Nat.mod_eq_of_lt small]

/-! ## Whole devices -/

theorem mem_freeFpList_initMemphy (memsz : Addr) (randomflg : Int) (fpn : Addr) :
    fpn ∈ (initMemphy memsz randomflg).freeFpList ↔ fpn.toNat < frameCount memsz := by
  have bounds := asInt_bounds memsz
  have count := frameCount_eq memsz
  rw [freeFpList_initMemphy]
  exact mem_frames _ (by omega) fpn

/-- The format is lossless exactly for a RAM of at most 8192 frames and a swap
of at most 2097152 slots. -/
theorem formatLossless_iff (memramsz memswpsz : Addr) :
    FormatLossless memramsz memswpsz ↔
      frameCount memramsz ≤ 8192 ∧ frameCount memswpsz ≤ 2097152 := by
  constructor
  · intro lossless
    refine ⟨?_, ?_⟩
    · by_contra large
      have listed : (8192 : Addr) ∈ (initMemphy memramsz 1).freeFpList := by
        rw [mem_freeFpList_initMemphy]
        exact Nat.lt_of_not_le large
      have kept := lossless.present 8192 listed (initMm []) 0 (by decide)
      rw [presentAt_iff _ _ _ (by decide)] at kept
      exact absurd kept (by decide)
    · by_contra large
      have listed : (2097152 : Addr) ∈ (initMemphy memswpsz 1).freeFpList := by
        rw [mem_freeFpList_initMemphy]
        exact Nat.lt_of_not_le large
      have kept := lossless.swapped 2097152 listed 0 (by decide) (by decide) (initMm []) 0 (by decide)
      rw [swappedAt_iff _ _ _ _ (by decide)] at kept
      exact absurd kept (by decide)
  · rintro ⟨frames, slots⟩
    have small : ∀ fpn ∈ (initMemphy memramsz 1).freeFpList, fpn.toNat < 8192 := by
      intro fpn member
      rw [mem_freeFpList_initMemphy] at member
      omega
    refine ⟨?_, ?_, ?_⟩
    · intro fpn member mm pgn short
      exact (presentAt_iff mm pgn fpn short).mpr (small fpn member)
    · intro swpoff member swptyp _ _ mm pgn short
      rw [mem_freeFpList_initMemphy] at member
      exact (swappedAt_iff mm pgn swptyp swpoff short).mpr (by omega)
    · intro left leftMember right rightMember different leftMm rightMm leftPgn rightPgn leftShort
        rightShort same
      rw [((presentAt_iff leftMm leftPgn left leftShort).mpr (small left leftMember)).2.2,
        ((presentAt_iff rightMm rightPgn right rightShort).mpr (small right rightMember)).2.2]
        at same
      exact different same

/-- The shipped RAM of 256 MB has a frame 8192, and a page given that frame
decodes as present at frame 0. -/
theorem not_formatLossless_256MB :
    (8192 : Addr) ∈ (initMemphy 268435456 1).freeFpList ∧
      pagingFpn (pteGetEntry (pteSetFpn (initMm []) 0 8192).2 0) = 0 ∧
      ¬ FormatLossless 268435456 16777216 := by
  refine ⟨(mem_freeFpList_initMemphy _ _ _).mpr (by decide), by decide, fun lossless => ?_⟩
  have kept := lossless.present 8192 ((mem_freeFpList_initMemphy _ _ _).mpr (by decide)) (initMm []) 0
    (by decide)
  exact absurd kept.2.2 (by decide)

end Memory
end Ossim
