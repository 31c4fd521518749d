import Ossim.Memory.FrameTable

namespace Ossim
namespace Memory

/-!
# The page table as a map from pages to places

A page that exists is either in a frame of the RAM or in a slot of the active
swap.  `placeOf` is that place.  When a page is brought in from swap, a
resident page gives up its frame for the reserved slot, and the wanted page
takes the frame.  `Exchanged` is the effect on the table and the paging list.
-/

/-- Where a page is kept. -/
inductive Place
  | frame (fpn : Addr)
  | slot (swpoff : Addr)
  deriving DecidableEq, Repr

/-- The place is one of the first frames or one of the first slots. -/
def Place.InRange (frames slots : Nat) : Place → Prop
  | .frame fpn => fpn.toNat < frames
  | .slot swpoff => swpoff.toNat < slots

/-- The cells of a place. -/
def cellsOf (mram mswp : MemphyStruct) : Place → Fin 256 → Byte
  | .frame fpn, offset => mram.storage (pageCell fpn offset)
  | .slot swpoff, offset => mswp.storage (pageCell swpoff offset)

namespace MmStruct

def placeOf (mm : MmStruct) (pgn : Addr) : Option Place :=
  let pte := pteGetEntry mm pgn
  if pagingPagePresent pte then some (.frame (pagingFpn pte))
  else if pagingPageSwapped pte then some (.slot (pagingSwp pte))
  else none

/-- No entry is both present and swapped. -/
def Unmixed (mm : MmStruct) : Prop :=
  ∀ pgn, ¬ (pagingPagePresent (pteGetEntry mm pgn) = true ∧
    pagingPageSwapped (pteGetEntry mm pgn) = true)

/-- The paging list names every present page once, and no other page. -/
theorem fifoExact_iff (mm : MmStruct) : mm.FifoExact ↔ mm.fifoPgn.Nodup ∧
    ∀ pgn, pgn ∈ mm.fifoPgn ↔ pagingPagePresent (pteGetEntry mm pgn) = true := by
  simp only [FifoExact, frameOf_isSome]

theorem placeOf_present {mm : MmStruct} {pgn : Addr}
    (present : pagingPagePresent (pteGetEntry mm pgn) = true) :
    mm.placeOf pgn = some (.frame (pagingFpn (pteGetEntry mm pgn))) :=
  if_pos present

theorem placeOf_swapped {mm : MmStruct} {pgn : Addr}
    (absent : pagingPagePresent (pteGetEntry mm pgn) = false)
    (swapped : pagingPageSwapped (pteGetEntry mm pgn) = true) :
    mm.placeOf pgn = some (.slot (pagingSwp (pteGetEntry mm pgn))) := by
  rw [placeOf, absent, swapped]
  rfl

/-- The frames among the places are those that the frame table shows. -/
theorem placeOf_eq_frame_iff (mm : MmStruct) (pgn fpn : Addr) :
    mm.placeOf pgn = some (.frame fpn) ↔ mm.frameOf pgn = some fpn := by
  rw [frameOf_eq_some_iff, placeOf]
  cases present : pagingPagePresent (pteGetEntry mm pgn) with
  | true => simp
  | false => cases swapped : pagingPageSwapped (pteGetEntry mm pgn) <;> simp

/-- The place depends on the entries only. -/
theorem placeOf_congr {mm after : MmStruct}
    (entries : ∀ pgn, pteGetEntry after pgn = pteGetEntry mm pgn) : after.placeOf = mm.placeOf := by
  funext pgn
  rw [placeOf, entries, placeOf]

end MmStruct

/-! ## Storing one entry -/

theorem PteEdited.placeOf {mm edited : MmStruct} {pgn : Addr} {word : BitVec 32}
    (edit : PteEdited mm pgn word edited) :
    edited.placeOf = Function.update mm.placeOf pgn
      (if pagingPagePresent word then some (.frame (pagingFpn word))
        else if pagingPageSwapped word then some (.slot (pagingSwp word)) else none) := by
  funext read
  unfold MmStruct.placeOf
  rw [edit.entry]
  by_cases same : read = pgn
  · subst same
    simp
  · simp [same]

theorem PteEdited.placeOf_fpnWord {mm edited : MmStruct} {pgn fpn word : Addr}
    (edit : PteEdited mm pgn ((fpnWord fpn word).setWidth 32) edited)
    (small : fpn.toNat < 8192) :
    edited.placeOf = Function.update mm.placeOf pgn (some (.frame fpn)) := by
  rw [edit.placeOf, pagingPagePresent_fpnWord, if_pos rfl, pagingFpn_fpnWord_of_lt _ _ small]

theorem PteEdited.placeOf_swapWord {mm edited : MmStruct} {pgn swpoff word : Addr} {swptyp : Int}
    (edit : PteEdited mm pgn ((swapWord swptyp swpoff word).setWidth 32) edited)
    (small : swpoff.toNat < 2097152) :
    edited.placeOf = Function.update mm.placeOf pgn (some (.slot swpoff)) := by
  have offset : pagingSwp ((swapWord swptyp swpoff word).setWidth 32) = swpoff := by
    apply BitVec.eq_of_toNat_eq
    rw [toNat_pagingSwp_swapWord, Nat.mod_eq_of_lt small]
  rw [edit.placeOf, pagingPagePresent_swapWord, pagingPageSwapped_swapWord, offset]
  rfl

theorem PteEdited.unmixed {mm edited : MmStruct} {pgn : Addr} {word : BitVec 32}
    (edit : PteEdited mm pgn word edited) (unmixed : mm.Unmixed)
    (single : ¬ (pagingPagePresent word = true ∧ pagingPageSwapped word = true)) :
    edited.Unmixed := by
  intro read
  rw [edit.entry]
  by_cases same : read = pgn
  · rw [if_pos same]
    exact single
  · rw [if_neg same]
    exact unmixed read

/-! ## Bringing a page in -/

/-- The victim's page is in the reserved slot, and the wanted page is in the
victim's frame. -/
structure Exchanged (mm : MmStruct) (pgn vicpgn vicfpn swpfpn : Addr) (after : MmStruct) :
    Prop where
  placeOf : after.placeOf = Function.update
    (Function.update mm.placeOf vicpgn (some (.slot swpfpn))) pgn (some (.frame vicfpn))
  unmixed : after.Unmixed
  fifoExact : after.FifoExact

/-- The victim is a present page. -/
theorem findVictimPage_cases {mm : MmStruct} (exact : mm.FifoExact) :
    findVictimPage mm = none ∨
      ∃ vicpgn rest, mm.fifoPgn = rest ++ [vicpgn] ∧
        findVictimPage mm = some (vicpgn, { mm with fifoPgn := rest }) ∧
        pagingPagePresent (pteGetEntry mm vicpgn) = true := by
  unfold findVictimPage
  cases last : mm.fifoPgn.getLast? with
  | none => exact Or.inl rfl
  | some vicpgn =>
      have split := List.dropLast_append_getLast? vicpgn last
      have listed : vicpgn ∈ mm.fifoPgn := List.mem_of_getLast? last
      refine Or.inr ⟨vicpgn, mm.fifoPgn.dropLast, split.symm, rfl, ?_⟩
      exact ((MmStruct.fifoExact_iff mm).mp exact).2 vicpgn |>.mp listed

/-- The two entry stores and the list edits of a page that is brought in. -/
theorem exchanged_of_swapIn {mm : MmStruct} {pgn vicpgn vicfpn swpfpn : Addr} {rest : List Addr}
    (swptyp : Int) (exact : mm.FifoExact) (unmixed : mm.Unmixed)
    (listed : mm.fifoPgn = rest ++ [vicpgn])
    (victim : pagingPagePresent (pteGetEntry mm vicpgn) = true)
    (absent : pagingPagePresent (pteGetEntry mm pgn) = false)
    (swapped : pagingPageSwapped (pteGetEntry mm pgn) = true)
    (smallFrame : vicfpn.toNat < 8192) (smallSlot : swpfpn.toNat < 2097152) :
    Exchanged mm pgn vicpgn vicfpn swpfpn
      (enlistPgnNode (pteSetFpn (pteSetSwap { mm with fifoPgn := rest } vicpgn swptyp swpfpn).2
        pgn vicfpn).2 pgn) := by
  have different : pgn ≠ vicpgn := by
    rintro rfl
    rw [absent] at victim
    cases victim
  have vicShort := lt_of_pageMapped (Or.inl victim)
  have pgnShort := lt_of_pageMapped (Or.inr swapped)
  rcases pteStore_cases { mm with fifoPgn := rest } vicpgn (swapWord swptyp swpfpn) with
    ⟨long, _⟩ | ⟨_, out, storedOut, editOut⟩
  · exact absurd vicShort (BitVec.not_lt.mpr long)
  rw [pteSetSwap, storedOut]
  rcases pteStore_cases out pgn (fpnWord vicfpn) with ⟨long, _⟩ | ⟨_, back, storedBack, editBack⟩
  · exact absurd pgnShort (BitVec.not_lt.mpr long)
  rw [pteSetFpn, storedBack]
  have entries : ∀ read, pteGetEntry (enlistPgnNode back pgn) read = pteGetEntry back read :=
    fun read => pteGetEntry_enlistPgnNode back pgn read
  refine ⟨?_, ?_, ?_⟩
  · rw [MmStruct.placeOf_congr entries, editBack.placeOf_fpnWord smallFrame,
      editOut.placeOf_swapWord smallSlot]
    rfl
  · intro read
    rw [entries]
    refine editBack.unmixed (editOut.unmixed (fun other => unmixed other) ?_) ?_ read
    · rw [pagingPagePresent_swapWord]
      rintro ⟨impossible, _⟩
      cases impossible
    · rw [pagingPageSwapped_fpnWord]
      rintro ⟨_, impossible⟩
      cases impossible
  · rw [MmStruct.fifoExact_iff] at exact ⊢
    have kept : (enlistPgnNode back pgn).fifoPgn = pgn :: rest := by
      rw [enlistPgnNode, editBack.fifoPgn, editOut.fifoPgn]
    rw [listed, List.nodup_append] at exact
    have members : ∀ read, read ∈ rest ↔
        read ≠ vicpgn ∧ pagingPagePresent (pteGetEntry mm read) = true := by
      intro read
      rw [← exact.2 read, List.mem_append, List.mem_singleton]
      constructor
      · intro member
        exact ⟨exact.1.2.2 read member vicpgn (List.mem_singleton_self _), Or.inl member⟩
      · rintro ⟨other, member | same⟩
        · exact member
        · exact absurd same other
    have fresh : pgn ∉ rest := by
      rw [members, absent]
      rintro ⟨_, impossible⟩
      cases impossible
    rw [kept]
    refine ⟨List.nodup_cons.mpr ⟨fresh, exact.1.1⟩, fun read => ?_⟩
    rw [entries, editBack.entry, editOut.entry, List.mem_cons, members]
    by_cases same : read = pgn
    · simp [same]
    · by_cases isVictim : read = vicpgn
      · simp [isVictim, different.symm]
      · rw [if_neg same, if_neg isVictim]
        exact ⟨fun found => found.elim (fun equal => absurd equal same) And.right,
          fun present => Or.inr ⟨isVictim, present⟩⟩

end Memory
end Ossim
