import Ossim.Memory.RegionTable

namespace Ossim
namespace Memory

/-!
# The user address space of one process

The address space below the break is divided among the user regions of the
symbol table and the nodes of the free list.  `Separate` says that this is
really a division: every part is an ordered range below the break and no two
parts share an address.  Addresses that belong to no part are lost, which is
allowed; a slot that is overwritten loses its old region.

Every edit of the library keeps a division, provided that the sizes survive
their two narrowings.  `PickedHasRoom` is the condition for a region from the
free list; for a region from a growth the condition is on its page count.
-/

/-- An ordered range that ends at or below a limit. -/
structure VmRgStruct.Below (limit : Addr) (rg : VmRgStruct) : Prop where
  ordered : rg.rgStart.toNat ≤ rg.rgEnd.toNat
  limited : rg.rgEnd.toNat ≤ limit.toNat

/-- The slot holds a user region. -/
def MmStruct.UserSlot (mm : MmStruct) (rgid : Fin PAGING_MAX_SYMTBL_SZ) : Prop :=
  (mm.symrgtbl rgid).modeBit = .user

/-- User regions and free nodes are ranges below the break and never overlap. -/
structure MmStruct.Separate (mm : MmStruct) : Prop where
  nodeBelow : ∀ node ∈ mm.area.vmFreergList, node.Below mm.area.sbrk
  regionBelow : ∀ rgid, mm.UserSlot rgid → (mm.symrgtbl rgid).Below mm.area.sbrk
  nodesApart : mm.area.vmFreergList.Pairwise VmRgStruct.Apart
  regionsApart : ∀ left right, left ≠ right → mm.UserSlot left → mm.UserSlot right →
    (mm.symrgtbl left).Apart (mm.symrgtbl right)
  crossApart : ∀ rgid, mm.UserSlot rgid → ∀ node ∈ mm.area.vmFreergList,
    (mm.symrgtbl rgid).Apart node

namespace MmStruct

theorem separate_initMm : (initMm []).Separate where
  nodeBelow := by
    intro node member
    rw [List.mem_singleton.mp member]
    exact ⟨le_refl _, le_refl _⟩
  regionBelow := by
    intro rgid user
    cases user
  nodesApart := List.pairwise_singleton _ _
  regionsApart := by
    intro left right _ user
    cases user
  crossApart := by
    intro rgid user
    cases user

/-! ## Storing a slot -/

theorem symrgtbl_setRegion_self (mm : MmStruct) (slot : Fin PAGING_MAX_SYMTBL_SZ)
    (rg : VmRgStruct) : (mm.setRegion slot rg).symrgtbl slot = rg :=
  Function.update_self _ _ _

theorem symrgtbl_setRegion_of_ne (mm : MmStruct) {slot other : Fin PAGING_MAX_SYMTBL_SZ}
    (rg : VmRgStruct) (different : other ≠ slot) :
    (mm.setRegion slot rg).symrgtbl other = mm.symrgtbl other :=
  Function.update_of_ne different _ _

theorem userSlot_setRegion {mm : MmStruct} {slot other : Fin PAGING_MAX_SYMTBL_SZ}
    {rg : VmRgStruct} (different : other ≠ slot) :
    (mm.setRegion slot rg).UserSlot other ↔ mm.UserSlot other := by
  rw [UserSlot, symrgtbl_setRegion_of_ne mm rg different, UserSlot]

/-- A stored region has to fit in only when it is a user region. -/
theorem Separate.setRegion {mm : MmStruct} (separate : mm.Separate)
    (slot : Fin PAGING_MAX_SYMTBL_SZ) (rg : VmRgStruct)
    (below : rg.modeBit = .user → rg.Below mm.area.sbrk)
    (regions : rg.modeBit = .user → ∀ other, other ≠ slot → mm.UserSlot other →
      rg.Apart (mm.symrgtbl other))
    (nodes : rg.modeBit = .user → ∀ node ∈ mm.area.vmFreergList, rg.Apart node) :
    (mm.setRegion slot rg).Separate := by
  have here := symrgtbl_setRegion_self mm slot rg
  have there : ∀ other, other ≠ slot → (mm.setRegion slot rg).symrgtbl other = mm.symrgtbl other :=
    fun other different => symrgtbl_setRegion_of_ne mm rg different
  have mode : (mm.setRegion slot rg).UserSlot slot → rg.modeBit = .user := by
    intro user
    rw [UserSlot, here] at user
    exact user
  refine ⟨separate.nodeBelow, ?_, separate.nodesApart, ?_, ?_⟩
  · intro rgid user
    by_cases same : rgid = slot
    · subst same
      rw [here]
      exact below (mode user)
    · rw [there rgid same]
      exact separate.regionBelow rgid ((userSlot_setRegion same).mp user)
  · intro left right different leftUser rightUser
    by_cases leftSlot : left = slot
    · subst leftSlot
      rw [here, there right different.symm]
      exact regions (mode leftUser) right different.symm
        ((userSlot_setRegion different.symm).mp rightUser)
    · have oldLeft := (userSlot_setRegion leftSlot).mp leftUser
      rw [there left leftSlot]
      by_cases rightSlot : right = slot
      · subst rightSlot
        rw [here]
        exact (regions (mode rightUser) left leftSlot oldLeft).symm
      · rw [there right rightSlot]
        exact separate.regionsApart left right different oldLeft
          ((userSlot_setRegion rightSlot).mp rightUser)
  · intro rgid user node member
    by_cases same : rgid = slot
    · subst same
      rw [here]
      exact nodes (mode user) node member
    · rw [there rgid same]
      exact separate.crossApart rgid ((userSlot_setRegion same).mp user) node member

/-- A kernel region or a cleared slot takes no part in the division. -/
theorem Separate.setRegion_kernel {mm : MmStruct} (separate : mm.Separate)
    (slot : Fin PAGING_MAX_SYMTBL_SZ) {rg : VmRgStruct} (mode : rg.modeBit = .kernel) :
    (mm.setRegion slot rg).Separate := by
  have never : rg.modeBit ≠ .user := by
    rw [mode]
    exact VmrgMode.noConfusion
  exact separate.setRegion slot rg (fun user => absurd user never) (fun user => absurd user never)
    (fun user => absurd user never)

/-! ## Replacing the free list -/

theorem Separate.setFreeList {mm : MmStruct} (separate : mm.Separate) (sound : mm.Sound)
    {nodes : List VmRgStruct} (below : ∀ node ∈ nodes, node.Below mm.area.sbrk)
    (apart : nodes.Pairwise VmRgStruct.Apart)
    (cross : ∀ rgid, mm.UserSlot rgid → ∀ node ∈ nodes, (mm.symrgtbl rgid).Apart node) :
    (mm.setFreeList nodes).Separate := by
  have area := sound.area_setFreeList nodes
  refine ⟨?_, ?_, ?_, separate.regionsApart, ?_⟩
  · rw [area]
    exact below
  · rw [area]
    exact separate.regionBelow
  · rw [area]
    exact apart
  · rw [area]
    exact cross

/-- A region that the search cuts off a node moves to a slot. -/
theorem Separate.take {mm : MmStruct} (separate : mm.Separate) (sound : mm.Sound)
    (slot : Fin PAGING_MAX_SYMTBL_SZ) {size : Int} {newrg : VmRgStruct} {left : List VmRgStruct}
    (found : firstFit size mm.area.vmFreergList = some (newrg, left))
    (room : PickedHasRoom size mm.area.vmFreergList) :
    ((mm.setFreeList left).setRegion slot newrg).Separate := by
  have cut := firstFit_cut found (fun node member => (separate.nodeBelow node member).ordered)
    separate.nodesApart room
  have below : ∀ piece, InsideOne piece mm.area.vmFreergList → piece.Below mm.area.sbrk := by
    rintro piece ⟨node, member, _, ordered, finish⟩
    exact ⟨ordered, finish.trans (separate.nodeBelow node member).limited⟩
  have cross : ∀ piece, InsideOne piece mm.area.vmFreergList → ∀ rgid, mm.UserSlot rgid →
      piece.Apart (mm.symrgtbl rgid) := by
    intro piece inside rgid user
    rcases inside.bytes with ⟨node, member, contained⟩
    exact (separate.crossApart rgid user node member).symm.mono contained
  have shrunk : (mm.setFreeList left).Separate :=
    separate.setFreeList sound (fun piece member => below piece (cut.rest piece member))
      cut.restApart (fun rgid user piece member => (cross piece (cut.rest piece member) rgid user).symm)
  have area := sound.area_setFreeList left
  refine shrunk.setRegion slot newrg (fun _ => ?_) (fun _ other _ user => ?_) (fun _ => ?_)
  · rw [area]
    exact below newrg cut.region
  · exact cross newrg cut.region other user
  · rw [area]
    exact cut.apart

/-- A user region goes back to the free list and leaves its slot. -/
theorem Separate.release {mm : MmStruct} (separate : mm.Separate) (sound : mm.Sound)
    (slot : Fin PAGING_MAX_SYMTBL_SZ) (user : mm.UserSlot slot) :
    ((mm.setRegion slot VmRgStruct.zero).setFreeList
      (⟨(mm.symrgtbl slot).rgStart, (mm.symrgtbl slot).rgEnd, .user⟩ ::
        mm.area.vmFreergList)).Separate := by
  have cleared : (mm.setRegion slot VmRgStruct.zero).Separate :=
    separate.setRegion_kernel slot rfl
  refine cleared.setFreeList (sound.setRegion slot _) ?_ ?_ ?_
  · intro node member
    rcases List.mem_cons.mp member with same | old
    · have bounds := separate.regionBelow slot user
      rw [same]
      exact ⟨bounds.ordered, bounds.limited⟩
    · exact separate.nodeBelow node old
  · rw [List.pairwise_cons]
    exact ⟨separate.crossApart slot user, separate.nodesApart⟩
  · intro rgid stillUser node member
    by_cases same : rgid = slot
    · subst same
      rw [UserSlot, symrgtbl_setRegion_self] at stillUser
      cases stillUser
    · have wasUser := (userSlot_setRegion same).mp stillUser
      rw [symrgtbl_setRegion_of_ne mm _ same]
      rcases List.mem_cons.mp member with isRegion | old
      · rw [isRegion]
        exact separate.regionsApart rgid slot same wasUser user
      · exact separate.crossApart rgid wasUser node old

/-! ## Raising the break -/

/-- The same parts below a break that is no lower. -/
theorem Separate.raise {mm after : MmStruct} (separate : mm.Separate)
    (nodes : after.area.vmFreergList = mm.area.vmFreergList)
    (table : after.symrgtbl = mm.symrgtbl)
    (raised : mm.area.sbrk.toNat ≤ after.area.sbrk.toNat) : after.Separate := by
  have below : ∀ rg : VmRgStruct, rg.Below mm.area.sbrk → rg.Below after.area.sbrk :=
    fun rg bounds => ⟨bounds.ordered, bounds.limited.trans raised⟩
  have slots : ∀ rgid, after.UserSlot rgid → mm.UserSlot rgid := by
    intro rgid user
    rw [UserSlot, table] at user
    exact user
  refine ⟨?_, ?_, ?_, ?_, ?_⟩
  · rw [nodes]
    exact fun node member => below node (separate.nodeBelow node member)
  · rw [table]
    exact fun rgid user => below _ (separate.regionBelow rgid (slots rgid user))
  · rw [nodes]
    exact separate.nodesApart
  · rw [table]
    exact fun left right different leftUser rightUser =>
      separate.regionsApart left right different (slots left leftUser) (slots right rightUser)
  · rw [nodes, table]
    exact fun rgid user => separate.crossApart rgid (slots rgid user)

theorem Separate.grow {mm grown : MmStruct} {mram left : MemphyStruct} {incSz : Addr}
    (separate : mm.Separate) (growth : Growth mm mram incSz grown left) : grown.Separate := by
  have larger : mm.area.sbrk.toNat < (mm.area.sbrk + incAmt incSz).toNat := growth.accepted
  refine separate.raise growth.vmFreergList growth.symrgtbl ?_
  rw [growth.sbrk]
  exact larger.le

theorem Separate.of_marked {mm marked : MmStruct} {addr : Addr} {pgnum : Int}
    (separate : mm.Separate) (mark : Marked mm addr pgnum marked) : marked.Separate := by
  have same : marked.area = mm.area := by rw [area, mark.mmap, area]
  exact separate.raise (by rw [same]) mark.symrgtbl (by rw [same])

/-- The new part between the old break and the new one. -/
theorem Separate.growRegion {mm grown : MmStruct} {mram left : MemphyStruct} {incSz size : Addr}
    (separate : mm.Separate) (growth : Growth mm mram incSz grown left)
    (slot : Fin PAGING_MAX_SYMTBL_SZ)
    (fits : mm.area.sbrk.toNat + size.toNat ≤ (mm.area.sbrk + incAmt incSz).toNat) :
    (grown.setRegion slot ⟨mm.area.sbrk, mm.area.sbrk + size, .user⟩).Separate := by
  have finish : (mm.area.sbrk + size).toNat = mm.area.sbrk.toNat + size.toNat := by
    have bound := (mm.area.sbrk + incAmt incSz).isLt
    rw [BitVec.toNat_add]
    omega
  refine (separate.grow growth).setRegion slot _ (fun _ => ?_) (fun _ other _ user => ?_)
    (fun _ node member => ?_)
  · rw [growth.sbrk]
    refine ⟨?_, ?_⟩ <;> dsimp only <;> omega
  · rw [UserSlot, growth.symrgtbl] at user
    rw [growth.symrgtbl]
    exact VmRgStruct.apart_of_above (separate.regionBelow other user).limited
  · rw [growth.vmFreergList] at member
    exact VmRgStruct.apart_of_above (separate.nodeBelow node member).limited

end MmStruct

/-! ## The page count of a growth -/

/-- The pages that a size needs. -/
def pageCount (size : Addr) : Nat := (size.toNat + 255) / 256

/-- The growth for a size is refused: the page count, narrowed to `int`, is
zero, or the break would pass the last address, or the count is negative and
the break would move down. -/
def GrowthRefused (sbrk size : Addr) : Prop :=
  pageCount size % 2 ^ 32 = 0 ∨
    (pageCount size % 2 ^ 32 < 2 ^ 31 ∧ 2 ^ 64 ≤ sbrk.toNat + pageCount size % 2 ^ 32 * 256) ∨
      (2 ^ 31 ≤ pageCount size % 2 ^ 32 ∧ (2 ^ 32 - pageCount size % 2 ^ 32) * 256 ≤ sbrk.toNat)

instance (sbrk size : Addr) : Decidable (GrowthRefused sbrk size) :=
  inferInstanceAs (Decidable (_ ∨ _ ∨ _))

/-- The narrowed page count of a page-aligned request. -/
theorem incNumPage_pagingPageAlignsz (size : Addr) :
    incNumPage (pagingPageAlignsz size) =
      if pageCount size % 2 ^ 32 < 2 ^ 31 then ((pageCount size % 2 ^ 32 : Nat) : Int)
      else ((pageCount size % 2 ^ 32 : Nat) : Int) - 2 ^ 32 := by
  have page : PAGING_PAGESZ.toNat = 256 := rfl
  have one : (1 : Addr).toNat = 1 := rfl
  have bound := size.isLt
  have roundUp : ∀ word : Addr, ((word + PAGING_PAGESZ - 1) / PAGING_PAGESZ).toNat =
      (word.toNat + 255) % 2 ^ 64 / 256 := by
    intro word
    have small := word.isLt
    rw [BitVec.toNat_udiv, BitVec.toNat_sub, BitVec.toNat_add, page, one]
    omega
  have aligned : (pagingPageAlignsz size).toNat = (size.toNat + 255) % 2 ^ 64 / 256 * 256 := by
    rw [pagingPageAlignsz, BitVec.toNat_mul, roundUp, page]
    omega
  have pages : ((pagingPageAlignsz size + PAGING_PAGESZ - 1) / PAGING_PAGESZ).toNat % 2 ^ 32 =
      pageCount size % 2 ^ 32 := by
    rw [roundUp, aligned, pageCount]
    omega
  rw [incNumPage, asInt_eq, pages]

/-- The old and the new break as integers. -/
private theorem toNat_newBreak (sbrk size : Addr) :
    ((sbrk + incAmt (pagingPageAlignsz size)).toNat : Int) =
      (sbrk.toNat + incNumPage (pagingPageAlignsz size) * 256) % 2 ^ 64 := by
  have amount := toNat_incAmt (pagingPageAlignsz size)
  rw [BitVec.toNat_add]
  omega

theorem growthRefused_iff (sbrk size : Addr) :
    GrowthRefused sbrk size ↔ ¬ sbrk < sbrk + incAmt (pagingPageAlignsz size) := by
  have value := toNat_newBreak sbrk size
  have bound := sbrk.isLt
  rw [incNumPage_pagingPageAlignsz] at value
  rw [BitVec.lt_def, GrowthRefused]
  split at value <;> omega

/-- An accepted growth covers the requested size when its page count fits into
an `int`, and also when the narrowed count is negative: then the break wraps
to the top of the address space. -/
theorem grownBreak_covers {sbrk size : Addr}
    (fits : pageCount size < 2 ^ 31 ∨ 2 ^ 31 ≤ pageCount size % 2 ^ 32)
    (accepted : sbrk < sbrk + incAmt (pagingPageAlignsz size)) :
    sbrk.toNat + size.toNat ≤ (sbrk + incAmt (pagingPageAlignsz size)).toNat := by
  have value := toNat_newBreak sbrk size
  have larger := BitVec.lt_def.mp accepted
  have bound := sbrk.isLt
  have sizeBound := size.isLt
  have pages : pageCount size = (size.toNat + 255) / 256 := rfl
  rw [incNumPage_pagingPageAlignsz] at value
  split at value <;> omega

end Memory
end Ossim
