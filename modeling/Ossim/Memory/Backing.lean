import Ossim.Memory.UserSpace

namespace Ossim
namespace Memory

/-!
# Regions that are backed by resident pages

A region can be used when every address in it lies on a resident page.  That
is not automatic: a growth reports success without pages when the RAM is
short, and it skips pages that the page walk cannot reach.  `Backed` says that
all user regions and all free nodes have their pages.  The free nodes count as
well, because the next allocation hands them out unchanged.

The end of a region is also held below 4 MB.  For a region with addresses
this follows from the pages; an empty node needs it so that later size tests
do not wrap at it.
-/

/-- The end of the addresses that the page walk can reach. -/
def busLimit : Nat := 2 ^ 22

/-- The address lies on a resident page. -/
def MmStruct.Backs (mm : MmStruct) (address : Nat) : Prop :=
  (mm.frameOf (BitVec.ofNat 64 (address / 256))).isSome = true

structure VmRgStruct.BackedBy (rg : VmRgStruct) (mm : MmStruct) : Prop where
  low : rg.rgEnd.toNat ≤ busLimit
  pages : ∀ address ∈ rg.bytes, mm.Backs address

structure MmStruct.Backed (mm : MmStruct) : Prop where
  nodes : ∀ node ∈ mm.area.vmFreergList, node.BackedBy mm
  regions : ∀ rgid, mm.UserSlot rgid → (mm.symrgtbl rgid).BackedBy mm

/-- A part of a backed region is backed. -/
theorem VmRgStruct.BackedBy.mono {large small : VmRgStruct} {mm : MmStruct}
    (backed : large.BackedBy mm) (inside : small.bytes ⊆ large.bytes)
    (finish : small.rgEnd.toNat ≤ large.rgEnd.toNat) : small.BackedBy mm :=
  ⟨finish.trans backed.low, fun address member => backed.pages address (inside member)⟩

/-- A backed region stays backed while its pages stay resident. -/
theorem VmRgStruct.BackedBy.keep {rg : VmRgStruct} {mm after : MmStruct}
    (backed : rg.BackedBy mm)
    (kept : ∀ address ∈ rg.bytes, mm.Backs address → after.Backs address) : rg.BackedBy after :=
  ⟨backed.low, fun address member => kept address member (backed.pages address member)⟩

/-- Backing depends on the resident pages only. -/
theorem VmRgStruct.BackedBy.congr {rg : VmRgStruct} {mm after : MmStruct}
    (backed : rg.BackedBy mm) (same : after.frameOf = mm.frameOf) : rg.BackedBy after := by
  refine backed.keep fun address _ resident => ?_
  rw [MmStruct.Backs, same]
  exact resident

namespace MmStruct

theorem backed_initMm : (initMm []).Backed where
  nodes := by
    intro node member
    rw [List.mem_singleton.mp member]
    refine ⟨Nat.zero_le _, fun address inside => ?_⟩
    exact absurd inside.2 (Nat.not_lt_zero address)
  regions := by
    intro rgid user
    cases user

/-! ## Edits of the table and the list -/

theorem Backed.setRegion {mm : MmStruct} (backed : mm.Backed) (slot : Fin PAGING_MAX_SYMTBL_SZ)
    (rg : VmRgStruct) (fits : rg.modeBit = .user → rg.BackedBy mm) :
    (mm.setRegion slot rg).Backed where
  nodes := fun node member => (backed.nodes node member).congr rfl
  regions := by
    intro rgid user
    by_cases same : rgid = slot
    · subst same
      rw [UserSlot, symrgtbl_setRegion_self] at user
      rw [symrgtbl_setRegion_self]
      exact (fits user).congr rfl
    · rw [symrgtbl_setRegion_of_ne mm rg same]
      exact (backed.regions rgid ((userSlot_setRegion same).mp user)).congr rfl

theorem Backed.setRegion_kernel {mm : MmStruct} (backed : mm.Backed)
    (slot : Fin PAGING_MAX_SYMTBL_SZ) {rg : VmRgStruct} (mode : rg.modeBit = .kernel) :
    (mm.setRegion slot rg).Backed := by
  refine backed.setRegion slot rg fun user => ?_
  rw [mode] at user
  cases user

theorem Backed.setFreeList {mm : MmStruct} (backed : mm.Backed) (sound : mm.Sound)
    {nodes : List VmRgStruct} (fits : ∀ node ∈ nodes, node.BackedBy mm) :
    (mm.setFreeList nodes).Backed where
  nodes := by
    rw [sound.area_setFreeList]
    exact fun node member => (fits node member).congr rfl
  regions := fun rgid user => (backed.regions rgid user).congr rfl

theorem Backed.inside {mm : MmStruct} (backed : mm.Backed) {piece : VmRgStruct}
    (inside : InsideOne piece mm.area.vmFreergList) : piece.BackedBy mm := by
  rcases inside with ⟨node, member, start, _, finish⟩
  exact (backed.nodes node member).mono (VmRgStruct.bytes_subset start finish) finish

theorem Backed.take {mm : MmStruct} (backed : mm.Backed) (sound : mm.Sound)
    (slot : Fin PAGING_MAX_SYMTBL_SZ) {size : Int} {newrg : VmRgStruct} {left : List VmRgStruct}
    (cut : Cut size mm.area.vmFreergList newrg left) :
    ((mm.setFreeList left).setRegion slot newrg).Backed := by
  have shrunk := backed.setFreeList sound fun piece member => backed.inside (cut.rest piece member)
  exact shrunk.setRegion slot newrg fun _ => (backed.inside cut.region).congr rfl

theorem Backed.release {mm : MmStruct} (backed : mm.Backed) (sound : mm.Sound)
    (slot : Fin PAGING_MAX_SYMTBL_SZ) (user : mm.UserSlot slot) :
    ((mm.setRegion slot VmRgStruct.zero).setFreeList
      (⟨(mm.symrgtbl slot).rgStart, (mm.symrgtbl slot).rgEnd, .user⟩ ::
        mm.area.vmFreergList)).Backed := by
  have region := backed.regions slot user
  refine (backed.setRegion_kernel slot rfl).setFreeList (sound.setRegion slot _) ?_
  intro node member
  rcases List.mem_cons.mp member with same | old
  · rw [same]
    exact ⟨region.low, region.pages⟩
  · exact (backed.nodes node old).congr rfl

/-! ## Growth -/

theorem Backs.grow {mm grown : MmStruct} {mram left : MemphyStruct} {incSz : Addr}
    {address : Nat} (resident : mm.Backs address) (sound : mm.Sound)
    (growth : Growth mm mram incSz grown left) : grown.Backs address := by
  rcases Option.isSome_iff_exists.mp resident with ⟨fpn, mapped⟩
  rw [Backs, growth.frameOf_of_some sound mapped]
  rfl

theorem Backed.grow {mm grown : MmStruct} {mram left : MemphyStruct} {incSz : Addr}
    (backed : mm.Backed) (sound : mm.Sound) (growth : Growth mm mram incSz grown left) :
    grown.Backed where
  nodes := by
    rw [growth.vmFreergList]
    exact fun node member =>
      (backed.nodes node member).keep fun _ _ resident => resident.grow sound growth
  regions := by
    intro rgid user
    rw [UserSlot, growth.symrgtbl] at user
    rw [growth.symrgtbl]
    exact (backed.regions rgid user).keep fun _ _ resident => resident.grow sound growth

/-- With enough frames, and below 4 MB, a growth maps every page of the new
part. -/
theorem Backed.growRegion {mm grown : MmStruct} {mram left : MemphyStruct} {size : Addr}
    (backed : mm.Backed) (sound : mm.Sound)
    (growth : Growth mm mram (pagingPageAlignsz size) grown left)
    (slot : Fin PAGING_MAX_SYMTBL_SZ) (enough : pageCount size ≤ mram.freeFpList.length)
    (low : mm.area.sbrk.toNat + pageCount size * 256 ≤ busLimit) :
    (grown.setRegion slot ⟨mm.area.sbrk, mm.area.sbrk + size, .user⟩).Backed := by
  have limit : busLimit = 4194304 := rfl
  have pages : pageCount size = (size.toNat + 255) / 256 := rfl
  have count : (incNumPage (pagingPageAlignsz size)).toNat = pageCount size := by
    rw [incNumPage_pagingPageAlignsz, if_pos (by omega)]
    omega
  have finish : (mm.area.sbrk + size).toNat = mm.area.sbrk.toNat + size.toNat := by
    rw [BitVec.toNat_add]
    omega
  refine (backed.grow sound growth).setRegion slot _ fun _ => ⟨?_, ?_⟩
  · dsimp only
    omega
  · intro address inside
    have lower : mm.area.sbrk.toNat ≤ address := inside.1
    have upper : address < (mm.area.sbrk + size).toNat := inside.2
    have aligned := sound.aligned
    have position : (BitVec.ofNat 64 (address / 256)).toNat = address / 256 := by
      rw [BitVec.toNat_ofNat]
      omega
    refine growth.enough (by omega) (BitVec.ofNat 64 (address / 256)) ?_ ?_ ?_
    · rw [position]
      omega
    · rw [position, count]
      omega
    · rw [BitVec.lt_def, position]
      have most : PAGING_MAX_PGN.toNat = 16384 := rfl
      omega

end MmStruct

/-! ## Marking -/

/-- Some address of the region lies on the page. -/
def VmRgStruct.Meets (rg : VmRgStruct) (pgn : Addr) : Prop :=
  rg.rgStart.toNat < rg.rgEnd.toNat ∧ rg.rgStart.toNat < (pgn.toNat + 1) * 256 ∧
    pgn.toNat * 256 < rg.rgEnd.toNat

instance (rg : VmRgStruct) (pgn : Addr) : Decidable (rg.Meets pgn) :=
  inferInstanceAs (Decidable (_ ∧ _ ∧ _))

theorem VmRgStruct.meets_of_mem {rg : VmRgStruct} {address : Nat} (inside : address ∈ rg.bytes) :
    rg.Meets (BitVec.ofNat 64 (address / 256)) := by
  have lower : rg.rgStart.toNat ≤ address := inside.1
  have upper : address < rg.rgEnd.toNat := inside.2
  have bound := rg.rgEnd.isLt
  have position : (BitVec.ofNat 64 (address / 256)).toNat = address / 256 := by
    rw [BitVec.toNat_ofNat]
    omega
  unfold VmRgStruct.Meets
  rw [position]
  omega

namespace MmStruct

/-- A user region or a free node needs the page. -/
def Needs (mm : MmStruct) (pgn : Addr) : Prop :=
  (∃ node ∈ mm.area.vmFreergList, node.Meets pgn) ∨
    ∃ rgid, mm.UserSlot rgid ∧ (mm.symrgtbl rgid).Meets pgn

instance (mm : MmStruct) (rgid : Fin PAGING_MAX_SYMTBL_SZ) : Decidable (mm.UserSlot rgid) :=
  inferInstanceAs (Decidable (_ = _))

instance (mm : MmStruct) (pgn : Addr) : Decidable (mm.Needs pgn) :=
  inferInstanceAs (Decidable ((∃ node ∈ mm.area.vmFreergList, _) ∨ ∃ slot, mm.UserSlot slot ∧ _))

/-- Marking pages that nobody needs leaves every part backed. -/
theorem Backed.of_marked {mm marked : MmStruct} {addr : Addr} {pgnum : Int} (backed : mm.Backed)
    (mark : Marked mm addr pgnum marked)
    (unneeded : ∀ pgit < pgnum.toNat, ¬ mm.Needs (addr / PAGING_PAGESZ + BitVec.ofNat 64 pgit)) :
    marked.Backed := by
  have same : marked.area = mm.area := by rw [area, mark.mmap, area]
  have kept : ∀ address, mm.Needs (BitVec.ofNat 64 (address / 256)) → mm.Backs address →
      marked.Backs address := by
    intro address needed resident
    rcases mark.entry (BitVec.ofNat 64 (address / 256)) with ⟨⟨pgit, early, here⟩, _⟩ | entry
    · rw [here] at needed
      exact absurd needed (unneeded pgit early)
    · rw [Backs, frameOf_isSome] at resident ⊢
      rw [entry]
      exact resident
  refine ⟨?_, ?_⟩
  · rw [same]
    intro node member
    exact (backed.nodes node member).keep fun address inside =>
      kept address (Or.inl ⟨node, member, VmRgStruct.meets_of_mem inside⟩)
  · intro rgid user
    rw [UserSlot, mark.symrgtbl] at user
    rw [mark.symrgtbl]
    exact (backed.regions rgid user).keep fun address inside =>
      kept address (Or.inr ⟨rgid, user, VmRgStruct.meets_of_mem inside⟩)

end MmStruct

end Memory
end Ossim
