import Ossim.Memory.Growth
import Ossim.Memory.FreeRegion
import Mathlib.Order.CompletePartialOrder

namespace Ossim
namespace Memory

/-!
# Edits of the region table and the free list

The library changes a memory map in two ways besides paging: it stores a slot
of the symbol table, or it replaces the free list of the area.  Neither
affects a page.

`firstFit_cases` describes the search by the node it picks.  The node is the
first one that passes the 64-bit test; whether it really has room is a
separate question, because the size is a narrowed `int` and the sum may wrap.
-/

theorem getSymrgByid_of_inside {rgid : Int} (inside : 0 ≤ rgid ∧ rgid < 30) :
    ∃ slot, getSymrgByid rgid = some slot := by
  rw [getSymrgByid, dif_pos inside]
  exact ⟨_, rfl⟩

/-- The addresses of a region. -/
def VmRgStruct.bytes (rg : VmRgStruct) : Set Nat := Set.Ico rg.rgStart.toNat rg.rgEnd.toNat

/-- The number of addresses of a region. -/
def VmRgStruct.length (rg : VmRgStruct) : Nat := rg.rgEnd.toNat - rg.rgStart.toNat

/-- Two regions share no address. -/
def VmRgStruct.Apart (left right : VmRgStruct) : Prop := Disjoint left.bytes right.bytes

theorem VmRgStruct.Apart.symm {left right : VmRgStruct} (apart : left.Apart right) :
    right.Apart left :=
  Disjoint.symm apart

theorem VmRgStruct.Apart.mono {left right small : VmRgStruct} (apart : left.Apart right)
    (inside : small.bytes ⊆ left.bytes) : small.Apart right :=
  Set.disjoint_of_subset_left inside apart

theorem VmRgStruct.apart_of_above {left right : VmRgStruct}
    (above : right.rgEnd.toNat ≤ left.rgStart.toNat) : left.Apart right := by
  rw [VmRgStruct.Apart, Set.disjoint_left]
  intro address inLeft inRight
  have lower := inLeft.1
  have upper := inRight.2
  omega

theorem VmRgStruct.not_apart {left right : VmRgStruct} {address : Nat}
    (inLeft : left.rgStart.toNat ≤ address ∧ address < left.rgEnd.toNat)
    (inRight : right.rgStart.toNat ≤ address ∧ address < right.rgEnd.toNat) :
    ¬ left.Apart right :=
  fun apart => Set.disjoint_left.mp apart inLeft inRight

theorem VmRgStruct.bytes_subset {small large : VmRgStruct}
    (start : large.rgStart.toNat ≤ small.rgStart.toNat)
    (finish : small.rgEnd.toNat ≤ large.rgEnd.toNat) : small.bytes ⊆ large.bytes :=
  Set.Ico_subset_Ico start finish

namespace MmStruct

def setRegion (mm : MmStruct) (slot : Fin PAGING_MAX_SYMTBL_SZ) (rg : VmRgStruct) : MmStruct :=
  { mm with symrgtbl := Function.update mm.symrgtbl slot rg }

def setFreeList (mm : MmStruct) (nodes : List VmRgStruct) : MmStruct :=
  mm.setVma 0 { mm.area with vmFreergList := nodes }

@[simp] theorem frameOf_setFreeList (mm : MmStruct) (nodes : List VmRgStruct) :
    (mm.setFreeList nodes).frameOf = mm.frameOf := rfl

@[simp] theorem symrgtbl_setFreeList (mm : MmStruct) (nodes : List VmRgStruct) :
    (mm.setFreeList nodes).symrgtbl = mm.symrgtbl := rfl

theorem Sound.area_setFreeList {mm : MmStruct} (sound : mm.Sound) (nodes : List VmRgStruct) :
    (mm.setFreeList nodes).area = { mm.area with vmFreergList := nodes } :=
  area_of_mmap (mmap_setVma sound.single _)

theorem Sound.setFreeList_self {mm : MmStruct} (sound : mm.Sound) :
    mm.setFreeList mm.area.vmFreergList = mm := by
  have mmap : (mm.mmap.set 0 mm.area) = mm.mmap := by
    rw [sound.single]
    rfl
  exact congrArg (fun areas => { mm with mmap := areas }) mmap

theorem Sound.setRegion {mm : MmStruct} (sound : mm.Sound) (slot : Fin PAGING_MAX_SYMTBL_SZ)
    (rg : VmRgStruct) : (mm.setRegion slot rg).Sound :=
  ⟨sound.single, sound.firstId, sound.aligned, sound.below, sound.unswapped⟩

theorem Sound.setFreeList {mm : MmStruct} (sound : mm.Sound) (nodes : List VmRgStruct) :
    (mm.setFreeList nodes).Sound := by
  have area := sound.area_setFreeList nodes
  refine ⟨?_, ?_, ?_, ?_, sound.unswapped⟩
  · rw [area]
    exact mmap_setVma sound.single _
  · rw [area]
    exact sound.firstId
  · rw [area]
    exact sound.aligned
  · rw [area]
    exact sound.below

end MmStruct

/-- What the free-list search leaves when it reports nothing: usually the same
list, but a region at the all-ones address is taken out and then ignored. -/
def Searched (size : Int) (mm searched : MmStruct) : Prop :=
  (firstFit size mm.area.vmFreergList = none ∧ searched = mm) ∨
    ∃ newrg left, firstFit size mm.area.vmFreergList = some (newrg, left) ∧
      newrg.rgStart = ofInt (-1) ∧ searched = mm.setFreeList left

theorem Searched.sound {size : Int} {mm searched : MmStruct} (search : Searched size mm searched)
    (sound : mm.Sound) : searched.Sound := by
  rcases search with ⟨_, same⟩ | ⟨_, left, _, _, same⟩
  · rw [same]
    exact sound
  · rw [same]
    exact sound.setFreeList left

theorem Searched.sbrk {size : Int} {mm searched : MmStruct} (search : Searched size mm searched)
    (sound : mm.Sound) : searched.area.sbrk = mm.area.sbrk := by
  rcases search with ⟨_, same⟩ | ⟨_, left, _, _, same⟩
  · rw [same]
  · rw [same, sound.area_setFreeList]

theorem Searched.frameOf {size : Int} {mm searched : MmStruct}
    (search : Searched size mm searched) : searched.frameOf = mm.frameOf := by
  rcases search with ⟨_, same⟩ | ⟨_, left, _, _, same⟩
  · rw [same]
  · rw [same, MmStruct.frameOf_setFreeList]

theorem Searched.symrgtbl {size : Int} {mm searched : MmStruct}
    (search : Searched size mm searched) : searched.symrgtbl = mm.symrgtbl := by
  rcases search with ⟨_, same⟩ | ⟨_, left, _, _, same⟩
  · rw [same]
  · rw [same, MmStruct.symrgtbl_setFreeList]

theorem Searched.fifoPgn {size : Int} {mm searched : MmStruct}
    (search : Searched size mm searched) : searched.fifoPgn = mm.fifoPgn := by
  rcases search with ⟨_, same⟩ | ⟨_, left, _, _, same⟩ <;>
    rw [same]
  rfl

/-- `get_free_vmrg_area` on the only area. -/
theorem getFreeVmrgArea_cases {mm : MmStruct} (sound : mm.Sound) (size : Int) :
    (∃ newrg left, firstFit size mm.area.vmFreergList = some (newrg, left) ∧
        newrg.rgStart ≠ ofInt (-1) ∧
        getFreeVmrgArea mm 0 size = (some newrg, mm.setFreeList left)) ∨
      ∃ searched, Searched size mm searched ∧ getFreeVmrgArea mm 0 size = (none, searched) := by
  rw [getFreeVmrgArea, sound.getVmaByNum, if_neg (by decide)]
  dsimp only
  cases found : firstFit size mm.area.vmFreergList with
  | none => exact Or.inr ⟨mm, Or.inl ⟨found, rfl⟩, rfl⟩
  | some result =>
      rcases result with ⟨newrg, left⟩
      by_cases allOnes : newrg.rgStart = ofInt (-1)
      · refine Or.inr ⟨mm.setFreeList left, Or.inr ⟨newrg, left, found, allOnes, rfl⟩, ?_⟩
        dsimp only
        rw [if_pos allOnes]
        rfl
      · refine Or.inl ⟨newrg, left, rfl, allOnes, ?_⟩
        dsimp only
        rw [if_neg allOnes]
        rfl

/-- A search that leaves such a list has reported nothing. -/
theorem Searched.getFreeVmrgArea {size : Int} {mm searched : MmStruct}
    (search : Searched size mm searched) (sound : mm.Sound) :
    getFreeVmrgArea mm 0 size = (none, searched) := by
  rw [Memory.getFreeVmrgArea, sound.getVmaByNum, if_neg (by decide)]
  dsimp only
  rcases search with ⟨missing, same⟩ | ⟨newrg, left, found, allOnes, same⟩
  · rw [missing, same]
  · rw [found, same]
    dsimp only
    rw [if_pos allOnes]
    rfl

/-! ## The search -/

/-- The test of the search loop. -/
def fitsNode (size : Int) (rg : VmRgStruct) : Bool := decide (rg.rgStart + ofInt size ≤ rg.rgEnd)

theorem find?_of_firstFit {size : Int} {nodes : List VmRgStruct}
    (missing : firstFit size nodes = none) : nodes.find? (fitsNode size) = none := by
  induction nodes with
  | nil => rfl
  | cons rgit rest inductionHypothesis =>
      rw [firstFit] at missing
      dsimp only at missing
      by_cases fits : rgit.rgStart + ofInt size ≤ rgit.rgEnd
      · rw [if_pos fits] at missing
        split at missing
        · cases missing
        · cases rest <;> cases missing
      · rw [if_neg fits, Option.map_eq_none_iff] at missing
        rw [List.find?_cons_of_neg (by simpa [fitsNode] using fits)]
        exact inductionHypothesis missing

/-- A successful search cuts the front off the picked node.  When nothing of
the node is left and it has a successor, the node becomes a copy of the
successor and the successor goes away. -/
theorem firstFit_cases {size : Int} {nodes left : List VmRgStruct} {newrg : VmRgStruct}
    (found : firstFit size nodes = some (newrg, left)) :
    ∃ front node back, nodes = front ++ node :: back ∧ nodes.find? (fitsNode size) = some node ∧
      newrg = ⟨node.rgStart, node.rgStart + ofInt size, .user⟩ ∧
      ((∃ shrunk : VmRgStruct, left = front ++ shrunk :: back ∧
          shrunk.rgStart = node.rgStart + ofInt size ∧ shrunk.rgEnd = node.rgEnd) ∨
        ∃ next tail, ∃ moved : VmRgStruct, node.rgStart + ofInt size = node.rgEnd ∧
          back = next :: tail ∧ left = front ++ moved :: tail ∧
          moved.rgStart = next.rgStart ∧ moved.rgEnd = next.rgEnd) := by
  induction nodes generalizing left with
  | nil => cases found
  | cons rgit rest inductionHypothesis =>
      rw [firstFit] at found
      dsimp only at found
      by_cases fits : rgit.rgStart + ofInt size ≤ rgit.rgEnd
      · rw [if_pos fits] at found
        have picked : (rgit :: rest).find? (fitsNode size) = some rgit :=
          List.find?_cons_of_pos (decide_eq_true fits)
        refine ⟨[], rgit, rest, rfl, picked, ?_⟩
        by_cases partly : rgit.rgStart + ofInt size < rgit.rgEnd
        · rw [if_pos partly] at found
          cases found
          exact ⟨rfl, Or.inl ⟨_, rfl, rfl, rfl⟩⟩
        · rw [if_neg partly] at found
          have whole : rgit.rgStart + ofInt size = rgit.rgEnd :=
            BitVec.le_antisymm fits (BitVec.not_lt.mp partly)
          cases rest with
          | nil =>
              cases found
              exact ⟨rfl, Or.inl ⟨_, rfl, whole.symm, rfl⟩⟩
          | cons nextrg tail =>
              cases found
              exact ⟨rfl, Or.inr ⟨nextrg, tail, _, whole, rfl, rfl, rfl, rfl⟩⟩
      · rw [if_neg fits] at found
        cases later : firstFit size rest with
        | none =>
            rw [later] at found
            cases found
        | some result =>
            rw [later] at found
            rcases result with ⟨foundrg, remaining⟩
            cases found
            rcases inductionHypothesis later with ⟨front, node, back, split, picked, region, cut⟩
            have skipped : (rgit :: rest).find? (fitsNode size) = some node := by
              rw [List.find?_cons_of_neg (by simpa [fitsNode] using fits)]
              exact picked
            refine ⟨rgit :: front, node, back, by rw [split]; rfl, skipped, region, ?_⟩
            rcases cut with ⟨shrunk, same, start, finish⟩ |
              ⟨next, tail, moved, whole, successor, same, start, finish⟩
            · exact Or.inl ⟨shrunk, by rw [same]; rfl, start, finish⟩
            · exact Or.inr ⟨next, tail, moved, whole, successor, by rw [same]; rfl, start, finish⟩

/-- A search that reports nothing picked no node, or one at the all-ones
address. -/
theorem Searched.picked {size : Int} {mm searched : MmStruct} (search : Searched size mm searched) :
    ∀ node ∈ mm.area.vmFreergList.find? (fitsNode size), node.rgStart = ofInt (-1) := by
  intro node member
  rcases search with ⟨missing, _⟩ | ⟨newrg, left, found, allOnes, _⟩
  · rw [find?_of_firstFit missing] at member
    cases member
  · rcases firstFit_cases found with ⟨_, picked, _, _, here, region, _⟩
    rw [here] at member
    rw [region] at allOnes
    cases member
    exact allOnes

/-- Such a search keeps the list unless it takes the all-ones region out. -/
theorem Searched.eq_iff {size : Int} {mm searched : MmStruct} (search : Searched size mm searched)
    (sound : mm.Sound) : searched = mm ↔
      ∀ found ∈ firstFit size mm.area.vmFreergList, found.2 = mm.area.vmFreergList := by
  rcases search with ⟨missing, same⟩ | ⟨newrg, left, found, _, same⟩
  · rw [missing]
    exact iff_of_true same (fun _ member => absurd member (Option.not_mem_none _))
  · rw [found, same]
    constructor
    · intro unchanged result member
      have nodes := congrArg (fun mm : MmStruct => mm.area.vmFreergList) unchanged
      rw [sound.area_setFreeList] at nodes
      cases member
      exact nodes
    · intro kept
      have nodes : left = mm.area.vmFreergList := kept (newrg, left) rfl
      rw [nodes]
      exact sound.setFreeList_self

/-! ## The search loses no byte -/

/-- Every byte of the list is in the region or in what remains.  This needs no
order of the nodes and no bound on the size. -/
theorem firstFit_bytes {size : Int} {nodes left : List VmRgStruct} {newrg : VmRgStruct}
    (found : firstFit size nodes = some (newrg, left)) {node : VmRgStruct} (member : node ∈ nodes)
    {address : Nat} (inside : address ∈ node.bytes) :
    address ∈ newrg.bytes ∨ ∃ piece ∈ left, address ∈ piece.bytes := by
  rcases firstFit_cases found with ⟨front, picked, back, split, _, region, cut⟩
  have keep : ∀ {piece}, piece ∈ left → address ∈ piece.bytes →
      address ∈ newrg.bytes ∨ ∃ piece ∈ left, address ∈ piece.bytes :=
    fun pieceMember pieceBytes => Or.inr ⟨_, pieceMember, pieceBytes⟩
  rw [split, List.mem_append, List.mem_cons] at member
  rcases cut with ⟨shrunk, same, start, finish⟩ |
    ⟨next, tail, moved, whole, successor, same, start, finish⟩
  · rw [same] at keep ⊢
    rcases member with early | here | late
    · exact keep (List.mem_append_left _ early) inside
    · subst here
      by_cases cutOff : address < (node.rgStart + ofInt size).toNat
      · refine Or.inl ?_
        rw [region]
        exact ⟨inside.1, cutOff⟩
      · refine keep (List.mem_append_right _ List.mem_cons_self) ?_
        rw [VmRgStruct.bytes, start, finish]
        exact ⟨Nat.le_of_not_lt cutOff, inside.2⟩
    · exact keep (List.mem_append_right _ (List.mem_cons_of_mem _ late)) inside
  · rw [successor, List.mem_cons] at member
    rw [same] at keep ⊢
    rcases member with early | here | copied | late
    · exact keep (List.mem_append_left _ early) inside
    · subst here
      refine Or.inl ?_
      rw [region, whole]
      exact inside
    · subst copied
      refine keep (List.mem_append_right _ List.mem_cons_self) ?_
      rw [VmRgStruct.bytes, start, finish]
      exact inside
    · exact keep (List.mem_append_right _ (List.mem_cons_of_mem _ late)) inside

/-- A region at the all-ones address has no byte, so ignoring it loses none. -/
theorem Searched.bytes {size : Int} {mm searched : MmStruct} (search : Searched size mm searched)
    (sound : mm.Sound) {node : VmRgStruct} (member : node ∈ mm.area.vmFreergList) {address : Nat}
    (inside : address ∈ node.bytes) : ∃ piece ∈ searched.area.vmFreergList, address ∈ piece.bytes := by
  rcases search with ⟨_, same⟩ | ⟨newrg, left, found, allOnes, same⟩
  · rw [same]
    exact ⟨node, member, inside⟩
  · rw [same, sound.area_setFreeList]
    rcases firstFit_bytes found member inside with taken | remains
    · have start := taken.1
      have finish := taken.2
      have bound := newrg.rgEnd.isLt
      have top : newrg.rgStart.toNat = 2 ^ 64 - 1 := by
        rw [allOnes]
        rfl
      omega
    · exact remains

/-! ## The search as a cut of byte ranges -/

/-- The test on the node that the search picks does not wrap, so that the node
really has room for the widened size. -/
def PickedHasRoom (size : Int) (nodes : List VmRgStruct) : Prop :=
  ∀ node ∈ nodes.find? (fitsNode size), node.rgStart.toNat + (ofInt size).toNat < 2 ^ 64

instance (size : Int) (nodes : List VmRgStruct) : Decidable (PickedHasRoom size nodes) :=
  inferInstanceAs (Decidable (∀ node ∈ nodes.find? (fitsNode size), _ < _))

/-- The piece lies inside one of the regions. -/
def InsideOne (piece : VmRgStruct) (nodes : List VmRgStruct) : Prop :=
  ∃ node ∈ nodes, node.rgStart.toNat ≤ piece.rgStart.toNat ∧
    piece.rgStart.toNat ≤ piece.rgEnd.toNat ∧ piece.rgEnd.toNat ≤ node.rgEnd.toNat

theorem InsideOne.bytes {piece : VmRgStruct} {nodes : List VmRgStruct}
    (inside : InsideOne piece nodes) : ∃ node ∈ nodes, piece.bytes ⊆ node.bytes := by
  rcases inside with ⟨node, member, start, _, finish⟩
  exact ⟨node, member, VmRgStruct.bytes_subset start finish⟩

/-- A region of the wanted size, and the nodes that remain. -/
structure Cut (size : Int) (nodes : List VmRgStruct) (newrg : VmRgStruct)
    (left : List VmRgStruct) : Prop where
  mode : newrg.modeBit = .user
  length : newrg.rgEnd.toNat = newrg.rgStart.toNat + (ofInt size).toNat
  region : InsideOne newrg nodes
  rest : ∀ piece ∈ left, InsideOne piece nodes
  apart : ∀ piece ∈ left, newrg.Apart piece
  restApart : left.Pairwise VmRgStruct.Apart

/-- Shrinking one region of a list keeps the regions apart. -/
private theorem pairwise_shrink {front back : List VmRgStruct} {node small : VmRgStruct}
    (apart : (front ++ node :: back).Pairwise VmRgStruct.Apart)
    (inside : small.bytes ⊆ node.bytes) :
    (front ++ small :: back).Pairwise VmRgStruct.Apart := by
  rw [List.pairwise_append, List.pairwise_cons] at apart ⊢
  rcases apart with ⟨before, ⟨here, after⟩, across⟩
  refine ⟨before, ⟨fun piece member => (here piece member).mono inside, after⟩, ?_⟩
  intro early earlyMember late lateMember
  rcases List.mem_cons.mp lateMember with same | member
  · rw [same]
    exact ((across early earlyMember node List.mem_cons_self).symm.mono inside).symm
  · exact across early earlyMember late (List.mem_cons_of_mem node member)

/-- A region inside the removed one is apart from the remaining regions. -/
private theorem apart_of_rest {front back : List VmRgStruct} {node small piece : VmRgStruct}
    (apart : (front ++ node :: back).Pairwise VmRgStruct.Apart)
    (inside : small.bytes ⊆ node.bytes) (member : piece ∈ front ++ back) :
    small.Apart piece := by
  rw [List.pairwise_append, List.pairwise_cons] at apart
  rcases apart with ⟨_, ⟨here, _⟩, across⟩
  rcases List.mem_append.mp member with early | late
  · exact (across piece early node List.mem_cons_self).symm.mono inside
  · exact (here piece late).mono inside

/-- What the test of the search says about the picked node. -/
private theorem picked_room {size : Int} {nodes : List VmRgStruct} {node : VmRgStruct}
    (picked : nodes.find? (fitsNode size) = some node) (room : PickedHasRoom size nodes) :
    (node.rgStart + ofInt size).toNat = node.rgStart.toNat + (ofInt size).toNat ∧
      node.rgStart.toNat + (ofInt size).toNat ≤ node.rgEnd.toNat := by
  have finish : (node.rgStart + ofInt size).toNat = node.rgStart.toNat + (ofInt size).toNat := by
    have exactSum := room node picked
    rw [BitVec.toNat_add]
    omega
  refine ⟨finish, ?_⟩
  have test := List.find?_some picked
  have bounded : node.rgStart + ofInt size ≤ node.rgEnd := of_decide_eq_true test
  rw [← finish]
  exact bounded

/-- The region and the nodes that remain lie inside the nodes of the list. -/
theorem firstFit_pieces {size : Int} {nodes left : List VmRgStruct} {newrg : VmRgStruct}
    (found : firstFit size nodes = some (newrg, left))
    (ordered : ∀ node ∈ nodes, node.rgStart.toNat ≤ node.rgEnd.toNat)
    (room : PickedHasRoom size nodes) :
    newrg.modeBit = .user ∧ newrg.rgEnd.toNat = newrg.rgStart.toNat + (ofInt size).toNat ∧
      InsideOne newrg nodes ∧ ∀ piece ∈ left, InsideOne piece nodes := by
  rcases firstFit_cases found with ⟨front, node, back, split, picked, region, cut⟩
  rcases picked_room picked room with ⟨finish, fits⟩
  have newStart : newrg.rgStart.toNat = node.rgStart.toNat := by rw [region]
  have newEnd : newrg.rgEnd.toNat = node.rgStart.toNat + (ofInt size).toNat := by
    rw [region, finish]
  have self : ∀ piece ∈ nodes, InsideOne piece nodes := fun piece inList =>
    ⟨piece, inList, le_refl _, ordered piece inList, le_refl _⟩
  have member : node ∈ nodes := by
    rw [split]
    exact List.mem_append_right front List.mem_cons_self
  have early : ∀ piece ∈ front, piece ∈ nodes := by
    intro piece inFront
    rw [split]
    exact List.mem_append_left _ inFront
  have late : ∀ piece ∈ back, piece ∈ nodes := by
    intro piece inBack
    rw [split]
    exact List.mem_append_right _ (List.mem_cons_of_mem node inBack)
  refine ⟨by rw [region], by omega, ⟨node, member, by omega, by omega, by omega⟩, ?_⟩
  intro piece inLeft
  rcases cut with ⟨shrunk, same, start, last⟩ |
    ⟨next, tail, moved, _, successor, same, start, last⟩
  · have shrunkStart : shrunk.rgStart.toNat = node.rgStart.toNat + (ofInt size).toNat := by
      rw [start, finish]
    have shrunkEnd : shrunk.rgEnd.toNat = node.rgEnd.toNat := by rw [last]
    rw [same, List.mem_append, List.mem_cons] at inLeft
    rcases inLeft with inFront | here | inBack
    · exact self piece (early piece inFront)
    · rw [here]
      exact ⟨node, member, by omega, by omega, by omega⟩
    · exact self piece (late piece inBack)
  · have nextMember : next ∈ nodes := by
      apply late
      rw [successor]
      exact List.mem_cons_self
    have movedStart : moved.rgStart.toNat = next.rgStart.toNat := by rw [start]
    have movedEnd : moved.rgEnd.toNat = next.rgEnd.toNat := by rw [last]
    have nextOrdered := ordered next nextMember
    rw [same, List.mem_append, List.mem_cons] at inLeft
    rcases inLeft with inFront | here | inTail
    · exact self piece (early piece inFront)
    · rw [here]
      exact ⟨next, nextMember, by omega, by omega, by omega⟩
    · apply self
      apply late
      rw [successor]
      exact List.mem_cons_of_mem next inTail

theorem firstFit_cut {size : Int} {nodes left : List VmRgStruct} {newrg : VmRgStruct}
    (found : firstFit size nodes = some (newrg, left))
    (ordered : ∀ node ∈ nodes, node.rgStart.toNat ≤ node.rgEnd.toNat)
    (apart : nodes.Pairwise VmRgStruct.Apart) (room : PickedHasRoom size nodes) :
    Cut size nodes newrg left := by
  rcases firstFit_pieces found ordered room with ⟨mode, length, region, rest⟩
  suffices divided : (∀ piece ∈ left, newrg.Apart piece) ∧ left.Pairwise VmRgStruct.Apart from
    ⟨mode, length, region, rest, divided.1, divided.2⟩
  rcases firstFit_cases found with ⟨front, node, back, split, picked, chosen, cut⟩
  rcases picked_room picked room with ⟨finish, fits⟩
  have newStart : newrg.rgStart.toNat = node.rgStart.toNat := by rw [chosen]
  have newEnd : newrg.rgEnd.toNat = node.rgStart.toNat + (ofInt size).toNat := by
    rw [chosen, finish]
  have inNode : newrg.bytes ⊆ node.bytes := VmRgStruct.bytes_subset (by omega) (by omega)
  rw [split] at apart
  rcases cut with ⟨shrunk, same, start, last⟩ |
    ⟨next, tail, moved, _, successor, same, start, last⟩
  · have shrunkStart : shrunk.rgStart.toNat = node.rgStart.toNat + (ofInt size).toNat := by
      rw [start, finish]
    have shrunkEnd : shrunk.rgEnd.toNat = node.rgEnd.toNat := by rw [last]
    have inside : shrunk.bytes ⊆ node.bytes :=
      VmRgStruct.bytes_subset (by omega) (by omega)
    constructor
    · intro piece inLeft
      rw [same, List.mem_append, List.mem_cons] at inLeft
      rcases inLeft with early | here | late
      · exact apart_of_rest apart inNode (List.mem_append_left back early)
      · rw [here]
        exact (VmRgStruct.apart_of_above (by omega)).symm
      · exact apart_of_rest apart inNode (List.mem_append_right front late)
    · rw [same]
      exact pairwise_shrink apart inside
  · have nextMember : next ∈ front ++ back := by
      rw [successor]
      exact List.mem_append_right front List.mem_cons_self
    have movedStart : moved.rgStart.toNat = next.rgStart.toNat := by rw [start]
    have movedEnd : moved.rgEnd.toNat = next.rgEnd.toNat := by rw [last]
    have inside : moved.bytes ⊆ next.bytes :=
      VmRgStruct.bytes_subset (by omega) (by omega)
    have tailMember : ∀ piece ∈ tail, piece ∈ front ++ back := by
      intro piece late
      rw [successor]
      exact List.mem_append_right front (List.mem_cons_of_mem next late)
    constructor
    · intro piece inLeft
      rw [same, List.mem_append, List.mem_cons] at inLeft
      rcases inLeft with early | here | late
      · exact apart_of_rest apart inNode (List.mem_append_left back early)
      · rw [here]
        exact ((apart_of_rest apart inNode nextMember).symm.mono inside).symm
      · exact apart_of_rest apart inNode (tailMember piece late)
    · rw [same]
      rw [successor] at apart
      have dropped : (front ++ next :: tail).Pairwise VmRgStruct.Apart :=
        apart.sublist ((List.sublist_cons_self node (next :: tail)).append_left front)
      exact pairwise_shrink dropped inside

/-! ## Returning a region -/

theorem enlistVmFreergList_eq {mm : MmStruct} (sound : mm.Sound) (rgElmt : VmRgStruct) :
    enlistVmFreergList mm 0 rgElmt =
      if rgElmt.rgEnd ≤ rgElmt.rgStart then (-1, mm)
      else (0, mm.setFreeList (rgElmt :: mm.area.vmFreergList)) := by
  rw [enlistVmFreergList, sound.getVmaByNum, if_neg (show ¬ (0 : Int) < 0 by decide)]
  rfl

end Memory
end Ossim
