import Ossim.Memory.RegionTable

namespace Ossim
namespace Memory

/-!
# First fit as an operation on sets of bytes

A free list stands for a set of addresses.  On a well-formed list the search
takes the front of the first node that is long enough, and what remains of the
list stands for the other addresses.  The order of the nodes and the empty
nodes that earlier searches have left behind do not matter for this.

Well-formed means that no node ends before it starts, that no two nodes share
an address, and that the size test does not wrap on any node.
-/

/-- The addresses that a free list stands for. -/
def coverage (nodes : List VmRgStruct) : Set Nat :=
  {address | ∃ node ∈ nodes, address ∈ node.bytes}

/-- The nodes of a list that a request of `size` bytes can be searched in. -/
structure FreeNodes (size : Int) (nodes : List VmRgStruct) : Prop where
  ordered : ∀ node ∈ nodes, node.rgStart.toNat ≤ node.rgEnd.toNat
  apart : nodes.Pairwise VmRgStruct.Apart
  below : ∀ node ∈ nodes, node.rgEnd.toNat + size.toNat < 2 ^ 64

/-- The first node of the list that is long enough. -/
def firstLongEnough (size : Int) (nodes : List VmRgStruct) : Option VmRgStruct :=
  nodes.find? fun node => decide (size.toNat ≤ node.length)

theorem length_of_firstLongEnough {size : Int} {nodes : List VmRgStruct} {node : VmRgStruct}
    (first : firstLongEnough size nodes = some node) :
    node ∈ nodes ∧ size.toNat ≤ node.length := by
  have passed := List.find?_some first
  exact ⟨List.mem_of_find?_eq_some first, of_decide_eq_true passed⟩

/-- A positive `int` widens to the same number. -/
theorem toNat_ofInt_of_positive {size : Int} (positive : 0 < size) (isInt : size < 2 ^ 31) :
    (ofInt size).toNat = size.toNat := by
  have value := toNat_ofInt size
  omega

/-! ## The test on one node -/

section Test

variable {size : Int} {nodes : List VmRgStruct}

theorem FreeNodes.fitsNode_eq (free : FreeNodes size nodes) (positive : 0 < size)
    (isInt : size < 2 ^ 31) {node : VmRgStruct} (member : node ∈ nodes) :
    fitsNode size node = decide (size.toNat ≤ node.length) := by
  have width := toNat_ofInt_of_positive positive isInt
  have ordered := free.ordered node member
  have below := free.below node member
  have finish : (node.rgStart + ofInt size).toNat = node.rgStart.toNat + size.toNat := by
    rw [BitVec.toNat_add, width]
    omega
  apply decide_eq_decide.mpr
  rw [BitVec.le_def, finish, VmRgStruct.length]
  omega

/-- On such a list the test of the loop is the test for the length. -/
theorem FreeNodes.find?_fitsNode (free : FreeNodes size nodes) (positive : 0 < size)
    (isInt : size < 2 ^ 31) : nodes.find? (fitsNode size) = firstLongEnough size nodes := by
  apply List.find?_congr
  intro node member
  exact free.fitsNode_eq positive isInt member

theorem FreeNodes.pickedHasRoom (free : FreeNodes size nodes) (positive : 0 < size)
    (isInt : size < 2 ^ 31) : PickedHasRoom size nodes := by
  intro node picked
  have member : node ∈ nodes := List.mem_of_find?_eq_some picked
  have ordered := free.ordered node member
  have below := free.below node member
  have width := toNat_ofInt_of_positive positive isInt
  omega

/-- The region of a successful search starts at the first node that is long
enough and has the wanted size. -/
theorem FreeNodes.region (free : FreeNodes size nodes) (positive : 0 < size)
    (isInt : size < 2 ^ 31) {newrg : VmRgStruct} {left : List VmRgStruct}
    (found : firstFit size nodes = some (newrg, left)) :
    ∃ node, firstLongEnough size nodes = some node ∧ node ∈ nodes ∧
      newrg.rgStart = node.rgStart ∧ newrg.rgEnd.toNat = node.rgStart.toNat + size.toNat := by
  rcases firstFit_cases found with ⟨front, node, back, split, picked, region, _⟩
  have cut := firstFit_cut found free.ordered free.apart (free.pickedHasRoom positive isInt)
  have start : newrg.rgStart = node.rgStart := by rw [region]
  have finish := cut.length
  rw [start, toNat_ofInt_of_positive positive isInt] at finish
  refine ⟨node, ?_, List.mem_of_find?_eq_some picked, start, finish⟩
  rw [← free.find?_fitsNode positive isInt]
  exact picked

end Test

/-! ## The bytes before and after -/

theorem firstFit_isSome {size : Int} {nodes : List VmRgStruct}
    (fits : (nodes.find? (fitsNode size)).isSome = true) :
    (firstFit size nodes).isSome = true := by
  cases found : firstFit size nodes with
  | some result => rfl
  | none =>
      rw [find?_of_firstFit found] at fits
      cases fits

/-- Cutting a region out of a list removes its bytes and no others. -/
theorem coverage_firstFit {size : Int} {nodes left : List VmRgStruct} {newrg : VmRgStruct}
    (found : firstFit size nodes = some (newrg, left)) (cut : Cut size nodes newrg left) :
    coverage left = coverage nodes \ newrg.bytes := by
  ext address
  constructor
  · rintro ⟨piece, member, inside⟩
    rcases (cut.rest piece member).bytes with ⟨node, nodeMember, covered⟩
    refine ⟨⟨node, nodeMember, covered inside⟩, ?_⟩
    intro taken
    exact Set.disjoint_left.mp (cut.apart piece member) taken inside
  · rintro ⟨⟨node, member, inside⟩, notTaken⟩
    rcases firstFit_bytes found member inside with taken | remains
    · exact absurd taken notTaken
    · exact remains

/-! ## The search of an area -/

/-- What a search that reports a region leaves behind: the first node that is
long enough has lost its front, and the list stands for the other bytes. -/
structure TakesFront (mm : MmStruct) (vmaid : Int) (idx : Nat) (vma : VmAreaStruct) (size : Int)
    (newrg : VmRgStruct) : Prop where
  start : ∃ node, firstLongEnough size vma.vmFreergList = some node ∧
    newrg.rgStart = node.rgStart ∧ newrg.rgEnd.toNat = node.rgStart.toNat + size.toNat
  remaining : ∃ left, (getFreeVmrgArea mm vmaid size).2 =
      mm.setVma idx { vma with vmFreergList := left } ∧
    coverage left = coverage vma.vmFreergList \ newrg.bytes ∧
    left.Pairwise VmRgStruct.Apart ∧
    ∀ node ∈ left, node.rgStart.toNat ≤ node.rgEnd.toNat

/-- On a well-formed list the answer of the area is the answer of the loop. -/
private theorem getFreeVmrgArea_loop {mm : MmStruct} {vmaid size : Int} {idx : Nat}
    {vma : VmAreaStruct} (area : getVmaByNum mm vmaid = some (idx, vma))
    (free : FreeNodes size vma.vmFreergList) (positive : 0 < size) (isInt : size < 2 ^ 31) :
    getFreeVmrgArea mm vmaid size =
      match firstFit size vma.vmFreergList with
      | none => (none, mm)
      | some (newrg, left) => (some newrg, mm.setVma idx { vma with vmFreergList := left }) := by
  rw [getFreeVmrgArea, area]
  cases found : firstFit size vma.vmFreergList with
  | none => simp only [found]
  | some result =>
      rcases result with ⟨newrg, left⟩
      rcases free.region positive isInt found with ⟨node, _, member, start, _⟩
      have ordered := free.ordered node member
      have below := free.below node member
      have notProbe : newrg.rgStart ≠ ofInt (-1) := by
        intro allOnes
        have top : node.rgStart.toNat = 2 ^ 64 - 1 := by
          rw [← start, allOnes]
          rfl
        omega
      simp only [found, if_neg notProbe]

theorem getFreeVmrgArea_takesFront {mm : MmStruct} {vmaid size : Int} {idx : Nat}
    {vma : VmAreaStruct} (area : getVmaByNum mm vmaid = some (idx, vma))
    (free : FreeNodes size vma.vmFreergList) (positive : 0 < size) (isInt : size < 2 ^ 31)
    {newrg : VmRgStruct} (reported : (getFreeVmrgArea mm vmaid size).1 = some newrg) :
    TakesFront mm vmaid idx vma size newrg := by
  have loop := getFreeVmrgArea_loop area free positive isInt
  cases found : firstFit size vma.vmFreergList with
  | none =>
      rw [loop, found] at reported
      cases reported
  | some result =>
      rcases result with ⟨picked, left⟩
      rw [found] at loop
      rw [loop] at reported
      cases reported
      have cut := firstFit_cut found free.ordered free.apart (free.pickedHasRoom positive isInt)
      rcases free.region positive isInt found with ⟨node, first, _, start, finish⟩
      refine ⟨⟨node, first, start, finish⟩, left, ?_, coverage_firstFit found cut,
        cut.restApart, ?_⟩
      · rw [loop]
      · intro piece member
        rcases cut.rest piece member with ⟨_, _, _, ordered, _⟩
        exact ordered

/-- The search succeeds exactly when some node is long enough.  It takes the
front of the first such node and nothing else; a search that fails leaves the
memory map as it was. -/
theorem getFreeVmrgArea_firstFit {mm : MmStruct} {vmaid size : Int} {idx : Nat}
    {vma : VmAreaStruct} (area : getVmaByNum mm vmaid = some (idx, vma))
    (free : FreeNodes size vma.vmFreergList) (positive : 0 < size) (isInt : size < 2 ^ 31) :
    ((getFreeVmrgArea mm vmaid size).1.isSome = true ↔
        ∃ node ∈ vma.vmFreergList, size.toNat ≤ node.length) ∧
      (∀ newrg, (getFreeVmrgArea mm vmaid size).1 = some newrg →
        TakesFront mm vmaid idx vma size newrg) ∧
      ((getFreeVmrgArea mm vmaid size).1 = none → (getFreeVmrgArea mm vmaid size).2 = mm) := by
  have loop := getFreeVmrgArea_loop area free positive isInt
  have search := free.find?_fitsNode positive isInt
  refine ⟨?_, fun newrg => getFreeVmrgArea_takesFront area free positive isInt, ?_⟩
  · constructor
    · intro reported
      rcases Option.isSome_iff_exists.mp reported with ⟨newrg, answer⟩
      rcases (getFreeVmrgArea_takesFront area free positive isInt answer).start with
        ⟨node, first, _⟩
      exact ⟨node, length_of_firstLongEnough first⟩
    · rintro ⟨node, member, long⟩
      have fits : (vma.vmFreergList.find? (fitsNode size)).isSome = true := by
        rw [search, firstLongEnough, List.find?_isSome]
        exact ⟨node, member, decide_eq_true long⟩
      rcases Option.isSome_iff_exists.mp (firstFit_isSome fits) with ⟨result, found⟩
      rw [loop, found]
      rfl
  · intro nothing
    cases found : firstFit size vma.vmFreergList with
    | none => rw [loop, found]
    | some result =>
        rw [loop, found] at nothing
        cases nothing

/-- A list with an empty dummy node in front, as an earlier search leaves it. -/
def fragmentedList : List VmRgStruct :=
  [⟨512, 512, .user⟩, ⟨0, 256, .user⟩, ⟨1024, 1100, .user⟩]

/-- A request that uses up the second node, whose successor moves into its
place. -/
theorem getFreeVmrgArea_firstFit_wholeNode :
    ((getFreeVmrgArea ((initMm []).setFreeList fragmentedList) 0 256).1.isSome = true ↔
        ∃ node ∈ fragmentedList, (256 : Int).toNat ≤ node.length) ∧
      getFreeVmrgArea ((initMm []).setFreeList fragmentedList) 0 256 =
        (some ⟨0, 256, .user⟩,
          (initMm []).setFreeList [⟨512, 512, .user⟩, ⟨1024, 1100, .user⟩]) := by
  have area : getVmaByNum ((initMm []).setFreeList fragmentedList) 0 =
      some (0, { (initMm []).area with vmFreergList := fragmentedList }) := by rfl
  have free : FreeNodes 256 fragmentedList := by
    refine ⟨by decide, ?_, by decide⟩
    have above : fragmentedList.Pairwise fun left right =>
        right.rgEnd.toNat ≤ left.rgStart.toNat ∨ left.rgEnd.toNat ≤ right.rgStart.toNat := by
      decide
    apply above.imp
    intro left right order
    rcases order with below | above
    · exact VmRgStruct.apart_of_above below
    · exact (VmRgStruct.apart_of_above above).symm
  have search := getFreeVmrgArea_firstFit area free (by decide) (by decide)
  exact ⟨search.1, rfl⟩

end Memory
end Ossim
