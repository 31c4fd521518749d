import Ossim.Memory.RegionTable

namespace Ossim
namespace Memory

/-!
# Regions and the kernel range

The library tells the two kinds of regions apart in two ways, by the mode of
the region and by the test `kmem_addr_is_kernel` on its first address.  The
two ways agree for a region that is placed: a kernel region lies in the range
of the pool and a user region lies outside it.

A region holds the addresses that pass the offset test of the access layer.
For a region that ends before it starts these wrap around, so a placed region
also has to be ordered.
-/

namespace VmRgStruct

/-- The offset test of the access layer. -/
def Holds (rg : VmRgStruct) (addr : Addr) : Prop := addr - rg.rgStart < rg.rgEnd - rg.rgStart

instance (rg : VmRgStruct) (addr : Addr) : Decidable (rg.Holds addr) :=
  inferInstanceAs (Decidable (_ < _))

theorem holds_iff {rg : VmRgStruct} (ordered : rg.rgStart.toNat ≤ rg.rgEnd.toNat) (addr : Addr) :
    rg.Holds addr ↔ addr.toNat ∈ rg.bytes := by
  have start := rg.rgStart.isLt
  have finish := rg.rgEnd.isLt
  have bound := addr.isLt
  rw [Holds, BitVec.lt_def, BitVec.toNat_sub, BitVec.toNat_sub, bytes, Set.mem_Ico]
  omega

theorem not_holds_of_empty {rg : VmRgStruct} (empty : rg.rgStart = rg.rgEnd) (addr : Addr) :
    ¬ rg.Holds addr := by
  rw [Holds, empty, BitVec.sub_self]
  exact BitVec.not_lt_zero

/-- An ordered range inside the kernel pool. -/
structure InPool (rg : VmRgStruct) : Prop where
  lower : KMEM_VBASE.toNat ≤ rg.rgStart.toNat
  ordered : rg.rgStart.toNat ≤ rg.rgEnd.toNat
  upper : rg.rgEnd.toNat ≤ KMEM_VBASE.toNat + KMEM_POOL_SIZE

/-- An ordered range that shares no address with the kernel pool. -/
structure OutsidePool (rg : VmRgStruct) : Prop where
  ordered : rg.rgStart.toNat ≤ rg.rgEnd.toNat
  apart : rg.rgEnd.toNat ≤ KMEM_VBASE.toNat ∨
    KMEM_VBASE.toNat + KMEM_POOL_SIZE ≤ rg.rgStart.toNat

/-- The mode of a region fits its range. -/
def Placed (rg : VmRgStruct) : Prop :=
  match rg.modeBit with
  | .kernel => rg.rgStart = rg.rgEnd ∨ rg.InPool
  | .user => rg.OutsidePool

end VmRgStruct

theorem kmemAddrIsKernel_iff (addr : Addr) :
    kmemAddrIsKernel addr = true ↔
      KMEM_VBASE.toNat ≤ addr.toNat ∧ addr.toNat < KMEM_VBASE.toNat + KMEM_POOL_SIZE := by
  have limit : (KMEM_VBASE + BitVec.ofNat 64 KMEM_POOL_SIZE).toNat =
      KMEM_VBASE.toNat + KMEM_POOL_SIZE := by decide
  rw [kmemAddrIsKernel, Bool.and_eq_true, decide_eq_true_eq, decide_eq_true_eq, BitVec.le_def,
    BitVec.lt_def, limit]

namespace VmRgStruct

theorem InPool.isKernel {rg : VmRgStruct} (inside : rg.InPool) {addr : Addr}
    (held : rg.Holds addr) : kmemAddrIsKernel addr = true := by
  rw [holds_iff inside.ordered] at held
  rw [kmemAddrIsKernel_iff]
  exact ⟨inside.lower.trans held.1, lt_of_lt_of_le held.2 inside.upper⟩

theorem OutsidePool.not_isKernel {rg : VmRgStruct} (outside : rg.OutsidePool) {addr : Addr}
    (held : rg.Holds addr) : kmemAddrIsKernel addr = false := by
  rw [holds_iff outside.ordered] at held
  rw [← Bool.not_eq_true, kmemAddrIsKernel_iff]
  have first := held.1
  have last := held.2
  rcases outside.apart with below | above <;> omega

theorem Placed.isKernel {rg : VmRgStruct} (placed : rg.Placed) (mode : rg.modeBit = .kernel)
    {addr : Addr} (held : rg.Holds addr) : kmemAddrIsKernel addr = true := by
  rw [Placed, mode] at placed
  rcases placed with empty | inside
  · exact absurd held (not_holds_of_empty empty addr)
  · exact inside.isKernel held

theorem Placed.not_isKernel {rg : VmRgStruct} (placed : rg.Placed) (mode : rg.modeBit = .user)
    {addr : Addr} (held : rg.Holds addr) : kmemAddrIsKernel addr = false := by
  rw [Placed, mode] at placed
  exact placed.not_isKernel held

theorem placed_zero : zero.Placed := Or.inl rfl

/-- A placed region that starts outside the pool and is not empty is a user
region, so a release may put it on the free list. -/
theorem Placed.outsidePool {rg : VmRgStruct} (placed : rg.Placed)
    (start : kmemAddrIsKernel rg.rgStart = false) (nonempty : rg.rgStart < rg.rgEnd) :
    rg.OutsidePool := by
  cases mode : rg.modeBit with
  | user =>
      rw [Placed, mode] at placed
      exact placed
  | kernel =>
      have held : rg.Holds rg.rgStart := by
        rw [holds_iff (Nat.le_of_lt nonempty)]
        exact ⟨le_refl _, nonempty⟩
      rw [placed.isKernel mode held] at start
      cases start

theorem OutsidePool.shrink {piece node : VmRgStruct} (outside : node.OutsidePool)
    (start : node.rgStart.toNat ≤ piece.rgStart.toNat)
    (ordered : piece.rgStart.toNat ≤ piece.rgEnd.toNat)
    (finish : piece.rgEnd.toNat ≤ node.rgEnd.toNat) : piece.OutsidePool := by
  refine ⟨ordered, ?_⟩
  rcases outside.apart with below | above
  · exact Or.inl (finish.trans below)
  · exact Or.inr (above.trans start)

end VmRgStruct

/-- What the search cuts from nodes outside the pool lies outside as well. -/
theorem InsideOne.outsidePool {piece : VmRgStruct} {nodes : List VmRgStruct}
    (inside : InsideOne piece nodes) (outside : ∀ node ∈ nodes, node.OutsidePool) :
    piece.OutsidePool := by
  rcases inside with ⟨node, member, start, ordered, finish⟩
  exact (outside node member).shrink start ordered finish

theorem Searched.outsidePool {size : Int} {mm searched : MmStruct}
    (search : Searched size mm searched) (sound : mm.Sound)
    (outside : ∀ node ∈ mm.area.vmFreergList, node.OutsidePool)
    (room : PickedHasRoom size mm.area.vmFreergList) :
    ∀ node ∈ searched.area.vmFreergList, node.OutsidePool := by
  rcases search with ⟨_, same⟩ | ⟨newrg, left, found, _, same⟩
  · rw [same]
    exact outside
  · rw [same, sound.area_setFreeList]
    have pieces := firstFit_pieces found (fun node member => (outside node member).ordered) room
    exact fun piece member => (pieces.2.2.2 piece member).outsidePool outside

end Memory
end Ossim
