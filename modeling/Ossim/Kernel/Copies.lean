import Ossim.Library.CopyLoop
import Ossim.Memory.RegionTable
import Ossim.Kernel.VirtualBytes

namespace Ossim
namespace Kernel

open Memory CopyLoop

/-!
# Copies between user and kernel regions

Both copies check what kind of regions they are given and then walk over them
byte by byte.  Each byte is checked by the layer that accesses it, the page
table on the user side and the pool limits on the kernel side, and neither
layer knows where a region ends.  The region bounds are therefore respected in
two cases only: the request fits into both regions, or an access is refused
before the first one outside.

To respect the bounds is more than to make no access outside: nothing else in
the kernel pool, in the RAM, on the swap or in another process changes.
-/

/-! ## The loops as copy loops -/

/-- The address that iteration `i` uses on one side. -/
def cellAddr (rg : VmRgStruct) (offset : BitVec 32) (i : Nat) : Addr :=
  rg.rgStart + offset.setWidth 64 + BitVec.ofNat 64 i

def fetchUser (caller : ProcRef) (src : VmRgStruct) (offset : BitVec 32) (i : Nat) (os : Os) :
    Int × Byte × Os :=
  pgGetval os (cellAddr src offset i) caller

def storeKernel (dst : VmRgStruct) (offset : BitVec 32) (i : Nat) (b : Byte) (os : Os) : Int × Os :=
  match kmemWriteByte os.kmem (cellAddr dst offset i) b with
  | (ret, kmem) => if ret ≠ 0 then (ret, os) else (ret, os.setKmem kmem)

def fetchKernel (src : VmRgStruct) (offset : BitVec 32) (i : Nat) (os : Os) : Int × Byte × Os :=
  match kmemReadByte os.kmem (cellAddr src offset i) with
  | (ret, b) => (ret, b, os)

def storeUser (caller : ProcRef) (dst : VmRgStruct) (offset : BitVec 32) (i : Nat) (b : Byte)
    (os : Os) : Int × Os :=
  pgSetval os (cellAddr dst offset i) b caller

theorem copyFromUserLoop_eq (caller : ProcRef) (src dst : VmRgStruct) (offset : BitVec 32)
    (remaining i : Nat) (os : Os) :
    copyFromUserLoop caller src dst offset remaining i os =
      copy (fetchUser caller src offset) (storeKernel dst offset) remaining i os := by
  induction remaining generalizing i os with
  | zero => rfl
  | succ remaining inductionHypothesis =>
      rw [copyFromUserLoop, copy, fetchUser, cellAddr]
      generalize pgGetval os (src.rgStart + offset.setWidth 64 + BitVec.ofNat 64 i) caller = read
      rcases read with ⟨ret, b, fetched⟩
      dsimp only
      rw [storeKernel, cellAddr]
      generalize kmemWriteByte fetched.kmem (dst.rgStart + offset.setWidth 64 + BitVec.ofNat 64 i) b
        = write
      rcases write with ⟨status, kmem⟩
      dsimp only
      by_cases denied : status ≠ 0
      · simp only [if_pos denied]
      · simp only [if_neg denied, inductionHypothesis]

theorem copyToUserLoop_eq (caller : ProcRef) (src dst : VmRgStruct) (offset : BitVec 32)
    (remaining i : Nat) (os : Os) :
    copyToUserLoop caller src dst offset remaining i os =
      copy (fetchKernel src offset) (storeUser caller dst offset) remaining i os := by
  induction remaining generalizing i os with
  | zero => rfl
  | succ remaining inductionHypothesis =>
      rw [copyToUserLoop, copy, fetchKernel, cellAddr]
      generalize kmemReadByte os.kmem (src.rgStart + offset.setWidth 64 + BitVec.ofNat 64 i) = read
      rcases read with ⟨ret, b⟩
      dsimp only
      rw [storeUser, cellAddr]
      generalize pgSetval os (dst.rgStart + offset.setWidth 64 + BitVec.ofNat 64 i) b caller = write
      rcases write with ⟨status, stored⟩
      dsimp only
      simp only [inductionHypothesis]

/-! ## The bounds -/

/-- The address of an iteration lies in the region exactly when its distance
from the start is less than the length. -/
theorem cellAddr_mem_iff (rg : VmRgStruct) (offset : BitVec 32) {i : Nat} (small : i < 2 ^ 32) :
    (cellAddr rg offset i).toNat ∈ rg.bytes ↔ offset.toNat + i < rg.length := by
  have start := rg.rgStart.isLt
  have finish := rg.rgEnd.isLt
  have distance := offset.isLt
  have address : (cellAddr rg offset i).toNat =
      (rg.rgStart.toNat + offset.toNat + i) % 2 ^ 64 := by
    rw [cellAddr, BitVec.toNat_add, BitVec.toNat_add, BitVec.toNat_setWidth, BitVec.toNat_ofNat]
    omega
  rw [VmRgStruct.bytes, Set.mem_Ico, address, VmRgStruct.length]
  omega

/-- The request goes beyond one of the regions. -/
def Exceeds (source target : VmRgStruct) (offset size : BitVec 32) : Prop :=
  source.length < offset.toNat + size.toNat ∨ target.length < offset.toNat + size.toNat

/-- What a copy between two regions may do: read inside the source, write
inside the target, and nothing but fail when the request is too large. -/
structure InBounds (performed : List (Side × Nat)) (source target : VmRgStruct)
    (offset size : BitVec 32) (status : Int) : Prop where
  reads : ∀ i, (.source, i) ∈ performed → (cellAddr source offset i).toNat ∈ source.bytes
  writes : ∀ i, (.target, i) ∈ performed → (cellAddr target offset i).toNat ∈ target.bytes
  fails : Exceeds source target offset size → status = -1

@[simp] theorem kmem_setMm (os : Os) (caller : ProcRef) (mm : MmStruct) :
    (os.setMm caller mm).kmem = os.kmem := rfl

theorem kmem_syscall (os : Os) (pid : Nat) (nr : BitVec 32) (regs : ScRegs) :
    (syscall os pid nr regs).2.2.kmem = os.kmem := by
  unfold syscall
  split
  · rfl
  · split
    · unfold sysMemmap
      cases schedFindProcByPid os pid with
      | none => rfl
      | some proc =>
          dsimp only
          split
          · exact kmem_setMm os proc _
          · split
            · generalize incVmaLimit (os.mm proc) os.mram (asInt regs.a2) regs.a3 = outcome
              rfl
            · split
              · unfold mmSwapPage
                generalize swapCpPage os.mram regs.a2 os.activeMswp regs.a3 = devices
                rfl
              · split
                · generalize memphyRead os.mram regs.a2 = outcome
                  rcases outcome with ⟨ret, value, mram⟩
                  dsimp only
                  split
                  · exact Os.setMram_kmem os mram
                  · exact Os.setMram_kmem os mram
                · split
                  · exact Os.setMram_kmem os _
                  · rfl
    · rfl

theorem kmem_pgGetpage (os : Os) (pgn : Int) (caller : ProcRef) :
    (pgGetpage os pgn caller).2.2.kmem = os.kmem := by
  unfold pgGetpage
  dsimp only
  split
  · rfl
  · split
    · rfl
    · cases findVictimPage (os.mm caller) with
      | none => rfl
      | some victim =>
          rcases victim with ⟨vicpgn, unlinked⟩
          dsimp only
          have picked := kmem_setMm os caller unlinked
          generalize os.setMm caller unlinked = chosen at picked ⊢
          cases memphyGetFreefp chosen.activeMswp with
          | none => exact picked
          | some slot =>
              rcases slot with ⟨swpfpn, taken⟩
              dsimp only
              have reserved : (chosen.setActiveMswp taken).kmem = os.kmem := picked
              generalize chosen.setActiveMswp taken = holding at reserved ⊢
              have called := (kmem_syscall holding (holding.pid caller) 17
                ⟨ofInt SYSMEM_SWP_OP, pagingFpn (pteGetEntry (holding.mm caller) vicpgn),
                  swpfpn⟩).trans reserved
              generalize syscall holding (holding.pid caller) 17
                ⟨ofInt SYSMEM_SWP_OP, pagingFpn (pteGetEntry (holding.mm caller) vicpgn), swpfpn⟩
                = outcome at called ⊢
              rcases outcome with ⟨ret, regs, evicted⟩
              dsimp only at called ⊢
              split
              · exact called
              · generalize swapCpPage evicted.activeMswp
                  (pagingSwp (pteGetEntry (os.mm caller) (ofInt pgn))) evicted.mram
                  (pagingFpn (pteGetEntry (holding.mm caller) vicpgn)) = devices
                exact called

theorem kmem_pgGetval (os : Os) (addr : Addr) (caller : ProcRef) :
    (pgGetval os addr caller).2.2.kmem = os.kmem := by
  have paging := kmem_pgGetpage os (asInt (addr / PAGING_PAGESZ)) caller
  unfold pgGetval
  dsimp only
  split
  · exact paging
  · split <;> exact (kmem_syscall _ _ _ _).trans paging

theorem kmem_pgSetval (os : Os) (addr : Addr) (value : Byte) (caller : ProcRef) :
    (pgSetval os addr value caller).2.kmem = os.kmem := by
  have paging := kmem_pgGetpage os (asInt (addr / PAGING_PAGESZ)) caller
  unfold pgSetval
  dsimp only
  split
  · exact paging
  · split <;> exact (kmem_syscall _ _ _ _).trans paging

/-! ## The rest of the memory

A copy may have to bring pages in from the swap, which moves contents between
frames and slots.  What must not change is therefore stated about the cells of
pages, wherever they are.  Where the caller has no page on swap nothing moves,
and the statement is about the devices themselves. -/

/-- The cell is the one that is looked up for an address of the region, or lies in
the place of that one. -/
def Os.Behind (os : Os) (caller : ProcRef) (rg : VmRgStruct) (held : ProcRef × Addr)
    (cell : Fin 256) : Prop :=
  ∃ addr : Addr, addr.toNat ∈ rg.bytes ∧ accessCell addr = cell ∧
    (held = (caller, accessPage addr) ∨
      ∃ place, os.places.loc held = some place ∧
        os.places.loc (caller, accessPage addr) = some place)

/-- No page has moved, and the RAM differs in the touched cells only. -/
structure Unmoved (touched : ProcRef × Addr → Fin 256 → Prop) (before after : Os) : Prop where
  mm : ∀ proc, after.mm proc = before.mm proc
  activeMswp : after.activeMswp = before.activeMswp
  storage : ∀ phyaddr,
    (∀ held fpn cell, touched held cell → before.places.loc held = some (.frame fpn) →
      pageCell fpn cell ≠ phyaddr) →
    after.mram.storage phyaddr = before.mram.storage phyaddr

theorem loc_of_mm {before after : Os} (mm : ∀ proc, after.mm proc = before.mm proc)
    (held : ProcRef × Addr) : after.places.loc held = before.places.loc held :=
  congrArg (fun mm : MmStruct => mm.placeOf held.2) (mm held.1)

/-- Cells that are not touched keep their content when no page moves, provided all
cells in the place of a touched one count as touched. -/
theorem Unmoved.cells {touched : ProcRef × Addr → Fin 256 → Prop} {before after : Os}
    (unmoved : Unmoved touched before after)
    (spreads : ∀ held other cell place, before.places.loc held = some place →
      before.places.loc other = some place → touched other cell → touched held cell)
    {held : ProcRef × Addr} {cell : Fin 256} (spared : ¬ touched held cell) :
    after.cellAt held cell = before.cellAt held cell := by
  have small : ∀ {held fpn}, before.places.loc held = some (.frame fpn) → fpn.toNat < 2 ^ 32 := by
    intro held fpn located
    have frame : (before.mm held.1).frameOf held.2 = some fpn :=
      (MmStruct.placeOf_eq_frame_iff _ _ fpn).mp located
    exact lt_trans (MmStruct.frameOf_lt frame) (by decide)
  rw [Os.cellAt, Os.cellAt, Os.pageAt, Os.pageAt, Ledger.content, Ledger.content,
    loc_of_mm unmoved.mm held]
  cases located : before.places.loc held with
  | none => rfl
  | some place =>
      cases place with
      | slot swpoff =>
          rw [Option.map_some, Option.map_some, unmoved.activeMswp]
          rfl
      | frame fpn =>
          refine congrArg some (unmoved.storage (pageCell fpn cell) ?_)
          intro other elsewhere offset hit found same
          have equal := pageCell_inj (small found) (small located) offset.isLt cell.isLt same
          rw [equal.1] at found
          exact spared (spreads held other cell (.frame fpn) located found
            (Fin.ext equal.2 ▸ hit))

/-! ## What the loops change -/

theorem wellFormed_setKmem {os : Os} {frames slots : Nat} {caller : ProcRef}
    (order : os.WellFormed frames slots caller) (kmem : Kmem) :
    (os.setKmem kmem).WellFormed frames slots caller :=
  order.frame (frame_setKmem os caller kmem) order.exclusive order.inRange order.unmixed
    order.fifoExact

/-- A store to the pool is refused, or it changes one of its bytes. -/
theorem storeKernel_cases (dst : VmRgStruct) (offset : BitVec 32) (i : Nat) (b : Byte) (os : Os) :
    ((storeKernel dst offset i b os).1 ≠ 0 ∧ (storeKernel dst offset i b os).2 = os) ∨
      (storeKernel dst offset i b os).1 = 0 ∧ (storeKernel dst offset i b os).2 =
        os.setKmem { os.kmem with
          storage := Function.update os.kmem.storage (kmemOffset (cellAddr dst offset i)) b } := by
  unfold storeKernel kmemWriteByte
  cases kmemAddrIsKernel (cellAddr dst offset i) with
  | false => exact Or.inl ⟨show (-1 : Int) ≠ 0 by decide, rfl⟩
  | true => exact Or.inr ⟨rfl, rfl⟩

section FromUser

variable {os : Os} {caller : ProcRef} {src dst : VmRgStruct} {offset : BitVec 32} {count : Nat}

end FromUser

section ToUser

variable {os : Os} {caller : ProcRef} {src dst : VmRgStruct} {offset : BitVec 32} {count : Nat}

theorem Os.Behind.spreads {held other : ProcRef × Addr} {cell : Fin 256} {place : Place}
    (located : os.places.loc held = some place) (found : os.places.loc other = some place)
    (behind : os.Behind caller dst other cell) : os.Behind caller dst held cell := by
  rcases behind with ⟨addr, inside, same, here | ⟨shared, otherAt, addrAt⟩⟩
  · rw [here] at found
    exact ⟨addr, inside, same, Or.inr ⟨place, located, found⟩⟩
  · rw [otherAt] at found
    exact ⟨addr, inside, same, Or.inr ⟨shared, located.trans found.symm, addrAt⟩⟩

end ToUser

/-! ## Both directions -/

/-- The access layer grants the byte behind a user address. -/
def Os.Grants (os : Os) (caller : ProcRef) (addr : Addr) : Prop :=
  os.Resolves caller ∧ (os.translate caller addr).isSome = true

/-- The accesses that the two layers grant to a copy from user space. -/
def fromUserGranted (os : Os) (caller : ProcRef) (src dst : VmRgStruct) (offset : BitVec 32) :
    Side → Nat → Prop
  | .source, i => os.Grants caller (cellAddr src offset i)
  | .target, i => kmemAddrIsKernel (cellAddr dst offset i) = true

/-- The accesses that the two layers grant to a copy to user space. -/
def toUserGranted (os : Os) (caller : ProcRef) (src dst : VmRgStruct) (offset : BitVec 32) :
    Side → Nat → Prop
  | .source, i => kmemAddrIsKernel (cellAddr src offset i) = true
  | .target, i => os.Grants caller (cellAddr dst offset i)

/-- The states that the loops pass through: the same bytes are granted in all
of them. -/
structure SameGrants (caller : ProcRef) (before after : Os) : Prop where
  data : DataStep caller before after
  frame : MemoryFrame caller before after

theorem SameGrants.refl (caller : ProcRef) (os : Os) : SameGrants caller os os :=
  ⟨DataStep.refl caller os, MemoryFrame.refl caller os⟩

theorem SameGrants.trans {caller : ProcRef} {first second third : Os}
    (left : SameGrants caller first second) (right : SameGrants caller second third) :
    SameGrants caller first third :=
  ⟨left.data.trans right.data, left.frame.trans right.frame⟩

end Kernel
end Ossim
