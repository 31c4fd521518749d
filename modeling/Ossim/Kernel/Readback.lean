import Ossim.Kernel.Storage

namespace Ossim
namespace Kernel

open Memory

/-!
# Reading back a written byte

A WRITE narrows its data operand to a byte and a READ of the same place finds
this byte again.  On its way into the register the byte is widened twice: the
library extends the sign of the C type `char` to 32 bits, and the processor
extends the result with zeros.  The register therefore holds the byte only
when its upper bit is clear.
-/

/-- The value of a register of a process. -/
def Os.register (os : Os) (proc : ProcRef) (index : Fin 10) : Option Addr :=
  (os.procs proc).map fun pcb => pcb.regs index

/-! ## The library functions on plain accesses -/

/-- The cell of the RAM behind an offset in a region, where the access is
granted. -/
def ByteCell (os : Os) (proc : ProcRef) (rgid : BitVec 32) (offset cell : Addr) : Prop :=
  ∃ addr, resolveRgAddr os proc rgid.toInt offset = some addr ∧ os.Grants proc addr ∧
    os.userCell proc addr = cell

theorem libwrite_cell {os : Os} {proc : ProcRef} (plain : os.Plain proc) {data : Byte}
    {destination : BitVec 32} {offset : Addr}
    (wrote : (libwrite os proc data destination offset).1 = 0) :
    ∃ cell, ByteCell os proc destination offset cell ∧
      libwrite os proc data destination offset =
        (0, os.setRamBytes (Function.update os.mram.storage cell data)) := by
  have failed : (-1 : Int) ≠ 0 := by decide
  unfold libwrite write at wrote ⊢
  cases resolved : resolveRgAddr os proc destination.toInt offset with
  | none =>
      rw [resolved] at wrote
      exact absurd wrote failed
  | some addr =>
      rw [resolved] at wrote
      dsimp only at wrote ⊢
      by_cases granted : os.Grants proc addr
      · exact ⟨os.userCell proc addr, ⟨addr, resolved, granted, rfl⟩,
          pgSetval_of_grants plain granted data⟩
      · rw [pgSetval_of_not_grants plain granted] at wrote
        exact absurd wrote failed

theorem libread_cell {os : Os} {proc : ProcRef} (plain : os.Plain proc) {source : BitVec 32}
    {offset cell : Addr} (place : ByteCell os proc source offset cell) :
    libread os proc source offset = (0, (os.mram.storage cell).signExtend 32, os) := by
  rcases place with ⟨addr, resolved, granted, same⟩
  unfold libread read
  rw [resolved]
  dsimp only
  rw [pgGetval_of_grants plain granted, same]
  rfl

/-- The place of a byte depends on the page table and the symbol table. -/
theorem ByteCell.setRamBytes {os : Os} {proc : ProcRef} {rgid : BitVec 32} {offset cell : Addr}
    (place : ByteCell os proc rgid offset cell) (bytes : Addr → Byte) :
    ByteCell (os.setRamBytes bytes) proc rgid offset cell :=
  place

theorem ByteCell.advance {os : Os} {proc : ProcRef} {rgid : BitVec 32} {offset cell : Addr}
    (place : ByteCell os proc rgid offset cell) :
    ByteCell (os.advance proc) proc rgid offset cell := by
  rcases place with ⟨addr, resolved, granted, same⟩
  have mm := mm_advance os proc proc
  have translate : (os.advance proc).translate proc = os.translate proc := by
    ext addr
    rw [Os.translate, Os.translate, mm]
  refine ⟨addr, ?_, ?_, ?_⟩
  · rw [resolveRgAddr, mm]
    exact resolved
  · rw [Os.Grants, resolves_advance, translate]
    exact granted
  · rw [Os.userCell, translate]
    exact same

theorem Os.Plain.advance {os : Os} {proc : ProcRef} (plain : os.Plain proc) :
    (os.advance proc).Plain proc where
  unswapped := by
    unfold Os.Unswapped
    rw [mm_advance]
    exact plain.unswapped
  random := plain.random
  inStorage := by
    refine ⟨plain.inStorage.spare, fun other pgn fpn mapped => ?_⟩
    rw [mm_advance] at mapped
    exact plain.inStorage.mapped other pgn fpn mapped

/-! ## The two widenings -/

/-- Extending a byte by its sign and then by zeros keeps its value exactly when
the upper bit of the byte is clear. -/
theorem setWidth_signExtend_iff (data : Byte) :
    (data.signExtend 32).setWidth 64 = BitVec.ofNat 64 data.toNat ↔ data.toNat < 128 := by
  rw [← BitVec.toNat_inj, BitVec.toNat_setWidth, BitVec.toNat_signExtend, BitVec.toNat_setWidth,
    BitVec.toNat_ofNat]
  have bound := data.isLt
  cases upper : data.msb with
  | false =>
      have small := BitVec.msb_eq_false_iff_two_mul_lt.mp upper
      simp only [Bool.false_eq_true, if_false]
      omega
  | true =>
      have large := BitVec.msb_eq_true_iff_two_mul_ge.mp upper
      simp only [if_true]
      omega

/-- Narrowing an operand to a byte takes its remainder. -/
theorem toNat_operand (data : Addr) : (data.setWidth 8).toNat = data.toNat % 256 :=
  BitVec.toNat_setWidth 8 data

theorem register_setReg {os : Os} {proc : ProcRef} (live : (os.procs proc).isSome = true)
    {index : Addr} (inside : index.toNat < 10) (value : Addr) :
    (os.setReg proc index value).register proc ⟨index.toNat, inside⟩ = some value := by
  rcases Option.isSome_iff_exists.mp live with ⟨pcb, found⟩
  rw [Os.register, Os.setReg, dif_pos inside, Os.updatePcb, Os.setProc_procs,
    Function.update_self, found]
  simp only [Option.map_some, Function.update_self]

/-! ## Two instructions -/

/-- A WRITE that succeeds has stored the byte of its operand. -/
theorem run_write {os : Os} {proc : ProcRef} (plain : os.Plain proc)
    {data region offset spare : Addr}
    (writing : fetch os proc = some ⟨.WRITE, data, region, offset, spare⟩)
    (wrote : (run os proc).1 = 0) :
    ∃ cell, ByteCell (os.advance proc) proc (region.setWidth 32) offset cell ∧
      (run os proc).2 = (os.advance proc).setRamBytes
        (Function.update os.mram.storage cell (data.setWidth 8)) := by
  rw [run_of_fetch writing] at wrote ⊢
  rcases libwrite_cell plain.advance wrote with ⟨cell, place, answer⟩
  refine ⟨cell, place, ?_⟩
  exact congrArg Prod.snd answer

/-- A READ of a place succeeds and stores the widened byte in its register. -/
theorem run_read {os : Os} {proc : ProcRef} (plain : os.Plain proc)
    {region offset index spare cell : Addr}
    (reading : fetch os proc = some ⟨.READ, region, offset, index, spare⟩)
    (place : ByteCell os proc (region.setWidth 32) offset cell) :
    run os proc = (0, (os.advance proc).setReg proc index
      (((os.mram.storage cell).signExtend 32).setWidth 64)) := by
  rw [run_of_fetch reading]
  have answer := libread_cell plain.advance place.advance
  unfold dispatch
  dsimp only
  rw [answer]
  rfl

/-- In a reachable state the register holds the operand modulo 256 exactly when
this is below 128. -/
theorem readback_iff (memramsz memswpsz : Addr) (os : Os)
    (reached : Reachable memramsz memswpsz os) (proc : ProcRef)
    (data region offset index spare spare' : Addr) (inside : index.toNat < 10)
    (writing : fetch os proc = some ⟨.WRITE, data, region, offset, spare⟩)
    (wrote : (run os proc).1 = 0)
    (reading : fetch (run os proc).2 proc = some ⟨.READ, region, offset, index, spare'⟩) :
    ((run (run os proc).2 proc).1 = 0 →
        (run (run os proc).2 proc).2.register proc ⟨index.toNat, inside⟩ =
          some (BitVec.ofNat 64 (data.toNat % 256))) ↔
      data.toNat % 256 < 128 := by
  have plain := reached.accessible.plain proc
  rcases run_write plain writing wrote with ⟨cell, place, stored⟩
  have live := isSome_of_fetch reading
  rw [stored] at reading live ⊢
  have plainAfter := plain.advance.setRamBytes
    (Function.update os.mram.storage cell (data.setWidth 8))
  rw [run_read plainAfter reading (place.setRamBytes _), forall_prop_of_true rfl]
  dsimp only
  rw [register_setReg (by rw [isSome_advance]; exact live) inside, Option.some_inj]
  have found : ((os.advance proc).setRamBytes
      (Function.update os.mram.storage cell (data.setWidth 8))).mram.storage cell =
      data.setWidth 8 := Function.update_self ..
  rw [found, ← toNat_operand]
  exact setWidth_signExtend_iff (data.setWidth 8)

/-- The operand 200 comes back as `2 ^ 32 - 56`. -/
theorem not_readback :
    ¬ ∀ (memramsz memswpsz : Addr) (os : Os), Reachable memramsz memswpsz os →
      ∀ (proc : ProcRef) (data region offset index spare spare' : Addr)
        (inside : index.toNat < 10),
        fetch os proc = some ⟨.WRITE, data, region, offset, spare⟩ → (run os proc).1 = 0 →
        fetch (run os proc).2 proc = some ⟨.READ, region, offset, index, spare'⟩ →
        (run (run os proc).2 proc).1 = 0 →
        (run (run os proc).2 proc).2.register proc ⟨index.toNat, inside⟩ =
          some (BitVec.ofNat 64 (data.toNat % 256)) := by
  intro always
  let before : Os := (Transition.exec kernelStep (fun _ _ => True) (boot 1024 0 nullHeads)
    [.load [⟨.ALLOC, 16, 0, 0, 0⟩, ⟨.WRITE, 200, 0, 0, 0⟩, ⟨.READ, 0, 0, 1, 0⟩] 0,
      .run 1]).get (by decide +kernel)
  have reached : Reachable 1024 0 before :=
    ⟨_, _, (Transition.runWhere_of_exec (Option.some_get _).symm).run⟩
  have same := always 1024 0 before reached 1 200 0 0 1 0 0 (by decide) (by decide +kernel)
    (by decide +kernel) (by decide +kernel) (by decide +kernel)
  have widened : (run (run before 1).2 1).2.register 1 ⟨1, by decide⟩ =
      some (BitVec.ofNat 64 (2 ^ 32 - 56)) := by decide +kernel
  exact absurd (widened.symm.trans same) (by decide)

/-- The byte 7 is read back as 7. -/
theorem readback_seven :
    (run (run ((Transition.exec kernelStep (fun _ _ => True) (boot 1024 0 nullHeads)
        [.load [⟨.ALLOC, 16, 0, 0, 0⟩, ⟨.WRITE, 7, 0, 3, 0⟩, ⟨.READ, 0, 3, 1, 0⟩] 0,
          .run 1]).get (by decide +kernel)) 1).2 1).2.register 1 ⟨1, by decide⟩ =
        some (BitVec.ofNat 64 ((7 : Addr).toNat % 256)) :=
  (readback_iff 1024 0 _ ⟨_, _, (Transition.runWhere_of_exec (Option.some_get _).symm).run⟩ 1
    7 0 3 1 0 0 (by decide) (by decide +kernel) (by decide +kernel) (by decide +kernel)).mpr
    (by decide) (by decide +kernel)

end Kernel
end Ossim
