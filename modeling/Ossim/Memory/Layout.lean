import Mathlib.Data.BitVec
import Mathlib.Tactic
import Ossim.Library.WordFields

namespace Ossim
namespace Memory

/-!
# Data structures of the memory manager

The records follow `common.h`, `os-mm.h`, `mm.h` and `queue.h` for the
configuration that the repository builds: `MM_PAGING`, `MM64` and `MLQ_SCHED`
are defined, so `addr_t` and `arg_t` are unsigned 64-bit words.  A C `int` is
an integer; every place where the source narrows to `int` or computes in it
goes through `asInt` or `wrapInt`.  `BYTE` is a signed `char`.

Linked lists of the source are lists in link order.

Two kinds of access leave an array of the source: a device address beyond the
allocated storage, and a region id or register number beyond its table.  C
gives such an access no meaning.  The model drops it and raises a `fault`
flag, and a step that raises the flag is not a step of the system.
-/

/-! ## Machine integers -/

abbrev Addr := BitVec 64
abbrev Byte := BitVec 8

/-- The conversion of a 64-bit word to `int`. -/
def asInt (word : Addr) : Int := (word.setWidth 32).toInt

/-- The conversion of an `int` to `addr_t`, which extends the sign. -/
def ofInt (value : Int) : Addr := BitVec.ofInt 64 value

/-- The value of an `int` expression, computed modulo `2 ^ 32`. -/
def wrapInt (value : Int) : Int := (BitVec.ofInt 32 value).toInt

/-! ## Constants -/

def PAGING_PAGESZ : Addr := 256
/-- `DIV_ROUND_UP(BIT(22), 256)`: page numbers of the 4 MB bus. -/
def PAGING_MAX_PGN : Addr := 16384
def PAGING_MAX_SYMTBL_SZ : Nat := 30
def KMEM_POOL_SIZE : Nat := 65536
def KMEM_VBASE : Addr := 1#64 <<< 56
def KMEM_MAX_POOLS : Nat := 32

/-! ## Memory regions and areas -/

/-- The privilege classification of a region.  `kernel` is the constant 0,
and hence also the mode of a cleared symbol-table slot. -/
inductive VmrgMode
  | kernel
  | user
  deriving DecidableEq, Repr

structure VmRgStruct where
  rgStart : Addr
  rgEnd : Addr
  modeBit : VmrgMode
  deriving DecidableEq, Repr

/-- A symbol-table slot as `memset` leaves it. -/
def VmRgStruct.zero : VmRgStruct := ⟨0, 0, .kernel⟩

structure VmAreaStruct where
  vmId : Addr
  vmStart : Addr
  vmEnd : Addr
  sbrk : Addr
  vmFreergList : List VmRgStruct
  deriving DecidableEq, Repr

/-! ## The five-level page directory

A directory holds 512 cells.  In the four upper levels a cell is a pointer to
a child directory or `NULL`; in a page table it is the entry word itself. -/

abbrev DirIndex := BitVec 9
abbrev Dir (Child : Type) := DirIndex → Option Child
abbrev PtDir := DirIndex → Addr
abbrev PmdDir := Dir PtDir
abbrev PudDir := Dir PmdDir
abbrev P4dDir := Dir PudDir
abbrev PgdDir := Dir P4dDir

/-- The per-process memory map.  The two walk counters are printed and never
read, and `kcpooltbl` is always `NULL`; they are left out. -/
structure MmStruct where
  pgd : PgdDir
  mm64DirAllocCount : Nat
  mm64BytesAlloc : Nat
  mmap : List VmAreaStruct
  symrgtbl : Fin PAGING_MAX_SYMTBL_SZ → VmRgStruct
  fifoPgn : List Addr

/-! ## Physical devices and the kernel pool -/

/-- A memory device.  `storageSz` is the size that was given to `malloc`. -/
structure MemphyStruct where
  storage : Addr → Byte
  storageSz : Nat
  maxsz : Int
  rdmflg : Bool
  cursor : Int
  freeFpList : List Addr
  fault : Bool

structure KmemCachePoolState where
  used : Bool
  size : Int
  align : Int
  storage : Addr
  nextSlot : Int

/-- The file-scope variables of the kernel-memory subsystem. -/
structure Kmem where
  storage : Int → Byte
  brk : Int
  pools : Fin KMEM_MAX_POOLS → KmemCachePoolState

/-! ## Integer conversions as arithmetic -/

theorem asInt_eq (word : Addr) :
    asInt word = if word.toNat % 2 ^ 32 < 2 ^ 31 then ((word.toNat % 2 ^ 32 : Nat) : Int)
      else ((word.toNat % 2 ^ 32 : Nat) : Int) - 2 ^ 32 := by
  rw [asInt, BitVec.toInt_eq_toNat_cond, BitVec.toNat_setWidth]
  split <;> split <;> omega

theorem asInt_bounds (word : Addr) : -2 ^ 31 ≤ asInt word ∧ asInt word < 2 ^ 31 := by
  rw [asInt_eq]
  split <;> omega

theorem asInt_of_small (word : Addr) (small : word.toNat < 2 ^ 31) :
    asInt word = word.toNat := by
  rw [asInt_eq]
  split <;> omega

theorem toNat_ofInt (value : Int) : ((ofInt value).toNat : Int) = value % 2 ^ 64 := by
  rw [ofInt, BitVec.toNat_ofInt]
  omega

theorem ofInt_asInt_of_small (word : Addr) (small : word.toNat < 2 ^ 31) :
    ofInt (asInt word) = word := by
  apply BitVec.eq_of_toNat_eq
  have value := toNat_ofInt (asInt word)
  rw [asInt_of_small word small] at value
  rw [asInt_of_small word small]
  omega

theorem wrapInt_of_small (value : Int) (lower : -2 ^ 31 ≤ value) (upper : value < 2 ^ 31) :
    wrapInt value = value := by
  rw [wrapInt, BitVec.toInt_ofInt]
  exact Int.bmod_eq_of_le (by omega) (by omega)

/-- A byte that was widened to an argument word is recovered by narrowing. -/
theorem setWidth_signExtend_byte (byte : Byte) : (byte.signExtend 64).setWidth 8 = byte := by
  apply BitVec.eq_of_getLsbD_eq
  intro i inside
  have long : i < 64 := by omega
  rw [BitVec.getLsbD_setWidth, BitVec.getLsbD_signExtend]
  simp [inside, long]

end Memory
end Ossim
