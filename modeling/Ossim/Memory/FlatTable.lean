import Ossim.Memory.DirectoryAccounting
import Ossim.Memory.FrameTable

namespace Ossim
namespace DirectoryHeap

open Memory PointerTree Transition WordFields

/-!
# The directories as a flat table

For its callers the five-level directory is an array with one 32-bit word for
each page below the limit.  The comparison goes in two steps.  The blocks of
the heap hold the tree of `PageTable` at any time, and the calls on the heap are
the calls on that tree.  The tree in turn answers like the array, because two
page numbers below the limit never share a cell.
-/

/-! ## The array -/

abbrev FlatTable := Fin PAGING_MAX_PGN.toNat → BitVec 32

namespace FlatTable

def zero : FlatTable := fun _ => 0

/-- The word of a page; there is none at or above `PAGING_MAX_PGN`. -/
def get (table : FlatTable) (pgn : Addr) : BitVec 32 :=
  if short : pgn < PAGING_MAX_PGN then table ⟨pgn.toNat, short⟩ else 0

/-- Edit the word of a page and no other. -/
def set (table : FlatTable) (pgn : Addr) (edit : BitVec 32 → BitVec 32) : Int × FlatTable :=
  if short : pgn < PAGING_MAX_PGN then
    (0, Function.update table ⟨pgn.toNat, short⟩ (edit (table ⟨pgn.toNat, short⟩)))
  else (-1, table)

theorem get_set (table : FlatTable) (pgn read : Addr) (edit : BitVec 32 → BitVec 32)
    (short : pgn < PAGING_MAX_PGN) :
    (table.set pgn edit).2.get read =
      if read = pgn then edit (table.get pgn) else table.get read := by
  rw [set, dif_pos short]
  dsimp only
  by_cases same : read = pgn
  · subst same
    rw [if_pos rfl, get, get, dif_pos short, dif_pos short, Function.update_self]
  · rw [if_neg same, get, get]
    by_cases readShort : read < PAGING_MAX_PGN
    · rw [dif_pos readShort, dif_pos readShort, Function.update_of_ne]
      intro equal
      exact same (BitVec.eq_of_toNat_eq (Fin.mk.inj equal))
    · rw [dif_neg readShort, dif_neg readShort]

theorem set_code (table : FlatTable) (pgn : Addr) (edit : BitVec 32 → BitVec 32)
    (short : pgn < PAGING_MAX_PGN) : (table.set pgn edit).1 = 0 := by
  rw [set, dif_pos short]

theorem set_of_long (table : FlatTable) (pgn : Addr) (edit : BitVec 32 → BitVec 32)
    (long : PAGING_MAX_PGN ≤ pgn) : table.set pgn edit = (-1, table) := by
  rw [set, dif_neg (BitVec.not_lt.mpr long)]

end FlatTable

/-- The edits of `pte_set_fpn` on a 32-bit word. -/
def flatFpn (fpn : Addr) (word : BitVec 32) : BitVec 32 :=
  putField (clearBits (setBits word PAGING_PTE_PRESENT_MASK) PAGING_PTE_SWAPPED_MASK)
    (fpn.setWidth 32) PAGING_PTE_FPN_MASK 0

/-- The edits of `pte_set_swap` on a 32-bit word. -/
def flatSwap (swptyp : Int) (swpoff : Addr) (word : BitVec 32) : BitVec 32 :=
  let frameless := clearBits (clearBits word PAGING_PTE_PRESENT_MASK) PAGING_PTE_FPN_MASK
  let swapped := setBits frameless PAGING_PTE_SWAPPED_MASK
  putField (putField swapped ((ofInt swptyp).setWidth 32) PAGING_PTE_SWPTYP_MASK 0)
    (swpoff.setWidth 32) PAGING_PTE_SWPOFF_MASK 5

/-- The array with the replies that were given so far. -/
structure Flat where
  table : FlatTable
  replies : List Reply

def Flat.start : Flat := ⟨FlatTable.zero, []⟩

/-- Record a reply and the array after it. -/
def Flat.record (flat : Flat) (outcome : Int × FlatTable) : Flat :=
  ⟨outcome.2, flat.replies ++ [.status outcome.1]⟩

/-- One call on the array. -/
def flatStep (flat : Flat) : Call → Flat
  | .pteSetEntry pgn _ pteVal => flat.record (flat.table.set pgn fun _ => pteVal)
  | .pteSetFpn pgn _ fpn => flat.record (flat.table.set pgn (flatFpn fpn))
  | .pteSetSwap pgn _ swptyp swpoff => flat.record (flat.table.set pgn (flatSwap swptyp swpoff))
  | .pteGetEntry pgn => ⟨flat.table, flat.replies ++ [.entry (flat.table.get pgn)]⟩

theorem setWidth_fpnWord (fpn word : Addr) :
    (fpnWord fpn word).setWidth 32 = flatFpn fpn (word.setWidth 32) := by
  rw [fpnWord, flatFpn, setWidth_putField _ _ _ _ (by decide), setWidth_clearBits _ _ (by decide),
    setWidth_setBits _ _ (by decide)]

theorem setWidth_swapWord (swptyp : Int) (swpoff word : Addr) :
    (swapWord swptyp swpoff word).setWidth 32 = flatSwap swptyp swpoff (word.setWidth 32) := by
  rw [swapWord, flatSwap, setWidth_putField _ _ _ _ (by decide), setWidth_putField _ _ _ _ (by decide),
    setWidth_setBits _ _ (by decide), setWidth_clearBits _ _ (by decide),
    setWidth_clearBits _ _ (by decide)]

/-! ## The tree answers like the array -/

/-- Every lookup in the tree finds the word of the array. -/
def Shows (tree : MmStruct) (table : FlatTable) : Prop :=
  ∀ pgn, Memory.pteGetEntry tree pgn = table.get pgn

theorem shows_initMm : Shows (Memory.initMm []) FlatTable.zero := by
  intro pgn
  rw [pteGetEntry_initMm, FlatTable.get]
  split <;> rfl

theorem Shows.pteStore {tree : MmStruct} {table : FlatTable} (shows : Shows tree table)
    (pgn : Addr) {edit : Addr → Addr} {flatEdit : BitVec 32 → BitVec 32}
    (narrow : ∀ word, (edit word).setWidth 32 = flatEdit (word.setWidth 32)) :
    (Memory.pteStore tree pgn edit).1 = (table.set pgn flatEdit).1 ∧
      Shows (Memory.pteStore tree pgn edit).2 (table.set pgn flatEdit).2 := by
  rcases Memory.pteStore_cases tree pgn edit with ⟨long, refused⟩ | ⟨short, edited, done, change⟩
  · rw [refused, table.set_of_long pgn flatEdit long]
    exact ⟨rfl, shows⟩
  · rw [done, table.set_code pgn flatEdit short]
    refine ⟨rfl, fun read => ?_⟩
    rw [change.entry read, table.get_set pgn read flatEdit short, narrow, ← pteGetEntry_eq_cell,
      shows pgn, shows read]

/-! ## The heap holds the tree -/

/-- The blocks below `mm->pgd` are the tree of the memory map, and the
statistics agree. -/
structure Holds (mm : Mm) (tree : MmStruct) : Prop where
  tallied : Tallied mm
  pgd : tree.pgd = decode mm.heap 4 mm.pgd
  count : tree.mm64DirAllocCount = mm.mm64DirAllocCount
  bytes : tree.mm64BytesAlloc = mm.mm64BytesAlloc

/-- The store of `PageTable` is the edit of the decoded tree. -/
theorem pteWalkAlloc_eq (mm : MmStruct) (pgn : Addr) (edit : Addr → Addr)
    (short : pgn < PAGING_MAX_PGN) (tree : Tree Addr DirIndex 4) (held : mm.pgd = tree) :
    pteWalkAlloc mm pgn edit = some { mm with
      pgd := Tree.edit edit (getPdFromPagenum pgn).pt 4 (upperIndices pgn) tree
      mm64DirAllocCount := mm.mm64DirAllocCount + Tree.missing 4 (upperIndices pgn) tree
      mm64BytesAlloc := mm.mm64BytesAlloc + Tree.missing 4 (upperIndices pgn) tree * (512 * 8) } := by
  have nested : ∀ p4d pud pmd pt : Nat, p4d + pud + pmd + pt = p4d + (pud + (pmd + (pt + 0))) := by
    intro p4d pud pmd pt
    omega
  rw [pteWalkAlloc, if_neg (BitVec.not_le.mpr short)]
  dsimp only
  rw [held, nested]
  rfl

/-- The lookup of `PageTable` is the search in the decoded tree. -/
theorem pteWalk_eq (mm : MmStruct) (pgn : Addr) (short : pgn < PAGING_MAX_PGN)
    (tree : Tree Addr DirIndex 4) (held : mm.pgd = tree) :
    Memory.pteWalk mm pgn = Tree.find (getPdFromPagenum pgn).pt 4 (upperIndices pgn) tree := by
  rw [Memory.pteWalk, if_neg (BitVec.not_le.mpr short)]
  dsimp only
  rw [held]
  simp only [Option.map_eq_bind]
  rfl

namespace Holds

variable {mm : Mm} {tree : MmStruct}

theorem initMm (heap : DirHeap) {root : Addr} (nonnull : root ≠ 0) :
    Holds (initMm heap root) (Memory.initMm []) := by
  refine ⟨tallied_initMm heap nonnull, ?_, rfl, rfl⟩
  have empty : decode (DirectoryHeap.initMm heap root).heap 4 (DirectoryHeap.initMm heap root).pgd =
      Tree.cleared 4 := decode_of_cleared (word_initMm heap nonnull)
  exact empty.symm

/-- A setter on the heap is the setter on the tree. -/
theorem pteStore (holds : Holds mm tree) {answers : Answers} (supplied : Supplied mm.heap answers)
    (pgn : Addr) (edit : Addr → Addr) :
    ∃ next, pteStore mm pgn answers edit = some ((Memory.pteStore tree pgn edit).1, next) ∧
      Holds next (Memory.pteStore tree pgn edit).2 := by
  rcases pteStore_cases holds.tallied.formed supplied pgn edit with ⟨long, refused⟩ |
    ⟨short, next, fresh, done, stored⟩
  · refine ⟨mm, ?_, ?_⟩
    · rw [refused, Memory.pteStore, pteWalkAlloc, if_pos long]
    · rw [Memory.pteStore, pteWalkAlloc, if_pos long]
      exact holds
  · have edited := pteWalkAlloc_eq tree pgn edit short _ holds.pgd
    refine ⟨next, ?_, ?_⟩
    · rw [done, Memory.pteStore, edited]
    · rw [Memory.pteStore, edited]
      refine ⟨holds.tallied.stored short stored, ?_, ?_, ?_⟩
      · rw [stored.pgd]
        exact stored.descended.tree.symm
      · rw [stored.count, stored.descended.created, ← holds.count]
      · rw [stored.bytes, stored.descended.created, ← holds.bytes]
        rfl

/-- The getter on the heap is the getter on the tree. -/
theorem pteGetEntry (holds : Holds mm tree) (pgn : Addr) :
    ∃ next, pteGetEntry mm pgn = some (Memory.pteGetEntry tree pgn, next) ∧
      SameDirectories mm next ∧ Holds next tree := by
  rcases pteGetEntry_cases holds.tallied.formed pgn with ⟨next, same, done⟩
  refine ⟨next, ?_, same, holds.tallied.same same, ?_, ?_, ?_⟩
  · rw [done]
    by_cases long : PAGING_MAX_PGN ≤ pgn
    · rw [if_pos long, pteGetEntry_of_long tree pgn long]
      rfl
    · have short : pgn < PAGING_MAX_PGN := BitVec.not_le.mp long
      rw [if_neg long, pteGetEntry_eq_cell, pteCell, pteWalk_eq tree pgn short _ holds.pgd]
  · rw [same.heap, same.pgd]
    exact holds.pgd
  · rw [same.count]
    exact holds.count
  · rw [same.bytes]
    exact holds.bytes

end Holds

/-! ## Every run -/

/-- A setter at or above the page limit returns at once, whatever the heap is
and whatever `calloc` would do. -/
theorem pteStore_of_long (mm : Mm) (pgn : Addr) (answers : Answers) (edit : Addr → Addr)
    (long : PAGING_MAX_PGN ≤ pgn) : pteStore mm pgn answers edit = some (-1, mm) := by
  rw [pteStore, pteWalk, if_pos (Or.inr long)]
  rfl

/-- A session agrees with the array: all replies so far are the same, the next
lookup of any page will find the word of the array and create nothing, and
setters beyond the limit are refused with nothing changed. -/
structure RefinesFlat (session : Session) (flat : Flat) : Prop where
  replies : session.replies = flat.replies
  lookup : ∀ pgn, ∃ next, pteGetEntry session.mm pgn = some (flat.table.get pgn, next) ∧
    SameDirectories session.mm next
  refused : ∀ pgn answers, PAGING_MAX_PGN ≤ pgn →
    (∀ pteVal, pteSetEntry session.mm pgn answers pteVal = some (-1, session.mm)) ∧
    (∀ fpn, pteSetFpn session.mm pgn answers fpn = some (-1, session.mm)) ∧
    ∀ swptyp swpoff, pteSetSwap session.mm pgn answers swptyp swpoff = some (-1, session.mm)

/-- The relation of the simulation: the tree that the heap holds answers like the
array. -/
structure Matches (session : Session) (flat : Flat) : Prop where
  replies : session.replies = flat.replies
  tree : ∃ tree, Holds session.mm tree ∧ Shows tree flat.table

theorem Matches.store {session : Session} {flat : Flat} (same : Matches session flat)
    {answers : Answers} (supplied : Supplied session.mm.heap answers) (pgn : Addr)
    (edit : Addr → Addr) (flatEdit : BitVec 32 → BitVec 32)
    (narrow : ∀ word, (edit word).setWidth 32 = flatEdit (word.setWidth 32)) :
    ∃ code next, pteStore session.mm pgn answers edit = some (code, next) ∧
      Matches ⟨next, session.replies ++ [.status code]⟩
        (flat.record (flat.table.set pgn flatEdit)) := by
  rcases same.tree with ⟨tree, holds, shows⟩
  rcases holds.pteStore supplied pgn edit with ⟨next, done, held⟩
  rcases shows.pteStore pgn narrow with ⟨code, shown⟩
  refine ⟨_, next, done, ?_, _, held, shown⟩
  rw [Flat.record, ← code, same.replies]

/-- One call keeps the session and the array together. -/
theorem Matches.step {session : Session} {flat : Flat} (same : Matches session flat) (call : Call)
    (allocates : Allocates session call) :
    ∃ after, step session call = some after ∧ Matches after (flatStep flat call) := by
  cases call with
  | pteSetEntry pgn answers pteVal =>
      have narrow : (pteVal.setWidth 64).setWidth 32 = pteVal := by
        rw [BitVec.setWidth_setWidth_of_le _ (by decide), BitVec.setWidth_eq]
      rcases same.store allocates pgn (fun _ => pteVal.setWidth 64) (fun _ => pteVal)
        (fun _ => narrow) with ⟨code, next, done, kept⟩
      exact ⟨_, by rw [DirectoryHeap.step, perform, pteSetEntry, done]; rfl, kept⟩
  | pteSetFpn pgn answers fpn =>
      rcases same.store allocates pgn _ _ (setWidth_fpnWord fpn) with ⟨code, next, done, kept⟩
      exact ⟨_, by rw [DirectoryHeap.step, perform, pteSetFpn, done]; rfl, kept⟩
  | pteSetSwap pgn answers swptyp swpoff =>
      rcases same.store allocates pgn _ _ (setWidth_swapWord swptyp swpoff) with
        ⟨code, next, done, kept⟩
      exact ⟨_, by rw [DirectoryHeap.step, perform, pteSetSwap, done]; rfl, kept⟩
  | pteGetEntry pgn =>
      rcases same.tree with ⟨tree, holds, shows⟩
      rcases holds.pteGetEntry pgn with ⟨next, done, _, held⟩
      refine ⟨_, by rw [DirectoryHeap.step, perform, done]; rfl, ?_, tree, held, shows⟩
      rw [flatStep, same.replies, shows pgn]

theorem Matches.refines {session : Session} {flat : Flat} (same : Matches session flat) :
    RefinesFlat session flat := by
  refine ⟨same.replies, fun pgn => ?_, fun pgn answers long => ⟨?_, ?_, ?_⟩⟩
  · rcases same.tree with ⟨tree, holds, shows⟩
    rcases holds.pteGetEntry pgn with ⟨next, done, unchanged, _⟩
    exact ⟨next, by rw [done, shows pgn], unchanged⟩
  · exact fun pteVal => pteStore_of_long session.mm pgn answers _ long
  · exact fun fpn => pteStore_of_long session.mm pgn answers _ long
  · exact fun swptyp swpoff => pteStore_of_long session.mm pgn answers _ long

/-- The directories refine the array: on every run from a fresh memory map whose
allocations succeed, each call returns what it returns on the array, and no call
is stuck. -/
theorem run_refines_flat (heap : DirHeap) (root : Addr) (nonnull : root ≠ 0) (trace : List Call)
    (session : Session)
    (path : RunWhere step Allocates (Session.start heap root) trace session) :
    RefinesFlat session (trace.foldl flatStep Flat.start) ∧
      ∀ call, Allocates session call → (step session call).isSome = true := by
  have same : Matches session (trace.foldl flatStep Flat.start) := by
    apply path.simulation flatStep Matches Flat.start
    · exact ⟨rfl, Memory.initMm [], .initMm heap nonnull, shows_initMm⟩
    · intro before call after flat kept allocates taken
      rcases kept.step call allocates with ⟨next, done, later⟩
      rw [done, Option.some.injEq] at taken
      subst taken
      exact later
  refine ⟨same.refines, fun call allocates => ?_⟩
  rcases same.step call allocates with ⟨next, done, _⟩
  rw [done]
  rfl

/-- Page 3 is stored, looked up and swapped out, and page 16384 is refused. -/
theorem run_refines_flat_four :
    let executed := (exec step Allocates (Session.start (fun _ => none) 4096)
      [.pteSetFpn 3 ⟨8192, 12288, 16384, 20480⟩ 7, .pteGetEntry 3,
        .pteSetSwap 3 ⟨24576, 28672, 32768, 36864⟩ 0 9,
        .pteSetEntry 16384 ⟨24576, 28672, 32768, 36864⟩ 1]).get (by decide +kernel)
    executed.replies = [.status 0, .entry 0x80000007, .status 0, .status (-1)] ∧
      ∃ flat, RefinesFlat executed flat :=
  ⟨by decide +kernel, _, (run_refines_flat (fun _ => none) 4096 (by decide) _ _
    (runWhere_of_exec (Option.some_get _).symm)).1⟩

end DirectoryHeap
end Ossim
