import Mathlib.Data.Set.Card
import Ossim.Memory.DirectoryHeap

namespace Ossim
namespace DirectoryHeap

open Memory PointerTree Transition WordFields

/-!
# The directory statistics match the tree

A process counts its directories when it allocates them and never looks at the
tree again until the tree is torn down.  The two stay together: on every run of
page-table calls the count is the number of directories that can be reached
from `mm->pgd`, and `mm64_destroy_pgd_tree` frees exactly these, each once.
The teardown has only the level to tell a pointer from an entry, so an entry
word may well be the address of a directory.
-/

/-! ## Calls -/

/-- A call of the page-table interface.  A setter carries the answers of
`calloc` to its walk. -/
inductive Call
  | pteSetEntry (pgn : Addr) (answers : Answers) (pteVal : BitVec 32)
  | pteSetFpn (pgn : Addr) (answers : Answers) (fpn : Addr)
  | pteSetSwap (pgn : Addr) (answers : Answers) (swptyp : Int) (swpoff : Addr)
  | pteGetEntry (pgn : Addr)

/-- What a call returns: the code of a setter or the word of the getter. -/
inductive Reply
  | status (code : Int)
  | entry (pte : BitVec 32)
  deriving DecidableEq, Repr

/-- A memory map with the replies that were given so far, the latest last. -/
structure Session where
  mm : Mm
  replies : List Reply

/-- Start from `init_mm` on a heap that may hold anything else. -/
def Session.start (heap : DirHeap) (root : Addr) : Session := ⟨initMm heap root, []⟩

def perform (mm : Mm) : Call → Option (Reply × Mm)
  | .pteSetEntry pgn answers pteVal =>
      (pteSetEntry mm pgn answers pteVal).map fun (code, next) => (.status code, next)
  | .pteSetFpn pgn answers fpn =>
      (pteSetFpn mm pgn answers fpn).map fun (code, next) => (.status code, next)
  | .pteSetSwap pgn answers swptyp swpoff =>
      (pteSetSwap mm pgn answers swptyp swpoff).map fun (code, next) => (.status code, next)
  | .pteGetEntry pgn => (pteGetEntry mm pgn).map fun (pte, next) => (.entry pte, next)

def step (session : Session) (call : Call) : Option Session :=
  (perform session.mm call).map fun (reply, next) => ⟨next, session.replies ++ [reply]⟩

/-- Every allocation that the call asks for succeeds. -/
def Allocates (session : Session) : Call → Prop
  | .pteSetEntry _ answers _ => Supplied session.mm.heap answers
  | .pteSetFpn _ answers _ => Supplied session.mm.heap answers
  | .pteSetSwap _ answers _ _ => Supplied session.mm.heap answers
  | .pteGetEntry _ => True

instance (session : Session) : ∀ call, Decidable (Allocates session call)
  | .pteSetEntry _ answers _ => inferInstanceAs (Decidable (Supplied _ answers))
  | .pteSetFpn _ answers _ => inferInstanceAs (Decidable (Supplied _ answers))
  | .pteSetSwap _ answers _ _ => inferInstanceAs (Decidable (Supplied _ answers))
  | .pteGetEntry _ => inferInstanceAs (Decidable True)

/-! ## What the statistics say -/

/-- The directories that can be reached from `mm->pgd`.  The words of the four
upper levels are pointers, and the words of a page table lead nowhere. -/
def directories (mm : Mm) : Set Addr := {dir | Reaches mm.heap 4 mm.pgd dir}

/-- The statistics are those of the tree, and the teardown frees the tree.
Every `mm64_free_dir` on a pointer ends in one `free`, so the freed addresses
are also the pointers that were followed.  There are few directories, so the
64-bit counters of the source never wrap. -/
structure Accounted (mm : Mm) : Prop where
  finite : (directories mm).Finite
  few : (directories mm).ncard ≤ 36
  count : mm.mm64DirAllocCount = (directories mm).ncard
  bytes : mm.mm64BytesAlloc = (directories mm).ncard * (PAGING64_DIR_ENTRIES * ADDR_SIZE)
  teardown : ∃ freed, mm64DestroyPgdTree mm =
      some ({ mm with heap := without mm.heap freed, pgd := 0 }, freed) ∧
    freed.Nodup ∧ ∀ dir, dir ∈ freed ↔ dir ∈ directories mm

/-- The words of the four upper levels that a page number below the limit can
lead through: the bus has 22 bits and the page table takes the lowest nine of
the page number. -/
def usedIndices : List (List DirIndex) := [[0], [0], [0], (List.range 32).map (BitVec.ofNat 9)]

/-- The invariant of a memory map between two calls. -/
structure Tallied (mm : Mm) : Prop where
  formed : Formed mm.heap 4 mm.pgd
  narrow : Tree.Within 4 usedIndices (decode mm.heap 4 mm.pgd)
  count : mm.mm64DirAllocCount = (footprint dirIndices mm.heap 4 mm.pgd).length
  bytes : mm.mm64BytesAlloc =
    (footprint dirIndices mm.heap 4 mm.pgd).length * (PAGING64_DIR_ENTRIES * ADDR_SIZE)

theorem upperIndices_used {pgn : Addr} (short : pgn < PAGING_MAX_PGN) :
    List.Forall₂ (· ∈ ·) (upperIndices pgn) usedIndices := by
  have zero : ∀ hi lo, 26 ≤ lo → hi = lo + 8 → hi < 64 →
      (takeField (pgn <<< 12) (fieldMask 64 hi lo) lo).setWidth 9 ∈ [(0 : DirIndex)] := by
    intro hi lo high width inside
    rw [List.mem_singleton]
    apply BitVec.eq_of_getLsbD_eq
    intro i low
    rw [getLsbD_pdIndex pgn hi lo i low (by omega) width inside, getLsbD_of_short short _ (by omega)]
    exact (BitVec.getLsbD_zero).symm
  have middle : (getPdFromPagenum pgn).pmd ∈ (List.range 32).map (BitVec.ofNat 9) := by
    have small : (getPdFromPagenum pgn).pmd.toNat < 2 ^ 5 := by
      apply Nat.lt_pow_two_of_testBit
      intro i high
      rw [BitVec.testBit_toNat]
      by_cases low : i < 9
      · have bit := getLsbD_pdIndex pgn 29 21 i low (by decide) rfl (by decide)
        exact bit.trans (getLsbD_of_short short _ (by omega))
      · exact BitVec.getLsbD_of_ge _ i (Nat.not_lt.mp low)
    apply List.mem_map.mpr
    refine ⟨(getPdFromPagenum pgn).pmd.toNat, List.mem_range.mpr small, ?_⟩
    rw [BitVec.ofNat_toNat, BitVec.setWidth_eq]
  exact .cons (zero 56 48 (by decide) rfl (by decide)) (.cons (zero 47 39 (by decide) rfl (by decide))
    (.cons (zero 38 30 (by decide) rfl (by decide)) (.cons middle .nil)))

theorem heap_initMm (heap : DirHeap) {root : Addr} (nonnull : root ≠ 0) :
    (initMm heap root).heap root = some fun _ => 0 := by
  rw [initMm]
  dsimp only
  rw [if_neg nonnull, calloc, Function.update_self]

theorem word_initMm (heap : DirHeap) {root : Addr} (nonnull : root ≠ 0) (i : DirIndex) :
    word (initMm heap root).heap (initMm heap root).pgd i = 0 := by
  show word (initMm heap root).heap root i = 0
  rw [word, heap_initMm heap nonnull]

theorem tallied_initMm (heap : DirHeap) {root : Addr} (nonnull : root ≠ 0) :
    Tallied (initMm heap root) := by
  have block := heap_initMm heap nonnull
  have only : footprint dirIndices (initMm heap root).heap 4 (initMm heap root).pgd = [root] :=
    footprint_of_cleared (word_initMm heap nonnull)
  refine ⟨⟨?_, ?_, ?_⟩, ?_, ?_, ?_⟩
  · rw [only]
    exact List.nodup_singleton root
  · rw [only]
    intro dir member
    rw [List.mem_singleton.mp member, block]
    rfl
  · rw [only]
    intro dir member
    rw [List.mem_singleton.mp member]
    exact nonnull
  · rw [decode_of_cleared (word_initMm heap nonnull)]
    exact Tree.within_cleared 4 usedIndices
  · rw [only]
    rfl
  · rw [only, List.length_singleton, Nat.one_mul]
    rfl

namespace Tallied

variable {mm next : Mm}

theorem same (tallied : Tallied mm) (same : SameDirectories mm next) : Tallied next := by
  constructor
  · rw [same.heap, same.pgd]
    exact tallied.formed
  · rw [same.heap, same.pgd]
    exact tallied.narrow
  · rw [same.heap, same.pgd, same.count]
    exact tallied.count
  · rw [same.heap, same.pgd, same.bytes]
    exact tallied.bytes

theorem stored {pgn : Addr} {edit : Addr → Addr} {fresh : List Addr} (tallied : Tallied mm)
    (short : pgn < PAGING_MAX_PGN) (stored : Stored mm next pgn edit fresh) : Tallied next := by
  have grown := stored.descended.grown
  have length := grown.gained.length_eq
  rw [List.length_append] at length
  constructor
  · rw [stored.pgd]
    exact grown.wellFormed tallied.formed
  · rw [stored.pgd, stored.descended.tree]
    exact Tree.within_edit edit _ (upperIndices_used short) tallied.narrow
  · rw [stored.pgd, stored.count, tallied.count, length, Nat.add_comm]
  · rw [stored.pgd, stored.bytes, tallied.bytes, length, Nat.add_mul, Nat.add_comm]

end Tallied

/-- A setter whose allocations succeed returns and keeps the tally. -/
theorem pteStore_tallied {mm : Mm} (tallied : Tallied mm) {answers : Answers}
    (supplied : Supplied mm.heap answers) (pgn : Addr) (edit : Addr → Addr) :
    ∃ code next, pteStore mm pgn answers edit = some (code, next) ∧ Tallied next := by
  rcases pteStore_cases tallied.formed supplied pgn edit with ⟨_, refused⟩ |
    ⟨short, next, fresh, done, stored⟩
  · exact ⟨-1, mm, refused, tallied⟩
  · exact ⟨0, next, done, tallied.stored short stored⟩

theorem perform_tallied {session : Session} (tallied : Tallied session.mm) (call : Call)
    (allocates : Allocates session call) :
    ∃ reply next, perform session.mm call = some (reply, next) ∧ Tallied next := by
  cases call with
  | pteSetEntry pgn answers pteVal =>
      rcases pteStore_tallied tallied allocates pgn (fun _ => pteVal.setWidth 64) with
        ⟨code, next, done, kept⟩
      exact ⟨.status code, next, by rw [perform, pteSetEntry, done]; rfl, kept⟩
  | pteSetFpn pgn answers fpn =>
      rcases pteStore_tallied tallied allocates pgn (fpnWord fpn) with ⟨code, next, done, kept⟩
      exact ⟨.status code, next, by rw [perform, pteSetFpn, done]; rfl, kept⟩
  | pteSetSwap pgn answers swptyp swpoff =>
      rcases pteStore_tallied tallied allocates pgn (swapWord swptyp swpoff) with
        ⟨code, next, done, kept⟩
      exact ⟨.status code, next, by rw [perform, pteSetSwap, done]; rfl, kept⟩
  | pteGetEntry pgn =>
      rcases pteGetEntry_cases tallied.formed pgn with ⟨next, same, done⟩
      exact ⟨_, next, by rw [perform, done]; rfl, tallied.same same⟩

/-! ## The teardown -/

/-- At every level `mm64_free_dir` is the release of a tree that is one level
less deep, since the page tables are level one. -/
theorem mm64FreeDir_eq_release (depth : Nat) (dir : Addr) (state : Freeing Addr DirIndex)
    (nonnull : dir ≠ 0) :
    mm64FreeDir (depth + 1) dir state = release dirIndices depth dir state := by
  induction depth generalizing dir state with
  | zero =>
      show (if dir = 0 then some state else free dir state) = free dir state
      rw [if_neg nonnull]
  | succ depth inductionHypothesis =>
      have rounds : (fun (current : Freeing Addr DirIndex) (i : DirIndex) =>
          (current.1 dir).bind fun cells =>
            if cells i ≠ 0 then mm64FreeDir (depth + 1) (cells i) current else some current) =
          fun current i => (current.1 dir).bind fun cells =>
            if cells i = 0 then some current else release dirIndices depth (cells i) current := by
        funext current i
        congr 1
        funext cells
        by_cases empty : cells i = 0
        · rw [if_neg (not_not_intro empty), if_pos empty]
        · rw [if_pos empty, if_neg empty, inductionHypothesis _ _ empty]
      rw [mm64FreeDir, if_neg nonnull, release, rounds]

/-- A tallied map is accounted for. -/
theorem Tallied.accounted {mm : Mm} (tallied : Tallied mm) : Accounted mm := by
  have reached : ∀ dir, dir ∈ footprint dirIndices mm.heap 4 mm.pgd ↔ dir ∈ directories mm :=
    mem_footprint_iff mem_dirIndices
  have listed : directories mm = ((footprint dirIndices mm.heap 4 mm.pgd).toFinset : Set Addr) := by
    ext dir
    rw [Finset.mem_coe, List.mem_toFinset]
    exact (reached dir).symm
  have number : (directories mm).ncard = (footprint dirIndices mm.heap 4 mm.pgd).length := by
    rw [listed, Set.ncard_coe_finset, List.toFinset_card_of_nodup tallied.formed.nodup]
  have root : mm.pgd ≠ 0 := tallied.formed.nonnull mm.pgd mem_footprint_self
  rcases releases nodup_dirIndices 4 mm.heap mm.pgd [] tallied.formed with ⟨freed, done, order⟩
  refine ⟨?_, ?_, ?_, ?_, freed, ?_, ?_, ?_⟩
  · rw [listed]
    exact Finset.finite_toSet _
  · rw [number]
    exact length_footprint_le nodup_dirIndices usedIndices tallied.narrow
  · rw [tallied.count, number]
  · rw [tallied.bytes, number]
  · rw [mm64DestroyPgdTree, if_neg root, mm64FreeDir_eq_release 4 mm.pgd _ root, done]
    rfl
  · exact order.nodup_iff.mpr tallied.formed.nodup
  · intro dir
    rw [order.mem_iff]
    exact reached dir

/-! ## Every run -/

/-- On every run from `init_mm` whose allocations succeed, no access leaves the
live memory, and the statistics and the teardown match the tree that is
there. -/
theorem run_accounted (heap : DirHeap) (root : Addr) (nonnull : root ≠ 0) (trace : List Call)
    (session : Session)
    (path : RunWhere step Allocates (Session.start heap root) trace session) :
    Accounted session.mm ∧
      ∀ call, Allocates session call → (step session call).isSome = true := by
  have tallied : Tallied session.mm := by
    apply path.invariant (fun session => Tallied session.mm)
    · exact tallied_initMm heap nonnull
    · intro before call after kept allocates taken
      rcases perform_tallied kept call allocates with ⟨reply, next, done, later⟩
      rw [step, done, Option.map_some, Option.some.injEq] at taken
      subst taken
      exact later
  refine ⟨tallied.accounted, fun call allocates => ?_⟩
  rcases perform_tallied tallied call allocates with ⟨reply, next, done, _⟩
  rw [step, done]
  rfl

/-- Two pages under different page tables and a lookup on an otherwise empty
heap: the second walk allocates one directory only. -/
theorem run_accounted_twoTables :
    let executed := (exec step Allocates (Session.start (fun _ => none) 4096)
      [.pteSetFpn 3 ⟨8192, 12288, 16384, 20480⟩ 7,
        .pteSetEntry 600 ⟨24576, 28672, 32768, 36864⟩ 4096, .pteGetEntry 9000]).get
          (by decide +kernel)
    executed.mm.mm64DirAllocCount = 6 ∧ Accounted executed.mm :=
  ⟨by decide +kernel, (run_accounted (fun _ => none) 4096 (by decide) _ _
    (runWhere_of_exec (Option.some_get _).symm)).1⟩

end DirectoryHeap
end Ossim
