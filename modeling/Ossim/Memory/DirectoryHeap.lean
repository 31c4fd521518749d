import Ossim.Library.Transition
import Ossim.Library.TreeDecoding
import Ossim.Library.TreeRelease
import Ossim.Memory.PageTable

namespace Ossim
namespace DirectoryHeap

open Memory PointerTree

/-!
# Page directories as blocks of the C heap

`PageTable` describes the five-level directory as a tree.  The code has no
tree: it has arrays of 512 words that `calloc` returned, and a word of a
directory is a child pointer or an entry depending only on how many levels the
walk has already descended.  The functions below follow `mm64.c` on that
representation.  `none` stands for an access to memory that is not live.

What `calloc` returns is up to the allocator.  A walk takes the four addresses
that `calloc` would return for a missing P4D, PUD, PMD and PT, with zero for
`NULL`, and looks only at those it asks for.  The statistics of the walk are
kept, and the other fields of `mm_struct` are left out.
-/

def PAGING64_DIR_ENTRIES : Nat := 512
/-- `sizeof(addr_t)`. -/
def ADDR_SIZE : Nat := 8

/-- The subscripts of a directory in the order of the loop in
`mm64_free_dir`. -/
def dirIndices : List DirIndex := (List.range PAGING64_DIR_ENTRIES).map (BitVec.ofNat 9)

abbrev DirHeap := Heap Addr DirIndex

structure Mm where
  heap : DirHeap
  pgd : Addr
  mm64WalkCount : Nat
  mm64MemAccessCount : Nat
  mm64DirAllocCount : Nat
  mm64BytesAlloc : Nat

/-- The addresses that `calloc` returns to one walk, by the level that asks. -/
structure Answers where
  p4d : Addr
  pud : Addr
  pmd : Addr
  pt : Addr
  deriving DecidableEq

def Answers.all (answers : Answers) : List Addr :=
  [answers.p4d, answers.pud, answers.pmd, answers.pt]

/-- Allocation succeeds: the answers are not `NULL`, and they are the addresses
of new blocks. -/
def Supplied (heap : DirHeap) (answers : Answers) : Prop :=
  answers.all.Nodup ∧ ∀ answer ∈ answers.all, answer ≠ 0 ∧ (heap answer).isNone = true

-- Without the instance by name, the quantifier would be decided over all words.
instance (heap : DirHeap) (answers : Answers) : Decidable (Supplied heap answers) :=
  @instDecidableAnd _ _ inferInstance (List.decidableBAll _ _)

/-! ## The functions of `mm64.c` -/

def dirLoad (heap : DirHeap) (parent : Addr) (idx : DirIndex) : Option Addr :=
  if parent = 0 then some 0
  else (heap parent).map fun cells => cells idx

/-- `dir_load_or_alloc` as `pte_walk` calls it, with the statistics of the same
memory map. -/
def dirLoadOrAlloc (mm : Mm) (parent : Addr) (idx : DirIndex) (answer : Addr) :
    Option (Addr × Mm) :=
  (dirLoad mm.heap parent idx).bind fun child =>
    if child ≠ 0 then some (child, mm)
    else if answer = 0 then some (0, mm)
    else
      (store (calloc mm.heap answer) parent idx answer).map fun heap =>
        (answer, { mm with
          heap := heap
          mm64DirAllocCount := mm.mm64DirAllocCount + 1
          mm64BytesAlloc := mm.mm64BytesAlloc + PAGING64_DIR_ENTRIES * ADDR_SIZE })

/-- One level of `pte_walk`: the access is counted and the child is loaded.  An
answer is given exactly when `alloc` is nonzero. -/
def walkLevel (mm : Mm) (parent : Addr) (idx : DirIndex) (answer : Option Addr) :
    Option (Addr × Mm) :=
  let counted := { mm with mm64MemAccessCount := mm.mm64MemAccessCount + 1 }
  match answer with
  | none => (dirLoad counted.heap parent idx).map fun child => (child, counted)
  | some answer => dirLoadOrAlloc counted parent idx answer

/-- The levels of `pte_walk` one after another, up to the first `NULL`. -/
def walkLevels (mm : Mm) (dir : Addr) : List (DirIndex × Option Addr) → Option (Addr × Mm)
  | [] => some (dir, mm)
  | (idx, answer) :: levels =>
      (walkLevel mm dir idx answer).bind fun (child, mm) =>
        if child = 0 then some (0, mm) else walkLevels mm child levels

/-- The four subscripts above the page table. -/
def upperIndices (pgn : Addr) : List DirIndex :=
  let ix := getPdFromPagenum pgn
  [ix.pgd, ix.p4d, ix.pud, ix.pmd]

/-- `pte_walk`: the page table and the subscript of the entry in it. -/
def pteWalk (mm : Mm) (pgn : Addr) (answers : List (Option Addr)) :
    Option (Option (Addr × DirIndex) × Mm) :=
  if mm.pgd = 0 ∨ PAGING_MAX_PGN ≤ pgn then some (none, mm)
  else
    let walked := { mm with mm64WalkCount := mm.mm64WalkCount + 1 }
    (walkLevels walked mm.pgd ((upperIndices pgn).zip answers)).map fun (pt, mm) =>
      if pt = 0 then (none, mm)
      else (some (pt, (getPdFromPagenum pgn).pt),
        { mm with mm64MemAccessCount := mm.mm64MemAccessCount + 1 })

/-- The common shape of the three setters: walk with allocation, then
`*pte = edit(*pte)`. -/
def pteStore (mm : Mm) (pgn : Addr) (answers : Answers) (edit : Addr → Addr) :
    Option (Int × Mm) :=
  (pteWalk mm pgn (answers.all.map some)).bind fun (pte, mm) =>
    match pte with
    | none => some (-1, mm)
    | some (pt, idx) =>
        (mm.heap pt).bind fun cells =>
          (store mm.heap pt idx (edit (cells idx))).map fun heap => (0, { mm with heap := heap })

def pteSetSwap (mm : Mm) (pgn : Addr) (answers : Answers) (swptyp : Int) (swpoff : Addr) :
    Option (Int × Mm) :=
  pteStore mm pgn answers (swapWord swptyp swpoff)

def pteSetFpn (mm : Mm) (pgn : Addr) (answers : Answers) (fpn : Addr) : Option (Int × Mm) :=
  pteStore mm pgn answers (fpnWord fpn)

def pteSetEntry (mm : Mm) (pgn : Addr) (answers : Answers) (pteVal : BitVec 32) :
    Option (Int × Mm) :=
  pteStore mm pgn answers fun _ => pteVal.setWidth 64

def pteGetEntry (mm : Mm) (pgn : Addr) : Option (BitVec 32 × Mm) :=
  (pteWalk mm pgn [none, none, none, none]).bind fun (pte, mm) =>
    match pte with
    | none => some (0, mm)
    | some (pt, idx) => (mm.heap pt).map fun cells => ((cells idx).setWidth 32, mm)

/-- `mm64_free_dir`.  The addresses that were passed to `free` are logged in
order. -/
def mm64FreeDir : Nat → Addr → Freeing Addr DirIndex → Option (Freeing Addr DirIndex)
  | level + 2, dir, state =>
      if dir = 0 then some state
      else
        (dirIndices.foldlM (fun (state : Freeing Addr DirIndex) i =>
          (state.1 dir).bind fun cells =>
            if cells i ≠ 0 then mm64FreeDir (level + 1) (cells i) state else some state) state).bind
          (free dir)
  | _, dir, state => if dir = 0 then some state else free dir state

def mm64DestroyPgdTree (mm : Mm) : Option (Mm × List Addr) :=
  if mm.pgd = 0 then some (mm, [])
  else (mm64FreeDir 5 mm.pgd (mm.heap, [])).map fun (heap, freed) =>
    ({ mm with heap := heap, pgd := 0 }, freed)

/-- `init_mm`, with the address that `calloc` returns for the root. -/
def initMm (heap : DirHeap) (answer : Addr) : Mm where
  heap := if answer = 0 then heap else calloc heap answer
  pgd := answer
  mm64WalkCount := 0
  mm64MemAccessCount := 0
  mm64DirAllocCount := 1
  mm64BytesAlloc := PAGING64_DIR_ENTRIES * ADDR_SIZE

/-! ## One level of a walk -/

theorem nodup_dirIndices : dirIndices.Nodup := by
  apply List.Nodup.map_on _ List.nodup_range
  intro left leftListed right rightListed same
  have values := congrArg BitVec.toNat same
  rw [List.mem_range, PAGING64_DIR_ENTRIES] at leftListed rightListed
  rw [BitVec.toNat_ofNat, BitVec.toNat_ofNat] at values
  omega

theorem mem_dirIndices (i : DirIndex) : i ∈ dirIndices := by
  apply List.mem_map.mpr
  refine ⟨i.toNat, List.mem_range.mpr i.isLt, ?_⟩
  rw [BitVec.ofNat_toNat, BitVec.setWidth_eq]

abbrev Formed (heap : DirHeap) (depth : Nat) (dir : Addr) : Prop :=
  WellFormed dirIndices heap depth dir

theorem dirLoad_of_formed {heap : DirHeap} {depth : Nat} {dir : Addr}
    (formed : Formed heap depth dir) (idx : DirIndex) :
    dirLoad heap dir idx = some (word heap dir idx) := by
  rcases Option.isSome_iff_exists.mp (formed.live dir mem_footprint_self) with ⟨cells, held⟩
  rw [dirLoad, if_neg (formed.nonnull dir mem_footprint_self), word, held]
  rfl

/-- A level of a walk with allocation.  The child is there afterwards, and
nothing but this child is new. -/
structure Stepped (mm mid : Mm) (depth : Nat) (dir : Addr) (idx : DirIndex) (answer child : Addr)
    (fresh : List Addr) : Prop where
  nonnull : child ≠ 0
  grown : Grows dirIndices mm.heap mid.heap (depth + 1) dir fresh
  only : OnlyBelow dirIndices mm.heap mid.heap depth dir idx
  hung : word mid.heap dir idx = child
  tree : decode mid.heap depth child = (decode mm.heap (depth + 1) dir).subtreeOrCleared idx
  created : fresh.length = if ((decode mm.heap (depth + 1) dir).subtree idx).isNone then 1 else 0
  asked : ∀ block ∈ fresh, block = answer
  pgd : mid.pgd = mm.pgd
  count : mid.mm64DirAllocCount = mm.mm64DirAllocCount + fresh.length
  bytes : mid.mm64BytesAlloc = mm.mm64BytesAlloc + fresh.length * (PAGING64_DIR_ENTRIES * ADDR_SIZE)

theorem walkLevel_alloc {mm : Mm} {depth : Nat} {dir : Addr} (formed : Formed mm.heap (depth + 1) dir)
    (idx : DirIndex) {answer : Addr} (nonnull : answer ≠ 0) (dead : mm.heap answer = none) :
    ∃ child mid fresh, walkLevel mm dir idx (some answer) = some (child, mid) ∧
      Stepped mm mid depth dir idx answer child fresh := by
  have load := dirLoad_of_formed formed idx
  by_cases empty : word mm.heap dir idx = 0
  · have alive := calloc_live (formed.live dir mem_footprint_self) answer
    rcases store_of_live alive idx answer with ⟨heap, stored⟩
    rcases grows_calloc nodup_dirIndices (mem_dirIndices idx) formed empty nonnull dead stored with
      ⟨grown, only, hung, zero⟩
    refine ⟨answer, { mm with
      heap := heap
      mm64MemAccessCount := mm.mm64MemAccessCount + 1
      mm64DirAllocCount := mm.mm64DirAllocCount + 1
      mm64BytesAlloc := mm.mm64BytesAlloc + PAGING64_DIR_ENTRIES * ADDR_SIZE }, [answer], ?_,
      nonnull, grown, only, hung, ?_, ?_, ?_, rfl, rfl, ?_⟩
    · rw [walkLevel, dirLoadOrAlloc, load, Option.bind_some, empty, if_neg (not_not_intro rfl),
        if_neg nonnull, stored]
      rfl
    · rw [decode_of_cleared zero, Tree.subtreeOrCleared, subtree_decode, if_pos empty]
      rfl
    · rw [subtree_decode, if_pos empty]
      rfl
    · intro block member
      exact List.mem_singleton.mp member
    · rw [List.length_singleton, Nat.one_mul]
  · refine ⟨word mm.heap dir idx, { mm with mm64MemAccessCount := mm.mm64MemAccessCount + 1 }, [],
      ?_, empty, .refl formed, .refl, rfl, ?_, ?_, ?_, rfl, rfl, ?_⟩
    · rw [walkLevel, dirLoadOrAlloc, load, Option.bind_some, if_pos empty]
    · rw [Tree.subtreeOrCleared, subtree_decode, if_neg empty]
      rfl
    · rw [subtree_decode, if_neg empty]
      rfl
    · intro block member
      cases member
    · rw [List.length_nil, Nat.zero_mul]
      rfl

/-! ## Whole walks -/

/-- The heap after the entry word at the end of a path was edited.  The missing
directories of the path are new. -/
structure Descended (heap next : DirHeap) (depth : Nat) (dir : Addr) (path : List DirIndex)
    (leaf : DirIndex) (edit : Addr → Addr) (fresh : List Addr) : Prop where
  grown : Grows dirIndices heap next depth dir fresh
  tree : decode next depth dir = Tree.edit edit leaf depth path (decode heap depth dir)
  created : fresh.length = Tree.missing depth path (decode heap depth dir)

/-- A walk with allocation reaches a page table, and an edit of the word there
is an edit of the tree.  By induction on the levels: the part below the first
child only touches blocks of the child's subtree and new blocks. -/
theorem walkLevels_alloc (leaf : DirIndex) (edit : Addr → Addr) (levels : List (DirIndex × Addr)) :
    ∀ (mm : Mm) (dir : Addr), Formed mm.heap levels.length dir →
      (levels.map Prod.snd).Nodup →
      (∀ answer ∈ levels.map Prod.snd, answer ≠ 0 ∧ mm.heap answer = none) →
      ∃ pt mid cells heap fresh,
        walkLevels mm dir (levels.map fun level => (level.1, some level.2)) = some (pt, mid) ∧
        pt ≠ 0 ∧ mid.heap pt = some cells ∧ store mid.heap pt leaf (edit (cells leaf)) = some heap ∧
        Descended mm.heap heap levels.length dir (levels.map Prod.fst) leaf edit fresh ∧
        mid.pgd = mm.pgd ∧ mid.mm64DirAllocCount = mm.mm64DirAllocCount + fresh.length ∧
        mid.mm64BytesAlloc =
          mm.mm64BytesAlloc + fresh.length * (PAGING64_DIR_ENTRIES * ADDR_SIZE) := by
  induction levels with
  | nil =>
      intro mm dir formed _ _
      have alive := formed.live dir mem_footprint_self
      rcases Option.isSome_iff_exists.mp alive with ⟨cells, held⟩
      rcases store_of_live alive leaf (edit (cells leaf)) with ⟨heap, stored⟩
      refine ⟨dir, mm, cells, heap, [], rfl, formed.nonnull dir mem_footprint_self, held, stored,
        ⟨grows_leaf stored, decode_edit_leaf held stored [], rfl⟩, rfl, rfl, ?_⟩
      · rw [List.length_nil, Nat.zero_mul, Nat.add_zero]
  | cons level levels inductionHypothesis =>
      intro mm dir formed distinct supplied
      rcases level with ⟨idx, answer⟩
      rw [List.map_cons, List.nodup_cons] at distinct
      have own := supplied answer List.mem_cons_self
      rcases walkLevel_alloc formed idx own.1 own.2 with ⟨child, mid, fresh, taken, step⟩
      have midFormed := step.grown.wellFormed formed
      have childFormed : Formed mid.heap levels.length child := by
        rw [← step.hung]
        apply midFormed.child (mem_dirIndices idx)
        rw [step.hung]
        exact step.nonnull
      have still : ∀ other ∈ levels.map Prod.snd, other ≠ 0 ∧ mid.heap other = none := by
        intro other member
        have before := supplied other (List.mem_cons_of_mem _ member)
        refine ⟨before.1, ?_⟩
        rw [step.grown.frame other, before.2]
        · intro born
          exact distinct.1 (step.asked other born ▸ member)
        · exact formed.not_mem_of_dead before.2
      rcases inductionHypothesis mid child childFormed distinct.2 still with
        ⟨pt, last, cells, heap, later, walked, nonnull, held, stored, below, pgd, count, bytes⟩
      have inner : Grows dirIndices mid.heap heap levels.length (word mid.heap dir idx) later := by
        rw [step.hung]
        exact below.grown
      have pointer : word mid.heap dir idx ≠ 0 := by
        rw [step.hung]
        exact step.nonnull
      rcases Grows.lift nodup_dirIndices (mem_dirIndices idx) midFormed pointer inner with
        ⟨lifted, only, kept⟩
      have hung : word heap dir idx = child := (word_congr kept).trans step.hung
      refine ⟨pt, last, cells, heap, later ++ fresh, ?_, nonnull, held, stored, ⟨?_, ?_, ?_⟩, ?_,
        ?_, ?_⟩
      · rw [List.map_cons, walkLevels, taken, Option.bind_some]
        dsimp only
        rw [if_neg step.nonnull]
        exact walked
      · exact step.grown.trans lifted
      · have outer := decode_onlyBelow mem_dirIndices only (hung ▸ step.nonnull)
        have middle := decode_onlyBelow mem_dirIndices step.only pointer
        rw [List.length_cons, outer, middle, Tree.hang_hang, hung, below.tree, step.tree]
        rfl
      · rw [List.length_append, below.created, step.created, step.tree, Nat.add_comm]
        rfl
      · rw [pgd, step.pgd]
      · rw [count, step.count, List.length_append]
        omega
      · rw [bytes, step.bytes, List.length_append, Nat.add_mul]
        omega

/-- The memory map after a setter below the page limit. -/
structure Stored (mm next : Mm) (pgn : Addr) (edit : Addr → Addr) (fresh : List Addr) : Prop where
  pgd : next.pgd = mm.pgd
  descended : Descended mm.heap next.heap 4 mm.pgd (upperIndices pgn) (getPdFromPagenum pgn).pt edit
    fresh
  count : next.mm64DirAllocCount = mm.mm64DirAllocCount + fresh.length
  bytes : next.mm64BytesAlloc = mm.mm64BytesAlloc + fresh.length * (PAGING64_DIR_ENTRIES * ADDR_SIZE)

/-- What a setter does when allocation succeeds.  At or above the page limit it
returns before anything is written. -/
theorem pteStore_cases {mm : Mm} (formed : Formed mm.heap 4 mm.pgd) {answers : Answers}
    (supplied : Supplied mm.heap answers) (pgn : Addr) (edit : Addr → Addr) :
    (PAGING_MAX_PGN ≤ pgn ∧ pteStore mm pgn answers edit = some (-1, mm)) ∨
      (pgn < PAGING_MAX_PGN ∧ ∃ next fresh, pteStore mm pgn answers edit = some (0, next) ∧
        Stored mm next pgn edit fresh) := by
  by_cases short : pgn < PAGING_MAX_PGN
  · right
    refine ⟨short, ?_⟩
    have root : ¬ (mm.pgd = 0 ∨ PAGING_MAX_PGN ≤ pgn) := by
      rintro (null | long)
      · exact formed.nonnull mm.pgd mem_footprint_self null
      · exact BitVec.not_lt.mpr long short
    set walked : Mm := { mm with mm64WalkCount := mm.mm64WalkCount + 1 }
    have walk := walkLevels_alloc (getPdFromPagenum pgn).pt edit
      ((upperIndices pgn).zip answers.all) walked mm.pgd formed supplied.1
      (fun answer member => ⟨(supplied.2 answer member).1,
        Option.isNone_iff_eq_none.mp (supplied.2 answer member).2⟩)
    rcases walk with ⟨pt, mid, cells, heap, fresh, reached, nonnull, held, stored, below, pgd, count,
      bytes⟩
    refine ⟨{ mid with heap := heap, mm64MemAccessCount := mid.mm64MemAccessCount + 1 }, fresh, ?_,
      pgd, below, count, bytes⟩
    rw [pteStore, pteWalk, if_neg root]
    have levels : (upperIndices pgn).zip (answers.all.map some) =
        ((upperIndices pgn).zip answers.all).map fun level => (level.1, some level.2) := rfl
    dsimp only
    rw [levels, reached, Option.map_some, Option.bind_some]
    dsimp only
    rw [if_neg nonnull]
    dsimp only
    rw [held, Option.bind_some, stored, Option.map_some]
  · left
    have long : PAGING_MAX_PGN ≤ pgn := BitVec.not_lt.mp short
    refine ⟨long, ?_⟩
    rw [pteStore, pteWalk, if_pos (Or.inr long)]
    rfl

/-- Two states of a memory map that differ in the walk statistics at most. -/
structure SameDirectories (mm next : Mm) : Prop where
  heap : next.heap = mm.heap
  pgd : next.pgd = mm.pgd
  count : next.mm64DirAllocCount = mm.mm64DirAllocCount
  bytes : next.mm64BytesAlloc = mm.mm64BytesAlloc

/-- A walk without allocation finds what the tree holds at the end of the path,
and creates nothing. -/
theorem walkLevels_load (leaf : DirIndex) (path : List DirIndex) :
    ∀ (mm : Mm) (dir : Addr), Formed mm.heap path.length dir →
      ∃ pt mid, walkLevels mm dir (path.map fun idx => (idx, none)) = some (pt, mid) ∧
        SameDirectories mm mid ∧
        ((pt = 0 ∧ Tree.find leaf path.length path (decode mm.heap path.length dir) = none) ∨
          ∃ cells, pt ≠ 0 ∧ mid.heap pt = some cells ∧
            Tree.find leaf path.length path (decode mm.heap path.length dir) =
              some (cells leaf)) := by
  induction path with
  | nil =>
      intro mm dir formed
      rcases Option.isSome_iff_exists.mp (formed.live dir mem_footprint_self) with ⟨cells, held⟩
      refine ⟨dir, mm, rfl, ⟨rfl, rfl, rfl, rfl⟩, Or.inr ⟨cells,
        formed.nonnull dir mem_footprint_self, held, ?_⟩⟩
      have read : word mm.heap dir leaf = cells leaf := by rw [word, held]
      exact congrArg some read
  | cons idx path inductionHypothesis =>
      intro mm dir formed
      have load := dirLoad_of_formed formed idx
      set counted : Mm := { mm with mm64MemAccessCount := mm.mm64MemAccessCount + 1 } with built
      have taken : walkLevel mm dir idx none = some (word mm.heap dir idx, counted) := by
        rw [walkLevel, load, Option.map_some]
      have subtree : (decode mm.heap (path.length + 1) dir).subtree idx = _ := subtree_decode idx
      by_cases empty : word mm.heap dir idx = 0
      · refine ⟨0, counted, ?_, ⟨rfl, rfl, rfl, rfl⟩, Or.inl ⟨rfl, ?_⟩⟩
        · rw [List.map_cons, walkLevels, taken, Option.bind_some]
          dsimp only
          rw [if_pos empty]
        · rw [if_pos empty] at subtree
          rw [List.length_cons, Tree.find, subtree]
          rfl
      · have below := formed.child (mem_dirIndices idx) empty
        rcases inductionHypothesis counted _ below with ⟨pt, mid, walked, same, found⟩
        rw [if_neg empty] at subtree
        refine ⟨pt, mid, ?_, ⟨same.heap, same.pgd, same.count, same.bytes⟩, ?_⟩
        · rw [List.map_cons, walkLevels, taken, Option.bind_some]
          dsimp only
          rw [if_neg empty]
          exact walked
        · rw [List.length_cons, Tree.find, subtree, Option.bind_some]
          exact found

/-- `pte_get_entry` reads the tree and leaves it as it is. -/
theorem pteGetEntry_cases {mm : Mm} (formed : Formed mm.heap 4 mm.pgd) (pgn : Addr) :
    ∃ next, SameDirectories mm next ∧
      pteGetEntry mm pgn = some (
        if PAGING_MAX_PGN ≤ pgn then 0
        else ((Tree.find (getPdFromPagenum pgn).pt 4 (upperIndices pgn)
          (decode mm.heap 4 mm.pgd)).getD 0).setWidth 32, next) := by
  have root : mm.pgd ≠ 0 := formed.nonnull mm.pgd mem_footprint_self
  by_cases long : PAGING_MAX_PGN ≤ pgn
  · refine ⟨mm, ⟨rfl, rfl, rfl, rfl⟩, ?_⟩
    rw [pteGetEntry, pteWalk, if_pos (Or.inr long), if_pos long]
    rfl
  · have inside : ¬ (mm.pgd = 0 ∨ PAGING_MAX_PGN ≤ pgn) := not_or.mpr ⟨root, long⟩
    set walked : Mm := { mm with mm64WalkCount := mm.mm64WalkCount + 1 }
    have walk := walkLevels_load (getPdFromPagenum pgn).pt (upperIndices pgn) walked mm.pgd formed
    rcases walk with ⟨pt, mid, reached, same, found⟩
    have levels : (upperIndices pgn).zip [none, none, none, none] =
        (upperIndices pgn).map fun idx => (idx, (none : Option Addr)) := rfl
    rw [pteGetEntry, pteWalk, if_neg inside, if_neg long, levels]
    dsimp only
    rw [reached, Option.map_some, Option.bind_some]
    dsimp only
    rcases found with ⟨null, absent⟩ | ⟨cells, nonnull, held, present⟩
    · refine ⟨mid, ⟨same.heap, same.pgd, same.count, same.bytes⟩, ?_⟩
      rw [if_pos null, show Tree.find _ 4 (upperIndices pgn) (decode mm.heap 4 mm.pgd) = none from absent]
      rfl
    · refine ⟨{ mid with mm64MemAccessCount := mid.mm64MemAccessCount + 1 },
        ⟨same.heap, same.pgd, same.count, same.bytes⟩, ?_⟩
      rw [if_neg nonnull, show Tree.find _ 4 (upperIndices pgn) (decode mm.heap 4 mm.pgd) = _ from present]
      dsimp only
      rw [held]
      rfl

end DirectoryHeap
end Ossim
