import Mathlib.Data.List.Nodup
import Mathlib.Data.List.Perm.Basic
import Mathlib.Tactic

namespace Ossim
namespace PointerTree

/-!
# Trees of pointer blocks in a heap

A block is an array of words.  A tree of depth `n + 1` is a block whose nonzero
words are the addresses of trees of depth `n`; the words of a tree of depth
zero are data and point nowhere.  Nothing in the heap marks a word as a pointer
or as data, so only the depth tells them apart.

The footprint of a tree lists the blocks that are met on the way down.  The
tree is well formed when these blocks are live and pairwise different, hence
when no block is shared.  Growing a well-formed tree by fresh blocks keeps it
well formed and adds exactly these blocks to the footprint.
-/

variable {Word Index : Type*}

/-- The live blocks by address. -/
abbrev Heap (Word Index : Type*) := Word → Option (Index → Word)

section Footprint

variable [Zero Word] [DecidableEq Word]

/-- One word of a block.  A dead block reads as zero. -/
def word (heap : Heap Word Index) (block : Word) (i : Index) : Word :=
  match heap block with
  | none => 0
  | some cells => cells i

/-- The blocks of the tree below an address, each block before its subtrees. -/
def footprint (indices : List Index) (heap : Heap Word Index) : Nat → Word → List Word
  | 0, block => [block]
  | depth + 1, block => block :: indices.flatMap fun i =>
      if word heap block i = 0 then [] else footprint indices heap depth (word heap block i)

/-- What one word of a block contributes to the footprint. -/
def branch (indices : List Index) (heap : Heap Word Index) (depth : Nat) (block : Word)
    (i : Index) : List Word :=
  if word heap block i = 0 then [] else footprint indices heap depth (word heap block i)

/-- A target is reached by following nonzero words, at most as many times as
the tree is deep. -/
inductive Reaches (heap : Heap Word Index) : Nat → Word → Word → Prop
  | here {depth : Nat} {block : Word} : Reaches heap depth block block
  | through {depth : Nat} {block target : Word} {i : Index} : word heap block i ≠ 0 →
      Reaches heap depth (word heap block i) target → Reaches heap (depth + 1) block target

/-- Every block of the tree is live, and no block occurs twice. -/
structure WellFormed (indices : List Index) (heap : Heap Word Index) (depth : Nat)
    (root : Word) : Prop where
  nodup : (footprint indices heap depth root).Nodup
  live : ∀ block ∈ footprint indices heap depth root, (heap block).isSome = true
  nonnull : ∀ block ∈ footprint indices heap depth root, block ≠ 0

variable {indices : List Index} {heap next last : Heap Word Index}
variable {depth : Nat} {block root : Word} {fresh : List Word} {i : Index}

theorem footprint_succ :
    footprint indices heap (depth + 1) block =
      block :: indices.flatMap (branch indices heap depth block) := rfl

theorem mem_footprint_self : block ∈ footprint indices heap depth block := by
  cases depth with
  | zero => exact List.mem_singleton.mpr rfl
  | succ depth => exact List.mem_cons_self

omit [DecidableEq Word] in
theorem word_congr (same : next block = heap block) : word next block i = word heap block i := by
  rw [word, word, same]

theorem branch_of_ne_zero (pointer : word heap block i ≠ 0) :
    branch indices heap depth block i = footprint indices heap depth (word heap block i) :=
  if_neg pointer

theorem branch_subset (listed : i ∈ indices) {target : Word}
    (member : target ∈ branch indices heap depth block i) :
    target ∈ footprint indices heap (depth + 1) block := by
  rw [footprint_succ]
  exact List.mem_cons_of_mem _ (List.mem_flatMap.mpr ⟨i, listed, member⟩)

/-- The footprint is determined by the blocks it lists. -/
theorem footprint_congr
    (same : ∀ target ∈ footprint indices heap depth block, next target = heap target) :
    footprint indices next depth block = footprint indices heap depth block := by
  induction depth generalizing block with
  | zero => rfl
  | succ depth inductionHypothesis =>
      rw [footprint_succ, footprint_succ]
      congr 1
      apply List.flatMap_congr
      intro j listed
      have cell : word next block j = word heap block j := word_congr (same block mem_footprint_self)
      by_cases empty : word heap block j = 0
      · rw [branch, branch, cell, if_pos empty, if_pos empty]
      · rw [branch, cell, if_neg empty, branch_of_ne_zero empty]
        apply inductionHypothesis
        intro target member
        apply same
        apply branch_subset listed
        rwa [branch_of_ne_zero empty]

/-- The footprint lists exactly the blocks that can be reached. -/
theorem mem_footprint_iff (complete : ∀ i, i ∈ indices) (target : Word) :
    target ∈ footprint indices heap depth block ↔ Reaches heap depth block target := by
  constructor
  · intro member
    induction depth generalizing block with
    | zero =>
        rw [List.mem_singleton.mp member]
        exact .here
    | succ depth inductionHypothesis =>
        rw [footprint_succ, List.mem_cons] at member
        rcases member with rfl | deeper
        · exact .here
        · rcases List.mem_flatMap.mp deeper with ⟨j, _, inside⟩
          by_cases empty : word heap block j = 0
          · rw [branch, if_pos empty] at inside
            cases inside
          · rw [branch_of_ne_zero empty] at inside
            exact .through empty (inductionHypothesis inside)
  · intro reached
    induction reached with
    | here => exact mem_footprint_self
    | through pointer _ inductionHypothesis =>
        apply branch_subset (complete _)
        rwa [branch_of_ne_zero pointer]

/-- A cleared block has no subtree. -/
theorem footprint_of_cleared (cleared : ∀ i, word heap block i = 0) :
    footprint indices heap depth block = [block] := by
  cases depth with
  | zero => rfl
  | succ depth =>
      rw [footprint_succ]
      congr 1
      rw [List.flatMap_eq_nil_iff]
      intro j _
      rw [branch, if_pos (cleared j)]

/-! ## The parts of a well-formed tree -/

namespace WellFormed

theorem not_mem_of_dead (formed : WellFormed indices heap depth block) {target : Word}
    (dead : heap target = none) : target ∉ footprint indices heap depth block := by
  intro member
  have alive := formed.live target member
  rw [dead] at alive
  cases alive

theorem self_not_mem_branch (formed : WellFormed indices heap (depth + 1) block)
    (listed : i ∈ indices) : block ∉ branch indices heap depth block i := by
  intro member
  have unique := formed.nodup
  rw [footprint_succ, List.nodup_cons] at unique
  exact unique.1 (List.mem_flatMap.mpr ⟨i, listed, member⟩)

/-- Two words of a block lead to disjoint subtrees. -/
theorem disjoint_branches (formed : WellFormed indices heap (depth + 1) block) {j : Index}
    (listed : i ∈ indices) (other : j ∈ indices) (different : i ≠ j) :
    (branch indices heap depth block i).Disjoint (branch indices heap depth block j) := by
  have unique := formed.nodup
  rw [footprint_succ, List.nodup_cons, List.nodup_flatMap] at unique
  have symmetric : Std.Symm (Function.onFun List.Disjoint (branch indices heap depth block)) :=
    ⟨fun _ _ apart => apart.symm⟩
  exact unique.2.2.forall listed other different

theorem child (formed : WellFormed indices heap (depth + 1) block) (listed : i ∈ indices)
    (pointer : word heap block i ≠ 0) : WellFormed indices heap depth (word heap block i) := by
  have unique := formed.nodup
  rw [footprint_succ, List.nodup_cons, List.nodup_flatMap] at unique
  have inside : ∀ target ∈ footprint indices heap depth (word heap block i),
      target ∈ footprint indices heap (depth + 1) block := by
    intro target member
    apply branch_subset listed
    rwa [branch_of_ne_zero pointer]
  refine ⟨?_, fun target member => formed.live target (inside target member),
    fun target member => formed.nonnull target (inside target member)⟩
  rw [← branch_of_ne_zero pointer]
  exact unique.2.1 i listed

end WellFormed

/-! ## Growth -/

/-- The tree below `root` has gained the fresh blocks and nothing outside it
has changed. -/
structure Grows (indices : List Index) (heap next : Heap Word Index) (depth : Nat) (root : Word)
    (fresh : List Word) : Prop where
  gained : (footprint indices next depth root).Perm (fresh ++ footprint indices heap depth root)
  frame : ∀ block, block ∉ fresh → block ∉ footprint indices heap depth root →
    next block = heap block
  distinct : fresh.Nodup
  unborn : ∀ block ∈ fresh, block ≠ 0 ∧ heap block = none
  live : ∀ block ∈ footprint indices next depth root, (next block).isSome = true

/-- One word of a flattened family of lists grows, the others stay. -/
private theorem perm_flatMap_of_one {Entry : Type*} {before after : Index → List Entry}
    {gained : List Entry} (unique : indices.Nodup) (listed : i ∈ indices)
    (here : (after i).Perm (gained ++ before i))
    (elsewhere : ∀ j ∈ indices, j ≠ i → after j = before j) :
    (indices.flatMap after).Perm (gained ++ indices.flatMap before) := by
  induction indices with
  | nil => cases listed
  | cons j rest inductionHypothesis =>
      rw [List.nodup_cons] at unique
      rw [List.flatMap_cons, List.flatMap_cons]
      by_cases same : j = i
      · subst same
        have untouched : rest.flatMap after = rest.flatMap before := by
          apply List.flatMap_congr
          intro k member
          apply elsewhere k (List.mem_cons_of_mem _ member)
          intro equal
          exact unique.1 (equal ▸ member)
        rw [untouched, ← List.append_assoc]
        exact here.append_right _
      · rw [elsewhere j List.mem_cons_self same]
        have later : i ∈ rest := by
          rcases List.mem_cons.mp listed with equal | member
          · exact absurd equal.symm same
          · exact member
        have grown := inductionHypothesis unique.2 later fun k member =>
          elsewhere k (List.mem_cons_of_mem _ member)
        calc (before j ++ rest.flatMap after).Perm (before j ++ (gained ++ rest.flatMap before)) :=
              grown.append_left _
          _ = (before j ++ gained) ++ rest.flatMap before := (List.append_assoc _ _ _).symm
          List.Perm _ ((gained ++ before j) ++ rest.flatMap before) :=
              List.perm_append_comm.append_right _
          _ = gained ++ (before j ++ rest.flatMap before) := List.append_assoc _ _ _

/-- A block whose words other than the one at `i` stay, with everything below
them. -/
structure OnlyBelow (indices : List Index) (heap next : Heap Word Index) (depth : Nat)
    (block : Word) (i : Index) : Prop where
  cells : ∀ j, j ≠ i → word next block j = word heap block j
  beside : ∀ j ∈ indices, j ≠ i → ∀ target ∈ branch indices heap depth block j,
    next target = heap target

theorem OnlyBelow.refl : OnlyBelow indices heap heap depth block i :=
  ⟨fun _ _ => rfl, fun _ _ _ _ _ => rfl⟩

namespace Grows

/-- A tree in which nothing happened. -/
theorem refl (formed : WellFormed indices heap depth root) :
    Grows indices heap heap depth root [] := by
  refine ⟨List.Perm.refl _, fun _ _ _ => rfl, List.nodup_nil, ?_, formed.live⟩
  intro block member
  cases member

/-- A grown tree is again well formed. -/
theorem wellFormed (grown : Grows indices heap next depth root fresh)
    (formed : WellFormed indices heap depth root) : WellFormed indices next depth root := by
  refine ⟨?_, grown.live, ?_⟩
  · rw [grown.gained.nodup_iff, List.nodup_append]
    refine ⟨grown.distinct, formed.nodup, ?_⟩
    rintro left born right old rfl
    exact formed.not_mem_of_dead (grown.unborn left born).2 old
  · intro block member
    rcases List.mem_append.mp (grown.gained.mem_iff.mp member) with born | old
    · exact (grown.unborn block born).1
    · exact formed.nonnull block old

theorem trans {later : List Word}
    (first : Grows indices heap next depth root fresh)
    (second : Grows indices next last depth root later) :
    Grows indices heap last depth root (later ++ fresh) := by
  have apart : ∀ block ∈ later, block ∉ fresh ∧ block ∉ footprint indices heap depth root := by
    intro block member
    have dead : next block = none := (second.unborn block member).2
    have absent : block ∉ fresh ++ footprint indices heap depth root := by
      intro inside
      have alive := first.live block (first.gained.mem_iff.mpr inside)
      rw [dead] at alive
      cases alive
    exact not_or.mp (fun inside => absent (List.mem_append.mpr inside))
  refine ⟨?_, ?_, ?_, ?_, second.live⟩
  · rw [List.append_assoc]
    exact second.gained.trans (first.gained.append_left _)
  · intro block unborn outside
    rw [List.mem_append, not_or] at unborn
    have skipped : block ∉ footprint indices next depth root := by
      intro inside
      rcases List.mem_append.mp (first.gained.mem_iff.mp inside) with born | old
      · exact unborn.2 born
      · exact outside old
    rw [second.frame block unborn.1 skipped, first.frame block unborn.2 outside]
  · rw [List.nodup_append]
    refine ⟨second.distinct, first.distinct, ?_⟩
    rintro left member right old rfl
    exact (apart left member).1 old
  · intro block member
    rcases List.mem_append.mp member with born | old
    · refine ⟨(second.unborn block born).1, ?_⟩
      have same := first.frame block (apart block born).1 (apart block born).2
      rw [← same]
      exact (second.unborn block born).2
    · exact first.unborn block old

/-- A block grows as soon as one of its subtrees does, provided that its other
words and everything below them stay. -/
private theorem of_branch (unique : indices.Nodup) (listed : i ∈ indices)
    (formed : WellFormed indices heap (depth + 1) block)
    (gained : (branch indices next depth block i).Perm
      (fresh ++ branch indices heap depth block i))
    (only : OnlyBelow indices heap next depth block i)
    (frame : ∀ target, target ∉ fresh → target ∉ footprint indices heap (depth + 1) block →
      next target = heap target)
    (distinct : fresh.Nodup) (unborn : ∀ target ∈ fresh, target ≠ 0 ∧ heap target = none)
    (alive : (next block).isSome = true)
    (below : ∀ target ∈ branch indices next depth block i, (next target).isSome = true) :
    Grows indices heap next (depth + 1) block fresh := by
  have branches : ∀ j ∈ indices, j ≠ i →
      branch indices next depth block j = branch indices heap depth block j := by
    intro j other different
    have same := only.beside j other different
    rw [branch, branch, only.cells j different]
    by_cases empty : word heap block j = 0
    · rw [if_pos empty, if_pos empty]
    · rw [if_neg empty, if_neg empty]
      rw [branch_of_ne_zero empty] at same
      exact footprint_congr same
  refine ⟨?_, frame, distinct, unborn, ?_⟩
  · rw [footprint_succ, footprint_succ]
    have grown := perm_flatMap_of_one unique listed gained branches
    exact (grown.cons block).trans List.perm_middle.symm
  · intro target member
    rw [footprint_succ, List.mem_cons] at member
    rcases member with rfl | deeper
    · exact alive
    · rcases List.mem_flatMap.mp deeper with ⟨j, other, inside⟩
      by_cases same : j = i
      · subst same
        exact below target inside
      · rw [branches j other same] at inside
        rw [only.beside j other same target inside]
        exact formed.live target (branch_subset other inside)

/-- Growth below one word of a block is growth of the block.  Nothing that the
other words lead to has moved. -/
theorem lift (unique : indices.Nodup) (listed : i ∈ indices)
    (formed : WellFormed indices heap (depth + 1) block) (pointer : word heap block i ≠ 0)
    (grown : Grows indices heap next depth (word heap block i) fresh) :
    Grows indices heap next (depth + 1) block fresh ∧
      OnlyBelow indices heap next depth block i ∧ next block = heap block := by
  have inner : branch indices heap depth block i =
      footprint indices heap depth (word heap block i) := branch_of_ne_zero pointer
  have old : ∀ target ∈ footprint indices heap (depth + 1) block, target ∉ fresh :=
    fun target member born => formed.not_mem_of_dead (grown.unborn target born).2 member
  have kept : next block = heap block := by
    apply grown.frame block (old block mem_footprint_self)
    rw [← inner]
    exact formed.self_not_mem_branch listed
  have beside : ∀ j ∈ indices, j ≠ i → ∀ target ∈ branch indices heap depth block j,
      next target = heap target := by
    intro j other different target member
    apply grown.frame target (old target (branch_subset other member))
    rw [← inner]
    exact fun both => formed.disjoint_branches listed other different.symm both member
  have inside : branch indices next depth block i =
      footprint indices next depth (word heap block i) := by
    rw [branch, word_congr kept, if_neg pointer]
  have only : OnlyBelow indices heap next depth block i := ⟨fun _ _ => word_congr kept, beside⟩
  refine ⟨of_branch unique listed formed ?_ only ?_ grown.distinct grown.unborn ?_ ?_, only, kept⟩
  · rw [inside, inner]
    exact grown.gained
  · intro target unborn outside
    apply grown.frame target unborn
    intro member
    apply outside
    apply branch_subset listed
    rwa [inner]
  · rw [kept]
    exact formed.live _ mem_footprint_self
  · rw [inside]
    exact grown.live

end Grows

/-! ## Writing a block -/

section Writing

variable [DecidableEq Index]

/-- The heap with a cleared block at a new address. -/
def calloc (heap : Heap Word Index) (address : Word) : Heap Word Index :=
  Function.update heap address (some fun _ => 0)

/-- Write one word of a live block. -/
def store (heap : Heap Word Index) (block : Word) (i : Index) (value : Word) :
    Option (Heap Word Index) :=
  (heap block).map fun cells => Function.update heap block (some (Function.update cells i value))

omit [Zero Word] in
theorem store_of_live (live : (heap block).isSome = true) (i : Index) (value : Word) :
    ∃ next, store heap block i value = some next := by
  rcases Option.isSome_iff_exists.mp live with ⟨cells, held⟩
  exact ⟨_, by rw [store, held, Option.map_some]⟩

omit [DecidableEq Index] in
theorem calloc_live (live : (heap block).isSome = true) (address : Word) :
    (calloc heap address block).isSome = true := by
  by_cases same : block = address
  · rw [same, calloc, Function.update_self]
    rfl
  · rw [calloc, Function.update_of_ne same]
    exact live

/-- Writing the data of a leaf leaves the tree as it is. -/
theorem grows_leaf {value : Word} (stored : store heap block i value = some next) :
    Grows indices heap next 0 block [] := by
  rw [store, Option.map_eq_some_iff] at stored
  rcases stored with ⟨cells, _, rfl⟩
  refine ⟨List.Perm.refl _, ?_, List.nodup_nil, ?_, ?_⟩
  · intro target _ outside
    exact Function.update_of_ne (fun same => outside (List.mem_singleton.mpr same)) _ _
  · intro target member
    cases member
  · intro target member
    rw [List.mem_singleton.mp member, Function.update_self]
    rfl

/-- Hanging a cleared block into an empty word adds this one block. -/
theorem grows_calloc {address : Word} (unique : indices.Nodup) (listed : i ∈ indices)
    (formed : WellFormed indices heap (depth + 1) block) (empty : word heap block i = 0)
    (nonnull : address ≠ 0) (dead : heap address = none)
    (stored : store (calloc heap address) block i address = some next) :
    Grows indices heap next (depth + 1) block [address] ∧
      OnlyBelow indices heap next depth block i ∧ word next block i = address ∧
        ∀ j, word next address j = 0 := by
  have different : block ≠ address := by
    rintro rfl
    exact formed.not_mem_of_dead dead mem_footprint_self
  rw [store, Option.map_eq_some_iff] at stored
  rcases stored with ⟨cells, held, rfl⟩
  rw [calloc, Function.update_of_ne different] at held
  set next := Function.update (calloc heap address) block
    (some (Function.update cells i address)) with built
  have parent : next block = some (Function.update cells i address) := Function.update_self ..
  have born : next address = some fun _ => 0 := by
    rw [built, Function.update_of_ne (Ne.symm different), calloc, Function.update_self]
  have frame : ∀ target, target ≠ block → target ≠ address → next target = heap target := by
    intro target notParent notChild
    rw [built, Function.update_of_ne notParent, calloc, Function.update_of_ne notChild]
  have hung : word next block i = address := by
    rw [word, parent]
    exact Function.update_self ..
  have cells : ∀ j, j ≠ i → word next block j = word heap block j := by
    intro j other
    rw [word, word, parent, held]
    exact Function.update_of_ne other _ _
  have zero : ∀ j, word next address j = 0 := fun j => by rw [word, born]
  have leaf : branch indices next depth block i = [address] := by
    rw [branch, hung, if_neg nonnull]
    exact footprint_of_cleared zero
  have beside : ∀ j ∈ indices, j ≠ i → ∀ target ∈ branch indices heap depth block j,
      next target = heap target := by
    intro j other _ target member
    apply frame target
    · rintro rfl
      exact formed.self_not_mem_branch other member
    · rintro rfl
      exact formed.not_mem_of_dead dead (branch_subset other member)
  have only : OnlyBelow indices heap next depth block i := ⟨cells, beside⟩
  refine ⟨Grows.of_branch unique listed formed ?_ only ?_ (List.nodup_singleton _) ?_ ?_ ?_,
    only, hung, zero⟩
  · rw [leaf, branch, if_pos empty, List.append_nil]
  · intro target unborn outside
    apply frame target
    · rintro rfl
      exact outside mem_footprint_self
    · exact fun same => unborn (List.mem_singleton.mpr same)
  · intro target member
    rw [List.mem_singleton.mp member]
    exact ⟨nonnull, dead⟩
  · rw [parent]
    rfl
  · intro target member
    rw [leaf, List.mem_singleton] at member
    rw [member, born]
    rfl

end Writing
end Footprint

end PointerTree
end Ossim
