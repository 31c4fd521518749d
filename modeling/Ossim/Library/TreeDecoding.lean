import Ossim.Library.PointerTree

namespace Ossim
namespace PointerTree

/-!
# The tree that a heap holds

A pointer tree read as a value.  The value of a tree depends only on the blocks
of its footprint, so hanging a subtree into one word, or changing the heap below
that word, replaces one subtree of the value.
-/

variable {Word Index : Type*}

/-- The trees as values: a missing subtree is `none`, and the words of a leaf
are themselves. -/
def Tree (Word Index : Type*) : Nat → Type _
  | 0 => Index → Word
  | depth + 1 => Index → Option (Tree Word Index depth)

namespace Tree

variable {depth : Nat} {tree : Tree Word Index (depth + 1)} {child : Tree Word Index depth}
variable {i j : Index}

def subtree (tree : Tree Word Index (depth + 1)) (i : Index) : Option (Tree Word Index depth) :=
  tree i

theorem ext_subtree {left right : Tree Word Index (depth + 1)}
    (same : ∀ i, left.subtree i = right.subtree i) : left = right :=
  funext same

/-- The tree of cleared blocks, as a new block is. -/
def cleared [Zero Word] : (depth : Nat) → Tree Word Index depth
  | 0 => fun _ => 0
  | _ + 1 => fun _ => none

/-- The subtree at a word, or the one that is created there. -/
def subtreeOrCleared [Zero Word] (tree : Tree Word Index (depth + 1)) (i : Index) :
    Tree Word Index depth :=
  (tree.subtree i).getD (cleared depth)

/-- The leaf word that a path leads to, if no subtree on the way is missing. -/
def find (leaf : Index) : (depth : Nat) → List Index → Tree Word Index depth → Option Word
  | 0, _, tree => some (tree leaf)
  | _ + 1, [], _ => none
  | depth + 1, i :: path, tree => (tree.subtree i).bind (find leaf depth path)

/-- How many subtrees an edit along the path creates. -/
def missing [Zero Word] : (depth : Nat) → List Index → Tree Word Index depth → Nat
  | 0, _, _ => 0
  | _ + 1, [], _ => 0
  | depth + 1, i :: path, tree =>
      (if (tree.subtree i).isNone then 1 else 0) + missing depth path (tree.subtreeOrCleared i)

section Hanging

variable [DecidableEq Index]

/-- Hang a subtree into one word. -/
def hang (tree : Tree Word Index (depth + 1)) (i : Index) (child : Tree Word Index depth) :
    Tree Word Index (depth + 1) :=
  Function.update tree i (some child)

theorem subtree_hang_self : (tree.hang i child).subtree i = some child :=
  Function.update_self ..

theorem subtree_hang_of_ne (different : j ≠ i) :
    (tree.hang i child).subtree j = tree.subtree j :=
  Function.update_of_ne different _ _

theorem hang_hang (other : Tree Word Index depth) :
    (tree.hang i child).hang i other = tree.hang i other :=
  Function.update_idem ..

/-- Edit the leaf word that a path leads to.  Missing subtrees on the way are
created. -/
def edit [Zero Word] (change : Word → Word) (leaf : Index) :
    (depth : Nat) → List Index → Tree Word Index depth → Tree Word Index depth
  | 0, _, tree => Function.update tree leaf (change (tree leaf))
  | _ + 1, [], tree => tree
  | depth + 1, i :: path, tree => tree.hang i (edit change leaf depth path (tree.subtreeOrCleared i))

end Hanging
end Tree

section Decoding

variable [Zero Word] [DecidableEq Word]

/-- Read a tree out of the heap. -/
def decode (heap : Heap Word Index) : (depth : Nat) → Word → Tree Word Index depth
  | 0, block => word heap block
  | depth + 1, block => fun i =>
      if word heap block i = 0 then none else some (decode heap depth (word heap block i))

variable {indices : List Index} {heap next : Heap Word Index}
variable {depth : Nat} {block : Word} {i : Index}

theorem subtree_decode (i : Index) :
    (decode heap (depth + 1) block).subtree i =
      if word heap block i = 0 then none else some (decode heap depth (word heap block i)) := rfl

/-- The decoded tree is determined by the blocks of the footprint. -/
theorem decode_congr (complete : ∀ i, i ∈ indices)
    (same : ∀ target ∈ footprint indices heap depth block, next target = heap target) :
    decode next depth block = decode heap depth block := by
  induction depth generalizing block with
  | zero =>
      funext j
      exact word_congr (same block mem_footprint_self)
  | succ depth inductionHypothesis =>
      apply Tree.ext_subtree
      intro j
      have cell : word next block j = word heap block j := word_congr (same block mem_footprint_self)
      rw [subtree_decode, subtree_decode, cell]
      by_cases empty : word heap block j = 0
      · rw [if_pos empty, if_pos empty]
      · rw [if_neg empty, if_neg empty]
        congr 1
        apply inductionHypothesis
        intro target member
        apply same
        apply branch_subset (complete j)
        rwa [branch_of_ne_zero empty]

theorem decode_of_cleared (zero : ∀ j, word heap block j = 0) :
    decode heap depth block = Tree.cleared depth := by
  cases depth with
  | zero =>
      funext j
      exact zero j
  | succ depth =>
      funext j
      exact if_pos (zero j)

/-- A change below one word replaces one subtree of the decoded tree. -/
theorem decode_onlyBelow [DecidableEq Index] (complete : ∀ i, i ∈ indices)
    (only : OnlyBelow indices heap next depth block i) (pointer : word next block i ≠ 0) :
    decode next (depth + 1) block =
      (decode heap (depth + 1) block).hang i (decode next depth (word next block i)) := by
  apply Tree.ext_subtree
  intro j
  by_cases here : j = i
  · subst here
    rw [Tree.subtree_hang_self, subtree_decode, if_neg pointer]
  · rw [Tree.subtree_hang_of_ne here, subtree_decode, subtree_decode, only.cells j here]
    by_cases empty : word heap block j = 0
    · rw [if_pos empty, if_pos empty]
    · rw [if_neg empty, if_neg empty]
      congr 1
      apply decode_congr complete
      have same := only.beside j (complete j) here
      rwa [branch_of_ne_zero empty] at same

/-- Writing the edited word into a leaf edits the decoded leaf. -/
theorem decode_edit_leaf [DecidableEq Index] {cells : Index → Word} {change : Word → Word}
    (held : heap block = some cells) (stored : store heap block i (change (cells i)) = some next)
    (path : List Index) : decode next 0 block = Tree.edit change i 0 path (decode heap 0 block) := by
  rw [store, held, Option.map_some, Option.some.injEq] at stored
  subst stored
  have before : word heap block = cells := by
    funext j
    rw [word, held]
  funext j
  show word _ block j = Function.update (word heap block) i (change (word heap block i)) j
  rw [before, word, Function.update_self]

end Decoding

/-! ## Narrow trees -/

section Narrow

/-- The subtrees at each level hang in the words that are listed for it. -/
def Tree.Within : (depth : Nat) → List (List Index) → Tree Word Index depth → Prop
  | depth + 1, used :: deeper, tree => ∀ i child, tree.subtree i = some child →
      i ∈ used ∧ Tree.Within depth deeper child
  | _, _, _ => True

/-- How many blocks a tree within these words can have. -/
def capacity : List (List Index) → Nat
  | [] => 1
  | used :: deeper => 1 + used.length * capacity deeper

theorem Tree.within_cleared [Zero Word] (depth : Nat) (used : List (List Index)) :
    Tree.Within depth used (Tree.cleared depth : Tree Word Index depth) := by
  cases depth with
  | zero => trivial
  | succ depth =>
      cases used with
      | nil => trivial
      | cons here deeper =>
          intro i child hung
          cases hung

/-- An edit along the listed words stays within them. -/
theorem Tree.within_edit [Zero Word] [DecidableEq Index] (change : Word → Word) (leaf : Index)
    {path : List Index} {used : List (List Index)} (along : List.Forall₂ (· ∈ ·) path used) :
    ∀ {depth : Nat} {tree : Tree Word Index depth}, Tree.Within depth used tree →
      Tree.Within depth used (Tree.edit change leaf depth path tree) := by
  induction along with
  | nil =>
      intro depth tree _
      cases depth <;> trivial
  | @cons i here path deeper listed _ inductionHypothesis =>
      intro depth tree within
      cases depth with
      | zero => trivial
      | succ depth =>
          intro j child hung
          have below : Tree.Within depth deeper (tree.subtreeOrCleared i) := by
            cases old : tree.subtree i with
            | none =>
                rw [Tree.subtreeOrCleared, old]
                exact Tree.within_cleared depth deeper
            | some subtree =>
                rw [Tree.subtreeOrCleared, old]
                exact (within i subtree old).2
          by_cases same : j = i
          · subst same
            rw [Tree.edit, Tree.subtree_hang_self, Option.some.injEq] at hung
            subst hung
            exact ⟨listed, inductionHypothesis below⟩
          · rw [Tree.edit, Tree.subtree_hang_of_ne same] at hung
            exact within j child hung

private theorem length_flatMap_le [DecidableEq Index] {Entry : Type*} {indices listed : List Index}
    {part : Index → List Entry} {bound : Nat} (unique : indices.Nodup)
    (small : ∀ i, (part i).length ≤ if i ∈ listed then bound else 0) :
    (indices.flatMap part).length ≤ listed.length * bound := by
  have counted : (indices.flatMap part).length ≤
      (indices.filter (· ∈ listed)).length * bound := by
    clear unique
    induction indices with
    | nil => exact Nat.zero_le _
    | cons i indices inductionHypothesis =>
        have here := small i
        rw [List.flatMap_cons, List.length_append]
        by_cases member : i ∈ listed
        · rw [if_pos member] at here
          rw [List.filter_cons_of_pos (by simpa using member), List.length_cons, Nat.add_mul,
            Nat.one_mul, Nat.add_comm]
          exact Nat.add_le_add inductionHypothesis here
        · rw [if_neg member] at here
          rw [List.filter_cons_of_neg (by simpa using member), Nat.le_zero.mp here, Nat.zero_add]
          exact inductionHypothesis
  have few : (indices.filter (· ∈ listed)).length ≤ listed.length := by
    apply List.Subperm.length_le
    apply List.subperm_of_subset (unique.filter _)
    intro i member
    exact of_decide_eq_true (List.mem_filter.mp member).2
  exact counted.trans (Nat.mul_le_mul_right bound few)

/-- A tree within the listed words has no more blocks than they allow. -/
theorem length_footprint_le [Zero Word] [DecidableEq Word] [DecidableEq Index]
    {indices : List Index} {heap : Heap Word Index} (unique : indices.Nodup)
    (used : List (List Index)) :
    ∀ {block : Word}, Tree.Within used.length used (decode heap used.length block) →
      (footprint indices heap used.length block).length ≤ capacity used := by
  induction used with
  | nil =>
      intro block _
      exact Nat.le_refl 1
  | cons here deeper inductionHypothesis =>
      intro block within
      rw [List.length_cons, footprint_succ, List.length_cons, capacity, Nat.add_comm]
      apply Nat.add_le_add_left
      apply length_flatMap_le unique
      show ∀ i, (branch indices heap deeper.length block i).length ≤
          if i ∈ here then capacity deeper else 0
      intro i
      by_cases empty : word heap block i = 0
      · rw [branch, if_pos empty]
        exact Nat.zero_le _
      · have hung := within i (decode heap deeper.length (word heap block i)) (if_neg empty)
        rw [branch_of_ne_zero empty, if_pos hung.1]
        exact inductionHypothesis hung.2

end Narrow

end PointerTree
end Ossim
