import Ossim.Library.PointerTree

namespace Ossim
namespace PointerTree

/-!
# Releasing a pointer tree

A tree is released from the leaves upwards, with the words of a block read
before the block is freed.  On a well-formed tree no freed block is ever looked
at again: the subtrees of one block are disjoint, so each round of the loop over
its words finds its subtree as it was at the start.
-/

variable {Word Index : Type*} [Zero Word] [DecidableEq Word]
variable {indices : List Index} {heap : Heap Word Index} {depth : Nat} {block : Word} {i : Index}

/-- The heap and the addresses that were freed so far, the latest last. -/
abbrev Freeing (Word Index : Type*) := Heap Word Index × List Word

/-- Freeing a block that is not live is undefined. -/
def free (block : Word) (state : Freeing Word Index) : Option (Freeing Word Index) :=
  if (state.1 block).isSome then
    some (Function.update state.1 block none, state.2 ++ [block])
  else none

/-- Free a tree from the leaves upwards.  The words of a block are read while
the block is still live. -/
def release (indices : List Index) : Nat → Word → Freeing Word Index → Option (Freeing Word Index)
  | 0, block, state => free block state
  | depth + 1, block, state =>
      (indices.foldlM (fun (state : Freeing Word Index) i => (state.1 block).bind fun cells =>
        if cells i = 0 then some state else release indices depth (cells i) state) state).bind
          (free block)

/-- The heap without the freed blocks. -/
def without (heap : Heap Word Index) (freed : List Word) : Heap Word Index :=
  fun block => if block ∈ freed then none else heap block

omit [Zero Word] in
theorem without_append (heap : Heap Word Index) (first second : List Word) :
    without (without heap first) second = without heap (first ++ second) := by
  funext target
  unfold without
  by_cases late : target ∈ second
  · rw [if_pos late, if_pos (List.mem_append_right _ late)]
  · rw [if_neg late]
    by_cases early : target ∈ first
    · rw [if_pos early, if_pos (List.mem_append_left _ early)]
    · rw [if_neg early, if_neg]
      exact fun member => (List.mem_append.mp member).elim early late

omit [Zero Word] in
theorem free_of_live (live : (heap block).isSome = true) (log : List Word) :
    free block (heap, log) = some (without heap [block], log ++ [block]) := by
  have same : Function.update heap block none = without heap [block] := by
    funext target
    by_cases here : target = block
    · rw [here, Function.update_self, without, if_pos (List.mem_singleton_self _)]
    · rw [Function.update_of_ne here, without, if_neg (fun member => here (List.mem_singleton.mp member))]
  rw [free, if_pos live, same]

/-- One round of the loop in `release`. -/
def releaseWord (indices : List Index) (depth : Nat) (block : Word) (state : Freeing Word Index)
    (i : Index) : Option (Freeing Word Index) :=
  (state.1 block).bind fun cells =>
    if cells i = 0 then some state else release indices depth (cells i) state

/-- The trees of this depth are released with every block freed once. -/
def Releases (Word : Type*) [Zero Word] [DecidableEq Word] (indices : List Index)
    (depth : Nat) : Prop :=
  ∀ (heap : Heap Word Index) (block : Word) (log : List Word),
    WellFormed indices heap depth block →
      ∃ freed, release indices depth block (heap, log) = some (without heap freed, log ++ freed) ∧
        freed.Perm (footprint indices heap depth block)

omit [Zero Word] in
theorem without_of_not_mem {freed : List Word} {target : Word} (kept : target ∉ freed) :
    without heap freed target = heap target :=
  if_neg kept

/-- One round frees the subtree of its word, as long as the earlier rounds have
left that subtree alone. -/
private theorem releaseWord_frees (subtrees : Releases Word indices depth)
    (formed : WellFormed indices heap (depth + 1) block) (listed : i ∈ indices)
    {current : Heap Word Index} (here : current block = heap block)
    (below : ∀ target ∈ branch indices heap depth block i, current target = heap target)
    (log : List Word) :
    ∃ freed, releaseWord indices depth block (current, log) i =
        some (without current freed, log ++ freed) ∧
      freed.Perm (branch indices heap depth block i) := by
  rcases Option.isSome_iff_exists.mp (formed.live _ mem_footprint_self) with ⟨cells, held⟩
  have read : cells i = word heap block i := by rw [word, held]
  rw [releaseWord]
  dsimp only
  rw [here, held, Option.bind_some, read]
  by_cases empty : word heap block i = 0
  · rw [if_pos empty, branch, if_pos empty]
    refine ⟨[], ?_, List.Perm.refl _⟩
    rw [List.append_nil]
    rfl
  · rw [if_neg empty, branch_of_ne_zero empty]
    rw [branch_of_ne_zero empty] at below
    have subtree := footprint_congr below
    have inner := formed.child listed empty
    have still : WellFormed indices current depth (word heap block i) := by
      constructor
      · rw [subtree]
        exact inner.nodup
      · rw [subtree]
        intro target member
        rw [below target member]
        exact inner.live target member
      · rw [subtree]
        exact inner.nonnull
    rcases subtrees current _ log still with ⟨freed, done, order⟩
    rw [subtree] at order
    exact ⟨freed, done, order⟩

/-- The loop over the words of a block frees the subtrees one after another.
The rounds still to come find their subtrees untouched, because subtrees are
disjoint. -/
private theorem releaseLoop_frees (subtrees : Releases Word indices depth)
    (formed : WellFormed indices heap (depth + 1) block) (rest : List Index) :
    ∀ (current : Heap Word Index) (log : List Word), rest.Nodup → (∀ j ∈ rest, j ∈ indices) →
      current block = heap block →
      (∀ j ∈ rest, ∀ target ∈ branch indices heap depth block j, current target = heap target) →
      ∃ freed, rest.foldlM (releaseWord indices depth block) (current, log) =
          some (without current freed, log ++ freed) ∧
        freed.Perm (rest.flatMap (branch indices heap depth block)) := by
  induction rest with
  | nil =>
      intro current log _ _ _ _
      refine ⟨[], ?_, List.Perm.refl _⟩
      rw [List.foldlM_nil, List.append_nil]
      rfl
  | cons j rest inductionHypothesis =>
      intro current log distinct sub here below
      rw [List.nodup_cons] at distinct
      have listed : j ∈ indices := sub j List.mem_cons_self
      rcases releaseWord_frees subtrees formed listed here (below j List.mem_cons_self) log with
        ⟨freed, done, order⟩
      have outside : ∀ target, target ∉ branch indices heap depth block j →
          without current freed target = current target :=
        fun target apart => without_of_not_mem fun member => apart (order.mem_iff.mp member)
      have later := inductionHypothesis (without current freed) (log ++ freed) distinct.2
        (fun k member => sub k (List.mem_cons_of_mem _ member))
        ((outside block (formed.self_not_mem_branch listed)).trans here) (by
          intro k member target inside
          have different : j ≠ k := fun same => distinct.1 (same ▸ member)
          have apart := formed.disjoint_branches listed (sub k (List.mem_cons_of_mem _ member))
            different
          rw [outside target (fun both => apart both inside)]
          exact below k (List.mem_cons_of_mem _ member) target inside)
      rcases later with ⟨others, finished, restOrder⟩
      refine ⟨freed ++ others, ?_, ?_⟩
      · rw [List.foldlM_cons, done, ← without_append, ← List.append_assoc]
        exact finished
      · rw [List.flatMap_cons]
        exact order.append restOrder

/-- Releasing a well-formed tree succeeds and frees the blocks of its footprint,
each of them once. -/
theorem releases (unique : indices.Nodup) (depth : Nat) :
    Releases Word indices depth := by
  induction depth with
  | zero =>
      intro heap block log formed
      exact ⟨[block], free_of_live (formed.live _ mem_footprint_self) log, List.Perm.refl _⟩
  | succ depth subtrees =>
      intro heap block log formed
      rcases releaseLoop_frees subtrees formed indices heap log unique (fun _ member => member) rfl
        (fun _ _ _ _ => rfl) with ⟨freed, done, order⟩
      have alive : (without heap freed block).isSome = true := by
        rw [without_of_not_mem]
        · exact formed.live _ mem_footprint_self
        · intro member
          have split := formed.nodup
          rw [footprint_succ, List.nodup_cons] at split
          exact split.1 (order.mem_iff.mp member)
      refine ⟨freed ++ [block], ?_, ?_⟩
      · have step : release indices (depth + 1) block (heap, log) =
            (indices.foldlM (releaseWord indices depth block) (heap, log)).bind (free block) := rfl
        rw [step, done, Option.bind_some, free_of_live alive, without_append, List.append_assoc]
      · rw [footprint_succ]
        exact List.perm_append_comm.trans (order.cons block)

end PointerTree
end Ossim
