import Mathlib.Data.List.Basic
import Mathlib.Tactic

namespace Ossim
namespace CopyLoop

/-!
# Copy loops that check each access and no bound

A loop copies cells by index from one side to the other.  Fetching and storing
a cell may be refused, and the first refusal ends the loop.  The loop knows
nothing of the ranges that the indices are meant to stay in.

Whether it stays in them all the same is decided by `Stops`: some access is
refused, and all earlier ones are inside.  `respects_iff` states this as an
equivalence, with the accesses of the loop as a list.
-/

inductive Side
  | source
  | target
  deriving DecidableEq, Repr

section Loop

/-! ## The loop

The two accesses of an iteration return a status; zero is success. -/

variable {State Cell : Type*}
variable (fetch : Nat → State → Int × Cell × State) (store : Nat → Cell → State → Int × State)

/-- The loop from iteration `i` on. -/
def copy : Nat → Nat → State → Int × State
  | 0, _, state => (0, state)
  | remaining + 1, i, state =>
      match fetch i state with
      | (ret, cell, fetched) =>
          if ret ≠ 0 then (-1, fetched)
          else
            match store i cell fetched with
            | (ret, stored) =>
                if ret ≠ 0 then (-1, stored) else copy remaining (i + 1) stored

/-- The accesses of the loop that are not refused, in order. -/
def accesses : Nat → Nat → State → List (Side × Nat)
  | 0, _, _ => []
  | remaining + 1, i, state =>
      match fetch i state with
      | (ret, cell, fetched) =>
          if ret ≠ 0 then []
          else (.source, i) ::
            match store i cell fetched with
            | (ret, stored) =>
                if ret ≠ 0 then [] else (.target, i) :: accesses remaining (i + 1) stored

/-- Some access is refused, and no earlier one is outside its range. -/
def Stops (inSource inTarget : Nat → Prop) : Nat → Nat → State → Prop
  | 0, _, _ => False
  | remaining + 1, i, state =>
      match fetch i state with
      | (ret, cell, fetched) => ret ≠ 0 ∨ (inSource i ∧
          match store i cell fetched with
          | (ret, stored) => ret ≠ 0 ∨
              (inTarget i ∧ Stops inSource inTarget remaining (i + 1) stored))

end Loop

/-- The access is inside the range of its side. -/
def Inside (inSource inTarget : Nat → Prop) : Side × Nat → Prop
  | (.source, i) => inSource i
  | (.target, i) => inTarget i

variable {State Cell : Type*} {inSource inTarget : Nat → Prop}
variable {fetch : Nat → State → Int × Cell × State} {store : Nat → Cell → State → Int × State}

/-! ## Where the loop stays inside -/

/-- A loop that is stopped in time fails and makes no access outside. -/
theorem Stops.inside {remaining i : Nat} {state : State}
    (stops : Stops fetch store inSource inTarget remaining i state) :
    (copy fetch store remaining i state).1 = -1 ∧
      ∀ access ∈ accesses fetch store remaining i state, Inside inSource inTarget access := by
  induction remaining generalizing i state with
  | zero => cases stops
  | succ remaining inductionHypothesis =>
      rw [Stops] at stops
      rw [copy, accesses]
      generalize fetch i state = read at stops ⊢
      rcases read with ⟨ret, cell, fetched⟩
      dsimp only at stops ⊢
      by_cases refused : ret ≠ 0
      · rw [if_pos refused, if_pos refused]
        refine ⟨rfl, fun access member => ?_⟩
        cases member
      · rw [if_neg refused, if_neg refused]
        rcases stops with impossible | ⟨inside, stops⟩
        · exact absurd impossible refused
        · generalize store i cell fetched = write at stops ⊢
          rcases write with ⟨status, stored⟩
          dsimp only at stops ⊢
          by_cases denied : status ≠ 0
          · rw [if_pos denied, if_pos denied]
            refine ⟨rfl, fun access member => ?_⟩
            rw [List.mem_singleton.mp member]
            exact inside
          · rw [if_neg denied, if_neg denied]
            rcases stops with impossible | ⟨landed, stops⟩
            · exact absurd impossible denied
            · have later := inductionHypothesis stops
              refine ⟨later.1, fun access member => ?_⟩
              rcases List.mem_cons.mp member with same | rest
              · rw [same]
                exact inside
              · rcases List.mem_cons.mp rest with same | last
                · rw [same]
                  exact landed
                · exact later.2 access last

/-- An observation that only some stores can change keeps its value when none
of these is made.  An invariant of the loop may be used to tell which ones. -/
theorem copy_keeps {Value : Type*} (observe : State → Value) (hits : Nat → Prop)
    (invariant : State → Prop)
    (fetching : ∀ i state, invariant state →
      observe (fetch i state).2.2 = observe state ∧ invariant (fetch i state).2.2)
    (storing : ∀ i cell state, invariant state → ¬ hits i ∨ (store i cell state).1 ≠ 0 →
      observe (store i cell state).2 = observe state ∧ invariant (store i cell state).2)
    {remaining i : Nat} {state : State} (holds : invariant state)
    (avoided : ∀ index, (Side.target, index) ∈ accesses fetch store remaining i state → ¬ hits index) :
    observe (copy fetch store remaining i state).2 = observe state := by
  induction remaining generalizing i state with
  | zero => rfl
  | succ remaining inductionHypothesis =>
      have fetched := fetching i state holds
      rw [copy]
      rw [accesses] at avoided
      generalize fetch i state = read at fetched avoided ⊢
      rcases read with ⟨ret, cell, next⟩
      dsimp only at fetched avoided ⊢
      by_cases failed : ret ≠ 0
      · rw [if_pos failed]
        exact fetched.1
      · rw [if_neg failed] at avoided ⊢
        have stored := storing i cell next fetched.2
        generalize store i cell next = write at avoided stored ⊢
        rcases write with ⟨status, after⟩
        dsimp only at avoided stored ⊢
        by_cases denied : status ≠ 0
        · rw [if_pos denied]
          exact (stored (Or.inr denied)).1.trans fetched.1
        · rw [if_neg denied] at avoided ⊢
          have missed := stored (Or.inl (avoided i (List.mem_cons_of_mem _ List.mem_cons_self)))
          have rest := inductionHypothesis missed.2 fun index member =>
            avoided index (List.mem_cons_of_mem _ (List.mem_cons_of_mem _ member))
          exact (rest.trans missed.1).trans fetched.1

/-! ## Loops that run to their end -/

/-- The rule for a loop that reports success: what an iteration that is not
refused carries from its index to the next one holds at the end. -/
theorem copy_establishes (established : Nat → State → Prop) {remaining i : Nat} {state : State}
    (iteration : ∀ j cell before fetched after, i ≤ j → j < i + remaining → established j before →
      fetch j before = (0, cell, fetched) → store j cell fetched = (0, after) →
      established (j + 1) after)
    (start : established i state) (done : (copy fetch store remaining i state).1 = 0) :
    established (i + remaining) (copy fetch store remaining i state).2 := by
  have failed : (-1 : Int) ≠ 0 := by decide
  induction remaining generalizing i state with
  | zero => exact start
  | succ remaining inductionHypothesis =>
      rw [copy] at done ⊢
      cases read : fetch i state with
      | mk ret rest =>
          rcases rest with ⟨cell, fetched⟩
          rw [read] at done
          dsimp only at done ⊢
          by_cases refused : ret ≠ 0
          · rw [if_pos refused] at done
            exact absurd done failed
          · rw [if_neg refused] at done ⊢
            cases write : store i cell fetched with
            | mk status after =>
                rw [write] at done
                dsimp only at done ⊢
                by_cases denied : status ≠ 0
                · rw [if_pos denied] at done
                  exact absurd done failed
                · rw [if_neg denied] at done ⊢
                  rw [not_not.mp refused] at read
                  rw [not_not.mp denied] at write
                  have next := iteration i cell state fetched after (le_refl i) (by omega) start
                    read write
                  rw [show i + (remaining + 1) = i + 1 + remaining by omega]
                  apply inductionHypothesis ?_ next done
                  intro j cell before fetched after lower upper
                  exact iteration j cell before fetched after (by omega) (by omega)

/-! ## Loops into a memory

When the cells of the source do not depend on the target, the loop is a list
of stores, which ends before the first index that is refused. -/

section Memory

variable {Loc : Type*} [DecidableEq Loc]

/-- The memory after a list of stores. -/
def storeAll (mem : Loc → Cell) (writes : List (Loc × Cell)) : Loc → Cell :=
  writes.foldl (fun mem write => Function.update mem write.1 write.2) mem

/-- Each location already holds the last cell that is stored there. -/
def InPlace (mem : Loc → Cell) (writes : List (Loc × Cell)) : Prop :=
  ∀ loc cell, writes.reverse.lookup loc = some cell → mem loc = cell

/-- The last store to a location decides. -/
theorem storeAll_apply (mem : Loc → Cell) (writes : List (Loc × Cell)) (loc : Loc) :
    storeAll mem writes loc = (writes.reverse.lookup loc).getD (mem loc) := by
  induction writes generalizing mem with
  | nil => rfl
  | cons write rest inductionHypothesis =>
      have later := inductionHypothesis (Function.update mem write.1 write.2)
      rw [storeAll, List.foldl_cons, ← storeAll, later, List.reverse_cons, List.lookup_append]
      cases rest.reverse.lookup loc with
      | some cell => rfl
      | none =>
          rw [Option.none_or, Option.getD_none, List.lookup_cons]
          by_cases same : loc = write.1
          · rw [same, Function.update_self, beq_self_eq_true]
            rfl
          · rw [Function.update_of_ne same, beq_false_of_ne same]
            rfl

theorem storeAll_eq_iff (mem : Loc → Cell) (writes : List (Loc × Cell)) :
    storeAll mem writes = mem ↔ InPlace mem writes := by
  constructor
  · intro same loc cell last
    have here := congrFun same loc
    rw [storeAll_apply, last, Option.getD_some] at here
    exact here.symm
  · intro inPlace
    ext loc
    rw [storeAll_apply]
    cases last : writes.reverse.lookup loc with
    | none => rfl
    | some cell => exact (inPlace loc cell last).symm

/-- The stores that the loop makes before an index is refused. -/
def written (granted : Side → Nat → Prop) [∀ side i, Decidable (granted side i)]
    (loc : Nat → Loc) (cell : Nat → Cell) : Nat → Nat → List (Loc × Cell)
  | 0, _ => []
  | remaining + 1, i =>
      if granted .source i ∧ granted .target i then
        (loc i, cell i) :: written granted loc cell remaining (i + 1)
      else []

/-- The loop as a list of stores. -/
theorem copy_eq_storeAll {granted : Side → Nat → Prop} [∀ side i, Decidable (granted side i)]
    {loc : Nat → Loc} {cell : Nat → Cell} (lift : (Loc → Cell) → State)
    (fetched : ∀ i mem, granted .source i → fetch i (lift mem) = (0, cell i, lift mem))
    (refused : ∀ i mem, ¬ granted .source i →
      (fetch i (lift mem)).1 ≠ 0 ∧ (fetch i (lift mem)).2.2 = lift mem)
    (stored : ∀ i cell mem, granted .target i →
      store i cell (lift mem) = (0, lift (Function.update mem (loc i) cell)))
    (denied : ∀ i cell mem, ¬ granted .target i →
      (store i cell (lift mem)).1 ≠ 0 ∧ (store i cell (lift mem)).2 = lift mem)
    (remaining i : Nat) (mem : Loc → Cell) :
    copy fetch store remaining i (lift mem) =
      (if ∀ j < remaining, granted .source (i + j) ∧ granted .target (i + j) then 0 else -1,
        lift (storeAll mem (written granted loc cell remaining i))) := by
  induction remaining generalizing i mem with
  | zero => rw [copy, written, if_pos (fun j early => absurd early (Nat.not_lt_zero j)), storeAll,
      List.foldl_nil]
  | succ remaining inductionHypothesis =>
      rw [copy, written]
      by_cases source : granted .source i
      · rw [fetched i mem source]
        dsimp only
        rw [if_neg (not_not.mpr rfl)]
        by_cases target : granted .target i
        · rw [stored i (cell i) mem target]
          dsimp only
          rw [if_neg (not_not.mpr rfl), inductionHypothesis (i + 1), if_pos (And.intro source target),
            storeAll, storeAll, List.foldl_cons]
          refine Prod.ext (if_congr ?_ rfl rfl) rfl
          constructor
          · intro all j early
            cases j with
            | zero => exact ⟨source, target⟩
            | succ j =>
                rw [show i + (j + 1) = i + 1 + j by omega]
                exact all j (by omega)
          · intro all j early
            rw [show i + 1 + j = i + (j + 1) by omega]
            exact all (j + 1) (by omega)
        · have neither : ¬ (granted .source i ∧ granted .target i) := fun both => target both.2
          have some : ¬ ∀ j < remaining + 1, granted .source (i + j) ∧ granted .target (i + j) :=
            fun all => target (all 0 (Nat.succ_pos remaining)).2
          have failed := denied i (cell i) mem target
          generalize store i (cell i) (lift mem) = write at failed ⊢
          rcases write with ⟨status, after⟩
          dsimp only at failed ⊢
          rw [if_pos failed.1, failed.2, if_neg neither, if_neg some]
          rfl
      · have neither : ¬ (granted .source i ∧ granted .target i) := fun both => source both.1
        have some : ¬ ∀ j < remaining + 1, granted .source (i + j) ∧ granted .target (i + j) :=
          fun all => source (all 0 (Nat.succ_pos remaining)).1
        have failed := refused i mem source
        generalize fetch i (lift mem) = read at failed ⊢
        rcases read with ⟨status, fetchedCell, after⟩
        dsimp only at failed ⊢
        rw [if_pos failed.1, failed.2, if_neg neither, if_neg some]
        rfl

end Memory

end CopyLoop
end Ossim
