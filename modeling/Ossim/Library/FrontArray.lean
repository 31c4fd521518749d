import Mathlib.Data.List.OfFn
import Mathlib.Tactic

namespace Ossim

/-!
# Arrays with a front part in use

An array of fixed capacity and the number of its cells in use, which are the
first ones.  The cells behind them are left over and may hold anything.

`entries` lists the cells in use.  Adding a value behind them, closing the gap of
a removed one by moving each later cell to the left, and looking for the first
cell that passes a test are loops over the array; on `entries` they are the
operations of lists.
-/

structure FrontArray (Value : Type*) (capacity : Nat) where
  cells : Fin capacity → Value
  size : Nat
  bounded : size ≤ capacity

namespace FrontArray

variable {Value : Type*} {capacity : Nat}

/-- The cells in use, in order. -/
def entries (array : FrontArray Value capacity) : List Value :=
  List.ofFn fun index : Fin array.size => array.cells (index.castLE array.bounded)

@[simp] theorem length_entries (array : FrontArray Value capacity) :
    array.entries.length = array.size := List.length_ofFn

theorem getElem?_entries (array : FrontArray Value capacity) (index : Fin capacity) :
    array.entries[index.val]? = if index.val < array.size then some (array.cells index) else none := by
  rw [entries, List.getElem?_ofFn]
  rfl

/-- Lists of cells are equal when they agree at the indices of the array. -/
theorem entries_eq_of_cells {array : FrontArray Value capacity} {values : List Value}
    (length : values.length = array.size)
    (cells : ∀ index : Fin capacity, index.val < array.size →
      values[index.val]? = some (array.cells index)) : array.entries = values := by
  apply List.ext_getElem?
  intro place
  by_cases inside : place < array.size
  · have within := inside.trans_le array.bounded
    have here := cells ⟨place, within⟩ inside
    have there := array.getElem?_entries ⟨place, within⟩
    rw [if_pos inside] at there
    exact there.trans here.symm
  · rw [List.getElem?_eq_none (by rw [length_entries]; omega),
      List.getElem?_eq_none (by omega)]

/-! ## Adding a value -/

def push (array : FrontArray Value capacity) (value : Value) (room : array.size < capacity) :
    FrontArray Value capacity where
  cells := Function.update array.cells ⟨array.size, room⟩ value
  size := array.size + 1
  bounded := room

theorem entries_push (array : FrontArray Value capacity) (value : Value)
    (room : array.size < capacity) :
    (array.push value room).entries = array.entries ++ [value] := by
  apply entries_eq_of_cells
  · rw [List.length_append, length_entries]
    rfl
  · intro index inside
    by_cases last : index.val = array.size
    · have same : index = ⟨array.size, room⟩ := Fin.ext last
      rw [last, ← length_entries, List.getElem?_concat_length, push, same]
      dsimp only
      rw [Function.update_self]
    · have earlier : index.val < array.size := by
        have short : index.val < array.size + 1 := inside
        omega
      have different : index ≠ ⟨array.size, room⟩ := fun same => last (congrArg Fin.val same)
      rw [List.getElem?_append_left (by rw [length_entries]; exact earlier), getElem?_entries,
        if_pos earlier, push]
      dsimp only
      rw [Function.update_of_ne different]

/-! ## Closing a gap -/

/-- `for (i = iter; i < iter + left; i++) cells[i - 1] = cells[i]`. -/
def shiftLoop (cells : Fin capacity → Value) (iter : Nat) :
    (left : Nat) → iter + left ≤ capacity → Fin capacity → Value
  | 0, _ => cells
  | left + 1, bound =>
      shiftLoop (Function.update cells ⟨iter - 1, by omega⟩ (cells ⟨iter, by omega⟩)) (iter + 1)
        left (by omega)

/-- The loop has moved the cells of its range, and no others. -/
theorem shiftLoop_apply (cells : Fin capacity → Value) {iter left : Nat} (positive : 0 < iter)
    (bound : iter + left ≤ capacity) (index : Fin capacity) :
    shiftLoop cells iter left bound index =
      if inside : iter ≤ index.val + 1 ∧ index.val + 1 < iter + left then
        cells ⟨index.val + 1, inside.2.trans_le bound⟩
      else cells index := by
  induction left generalizing cells iter with
  | zero =>
      rw [shiftLoop, dif_neg (by omega)]
  | succ left inductionHypothesis =>
      rw [shiftLoop, inductionHypothesis _ (Nat.succ_pos iter)]
      by_cases moved : iter + 1 ≤ index.val + 1 ∧ index.val + 1 < iter + 1 + left
      · have later : (⟨index.val + 1, moved.2.trans_le (by omega)⟩ : Fin capacity) ≠
            ⟨iter - 1, by omega⟩ := by
          intro same
          have places : index.val + 1 = iter - 1 := congrArg Fin.val same
          omega
        rw [dif_pos moved, dif_pos (by omega), Function.update_of_ne later]
      · rw [dif_neg moved]
        by_cases first : index.val + 1 = iter
        · have same : index = ⟨iter - 1, by omega⟩ := Fin.ext (by dsimp only; omega)
          have next : (⟨iter, by omega⟩ : Fin capacity) = ⟨index.val + 1, by omega⟩ :=
            Fin.ext first.symm
          rw [dif_pos (by omega), ← same, Function.update_self, next]
        · have different : index ≠ ⟨iter - 1, by omega⟩ := by
            intro same
            have places : index.val = iter - 1 := congrArg Fin.val same
            omega
          rw [dif_neg (by omega), Function.update_of_ne different]

/-- The cell at the gap is removed, and what is behind it moves up. -/
def closeGap (array : FrontArray Value capacity) (gap : Fin capacity) :
    FrontArray Value capacity where
  cells := shiftLoop array.cells (gap.val + 1) (array.size - (gap.val + 1)) (by
    have bounded := array.bounded
    omega)
  size := array.size - 1
  bounded := (Nat.sub_le _ _).trans array.bounded

theorem entries_closeGap (array : FrontArray Value capacity) {gap : Fin capacity}
    (inside : gap.val < array.size) :
    (array.closeGap gap).entries = array.entries.eraseIdx gap.val := by
  apply entries_eq_of_cells
  · rw [List.length_eraseIdx_of_lt (by rw [length_entries]; exact inside), length_entries]
    rfl
  · intro index short
    have used : index.val < array.size - 1 := short
    have bounded := array.bounded
    rw [closeGap]
    dsimp only
    rw [shiftLoop_apply _ (Nat.succ_pos _), List.getElem?_eraseIdx]
    by_cases earlier : index.val < gap.val
    · rw [if_pos earlier, dif_neg (by omega), getElem?_entries, if_pos (by omega)]
    · rw [if_neg earlier, dif_pos (by omega)]
      exact (array.getElem?_entries ⟨index.val + 1, by omega⟩).trans (if_pos (by dsimp only; omega))

/-! ## Looking for a cell -/

/-- `for (i = iter; i < iter + left; i++) if (test(cells[i])) return i`. -/
def searchLoop (test : Value → Bool) (cells : Fin capacity → Value) (iter : Nat) :
    (left : Nat) → iter + left ≤ capacity → Option (Fin capacity)
  | 0, _ => none
  | left + 1, bound =>
      if test (cells ⟨iter, by omega⟩) then some ⟨iter, by omega⟩
      else searchLoop test cells (iter + 1) left (by omega)

/-- The first cell in use that passes the test. -/
def search (array : FrontArray Value capacity) (test : Value → Bool) : Option (Fin capacity) :=
  searchLoop test array.cells 0 array.size (by rw [Nat.zero_add]; exact array.bounded)

theorem searchLoop_none {test : Value → Bool} {cells : Fin capacity → Value} {iter left : Nat}
    {bound : iter + left ≤ capacity} (missing : searchLoop test cells iter left bound = none)
    (index : Fin capacity) (lower : iter ≤ index.val) (upper : index.val < iter + left) :
    test (cells index) = false := by
  induction left generalizing iter with
  | zero => omega
  | succ left inductionHypothesis =>
      rw [searchLoop] at missing
      split at missing
      · cases missing
      · rename_i failed
        by_cases first : index.val = iter
        · have same : index = ⟨iter, by omega⟩ := Fin.ext first
          rw [same]
          exact Bool.not_eq_true _ ▸ failed
        · exact inductionHypothesis missing (by omega) (by omega)

theorem searchLoop_some {test : Value → Bool} {cells : Fin capacity → Value} {iter left : Nat}
    {bound : iter + left ≤ capacity} {found : Fin capacity}
    (hit : searchLoop test cells iter left bound = some found) :
    test (cells found) = true ∧ found.val < iter + left ∧
      ∀ index : Fin capacity, iter ≤ index.val → index.val < found.val →
        test (cells index) = false := by
  induction left generalizing iter with
  | zero => cases hit
  | succ left inductionHypothesis =>
      rw [searchLoop] at hit
      split at hit
      · rename_i passed
        cases hit
        refine ⟨passed, by dsimp only; omega, fun index lower upper => ?_⟩
        exact absurd upper (Nat.not_lt_of_le lower)
      · rename_i failed
        rcases inductionHypothesis hit with ⟨passed, short, before⟩
        refine ⟨passed, by omega, fun index lower upper => ?_⟩
        by_cases first : index.val = iter
        · have same : index = ⟨iter, by omega⟩ := Fin.ext first
          rw [same]
          exact Bool.not_eq_true _ ▸ failed
        · exact before index (by omega) upper

theorem mem_entries_iff (array : FrontArray Value capacity) (value : Value) :
    value ∈ array.entries ↔
      ∃ index : Fin capacity, index.val < array.size ∧ array.cells index = value := by
  rw [entries, List.mem_ofFn]
  constructor
  · rintro ⟨index, rfl⟩
    exact ⟨index.castLE array.bounded, index.isLt, rfl⟩
  · rintro ⟨index, inside, rfl⟩
    exact ⟨⟨index.val, inside⟩, rfl⟩

/-- A search without a result: no entry passes the test. -/
theorem search_none {array : FrontArray Value capacity} {test : Value → Bool}
    (missing : array.search test = none) : ∀ value ∈ array.entries, test value = false := by
  intro value member
  rcases (array.mem_entries_iff value).mp member with ⟨index, inside, rfl⟩
  exact searchLoop_none missing index (Nat.zero_le _) (by omega)

/-- A search with a result splits the entries at the first one that passes. -/
theorem search_some {array : FrontArray Value capacity} {test : Value → Bool}
    {found : Fin capacity} (hit : array.search test = some found) :
    ∃ before after, array.entries = before ++ array.cells found :: after ∧
      before.length = found.val ∧ test (array.cells found) = true ∧
      ∀ value ∈ before, test value = false := by
  rcases searchLoop_some hit with ⟨passed, short, before⟩
  have inside : found.val < array.size := by omega
  have here := array.getElem?_entries found
  rw [if_pos inside, List.getElem?_eq_some_iff] at here
  rcases here with ⟨within, entry⟩
  refine ⟨array.entries.take found.val, array.entries.drop (found.val + 1), ?_, ?_, passed, ?_⟩
  · rw [← entry, List.getElem_cons_drop, List.take_append_drop]
  · rw [List.length_take, length_entries]
    omega
  · intro value member
    rcases List.mem_take_iff_getElem.mp member with ⟨place, low, rfl⟩
    rw [length_entries] at low
    have bounded := array.bounded
    have same := array.getElem?_entries ⟨place, by omega⟩
    rw [if_pos (by dsimp only; omega), List.getElem?_eq_some_iff] at same
    rcases same with ⟨_, same⟩
    rw [same]
    exact before ⟨place, by omega⟩ (Nat.zero_le _) (by dsimp only; omega)

end FrontArray
end Ossim
