import Ossim.Library.Transition
import Ossim.Memory.RegionTable
import Ossim.Kernel.Process

namespace Ossim
namespace Kernel

open Memory

/-!
# The kernel bump allocator over sequences of calls

Two entry points carve chunks out of one pool, for any process and any size.
A history is the kernel state together with the chunks that successful calls
have handed out, newest first.

The limit test adds the break and the size as `int`s.  As long as the sum stays
below `2 ^ 31` the pool behaves: the break stays inside, and every chunk lies
between the chunks before it and the break.  A sum that wraps passes the test
and makes the break negative.
-/

inductive KmemCall
  | malloc (caller : ProcRef) (size regIndex : BitVec 32)
  | poolCreate (caller : ProcRef) (size align cachePoolId : BitVec 32)
  deriving DecidableEq, Repr

structure KmemHistory where
  os : Os
  chunks : List VmRgStruct

/-- The chunk of a successful call, read back from where the call records it:
the symbol table of the caller, or the pool table. -/
def handedOut (after : Os) : KmemCall → Option VmRgStruct
  | .malloc caller _ regIndex =>
      (getSymrgByid regIndex.toNat).map fun slot => (after.mm caller).symrgtbl slot
  | .poolCreate _ _ _ cachePoolId =>
      (poolIndex cachePoolId).map fun pool =>
        let state := after.kmem.pools pool
        ⟨state.storage, state.storage + ofInt state.size, .kernel⟩

def execCall (os : Os) : KmemCall → Int × Os
  | .malloc caller size regIndex => libkmemMalloc os caller size regIndex
  | .poolCreate caller size align cachePoolId =>
      libkmemCachePoolCreate os caller size align cachePoolId

/-- One call: a successful one adds its chunk to the history. -/
def kmemStep (history : KmemHistory) (call : KmemCall) : Option KmemHistory :=
  let (ret, after) := execCall history.os call
  some ⟨after, if ret = 0 then (handedOut after call).toList ++ history.chunks
    else history.chunks⟩

/-- In one state of a run the chunks lie apart from each other in the pool. -/
structure PoolSound (history : KmemHistory) : Prop where
  lower : 0 ≤ history.os.kmem.brk
  upper : history.os.kmem.brk ≤ KMEM_POOL_SIZE
  inside : ∀ chunk ∈ history.chunks,
    KMEM_VBASE.toNat ≤ chunk.rgStart.toNat ∧ chunk.rgStart.toNat ≤ chunk.rgEnd.toNat ∧
      chunk.rgEnd.toNat ≤ KMEM_VBASE.toNat + KMEM_POOL_SIZE
  disjoint : history.chunks.Pairwise VmRgStruct.Apart

/-- The size of a call that passes the checks before the carve. -/
def carveSize (os : Os) : KmemCall → Option Int
  | .malloc caller size regIndex =>
      if (os.procs caller).isNone ∨ PAGING_MAX_SYMTBL_SZ ≤ regIndex.toNat then none
      else some size.toInt
  | .poolCreate caller size align cachePoolId =>
      if (os.procs caller).isNone ∨ align = 0 then none
      else (poolIndex cachePoolId).bind fun pool =>
        if (os.kmem.pools pool).used then none else some size.toInt

/-- The sum of the limit test does not wrap. -/
def SumFits (history : KmemHistory) (call : KmemCall) : Prop :=
  ∀ size ∈ carveSize history.os call, history.os.kmem.brk + size < 2 ^ 31

/-! ## One call -/

/-- The carve inverted: nothing, or the range from the old break on. -/
theorem kmemCarve_cases (kmem : Kmem) (size : Int) :
    ((size ≤ 0 ∨ (KMEM_POOL_SIZE : Int) < wrapInt (kmem.brk + size)) ∧
        kmemCarve kmem size = (0, kmem)) ∨
      (0 < size ∧ wrapInt (kmem.brk + size) ≤ KMEM_POOL_SIZE ∧
        kmemCarve kmem size =
          (KMEM_VBASE + ofInt kmem.brk, { kmem with brk := wrapInt (kmem.brk + size) })) := by
  unfold kmemCarve
  by_cases exhausted : size ≤ 0 ∨ wrapInt (kmem.brk + size) > KMEM_POOL_SIZE
  · exact Or.inl ⟨exhausted, if_pos exhausted⟩
  · rw [if_neg exhausted]
    push Not at exhausted
    exact Or.inr ⟨exhausted.1, exhausted.2, rfl⟩

/-- A positive size is the same number in either width. -/
theorem ofInt_toInt (size : BitVec 32) (positive : 0 < size.toInt) :
    ofInt size.toInt = size.setWidth 64 := by
  apply BitVec.eq_of_toNat_eq
  have value := toNat_ofInt size.toInt
  have narrow := size.isLt
  rw [BitVec.toInt_eq_toNat_cond] at value positive ⊢
  rw [BitVec.toNat_setWidth]
  split at positive
  · next small =>
      rw [if_pos small] at value ⊢
      omega
  · omega

/-- A region id below the bound names its slot, whatever the width. -/
theorem setSymrg_below {os : Os} {caller : ProcRef} {regIndex : BitVec 32}
    (below : ¬ PAGING_MAX_SYMTBL_SZ ≤ regIndex.toNat) (rg : VmRgStruct) :
    ∃ slot, getSymrgByid regIndex.toNat = some slot ∧
      os.setSymrg caller regIndex.toNat rg =
        os.setMm caller ((os.mm caller).setRegion slot rg) := by
  have inside : 0 ≤ (regIndex.toNat : Int) ∧ (regIndex.toNat : Int) < 30 := by
    unfold PAGING_MAX_SYMTBL_SZ at below
    omega
  rcases getSymrgByid_of_inside inside with ⟨slot, named⟩
  refine ⟨slot, named, ?_⟩
  rw [Os.setSymrg, named]
  rfl

theorem execCall_cases (os : Os) (call : KmemCall) :
    (carveSize os call = none ∧ execCall os call = (-1, os)) ∨
      ∃ size, carveSize os call = some size ∧ size < 2 ^ 31 ∧
        (((kmemCarve os.kmem size).1 = 0 ∧
            execCall os call = (-1, os.setKmem (kmemCarve os.kmem size).2)) ∨
          ((kmemCarve os.kmem size).1 ≠ 0 ∧ ∃ after chunk, execCall os call = (0, after) ∧
            after.kmem.brk = (kmemCarve os.kmem size).2.brk ∧
            handedOut after call = some chunk ∧
            chunk.rgStart = (kmemCarve os.kmem size).1 ∧
            chunk.rgEnd = (kmemCarve os.kmem size).1 + ofInt size)) := by
  cases call with
  | malloc caller size regIndex =>
      unfold carveSize execCall libkmemMalloc
      dsimp only
      by_cases refused : (os.procs caller).isNone = true ∨
          PAGING_MAX_SYMTBL_SZ ≤ regIndex.toNat
      · rw [if_pos refused, if_pos refused]
        exact Or.inl ⟨rfl, rfl⟩
      · rw [if_neg refused, if_neg refused]
        refine Or.inr ⟨size.toInt, rfl, BitVec.toInt_lt, ?_⟩
        push Not at refused
        by_cases exhausted : (kmemCarve os.kmem size.toInt).1 = 0
        · rw [if_pos exhausted]
          exact Or.inl ⟨exhausted, rfl⟩
        · rw [if_neg exhausted]
          have live : (os.procs caller).isSome = true :=
            Option.isNone_eq_false_iff.mp (Bool.eq_false_of_not_eq_true refused.1)
          rcases kmemCarve_cases os.kmem size.toInt with ⟨_, nothing⟩ | ⟨positive, _, _⟩
          · rw [nothing] at exhausted
            exact absurd rfl exhausted
          · set rg : VmRgStruct := ⟨(kmemCarve os.kmem size.toInt).1,
              (kmemCarve os.kmem size.toInt).1 + size.setWidth 64, .kernel⟩ with rgDef
            rcases @setSymrg_below (os.setKmem (kmemCarve os.kmem size.toInt).2) caller _
              (Nat.not_le.mpr refused.2) rg with ⟨slot, named, stored⟩
            refine Or.inr ⟨exhausted, _, rg, rfl, ?_, ?_, rfl, ?_⟩
            · rw [stored]
              rfl
            · rw [stored, handedOut, named, Option.map_some, Os.mm_setMm_self (by exact live)]
              exact congrArg some (Function.update_self _ _ _)
            · rw [ofInt_toInt size positive]
  | poolCreate caller size align cachePoolId =>
      unfold carveSize execCall libkmemCachePoolCreate
      dsimp only
      by_cases refused : (os.procs caller).isNone = true ∨ align = 0
      · rw [if_pos refused, if_pos refused]
        exact Or.inl ⟨rfl, rfl⟩
      · rw [if_neg refused, if_neg refused]
        cases chosen : poolIndex cachePoolId with
        | none => exact Or.inl ⟨rfl, rfl⟩
        | some pool =>
            dsimp only [Option.bind_some]
            unfold kmemPoolReserve
            by_cases used : (os.kmem.pools pool).used = true
            · rw [if_pos used, if_pos used]
              exact Or.inl ⟨rfl, rfl⟩
            · rw [if_neg used, if_neg used]
              refine Or.inr ⟨size.toInt, rfl, BitVec.toInt_lt, ?_⟩
              dsimp only
              by_cases exhausted : (kmemCarve os.kmem size.toInt).1 = 0
              · rw [if_pos exhausted]
                exact Or.inl ⟨exhausted, rfl⟩
              · rw [if_neg exhausted]
                refine Or.inr ⟨exhausted, _, ⟨(kmemCarve os.kmem size.toInt).1,
                  (kmemCarve os.kmem size.toInt).1 + ofInt size.toInt, .kernel⟩, rfl, rfl, ?_,
                  rfl, rfl⟩
                rw [handedOut, chosen, Option.map_some]
                simp

/-- One call in terms of the break and the chunks. -/
theorem kmemStep_cases {history after : KmemHistory} {call : KmemCall}
    (taken : kmemStep history call = some after) :
    (carveSize history.os call = none ∧ after.os.kmem.brk = history.os.kmem.brk ∧
        after.chunks = history.chunks) ∨
      ∃ size, carveSize history.os call = some size ∧ size < 2 ^ 31 ∧
        after.os.kmem.brk = (kmemCarve history.os.kmem size).2.brk ∧
        (((kmemCarve history.os.kmem size).1 = 0 ∧ after.chunks = history.chunks) ∨
          (kmemCarve history.os.kmem size).1 ≠ 0 ∧ ∃ chunk : VmRgStruct,
            after.chunks = chunk :: history.chunks ∧
            chunk.rgStart = (kmemCarve history.os.kmem size).1 ∧
            chunk.rgEnd = (kmemCarve history.os.kmem size).1 + ofInt size) := by
  rw [kmemStep] at taken
  rcases execCall_cases history.os call with
    ⟨absent, outcome⟩ | ⟨size, asked, bound, ⟨exhausted, outcome⟩ |
      ⟨given, carved, chunk, outcome, brk, recorded, start, finish⟩⟩
  · rw [outcome] at taken
    cases taken
    exact Or.inl ⟨absent, rfl, rfl⟩
  · rw [outcome] at taken
    cases taken
    exact Or.inr ⟨size, asked, bound, rfl, Or.inl ⟨exhausted, rfl⟩⟩
  · rw [outcome] at taken
    cases taken
    refine Or.inr ⟨size, asked, bound, brk, Or.inr ⟨given, chunk, ?_, start, finish⟩⟩
    dsimp only
    rw [if_pos rfl, recorded]
    rfl

/-! ## Runs -/

/-- What a run keeps: the same with the chunks below the break. -/
private structure Carved (history : KmemHistory) : Prop where
  lower : 0 ≤ history.os.kmem.brk
  upper : history.os.kmem.brk ≤ KMEM_POOL_SIZE
  below : ∀ chunk ∈ history.chunks,
    KMEM_VBASE.toNat ≤ chunk.rgStart.toNat ∧ chunk.rgStart.toNat ≤ chunk.rgEnd.toNat ∧
      (chunk.rgEnd.toNat : Int) ≤ KMEM_VBASE.toNat + history.os.kmem.brk
  disjoint : history.chunks.Pairwise VmRgStruct.Apart

private theorem Carved.poolSound {history : KmemHistory} (carved : Carved history) :
    PoolSound history where
  lower := carved.lower
  upper := carved.upper
  inside := by
    intro chunk member
    have bounds := carved.below chunk member
    have upper := carved.upper
    exact ⟨bounds.1, bounds.2.1, by omega⟩
  disjoint := carved.disjoint

private theorem Carved.step {history after : KmemHistory} {call : KmemCall}
    (carved : Carved history) (fits : SumFits history call)
    (taken : kmemStep history call = some after) : Carved after := by
  have base : KMEM_VBASE.toNat = 2 ^ 56 := by decide
  have pool : (KMEM_POOL_SIZE : Int) = 65536 := rfl
  have lower := carved.lower
  have upper := carved.upper
  rcases kmemStep_cases taken with
    ⟨_, brk, chunks⟩ | ⟨size, asked, bound, brk, outcome⟩
  · exact ⟨brk ▸ lower, brk ▸ upper, by rw [chunks, brk]; exact carved.below,
      chunks ▸ carved.disjoint⟩
  · have small := fits size asked
    rcases kmemCarve_cases history.os.kmem size with
      ⟨_, nothing⟩ | ⟨positive, room, cut⟩
    · rw [nothing] at brk outcome
      rcases outcome with ⟨_, chunks⟩ | ⟨given, _⟩
      · exact ⟨brk ▸ lower, brk ▸ upper, by rw [chunks, brk]; exact carved.below,
          chunks ▸ carved.disjoint⟩
      · exact absurd rfl given
    · have sum := wrapInt_of_small (history.os.kmem.brk + size) (by omega) small
      rw [cut] at brk outcome
      dsimp only at brk outcome
      rw [sum] at brk room
      have oldBreak := toNat_ofInt history.os.kmem.brk
      have length := toNat_ofInt size
      have address : (KMEM_VBASE + ofInt history.os.kmem.brk).toNat =
          2 ^ 56 + history.os.kmem.brk.toNat := by
        rw [BitVec.toNat_add, base]
        omega
      rcases outcome with ⟨given, _⟩ | ⟨_, chunk, chunks, start, finish⟩
      · have zero := congrArg BitVec.toNat given
        rw [address] at zero
        exact absurd zero (by simp)
      · have first : chunk.rgStart.toNat = 2 ^ 56 + history.os.kmem.brk.toNat := by
          rw [start, address]
        have last : chunk.rgEnd.toNat = 2 ^ 56 + history.os.kmem.brk.toNat + size.toNat := by
          rw [finish, BitVec.toNat_add, address]
          omega
        refine ⟨by omega, by omega, ?_, ?_⟩
        · intro other member
          rw [chunks, List.mem_cons] at member
          rcases member with same | old
          · subst same
            omega
          · have bounds := carved.below other old
            omega
        · rw [chunks, List.pairwise_cons]
          refine ⟨fun other old => VmRgStruct.apart_of_above ?_, carved.disjoint⟩
          have bounds := carved.below other old
          omega

/-- A sum that wraps makes the break negative. -/
private theorem sumFits_of_poolSound {history after : KmemHistory} {call : KmemCall}
    (sound : PoolSound history) (taken : kmemStep history call = some after)
    (later : PoolSound after) : SumFits history call := by
  have pool : (KMEM_POOL_SIZE : Int) = 65536 := rfl
  have lower := sound.lower
  have upper := sound.upper
  intro size asked
  by_contra large
  rcases kmemStep_cases taken with ⟨absent, _⟩ | ⟨carveSize, same, bound, brk, _⟩
  · rw [absent] at asked
    cases asked
  · rw [same, Option.mem_some_iff] at asked
    subst asked
    have wrapped : wrapInt (history.os.kmem.brk + carveSize) =
        history.os.kmem.brk + carveSize - 2 ^ 32 := by
      rw [wrapInt, BitVec.toInt_ofInt, Int.bmod_def]
      omega
    rcases kmemCarve_cases history.os.kmem carveSize with ⟨refused, _⟩ | ⟨_, _, cut⟩
    · rw [wrapped] at refused
      omega
    · rw [cut] at brk
      have negative := later.lower
      rw [brk] at negative
      dsimp only at negative
      omega

/-- The pool is sound in every state of a run exactly when no call of the run
makes the sum of the limit test wrap. -/
theorem kmem_runs_sound_iff (os : Os) (calls : List KmemCall) (finish : KmemHistory) :
    (Transition.RunWhere kmemStep (fun history _ => PoolSound history)
          ⟨os.setKmem Kmem.initial, []⟩ calls finish ∧ PoolSound finish) ↔
      Transition.RunWhere kmemStep SumFits ⟨os.setKmem Kmem.initial, []⟩ calls finish := by
  have start : Carved ⟨os.setKmem Kmem.initial, []⟩ := by
    refine ⟨le_refl 0, ?_, ?_, List.Pairwise.nil⟩
    · exact Int.natCast_nonneg KMEM_POOL_SIZE
    · intro chunk member
      cases member
  constructor
  · rintro ⟨path, final⟩
    induction path with
    | nil => exact .nil
    | snoc _ sound taken inductionHypothesis =>
        exact .snoc (inductionHypothesis sound) (sumFits_of_poolSound sound taken final) taken
  · intro path
    have kept : ∀ {calls finish}, Transition.RunWhere kmemStep SumFits
        ⟨os.setKmem Kmem.initial, []⟩ calls finish → Carved finish := fun path =>
      path.invariant Carved start fun _ _ _ carved fits taken => carved.step fits taken
    refine ⟨?_, (kept path).poolSound⟩
    induction path with
    | nil => exact .nil
    | snoc before fits taken inductionHypothesis =>
        exact .snoc inductionHypothesis (kept before).poolSound taken

/-- One byte, and then a size near the limit of an `int`: both calls succeed and
the break is negative. -/
theorem not_kmem_runs_sound :
    ¬ ∀ (os : Os) (calls : List KmemCall) (finish : KmemHistory),
      Transition.Run kmemStep ⟨os.setKmem Kmem.initial, []⟩ calls finish → PoolSound finish := by
  intro sound
  have path : Transition.RunWhere kmemStep (fun _ _ => True)
      ⟨(load (boot 0 0 nullHeads) [] 0).setKmem Kmem.initial, []⟩
      [.malloc 1 1 0, .malloc 1 0x7FFFFFFF 1] ((Transition.exec kmemStep (fun _ _ => True)
        ⟨(load (boot 0 0 nullHeads) [] 0).setKmem Kmem.initial, []⟩
        [.malloc 1 1 0, .malloc 1 0x7FFFFFFF 1]).get (by decide +kernel)) :=
    Transition.runWhere_of_exec (Option.some_get _).symm
  exact absurd (sound _ _ _ path.run).lower (by decide +kernel)

end Kernel
end Ossim
