import Ossim.Kernel.Copies
import Ossim.Kernel.Regions
import Ossim.Kernel.Residency

namespace Ossim
namespace Kernel

open Memory CopyLoop

/-!
# Accesses that stay in the storage

In a reachable state an access through a page table reaches a cell of the RAM
that exists.  Reading such a cell changes nothing, and storing to it changes
nothing else.  The copies between the two spaces become lists of stores to one
memory, which end before the first index that is refused.
-/

/-! ## Single accesses -/

/-- The state with other bytes in the RAM. -/
def Os.setRamBytes (os : Os) (bytes : Addr → Byte) : Os :=
  os.setMram { os.mram with storage := bytes }

/-- The state with other bytes in the kernel pool. -/
def Os.setPoolBytes (os : Os) (bytes : Int → Byte) : Os :=
  os.setKmem { os.kmem with storage := bytes }

/-- Byte access in a state whose frames all lie in the storage. -/
structure Os.Plain (os : Os) (caller : ProcRef) : Prop where
  unswapped : os.Unswapped caller
  random : os.mram.rdmflg = true
  inStorage : os.InStorage

theorem pgGetval_plain {os : Os} {caller : ProcRef} (plain : os.Plain caller) (addr : Addr) :
    pgGetval os addr caller =
      match os.translate caller addr with
      | none => (-1, 0, os)
      | some phyaddr =>
          if os.Resolves caller then (0, os.mram.storage phyaddr, os) else (-1, 0, os) := by
  rw [pgGetval_unswapped plain.unswapped plain.random]
  cases found : os.translate caller addr with
  | none => rfl
  | some phyaddr =>
      dsimp only
      rw [touch_of_inside (plain.inStorage.translate_lt found)]
      rfl

theorem pgSetval_plain {os : Os} {caller : ProcRef} (plain : os.Plain caller) (addr : Addr)
    (value : Byte) :
    pgSetval os addr value caller =
      match os.translate caller addr with
      | none => (-1, os)
      | some phyaddr =>
          if os.Resolves caller then
            (0, os.setRamBytes (Function.update os.mram.storage phyaddr value))
          else (-1, os) := by
  rw [pgSetval_unswapped plain.unswapped plain.random]
  cases found : os.translate caller addr with
  | none => rfl
  | some phyaddr =>
      dsimp only
      rw [store_of_inside (plain.inStorage.translate_lt found)]
      rfl

/-- Changing bytes keeps accesses plain. -/
theorem Os.Plain.setRamBytes {os : Os} {caller : ProcRef} (plain : os.Plain caller)
    (bytes : Addr → Byte) : (os.setRamBytes bytes).Plain caller :=
  ⟨plain.unswapped, plain.random, plain.inStorage.spare, plain.inStorage.mapped⟩

theorem Os.Plain.setPoolBytes {os : Os} {caller : ProcRef} (plain : os.Plain caller)
    (bytes : Int → Byte) : (os.setPoolBytes bytes).Plain caller :=
  ⟨plain.unswapped, plain.random, plain.inStorage.spare, plain.inStorage.mapped⟩

/-! ## Copies as lists of stores -/

instance (os : Os) (caller : ProcRef) (addr : Addr) : Decidable (os.Grants caller addr) :=
  inferInstanceAs (Decidable (_ ∧ _))

instance (os : Os) (caller : ProcRef) (src dst : VmRgStruct) (offset : BitVec 32) (side : Side)
    (i : Nat) : Decidable (fromUserGranted os caller src dst offset side i) := by
  cases side <;> unfold fromUserGranted <;> infer_instance

instance (os : Os) (caller : ProcRef) (src dst : VmRgStruct) (offset : BitVec 32) (side : Side)
    (i : Nat) : Decidable (toUserGranted os caller src dst offset side i) := by
  cases side <;> unfold toUserGranted <;> infer_instance

/-- The cell of the RAM behind a user address that is granted. -/
def Os.userCell (os : Os) (caller : ProcRef) (addr : Addr) : Addr :=
  (os.translate caller addr).getD 0

/-- The stores to the pool that a copy from user space makes. -/
def fromUserStores (os : Os) (caller : ProcRef) (src dst : VmRgStruct)
    (offset size : BitVec 32) : List (Int × Byte) :=
  written (fromUserGranted os caller src dst offset) (fun i => kmemOffset (cellAddr dst offset i))
    (fun i => os.mram.storage (os.userCell caller (cellAddr src offset i))) size.toNat 0

/-- The stores to the RAM that a copy to user space makes. -/
def toUserStores (os : Os) (caller : ProcRef) (src dst : VmRgStruct)
    (offset size : BitVec 32) : List (Addr × Byte) :=
  written (toUserGranted os caller src dst offset)
    (fun i => os.userCell caller (cellAddr dst offset i))
    (fun i => os.kmem.storage (kmemOffset (cellAddr src offset i))) size.toNat 0

theorem userCell_of_grants {os : Os} {caller : ProcRef} {addr : Addr}
    (granted : os.Grants caller addr) :
    os.Resolves caller ∧ os.translate caller addr = some (os.userCell caller addr) := by
  rcases Option.isSome_iff_exists.mp granted.2 with ⟨phyaddr, found⟩
  refine ⟨granted.1, ?_⟩
  rw [Os.userCell, found, Option.getD_some]

theorem pgGetval_of_grants {os : Os} {caller : ProcRef} (plain : os.Plain caller) {addr : Addr}
    (granted : os.Grants caller addr) :
    pgGetval os addr caller = (0, os.mram.storage (os.userCell caller addr), os) := by
  rcases userCell_of_grants granted with ⟨resolves, found⟩
  rw [pgGetval_plain plain, found]
  exact if_pos resolves

theorem pgGetval_of_not_grants {os : Os} {caller : ProcRef} (plain : os.Plain caller)
    {addr : Addr} (refused : ¬ os.Grants caller addr) : pgGetval os addr caller = (-1, 0, os) := by
  rw [pgGetval_plain plain]
  cases found : os.translate caller addr with
  | none => rfl
  | some phyaddr =>
      have unresolved : ¬ os.Resolves caller := fun resolves =>
        refused ⟨resolves, by rw [found]; rfl⟩
      exact if_neg unresolved

theorem pgSetval_of_grants {os : Os} {caller : ProcRef} (plain : os.Plain caller) {addr : Addr}
    (granted : os.Grants caller addr) (value : Byte) :
    pgSetval os addr value caller =
      (0, os.setRamBytes
        (Function.update os.mram.storage (os.userCell caller addr) value)) := by
  rcases userCell_of_grants granted with ⟨resolves, found⟩
  rw [pgSetval_plain plain, found]
  exact if_pos resolves

theorem pgSetval_of_not_grants {os : Os} {caller : ProcRef} (plain : os.Plain caller)
    {addr : Addr} (refused : ¬ os.Grants caller addr) (value : Byte) :
    pgSetval os addr value caller = (-1, os) := by
  rw [pgSetval_plain plain]
  cases found : os.translate caller addr with
  | none => rfl
  | some phyaddr =>
      have unresolved : ¬ os.Resolves caller := fun resolves =>
        refused ⟨resolves, by rw [found]; rfl⟩
      exact if_neg unresolved

/-- The loop of `libkmem_copy_from_user` in a state with plain accesses. -/
theorem copyFromUserLoop_plain {os : Os} {caller : ProcRef} (plain : os.Plain caller)
    (src dst : VmRgStruct) (offset size : BitVec 32) :
    copyFromUserLoop caller src dst offset size.toNat 0 os =
      (if ∀ i < size.toNat, fromUserGranted os caller src dst offset .source i ∧
          fromUserGranted os caller src dst offset .target i then 0 else -1,
        os.setPoolBytes
          (storeAll os.kmem.storage (fromUserStores os caller src dst offset size))) := by
  have failed : (-1 : Int) ≠ 0 := by decide
  have stores : copy (fetchUser caller src offset) (storeKernel dst offset) size.toNat 0
      (os.setPoolBytes os.kmem.storage) =
        (if ∀ i < size.toNat, fromUserGranted os caller src dst offset .source (0 + i) ∧
            fromUserGranted os caller src dst offset .target (0 + i) then 0 else -1,
          os.setPoolBytes
            (storeAll os.kmem.storage (fromUserStores os caller src dst offset size))) := by
    refine copy_eq_storeAll os.setPoolBytes ?_ ?_ ?_ ?_ size.toNat 0 os.kmem.storage
    · intro i bytes granted
      exact pgGetval_of_grants (plain.setPoolBytes bytes) granted
    · intro i bytes refused
      rw [fetchUser, pgGetval_of_not_grants (plain.setPoolBytes bytes) refused]
      exact ⟨failed, rfl⟩
    · intro i b bytes granted
      have kernel : kmemAddrIsKernel (cellAddr dst offset i) = true := granted
      unfold storeKernel kmemWriteByte
      rw [kernel]
      rfl
    · intro i b bytes refused
      have user := Bool.eq_false_of_not_eq_true refused
      unfold storeKernel kmemWriteByte
      rw [user]
      exact ⟨failed, rfl⟩
  simp only [Nat.zero_add] at stores
  rw [copyFromUserLoop_eq]
  exact stores

/-- The loop of `libkmem_copy_to_user` in a state with plain accesses. -/
theorem copyToUserLoop_plain {os : Os} {caller : ProcRef} (plain : os.Plain caller)
    (src dst : VmRgStruct) (offset size : BitVec 32) :
    copyToUserLoop caller src dst offset size.toNat 0 os =
      (if ∀ i < size.toNat, toUserGranted os caller src dst offset .source i ∧
          toUserGranted os caller src dst offset .target i then 0 else -1,
        os.setRamBytes
          (storeAll os.mram.storage (toUserStores os caller src dst offset size))) := by
  have failed : (-1 : Int) ≠ 0 := by decide
  have stores : copy (fetchKernel src offset) (storeUser caller dst offset) size.toNat 0
      (os.setRamBytes os.mram.storage) =
        (if ∀ i < size.toNat, toUserGranted os caller src dst offset .source (0 + i) ∧
            toUserGranted os caller src dst offset .target (0 + i) then 0 else -1,
          os.setRamBytes
            (storeAll os.mram.storage (toUserStores os caller src dst offset size))) := by
    refine copy_eq_storeAll os.setRamBytes ?_ ?_ ?_ ?_ size.toNat 0 os.mram.storage
    · intro i bytes granted
      have kernel : kmemAddrIsKernel (cellAddr src offset i) = true := granted
      unfold fetchKernel kmemReadByte
      rw [kernel]
      rfl
    · intro i bytes refused
      have user := Bool.eq_false_of_not_eq_true refused
      unfold fetchKernel kmemReadByte
      rw [user]
      exact ⟨failed, rfl⟩
    · intro i b bytes granted
      exact pgSetval_of_grants (plain.setRamBytes bytes) granted b
    · intro i b bytes refused
      rw [storeUser, pgSetval_of_not_grants (plain.setRamBytes bytes) refused]
      exact ⟨failed, rfl⟩
  simp only [Nat.zero_add] at stores
  rw [copyToUserLoop_eq]
  exact stores

/-! ## Reachable states -/

/-- No access has left its array in a reachable state. -/
theorem Os.Defined.kernelStep {os after : Os} (defined : os.Defined) (sound : os.Sound)
    {action : KernelAction} (taken : kernelStep os action = some after) : after.Defined := by
  cases kernelStep_effect taken with
  | run proc live after => exact after
  | load => exact defined
  | getProc => exact defined
  | putProc => exact defined
  | removeProc => exact defined
  | freePcb freed =>
      rcases freePcb_cases sound freed with ⟨spare, outcome, _⟩
      rw [outcome]
      exact defined

/-- The break of the pool is an `int`. -/
def Os.IntBreak (os : Os) : Prop := -2 ^ 31 ≤ os.kmem.brk ∧ os.kmem.brk < 2 ^ 31

theorem wrapInt_bounds (value : Int) : -2 ^ 31 ≤ wrapInt value ∧ wrapInt value < 2 ^ 31 :=
  ⟨BitVec.le_toInt _, BitVec.toInt_lt⟩

theorem RegionEffect.brk {ins : Inst} {resolves : Prop} {mm : MmStruct} {kmem : Kmem}
    {status : Int} {after : Regions} (effect : RegionEffect ins resolves mm kmem status after) :
    after.brk = kmem.brk ∨ ∃ value, after.brk = wrapInt value := by
  cases effect with
  | carved | reserved | wasted => exact Or.inr ⟨_, rfl⟩
  | _ => exact Or.inl rfl

/-- What holds of a reachable state for byte accesses and for the pool. -/
structure Os.Accessible (os : Os) : Prop where
  sound : os.Sound
  inStorage : os.InStorage
  defined : os.Defined
  intBreak : os.IntBreak

theorem Os.Accessible.plain {os : Os} (accessible : os.Accessible) (caller : ProcRef) :
    os.Plain caller :=
  ⟨accessible.sound.unswapped caller, accessible.sound.mramRandom, accessible.inStorage⟩

theorem Os.IntBreak.kernelStep {os after : Os} (intBreak : os.IntBreak) (sound : os.Sound)
    {action : KernelAction} (taken : kernelStep os action = some after) : after.IntBreak := by
  unfold Os.IntBreak at intBreak ⊢
  rcases kernelStep_regions sound taken with
    ⟨_, same⟩ | ⟨caller, _, _, _, _, _, effect, _⟩ | ⟨freed, _, regions⟩
  · have brk : after.kmem.brk = os.kmem.brk := congrArg Regions.brk (same 0)
    rw [brk]
    exact intBreak
  · rcases effect.brk with same | ⟨value, wrapped⟩
    · have brk : after.kmem.brk = os.kmem.brk := same
      rw [brk]
      exact intBreak
    · have brk : after.kmem.brk = wrapInt value := wrapped
      rw [brk]
      exact wrapInt_bounds value
  · have brk : after.kmem.brk = os.kmem.brk := by
      have here := congrArg Regions.brk (regions freed)
      rw [if_pos rfl] at here
      exact here
    rw [brk]
    exact intBreak

theorem Reachable.accessible {memramsz memswpsz : Addr} {os : Os}
    (reached : Reachable memramsz memswpsz os) : os.Accessible := by
  rcases reached with ⟨freergHeads, trace, path⟩
  refine path.invariant Os.Accessible ?_ ?_
  · refine ⟨sound_boot memramsz memswpsz freergHeads, inStorage_boot memramsz memswpsz freergHeads, ⟨rfl, ?_, ?_⟩, ?_⟩
    · exact fault_initMemphy memramsz 1
    · exact fault_initMemphy memswpsz 1
    · have zero : (boot memramsz memswpsz freergHeads).kmem.brk = 0 := rfl
      rw [Os.IntBreak, zero]
      decide
  · intro before action after accessible taken
    exact ⟨accessible.sound.kernelStep taken,
      accessible.inStorage.kernelStep accessible.sound taken,
      accessible.defined.kernelStep accessible.sound taken,
      accessible.intBreak.kernelStep accessible.sound taken⟩

end Kernel
end Ossim
