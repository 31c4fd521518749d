import Ossim.Library.Transition
import Ossim.Memory.FrameNodes

namespace Ossim
namespace FrameNodes

open Memory LinkedCells Transition

/-!
# The nodes of a device from its format to its end

`init_memphy` makes the nodes of a device, every request and every release of a
frame replaces some, and `finish_memphy` frees them.  On any sequence of calls in
between, the nodes show the free list of the device model, no call meets a node
that is not live, and nothing of the nodes is left at the end.
-/

variable {Ptr : Type} [DecidableEq Ptr] (allocator : Allocator Ptr Addr)
variable {ram : Ram Ptr} {head : Option Ptr} {taken frames : List Addr} {rest : Content Ptr Addr}

/-! ## Formatting -/

theorem formatLoop_holds (remaining iter : Nat) {store : Store Ptr Addr} {fst : Ptr}
    (built : Built store.get head (some fst) taken none [] rest) (begun : head ≠ none) :
    ∃ after, formatLoop allocator remaining iter fst store = some after ∧
      Holds after.get head (taken ++ (List.range' iter remaining).map (BitVec.ofNat 64)) none []
        rest := by
  induction remaining generalizing iter store fst taken with
  | zero =>
      rw [List.range'_zero, List.map_nil, List.append_nil]
      exact ⟨store, rfl, _, built⟩
  | succ remaining inductionHypothesis =>
      rcases built.hang allocator begun (BitVec.ofNat 64 iter) with ⟨last, linked, same, set, grown⟩
      cases same
      rcases inductionHypothesis (iter + 1) grown with ⟨after, looped, holds⟩
      refine ⟨after, ?_, ?_⟩
      · rw [formatLoop]
        dsimp only
        rw [set]
        exact looped
      · rw [List.range'_succ, List.map_cons]
        rw [List.append_assoc] at holds
        exact holds

/-- Formatting makes the nodes of the frames that the device has. -/
theorem initMemphy_holds (store : Store Ptr Addr) (maxSize : Addr) (randomflg : Int) :
    ∃ ram, initMemphy allocator store maxSize = some ram ∧
      Holds ram.store.get none [] ram.freeFpList
        (Memory.initMemphy maxSize randomflg).freeFpList store.get := by
  rw [freeFpList_initMemphy, frameCount]
  by_cases empty : Int.tdiv (asInt maxSize) 256 ≤ 0
  · refine ⟨⟨store, none⟩, ?_, ?_⟩
    · rw [initMemphy, memphyFormat]
      dsimp only
      rw [if_pos empty]
      rfl
    · rw [Int.toNat_eq_zero.mpr empty]
      exact holds_nothing
  · have nothing : Holds store.get none [] none [] store.get := holds_nothing
    have first := nothing.built_nil.begin allocator 0
    rcases formatLoop_holds allocator ((Int.tdiv (asInt maxSize) 256).toNat - 1) 1 first
      (Option.some_ne_none _) with ⟨after, looped, holds⟩
    refine ⟨⟨after, some (store.new allocator ⟨0, none⟩).1⟩, ?_, ?_⟩
    · rw [initMemphy, memphyFormat]
      dsimp only
      rw [if_neg empty, looped]
      rfl
    · have split : (Int.tdiv (asInt maxSize) 256).toNat =
          ((Int.tdiv (asInt maxSize) 256).toNat - 1) + 1 := by omega
      rw [split, List.range_eq_range', List.range'_succ, List.map_cons]
      exact holds.symm

/-! ## Mapping -/

/-- Both loops of `vmap_page_range` together: the nodes of the request are all
freed, and each frame is in an entry or back on the list. -/
theorem vmapPageLoop_holds (pgnStart : Addr) (pgnum : Int) (pgit : Nat) (mm : MmStruct)
    (mram : MemphyStruct)
    (holds : Holds ram.store.get head taken ram.freeFpList mram.freeFpList rest) :
    ∃ fpit left after,
      vmapPageLoop allocator pgnStart (pgnum - pgit).toNat pgit head mm ram =
        some (fpit, (Memory.vmapPageLoop pgnStart pgnum pgit taken mm mram).1, left) ∧
      putFrames allocator left.store.size fpit left = some after ∧
      Holds after.store.get none [] after.freeFpList
        (Memory.vmapPageLoop pgnStart pgnum pgit taken mm mram).2.freeFpList rest := by
  induction taken generalizing pgit mm mram ram head with
  | nil =>
      have empty := holds.head_eq_none_iff.mpr rfl
      subst empty
      refine ⟨none, ram, ram, ?_, by rw [putFrames], holds⟩
      cases (pgnum - pgit).toNat <;> rfl
  | cons fpn taken inductionHypothesis =>
      by_cases wanted : (pgit : Int) < pgnum
      · rcases Nat.exists_eq_succ_of_ne_zero (show (pgnum - pgit).toNat ≠ 0 by omega) with
          ⟨remaining, count⟩
        have later : (pgnum - (pgit + 1 : Nat)).toNat = remaining := by omega
        rcases holds.take with ⟨fp, next, freed, rfl, held, released, left⟩
        rw [count, Memory.vmapPageLoop, if_pos wanted, vmapPageLoop, held, Option.bind_some]
        dsimp only
        rcases pteSetFpn mm (pgnStart + BitVec.ofNat 64 pgit) fpn with ⟨ret, stored⟩
        dsimp only
        by_cases mapped : ret = 0
        · rcases @inductionHypothesis ⟨freed, ram.freeFpList⟩ next (pgit + 1)
            (enlistPgnNode stored (pgnStart + BitVec.ofNat 64 pgit)) mram left with
            ⟨fpit, back, after, looped, returned, rejoined⟩
          refine ⟨fpit, back, after, ?_, returned, ?_⟩
          · rw [if_pos mapped, if_pos mapped]
            dsimp only
            rw [released, Option.bind_some, ← later]
            exact looped
          · rw [if_pos mapped]
            exact rejoined
        · rcases holds.transfer allocator with ⟨other, follower, moved, same, read, released, left⟩
          cases same
          rw [held] at read
          cases read
          rcases @inductionHypothesis ⟨moved, (memphyPutFreefp allocator ram fpn).freeFpList⟩ next
            (pgit + 1) stored (Memory.memphyPutFreefp mram fpn) left with
            ⟨fpit, back, after, looped, returned, rejoined⟩
          have freed : (memphyPutFreefp allocator ram fpn).store.free fp = some moved := released
          refine ⟨fpit, back, after, ?_, returned, ?_⟩
          · rw [if_neg mapped, if_neg mapped]
            dsimp only
            rw [freed, Option.bind_some, ← later]
            exact looped
          · rw [if_neg mapped]
            exact rejoined
      · have done : (pgnum - pgit).toNat = 0 := by omega
        rcases putFrames_holds allocator holds.length_le_size holds with ⟨after, returned, left⟩
        refine ⟨head, ram, after, ?_, returned, ?_⟩
        · rw [done, Memory.vmapPageLoop, if_neg wanted, vmapPageLoop]
        · rw [Memory.vmapPageLoop, if_neg wanted, foldl_memphyPutFreefp]
          exact left

/-- `vm_map_range` does on nodes what it does on lists. -/
theorem vmMapRange_holds (mm : MmStruct) (mram : MemphyStruct) (mapstart : Addr) (incpgnum : Int)
    (holds : Holds ram.store.get none [] ram.freeFpList mram.freeFpList rest) :
    ∃ after, vmMapRange allocator mm ram mapstart incpgnum =
        some ((Memory.vmMapRange mm mram mapstart incpgnum).1,
          (Memory.vmMapRange mm mram mapstart incpgnum).2.1, after) ∧
      Holds after.store.get none [] after.freeFpList
        (Memory.vmMapRange mm mram mapstart incpgnum).2.2.freeFpList rest := by
  rcases allocPagesRange_holds allocator mram incpgnum holds with
    ⟨frmLst, taken, allocated, split⟩
  rw [vmMapRange, allocated, Memory.vmMapRange, Option.bind_some]
  rw [Memory.allocPagesRange_eq] at split ⊢
  by_cases enough : incpgnum.toNat ≤ mram.freeFpList.length
  · rw [if_pos enough] at split ⊢
    dsimp only at split ⊢
    rw [if_neg (not_not_intro rfl), if_neg (not_not_intro rfl)]
    rcases vmapPageLoop_holds allocator (mapstart / PAGING_PAGESZ) incpgnum 0 mm
      { mram with freeFpList := mram.freeFpList.drop incpgnum.toNat } split with
      ⟨fpit, left, after, looped, returned, rejoined⟩
    refine ⟨after, ?_, rejoined⟩
    rw [Int.natCast_zero, Int.sub_zero] at looped
    rw [vmapPageRange, looped, Option.bind_some]
    dsimp only
    rw [returned]
    rfl
  · have failed : ofInt (-1) ≠ 0 := by decide
    rw [if_neg enough] at split ⊢
    dsimp only at split ⊢
    rw [if_pos failed, if_pos failed]
    have empty := split.head_eq_none_iff.mpr rfl
    subst empty
    exact ⟨taken, rfl, split⟩

/-! ## The end -/

omit allocator in
theorem freeNodes_eq (steps : Nat) (head : Option Ptr) (store : Store Ptr Addr) :
    freeNodes steps head store = Store.freeList steps head store := by
  induction steps generalizing head store with
  | zero => cases head <;> rfl
  | succ steps inductionHypothesis =>
      cases head with
      | none => rfl
      | some fp =>
          rw [freeNodes, Store.freeList]
          simp only [inductionHypothesis]

/-- `finish_memphy` frees the nodes of the free list and nothing else. -/
theorem finishMemphy_holds (holds : Holds ram.store.get none [] ram.freeFpList frames rest) :
    ∃ after, finishMemphy ram = some after ∧ after.freeFpList = none ∧ after.store.get = rest := by
  rcases holds.symm.freeList holds.symm.length_le_size with ⟨store, freed, nothing⟩
  refine ⟨⟨store, none⟩, ?_, rfl, nothing.content_eq⟩
  rw [finishMemphy, freeNodes_eq, freed]
  rfl

/-! ## Runs -/

/-- A call that takes frames from a device or gives one back. -/
inductive Call
  | memphyGetFreefp
  | memphyPutFreefp (fpn : Addr)
  | vmMapRange (mapstart : Addr) (incpgnum : Int)

/-- What a call returns: a frame, if any, or a code. -/
inductive Reply
  | frame (fpn : Option Addr)
  | code (ret : Addr)
  deriving DecidableEq

/-- A memory map and a device, with the replies so far. -/
structure Session (Device : Type) where
  mm : MmStruct
  device : Device
  replies : List Reply

def step (session : Session (Ram Ptr)) : Call → Option (Session (Ram Ptr))
  | .memphyGetFreefp =>
      (memphyGetFreefp session.device).map fun (fpn, next) =>
        ⟨session.mm, next, session.replies ++ [.frame fpn]⟩
  | .memphyPutFreefp fpn =>
      some ⟨session.mm, memphyPutFreefp allocator session.device fpn,
        session.replies ++ [.code 0]⟩
  | .vmMapRange mapstart incpgnum =>
      (vmMapRange allocator session.mm session.device mapstart incpgnum).map
        fun (ret, mm, next) => ⟨mm, next, session.replies ++ [.code ret]⟩

/-- The same call on the device model. -/
def listStep (session : Session MemphyStruct) : Call → Session MemphyStruct
  | .memphyGetFreefp =>
      match Memory.memphyGetFreefp session.device with
      | none => { session with replies := session.replies ++ [.frame none] }
      | some (fpn, next) => ⟨session.mm, next, session.replies ++ [.frame (some fpn)]⟩
  | .memphyPutFreefp fpn =>
      ⟨session.mm, Memory.memphyPutFreefp session.device fpn, session.replies ++ [.code 0]⟩
  | .vmMapRange mapstart incpgnum =>
      let (ret, mm, next) := Memory.vmMapRange session.mm session.device mapstart incpgnum
      ⟨mm, next, session.replies ++ [.code ret]⟩

/-- The nodes of a session show the list of the other, next to other memory. -/
structure Shows (rest : Content Ptr Addr) (session : Session (Ram Ptr))
    (model : Session MemphyStruct) : Prop where
  mm : session.mm = model.mm
  replies : session.replies = model.replies
  nodes : Holds session.device.store.get none [] session.device.freeFpList model.device.freeFpList
    rest

theorem Shows.step {session : Session (Ram Ptr)} {model : Session MemphyStruct}
    (shows : Shows rest session model) (call : Call) :
    ∃ after, FrameNodes.step allocator session call = some after ∧
      Shows rest after (listStep model call) := by
  rcases session with ⟨mm, ram, replies⟩
  rcases model with ⟨_, mram, _⟩
  rcases shows with ⟨rfl, rfl, nodes⟩
  dsimp only at nodes
  cases call with
  | memphyGetFreefp =>
      cases free : mram.freeFpList with
      | nil =>
          rw [free] at nodes
          refine ⟨⟨mm, ram, replies ++ [.frame none]⟩, ?_, ?_⟩
          · rw [FrameNodes.step, memphyGetFreefp_dry nodes.built_nil]
            rfl
          · rw [listStep, Memory.memphyGetFreefp, free]
            refine ⟨rfl, rfl, ?_⟩
            rw [free]
            exact nodes
      | cons fpn frames =>
          rw [free] at nodes
          rcases memphyGetFreefp_listed nodes.built_nil with ⟨after, got, left⟩
          refine ⟨⟨mm, after, replies ++ [.frame (some fpn)]⟩, ?_, ?_⟩
          · rw [FrameNodes.step, got]
            rfl
          · rw [listStep, Memory.memphyGetFreefp, free]
            exact ⟨rfl, rfl, _, left⟩
  | memphyPutFreefp fpn => exact ⟨_, rfl, rfl, rfl, memphyPutFreefp_holds allocator nodes fpn⟩
  | vmMapRange mapstart incpgnum =>
      rcases vmMapRange_holds allocator mm mram mapstart incpgnum nodes with ⟨after, done, left⟩
      refine ⟨⟨(Memory.vmMapRange mm mram mapstart incpgnum).2.1, after,
        replies ++ [.code (Memory.vmMapRange mm mram mapstart incpgnum).1]⟩, ?_, rfl, rfl, left⟩
      rw [FrameNodes.step, done]
      rfl

/-- From its format on, the nodes of a device show the free list of the device
model after any calls, none of which gets stuck, and the end of the device leaves
the heap as it was before the beginning. -/
theorem run_shows (store : Store Ptr Addr) (maxSize : Addr) (randomflg : Int) (mm : MmStruct)
    (trace : List Call) :
    ∃ ram session, initMemphy allocator store maxSize = some ram ∧
      Run (step allocator) ⟨mm, ram, []⟩ trace session ∧
      Shows store.get session
        (trace.foldl listStep ⟨mm, Memory.initMemphy maxSize randomflg, []⟩) ∧
      ∃ after, finishMemphy session.device = some after ∧ after.freeFpList = none ∧
        after.store.get = store.get := by
  rcases initMemphy_holds allocator store maxSize randomflg with ⟨ram, formatted, nodes⟩
  have initial : Shows store.get ⟨mm, ram, []⟩ ⟨mm, Memory.initMemphy maxSize randomflg, []⟩ :=
    ⟨rfl, rfl, nodes⟩
  rcases exists_run_of_simulation listStep (Shows store.get) _ initial
    (fun _ _ call shows => shows.step allocator call) trace with ⟨session, path, shows⟩
  exact ⟨ram, session, formatted, path, shows, finishMemphy_holds shows.nodes⟩

end FrameNodes
end Ossim
