import Ossim.Library.LinkedCells
import Ossim.Memory.FrameTable

namespace Ossim
namespace FrameNodes

open Memory LinkedCells

/-!
# Free frames as nodes of the C heap

`Physical` and `Mapping` give a device a list of frame numbers, and a request for
frames returns a list.  The code has `framephy_struct` nodes: a free list is
popped and pushed at its head, a request is collected at its tail, and every
transfer frees one node and allocates another.  The functions below follow
`mm-memphy.c` and `mm64.c` on that representation.  `none` stands for an access
to a node that is not live, or for a loop that visits more nodes than there are.

A node has `fpn` as its value.  Its `owner` is never used.
-/

/-- A device, as far as its free frames go. -/
structure Ram (Ptr : Type) where
  store : Store Ptr Addr
  freeFpList : Option Ptr

variable {Ptr : Type} [DecidableEq Ptr] (allocator : Allocator Ptr Addr)

/-! ## The free list -/

/-- The loop of `MEMPHY_format`, for so many more frames. -/
def formatLoop : Nat → Nat → Ptr → Store Ptr Addr → Option (Store Ptr Addr)
  | 0, _, _, store => some store
  | remaining + 1, iter, fst, store =>
      let (newfst, grown) := store.new allocator ⟨BitVec.ofNat 64 iter, none⟩
      (grown.setNext fst (some newfst)).bind fun linked =>
        formatLoop remaining (iter + 1) newfst linked

def memphyFormat (ram : Ram Ptr) (maxsz pagesz : Int) : Option (Int × Ram Ptr) :=
  let numfp := Int.tdiv maxsz pagesz
  if numfp ≤ 0 then some (-1, ram)
  else
    let (fst, store) := ram.store.new allocator ⟨0, none⟩
    (formatLoop allocator (numfp.toNat - 1) 1 fst store).map fun store => (0, ⟨store, some fst⟩)

/-- `init_memphy` on a heap that may hold anything else. -/
def initMemphy (store : Store Ptr Addr) (maxSize : Addr) : Option (Ram Ptr) :=
  (memphyFormat allocator ⟨store, none⟩ (asInt maxSize) 256).map Prod.snd

/-- `MEMPHY_get_freefp`: no frame for the return code −1. -/
def memphyGetFreefp (ram : Ram Ptr) : Option (Option Addr × Ram Ptr) :=
  match ram.freeFpList with
  | none => some (none, ram)
  | some fp =>
      (ram.store.get fp).bind fun node =>
        (ram.store.free fp).map fun store => (some node.value, ⟨store, node.next⟩)

def memphyPutFreefp (ram : Ram Ptr) (fpn : Addr) : Ram Ptr :=
  let (newnode, store) := ram.store.new allocator ⟨fpn, ram.freeFpList⟩
  ⟨store, some newnode⟩

/-- Append a node for a frame to a list that is kept by its head and its tail. -/
def appendNode (store : Store Ptr Addr) (head tail : Option Ptr) (fpn : Addr) :
    Option (Option Ptr × Option Ptr × Store Ptr Addr) :=
  let (newfp, grown) := store.new allocator ⟨fpn, none⟩
  if head = none then some (some newfp, some newfp, grown)
  else
    tail.bind fun last =>
      (grown.setNext last (some newfp)).map fun linked => (head, some newfp, linked)

/-- The first loop of `finish_memphy`, for at most so many steps. -/
def freeNodes : Nat → Option Ptr → Store Ptr Addr → Option (Store Ptr Addr)
  | _, none, store => some store
  | 0, some _, _ => none
  | steps + 1, some fp, store =>
      (store.get fp).bind fun node =>
        (store.free fp).bind fun left => freeNodes steps node.next left

def finishMemphy (ram : Ram Ptr) : Option (Ram Ptr) :=
  (freeNodes ram.store.size ram.freeFpList ram.store).map fun store => ⟨store, none⟩

/-! ## Ranges of frames -/

/-- The loop that gives the frames of a list back one by one, for at most so many
steps. -/
def putFrames : Nat → Option Ptr → Ram Ptr → Option (Ram Ptr)
  | _, none, ram => some ram
  | 0, some _, _ => none
  | steps + 1, some head, ram =>
      (ram.store.get head).bind fun node =>
        let returned := memphyPutFreefp allocator ram node.value
        (returned.store.free head).bind fun store =>
          putFrames steps node.next { returned with store := store }

/-- The loop of `alloc_pages_range`. -/
def allocPagesLoop :
    Nat → Option Ptr → Option Ptr → Ram Ptr → Option (Addr × Option Ptr × Ram Ptr)
  | 0, head, _, ram => some (0, head, ram)
  | remaining + 1, head, tail, ram =>
      (memphyGetFreefp ram).bind fun
        | (none, dry) =>
            (putFrames allocator dry.store.size head dry).map fun back => (ofInt (-1), none, back)
        | (some fpn, taken) =>
            (appendNode allocator taken.store head tail fpn).bind fun (head, tail, store) =>
              allocPagesLoop remaining head tail { taken with store := store }

/-- `alloc_pages_range`: the return code and what is stored to `frm_lst`. -/
def allocPagesRange (ram : Ram Ptr) (reqPgnum : Int) : Option (Addr × Option Ptr × Ram Ptr) :=
  allocPagesLoop allocator reqPgnum.toNat none none ram

/-- The first loop of `vmap_page_range`, for so many more pages. -/
def vmapPageLoop (pgnStart : Addr) :
    Nat → Nat → Option Ptr → MmStruct → Ram Ptr → Option (Option Ptr × MmStruct × Ram Ptr)
  | 0, _, fpit, mm, ram => some (fpit, mm, ram)
  | _ + 1, _, none, mm, ram => some (none, mm, ram)
  | remaining + 1, pgit, some fpit, mm, ram =>
      (ram.store.get fpit).bind fun node =>
        let pgn := pgnStart + BitVec.ofNat 64 pgit
        let (ret, stored) := pteSetFpn mm pgn node.value
        let (mapped, left) :=
          if ret = 0 then (enlistPgnNode stored pgn, ram)
          else (stored, memphyPutFreefp allocator ram node.value)
        (left.store.free fpit).bind fun store =>
          vmapPageLoop pgnStart remaining (pgit + 1) node.next mapped { left with store := store }

def vmapPageRange (mm : MmStruct) (ram : Ram Ptr) (addr : Addr) (pgnum : Int)
    (frames : Option Ptr) : Option (MmStruct × Ram Ptr) :=
  (vmapPageLoop allocator (addr / PAGING_PAGESZ) pgnum.toNat 0 frames mm ram).bind
    fun (fpit, mapped, left) =>
      (putFrames allocator left.store.size fpit left).map fun back => (mapped, back)

def vmMapRange (mm : MmStruct) (ram : Ram Ptr) (mapstart : Addr) (incpgnum : Int) :
    Option (Addr × MmStruct × Ram Ptr) :=
  (allocPagesRange allocator ram incpgnum).bind fun (ret, frmLst, taken) =>
    if ret ≠ 0 then some (ofInt (-1), mm, taken)
    else
      (vmapPageRange allocator mm taken mapstart incpgnum frmLst).map fun (mapped, left) =>
        (0, mapped, left)

/-! ## The lists of the device model -/

section Lists

variable {ram : Ram Ptr} {head tail : Option Ptr} {taken frames : List Addr}
variable {rest : Content Ptr Addr}

theorem memphyGetFreefp_dry (built : Built ram.store.get head tail taken ram.freeFpList [] rest) :
    memphyGetFreefp ram = some (none, ram) := by
  have empty := (Holds.symm ⟨_, built⟩).head_eq_none_iff.mpr rfl
  rw [memphyGetFreefp, empty]

theorem memphyGetFreefp_listed {fpn : Addr}
    (built : Built ram.store.get head tail taken ram.freeFpList (fpn :: frames) rest) :
    ∃ after, memphyGetFreefp ram = some (some fpn, after) ∧
      Built after.store.get head tail taken after.freeFpList frames rest := by
  rcases built.take with ⟨fp, next, store, first, held, freed, left⟩
  refine ⟨⟨store, next⟩, ?_, left⟩
  rw [memphyGetFreefp, first]
  dsimp only
  rw [held, Option.bind_some, freed]
  rfl

theorem memphyPutFreefp_holds (holds : Holds ram.store.get head taken ram.freeFpList frames rest)
    (fpn : Addr) :
    Holds (memphyPutFreefp allocator ram fpn).store.get head taken
      (memphyPutFreefp allocator ram fpn).freeFpList (fpn :: frames) rest :=
  holds.push allocator fpn

/-- Frames that are given back one by one end up in reverse. -/
theorem putFrames_holds {steps : Nat} (enough : taken.length ≤ steps)
    (holds : Holds ram.store.get head taken ram.freeFpList frames rest) :
    ∃ after, putFrames allocator steps head ram = some after ∧
      Holds after.store.get none [] after.freeFpList (taken.reverse ++ frames) rest := by
  induction taken generalizing steps head ram frames with
  | nil =>
      have empty := holds.head_eq_none_iff.mpr rfl
      subst empty
      exact ⟨ram, by rw [putFrames], holds⟩
  | cons fpn taken inductionHypothesis =>
      rcases Nat.exists_eq_succ_of_ne_zero (Nat.ne_zero_of_lt enough) with ⟨steps, rfl⟩
      rcases holds.transfer allocator with ⟨fp, next, store, rfl, held, freed, moved⟩
      rcases @inductionHypothesis ⟨store, (memphyPutFreefp allocator ram fpn).freeFpList⟩ next
        (fpn :: frames) steps (Nat.le_of_succ_le_succ enough) moved with ⟨after, returned, left⟩
      refine ⟨after, ?_, ?_⟩
      · have released : (memphyPutFreefp allocator ram fpn).store.free fp = some store := freed
        rw [putFrames, held, Option.bind_some]
        dsimp only
        rw [released]
        exact returned
      · rw [List.reverse_cons, List.append_assoc]
        exact left

theorem appendNode_built (built : Built ram.store.get head tail taken ram.freeFpList frames rest)
    (fpn : Addr) :
    ∃ first last store, appendNode allocator ram.store head tail fpn = some (first, last, store) ∧
      Built store.get first last (taken ++ [fpn]) ram.freeFpList frames rest := by
  by_cases empty : head = none
  · have none := built.head_eq_none_iff.mp empty
    subst none
    refine ⟨_, _, _, ?_, built.begin allocator fpn⟩
    rw [appendNode]
    dsimp only
    rw [if_pos empty]
  · rcases built.hang allocator empty fpn with ⟨last, store, rfl, linked, grown⟩
    refine ⟨_, _, store, ?_, grown⟩
    rw [appendNode]
    dsimp only
    rw [if_neg empty, Option.bind_some, linked]
    rfl

/-- The loop stays in step with the one on lists: what is collected so far hangs
behind `head`, and the last node of it is at `tail`. -/
theorem allocPagesLoop_holds (remaining : Nat) (mram : MemphyStruct)
    (built : Built ram.store.get head tail taken ram.freeFpList mram.freeFpList rest) :
    ∃ frmLst after, allocPagesLoop allocator remaining head tail ram =
        some ((Memory.allocPagesLoop remaining mram taken).1, frmLst, after) ∧
      Holds after.store.get frmLst (Memory.allocPagesLoop remaining mram taken).2.1
        after.freeFpList (Memory.allocPagesLoop remaining mram taken).2.2.freeFpList rest := by
  induction remaining generalizing ram head tail taken mram with
  | zero => exact ⟨head, ram, rfl, _, built⟩
  | succ remaining inductionHypothesis =>
      rw [Memory.allocPagesLoop, Memory.memphyGetFreefp, allocPagesLoop]
      cases free : mram.freeFpList with
      | nil =>
          rw [free] at built
          rcases putFrames_holds allocator (Holds.length_le_size ⟨_, built⟩) ⟨_, built⟩ with
            ⟨after, returned, left⟩
          refine ⟨none, after, ?_, ?_⟩
          · rw [memphyGetFreefp_dry built, Option.bind_some]
            dsimp only
            rw [returned]
            rfl
          · rw [foldl_memphyPutFreefp, free]
            exact left
      | cons fpn frames =>
          rw [free] at built
          rcases memphyGetFreefp_listed built with ⟨popped, got, left⟩
          rcases appendNode_built allocator left fpn with ⟨first, last, store, appended, grown⟩
          rcases @inductionHypothesis ⟨store, popped.freeFpList⟩ first last (taken ++ [fpn])
            { mram with freeFpList := frames } grown with ⟨frmLst, after, looped, holds⟩
          refine ⟨frmLst, after, ?_, holds⟩
          rw [got, Option.bind_some]
          dsimp only
          rw [appended, Option.bind_some]
          exact looped

theorem allocPagesRange_holds (mram : MemphyStruct) (reqPgnum : Int)
    (holds : Holds ram.store.get none [] ram.freeFpList mram.freeFpList rest) :
    ∃ frmLst after, allocPagesRange allocator ram reqPgnum =
        some ((Memory.allocPagesRange mram reqPgnum).1, frmLst, after) ∧
      Holds after.store.get frmLst (Memory.allocPagesRange mram reqPgnum).2.1
        after.freeFpList (Memory.allocPagesRange mram reqPgnum).2.2.freeFpList rest := by
  apply allocPagesLoop_holds
  exact holds.built_nil

end Lists

/-! ## Requests -/

/-- The free list ends, and it names these frames. -/
def Ram.Lists (ram : Ram Ptr) (frames : List Addr) : Prop :=
  ∃ nodes, values nodes = frames ∧ Segment ram.store.get ram.freeFpList nodes none

theorem Ram.Lists.holds {ram : Ram Ptr} {frames : List Addr} (lists : ram.Lists frames) :
    ∃ rest, Holds ram.store.get none [] ram.freeFpList frames rest := by
  rcases lists with ⟨nodes, named, segment⟩
  exact ⟨_, _, [], nodes, rfl, named, rfl, parts_of_segment segment⟩

/-- A request for frames is granted just when there are enough.  Then it takes
the first ones in order; otherwise all frames are back on the list.  No node is
lost and no other memory is touched. -/
theorem allocPagesRange_allOrNothing (allocator : Allocator Ptr Addr) (ram : Ram Ptr)
    (frames : List Addr) (lists : ram.Lists frames) (reqPgnum : Int) :
    ∃ rest ret frmLst after, Holds ram.store.get none [] ram.freeFpList frames rest ∧
      allocPagesRange allocator ram reqPgnum = some (ret, frmLst, after) ∧
      (ret = 0 ↔ reqPgnum ≤ frames.length) ∧
      (ret = 0 → Holds after.store.get frmLst (frames.take reqPgnum.toNat) after.freeFpList
        (frames.drop reqPgnum.toNat) rest) ∧
      (ret ≠ 0 → frmLst = none ∧ ∃ left,
        Holds after.store.get none [] after.freeFpList left rest ∧ left.Perm frames) := by
  rcases lists.holds with ⟨rest, holds⟩
  -- On lists, only the free list of the device matters.
  have listed := @allocPagesRange_holds _ _ allocator ram rest
    { Memory.initMemphy 0 0 with freeFpList := frames } reqPgnum holds
  rw [Memory.allocPagesRange_eq] at listed
  dsimp only at listed
  by_cases enough : reqPgnum.toNat ≤ frames.length
  · rw [if_pos enough] at listed
    rcases listed with ⟨frmLst, after, allocated, left⟩
    refine ⟨rest, 0, frmLst, after, holds, allocated, iff_of_true rfl ?_, fun _ => left, ?_⟩
    · omega
    · exact fun impossible => absurd rfl impossible
  · rw [if_neg enough] at listed
    rcases listed with ⟨frmLst, after, allocated, left⟩
    have failed : ofInt (-1) ≠ 0 := by decide
    have empty := left.head_eq_none_iff.mpr rfl
    subst empty
    refine ⟨rest, ofInt (-1), none, after, holds, allocated, iff_of_false failed ?_,
      fun impossible => absurd impossible failed, fun _ => ⟨rfl, _, left, List.reverse_perm _⟩⟩
    omega

/-- A device of three frames, just formatted. -/
def threeFrames : Ram Nat := (initMemphy (.above Addr) ⟨∅, 0⟩ 768).get (by decide +kernel)

/-- Two of three frames are granted, and four are not. -/
theorem allocPagesRange_allOrNothing_threeFrames :
    (∃ rest frmLst after, allocPagesRange (.above Addr) threeFrames 2 = some (0, frmLst, after) ∧
      Holds after.store.get frmLst [0, 1] after.freeFpList [2] rest) ∧
    ∃ rest ret after left, allocPagesRange (.above Addr) threeFrames 4 = some (ret, none, after) ∧
      ret ≠ 0 ∧ Holds after.store.get none [] after.freeFpList left rest ∧
        left.Perm [0, 1, 2] := by
  have lists : threeFrames.Lists [0, 1, 2] :=
    ⟨[(1, 0), (2, 1), (3, 2)], rfl, .cons rfl (.cons rfl (.cons rfl .nil))⟩
  constructor
  · rcases allocPagesRange_allOrNothing (.above Addr) threeFrames [0, 1, 2] lists 2 with
      ⟨rest, ret, frmLst, after, _, allocated, granted, all, _⟩
    have zero : ret = 0 := granted.mpr (by decide)
    rw [zero] at allocated
    exact ⟨rest, frmLst, after, allocated, all zero⟩
  · rcases allocPagesRange_allOrNothing (.above Addr) threeFrames [0, 1, 2] lists 4 with
      ⟨rest, ret, frmLst, after, _, allocated, granted, _, nothing⟩
    have nonzero : ret ≠ 0 := mt granted.mp (by decide)
    rcases nothing nonzero with ⟨rfl, left, holds, permuted⟩
    exact ⟨rest, ret, after, left, allocated, nonzero, holds, permuted⟩

end FrameNodes
end Ossim
