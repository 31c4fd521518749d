import Ossim.Library.Transition
import Ossim.Memory.RegionNodes

namespace Ossim
namespace RegionNodes

open Memory LinkedCells Transition

/-!
# The nodes of a memory map from `init_mm` to `free_pcb`

Any sequence of searches, releases, page entries and victims runs on the nodes
without an access to a node that is not live, gives the replies of the memory map
and keeps its lists.  Then `free_pcb` frees both lists.  What the process leaves
behind are the nodes of the released regions without bytes, one for each.
-/

variable {Ptr : Type} [DecidableEq Ptr] (allocator : Allocator Ptr Node)

/-! ## Calls -/

/-- A call that works on the lists. -/
inductive Call
  | getFreeVmrgArea (size : Int)
  | freeRegion (rgnode : VmRgStruct)
  | enlistPgnNode (pgn : Addr)
  | findVictimPage

/-- What a call returns: a region or a page, if any, or a code. -/
inductive Reply
  | region (newrg : Option VmRgStruct)
  | page (pgn : Option Addr)
  | code (ret : Int)

/-- What the calls have left, with the replies so far. -/
structure Session (State : Type) where
  state : State
  replies : List Reply

def step (session : Session (Lists Ptr)) : Call → Option (Session (Lists Ptr))
  | .getFreeVmrgArea size =>
      (getFreeVmrgArea session.state size).map fun (newrg, next) =>
        ⟨next, session.replies ++ [.region newrg]⟩
  | .freeRegion rgnode =>
      (freeRegion allocator session.state rgnode).map fun (ret, next) =>
        ⟨next, session.replies ++ [.code ret]⟩
  | .enlistPgnNode pgn =>
      some ⟨enlistPgnNode allocator session.state pgn, session.replies ++ [.code 0]⟩
  | .findVictimPage =>
      (findVictimPage session.state).map fun (pgn, next) =>
        ⟨next, session.replies ++ [.page pgn]⟩

/-- The same call on the memory map. -/
def listStep (session : Session MmStruct) : Call → Session MmStruct
  | .getFreeVmrgArea size =>
      let (newrg, mm) := Memory.getFreeVmrgArea session.state 0 size
      ⟨mm, session.replies ++ [.region newrg]⟩
  | .freeRegion rgnode =>
      let (ret, mm) := Memory.enlistVmFreergList session.state 0
        ⟨rgnode.rgStart, rgnode.rgEnd, .user⟩
      ⟨mm, session.replies ++ [.code ret]⟩
  | .enlistPgnNode pgn =>
      ⟨Memory.enlistPgnNode session.state pgn, session.replies ++ [.code 0]⟩
  | .findVictimPage =>
      match Memory.findVictimPage session.state with
      | none => { session with replies := session.replies ++ [.page none] }
      | some (pgn, mm) => ⟨mm, session.replies ++ [.page (some pgn)]⟩

/-- The region that a call releases in vain, if it does. -/
def refusedRegion : Call → Option VmRgStruct
  | .freeRegion rgnode =>
      if rgnode.rgEnd ≤ rgnode.rgStart then some ⟨rgnode.rgStart, rgnode.rgEnd, .user⟩ else none
  | _ => none

/-- The regions whose release is refused by `enlist_vm_freerg_list`. -/
def refusedRegions (trace : List Call) : List VmRgStruct := trace.filterMap refusedRegion

/-- The nodes of a session show the lists of the other, next to other memory. -/
structure Shows (rest : Content Ptr Node) (session : Session (Lists Ptr))
    (model : Session MmStruct) (area : VmAreaStruct) : Prop where
  replies : session.replies = model.replies
  single : model.state.mmap = [area]
  number : area.vmId = 0
  nodes : Holds session.state.store.get session.state.vmFreergList
    (area.vmFreergList.map .region) session.state.fifoPgn (model.state.fifoPgn.map .page) rest

/-- The other memory has got one node for each of these regions, and no others. -/
def Lost (base rest : Content Ptr Node) (regions : List VmRgStruct) : Prop :=
  ∃ lost : List (Ptr × VmRgStruct), lost.map Prod.snd = regions ∧
    Owns rest (lost.map Prod.fst) base ∧
      ∀ node ∈ lost, rest node.1 = some ⟨.region node.2, none⟩

/-! ## What is lost -/

section Lost

variable {base rest : Content Ptr Node} {regions : List VmRgStruct}

omit [DecidableEq Ptr] in
theorem lost_nothing (base : Content Ptr Node) : Lost base base [] :=
  ⟨[], rfl, ⟨List.nodup_nil, fun _ member => absurd member List.not_mem_nil, fun _ _ => rfl⟩,
    fun _ member => absurd member List.not_mem_nil⟩

theorem Lost.add (lost : Lost base rest regions) {ptr : Ptr} (dead : rest ptr = none)
    (rg : VmRgStruct) :
    Lost base (Function.update rest ptr (some ⟨.region rg, none⟩)) (regions ++ [rg]) := by
  rcases lost with ⟨nodes, rfl, owns, held⟩
  have absent : ptr ∉ nodes.map Prod.fst := by
    intro member
    rcases List.mem_map.mp member with ⟨node, listed, rfl⟩
    rw [held node listed] at dead
    cases dead
  refine ⟨nodes ++ [(ptr, rg)], List.map_append, ?_, ?_⟩
  · rw [List.map_append]
    exact (owns.add absent dead _).perm (List.perm_append_singleton ptr _)
  · intro node member
    rcases List.mem_append.mp member with earlier | last
    · have different : node.1 ≠ ptr := by
        rintro rfl
        exact absent (List.mem_map_of_mem earlier)
      rw [Function.update_of_ne different]
      exact held node earlier
    · cases List.mem_singleton.mp last
      exact Function.update_self ..

omit [DecidableEq Ptr] in
/-- The memory is as before just when nothing was lost. -/
theorem Lost.eq_iff (lost : Lost base rest regions) : rest = base ↔ regions = [] := by
  rcases lost with ⟨nodes, rfl, owns, held⟩
  cases nodes with
  | nil =>
      refine iff_of_true ?_ rfl
      funext ptr
      exact owns.outside ptr List.not_mem_nil
  | cons node nodes =>
      refine iff_of_false (fun same => ?_) (List.cons_ne_nil _ _)
      have apart := owns.apart node.1 List.mem_cons_self
      rw [← same, held node List.mem_cons_self] at apart
      cases apart

end Lost

/-! ## One call -/

section Step

variable {rest : Content Ptr Node} {lists : Lists Ptr} {mm : MmStruct} {area : VmAreaStruct}
variable {replies : List Reply}

omit [DecidableEq Ptr] in
theorem getVmaByNum_single (single : mm.mmap = [area]) (number : area.vmId = 0) :
    getVmaByNum mm 0 = some (0, area) := by
  rw [getVmaByNum, single, walkVmas, if_neg (by rw [number]; decide)]

theorem mmap_setVma_single (single : mm.mmap = [area]) (other : VmAreaStruct) :
    (mm.setVma 0 other).mmap = [other] := by
  rw [MmStruct.setVma, single]
  rfl

/-- A search: the nodes of the new list are among those of the old one. -/
theorem getFreeVmrgArea_holds (size : Int) {regions : List VmRgStruct} {back : List Node}
    (holds : Holds lists.store.get lists.vmFreergList (regions.map .region) lists.fifoPgn back
      rest) :
    ∃ after, getFreeVmrgArea lists size =
        some (((firstFit size regions).map Prod.fst).bind fun newrg =>
          if newrg.rgStart = ofInt (-1) then none else some newrg, { lists with store := after }) ∧
      Holds after.get lists.vmFreergList
        (((firstFit size regions).elim regions Prod.snd).map .region) lists.fifoPgn back rest := by
  have enough := holds.length_le_size
  rw [List.length_map] at enough
  rcases holds with ⟨_, chain, spare, firstValues, secondValues, _, parts⟩
  have whole : Parts lists.store.get lists.vmFreergList ([] ++ chain) lists.fifoPgn spare rest :=
    parts
  rcases firstFitLoop_parts size enough whole .nil parts.first firstValues with
    ⟨after, again, looped, shows, left⟩
  refine ⟨after, ?_, _, again, spare, shows, secondValues, rfl, left⟩
  rw [getFreeVmrgArea, looped]
  cases firstFit size regions with
  | none => rfl
  | some found => rfl

/-- The same search on a memory map with a single area. -/
theorem getFreeVmrgArea_single (single : mm.mmap = [area]) (number : area.vmId = 0) (size : Int) :
    ∃ after, Memory.getFreeVmrgArea mm 0 size =
        (((firstFit size area.vmFreergList).map Prod.fst).bind fun newrg =>
          if newrg.rgStart = ofInt (-1) then none else some newrg, after) ∧
      after.mmap = [{ area with
        vmFreergList := (firstFit size area.vmFreergList).elim area.vmFreergList Prod.snd }] ∧
      after.fifoPgn = mm.fifoPgn := by
  rw [Memory.getFreeVmrgArea, getVmaByNum_single single number]
  dsimp only
  cases firstFit size area.vmFreergList with
  | none => exact ⟨mm, rfl, single, rfl⟩
  | some found =>
      rcases found with ⟨newrg, left⟩
      refine ⟨mm.setVma 0 { area with vmFreergList := left }, ?_, mmap_setVma_single single _, rfl⟩
      dsimp only
      rw [Option.map_some, Option.bind_some]
      split <;> rfl

/-- The victim: the last node is unlinked and freed. -/
theorem findVictimPage_holds {front : List Node} {pages : List Addr} {pgn : Addr}
    (holds : Holds lists.store.get lists.vmFreergList front lists.fifoPgn
      ((pgn :: pages).map .page) rest) :
    ∃ last left, findVictimPage lists = some (some last, left) ∧
      (pgn :: pages).getLast? = some last ∧
      Holds left.store.get left.vmFreergList front left.fifoPgn
        ((pgn :: pages).dropLast.map .page) rest := by
  have enough := holds.symm.length_le_size
  rw [List.length_map] at enough
  rcases holds.symm with ⟨_, chain, spare, firstValues, secondValues, _, parts⟩
  cases chain with
  | nil => cases firstValues
  | cons node back =>
      rcases node with ⟨pg, value⟩
      rw [values, List.map_cons, List.map_cons] at firstValues
      rcases List.cons.inj firstValues with ⟨same, later⟩
      dsimp only at same
      subst same
      have begun := parts.first.start_of_cons
      have whole : Parts lists.store.get lists.fifoPgn ([] ++ (pg, .page pgn) :: back)
          lists.vmFreergList spare rest := parts
      have onward := parts.first
      rw [begun] at onward
      have reaches : Segment lists.store.get lists.fifoPgn [] (some pg) := begun ▸ .nil
      rcases victimLoop_parts enough whole reaches onward later with
        ⟨last, left, chain, looped, ends, kept, shows, parted⟩
      refine ⟨last, left, ?_, ends, Holds.symm ⟨_, chain, spare, shows, secondValues, rfl, parted⟩⟩
      rw [findVictimPage, begun]
      dsimp only
      rw [List.getLast?_nil, Option.map_none] at looped
      rw [looped]
      rfl

/-- One call: the same reply, the same lists, and one more node lost if it is a
release that is refused. -/
theorem Shows.step {base : Content Ptr Node} {session : Session (Lists Ptr)}
    {model : Session MmStruct} {regions : List VmRgStruct} (shows : Shows rest session model area)
    (lost : Lost base rest regions) (call : Call) :
    ∃ after rest' area', step allocator session call = some after ∧
      Shows rest' after (listStep model call) area' ∧
      Lost base rest' (regions ++ refusedRegions [call]) := by
  rcases session with ⟨lists, replies⟩
  rcases model with ⟨mm, _⟩
  rcases shows with ⟨rfl, single, number, nodes⟩
  dsimp only at single nodes
  cases call with
  | getFreeVmrgArea size =>
      rcases getFreeVmrgArea_holds size nodes with ⟨store, done, left⟩
      rcases getFreeVmrgArea_single single number size with ⟨after, found, areas, pages⟩
      refine ⟨_, rest, { area with
          vmFreergList := (firstFit size area.vmFreergList).elim area.vmFreergList Prod.snd },
        by rw [RegionNodes.step, done]; rfl, ⟨?_, ?_, number, ?_⟩, ?_⟩
      · rw [listStep, found]
      · rw [listStep, found]
        exact areas
      · rw [listStep, found]
        dsimp only
        rw [pages]
        exact left
      · exact (List.append_nil regions).symm ▸ lost
  | freeRegion rgnode =>
      let rg : VmRgStruct := ⟨rgnode.rgStart, rgnode.rgEnd, .user⟩
      let made := lists.store.new allocator ⟨.region rg, none⟩
      have dead := Store.get_new_dead allocator lists.store ⟨.region rg, none⟩
      have content : made.2.get =
          Function.update lists.store.get made.1 (some ⟨.region rg, none⟩) :=
        Store.get_new allocator lists.store ⟨.region rg, none⟩
      have live : made.2.get made.1 = some ⟨.region rg, none⟩ := by
        rw [content, Function.update_self]
      have enlisted : freeRegion allocator lists rgnode =
          if rgnode.rgEnd ≤ rgnode.rgStart then some (-1, { lists with store := made.2 })
          else (made.2.setNext made.1 lists.vmFreergList).map fun store =>
            (0, { lists with store := store, vmFreergList := some made.1 }) := by
        change (made.2.get made.1).bind _ = _
        rw [live]
        rfl
      by_cases empty : rgnode.rgEnd ≤ rgnode.rgStart
      · -- the node is neither enlisted nor freed
        rw [if_pos empty] at enlisted
        have refused : Memory.enlistVmFreergList mm 0 rg = (-1, mm) := if_pos empty
        have regionsLost : refusedRegions [.freeRegion rgnode] = [rg] :=
          List.filterMap_cons_some (if_pos empty)
        refine ⟨_, Function.update rest made.1 (some ⟨.region rg, none⟩), area,
          by rw [RegionNodes.step, enlisted]; rfl, ⟨?_, ?_, number, ?_⟩, ?_⟩
        · rw [listStep, refused]
        · rw [listStep, refused]
          exact single
        · rw [listStep, refused]
          dsimp only
          rw [content]
          exact nodes.leak dead _
        · rw [regionsLost]
          exact lost.add (nodes.dead dead) rg
      · rcases Store.setNext_of_live live lists.vmFreergList with ⟨store, linked, content'⟩
        rw [content, Function.update_idem] at content'
        rw [if_neg empty, linked] at enlisted
        have accepted : Memory.enlistVmFreergList mm 0 rg =
            (0, mm.setVma 0 { area with vmFreergList := rg :: area.vmFreergList }) := by
          rw [Memory.enlistVmFreergList, if_neg empty, getVmaByNum_single single number]
        have regionsLost : refusedRegions [.freeRegion rgnode] = [] :=
          List.filterMap_cons_none (if_neg empty)
        rcases nodes.symm with ⟨_, chain, spare, firstValues, secondValues, _, parts⟩
        have pushed := parts.push dead (.region rg)
        refine ⟨_, rest, { area with vmFreergList := rg :: area.vmFreergList },
          by rw [RegionNodes.step, enlisted]; rfl, ⟨?_, ?_, number, ?_⟩, ?_⟩
        · rw [listStep, accepted]
        · rw [listStep, accepted]
          exact mmap_setVma_single single _
        · rw [listStep, accepted]
          dsimp only
          rw [content']
          exact Holds.symm ⟨_, chain, (made.1, .region rg) :: spare, firstValues,
            congrArg (Node.region rg :: ·) secondValues, rfl, pushed⟩
        · rw [regionsLost, List.append_nil]
          exact lost
  | enlistPgnNode pgn =>
      exact ⟨_, rest, area, rfl, ⟨rfl, single, number, nodes.push allocator (.page pgn)⟩,
        (List.append_nil regions).symm ▸ lost⟩
  | findVictimPage =>
      cases pages : mm.fifoPgn with
      | nil =>
          rw [pages] at nodes
          have nobody := nodes.symm.head_eq_none_iff.mpr rfl
          have none : Memory.findVictimPage mm = none := by
            rw [Memory.findVictimPage, pages]
            rfl
          refine ⟨⟨lists, replies ++ [.page Option.none]⟩, rest, area, ?_, ⟨?_, ?_, number, ?_⟩,
            (List.append_nil regions).symm ▸ lost⟩
          · rw [RegionNodes.step, findVictimPage, nobody]
            rfl
          · rw [listStep, none]
          · rw [listStep, none]
            exact single
          · rw [listStep, none]
            dsimp only
            rw [pages]
            exact nodes
      | cons pgn others =>
          rw [pages] at nodes
          rcases findVictimPage_holds nodes with ⟨last, left, found, ends, holds⟩
          have victim : Memory.findVictimPage mm =
              some (last, { mm with fifoPgn := (pgn :: others).dropLast }) := by
            rw [Memory.findVictimPage, pages, ends]
          refine ⟨⟨left, replies ++ [.page (some last)]⟩, rest, area, ?_, ⟨?_, ?_, number, ?_⟩,
            (List.append_nil regions).symm ▸ lost⟩
          · rw [RegionNodes.step, found]
            rfl
          · rw [listStep, victim]
          · rw [listStep, victim]
            exact single
          · rw [listStep, victim]
            exact holds

end Step

/-! ## Runs -/

theorem initMm_shows (store : Store Ptr Node) :
    Shows store.get ⟨initMm allocator store none, []⟩ ⟨Memory.initMm [], []⟩
      ⟨0, 0, 0, 0, [⟨0, 0, .kernel⟩]⟩ where
  replies := rfl
  single := rfl
  number := rfl
  nodes := (Holds.push allocator holds_nothing _).symm

/-- `free_pcb` frees both lists and nothing else. -/
theorem freePcb_holds {rest : Content Ptr Node} {lists : Lists Ptr} {front back : List Node}
    (holds : Holds lists.store.get lists.vmFreergList front lists.fifoPgn back rest) :
    ∃ after, freePcb lists = some after ∧ after.get = rest := by
  rcases holds.freeList holds.length_le_size with ⟨store, freed, left⟩
  rcases left.symm.freeList left.symm.length_le_size with ⟨after, freed', nothing⟩
  refine ⟨after, ?_, nothing.content_eq⟩
  rw [freePcb, freed]
  exact freed'

/-- On any calls the nodes show the memory map and give its replies.  After
`free_pcb` exactly the nodes of the refused releases are left, so the process
gives all its nodes back just when no release was refused. -/
theorem nodes_given_back (store : Store Ptr Node) (trace : List Call) :
    ∃ session after area rest,
      Run (step allocator) ⟨initMm allocator store none, []⟩ trace session ∧
      Shows rest session (trace.foldl listStep ⟨Memory.initMm [], []⟩) area ∧
      freePcb session.state = some after ∧
      Lost store.get after.get (refusedRegions trace) ∧
      (after.get = store.get ↔ refusedRegions trace = []) := by
  have kept : ∃ session area rest,
      Run (step allocator) ⟨initMm allocator store none, []⟩ trace session ∧
      Shows rest session (trace.foldl listStep ⟨Memory.initMm [], []⟩) area ∧
      Lost store.get rest (refusedRegions trace) := by
    induction trace using List.reverseRecOn with
    | nil => exact ⟨_, _, _, .nil, initMm_shows allocator store, lost_nothing store.get⟩
    | append_singleton trace call inductionHypothesis =>
        rcases inductionHypothesis with ⟨session, area, rest, path, shows, lost⟩
        rcases shows.step allocator lost call with ⟨after, rest', area', taken, shown, more⟩
        refine ⟨after, area', rest', .snoc path taken, ?_, ?_⟩
        · rw [List.foldl_append]
          exact shown
        · rw [refusedRegions, List.filterMap_append]
          exact more
  rcases kept with ⟨session, area, rest, path, shows, lost⟩
  rcases freePcb_holds shows.nodes with ⟨after, freed, content⟩
  rw [← content] at lost
  exact ⟨session, after, area, rest, path, shows, freed, lost, lost.eq_iff⟩

/-! ## A block with an old list -/

/-- `init_mm` links the empty region in front of a node that is not live, or of
itself where `malloc` returns that very node: a search for at least one byte
then never gets to the end of the list. -/
theorem getFreeVmrgArea_dangling (store : Store Ptr Node) {ptr : Ptr}
    (dead : store.get ptr = none) {size : Int} (asks : 0 < ofInt size) :
    getFreeVmrgArea (initMm allocator store (some ptr)) size = none := by
  let made := store.new allocator ⟨.region ⟨0, 0, .kernel⟩, some ptr⟩
  have content : made.2.get = Function.update store.get made.1 _ := Store.get_new ..
  have refused : ¬ (0 + ofInt size ≤ (0 : Addr)) := by
    have sum : 0 + ofInt size = ofInt size := BitVec.zero_add _
    rw [sum]
    exact BitVec.not_le.mpr asks
  have lost : ∀ steps, firstFitLoop size steps (some made.1) made.2 = none := by
    intro steps
    induction steps with
    | zero => rfl
    | succ steps inductionHypothesis =>
        rw [firstFitLoop, content, Function.update_self, Option.bind_some]
        dsimp only
        rw [if_neg refused]
        by_cases same : ptr = made.1
        · rw [same]
          exact inductionHypothesis
        · cases steps with
          | zero => rfl
          | succ steps =>
              rw [firstFitLoop, content, Function.update_of_ne same, dead]
              rfl
  rw [getFreeVmrgArea]
  exact congrArg (Option.map _) (lost made.2.size)

end RegionNodes
end Ossim
