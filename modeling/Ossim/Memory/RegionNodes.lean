import Ossim.Memory.FreeRegion
import Ossim.Memory.FrameTable
import Ossim.Library.LinkedCells

namespace Ossim
namespace RegionNodes

open Memory LinkedCells

/-!
# The lists of a memory map as nodes

The free regions of an area and the queue of resident pages are linked nodes from
`malloc`.  A region that is used up does not leave the list: its node takes over
the next one, which is freed.  The victim of a replacement is found by walking to
the last node.  `free_pcb` frees both lists.

Both kinds of nodes live in one heap.  On any calls, the nodes show the lists of
the memory map.  What is left in the heap after `free_pcb` is one node for each
freed region without bytes, which `__free` allocates and
`enlist_vm_freerg_list` refuses.

All of this is about an area whose block held a null pointer when `malloc`
returned it.  With the list of an exited process there, the first search that
walks on from the empty region reads a node that is not live.
-/

/-- What a block of the heap holds: a `vm_rg_struct` or a `pgn_t`, without its
pointer. -/
inductive Node
  | region (rg : VmRgStruct)
  | page (pgn : Addr)

/-- The heap and the heads of the two lists. -/
structure Lists (Ptr : Type) where
  store : Store Ptr Node
  vmFreergList : Option Ptr
  fifoPgn : Option Ptr

variable {Ptr : Type} [DecidableEq Ptr] (allocator : Allocator Ptr Node)

/-! ## The functions -/

/-- The part of `init_mm` on the lists.  The pointer is what the field
`vm_freerg_list` holds in the block that `malloc` returns for the area. -/
def initMm (store : Store Ptr Node) (vmFreergList : Option Ptr) : Lists Ptr :=
  let (firstRg, begun) := store.new allocator ⟨.region ⟨0, 0, .kernel⟩, vmFreergList⟩
  ⟨begun, some firstRg, none⟩

def enlistPgnNode (lists : Lists Ptr) (pgn : Addr) : Lists Ptr :=
  let (pnode, store) := lists.store.new allocator ⟨.page pgn, lists.fifoPgn⟩
  { lists with store := store, fifoPgn := some pnode }

def enlistVmFreergList (lists : Lists Ptr) (rgElmt : Ptr) : Option (Int × Lists Ptr) :=
  (lists.store.get rgElmt).bind fun cell =>
    match cell.value with
    | .page _ => none
    | .region rg =>
        if rg.rgEnd ≤ rg.rgStart then some (-1, lists)
        else
          (lists.store.setNext rgElmt lists.vmFreergList).map fun store =>
            (0, { lists with store := store, vmFreergList := some rgElmt })

/-- The end of `__free`: a node for the region, and whether it was enlisted. -/
def freeRegion (lists : Lists Ptr) (rgnode : VmRgStruct) : Option (Int × Lists Ptr) :=
  let (freergNode, store) := lists.store.new allocator
    ⟨.region ⟨rgnode.rgStart, rgnode.rgEnd, .user⟩, none⟩
  enlistVmFreergList { lists with store := store } freergNode

/-- The loop of `get_free_vmrg_area`, for at most so many steps. -/
def firstFitLoop (size : Int) : Nat → Option Ptr → Store Ptr Node →
    Option (Option VmRgStruct × Store Ptr Node)
  | _, none, store => some (none, store)
  | 0, some _, _ => none
  | steps + 1, some rgit, store =>
      (store.get rgit).bind fun cell =>
        match cell.value with
        | .page _ => none
        | .region rg =>
            let newEnd := rg.rgStart + ofInt size
            if newEnd ≤ rg.rgEnd then
              let newrg : VmRgStruct := ⟨rg.rgStart, newEnd, .user⟩
              if newEnd < rg.rgEnd then
                (store.setValue rgit (.region { rg with rgStart := newEnd })).map fun store =>
                  (some newrg, store)
              else
                match cell.next with
                | none =>
                    (store.setValue rgit (.region { rg with rgStart := rg.rgEnd })).bind fun store =>
                      (store.setNext rgit none).map fun store => (some newrg, store)
                | some nextrg =>
                    (store.get nextrg).bind fun next =>
                      match next.value with
                      | .page _ => none
                      | .region clone =>
                          (store.setValue rgit (.region
                              { rg with rgStart := clone.rgStart, rgEnd := clone.rgEnd })).bind
                            fun store => (store.setNext rgit next.next).bind fun store =>
                              (store.free nextrg).map fun store => (some newrg, store)
            else firstFitLoop size steps cell.next store

def getFreeVmrgArea (lists : Lists Ptr) (size : Int) :
    Option (Option VmRgStruct × Lists Ptr) :=
  (firstFitLoop size lists.store.size lists.vmFreergList lists.store).map fun (found, store) =>
    match found with
    | none => (none, { lists with store := store })
    | some newrg =>
        (if newrg.rgStart = ofInt (-1) then none else some newrg, { lists with store := store })

/-- The walk of `find_victim_page` from a node and the one before it, for at most
so many steps, and the end of the function. -/
def victimLoop : Nat → Option Ptr → Ptr → Lists Ptr → Option (Addr × Lists Ptr)
  | 0, _, _, _ => none
  | steps + 1, prev, pg, lists =>
      (lists.store.get pg).bind fun cell =>
        match cell.next with
        | some next => victimLoop steps (some pg) next lists
        | none =>
            match cell.value with
            | .region _ => none
            | .page pgn =>
                match prev with
                | none =>
                    (lists.store.free pg).map fun store =>
                      (pgn, { lists with store := store, fifoPgn := none })
                | some prev =>
                    (lists.store.setNext prev none).bind fun store =>
                      (store.free pg).map fun store => (pgn, { lists with store := store })

def findVictimPage (lists : Lists Ptr) : Option (Option Addr × Lists Ptr) :=
  match lists.fifoPgn with
  | none => some (none, lists)
  | some pg =>
      (victimLoop lists.store.size none pg lists).map fun (pgn, left) => (some pgn, left)

/-- The part of `free_pcb` on the lists: one loop for each of them. -/
def freePcb (lists : Lists Ptr) : Option (Store Ptr Node) :=
  (Store.freeList lists.store.size lists.vmFreergList lists.store).bind fun store =>
    Store.freeList store.size lists.fifoPgn store

/-! ## First fit -/

section Loops

variable {store : Store Ptr Node} {head start cur : Option Ptr} {rest : Content Ptr Node}
variable {spare front back : List (Ptr × Node)} {steps : Nat}

/-- The loop on the nodes behind `front` finds what first fit finds in their regions
and leaves what it leaves. -/
theorem firstFitLoop_parts (size : Int) {regions : List VmRgStruct}
    (enough : regions.length ≤ steps)
    (parts : Parts store.get head (front ++ back) start spare rest)
    (reaches : Segment store.get head front cur) (onward : Segment store.get cur back none)
    (shown : values back = regions.map .region) :
    ∃ after again, firstFitLoop size steps cur store =
        some ((firstFit size regions).map Prod.fst, after) ∧
      values again = ((firstFit size regions).elim regions Prod.snd).map .region ∧
      Parts after.get head (front ++ again) start spare rest := by
  induction regions generalizing front back cur steps with
  | nil =>
      cases List.map_eq_nil_iff.mp shown
      cases onward
      exact ⟨store, [], by rw [firstFitLoop]; rfl, rfl, parts⟩
  | cons rgit regions inductionHypothesis =>
      have distinct := onward.nodup
      cases onward with
      | nil => cases shown
      | @cons ptr value next _ back held onward =>
      rw [values, List.map_cons, List.map_cons] at shown
      rcases List.cons.inj shown with ⟨same, later⟩
      dsimp only at same
      subst same
      rw [addresses, List.map_cons] at distinct
      have absent : ptr ∉ addresses back := (List.nodup_cons.mp distinct).1
      rcases Nat.exists_eq_succ_of_ne_zero (Nat.ne_zero_of_lt enough) with ⟨steps, rfl⟩
      by_cases fits : rgit.rgStart + ofInt size ≤ rgit.rgEnd
      · by_cases shorter : rgit.rgStart + ofInt size < rgit.rgEnd
        · -- the node keeps what is left of its region
          let left : VmRgStruct := { rgit with rgStart := rgit.rgStart + ofInt size }
          have outcome : firstFit size (rgit :: regions) =
              some (⟨rgit.rgStart, rgit.rgStart + ofInt size, .user⟩, left :: regions) := by
            rw [firstFit]
            dsimp only
            rw [if_pos fits, if_pos shorter]
          rcases Store.setValue_of_live held (.region left) with ⟨after, written, content⟩
          refine ⟨after, (ptr, .region left) :: back, ?_, ?_, ?_⟩
          · rw [firstFitLoop, held, Option.bind_some, outcome]
            dsimp only
            rw [if_pos fits, if_pos shorter, written]
            rfl
          · rw [outcome, values, List.map_cons]
            exact congrArg (Node.region left :: ·) later
          · rw [content]
            refine parts.splice reaches
              (.cons (Function.update_self ..) (onward.update absent _)) (fun _ member => member)
              (fun other outside => ?_) (fun other member gone => absurd member gone)
            have different : other ≠ ptr := fun here => outside (here ▸ List.mem_cons_self)
            exact Function.update_of_ne different _ _
        · cases regions with
          | nil =>
              -- the last node stays, without bytes
              cases List.map_eq_nil_iff.mp later
              cases onward
              let left : VmRgStruct := { rgit with rgStart := rgit.rgEnd }
              have outcome : firstFit size [rgit] =
                  some (⟨rgit.rgStart, rgit.rgStart + ofInt size, .user⟩, [left]) := by
                rw [firstFit]
                dsimp only
                rw [if_pos fits, if_neg shorter]
              rcases Store.setValue_of_live held (.region left) with ⟨first, written, content⟩
              have live : first.get ptr = some ⟨.region left, none⟩ := by
                rw [content, Function.update_self]
              rcases Store.setNext_of_live live none with ⟨after, linked, content'⟩
              refine ⟨after, [(ptr, .region left)], ?_, ?_, ?_⟩
              · rw [firstFitLoop, held, Option.bind_some, outcome]
                dsimp only
                rw [if_pos fits, if_neg shorter, written, Option.bind_some, linked]
                rfl
              · rw [outcome]
                rfl
              · rw [content', content, Function.update_idem]
                refine parts.splice reaches (.cons (Function.update_self ..) .nil)
                  (fun _ member => member) (fun other outside => ?_)
                  (fun other member gone => absurd member gone)
                have different : other ≠ ptr := fun here => outside (here ▸ List.mem_cons_self)
                exact Function.update_of_ne different _ _
          | cons nextrg regions =>
              -- the node takes over the next one, which is freed
              cases onward with
              | nil => cases later
              | @cons nextPtr value next _ back held' onward =>
              rw [List.map_cons, List.map_cons] at later
              rcases List.cons.inj later with ⟨same, behind⟩
              dsimp only at same
              subst same
              let left : VmRgStruct :=
                { rgit with rgStart := nextrg.rgStart, rgEnd := nextrg.rgEnd }
              have outcome : firstFit size (rgit :: nextrg :: regions) =
                  some (⟨rgit.rgStart, rgit.rgStart + ofInt size, .user⟩, left :: regions) := by
                rw [firstFit]
                dsimp only
                rw [if_pos fits, if_neg shorter]
              rw [addresses, List.map_cons, List.mem_cons, not_or] at absent
              have further : nextPtr ∉ addresses back :=
                (List.nodup_cons.mp (List.nodup_cons.mp distinct).2).1
              rcases Store.setValue_of_live held (.region left) with ⟨first, written, content⟩
              have live : first.get ptr = some ⟨.region left, some nextPtr⟩ := by
                rw [content, Function.update_self]
              rcases Store.setNext_of_live live next with ⟨second, linked, content'⟩
              rw [content, Function.update_idem] at content'
              have live' : second.get nextPtr = some ⟨.region nextrg, next⟩ := by
                rw [content', Function.update_of_ne (Ne.symm absent.1)]
                exact held'
              rcases Store.free_of_live live' with ⟨after, freed, content''⟩
              refine ⟨after, (ptr, .region left) :: back, ?_, ?_, ?_⟩
              · rw [firstFitLoop, held, Option.bind_some, outcome]
                dsimp only
                rw [if_pos fits, if_neg shorter, held', Option.bind_some]
                dsimp only
                rw [written, Option.bind_some, linked, Option.bind_some, freed]
                rfl
              · rw [outcome, values, List.map_cons]
                exact congrArg (Node.region left :: ·) behind
              · rw [content'', content']
                refine parts.splice reaches (.cons ?_ ((onward.update absent.2 _).update further _))
                  ?_ ?_ ?_
                · rw [Function.update_of_ne absent.1, Function.update_self]
                · intro other member
                  rcases List.mem_cons.mp member with here | later
                  · exact List.mem_cons.mpr (Or.inl here)
                  · exact List.mem_cons_of_mem _ (List.mem_cons_of_mem _ later)
                · intro other outside
                  have apart : other ≠ nextPtr := fun here =>
                    outside (here ▸ List.mem_cons_of_mem _ List.mem_cons_self)
                  have apart' : other ≠ ptr := fun here => outside (here ▸ List.mem_cons_self)
                  rw [Function.update_of_ne apart, Function.update_of_ne apart']
                · intro other member gone
                  rcases List.mem_cons.mp member with here | later
                  · exact absurd (List.mem_cons.mpr (Or.inl here)) gone
                  · rcases List.mem_cons.mp later with here | last
                    · exact here ▸ Function.update_self ..
                    · exact absurd (List.mem_cons_of_mem _ last) gone
      · -- the next node
        have outcome : firstFit size (rgit :: regions) =
            (firstFit size regions).map fun found => (found.1, rgit :: found.2) := by
          rw [firstFit]
          dsimp only
          rw [if_neg fits]
        have assoc : front ++ (ptr, Node.region rgit) :: back =
            (front ++ [(ptr, .region rgit)]) ++ back := (List.append_cons _ _ _)
        rw [assoc] at parts
        rcases inductionHypothesis (Nat.le_of_succ_le_succ enough) parts
          (reaches.append (.cons held .nil)) onward later with ⟨after, again, looped, shows, left⟩
        refine ⟨after, (ptr, .region rgit) :: again, ?_, ?_, ?_⟩
        · rw [firstFitLoop, held, Option.bind_some, outcome]
          dsimp only
          rw [if_neg fits, looped, Option.map_map]
          rfl
        · rw [outcome, values, List.map_cons]
          rw [values] at shows
          rw [shows]
          cases firstFit size regions with
          | none => rfl
          | some found => rfl
        · rw [List.append_cons]
          exact left

/-! ## The victim -/

/-- The walk on the nodes behind `front` unlinks the last one. -/
theorem victimLoop_parts {pages : List Addr} {lists : Lists Ptr} {pg : Ptr} {pgn : Addr}
    (enough : pages.length < steps)
    (parts : Parts lists.store.get lists.fifoPgn (front ++ (pg, .page pgn) :: back)
      lists.vmFreergList spare rest)
    (reaches : Segment lists.store.get lists.fifoPgn front (some pg))
    (onward : Segment lists.store.get (some pg) ((pg, .page pgn) :: back) none)
    (shown : values back = pages.map .page) :
    ∃ last left chain, victimLoop steps (front.getLast?.map Prod.fst) pg lists = some (last, left) ∧
      (pgn :: pages).getLast? = some last ∧ left.vmFreergList = lists.vmFreergList ∧
      values chain = values front ++ ((pgn :: pages).dropLast).map .page ∧
      Parts left.store.get left.fifoPgn chain left.vmFreergList spare rest := by
  induction pages generalizing front back pg pgn steps with
  | nil =>
      cases List.map_eq_nil_iff.mp shown
      rcases Nat.exists_eq_succ_of_ne_zero (Nat.ne_zero_of_lt enough) with ⟨steps, rfl⟩
      cases onward with
      | @cons _ _ next _ _ held ended =>
      cases ended
      rcases List.eq_nil_or_concat front with rfl | ⟨early, ⟨prev, value⟩, rfl⟩
      · -- the only node
        rcases Store.free_of_live held with ⟨after, freed, content⟩
        rcases parts.pop with ⟨next, _, read, left⟩
        rw [held] at read
        cases read
        rw [← content] at left
        refine ⟨pgn, { lists with store := after, fifoPgn := none }, [], ?_, rfl, rfl, rfl, left⟩
        rw [victimLoop, held, Option.bind_some]
        dsimp only
        rw [List.getLast?_nil, Option.map_none]
        dsimp only
        rw [freed]
        rfl
      · rw [List.concat_eq_append] at parts reaches ⊢
        rcases reaches.split with ⟨middle, reaches, final⟩
        cases final with
        | @cons _ _ _ _ _ before ended =>
        cases ended
        have distinct := parts.owns.nodup
        rw [addresses, List.map_append, List.map_append, List.map_append] at distinct
        have different : prev ≠ pg := fun here =>
          (List.nodup_append.mp (List.nodup_append.mp distinct).1).2.2 prev
            (List.mem_append_right _ List.mem_cons_self) pg List.mem_cons_self here
        rcases Store.setNext_of_live before none with ⟨first, linked, content⟩
        have live : first.get pg = some ⟨.page pgn, none⟩ := by
          rw [content, Function.update_of_ne (Ne.symm different)]
          exact held
        rcases Store.free_of_live live with ⟨after, freed, content'⟩
        refine ⟨pgn, { lists with store := after }, early ++ [(prev, value)], ?_, rfl, rfl, ?_, ?_⟩
        · rw [victimLoop, held, Option.bind_some]
          dsimp only
          rw [List.getLast?_append, List.getLast?_singleton, Option.some_or, Option.map_some]
          dsimp only
          rw [linked, Option.bind_some, freed]
          rfl
        · exact (List.append_nil _).symm
        · dsimp only
          rw [content', content]
          rw [List.append_assoc] at parts
          refine parts.splice reaches (.cons ?_ .nil) ?_ ?_ ?_
          · rw [Function.update_of_ne different, Function.update_self]
          · intro other member
            rcases List.mem_cons.mp member with here | nothing
            · exact List.mem_cons.mpr (Or.inl here)
            · cases nothing
          · intro other outside
            have apart : other ≠ prev := fun here => outside (here ▸ List.mem_cons_self)
            have apart' : other ≠ pg := fun here =>
              outside (here ▸ List.mem_cons_of_mem _ List.mem_cons_self)
            rw [Function.update_of_ne apart', Function.update_of_ne apart]
          · intro other member gone
            rcases List.mem_cons.mp member with here | later
            · exact absurd (List.mem_cons.mpr (Or.inl here)) gone
            · rcases List.mem_cons.mp later with here | nothing
              · exact here ▸ Function.update_self ..
              · cases nothing
  | cons page pages inductionHypothesis =>
      rcases Nat.exists_eq_succ_of_ne_zero (Nat.ne_zero_of_lt enough) with ⟨steps, rfl⟩
      cases onward with
      | @cons _ _ next _ _ held onward =>
      cases onward with
      | nil => cases shown
      | @cons nextPtr value after _ back held' onward =>
      rw [values, List.map_cons, List.map_cons] at shown
      rcases List.cons.inj shown with ⟨same, later⟩
      dsimp only at same
      subst same
      rw [List.append_cons] at parts
      rcases inductionHypothesis (Nat.lt_of_succ_lt_succ enough) parts
        (reaches.append (.cons held .nil)) (.cons held' onward) later with
        ⟨last, left, chain, looped, ends, kept, shows, parted⟩
      refine ⟨last, left, chain, ?_, ?_, kept, ?_, parted⟩
      · rw [victimLoop, held, Option.bind_some]
        dsimp only
        rw [List.getLast?_append, List.getLast?_singleton, Option.some_or, Option.map_some]
          at looped
        exact looped
      · rw [List.getLast?_cons_cons]
        exact ends
      · rw [shows, List.dropLast_cons_cons, List.map_cons, values, List.map_append, List.append_assoc]
        rfl

end Loops

end RegionNodes
end Ossim
