import Mathlib.Data.List.AList
import Mathlib.Data.List.MinMax
import Mathlib.Tactic

namespace Ossim
namespace LinkedCells

/-!
# Linked lists in a heap

A cell holds a value and the pointer to the next cell, and the null pointer ends
a list.  The heap is finite.  The allocator is a parameter: it returns an address
that is not in use, perhaps one that was freed before, and nothing else is known
of it.

`Parts` describes a heap that consists of two separate lists and of other memory.
The three ways in which programs rebuild such lists are taking the first cell off
a list, putting a new cell in front and hanging a new cell behind the last one;
each leads from `Parts` to `Parts` with the same other memory.
-/

structure Cell (Ptr Value : Type*) where
  value : Value
  next : Option Ptr
  deriving DecidableEq

/-- The live cells by address, and the number of allocations so far. -/
structure Store (Ptr Value : Type*) where
  cells : AList fun _ : Ptr => Cell Ptr Value
  calls : Nat

/-- An allocator that never fails.  Which free address it picks may depend on
everything that happened before. -/
structure Allocator (Ptr Value : Type*) where
  malloc : Nat → (AList fun _ : Ptr => Cell Ptr Value) → Ptr
  fresh : ∀ calls cells, malloc calls cells ∉ cells

/-- The allocator that takes the first address above all live ones. -/
def Allocator.above (Value : Type*) : Allocator Nat Value where
  malloc _ cells := cells.keys.foldr max 0 + 1
  fresh := by
    intro _ cells member
    have least := List.le_max_of_le' 0 (AList.mem_keys.mp member) le_rfl
    exact Nat.not_succ_le_self _ least

/-- What each address holds. -/
abbrev Content (Ptr Value : Type*) := Ptr → Option (Cell Ptr Value)

variable {Ptr Value : Type*} [DecidableEq Ptr]

namespace Store

def get (store : Store Ptr Value) (ptr : Ptr) : Option (Cell Ptr Value) := store.cells.lookup ptr

/-- Allocate a cell and write it. -/
def new (allocator : Allocator Ptr Value) (store : Store Ptr Value) (cell : Cell Ptr Value) :
    Ptr × Store Ptr Value :=
  let ptr := allocator.malloc store.calls store.cells
  (ptr, ⟨store.cells.insert ptr cell, store.calls + 1⟩)

/-- Freeing an address that is not live is undefined. -/
def free (store : Store Ptr Value) (ptr : Ptr) : Option (Store Ptr Value) :=
  (store.get ptr).map fun _ => { store with cells := store.cells.erase ptr }

/-- Write the pointer of a live cell. -/
def setNext (store : Store Ptr Value) (ptr : Ptr) (next : Option Ptr) :
    Option (Store Ptr Value) :=
  (store.get ptr).map fun cell =>
    { store with cells := store.cells.insert ptr { cell with next := next } }

/-- Write the value of a live cell. -/
def setValue (store : Store Ptr Value) (ptr : Ptr) (value : Value) : Option (Store Ptr Value) :=
  (store.get ptr).map fun cell =>
    { store with cells := store.cells.insert ptr { cell with value := value } }

/-- Free the cells from a pointer on, for at most so many steps. -/
def freeList : Nat → Option Ptr → Store Ptr Value → Option (Store Ptr Value)
  | _, none, store => some store
  | 0, some _, _ => none
  | steps + 1, some ptr, store =>
      (store.get ptr).bind fun cell =>
        (store.free ptr).bind fun left => freeList steps cell.next left

/-- The number of live cells. -/
def size (store : Store Ptr Value) : Nat := store.cells.keys.length

/-- A write at an address. -/
theorem get_insert (store : Store Ptr Value) (ptr : Ptr) (cell : Cell Ptr Value) (calls : Nat) :
    get ⟨store.cells.insert ptr cell, calls⟩ = Function.update store.get ptr (some cell) := by
  funext other
  by_cases same : other = ptr
  · rw [same, Function.update_self]
    exact AList.lookup_insert store.cells
  · rw [Function.update_of_ne same]
    exact AList.lookup_insert_ne same

theorem get_new (allocator : Allocator Ptr Value) (store : Store Ptr Value)
    (cell : Cell Ptr Value) :
    (store.new allocator cell).2.get =
      Function.update store.get (store.new allocator cell).1 (some cell) :=
  store.get_insert _ cell _

theorem get_new_dead (allocator : Allocator Ptr Value) (store : Store Ptr Value)
    (cell : Cell Ptr Value) : store.get (store.new allocator cell).1 = none :=
  AList.lookup_eq_none.mpr (allocator.fresh store.calls store.cells)

theorem free_of_live {store : Store Ptr Value} {ptr : Ptr} {cell : Cell Ptr Value}
    (live : store.get ptr = some cell) :
    ∃ after, store.free ptr = some after ∧ after.get = Function.update store.get ptr none := by
  refine ⟨{ store with cells := store.cells.erase ptr }, ?_, ?_⟩
  · rw [free, live]
    rfl
  · funext other
    by_cases same : other = ptr
    · rw [same, Function.update_self]
      exact AList.lookup_erase ptr store.cells
    · rw [Function.update_of_ne same]
      exact AList.lookup_erase_ne same

theorem setNext_of_live {store : Store Ptr Value} {ptr : Ptr} {cell : Cell Ptr Value}
    (live : store.get ptr = some cell) (next : Option Ptr) :
    ∃ after, store.setNext ptr next = some after ∧
      after.get = Function.update store.get ptr (some { cell with next := next }) :=
  ⟨_, congrArg (Option.map _) live, store.get_insert ptr _ _⟩

theorem setValue_of_live {store : Store Ptr Value} {ptr : Ptr} {cell : Cell Ptr Value}
    (live : store.get ptr = some cell) (value : Value) :
    ∃ after, store.setValue ptr value = some after ∧
      after.get = Function.update store.get ptr (some { cell with value := value }) :=
  ⟨_, congrArg (Option.map _) live, store.get_insert ptr _ _⟩

/-- Different live addresses are at most as many as there are live cells. -/
theorem length_le_size {store : Store Ptr Value} {ptrs : List Ptr} (nodup : ptrs.Nodup)
    (live : ∀ ptr ∈ ptrs, (store.get ptr).isSome = true) : ptrs.length ≤ store.size := by
  apply List.Subperm.length_le
  apply nodup.subperm
  intro ptr member
  exact AList.mem_keys.mp (AList.lookup_isSome.mp (live ptr member))

end Store

/-! ## Segments -/

/-- From one pointer to another along cells with these addresses and values. -/
inductive Segment (content : Content Ptr Value) :
    Option Ptr → List (Ptr × Value) → Option Ptr → Prop
  | nil {stop : Option Ptr} : Segment content stop [] stop
  | cons {ptr : Ptr} {value : Value} {next stop : Option Ptr} {nodes : List (Ptr × Value)} :
      content ptr = some ⟨value, next⟩ → Segment content next nodes stop →
        Segment content (some ptr) ((ptr, value) :: nodes) stop

/-- The addresses of some cells. -/
def addresses (nodes : List (Ptr × Value)) : List Ptr := nodes.map Prod.fst

/-- The values of some cells. -/
def values (nodes : List (Ptr × Value)) : List Value := nodes.map Prod.snd

variable {content after rest : Content Ptr Value} {start stop middle : Option Ptr}
variable {nodes front back : List (Ptr × Value)} {ptr : Ptr} {value : Value}

omit [DecidableEq Ptr] in
theorem Segment.live (segment : Segment content start nodes stop) :
    ∀ ptr ∈ addresses nodes, (content ptr).isSome = true := by
  induction segment with
  | nil =>
      intro ptr member
      cases member
  | cons held _ inductionHypothesis =>
      intro ptr member
      rcases List.mem_cons.mp member with rfl | later
      · rw [held]
        rfl
      · exact inductionHypothesis ptr later

/-- A segment does not notice a write elsewhere. -/
theorem Segment.update (segment : Segment content start nodes stop)
    (elsewhere : ptr ∉ addresses nodes) (cell : Option (Cell Ptr Value)) :
    Segment (Function.update content ptr cell) start nodes stop := by
  induction segment with
  | nil => exact .nil
  | cons held _ inductionHypothesis =>
      rw [addresses, List.map_cons, List.mem_cons, not_or] at elsewhere
      refine .cons ?_ (inductionHypothesis elsewhere.2)
      rw [Function.update_of_ne (Ne.symm elsewhere.1)]
      exact held

omit [DecidableEq Ptr] in
/-- A segment depends on its own cells only. -/
theorem Segment.congr (segment : Segment content start nodes stop)
    (same : ∀ ptr ∈ addresses nodes, after ptr = content ptr) : Segment after start nodes stop := by
  induction segment with
  | nil => exact .nil
  | cons held _ inductionHypothesis =>
      refine .cons ((same _ List.mem_cons_self).trans held) (inductionHypothesis ?_)
      exact fun ptr member => same ptr (List.mem_cons_of_mem _ member)

omit [DecidableEq Ptr] in
theorem Segment.append (early : Segment content start front middle)
    (late : Segment content middle back stop) : Segment content start (front ++ back) stop := by
  induction early with
  | nil => exact late
  | cons held _ inductionHypothesis => exact .cons held (inductionHypothesis late)

omit [DecidableEq Ptr] in
theorem Segment.split (segment : Segment content start (front ++ back) stop) :
    ∃ middle, Segment content start front middle ∧ Segment content middle back stop := by
  induction front generalizing start with
  | nil => exact ⟨start, .nil, segment⟩
  | cons node front inductionHypothesis =>
      cases segment with
      | cons held later =>
          rcases inductionHypothesis later with ⟨middle, early, late⟩
          exact ⟨middle, .cons held early, late⟩

omit [DecidableEq Ptr] in
/-- A list is determined by where it starts. -/
theorem Segment.unique (left : Segment content start front none)
    (right : Segment content start back none) : front = back := by
  induction front generalizing start back with
  | nil =>
      cases left
      cases right
      rfl
  | cons node front inductionHypothesis =>
      cases left with
      | cons held later =>
          cases right with
          | cons found other =>
              rw [held] at found
              cases found
              rw [inductionHypothesis later other]

omit [DecidableEq Ptr] in
theorem Segment.start_of_cons (segment : Segment content start ((ptr, value) :: nodes) stop) :
    start = some ptr := by
  cases segment with
  | cons _ _ => rfl

omit [DecidableEq Ptr] in
/-- A list that ends does not meet a cell twice. -/
theorem Segment.nodup (segment : Segment content start nodes none) : (addresses nodes).Nodup := by
  induction nodes generalizing start with
  | nil => exact List.nodup_nil
  | cons node nodes inductionHypothesis =>
      rcases node with ⟨ptr, value⟩
      cases segment with
      | cons held later =>
          refine List.nodup_cons.mpr ⟨fun again => ?_, inductionHypothesis later⟩
          -- From the second visit on, the list would be the whole list again.
          have whole := Segment.cons held later
          rcases List.mem_map.mp again with ⟨⟨_, other⟩, member, rfl⟩
          rcases List.append_of_mem member with ⟨early, late, cut⟩
          rw [cut] at later
          rcases later.split with ⟨middle, _, repeated⟩
          have begun := repeated.start_of_cons
          subst begun
          have lengths := congrArg List.length (whole.unique repeated)
          rw [cut, List.length_cons, List.length_append, List.length_cons] at lengths
          omega

/-! ## Cells and other memory -/

/-- The heap consists of the cells at these addresses and the rest. -/
structure Owns (content : Content Ptr Value) (owned : List Ptr) (rest : Content Ptr Value) :
    Prop where
  nodup : owned.Nodup
  apart : ∀ ptr ∈ owned, rest ptr = none
  outside : ∀ ptr, ptr ∉ owned → content ptr = rest ptr

variable {owned : List Ptr}

omit [DecidableEq Ptr] in
theorem Owns.perm (owns : Owns content owned rest) {reordered : List Ptr}
    (same : reordered.Perm owned) : Owns content reordered rest := by
  refine ⟨same.nodup_iff.mpr owns.nodup, ?_, ?_⟩
  · intro ptr member
    exact owns.apart ptr (same.mem_iff.mp member)
  · intro ptr outside
    exact owns.outside ptr (fun member => outside (same.mem_iff.mpr member))

/-- A dead address that is not among the cells becomes one of them. -/
theorem Owns.add (owns : Owns content owned rest) (absent : ptr ∉ owned)
    (dead : content ptr = none) (cell : Option (Cell Ptr Value)) :
    Owns (Function.update content ptr cell) (ptr :: owned) rest := by
  refine ⟨List.nodup_cons.mpr ⟨absent, owns.nodup⟩, ?_, ?_⟩
  · intro other member
    rcases List.mem_cons.mp member with rfl | old
    · rw [← owns.outside other absent, dead]
    · exact owns.apart other old
  · intro other outside
    rw [List.mem_cons, not_or] at outside
    rw [Function.update_of_ne outside.1]
    exact owns.outside other outside.2

theorem Owns.write (owns : Owns content owned rest) (member : ptr ∈ owned)
    (cell : Option (Cell Ptr Value)) : Owns (Function.update content ptr cell) owned rest := by
  refine ⟨owns.nodup, owns.apart, fun other outside => ?_⟩
  have different : other ≠ ptr := fun same => outside (same ▸ member)
  rw [Function.update_of_ne different]
  exact owns.outside other outside

theorem Owns.remove (owns : Owns content (ptr :: owned) rest) :
    Owns (Function.update content ptr none) owned rest := by
  refine ⟨(List.nodup_cons.mp owns.nodup).2,
    fun other member => owns.apart other (List.mem_cons_of_mem _ member), fun other outside => ?_⟩
  by_cases same : other = ptr
  · rw [same, Function.update_self, owns.apart ptr List.mem_cons_self]
  · rw [Function.update_of_ne same]
    apply owns.outside
    rw [List.mem_cons, not_or]
    exact ⟨same, outside⟩

/-! ## Two lists -/

/-- The heap consists of the list from `head`, the list from `start` and the
rest. -/
structure Parts (content : Content Ptr Value) (head : Option Ptr) (chain : List (Ptr × Value))
    (start : Option Ptr) (spare : List (Ptr × Value)) (rest : Content Ptr Value) : Prop where
  first : Segment content head chain none
  second : Segment content start spare none
  owns : Owns content (addresses (chain ++ spare)) rest

variable {head : Option Ptr} {chain spare : List (Ptr × Value)}

omit [DecidableEq Ptr] in
theorem mem_addresses_append {ptr : Ptr} :
    ptr ∈ addresses (chain ++ spare) ↔ ptr ∈ addresses chain ∨ ptr ∈ addresses spare := by
  rw [addresses, List.map_append, List.mem_append]
  rfl

omit [DecidableEq Ptr] in
theorem Parts.symm (parts : Parts content head chain start spare rest) :
    Parts content start spare head chain rest :=
  ⟨parts.second, parts.first, parts.owns.perm (List.perm_append_comm.map Prod.fst)⟩

/-- A list and whatever else there is. -/
theorem parts_of_segment (segment : Segment content start spare none) :
    Parts content none [] start spare
      (fun ptr => if ptr ∈ addresses spare then none else content ptr) := by
  refine ⟨.nil, segment, segment.nodup, ?_, ?_⟩
  · intro ptr member
    exact if_pos member
  · intro ptr outside
    exact (if_neg outside).symm

omit [DecidableEq Ptr] in
/-- A dead address belongs to neither list. -/
theorem Parts.dead (parts : Parts content head chain start spare rest)
    (dead : content ptr = none) : ptr ∉ addresses chain ∧ ptr ∉ addresses spare := by
  have absent : ∀ {first nodes}, Segment content first nodes none → ptr ∉ addresses nodes := by
    intro first nodes segment member
    have live := segment.live ptr member
    rw [dead] at live
    cases live
  exact ⟨absent parts.first, absent parts.second⟩

/-- Taking the first cell off a list. -/
theorem Parts.pop (parts : Parts content head ((ptr, value) :: chain) start spare rest) :
    ∃ next, head = some ptr ∧ content ptr = some ⟨value, next⟩ ∧
      Parts (Function.update content ptr none) next chain start spare rest := by
  have owns := parts.owns
  rw [List.cons_append, addresses, List.map_cons] at owns
  have away : ptr ∉ addresses chain ∧ ptr ∉ addresses spare := by
    rw [← not_or, ← mem_addresses_append]
    exact (List.nodup_cons.mp owns.nodup).1
  cases parts.first with
  | @cons _ _ next _ _ held later =>
      exact ⟨next, rfl, held, later.update away.1 none, parts.second.update away.2 none,
        owns.remove⟩

/-- Putting a new cell in front of a list. -/
theorem Parts.push (parts : Parts content head chain start spare rest) (dead : content ptr = none)
    (value : Value) :
    Parts (Function.update content ptr (some ⟨value, start⟩)) head chain (some ptr)
      ((ptr, value) :: spare) rest := by
  rcases parts.dead dead with ⟨offChain, offSpare⟩
  have absent : ptr ∉ addresses (chain ++ spare) := by
    rw [mem_addresses_append, not_or]
    exact ⟨offChain, offSpare⟩
  refine ⟨parts.first.update offChain _, .cons (Function.update_self ..)
    (parts.second.update offSpare _), ?_⟩
  exact (parts.owns.add absent dead _).perm (List.perm_middle.map Prod.fst)

/-- Hanging a new cell behind the last one of a list. -/
theorem Parts.append {last : Ptr}
    (parts : Parts content head (chain ++ [(last, value)]) start spare rest)
    (dead : content ptr = none) (added : Value) :
    content last = some ⟨value, none⟩ ∧ last ≠ ptr ∧
      Parts (Function.update (Function.update content ptr (some ⟨added, none⟩)) last
          (some ⟨value, some ptr⟩))
        head (chain ++ [(last, value)] ++ [(ptr, added)]) start spare rest := by
  rcases parts.dead dead with ⟨offFront, offSpare⟩
  have absent : ptr ∉ addresses (chain ++ [(last, value)] ++ spare) := by
    rw [mem_addresses_append, not_or]
    exact ⟨offFront, offSpare⟩
  rw [mem_addresses_append, not_or] at offFront
  have different : last ≠ ptr := fun same => offFront.2 (same ▸ List.mem_cons_self)
  rcases parts.first.split with ⟨middle, early, late⟩
  cases late with
  | cons held ended =>
      cases ended
      have nodup := parts.owns.nodup
      rw [addresses, List.map_append, List.map_append] at nodup
      have inside := (List.nodup_append.mp nodup).1
      have lastOffChain : last ∉ addresses chain := fun member =>
        (List.nodup_append.mp inside).2.2 last member last List.mem_cons_self rfl
      have lastOffSpare : last ∉ addresses spare := fun member =>
        (List.nodup_append.mp nodup).2.2 last (List.mem_append_right _ List.mem_cons_self) last
          member rfl
      have listed : last ∈ addresses (chain ++ [(last, value)] ++ [(ptr, added)] ++ spare) := by
        rw [mem_addresses_append, mem_addresses_append, mem_addresses_append]
        exact Or.inl (Or.inl (Or.inr List.mem_cons_self))
      have grown : (addresses (chain ++ [(last, value)] ++ [(ptr, added)] ++ spare)).Perm
          (ptr :: addresses (chain ++ [(last, value)] ++ spare)) := by
        rw [List.append_assoc _ [(ptr, added)] spare]
        exact List.perm_middle.map Prod.fst
      refine ⟨held, different, ?_, (parts.second.update offSpare _).update lastOffSpare _,
        ((parts.owns.add absent dead _).perm grown).write listed _⟩
      rw [List.append_assoc]
      apply ((early.update offFront.1 _).update lastOffChain _).append
      refine .cons (Function.update_self ..) (.cons ?_ .nil)
      rw [Function.update_of_ne (Ne.symm different), Function.update_self]

omit [DecidableEq Ptr] in
/-- Rewriting the back of a list: its new cells are among the old ones, and those
that are left out are freed. -/
theorem Parts.splice (parts : Parts content head (front ++ back) start spare rest)
    {again : List (Ptr × Value)} (reaches : Segment content head front middle)
    (segment : Segment after middle again none)
    (among : ∀ ptr ∈ addresses again, ptr ∈ addresses back)
    (same : ∀ ptr, ptr ∉ addresses back → after ptr = content ptr)
    (freed : ∀ ptr ∈ addresses back, ptr ∉ addresses again → after ptr = none) :
    Parts after head (front ++ again) start spare rest := by
  have nodup := parts.owns.nodup
  rw [addresses, List.map_append, List.map_append] at nodup
  rcases List.nodup_append.mp nodup with ⟨inside, spareNodup, apartSpare⟩
  rcases List.nodup_append.mp inside with ⟨frontNodup, _, apartFront⟩
  have offFront : ∀ ptr ∈ addresses front, ptr ∉ addresses back :=
    fun ptr member other => apartFront ptr member ptr other rfl
  have offSpare : ∀ ptr ∈ addresses spare, ptr ∉ addresses back :=
    fun ptr member other => apartSpare ptr (List.mem_append_right _ other) ptr member rfl
  refine ⟨(reaches.congr fun ptr member => same ptr (offFront ptr member)).append segment,
    parts.second.congr fun ptr member => same ptr (offSpare ptr member), ?_, ?_, ?_⟩
  · rw [addresses, List.map_append, List.map_append]
    refine List.nodup_append.mpr ⟨List.nodup_append.mpr ⟨frontNodup, segment.nodup, ?_⟩,
      spareNodup, ?_⟩
    · exact fun ptr member other late => apartFront ptr member other (among other late)
    · intro ptr member other spared
      rcases List.mem_append.mp member with early | late
      · exact apartSpare ptr (List.mem_append_left _ early) other spared
      · exact apartSpare ptr (List.mem_append_right _ (among ptr late)) other spared
  · intro ptr member
    apply parts.owns.apart
    rw [mem_addresses_append, mem_addresses_append] at member ⊢
    exact member.imp_left fun listed => listed.imp_right (among ptr)
  · intro ptr outside
    rw [mem_addresses_append, mem_addresses_append, not_or, not_or] at outside
    by_cases old : ptr ∈ addresses back
    · rw [freed ptr old outside.1.2]
      refine (parts.owns.apart ptr ?_).symm
      rw [mem_addresses_append, mem_addresses_append]
      exact Or.inl (Or.inr old)
    · rw [same ptr old]
      apply parts.owns.outside
      rw [mem_addresses_append, mem_addresses_append, not_or, not_or]
      exact ⟨⟨outside.1.1, old⟩, outside.2⟩

/-- A cell that is in neither list is other memory. -/
theorem Parts.leak (parts : Parts content head chain start spare rest) (dead : content ptr = none)
    (cell : Option (Cell Ptr Value)) :
    Parts (Function.update content ptr cell) head chain start spare
      (Function.update rest ptr cell) := by
  rcases parts.dead dead with ⟨offChain, offSpare⟩
  refine ⟨parts.first.update offChain cell, parts.second.update offSpare cell,
    parts.owns.nodup, ?_, ?_⟩
  · intro other member
    have different : other ≠ ptr := by
      rintro rfl
      exact (mem_addresses_append.mp member).elim offChain offSpare
    rw [Function.update_of_ne different]
    exact parts.owns.apart other member
  · intro other outside
    by_cases here : other = ptr
    · rw [here, Function.update_self, Function.update_self]
    · rw [Function.update_of_ne here, Function.update_of_ne here]
      exact parts.owns.outside other outside

/-! ## The values alone -/

/-- Two separate lists with these values; `tail` points to the last cell of the
first one. -/
def Built (content : Content Ptr Value) (head tail : Option Ptr) (front : List Value)
    (start : Option Ptr) (back : List Value) (rest : Content Ptr Value) : Prop :=
  ∃ chain spare, values chain = front ∧ values spare = back ∧
    tail = chain.getLast?.map Prod.fst ∧ Parts content head chain start spare rest

/-- Two separate lists with these values. -/
def Holds (content : Content Ptr Value) (head : Option Ptr) (front : List Value)
    (start : Option Ptr) (back : List Value) (rest : Content Ptr Value) : Prop :=
  ∃ tail, Built content head tail front start back rest

variable {tail : Option Ptr} {early late : List Value} {store : Store Ptr Value}

omit [DecidableEq Ptr] in
theorem Holds.symm (holds : Holds content head early start late rest) :
    Holds content start late head early rest := by
  rcases holds with ⟨_, chain, spare, firstValues, secondValues, _, parts⟩
  exact ⟨_, spare, chain, secondValues, firstValues, rfl, parts.symm⟩

omit [DecidableEq Ptr] in
theorem Built.head_eq_none_iff (built : Built content head tail early start late rest) :
    head = none ↔ early = [] := by
  rcases built with ⟨chain, spare, rfl, _, _, parts⟩
  cases parts.first with
  | nil => exact iff_of_true rfl rfl
  | cons _ _ => exact iff_of_false (Option.some_ne_none _) (List.cons_ne_nil _ _)

omit [DecidableEq Ptr] in
theorem Holds.head_eq_none_iff (holds : Holds content head early start late rest) :
    head = none ↔ early = [] := by
  rcases holds with ⟨_, built⟩
  exact built.head_eq_none_iff

omit [DecidableEq Ptr] in
/-- A list without cells has no last one. -/
theorem Holds.built_nil (holds : Holds content none [] start late rest) :
    Built content none none [] start late rest := by
  rcases holds with ⟨_, chain, spare, empty, secondValues, _, parts⟩
  have none := List.map_eq_nil_iff.mp empty
  subst none
  exact ⟨[], spare, rfl, secondValues, rfl, parts⟩

omit [DecidableEq Ptr] in
theorem holds_nothing : Holds content none [] none [] content :=
  ⟨none, [], [], rfl, rfl, rfl, .nil, .nil, List.nodup_nil,
    fun _ member => absurd member List.not_mem_nil, fun _ _ => rfl⟩

omit [DecidableEq Ptr] in
/-- Without lists, there is only the other memory. -/
theorem Holds.content_eq (holds : Holds content head [] start [] rest) : content = rest := by
  rcases holds with ⟨_, chain, spare, noChain, noSpare, _, parts⟩
  cases List.map_eq_nil_iff.mp noChain
  cases List.map_eq_nil_iff.mp noSpare
  funext ptr
  exact parts.owns.outside ptr List.not_mem_nil

/-- The first cell of the second list can be read and freed. -/
theorem Built.take (built : Built store.get head tail early start (value :: late) rest) :
    ∃ ptr next after, start = some ptr ∧ store.get ptr = some ⟨value, next⟩ ∧
      store.free ptr = some after ∧ Built after.get head tail early next late rest := by
  rcases built with ⟨chain, spare, firstValues, secondValues, lastCell, parts⟩
  cases spare with
  | nil => cases secondValues
  | cons node spare =>
      cases secondValues
      rcases parts.symm.pop with ⟨next, begun, held, left⟩
      rcases Store.free_of_live held with ⟨after, freed, content⟩
      rw [← content] at left
      exact ⟨node.1, next, after, begun, held, freed, chain, spare, firstValues, rfl, lastCell,
        left.symm⟩

/-- The first cell of the first list can be read and freed. -/
theorem Holds.take (holds : Holds store.get head (value :: early) start late rest) :
    ∃ ptr next after, head = some ptr ∧ store.get ptr = some ⟨value, next⟩ ∧
      store.free ptr = some after ∧ Holds after.get next early start late rest := by
  rcases holds.symm with ⟨_, built⟩
  rcases built.take with ⟨ptr, next, after, begun, held, freed, left⟩
  exact ⟨ptr, next, after, begun, held, freed, Holds.symm ⟨_, left⟩⟩

/-- The first list can be freed. -/
theorem Holds.freeList {steps : Nat} (enough : early.length ≤ steps)
    (holds : Holds store.get head early start late rest) :
    ∃ after, Store.freeList steps head store = some after ∧
      Holds after.get none [] start late rest := by
  induction early generalizing steps head store with
  | nil =>
      have empty := holds.head_eq_none_iff.mpr rfl
      subst empty
      exact ⟨store, by rw [Store.freeList], holds⟩
  | cons value early inductionHypothesis =>
      rcases Nat.exists_eq_succ_of_ne_zero (Nat.ne_zero_of_lt enough) with ⟨steps, rfl⟩
      rcases holds.take with ⟨ptr, next, freed, rfl, held, released, left⟩
      rcases inductionHypothesis (Nat.le_of_succ_le_succ enough) left with ⟨after, looped, done⟩
      refine ⟨after, ?_, done⟩
      rw [Store.freeList, held, Option.bind_some, released, Option.bind_some]
      exact looped

theorem Holds.push (allocator : Allocator Ptr Value)
    (holds : Holds store.get head early start late rest) (value : Value) :
    Holds (store.new allocator ⟨value, start⟩).2.get head early
      (some (store.new allocator ⟨value, start⟩).1) (value :: late) rest := by
  rcases holds with ⟨_, chain, spare, firstValues, secondValues, _, parts⟩
  have pushed := parts.push (Store.get_new_dead allocator store ⟨value, start⟩) value
  rw [← Store.get_new] at pushed
  exact ⟨_, chain, (_, value) :: spare, firstValues, congrArg (value :: ·) secondValues, rfl, pushed⟩

/-- Moving the first value of one list to the front of the other: the cell is
read, a new one is put in front, and the old one is freed. -/
theorem Holds.transfer (allocator : Allocator Ptr Value)
    (holds : Holds store.get head (value :: early) start late rest) :
    ∃ ptr next after, head = some ptr ∧ store.get ptr = some ⟨value, next⟩ ∧
      (store.new allocator ⟨value, start⟩).2.free ptr = some after ∧
      Holds after.get next early (some (store.new allocator ⟨value, start⟩).1) (value :: late)
        rest := by
  rcases holds.take with ⟨ptr, next, _, rfl, held, _, _⟩
  rcases (holds.push allocator value).take with ⟨other, follower, after, same, read, freed, left⟩
  cases same
  have different : ptr ≠ (store.new allocator ⟨value, start⟩).1 := by
    rintro same
    rw [same, Store.get_new_dead] at held
    cases held
  rw [Store.get_new, Function.update_of_ne different, held] at read
  cases read
  exact ⟨ptr, next, after, rfl, held, freed, left⟩

/-- The first cell of a list that is being built. -/
theorem Built.begin (allocator : Allocator Ptr Value)
    (built : Built store.get head tail [] start late rest) (value : Value) :
    Built (store.new allocator ⟨value, none⟩).2.get (some (store.new allocator ⟨value, none⟩).1)
      (some (store.new allocator ⟨value, none⟩).1) [value] start late rest := by
  have empty := built.head_eq_none_iff.mpr rfl
  subst empty
  rcases (Holds.push allocator (Holds.symm ⟨_, built⟩) value).symm with
    ⟨_, chain, spare, firstValues, secondValues, _, parts⟩
  refine ⟨chain, spare, firstValues, secondValues, ?_, parts⟩
  cases parts.first with
  | cons _ later =>
      cases List.map_eq_nil_iff.mp (List.cons.inj firstValues).2
      rfl

/-- A further cell of a list that is being built. -/
theorem Built.hang (allocator : Allocator Ptr Value)
    (built : Built store.get head tail early start late rest) (begun : head ≠ none)
    (value : Value) :
    ∃ last after, tail = some last ∧
      (store.new allocator ⟨value, none⟩).2.setNext last
        (some (store.new allocator ⟨value, none⟩).1) = some after ∧
      Built after.get head (some (store.new allocator ⟨value, none⟩).1) (early ++ [value]) start
        late rest := by
  have nonempty := mt built.head_eq_none_iff.mpr begun
  rcases built with ⟨chain, spare, rfl, secondValues, lastCell, parts⟩
  rcases List.eq_nil_or_concat chain with rfl | ⟨front, ⟨last, held⟩, rfl⟩
  · exact absurd rfl nonempty
  · rw [List.concat_eq_append] at lastCell parts ⊢
    have dead := Store.get_new_dead allocator store ⟨value, none⟩
    rcases parts.append dead value with ⟨cell, different, grown⟩
    rw [← Store.get_new] at grown
    have live : (store.new allocator ⟨value, none⟩).2.get last = some ⟨held, none⟩ := by
      rw [Store.get_new, Function.update_of_ne different]
      exact cell
    rcases Store.setNext_of_live live (some (store.new allocator ⟨value, none⟩).1) with
      ⟨after, linked, content⟩
    rw [← content] at grown
    refine ⟨last, after, ?_, linked, _, spare, ?_, secondValues, ?_, grown⟩
    · rw [lastCell, List.getLast?_append]
      rfl
    · rw [values, List.map_append]
      rfl
    · rw [List.getLast?_append]
      rfl

omit [DecidableEq Ptr] in
/-- What is not live is not live in the other memory. -/
theorem Holds.dead (holds : Holds content head early start late rest) (dead : content ptr = none) :
    rest ptr = none := by
  rcases holds with ⟨_, chain, spare, _, _, _, parts⟩
  rcases parts.dead dead with ⟨offChain, offSpare⟩
  rw [← dead]
  refine (parts.owns.outside ptr ?_).symm
  rw [mem_addresses_append, not_or]
  exact ⟨offChain, offSpare⟩

theorem Holds.leak (holds : Holds content head early start late rest) (dead : content ptr = none)
    (cell : Option (Cell Ptr Value)) :
    Holds (Function.update content ptr cell) head early start late
      (Function.update rest ptr cell) := by
  rcases holds with ⟨tail, chain, spare, firstValues, secondValues, lastCell, parts⟩
  exact ⟨tail, chain, spare, firstValues, secondValues, lastCell, parts.leak dead cell⟩

/-- A list has no more cells than there are. -/
theorem Holds.length_le_size (holds : Holds store.get head early start late rest) :
    early.length ≤ store.size := by
  rcases holds with ⟨_, chain, _, rfl, _, _, parts⟩
  have lengths : (values chain).length = (addresses chain).length := by
    rw [values, addresses, List.length_map, List.length_map]
  rw [lengths]
  exact Store.length_le_size parts.first.nodup parts.first.live

end LinkedCells
end Ossim
