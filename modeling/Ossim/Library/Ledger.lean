import Mathlib.Data.List.Nodup
import Mathlib.Data.List.Perm.Basic
import Mathlib.Logic.Function.Basic
import Mathlib.Logic.Relation
import Mathlib.Tactic

namespace Ossim

/-!
# Ledgers of interchangeable slots

A ledger records who holds which slot of a store: some slots are spare, and a
page may be located at one slot.  A store of page frames with the page tables
that refer to it is a ledger, and so is a RAM together with a swap device.

The order of the spare list is immaterial.  A sound operation moves one slot
between the spare list and a page; every such `Move` keeps two pages from
meeting in one slot, and keeps the set of slots that are accounted for.  A
`Leak` drops the location of a page without returning its slot.  It keeps
exclusivity only.

The last part follows the contents of the pages while they move between
slots.
-/

structure Ledger (Page Slot : Type*) where
  spare : List Slot
  loc : Page → Option Slot

namespace Ledger

variable {Page Slot : Type*}

/-- Nothing is held twice: not by the spare list, not by two pages, and not by
both. -/
structure Exclusive (ledger : Ledger Page Slot) : Prop where
  spareNodup : ledger.spare.Nodup
  injective : ∀ {left right : Page} {slot : Slot},
    ledger.loc left = some slot → ledger.loc right = some slot → left = right
  apart : ∀ {page : Page} {slot : Slot}, ledger.loc page = some slot → slot ∉ ledger.spare

/-- The slot is spare or some page is located there. -/
def Accounted (ledger : Ledger Page Slot) (slot : Slot) : Prop :=
  slot ∈ ledger.spare ∨ ∃ page, ledger.loc page = some slot

/-- Every slot on the ledger belongs to the given set. -/
def Within (ledger : Ledger Page Slot) (inside : Slot → Prop) : Prop :=
  ∀ slot, ledger.Accounted slot → inside slot

/-- The ledger accounts for exactly the slots of the given set. -/
def Covers (ledger : Ledger Page Slot) (inside : Slot → Prop) : Prop :=
  ∀ slot, ledger.Accounted slot ↔ inside slot

theorem Covers.within {ledger : Ledger Page Slot} {inside : Slot → Prop}
    (covers : ledger.Covers inside) : ledger.Within inside :=
  fun slot accounted => (covers slot).mp accounted

variable [DecidableEq Page]

/-- One sound operation.  `settle` reorders the spare list, `place` takes a
spare slot for a page without a location, and `release` returns the slot of a
page. -/
inductive Move (before after : Ledger Page Slot) : Prop
  | settle (located : after.loc = before.loc) (reordered : before.spare.Perm after.spare)
  | place (page : Page) (slot : Slot) (vacant : before.loc page = none)
      (taken : before.spare.Perm (slot :: after.spare))
      (located : after.loc = Function.update before.loc page (some slot))
  | release (page : Page) (slot : Slot) (held : before.loc page = some slot)
      (returned : after.spare.Perm (slot :: before.spare))
      (located : after.loc = Function.update before.loc page none)

/-- Any number of sound operations. -/
abbrev Moves : Ledger Page Slot → Ledger Page Slot → Prop := Relation.ReflTransGen Move

/-- A page loses its location and the slot goes nowhere. -/
def Leak (before after : Ledger Page Slot) : Prop :=
  after.spare = before.spare ∧ ∃ page, after.loc = Function.update before.loc page none

/-- Any number of sound operations and leaks. -/
abbrev Drift : Ledger Page Slot → Ledger Page Slot → Prop :=
  Relation.ReflTransGen fun before after => Move before after ∨ Leak before after

variable {before after : Ledger Page Slot}

theorem Moves.drift (moves : Moves before after) : Drift before after :=
  Relation.ReflTransGen.mono (fun _ _ move => Or.inl move) _ _ moves

/-! ## Exclusivity -/

/-- What an update of one location says about the location of any page. -/
private theorem loc_update {locate : Page → Option Slot} {page other : Page}
    {value : Option Slot} {slot : Slot}
    (found : Function.update locate page value other = some slot) :
    (other = page ∧ value = some slot) ∨ (other ≠ page ∧ locate other = some slot) := by
  by_cases same : other = page
  · subst same
    rw [Function.update_self] at found
    exact Or.inl ⟨rfl, found⟩
  · rw [Function.update_of_ne same] at found
    exact Or.inr ⟨same, found⟩

/-- Dropping a location cannot create a conflict. -/
private theorem Exclusive.forget (exclusive : before.Exclusive) (page : Page)
    (spare : after.spare = before.spare)
    (located : after.loc = Function.update before.loc page none) : after.Exclusive where
  spareNodup := spare ▸ exclusive.spareNodup
  injective := by
    intro left right slot leftFound rightFound
    rw [located] at leftFound rightFound
    rcases loc_update leftFound with ⟨_, impossible⟩ | ⟨_, leftOld⟩
    · cases impossible
    · rcases loc_update rightFound with ⟨_, impossible⟩ | ⟨_, rightOld⟩
      · cases impossible
      · exact exclusive.injective leftOld rightOld
  apart := by
    intro other slot found
    rw [located] at found
    rcases loc_update found with ⟨_, impossible⟩ | ⟨_, old⟩
    · cases impossible
    · exact spare ▸ exclusive.apart old

theorem Exclusive.move (exclusive : before.Exclusive) (move : Move before after) :
    after.Exclusive := by
  cases move with
  | settle located reordered =>
      refine ⟨reordered.nodup exclusive.spareNodup, ?_, ?_⟩
      · intro left right slot leftFound rightFound
        rw [located] at leftFound rightFound
        exact exclusive.injective leftFound rightFound
      · intro page slot found
        rw [located] at found
        exact fun member => exclusive.apart found (reordered.mem_iff.mpr member)
  | place page slot vacant taken located =>
      have nodup := List.nodup_cons.mp (taken.nodup exclusive.spareNodup)
      have free : slot ∈ before.spare := taken.mem_iff.mpr List.mem_cons_self
      refine ⟨nodup.2, ?_, ?_⟩
      · intro left right other leftFound rightFound
        rw [located] at leftFound rightFound
        rcases loc_update leftFound with ⟨leftSame, leftSlot⟩ | ⟨_, leftOld⟩ <;>
          rcases loc_update rightFound with ⟨rightSame, rightSlot⟩ | ⟨_, rightOld⟩
        · rw [leftSame, rightSame]
        · cases leftSlot
          exact absurd free (exclusive.apart rightOld)
        · cases rightSlot
          exact absurd free (exclusive.apart leftOld)
        · exact exclusive.injective leftOld rightOld
      · intro other found otherFound
        rw [located] at otherFound
        rcases loc_update otherFound with ⟨_, otherSlot⟩ | ⟨_, old⟩
        · cases otherSlot
          exact nodup.1
        · exact fun member =>
            exclusive.apart old (taken.mem_iff.mpr (List.mem_cons_of_mem slot member))
  | release page slot held returned located =>
      have free := exclusive.apart held
      refine ⟨returned.nodup_iff.mpr (List.nodup_cons.mpr ⟨free, exclusive.spareNodup⟩), ?_, ?_⟩
      · intro left right other leftFound rightFound
        rw [located] at leftFound rightFound
        rcases loc_update leftFound with ⟨_, impossible⟩ | ⟨_, leftOld⟩
        · cases impossible
        · rcases loc_update rightFound with ⟨_, impossible⟩ | ⟨_, rightOld⟩
          · cases impossible
          · exact exclusive.injective leftOld rightOld
      · intro other found otherFound member
        rw [located] at otherFound
        rcases loc_update otherFound with ⟨_, impossible⟩ | ⟨different, old⟩
        · cases impossible
        · rcases List.mem_cons.mp (returned.mem_iff.mp member) with same | spare
          · subst same
            exact different (exclusive.injective old held)
          · exact exclusive.apart old spare

theorem Exclusive.drift (exclusive : before.Exclusive) (drift : Drift before after) :
    after.Exclusive := by
  induction drift with
  | refl => exact exclusive
  | tail _ step inductionHypothesis =>
      rcases step with move | ⟨spare, page, located⟩
      · exact inductionHypothesis.move move
      · exact inductionHypothesis.forget page spare located

/-! ## Conservation -/

/-- A sound operation loses no slot and invents none. -/
theorem Move.accounted_iff (move : Move before after) (slot : Slot) :
    after.Accounted slot ↔ before.Accounted slot := by
  cases move with
  | settle located reordered => rw [Accounted, Accounted, located, reordered.mem_iff]
  | place page taken vacant spare located =>
      rw [Accounted, Accounted, located, spare.mem_iff, List.mem_cons]
      constructor
      · rintro (member | ⟨other, found⟩)
        · exact Or.inl (Or.inr member)
        · rcases loc_update found with ⟨_, same⟩ | ⟨_, old⟩
          · cases same
            exact Or.inl (Or.inl rfl)
          · exact Or.inr ⟨other, old⟩
      · rintro ((same | member) | ⟨other, found⟩)
        · exact Or.inr ⟨page, by rw [Function.update_self, same]⟩
        · exact Or.inl member
        · have different : other ≠ page := by
            rintro rfl
            rw [vacant] at found
            cases found
          exact Or.inr ⟨other, by rw [Function.update_of_ne different, found]⟩
  | release page returned held spare located =>
      rw [Accounted, Accounted, located, spare.mem_iff, List.mem_cons]
      constructor
      · rintro ((same | member) | ⟨other, found⟩)
        · exact Or.inr ⟨page, by rw [held, same]⟩
        · exact Or.inl member
        · rcases loc_update found with ⟨_, impossible⟩ | ⟨_, old⟩
          · cases impossible
          · exact Or.inr ⟨other, old⟩
      · rintro (member | ⟨other, found⟩)
        · exact Or.inl (Or.inr member)
        · by_cases same : other = page
          · subst same
            rw [held, Option.some.injEq] at found
            exact Or.inl (Or.inl found.symm)
          · exact Or.inr ⟨other, by rw [Function.update_of_ne same, found]⟩

theorem Covers.moves {inside : Slot → Prop} (covers : before.Covers inside)
    (moves : Moves before after) : after.Covers inside := by
  induction moves with
  | refl => exact covers
  | tail _ step inductionHypothesis =>
      intro slot
      rw [step.accounted_iff slot]
      exact inductionHypothesis slot

omit [DecidableEq Page] in
/-- When no page is located anywhere, all slots are spare again. -/
theorem Exclusive.spare_perm {ledger : Ledger Page Slot} (exclusive : ledger.Exclusive)
    {inside : Slot → Prop} (covers : ledger.Covers inside) (vacant : ∀ page, ledger.loc page = none)
    {slots : List Slot} (distinct : slots.Nodup) (listed : ∀ slot, slot ∈ slots ↔ inside slot) :
    ledger.spare.Perm slots := by
  rw [List.perm_ext_iff_of_nodup exclusive.spareNodup distinct]
  intro slot
  rw [listed, ← covers slot]
  constructor
  · exact Or.inl
  · rintro (spare | ⟨page, located⟩)
    · exact spare
    · rw [vacant page] at located
      cases located

theorem Within.drift {inside : Slot → Prop} (within : before.Within inside)
    (drift : Drift before after) : after.Within inside := by
  induction drift with
  | refl => exact within
  | tail _ step inductionHypothesis =>
      intro slot accounted
      rcases step with move | ⟨spare, page, located⟩
      · exact inductionHypothesis slot ((move.accounted_iff slot).mp accounted)
      · rw [Accounted, spare, located] at accounted
        rcases accounted with member | ⟨other, found⟩
        · exact inductionHypothesis slot (Or.inl member)
        · rcases loc_update found with ⟨_, impossible⟩ | ⟨_, old⟩
          · cases impossible
          · exact inductionHypothesis slot (Or.inr ⟨other, old⟩)

/-! ## Several owners

When every owner has a table of its own, a page of the ledger is an owner with
one of its pages.  An operation on one table is an operation on the ledger. -/

def ofTables {Owner : Type*} (spare : List Slot) (tables : Owner → Page → Option Slot) :
    Ledger (Owner × Page) Slot :=
  ⟨spare, fun held => tables held.1 held.2⟩

omit [DecidableEq Page] in
/-- Slots are spare or with one of the owners, so the owners hold all that are
missing. -/
theorem Covers.length_le {Owner : Type*} {spare slots : List Slot}
    {tables : Owner → Page → Option Slot} {inside : Slot → Prop}
    (covers : (ofTables spare tables).Covers inside) (distinct : slots.Nodup)
    (listed : ∀ slot ∈ slots, inside slot) (owners : Finset Owner) (pages : Finset Page)
    (complete : ∀ owner page, (tables owner page).isSome = true → owner ∈ owners ∧ page ∈ pages) :
    slots.length ≤ spare.length +
      ∑ owner ∈ owners, (pages.filter fun page => (tables owner page).isSome = true).card := by
  classical
  let held (owner : Owner) : Finset (Option Slot) :=
    (pages.filter fun page => (tables owner page).isSome = true).image (tables owner)
  have counted : (slots.map some).toFinset ⊆ (spare.map some).toFinset ∪ owners.biUnion held := by
    intro entry member
    rw [List.mem_toFinset, List.mem_map] at member
    rcases member with ⟨slot, member, rfl⟩
    rw [Finset.mem_union]
    rcases (covers slot).mpr (listed slot member) with free | ⟨⟨owner, page⟩, located⟩
    · exact Or.inl (List.mem_toFinset.mpr (List.mem_map_of_mem free))
    · have found : tables owner page = some slot := located
      have present : (tables owner page).isSome = true := by
        rw [found]
        rfl
      rcases complete owner page present with ⟨known, numbered⟩
      refine Or.inr (Finset.mem_biUnion.mpr ⟨owner, known, Finset.mem_image.mpr ⟨page, ?_, found⟩⟩)
      exact Finset.mem_filter.mpr ⟨numbered, present⟩
  calc
    slots.length = (slots.map some).toFinset.card := by
      rw [List.toFinset_card_of_nodup (distinct.map (Option.some_injective _)), List.length_map]
    _ ≤ ((spare.map some).toFinset ∪ owners.biUnion held).card := Finset.card_le_card counted
    _ ≤ (spare.map some).toFinset.card + (owners.biUnion held).card := Finset.card_union_le _ _
    _ ≤ spare.length + ∑ owner ∈ owners, (held owner).card :=
      Nat.add_le_add ((List.toFinset_card_le _).trans (List.length_map _).le)
        Finset.card_biUnion_le
    _ ≤ _ := Nat.add_le_add_left (Finset.sum_le_sum fun _ _ => Finset.card_image_le) _

private theorem ofTables_loc_update {Owner : Type*} [DecidableEq Owner]
    (spare : List Slot) (tables : Owner → Page → Option Slot) (owner : Owner)
    (table : Page → Option Slot) (page : Page) (value : Option Slot) :
    (ofTables spare (Function.update tables owner (Function.update table page value))).loc =
      Function.update (ofTables spare (Function.update tables owner table)).loc
        (owner, page) value := by
  funext held
  rcases held with ⟨other, elsewhere⟩
  by_cases same : other = owner
  · subst same
    by_cases samePage : elsewhere = page
    · subst samePage
      simp [ofTables]
    · simp [ofTables, samePage]
  · simp [ofTables, same]

theorem Move.ofTable {Owner : Type*} [DecidableEq Owner] (tables : Owner → Page → Option Slot)
    (owner : Owner) (move : Move before after) :
    Move (ofTables before.spare (Function.update tables owner before.loc))
      (ofTables after.spare (Function.update tables owner after.loc)) := by
  cases move with
  | settle located reordered => exact .settle (by rw [located]; rfl) reordered
  | place page slot vacant taken located =>
      refine .place (owner, page) slot ?_ taken ?_
      · simp [ofTables, vacant]
      · rw [located]
        exact ofTables_loc_update _ tables owner _ page (some slot)
  | release page slot held returned located =>
      refine .release (owner, page) slot ?_ returned ?_
      · simp [ofTables, held]
      · rw [located]
        exact ofTables_loc_update _ tables owner _ page none

theorem Moves.ofTable {Owner : Type*} [DecidableEq Owner] (tables : Owner → Page → Option Slot)
    (owner : Owner) (moves : Moves before after) :
    Moves (ofTables before.spare (Function.update tables owner before.loc))
      (ofTables after.spare (Function.update tables owner after.loc)) :=
  Relation.ReflTransGen.lift
    (fun ledger : Ledger Page Slot =>
      ofTables ledger.spare (Function.update tables owner ledger.loc))
    (fun _ _ (move : Move _ _) => move.ofTable tables owner) _ _ moves

theorem Drift.ofTable {Owner : Type*} [DecidableEq Owner] (tables : Owner → Page → Option Slot)
    (owner : Owner) (drift : Drift before after) :
    Drift (ofTables before.spare (Function.update tables owner before.loc))
      (ofTables after.spare (Function.update tables owner after.loc)) := by
  refine Relation.ReflTransGen.lift
    (fun ledger : Ledger Page Slot =>
      ofTables ledger.spare (Function.update tables owner ledger.loc)) ?_ _ _ drift
  intro first second step
  rcases step with move | ⟨spare, page, located⟩
  · exact Or.inl (move.ofTable tables owner)
  · refine Or.inr ⟨spare, (owner, page), ?_⟩
    dsimp only
    rw [located]
    exact ofTables_loc_update _ tables owner _ page none

/-! ## Contents -/

/-- What a page holds, if it has a location. -/
def content {Cell : Type*} (ledger : Ledger Page Slot) (memory : Slot → Cell) (page : Page) :
    Option Cell :=
  (ledger.loc page).map memory

/-- A page gives up one slot for a spare one. -/
structure Relocation (before after : Ledger Page Slot) (page : Page) (old new : Slot) : Prop where
  held : before.loc page = some old
  exchanged : ∃ rest, before.spare.Perm (new :: rest) ∧ after.spare.Perm (old :: rest)
  located : after.loc = Function.update before.loc page (some new)

theorem Relocation.moves {page : Page} {old new : Slot}
    (relocation : Relocation before after page old new) : Moves before after := by
  rcases relocation.exchanged with ⟨rest, given, kept⟩
  let between : Ledger Page Slot :=
    ⟨old :: before.spare, Function.update before.loc page none⟩
  have released : Move before between := .release page old relocation.held (List.Perm.refl _) rfl
  have placed : Move between after := by
    refine .place page new (Function.update_self _ _ _) ?_ ?_
    · calc
        (old :: before.spare).Perm (old :: new :: rest) := given.cons old
        _ |>.Perm (new :: old :: rest) := List.Perm.swap new old rest
        _ |>.Perm (new :: after.spare) := kept.symm.cons new
    · rw [relocation.located, Function.update_idem]
  exact (Relation.ReflTransGen.single released).tail placed

/-- Copying a page to its new slot leaves the contents of all pages alone, as
long as the slots of the other pages keep their cells. -/
theorem Relocation.content {Cell : Type*} {page : Page} {old new : Slot}
    (relocation : Relocation before after page old new) (memory copied : Slot → Cell)
    (copy : copied new = memory old)
    (kept : ∀ other slot, other ≠ page → before.loc other = some slot →
      copied slot = memory slot)
    (other : Page) : after.content copied other = before.content memory other := by
  rw [Ledger.content, Ledger.content, relocation.located]
  by_cases same : other = page
  · subst same
    rw [Function.update_self, relocation.held, Option.map_some, Option.map_some, copy]
  · rw [Function.update_of_ne same]
    cases found : before.loc other with
    | none => rfl
    | some slot => rw [Option.map_some, Option.map_some, kept other slot same found]

omit [DecidableEq Page] in
/-- Writing to the slot of one page changes the content of that page only. -/
theorem Exclusive.content_write {Cell : Type*} {page other : Page} {slot : Slot}
    {ledger : Ledger Page Slot} (exclusive : ledger.Exclusive) (memory written : Slot → Cell)
    (held : ledger.loc page = some slot) (different : other ≠ page)
    (kept : ∀ elsewhere, ledger.loc other = some elsewhere → elsewhere ≠ slot →
      written elsewhere = memory elsewhere) :
    ledger.content written other = ledger.content memory other := by
  rw [Ledger.content, Ledger.content]
  cases found : ledger.loc other with
  | none => rfl
  | some elsewhere =>
      have apart : elsewhere ≠ slot := by
        rintro rfl
        exact different (exclusive.injective found held)
      rw [Option.map_some, Option.map_some, kept elsewhere found apart]

end Ledger
end Ossim
