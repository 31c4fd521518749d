import Ossim.Kernel.VirtualBytes
import Ossim.Memory.GrowthOutcome
import Ossim.Kernel.Readback

namespace Ossim
namespace Kernel

open Memory

/-!
# The machine that a process has to itself

To its program, a process is a machine of its own: a break, a list of free
regions, a table of regions, pages that are there or not, bytes and registers.
Frames, devices, queues and process ids do not occur in it.

A frame keeps the bytes of the process that held it before, and a control block
comes from `malloc` with whatever its registers held.  Such a byte or register
has no value here until the program gives it one.

`Lays` says that the memory map of a process has the layout of its machine, and
`Shows` that it also has the pages, bytes and registers.  The results of this
module follow one instruction of the process.
-/

/-! ## The machine -/

structure PrivateMachine where
  brk : Addr
  nodes : List VmRgStruct
  regions : Fin PAGING_MAX_SYMTBL_SZ → VmRgStruct
  resident : Addr → Bool
  cells : Addr × Fin 256 → Option Byte
  regs : Fin 10 → Option Addr

namespace PrivateMachine

/-- A process that has run nothing. -/
def fresh : PrivateMachine where
  brk := 0
  nodes := [⟨0, 0, .kernel⟩]
  regions := fun _ => VmRgStruct.zero
  resident := fun _ => false
  cells := fun _ => none
  regs := fun _ => none

def setRegion (machine : PrivateMachine) (slot : Fin PAGING_MAX_SYMTBL_SZ) (rg : VmRgStruct) :
    PrivateMachine :=
  { machine with regions := Function.update machine.regions slot rg }

/-- The first free region that fits, as far as it is accepted. -/
def search (machine : PrivateMachine) (size : Addr) : Option VmRgStruct × PrivateMachine :=
  match firstFit (asInt size) machine.nodes with
  | none => (none, machine)
  | some (newrg, left) =>
      (if newrg.rgStart = ofInt (-1) then none else some newrg, { machine with nodes := left })

/-- The pages that a growth adds. -/
def GrownPage (brk incSz page : Addr) : Prop :=
  brk.toNat ≤ page.toNat * 256 ∧ page.toNat * 256 < brk.toNat + pagesNeeded incSz * 256 ∧
    page < PAGING_MAX_PGN

instance (brk incSz page : Addr) : Decidable (GrownPage brk incSz page) :=
  inferInstanceAs (Decidable (_ ∧ _ ∧ _))

/-- Move the break by whole pages, all of which are there afterwards, and place a
region at the old break. -/
def grow (machine : PrivateMachine) (slot : Fin PAGING_MAX_SYMTBL_SZ) (size : Addr) :
    PrivateMachine :=
  let incSz := pagingPageAlignsz size
  if machine.brk < machine.brk + incAmt incSz then
    { machine with
      brk := machine.brk + incAmt incSz
      regions := Function.update machine.regions slot ⟨machine.brk, machine.brk + size, .user⟩
      resident := fun page =>
        machine.resident page || decide (GrownPage machine.brk incSz page) }
  else machine

def alloc (machine : PrivateMachine) (slot : Fin PAGING_MAX_SYMTBL_SZ) (size : Addr) :
    PrivateMachine :=
  match machine.search size with
  | (some newrg, searched) => searched.setRegion slot newrg
  | (none, searched) => searched.grow slot size

def free (machine : PrivateMachine) (slot : Fin PAGING_MAX_SYMTBL_SZ) : PrivateMachine :=
  let rg := machine.regions slot
  if rg.rgStart = 0 ∧ rg.rgEnd = 0 then machine
  else
    let dropped := machine.setRegion slot VmRgStruct.zero
    if kmemAddrIsKernel rg.rgStart = true ∨ rg.rgEnd ≤ rg.rgStart then dropped
    else { dropped with nodes := ⟨rg.rgStart, rg.rgEnd, .user⟩ :: machine.nodes }

/-- The page and the offset of a byte that the program may touch. -/
def place (machine : PrivateMachine) (slot : Fin PAGING_MAX_SYMTBL_SZ) (offset : Addr) :
    Option (Addr × Fin 256) :=
  let rg := machine.regions slot
  if rg.rgStart = rg.rgEnd ∨ rg.rgEnd - rg.rgStart ≤ offset then none
  else if rg.modeBit ≠ .user then none
  else if machine.resident (accessPage (rg.rgStart + offset)) then
    some (accessPage (rg.rgStart + offset), accessCell (rg.rgStart + offset))
  else none

/-- The place of an operand pair. -/
def target (machine : PrivateMachine) (rgid : BitVec 32) (offset : Addr) :
    Option (Addr × Fin 256) :=
  (getSymrgByid rgid.toInt).bind fun slot => machine.place slot offset

def setReg (machine : PrivateMachine) (index : Addr) (value : Option Addr) : PrivateMachine :=
  if inside : index.toNat < 10 then
    { machine with regs := Function.update machine.regs ⟨index.toNat, inside⟩ value }
  else machine

/-- An allocation for a region outside the table has a defined outcome only if it
is refused. -/
def allocAt (machine : PrivateMachine) (rgid : BitVec 32) (size : Addr) : PrivateMachine :=
  match getSymrgByid rgid.toInt with
  | none => (machine.search size).2
  | some slot => machine.alloc slot size

def freeAt (machine : PrivateMachine) (rgid : BitVec 32) : PrivateMachine :=
  match getSymrgByid rgid.toInt with
  | none => machine
  | some slot => machine.free slot

/-- One instruction that uses the memory of the process alone. -/
def step (machine : PrivateMachine) (ins : Inst) : PrivateMachine :=
  match ins.opcode with
  | .ALLOC => machine.allocAt (ins.arg1.setWidth 32) ins.arg0
  | .FREE => machine.freeAt (ins.arg0.setWidth 32)
  | .READ =>
      match machine.target (ins.arg0.setWidth 32) ins.arg1 with
      | none => machine
      | some place =>
          machine.setReg ins.arg2
            ((machine.cells place).map fun byte => (byte.signExtend 32).setWidth 64)
  | .WRITE =>
      match machine.target (ins.arg1.setWidth 32) ins.arg2 with
      | none => machine
      | some place =>
          { machine with
            cells := Function.update machine.cells place (some (ins.arg0.setWidth 8)) }
  | _ => machine

/-- The machine after the first instructions of a program. -/
def run (code : List Inst) (count : Nat) : PrivateMachine := (code.take count).foldl step fresh

theorem run_succ {code : List Inst} {count : Nat} {ins : Inst} (next : code[count]? = some ins) :
    run code (count + 1) = (run code count).step ins := by
  rw [run, List.take_add_one, next, List.foldl_append]
  rfl

end PrivateMachine

/-- The instructions that use the memory of the process alone. -/
def Inst.User (ins : Inst) : Prop :=
  ins.opcode = .CALC ∨ ins.opcode = .ALLOC ∨ ins.opcode = .FREE ∨ ins.opcode = .READ ∨
    ins.opcode = .WRITE

instance (ins : Inst) : Decidable ins.User := inferInstanceAs (Decidable (_ ∨ _ ∨ _ ∨ _ ∨ _))

/-! ## What the kernel shows of it -/

/-- A memory map has the layout of the machine. -/
structure MmLays (mm : MmStruct) (machine : PrivateMachine) : Prop where
  brk : mm.area.sbrk = machine.brk
  nodes : mm.area.vmFreergList = machine.nodes
  regions : mm.symrgtbl = machine.regions

/-- The regions, the free list and the break of the process are those of the
machine. -/
def Os.Lays (os : Os) (proc : ProcRef) (machine : PrivateMachine) : Prop :=
  MmLays (os.mm proc) machine

/-- The pages, the bytes that have a value and the registers that have one are
those of the machine, too. -/
structure Os.Shows (os : Os) (proc : ProcRef) (machine : PrivateMachine) : Prop where
  lays : os.Lays proc machine
  resident : ∀ page, ((os.mm proc).frameOf page).isSome = machine.resident page
  cells : ∀ page offset byte, machine.cells (page, offset) = some byte →
    ∃ fpn, (os.mm proc).frameOf page = some fpn ∧ os.mram.storage (pageCell fpn offset) = byte
  regs : ∀ index value, machine.regs index = some value → os.register proc index = some value

/-! ## Searches and growths -/

section Layout

variable {mm sought enlarged : MmStruct} {mram left : MemphyStruct} {machine : PrivateMachine}
variable {size : Addr}

theorem MmLays.setRegion (lays : MmLays mm machine) (slot : Fin PAGING_MAX_SYMTBL_SZ)
    (rg : VmRgStruct) : MmLays (mm.setRegion slot rg) (machine.setRegion slot rg) := by
  refine ⟨lays.brk, lays.nodes, ?_⟩
  rw [MmStruct.setRegion, PrivateMachine.setRegion, lays.regions]

theorem MmLays.setFreeList (lays : MmLays mm machine) (sound : mm.Sound)
    (nodes : List VmRgStruct) : MmLays (mm.setFreeList nodes) { machine with nodes := nodes } := by
  have area := sound.area_setFreeList nodes
  refine ⟨?_, ?_, lays.regions⟩
  · rw [area]
    exact lays.brk
  · rw [area]

/-- A search that finds nothing leaves the same list on both sides. -/
theorem MmLays.searched (lays : MmLays mm machine) (sound : mm.Sound)
    (search : Searched (asInt size) mm sought) :
    (machine.search size).1 = none ∧ MmLays sought (machine.search size).2 := by
  rw [PrivateMachine.search, ← lays.nodes]
  rcases search with ⟨missing, rfl⟩ | ⟨newrg, rest, found, allOnes, rfl⟩
  · rw [missing]
    exact ⟨rfl, lays⟩
  · rw [found]
    exact ⟨if_pos allOnes, lays.setFreeList sound rest⟩

theorem PrivateMachine.search_rest (machine : PrivateMachine) (size : Addr) :
    (machine.search size).2.brk = machine.brk ∧
      (machine.search size).2.regions = machine.regions ∧
      (machine.search size).2.resident = machine.resident ∧
      (machine.search size).2.cells = machine.cells ∧
      (machine.search size).2.regs = machine.regs := by
  unfold PrivateMachine.search
  split <;> exact ⟨rfl, rfl, rfl, rfl, rfl⟩

theorem PrivateMachine.grow_rest (machine : PrivateMachine) (slot : Fin PAGING_MAX_SYMTBL_SZ)
    (size : Addr) : (machine.grow slot size).cells = machine.cells ∧
      (machine.grow slot size).regs = machine.regs := by
  unfold PrivateMachine.grow
  dsimp only
  split <;> exact ⟨rfl, rfl⟩

theorem MmLays.grown (lays : MmLays mm machine)
    (growth : Growth mm mram (pagingPageAlignsz size) enlarged left)
    (slot : Fin PAGING_MAX_SYMTBL_SZ) :
    MmLays (enlarged.setRegion slot ⟨mm.area.sbrk, mm.area.sbrk + size, .user⟩)
      (machine.grow slot size) := by
  have accepted := growth.accepted
  rw [lays.brk] at accepted
  rw [PrivateMachine.grow, if_pos accepted, lays.brk]
  refine ⟨?_, ?_, ?_⟩
  · exact growth.sbrk.trans (by rw [lays.brk])
  · exact growth.vmFreergList.trans lays.nodes
  · rw [MmStruct.setRegion, growth.symrgtbl, lays.regions]

/-- With room, a growth adds the pages of the range and no others. -/
theorem Growth.resident_iff {incSz : Addr} (growth : Growth mm mram incSz enlarged left)
    (sound : mm.Sound) (enough : pagesNeeded incSz ≤ mram.freeFpList.length)
    (few : pagesNeeded incSz ≤ PAGING_MAX_PGN.toNat) (page : Addr) :
    (enlarged.frameOf page).isSome =
      ((mm.frameOf page).isSome ||
        decide (PrivateMachine.GrownPage mm.area.sbrk incSz page)) := by
  have count := incNumPage_eq few
  have number : (incNumPage incSz).toNat = pagesNeeded incSz := by omega
  have top := toNat_grown_break mm.area.sbrk incSz growth.accepted (by omega)
  rw [Bool.eq_iff_iff, Bool.or_eq_true, decide_eq_true_iff, PrivateMachine.GrownPage]
  constructor
  · intro present
    rcases growth.entry page with ⟨⟨lower, upper⟩, _⟩ | same
    · rcases Option.isSome_iff_exists.mp present with ⟨fpn, mapped⟩
      exact Or.inr ⟨lower, by omega, MmStruct.lt_of_frameOf mapped⟩
    · rw [MmStruct.frameOf_isSome, same, ← MmStruct.frameOf_isSome] at present
      exact Or.inl present
  · rintro (before | ⟨lower, upper, short⟩)
    · rcases Option.isSome_iff_exists.mp before with ⟨fpn, mapped⟩
      rw [growth.frameOf_of_some sound mapped]
      rfl
    · have inside : page.toNat * 256 <
          mm.area.sbrk.toNat + (incNumPage incSz).toNat * 256 := by
        rw [number]
        exact upper
      exact growth.enough (number.trans_le enough) page lower inside short

/-! ## A change of the memory map -/

/-- The machine goes along with a change of the memory map.  Pages are promised
only if there was room. -/
structure Follows (room : Prop) (mm : MmStruct) (machine : PrivateMachine) (after : MmStruct)
    (next : PrivateMachine) : Prop where
  lays : MmLays after next
  kept : ∀ page fpn, mm.frameOf page = some fpn → after.frameOf page = some fpn
  resident : room → (∀ page, (mm.frameOf page).isSome = machine.resident page) →
    ∀ page, (after.frameOf page).isSome = next.resident page
  cells : next.cells = machine.cells
  regs : next.regs = machine.regs

/-- The frames that an allocation may need are there. -/
def RoomFor (mram : MemphyStruct) (size : Addr) : Prop :=
  pagesNeeded (pagingPageAlignsz size) ≤ mram.freeFpList.length ∧
    pagesNeeded (pagingPageAlignsz size) ≤ PAGING_MAX_PGN.toNat

/-- A change that concerns regions and the free list only. -/
theorem follows_of_layout {room : Prop} {after : MmStruct} {next : PrivateMachine}
    (lays : MmLays after next) (frames : after.frameOf = mm.frameOf)
    (resident : next.resident = machine.resident) (cells : next.cells = machine.cells)
    (regs : next.regs = machine.regs) : Follows room mm machine after next where
  lays := lays
  kept := by
    rw [frames]
    exact fun _ _ mapped => mapped
  resident := by
    rw [frames, resident]
    exact fun _ same => same
  cells := cells
  regs := regs

/-- An allocation from the free list. -/
theorem MmLays.alloc_taken (lays : MmLays mm machine) (sound : mm.Sound) {room : Prop}
    {newrg : VmRgStruct} {nodes : List VmRgStruct}
    (found : firstFit (asInt size) mm.area.vmFreergList = some (newrg, nodes))
    (offered : newrg.rgStart ≠ ofInt (-1)) (slot : Fin PAGING_MAX_SYMTBL_SZ) :
    Follows room mm machine ((mm.setFreeList nodes).setRegion slot newrg)
      (machine.alloc slot size) := by
  have outcome : machine.alloc slot size =
      ({ machine with nodes := nodes } : PrivateMachine).setRegion slot newrg := by
    rw [PrivateMachine.alloc, PrivateMachine.search, ← lays.nodes, found]
    dsimp only
    rw [if_neg offered]
  rw [outcome]
  exact follows_of_layout ((lays.setFreeList sound nodes).setRegion slot newrg) rfl rfl rfl rfl

/-- A refused allocation, for any region. -/
theorem MmLays.alloc_refused (lays : MmLays mm machine) (sound : mm.Sound) {room : Prop}
    (search : Searched (asInt size) mm sought)
    (refused : ¬ mm.area.sbrk < mm.area.sbrk + incAmt (pagingPageAlignsz size))
    (rgid : BitVec 32) : Follows room mm machine sought (machine.allocAt rgid size) := by
  rcases lays.searched sound search with ⟨missing, after⟩
  rcases machine.search_rest size with ⟨brk, _, resident, cells, regs⟩
  have outcome : machine.allocAt rgid size = (machine.search size).2 := by
    unfold PrivateMachine.allocAt
    split
    · rfl
    · rw [PrivateMachine.alloc]
      generalize machine.search size = result at missing after brk
      rcases result with ⟨found, searched⟩
      dsimp only at missing brk
      rw [missing]
      dsimp only
      rw [PrivateMachine.grow, if_neg (by rw [brk, ← lays.brk]; exact refused)]
  rw [outcome]
  exact follows_of_layout after search.frameOf resident cells regs

/-- An allocation at the break. -/
theorem MmLays.alloc_grown (lays : MmLays mm machine) (sound : mm.Sound)
    (search : Searched (asInt size) mm sought)
    (growth : Growth sought mram (pagingPageAlignsz size) enlarged left)
    (slot : Fin PAGING_MAX_SYMTBL_SZ) :
    Follows (RoomFor mram size) mm machine
      (enlarged.setRegion slot ⟨mm.area.sbrk, mm.area.sbrk + size, .user⟩)
      (machine.alloc slot size) := by
  rcases lays.searched sound search with ⟨missing, after⟩
  rcases machine.search_rest size with ⟨brk, _, resident, cells, regs⟩
  have soundSought := search.sound sound
  have outcome : machine.alloc slot size = (machine.search size).2.grow slot size := by
    rw [PrivateMachine.alloc]
    generalize machine.search size = result at missing
    rcases result with ⟨found, searched⟩
    dsimp only at missing
    rw [missing]
  have top := search.sbrk sound
  have rest := (machine.search size).2.grow_rest slot size
  rw [outcome]
  refine ⟨?_, ?_, ?_, rest.1.trans cells, rest.2.trans regs⟩
  · rw [← top]
    exact after.grown growth slot
  · intro page fpn mapped
    rw [← search.frameOf] at mapped
    exact growth.frameOf_of_some soundSought mapped
  · rintro ⟨enough, few⟩ same page
    have accepted := growth.accepted
    rw [after.brk] at accepted
    have added := Growth.resident_iff growth soundSought enough few page
    rw [search.frameOf, same, top, ← resident, lays.brk, ← brk] at added
    rw [PrivateMachine.grow, if_pos accepted]
    exact added

/-- A release of a slot of the table. -/
theorem MmLays.free_follows (lays : MmLays mm machine) (sound : mm.Sound)
    (slot : Fin PAGING_MAX_SYMTBL_SZ) :
    Follows True mm machine
      (if (mm.symrgtbl slot).rgStart = 0 ∧ (mm.symrgtbl slot).rgEnd = 0 then mm
        else if kmemAddrIsKernel (mm.symrgtbl slot).rgStart = true ∨
            (mm.symrgtbl slot).rgEnd ≤ (mm.symrgtbl slot).rgStart then
          mm.setRegion slot VmRgStruct.zero
        else (mm.setRegion slot VmRgStruct.zero).setFreeList
          (⟨(mm.symrgtbl slot).rgStart, (mm.symrgtbl slot).rgEnd, .user⟩ ::
            mm.area.vmFreergList))
      (machine.free slot) := by
  have dropped := lays.setRegion slot VmRgStruct.zero
  rw [PrivateMachine.free, ← lays.regions, ← lays.nodes]
  dsimp only
  split
  · exact follows_of_layout lays rfl rfl rfl rfl
  · split
    · exact follows_of_layout dropped rfl rfl rfl rfl
    · exact follows_of_layout (dropped.setFreeList (sound.setRegion slot _) _) rfl rfl rfl rfl

end Layout

/-! ## Allocation and release -/

section Calls

variable {os : Os} {proc : ProcRef} {machine : PrivateMachine}

theorem liballoc_follows (sound : os.Sound) (live : (os.procs proc).isSome = true)
    (resolves : os.Resolves proc) (lays : os.Lays proc machine) (size : Addr) (rgid : BitVec 32)
    (defined : (liballoc os proc size rgid).2.fault = false) :
    ∃ mm, (liballoc os proc size rgid).2.procs = (os.setMm proc mm).procs ∧
      (liballoc os proc size rgid).2.mram.storage = os.mram.storage ∧
      Follows (RoomFor os.mram size) (os.mm proc) machine mm (machine.allocAt rgid size) := by
  have own : ∀ mm, (os.setMm proc mm).mm proc = mm := fun mm => Os.mm_setMm_self live mm
  have mmSound := sound.memory proc
  have inTable : ∀ slot, getSymrgByid rgid.toInt = some slot →
      machine.allocAt rgid size = machine.alloc slot size := by
    intro slot named
    rw [PrivateMachine.allocAt, named]
  rcases alloc_cases sound live rgid.toInt size with
    ⟨newrg, nodes, found, offered, taken⟩ | ⟨sought, search, refused, failed⟩ |
      ⟨_, sought, grown, left, search, growth, accepted⟩
  · rw [liballoc_of_alloc taken] at defined ⊢
    rcases Os.setSymrg_of_unfaulted defined with ⟨slot, named, stored⟩
    rw [stored, Os.setMm_setMm, own, inTable slot named]
    exact ⟨_, rfl, rfl, lays.alloc_taken mmSound found offered slot⟩
  · rw [liballoc_of_refused failed]
    exact ⟨_, rfl, rfl, lays.alloc_refused mmSound search (refused resolves) rgid⟩
  · rw [liballoc_of_alloc accepted] at defined ⊢
    rcases Os.setSymrg_of_unfaulted defined with ⟨slot, named, stored⟩
    have mapped : ((os.setMm proc grown).setMram left).mm proc = grown := own grown
    rcases growth.device with ⟨spare, _, device⟩
    rw [stored, mapped, inTable slot named]
    refine ⟨_, ?_, ?_, lays.alloc_grown mmSound search growth slot⟩
    · have again := fun mm => congrArg Os.procs (Os.setMm_setMm os proc grown mm)
      exact again _
    · rw [device]
      rfl

theorem libfree_follows (sound : os.Sound) (live : (os.procs proc).isSome = true)
    (lays : os.Lays proc machine) (rgid : BitVec 32) :
    ∃ mm, (libfree os proc rgid).2 = os.setMm proc mm ∧
      Follows True (os.mm proc) machine mm (machine.freeAt rgid) := by
  have mmSound := sound.memory proc
  rw [libfree_state, free, PrivateMachine.freeAt]
  cases named : getSymrgByid rgid.toInt with
  | none =>
      exact ⟨os.mm proc, (Os.setMm_self os proc).symm, follows_of_layout lays rfl rfl rfl rfl⟩
  | some slot =>
      refine ⟨_, ?_, MmLays.free_follows lays mmSound slot⟩
      have stored : os.setSymrg proc rgid.toInt VmRgStruct.zero =
          os.setMm proc ((os.mm proc).setRegion slot VmRgStruct.zero) := by
        rw [Os.setSymrg, named]
        rfl
      dsimp only
      rw [stored, Os.mm_setMm_self live, enlistVmFreergList_eq
        (mmSound.setRegion slot VmRgStruct.zero)]
      split
      · exact (Os.setMm_self os proc).symm
      · cases inside : kmemAddrIsKernel ((os.mm proc).symrgtbl slot).rgStart with
        | true => rw [if_pos (Or.inl rfl), if_pos rfl]
        | false =>
            rw [if_neg Bool.false_ne_true]
            by_cases unordered : ((os.mm proc).symrgtbl slot).rgEnd ≤
                ((os.mm proc).symrgtbl slot).rgStart
            · rw [if_pos unordered, if_pos (Or.inr unordered)]
              exact Os.setMm_setMm _ _ _ _
            · rw [if_neg unordered, if_neg (by simp [unordered])]
              exact Os.setMm_setMm _ _ _ _

/-! ## One byte -/

/-- The program finds a byte at the place where the machine has it. -/
theorem Os.Shows.translate_iff (shown : os.Shows proc machine) (rgid : BitVec 32)
    (offset : Addr) :
    match machine.target rgid offset with
    | none => (resolveRgAddr os proc rgid.toInt offset).bind (os.translate proc) = none
    | some (page, cell) => ∃ fpn, (os.mm proc).frameOf page = some fpn ∧
        (resolveRgAddr os proc rgid.toInt offset).bind (os.translate proc) =
          some (pageCell fpn cell) := by
  rw [PrivateMachine.target, resolveRgAddr]
  cases named : getSymrgByid rgid.toInt with
  | none => rfl
  | some slot =>
      rw [Option.bind_some, PrivateMachine.place, ← shown.lays.regions]
      dsimp only
      by_cases outside : ((os.mm proc).symrgtbl slot).rgStart =
          ((os.mm proc).symrgtbl slot).rgEnd ∨
          ((os.mm proc).symrgtbl slot).rgEnd - ((os.mm proc).symrgtbl slot).rgStart ≤ offset
      · rw [if_pos outside, if_pos outside]
        rfl
      · rw [if_neg outside, if_neg outside]
        by_cases kernel : ((os.mm proc).symrgtbl slot).modeBit ≠ .user
        · rw [if_pos kernel, if_pos kernel]
          rfl
        · rw [if_neg kernel, if_neg kernel, Option.bind_some, Os.translate, ← shown.resident]
          cases mapped : (os.mm proc).frameOf
              (accessPage (((os.mm proc).symrgtbl slot).rgStart + offset)) with
          | none => rfl
          | some fpn => exact ⟨fpn, mapped, congrArg some (device_address _ _)⟩

theorem MmLays.setReg {mm : MmStruct} (lays : MmLays mm machine) (index : Addr)
    (value : Option Addr) : MmLays mm (machine.setReg index value) := by
  unfold PrivateMachine.setReg
  split
  · exact ⟨lays.brk, lays.nodes, lays.regions⟩
  · exact lays

/-! ## One instruction -/

/-- The layout, for one instruction of the process. -/
theorem Os.Lays.run {ins : Inst} (lays : os.Lays proc machine) (sound : os.Sound)
    (resolves : os.Resolves proc) (fetched : fetch os proc = some ins) (user : ins.User)
    (defined : (Kernel.run os proc).2.fault = false) :
    (Kernel.run os proc).2.Lays proc (machine.step ins) := by
  have live : ((os.advance proc).procs proc).isSome = true := by
    rw [isSome_advance]
    exact isSome_of_fetch fetched
  have moved := sound.advance proc
  have here : (os.advance proc).Lays proc machine := by
    rw [Os.Lays, mm_advance]
    exact lays
  have found : (os.advance proc).Resolves proc := by
    rw [resolves_advance]
    exact resolves
  have unswapped := moved.unswapped proc
  rw [run_of_fetch fetched] at defined ⊢
  unfold dispatch at defined ⊢
  unfold PrivateMachine.step
  rcases user with opcode | opcode | opcode | opcode | opcode
  · rw [opcode]
    exact here
  · rw [opcode] at defined ⊢
    rcases liballoc_follows moved live found here ins.arg0 (ins.arg1.setWidth 32) defined with
      ⟨mm, procs, _, follows⟩
    rw [Os.Lays, Os.mm_of_procs_setMm live procs]
    exact follows.lays
  · rw [opcode]
    rcases libfree_follows moved live here (ins.arg0.setWidth 32) with ⟨mm, outcome, follows⟩
    dsimp only
    rw [outcome, Os.Lays, Os.mm_setMm_self live]
    exact follows.lays
  · rw [opcode]
    dsimp only
    have reading := dataStep_libread unswapped moved.mramRandom (ins.arg0.setWidth 32) ins.arg1
    have kept : MmLays ((os.advance proc).mm proc) (match
        machine.target (ins.arg0.setWidth 32) ins.arg1 with
        | none => machine
        | some place => machine.setReg ins.arg2
            ((machine.cells place).map fun byte => (byte.signExtend 32).setWidth 64)) := by
      split
      · exact here
      · exact MmLays.setReg here _ _
    split
    · rw [Os.Lays, mm_setReg, reading.mm]
      exact kept
    · rw [Os.Lays, reading.mm]
      exact kept
  · rw [opcode]
    dsimp only
    have writing := dataStep_libwrite unswapped moved.mramRandom (ins.arg0.setWidth 8)
      (ins.arg1.setWidth 32) ins.arg2
    rw [Os.Lays, writing.mm]
    split
    · exact here
    · exact ⟨here.brk, here.nodes, here.regions⟩

theorem register_congr {before after : Os} (procs : after.procs proc = before.procs proc)
    (index : Fin 10) : after.register proc index = before.register proc index := by
  rw [Os.register, procs, Os.register]

theorem register_updatePcb (os : Os) (caller : ProcRef) (assign : Pcb → Pcb)
    (kept : ∀ pcb, (assign pcb).regs = pcb.regs) (proc : ProcRef) (index : Fin 10) :
    (os.updatePcb caller assign).register proc index = os.register proc index := by
  unfold Os.register
  by_cases same : proc = caller
  · subst same
    cases found : os.procs proc <;> simp [Os.updatePcb, found, kept]
  · simp [Os.updatePcb, same]

/-- A change of the memory map, with the bytes of the RAM as they were. -/
theorem Os.Shows.remapped {after : Os} {mm : MmStruct} {next : PrivateMachine} {room : Prop}
    (shown : os.Shows proc machine) (live : (os.procs proc).isSome = true)
    (follows : Follows room (os.mm proc) machine mm next) (holds : room)
    (procs : after.procs = (os.setMm proc mm).procs)
    (storage : after.mram.storage = os.mram.storage) : after.Shows proc next := by
  have own := Os.mm_of_procs_setMm live procs
  refine ⟨?_, ?_, ?_, ?_⟩
  · rw [Os.Lays, own]
    exact follows.lays
  · rw [own]
    exact follows.resident holds shown.resident
  · intro page offset byte known
    rw [follows.cells] at known
    rcases shown.cells page offset byte known with ⟨fpn, mapped, stored⟩
    rw [own, storage]
    exact ⟨fpn, follows.kept page fpn mapped, stored⟩
  · intro index value known
    rw [follows.regs] at known
    have same : after.register proc index = os.register proc index := by
      have mapped : after.procs proc = (os.setMm proc mm).procs proc := by rw [procs]
      rw [register_congr mapped]
      exact register_updatePcb os proc (fun pcb => { pcb with mm := mm }) (fun _ => rfl) proc index
    rw [same]
    exact shown.regs index value known

theorem Os.Shows.advance (shown : os.Shows proc machine) : (os.advance proc).Shows proc machine := by
  refine ⟨?_, ?_, ?_, ?_⟩
  · rw [Os.Lays, mm_advance]
    exact shown.lays
  · rw [mm_advance]
    exact shown.resident
  · rw [mm_advance]
    exact shown.cells
  · intro index value known
    have same := register_updatePcb os proc (fun pcb => { pcb with pc := pcb.pc + 1 })
      (fun _ => rfl) proc index
    exact same.trans (shown.regs index value known)

/-- A register that gets the value of a byte, if the machine knows it. -/
theorem Os.Shows.setReg (shown : os.Shows proc machine) (live : (os.procs proc).isSome = true)
    {index : Addr} {value : Addr} {known : Option Addr}
    (agrees : ∀ word, known = some word → value = word)
    (defined : (os.setReg proc index value).fault = false) :
    (os.setReg proc index value).Shows proc (machine.setReg index known) := by
  by_cases inside : index.toNat < 10
  · have outcome := register_setReg live inside value
    have assigned : os.setReg proc index value = os.updatePcb proc fun pcb =>
        { pcb with regs := Function.update pcb.regs ⟨index.toNat, inside⟩ value } := by
      rw [Os.setReg, dif_pos inside]
    have storage : (os.setReg proc index value).mram = os.mram := by
      rw [assigned]
      rfl
    have others : ∀ other, other ≠ ⟨index.toNat, inside⟩ →
        (os.setReg proc index value).register proc other = os.register proc other := by
      intro other different
      rw [assigned]
      unfold Os.register
      rcases Option.isSome_iff_exists.mp live with ⟨pcb, found⟩
      simp [Os.updatePcb, found, Function.update_of_ne different]
    rw [PrivateMachine.setReg, dif_pos inside]
    refine ⟨?_, ?_, ?_, ?_⟩
    · rw [Os.Lays, mm_setReg]
      exact ⟨shown.lays.brk, shown.lays.nodes, shown.lays.regions⟩
    · rw [mm_setReg]
      exact shown.resident
    · rw [mm_setReg, storage]
      exact shown.cells
    · intro other word held
      dsimp only at held
      by_cases same : other = ⟨index.toNat, inside⟩
      · rw [same, Function.update_self] at held
        rw [same, outcome, agrees word held]
      · rw [Function.update_of_ne same] at held
        rw [others other same]
        exact shown.regs other word held
  · rw [Os.setReg, dif_neg inside] at defined
    cases defined

/-- A byte that is stored at its place. -/
theorem Os.Shows.store (shown : os.Shows proc machine) (exclusive : os.ledger.Exclusive)
    {page fpn : Addr} {cell : Fin 256} (mapped : (os.mm proc).frameOf page = some fpn)
    (value : Byte) :
    (os.setMram (os.mram.store (pageCell fpn cell) value)).Shows proc
      { machine with cells := Function.update machine.cells (page, cell) (some value) } := by
  refine ⟨⟨shown.lays.brk, shown.lays.nodes, shown.lays.regions⟩, shown.resident, ?_,
    shown.regs⟩
  intro other offset byte known
  by_cases same : (other, offset) = (page, cell)
  · cases same
    dsimp only at known
    rw [Function.update_self, Option.some_inj] at known
    exact ⟨fpn, mapped, (Function.update_self _ _ _).trans known⟩
  · dsimp only at known
    rw [Function.update_of_ne same] at known
    rcases shown.cells other offset byte known with ⟨held, located, stored⟩
    refine ⟨held, located, ?_⟩
    have apart : pageCell held offset ≠ pageCell fpn cell := by
      intro equal
      have small := MmStruct.frameOf_lt mapped
      have heldSmall := MmStruct.frameOf_lt located
      rcases pageCell_inj (heldSmall.trans (by decide)) (small.trans (by decide)) offset.isLt
        cell.isLt equal with ⟨frames, offsets⟩
      rw [frames] at located
      -- a frame is behind one page only
      have first : os.ledger.loc (proc, other) = some fpn := located
      have second : os.ledger.loc (proc, page) = some fpn := mapped
      have pages := exclusive.injective first second
      exact same (Prod.ext (congrArg Prod.snd pages) (Fin.ext offsets))
    have kept : (os.mram.store (pageCell fpn cell) value).storage =
        Function.update os.mram.storage (pageCell fpn cell) value := rfl
    rw [Os.setMram_mram, kept, Function.update_of_ne apart]
    exact stored

/-- The pages, bytes and registers, for one instruction of the process. -/
theorem Os.Shows.run {ins : Inst} (shown : os.Shows proc machine) (sound : os.Sound)
    (exclusive : os.ledger.Exclusive) (resolves : os.Resolves proc)
    (fetched : fetch os proc = some ins) (user : ins.User)
    (room : ins.opcode = .ALLOC → RoomFor os.mram ins.arg0)
    (defined : (Kernel.run os proc).2.fault = false) :
    (Kernel.run os proc).2.Shows proc (machine.step ins) := by
  have live : ((os.advance proc).procs proc).isSome = true := by
    rw [isSome_advance]
    exact isSome_of_fetch fetched
  have moved := sound.advance proc
  have here := shown.advance
  have found : (os.advance proc).Resolves proc := by
    rw [resolves_advance]
    exact resolves
  have unswapped := moved.unswapped proc
  have apart : (os.advance proc).ledger.Exclusive := by
    have same : (os.advance proc).ledger = os.ledger := by
      unfold Os.ledger
      congr 1
      funext other
      rw [mm_advance]
    rw [same]
    exact exclusive
  rw [run_of_fetch fetched] at defined ⊢
  unfold dispatch at defined ⊢
  unfold PrivateMachine.step
  rcases user with opcode | opcode | opcode | opcode | opcode
  · rw [opcode]
    exact here
  · have roomy := room opcode
    rw [opcode] at defined ⊢
    rcases liballoc_follows moved live found here.lays ins.arg0 (ins.arg1.setWidth 32) defined with
      ⟨mm, procs, storage, follows⟩
    exact here.remapped live follows roomy procs storage
  · rw [opcode]
    rcases libfree_follows moved live here.lays (ins.arg0.setWidth 32) with ⟨mm, outcome, follows⟩
    dsimp only
    rw [outcome]
    exact here.remapped live follows trivial rfl rfl
  · rw [opcode] at defined ⊢
    dsimp only at defined ⊢
    have place := here.translate_iff (ins.arg0.setWidth 32) ins.arg1
    have answer := libread_unswapped unswapped moved.mramRandom (ins.arg0.setWidth 32) ins.arg1
    cases aimed : machine.target (ins.arg0.setWidth 32) ins.arg1 with
    | none =>
        rw [aimed] at place
        rw [place] at answer
        rw [answer]
        exact here
    | some target =>
        rcases target with ⟨page, cell⟩
        rw [aimed] at place
        rcases place with ⟨fpn, mapped, located⟩
        rw [located] at answer
        dsimp only at answer
        rw [if_pos found] at answer
        rw [answer, if_pos rfl] at defined
        rw [answer, if_pos rfl]
        have touched : ((os.advance proc).setMram
            ((os.advance proc).mram.touch (pageCell fpn cell))).Shows proc machine :=
          ⟨here.lays, here.resident, here.cells, here.regs⟩
        refine touched.setReg live ?_ defined
        intro word known
        rw [Option.map_eq_some_iff] at known
        rcases known with ⟨byte, known, widened⟩
        rcases here.cells page cell byte known with ⟨held, again, stored⟩
        rw [Option.some_inj.mp (again.symm.trans mapped)] at stored
        rw [stored]
        exact widened
  · rw [opcode]
    dsimp only
    have place := here.translate_iff (ins.arg1.setWidth 32) ins.arg2
    rw [libwrite_unswapped unswapped moved.mramRandom]
    cases aimed : machine.target (ins.arg1.setWidth 32) ins.arg2 with
    | none =>
        rw [aimed] at place
        rw [place]
        exact here
    | some target =>
        rcases target with ⟨page, cell⟩
        rw [aimed] at place
        rcases place with ⟨fpn, mapped, located⟩
        rw [located]
        dsimp only
        rw [if_pos found]
        exact here.store apart mapped (ins.arg0.setWidth 8)

end Calls

end Kernel
end Ossim
