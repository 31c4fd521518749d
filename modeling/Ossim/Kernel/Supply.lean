import Ossim.Kernel.Bystanders
import Ossim.Kernel.Demand
import Ossim.Kernel.Liveness

namespace Ossim
namespace Kernel

open Memory

/-!
# Enough frames for everyone

Only an ALLOC takes frames, and it takes no more than the pages it asks for.
The frames that a process holds are therefore within what the part of its
program that it has executed asks for.  The frames of the machine are free or
held, so when all programs together ask for no more than there are, an ALLOC
always finds the frames it needs, wherever the other processes are.
-/

/-! ## What programs ask for -/

/-- The pages that an instruction may take. -/
def Inst.pages (ins : Inst) : Nat :=
  if ins.opcode = .ALLOC then pagesNeeded (pagingPageAlignsz ins.arg0) else 0

/-- The pages that a program may take. -/
def demand (code : List Inst) : Nat := (code.map Inst.pages).sum

theorem demand_take_succ {code : List Inst} {pc : Nat} {ins : Inst} (next : code[pc]? = some ins) :
    demand (code.take (pc + 1)) = demand (code.take pc) + ins.pages := by
  rw [demand, List.take_add_one, next, List.map_append, List.sum_append, demand]
  simp

theorem demand_take_le (code : List Inst) (pc : Nat) : demand (code.take pc) ≤ demand code := by
  have split := congrArg demand (List.take_append_drop pc code)
  rw [demand, List.map_append, List.sum_append] at split
  rw [← split, demand]
  exact Nat.le_add_right _ _

/-! ## What processes hold -/

/-- The page numbers below the limit. -/
def pageNumbers : Finset Addr :=
  (Finset.range PAGING_MAX_PGN.toNat).image (BitVec.ofNat 64)

theorem mem_pageNumbers {mm : MmStruct} {page : Addr}
    (present : (mm.frameOf page).isSome = true) : page ∈ pageNumbers := by
  rcases Option.isSome_iff_exists.mp present with ⟨fpn, mapped⟩
  rw [pageNumbers, Finset.mem_image]
  exact ⟨page.toNat, Finset.mem_range.mpr (MmStruct.lt_of_frameOf mapped),
    BitVec.ofNat_toNat 64 page⟩

/-- The resident pages of a process. -/
def held (mm : MmStruct) : Nat :=
  (pageNumbers.filter fun page => (mm.frameOf page).isSome = true).card

theorem held_le (mm : MmStruct) : held mm ≤ PAGING_MAX_PGN.toNat :=
  calc
    held mm ≤ pageNumbers.card := Finset.card_filter_le _ _
    _ ≤ (Finset.range PAGING_MAX_PGN.toNat).card := Finset.card_image_le
    _ = PAGING_MAX_PGN.toNat := Finset.card_range _

theorem held_congr {mm after : MmStruct} (frames : after.frameOf = mm.frameOf) :
    held after = held mm := by
  rw [held, frames, held]

theorem held_initMm (list : List VmRgStruct) : held (initMm list) = 0 := by
  rw [held, Finset.card_eq_zero, Finset.filter_eq_empty_iff]
  intro page _ present
  rw [frameOf_initMm] at present
  cases present

/-- A growth adds no more pages than were asked for. -/
theorem Growth.held_le {mm grown : MmStruct} {mram left : MemphyStruct} {incSz : Addr}
    (growth : Growth mm mram incSz grown left) (sound : mm.Sound) :
    held grown ≤ held mm + pagesNeeded incSz := by
  by_cases few : pagesNeeded incSz ≤ PAGING_MAX_PGN.toNat
  · have count := incNumPage_eq few
    have top := toNat_grown_break mm.area.sbrk incSz growth.accepted (by omega)
    let added : Finset Addr := (Finset.range (pagesNeeded incSz)).image fun index =>
      BitVec.ofNat 64 (mm.area.sbrk.toNat / 256 + index)
    have covered : (pageNumbers.filter fun page => (grown.frameOf page).isSome = true) ⊆
        (pageNumbers.filter fun page => (mm.frameOf page).isSome = true) ∪ added := by
      intro page member
      rw [Finset.mem_filter] at member
      rcases member with ⟨numbered, present⟩
      rw [Finset.mem_union]
      rcases growth.entry page with ⟨⟨lower, upper⟩, _⟩ | same
      · refine Or.inr (Finset.mem_image.mpr ⟨page.toNat - mm.area.sbrk.toNat / 256, ?_, ?_⟩)
        · rw [Finset.mem_range]
          have aligned := sound.aligned
          omega
        · rw [Nat.add_sub_cancel' (by omega)]
          exact BitVec.ofNat_toNat 64 page
      · rw [MmStruct.frameOf_isSome, same, ← MmStruct.frameOf_isSome] at present
        exact Or.inl (Finset.mem_filter.mpr ⟨numbered, present⟩)
    calc
      held grown ≤ ((pageNumbers.filter fun page => (mm.frameOf page).isSome = true) ∪ added).card :=
        Finset.card_le_card covered
      _ ≤ held mm + added.card := Finset.card_union_le _ _
      _ ≤ held mm + pagesNeeded incSz :=
        Nat.add_le_add_left (Finset.card_image_le.trans (Finset.card_range _).le) _
  · have most := Kernel.held_le grown
    omega

/-- No instruction but a raw system call takes more than its pages. -/
theorem MmEffect.held_le {ins : Inst} {resolves : Prop} {mm after : MmStruct}
    {mram : MemphyStruct} {spare : List Addr} (effect : MmEffect ins resolves mm mram after spare)
    (sound : mm.Sound) (ordinary : ins.opcode ≠ .SYSCALL) :
    held after ≤ held mm + ins.pages := by
  have same : ∀ other : MmStruct, other.frameOf = mm.frameOf → held other ≤ held mm + ins.pages :=
    fun other frames => (held_congr frames).le.trans (Nat.le_add_right _ _)
  cases effect with
  | idle => exact same mm rfl
  | kernelRegion slot rg _ => exact same _ rfl
  | taken slot newrg left _ _ => exact same _ rfl
  | refused _ _ search => exact same _ search.frameOf
  | grown slot searched grown left opcode _ search growth =>
      have bound := Growth.held_le growth (search.sound sound)
      rw [held_congr search.frameOf] at bound
      rw [Inst.pages, if_pos opcode]
      exact bound
  | dropped slot _ => exact same _ rfl
  | returned slot _ _ _ _ => exact same _ rfl
  | extended _ _ opcode _ _ => exact absurd opcode ordinary
  | marked _ opcode _ _ _ => exact absurd opcode ordinary

/-! ## Every process within its demand -/

/-- The block behind the next instruction. -/
theorem stage_of_fetch {os : Os} {proc : ProcRef} {ins : Inst}
    (fetched : fetch os proc = some ins) : ∃ pc code, os.stage proc = some (pc, code) ∧
      code[pc]? = some ins ∧ (run os proc).2.stage proc = some (pc + 1, code) := by
  rcases Option.isSome_iff_exists.mp (isSome_of_fetch fetched) with ⟨pcb, found⟩
  have next : pcb.code[pcb.pc]? = some ins := by
    rw [fetch, found, Option.bind_some] at fetched
    exact fetched
  have moved := stage_run found
  rw [if_pos (List.getElem?_eq_some_iff.mp next).1] at moved
  exact ⟨pcb.pc, pcb.code, stage_of_found found, next, moved⟩

/-- What a process holds is within what it has asked for. -/
def Os.Thrifty (os : Os) : Prop :=
  ∀ proc pc code, os.stage proc = some (pc, code) → held (os.mm proc) ≤ demand (code.take pc)

theorem Os.Thrifty.kernelStep {os after : Os} (thrifty : os.Thrifty) (sound : os.Sound)
    {action : KernelAction} (ordinary : NoRawSyscall os action)
    (taken : kernelStep os action = some after) : after.Thrifty := by
  intro proc pc code now
  rcases kernelStep_own sound taken proc with
    ⟨_, rest⟩ | ⟨loaded, prio, _, stage, begun⟩ | ⟨ins, acts, fetched, same, defined⟩ | ⟨_, gone⟩
  · rw [rest.mm]
    exact thrifty proc pc code (rest.stage.symm.trans now)
  · rw [begun, held_initMm]
    exact Nat.zero_le _
  · subst acts same
    rcases stage_of_fetch fetched with ⟨counter, text, before, next, moved⟩
    rw [moved, Option.some.injEq, Prod.mk.injEq] at now
    rw [← now.1, ← now.2, demand_take_succ next]
    have effect := (run_effect sound (isSome_of_fetch fetched) fetched defined.1).mm
    have bound := effect.held_le (sound.memory proc) (ordinary ins fetched)
    exact bound.trans (Nat.add_le_add_right (thrifty proc counter text before) _)
  · rw [Os.stage, gone] at now
    cases now

theorem ReachableWhere.thrifty {memramsz memswpsz : Addr} {os : Os}
    (reached : ReachableWhere NoRawSyscall memramsz memswpsz os) : os.Thrifty := by
  rcases reached with ⟨freergHeads, trace, path⟩
  refine (path.invariant (fun os => os.Sound ∧ os.Thrifty)
    ⟨sound_boot memramsz memswpsz freergHeads, fun proc pc code now => by cases now⟩ ?_).2
  rintro before action after ⟨sound, thrifty⟩ ordinary taken
  exact ⟨sound.kernelStep taken, thrifty.kernelStep sound ordinary taken⟩

theorem held_of_absent {os : Os} {proc : ProcRef} (absent : os.stage proc = none) :
    held (os.mm proc) = 0 := by
  rw [Os.stage, Option.map_eq_none_iff] at absent
  rw [Os.mm_of_absent absent]
  exact held_initMm _

/-! ## The configuration -/

/-- What the program of a process asks for. -/
def programDemand (config : List (List Inst × Nat)) (proc : ProcRef) : Nat :=
  match config[proc - 1]? with
  | none => 0
  | some spec => demand spec.1

/-- What all programs ask for. -/
def totalDemand (config : List (List Inst × Nat)) : Nat :=
  (config.map fun spec => demand spec.1).sum

theorem totalDemand_eq_sum (config : List (List Inst × Nat)) :
    totalDemand config = ∑ index ∈ Finset.range config.length, programDemand config (index + 1) := by
  have demands : (fun index : Fin config.length => programDemand config (index.val + 1)) =
      fun index : Fin config.length => demand config[index].1 := by
    funext index
    have entry : config[index.val + 1 - 1]? = some config[index] :=
      List.getElem?_eq_getElem index.isLt
    rw [programDemand, entry]
  rw [totalDemand, Finset.sum_range, demands, ← List.sum_ofFn]
  exact congrArg List.sum (List.ofFn_getElem_eq_map config fun spec => demand spec.1).symm

theorem sum_programDemand (config : List (List Inst × Nat)) :
    (∑ proc ∈ Finset.range (config.length + 1),
      if proc = 0 then 0 else programDemand config proc) = totalDemand config := by
  rw [Finset.sum_range_succ', totalDemand_eq_sum]
  simp

variable {numCpus : Nat}

section Simulated

variable {timeSlot : Int} {memramsz memswpsz : Addr} {config : List (List Inst × Nat)}
variable {sim : Simulator numCpus}

/-- Each process is within its program, and one that has an instruction left is
so with the pages that this instruction may take. -/
theorem Simulated.held_within
    (ordinary : ∀ program ∈ config, ∀ ins ∈ program.1, ins.opcode ≠ .SYSCALL)
    (reached : Simulated timeSlot memramsz memswpsz config sim) {proc : ProcRef} {ins : Inst}
    (fetched : fetch sim.os proc = some ins) (owner : ProcRef) :
    held (sim.os.mm owner) + (if owner = proc then ins.pages else 0) ≤
      if owner = 0 then 0 else programDemand config owner := by
  rcases stage_of_fetch fetched with ⟨counter, text, before, next, _⟩
  cases now : sim.os.stage owner with
  | none =>
      have different : owner ≠ proc := by
        rintro rfl
        rw [before] at now
        cases now
      rw [held_of_absent now, if_neg different]
      exact Nat.zero_le _
  | some stage =>
      rcases stage with ⟨pc, code⟩
      rcases reached.planned.program owner pc code now with ⟨first, prio, listed⟩
      have within := (reached.reachableWhere ordinary).thrifty owner pc code now
      rw [if_neg (Nat.one_le_iff_ne_zero.mp first), programDemand, listed]
      dsimp only
      by_cases own : owner = proc
      · subst own
        rw [before, Option.some.injEq, Prod.mk.injEq] at now
        rw [if_pos rfl]
        rw [← now.1, ← now.2] at within
        rw [← now.2]
        calc
          held (sim.os.mm owner) + ins.pages ≤ demand (text.take counter) + ins.pages :=
            Nat.add_le_add_right within _
          _ = demand (text.take (counter + 1)) := (demand_take_succ next).symm
          _ ≤ demand text := demand_take_le _ _
      · rw [if_neg own, Nat.add_zero]
        exact within.trans (demand_take_le _ _)

/-- If the programs ask for no more than the frames of the machine, every ALLOC
has room. -/
theorem Simulated.roomFor (fits : frameCount memramsz ≤ 8192)
    (ordinary : ∀ program ∈ config, ∀ ins ∈ program.1, ins.opcode ≠ .SYSCALL)
    (enough : totalDemand config ≤ frameCount memramsz)
    (reached : Simulated timeSlot memramsz memswpsz config sim) {proc : ProcRef} {ins : Inst}
    (fetched : fetch sim.os proc = some ins) (opcode : ins.opcode = .ALLOC) :
    RoomFor sim.os.mram ins.arg0 := by
  have kernel := reached.reachableWhere ordinary
  have sound := kernel.reachable.sound
  have last := reached.planned.last
  have bounded : frameCount memramsz < 2 ^ 64 := by omega
  -- the frames are free or held
  have balance := (kernel.partitioned fits).1.covers.length_le
    (nodup_frames (frameCount memramsz) bounded)
    (fun slot member => (mem_frames _ bounded slot).mp member) (Finset.range sim.os.availPid)
    pageNumbers (by
      intro owner page present
      refine ⟨Finset.mem_range.mpr (sound.fresh owner ?_), mem_pageNumbers present⟩
      by_contra absent
      rw [Bool.not_eq_true, Option.isSome_eq_false_iff, Option.isNone_iff_eq_none] at absent
      rw [Os.mm_of_absent absent, frameOf_initMm] at present
      cases present)
  rw [List.length_map, List.length_range] at balance
  -- what is held is asked for, and so are the pages of this instruction
  have mine : proc ∈ Finset.range (config.length + 1) :=
    Finset.mem_range.mpr ((sound.fresh proc (isSome_of_fetch fetched)).trans_le last)
  have summed := Finset.sum_le_sum fun owner (_ : owner ∈ Finset.range (config.length + 1)) =>
    reached.held_within ordinary fetched owner
  rw [Finset.sum_add_distrib, Finset.sum_ite_eq', if_pos mine, sum_programDemand] at summed
  have fewer : ∑ owner ∈ Finset.range sim.os.availPid, held (sim.os.mm owner) ≤
      ∑ owner ∈ Finset.range (config.length + 1), held (sim.os.mm owner) :=
    Finset.sum_le_sum_of_subset (Finset.range_subset_range.mpr last)
  have free : frameCount memramsz ≤ sim.os.mram.freeFpList.length +
      ∑ owner ∈ Finset.range sim.os.availPid, held (sim.os.mm owner) := balance
  have asked : ins.pages = pagesNeeded (pagingPageAlignsz ins.arg0) := if_pos opcode
  have limit : PAGING_MAX_PGN.toNat = 16384 := rfl
  exact ⟨by omega, by omega⟩

end Simulated

end Kernel
end Ossim
