import Ossim.Kernel.Mlq
import Ossim.Library.FrontArray

namespace Ossim
namespace QueueArrays

open Kernel

/-!
# The queues as arrays

`queue.c` keeps a queue as an array of 50 pointers and a size.  `dequeue` and
`purgequeue` move the rest of the array up by one, and neither they nor
`init_scheduler` clear a cell, so what is behind the size is left over from
earlier processes.  The functions of `sched.c` are given here on these arrays,
with their loops.

From `init_scheduler` on, and whatever the arrays held before it, the arrays
show the lists of the scheduler model: on any sequence of calls the replies are
the same, and the cells in use are the lists.
-/

/-- `struct queue_t`. -/
abbrev QueueT := FrontArray (Option ProcRef) MAX_QUEUE_SIZE

/-! ## The queues -/

def empty (q : QueueT) : Bool := decide (q.size = 0)

def enqueue (q : QueueT) (proc : Option ProcRef) : QueueT :=
  if proc = none then q
  else if room : q.size < MAX_QUEUE_SIZE then q.push proc room
  else q

def dequeue (q : QueueT) : Option ProcRef × QueueT :=
  if filled : 0 < q.size then
    let first : Fin MAX_QUEUE_SIZE := ⟨0, filled.trans_le q.bounded⟩
    (q.cells first, q.closeGap first)
  else (none, q)

def purgequeue (q : QueueT) (proc : Option ProcRef) : Option ProcRef × QueueT :=
  if empty q = true ∨ proc = none then (none, q)
  else
    match q.search fun cell => decide (cell = proc) with
    | none => (none, q)
    | some idx => (proc, q.closeGap idx)

/-! ## The scheduler -/

/-- The file-scope variables of `sched.c` that are in use under `MLQ_SCHED`. -/
structure Vars where
  mlqReadyQueue : Fin MAX_PRIO → QueueT
  slot : Fin MAX_PRIO → Int
  currentMlqPrio : Fin MAX_PRIO
  runningList : QueueT

/-- `init_scheduler` sets the sizes to zero and leaves the cells as they are. -/
def initScheduler (vars : Vars) : Vars where
  mlqReadyQueue := fun prio => { vars.mlqReadyQueue prio with size := 0, bounded := Nat.zero_le _ }
  slot := fun prio => MAX_PRIO - prio.val
  currentMlqPrio := 0
  runningList := { vars.runningList with size := 0, bounded := Nat.zero_le _ }

def removeFromRunningList (vars : Vars) (proc : Option ProcRef) : Vars :=
  if proc = none then vars
  else { vars with runningList := (purgequeue vars.runningList proc).2 }

def resetMlqSlot (vars : Vars) : Vars :=
  { vars with slot := fun prio => MAX_PRIO - prio.val }

def queueEmpty (vars : Vars) : Bool :=
  (List.finRange MAX_PRIO).all fun prio => empty (vars.mlqReadyQueue prio)

/-- What both loops of `get_mlq_proc` do with the queue at which they stop. -/
def serve (vars : Vars) (prio : Fin MAX_PRIO) : Option ProcRef × Vars :=
  let (proc, rest) := dequeue (vars.mlqReadyQueue prio)
  let left := vars.slot prio - 1
  (proc,
    { vars with
      mlqReadyQueue := Function.update vars.mlqReadyQueue prio rest
      slot := Function.update vars.slot prio left
      currentMlqPrio :=
        if left = 0 ∨ empty rest = true then Fin.ofNat MAX_PRIO (prio.val + 1) else prio })

/-- `for (; scanned < MAX_PRIO; scanned++)` with `left` iterations to go: the test
of the loop skips a queue, and the first one that it does not skip is served. -/
def scanLoop (skip : Fin MAX_PRIO → Bool) (vars : Vars) (scanned : Nat) :
    Nat → Option ProcRef × Vars
  | 0 => (none, vars)
  | left + 1 =>
      let prio := Fin.ofNat MAX_PRIO (vars.currentMlqPrio.val + scanned)
      if skip prio then scanLoop skip vars (scanned + 1) left
      else serve vars prio

def getMlqProc (vars : Vars) : Option ProcRef × Vars :=
  if queueEmpty vars then (none, vars)
  else
    let (proc, scanned) := scanLoop
      (fun prio => decide (vars.slot prio ≤ 0) || empty (vars.mlqReadyQueue prio)) vars 0 MAX_PRIO
    if proc = none then
      let fresh := resetMlqSlot scanned
      scanLoop (fun prio => empty (fresh.mlqReadyQueue prio)) fresh 0 MAX_PRIO
    else (proc, scanned)

/-- The variables and the process control blocks that they point to. -/
structure Memory where
  procs : ProcRef → Option Pcb
  vars : Vars

/-- `proc->prio`. -/
def Memory.prio (memory : Memory) (proc : ProcRef) : Nat :=
  match memory.procs proc with
  | none => 0
  | some pcb => pcb.prio

def putMlqProc (memory : Memory) (proc : ProcRef) : Memory :=
  let prio := normalizePrio (memory.prio proc)
  { procs := Function.update memory.procs proc
      ((memory.procs proc).map fun pcb => { pcb with prio := prio.val })
    vars := { memory.vars with
      mlqReadyQueue := Function.update memory.vars.mlqReadyQueue prio
        (enqueue (memory.vars.mlqReadyQueue prio) (some proc)) } }

def addMlqProc (memory : Memory) (proc : ProcRef) : Memory :=
  let queued := putMlqProc memory proc
  { queued with vars := { queued.vars with
      runningList := enqueue queued.vars.runningList (some proc) } }

def removeProc (memory : Memory) (proc : ProcRef) : Memory :=
  { memory with vars := removeFromRunningList memory.vars (some proc) }

/-- The test of the loop in `sched_find_proc_by_pid`. -/
def Memory.hasPid (memory : Memory) (pid : Nat) : Option ProcRef → Bool
  | none => false
  | some proc =>
      match memory.procs proc with
      | none => false
      | some pcb => pcb.pid == pid

def schedFindProcByPid (memory : Memory) (pid : Nat) : Option ProcRef :=
  match memory.vars.runningList.search (memory.hasPid pid) with
  | none => none
  | some index => memory.vars.runningList.cells index

/-! ## One queue -/

/-- The cells in use are the processes of the list. -/
def Lists (q : QueueT) (procs : List ProcRef) : Prop := q.entries = procs.map some

section Queue

variable {q : QueueT} {procs : List ProcRef}

theorem Lists.size_eq (lists : Lists q procs) : q.size = procs.length := by
  rw [← q.length_entries, lists, List.length_map]

theorem Lists.empty_eq (lists : Lists q procs) : empty q = procs.isEmpty := by
  rw [empty, lists.size_eq]
  cases procs with
  | nil => rfl
  | cons proc rest => rfl

theorem lists_nil (empty : q.size = 0) : Lists q [] :=
  List.length_eq_zero_iff.mp (q.length_entries.trans empty)

theorem Lists.enqueue (lists : Lists q procs) (proc : ProcRef) :
    Lists (enqueue q (some proc)) (Kernel.enqueue procs proc) := by
  rw [QueueArrays.enqueue, if_neg (Option.some_ne_none proc), Kernel.enqueue, ← lists.size_eq]
  by_cases room : q.size < MAX_QUEUE_SIZE
  · rw [dif_pos room, if_neg (Nat.not_le_of_lt room), Lists, FrontArray.entries_push, lists,
      List.map_append]
    rfl
  · rw [dif_neg room, if_pos (Nat.le_of_not_lt room)]
    exact lists

theorem Lists.dequeue (lists : Lists q procs) :
    (dequeue q).1 = (Kernel.dequeue procs).1 ∧
      Lists (dequeue q).2 (Kernel.dequeue procs).2 := by
  have size := lists.size_eq
  unfold QueueArrays.dequeue
  cases procs with
  | nil =>
      rw [dif_neg (by rw [size]; exact Nat.lt_irrefl 0)]
      exact ⟨rfl, lists⟩
  | cons proc rest =>
      have filled : 0 < q.size := by
        rw [size]
        exact Nat.succ_pos _
      rw [dif_pos filled]
      have first := q.getElem?_entries ⟨0, filled.trans_le q.bounded⟩
      rw [if_pos filled, lists] at first
      refine ⟨(Option.some_inj.mp first).symm, ?_⟩
      rw [Lists, FrontArray.entries_closeGap q filled, lists]
      rfl

/-- A search of the array without a result. -/
theorem Lists.search_none (lists : Lists q procs) {test : Option ProcRef → Bool}
    (missing : q.search test = none) : ∀ proc ∈ procs, test (some proc) = false := by
  intro proc member
  apply FrontArray.search_none missing
  rw [lists]
  exact List.mem_map_of_mem member

/-- A search of the array with a result splits the list at the first process that
passes the test. -/
theorem Lists.search_some (lists : Lists q procs) {test : Option ProcRef → Bool}
    {index : Fin MAX_QUEUE_SIZE} (hit : q.search test = some index) :
    ∃ front proc back, procs = front ++ proc :: back ∧ q.cells index = some proc ∧
      front.length = index.val ∧ test (some proc) = true ∧
      ∀ other ∈ front, test (some other) = false := by
  rcases FrontArray.search_some hit with ⟨before, after, split, length, passed, earlier⟩
  rw [lists] at split
  rcases List.map_eq_append_iff.mp split with ⟨front, others, rfl, rfl, rest⟩
  rcases List.map_eq_cons_iff.mp rest with ⟨proc, back, rfl, same, _⟩
  rw [← same] at passed
  rw [List.length_map] at length
  exact ⟨front, proc, back, rfl, same.symm, length, passed,
    fun other member => earlier _ (List.mem_map_of_mem member)⟩

/-- `purgequeue` takes out the first cell that holds the process. -/
theorem Lists.purgequeue (lists : Lists q procs) (proc : ProcRef) :
    Lists (purgequeue q (some proc)).2 (Kernel.purgequeue procs proc) := by
  rw [Kernel.purgequeue]
  unfold QueueArrays.purgequeue
  by_cases none : empty q = true
  · rw [if_pos (Or.inl none)]
    rw [lists.empty_eq, List.isEmpty_iff] at none
    subst none
    exact lists
  · rw [if_neg (by simp [none])]
    cases searched : q.search fun cell => decide (cell = some proc) with
    | none =>
        have absent : proc ∉ procs := fun member =>
          of_decide_eq_false (lists.search_none searched proc member) rfl
        rw [List.erase_of_not_mem absent]
        exact lists
    | some idx =>
        rcases lists.search_some searched with ⟨front, found, back, rfl, _, length, hit, earlier⟩
        cases of_decide_eq_true hit
        have absent : proc ∉ front := fun member => of_decide_eq_false (earlier proc member) rfl
        have inside : idx.val < q.size := by
          rw [lists.size_eq, List.length_append, List.length_cons]
          omega
        have place : idx.val = (front.map some).length := by rw [List.length_map, length]
        rw [Lists, FrontArray.entries_closeGap q inside, lists, List.erase_append_right _ absent,
          List.erase_cons_head, List.map_append, List.map_append, List.map_cons, place,
          List.eraseIdx_append_of_length_le (Nat.le_refl _), Nat.sub_self, List.eraseIdx_cons_zero]

/-- The search of a queue for a process. -/
theorem Lists.search (lists : Lists q procs) (test : ProcRef → Bool)
    (cellTest : Option ProcRef → Bool) (agree : ∀ proc, cellTest (some proc) = test proc) :
    (match q.search cellTest with
      | none => none
      | some index => q.cells index) = procs.find? test := by
  cases searched : q.search cellTest with
  | none =>
      refine (List.find?_eq_none.mpr fun proc member => ?_).symm
      rw [← agree, lists.search_none searched proc member]
      exact Bool.false_ne_true
  | some index =>
      rcases lists.search_some searched with ⟨front, found, back, rfl, cell, _, hit, earlier⟩
      dsimp only
      rw [cell]
      rw [agree] at hit
      refine (List.find?_eq_some_iff_append.mpr ⟨hit, front, back, rfl, fun proc member => ?_⟩).symm
      rw [← agree, earlier proc member]
      rfl

end Queue

/-! ## The selection -/

/-- The arrays show the lists of the scheduler model. -/
structure Shows (vars : Vars) (sched : Sched) : Prop where
  queues : ∀ prio, Lists (vars.mlqReadyQueue prio) (sched.mlqReadyQueue prio)
  slot : vars.slot = sched.slot
  position : vars.currentMlqPrio = sched.currentMlqPrio
  running : Lists vars.runningList sched.runningList

/-- The loop stops at the first priority of the cyclic order that it does not skip. -/
theorem scanLoop_find (skip : Fin MAX_PRIO → Bool) (vars : Vars) (scanned left : Nat) :
    scanLoop skip vars scanned left =
      match ((List.range' scanned left).map fun scanned =>
          Fin.ofNat MAX_PRIO (vars.currentMlqPrio.val + scanned)).find? fun prio => !skip prio with
      | some prio => serve vars prio
      | none => (none, vars) := by
  induction left generalizing scanned with
  | zero => rfl
  | succ left inductionHypothesis =>
      rw [scanLoop, List.range'_succ, List.map_cons, List.find?_cons]
      cases skipped : skip (Fin.ofNat MAX_PRIO (vars.currentMlqPrio.val + scanned)) with
      | true =>
          rw [if_pos rfl, inductionHypothesis]
          rfl
      | false =>
          rw [if_neg Bool.false_ne_true]
          rfl

theorem scanLoop_scanFrom (skip : Fin MAX_PRIO → Bool) (vars : Vars) :
    scanLoop skip vars 0 MAX_PRIO =
      match scanFrom vars.currentMlqPrio fun prio => !skip prio with
      | some prio => serve vars prio
      | none => (none, vars) := by
  rw [scanLoop_find, scanFrom, List.range_eq_range']

section Selection

variable {vars : Vars} {sched : Sched}

theorem Shows.queueEmpty_eq (shows : Shows vars sched) :
    queueEmpty vars = Kernel.queueEmpty sched := by
  rw [QueueArrays.queueEmpty, Kernel.queueEmpty]
  congr 1
  funext prio
  exact (shows.queues prio).empty_eq

theorem Shows.resetMlqSlot (shows : Shows vars sched) :
    Shows (resetMlqSlot vars) (Kernel.resetMlqSlot sched) :=
  ⟨shows.queues, rfl, shows.position, shows.running⟩

theorem Shows.serve (shows : Shows vars sched) (prio : Fin MAX_PRIO) :
    (serve vars prio).1 = (Kernel.serve sched prio).1 ∧
      Shows (serve vars prio).2 (Kernel.serve sched prio).2 := by
  rcases (shows.queues prio).dequeue with ⟨same, rest⟩
  refine ⟨same, ?_, ?_, ?_, shows.running⟩
  · intro other
    change Lists (Function.update vars.mlqReadyQueue prio _ other)
      (Function.update sched.mlqReadyQueue prio _ other)
    by_cases here : other = prio
    · subst here
      rw [Function.update_self, Function.update_self]
      exact rest
    · rw [Function.update_of_ne here, Function.update_of_ne here]
      exact shows.queues other
  · change Function.update vars.slot prio (vars.slot prio - 1) =
      Function.update sched.slot prio (sched.slot prio - 1)
    rw [shows.slot]
  · change (if vars.slot prio - 1 = 0 ∨ empty (dequeue (vars.mlqReadyQueue prio)).2 = true then
        Fin.ofNat MAX_PRIO (prio.val + 1) else prio) =
      if sched.slot prio - 1 = 0 ∨ (Kernel.dequeue (sched.mlqReadyQueue prio)).2 = [] then
        Fin.ofNat MAX_PRIO (prio.val + 1) else prio
    simp only [shows.slot, rest.empty_eq, List.isEmpty_iff]

/-- A queue with a process in it yields a process. -/
theorem serve_ne_none (shows : Shows vars sched) {prio : Fin MAX_PRIO}
    (filled : (!(sched.mlqReadyQueue prio).isEmpty) = true) : (serve vars prio).1 ≠ none := by
  rw [(shows.serve prio).1]
  cases queue : sched.mlqReadyQueue prio with
  | nil =>
      rw [queue] at filled
      cases filled
  | cons proc rest =>
      rw [Kernel.serve, queue]
      exact Option.some_ne_none proc

theorem Shows.getMlqProc (shows : Shows vars sched) :
    (getMlqProc vars).1 = (Kernel.getMlqProc sched).1 ∧
      Shows (getMlqProc vars).2 (Kernel.getMlqProc sched).2 := by
  rw [QueueArrays.getMlqProc, Kernel.getMlqProc, shows.queueEmpty_eq]
  by_cases empty : Kernel.queueEmpty sched = true
  · rw [if_pos empty, if_pos empty]
    exact ⟨rfl, shows⟩
  · rw [if_neg empty, if_neg empty, scanLoop_scanFrom, shows.position]
    have tests : (fun prio => !(decide (vars.slot prio ≤ 0) ||
          QueueArrays.empty (vars.mlqReadyQueue prio))) =
        fun prio => decide (0 < sched.slot prio) && !(sched.mlqReadyQueue prio).isEmpty := by
      funext prio
      rw [Bool.not_or, (shows.queues prio).empty_eq, shows.slot, ← decide_not]
      congr 1
      exact decide_eq_decide.mpr Int.not_le
    rw [tests]
    cases first : scanFrom sched.currentMlqPrio fun prio =>
        decide (0 < sched.slot prio) && !(sched.mlqReadyQueue prio).isEmpty with
    | some prio =>
        have filled := (Bool.and_eq_true_iff.mp (scanFrom_some first).1).2
        dsimp only
        rw [if_neg (serve_ne_none shows filled)]
        exact shows.serve prio
    | none =>
        dsimp only
        have fresh := shows.resetMlqSlot
        rw [if_pos rfl, scanLoop_scanFrom, fresh.position]
        have nonempty : (fun prio => !QueueArrays.empty
              ((QueueArrays.resetMlqSlot vars).mlqReadyQueue prio)) =
            fun prio => !((Kernel.resetMlqSlot sched).mlqReadyQueue prio).isEmpty := by
          funext prio
          rw [(fresh.queues prio).empty_eq]
        rw [nonempty]
        cases scanFrom (Kernel.resetMlqSlot sched).currentMlqPrio fun prio =>
            !((Kernel.resetMlqSlot sched).mlqReadyQueue prio).isEmpty with
        | some prio => exact fresh.serve prio
        | none => exact ⟨rfl, fresh⟩

/-- Whatever the arrays hold, `init_scheduler` empties them. -/
theorem shows_initScheduler (vars : Vars) :
    Shows (initScheduler vars) Kernel.initScheduler where
  queues := fun _ => lists_nil rfl
  slot := rfl
  position := rfl
  running := lists_nil rfl

end Selection

/-! ## Runs -/

/-- A call of the scheduler. -/
inductive Call
  | getProc
  | putProc (proc : ProcRef)
  | addProc (proc : ProcRef)
  | removeProc (proc : ProcRef)
  | schedFindProcByPid (pid : Nat)

/-- What the calls have left, with what `get_proc` and
`sched_find_proc_by_pid` returned so far. -/
structure Session (State : Type) where
  state : State
  replies : List (Option ProcRef)

def step (session : Session Memory) : Call → Session Memory
  | .getProc =>
      let (proc, vars) := getMlqProc session.state.vars
      ⟨{ session.state with vars := vars }, session.replies ++ [proc]⟩
  | .putProc proc => ⟨putMlqProc session.state proc, session.replies⟩
  | .addProc proc => ⟨addMlqProc session.state proc, session.replies⟩
  | .removeProc proc => ⟨removeProc session.state proc, session.replies⟩
  | .schedFindProcByPid pid =>
      { session with replies := session.replies ++ [schedFindProcByPid session.state pid] }

/-- The same call on the kernel model. -/
def listStep (session : Session Os) : Call → Session Os
  | .getProc =>
      let (proc, os) := Kernel.getProc session.state
      ⟨os, session.replies ++ [proc]⟩
  | .putProc proc => ⟨Kernel.putProc session.state proc, session.replies⟩
  | .addProc proc => ⟨Kernel.addProc session.state proc, session.replies⟩
  | .removeProc proc => ⟨Kernel.removeProc session.state proc, session.replies⟩
  | .schedFindProcByPid pid =>
      { session with replies := session.replies ++ [Kernel.schedFindProcByPid session.state pid] }

/-- The arrays of a session show the lists of the other. -/
structure Session.Shows (session : Session Memory) (model : Session Os) : Prop where
  procs : session.state.procs = model.state.procs
  vars : QueueArrays.Shows session.state.vars model.state.sched
  replies : session.replies = model.replies

section Runs

variable {memory : Memory} {os : Os}

theorem prio_eq (procs : memory.procs = os.procs) (proc : ProcRef) :
    memory.prio proc = os.prio proc := by
  rw [Memory.prio, procs]
  rfl

theorem putMlqProc_shows (procs : memory.procs = os.procs) (shows : Shows memory.vars os.sched)
    (proc : ProcRef) : (putMlqProc memory proc).procs = (Kernel.putMlqProc os proc).procs ∧
      Shows (putMlqProc memory proc).vars (Kernel.putMlqProc os proc).sched := by
  refine ⟨?_, ?_, shows.slot, shows.position, shows.running⟩
  · rw [putMlqProc]
    dsimp only
    rw [prio_eq procs, procs]
    rfl
  · intro other
    rw [sched_putMlqProc]
    change Lists (Function.update memory.vars.mlqReadyQueue (normalizePrio (memory.prio proc)) _
      other) (Function.update os.sched.mlqReadyQueue (normalizePrio (os.prio proc)) _ other)
    rw [prio_eq procs]
    by_cases here : other = normalizePrio (os.prio proc)
    · subst here
      rw [Function.update_self, Function.update_self]
      exact (shows.queues _).enqueue proc
    · rw [Function.update_of_ne here, Function.update_of_ne here]
      exact shows.queues other

theorem schedFindProcByPid_eq (procs : memory.procs = os.procs)
    (shows : Shows memory.vars os.sched) (pid : Nat) :
    schedFindProcByPid memory pid = Kernel.schedFindProcByPid os pid := by
  rcases memory with ⟨blocks, vars⟩
  obtain rfl : blocks = os.procs := procs
  exact shows.running.search _ _ fun _ => rfl

theorem Session.Shows.step {session : Session Memory} {model : Session Os}
    (shows : session.Shows model) (call : Call) :
    (step session call).Shows (listStep model call) := by
  rcases session with ⟨memory, replies⟩
  rcases model with ⟨os, _⟩
  rcases shows with ⟨procs, vars, rfl⟩
  cases call with
  | getProc =>
      rcases vars.getMlqProc with ⟨same, after⟩
      exact ⟨procs, after, congrArg (fun proc => replies ++ [proc]) same⟩
  | putProc proc =>
      rcases putMlqProc_shows procs vars proc with ⟨blocks, queued⟩
      exact ⟨blocks, queued, rfl⟩
  | addProc proc =>
      rcases putMlqProc_shows procs vars proc with ⟨blocks, queued⟩
      exact ⟨blocks, ⟨queued.queues, queued.slot, queued.position, queued.running.enqueue proc⟩,
        rfl⟩
  | removeProc proc =>
      exact ⟨procs, ⟨vars.queues, vars.slot, vars.position, vars.running.purgequeue proc⟩, rfl⟩
  | schedFindProcByPid pid =>
      exact ⟨procs, vars, congrArg (fun proc => replies ++ [proc])
        (schedFindProcByPid_eq procs vars pid)⟩

/-- From `init_scheduler` on, whatever the arrays held before it, they show the
lists of the kernel model after any calls, and the replies are the same. -/
theorem scheduler_shows_lists (os : Os) (vars : Vars) (trace : List Call) :
    (trace.foldl step ⟨⟨os.procs, initScheduler vars⟩, []⟩).Shows
      (trace.foldl listStep ⟨os.setSched Kernel.initScheduler, []⟩) := by
  have kept : ∀ (session : Session Memory) (model : Session Os), session.Shows model →
      (trace.foldl step session).Shows (trace.foldl listStep model) := by
    induction trace with
    | nil => exact fun _ _ shows => shows
    | cons call rest inductionHypothesis =>
        intro session model shows
        exact inductionHypothesis _ _ (shows.step call)
  exact kept _ _ ⟨rfl, shows_initScheduler vars, rfl⟩

end Runs

end QueueArrays
end Ossim
