import Ossim.Kernel.Dispatches

namespace Ossim
namespace Kernel

/-!
# First in, first out within a priority

`put_proc` and `add_proc` hang a process behind the queue of its priority, unless
the array is full, and `get_proc` takes the first process of some queue.  So for
each priority, those that have left the queue followed by those that are in it
are the ones that have entered it, in this order: nobody is lost, nobody is there
twice for one call, and nobody overtakes another of the same priority.
-/

/-- What a call adds to the ready queues. -/
def admitted (os : Os) (call : SchedCall) : List (Fin MAX_PRIO × ProcRef) :=
  let enter := fun proc =>
    let prio := normalizePrio (os.prio proc)
    if (os.sched.mlqReadyQueue prio).length < MAX_QUEUE_SIZE then [(prio, proc)] else []
  match call with
  | .getProc => []
  | .putProc proc => enter proc
  | .addProc proc => enter proc

/-- A session with the processes that entered a ready queue, in order. -/
structure Booked where
  session : Session
  entered : List (Fin MAX_PRIO × ProcRef)

def bookedStep (booked : Booked) (call : SchedCall) : Option Booked :=
  (schedStep booked.session call).map fun after =>
    ⟨after, booked.entered ++ admitted booked.session.os call⟩

/-- The process that an event takes from the queue of a priority. -/
def SchedEvent.leaving (prio : Fin MAX_PRIO) : SchedEvent → Option ProcRef
  | .returned served proc => if served = prio then some proc else none
  | _ => none

/-- The processes that have left the queue of a priority. -/
def leftQueue (history : List SchedEvent) (prio : Fin MAX_PRIO) : List ProcRef :=
  history.filterMap (SchedEvent.leaving prio)

/-- The processes that have entered the queue of a priority. -/
def enteredQueue (entered : List (Fin MAX_PRIO × ProcRef)) (prio : Fin MAX_PRIO) : List ProcRef :=
  entered.filterMap fun visit => if visit.1 = prio then some visit.2 else none

def Booked.Ordered (booked : Booked) : Prop :=
  ∀ prio, leftQueue booked.session.history prio ++ booked.session.os.sched.mlqReadyQueue prio =
    enteredQueue booked.entered prio

theorem leftQueue_append (earlier later : List SchedEvent) (prio : Fin MAX_PRIO) :
    leftQueue (earlier ++ later) prio = leftQueue earlier prio ++ leftQueue later prio :=
  List.filterMap_append

theorem enteredQueue_append (earlier later : List (Fin MAX_PRIO × ProcRef))
    (prio : Fin MAX_PRIO) :
    enteredQueue (earlier ++ later) prio = enteredQueue earlier prio ++ enteredQueue later prio :=
  List.filterMap_append

/-! ## One call -/

theorem leftQueue_passEvents (sched : Sched) (served prio : Fin MAX_PRIO)
    (rest : List ProcRef) : leftQueue (passEvents sched served rest) prio = [] := by
  rcases passEvents_cases sched served rest with passed | stayed
  · rw [passed]
    rfl
  · rw [stayed]
    rfl

/-- The queue that is served loses its first process to the events, and no other
queue changes. -/
theorem leftQueue_serveEvents (sched : Sched) (served prio : Fin MAX_PRIO) :
    leftQueue (serveEvents sched served) prio ++ (serve sched served).2.mlqReadyQueue prio =
      sched.mlqReadyQueue prio := by
  have queues : (serve sched served).2.mlqReadyQueue =
      Function.update sched.mlqReadyQueue served (dequeue (sched.mlqReadyQueue served)).2 := rfl
  rw [queues]
  cases queue : sched.mlqReadyQueue served with
  | nil =>
      have events : serveEvents sched served = passEvents sched served [] := by
        rw [serveEvents, queue]
        rfl
      have same : (dequeue ([] : List ProcRef)).2 = sched.mlqReadyQueue served := queue.symm
      rw [events, leftQueue_passEvents, List.nil_append, same, Function.update_eq_self]
  | cons proc rest =>
      rw [serveEvents_cons queue, leftQueue, List.filterMap_cons]
      have passed := leftQueue_passEvents sched served prio rest
      rw [leftQueue] at passed
      by_cases here : served = prio
      · subst here
        rw [SchedEvent.leaving, if_pos rfl, passed, Function.update_self, queue]
        rfl
      · rw [SchedEvent.leaving, if_neg here, passed, List.nil_append,
          Function.update_of_ne (Ne.symm here)]

/-- What `get_proc` takes from a queue comes from its front. -/
theorem leftQueue_getEvents (sched : Sched) (prio : Fin MAX_PRIO) :
    leftQueue (getEvents sched) prio ++ (getMlqProc sched).2.mlqReadyQueue prio =
      sched.mlqReadyQueue prio := by
  rw [getEvents, getMlqProc]
  by_cases empty : queueEmpty sched = true
  · rw [if_pos empty, if_pos empty]
    rfl
  · rw [if_neg empty, if_neg empty]
    cases scanFrom sched.currentMlqPrio fun prio =>
        decide (0 < sched.slot prio) && !(sched.mlqReadyQueue prio).isEmpty with
    | some served => exact leftQueue_serveEvents sched served prio
    | none =>
        dsimp only
        cases scanFrom (resetMlqSlot sched).currentMlqPrio fun prio =>
            !((resetMlqSlot sched).mlqReadyQueue prio).isEmpty with
        | some served => exact leftQueue_serveEvents (resetMlqSlot sched) served prio
        | none => rfl

/-- A process that is admitted is hung behind the queue of its priority. -/
theorem queued_admitted (os : Os) (proc : ProcRef) (prio : Fin MAX_PRIO) :
    (os.sched.queued (normalizePrio (os.prio proc)) proc).mlqReadyQueue prio =
      os.sched.mlqReadyQueue prio ++ enteredQueue (admitted os (.putProc proc)) prio := by
  let own := normalizePrio (os.prio proc)
  have queues : (os.sched.queued own proc).mlqReadyQueue =
      Function.update os.sched.mlqReadyQueue own (enqueue (os.sched.mlqReadyQueue own) proc) := rfl
  rw [queues]
  rcases enqueue_cases (os.sched.mlqReadyQueue own) proc with ⟨room, hung⟩ | ⟨full, dropped⟩
  · have visit : admitted os (.putProc proc) = [(own, proc)] := if_pos room
    rw [hung, visit, enteredQueue, List.filterMap_cons]
    by_cases here : own = prio
    · subst here
      rw [if_pos rfl, Function.update_self]
      rfl
    · rw [if_neg here, Function.update_of_ne (Ne.symm here)]
      exact (List.append_nil _).symm
  · have visit : admitted os (.putProc proc) = [] := if_neg (Nat.not_lt_of_le full)
    rw [dropped, visit, Function.update_eq_self]
    exact (List.append_nil _).symm

theorem Booked.Ordered.step {before after : Booked} {call : SchedCall} (ordered : before.Ordered)
    (taken : bookedStep before call = some after) : after.Ordered := by
  intro prio
  have enters : ∀ proc, leftQueue before.session.history prio ++
      (before.session.os.sched.queued (normalizePrio (before.session.os.prio proc))
        proc).mlqReadyQueue prio =
      enteredQueue (before.entered ++ admitted before.session.os (.putProc proc)) prio := by
    intro proc
    rw [queued_admitted, ← List.append_assoc, ordered prio, enteredQueue_append]
  cases call with
  | getProc =>
      cases taken
      change leftQueue (before.session.history ++ getEvents before.session.os.sched) prio ++
        (getMlqProc before.session.os.sched).2.mlqReadyQueue prio =
          enteredQueue (before.entered ++ []) prio
      rw [leftQueue_append, List.append_assoc, leftQueue_getEvents, ordered prio, List.append_nil]
  | putProc proc =>
      cases taken
      exact enters proc
  | addProc proc =>
      cases taken
      exact enters proc

/-! ## Runs -/

/-- In any session, and for every priority: those that have left the queue,
followed by those in it, are those that have entered it, in this order. -/
theorem queues_keep_order {os : Os} {calls : List SchedCall} {booked : Booked}
    (path : Transition.Run bookedStep ⟨opened os, []⟩ calls booked) (prio : Fin MAX_PRIO) :
    leftQueue booked.session.history prio ++ booked.session.os.sched.mlqReadyQueue prio =
      enteredQueue booked.entered prio := by
  have ordered : booked.Ordered := by
    refine path.invariant Booked.Ordered (fun _ => rfl) ?_
    intro before call after held taken
    exact held.step taken
  exact ordered prio

/-- Two processes of one priority take turns. -/
def takenTurns : Booked :=
  (Transition.exec bookedStep (fun _ _ => True) ⟨opened (load (load (boot 1024 0 nullHeads) [] 1) [] 1), []⟩
    [.addProc 1, .addProc 2, .getProc, .putProc 1, .getProc]).get (by decide +kernel)

theorem takenTurns_reached : ∃ calls, Transition.Run bookedStep
    ⟨opened (load (load (boot 1024 0 nullHeads) [] 1) [] 1), []⟩ calls takenTurns :=
  ⟨_, (Transition.runWhere_of_exec (Option.some_get _).symm).run⟩

theorem queues_keep_order_takenTurns :
    leftQueue takenTurns.session.history (normalizePrio 1) = [1, 2] ∧
      leftQueue takenTurns.session.history (normalizePrio 1) ++
          takenTurns.session.os.sched.mlqReadyQueue (normalizePrio 1) =
        enteredQueue takenTurns.entered (normalizePrio 1) := by
  rcases takenTurns_reached with ⟨calls, path⟩
  exact ⟨by decide +kernel, queues_keep_order path (normalizePrio 1)⟩

end Kernel
end Ossim
