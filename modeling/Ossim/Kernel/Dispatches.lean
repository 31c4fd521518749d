import Ossim.Kernel.Mlq
import Ossim.Kernel.Process
import Ossim.Library.Transition

namespace Ossim
namespace Kernel

/-!
# Sequences of scheduler calls

A session is any sequence of `get_proc`, `put_proc` and `add_proc` calls after
`init_scheduler`, on processes with any priorities.  The history lists the slot
resets and the processes that were returned; it is not a variable of the
program, and `reply_getEvents` ties it to what `get_proc` returns.
`SchedEffect` is the inversion of one call, and every statement about sessions
is proved from its four cases.
-/

inductive SchedCall
  | getProc
  | putProc (proc : ProcRef)
  | addProc (proc : ProcRef)
  deriving DecidableEq, Repr

inductive SchedEvent
  /-- `reset_mlq_slot` was called. -/
  | reset
  /-- `get_proc` returned a process of the ready queue of a priority. -/
  | returned (prio : Fin MAX_PRIO) (proc : ProcRef)
  /-- That used up the slot or emptied the queue, so the scan moved on. -/
  | passed (prio : Fin MAX_PRIO)
  deriving DecidableEq

structure Session where
  os : Os
  history : List SchedEvent

/-- The last test of both scan loops, as an event. -/
def passEvents (sched : Sched) (prio : Fin MAX_PRIO) (rest : List ProcRef) : List SchedEvent :=
  if sched.slot prio - 1 = 0 ∨ rest = [] then [.passed prio] else []

theorem passEvents_cases (sched : Sched) (prio : Fin MAX_PRIO) (rest : List ProcRef) :
    passEvents sched prio rest = [.passed prio] ∨ passEvents sched prio rest = [] := by
  unfold passEvents
  by_cases finished : sched.slot prio - 1 = 0 ∨ rest = []
  · exact Or.inl (if_pos finished)
  · exact Or.inr (if_neg finished)

/-- The body of both scan loops, as events. -/
def serveEvents (sched : Sched) (prio : Fin MAX_PRIO) : List SchedEvent :=
  match dequeue (sched.mlqReadyQueue prio) with
  | (none, rest) => passEvents sched prio rest
  | (some proc, rest) => .returned prio proc :: passEvents sched prio rest

/-- What one `get_mlq_proc` does, in order. -/
def getEvents (sched : Sched) : List SchedEvent :=
  if queueEmpty sched then []
  else
    match scanFrom sched.currentMlqPrio fun prio =>
        decide (0 < sched.slot prio) && !(sched.mlqReadyQueue prio).isEmpty with
    | some prio => serveEvents sched prio
    | none =>
        let fresh := resetMlqSlot sched
        match scanFrom fresh.currentMlqPrio fun prio => !(fresh.mlqReadyQueue prio).isEmpty with
        | some prio => .reset :: serveEvents fresh prio
        | none => [.reset]

def schedStep (session : Session) : SchedCall → Option Session
  | .getProc => some ⟨(getProc session.os).2, session.history ++ getEvents session.os.sched⟩
  | .putProc proc => some ⟨putProc session.os proc, session.history⟩
  | .addProc proc => some ⟨addProc session.os proc, session.history⟩

/-- The state after `init_scheduler`. -/
def opened (os : Os) : Session := ⟨os.setSched initScheduler, []⟩

/-! ## The effect of one call -/

inductive SchedEffect (before : Sched) : List SchedEvent → Sched → Prop
  /-- `get_proc` with all queues empty. -/
  | idle (empty : ∀ prio, before.mlqReadyQueue prio = []) : SchedEffect before [] before
  /-- `put_proc` or `add_proc`. -/
  | queued (prio : Fin MAX_PRIO) (proc : ProcRef) (runningList : List ProcRef) :
      SchedEffect before [] { before.queued prio proc with runningList := runningList }
  | served (prio : Fin MAX_PRIO) (proc : ProcRef) (rest : List ProcRef)
      (queue : before.mlqReadyQueue prio = proc :: rest) (budget : 0 < before.slot prio)
      (nearest : ∀ other, distanceFrom before.currentMlqPrio other <
        distanceFrom before.currentMlqPrio prio → ¬ before.Candidate other) :
      SchedEffect before (.returned prio proc :: passEvents before prio rest)
        (before.served prio rest)
  | renewed (prio : Fin MAX_PRIO) (proc : ProcRef) (rest : List ProcRef)
      (queue : before.mlqReadyQueue prio = proc :: rest)
      (exhausted : ∀ other, ¬ before.Candidate other)
      (nearest : ∀ other, distanceFrom before.currentMlqPrio other <
        distanceFrom before.currentMlqPrio prio → before.mlqReadyQueue other = []) :
      SchedEffect before (.reset :: .returned prio proc :: passEvents (resetMlqSlot before) prio rest)
        ((resetMlqSlot before).served prio rest)

private theorem candidate_accepted (sched : Sched) (prio : Fin MAX_PRIO) :
    (decide (0 < sched.slot prio) && !(sched.mlqReadyQueue prio).isEmpty) =
      decide (sched.Candidate prio) := by
  rw [Bool.eq_iff_iff, decide_eq_true_iff (p := sched.Candidate prio)]
  simp [Sched.Candidate]

theorem serveEvents_cons {sched : Sched} {prio : Fin MAX_PRIO} {proc : ProcRef}
    {rest : List ProcRef} (queue : sched.mlqReadyQueue prio = proc :: rest) :
    serveEvents sched prio = .returned prio proc :: passEvents sched prio rest := by
  rw [serveEvents, queue]
  rfl

/-- The events of `get_mlq_proc` follow its outcome. -/
theorem getEvents_effect (sched : Sched) :
    SchedEffect sched (getEvents sched) (getMlqProc sched).2 := by
  have outcome := getMlqProc_outcome sched
  generalize getMlqProc sched = result at outcome ⊢
  unfold getEvents
  simp only [candidate_accepted]
  cases outcome with
  | idle empty =>
      rw [if_pos ((queueEmpty_iff sched).mpr empty)]
      exact .idle empty
  | served prio proc rest queue budget nearest =>
      have filled : ¬ queueEmpty sched = true := by
        intro empty
        rw [(queueEmpty_iff sched).mp empty prio] at queue
        cases queue
      have candidate : sched.Candidate prio := ⟨budget, queue ▸ List.cons_ne_nil proc rest⟩
      have first := scanFrom_eq_some
        (show (fun other => decide (sched.Candidate other)) prio = true from
          decide_eq_true candidate)
        fun other nearer => decide_eq_false (nearest other nearer)
      rw [if_neg filled, first]
      dsimp only
      rw [serveEvents_cons queue]
      exact .served prio proc rest queue budget nearest
  | renewed prio proc rest queue exhausted nearest =>
      have filled : ¬ queueEmpty sched = true := by
        intro empty
        rw [(queueEmpty_iff sched).mp empty prio] at queue
        cases queue
      have first : scanFrom sched.currentMlqPrio (fun other => decide (sched.Candidate other)) =
          none := by
        cases found : scanFrom sched.currentMlqPrio (fun other =>
            decide (sched.Candidate other)) with
        | none => rfl
        | some other =>
            exact absurd (of_decide_eq_true (scanFrom_some found).1) (exhausted other)
      have second := scanFrom_eq_some
        (show (fun other => !((resetMlqSlot sched).mlqReadyQueue other).isEmpty) prio = true by
          simp [resetMlqSlot, queue])
        (fun other nearer => show (!((resetMlqSlot sched).mlqReadyQueue other).isEmpty) = false by
          simpa [resetMlqSlot] using nearest other nearer)
      rw [if_neg filled, first]
      dsimp only
      have same : (resetMlqSlot sched).currentMlqPrio = sched.currentMlqPrio := rfl
      rw [same, second]
      dsimp only
      have fresh : (resetMlqSlot sched).mlqReadyQueue prio = proc :: rest := queue
      rw [serveEvents_cons fresh]
      exact .renewed prio proc rest queue exhausted nearest

/-- The process that an event says was returned. -/
def SchedEvent.reply : SchedEvent → Option ProcRef
  | .returned _ proc => some proc
  | _ => none

theorem reply_passEvents (sched : Sched) (prio : Fin MAX_PRIO) (rest : List ProcRef) :
    (passEvents sched prio rest).filterMap SchedEvent.reply = [] := by
  rcases passEvents_cases sched prio rest with passed | stayed
  · rw [passed]
    rfl
  · rw [stayed]
    rfl

theorem reply_serveEvents (sched : Sched) (prio : Fin MAX_PRIO) :
    (serveEvents sched prio).filterMap SchedEvent.reply = (serve sched prio).1.toList := by
  unfold serveEvents serve
  cases sched.mlqReadyQueue prio with
  | nil => exact reply_passEvents sched prio []
  | cons proc rest => exact congrArg (List.cons proc) (reply_passEvents sched prio rest)

/-- `get_proc` returns the process that its events name, and none when they name none. -/
theorem reply_getEvents (os : Os) :
    (getEvents os.sched).filterMap SchedEvent.reply = (getProc os).1.toList := by
  have reply : (getProc os).1 = (getMlqProc os.sched).1 := rfl
  rw [reply, getEvents, getMlqProc]
  by_cases empty : queueEmpty os.sched = true
  · rw [if_pos empty, if_pos empty]
    rfl
  · rw [if_neg empty, if_neg empty]
    cases scanFrom os.sched.currentMlqPrio fun prio =>
        decide (0 < os.sched.slot prio) && !(os.sched.mlqReadyQueue prio).isEmpty with
    | some prio => exact reply_serveEvents os.sched prio
    | none =>
        dsimp only
        cases scanFrom (resetMlqSlot os.sched).currentMlqPrio fun prio =>
            !((resetMlqSlot os.sched).mlqReadyQueue prio).isEmpty with
        | some prio => exact reply_serveEvents (resetMlqSlot os.sched) prio
        | none => rfl

/-- The history grows by the reply of the call. -/
theorem reply_schedStep {before after : Session} (taken : schedStep before .getProc = some after) :
    after.history.filterMap SchedEvent.reply =
      before.history.filterMap SchedEvent.reply ++ (getProc before.os).1.toList := by
  cases taken
  rw [List.filterMap_append, reply_getEvents]

theorem schedStep_effect {before after : Session} {call : SchedCall}
    (taken : schedStep before call = some after) :
    ∃ events, after.history = before.history ++ events ∧
      SchedEffect before.os.sched events after.os.sched := by
  cases call with
  | getProc =>
      cases taken
      exact ⟨_, rfl, getEvents_effect before.os.sched⟩
  | putProc proc =>
      cases taken
      refine ⟨[], (List.append_nil _).symm, ?_⟩
      dsimp only
      rw [putProc, sched_putMlqProc]
      exact .queued (normalizePrio (before.os.prio proc)) proc before.os.sched.runningList
  | addProc proc =>
      cases taken
      refine ⟨[], (List.append_nil _).symm, ?_⟩
      dsimp only
      rw [addProc, sched_addMlqProc]
      exact .queued (normalizePrio (before.os.prio proc)) proc _

/-! ## Which queue is served -/

/-- Where the scan starts after an event, from where it started before. -/
def SchedEvent.position (start : Fin MAX_PRIO) : SchedEvent → Fin MAX_PRIO
  | .reset => start
  | .returned prio _ => prio
  | .passed prio => Fin.ofNat MAX_PRIO (prio.val + 1)

/-- Where the next scan starts: at the priority served last, or behind it when
the scan has moved on. -/
def scanPosition (history : List SchedEvent) : Fin MAX_PRIO :=
  history.foldl SchedEvent.position 0

theorem SchedEffect.position {before after : Sched} {events : List SchedEvent}
    (effect : SchedEffect before events after) :
    after.currentMlqPrio = events.foldl SchedEvent.position before.currentMlqPrio := by
  have moved : ∀ (sched : Sched) (prio : Fin MAX_PRIO) (rest : List ProcRef),
      (sched.served prio rest).currentMlqPrio =
        (passEvents sched prio rest).foldl SchedEvent.position prio := by
    intro sched prio rest
    by_cases finished : sched.slot prio - 1 = 0 ∨ rest = []
    · rw [passEvents, if_pos finished]
      exact if_pos finished
    · rw [passEvents, if_neg finished]
      exact if_neg finished
  cases effect with
  | idle _ => rfl
  | queued prio proc runningList => rfl
  | served prio proc rest _ _ _ => exact moved before prio rest
  | renewed prio proc rest _ _ _ => exact moved (resetMlqSlot before) prio rest

theorem currentMlqPrio_opened {os : Os} {calls : List SchedCall} {session : Session}
    (path : Transition.Run schedStep (opened os) calls session) :
    session.os.sched.currentMlqPrio = scanPosition session.history := by
  apply path.invariant fun session =>
    session.os.sched.currentMlqPrio = scanPosition session.history
  · rfl
  · intro before call after held taken
    rcases schedStep_effect taken with ⟨events, recorded, effect⟩
    rw [effect.position, held, recorded, scanPosition, scanPosition, List.foldl_append]

/-- The queue that is served is the first one from the remembered position that
has a process and budget left.  When there is none, the slots are reset and the
first queue that has a process is served. -/
theorem get_serves_nearest {os : Os} {calls : List SchedCall} {session : Session}
    (path : Transition.Run schedStep (opened os) calls session)
    (filled : ∃ prio, session.os.sched.mlqReadyQueue prio ≠ []) :
    let sched := session.os.sched
    let start := scanPosition session.history
    ∃ prio proc rest, sched.mlqReadyQueue prio = proc :: rest ∧
      ((getMlqProc sched = (some proc, sched.served prio rest) ∧ sched.Candidate prio ∧
          ∀ other, distanceFrom start other < distanceFrom start prio → ¬ sched.Candidate other) ∨
        (getMlqProc sched = (some proc, (resetMlqSlot sched).served prio rest) ∧
          (∀ other, ¬ sched.Candidate other) ∧
          ∀ other, distanceFrom start other < distanceFrom start prio →
            sched.mlqReadyQueue other = [])) := by
  intro sched start
  have outcome := getMlqProc_outcome sched
  generalize getMlqProc sched = result at outcome ⊢
  have position : sched.currentMlqPrio = start := currentMlqPrio_opened path
  cases outcome with
  | idle empty =>
      rcases filled with ⟨prio, nonempty⟩
      exact absurd (empty prio) nonempty
  | served prio proc rest queue budget nearest =>
      rw [position] at nearest
      exact ⟨prio, proc, rest, queue,
        Or.inl ⟨rfl, ⟨budget, queue ▸ List.cons_ne_nil proc rest⟩, nearest⟩⟩
  | renewed prio proc rest queue exhausted nearest =>
      rw [position] at nearest
      exact ⟨prio, proc, rest, queue, Or.inr ⟨rfl, exhausted, nearest⟩⟩

/-- A kernel with two processes, of the priorities 1 and 3. -/
def twoProcs : Os := load (load (boot 1024 0 nullHeads) [] 1) [] 3

/-- The process of priority 1 is returned, put back, and joined by the other. -/
def rejoined : Session :=
  (Transition.exec schedStep (fun _ _ => True) (opened twoProcs)
    [.addProc 1, .getProc, .putProc 1, .addProc 2]).get (by decide +kernel)

theorem rejoined_reached : ∃ calls, Transition.Run schedStep (opened twoProcs) calls rejoined :=
  ⟨_, (Transition.runWhere_of_exec (Option.some_get _).symm).run⟩

theorem get_serves_nearest_rejoined :
    let sched := rejoined.os.sched
    let start := scanPosition rejoined.history
    ∃ prio proc rest, sched.mlqReadyQueue prio = proc :: rest ∧
      ((getMlqProc sched = (some proc, sched.served prio rest) ∧ sched.Candidate prio ∧
          ∀ other, distanceFrom start other < distanceFrom start prio → ¬ sched.Candidate other) ∨
        (getMlqProc sched = (some proc, (resetMlqSlot sched).served prio rest) ∧
          (∀ other, ¬ sched.Candidate other) ∧
          ∀ other, distanceFrom start other < distanceFrom start prio →
            sched.mlqReadyQueue other = [])) := by
  rcases rejoined_reached with ⟨calls, path⟩
  exact get_serves_nearest path ⟨3, by decide +kernel⟩

/-- The rule of the documentation: the lowest priority number wins. -/
def Sched.ServesLowest (sched : Sched) : Prop :=
  (∀ prio, sched.Candidate prio → (∀ other < prio, ¬ sched.Candidate other) →
    (getMlqProc sched).1 = (sched.mlqReadyQueue prio).head?) ∧
  ((∀ prio, ¬ sched.Candidate prio) → ∀ prio, sched.mlqReadyQueue prio ≠ [] →
    (∀ other < prio, sched.mlqReadyQueue other = []) →
      (getMlqProc sched).1 = (sched.mlqReadyQueue prio).head? ∧
        (getMlqProc sched).2.slot =
          Function.update (resetMlqSlot sched).slot prio ((resetMlqSlot sched).slot prio - 1))

/-- The queue of priority 1 has a process and budget, and the queue of priority 3
is served. -/
theorem not_serves_lowest :
    ¬ ∀ os calls session, Transition.Run schedStep (opened os) calls session →
      (∃ prio, session.os.sched.mlqReadyQueue prio ≠ []) → session.os.sched.ServesLowest := by
  intro always
  rcases rejoined_reached with ⟨calls, path⟩
  have lowest := (always twoProcs calls rejoined path ⟨3, by decide +kernel⟩).1 1
    (by decide +kernel) (by decide +kernel)
  have other : (getMlqProc rejoined.os.sched).1 = some 2 := by decide +kernel
  have head : (rejoined.os.sched.mlqReadyQueue 1).head? = some 1 := by decide +kernel
  rw [other, head] at lowest
  exact absurd lowest (by decide)

end Kernel
end Ossim
