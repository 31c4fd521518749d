import Ossim.Kernel.Cpu

namespace Ossim
namespace Kernel

open Memory

/-!
# The multi-level queue scheduler

The functions of `queue.c` and `sched.c` under `MLQ_SCHED`.  Each of the four
public calls holds `queue_lock` throughout and is one step.

A queue is an array of 50 pointers.  `enqueue` drops what does not fit; its
callers get no status.
-/

/-! ## Queues -/

def enqueue (q : List ProcRef) (proc : ProcRef) : List ProcRef :=
  if MAX_QUEUE_SIZE ≤ q.length then q else q ++ [proc]

def dequeue (q : List ProcRef) : Option ProcRef × List ProcRef :=
  match q with
  | [] => (none, [])
  | proc :: rest => (some proc, rest)

/-- `purgequeue` closes the gap left by the first occurrence. -/
def purgequeue (q : List ProcRef) (proc : ProcRef) : List ProcRef :=
  q.erase proc

/-! ## Slots and selection -/

def resetMlqSlot (sched : Sched) : Sched :=
  { sched with slot := fun prio => MAX_PRIO - prio.val }

def initScheduler : Sched where
  mlqReadyQueue := fun _ => []
  slot := fun prio => MAX_PRIO - prio.val
  currentMlqPrio := 0
  runningList := []

def normalizePrio (prio : Nat) : Fin MAX_PRIO :=
  if inside : prio < MAX_PRIO then ⟨prio, inside⟩ else ⟨139, by decide⟩

def queueEmpty (sched : Sched) : Bool :=
  (List.finRange MAX_PRIO).all fun prio => (sched.mlqReadyQueue prio).isEmpty

/-- The cyclic scan of `get_mlq_proc` from the remembered priority. -/
def scanFrom (start : Fin MAX_PRIO) (accept : Fin MAX_PRIO → Bool) : Option (Fin MAX_PRIO) :=
  ((List.range MAX_PRIO).map fun scanned => Fin.ofNat MAX_PRIO (start.val + scanned)).find? accept

/-- The body of both scan loops once a queue is chosen. -/
def serve (sched : Sched) (prio : Fin MAX_PRIO) : Option ProcRef × Sched :=
  match dequeue (sched.mlqReadyQueue prio) with
  | (proc, rest) =>
      let left := sched.slot prio - 1
      let next := if left = 0 ∨ rest = [] then Fin.ofNat MAX_PRIO (prio.val + 1) else prio
      (proc, { sched with
        mlqReadyQueue := Function.update sched.mlqReadyQueue prio rest
        slot := Function.update sched.slot prio left
        currentMlqPrio := next })

def getMlqProc (sched : Sched) : Option ProcRef × Sched :=
  if queueEmpty sched then (none, sched)
  else
    match scanFrom sched.currentMlqPrio fun prio =>
        decide (0 < sched.slot prio) && !(sched.mlqReadyQueue prio).isEmpty with
    | some prio => serve sched prio
    | none =>
        let fresh := resetMlqSlot sched
        match scanFrom fresh.currentMlqPrio fun prio => !(fresh.mlqReadyQueue prio).isEmpty with
        | some prio => serve fresh prio
        | none => (none, fresh)

/-! ## The locked calls -/

def Os.prio (os : Os) (proc : ProcRef) : Nat :=
  match os.procs proc with
  | none => 0
  | some pcb => pcb.prio

def putMlqProc (os : Os) (proc : ProcRef) : Os :=
  let prio := normalizePrio (os.prio proc)
  let clamped := os.updatePcb proc fun pcb => { pcb with prio := prio.val }
  clamped.setSched { clamped.sched with
    mlqReadyQueue := Function.update clamped.sched.mlqReadyQueue prio
      (enqueue (clamped.sched.mlqReadyQueue prio) proc) }

def addMlqProc (os : Os) (proc : ProcRef) : Os :=
  let queued := putMlqProc os proc
  queued.setSched { queued.sched with runningList := enqueue queued.sched.runningList proc }

def getProc (os : Os) : Option ProcRef × Os :=
  match getMlqProc os.sched with
  | (proc, sched) => (proc, os.setSched sched)

def putProc (os : Os) (proc : ProcRef) : Os := putMlqProc os proc

def addProc (os : Os) (proc : ProcRef) : Os := addMlqProc os proc

def removeProc (os : Os) (proc : ProcRef) : Os :=
  os.setSched { os.sched with runningList := purgequeue os.sched.runningList proc }

end Kernel
end Ossim
