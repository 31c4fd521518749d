import Ossim.Kernel.Sched

namespace Ossim
namespace Kernel

/-!
# What one scheduler call does

`getMlqProc_outcome` is the inversion of `get_mlq_proc`.  There are three
outcomes: all queues are empty, the first scan finds a queue with budget, or
the budgets are renewed and the second scan finds a queue.  Both scans go
around the priorities from the remembered one, so the queue they find is the
nearest in that order, and `distanceFrom` measures it.
-/

/-! ## The cyclic scan -/

/-- The number of steps of the scan from one priority to another. -/
def distanceFrom (start prio : Fin MAX_PRIO) : Nat :=
  (prio.val + MAX_PRIO - start.val) % MAX_PRIO

theorem distanceFrom_lt (start prio : Fin MAX_PRIO) : distanceFrom start prio < MAX_PRIO :=
  Nat.mod_lt _ (by decide)

/-- The scan reaches a priority after its distance. -/
theorem scanned_eq_iff (start prio : Fin MAX_PRIO) {scanned : Nat} (early : scanned < MAX_PRIO) :
    Fin.ofNat MAX_PRIO (start.val + scanned) = prio ↔ scanned = distanceFrom start prio := by
  have left := start.isLt
  have right := prio.isLt
  rw [Fin.ext_iff, Fin.val_ofNat, distanceFrom]
  unfold MAX_PRIO at early left right ⊢
  omega

theorem scanFrom_some {start prio : Fin MAX_PRIO} {accept : Fin MAX_PRIO → Bool}
    (found : scanFrom start accept = some prio) :
    accept prio = true ∧
      ∀ other, distanceFrom start other < distanceFrom start prio → accept other = false := by
  rw [scanFrom, List.find?_eq_some_iff_getElem] at found
  rcases found with ⟨accepted, index, bound, here, before⟩
  rw [List.length_map, List.length_range] at bound
  rw [List.getElem_map, List.getElem_range, scanned_eq_iff start prio bound] at here
  refine ⟨accepted, fun other nearer => ?_⟩
  have rejected := before (distanceFrom start other) (by omega)
  rw [List.getElem_map, List.getElem_range,
    (scanned_eq_iff start other (distanceFrom_lt start other)).mpr rfl] at rejected
  rw [Bool.not_eq_true'] at rejected
  exact rejected

theorem scanFrom_none {start : Fin MAX_PRIO} {accept : Fin MAX_PRIO → Bool}
    (missing : scanFrom start accept = none) (prio : Fin MAX_PRIO) : accept prio = false := by
  rw [scanFrom, List.find?_eq_none] at missing
  have reached := (scanned_eq_iff start prio (distanceFrom_lt start prio)).mpr rfl
  have rejected := missing prio (List.mem_map.mpr
    ⟨distanceFrom start prio, List.mem_range.mpr (distanceFrom_lt start prio), reached⟩)
  exact Bool.eq_false_iff.mpr rejected

/-- Two priorities at the same distance are the same. -/
theorem distanceFrom_injective (start : Fin MAX_PRIO) :
    Function.Injective (distanceFrom start) := by
  intro left right same
  have first := (scanned_eq_iff start left (distanceFrom_lt start left)).mpr rfl
  have second := (scanned_eq_iff start right (distanceFrom_lt start right)).mpr rfl
  rw [same] at first
  exact first.symm.trans second

/-- The scan stops at the nearest accepted priority. -/
theorem scanFrom_eq_some {start prio : Fin MAX_PRIO} {accept : Fin MAX_PRIO → Bool}
    (accepted : accept prio = true)
    (nearest : ∀ other, distanceFrom start other < distanceFrom start prio →
      accept other = false) :
    scanFrom start accept = some prio := by
  cases found : scanFrom start accept with
  | none =>
      rw [scanFrom_none found prio] at accepted
      cases accepted
  | some other =>
      have spec := scanFrom_some found
      apply congrArg some
      apply distanceFrom_injective start
      apply le_antisymm
      · apply le_of_not_gt
        intro nearer
        rw [spec.2 prio nearer] at accepted
        cases accepted
      · apply le_of_not_gt
        intro nearer
        rw [nearest other nearer] at spec
        cases spec.1

/-! ## The outcomes of `get_mlq_proc` -/

/-- A queue that the first scan stops at. -/
def Sched.Candidate (sched : Sched) (prio : Fin MAX_PRIO) : Prop :=
  0 < sched.slot prio ∧ sched.mlqReadyQueue prio ≠ []

instance (sched : Sched) (prio : Fin MAX_PRIO) : Decidable (sched.Candidate prio) :=
  inferInstanceAs (Decidable (_ ∧ _))

/-- The scheduler after a queue has been served and `rest` is left of it. -/
def Sched.served (sched : Sched) (prio : Fin MAX_PRIO) (rest : List ProcRef) : Sched :=
  { sched with
    mlqReadyQueue := Function.update sched.mlqReadyQueue prio rest
    slot := Function.update sched.slot prio (sched.slot prio - 1)
    currentMlqPrio :=
      if sched.slot prio - 1 = 0 ∨ rest = [] then Fin.ofNat MAX_PRIO (prio.val + 1) else prio }

inductive GetOutcome (sched : Sched) : Option ProcRef × Sched → Prop
  /-- Every queue is empty. -/
  | idle (empty : ∀ prio, sched.mlqReadyQueue prio = []) : GetOutcome sched (none, sched)
  /-- The first scan finds the nearest queue with budget. -/
  | served (prio : Fin MAX_PRIO) (proc : ProcRef) (rest : List ProcRef)
      (queue : sched.mlqReadyQueue prio = proc :: rest) (budget : 0 < sched.slot prio)
      (nearest : ∀ other, distanceFrom sched.currentMlqPrio other <
        distanceFrom sched.currentMlqPrio prio → ¬ sched.Candidate other) :
      GetOutcome sched (some proc, sched.served prio rest)
  /-- No queue has budget left, and after the reset the second scan finds the
  nearest queue that is not empty. -/
  | renewed (prio : Fin MAX_PRIO) (proc : ProcRef) (rest : List ProcRef)
      (queue : sched.mlqReadyQueue prio = proc :: rest)
      (exhausted : ∀ other, ¬ sched.Candidate other)
      (nearest : ∀ other, distanceFrom sched.currentMlqPrio other <
        distanceFrom sched.currentMlqPrio prio → sched.mlqReadyQueue other = []) :
      GetOutcome sched (some proc, (resetMlqSlot sched).served prio rest)

theorem serve_cons {sched : Sched} {prio : Fin MAX_PRIO} {proc : ProcRef} {rest : List ProcRef}
    (queue : sched.mlqReadyQueue prio = proc :: rest) :
    serve sched prio = (some proc, sched.served prio rest) := by
  rw [serve, queue]
  rfl

theorem queueEmpty_iff (sched : Sched) :
    queueEmpty sched = true ↔ ∀ prio, sched.mlqReadyQueue prio = [] := by
  simp [queueEmpty, List.all_eq_true]

theorem getMlqProc_outcome (sched : Sched) : GetOutcome sched (getMlqProc sched) := by
  unfold getMlqProc
  by_cases empty : queueEmpty sched = true
  · rw [if_pos empty]
    exact .idle ((queueEmpty_iff sched).mp empty)
  · rw [if_neg empty]
    have accepts : ∀ prio, (decide (0 < sched.slot prio) && !(sched.mlqReadyQueue prio).isEmpty) =
        true ↔ sched.Candidate prio := by
      intro prio
      simp [Sched.Candidate]
    cases first : scanFrom sched.currentMlqPrio fun prio =>
        decide (0 < sched.slot prio) && !(sched.mlqReadyQueue prio).isEmpty with
    | some prio =>
        have spec := scanFrom_some first
        have candidate := (accepts prio).mp spec.1
        rcases List.exists_cons_of_ne_nil candidate.2 with ⟨proc, rest, queue⟩
        dsimp only
        rw [serve_cons queue]
        refine .served prio proc rest queue candidate.1 fun other nearer accepted => ?_
        have rejected := spec.2 other nearer
        rw [(accepts other).mpr accepted] at rejected
        cases rejected
    | none =>
        dsimp only
        have exhausted : ∀ other, ¬ sched.Candidate other := by
          intro other accepted
          have rejected := scanFrom_none first other
          rw [(accepts other).mpr accepted] at rejected
          cases rejected
        cases second : scanFrom (resetMlqSlot sched).currentMlqPrio fun prio =>
            !((resetMlqSlot sched).mlqReadyQueue prio).isEmpty with
        | some prio =>
            have spec := scanFrom_some second
            have filled : (resetMlqSlot sched).mlqReadyQueue prio ≠ [] := by
              simpa using spec.1
            rcases List.exists_cons_of_ne_nil filled with ⟨proc, rest, queue⟩
            dsimp only
            rw [serve_cons queue]
            refine .renewed prio proc rest queue exhausted fun other nearer => ?_
            have rejected := spec.2 other nearer
            simpa [resetMlqSlot] using rejected
        | none =>
            refine absurd ((queueEmpty_iff sched).mpr fun prio => ?_) empty
            have rejected := scanFrom_none second prio
            simpa [resetMlqSlot] using rejected

/-! ## Putting a process into its queue -/

/-- The scheduler after a process was enqueued at a priority. -/
def Sched.queued (sched : Sched) (prio : Fin MAX_PRIO) (proc : ProcRef) : Sched :=
  { sched with
    mlqReadyQueue :=
      Function.update sched.mlqReadyQueue prio (enqueue (sched.mlqReadyQueue prio) proc) }

theorem sched_putMlqProc (os : Os) (proc : ProcRef) :
    (putMlqProc os proc).sched = os.sched.queued (normalizePrio (os.prio proc)) proc := rfl

theorem sched_addMlqProc (os : Os) (proc : ProcRef) :
    (addMlqProc os proc).sched =
      { os.sched.queued (normalizePrio (os.prio proc)) proc with
        runningList := enqueue os.sched.runningList proc } := rfl

theorem enqueue_cases (q : List ProcRef) (proc : ProcRef) :
    (q.length < MAX_QUEUE_SIZE ∧ enqueue q proc = q ++ [proc]) ∨
      (MAX_QUEUE_SIZE ≤ q.length ∧ enqueue q proc = q) := by
  unfold enqueue
  by_cases full : MAX_QUEUE_SIZE ≤ q.length
  · exact Or.inr ⟨full, if_pos full⟩
  · exact Or.inl ⟨Nat.lt_of_not_le full, if_neg full⟩

theorem mem_of_mem_enqueue {q : List ProcRef} {added proc : ProcRef}
    (member : proc ∈ enqueue q added) : proc ∈ q ∨ proc = added := by
  rcases enqueue_cases q added with ⟨_, appended⟩ | ⟨_, dropped⟩
  · rw [appended, List.mem_append, List.mem_singleton] at member
    exact member
  · exact Or.inl (dropped ▸ member)

end Kernel
end Ossim
