import Mathlib.Data.List.Count
import Ossim.Kernel.Timer

namespace Ossim
namespace Kernel

/-!
# The devices stay in step

Between two ticks every attached device sets `done` once and is released once.
`InStep` says where a device can be relative to the walks of the timer and how
often it has begun and finished a slot, counted against the ticks.  A device
that was released early may finish its next slot while the timer still releases
the others: its flag then stays set until the next second walk.
-/

variable {numDevices : Nat}

/-! ## Reading the history -/

def ticks (history : List (TimerEvent numDevices)) : Nat := history.count .ticked

def TimerEvent.isBegin (id : Fin numDevices) : TimerEvent numDevices → Bool
  | .began device _ => device = id
  | _ => false

/-- The number of slots that a device has begun after its first one. -/
def begun (history : List (TimerEvent numDevices)) (id : Fin numDevices) : Nat :=
  history.countP (TimerEvent.isBegin id)

def finishedSlots (history : List (TimerEvent numDevices)) (id : Fin numDevices) : Nat :=
  history.count (.finished id)

def TimerEvent.countReleases (id : Fin numDevices) (count : Nat) : TimerEvent numDevices → Nat
  | .ticked => 0
  | .released device => if device = id then count + 1 else count
  | _ => count

/-- How often a device was released since the last tick. -/
def releasesThisTick (history : List (TimerEvent numDevices)) (id : Fin numDevices) : Nat :=
  history.foldl (TimerEvent.countReleases id) 0

def TimerEvent.beginTime (id : Fin numDevices) (known : BitVec 64) :
    TimerEvent numDevices → BitVec 64
  | .began device now => if device = id then now else known
  | _ => known

/-- The `current_time()` at which a device began its slot. -/
def slotTime (history : List (TimerEvent numDevices)) (id : Fin numDevices) : BitVec 64 :=
  history.foldl (TimerEvent.beginTime id) 0

@[simp] theorem ticks_snoc (history : List (TimerEvent numDevices))
    (event : TimerEvent numDevices) :
    ticks (history ++ [event]) = ticks history + if event = .ticked then 1 else 0 := by
  rw [ticks, List.count_append, List.count_singleton]
  simp [ticks]

@[simp] theorem begun_snoc (history : List (TimerEvent numDevices))
    (event : TimerEvent numDevices) (id : Fin numDevices) :
    begun (history ++ [event]) id =
      begun history id + if event.isBegin id then 1 else 0 := by
  rw [begun, List.countP_append, List.countP_singleton, begun]

@[simp] theorem finishedSlots_snoc (history : List (TimerEvent numDevices))
    (event : TimerEvent numDevices) (id : Fin numDevices) :
    finishedSlots (history ++ [event]) id =
      finishedSlots history id + if event = .finished id then 1 else 0 := by
  rw [finishedSlots, List.count_append, List.count_singleton]
  simp [finishedSlots]

@[simp] theorem releasesThisTick_snoc (history : List (TimerEvent numDevices))
    (event : TimerEvent numDevices) (id : Fin numDevices) :
    releasesThisTick (history ++ [event]) id =
      event.countReleases id (releasesThisTick history id) := by
  rw [releasesThisTick, List.foldl_append]
  rfl

@[simp] theorem slotTime_snoc (history : List (TimerEvent numDevices))
    (event : TimerEvent numDevices) (id : Fin numDevices) :
    slotTime (history ++ [event]) id = event.beginTime id (slotTime history id) := by
  rw [slotTime, List.foldl_append]
  rfl

/-! ## The invariant -/

namespace Barrier

/-- The first walk of this round has passed the device. -/
def Collected (barrier : Barrier numDevices) (id : Fin numDevices) : Prop :=
  ∃ position fsh event, barrier.timer = .collecting position fsh event ∧ id.val < position

/-- The second walk of this round has not reached the device. -/
def Pending (barrier : Barrier numDevices) (id : Fin numDevices) : Prop :=
  ∃ position fsh event, barrier.timer = .releasing position fsh event ∧ position ≤ id.val

/-- The ways in which a device can stand to the timer. -/
inductive InStep (barrier : Barrier numDevices) (id : Fin numDevices) : Prop
  /-- It does the job of the current slot, and the timer waits for it. -/
  | working (point : (barrier.devList id).point = .inSlot)
      (unset : (barrier.devList id).done = false) (attached : (barrier.devList id).fsh = false)
      (awaited : ¬ barrier.Collected id) (free : ¬ barrier.Pending id)
      (begins : begun barrier.history id = ticks barrier.history)
      (finishes : finishedSlots barrier.history id = ticks barrier.history)
      (now : slotTime barrier.history id = barrier.time)
  /-- It has finished the current slot. -/
  | arrived (point : (barrier.devList id).point = .waiting)
      (set : (barrier.devList id).done = true) (attached : (barrier.devList id).fsh = false)
      (free : ¬ barrier.Pending id)
      (begins : begun barrier.history id = ticks barrier.history)
      (finishes : finishedSlots barrier.history id = ticks barrier.history + 1)
  /-- The slot has ended, and the device is not yet released. -/
  | held (point : (barrier.devList id).point = .waiting)
      (set : (barrier.devList id).done = true) (attached : (barrier.devList id).fsh = false)
      (pending : barrier.Pending id)
      (begins : begun barrier.history id + 1 = ticks barrier.history)
      (finishes : finishedSlots barrier.history id = ticks barrier.history)
  /-- It is released and has not returned from `next_slot`. -/
  | leaving (point : (barrier.devList id).point = .waiting)
      (unset : (barrier.devList id).done = false) (attached : (barrier.devList id).fsh = false)
      (awaited : ¬ barrier.Collected id) (free : ¬ barrier.Pending id)
      (begins : begun barrier.history id + 1 = ticks barrier.history)
      (finishes : finishedSlots barrier.history id = ticks barrier.history)
  | gone (point : (barrier.devList id).point = .detached)
      (begins : begun barrier.history id ≤ ticks barrier.history)

/-- What the standing of a device depends on. -/
theorem InStep.congr {before after : Barrier numDevices} {id : Fin numDevices}
    (standing : before.InStep id) (device : after.devList id = before.devList id)
    (awaited : after.Collected id → before.Collected id)
    (pending : after.Pending id ↔ before.Pending id)
    (ticked : ticks after.history = ticks before.history)
    (begins : begun after.history id = begun before.history id)
    (finishes : finishedSlots after.history id = finishedSlots before.history id)
    (now : slotTime after.history id = slotTime before.history id)
    (time : after.time = before.time) : after.InStep id := by
  cases standing with
  | working point unset attached unseen free begun finished current =>
      refine .working ?_ ?_ ?_ (unseen ∘ awaited) (free ∘ pending.mp) ?_ ?_ ?_
      · rwa [device]
      · rwa [device]
      · rwa [device]
      · rwa [begins, ticked]
      · rwa [finishes, ticked]
      · rwa [now, time]
  | arrived point set attached free begun finished =>
      refine .arrived ?_ ?_ ?_ (free ∘ pending.mp) ?_ ?_
      · rwa [device]
      · rwa [device]
      · rwa [device]
      · rwa [begins, ticked]
      · rwa [finishes, ticked]
  | held point set attached waiting begun finished =>
      refine .held ?_ ?_ ?_ (pending.mpr waiting) ?_ ?_
      · rwa [device]
      · rwa [device]
      · rwa [device]
      · rwa [begins, ticked]
      · rwa [finishes, ticked]
  | leaving point unset attached unseen free begun finished =>
      refine .leaving ?_ ?_ ?_ (unseen ∘ awaited) (free ∘ pending.mp) ?_ ?_
      · rwa [device]
      · rwa [device]
      · rwa [device]
      · rwa [begins, ticked]
      · rwa [finishes, ticked]
  | gone point begun =>
      refine .gone ?_ ?_
      · rwa [device]
      · rwa [begins, ticked]

theorem not_collected_of_releasing {barrier : Barrier numDevices} {position : Nat}
    {fsh event : Int} (timer : barrier.timer = .releasing position fsh event)
    (id : Fin numDevices) : ¬ barrier.Collected id := by
  rintro ⟨_, _, _, walk, _⟩
  rw [timer] at walk
  cases walk

theorem not_pending_of_collecting {barrier : Barrier numDevices} {position : Nat}
    {fsh event : Int} (timer : barrier.timer = .collecting position fsh event)
    (id : Fin numDevices) : ¬ barrier.Pending id := by
  rintro ⟨_, _, _, walk, _⟩
  rw [timer] at walk
  cases walk

theorem pending_iff {barrier : Barrier numDevices} {position : Nat} {fsh event : Int}
    (timer : barrier.timer = .releasing position fsh event) (id : Fin numDevices) :
    barrier.Pending id ↔ position ≤ id.val := by
  constructor
  · rintro ⟨_, _, _, walk, behind⟩
    rw [timer] at walk
    cases walk
    exact behind
  · exact fun behind => ⟨position, fsh, event, timer, behind⟩

end Barrier

/-! ## One section keeps the devices in step -/

section Step

variable {barrier after : Barrier numDevices}

/-- The thread of one device acts, without a tick.  All others stand as before. -/
private theorem inStep_other {id other : Fin numDevices} {device : Device}
    {event : TimerEvent numDevices} (standing : barrier.InStep other) (different : other ≠ id)
    (unticked : event ≠ .ticked) (begins : event.isBegin other = false)
    (finishes : event ≠ .finished other)
    (now : event.beginTime other (slotTime barrier.history other) = slotTime barrier.history other) :
    ((barrier.setDevice id device).record event).InStep other := by
  apply standing.congr
  · exact Function.update_of_ne different _ _
  · exact fun passed => passed
  · exact Iff.rfl
  · rw [Barrier.record_history, Barrier.setDevice_history, ticks_snoc, if_neg unticked, Nat.add_zero]
  · rw [Barrier.record_history, Barrier.setDevice_history, begun_snoc, begins]
    rfl
  · rw [Barrier.record_history, Barrier.setDevice_history, finishedSlots_snoc, if_neg finishes,
      Nat.add_zero]
  · rw [Barrier.record_history, Barrier.setDevice_history, slotTime_snoc, now]
  · rfl

/-- A walk passes one device after it is told that this one is done. -/
private theorem inStep_collected {visited : Fin numDevices} {fsh event : Int} (fsh' event' : Int)
    (timer : barrier.timer = .collecting visited fsh event)
    (told : (barrier.devList visited).done = true ∨ (barrier.devList visited).fsh = true)
    {id : Fin numDevices} (standing : barrier.InStep id) :
    (barrier.setTimer (.collecting (visited + 1) fsh' event')).InStep id := by
  have unpending : ¬ barrier.Pending id := Barrier.not_pending_of_collecting timer id
  have free : ¬ (barrier.setTimer (.collecting (visited + 1) fsh' event')).Pending id :=
    Barrier.not_pending_of_collecting rfl id
  by_cases same : id = visited
  · subst same
    cases standing with
    | working _ unset attached _ _ _ _ _ =>
        rw [unset, attached] at told
        simp at told
    | arrived point set attached _ begins finishes =>
        exact .arrived point set attached free begins finishes
    | held _ _ _ pending _ _ => exact absurd pending unpending
    | leaving _ unset attached _ _ _ _ =>
        rw [unset, attached] at told
        simp at told
    | gone point begins => exact .gone point begins
  · refine standing.congr rfl ?_ (iff_of_false free unpending) rfl rfl rfl rfl rfl
    rintro ⟨position, _, _, walk, passed⟩
    cases walk
    have different : id.val ≠ visited.val := Fin.val_ne_of_ne same
    exact ⟨visited, fsh, event, timer, by omega⟩

/-- The tick after a walk that has passed every device. -/
private theorem inStep_ticked {position : Nat} {fsh event : Int}
    (timer : barrier.timer = .collecting position fsh event) (all : numDevices ≤ position)
    {id : Fin numDevices} (standing : barrier.InStep id) :
    (({ barrier with time := barrier.time + 1 }.setTimer
      (.releasing 0 fsh event)).record .ticked).InStep id := by
  have passed : barrier.Collected id :=
    ⟨position, fsh, event, timer, lt_of_lt_of_le id.isLt all⟩
  have unpending : ¬ barrier.Pending id := Barrier.not_pending_of_collecting timer id
  -- the second walk starts in front of every device
  have pending : (({ barrier with time := barrier.time + 1 }.setTimer
      (.releasing 0 fsh event)).record .ticked).Pending id :=
    ⟨0, fsh, event, rfl, Nat.zero_le _⟩
  cases standing with
  | working _ _ _ awaited _ _ _ _ => exact absurd passed awaited
  | arrived point set attached _ begins finishes =>
      refine .held point set attached pending ?_ ?_
      · simp [begins, TimerEvent.isBegin]
      · simp [finishes]
  | held _ _ _ waiting _ _ => exact absurd waiting unpending
  | leaving _ _ _ awaited _ _ _ => exact absurd passed awaited
  | gone point begins =>
      refine .gone point ?_
      simp [TimerEvent.isBegin]
      omega

/-- The second walk has passed a device. -/
private theorem pending_released (barrier : Barrier numDevices) (visited : Fin numDevices)
    (fsh event : Int) (id : Fin numDevices) :
    (((barrier.setDevice visited { barrier.devList visited with done := false }).setTimer
      (.releasing (visited + 1) fsh event)).record (.released visited)).Pending id ↔
        visited.val + 1 ≤ id.val :=
  Barrier.pending_iff rfl id

/-- The second walk releases one device. -/
private theorem inStep_released {visited : Fin numDevices} {fsh event : Int}
    (timer : barrier.timer = .releasing visited fsh event) {id : Fin numDevices}
    (standing : barrier.InStep id) :
    (((barrier.setDevice visited { barrier.devList visited with done := false }).setTimer
      (.releasing (visited + 1) fsh event)).record (.released visited)).InStep id := by
  have pending := Barrier.pending_iff timer id
  have unseen : ¬ (((barrier.setDevice visited
      { barrier.devList visited with done := false }).setTimer
        (.releasing (visited + 1) fsh event)).record (.released visited)).Collected id :=
    Barrier.not_collected_of_releasing rfl id
  have still := pending_released barrier visited fsh event id
  by_cases same : id = visited
  · subst same
    have waiting : barrier.Pending id := pending.mpr (le_refl _)
    have passed : ¬ id.val + 1 ≤ id.val := Nat.not_succ_le_self _
    cases standing with
    | working _ _ _ _ free _ _ _ => exact absurd waiting free
    | arrived _ _ _ free _ _ => exact absurd waiting free
    | held point _ attached _ begins finishes =>
        refine .leaving ?_ ?_ ?_ unseen (fun later => passed (still.mp later)) ?_ ?_
        · simpa using point
        · simp
        · simpa using attached
        · simpa [TimerEvent.isBegin] using begins
        · simpa using finishes
    | leaving _ _ _ _ free _ _ => exact absurd waiting free
    | gone point begins =>
        refine .gone ?_ ?_
        · simpa using point
        · simpa [TimerEvent.isBegin] using begins
  · have different : id.val ≠ visited.val := Fin.val_ne_of_ne same
    refine standing.congr ?_ (fun passed => absurd passed unseen) ?_ ?_ ?_ ?_ ?_ rfl
    · exact Function.update_of_ne same _ _
    · rw [still, pending]
      omega
    · simp
    · simp [TimerEvent.isBegin]
    · simp
    · simp [TimerEvent.beginTime]

/-- A device thread that acts inside its slot did the job of this slot. -/
private theorem working_of_inSlot {acting : Fin numDevices} (standing : barrier.InStep acting)
    (point : (barrier.devList acting).point = .inSlot) :
    (barrier.devList acting).fsh = false ∧ ¬ barrier.Pending acting ∧
      begun barrier.history acting = ticks barrier.history ∧
      finishedSlots barrier.history acting = ticks barrier.history := by
  cases standing with
  | working _ _ attached _ free begins finishes _ => exact ⟨attached, free, begins, finishes⟩
  | arrived waits _ _ _ _ _ => cases point.symm.trans waits
  | held waits _ _ _ _ _ => cases point.symm.trans waits
  | leaving waits _ _ _ _ _ _ => cases point.symm.trans waits
  | gone left _ => cases point.symm.trans left

/-- A device that finds its flag cleared goes on to the new slot. -/
private theorem inStep_proceeded {acting : Fin numDevices} (standing : barrier.InStep acting)
    (point : (barrier.devList acting).point = .waiting)
    (free : (barrier.devList acting).done = false) :
    ((barrier.setDevice acting { barrier.devList acting with point := .inSlot }).record
      (.began acting barrier.time)).InStep acting := by
  cases standing with
  | working works _ _ _ _ _ _ _ => cases point.symm.trans works
  | arrived _ set _ _ _ _ => cases free.symm.trans set
  | held _ set _ _ _ _ => cases free.symm.trans set
  | leaving _ unset attached awaited released begins finishes =>
      refine .working ?_ ?_ ?_ awaited released ?_ ?_ ?_
      · simp
      · simpa using unset
      · simpa using attached
      · simpa [TimerEvent.isBegin] using begins
      · simpa using finishes
      · simp [TimerEvent.beginTime]
  | gone left _ => cases point.symm.trans left

theorem BarrierEffect.inStep (effect : BarrierEffect barrier after)
    (standing : ∀ id, barrier.InStep id) (id : Fin numDevices) : after.InStep id := by
  cases effect with
  | asked => exact (standing id).congr rfl (fun held => held) Iff.rfl rfl rfl rfl rfl rfl
  | moved next outside left =>
      refine (standing id).congr rfl ?_ ?_ rfl rfl rfl rfl rfl
      · rintro ⟨position, fsh, event, timer, passed⟩
        rw [(outside position fsh event).2 timer] at passed
        exact absurd passed (Nat.not_lt_zero _)
      · constructor
        · rintro ⟨position, fsh, event, timer, _⟩
          exact absurd timer (outside position fsh event).1
        · rintro ⟨position, fsh, event, timer, behind⟩
          have all := (left position fsh event).2 timer
          exact absurd id.isLt (Nat.not_lt_of_le (le_trans all behind))
  | collected visited fsh event fsh' event' timer told =>
      exact inStep_collected fsh' event' timer told (standing id)
  | ticked position fsh event timer all => exact inStep_ticked timer all (standing id)
  | released visited fsh event timer => exact inStep_released timer (standing id)
  | told acting point =>
      by_cases same : id = acting
      · subst same
        rcases working_of_inSlot (standing id) point with ⟨attached, free, begins, finishes⟩
        refine .arrived ?_ ?_ ?_ free ?_ ?_
        · simp
        · simp
        · simpa using attached
        · simpa [TimerEvent.isBegin] using begins
        · simpa using finishes
      · refine inStep_other (standing id) same ?_ rfl ?_ rfl
        · simp
        · simpa using Ne.symm same
  | proceeded acting point free =>
      by_cases same : id = acting
      · subst same
        exact inStep_proceeded (standing id) point free
      · refine inStep_other (standing id) same ?_ ?_ ?_ ?_
        · simp
        · simpa [TimerEvent.isBegin] using Ne.symm same
        · simp
        · exact if_neg (Ne.symm same)
  | detached acting point =>
      by_cases same : id = acting
      · subst same
        rcases working_of_inSlot (standing id) point with ⟨_, _, begins, _⟩
        refine .gone ?_ ?_
        · simp
        · simpa [TimerEvent.isBegin] using begins.le
      · refine inStep_other (standing id) same ?_ rfl ?_ rfl
        · simp
        · simp

/-! ## Releases -/

namespace Barrier

/-- After the first tick a device has been released exactly once since the last
tick, unless the second walk has not reached it. -/
def ReleasedOnce (barrier : Barrier numDevices) (id : Fin numDevices) : Prop :=
  (barrier.Pending id → releasesThisTick barrier.history id = 0 ∧ 0 < ticks barrier.history) ∧
    (¬ barrier.Pending id →
      releasesThisTick barrier.history id = if ticks barrier.history = 0 then 0 else 1)

/-- What the count depends on. -/
theorem ReleasedOnce.congr {before after : Barrier numDevices} {id : Fin numDevices}
    (counted : before.ReleasedOnce id) (pending : after.Pending id ↔ before.Pending id)
    (ticked : ticks after.history = ticks before.history)
    (released : releasesThisTick after.history id = releasesThisTick before.history id) :
    after.ReleasedOnce id := by
  unfold ReleasedOnce
  rw [pending, ticked, released]
  exact counted

end Barrier

theorem BarrierEffect.releasedOnce (effect : BarrierEffect barrier after) (id : Fin numDevices)
    (counted : barrier.ReleasedOnce id) : after.ReleasedOnce id := by
  cases effect with
  | asked => exact counted.congr Iff.rfl rfl rfl
  | moved next outside left =>
      refine counted.congr ⟨?_, ?_⟩ rfl rfl
      · rintro ⟨position, fsh, event, timer, _⟩
        exact absurd timer (outside position fsh event).1
      · rintro ⟨position, fsh, event, timer, behind⟩
        have all := (left position fsh event).2 timer
        exact absurd id.isLt (Nat.not_lt_of_le (le_trans all behind))
  | collected visited fsh event fsh' event' timer told =>
      refine counted.congr ⟨?_, ?_⟩ rfl rfl
      · exact fun pending => absurd pending (Barrier.not_pending_of_collecting rfl id)
      · exact fun pending => absurd pending (Barrier.not_pending_of_collecting timer id)
  | ticked position fsh event timer all =>
      constructor
      · intro _
        simp [TimerEvent.countReleases]
      · intro free
        exact absurd ⟨0, fsh, event, rfl, Nat.zero_le _⟩ free
  | released visited fsh event timer =>
      have pending := Barrier.pending_iff timer id
      have still := pending_released barrier visited fsh event id
      by_cases same : id = visited
      · subst same
        have before := counted.1 (pending.mpr (le_refl _))
        constructor
        · intro later
          exact absurd (still.mp later) (Nat.not_succ_le_self _)
        · intro _
          have started : ticks barrier.history ≠ 0 := Nat.ne_of_gt before.2
          simp [TimerEvent.countReleases, before.1, started]
      · have different : id.val ≠ visited.val := Fin.val_ne_of_ne same
        refine counted.congr ?_ ?_ ?_
        · rw [still, pending]
          omega
        · simp
        · simp [TimerEvent.countReleases, Ne.symm same]
  | told acting point => exact counted.congr Iff.rfl (by simp) (by simp [TimerEvent.countReleases])
  | proceeded acting point free =>
      exact counted.congr Iff.rfl (by simp) (by simp [TimerEvent.countReleases])
  | detached acting point =>
      exact counted.congr Iff.rfl (by simp) (by simp [TimerEvent.countReleases])

end Step

/-! ## Every interleaving -/

theorem Ticking.inStep {barrier : Barrier numDevices} (reached : Ticking barrier) :
    (∀ id, barrier.InStep id) ∧ ∀ id, barrier.ReleasedOnce id := by
  rcases reached with ⟨trace, path⟩
  have unstarted : ∀ id, ¬ (startTimer numDevices).Pending id := by
    rintro id ⟨_, _, _, timer, _⟩
    cases timer
  apply path.invariant fun barrier =>
    (∀ id, barrier.InStep id) ∧ ∀ id, barrier.ReleasedOnce id
  · refine ⟨fun id => ?_, fun id => ⟨fun pending => absurd pending (unstarted id), fun _ => rfl⟩⟩
    refine .working rfl rfl rfl ?_ (unstarted id) rfl rfl rfl
    rintro ⟨_, _, _, timer, _⟩
    cases timer
  · intro before action after holds taken
    have effect := barrierStep_effect taken
    exact ⟨effect.inStep holds.1, fun id => effect.releasedOnce id (holds.2 id)⟩

namespace Barrier

theorem InStep.begun_le {barrier : Barrier numDevices} {id : Fin numDevices}
    (standing : barrier.InStep id) : begun barrier.history id ≤ ticks barrier.history := by
  cases standing with
  | working _ _ _ _ _ begins _ _ => exact begins.le
  | arrived _ _ _ _ begins _ => exact begins.le
  | held _ _ _ _ begins _ => exact begins ▸ Nat.le_succ _
  | leaving _ _ _ _ _ begins _ => exact begins ▸ Nat.le_succ _
  | gone _ begins => exact begins

theorem InStep.le_finishedSlots {barrier : Barrier numDevices} {id : Fin numDevices}
    (standing : barrier.InStep id) (attached : (barrier.devList id).point ≠ .detached) :
    ticks barrier.history ≤ finishedSlots barrier.history id := by
  cases standing with
  | working _ _ _ _ _ _ finishes _ => exact finishes.ge
  | arrived _ _ _ _ _ finishes => exact finishes ▸ Nat.le_succ _
  | held _ _ _ _ _ finishes => exact finishes.ge
  | leaving _ _ _ _ _ _ finishes => exact finishes.ge
  | gone point _ => exact absurd point attached

end Barrier

/-- A device begins a slot only when every attached device has finished the slot
before it.  Between two ticks, every device is released exactly once.  And the
clock stands still while a device is in its slot. -/
theorem devices_in_lockstep {barrier : Barrier numDevices} (reached : Ticking barrier) :
    (∀ first second, (barrier.devList second).point ≠ .detached →
        begun barrier.history first ≤ finishedSlots barrier.history second) ∧
      (∀ id, releasesThisTick barrier.history id ≤ 1 ∧
        (.ticked ∈ barrier.history →
          (∀ position fsh event, barrier.timer ≠ .releasing position fsh event) →
            releasesThisTick barrier.history id = 1)) ∧
      ∀ id, (barrier.devList id).point = .inSlot →
        slotTime barrier.history id = barrier.time := by
  rcases reached.inStep with ⟨standing, counted⟩
  refine ⟨fun first second attached => ?_, fun id => ⟨?_, fun started outside => ?_⟩,
    fun id point => ?_⟩
  · calc
      begun barrier.history first ≤ ticks barrier.history := (standing first).begun_le
      _ ≤ finishedSlots barrier.history second := (standing second).le_finishedSlots attached
  · by_cases pending : barrier.Pending id
    · rw [((counted id).1 pending).1]
      exact Nat.zero_le 1
    · rw [(counted id).2 pending]
      by_cases unstarted : ticks barrier.history = 0
      · rw [if_pos unstarted]
        exact Nat.zero_le 1
      · rw [if_neg unstarted]
  · have free : ¬ barrier.Pending id := by
      rintro ⟨position, fsh, event, timer, _⟩
      exact outside position fsh event timer
    rw [(counted id).2 free, if_neg]
    exact Nat.ne_of_gt (List.count_pos_iff.mpr started)
  · cases standing id with
    | working _ _ _ _ _ _ _ now => exact now
    | arrived waits _ _ _ _ _ => cases point.symm.trans waits
    | held waits _ _ _ _ _ => cases point.symm.trans waits
    | leaving waits _ _ _ _ _ _ => cases point.symm.trans waits
    | gone left _ => cases point.symm.trans left

/-- Two devices, of which the first is released and has finished its next slot
before the second is released. -/
def earlyFinish : Barrier 2 :=
  (Transition.exec barrierStep (fun _ _ => True) (startTimer 2)
    [.tell 0, .tell 1, .timer, .timer, .timer, .timer, .timer, .proceed 0, .tell 0]).get
      (by decide +kernel)

theorem devices_in_lockstep_early :
    begun earlyFinish.history 0 ≤ finishedSlots earlyFinish.history 1 ∧
      releasesThisTick earlyFinish.history 1 ≤ 1 := by
  have reached : Ticking earlyFinish :=
    ⟨_, (Transition.runWhere_of_exec (Option.some_get _).symm).run⟩
  have lockstep := devices_in_lockstep reached
  exact ⟨lockstep.1 0 1 (by decide +kernel), (lockstep.2.1 1).1⟩

end Kernel
end Ossim
