import Mathlib.Data.Fin.Basic
import Mathlib.Logic.Function.Basic
import Ossim.Library.Transition

namespace Ossim
namespace Kernel

/-!
# The tick barrier

`timer.c`, cut at its critical sections.  Every section between a lock and the
matching unlock is one step, and a `pthread_cond_wait` loop is a step that is
enabled when its test fails.  The threads take their steps in any order.

`dev_list` is fixed once the timer has started, so the devices are numbered in
the order of the list.  A device belongs to one thread, which calls `next_slot`
any number of times and then `detach_event`.

The history is not a variable of the program.
-/

/-! ## State -/

/-- What the thread of a device is doing. -/
inductive DevicePoint
  /-- Outside of `next_slot`, doing the job of its slot. -/
  | inSlot
  /-- In `next_slot`, between its two critical sections. -/
  | waiting
  /-- After `detach_event`. -/
  | detached
  deriving DecidableEq, Repr

/-- `struct timer_id_t`, with the place of its thread. -/
structure Device where
  done : Bool
  fsh : Bool
  point : DevicePoint
  deriving DecidableEq, Repr

/-- The places of `timer_routine`.  The two walks carry the position in
`dev_list` and the local counters. -/
inductive TimerPoint
  /-- `while (!timer_stop)`. -/
  | top
  /-- The walk that waits for the devices. -/
  | collecting (position : Nat) (fsh event : Int)
  /-- The walk that lets them continue. -/
  | releasing (position : Nat) (fsh event : Int)
  | stopped
  deriving DecidableEq, Repr

inductive TimerEvent (numDevices : Nat)
  /-- `_time++`. -/
  | ticked
  /-- The timer cleared `done` of a device. -/
  | released (device : Fin numDevices)
  /-- A device returned from `next_slot`, at this `current_time()`. -/
  | began (device : Fin numDevices) (now : BitVec 64)
  /-- A device set `done`. -/
  | finished (device : Fin numDevices)
  | detached (device : Fin numDevices)
  deriving DecidableEq, Repr

/-- The file-scope variables of `timer.c` and the threads that use them. -/
structure Barrier (numDevices : Nat) where
  devList : Fin numDevices → Device
  time : BitVec 64
  timerStop : Bool
  timer : TimerPoint
  history : List (TimerEvent numDevices)

inductive BarrierAction (numDevices : Nat)
  /-- The next section of `timer_routine`. -/
  | timer
  /-- The first section of `next_slot`. -/
  | tell (device : Fin numDevices)
  /-- The second section of `next_slot`. -/
  | proceed (device : Fin numDevices)
  | detachEvent (device : Fin numDevices)
  /-- The assignment in `stop_timer`. -/
  | stopTimer
  deriving DecidableEq, Repr

variable {numDevices : Nat}

namespace Barrier

@[simps] def setDevice (barrier : Barrier numDevices) (id : Fin numDevices) (device : Device) :
    Barrier numDevices :=
  { barrier with devList := Function.update barrier.devList id device }

@[simps] def setTimer (barrier : Barrier numDevices) (timer : TimerPoint) : Barrier numDevices :=
  { barrier with timer := timer }

@[simps] def record (barrier : Barrier numDevices) (event : TimerEvent numDevices) :
    Barrier numDevices :=
  { barrier with history := barrier.history ++ [event] }

end Barrier

/-- After `attach_event` for every device and `start_timer`. -/
def startTimer (numDevices : Nat) : Barrier numDevices where
  devList := fun _ => ⟨false, false, .inSlot⟩
  time := 0
  timerStop := false
  timer := .top
  history := []

/-! ## The critical sections -/

/-- `timer_routine`. -/
def timerStep (barrier : Barrier numDevices) : Option (Barrier numDevices) :=
  match barrier.timer with
  | .top =>
      if barrier.timerStop then some (barrier.setTimer .stopped)
      else some (barrier.setTimer (.collecting 0 0 0))
  | .collecting position fsh event =>
      if inside : position < numDevices then
        let device := barrier.devList ⟨position, inside⟩
        if device.done || device.fsh then
          some (barrier.setTimer
            (.collecting (position + 1) (if device.fsh then fsh + 1 else fsh) (event + 1)))
        else none
      else
        some (({ barrier with time := barrier.time + 1 }.setTimer
          (.releasing 0 fsh event)).record .ticked)
  | .releasing position fsh event =>
      if inside : position < numDevices then
        let device := barrier.devList ⟨position, inside⟩
        some (((barrier.setDevice ⟨position, inside⟩ { device with done := false }).setTimer
          (.releasing (position + 1) fsh event)).record (.released ⟨position, inside⟩))
      else if fsh = event then some (barrier.setTimer .stopped)
      else some (barrier.setTimer .top)
  | .stopped => none

def barrierStep (barrier : Barrier numDevices) :
    BarrierAction numDevices → Option (Barrier numDevices)
  | .timer => timerStep barrier
  | .tell id =>
      let device := barrier.devList id
      if device.point = .inSlot then
        some ((barrier.setDevice id { device with done := true, point := .waiting }).record
          (.finished id))
      else none
  | .proceed id =>
      let device := barrier.devList id
      if device.point = .waiting ∧ device.done = false then
        some ((barrier.setDevice id { device with point := .inSlot }).record
          (.began id barrier.time))
      else none
  | .detachEvent id =>
      let device := barrier.devList id
      if device.point = .inSlot then
        some ((barrier.setDevice id { device with fsh := true, point := .detached }).record
          (.detached id))
      else none
  | .stopTimer => some { barrier with timerStop := true }

/-- The states that the threads can reach. -/
def Ticking (barrier : Barrier numDevices) : Prop :=
  ∃ trace, Transition.Run barrierStep (startTimer numDevices) trace barrier

/-! ## The effect of one section -/

inductive BarrierEffect (barrier : Barrier numDevices) : Barrier numDevices → Prop
  | asked : BarrierEffect barrier { barrier with timerStop := true }
  /-- The timer goes between the loops without touching anything. -/
  | moved (next : TimerPoint) (outside : ∀ position fsh event,
        next ≠ .releasing position fsh event ∧ (next = .collecting position fsh event → position = 0))
      (left : ∀ position fsh event, barrier.timer ≠ .collecting position fsh event ∧
        (barrier.timer = .releasing position fsh event → numDevices ≤ position)) :
      BarrierEffect barrier (barrier.setTimer next)
  | collected (id : Fin numDevices) (fsh event fsh' event' : Int)
      (timer : barrier.timer = .collecting id fsh event)
      (told : (barrier.devList id).done = true ∨ (barrier.devList id).fsh = true) :
      BarrierEffect barrier (barrier.setTimer (.collecting (id + 1) fsh' event'))
  | ticked (position : Nat) (fsh event : Int) (timer : barrier.timer = .collecting position fsh event)
      (all : numDevices ≤ position) :
      BarrierEffect barrier (({ barrier with time := barrier.time + 1 }.setTimer
        (.releasing 0 fsh event)).record .ticked)
  | released (id : Fin numDevices) (fsh event : Int)
      (timer : barrier.timer = .releasing id fsh event) :
      BarrierEffect barrier (((barrier.setDevice id { barrier.devList id with done := false }).setTimer
        (.releasing (id + 1) fsh event)).record (.released id))
  | told (id : Fin numDevices) (point : (barrier.devList id).point = .inSlot) :
      BarrierEffect barrier ((barrier.setDevice id
        { barrier.devList id with done := true, point := .waiting }).record (.finished id))
  | proceeded (id : Fin numDevices) (point : (barrier.devList id).point = .waiting)
      (free : (barrier.devList id).done = false) :
      BarrierEffect barrier ((barrier.setDevice id
        { barrier.devList id with point := .inSlot }).record (.began id barrier.time))
  | detached (id : Fin numDevices) (point : (barrier.devList id).point = .inSlot) :
      BarrierEffect barrier ((barrier.setDevice id
        { barrier.devList id with fsh := true, point := .detached }).record (.detached id))

theorem timerStep_effect {barrier after : Barrier numDevices}
    (taken : timerStep barrier = some after) : BarrierEffect barrier after := by
  unfold timerStep at taken
  cases timer : barrier.timer with
  | top =>
      rw [timer] at taken
      dsimp only at taken
      by_cases stop : barrier.timerStop = true
      · rw [if_pos stop] at taken
        cases taken
        exact .moved .stopped (by simp) (by simp [timer])
      · rw [if_neg stop] at taken
        cases taken
        exact .moved (.collecting 0 0 0) (by simp) (by simp [timer])
  | collecting position fsh event =>
      rw [timer] at taken
      dsimp only at taken
      by_cases inside : position < numDevices
      · rw [dif_pos inside] at taken
        by_cases told : ((barrier.devList ⟨position, inside⟩).done ||
            (barrier.devList ⟨position, inside⟩).fsh) = true
        · rw [if_pos told] at taken
          cases taken
          rw [Bool.or_eq_true] at told
          exact .collected ⟨position, inside⟩ fsh event _ _ timer told
        · rw [if_neg told] at taken
          cases taken
      · rw [dif_neg inside] at taken
        cases taken
        exact .ticked position fsh event timer (Nat.le_of_not_lt inside)
  | releasing position fsh event =>
      rw [timer] at taken
      dsimp only at taken
      by_cases inside : position < numDevices
      · rw [dif_pos inside] at taken
        cases taken
        exact .released ⟨position, inside⟩ fsh event timer
      · rw [dif_neg inside] at taken
        have left : ∀ position fsh event, barrier.timer ≠ .collecting position fsh event ∧
            (barrier.timer = .releasing position fsh event → numDevices ≤ position) := by
          intro other _ _
          rw [timer]
          refine ⟨by simp, fun same => ?_⟩
          cases same
          exact Nat.le_of_not_lt inside
        by_cases all : fsh = event
        · rw [if_pos all] at taken
          cases taken
          exact .moved .stopped (by simp) left
        · rw [if_neg all] at taken
          cases taken
          exact .moved .top (by simp) left
  | stopped =>
      rw [timer] at taken
      cases taken

theorem barrierStep_effect {barrier after : Barrier numDevices}
    {action : BarrierAction numDevices} (taken : barrierStep barrier action = some after) :
    BarrierEffect barrier after := by
  cases action with
  | timer => exact timerStep_effect taken
  | tell id =>
      rw [barrierStep] at taken
      by_cases point : (barrier.devList id).point = .inSlot
      · rw [if_pos point] at taken
        cases taken
        exact .told id point
      · rw [if_neg point] at taken
        cases taken
  | proceed id =>
      rw [barrierStep] at taken
      by_cases free : (barrier.devList id).point = .waiting ∧ (barrier.devList id).done = false
      · rw [if_pos free] at taken
        cases taken
        exact .proceeded id free.1 free.2
      · rw [if_neg free] at taken
        cases taken
  | detachEvent id =>
      rw [barrierStep] at taken
      by_cases point : (barrier.devList id).point = .inSlot
      · rw [if_pos point] at taken
        cases taken
        exact .detached id point
      · rw [if_neg point] at taken
        cases taken
  | stopTimer =>
      cases taken
      exact .asked

end Kernel
end Ossim
