import HmBoard.Lib.Run

/-!
# The tick and the delayed tasks (`tasks.c`)

| here | there |
| --- | --- |
| `prvAddCurrentTaskToDelayedList` | tasks.c:2989 |
| `taskSWITCH_DELAYED_LISTS`       | tasks.c:365, with `prvResetNextTaskUnblockTime` (3265) |
| `xTaskIncrementTick`             | tasks.c:1934 |
| `xTaskResumeAll`                 | tasks.c:1666 |
| `vTaskDelay`, `shouldDelay`      | tasks.c:853, 822 (`vTaskDelayUntil`), within their hold on the scheduler |
| `vTaskPlaceOnEventList`          | tasks.c:2258, of any event |
| `xTaskRemoveFromEventList`       | tasks.c:2428, of any event |
| `vTaskSuspend`, `vTaskDelete`    | tasks.c:1280, 740: the first critical section; `resetNext` is the second |
| `vTaskResume`, `xTaskResumeFromISR` | tasks.c:1415, 1469 |

A tick count has 16 bits (`configUSE_16_BIT_TICKS`). `now` is a ghost: the ticks counted so far,
which do not wrap; `due t` is the one at which task `t` must be woken, `released t` says that it
was woken before, by an event or as a suspended task. `interrupts` is the number of tick interrupts.
-/

namespace HmBoard

open Lib

variable {T : Type}

/-- `unsigned int`. -/
def tickModulus : Nat := 65536

def portMaxDelay : Nat := 0xffff

/-- `vListInsert` by `xItemValue`: behind equal values. -/
def insertByValue (x : Nat × T) (xs : List (Nat × T)) : List (Nat × T) :=
  xs.takeWhile (fun y => y.1 ≤ x.1) ++ x :: xs.dropWhile (fun y => y.1 ≤ x.1)

structure Ticks (T : Type) where
  xTickCount : Nat
  xNextTaskUnblockTime : Nat
  /-- Each task with its `xItemValue`. -/
  pxDelayedTaskList : List (Nat × T)
  pxOverflowDelayedTaskList : List (Nat × T)
  xSuspendedTaskList : List T
  xTasksWaitingTermination : List T
  uxSchedulerSuspended : Nat
  uxPendedTicks : Nat
  xPendingReadyList : List T
  /-- The task is in its ready list. -/
  ready : T → Bool
  /-- Its event list item is in an event list. -/
  onEvent : T → Bool
  now : Nat
  interrupts : Nat
  due : T → Nat
  released : T → Bool

inductive TickLabel (T : Type) where
  | tick
  | suspendAll
  | resumeAll
  | delay (t : T) (xTicksToDelay : Nat)
  /-- `previous` is what `*pxPreviousWakeTime` stands for, unwrapped. -/
  | delayUntil (t : T) (previous xTimeIncrement : Nat)
  | placeOnEventList (t : T) (xTicksToWait : Nat)
  | removeFromEventList (t : T)
  | suspend (t : T)
  | delete (t : T)
  | resetNext
  | resume (t : T)
  | resumeFromISR (t : T)

/-- Whom a call keeps from running: the task that makes it, or another. -/
def TickLabel.blocks : TickLabel T → Option T
  | .delay t _ | .delayUntil t _ _ | .placeOnEventList t _ | .suspend t | .delete t => some t
  | _ => none

namespace Ticks

section

variable (s : Ticks T)

/-- `prvResetNextTaskUnblockTime`. -/
def resetNext : Ticks T :=
  { s with
    xNextTaskUnblockTime :=
      match s.pxDelayedTaskList with
      | [] => portMaxDelay
      | x :: _ => x.1 }

def taskSwitchDelayedLists : Ticks T :=
  resetNext { s with
    pxDelayedTaskList := s.pxOverflowDelayedTaskList
    pxOverflowDelayedTaskList := s.pxDelayedTaskList }

/-- `++xTickCount`; the lists are exchanged where it wraps. -/
def nextTick : Ticks T :=
  let s := { s with xTickCount := (s.xTickCount + 1) % tickModulus, now := s.now + 1 }
  if s.xTickCount = 0 then s.taskSwitchDelayedLists else s

variable [DecidableEq T]

/-- The loop of `xTaskIncrementTick` over the delayed list, the earliest first. -/
def unblock : List (Nat × T) → Ticks T → Ticks T
  | [], s => { s with xNextTaskUnblockTime := portMaxDelay }
  | x :: xs, s =>
    if s.xTickCount < x.1 then { s with xNextTaskUnblockTime := x.1 }
    else
      unblock xs { s with
        pxDelayedTaskList := xs
        ready := fun u => if u = x.2 then true else s.ready u
        onEvent := fun u => if u = x.2 then false else s.onEvent u }

/-- A tick while the scheduler runs. -/
def countTick : Ticks T :=
  let s := s.nextTick
  if s.xTickCount ≥ s.xNextTaskUnblockTime then unblock s.pxDelayedTaskList s else s

def xTaskIncrementTick : Ticks T :=
  if s.uxSchedulerSuspended = 0 then s.countTick
  else { s with uxPendedTicks := (s.uxPendedTicks + 1) % 256 }

/-- `uxListRemove(&(pxTCB->xGenericListItem))`, whatever list it is in. -/
def listRemove (t : T) : Ticks T :=
  { s with
    pxDelayedTaskList := s.pxDelayedTaskList.filter (·.2 ≠ t)
    pxOverflowDelayedTaskList := s.pxOverflowDelayedTaskList.filter (·.2 ≠ t)
    xSuspendedTaskList := s.xSuspendedTaskList.filter (· ≠ t)
    xTasksWaitingTermination := s.xTasksWaitingTermination.filter (· ≠ t)
    ready := fun u => if u = t then false else s.ready u }

/-- Off the list it is on, into its ready list. -/
def makeReady (t : T) : Ticks T :=
  { s.listRemove t with ready := fun u => if u = t then true else s.ready u }

/-- The loop over the pended ticks. -/
def countPended : Nat → Ticks T → Ticks T
  | 0, s => { s with uxPendedTicks := 0 }
  | n + 1, s => countPended n s.countTick

def xTaskResumeAll : Ticks T :=
  let s := { s with uxSchedulerSuspended := s.uxSchedulerSuspended - 1 }
  if s.uxSchedulerSuspended = 0 then
    let s := s.xPendingReadyList.foldl (fun s t => s.makeReady t) { s with xPendingReadyList := [] }
    countPended s.uxPendedTicks s
  else s

/-- The running task `t` goes from its ready list to a delayed list, to be woken at tick `due`. -/
def prvAddCurrentTaskToDelayedList (t : T) (xTimeToWake due : Nat) : Ticks T :=
  let s := { s with
    ready := fun u => if u = t then false else s.ready u
    due := fun u => if u = t then due else s.due u
    released := fun u => if u = t then false else s.released u }
  if xTimeToWake < s.xTickCount then
    { s with
      pxOverflowDelayedTaskList := insertByValue (xTimeToWake, t) s.pxOverflowDelayedTaskList }
  else
    { s with
      pxDelayedTaskList := insertByValue (xTimeToWake, t) s.pxDelayedTaskList
      xNextTaskUnblockTime :=
        if xTimeToWake < s.xNextTaskUnblockTime then xTimeToWake else s.xNextTaskUnblockTime }

def vTaskDelay (t : T) (xTicksToDelay : Nat) : Ticks T :=
  s.prvAddCurrentTaskToDelayedList t ((s.xTickCount + xTicksToDelay) % tickModulus)
    (s.now + xTicksToDelay)

def vTaskPlaceOnEventList (t : T) (xTicksToWait : Nat) : Ticks T :=
  let s := { s with onEvent := fun u => if u = t then true else s.onEvent u }
  if xTicksToWait = portMaxDelay then
    { s with
      xSuspendedTaskList := s.xSuspendedTaskList ++ [t]
      ready := fun u => if u = t then false else s.ready u
      released := fun u => if u = t then false else s.released u }
  else s.vTaskDelay t xTicksToWait

def xTaskRemoveFromEventList (t : T) : Ticks T :=
  let s := { s with
    onEvent := fun u => if u = t then false else s.onEvent u
    released := fun u => if u = t then true else s.released u }
  if s.uxSchedulerSuspended = 0 then s.makeReady t
  else { s with xPendingReadyList := s.xPendingReadyList ++ [t] }

/-- Off all lists, those of its event list item (events and `xPendingReadyList`) included. -/
def takeOff (t : T) : Ticks T :=
  { s.listRemove t with
    xPendingReadyList := s.xPendingReadyList.filter (· ≠ t)
    onEvent := fun u => if u = t then false else s.onEvent u }

def vTaskSuspend (t : T) : Ticks T :=
  { s.takeOff t with xSuspendedTaskList := (s.takeOff t).xSuspendedTaskList ++ [t] }

def vTaskDelete (t : T) : Ticks T :=
  { s.takeOff t with xTasksWaitingTermination := (s.takeOff t).xTasksWaitingTermination ++ [t] }

/-- `prvTaskIsTaskSuspended` (tasks.c:1369). -/
def isTaskSuspended (t : T) : Bool :=
  t ∈ s.xSuspendedTaskList && t ∉ s.xPendingReadyList && !s.onEvent t

def vTaskResume (t : T) : Ticks T :=
  if s.isTaskSuspended t then
    { s with released := fun u => if u = t then true else s.released u }.makeReady t
  else s

def xTaskResumeFromISR (t : T) : Ticks T :=
  if s.isTaskSuspended t then
    let s := { s with released := fun u => if u = t then true else s.released u }
    if s.uxSchedulerSuspended = 0 then s.makeReady t
    else { s with xPendingReadyList := s.xPendingReadyList ++ [t] }
  else s

end

/-- `xShouldDelay` of `vTaskDelayUntil`. -/
def shouldDelay (xConstTickCount previousWakeTime xTimeToWake : Nat) : Bool :=
  if xConstTickCount < previousWakeTime then
    xTimeToWake < previousWakeTime && xTimeToWake > xConstTickCount
  else xTimeToWake < previousWakeTime || xTimeToWake > xConstTickCount

section

variable [DecidableEq T] (s : Ticks T)

def vTaskDelayUntil (t : T) (previous xTimeIncrement : Nat) : Ticks T :=
  let previousWakeTime := previous % tickModulus
  let xTimeToWake := (previousWakeTime + xTimeIncrement) % tickModulus
  if shouldDelay s.xTickCount previousWakeTime xTimeToWake then
    s.prvAddCurrentTaskToDelayedList t xTimeToWake (previous + xTimeIncrement)
  else
    { s with
      due := fun u => if u = t then previous + xTimeIncrement else s.due u
      released := fun u => if u = t then false else s.released u }

/-- A task blocks itself while it holds the scheduler, for at least one tick; the wake time it
hands to `vTaskDelayUntil` is less than 65536 ticks old. `uxSchedulerSuspended` has eight bits: the
scheduler is suspended no more than 255 times over. -/
def step : TickLabel T → Option (Ticks T)
  | .tick => some { s.xTaskIncrementTick with interrupts := s.interrupts + 1 }
  | .suspendAll =>
    if s.uxSchedulerSuspended < 255 then
      some { s with uxSchedulerSuspended := s.uxSchedulerSuspended + 1 }
    else none
  | .resumeAll => if 0 < s.uxSchedulerSuspended then some s.xTaskResumeAll else none
  | .delay t d =>
    if 0 < s.uxSchedulerSuspended ∧ s.ready t = true ∧ 0 < d ∧ d < tickModulus then
      some (s.vTaskDelay t d)
    else none
  | .delayUntil t previous d =>
    if 0 < s.uxSchedulerSuspended ∧ s.ready t = true ∧ 0 < d ∧ d < tickModulus ∧
        previous ≤ s.now ∧ s.now < previous + tickModulus then
      some (s.vTaskDelayUntil t previous d)
    else none
  | .placeOnEventList t d =>
    if 0 < s.uxSchedulerSuspended ∧ s.ready t = true ∧ 0 < d ∧ d < tickModulus then
      some (s.vTaskPlaceOnEventList t d)
    else none
  | .removeFromEventList t => if s.onEvent t = true then some (s.xTaskRemoveFromEventList t) else none
  | .suspend t => some (s.vTaskSuspend t)
  | .delete t => some (s.vTaskDelete t)
  | .resetNext => some s.resetNext
  | .resume t => some (s.vTaskResume t)
  | .resumeFromISR t => some (s.xTaskResumeFromISR t)

end

/-- All tasks ready, the scheduler just started. -/
def start : Ticks T where
  xTickCount := 0
  xNextTaskUnblockTime := portMaxDelay
  pxDelayedTaskList := []
  pxOverflowDelayedTaskList := []
  xSuspendedTaskList := []
  xTasksWaitingTermination := []
  uxSchedulerSuspended := 0
  uxPendedTicks := 0
  xPendingReadyList := []
  ready := fun _ => true
  onEvent := fun _ => false
  now := 0
  interrupts := 0
  due := fun _ => 0
  released := fun _ => false

end Ticks

end HmBoard
