import HmBoard.Rtos.Lists

/-!
# The scheduler (`tasks.c`)

The ready lists, who runs, and the priorities that mutexes lend. A step is one critical section,
or one call made while the scheduler is suspended.

| here | there |
| --- | --- |
| `prvAddTaskToReadyList`, `vTaskSwitchContext` | tasks.c:385, 2197; `highestReady` is the loop of tasks.c:304 |
| `xTaskIncrementTick`, `xTaskResumeAll` | tasks.c:1934, 1666 |
| `block`, `vTaskPlaceOnEventList` | tasks.c:941-958 and 876-892, 2258 |
| `xTaskRemoveFromEventList`        | tasks.c:2428 |
| `vTaskPrioritySet`, `vTaskSuspend`, `vTaskResume`, `xTaskResumeFromISR` | tasks.c:1113, 1279, 1411, 1469 |
| `takeMutex`, `giveMutex`          | queue.c:1390-1415, 642-708 |
| `vTaskPriorityInherit`, `xTaskPriorityDisinherit` | tasks.c:3335, 3395 |
| `create`                          | tasks.c:547, 2800 |
| tick interrupt, `yield`           | port.c:358, 320 |

Time is not counted here: where a task that blocks belongs in the delayed lists and how many are
due at a tick is the environment's answer. A mutex is known by the list of the tasks that wait for
it. `dispatched` is a ghost: who was switched in, and from which ready list. `uxMutexesHeld` and
`uxSchedulerSuspended` do not wrap here: the heap of 6000 bytes holds fewer than 200 mutexes, and
256 nested calls of `vTaskSuspendAll` are left out.
-/

namespace HmBoard

open Function

def configMaxPriorities : Nat := 5

abbrev Priority := Fin configMaxPriorities

def tskIdlePriority : Priority := ⟨0, by decide⟩

/-- "Ensure the new priority is valid." -/
def validPriority (uxPriority : Nat) : Priority :=
  if h : uxPriority < configMaxPriorities then ⟨uxPriority, h⟩ else ⟨configMaxPriorities - 1, by decide⟩

/-- `taskEVENT_LIST_ITEM_VALUE_IN_USE`. -/
def taskEventListItemValueInUse : UInt16 := 0x8000

inductive TaskList (E : Type) where
  | pxReadyTasksLists (uxPriority : Priority)
  /-- `xDelayedTaskList1`, `xDelayedTaskList2`. -/
  | xDelayedTaskList (second : Bool)
  | xSuspendedTaskList
  | xPendingReadyList
  | event (e : E)
deriving DecidableEq, Repr

inductive TaskItem (T : Type) where
  | xGenericListItem (t : T)
  | xEventListItem (t : T)
deriving DecidableEq, Repr

structure Scheduler (T E : Type) where
  lists : Lists (TaskList E) (TaskItem T) T
  uxPriority : T → Priority
  uxBasePriority : T → Priority
  uxMutexesHeld : T → Nat
  pxMutexHolder : E → Option T
  uxTopReadyPriority : Priority
  pxCurrentTCB : T
  uxSchedulerSuspended : Nat
  xYieldPending : Bool
  /-- Which of the two `pxDelayedTaskList` points to. -/
  pxDelayedTaskList : Bool
  dispatched : List (Priority × T)

/-- Where a task that blocks goes: the suspended list, or a delayed list at a wake time. -/
inductive Wait where
  | forever
  | until_ (overflow : Bool) (xTimeToWake : UInt16)
deriving DecidableEq, Repr

inductive SchedulerLabel (T E : Type) where
  | yield
  /-- Does the tick count wrap, and how many tasks are due? -/
  | tick (wraps : Bool) (due : Nat)
  | suspendAll
  /-- The pended ticks. -/
  | resumeAll (ticks : List (Bool × Nat))
  | block (w : Wait)
  | placeOnEventList (e : E) (w : Wait)
  | removeFromEventList (e : E)
  | missedYield
  | prioritySet (t : T) (uxNewPriority : Nat)
  | suspend (t : T)
  | resume (t : T)
  | resumeFromISR (t : T)
  | takeMutex (e : E)
  | inherit (e : E)
  | giveMutex (e : E)

namespace Scheduler

variable {T E : Type} [DecidableEq T] [DecidableEq E] (s : Scheduler T E)

/-! ## The ready lists -/

def listRemove (i : TaskItem T) : Option (Scheduler T E) :=
  (s.lists.uxListRemove i).map fun r => { s with lists := r.1 }

def prvAddTaskToReadyList (t : T) : Scheduler T E :=
  { s with
    uxTopReadyPriority :=
      if s.uxPriority t > s.uxTopReadyPriority then s.uxPriority t else s.uxTopReadyPriority
    lists := s.lists.vListInsertEnd (.pxReadyTasksLists (s.uxPriority t)) (.xGenericListItem t) }

/-- In the ready list of its priority. -/
def isReady (t : T) : Bool :=
  s.lists.listIsContainedWithin (.pxReadyTasksLists (s.uxPriority t)) (.xGenericListItem t)

/-- Down from `uxTopReadyPriority`; `none` below 0. -/
def highestReady : (p : Nat) → p < configMaxPriorities → Option Priority
  | 0, h => if s.lists.listListIsEmpty (.pxReadyTasksLists ⟨0, h⟩) then none else some ⟨0, h⟩
  | p + 1, h =>
    if s.lists.listListIsEmpty (.pxReadyTasksLists ⟨p + 1, h⟩) then
      highestReady p (Nat.lt_of_succ_lt h)
    else some ⟨p + 1, h⟩

def vTaskSwitchContext : Option (Scheduler T E) :=
  if s.uxSchedulerSuspended ≠ 0 then some { s with xYieldPending := true }
  else
    (s.highestReady s.uxTopReadyPriority.1 s.uxTopReadyPriority.2).bind fun p =>
      (s.lists.listGetOwnerOfNextEntry (.pxReadyTasksLists p)).map fun r =>
        { s with
          xYieldPending := false
          uxTopReadyPriority := p
          lists := r.1
          pxCurrentTCB := r.2
          dispatched := s.dispatched ++ [(p, r.2)] }

/-- Where `b`. -/
def switchIf (b : Bool) : Option (Scheduler T E) :=
  if b then s.vTaskSwitchContext else some s

/-- Off the list it blocks on, into its ready list. -/
def makeReady (t : T) : Option (Scheduler T E) :=
  (s.listRemove (.xGenericListItem t)).map fun s => s.prvAddTaskToReadyList t

/-- Off an event list, if on one. -/
def leaveEvent (t : T) : Option (Scheduler T E) :=
  if s.lists.pvContainer (.xEventListItem t) = none then some s
  else s.listRemove (.xEventListItem t)

/-! ## The tick -/

/-- The loop over the delayed list; says whether a switch is required. -/
def unblock : Nat → Scheduler T E → Option (Scheduler T E × Bool)
  | 0, s => some (s, false)
  | n + 1, s =>
    if s.lists.listListIsEmpty (.xDelayedTaskList s.pxDelayedTaskList) then some (s, false)
    else
      (s.lists.listGetOwnerOfHeadEntry (.xDelayedTaskList s.pxDelayedTaskList)).bind fun t =>
        (s.listRemove (.xGenericListItem t)).bind fun s =>
          (s.leaveEvent t).bind fun s =>
            (unblock n (s.prvAddTaskToReadyList t)).map fun r =>
              (r.1, r.2 || decide (s.uxPriority t ≥ s.uxPriority s.pxCurrentTCB))

def xTaskIncrementTick (wraps : Bool) (due : Nat) : Option (Scheduler T E × Bool) :=
  if s.uxSchedulerSuspended = 0 then
    let s := if wraps then { s with pxDelayedTaskList := !s.pxDelayedTaskList } else s
    (unblock due s).map fun r => (r.1, r.2 || r.1.xYieldPending)
  else some (s, s.xYieldPending)

/-- The tick interrupt of the port switches whatever `xTaskIncrementTick` returns. -/
def tickInterrupt (wraps : Bool) (due : Nat) : Option (Scheduler T E) :=
  (s.xTaskIncrementTick wraps due).bind fun r => r.1.vTaskSwitchContext

/-- The loop over `xPendingReadyList`, which holds fewer than `n` tasks. -/
def movePending : Nat → Scheduler T E → Option (Scheduler T E)
  | 0, _ => none
  | n + 1, s =>
    if s.lists.listListIsEmpty .xPendingReadyList then some s
    else
      (s.lists.listGetOwnerOfHeadEntry .xPendingReadyList).bind fun t =>
        (s.listRemove (.xEventListItem t)).bind fun s =>
          (s.makeReady t).bind fun s =>
            movePending n
              (if s.uxPriority t ≥ s.uxPriority s.pxCurrentTCB then { s with xYieldPending := true }
              else s)

/-- The loop over the pended ticks. -/
def pendedTicks : List (Bool × Nat) → Scheduler T E → Option (Scheduler T E)
  | [], s => some s
  | (wraps, due) :: ticks, s =>
    (s.xTaskIncrementTick wraps due).bind fun r =>
      pendedTicks ticks (if r.2 then { r.1 with xYieldPending := true } else r.1)

def xTaskResumeAll (ticks : List (Bool × Nat)) : Option (Scheduler T E) :=
  let s := { s with uxSchedulerSuspended := s.uxSchedulerSuspended - 1 }
  if s.uxSchedulerSuspended = 0 then
    (movePending 256 s).bind fun s =>
      (pendedTicks ticks s).bind fun s => s.switchIf s.xYieldPending
  else some s

/-! ## Waiting and waking -/

/-- `prvAddCurrentTaskToDelayedList`, or the end of the suspended list. -/
def addCurrent (w : Wait) : Option (Scheduler T E) :=
  let i := TaskItem.xGenericListItem s.pxCurrentTCB
  match w with
  | .forever => some { s with lists := s.lists.vListInsertEnd .xSuspendedTaskList i }
  | .until_ overflow xTimeToWake =>
    let lists := s.lists.listSetListItemValue i xTimeToWake
    (lists.vListInsert 256 (.xDelayedTaskList (xor overflow s.pxDelayedTaskList)) i).map
      fun lists => { s with lists := lists }

def block (w : Wait) : Option (Scheduler T E) :=
  (s.listRemove (.xGenericListItem s.pxCurrentTCB)).bind fun s => s.addCurrent w

def vTaskPlaceOnEventList (e : E) (w : Wait) : Option (Scheduler T E) :=
  (s.lists.vListInsert 256 (.event e) (.xEventListItem s.pxCurrentTCB)).bind fun lists =>
    block { s with lists := lists } w

/-- Says whether the task woken is of higher priority. -/
def xTaskRemoveFromEventList (e : E) : Option (Scheduler T E × Bool) :=
  (s.lists.listGetOwnerOfHeadEntry (.event e)).bind fun t =>
    (s.listRemove (.xEventListItem t)).bind fun s =>
      let s :=
        if s.uxSchedulerSuspended = 0 then s.makeReady t
        else some { s with lists := s.lists.vListInsertEnd .xPendingReadyList (.xEventListItem t) }
      s.map fun s =>
        if s.uxPriority t > s.uxPriority s.pxCurrentTCB then ({ s with xYieldPending := true }, true)
        else (s, false)

/-! ## Priorities -/

/-- Unless the value is in use for something else. -/
def setEventValue (t : T) (uxPriority : Priority) : Scheduler T E :=
  if s.lists.xItemValue (.item (.xEventListItem t)) &&& taskEventListItemValueInUse = 0 then
    { s with
      lists := s.lists.listSetListItemValue (.xEventListItem t)
        (UInt16.ofNat (configMaxPriorities - uxPriority)) }
  else s

def setPriority (t : T) (p : Priority) : Scheduler T E :=
  { s with uxPriority := update s.uxPriority t p }

def vTaskPrioritySet (t : T) (uxNewPriority : Nat) : Option (Scheduler T E) :=
  let new := validPriority uxNewPriority
  if s.uxBasePriority t ≠ new then
    let yieldRequired :=
      if new > s.uxBasePriority t then
        decide (t ≠ s.pxCurrentTCB ∧ new ≥ s.uxPriority s.pxCurrentTCB)
      else decide (t = s.pxCurrentTCB)
    let ready := s.isReady t
    let s := if s.uxBasePriority t = s.uxPriority t then s.setPriority t new else s
    let s := setEventValue { s with uxBasePriority := update s.uxBasePriority t new } t new
    (if ready then s.makeReady t else some s).bind fun s => s.switchIf yieldRequired
  else some s

def vTaskSuspend (t : T) : Option (Scheduler T E) :=
  (s.listRemove (.xGenericListItem t)).bind fun s =>
    (s.leaveEvent t).map fun s =>
      { s with lists := s.lists.vListInsertEnd .xSuspendedTaskList (.xGenericListItem t) }

def prvTaskIsTaskSuspended (t : T) : Bool :=
  s.lists.listIsContainedWithin .xSuspendedTaskList (.xGenericListItem t) &&
    decide (s.lists.pvContainer (.xEventListItem t) = none)

def vTaskResume (t : T) : Option (Scheduler T E) :=
  if t ≠ s.pxCurrentTCB ∧ s.prvTaskIsTaskSuspended t = true then
    (s.makeReady t).bind fun s =>
      s.switchIf (decide (s.uxPriority t ≥ s.uxPriority s.pxCurrentTCB))
  else some s

/-- The interrupt yields where it is told to. -/
def xTaskResumeFromISR (t : T) : Option (Scheduler T E) :=
  if s.prvTaskIsTaskSuspended t = true then
    if s.uxSchedulerSuspended = 0 then
      (s.makeReady t).bind fun s =>
        s.switchIf (decide (s.uxPriority t ≥ s.uxPriority s.pxCurrentTCB))
    else
      some { s with lists := s.lists.vListInsertEnd .xPendingReadyList (.xEventListItem t) }
  else some s

/-! ## Mutexes -/

/-- With `pvTaskIncrementMutexHeldCount`. -/
def takeMutex (e : E) : Scheduler T E :=
  { s with
    uxMutexesHeld := update s.uxMutexesHeld s.pxCurrentTCB (s.uxMutexesHeld s.pxCurrentTCB + 1)
    pxMutexHolder := update s.pxMutexHolder e (some s.pxCurrentTCB) }

def vTaskPriorityInherit (pxMutexHolder : Option T) : Option (Scheduler T E) :=
  match pxMutexHolder with
  | none => some s
  | some t =>
    let p := s.uxPriority s.pxCurrentTCB
    if s.uxPriority t < p then
      let s := s.setEventValue t p
      if s.isReady t then
        (s.listRemove (.xGenericListItem t)).map fun s =>
          (s.setPriority t p).prvAddTaskToReadyList t
      else some (s.setPriority t p)
    else some s

/-- Of the running task. -/
def xTaskPriorityDisinherit : Option (Scheduler T E × Bool) :=
  let t := s.pxCurrentTCB
  let s := { s with uxMutexesHeld := update s.uxMutexesHeld t (s.uxMutexesHeld t - 1) }
  if s.uxPriority t ≠ s.uxBasePriority t ∧ s.uxMutexesHeld t = 0 then
    (s.listRemove (.xGenericListItem t)).map fun s =>
      let s := s.setPriority t (s.uxBasePriority t)
      let s := { s with
        lists := s.lists.listSetListItemValue (.xEventListItem t)
          (UInt16.ofNat (configMaxPriorities - s.uxPriority t)) }
      (s.prvAddTaskToReadyList t, true)
  else some (s, false)

/-- `prvCopyDataToQueue` of a mutex and the rest of the critical section: whether the giver's
priority has gone down is only looked at where nobody waits. -/
def giveMutex (e : E) : Option (Scheduler T E) :=
  s.xTaskPriorityDisinherit.bind fun r =>
    let s := { r.1 with pxMutexHolder := update r.1.pxMutexHolder e none }
    if s.lists.listListIsEmpty (.event e) then s.switchIf r.2
    else (s.xTaskRemoveFromEventList e).bind fun r => r.1.switchIf r.2

/-! ## The start -/

/-- `xTaskGenericCreate` before the scheduler runs. -/
def create (t : T) (uxPriority : Nat) : Scheduler T E :=
  let p := validPriority uxPriority
  let lists := (s.lists.listSetListItemOwner (.xGenericListItem t) t).listSetListItemValue
    (.xEventListItem t) (UInt16.ofNat (configMaxPriorities - p))
  let s := { s with
    lists := lists.listSetListItemOwner (.xEventListItem t) t
    uxPriority := update s.uxPriority t p
    uxBasePriority := update s.uxBasePriority t p
    uxMutexesHeld := update s.uxMutexesHeld t 0 }
  let s := { s with
    pxCurrentTCB := if s.uxPriority s.pxCurrentTCB ≤ p then t else s.pxCurrentTCB }
  s.prvAddTaskToReadyList t

/-! ## The steps -/

/-- What the callers see to: the idle task does not block, a task that is not ready goes on with
nothing but a `yield`, a task waits for one event at a time, and it gives the mutexes it holds. -/
def allowed (xIdleTask : T) : SchedulerLabel T E → Bool
  | .resumeAll _ => 0 < s.uxSchedulerSuspended
  | .block _ | .placeOnEventList _ _ =>
    0 < s.uxSchedulerSuspended && s.isReady s.pxCurrentTCB && s.pxCurrentTCB ≠ xIdleTask
  | .removeFromEventList e => !s.lists.listListIsEmpty (.event e)
  | .suspend t => t ≠ xIdleTask
  | .takeMutex e => s.pxMutexHolder e = none && s.isReady s.pxCurrentTCB
  | .inherit _ => s.isReady s.pxCurrentTCB
  | .giveMutex e => s.pxMutexHolder e = some s.pxCurrentTCB && s.isReady s.pxCurrentTCB
  | .yield | .tick _ _ | .suspendAll | .missedYield | .prioritySet _ _ | .resume _
  | .resumeFromISR _ => true

def perform : SchedulerLabel T E → Option (Scheduler T E)
  | .yield => s.vTaskSwitchContext
  | .tick wraps due => s.tickInterrupt wraps due
  | .suspendAll => some { s with uxSchedulerSuspended := s.uxSchedulerSuspended + 1 }
  | .resumeAll ticks => s.xTaskResumeAll ticks
  | .block w => s.block w
  | .placeOnEventList e w => s.vTaskPlaceOnEventList e w
  | .removeFromEventList e => (s.xTaskRemoveFromEventList e).map fun r => r.1
  | .missedYield => some { s with xYieldPending := true }
  | .prioritySet t p => s.vTaskPrioritySet t p
  | .suspend t => s.vTaskSuspend t
  | .resume t => s.vTaskResume t
  | .resumeFromISR t => s.xTaskResumeFromISR t
  | .takeMutex e => some (s.takeMutex e)
  | .inherit e => s.vTaskPriorityInherit (s.pxMutexHolder e)
  | .giveMutex e => s.giveMutex e

def step (xIdleTask : T) (l : SchedulerLabel T E) : Option (Scheduler T E) :=
  if s.allowed xIdleTask l then s.perform l else none

end Scheduler

end HmBoard
