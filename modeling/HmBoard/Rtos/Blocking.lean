import HmBoard.Lib.Run
import HmBoard.Rtos.Queue
import Mathlib.Data.Finset.Card

/-!
# Tasks and interrupts at one queue (`queue.c`, `tasks.c`)

Any number of tasks call `xQueueGenericSend` and `xQueueGenericReceive` while interrupts call the
`FromISR` functions; a step is one critical section, or what a task does between two of them.

| here | there |
| --- | --- |
| `sendSection`, `receiveSection` | the critical section at the head of the loop (queue.c:640-735, 1382-1467) |
| `prvLockQueue`, `prvUnlockQueue` | queue.c:244, 1875; one step for each lock |
| `vTaskPlaceOnEventList`         | tasks.c:2258 |
| `xTaskRemoveFromEventList`      | tasks.c:2428 |
| `vTaskSuspendAll`, `xTaskResumeAll` | tasks.c:1628, 1666 |
| `expire`                        | what `xTaskIncrementTick` does with a task whose time has come (tasks.c:1994-2015) |
| `xQueueGenericSendFromISR`      | queue.c:1058 |
| `xQueueReceiveFromISR`          | queue.c:1550 |
| `xQueuePeekFromISR`             | queue.c:1637 |

The tick is not counted here: whether a block time has run out is the environment's answer.
A task that waits stands in a delayed list or in the list of the suspended ones (`delayed`);
which ready task runs next is anyone's choice. `log` is a ghost: what has been copied in and out.
-/

namespace HmBoard

open Lib

/-- A call with its buffer; it may block unless `xTicksToWait` is 0. -/
inductive QueueCall where
  | xQueueGenericSend (pvItemToQueue : Nat) (xCopyPosition : CopyPosition)
  | xQueueGenericReceive (pvBuffer : Nat) (xJustPeeking : Bool)
deriving DecidableEq, Repr

/-- The two event lists. -/
inductive Side where
  | send | receive
deriving DecidableEq, Repr

def QueueCall.side : QueueCall → Side
  | .xQueueGenericSend _ _ => .send
  | .xQueueGenericReceive _ _ => .receive

def Side.other : Side → Side
  | .send => .receive
  | .receive => .send

/-- How a call goes on when it has let go of the queue. -/
inductive Next where
  /-- It is on the event list. -/
  | wait
  /-- "Try again." -/
  | again
  /-- "The timeout has expired." -/
  | fail
deriving DecidableEq, Repr

inductive QueuePc where
  | outside
  /-- In code of its own that has suspended the scheduler, such as `pvPortMalloc`. -/
  | suspended
  | section_ (c : QueueCall) (block : Bool)
  | suspendAll (c : QueueCall)
  | lock (c : QueueCall)
  | checkForTimeOut (c : QueueCall)
  | isFull (c : QueueCall)
  | place (c : QueueCall)
  | unlockTx (c : QueueCall) (n : Next)
  | unlockRx (c : QueueCall) (n : Next)
  | resumeAll (c : QueueCall) (n : Next)
  | yield (c : QueueCall)
deriving DecidableEq, Repr

inductive QueueEvent where
  | put (x : CopyPosition) (item : List UInt8)
  | take (item : List UInt8)
  | peek (item : List UInt8)
deriving DecidableEq, Repr

structure Kernel (T : Type) where
  ram : Ram
  queue : Queue T
  pxCurrentTCB : T
  uxSchedulerSuspended : Nat
  delayed : T → Bool
  xPendingReadyList : List T
  pc : T → QueuePc
  log : List QueueEvent

inductive KernelLabel (T : Type) where
  | call (c : QueueCall) (block : Bool)
  /-- `vTaskSuspendAll` and `xTaskResumeAll` outside the queue. -/
  | suspend
  | resume
  /-- The running task goes on; has its time run out, and whom does a yield choose? -/
  | run (expired : Bool) (next : T)
  | switch (next : T)
  | expire (t : T)
  | sendFromISR (pvItemToQueue : Nat) (xCopyPosition : CopyPosition)
  | receiveFromISR (pvBuffer : Nat)
  | peekFromISR (pvBuffer : Nat)
  /-- Any other code writes. -/
  | other (a : Nat) (bs : List UInt8)

variable {T : Type}

namespace Queue

variable (q : Queue T)

def eventList : Side → List T
  | .send => q.xTasksWaitingToSend
  | .receive => q.xTasksWaitingToReceive

def setEventList (d : Side) (ts : List T) : Queue T :=
  match d with
  | .send => { q with xTasksWaitingToSend := ts }
  | .receive => { q with xTasksWaitingToReceive := ts }

/-- The lock that counts what the tasks of `d` wait for. -/
def countLock : Side → UInt8
  | .send => q.xRxLock
  | .receive => q.xTxLock

def setLock (d : Side) (n : UInt8) : Queue T :=
  match d with
  | .send => { q with xRxLock := n }
  | .receive => { q with xTxLock := n }

/-- What the tasks of `d` wait for: free slots, items. -/
def available : Side → Nat
  | .send => q.uxLength - q.uxMessagesWaiting
  | .receive => q.uxMessagesWaiting

end Queue

/-- `vListInsert` into an event list: behind the tasks of the same priority. -/
def insertByPriority (uxPriority : T → Nat) (t : T) (ts : List T) : List T :=
  ts.takeWhile (fun u => uxPriority t ≤ uxPriority u) ++
    t :: ts.dropWhile (fun u => uxPriority t ≤ uxPriority u)

namespace Kernel

/-- A queue just made, nobody in a call. -/
def start (pcHead uxLength uxItemSize : Nat) (ram : Ram) (t : T) : Kernel T where
  ram := ram
  queue := xQueueGenericReset ⟨pcHead, 0, 0, 0, [], [], 0, uxLength, uxItemSize, 0, 0⟩
  pxCurrentTCB := t
  uxSchedulerSuspended := 0
  delayed := fun _ => false
  xPendingReadyList := []
  pc := fun _ => .outside
  log := []

variable [DecidableEq T] (s : Kernel T)

/-- The running task goes to `p`. -/
def goto (p : QueuePc) : Kernel T :=
  { s with pc := fun u => if u = s.pxCurrentTCB then p else s.pc u }

def makeReady (t : T) : Kernel T :=
  { s with delayed := fun u => if u = t then false else s.delayed u }

/-- Where the event list is not empty. -/
def xTaskRemoveFromEventList (d : Side) : Kernel T :=
  match s.queue.eventList d with
  | [] => s
  | t :: ts =>
    let s := { s with queue := s.queue.setEventList d ts }
    if s.uxSchedulerSuspended = 0 then s.makeReady t
    else { s with xPendingReadyList := s.xPendingReadyList ++ [t] }

def copyTo (pvItemToQueue : Nat) (x : CopyPosition) : Kernel T :=
  let t := prvCopyDataToQueue s.queue s.ram pvItemToQueue x
  { s with
    queue := t.1, ram := t.2
    log := s.log ++ [.put x (s.ram.read pvItemToQueue s.queue.uxItemSize)] }

/-- What the buffer holds afterwards is what was taken. -/
def take (pvBuffer : Nat) : Kernel T :=
  let t := takeItem s.queue s.ram pvBuffer
  { s with
    queue := t.1, ram := t.2, log := s.log ++ [.take (t.2.read pvBuffer s.queue.uxItemSize)] }

def peek (pvBuffer : Nat) : Kernel T :=
  let t := peekItem s.queue s.ram pvBuffer
  { s with
    queue := t.1, ram := t.2, log := s.log ++ [.peek (t.2.read pvBuffer s.queue.uxItemSize)] }

/-- The section of `xQueueGenericSend` where there is room, of `xQueueGenericReceive` where there
is an item. -/
def section_ : QueueCall → Option (Kernel T)
  | .xQueueGenericSend pvItem x =>
    if HasRoom s.queue x then some ((s.copyTo pvItem x).xTaskRemoveFromEventList .receive)
    else none
  | .xQueueGenericReceive pvBuffer xJustPeeking =>
    if s.queue.uxMessagesWaiting > 0 then
      some (if xJustPeeking then (s.peek pvBuffer).xTaskRemoveFromEventList .receive
        else (s.take pvBuffer).xTaskRemoveFromEventList .send)
    else none

def prvLockQueue : Kernel T :=
  let q := s.queue
  let q := if q.xRxLock = queueUnlocked then { q with xRxLock := queueLockedUnmodified } else q
  let q := if q.xTxLock = queueUnlocked then { q with xTxLock := queueLockedUnmodified } else q
  { s with queue := q }

/-- `prvIsQueueFull` of a sender, `prvIsQueueEmpty` of a receiver. -/
def mustWait : QueueCall → Bool
  | .xQueueGenericSend _ _ => s.queue.uxMessagesWaiting = s.queue.uxLength
  | .xQueueGenericReceive _ _ => s.queue.uxMessagesWaiting = 0

def vTaskPlaceOnEventList (uxPriority : T → Nat) (d : Side) : Kernel T :=
  let t := s.pxCurrentTCB
  { s with
    queue := s.queue.setEventList d (insertByPriority uxPriority t (s.queue.eventList d))
    delayed := fun u => if u = t then true else s.delayed u }

/-- The loop over a lock count (queue.c:1885-1955, 1966-1983): it ends early when nobody waits. -/
def wakeWaiting (d : Side) : Nat → Kernel T → Kernel T
  | 0, s => s
  | n + 1, s =>
    match s.queue.eventList d with
    | [] => s
    | _ :: _ => wakeWaiting d n (s.xTaskRemoveFromEventList d)

/-- One of the two critical sections of `prvUnlockQueue`. -/
def prvUnlockQueue (d : Side) : Kernel T :=
  let s := wakeWaiting d (s.queue.countLock d).toNat s
  { s with queue := s.queue.setLock d queueUnlocked }

def vTaskSuspendAll : Kernel T := { s with uxSchedulerSuspended := s.uxSchedulerSuspended + 1 }

/-- The pended ticks are `expire` steps. -/
def xTaskResumeAll : Kernel T :=
  let s := { s with uxSchedulerSuspended := s.uxSchedulerSuspended - 1 }
  if s.uxSchedulerSuspended = 0 then
    { s with
      delayed := fun u => if u ∈ s.xPendingReadyList then false else s.delayed u
      xPendingReadyList := [] }
  else s

/-- A caller's buffer lies outside the storage, and only a queue of one item is overwritten. -/
def CallOk : QueueCall → Prop
  | .xQueueGenericSend _ x => OverwriteOk s.queue x
  | .xQueueGenericReceive pvBuffer _ => s.queue.Apart pvBuffer s.queue.uxItemSize

instance : (c : QueueCall) → Decidable (s.CallOk c)
  | .xQueueGenericSend _ _ => inferInstanceAs (Decidable (OverwriteOk _ _))
  | .xQueueGenericReceive _ _ => inferInstanceAs (Decidable (Queue.Apart _ _ _))

/-- Where the running task goes on; a task that waits comes back only when it is ready. -/
def taskStep (uxPriority : T → Nat) (expired : Bool) (next : T) : Option (Kernel T) :=
  match s.pc s.pxCurrentTCB with
  | .outside => none
  | .suspended => none
  | .section_ c block =>
    match s.section_ c with
    | some s => some (s.goto .outside)
    | none => some (s.goto (if block then .suspendAll c else .outside))
  | .suspendAll c => some (s.vTaskSuspendAll.goto (.lock c))
  | .lock c => some (s.prvLockQueue.goto (.checkForTimeOut c))
  | .checkForTimeOut c => some (s.goto (if expired then .unlockTx c .fail else .isFull c))
  | .isFull c => some (s.goto (if s.mustWait c then .place c else .unlockTx c .again))
  | .place c => some ((s.vTaskPlaceOnEventList uxPriority c.side).goto (.unlockTx c .wait))
  | .unlockTx c n => some ((s.prvUnlockQueue .receive).goto (.unlockRx c n))
  | .unlockRx c n => some ((s.prvUnlockQueue .send).goto (.resumeAll c n))
  | .resumeAll c .wait => some (s.xTaskResumeAll.goto (.yield c))
  | .resumeAll c .again => some (s.xTaskResumeAll.goto (.section_ c true))
  | .resumeAll _ .fail => some (s.xTaskResumeAll.goto .outside)
  | .yield c =>
    if s.delayed next then none
    else some { s.goto (.section_ c true) with pxCurrentTCB := next }

def xQueueGenericSendFromISR (pvItem : Nat) (x : CopyPosition) : Kernel T :=
  if HasRoom s.queue x then
    let s := s.copyTo pvItem x
    if s.queue.xTxLock = queueUnlocked then s.xTaskRemoveFromEventList .receive
    else { s with queue := { s.queue with xTxLock := s.queue.xTxLock + 1 } }
  else s

def xQueueReceiveFromISR (pvBuffer : Nat) : Kernel T :=
  if s.queue.uxMessagesWaiting > 0 then
    let s := s.take pvBuffer
    if s.queue.xRxLock = queueUnlocked then s.xTaskRemoveFromEventList .send
    else { s with queue := { s.queue with xRxLock := s.queue.xRxLock + 1 } }
  else s

def xQueuePeekFromISR (pvBuffer : Nat) : Kernel T :=
  if s.queue.uxMessagesWaiting > 0 then s.peek pvBuffer else s

def expire (t : T) : Kernel T :=
  { s.makeReady t with
    queue := { s.queue with
      xTasksWaitingToSend := s.queue.xTasksWaitingToSend.erase t
      xTasksWaitingToReceive := s.queue.xTasksWaitingToReceive.erase t } }

def step (uxPriority : T → Nat) : KernelLabel T → Option (Kernel T)
  | .call c block =>
    if s.pc s.pxCurrentTCB = .outside ∧ s.CallOk c then some (s.goto (.section_ c block)) else none
  | .suspend =>
    if s.pc s.pxCurrentTCB = .outside then some (s.vTaskSuspendAll.goto .suspended) else none
  | .resume =>
    if s.pc s.pxCurrentTCB = .suspended then some (s.xTaskResumeAll.goto .outside) else none
  | .run expired next => s.taskStep uxPriority expired next
  | .switch next =>
    if s.uxSchedulerSuspended = 0 ∧ s.delayed next = false then
      some { s with pxCurrentTCB := next }
    else none
  | .expire t =>
    if s.uxSchedulerSuspended = 0 ∧ s.delayed t = true then some (s.expire t) else none
  | .sendFromISR pvItem x =>
    if OverwriteOk s.queue x then some (s.xQueueGenericSendFromISR pvItem x) else none
  | .receiveFromISR pvBuffer =>
    if s.queue.Apart pvBuffer s.queue.uxItemSize then some (s.xQueueReceiveFromISR pvBuffer)
    else none
  | .peekFromISR pvBuffer =>
    if s.queue.Apart pvBuffer s.queue.uxItemSize then some (s.xQueuePeekFromISR pvBuffer)
    else none
  | .other a bs =>
    if s.queue.Apart a bs.length then some { s with ram := s.ram.write a bs } else none

end Kernel

end HmBoard
