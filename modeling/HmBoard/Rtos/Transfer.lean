import HmBoard.Rtos.EventLists

/-!
# What goes through a queue

The abstract queue is a list of at most `n` items: a send puts one at an end, a receive takes the
first, each at one moment and as a whole. Every run of tasks and interrupts at the queue of the
code is one of the abstract queue: the sends and receives in the order of their critical sections,
with the bytes that the senders had in their buffers and the receivers find in theirs.
-/

namespace HmBoard

open Lib

variable {T : Type}

/-- The abstract queue of at most `n` items. -/
def BoundedQueue.exec (n : Nat) (xs : List (List UInt8)) : QueueEvent → Option (List (List UInt8))
  | .put x item => if xs.length < n ∨ x = .queueOverwrite then some (pushItem x item xs) else none
  | .take item =>
    match xs with
    | [] => none
    | y :: ys => if y = item then some ys else none
  | .peek item => if xs.head? = some item then some xs else none

/-- All but the event lists and the locks. -/
def Queue.cells (q : Queue T) : (Nat × Nat × Nat × Nat) × Nat × Nat × Nat :=
  (q.storage, q.pcWriteTo, q.pcReadFrom, q.uxMessagesWaiting)

theorem Queue.wf_congr {q q' : Queue T} (h : q'.cells = q.cells) (hq : q.Wf) : q'.Wf := by
  obtain ⟨_, _, _, _, _, _, _, _, _, _, _⟩ := q
  obtain ⟨_, _, _, _, _, _, _, _, _, _, _⟩ := q'
  simp only [cells, storage, Prod.mk.injEq] at h
  obtain ⟨⟨rfl, rfl, rfl, rfl⟩, rfl, rfl, rfl⟩ := h
  exact ⟨hq.pos, hq.tail, hq.waiting, hq.readLt, hq.read, hq.write⟩

theorem Queue.items_congr {q q' : Queue T} (h : q'.cells = q.cells) (m : Ram) :
    q'.items m = q.items m := by
  obtain ⟨_, _, _, _, _, _, _, _, _, _, _⟩ := q
  obtain ⟨_, _, _, _, _, _, _, _, _, _, _⟩ := q'
  simp only [cells, storage, Prod.mk.injEq] at h
  obtain ⟨⟨rfl, rfl, rfl, rfl⟩, rfl, rfl, rfl⟩ := h
  rfl

theorem Queue.cells_setEventList (q : Queue T) (d : Side) (ts : List T) :
    (q.setEventList d ts).cells = q.cells := by
  cases d <;> rfl

namespace Kernel

variable {n : Nat} {s s' : Kernel T} {uxPriority : T → Nat}

/-- The abstract queue, after all that has been copied in and out, holds what the storage holds. -/
structure Stores (n : Nat) (s : Kernel T) : Prop where
  wf : s.queue.Wf
  length : s.queue.uxLength = n
  log : s.log.foldlM (BoundedQueue.exec n) [] = some (s.queue.items s.ram)

theorem Stores.congr (h : Stores n s) (hq : s'.queue.cells = s.queue.cells)
    (hm : s'.queue.items s'.ram = s'.queue.items s.ram) (hl : s'.log = s.log) : Stores n s' := by
  refine ⟨Queue.wf_congr hq h.wf, ?_, ?_⟩
  · simp only [Queue.cells, Queue.storage, Prod.mk.injEq] at hq
    exact hq.1.2.2.1.trans h.length
  · rw [hl, h.log, hm, Queue.items_congr hq]

theorem Stores.same (h : Stores n s) (hq : s'.queue.cells = s.queue.cells) (hm : s'.ram = s.ram)
    (hl : s'.log = s.log) : Stores n s' :=
  h.congr hq (by rw [hm]) hl

/-- One more event. -/
theorem Stores.event (h : Stores n s) {q : Queue T} {m : Ram} {e : QueueEvent}
    (hq : q.Wf) (hlen : q.uxLength = s.queue.uxLength)
    (he : BoundedQueue.exec n (s.queue.items s.ram) e = some (q.items m)) :
    Stores n (s.store q m (s.log ++ [e])) := by
  refine ⟨hq, hlen.trans h.length, ?_⟩
  change (s.log ++ [e]).foldlM (BoundedQueue.exec n) [] = _
  rw [List.foldlM_append, h.log]
  simp only [Option.bind_eq_bind, Option.bind_some, List.foldlM_cons, List.foldlM_nil, he]
  rfl

theorem Stores.copyTo (h : Stores n s) {x : CopyPosition} (hroom : HasRoom s.queue x)
    (hok : OverwriteOk s.queue x) (pvItem : Nat) : Stores n (s.copyTo pvItem x) := by
  have hst := copyTo_stored h.wf hroom hok pvItem
  refine h.event hst.wf hst.frame.length ?_
  have hlen : (s.queue.items s.ram).length < n ∨ x = .queueOverwrite := by
    rw [Queue.items_length, ← h.length]
    exact hroom
  rw [BoundedQueue.exec, if_pos hlen]
  exact congrArg some hst.items.symm

theorem Stores.take (h : Stores n s) (hk : 0 < s.queue.uxMessagesWaiting) {pvBuffer : Nat}
    (hb : s.queue.Apart pvBuffer s.queue.uxItemSize) : Stores n (s.take pvBuffer) := by
  obtain ⟨item, rest, hitems, hm, hwf, hrest, hframe⟩ := Queue.take_spec (m := s.ram) h.wf hk hb
  have hread : (takeItem s.queue s.ram pvBuffer).2.read pvBuffer s.queue.uxItemSize = item := by
    rw [hm, ← Queue.item_length (m := s.ram) (hitems ▸ List.mem_cons_self)]
    exact Mem.read_write_self _ _ _
  refine h.event hwf hframe.length ?_
  rw [hread, hitems]
  exact (if_pos rfl).trans (congrArg some hrest.symm)

theorem Stores.peek (h : Stores n s) (hk : 0 < s.queue.uxMessagesWaiting) {pvBuffer : Nat}
    (hb : s.queue.Apart pvBuffer s.queue.uxItemSize) : Stores n (s.peek pvBuffer) := by
  obtain ⟨item, rest, hitems, heq, hrest⟩ := Queue.peek_spec (m := s.ram) h.wf hk hb
  have hread : (s.ram.write pvBuffer item).read pvBuffer s.queue.uxItemSize = item := by
    rw [← Queue.item_length (m := s.ram) (hitems ▸ List.mem_cons_self)]
    exact Mem.read_write_self _ _ _
  have hpeek : s.peek pvBuffer =
      s.store s.queue (s.ram.write pvBuffer item) (s.log ++ [.peek item]) := by
    simp only [Kernel.peek, heq, hread]
    rfl
  rw [hpeek]
  refine h.event h.wf rfl ?_
  rw [BoundedQueue.exec, hitems, hrest]
  exact if_pos rfl

variable [DecidableEq T]

theorem Stores.remove (h : Stores n s) (d : Side) : Stores n (s.xTaskRemoveFromEventList d) := by
  cases hl : s.queue.eventList d with
  | nil => rwa [remove_nil hl]
  | cons t ts =>
    rw [remove_cons hl]
    split <;> exact h.same (Queue.cells_setEventList _ d ts) rfl rfl

theorem Stores.wakeWaiting (d : Side) : ∀ (k : Nat) {s : Kernel T}, Stores n s →
    Stores n (Kernel.wakeWaiting d k s)
  | 0, _, h => h
  | k + 1, s, h => by
    rw [Kernel.wakeWaiting]
    split
    · exact h
    · exact Stores.wakeWaiting d k (h.remove d)

theorem Stores.section_ (h : Stores n s) {c : QueueCall} (hok : s.CallOk c)
    (hs : s.section_ c = some s') : Stores n s' := by
  cases c with
  | xQueueGenericSend pvItem x =>
    simp only [Kernel.section_, Option.ite_none_right_eq_some, Option.some.injEq] at hs
    obtain ⟨hroom, rfl⟩ := hs
    exact (h.copyTo hroom hok pvItem).remove _
  | xQueueGenericReceive pvBuffer peeking =>
    simp only [Kernel.section_, Option.ite_none_right_eq_some, Option.some.injEq] at hs
    obtain ⟨hk, rfl⟩ := hs
    cases peeking with
    | false => exact (h.take hk hok).remove _
    | true => exact (h.peek hk hok).remove _

theorem Stores.taskStep (h : Stores n s) (hcalls : s.CallsOk) {expired : Bool} {next : T}
    (hs : s.taskStep uxPriority expired next = some s') : Stores n s' := by
  cases hpc : s.pc s.pxCurrentTCB with
  | outside | suspended => simp [Kernel.taskStep, hpc] at hs
  | section_ c block =>
    simp only [Kernel.taskStep, hpc] at hs
    cases hsec : s.section_ c with
    | none =>
      simp only [hsec, Option.some.injEq] at hs
      subst hs
      exact h.same rfl rfl rfl
    | some s1 =>
      simp only [hsec, Option.some.injEq] at hs
      subst hs
      have hok : s.CallOk c := hcalls s.pxCurrentTCB c (by rw [hpc]; rfl)
      exact (h.section_ hok hsec).same rfl rfl rfl
  | suspendAll c | checkForTimeOut c | isFull c =>
    simp only [Kernel.taskStep, hpc, Option.some.injEq] at hs
    subst hs
    exact h.same rfl rfl rfl
  | lock c =>
    simp only [Kernel.taskStep, hpc, Option.some.injEq] at hs
    subst hs
    refine h.same ?_ rfl rfl
    unfold prvLockQueue Kernel.goto
    dsimp only
    split <;> split <;> rfl
  | place c =>
    simp only [Kernel.taskStep, hpc, Option.some.injEq] at hs
    subst hs
    exact h.same (Queue.cells_setEventList _ _ _) rfl rfl
  | unlockTx c k =>
    simp only [Kernel.taskStep, hpc, Option.some.injEq] at hs
    subst hs
    exact (h.wakeWaiting .receive (s.queue.countLock .receive).toNat).same rfl rfl rfl
  | unlockRx c k =>
    simp only [Kernel.taskStep, hpc, Option.some.injEq] at hs
    subst hs
    exact (h.wakeWaiting .send (s.queue.countLock .send).toNat).same rfl rfl rfl
  | resumeAll c k =>
    have hres : s.xTaskResumeAll.ram = s.ram ∧ s.xTaskResumeAll.log = s.log := by
      unfold xTaskResumeAll
      dsimp only
      split <;> exact ⟨rfl, rfl⟩
    cases k <;>
      simp only [Kernel.taskStep, hpc, Option.some.injEq] at hs <;>
      subst hs <;>
      exact h.same (congrArg Queue.cells queue_resumeAll) hres.1 hres.2
  | yield c =>
    simp only [Kernel.taskStep, hpc] at hs
    split at hs
    · cases hs
    · cases hs
      exact h.same rfl rfl rfl

theorem Stores.step (h : Stores n s) (hcalls : s.CallsOk) {l : KernelLabel T}
    (hs : s.step uxPriority l = some s') : Stores n s' := by
  cases l with
  | run expired next => exact h.taskStep hcalls hs
  | resume =>
    simp only [Kernel.step, Option.ite_none_right_eq_some, Option.some.injEq] at hs
    obtain ⟨-, rfl⟩ := hs
    have hres : s.xTaskResumeAll.ram = s.ram ∧ s.xTaskResumeAll.log = s.log := by
      unfold xTaskResumeAll
      dsimp only
      split <;> exact ⟨rfl, rfl⟩
    exact h.same (congrArg Queue.cells queue_resumeAll) hres.1 hres.2
  | sendFromISR pvItem x =>
    simp only [Kernel.step, Option.ite_none_right_eq_some, Option.some.injEq] at hs
    obtain ⟨hok, rfl⟩ := hs
    unfold xQueueGenericSendFromISR
    split
    · rename_i hroom
      have hcopy := h.copyTo hroom hok pvItem
      dsimp only
      split
      · exact hcopy.remove _
      · exact hcopy.same rfl rfl rfl
    · exact h
  | receiveFromISR pvBuffer =>
    simp only [Kernel.step, Option.ite_none_right_eq_some, Option.some.injEq] at hs
    obtain ⟨hok, rfl⟩ := hs
    unfold xQueueReceiveFromISR
    split
    · rename_i hk
      have htake := h.take hk hok
      dsimp only
      split
      · exact htake.remove _
      · exact htake.same rfl rfl rfl
    · exact h
  | peekFromISR pvBuffer =>
    simp only [Kernel.step, Option.ite_none_right_eq_some, Option.some.injEq] at hs
    obtain ⟨hok, rfl⟩ := hs
    unfold xQueuePeekFromISR
    split
    · rename_i hk
      exact h.peek hk hok
    · exact h
  | other a bs =>
    simp only [Kernel.step, Option.ite_none_right_eq_some, Option.some.injEq] at hs
    obtain ⟨hok, rfl⟩ := hs
    exact h.congr rfl (Queue.items_write h.wf hok) rfl
  | call c block | suspend | switch next | expire t =>
    simp only [Kernel.step, Option.ite_none_right_eq_some, Option.some.injEq] at hs
    obtain ⟨-, rfl⟩ := hs
    exact h.same rfl rfl rfl

/-- Whatever the order of tasks and interrupts, what has gone in and come out is what the abstract
queue of `uxLength` items lets through, and it holds what the storage holds. -/
theorem queue_transfers {pcHead uxLength uxItemSize : Nat} {ram : Ram} {t : T}
    (hpos : 0 < uxLength) {ls : List (KernelLabel T)}
    (hrun : ls.foldlM (fun s l => s.step uxPriority l) (start pcHead uxLength uxItemSize ram t) =
      some s) :
    s.log.foldlM (BoundedQueue.exec uxLength) [] = some (s.queue.items s.ram) ∧
      (s.queue.items s.ram).length ≤ uxLength ∧
      ∀ item ∈ s.queue.items s.ram, item.length = uxItemSize := by
  have hst : s.queue.storage = (pcHead, pcHead + uxLength * uxItemSize, uxLength, uxItemSize) := by
    refine (Runs.of_labels ls hrun).inv
      (I := fun s => s.queue.storage = (pcHead, pcHead + uxLength * uxItemSize, uxLength, uxItemSize))
      rfl fun s l s' h _ hs => ?_
    exact (storage_step hs).trans h
  have hinv : Stores uxLength s ∧ s.CallsOk := by
    refine (Runs.of_labels ls hrun).inv (I := fun s => Stores uxLength s ∧ s.CallsOk)
      ⟨⟨Queue.reset_wf hpos, rfl, rfl⟩, fun _ _ hc => by cases hc⟩ fun s l s' h _ hs => ?_
    exact ⟨h.1.step h.2 hs, h.2.step hs⟩
  simp only [Queue.storage, Prod.mk.injEq] at hst
  refine ⟨hinv.1.log, ?_, fun item hitem => ?_⟩
  · rw [Queue.items_length, ← hinv.1.length]
    exact hinv.1.wf.waiting
  · rw [Queue.item_length hitem, hst.2.2.2]

/-- A task sends, and another task and an interrupt receive. -/
def sendAndReceive : List (KernelLabel Bool) :=
  [.call (.xQueueGenericSend 80 .queueSendToBack) true, .run false true, .sendFromISR 81 .queueSendToBack,
    .switch true, .call (.xQueueGenericReceive 64 false) true, .run false true, .receiveFromISR 72]

theorem queue_transfers_two : ∃ s : Kernel Bool,
    sendAndReceive.foldlM (fun s l => s.step (fun _ => 1) l)
      (start 16 2 1 (fun a => UInt8.ofNat a) false) = some s ∧
    s.log = [.put .queueSendToBack [80], .put .queueSendToBack [81], .take [80], .take [81]] ∧
    s.log.foldlM (BoundedQueue.exec 2) [] = some (s.queue.items s.ram) := by
  have htrans : ∀ s : Kernel Bool, sendAndReceive.foldlM (fun s l => s.step (fun _ => 1) l)
      (start 16 2 1 (fun a => UInt8.ofNat a) false) = some s →
      s.log.foldlM (BoundedQueue.exec 2) [] = some (s.queue.items s.ram) :=
    fun s hrun => (queue_transfers (by decide) hrun).1
  exact ⟨_, rfl, rfl, htrans _ rfl⟩

end Kernel

end HmBoard
