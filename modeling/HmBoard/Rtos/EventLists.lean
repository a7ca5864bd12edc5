import HmBoard.Rtos.Blocking

/-!
# Where the tasks stand

`Kernel.Shape`: a task that is not ready is on one event list or pending, and in a call that waits
there; only the running task holds the scheduler or has locked the queue; the event lists stand in
the order of the priorities. One lemma for each thing a step does.
-/

namespace HmBoard

open Lib

variable {T : Type}

namespace QueuePc

/-- On the event list of `d`, or just taken off it. -/
def waits (d : Side) : QueuePc → Bool
  | .section_ c _ | .yield c => c.side = d
  | .unlockTx c n | .unlockRx c n | .resumeAll c n => n = .wait && c.side = d
  | _ => false

/-- The next thing it does at the queue is the section of a call of side `d`. -/
def heads (d : Side) : QueuePc → Bool
  | .section_ c _ | .yield c => c.side = d
  | .unlockTx c n | .unlockRx c n | .resumeAll c n => n ≠ .fail && c.side = d
  | _ => false

/-- Placed, and not yet switched away from. -/
def leaves : QueuePc → Bool
  | .yield _ => true
  | .unlockTx _ n | .unlockRx _ n | .resumeAll _ n => n = .wait
  | _ => false

/-- Between `vTaskSuspendAll` and `xTaskResumeAll`. -/
def holdsScheduler : QueuePc → Bool
  | .suspended | .lock _ | .checkForTimeOut _ | .isFull _ | .place _ | .unlockTx _ _
  | .unlockRx _ _ | .resumeAll _ _ => true
  | _ => false

def locked (d : Side) : QueuePc → Bool
  | .checkForTimeOut _ | .isFull _ | .place _ | .unlockTx _ _ => true
  | .unlockRx _ _ => d = .send
  | _ => false

/-- The call a task is in. -/
def call : QueuePc → Option QueueCall
  | .outside | .suspended => none
  | .section_ c _ | .suspendAll c | .lock c | .checkForTimeOut c | .isFull c | .place c
  | .unlockTx c _ | .unlockRx c _ | .resumeAll c _ | .yield c => some c

theorem heads_of_waits {d : Side} {p : QueuePc} (h : p.waits d = true) : p.heads d = true := by
  cases p <;> simp_all [waits, heads]

theorem unlocked {d : Side} {p : QueuePc} (h : p.holdsScheduler = false) :
    p.locked d = false := by
  cases p <;> simp_all [holdsScheduler, locked]

end QueuePc

namespace Queue

variable (q : Queue T) (d e : Side) (ts : List T)

theorem eventList_set : (q.setEventList d ts).eventList e = if e = d then ts else q.eventList e := by
  cases d <;> cases e <;> rfl

@[simp] theorem countLock_setEventList : (q.setEventList d ts).countLock e = q.countLock e := by
  cases d <;> cases e <;> rfl

@[simp] theorem available_setEventList : (q.setEventList d ts).available e = q.available e := by
  cases d <;> cases e <;> rfl

theorem countLock_setLock (n : UInt8) :
    (q.setLock d n).countLock e = if e = d then n else q.countLock e := by
  cases d <;> cases e <;> rfl

@[simp] theorem eventList_setLock (n : UInt8) : (q.setLock d n).eventList e = q.eventList e := by
  cases d <;> cases e <;> rfl

@[simp] theorem available_setLock (n : UInt8) : (q.setLock d n).available e = q.available e := by
  cases d <;> cases e <;> rfl

variable {q} {q' : Queue T}

/-! ## What never changes -/

/-- Where the slots lie, and how many of what size. -/
def storage (q : Queue T) : Nat × Nat × Nat × Nat := (q.pcHead, q.pcTail, q.uxLength, q.uxItemSize)

@[simp] theorem storage_setEventList : (q.setEventList d ts).storage = q.storage := by
  cases d <;> rfl

@[simp] theorem storage_setLock (n : UInt8) : (q.setLock d n).storage = q.storage := by
  cases d <;> rfl

@[simp] theorem storage_copyTo (m : Ram) (pvItem : Nat) (x : CopyPosition) :
    (prvCopyDataToQueue q m pvItem x).1.storage = q.storage := by
  unfold prvCopyDataToQueue
  split
  · rfl
  · split <;> rfl

@[simp] theorem storage_take (m : Ram) (pvBuffer : Nat) :
    (takeItem q m pvBuffer).1.storage = q.storage := by
  unfold takeItem prvCopyDataFromQueue
  split <;> rfl

@[simp] theorem storage_peek (m : Ram) (pvBuffer : Nat) :
    (peekItem q m pvBuffer).1.storage = q.storage := by
  unfold peekItem prvCopyDataFromQueue
  split <;> rfl

/-- Event lists and locks are no part of the storage. -/
theorem wf_setEventList (h : q.Wf) : (q.setEventList d ts).Wf := by
  cases d <;> exact ⟨h.pos, h.tail, h.waiting, h.readLt, h.read, h.write⟩

theorem wf_setLock (h : q.Wf) (n : UInt8) : (q.setLock d n).Wf := by
  cases d <;> exact ⟨h.pos, h.tail, h.waiting, h.readLt, h.read, h.write⟩

theorem SameFrame.eventList (h : SameFrame q q') : q'.eventList d = q.eventList d := by
  cases d
  · exact h.send
  · exact h.receive

theorem SameFrame.countLock (h : SameFrame q q') : q'.countLock d = q.countLock d := by
  cases d
  · exact h.rx
  · exact h.tx

end Queue

theorem mem_insertByPriority {uxPriority : T → Nat} {t u : T} {ts : List T} :
    u ∈ insertByPriority uxPriority t ts ↔ u = t ∨ u ∈ ts := by
  have hsplit := List.takeWhile_append_dropWhile
    (p := fun u => decide (uxPriority t ≤ uxPriority u)) (l := ts)
  rw [insertByPriority, List.mem_append, List.mem_cons, or_left_comm, ← List.mem_append, hsplit]

theorem nodup_insertByPriority {uxPriority : T → Nat} {t : T} {ts : List T} (h : ts.Nodup)
    (ht : t ∉ ts) : (insertByPriority uxPriority t ts).Nodup := by
  have hsplit := List.takeWhile_append_dropWhile
    (p := fun u => decide (uxPriority t ≤ uxPriority u)) (l := ts)
  rw [insertByPriority, List.nodup_middle, hsplit, List.nodup_cons]
  exact ⟨ht, h⟩

/-- In the order of the priorities, the highest first. -/
def ByPriority (uxPriority : T → Nat) (ts : List T) : Prop :=
  ts.Pairwise fun a b => uxPriority b ≤ uxPriority a

theorem byPriority_insert {uxPriority : T → Nat} {t : T} {ts : List T}
    (h : ByPriority uxPriority ts) : ByPriority uxPriority (insertByPriority uxPriority t ts) := by
  induction ts with
  | nil => exact List.pairwise_singleton _ _
  | cons u ts ih =>
    obtain ⟨hu, hts⟩ := List.pairwise_cons.1 h
    by_cases hle : uxPriority t ≤ uxPriority u
    · have heq : insertByPriority uxPriority t (u :: ts) = u :: insertByPriority uxPriority t ts := by
        simp [insertByPriority, hle]
      rw [heq]
      refine List.pairwise_cons.2 ⟨fun v hv => ?_, ih hts⟩
      rcases mem_insertByPriority.1 hv with rfl | hv
      · exact hle
      · exact hu v hv
    · have heq : insertByPriority uxPriority t (u :: ts) = t :: u :: ts := by
        simp [insertByPriority, hle]
      rw [heq]
      refine List.pairwise_cons.2 ⟨fun v hv => ?_, h⟩
      rcases List.mem_cons.1 hv with rfl | hv
      · omega
      · have := hu v hv
        omega

namespace Kernel

variable {uxPriority : T → Nat} {s s' : Kernel T}

theorem copyTo_stored (hq : s.queue.Wf) {x : CopyPosition} (hroom : HasRoom s.queue x)
    (hok : OverwriteOk s.queue x) (pvItem : Nat) :
    Queue.Stored s.queue s.ram (pushItem x (s.ram.read pvItem s.queue.uxItemSize)
      (s.queue.items s.ram)) ((s.copyTo pvItem x).queue, (s.copyTo pvItem x).ram) :=
  Queue.stored_copy hq hroom hok pvItem

theorem available_copyTo (hq : s.queue.Wf) {x : CopyPosition} (hroom : HasRoom s.queue x)
    (hok : OverwriteOk s.queue x) (pvItem : Nat) :
    ∀ f, (s.copyTo pvItem x).queue.available f ≤ s.queue.available f +
      (if f = .receive then 1 else 0) - (if f = .send then 1 else 0) := by
  have h := copyTo_stored hq hroom hok pvItem
  have hk : (s.copyTo pvItem x).queue.uxMessagesWaiting =
      (pushItem x (s.ram.read pvItem s.queue.uxItemSize) (s.queue.items s.ram)).length := by
    rw [← h.items, Queue.items_length]
  have hlen : (s.copyTo pvItem x).queue.uxLength = s.queue.uxLength := h.frame.length
  have hwait := hq.waiting
  intro f
  cases x with
  | queueOverwrite =>
    obtain ⟨hone, -⟩ := hok rfl
    cases f <;> simp [Queue.available, hk, hlen, pushItem, hone]
  | queueSendToBack =>
    cases f <;> simp [Queue.available, hk, hlen, pushItem, Queue.items_length]
    omega
  | queueSendToFront =>
    cases f <;> simp [Queue.available, hk, hlen, pushItem, Queue.items_length]
    omega

theorem available_take (hq : s.queue.Wf) (hk : 0 < s.queue.uxMessagesWaiting) {pvBuffer : Nat}
    (hb : s.queue.Apart pvBuffer s.queue.uxItemSize) :
    ∀ f, (s.take pvBuffer).queue.available f ≤ s.queue.available f +
      (if f = .send then 1 else 0) - (if f = .receive then 1 else 0) := by
  obtain ⟨item, rest, hitems, -, -, hrest, hframe⟩ := Queue.take_spec (m := s.ram) hq hk hb
  have h1 : s.queue.uxMessagesWaiting = rest.length + 1 := by
    rw [← Queue.items_length (m := s.ram), hitems, List.length_cons]
  have h2 : (s.take pvBuffer).queue.uxMessagesWaiting = rest.length := by
    rw [← hrest, Queue.items_length]
    rfl
  have hlen : (s.take pvBuffer).queue.uxLength = s.queue.uxLength := hframe.length
  intro f
  cases f <;> simp [Queue.available, h1, h2, hlen]
  omega

/-- Where the tasks stand. -/
structure Shape (uxPriority : T → Nat) (s : Kernel T) : Prop where
  wf : s.queue.Wf
  suspended : s.uxSchedulerSuspended = if (s.pc s.pxCurrentTCB).holdsScheduler then 1 else 0
  others : ∀ u, u ≠ s.pxCurrentTCB → (s.pc u).holdsScheduler = false
  locked : ∀ d, s.queue.countLock d = queueUnlocked ↔ (s.pc s.pxCurrentTCB).locked d = false
  waits : ∀ d u, u ∈ s.queue.eventList d → (s.pc u).waits d = true ∧ s.delayed u = true ∧
    u ∉ s.xPendingReadyList
  pending : ∀ u, u ∈ s.xPendingReadyList → s.delayed u = true ∧ ∃ d, (s.pc u).waits d = true
  idle : s.uxSchedulerSuspended = 0 → s.xPendingReadyList = []
  delayed : ∀ u, s.delayed u = true → (∃ d, u ∈ s.queue.eventList d) ∨ u ∈ s.xPendingReadyList
  running : s.delayed s.pxCurrentTCB = true → (s.pc s.pxCurrentTCB).leaves = true
  nodup : ∀ d, (s.queue.eventList d).Nodup
  sorted : ∀ d, ByPriority uxPriority (s.queue.eventList d)

/-- The queue and the memory have changed. -/
def store (s : Kernel T) (q : Queue T) (m : Ram) (log : List QueueEvent) : Kernel T :=
  { s with queue := q, ram := m, log := log }

/-- The storage and the lock counts change, and who is on which list does not. -/
theorem Shape.store (h : Shape uxPriority s) {q : Queue T} {m : Ram} {log : List QueueEvent}
    (hq : q.Wf) (hlist : ∀ d, q.eventList d = s.queue.eventList d)
    (hlock : ∀ d, q.countLock d = queueUnlocked ↔ s.queue.countLock d = queueUnlocked) :
    Shape uxPriority (s.store q m log) := by
  refine ⟨hq, h.suspended, h.others, fun d => (hlock d).trans (h.locked d), ?_, h.pending, h.idle,
    ?_, h.running, ?_, ?_⟩
  · intro d u hu
    exact h.waits d u (hlist d ▸ hu)
  · intro u hu
    rcases h.delayed u hu with ⟨d, hd⟩ | hp
    · exact .inl ⟨d, (hlist d).symm ▸ hd⟩
    · exact .inr hp
  · intro d
    change (q.eventList d).Nodup
    rw [hlist]
    exact h.nodup d
  · intro d
    change ByPriority uxPriority (q.eventList d)
    rw [hlist]
    exact h.sorted d

theorem Shape.holdsNothing (h : Shape uxPriority s) (hs : s.uxSchedulerSuspended = 0) (u : T) :
    (s.pc u).holdsScheduler = false := by
  by_cases hu : u = s.pxCurrentTCB
  · subst hu
    have hsus := h.suspended
    rw [hs] at hsus
    by_contra hc
    simp [hc] at hsus
  · exact h.others u hu

/-- While nobody holds the scheduler, the running task gives way to a ready one; what a task that
waits does next may have changed. -/
theorem Shape.switch (h : Shape uxPriority s) (hs : s.uxSchedulerSuspended = 0) {next : T}
    (hn : s.delayed next = false) {pc : T → QueuePc}
    (hpc : ∀ u, (pc u).holdsScheduler = false ∧
      ∀ d, (s.pc u).waits d = true → (pc u).waits d = true) :
    Shape uxPriority { s with pxCurrentTCB := next, pc := pc } := by
  refine ⟨h.wf, ?_, fun u _ => (hpc u).1, fun d => ?_, fun d u hu => ?_, fun u hu => ?_, h.idle,
    h.delayed, fun hd => ?_, h.nodup, h.sorted⟩
  · rw [hs, if_neg (by simp [(hpc next).1])]
  · have h1 := QueuePc.unlocked (d := d) (h.holdsNothing hs s.pxCurrentTCB)
    rw [h.locked d, h1]
    simp [QueuePc.unlocked (d := d) (hpc next).1]
  · obtain ⟨h1, h2⟩ := h.waits d u hu
    exact ⟨(hpc u).2 d h1, h2⟩
  · obtain ⟨h1, d, hd⟩ := h.pending u hu
    exact ⟨h1, d, (hpc u).2 d hd⟩
  · exact absurd hd (by simp [hn])

/-- While nobody holds the scheduler, nobody is about to wait. -/
theorem Shape.not_place (h : Shape uxPriority s) (hs : s.uxSchedulerSuspended = 0) (u : T)
    (c : QueueCall) : s.pc u ≠ .place c := by
  intro hpc
  have hhold := h.holdsNothing hs u
  rw [hpc] at hhold
  cases hhold

theorem callOk_congr (h : s'.queue.storage = s.queue.storage) (c : QueueCall) :
    s'.CallOk c ↔ s.CallOk c := by
  simp only [Queue.storage, Prod.mk.injEq] at h
  obtain ⟨h1, h2, h3, h4⟩ := h
  cases c <;> simp only [CallOk, OverwriteOk, Queue.Apart, h1, h2, h3, h4]

/-- Tasks make the calls the queue is for. -/
def CallsOk (s : Kernel T) : Prop := ∀ u c, (s.pc u).call = some c → s.CallOk c

theorem CallsOk.same (h : CallsOk s) (hq : s'.queue.storage = s.queue.storage)
    (hpc : s'.pc = s.pc) : CallsOk s' := by
  intro u c hu
  rw [callOk_congr hq]
  exact h u c (hpc ▸ hu)

/-- `mustWait`: there is nothing to take. -/
theorem available_of_mustWait {c : QueueCall} (h : s.mustWait c = true) :
    s.queue.available c.side = 0 := by
  cases c with
  | xQueueGenericSend pvItem x =>
    have h : s.queue.uxMessagesWaiting = s.queue.uxLength := of_decide_eq_true h
    simp [Queue.available, QueueCall.side, h]
  | xQueueGenericReceive pvBuffer peeking =>
    have h : s.queue.uxMessagesWaiting = 0 := of_decide_eq_true h
    simp [Queue.available, QueueCall.side, h]

variable [DecidableEq T]

@[simp] theorem goto_self {p : QueuePc} : (s.goto p).pc s.pxCurrentTCB = p := if_pos rfl

@[simp] theorem goto_current {p : QueuePc} : (s.goto p).pc (s.goto p).pxCurrentTCB = p := if_pos rfl

theorem goto_of_ne {p : QueuePc} {u : T} (h : u ≠ s.pxCurrentTCB) : (s.goto p).pc u = s.pc u :=
  if_neg h

theorem heads_goto {p : QueuePc} {d : Side} (hp : (s.pc s.pxCurrentTCB).heads d = true → p.heads d = true)
    (u : T) (hu : (s.pc u).heads d = true) : ((s.goto p).pc u).heads d = true := by
  by_cases hne : u = s.pxCurrentTCB
  · subst hne
    rw [goto_self]
    exact hp hu
  · rwa [goto_of_ne hne]

/-- A section that does not serve its call finds nothing to take. -/
theorem available_of_section_none {c : QueueCall} (h : s.section_ c = none) :
    s.queue.available c.side = 0 := by
  cases c with
  | xQueueGenericSend pvItem x =>
    by_cases hroom : HasRoom s.queue x
    · simp [section_, hroom] at h
    · have hfull : ¬ s.queue.uxMessagesWaiting < s.queue.uxLength := fun hk => hroom (.inl hk)
      simp only [Queue.available, QueueCall.side]
      omega
  | xQueueGenericReceive pvBuffer peeking =>
    simp only [section_, ite_eq_right_iff, reduceCtorEq, imp_false] at h
    simp only [Queue.available, QueueCall.side]
    omega

theorem remove_nil {d : Side} (h : s.queue.eventList d = []) : s.xTaskRemoveFromEventList d = s := by
  simp [xTaskRemoveFromEventList, h]

/-- The first task becomes ready, at once or when the scheduler goes on. -/
theorem remove_cons {d : Side} {t : T} {ts : List T} (h : s.queue.eventList d = t :: ts) :
    s.xTaskRemoveFromEventList d =
      if s.uxSchedulerSuspended = 0 then
        { s with
          queue := s.queue.setEventList d ts
          delayed := fun u => if u = t then false else s.delayed u }
      else
        { s with
          queue := s.queue.setEventList d ts
          xPendingReadyList := s.xPendingReadyList ++ [t] } := by
  simp only [xTaskRemoveFromEventList, h, makeReady]

theorem remove_queue {d : Side} {t : T} {ts : List T} (h : s.queue.eventList d = t :: ts) :
    (s.xTaskRemoveFromEventList d).queue = s.queue.setEventList d ts := by
  rw [remove_cons h]
  split <;> rfl

@[simp] theorem remove_pc (d : Side) : (s.xTaskRemoveFromEventList d).pc = s.pc := by
  cases h : s.queue.eventList d with
  | nil => rw [remove_nil h]
  | cons t ts =>
    rw [remove_cons h]
    split <;> rfl

@[simp] theorem remove_current (d : Side) :
    (s.xTaskRemoveFromEventList d).pxCurrentTCB = s.pxCurrentTCB := by
  cases h : s.queue.eventList d with
  | nil => rw [remove_nil h]
  | cons t ts =>
    rw [remove_cons h]
    split <;> rfl

theorem remove_locks {e : Side} {q : Queue T} {m : Ram} {l : List QueueEvent} (f : Side) :
    ((s.store q m l).xTaskRemoveFromEventList e).queue.countLock f = q.countLock f ∧
      ((s.store q m l).xTaskRemoveFromEventList e).queue.available f = q.available f := by
  cases hl : (s.store q m l).queue.eventList e with
  | nil => rw [remove_nil hl]; exact ⟨rfl, rfl⟩
  | cons t ts =>
    rw [remove_queue hl, Queue.countLock_setEventList, Queue.available_setEventList]
    exact ⟨rfl, rfl⟩

theorem Shape.remove (h : Shape uxPriority s) (d : Side) :
    Shape uxPriority (s.xTaskRemoveFromEventList d) := by
  cases hl : s.queue.eventList d with
  | nil => rwa [remove_nil hl]
  | cons t ts =>
    have hsub : ∀ e u, u ∈ (s.queue.setEventList d ts).eventList e → u ∈ s.queue.eventList e := by
      intro e u hu
      rw [Queue.eventList_set] at hu
      split at hu
      · subst e
        rw [hl]
        exact List.mem_cons_of_mem t hu
      · exact hu
    have htd : t ∈ s.queue.eventList d := by simp [hl]
    obtain ⟨htw, htdel, htp⟩ := h.waits d t htd
    have hnot : ∀ e, t ∉ (s.queue.setEventList d ts).eventList e := by
      intro e hu
      have hte := (h.waits e t (hsub e t hu)).1
      have hside : e = d := by
        cases hp : s.pc t <;> simp_all [QueuePc.waits]
      subst e
      rw [Queue.eventList_set, if_pos rfl] at hu
      have hnd := h.nodup d
      rw [hl, List.nodup_cons] at hnd
      exact hnd.1 hu
    have hback : ∀ e u, u ≠ t → u ∈ s.queue.eventList e →
        u ∈ (s.queue.setEventList d ts).eventList e := by
      intro e u hne hu
      rw [Queue.eventList_set]
      split
      · subst e
        rw [hl] at hu
        exact (List.mem_cons.1 hu).resolve_left hne
      · exact hu
    have hnodup : ∀ e, ((s.queue.setEventList d ts).eventList e).Nodup := by
      intro e
      rw [Queue.eventList_set]
      split
      · have hnd := h.nodup d
        rw [hl] at hnd
        exact hnd.of_cons
      · exact h.nodup e
    have hsorted : ∀ e, ByPriority uxPriority ((s.queue.setEventList d ts).eventList e) := by
      intro e
      rw [Queue.eventList_set]
      split
      · have hso := h.sorted d
        rw [hl] at hso
        exact hso.of_cons
      · exact h.sorted e
    have hlock : ∀ e, (s.queue.setEventList d ts).countLock e = queueUnlocked ↔
        (s.pc s.pxCurrentTCB).locked e = false := by
      intro e
      rw [Queue.countLock_setEventList]
      exact h.locked e
    rw [remove_cons hl]
    split
    · rename_i hsus
      refine ⟨Queue.wf_setEventList d ts h.wf, h.suspended, h.others, hlock, ?_, ?_, h.idle, ?_,
        ?_, hnodup, hsorted⟩
      · intro e u hu
        obtain ⟨h1, h2, h3⟩ := h.waits e u (hsub e u hu)
        have hne : u ≠ t := fun heq => hnot e (heq ▸ hu)
        exact ⟨h1, by simp [hne, h2], h3⟩
      · intro u hu
        simp [h.idle hsus] at hu
      · intro u hu
        have hne : u ≠ t := fun heq => by simp [heq] at hu
        simp only [hne, if_false] at hu
        rcases h.delayed u hu with ⟨e, he⟩ | hp
        · exact .inl ⟨e, hback e u hne he⟩
        · exact .inr hp
      · intro hu
        have hne : s.pxCurrentTCB ≠ t := fun heq => by simp [heq] at hu
        simp only [hne, if_false] at hu
        exact h.running hu
    · rename_i hsus
      refine ⟨Queue.wf_setEventList d ts h.wf, h.suspended, h.others, hlock, ?_, ?_,
        fun h0 => absurd h0 hsus, ?_, h.running, hnodup, hsorted⟩
      · intro e u hu
        obtain ⟨h1, h2, h3⟩ := h.waits e u (hsub e u hu)
        have hne : u ≠ t := fun heq => hnot e (heq ▸ hu)
        exact ⟨h1, h2, by simp [h3, hne]⟩
      · intro u hu
        rcases List.mem_append.1 hu with hu | hu
        · exact h.pending u hu
        · obtain rfl := List.mem_singleton.1 hu
          exact ⟨htdel, d, htw⟩
      · intro u hu
        by_cases hne : u = t
        · subst hne
          exact .inr (by simp)
        rcases h.delayed u hu with ⟨e, he⟩ | hp
        · exact .inl ⟨e, hback e u hne he⟩
        · exact .inr (List.mem_append_left _ hp)

/-- The running task goes on to `p`, with its locks and its hold on the scheduler. -/
theorem Shape.advance (h : Shape uxPriority s) {p : QueuePc} {q : Queue T} {n : Nat} (hq : q.Wf)
    (hlist : ∀ d, q.eventList d = s.queue.eventList d)
    (hsus : n = if p.holdsScheduler then 1 else 0) (hidle : n = 0 → s.xPendingReadyList = [])
    (hlock : ∀ d, q.countLock d = queueUnlocked ↔ p.locked d = false)
    (hw : s.delayed s.pxCurrentTCB = true →
      p.leaves = true ∧ ∀ d, (s.pc s.pxCurrentTCB).waits d = true → p.waits d = true) :
    Shape uxPriority { s.goto p with queue := q, uxSchedulerSuspended := n } := by
  have hwaits : ∀ d u, s.delayed u = true → (s.pc u).waits d = true →
      ((s.goto p).pc u).waits d = true := by
    intro d u hu hd
    by_cases hne : u = s.pxCurrentTCB
    · subst hne
      rw [goto_self]
      exact (hw hu).2 d hd
    · rwa [goto_of_ne hne]
  refine ⟨hq, ?_, ?_, ?_, ?_, ?_, hidle, ?_, ?_, ?_, ?_⟩
  · change n = if QueuePc.holdsScheduler ((s.goto p).pc s.pxCurrentTCB) then 1 else 0
    rw [goto_self]
    exact hsus
  · intro u hu
    have hne : (s.goto p).pc u = s.pc u := goto_of_ne hu
    change QueuePc.holdsScheduler ((s.goto p).pc u) = false
    rw [hne]
    exact h.others u hu
  · intro d
    change _ ↔ QueuePc.locked d ((s.goto p).pc s.pxCurrentTCB) = false
    rw [goto_self]
    exact hlock d
  · intro d u hu
    change u ∈ q.eventList d at hu
    rw [hlist] at hu
    obtain ⟨h1, h2, h3⟩ := h.waits d u hu
    exact ⟨hwaits d u h2 h1, h2, h3⟩
  · intro u hu
    obtain ⟨h1, d, hd⟩ := h.pending u hu
    exact ⟨h1, d, hwaits d u h1 hd⟩
  · intro u hu
    rcases h.delayed u hu with ⟨d, hd⟩ | hp
    · exact .inl ⟨d, (hlist d).symm ▸ hd⟩
    · exact .inr hp
  · intro hu
    change QueuePc.leaves ((s.goto p).pc s.pxCurrentTCB) = true
    rw [goto_self]
    exact (hw hu).1
  · intro d
    change (q.eventList d).Nodup
    rw [hlist]
    exact h.nodup d
  · intro d
    change ByPriority uxPriority (q.eventList d)
    rw [hlist]
    exact h.sorted d

theorem Shape.wakeWaiting (d : Side) : ∀ (n : Nat) {s : Kernel T}, Shape uxPriority s →
    Shape uxPriority (Kernel.wakeWaiting d n s)
  | 0, _, h => h
  | n + 1, s, h => by
    rw [Kernel.wakeWaiting]
    split
    · exact h
    · exact Shape.wakeWaiting d n (h.remove d)

theorem mem_eventList_expire {d : Side} {t u : T} (hnd : ∀ d, (s.queue.eventList d).Nodup) :
    u ∈ (s.expire t).queue.eventList d ↔ u ≠ t ∧ u ∈ s.queue.eventList d := by
  cases d
  · exact (hnd .send).mem_erase_iff
  · exact (hnd .receive).mem_erase_iff

/-- A task is woken by the tick. -/
theorem Shape.expire (h : Shape uxPriority s) {t : T} (hs : s.uxSchedulerSuspended = 0) :
    Shape uxPriority (s.expire t) := by
  have hmem := fun d u => mem_eventList_expire (d := d) (t := t) (u := u) h.nodup
  have hsub : ∀ d, (s.expire t).queue.eventList d = (s.queue.eventList d).erase t := by
    intro d
    cases d <;> rfl
  refine ⟨⟨h.wf.pos, h.wf.tail, h.wf.waiting, h.wf.readLt, h.wf.read, h.wf.write⟩, h.suspended,
    h.others, ?_, ?_, ?_, h.idle, ?_, ?_, ?_, ?_⟩
  · intro d
    have hlock : (s.expire t).queue.countLock d = s.queue.countLock d := by cases d <;> rfl
    rw [hlock]
    exact h.locked d
  · intro d u hu
    obtain ⟨hne, hu⟩ := (hmem d u).1 hu
    obtain ⟨h1, h2, h3⟩ := h.waits d u hu
    exact ⟨h1, by simp [Kernel.expire, makeReady, hne, h2], h3⟩
  · intro u hu
    change u ∈ s.xPendingReadyList at hu
    simp [h.idle hs] at hu
  · intro u hu
    have hne : u ≠ t := fun heq => by simp [Kernel.expire, makeReady, heq] at hu
    simp only [Kernel.expire, makeReady, hne, if_false] at hu
    rcases h.delayed u hu with ⟨d, hd⟩ | hp
    · exact .inl ⟨d, (hmem d u).2 ⟨hne, hd⟩⟩
    · exact .inr hp
  · intro hu
    refine h.running ?_
    by_contra hne
    simp_all [Kernel.expire, makeReady]
  · intro d
    rw [hsub]
    exact (h.nodup d).erase t
  · intro d
    rw [hsub]
    exact (h.sorted d).sublist List.erase_sublist

/-- `vTaskPlaceOnEventList`, by the task that holds the scheduler. -/
theorem Shape.place (h : Shape uxPriority s) {c : QueueCall} (hpc : s.pc s.pxCurrentTCB = .place c) :
    Shape uxPriority ((s.vTaskPlaceOnEventList uxPriority c.side).goto (.unlockTx c .wait)) := by
  have hout : ∀ d, s.pxCurrentTCB ∉ s.queue.eventList d := by
    intro d hu
    have := (h.waits d _ hu).1
    simp [hpc, QueuePc.waits] at this
  have hpend : s.pxCurrentTCB ∉ s.xPendingReadyList := by
    intro hu
    obtain ⟨-, d, hd⟩ := h.pending _ hu
    simp [hpc, QueuePc.waits] at hd
  have hsus := h.suspended
  have hlock := h.locked
  rw [hpc] at hsus
  simp only [hpc] at hlock
  refine ⟨Queue.wf_setEventList _ _ h.wf, ?_, ?_, ?_, ?_, ?_, h.idle, ?_, ?_, ?_, ?_⟩
  · simpa [goto, vTaskPlaceOnEventList, QueuePc.holdsScheduler] using hsus
  · intro u hu
    have hne : u ≠ s.pxCurrentTCB := hu
    simpa [goto, vTaskPlaceOnEventList, hne] using h.others u hne
  · intro d
    have hd := hlock d
    simpa [goto, vTaskPlaceOnEventList, QueuePc.locked] using hd
  · intro d u hu
    simp only [goto, vTaskPlaceOnEventList, Queue.eventList_set] at hu ⊢
    by_cases hne : u = s.pxCurrentTCB
    · subst hne
      have hd : d = c.side := by
        by_contra hd
        rw [if_neg hd] at hu
        exact hout d hu
      simp [hd, QueuePc.waits, hpend]
    · have hold : u ∈ s.queue.eventList d := by
        split at hu
        · subst d
          exact (mem_insertByPriority.1 hu).resolve_left hne
        · exact hu
      simpa [hne] using h.waits d u hold
  · intro u hu
    have hne : u ≠ s.pxCurrentTCB := fun heq => hpend (heq ▸ hu)
    simpa [goto, vTaskPlaceOnEventList, hne] using h.pending u hu
  · intro u hu
    simp only [goto, vTaskPlaceOnEventList, Queue.eventList_set] at hu ⊢
    by_cases hne : u = s.pxCurrentTCB
    · exact .inl ⟨c.side, by simp [mem_insertByPriority, hne]⟩
    · rw [if_neg hne] at hu
      rcases h.delayed u hu with ⟨d, hd⟩ | hp
      · refine .inl ⟨d, ?_⟩
        split
        · subst d
          exact mem_insertByPriority.2 (.inr hd)
        · exact hd
      · exact .inr hp
  · intro _
    simp [goto, vTaskPlaceOnEventList, QueuePc.leaves]
  · intro d
    simp only [goto, vTaskPlaceOnEventList, Queue.eventList_set]
    split
    · exact nodup_insertByPriority (h.nodup _) (hout _)
    · exact h.nodup d
  · intro d
    simp only [goto, vTaskPlaceOnEventList, Queue.eventList_set]
    split
    · exact byPriority_insert (h.sorted _)
    · exact h.sorted d

theorem resumeAll_eq (h : s.uxSchedulerSuspended = 1) :
    s.xTaskResumeAll =
      { s with
        uxSchedulerSuspended := 0
        delayed := fun u => if u ∈ s.xPendingReadyList then false else s.delayed u
        xPendingReadyList := [] } := by
  simp [xTaskResumeAll, h]

/-- The pending tasks become ready. -/
theorem Shape.resume (h : Shape uxPriority s) {p : QueuePc} (hsus : s.uxSchedulerSuspended = 1)
    (hun : ∀ d, (s.pc s.pxCurrentTCB).locked d = false) (hp : p.holdsScheduler = false)
    (hw : s.delayed s.pxCurrentTCB = true →
      p.leaves = true ∧ ∀ d, (s.pc s.pxCurrentTCB).waits d = true → p.waits d = true) :
    Shape uxPriority (s.xTaskResumeAll.goto p) := by
  have hpl : ∀ d, p.locked d = false := by
    intro d
    cases p <;> simp_all [QueuePc.holdsScheduler, QueuePc.locked]
  rw [resumeAll_eq hsus]
  refine ⟨h.wf, ?_, ?_, ?_, ?_, ?_, fun _ => rfl, ?_, ?_, h.nodup, h.sorted⟩
  · simp [goto, hp]
  · intro u hu
    have hne : u ≠ s.pxCurrentTCB := hu
    simpa [goto, hne] using h.others u hne
  · intro d
    have hd := h.locked d
    simpa [goto, hpl d, hun d] using hd
  · intro d u hu
    obtain ⟨h1, h2, h3⟩ := h.waits d u hu
    by_cases hne : u = s.pxCurrentTCB
    · subst hne
      simpa [goto, h3, h2] using (hw h2).2 d h1
    · simpa [goto, hne, h3, h2] using h1
  · intro u hu
    cases hu
  · intro u hu
    simp only [goto] at hu ⊢
    split at hu
    · exact absurd hu (by decide)
    · rcases h.delayed u hu with hd | hp
      · exact .inl hd
      · contradiction
  · intro hu
    simp only [goto] at hu ⊢
    split at hu
    · exact absurd hu (by decide)
    · simpa using (hw hu).1

/-! ## The storage stays where it is -/

@[simp] theorem storage_remove (d : Side) :
    (s.xTaskRemoveFromEventList d).queue.storage = s.queue.storage := by
  cases hl : s.queue.eventList d with
  | nil => rw [remove_nil hl]
  | cons t ts => rw [remove_queue hl, Queue.storage_setEventList]

@[simp] theorem storage_wakeWaiting (d : Side) : ∀ (n : Nat) (s : Kernel T),
    (wakeWaiting d n s).queue.storage = s.queue.storage
  | 0, _ => rfl
  | n + 1, s => by
    rw [wakeWaiting]
    split
    · rfl
    · rw [storage_wakeWaiting d n, storage_remove]

theorem storage_section {c : QueueCall} (h : s.section_ c = some s') :
    s'.queue.storage = s.queue.storage := by
  cases c with
  | xQueueGenericSend pvItem x =>
    simp only [section_] at h
    split at h
    · cases h
      simp [copyTo]
    · cases h
  | xQueueGenericReceive pvBuffer peeking =>
    simp only [section_] at h
    split at h
    · cases h
      split <;> simp [take, peek]
    · cases h

theorem queue_resumeAll : s.xTaskResumeAll.queue = s.queue := by
  unfold xTaskResumeAll
  dsimp only
  split <;> rfl

theorem storage_taskStep {expired : Bool} {next : T}
    (h : s.taskStep uxPriority expired next = some s') : s'.queue.storage = s.queue.storage := by
  cases hpc : s.pc s.pxCurrentTCB with
  | outside | suspended => simp [taskStep, hpc] at h
  | section_ c block =>
    simp only [taskStep, hpc] at h
    cases hsec : s.section_ c with
    | none =>
      simp only [hsec, Option.some.injEq] at h
      subst h
      rfl
    | some s1 =>
      simp only [hsec, Option.some.injEq] at h
      subst h
      exact (storage_section hsec :)
  | suspendAll c | checkForTimeOut c | isFull c =>
    simp only [taskStep, hpc, Option.some.injEq] at h
    subst h
    rfl
  | lock c =>
    simp only [taskStep, hpc, Option.some.injEq] at h
    subst h
    unfold prvLockQueue goto
    dsimp only
    split <;> split <;> rfl
  | place c =>
    simp only [taskStep, hpc, Option.some.injEq] at h
    subst h
    exact Queue.storage_setEventList _ _
  | unlockTx c n | unlockRx c n =>
    simp only [taskStep, hpc, Option.some.injEq] at h
    subst h
    simp [prvUnlockQueue, goto]
  | resumeAll c n =>
    cases n <;>
      simp only [taskStep, hpc, Option.some.injEq] at h <;>
      subst h <;>
      exact congrArg Queue.storage queue_resumeAll
  | yield c =>
    simp only [taskStep, hpc] at h
    split at h
    · cases h
    · cases h
      rfl

theorem storage_step {l : KernelLabel T} (h : step s uxPriority l = some s') :
    s'.queue.storage = s.queue.storage := by
  cases l with
  | run expired next => exact storage_taskStep h
  | resume =>
    simp only [step, Option.ite_none_right_eq_some, Option.some.injEq] at h
    obtain ⟨-, rfl⟩ := h
    exact congrArg Queue.storage queue_resumeAll
  | sendFromISR pvItem x =>
    simp only [step, Option.ite_none_right_eq_some, Option.some.injEq] at h
    obtain ⟨-, rfl⟩ := h
    unfold xQueueGenericSendFromISR
    dsimp only
    split
    · split
      · simp [copyTo]
      · exact Queue.storage_copyTo _ _ _
    · rfl
  | receiveFromISR pvBuffer =>
    simp only [step, Option.ite_none_right_eq_some, Option.some.injEq] at h
    obtain ⟨-, rfl⟩ := h
    unfold xQueueReceiveFromISR
    dsimp only
    split
    · split
      · simp [take]
      · exact Queue.storage_take _ _
    · rfl
  | peekFromISR pvBuffer =>
    simp only [step, Option.ite_none_right_eq_some, Option.some.injEq] at h
    obtain ⟨-, rfl⟩ := h
    unfold xQueuePeekFromISR
    split
    · exact Queue.storage_peek _ _
    · rfl
  | call c block | suspend | switch next | expire t | other a bs =>
    simp only [step, Option.ite_none_right_eq_some, Option.some.injEq] at h
    obtain ⟨-, rfl⟩ := h
    rfl

theorem CallsOk.goto (h : CallsOk s) {p : QueuePc}
    (hp : ∀ c, p.call = some c → s.CallOk c) (hq : s'.queue.storage = s.queue.storage)
    (hpc : s'.pc = (s.goto p).pc) : CallsOk s' := by
  intro u c hu
  rw [callOk_congr hq]
  rw [hpc] at hu
  by_cases hne : u = s.pxCurrentTCB
  · subst hne
    rw [goto_self] at hu
    exact hp c hu
  · rw [goto_of_ne hne] at hu
    exact h u c hu

@[simp] theorem resumeAll_pc : s.xTaskResumeAll.pc = s.pc := by
  unfold xTaskResumeAll
  dsimp only
  split <;> rfl

@[simp] theorem resumeAll_current : s.xTaskResumeAll.pxCurrentTCB = s.pxCurrentTCB := by
  unfold xTaskResumeAll
  dsimp only
  split <;> rfl

@[simp] theorem wakeWaiting_pc (d : Side) : ∀ (n : Nat) (s : Kernel T),
    (wakeWaiting d n s).pc = s.pc ∧ (wakeWaiting d n s).pxCurrentTCB = s.pxCurrentTCB
  | 0, _ => ⟨rfl, rfl⟩
  | n + 1, s => by
    rw [wakeWaiting]
    split
    · exact ⟨rfl, rfl⟩
    · obtain ⟨h1, h2⟩ := wakeWaiting_pc d n (s.xTaskRemoveFromEventList d)
      exact ⟨h1.trans (remove_pc d), h2.trans (remove_current d)⟩

theorem section_pc {c : QueueCall} (h : s.section_ c = some s') :
    s'.pc = s.pc ∧ s'.pxCurrentTCB = s.pxCurrentTCB := by
  cases c with
  | xQueueGenericSend pvItem x =>
    simp only [section_, Option.ite_none_right_eq_some, Option.some.injEq] at h
    obtain ⟨-, rfl⟩ := h
    exact ⟨remove_pc _, remove_current _⟩
  | xQueueGenericReceive pvBuffer peeking =>
    simp only [section_, Option.ite_none_right_eq_some, Option.some.injEq] at h
    obtain ⟨-, rfl⟩ := h
    cases peeking <;> exact ⟨remove_pc _, remove_current _⟩

/-- What the running task does is in its call. -/
theorem taskStep_pc {expired : Bool} {next : T}
    (h : s.taskStep uxPriority expired next = some s') :
    ∃ p, s'.pc = (s.goto p).pc ∧ (p.call = none ∨ p.call = (s.pc s.pxCurrentTCB).call) := by
  cases hpc : s.pc s.pxCurrentTCB with
  | outside | suspended => simp [taskStep, hpc] at h
  | section_ c block =>
    simp only [taskStep, hpc] at h
    cases hsec : s.section_ c with
    | none =>
      simp only [hsec, Option.some.injEq] at h
      subst h
      exact ⟨_, rfl, by cases block <;> simp [QueuePc.call]⟩
    | some s1 =>
      simp only [hsec, Option.some.injEq] at h
      subst h
      obtain ⟨h1, h2⟩ := section_pc hsec
      exact ⟨.outside, by simp only [goto, h1, h2], .inl rfl⟩
  | suspendAll c | lock c | place c =>
    simp only [taskStep, hpc, Option.some.injEq] at h
    subst h
    exact ⟨_, rfl, .inr rfl⟩
  | checkForTimeOut c =>
    simp only [taskStep, hpc, Option.some.injEq] at h
    subst h
    exact ⟨_, rfl, .inr (by cases expired <;> rfl)⟩
  | isFull c =>
    simp only [taskStep, hpc, Option.some.injEq] at h
    subst h
    exact ⟨_, rfl, .inr (by cases s.mustWait c <;> rfl)⟩
  | unlockTx c n =>
    simp only [taskStep, hpc, Option.some.injEq] at h
    subst h
    exact ⟨.unlockRx c n, by simp [goto, prvUnlockQueue], .inr rfl⟩
  | unlockRx c n =>
    simp only [taskStep, hpc, Option.some.injEq] at h
    subst h
    exact ⟨.resumeAll c n, by simp [goto, prvUnlockQueue], .inr rfl⟩
  | resumeAll c n =>
    cases n <;> simp only [taskStep, hpc, Option.some.injEq] at h <;> subst h
    · exact ⟨.yield c, by simp [goto], .inr rfl⟩
    · exact ⟨.section_ c true, by simp [goto], .inr rfl⟩
    · exact ⟨.outside, by simp [goto], .inl rfl⟩
  | yield c =>
    simp only [taskStep, hpc] at h
    split at h
    · cases h
    · cases h
      exact ⟨.section_ c true, rfl, .inr rfl⟩

theorem CallsOk.step (h : CallsOk s) {l : KernelLabel T} (hs : step s uxPriority l = some s') :
    CallsOk s' := by
  have hst := storage_step hs
  cases l with
  | run expired next =>
    obtain ⟨p, hpc, hp⟩ := taskStep_pc hs
    refine h.goto (fun c hc => ?_) hst hpc
    rcases hp with hp | hp
    · rw [hp] at hc
      cases hc
    · exact h _ c (hp ▸ hc)
  | call c block =>
    simp only [Kernel.step, Option.ite_none_right_eq_some, Option.some.injEq] at hs
    obtain ⟨⟨-, hok⟩, rfl⟩ := hs
    refine h.goto (p := .section_ c block) (fun c' hc' => ?_) hst rfl
    cases hc'
    exact hok
  | suspend =>
    simp only [Kernel.step, Option.ite_none_right_eq_some, Option.some.injEq] at hs
    obtain ⟨-, rfl⟩ := hs
    exact h.goto (p := .suspended) (fun c hc => by cases hc) hst rfl
  | resume =>
    simp only [Kernel.step, Option.ite_none_right_eq_some, Option.some.injEq] at hs
    obtain ⟨-, rfl⟩ := hs
    exact h.goto (p := .outside) (fun c hc => by cases hc) hst (by simp [Kernel.goto])
  | sendFromISR pvItem x =>
    simp only [Kernel.step, Option.ite_none_right_eq_some, Option.some.injEq] at hs
    obtain ⟨-, rfl⟩ := hs
    refine h.same hst ?_
    unfold xQueueGenericSendFromISR
    dsimp only
    split
    · split
      · exact remove_pc _
      · rfl
    · rfl
  | receiveFromISR pvBuffer =>
    simp only [Kernel.step, Option.ite_none_right_eq_some, Option.some.injEq] at hs
    obtain ⟨-, rfl⟩ := hs
    refine h.same hst ?_
    unfold xQueueReceiveFromISR
    dsimp only
    split
    · split
      · exact remove_pc _
      · rfl
    · rfl
  | peekFromISR pvBuffer =>
    simp only [Kernel.step, Option.ite_none_right_eq_some, Option.some.injEq] at hs
    obtain ⟨-, rfl⟩ := hs
    refine h.same hst ?_
    unfold xQueuePeekFromISR
    split <;> rfl
  | switch next | expire t | other a bs =>
    simp only [Kernel.step, Option.ite_none_right_eq_some, Option.some.injEq] at hs
    obtain ⟨-, rfl⟩ := hs
    exact h.same hst rfl

/-- What waking the tasks of one side leaves alone. -/
theorem wakeWaiting_frame (d : Side) : ∀ (n : Nat) (s : Kernel T),
    (wakeWaiting d n s).pc = s.pc ∧ (wakeWaiting d n s).pxCurrentTCB = s.pxCurrentTCB ∧
      (wakeWaiting d n s).uxSchedulerSuspended = s.uxSchedulerSuspended ∧
      (∀ e, (wakeWaiting d n s).queue.countLock e = s.queue.countLock e) ∧
      (∀ e, (wakeWaiting d n s).queue.available e = s.queue.available e) ∧
      (∀ e, e ≠ d → (wakeWaiting d n s).queue.eventList e = s.queue.eventList e)
  | 0, _ => ⟨rfl, rfl, rfl, fun _ => rfl, fun _ => rfl, fun _ _ => rfl⟩
  | n + 1, s => by
    rw [wakeWaiting]
    cases hl : s.queue.eventList d with
    | nil => exact ⟨rfl, rfl, rfl, fun _ => rfl, fun _ => rfl, fun _ _ => rfl⟩
    | cons t ts =>
      obtain ⟨h1, h2, h3, h4, h5, h6⟩ := wakeWaiting_frame d n (s.xTaskRemoveFromEventList d)
      have hq := remove_queue hl
      have hsus : (s.xTaskRemoveFromEventList d).uxSchedulerSuspended = s.uxSchedulerSuspended := by
        rw [remove_cons hl]
        split <;> rfl
      refine ⟨h1.trans (remove_pc d), h2.trans (remove_current d), h3.trans hsus, fun e => ?_,
        fun e => ?_, fun e he => ?_⟩
      · rw [h4, hq, Queue.countLock_setEventList]
      · rw [h5, hq, Queue.available_setEventList]
      · rw [h6 e he, hq, Queue.eventList_set, if_neg he]

theorem delayed_of_wakeWaiting (d : Side) {u : T} : ∀ (n : Nat) {s : Kernel T},
    (wakeWaiting d n s).delayed u = true → s.delayed u = true
  | 0, _, h => h
  | n + 1, s, h => by
    rw [wakeWaiting] at h
    cases hl : s.queue.eventList d with
    | nil => simpa [hl] using h
    | cons t ts =>
      simp only [hl] at h
      have h := delayed_of_wakeWaiting d n h
      rw [remove_cons hl] at h
      split at h
      · simp only at h
        split at h
        · exact absurd h (by decide)
        · exact h
      · exact h

/-- A critical section of `prvUnlockQueue`, and what follows it. -/
theorem Shape.unlock (h : Shape uxPriority s) {d : Side} {p : QueuePc}
    (hold : (s.pc s.pxCurrentTCB).holdsScheduler = true) (hp : p.holdsScheduler = true)
    (hlock : ∀ e, p.locked e = (decide (e ≠ d) && (s.pc s.pxCurrentTCB).locked e))
    (hw : s.delayed s.pxCurrentTCB = true →
      p.leaves = true ∧ ∀ e, (s.pc s.pxCurrentTCB).waits e = true → p.waits e = true) :
    Shape uxPriority ((s.prvUnlockQueue d).goto p) := by
  have hwake := h.wakeWaiting d (s.queue.countLock d).toNat
  obtain ⟨h1, h2, h3, h4, -, -⟩ := wakeWaiting_frame d (s.queue.countLock d).toNat s
  have hsus := h.suspended
  rw [if_pos hold] at hsus
  refine hwake.advance (p := p) (q := (s.prvUnlockQueue d).queue)
    (Queue.wf_setLock d hwake.wf queueUnlocked) (fun e => Queue.eventList_setLock _ d e _)
    ?_ hwake.idle ?_ ?_
  · rw [if_pos hp]
    exact h3.trans hsus
  · intro e
    rw [prvUnlockQueue, Queue.countLock_setLock, hlock]
    split
    · simp_all
    · rename_i he
      rw [h4, h.locked]
      simp [he]
  · rw [h1, h2]
    intro hd
    exact hw (delayed_of_wakeWaiting d _ hd)

end Kernel

end HmBoard
