import HmBoard.Rtos.EventLists
import Mathlib.Data.Fintype.Basic

/-!
# No wake-up is lost

While tasks wait on one side of the queue, there is no more for them to take than tasks are on
their way to take it (`onWay`), or than the lock count has noted for the task that unlocks the
queue (`posted`). `Kernel.Inv` holds in every state; a step that would take a lock count to
`queueUNLOCKED`, the 255th interrupt while one task has the queue locked, is left out (`Wraps`).
-/

namespace HmBoard

open Lib

variable {T : Type} [DecidableEq T]

/-- What has been noted for side `d` while the queue is locked. -/
def Queue.posted (q : Queue T) (d : Side) : Nat :=
  if q.countLock d = queueUnlocked then 0 else (q.countLock d).toNat

namespace Kernel

variable [Fintype T] {uxPriority : T → Nat} {s s' : Kernel T} {d e : Side}

/-- The tasks of side `d` that are awake and will look at the queue next. -/
def onWay (s : Kernel T) (d : Side) : Finset T :=
  Finset.univ.filter fun u => u ∉ s.queue.eventList d ∧ (s.pc u).heads d = true

def Served (s : Kernel T) (d : Side) : Prop :=
  s.queue.eventList d ≠ [] → s.queue.available d ≤ (s.onWay d).card + s.queue.posted d

structure Inv (uxPriority : T → Nat) (s : Kernel T) : Prop where
  shape : Shape uxPriority s
  served : ∀ d, s.Served d
  placing : ∀ c, s.pc s.pxCurrentTCB = .place c →
    s.queue.available c.side ≤ s.queue.posted c.side

theorem mem_onWay {u : T} :
    u ∈ s.onWay d ↔ u ∉ s.queue.eventList d ∧ (s.pc u).heads d = true := by
  simp [onWay]

theorem onWay_congr (hl : s'.queue.eventList d = s.queue.eventList d) (hp : s'.pc = s.pc) :
    s'.onWay d = s.onWay d := by
  rw [onWay, onWay, hl, hp]

/-- Who leaves the way is the running task at most. -/
theorem card_onWay_goto_le {r : Kernel T} (hl : r.queue.eventList d = s.queue.eventList d) {t : T}
    (hp : ∀ u, u ≠ t → r.pc u = s.pc u) : (s.onWay d).card ≤ (r.onWay d).card + 1 := by
  have hsub : s.onWay d ⊆ insert t (r.onWay d) := by
    intro u hu
    rw [mem_onWay] at hu
    by_cases hne : u = t
    · exact hne ▸ Finset.mem_insert_self _ _
    · refine Finset.mem_insert_of_mem (mem_onWay.2 ?_)
      rw [hl, hp u hne]
      exact hu
  exact (Finset.card_le_card hsub).trans (Finset.card_insert_le _ _)

/-- Nobody leaves the way if the running task does not. -/
theorem card_onWay_mono {r : Kernel T} (hl : ∀ u, u ∈ r.queue.eventList d → u ∈ s.queue.eventList d)
    (hp : ∀ u, (s.pc u).heads d = true → (r.pc u).heads d = true) :
    (s.onWay d).card ≤ (r.onWay d).card := by
  refine Finset.card_le_card fun u hu => ?_
  obtain ⟨h1, h2⟩ := mem_onWay.1 hu
  exact mem_onWay.2 ⟨fun h => h1 (hl u h), hp u h2⟩

/-- A task woken is one more on its way. -/
theorem card_onWay_remove (h : Shape uxPriority s) {t : T} {ts : List T}
    (hl : s.queue.eventList d = t :: ts) :
    (s.onWay d).card + 1 ≤ ((s.xTaskRemoveFromEventList d).onWay d).card := by
  have hlist : (s.xTaskRemoveFromEventList d).queue.eventList d = ts := by
    rw [remove_queue hl, Queue.eventList_set, if_pos rfl]
  have hnd := h.nodup d
  rw [hl, List.nodup_cons] at hnd
  have ht : t ∉ s.onWay d := fun hm => (mem_onWay.1 hm).1 (by simp [hl])
  rw [← Finset.card_insert_of_notMem ht]
  refine Finset.card_le_card fun u hu => ?_
  rw [mem_onWay, hlist, remove_pc]
  rcases Finset.mem_insert.1 hu with rfl | hu
  · exact ⟨hnd.1, QueuePc.heads_of_waits (h.waits d u (by simp [hl])).1⟩
  · obtain ⟨h1, h2⟩ := mem_onWay.1 hu
    rw [hl, List.mem_cons, not_or] at h1
    exact ⟨h1.2, h2⟩

theorem onWay_remove_other (he : e ≠ d) : (s.xTaskRemoveFromEventList d).onWay e = s.onWay e := by
  cases hl : s.queue.eventList d with
  | nil => rw [remove_nil hl]
  | cons t ts =>
    refine onWay_congr ?_ (remove_pc d)
    rw [remove_queue hl, Queue.eventList_set, if_neg he]

/-- While anyone still waits, as many have been woken as there were to be. -/
theorem card_onWay_wakeWaiting : ∀ (n : Nat) {s : Kernel T}, Shape uxPriority s →
    (wakeWaiting d n s).queue.eventList d ≠ [] →
      s.queue.eventList d ≠ [] ∧ (s.onWay d).card + n ≤ ((wakeWaiting d n s).onWay d).card
  | 0, _, _, h => ⟨h, Nat.le_refl _⟩
  | n + 1, s, hs, h => by
    rw [wakeWaiting] at h ⊢
    cases hl : s.queue.eventList d with
    | nil => simp [hl] at h
    | cons t ts =>
      simp only [hl] at h ⊢
      have h1 := card_onWay_remove hs hl
      have h2 := (card_onWay_wakeWaiting n (hs.remove d) h).2
      exact ⟨List.cons_ne_nil t ts, by omega⟩

/-- `a` becomes one more, and one of those that wait for it is woken. -/
theorem served_remove (h : Shape uxPriority s) {a b : Nat}
    (hs : s.queue.eventList d ≠ [] → a ≤ (s.onWay d).card + b + 1)
    (hne : (s.xTaskRemoveFromEventList d).queue.eventList d ≠ []) :
    a ≤ ((s.xTaskRemoveFromEventList d).onWay d).card + b := by
  cases hl : s.queue.eventList d with
  | nil =>
    rw [remove_nil hl] at hne
    exact absurd hl hne
  | cons t ts =>
    have h1 := card_onWay_remove h hl
    have h2 := hs (by simp [hl])
    omega

/-! ## One step -/

/-- A step that takes nothing away from those on their way, and brings nothing. -/
theorem Inv.of_advance (h : Inv uxPriority s) (hs : Shape uxPriority s')
    (hav : ∀ f, s'.queue.available f ≤ s.queue.available f)
    (hl : ∀ f u, u ∈ s'.queue.eventList f → u ∈ s.queue.eventList f)
    (hpost : ∀ f, s.queue.posted f ≤ s'.queue.posted f)
    (hp : ∀ f u, (s.pc u).heads f = true → (s'.pc u).heads f = true)
    (hplace : ∀ c, s'.pc s'.pxCurrentTCB = .place c →
      s'.queue.available c.side ≤ s'.queue.posted c.side) : Inv uxPriority s' := by
  refine ⟨hs, fun f hne => ?_, hplace⟩
  have hold : s.queue.eventList f ≠ [] := by
    obtain ⟨u, hu⟩ := List.exists_mem_of_ne_nil _ hne
    exact List.ne_nil_of_mem (hl f u hu)
  have h1 := h.served f hold
  have h2 := card_onWay_mono (hl f) (hp f)
  have h3 := hav f
  have h4 := hpost f
  omega

/-- The storage changes, and one task of side `e` is woken. -/
theorem served_deliver (h : Inv uxPriority s) {q : Queue T} {m : Ram} {l : List QueueEvent}
    (hq : q.Wf) (hframe : Queue.SameFrame s.queue q) {f : Side} {k : Nat}
    (hav : q.available f ≤ s.queue.available f + (if f = e then 1 else 0) - k)
    (hne : ((s.store q m l).xTaskRemoveFromEventList e).queue.eventList f ≠ []) :
    q.available f ≤ (((s.store q m l).xTaskRemoveFromEventList e).onWay f).card +
      s.queue.posted f - k := by
  have hs : Shape uxPriority (s.store q m l) :=
    h.shape.store hq hframe.eventList fun d => by rw [hframe.countLock]
  have hcard : ((s.store q m l).onWay f).card = (s.onWay f).card :=
    congrArg Finset.card (onWay_congr (s := s) (hframe.eventList f) rfl)
  have hserved : q.eventList f ≠ [] → s.queue.available f ≤ (s.onWay f).card + s.queue.posted f :=
    fun hold => h.served f (hframe.eventList f ▸ hold)
  by_cases hf : f = e
  · subst hf
    rw [if_pos rfl] at hav
    have h1 := served_remove hs (a := s.queue.available f + 1) (b := s.queue.posted f)
      (fun hold => by have := hserved hold; omega) hne
    omega
  · rw [if_neg hf] at hav
    rw [onWay_remove_other hf, hcard]
    have hold : q.eventList f ≠ [] := by
      intro hnil
      refine hne ?_
      cases hl : (s.store q m l).queue.eventList e with
      | nil => rwa [remove_nil hl]
      | cons t ts => rwa [remove_queue hl, Queue.eventList_set, if_neg hf]
    have := hserved hold
    omega

/-- The critical section of a call that has been served. -/
theorem Inv.section_ (h : Inv uxPriority s) {c : QueueCall} {block : Bool}
    (hpc : s.pc s.pxCurrentTCB = .section_ c block) {q : Queue T} {m : Ram}
    {log : List QueueEvent} (hq : q.Wf) (hframe : Queue.SameFrame s.queue q)
    (hav : ∀ f, q.available f ≤ s.queue.available f + (if f = e then 1 else 0) -
      (if f = c.side then 1 else 0)) :
    Inv uxPriority (((s.store q m log).xTaskRemoveFromEventList e).goto .outside) := by
  have hs : Shape uxPriority ((s.store q m log).xTaskRemoveFromEventList e) :=
    (h.shape.store hq hframe.eventList fun d => by rw [hframe.countLock]).remove e
  have hpc1 : ((s.store q m log).xTaskRemoveFromEventList e).pc = s.pc := remove_pc e
  have hcur1 : ((s.store q m log).xTaskRemoveFromEventList e).pxCurrentTCB = s.pxCurrentTCB :=
    remove_current e
  have hdeliver := fun f => served_deliver (m := m) (l := log) h hq hframe (hav f)
  have hlocks := remove_locks (s := s) (e := e) (q := q) (m := m) (l := log)
  generalize (s.store q m log).xTaskRemoveFromEventList e = s1 at *
  have hpc2 : s1.pc s1.pxCurrentTCB = .section_ c block := by rw [hpc1, hcur1, hpc]
  have hsus := hs.suspended
  have hlk := hs.locked
  have hrun := hs.running
  rw [hpc2] at hsus hrun
  simp only [hpc2] at hlk
  have hshape : Shape uxPriority (s1.goto .outside) :=
    hs.advance hs.wf (fun _ => rfl) hsus hs.idle hlk fun hd => by
      simpa [QueuePc.leaves] using hrun hd
  refine ⟨hshape, fun f hne => ?_, fun c' hc' => ?_⟩
  · have h1 := hdeliver f hne
    have h2 : s1.queue.posted f = s.queue.posted f := by
      rw [Queue.posted, (hlocks f).1, hframe.countLock, Queue.posted]
    change s1.queue.available f ≤ ((s1.goto .outside).onWay f).card + s1.queue.posted f
    rw [(hlocks f).2, h2]
    by_cases hf : f = c.side
    · rw [if_pos hf] at h1
      have h3 := card_onWay_goto_le (s := s1) (r := s1.goto .outside) (d := f) rfl
        (t := s1.pxCurrentTCB) (fun u hu => goto_of_ne hu)
      omega
    · rw [if_neg hf] at h1
      have h3 := card_onWay_mono (s := s1) (r := s1.goto .outside) (d := f) (fun _ hu => hu)
        (heads_goto fun hd => by simp [hpc2, QueuePc.heads, Ne.symm hf] at hd)
      omega
  · rw [goto_current] at hc'
    cases hc'

/-- An interrupt has brought or taken an item while the queue is unlocked. -/
theorem Inv.deliver (h : Inv uxPriority s) {q : Queue T} {m : Ram} {log : List QueueEvent}
    (hq : q.Wf) (hframe : Queue.SameFrame s.queue q)
    (hav : ∀ f, q.available f ≤ s.queue.available f + (if f = e then 1 else 0))
    (hun : s.queue.countLock e = queueUnlocked) :
    Inv uxPriority ((s.store q m log).xTaskRemoveFromEventList e) := by
  have hs : Shape uxPriority ((s.store q m log).xTaskRemoveFromEventList e) :=
    (h.shape.store hq hframe.eventList fun d => by rw [hframe.countLock]).remove e
  have hlocks := remove_locks (s := s) (e := e) (q := q) (m := m) (l := log)
  refine ⟨hs, fun f hne => ?_, fun c hc => ?_⟩
  · have h1 := served_deliver (k := 0) h hq hframe (hav f) hne
    rw [(hlocks f).2, Queue.posted, (hlocks f).1, hframe.countLock]
    exact h1
  · rw [remove_pc, remove_current] at hc
    have hl := (h.shape.locked e).1 hun
    have hc : s.pc s.pxCurrentTCB = .place c := hc
    simp [hc, QueuePc.locked] at hl

/-- An interrupt has brought or taken an item while the queue is locked. -/
theorem Inv.count (h : Inv uxPriority s) {q : Queue T} {m : Ram} {log : List QueueEvent}
    (hq : q.Wf) (hlist : ∀ d, q.eventList d = s.queue.eventList d)
    (hlock : ∀ d, q.countLock d = queueUnlocked ↔ s.queue.countLock d = queueUnlocked)
    (hav : ∀ f, q.available f + s.queue.posted f ≤ s.queue.available f + q.posted f) :
    Inv uxPriority (s.store q m log) := by
  refine ⟨h.shape.store hq hlist hlock, fun f hne => ?_, fun c hc => ?_⟩
  · have h1 := h.served f (hlist f ▸ hne)
    have h2 := hav f
    have h3 : (s.store q m log).onWay f = s.onWay f := onWay_congr (hlist f) rfl
    rw [h3]
    change q.available f ≤ _ + q.posted f
    omega
  · have h1 := h.placing c hc
    have h2 := hav c.side
    change q.available c.side ≤ q.posted c.side
    omega

/-- A critical section of `prvUnlockQueue`: what has been noted is handed out. -/
theorem Inv.unlock (h : Inv uxPriority s) {p : QueuePc}
    (hs : Shape uxPriority ((s.prvUnlockQueue d).goto p))
    (hheads : ∀ f, (s.pc s.pxCurrentTCB).heads f = true → p.heads f = true)
    (hplace : ∀ c, p ≠ .place c) : Inv uxPriority ((s.prvUnlockQueue d).goto p) := by
  obtain ⟨h1, h2, -, h4, h5, h6⟩ := wakeWaiting_frame d (s.queue.countLock d).toNat s
  have hwake := card_onWay_wakeWaiting (d := d) (s.queue.countLock d).toNat h.shape
  rw [prvUnlockQueue] at hs ⊢
  generalize wakeWaiting d (s.queue.countLock d).toNat s = s1 at *
  refine ⟨hs, fun f hne => ?_, fun c hc => ?_⟩
  · have hlist : s1.queue.eventList f ≠ [] := by
      simpa [goto] using hne
    have hgoto := card_onWay_mono (s := s1) (d := f)
      (r := ({ s1 with queue := s1.queue.setLock d queueUnlocked } : Kernel T).goto p)
      (fun u hu => by simpa [goto] using hu)
      (heads_goto (s := { s1 with queue := s1.queue.setLock d queueUnlocked })
        fun hd => hheads f (by rwa [← h1, ← h2]))
    have hav : (({ s1 with queue := s1.queue.setLock d queueUnlocked } : Kernel T).goto
        p).queue.available f = s.queue.available f := by
      simp [goto, h5]
    rw [hav]
    by_cases hf : f = d
    · subst hf
      obtain ⟨hold, hcard⟩ := hwake hlist
      have hserved := h.served f hold
      have hposted : s.queue.posted f ≤ (s.queue.countLock f).toNat := by
        unfold Queue.posted
        split <;> omega
      omega
    · have hold : s.queue.eventList f ≠ [] := by rwa [← h6 f hf]
      have hserved := h.served f hold
      have hway : s1.onWay f = s.onWay f := onWay_congr (h6 f hf) h1
      have hposted : (({ s1 with queue := s1.queue.setLock d queueUnlocked } : Kernel T).goto
          p).queue.posted f = s.queue.posted f := by
        simp [goto, Queue.posted, Queue.countLock_setLock, hf, h4]
      rw [hway] at hgoto
      omega
  · rw [goto_current] at hc
    exact absurd hc (hplace c)

/-- A step of the running task to `p` that leaves the queue and its lists alone. -/
theorem Inv.goto (h : Inv uxPriority s) {p : QueuePc} (hs : Shape uxPriority s')
    (hq : s'.queue = s.queue) (hpc : s'.pc = (s.goto p).pc)
    (hcur : ∀ c, s'.pc s'.pxCurrentTCB ≠ .place c)
    (hheads : ∀ f, (s.pc s.pxCurrentTCB).heads f = true → p.heads f = true) :
    Inv uxPriority s' := by
  refine h.of_advance hs (fun f => by rw [hq]) (fun f u hu => hq ▸ hu) (fun f => by rw [hq])
    (fun f u hu => ?_) fun c hc => absurd hc (hcur c)
  rw [hpc]
  exact heads_goto (hheads f) u hu

/-! ## The steps of a call -/

theorem Inv.suspendAll (h : Inv uxPriority s) {c : QueueCall}
    (hpc : s.pc s.pxCurrentTCB = .suspendAll c) : Inv uxPriority (s.vTaskSuspendAll.goto (.lock c)) := by
  have hs := h.shape
  have hsus := hs.suspended
  have hlock := hs.locked
  have hrun := hs.running
  rw [hpc] at hsus hrun
  simp only [hpc] at hlock
  refine h.goto (p := .lock c) ?_ rfl rfl (fun c' => by simp [vTaskSuspendAll, Kernel.goto]) ?_
  · refine hs.advance (p := .lock c) (n := s.uxSchedulerSuspended + 1) hs.wf (fun _ => rfl) ?_
      (fun h0 => absurd h0 (by omega)) hlock fun hd => absurd (hrun hd) (by simp [QueuePc.leaves])
    rw [hsus]
    rfl
  · simp [hpc, QueuePc.heads]

theorem Inv.lock (h : Inv uxPriority s) {c : QueueCall} (hpc : s.pc s.pxCurrentTCB = .lock c) :
    Inv uxPriority (s.prvLockQueue.goto (.checkForTimeOut c)) := by
  have hs := h.shape
  have hsus := hs.suspended
  have hlock := hs.locked
  have hrun := hs.running
  rw [hpc] at hsus hrun
  simp only [hpc, QueuePc.locked, iff_true] at hlock
  have hzero : ∀ d, s.prvLockQueue.queue.countLock d = 0 := by
    have hrx : s.queue.xRxLock = queueUnlocked := hlock .send
    have htx : s.queue.xTxLock = queueUnlocked := hlock .receive
    intro d
    cases d <;> simp [prvLockQueue, hrx, htx, queueLockedUnmodified, Queue.countLock]
  have hwf : s.prvLockQueue.queue.Wf := by
    unfold prvLockQueue
    dsimp only
    split <;> split <;> exact ⟨hs.wf.pos, hs.wf.tail, hs.wf.waiting, hs.wf.readLt, hs.wf.read,
      hs.wf.write⟩
  have hlist : ∀ d, s.prvLockQueue.queue.eventList d = s.queue.eventList d := by
    intro d
    unfold prvLockQueue
    dsimp only
    cases d <;> split <;> split <;> rfl
  have hav : ∀ d, s.prvLockQueue.queue.available d = s.queue.available d := by
    intro d
    unfold prvLockQueue
    dsimp only
    cases d <;> split <;> split <;> rfl
  have hshape : Shape uxPriority (s.prvLockQueue.goto (.checkForTimeOut c)) := by
    refine hs.advance (p := .checkForTimeOut c) (n := s.uxSchedulerSuspended) hwf hlist ?_ hs.idle
      ?_ fun hd => absurd (hrun hd) (by simp [QueuePc.leaves])
    · rw [hsus]
      rfl
    · intro d
      rw [hzero]
      simp [QueuePc.locked, queueUnlocked]
  refine h.of_advance hshape (fun f => (hav f).le) (fun f u hu => (hlist f) ▸ hu) (fun f => ?_)
    (fun f u hu => ?_) fun c' hc' => ?_
  · have h0 : s.queue.posted f = 0 := if_pos (hlock f)
    rw [h0]
    exact Nat.zero_le _
  · exact heads_goto (s := s) (p := .checkForTimeOut c) (by simp [hpc, QueuePc.heads]) u hu
  · rw [goto_current] at hc'
    cases hc'

/-- Between `prvLockQueue` and `prvUnlockQueue`, where the queue is only looked at. -/
theorem Inv.locked (h : Inv uxPriority s) {p : QueuePc}
    (hsus : p.holdsScheduler = (s.pc s.pxCurrentTCB).holdsScheduler)
    (hlock : ∀ d, p.locked d = (s.pc s.pxCurrentTCB).locked d)
    (hrun : (s.pc s.pxCurrentTCB).leaves = false)
    (hheads : ∀ f, (s.pc s.pxCurrentTCB).heads f = true → p.heads f = true)
    (hplace : ∀ c, p = .place c → s.queue.available c.side ≤ s.queue.posted c.side) :
    Inv uxPriority (s.goto p) := by
  have hs := h.shape
  have hshape : Shape uxPriority (s.goto p) := by
    refine hs.advance (p := p) (n := s.uxSchedulerSuspended) hs.wf (fun _ => rfl) ?_ hs.idle ?_
      fun hd => absurd (hs.running hd) (by simp [hrun])
    · rw [hsus]
      exact hs.suspended
    · intro d
      rw [hlock]
      exact hs.locked d
  refine h.of_advance hshape (fun _ => Nat.le_refl _) (fun _ _ hu => hu) (fun _ => Nat.le_refl _)
    (fun f u hu => heads_goto (hheads f) u hu) fun c hc => ?_
  rw [goto_current] at hc
  exact hplace c hc

theorem Inv.place (h : Inv uxPriority s) {c : QueueCall} (hpc : s.pc s.pxCurrentTCB = .place c) :
    Inv uxPriority ((s.vTaskPlaceOnEventList uxPriority c.side).goto (.unlockTx c .wait)) := by
  have hshape := h.shape.place hpc
  refine ⟨hshape, fun f hne => ?_, fun c' hc' => ?_⟩
  · have hav : ((s.vTaskPlaceOnEventList uxPriority c.side).goto (.unlockTx c .wait)).queue.available
        f = s.queue.available f := Queue.available_setEventList _ _ _ _
    have hpost : ((s.vTaskPlaceOnEventList uxPriority c.side).goto (.unlockTx c .wait)).queue.posted
        f = s.queue.posted f := by
      simp [Kernel.goto, vTaskPlaceOnEventList, Queue.posted]
    rw [hav, hpost]
    by_cases hf : f = c.side
    · have := h.placing c hpc
      rw [← hf] at this
      omega
    · have hlist : ((s.vTaskPlaceOnEventList uxPriority c.side).goto
          (.unlockTx c .wait)).queue.eventList f = s.queue.eventList f := by
        simp [Kernel.goto, vTaskPlaceOnEventList, Queue.eventList_set, hf]
      have h1 := h.served f (hlist ▸ hne)
      have h2 := card_onWay_mono (s := s) (d := f)
        (r := (s.vTaskPlaceOnEventList uxPriority c.side).goto (.unlockTx c .wait))
        (fun u hu => hlist ▸ hu)
        (heads_goto (s := s) (p := .unlockTx c .wait) (by simp [hpc, QueuePc.heads]))
      omega
  · rw [goto_current] at hc'
    cases hc'

/-- `xTaskResumeAll`. -/
theorem Inv.resume (h : Inv uxPriority s) {p : QueuePc}
    (hold : (s.pc s.pxCurrentTCB).holdsScheduler = true)
    (hun : ∀ d, (s.pc s.pxCurrentTCB).locked d = false) (hp : p.holdsScheduler = false)
    (hw : (s.pc s.pxCurrentTCB).leaves = true →
      p.leaves = true ∧ ∀ d, (s.pc s.pxCurrentTCB).waits d = true → p.waits d = true)
    (hheads : ∀ f, (s.pc s.pxCurrentTCB).heads f = true → p.heads f = true) :
    Inv uxPriority (s.xTaskResumeAll.goto p) := by
  have hsus := h.shape.suspended
  rw [if_pos hold] at hsus
  have hshape := h.shape.resume hsus hun hp fun hd => hw (h.shape.running hd)
  rw [resumeAll_eq hsus] at hshape ⊢
  refine h.goto (p := p) hshape rfl rfl (fun c hc => ?_) hheads
  rw [goto_current] at hc
  simp [hc, QueuePc.holdsScheduler] at hp

/-- `portYIELD_WITHIN_API` to a ready task. -/
theorem Inv.yield (h : Inv uxPriority s) {c : QueueCall} (hpc : s.pc s.pxCurrentTCB = .yield c)
    {next : T} (hn : s.delayed next = false) :
    Inv uxPriority { s.goto (.section_ c true) with pxCurrentTCB := next } := by
  have hsus := h.shape.suspended
  rw [hpc] at hsus
  have hshape : Shape uxPriority { s.goto (.section_ c true) with pxCurrentTCB := next } := by
    refine h.shape.switch hsus hn fun u => ?_
    by_cases hu : u = s.pxCurrentTCB
    · subst hu
      rw [goto_self, hpc]
      exact ⟨rfl, fun _ hd => hd⟩
    · rw [goto_of_ne hu]
      exact ⟨h.shape.holdsNothing hsus u, fun _ hd => hd⟩
  refine h.goto (p := .section_ c true) hshape rfl rfl (hshape.not_place hsus next) ?_
  rw [hpc]
  exact fun _ hd => hd

theorem Inv.served_section (h : Inv uxPriority s) (hcalls : s.CallsOk) {c : QueueCall}
    {block : Bool} (hpc : s.pc s.pxCurrentTCB = .section_ c block) {s1 : Kernel T}
    (hsec : s.section_ c = some s1) : Inv uxPriority (s1.goto .outside) := by
  have hwf := h.shape.wf
  have hok : s.CallOk c := hcalls s.pxCurrentTCB c (by rw [hpc]; rfl)
  cases c with
  | xQueueGenericSend pvItem x =>
    by_cases hroom : HasRoom s.queue x
    · simp only [Kernel.section_, if_pos hroom, Option.some.injEq] at hsec
      subst hsec
      have hstored := copyTo_stored hwf hroom hok pvItem
      exact h.section_ hpc hstored.wf hstored.frame (available_copyTo hwf hroom hok pvItem)
    · simp [Kernel.section_, hroom] at hsec
  | xQueueGenericReceive pvBuffer peeking =>
    by_cases hk : 0 < s.queue.uxMessagesWaiting
    · simp only [Kernel.section_, gt_iff_lt, if_pos hk, Option.some.injEq] at hsec
      subst hsec
      cases peeking with
      | false =>
        obtain ⟨_, _, -, -, hq, -, hframe⟩ := Queue.take_spec (m := s.ram) hwf hk hok
        exact h.section_ hpc hq hframe (available_take hwf hk hok)
      | true =>
        obtain ⟨_, _, -, heq, -⟩ := Queue.peek_spec (m := s.ram) hwf hk hok
        have hq : (peekItem s.queue s.ram pvBuffer).1 = s.queue := by rw [heq]
        refine h.section_ hpc (q := (peekItem s.queue s.ram pvBuffer).1) ?_ ?_ ?_
        · rwa [hq]
        · rw [hq]
          constructor <;> rfl
        · intro f
          rw [hq]
          cases f <;> simp [QueueCall.side]
    · simp [Kernel.section_, hk] at hsec

theorem Inv.refused_section (h : Inv uxPriority s) {c : QueueCall} {block : Bool}
    (hpc : s.pc s.pxCurrentTCB = .section_ c block) (hsec : s.section_ c = none) :
    Inv uxPriority (s.goto (if block then .suspendAll c else .outside)) := by
  have hs := h.shape
  have hzero := available_of_section_none hsec
  have hp : ∀ p, p = QueuePc.suspendAll c ∨ p = .outside →
      Inv uxPriority (s.goto p) := by
    intro p hp
    have hhold : p.holdsScheduler = false := by rcases hp with rfl | rfl <;> rfl
    have hunl : ∀ d, p.locked d = false := by rcases hp with rfl | rfl <;> intro d <;> rfl
    have hshape : Shape uxPriority (s.goto p) := by
      refine hs.advance (p := p) (n := s.uxSchedulerSuspended) hs.wf (fun _ => rfl) ?_ hs.idle ?_
        fun hd => absurd (hs.running hd) (by simp [hpc, QueuePc.leaves])
      · rw [hhold]
        simpa [hpc, QueuePc.holdsScheduler] using hs.suspended
      · intro d
        rw [hunl, hs.locked, hpc]
        rfl
    refine ⟨hshape, fun f hne => ?_, fun c' hc' => ?_⟩
    · by_cases hf : f = c.side
      · subst hf
        exact hzero.le.trans (Nat.zero_le _)
      · have h1 := h.served f hne
        have h2 := card_onWay_mono (s := s) (r := s.goto p) (d := f) (fun _ hu => hu)
          (heads_goto fun hd => by simp [hpc, QueuePc.heads, Ne.symm hf] at hd)
        change s.queue.available f ≤ _ + s.queue.posted f
        omega
    · rw [goto_current] at hc'
      subst hc'
      simp at hp
  cases block with
  | false => exact hp _ (.inr rfl)
  | true => exact hp _ (.inl rfl)

/-- What the running task does next. -/
theorem Inv.taskStep (h : Inv uxPriority s) (hcalls : s.CallsOk) {expired : Bool} {next : T}
    (hstep : s.taskStep uxPriority expired next = some s') : Inv uxPriority s' := by
  cases hpc : s.pc s.pxCurrentTCB with
  | outside | suspended => simp [Kernel.taskStep, hpc] at hstep
  | section_ c block =>
    simp only [Kernel.taskStep, hpc] at hstep
    cases hsec : s.section_ c with
    | none =>
      simp only [hsec, Option.some.injEq] at hstep
      subst hstep
      exact h.refused_section hpc hsec
    | some s1 =>
      simp only [hsec, Option.some.injEq] at hstep
      subst hstep
      exact h.served_section hcalls hpc hsec
  | suspendAll c =>
    simp only [Kernel.taskStep, hpc, Option.some.injEq] at hstep
    subst hstep
    exact h.suspendAll hpc
  | lock c =>
    simp only [Kernel.taskStep, hpc, Option.some.injEq] at hstep
    subst hstep
    exact h.lock hpc
  | checkForTimeOut c =>
    simp only [Kernel.taskStep, hpc, Option.some.injEq] at hstep
    subst hstep
    cases expired <;> refine h.locked ?_ ?_ ?_ ?_ ?_ <;>
      simp [hpc, QueuePc.holdsScheduler, QueuePc.locked, QueuePc.leaves, QueuePc.heads]
  | isFull c =>
    simp only [Kernel.taskStep, hpc, Option.some.injEq] at hstep
    subst hstep
    by_cases hw : s.mustWait c = true
    · rw [if_pos hw]
      refine h.locked ?_ ?_ ?_ ?_ ?_ <;>
        simp [hpc, QueuePc.holdsScheduler, QueuePc.locked, QueuePc.leaves, QueuePc.heads,
          available_of_mustWait hw]
    · rw [if_neg hw]
      refine h.locked ?_ ?_ ?_ ?_ ?_ <;>
        simp [hpc, QueuePc.holdsScheduler, QueuePc.locked, QueuePc.leaves, QueuePc.heads]
  | place c =>
    simp only [Kernel.taskStep, hpc, Option.some.injEq] at hstep
    subst hstep
    exact h.place hpc
  | unlockTx c n =>
    simp only [Kernel.taskStep, hpc, Option.some.injEq] at hstep
    subst hstep
    refine h.unlock (h.shape.unlock ?_ rfl (fun e => ?_) fun hd => ?_) ?_ ?_
    · simp [hpc, QueuePc.holdsScheduler]
    · cases e <;> simp [hpc, QueuePc.locked]
    · have hl := h.shape.running hd
      rw [hpc] at hl ⊢
      exact ⟨hl, fun _ he => he⟩
    all_goals simp [hpc, QueuePc.heads]
  | unlockRx c n =>
    simp only [Kernel.taskStep, hpc, Option.some.injEq] at hstep
    subst hstep
    refine h.unlock (h.shape.unlock ?_ rfl (fun e => ?_) fun hd => ?_) ?_ ?_
    · simp [hpc, QueuePc.holdsScheduler]
    · cases e <;> simp [hpc, QueuePc.locked]
    · have hl := h.shape.running hd
      rw [hpc] at hl ⊢
      exact ⟨hl, fun _ he => he⟩
    all_goals simp [hpc, QueuePc.heads]
  | resumeAll c n =>
    cases n <;>
      simp only [Kernel.taskStep, hpc, Option.some.injEq] at hstep <;>
      subst hstep <;>
      refine h.resume ?_ ?_ rfl ?_ ?_ <;>
      simp [hpc, QueuePc.holdsScheduler, QueuePc.locked, QueuePc.leaves, QueuePc.waits,
        QueuePc.heads]
  | yield c =>
    simp only [Kernel.taskStep, hpc] at hstep
    by_cases hn : s.delayed next = true
    · simp [hn] at hstep
    rw [if_neg hn, Option.some.injEq] at hstep
    subst hstep
    exact h.yield hpc (by simpa using hn)

/-! ## Runs -/

/-- An interrupt that takes a lock count to `queueUNLOCKED`. -/
def Wraps (s : Kernel T) : KernelLabel T → Prop
  | .sendFromISR _ x => HasRoom s.queue x ∧ s.queue.xTxLock = 254
  | .receiveFromISR _ => 0 < s.queue.uxMessagesWaiting ∧ s.queue.xRxLock = 254
  | _ => False

instance (s : Kernel T) : (l : KernelLabel T) → Decidable (Wraps s l)
  | .sendFromISR _ _ | .receiveFromISR _ => inferInstanceAs (Decidable (_ ∧ _))
  | .call _ _ | .suspend | .resume | .run _ _ | .switch _ | .expire _ | .peekFromISR _
  | .other _ _ => inferInstanceAs (Decidable False)

theorem lock_succ {n : UInt8} (h1 : n ≠ queueUnlocked) (h2 : n ≠ 254) :
    n + 1 ≠ queueUnlocked ∧ (n + 1).toNat = n.toNat + 1 := by
  have h1 : n.toNat ≠ 255 := fun h => h1 (UInt8.toNat_inj.1 h)
  have h2 : n.toNat ≠ 254 := fun h => h2 (UInt8.toNat_inj.1 h)
  have hlt := n.toNat_lt
  have hsucc : (n + 1).toNat = n.toNat + 1 := by
    rw [UInt8.toNat_add]
    exact Nat.mod_eq_of_lt (by simp only [UInt8.toNat_one]; omega)
  refine ⟨fun h => ?_, hsucc⟩
  rw [h] at hsucc
  change 255 = _ at hsucc
  omega

theorem Inv.sendFromISR (h : Inv uxPriority s) {pvItem : Nat} {x : CopyPosition}
    (hok : OverwriteOk s.queue x) (hw : ¬ Wraps s (.sendFromISR pvItem x)) :
    Inv uxPriority (s.xQueueGenericSendFromISR pvItem x) := by
  by_cases hroom : HasRoom s.queue x
  · have hstored := copyTo_stored h.shape.wf hroom hok pvItem
    have hav := available_copyTo h.shape.wf hroom hok pvItem
    have htx : (s.copyTo pvItem x).queue.xTxLock = s.queue.xTxLock := hstored.frame.tx
    rw [xQueueGenericSendFromISR, if_pos hroom]
    dsimp only
    by_cases hun : s.queue.xTxLock = queueUnlocked
    · rw [if_pos (htx.trans hun)]
      refine h.deliver (e := .receive) hstored.wf hstored.frame
        (fun f => (hav f).trans (Nat.sub_le _ _)) hun
    · rw [if_neg (fun hc => hun (htx.symm.trans hc))]
      have h254 : s.queue.xTxLock ≠ 254 := fun hc => hw ⟨hroom, hc⟩
      obtain ⟨hne, hsucc⟩ := lock_succ hun h254
      have hwf := hstored.wf
      refine h.count (q := { (s.copyTo pvItem x).queue with
          xTxLock := (s.copyTo pvItem x).queue.xTxLock + 1 })
        ⟨hwf.pos, hwf.tail, hwf.waiting, hwf.readLt, hwf.read, hwf.write⟩ (fun d => ?_)
        (fun d => ?_) fun f => ?_
      · cases d
        · exact hstored.frame.send
        · exact hstored.frame.receive
      · cases d
        · exact iff_of_eq (congrArg (· = queueUnlocked) hstored.frame.rx)
        · change (s.copyTo pvItem x).queue.xTxLock + 1 = _ ↔ s.queue.xTxLock = _
          rw [htx]
          exact iff_of_false hne hun
      · have h1 := hav f
        cases f with
        | send =>
          have hrx : (s.copyTo pvItem x).queue.xRxLock = s.queue.xRxLock := hstored.frame.rx
          simp only [Queue.posted, Queue.countLock, hrx]
          exact Nat.add_le_add_right (h1.trans (Nat.sub_le _ _)) _
        | receive =>
          have hold : s.queue.posted .receive = s.queue.xTxLock.toNat := if_neg hun
          rw [hold]
          simp only [Queue.posted, Queue.countLock, htx, if_neg hne, hsucc]
          change (s.copyTo pvItem x).queue.available .receive + _ ≤ _
          have : (s.copyTo pvItem x).queue.available .receive ≤ s.queue.available .receive + 1 := h1
          omega
  · rw [xQueueGenericSendFromISR, if_neg hroom]
    exact h

theorem Inv.receiveFromISR (h : Inv uxPriority s) {pvBuffer : Nat}
    (hok : s.queue.Apart pvBuffer s.queue.uxItemSize)
    (hw : ¬ Wraps s (.receiveFromISR pvBuffer)) :
    Inv uxPriority (s.xQueueReceiveFromISR pvBuffer) := by
  by_cases hk : 0 < s.queue.uxMessagesWaiting
  · obtain ⟨_, _, -, -, hwf, -, hframe⟩ := Queue.take_spec (m := s.ram) h.shape.wf hk hok
    have hav := available_take h.shape.wf hk hok
    have hrx : (s.take pvBuffer).queue.xRxLock = s.queue.xRxLock := hframe.rx
    rw [xQueueReceiveFromISR, if_pos hk]
    dsimp only
    by_cases hun : s.queue.xRxLock = queueUnlocked
    · rw [if_pos (hrx.trans hun)]
      exact h.deliver (e := .send) hwf hframe
        (fun f => (hav f).trans (Nat.sub_le _ _)) hun
    · rw [if_neg (fun hc => hun (hrx.symm.trans hc))]
      have h254 : s.queue.xRxLock ≠ 254 := fun hc => hw ⟨hk, hc⟩
      obtain ⟨hne, hsucc⟩ := lock_succ hun h254
      refine h.count (q := { (s.take pvBuffer).queue with
          xRxLock := (s.take pvBuffer).queue.xRxLock + 1 })
        ⟨hwf.pos, hwf.tail, hwf.waiting, hwf.readLt, hwf.read, hwf.write⟩ (fun d => ?_)
        (fun d => ?_) fun f => ?_
      · cases d
        · exact hframe.send
        · exact hframe.receive
      · cases d
        · change (s.take pvBuffer).queue.xRxLock + 1 = _ ↔ s.queue.xRxLock = _
          rw [hrx]
          exact iff_of_false hne hun
        · exact iff_of_eq (congrArg (· = queueUnlocked) hframe.tx)
      · have h1 := hav f
        cases f with
        | send =>
          have hold : s.queue.posted .send = s.queue.xRxLock.toNat := if_neg hun
          rw [hold]
          simp only [Queue.posted, Queue.countLock, hrx, if_neg hne, hsucc]
          change (s.take pvBuffer).queue.available .send + _ ≤ _
          have : (s.take pvBuffer).queue.available .send ≤ s.queue.available .send + 1 := h1
          omega
        | receive =>
          have htx : (s.take pvBuffer).queue.xTxLock = s.queue.xTxLock := hframe.tx
          simp only [Queue.posted, Queue.countLock, htx]
          exact Nat.add_le_add_right (h1.trans (Nat.sub_le _ _)) _
  · rw [xQueueReceiveFromISR, if_neg hk]
    exact h

theorem Inv.step (h : Inv uxPriority s) (hcalls : s.CallsOk) {l : KernelLabel T} (hw : ¬ Wraps s l)
    (hstep : s.step uxPriority l = some s') : Inv uxPriority s' := by
  have hs := h.shape
  cases l with
  | run expired next => exact h.taskStep hcalls hstep
  | call c block =>
    simp only [Kernel.step, Option.ite_none_right_eq_some, Option.some.injEq] at hstep
    obtain ⟨⟨hpc, -⟩, rfl⟩ := hstep
    have hsus := hs.suspended
    have hlock := hs.locked
    rw [hpc] at hsus
    simp only [hpc] at hlock
    have hshape : Shape uxPriority (s.goto (.section_ c block)) :=
      hs.advance hs.wf (fun _ => rfl) hsus hs.idle hlock
        fun hd => absurd (hs.running hd) (by simp [hpc, QueuePc.leaves])
    refine h.goto (p := .section_ c block) hshape rfl rfl (fun c' => by simp) ?_
    simp [hpc, QueuePc.heads]
  | suspend =>
    simp only [Kernel.step, Option.ite_none_right_eq_some, Option.some.injEq] at hstep
    obtain ⟨hpc, rfl⟩ := hstep
    have hsus := hs.suspended
    have hlock := hs.locked
    rw [hpc] at hsus
    simp only [hpc] at hlock
    refine h.goto (p := .suspended) ?_ rfl rfl
      (fun c => by simp [vTaskSuspendAll, Kernel.goto]) ?_
    · refine hs.advance (p := .suspended) (n := s.uxSchedulerSuspended + 1) hs.wf (fun _ => rfl) ?_
        (fun h0 => absurd h0 (by omega)) hlock
        fun hd => absurd (hs.running hd) (by simp [hpc, QueuePc.leaves])
      rw [hsus]
      rfl
    · simp [hpc, QueuePc.heads]
  | resume =>
    simp only [Kernel.step, Option.ite_none_right_eq_some, Option.some.injEq] at hstep
    obtain ⟨hpc, rfl⟩ := hstep
    refine h.resume ?_ ?_ rfl ?_ ?_ <;>
      simp [hpc, QueuePc.holdsScheduler, QueuePc.locked, QueuePc.leaves, QueuePc.heads]
  | switch next =>
    simp only [Kernel.step, Option.ite_none_right_eq_some, Option.some.injEq] at hstep
    obtain ⟨⟨hsus, hn⟩, rfl⟩ := hstep
    have hshape : Shape uxPriority { s with pxCurrentTCB := next } :=
      hs.switch hsus hn fun u => ⟨hs.holdsNothing hsus u, fun _ hd => hd⟩
    exact h.of_advance hshape (fun _ => Nat.le_refl _) (fun _ _ hu => hu) (fun _ => Nat.le_refl _) (fun _ _ hu => hu)
      fun c hc => absurd hc (hs.not_place hsus next c)
  | expire t =>
    simp only [Kernel.step, Option.ite_none_right_eq_some, Option.some.injEq] at hstep
    obtain ⟨⟨hsus, -⟩, rfl⟩ := hstep
    exact h.of_advance (hs.expire hsus) (fun f => by cases f <;> exact le_rfl)
      (fun f u hu => ((mem_eventList_expire hs.nodup).1 hu).2)
      (fun f => by cases f <;> exact le_rfl) (fun _ _ hu => hu)
      fun c hc => absurd hc (hs.not_place hsus _ c)
  | sendFromISR pvItem x =>
    simp only [Kernel.step, Option.ite_none_right_eq_some, Option.some.injEq] at hstep
    obtain ⟨hok, rfl⟩ := hstep
    exact h.sendFromISR hok hw
  | receiveFromISR pvBuffer =>
    simp only [Kernel.step, Option.ite_none_right_eq_some, Option.some.injEq] at hstep
    obtain ⟨hok, rfl⟩ := hstep
    exact h.receiveFromISR hok hw
  | peekFromISR pvBuffer =>
    simp only [Kernel.step, Option.ite_none_right_eq_some, Option.some.injEq] at hstep
    obtain ⟨hok, rfl⟩ := hstep
    unfold xQueuePeekFromISR
    split
    · rename_i hk
      obtain ⟨_, _, -, heq, -⟩ := Queue.peek_spec (m := s.ram) hs.wf hk hok
      have hq : (peekItem s.queue s.ram pvBuffer).1 = s.queue := by rw [heq]
      refine h.count (q := (peekItem s.queue s.ram pvBuffer).1) ?_ ?_ ?_ ?_ <;> rw [hq]
      · exact hs.wf
      all_goals intros
      all_goals rfl
    · exact h
  | other a bs =>
    simp only [Kernel.step, Option.ite_none_right_eq_some, Option.some.injEq] at hstep
    obtain ⟨-, rfl⟩ := hstep
    exact h.count hs.wf (fun _ => rfl) (fun _ => Iff.rfl) fun _ => Nat.le_refl _

variable {pcHead uxLength uxItemSize : Nat} {ram : Ram} {t : T}

theorem start_inv (h : 0 < uxLength) :
    Inv uxPriority (start pcHead uxLength uxItemSize ram t) := by
  refine ⟨⟨Queue.reset_wf h, rfl, fun _ _ => rfl, ?_, ?_, fun _ hu => (nomatch hu), fun _ => rfl, ?_,
    ?_, ?_, ?_⟩, ?_, ?_⟩
  · intro d
    cases d <;> exact iff_of_true rfl rfl
  · intro d u hu
    cases d <;> cases hu
  · intro u hu
    cases hu
  · intro hd
    cases hd
  · intro d
    cases d <;> exact List.nodup_nil
  · intro d
    cases d <;> exact List.Pairwise.nil
  · intro d hne
    cases d <;> exact absurd rfl hne
  · intro c hc
    cases hc

/-- Whatever the order of tasks and interrupts: a task that is not ready waits on an event list, or
becomes ready when the scheduler goes on; the lists stand in the order of the priorities; and while
tasks wait at the queue, everything they could take has a task awake that is on its way to take it,
or has been noted for the one that unlocks the queue. -/
theorem no_wakeup_lost (hpos : 0 < uxLength) {ls : List (KernelLabel T)}
    (hrun : ls.foldlM (fun s l => s.step uxPriority l) (start pcHead uxLength uxItemSize ram t) =
      some s)
    (ha : Avoids (fun s l => s.step uxPriority l) Wraps (start pcHead uxLength uxItemSize ram t) ls) :
    (∀ u, s.delayed u = true → (∃ d, u ∈ s.queue.eventList d) ∨
      u ∈ s.xPendingReadyList ∧ 0 < s.uxSchedulerSuspended) ∧
    (∀ d, ByPriority uxPriority (s.queue.eventList d)) ∧
    ∀ d, s.queue.eventList d ≠ [] →
      s.queue.available d ≤ (s.onWay d).card + s.queue.posted d := by
  have hinv : Inv uxPriority s ∧ s.CallsOk := by
    refine Avoids.inv (I := fun s => Inv uxPriority s ∧ s.CallsOk) (fun s l s' h hw hs => ?_) ha hrun
      ⟨start_inv hpos, fun _ _ hc => by cases hc⟩
    exact ⟨h.1.step h.2 hw hs, h.2.step hs⟩
  have hshape := hinv.1.shape
  refine ⟨fun u hu => ?_, hshape.sorted, hinv.1.served⟩
  rcases hshape.delayed u hu with hd | hp
  · exact .inl hd
  · refine .inr ⟨hp, Nat.pos_of_ne_zero fun h0 => ?_⟩
    rw [hshape.idle h0] at hp
    cases hp

/-- Two tasks receive and wait; an interrupt sends while the second has the queue locked. -/
def twoReceivers : List (KernelLabel Bool) :=
  [.call (.xQueueGenericReceive 64 false) true] ++ List.replicate 10 (.run false true) ++
    [.call (.xQueueGenericReceive 72 false) true] ++ List.replicate 5 (.run false false) ++
    [.sendFromISR 80 .queueSendToBack, .run false false]

/-- Nobody is on the way to the item yet: it is noted for the second, which will wake the first. -/
theorem no_wakeup_lost_two : ∃ s : Kernel Bool,
    twoReceivers.foldlM (fun s l => s.step (fun _ => 1) l) (start 16 2 1 (fun _ => 0) false) =
        some s ∧ s.queue.eventList .receive = [false, true] ∧ s.queue.available .receive = 1 ∧
      s.queue.available .receive ≤ (s.onWay .receive).card + s.queue.posted .receive := by
  have ha : Avoids (fun s l => s.step (fun _ => 1) l) Wraps (start 16 2 1 (fun _ => 0) false)
      twoReceivers := by decide
  refine ⟨_, rfl, rfl, rfl, ?_⟩
  exact (no_wakeup_lost (by decide) rfl ha).2.2 .receive (by decide)

end Kernel

end HmBoard
