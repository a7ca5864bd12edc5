import HmBoard.Rtos.Moves

/-!
# What each step of the scheduler does

`Outcome l x s s' a a' new`: the step on `l` has kept the lists good, dispatched the tasks `new`,
and moved no ready task but `x` from its place. `MutexBooks`: each task counts the mutexes it holds,
and runs at its own priority when it holds none. `Missed s l` is the give of a mutex that takes the
giver's priority away while only tasks of no higher priority wait for it.
-/

namespace HmBoard

open Lib Function

namespace Scheduler

variable {T E : Type} [DecidableEq T] [DecidableEq E] {x : Option T} {s s' s1 : Scheduler T E}
  {a a' a1 : TaskWalks T E} {t u : T} {asked P : Prop} {l : SchedulerLabel T E}
  {xIdleTask : T} {new : List (Priority × T)}

/-- How many mutexes task `t` holds. -/
def mutexesOf [Fintype E] (pxMutexHolder : E → Option T) (t : T) : Nat :=
  (Finset.univ.filter fun e => pxMutexHolder e = some t).card

structure MutexBooks [Fintype E] (s : Scheduler T E) : Prop where
  held : ∀ t, s.uxMutexesHeld t = mutexesOf s.pxMutexHolder t
  base : ∀ t, s.uxMutexesHeld t = 0 → s.uxPriority t = s.uxBasePriority t

/-- Does the running task lose a lent priority when it gives a mutex? -/
def lowers (s : Scheduler T E) : Prop :=
  s.uxPriority s.pxCurrentTCB ≠ s.uxBasePriority s.pxCurrentTCB ∧
    s.uxMutexesHeld s.pxCurrentTCB - 1 = 0

instance (s : Scheduler T E) : Decidable s.lowers := inferInstanceAs (Decidable (_ ∧ _))

/-- The priority it has then. -/
def priorityLeft (s : Scheduler T E) : Priority :=
  if s.lowers then s.uxBasePriority s.pxCurrentTCB else s.uxPriority s.pxCurrentTCB

def Missed (s : Scheduler T E) : SchedulerLabel T E → Prop
  | .giveMutex e =>
    s.lowers ∧ s.xYieldPending = false ∧ s.lists.listListIsEmpty (.event e) = false ∧
      (∃ t, s.lists.listGetOwnerOfHeadEntry (.event e) = some t ∧
        s.uxPriority t ≤ s.uxBasePriority s.pxCurrentTCB) ∧
      ∃ u, u ≠ s.pxCurrentTCB ∧ s.isReady u = true ∧
        s.uxBasePriority s.pxCurrentTCB < s.uxPriority u
  | _ => False

instance [Fintype T] (s : Scheduler T E) : ∀ l, Decidable (s.Missed l)
  | .giveMutex _ => inferInstanceAs (Decidable (_ ∧ _))
  | .yield | .tick _ _ | .suspendAll | .resumeAll _ | .block _ | .placeOnEventList _ _
  | .removeFromEventList _ | .missedYield | .prioritySet _ _ | .suspend _ | .resume _
  | .resumeFromISR _ | .takeMutex _ | .inherit _ => inferInstanceAs (Decidable False)

structure Outcome [Fintype E] (l : SchedulerLabel T E) (xIdleTask : T) (x : Option T)
    (s s' : Scheduler T E) (a a' : TaskWalks T E) (new : List (Priority × T)) : Prop where
  good : Good none s' a'
  idle : s.isReady xIdleTask = true → s'.isReady xIdleTask = true
  fair : Fair x new a a'
  left : ∀ t, x = some t → s.isReady t = true → s'.isReady t = true →
    (∃ p, l = .prioritySet t p) ∨ s'.uxPriority t ≠ s.uxPriority t
  dispatched : s'.dispatched = s.dispatched ++ new
  preempts : s.Preempts → ¬ s.Missed l → s'.Preempts
  books : s.MutexBooks → s'.MutexBooks

omit [DecidableEq T] in
theorem Turned.refl (h : P → s.Preempts) : Turned s s [] P :=
  ⟨⟨rfl, rfl, rfl, rfl⟩, fun _ => Iff.rfl, (List.append_nil _).symm, h⟩

variable [Fintype E]

omit [DecidableEq E] in
theorem MutexBooks.of_same (h : s.MutexBooks) (hs : SameBooks s s') : s'.MutexBooks := by
  refine ⟨fun t => ?_, fun t => ?_⟩
  · rw [hs.held, hs.holder]
    exact h.held t
  · rw [hs.held, hs.priority, hs.base]
    exact h.base t

/-- Tasks have become ready, and then there was a switch or none. -/
theorem Outcome.of_moved (hm : Moved s s1 asked) (hf1 : Fair none [] a a1)
    (ht : Turned s1 s' new P) (hf : Fair none new a1 a') (h : Good none s' a')
    (hP : s.Preempts → asked ∨ s1.Preempts → P) : Outcome l xIdleTask none s s' a a' new := by
  refine ⟨h, fun hi => (ht.ready _).2 (hm.kept _ hi), hf1.trans hf, nofun, ?_, fun hp _ => ?_,
    fun hb => hb.of_same (hm.books.trans ht.books)⟩
  · rw [ht.dispatched, hm.dispatched]
  · exact ht.preempts (hP hp (hm.preempts hp))

/-- The same where no task has moved. -/
theorem Outcome.of_same (h : Good none s a) (hbooks : SameBooks s s') (hls : s'.lists = s.lists)
    (hcur : s'.pxCurrentTCB = s.pxCurrentTCB) (htop : s'.uxTopReadyPriority = s.uxTopReadyPriority)
    (hdisp : s'.dispatched = s.dispatched) (hp : s.xYieldPending = true → s'.xYieldPending = true) :
    Outcome l xIdleTask none s s' a a [] := by
  have hm : Moved s s' False := Moved.of_same s' hbooks (fun _ => by rw [hls]) hcur hdisp hp
  exact Outcome.of_moved hm (Fair.refl none a) (Turned.refl id) (Fair.refl none a)
    (h.of_same s' hls hbooks.priority htop) fun _ hor => hor.resolve_left id

/-! ## Switches, ticks and the end of a suspension -/

variable [Fintype T]

section

variable (h : Good none s a) (hT : Fintype.card T < 256)

include h hT

theorem Good.yield (hidle : s.isReady xIdleTask = true) :
    ∃ s' a' new, s.vTaskSwitchContext = some s' ∧
      Outcome .yield xIdleTask none s s' a a' new ∧ (s.uxSchedulerSuspended = 0 → s'.Highest) := by
  obtain ⟨s', a', new, hs', h', hfair, hturn, hhigh⟩ := h.switchContext hT ⟨_, hidle⟩
  exact ⟨s', a', new, hs', Outcome.of_moved (Moved.refl s False) (Fair.refl none a) hturn hfair h'
    fun _ _ => trivial, hhigh⟩

theorem Good.tick (hidle : s.isReady xIdleTask = true) (wraps : Bool) (due : Nat) :
    ∃ s' a' new, s.tickInterrupt wraps due = some s' ∧
      Outcome (.tick wraps due) xIdleTask none s s' a a' new ∧
      (s.uxSchedulerSuspended = 0 → s'.Highest) := by
  obtain ⟨s1, a1, b, hs1, h1, hfair1, hm, hsus⟩ := h.incrementTick hT wraps due
  obtain ⟨s', a', new, hs', h', hfair, hturn, hhigh⟩ :=
    h1.switchContext hT ⟨_, hm.kept _ hidle⟩
  refine ⟨s', a', new, by rw [tickInterrupt, hs1]; exact hs',
    Outcome.of_moved hm hfair1 hturn hfair h' fun _ _ => trivial, fun h0 => hhigh ?_⟩
  rw [hsus, h0]

theorem Good.resumeAll (hidle : s.isReady xIdleTask = true) (ticks : List (Bool × Nat)) :
    ∃ s' a' new, s.xTaskResumeAll ticks = some s' ∧
      Outcome (.resumeAll ticks) xIdleTask none s s' a a' new := by
  rw [xTaskResumeAll]
  dsimp only
  split
  · have h0 : Good none { s with uxSchedulerSuspended := s.uxSchedulerSuspended - 1 } a :=
      h.of_same _ rfl rfl rfl
    have hm0 : Moved s { s with uxSchedulerSuspended := s.uxSchedulerSuspended - 1 } False :=
      Moved.of_same _ ⟨rfl, rfl, rfl, rfl⟩ (fun _ => rfl) rfl rfl id
    obtain ⟨s1, a1, hs1, h1, hfair1, hm1⟩ :=
      h0.movePending hT 256 ((Finset.card_le_univ _).trans_lt hT)
    obtain ⟨s2, a2, hs2, h2, hfair2, hm2⟩ := h1.pendedTicks hT ticks
    have hm : Moved s s2 (s2.xYieldPending = true) := by
      refine ((hm0.trans hm1).trans hm2).mono ?_
      rintro ((hfalse | hask) | hask)
      · exact hfalse.elim
      · exact hm2.pending hask
      · exact hask
    obtain ⟨s', a', new, hs', h', hfair, hturn⟩ :=
      h2.switchIf hT ⟨_, hm.kept _ hidle⟩ s2.xYieldPending
    refine ⟨s', a', new, ?_, Outcome.of_moved hm (hfair1.trans hfair2) hturn hfair h'
      fun _ hor => hor⟩
    rw [hs1, Option.bind_some, hs2]
    exact hs'
  · exact ⟨_, a, [], rfl, Outcome.of_same h ⟨rfl, rfl, rfl, rfl⟩ rfl rfl rfl rfl id⟩

theorem Good.wakeFirst {e : E} (hne : ¬ s.lists.listListIsEmpty (.event e) = true) :
    ∃ s' a' new, s.perform (.removeFromEventList e) = some s' ∧
      Outcome (.removeFromEventList e) xIdleTask none s s' a a' new := by
  obtain ⟨t, s', a', b, -, -, hs', h', hfair, hm, hy⟩ := h.removeFromEventList hT hne
  refine ⟨s', a', [], by rw [perform, hs']; rfl, Outcome.of_moved hm hfair
    (Turned.refl (P := s'.Preempts) id) (Fair.refl none a') h' fun _ hor => ?_⟩
  obtain rfl | hp := hor
  · exact .inl (by rw [hy, Bool.or_true])
  · exact hp

/-- A suspended task becomes ready. -/
theorem Good.resumed (hidle : s.isReady xIdleTask = true)
    (hsus : s.prvTaskIsTaskSuspended t = true) :
    ∃ s' a' new, ((s.makeReady t).bind fun s =>
        s.switchIf (decide (s.uxPriority t ≥ s.uxPriority s.pxCurrentTCB))) = some s' ∧
      Outcome l xIdleTask none s s' a a' new := by
  obtain ⟨hc, he⟩ : s.lists.pvContainer (.xGenericListItem t) = some .xSuspendedTaskList ∧
      s.lists.pvContainer (.xEventListItem t) = none := by
    simpa [prvTaskIsTaskSuspended, Lists.listIsContainedWithin] using hsus
  have hr : s.isReady t = false := by
    refine Bool.eq_false_iff.2 fun hr => ?_
    rw [isReady_iff, hc] at hr
    cases hr
  obtain ⟨ls, top, a1, hls, h1, hcon, hfair1⟩ := h.makeReady (.inl rfl) ⟨_, hc⟩ he
  have hm : Moved s { s with lists := ls, uxTopReadyPriority := top }
      (decide (s.uxPriority t ≥ s.uxPriority s.pxCurrentTCB) = true) := by
    refine Moved.wake (t := t) (fun u => ?_) top id fun hgt => ?_
    · rw [hcon]
      by_cases hu : u = t
      · subst hu
        rw [update_self, if_pos rfl]
      · rw [update_of_ne (by simpa using hu), if_neg hu]
    · rw [decide_eq_true_iff]
      exact (not_le.1 hgt).le
  obtain ⟨s', a', new, hs', h', hfair, hturn⟩ := h1.switchIf hT ⟨_, hm.kept _ hidle⟩
    (decide (s.uxPriority t ≥ s.uxPriority s.pxCurrentTCB))
  refine ⟨s', a', new, ?_, Outcome.of_moved hm (hfair1.of_unready h hr) hturn hfair h'
    fun _ hor => hor⟩
  rw [hls]
  exact hs'

theorem Good.resume (hidle : s.isReady xIdleTask = true) (t : T) :
    ∃ s' a' new, s.vTaskResume t = some s' ∧ Outcome (.resume t) xIdleTask none s s' a a' new := by
  rw [vTaskResume]
  split
  · rename_i hsus
    exact h.resumed hT hidle hsus.2
  · exact ⟨s, a, [], rfl, Outcome.of_same h ⟨rfl, rfl, rfl, rfl⟩ rfl rfl rfl rfl id⟩

theorem Good.resumeFromISR (hidle : s.isReady xIdleTask = true) (t : T) :
    ∃ s' a' new, s.xTaskResumeFromISR t = some s' ∧
      Outcome (.resumeFromISR t) xIdleTask none s s' a a' new := by
  rw [xTaskResumeFromISR]
  split
  · rename_i hsus
    split
    · exact h.resumed hT hidle hsus
    · obtain ⟨hc, he⟩ : s.lists.pvContainer (.xGenericListItem t) = some .xSuspendedTaskList ∧
          s.lists.pvContainer (.xEventListItem t) = none := by
        simpa [prvTaskIsTaskSuspended, Lists.listIsContainedWithin] using hsus
      have hr : s.isReady t = false := by
        refine Bool.eq_false_iff.2 fun hr => ?_
        rw [isReady_iff, hc] at hr
        cases hr
      have hm : Moved s { s with
          lists := s.lists.vListInsertEnd .xPendingReadyList (.xEventListItem t) } False := by
        refine Moved.of_same _ ⟨rfl, rfl, rfl, rfl⟩ (fun u => ?_) rfl rfl id
        rw [vListInsertEnd_container, update_of_ne (by simp)]
      refine ⟨_, _, [], rfl, Outcome.of_moved hm
        (fair_insertEnd .xPendingReadyList (.xEventListItem t)) (Turned.refl id)
        (Fair.refl none _) ?_ fun _ hor => hor.resolve_left id⟩
      · exact h.moveEvent (t := t) (.inl rfl) (h.rep.insertEnd (h.rep.inNoList he)) rfl rfl
          (fun l hl => by cases hl; trivial) (.inr ⟨rfl, .inr hr⟩)
  · exact ⟨s, a, [], rfl, Outcome.of_same h ⟨rfl, rfl, rfl, rfl⟩ rfl rfl rfl rfl id⟩

end

/-! ## Suspending and blocking -/

omit [Fintype T] [Fintype E] in
/-- A task that is in no list goes to the end of the suspended list. -/
theorem Good.park (h : Good x s a) (hx : x = none ∨ x = some t)
    (hg : s.lists.pvContainer (.xGenericListItem t) = none) :
    ∃ a', Good none { s with
        lists := s.lists.vListInsertEnd .xSuspendedTaskList (.xGenericListItem t) } a' ∧
      Fair none [] a a' ∧
      (s.lists.vListInsertEnd .xSuspendedTaskList (.xGenericListItem t)).pvContainer =
        update s.lists.pvContainer (.xGenericListItem t) (some .xSuspendedTaskList) := by
  refine ⟨_, h.moveGeneric hx
    { s with lists := s.lists.vListInsertEnd .xSuspendedTaskList (.xGenericListItem t) }
    (h.rep.insertEnd (h.rep.inNoList hg)) rfl vListInsertEnd_container
    (fun _ _ => rfl) (fun l hl => ?_) le_rfl (fun _ hn => ?_) (.inr ⟨rfl, by simp⟩),
    fair_insertEnd _ _, vListInsertEnd_container⟩
  · cases hl
    trivial
  · cases hn

omit [Fintype T] in
/-- A task has left the ready lists. -/
theorem Outcome.of_stopped (hbooks : SameBooks s s') (hcur : s'.pxCurrentTCB = s.pxCurrentTCB)
    (hdisp : s'.dispatched = s.dispatched) (hp : s'.xYieldPending = s.xYieldPending)
    (hgen : ∀ u, u ≠ t → s'.lists.pvContainer (.xGenericListItem u) =
      s.lists.pvContainer (.xGenericListItem u))
    (hself : s'.isReady t = false) (hidle : t ≠ xIdleTask) (hf : Fair (some t) [] a a')
    (h : Good none s' a') : Outcome l xIdleTask (some t) s s' a a' [] := by
  have hready : ∀ u, u ≠ t → (s'.isReady u = true ↔ s.isReady u = true) := by
    intro u hu
    rw [isReady_iff, isReady_iff, hgen u hu, hbooks.priority]
  refine ⟨h, fun hi => (hready _ hidle.symm).2 hi, hf, fun u hu _ hr => ?_, ?_, fun hpre _ => ?_,
    fun hb => hb.of_same hbooks⟩
  · obtain rfl := Option.some.inj hu
    rw [hself] at hr
    cases hr
  · rw [hdisp, List.append_nil]
  · obtain hy | hmax := hpre
    · exact .inl (hp.trans hy)
    · refine .inr fun u hu => ?_
      rw [hbooks.priority, hcur]
      by_cases hut : u = t
      · subst hut
        rw [hself] at hu
        cases hu
      · exact hmax u ((hready u hut).1 hu)

omit [Fintype T] in
theorem Good.suspendTask (h : Good none s a) (hne : t ≠ xIdleTask) :
    ∃ s' a', s.vTaskSuspend t = some s' ∧
      Outcome (.suspend t) xIdleTask (some t) s s' a a' [] := by
  obtain ⟨ls1, a1, hls1, h1, hcon1, hfair1⟩ := h.removeGeneric (.inl rfl) (h.home t (by simp))
  obtain ⟨ls2, a2, hls2, h2, hcon2, hfair2⟩ := h1.leaveEvent (.inr rfl)
  have hgen : ∀ u, ls2.pvContainer (.xGenericListItem u) =
      update s.lists.pvContainer (.xGenericListItem t) none (.xGenericListItem u) := by
    intro u
    rw [hcon2, update_of_ne (by simp)]
    exact congrFun hcon1 _
  obtain ⟨a', h', hfair, hcon⟩ := h2.park (.inr rfl) ((hgen t).trans (update_self _ _ _))
  refine ⟨{ s with lists := ls2.vListInsertEnd .xSuspendedTaskList (.xGenericListItem t) }, a',
    by rw [vTaskSuspend, hls1, Option.bind_some, hls2]; rfl,
    Outcome.of_stopped ⟨rfl, rfl, rfl, rfl⟩ rfl rfl rfl (fun u hu => ?_) ?_ hne
      ((hfair1.trans hfair2.weaken).trans hfair.weaken) h'⟩
  · have hug : TaskItem.xGenericListItem u ≠ .xGenericListItem t := by simpa using hu
    rw [hcon, update_of_ne hug, hgen, update_of_ne hug]
  · refine Bool.eq_false_iff.2 fun hr => ?_
    rw [isReady_iff, hcon, update_self] at hr
    cases hr

omit [Fintype T] [Fintype E] in
/-- An item goes to its place in a list that is no ready list. -/
theorem insert_spec {ls : Lists (TaskList E) (TaskItem T) T} (h : Represents ls a)
    {c : TaskList E} (hlen : (a.walk c).items.length < 256) {i : TaskItem T}
    (hi : ls.pvContainer i = none) (hc : ∀ p, c ≠ .pxReadyTasksLists p) :
    ∃ ls' a', ls.vListInsert 256 c i = some ls' ∧ Represents ls' a' ∧ Fair none [] a a' ∧
      ls'.pvContainer = update ls.pvContainer i (some c) ∧ ls'.pvOwner = ls.pvOwner := by
  obtain ⟨ls', hls, hrep⟩ := h.insert (h.inNoList hi) hlen
  obtain ⟨hcon, hown, -⟩ := vListInsert_frame hls
  exact ⟨ls', _, hls, hrep, fair_setWalk fun p _ _ hp _ _ => absurd hp (hc p), hcon, hown⟩

omit [Fintype E] in
/-- The running task goes to the list it is to wait in. -/
theorem Good.addCurrent (h : Good x s a) (hT : Fintype.card T < 256)
    (hx : x = none ∨ x = some s.pxCurrentTCB)
    (hg : s.lists.pvContainer (.xGenericListItem s.pxCurrentTCB) = none) (w : Wait) :
    ∃ ls a' l, s.addCurrent w = some { s with lists := ls } ∧ Good none { s with lists := ls } a' ∧
      Fair none [] a a' ∧ (∀ p, l ≠ .pxReadyTasksLists p) ∧
      ls.pvContainer =
        update s.lists.pvContainer (.xGenericListItem s.pxCurrentTCB) (some l) := by
  cases w with
  | forever =>
    obtain ⟨a', h', hfair, hcon⟩ := h.park hx hg
    exact ⟨_, a', .xSuspendedTaskList, rfl, h', hfair, by simp, hcon⟩
  | until_ overflow xTimeToWake =>
    obtain ⟨l, hl⟩ : ∃ l : TaskList E, l = .xDelayedTaskList (xor overflow s.pxDelayedTaskList) :=
      ⟨_, rfl⟩
    have hrep := h.rep.setValue (i := .xGenericListItem s.pxCurrentTCB) xTimeToWake
    obtain ⟨ls, a', hls, hrep', hfair, hcon, hown⟩ :=
      insert_spec hrep (c := l) ((h.length_le l).trans_lt hT) hg (by simp [hl])
    refine ⟨ls, a', l, ?_, h.moveGeneric hx { s with lists := ls } hrep' hown hcon (fun _ _ => rfl)
      (fun l' hl' => ?_) le_rfl (fun p hp => ?_) (.inr ⟨rfl, by simp⟩), hfair, by simp [hl], hcon⟩
    · rw [Scheduler.addCurrent, ← hl, hls, Option.map_some]
    · cases hl'
      subst hl
      trivial
    · subst hl
      cases hp

omit [Fintype E] in
theorem Good.block (h : Good x s a) (hT : Fintype.card T < 256)
    (hx : x = none ∨ x = some s.pxCurrentTCB)
    (hc : ∃ l, s.lists.pvContainer (.xGenericListItem s.pxCurrentTCB) = some l) (w : Wait) :
    ∃ ls a' l, s.block w = some { s with lists := ls } ∧ Good none { s with lists := ls } a' ∧
      Fair (some s.pxCurrentTCB) [] a a' ∧ (∀ p, l ≠ .pxReadyTasksLists p) ∧
      ls.pvContainer =
        update s.lists.pvContainer (.xGenericListItem s.pxCurrentTCB) (some l) := by
  obtain ⟨ls1, a1, hls1, h1, hcon1, hfair1⟩ := h.removeGeneric hx hc
  obtain ⟨ls, a', l, hls, h', hfair, hl, hcon⟩ :=
    h1.addCurrent hT (.inr rfl) ((congrFun hcon1 _).trans (update_self _ _ _)) w
  refine ⟨ls, a', l, by rw [Scheduler.block, hls1]; exact hls, h', hfair1.trans hfair.weaken, hl, ?_⟩
  rw [hcon]
  change update ls1.pvContainer _ _ = _
  rw [hcon1, update_idem]

omit [Fintype T] in
/-- The running task has blocked. -/
theorem Outcome.of_blocked {ls : Lists (TaskList E) (TaskItem T) T} {c : TaskList E}
    (hgen : ∀ u, ls.pvContainer (.xGenericListItem u) =
      update s.lists.pvContainer (.xGenericListItem s.pxCurrentTCB) (some c) (.xGenericListItem u))
    (hc : ∀ p, c ≠ .pxReadyTasksLists p) (hidle : s.pxCurrentTCB ≠ xIdleTask)
    (hf : Fair (some s.pxCurrentTCB) [] a a') (h : Good none { s with lists := ls } a') :
    Outcome l xIdleTask (some s.pxCurrentTCB) s { s with lists := ls } a a' [] := by
  refine Outcome.of_stopped ⟨rfl, rfl, rfl, rfl⟩ rfl rfl rfl (fun u hu => ?_) ?_ hidle hf h
  · rw [hgen, update_of_ne (by simpa using hu)]
  · refine Bool.eq_false_iff.2 fun hr => ?_
    rw [isReady_iff, hgen, update_self] at hr
    exact hc _ (Option.some.inj hr)

theorem Good.blockCurrent (h : Good none s a) (hT : Fintype.card T < 256)
    (hidle : s.pxCurrentTCB ≠ xIdleTask) (w : Wait) :
    ∃ s' a', s.block w = some s' ∧
      Outcome (.block w) xIdleTask (some s.pxCurrentTCB) s s' a a' [] := by
  obtain ⟨ls, a', l, hls, h', hfair, hl, hcon⟩ := h.block hT (.inl rfl) (h.home _ (by simp)) w
  exact ⟨_, a', hls, Outcome.of_blocked (fun u => congrFun hcon _) hl hidle hfair h'⟩

theorem Good.placeOnEventList (h : Good none s a) (hT : Fintype.card T < 256)
    (hidle : s.pxCurrentTCB ≠ xIdleTask) (hr : s.isReady s.pxCurrentTCB = true) (e : E) (w : Wait) :
    ∃ s' a', s.vTaskPlaceOnEventList e w = some s' ∧
      Outcome (.placeOnEventList e w) xIdleTask (some s.pxCurrentTCB) s s' a a' [] := by
  have he : s.lists.pvContainer (.xEventListItem s.pxCurrentTCB) = none := by
    refine Option.eq_none_iff_forall_ne_some.2 fun l hl => ?_
    rw [h.waits _ l (by simp) hl] at hr
    cases hr
  obtain ⟨ls1, a1, hls1, hrep1, hfair1, hcon1, hown1⟩ :=
    insert_spec h.rep ((h.length_le (.event e)).trans_lt hT) he (by simp)
  have h1 : Good (some s.pxCurrentTCB) { s with lists := ls1 } a1 :=
    h.moveEvent (.inl rfl) hrep1 hown1 hcon1 (fun l hl => by cases hl; trivial) (.inl rfl)
  have hgen1 : ∀ u, ls1.pvContainer (.xGenericListItem u) =
      s.lists.pvContainer (.xGenericListItem u) := by
    intro u
    rw [hcon1, update_of_ne (by simp)]
  obtain ⟨l, hl⟩ := h.home s.pxCurrentTCB (by simp)
  obtain ⟨ls, a', c, hls, h', hfair, hc, hcon⟩ :=
    h1.block hT (.inr rfl) ⟨l, (hgen1 _).trans hl⟩ w
  refine ⟨{ s with lists := ls }, a', ?_,
    Outcome.of_blocked (fun u => ?_) hc hidle (hfair1.weaken.trans hfair) h'⟩
  · rw [vTaskPlaceOnEventList, hls1]
    exact hls
  · rw [hcon]
    by_cases hu : u = s.pxCurrentTCB
    · rw [hu, update_self, update_self]
    · have hug : TaskItem.xGenericListItem u ≠ .xGenericListItem s.pxCurrentTCB := by simpa using hu
      rw [update_of_ne hug, update_of_ne hug]
      exact hgen1 u

/-! ## Taking a mutex -/

omit [Fintype T] in
theorem mutexesOf_update {f : E → Option T} {e : E} (he : f e = none) (t u : T) :
    mutexesOf (update f e (some u)) t = mutexesOf f t + if t = u then 1 else 0 := by
  have hold : e ∉ Finset.univ.filter fun e' => f e' = some t := by simp [he]
  by_cases htu : t = u
  · have hset : (Finset.univ.filter fun e' => update f e (some u) e' = some t) =
        insert e (Finset.univ.filter fun e' => f e' = some t) := by
      ext e'
      by_cases hee : e' = e
      · simp [hee, htu]
      · simp [hee]
    rw [mutexesOf, hset, Finset.card_insert_of_notMem hold, if_pos htu, mutexesOf]
  · have hset : (Finset.univ.filter fun e' => update f e (some u) e' = some t) =
        Finset.univ.filter fun e' => f e' = some t := by
      ext e'
      by_cases hee : e' = e
      · simp [hee, he, Ne.symm htu]
      · simp [update_of_ne hee]
    rw [mutexesOf, hset, if_neg htu, mutexesOf, Nat.add_zero]

omit [Fintype T] in
theorem Good.take (h : Good none s a) {e : E} (he : s.pxMutexHolder e = none) :
    Outcome (.takeMutex e) xIdleTask none s (s.takeMutex e) a a [] := by
  refine ⟨h.of_same _ rfl rfl rfl, id, Fair.refl none a, nofun, (List.append_nil _).symm,
    fun hp _ => hp, fun hb => ⟨fun t => ?_, fun t ht => ?_⟩⟩
  · rw [takeMutex]
    dsimp only
    rw [mutexesOf_update he, update_apply, hb.held, hb.held]
    split
    · rename_i ht
      rw [ht]
    · rfl
  · rw [takeMutex] at ht
    dsimp only at ht
    rw [update_apply] at ht
    split at ht
    · cases ht
    · exact hb.base t ht

end Scheduler

end HmBoard
