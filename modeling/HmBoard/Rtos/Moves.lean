import HmBoard.Rtos.ReadyLists

/-!
# Tasks that become ready

`Moved s s' asked`: tasks have been made ready, and where one of them has a higher priority than the
running task, then `asked`. Waking, the tick and the end of a suspension are moves, followed by a
switch where it was asked for.
-/

namespace HmBoard

open Lib Function

namespace Scheduler

variable {T E : Type} {x : Option T} {s s' s'' : Scheduler T E} {a a' : TaskWalks T E} {t u : T}
  {asked asked' : Prop}

theorem SameBooks.refl (s : Scheduler T E) : SameBooks s s := ⟨rfl, rfl, rfl, rfl⟩

theorem SameBooks.trans (h : SameBooks s s') (h' : SameBooks s' s'') : SameBooks s s'' :=
  ⟨h'.priority.trans h.priority, h'.base.trans h.base, h'.held.trans h.held,
    h'.holder.trans h.holder⟩

variable [DecidableEq E]

structure Moved (s s' : Scheduler T E) (asked : Prop) : Prop where
  books : SameBooks s s'
  current : s'.pxCurrentTCB = s.pxCurrentTCB
  dispatched : s'.dispatched = s.dispatched
  pending : s.xYieldPending = true → s'.xYieldPending = true
  kept : ∀ u, s.isReady u = true → s'.isReady u = true
  readied : ∀ u, s'.isReady u = true →
    s.isReady u = true ∨ asked ∨ s.uxPriority u ≤ s.uxPriority s.pxCurrentTCB

theorem Moved.refl (s : Scheduler T E) (asked : Prop) : Moved s s asked :=
  ⟨SameBooks.refl s, rfl, rfl, id, fun _ => id, fun _ => .inl⟩

theorem Moved.trans (h : Moved s s' asked) (h' : Moved s' s'' asked') :
    Moved s s'' (asked ∨ asked') := by
  refine ⟨h.books.trans h'.books, h'.current.trans h.current,
    h'.dispatched.trans h.dispatched, fun hp => h'.pending (h.pending hp),
    fun u hu => h'.kept u (h.kept u hu), fun u hu => ?_⟩
  obtain hu | hask | hle := h'.readied u hu
  · obtain hu | hask | hle := h.readied u hu
    · exact .inl hu
    · exact .inr (.inl (.inl hask))
    · exact .inr (.inr hle)
  · exact .inr (.inl (.inr hask))
  · rw [h.books.priority, h.current] at hle
    exact .inr (.inr hle)

theorem Moved.mono (h : Moved s s' asked) (himp : asked → asked') : Moved s s' asked' :=
  ⟨h.books, h.current, h.dispatched, h.pending, h.kept, fun u hu =>
    (h.readied u hu).imp_right (Or.imp_left himp)⟩

/-- No task has left a list or joined one. -/
theorem Moved.of_same (s' : Scheduler T E) (hbooks : SameBooks s s')
    (hgen : ∀ u, s'.lists.pvContainer (.xGenericListItem u) =
      s.lists.pvContainer (.xGenericListItem u))
    (hcur : s'.pxCurrentTCB = s.pxCurrentTCB) (hdisp : s'.dispatched = s.dispatched)
    (hp : s.xYieldPending = true → s'.xYieldPending = true) : Moved s s' asked := by
  have hready : ∀ u, s'.isReady u = true ↔ s.isReady u = true := by
    intro u
    rw [isReady_iff, isReady_iff, hgen, hbooks.priority]
  exact ⟨hbooks, hcur, hdisp, hp, fun u hu => (hready u).2 hu, fun u hu => .inl ((hready u).1 hu)⟩

theorem Moved.preempts (h : Moved s s' asked) (hp : s.Preempts) : asked ∨ s'.Preempts := by
  by_cases hask : asked
  · exact .inl hask
  · refine .inr ?_
    obtain hy | hmax := hp
    · exact .inl (h.pending hy)
    · refine .inr fun u hu => ?_
      rw [h.books.priority, h.current]
      obtain hu | hask' | hle := h.readied u hu
      · exact hmax u hu
      · exact absurd hask' hask
      · exact hle

/-- Nothing the lists depend on has changed. -/
theorem Good.of_same (h : Good x s a) (s' : Scheduler T E) (hls : s'.lists = s.lists)
    (hprio : s'.uxPriority = s.uxPriority) (htop : s'.uxTopReadyPriority = s.uxTopReadyPriority) :
    Good x s' a :=
  (h.turn s' (hls ▸ h.rep) (by rw [hls]) (by rw [hls]) hprio (htop ▸ h.top)).1

variable [DecidableEq T]

/-- A task that was not ready has lost no turn. -/
theorem Fair.of_unready {new : List (Priority × T)} (hf : Fair (some t) new a a')
    (h : Good none s a) (hr : s.isReady t = false) : Fair none new a a' := by
  intro p v u n _ hnew hw
  refine hf p v u n (fun heq => ?_) hnew hw
  obtain rfl := Option.some.inj heq
  rw [(h.ready_of_mem hw.1).1] at hr
  cases hr

theorem Good.leaveEvent (h : Good x s a) (hx : x = none ∨ x = some t) :
    ∃ ls a', s.leaveEvent t = some { s with lists := ls } ∧ Good x { s with lists := ls } a' ∧
      ls.pvContainer = update s.lists.pvContainer (.xEventListItem t) none ∧ Fair none [] a a' := by
  rw [Scheduler.leaveEvent]
  split
  · rename_i hnone
    refine ⟨s.lists, a, rfl, h, ?_, Fair.refl none a⟩
    rw [← hnone, update_eq_self]
  · rename_i hsome
    obtain ⟨l, hl⟩ := Option.ne_none_iff_exists'.1 hsome
    exact h.removeEvent hx hl

/-- Task `t` has been made ready. -/
theorem Moved.wake {ls : Lists (TaskList E) (TaskItem T) T}
    (hcon : ∀ u, ls.pvContainer (.xGenericListItem u) =
      if u = t then some (.pxReadyTasksLists (s.uxPriority t))
      else s.lists.pvContainer (.xGenericListItem u))
    (top : Priority) {pending : Bool} (hp : s.xYieldPending = true → pending = true)
    (hask : ¬ s.uxPriority t ≤ s.uxPriority s.pxCurrentTCB → asked) :
    Moved s { s with lists := ls, uxTopReadyPriority := top, xYieldPending := pending } asked := by
  refine ⟨⟨rfl, rfl, rfl, rfl⟩, rfl, rfl, hp, fun u hu => ?_, fun u hu => ?_⟩
  · rw [isReady_iff] at hu ⊢
    change ls.pvContainer _ = _
    rw [hcon]
    split
    · rename_i heq
      subst heq
      rfl
    · exact hu
  · by_cases heq : u = t
    · subst heq
      by_cases hle : s.uxPriority u ≤ s.uxPriority s.pxCurrentTCB
      · exact .inr (.inr hle)
      · exact .inr (.inl (hask hle))
    · have hu := isReady_iff.1 hu
      change ls.pvContainer _ = _ at hu
      rw [hcon, if_neg heq] at hu
      exact .inl (isReady_iff.2 hu)

/-- Off its event list and into its ready list. -/
theorem Good.wakeEvent (h : Good none s a) {l : TaskList E}
    (he : s.lists.pvContainer (.xEventListItem t) = some l) :
    ∃ ls ls' top a', s.listRemove (.xEventListItem t) = some { s with lists := ls } ∧
      Scheduler.makeReady { s with lists := ls } t =
        some { s with lists := ls', uxTopReadyPriority := top } ∧
      Good none { s with lists := ls', uxTopReadyPriority := top } a' ∧
      ls'.pvContainer = update (update s.lists.pvContainer (.xEventListItem t) none)
        (.xGenericListItem t) (some (.pxReadyTasksLists (s.uxPriority t))) ∧ Fair none [] a a' := by
  have hr := h.waits t l (by simp) he
  obtain ⟨ls, a1, hls, h1, hcon1, hfair1⟩ := h.removeEvent (.inl rfl) he
  have hne : (TaskItem.xGenericListItem t) ≠ .xEventListItem t := by simp
  obtain ⟨l', hc⟩ := h.home t (by simp)
  have hc1 : ls.pvContainer (.xGenericListItem t) = some l' := by rwa [hcon1, update_of_ne hne]
  have hr1 : isReady { s with lists := ls } t = false := by
    refine Bool.eq_false_iff.2 fun hr1 => ?_
    have hr1 := isReady_iff.1 hr1
    change ls.pvContainer _ = _ at hr1
    rw [hcon1, update_of_ne hne, ← isReady_iff, hr] at hr1
    cases hr1
  obtain ⟨ls', top, a2, hls', h2, hcon2, hfair2⟩ := h1.makeReady (.inl rfl) ⟨l', hc1⟩
    (by rw [hcon1, update_self])
  refine ⟨ls, ls', top, a2, hls, hls', h2, ?_, hfair1.trans (hfair2.of_unready h1 hr1)⟩
  rw [hcon2]
  exact congrArg (fun f => update f _ _) hcon1

/-! ## The tick -/

variable [Fintype T]

theorem Good.unblock (hT : Fintype.card T < 256) (n : Nat) {s : Scheduler T E} {a : TaskWalks T E}
    (h : Good none s a) :
    ∃ s' a' b, unblock n s = some (s', b) ∧ Good none s' a' ∧ Fair none [] a a' ∧
      Moved s s' (b = true) ∧ s'.uxSchedulerSuspended = s.uxSchedulerSuspended := by
  induction n generalizing s a with
  | zero => exact ⟨s, a, false, rfl, h, Fair.refl none a, Moved.refl s _, rfl⟩
  | succ n ih =>
    rw [Scheduler.unblock]
    split
    · exact ⟨s, a, false, rfl, h, Fair.refl none a, Moved.refl s _, rfl⟩
    · rename_i hne
      obtain ⟨i, hhead, hi⟩ := h.head hT hne
      have hholds := h.holds i _ hi
      cases i with
      | xEventListItem t => cases hholds
      | xGenericListItem t =>
        have hr : s.isReady t = false := by
          refine Bool.eq_false_iff.2 fun hr => ?_
          rw [isReady_iff, hi] at hr
          cases hr
        obtain ⟨ls1, a1, hls1, h1, hcon1, hfair1⟩ := h.removeGeneric (.inl rfl) ⟨_, hi⟩
        obtain ⟨ls2, a2, hls2, h2, hcon2, hfair2⟩ := h1.leaveEvent (.inr rfl)
        obtain ⟨a3, h3, hfair3, -⟩ := h2.addReady (.inr rfl)
          (by rw [hcon2, update_of_ne (by simp)]; exact (congrFun hcon1 _).trans (update_self _ _ _))
          (by rw [hcon2, update_self])
        obtain ⟨s', a', b, hs', h', hfair', hmoved, hsus⟩ := ih h3
        have hwake : Moved s (prvAddTaskToReadyList { s with lists := ls2 } t)
            (decide (s.uxPriority t ≥ s.uxPriority s.pxCurrentTCB) = true) := by
          refine Moved.wake (t := t) (fun u => ?_) _ id fun hgt => ?_
          · change update ls2.pvContainer _ _ _ = _
            by_cases hu : u = t
            · subst hu
              rw [update_self, if_pos rfl]
            · have hug : (TaskItem.xGenericListItem u) ≠ .xGenericListItem t := by simpa using hu
              rw [update_of_ne hug, hcon2, update_of_ne (by simp), if_neg hu]
              exact (congrFun hcon1 _).trans (update_of_ne hug _ _)
          · rw [decide_eq_true_iff]
            exact (not_le.1 hgt).le
        refine ⟨s', a', b || decide (s.uxPriority t ≥ s.uxPriority s.pxCurrentTCB), ?_, h', ?_,
          (hwake.trans hmoved).mono fun hor => ?_, hsus⟩
        · simp only [hhead, Option.bind_some, TaskItem.task, hls1, hls2, hs', Option.map_some]
        · have hfair := (hfair1.trans hfair2.weaken).trans hfair3.weaken
          exact (hfair.of_unready h hr).trans hfair'
        · rw [Bool.or_eq_true]
          exact hor.symm

theorem Good.incrementTick (h : Good none s a) (hT : Fintype.card T < 256) (wraps : Bool) (due : Nat) :
    ∃ s' a' b, s.xTaskIncrementTick wraps due = some (s', b) ∧ Good none s' a' ∧
      Fair none [] a a' ∧ Moved s s' (b = true) ∧
      s'.uxSchedulerSuspended = s.uxSchedulerSuspended := by
  rw [xTaskIncrementTick]
  split
  · have hswitch : ∃ s1, (if wraps = true then { s with pxDelayedTaskList := !s.pxDelayedTaskList }
        else s) = s1 ∧ Good none s1 a ∧ Moved s s1 False ∧
          s1.uxSchedulerSuspended = s.uxSchedulerSuspended := by
      cases wraps with
      | false => exact ⟨s, rfl, h, Moved.refl s False, rfl⟩
      | true =>
        exact ⟨_, rfl, h.of_same _ rfl rfl rfl,
          Moved.of_same _ ⟨rfl, rfl, rfl, rfl⟩ (fun _ => rfl) rfl rfl id, rfl⟩
    obtain ⟨s1, heq, h1, hm1, hsus1⟩ := hswitch
    obtain ⟨s', a', b, hs', h', hfair, hm, hsus⟩ := h1.unblock hT due
    refine ⟨s', a', b || s'.xYieldPending, ?_, h', hfair, (hm1.trans hm).mono fun hor => ?_,
      hsus.trans hsus1⟩
    · rw [heq]
      simp only [hs', Option.map_some]
    · rw [hor.resolve_left id, Bool.true_or]
  · exact ⟨s, a, _, rfl, h, Fair.refl none a, Moved.refl s _, rfl⟩

theorem Good.pendedTicks (hT : Fintype.card T < 256) (ticks : List (Bool × Nat))
    {s : Scheduler T E} {a : TaskWalks T E} (h : Good none s a) :
    ∃ s' a', pendedTicks ticks s = some s' ∧ Good none s' a' ∧ Fair none [] a a' ∧
      Moved s s' (s'.xYieldPending = true) := by
  induction ticks generalizing s a with
  | nil => exact ⟨s, a, rfl, h, Fair.refl none a, Moved.refl s _⟩
  | cons tick ticks ih =>
    obtain ⟨wraps, due⟩ := tick
    obtain ⟨s1, a1, b, hs1, h1, hfair1, hm1, -⟩ := h.incrementTick hT wraps due
    have hm2 : Moved s1 (if b = true then { s1 with xYieldPending := true } else s1) False := by
      split
      · exact Moved.of_same _ ⟨rfl, rfl, rfl, rfl⟩ (fun _ => rfl) rfl rfl fun _ => rfl
      · exact Moved.refl s1 _
    have h2 : Good none (if b = true then { s1 with xYieldPending := true } else s1) a1 := by
      split
      · exact h1.of_same _ rfl rfl rfl
      · exact h1
    obtain ⟨s', a', hs', h', hfair', hm'⟩ := ih h2
    refine ⟨s', a', ?_, h', hfair1.trans hfair', ((hm1.trans hm2).trans hm').mono ?_⟩
    · rw [Scheduler.pendedTicks, hs1]
      exact hs'
    · rintro ((rfl | hfalse) | hask)
      · exact hm'.pending rfl
      · exact hfalse.elim
      · exact hask

/-! ## The end of a suspension -/

/-- The tasks on the pending ready list. -/
def pendingTasks (s : Scheduler T E) : Finset T :=
  Finset.univ.filter fun t => s.lists.pvContainer (.xEventListItem t) = some .xPendingReadyList

theorem Good.movePending (hT : Fintype.card T < 256) (n : Nat) {s : Scheduler T E}
    {a : TaskWalks T E} (h : Good none s a) (hn : s.pendingTasks.card < n) :
    ∃ s' a', movePending n s = some s' ∧ Good none s' a' ∧ Fair none [] a a' ∧
      Moved s s' (s'.xYieldPending = true) := by
  induction n generalizing s a with
  | zero => exact absurd hn (Nat.not_lt_zero _)
  | succ n ih =>
    rw [Scheduler.movePending]
    split
    · exact ⟨s, a, rfl, h, Fair.refl none a, Moved.refl s _⟩
    · rename_i hne
      obtain ⟨i, hhead, hi⟩ := h.head hT hne
      have hholds := h.holds i _ hi
      cases i with
      | xGenericListItem t => cases hholds
      | xEventListItem t =>
        obtain ⟨ls1, ls2, top, a1, hls1, hls2, h1, hcon, hfair1⟩ := h.wakeEvent hi
        obtain ⟨y, hy, hyp, hyt⟩ : ∃ y : Bool,
            (if s.uxPriority t ≥ s.uxPriority s.pxCurrentTCB then
              { s with lists := ls2, uxTopReadyPriority := top, xYieldPending := true }
            else { s with lists := ls2, uxTopReadyPriority := top }) =
              { s with lists := ls2, uxTopReadyPriority := top, xYieldPending := y } ∧
            (s.xYieldPending = true → y = true) ∧
            (¬ s.uxPriority t ≤ s.uxPriority s.pxCurrentTCB → y = true) := by
          by_cases hle : s.uxPriority t ≥ s.uxPriority s.pxCurrentTCB
          · exact ⟨true, if_pos hle, fun _ => rfl, fun _ => rfl⟩
          · exact ⟨s.xYieldPending, if_neg hle, id, fun hgt => absurd (not_le.1 hgt).le hle⟩
        have hm1 : Moved s { s with lists := ls2, uxTopReadyPriority := top, xYieldPending := y }
            (y = true) := by
          refine Moved.wake (t := t) (fun u => ?_) top hyp hyt
          rw [hcon]
          by_cases hu : u = t
          · subst hu
            rw [update_self, if_pos rfl]
          · rw [update_of_ne (by simpa using hu), update_of_ne (by simp), if_neg hu]
        have hless : (pendingTasks
            { s with lists := ls2, uxTopReadyPriority := top, xYieldPending := y }).card < n := by
          refine Nat.lt_of_lt_of_le (Finset.card_lt_card ?_) (Nat.le_of_lt_succ hn)
          rw [Finset.ssubset_iff_of_subset]
          · refine ⟨t, by simp [pendingTasks, hi], ?_⟩
            simp [pendingTasks, hcon]
          · intro u hu
            have hu : ls2.pvContainer (.xEventListItem u) = some .xPendingReadyList := by
              simpa [pendingTasks] using hu
            rw [hcon, update_of_ne (by simp)] at hu
            by_cases hut : u = t
            · subst hut
              rw [update_self] at hu
              cases hu
            · rw [update_of_ne (by simpa using hut)] at hu
              simpa [pendingTasks] using hu
        obtain ⟨s', a', hs', h', hfair', hm'⟩ := ih (h1.of_same
          { s with lists := ls2, uxTopReadyPriority := top, xYieldPending := y } rfl rfl rfl) hless
        refine ⟨s', a', ?_, h', hfair1.trans hfair', (hm1.trans hm').mono ?_⟩
        · simp only [hhead, Option.bind_some, TaskItem.task, hls1, hls2]
          rw [hy]
          exact hs'
        · rintro (hask | hask)
          · exact hm'.pending hask
          · exact hask

/-! ## Waking from an event -/

/-- The first task that waits for `e` is ready, or pending where the scheduler is suspended; a
switch is pending where its priority is higher. -/
theorem Good.removeFromEventList (h : Good none s a) (hT : Fintype.card T < 256) {e : E}
    (hne : ¬ s.lists.listListIsEmpty (.event e) = true) :
    ∃ t s' a' b, s.lists.listGetOwnerOfHeadEntry (.event e) = some t ∧
      b = decide (s.uxPriority t > s.uxPriority s.pxCurrentTCB) ∧
      s.xTaskRemoveFromEventList e = some (s', b) ∧ Good none s' a' ∧ Fair none [] a a' ∧
      Moved s s' (b = true) ∧ s'.xYieldPending = (s.xYieldPending || b) := by
  obtain ⟨i, hhead, hi⟩ := h.head hT hne
  have hholds := h.holds i _ hi
  cases i with
  | xGenericListItem t => cases hholds
  | xEventListItem t =>
    have hwoken : ∃ ls s1 a1, s.listRemove (.xEventListItem t) = some { s with lists := ls } ∧
        (if s.uxSchedulerSuspended = 0 then Scheduler.makeReady { s with lists := ls } t
        else some { s with lists := ls.vListInsertEnd .xPendingReadyList (.xEventListItem t) }) =
          some s1 ∧ Good none s1 a1 ∧ Fair none [] a a1 ∧
        Moved s s1 (s.uxPriority t > s.uxPriority s.pxCurrentTCB) ∧
        s1.xYieldPending = s.xYieldPending := by
      by_cases hsus : s.uxSchedulerSuspended = 0
      · obtain ⟨ls, ls', top, a', hls, hls', h', hcon, hfair⟩ := h.wakeEvent hi
        refine ⟨ls, _, a', hls, by rw [if_pos hsus]; exact hls', h', hfair,
          Moved.wake (t := t) (fun u => ?_) top id not_le.1, rfl⟩
        rw [hcon]
        by_cases hu : u = t
        · subst hu
          rw [update_self, if_pos rfl]
        · rw [update_of_ne (by simpa using hu), update_of_ne (by simp), if_neg hu]
      · obtain ⟨ls, a1, hls, h1, hcon, hfair⟩ := h.removeEvent (.inl rfl) hi
        have hnone : ls.pvContainer (.xEventListItem t) = none := by rw [hcon, update_self]
        have hgen : ∀ u, ls.pvContainer (.xGenericListItem u) =
            s.lists.pvContainer (.xGenericListItem u) := by
          intro u
          rw [hcon, update_of_ne (by simp)]
        have hr : isReady { s with lists := ls } t = false := by
          refine Bool.eq_false_iff.2 fun hr => ?_
          rw [isReady_iff] at hr
          have hnot := h.waits t _ (by simp) hi
          rw [isReady_iff.2 ((hgen t).symm.trans hr)] at hnot
          cases hnot
        refine ⟨ls, _, _, hls, if_neg hsus,
          h1.moveEvent (t := t) (.inl rfl) (h1.rep.insertEnd (h1.rep.inNoList hnone)) rfl rfl
            (fun l hl => by cases hl; trivial) (.inr ⟨rfl, .inr hr⟩),
          hfair.trans (fair_insertEnd _ _), ?_, rfl⟩
        refine Moved.of_same _ ⟨rfl, rfl, rfl, rfl⟩ (fun u => ?_) rfl rfl id
        rw [vListInsertEnd_container, update_of_ne (by simp), hgen]
    obtain ⟨ls, s1, a1, hls, hs1, h1, hfair, hm, hy⟩ := hwoken
    have hstate : s.xTaskRemoveFromEventList e =
        some (if s1.uxPriority t > s1.uxPriority s1.pxCurrentTCB then
          ({ s1 with xYieldPending := true }, true) else (s1, false)) := by
      rw [xTaskRemoveFromEventList, hhead, Option.bind_some, TaskItem.task, hls, Option.bind_some]
      dsimp only
      rw [hs1, Option.map_some]
    have hsame : s1.uxPriority t > s1.uxPriority s1.pxCurrentTCB ↔
        s.uxPriority t > s.uxPriority s.pxCurrentTCB := by
      rw [hm.books.priority, hm.current]
    by_cases hgt : s.uxPriority t > s.uxPriority s.pxCurrentTCB
    · rw [if_pos (hsame.2 hgt)] at hstate
      have hset : Moved s1 { s1 with xYieldPending := true } False :=
        Moved.of_same _ ⟨rfl, rfl, rfl, rfl⟩ (fun _ => rfl) rfl rfl fun _ => rfl
      exact ⟨t, _, a1, true, hhead, (decide_eq_true hgt).symm, hstate, h1.of_same _ rfl rfl rfl,
        hfair, (hm.trans hset).mono fun _ => rfl, (Bool.or_true _).symm⟩
    · rw [if_neg (mt hsame.1 hgt)] at hstate
      exact ⟨t, s1, a1, false, hhead, (decide_eq_false hgt).symm, hstate, h1, hfair,
        hm.mono fun hn => absurd hn hgt, by rw [hy, Bool.or_false]⟩

end Scheduler

end HmBoard
