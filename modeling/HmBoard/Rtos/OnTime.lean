import HmBoard.Rtos.TickLists

/-!
# Delays are on time

`wakes_on_time`: from the call that blocks a task on, over any number of wraps of the tick count,
with any ticks, events, calls of other tasks (they may suspend, resume and delete each other) and
suspensions of the scheduler in between.
-/

namespace HmBoard

open Lib

variable {T : Type}

namespace Ticks

variable {s : Ticks T}

/-- When a task that blocks itself must be woken; `portMAX_DELAY` is never. -/
def wake (s : Ticks T) : TickLabel T → Option (T × Nat)
  | .delay t d => some (t, s.now + d)
  | .delayUntil t previous d => some (t, previous + d)
  | .placeOnEventList t d => if d = portMaxDelay then none else some (t, s.now + d)
  | _ => none

/-- The tasks that no tick wakes: suspended, waiting for an event without a time, or deleted. -/
def parked (s : Ticks T) : List T := s.xSuspendedTaskList ++ s.xTasksWaitingTermination

/-- Nothing but the tick and its event touch a task that is blocked. -/
structure Quiet (t : T) (s s' : Ticks T) : Prop where
  due : s'.due t = s.due t
  released : s'.released t = s.released t
  onEvent : s'.onEvent t = true → s.onEvent t = true
  parked : t ∈ s'.parked → t ∈ s.parked

theorem Quiet.refl {t : T} (s : Ticks T) : Quiet t s s := ⟨rfl, rfl, id, id⟩

theorem Quiet.trans {t : T} {s s' s'' : Ticks T} (h : Quiet t s s') (h' : Quiet t s' s'') :
    Quiet t s s'' :=
  ⟨h'.due.trans h.due, h'.released.trans h.released, fun g => h.onEvent (h'.onEvent g),
    fun g => h.parked (h'.parked g)⟩

variable [DecidableEq T]

variable {t : T}

theorem quiet_unblock : ∀ (xs : List (Nat × T)) (s : Ticks T), Quiet t s (Ticks.unblock xs s)
  | [], _ => ⟨rfl, rfl, id, id⟩
  | x :: xs, s => by
    rw [Ticks.unblock]
    split
    · exact ⟨rfl, rfl, id, id⟩
    · refine Quiet.trans ?_ (quiet_unblock xs _)
      refine ⟨rfl, rfl, fun h => ?_, id⟩
      simp only at h
      split at h
      · cases h
      · exact h

theorem quiet_countTick (s : Ticks T) : Quiet t s s.countTick := by
  have hnext : Quiet t s s.nextTick := by
    unfold Ticks.nextTick
    dsimp only
    split <;> exact ⟨rfl, rfl, id, id⟩
  rw [Ticks.countTick]
  split
  · exact hnext.trans (quiet_unblock _ _)
  · exact hnext

theorem quiet_countPended : ∀ (n : Nat) (s : Ticks T), Quiet t s (Ticks.countPended n s)
  | 0, _ => ⟨rfl, rfl, id, id⟩
  | n + 1, s => (quiet_countTick s).trans (quiet_countPended n s.countTick)

theorem quiet_makeReady (s : Ticks T) (u : T) : Quiet t s (s.makeReady u) := by
  have hparked : (s.makeReady u).parked = s.parked.filter (· ≠ u) := (List.filter_append _ _).symm
  refine ⟨rfl, rfl, id, fun h => ?_⟩
  rw [hparked] at h
  exact (List.mem_filter.1 h).1

theorem quiet_makeAllReady : ∀ (ts : List T) (s : Ticks T),
    Quiet t s (ts.foldl (fun s t => s.makeReady t) s)
  | [], _ => ⟨rfl, rfl, id, id⟩
  | u :: ts, s => (quiet_makeReady s u).trans (quiet_makeAllReady ts _)

theorem quiet_resumeAll (s : Ticks T) : Quiet t s s.xTaskResumeAll := by
  rw [xTaskResumeAll]
  dsimp only
  split
  · refine Quiet.trans ?_ (quiet_countPended _ _)
    refine Quiet.trans ?_ (quiet_makeAllReady s.xPendingReadyList _)
    exact ⟨rfl, rfl, id, id⟩
  · exact ⟨rfl, rfl, id, id⟩

theorem quiet_addDelayed (s : Ticks T) {u : T} (hne : t ≠ u) (w due : Nat) :
    Quiet t s (s.prvAddCurrentTaskToDelayedList u w due) := by
  unfold prvAddCurrentTaskToDelayedList
  dsimp only
  split <;> exact ⟨by simp [hne], by simp [hne], id, id⟩

theorem quiet_released (s : Ticks T) {u : T} (hne : t ≠ u) :
    Quiet t s { s with released := fun v => if v = u then true else s.released v } :=
  ⟨rfl, by simp [hne], id, id⟩

/-- Any step but one that blocks the task, and its event; only a suspended task can be resumed. -/
theorem quiet_step {l : TickLabel T} {s' : Ticks T} (hs : s.step l = some s')
    (hl : l.blocks ≠ some t) (he : l ≠ .removeFromEventList t)
    (hparked : t ∉ s.parked) : Quiet t s s' := by
  cases l with
  | tick =>
    simp only [Ticks.step, Option.some.injEq] at hs
    subst hs
    have hq : Quiet t s s.xTaskIncrementTick := by
      rw [xTaskIncrementTick]
      split
      · exact quiet_countTick s
      · exact ⟨rfl, rfl, id, id⟩
    exact ⟨hq.due, hq.released, hq.onEvent, hq.parked⟩
  | suspendAll =>
    simp only [Ticks.step, Option.ite_none_right_eq_some, Option.some.injEq] at hs
    obtain ⟨-, rfl⟩ := hs
    exact ⟨rfl, rfl, id, id⟩
  | resumeAll =>
    simp only [Ticks.step, Option.ite_none_right_eq_some, Option.some.injEq] at hs
    obtain ⟨-, rfl⟩ := hs
    exact quiet_resumeAll s
  | delay u d =>
    simp only [Ticks.step, Option.ite_none_right_eq_some, Option.some.injEq] at hs
    obtain ⟨-, rfl⟩ := hs
    have hne : t ≠ u := fun heq => hl (by rw [heq]; rfl)
    exact quiet_addDelayed s hne _ _
  | delayUntil u previous d =>
    simp only [Ticks.step, Option.ite_none_right_eq_some, Option.some.injEq] at hs
    obtain ⟨-, rfl⟩ := hs
    have hne : t ≠ u := fun heq => hl (by rw [heq]; rfl)
    rw [vTaskDelayUntil]
    split
    · exact quiet_addDelayed s hne _ _
    · exact ⟨by simp [hne], by simp [hne], id, id⟩
  | placeOnEventList u d =>
    simp only [Ticks.step, Option.ite_none_right_eq_some, Option.some.injEq] at hs
    obtain ⟨-, rfl⟩ := hs
    have hne : t ≠ u := fun heq => hl (by rw [heq]; rfl)
    have hevent : Quiet t s { s with onEvent := fun v => if v = u then true else s.onEvent v } :=
      ⟨rfl, rfl, by simp [hne], id⟩
    rw [vTaskPlaceOnEventList]
    dsimp only
    split
    · exact ⟨rfl, by simp [hne], by simp [hne], by simp [Ticks.parked, hne]⟩
    · exact hevent.trans (quiet_addDelayed _ hne _ _)
  | removeFromEventList u =>
    simp only [Ticks.step, Option.ite_none_right_eq_some, Option.some.injEq] at hs
    obtain ⟨-, rfl⟩ := hs
    have hne : t ≠ u := fun heq => he (by rw [heq])
    have hevent : Quiet t s { s with
        onEvent := fun v => if v = u then false else s.onEvent v
        released := fun v => if v = u then true else s.released v } :=
      ⟨rfl, by simp [hne], by simp [hne], id⟩
    rw [xTaskRemoveFromEventList]
    dsimp only
    split
    · exact hevent.trans (quiet_makeReady _ u)
    · exact ⟨rfl, by simp [hne], by simp [hne], id⟩
  | suspend u =>
    obtain rfl : s.vTaskSuspend u = s' := Option.some.inj hs
    have hne : t ≠ u := fun heq => hl (by rw [heq]; rfl)
    refine ⟨rfl, rfl, by simp [vTaskSuspend, takeOff, hne], fun h => ?_⟩
    simpa [Ticks.parked, vTaskSuspend, takeOff, listRemove, hne] using h
  | delete u =>
    obtain rfl : s.vTaskDelete u = s' := Option.some.inj hs
    have hne : t ≠ u := fun heq => hl (by rw [heq]; rfl)
    refine ⟨rfl, rfl, by simp [vTaskDelete, takeOff, hne], fun h => ?_⟩
    simpa [Ticks.parked, vTaskDelete, takeOff, listRemove, hne] using h
  | resetNext =>
    obtain rfl : s.resetNext = s' := Option.some.inj hs
    exact ⟨rfl, rfl, id, id⟩
  | resume u =>
    obtain rfl : s.vTaskResume u = s' := Option.some.inj hs
    rw [vTaskResume]
    split
    · next hu =>
      have hne : t ≠ u := fun heq =>
        hparked (heq ▸ List.mem_append_left _ (isTaskSuspended_iff.1 hu).1)
      exact (quiet_released s hne).trans (quiet_makeReady _ u)
    · exact .refl s
  | resumeFromISR u =>
    obtain rfl : s.xTaskResumeFromISR u = s' := Option.some.inj hs
    rw [xTaskResumeFromISR]
    dsimp only
    split
    · next hu =>
      have hne : t ≠ u := fun heq =>
        hparked (heq ▸ List.mem_append_left _ (isTaskSuspended_iff.1 hu).1)
      refine (quiet_released s hne).trans ?_
      split
      · exact quiet_makeReady _ u
      · exact ⟨rfl, rfl, id, id⟩
    · exact .refl s

theorem addDelayed_sets (s : Ticks T) (t : T) (w due : Nat) :
    (s.prvAddCurrentTaskToDelayedList t w due).due t = due ∧
      (s.prvAddCurrentTaskToDelayedList t w due).released t = false ∧
      (s.prvAddCurrentTaskToDelayedList t w due).parked = s.parked ∧
      (s.prvAddCurrentTaskToDelayedList t w due).onEvent = s.onEvent := by
  unfold prvAddCurrentTaskToDelayedList
  dsimp only
  split <;> exact ⟨if_pos rfl, if_pos rfl, rfl, rfl⟩

/-- The call sets the time. -/
theorem wake_step (h : Good 0 s) {l : TickLabel T} {s' : Ticks T} {due : Nat}
    (hw : s.wake l = some (t, due)) (hs : s.step l = some s') :
    s'.due t = due ∧ s'.released t = false ∧ t ∉ s'.parked ∧
      ((∀ d, l ≠ .placeOnEventList t d) → s'.onEvent t = false) := by
  have hout : ∀ u, s.ready u = true → u ∉ s.parked := by
    intro u hu hc
    refine h.notMem_blocked hu ?_
    rw [Ticks.blocked, List.append_assoc]
    exact List.mem_append_right _ hc
  have hevent : ∀ u, s.ready u = true → s.onEvent u = false := by
    intro u hu
    by_contra hc
    rw [(h.event u (by simpa using hc)).1] at hu
    cases hu
  cases l with
  | tick | suspendAll | resumeAll | removeFromEventList u | suspend u | delete u | resetNext
  | resume u | resumeFromISR u => cases hw
  | delay u d =>
    simp only [Ticks.step, Option.ite_none_right_eq_some, Option.some.injEq] at hs
    simp only [wake, Option.some.injEq, Prod.mk.injEq] at hw
    obtain ⟨rfl, rfl⟩ := hw
    obtain ⟨⟨-, hr, -⟩, rfl⟩ := hs
    obtain ⟨g1, g2, g3, g4⟩ := addDelayed_sets s u ((s.xTickCount + d) % tickModulus) (s.now + d)
    exact ⟨g1, g2, g3 ▸ hout u hr, fun _ => (congrFun g4 u).trans (hevent u hr)⟩
  | delayUntil u previous d =>
    simp only [Ticks.step, Option.ite_none_right_eq_some, Option.some.injEq] at hs
    simp only [wake, Option.some.injEq, Prod.mk.injEq] at hw
    obtain ⟨rfl, rfl⟩ := hw
    obtain ⟨⟨-, hr, -⟩, rfl⟩ := hs
    rw [vTaskDelayUntil]
    split
    · obtain ⟨g1, g2, g3, g4⟩ := addDelayed_sets s u
        ((previous % tickModulus + d) % tickModulus) (previous + d)
      exact ⟨g1, g2, g3 ▸ hout u hr, fun _ => (congrFun g4 u).trans (hevent u hr)⟩
    · exact ⟨if_pos rfl, if_pos rfl, hout u hr, fun _ => hevent u hr⟩
  | placeOnEventList u d =>
    simp only [Ticks.step, Option.ite_none_right_eq_some, Option.some.injEq] at hs
    simp only [wake, Option.ite_none_left_eq_some, Option.some.injEq, Prod.mk.injEq] at hw
    obtain ⟨hd, rfl, rfl⟩ := hw
    obtain ⟨⟨-, hr, -⟩, rfl⟩ := hs
    rw [vTaskPlaceOnEventList]
    dsimp only
    rw [if_neg hd, vTaskDelay]
    obtain ⟨g1, g2, g3, -⟩ := addDelayed_sets
      { s with onEvent := fun v => if v = u then true else s.onEvent v } u
      ((s.xTickCount + d) % tickModulus) (s.now + d)
    refine ⟨g1, g2, fun hm => ?_, fun hc => absurd rfl (hc d)⟩
    rw [g3] at hm
    exact hout u hr hm

/-- Its event touches neither its time nor puts it to sleep for good. -/
theorem remove_self (s : Ticks T) (t : T) :
    (s.xTaskRemoveFromEventList t).due t = s.due t ∧
      (t ∈ (s.xTaskRemoveFromEventList t).parked → t ∈ s.parked) := by
  rw [xTaskRemoveFromEventList]
  dsimp only
  split
  · exact ⟨rfl, (quiet_makeReady (t := t) _ t).parked⟩
  · exact ⟨rfl, id⟩

/-- However the tick count wraps and whatever else happens, as long as the task does not call again
and nobody suspends or deletes it: it is ready from the tick on at which it must be woken, and not
before, unless its event has come. -/
theorem wakes_on_time {ls ks : List (TickLabel T)} {s1 s2 s3 : Ticks T} {l : TickLabel T}
    {due : Nat} (h1 : ls.foldlM step start = some s1) (hw : s1.wake l = some (t, due))
    (h2 : s1.step l = some s2) (h3 : ks.foldlM step s2 = some s3)
    (hown : ∀ k ∈ ks, k.blocks ≠ some t) :
    (due ≤ s3.now → s3.ready t = true) ∧
    (s3.ready t = true → s3.released t = false → due ≤ s3.now) ∧
    ((∀ d, l ≠ .placeOnEventList t d) → s3.released t = false) := by
  obtain ⟨hgood1, hidle1⟩ := run_good h1
  obtain ⟨hgood2, hidle2⟩ := hgood1.step hidle1 h2
  obtain ⟨hdue, hrel, hsus, hev⟩ := wake_step hgood1 hw h2
  have hquiet : (∀ d, l ≠ .placeOnEventList t d) → s2.released t = false ∧ s2.onEvent t = false :=
    fun hc => ⟨hrel, hev hc⟩
  clear h1 hw h2 hgood1 hidle1 hrel hev
  have hinv : Good 0 s3 ∧ s3.due t = due ∧ t ∉ s3.parked ∧
      ((∀ d, l ≠ .placeOnEventList t d) → s3.released t = false ∧ s3.onEvent t = false) := by
    induction ks generalizing s2 with
    | nil =>
      obtain rfl : s2 = s3 := by simpa using h3
      exact ⟨hgood2, hdue, hsus, hquiet⟩
    | cons k ks ih =>
      obtain ⟨s, hk, h3⟩ := foldlM_cons h3
      obtain ⟨hgood, hidle⟩ := hgood2.step hidle2 hk
      have hown' : ∀ k ∈ ks, k.blocks ≠ some t := fun k hm => hown k (List.mem_cons_of_mem _ hm)
      by_cases he : k = .removeFromEventList t
      · subst he
        simp only [Ticks.step, Option.ite_none_right_eq_some, Option.some.injEq] at hk
        obtain ⟨hon, rfl⟩ := hk
        obtain ⟨g1, g2⟩ := remove_self s2 t
        refine ih h3 hown' hgood hidle (g1.trans hdue) (fun hm => hsus (g2 hm)) fun hc => ?_
        -- a task that only sleeps waits for no event
        rw [(hquiet hc).2] at hon
        cases hon
      · have hq := quiet_step hk (hown k List.mem_cons_self) he hsus
        refine ih h3 hown' hgood hidle (hq.due.trans hdue) (fun hm => hsus (hq.parked hm))
          fun hc => ⟨hq.released.trans (hquiet hc).1, ?_⟩
        by_contra hon
        have := hq.onEvent (by simpa using hon)
        rw [(hquiet hc).2] at this
        cases this
  obtain ⟨hgood, hdue, hsus, hquiet⟩ := hinv
  refine ⟨fun hle => ?_, fun hr hrel => hdue ▸ hgood.onTime t hr hrel, fun hc => (hquiet hc).1⟩
  by_contra hr
  have hb := (hgood.blocked t).2 (by simpa using hr)
  rw [Ticks.blocked, List.append_assoc] at hb
  simp only [List.mem_append, List.mem_map] at hb
  rcases hb with (⟨x, hx, rfl⟩ | ⟨x, hx, rfl⟩) | hb
  · have h1 := (hgood.current x hx).1
    omega
  · have h1 := (hgood.overflow x hx).2.1
    simp only [tickModulus] at h1
    omega
  · exact hsus (List.mem_append.2 hb)

/-- A tick that would be lost: the 256th while the scheduler is suspended. -/
def TickLost (s : Ticks T) : TickLabel T → Prop
  | .tick => 0 < s.uxSchedulerSuspended ∧ s.uxPendedTicks = 255
  | _ => False

instance (s : Ticks T) : (l : TickLabel T) → Decidable (TickLost s l)
  | .tick => inferInstanceAs (Decidable (_ ∧ _))
  | .suspendAll | .resumeAll | .delay _ _ | .delayUntil _ _ _ | .placeOnEventList _ _
  | .removeFromEventList _ | .suspend _ | .delete _ | .resetNext | .resume _
  | .resumeFromISR _ => inferInstanceAs (Decidable False)

/-- Every tick interrupt is counted or pended. -/
def Counted (s : Ticks T) : Prop :=
  s.interrupts = s.now + s.uxPendedTicks ∧ s.uxPendedTicks < 256

theorem Counted.step (h : Good 0 s) (hc : s.Counted) {l : TickLabel T} {s' : Ticks T}
    (hl : ¬ TickLost s l) (hs : s.step l = some s') : s'.Counted := by
  obtain ⟨h1, h2⟩ := hc
  cases l with
  | tick =>
    simp only [Ticks.step, Option.some.injEq] at hs
    subst hs
    unfold Counted
    rw [xTaskIncrementTick]
    split
    · obtain ⟨g1, g2, g3, -, -⟩ := countTick_frame s
      simp only [g1, g3]
      omega
    · rename_i h0
      have hne : s.uxPendedTicks ≠ 255 := fun hp => hl ⟨Nat.pos_of_ne_zero h0, hp⟩
      simp only
      omega
  | suspendAll =>
    simp only [Ticks.step, Option.ite_none_right_eq_some, Option.some.injEq] at hs
    obtain ⟨-, rfl⟩ := hs
    exact ⟨h1, h2⟩
  | resumeAll =>
    simp only [Ticks.step, Option.ite_none_right_eq_some, Option.some.injEq] at hs
    obtain ⟨-, rfl⟩ := hs
    obtain ⟨-, -, g1, g2, g3⟩ := resumeAll_spec h
    unfold Counted
    omega
  | delay t d =>
    simp only [Ticks.step, Option.ite_none_right_eq_some, Option.some.injEq] at hs
    obtain ⟨-, rfl⟩ := hs
    obtain ⟨g1, g2, g3, -, -⟩ := vTaskDelay_frame s t ((s.xTickCount + d) % tickModulus) (s.now + d)
    unfold Counted vTaskDelay
    rw [g1, g2, g3]
    exact ⟨h1, h2⟩
  | delayUntil t previous d =>
    simp only [Ticks.step, Option.ite_none_right_eq_some, Option.some.injEq] at hs
    obtain ⟨-, rfl⟩ := hs
    rw [vTaskDelayUntil]
    split
    · obtain ⟨g1, g2, g3, -, -⟩ := vTaskDelay_frame s t
        ((previous % tickModulus + d) % tickModulus) (previous + d)
      unfold Counted
      rw [g1, g2, g3]
      exact ⟨h1, h2⟩
    · exact ⟨h1, h2⟩
  | placeOnEventList t d =>
    simp only [Ticks.step, Option.ite_none_right_eq_some, Option.some.injEq] at hs
    obtain ⟨-, rfl⟩ := hs
    rw [vTaskPlaceOnEventList]
    dsimp only
    split
    · exact ⟨h1, h2⟩
    · obtain ⟨g1, g2, g3, -, -⟩ := vTaskDelay_frame
        { s with onEvent := fun u => if u = t then true else s.onEvent u } t
        ((s.xTickCount + d) % tickModulus) (s.now + d)
      unfold Counted vTaskDelay
      rw [g1, g2, g3]
      exact ⟨h1, h2⟩
  | removeFromEventList t =>
    simp only [Ticks.step, Option.ite_none_right_eq_some, Option.some.injEq] at hs
    obtain ⟨-, rfl⟩ := hs
    rw [xTaskRemoveFromEventList]
    dsimp only
    split <;> exact ⟨h1, h2⟩
  | suspend t =>
    obtain rfl : s.vTaskSuspend t = s' := Option.some.inj hs
    exact ⟨h1, h2⟩
  | delete t =>
    obtain rfl : s.vTaskDelete t = s' := Option.some.inj hs
    exact ⟨h1, h2⟩
  | resetNext =>
    obtain rfl : s.resetNext = s' := Option.some.inj hs
    exact ⟨h1, h2⟩
  | resume t =>
    obtain rfl : s.vTaskResume t = s' := Option.some.inj hs
    rw [vTaskResume]
    split <;> exact ⟨h1, h2⟩
  | resumeFromISR t =>
    obtain rfl : s.xTaskResumeFromISR t = s' := Option.some.inj hs
    rw [xTaskResumeFromISR]
    dsimp only
    split
    · split <;> exact ⟨h1, h2⟩
    · exact ⟨h1, h2⟩

/-- The tick count is the number of tick interrupts, as long as fewer than 256 come while the
scheduler is suspended. -/
theorem no_tick_lost {ls : List (TickLabel T)} (hrun : ls.foldlM step start = some s)
    (ha : Avoids step TickLost start ls) :
    s.xTickCount = s.now % tickModulus ∧ s.interrupts = s.now + s.uxPendedTicks ∧
      (s.uxSchedulerSuspended = 0 →
        s.uxPendedTicks = 0 ∧ s.xTickCount = s.interrupts % tickModulus) := by
  have hinv : (Good 0 s ∧ s.Idle) ∧ s.Counted := by
    refine Avoids.inv (I := fun s => (Good 0 s ∧ s.Idle) ∧ s.Counted) (fun s l s' h hl hs => ?_) ha
      hrun ⟨start_good, rfl, Nat.succ_pos 255⟩
    exact ⟨h.1.1.step h.1.2 hs, h.2.step h.1.1 hl hs⟩
  obtain ⟨⟨hgood, hidle⟩, hcount, -⟩ := hinv
  refine ⟨hgood.tick, hcount, fun h0 => ⟨(hidle h0).1, ?_⟩⟩
  rw [hcount, (hidle h0).1, hgood.tick, Nat.add_zero]

/-- Two tasks sleep, a tick is pended meanwhile. -/
def twoSleepers : List (TickLabel Bool) :=
  [.suspendAll, .delay true 2, .tick, .resumeAll, .tick, .suspendAll, .delay false 1, .resumeAll]

theorem no_tick_lost_sleepers : ∃ s : Ticks Bool, twoSleepers.foldlM step start = some s ∧
    s.xTickCount = 2 ∧ s.interrupts = s.now + s.uxPendedTicks := by
  have hcount : ∀ s : Ticks Bool, twoSleepers.foldlM step start = some s →
      s.interrupts = s.now + s.uxPendedTicks :=
    fun s hrun => (no_tick_lost hrun (by decide)).2.1
  exact ⟨_, rfl, rfl, hcount _ rfl⟩

/-- The other task is suspended meanwhile. -/
theorem wakes_on_time_sleepers : ∃ s1 s2 s3 : Ticks Bool,
    ([.tick, .suspendAll] : List (TickLabel Bool)).foldlM step start = some s1 ∧
    s1.step (.delay true 2) = some s2 ∧
    ([.resumeAll, .suspend false, .resetNext, .tick, .tick] : List (TickLabel Bool)).foldlM step s2 =
      some s3 ∧
    s2.ready true = false ∧ s3.ready false = false ∧ (3 ≤ s3.now → s3.ready true = true) := by
  have htime : ∀ s1 s2 s3 : Ticks Bool,
      ([.tick, .suspendAll] : List (TickLabel Bool)).foldlM step start = some s1 →
      s1.wake (.delay true 2) = some (true, 3) → s1.step (.delay true 2) = some s2 →
      ([.resumeAll, .suspend false, .resetNext, .tick, .tick] : List (TickLabel Bool)).foldlM step s2 =
        some s3 →
      3 ≤ s3.now → s3.ready true = true :=
    fun s1 s2 s3 h1 hw h2 h3 => (wakes_on_time h1 hw h2 h3 (by decide)).1
  exact ⟨_, _, _, rfl, rfl, rfl, rfl, rfl, htime _ _ _ rfl rfl rfl rfl⟩

end Ticks

end HmBoard
