import HmBoard.Rtos.Outcomes

/-!
# Priorities that change

A ready task whose priority changes goes to the end of another ready list; the others only change
their priority. `vTaskPrioritySet`, `vTaskPriorityInherit` and `xTaskPriorityDisinherit` do this in
three orders.
-/

namespace HmBoard

open Lib Function

namespace Scheduler

variable {T E : Type} [DecidableEq T] [DecidableEq E] {x : Option T} {s s' s1 s2 : Scheduler T E}
  {a a' a1 a2 : TaskWalks T E} {t u : T} {asked P : Prop} {l : SchedulerLabel T E}
  {xIdleTask : T} {new : List (Priority × T)}

theorem setEventValue_spec (h : Represents s.lists a) (t : T) (p : Priority) :
    ∃ ls a', s.setEventValue t p = { s with lists := ls } ∧ Represents ls a' ∧
      ls.pvContainer = s.lists.pvContainer ∧ ls.pvOwner = s.lists.pvOwner ∧ Fair none [] a a' := by
  rw [setEventValue]
  split
  · exact ⟨_, _, rfl, h.setValue _, rfl, rfl, Fair.refl none a⟩
  · exact ⟨s.lists, a, rfl, h, rfl, rfl, Fair.refl none a⟩

/-- The priority of a task that is not ready has changed. -/
theorem Good.reprioritise (h : Good none s a) (hr : s.isReady t = false) (s' : Scheduler T E)
    (hrep : Represents s'.lists a') (howner : s'.lists.pvOwner = s.lists.pvOwner)
    (hcon : s'.lists.pvContainer = s.lists.pvContainer)
    (hprio : ∀ u, u ≠ t → s'.uxPriority u = s.uxPriority u)
    (htop : s'.uxTopReadyPriority = s.uxTopReadyPriority) : Good none s' a' := by
  obtain ⟨c, hc⟩ := h.home t (by simp)
  have hnot : ∀ p, c ≠ .pxReadyTasksLists p := by
    rintro p rfl
    have hp : p = s.uxPriority t := h.holds _ _ hc
    subst hp
    rw [isReady_iff.2 hc] at hr
    cases hr
  refine h.moveGeneric (c := some c) (.inl rfl) s' hrep howner ?_ hprio (fun l hl => ?_) htop.ge
    (fun p hp => absurd (Option.some.inj hp) (hnot p)) (.inr ⟨rfl, by simp⟩)
  · rw [hcon, ← hc, update_eq_self]
  · cases hl
    have hholds := h.holds _ _ hc
    cases c with
    | pxReadyTasksLists p => exact absurd rfl (hnot p)
    | xDelayedTaskList _ => trivial
    | xSuspendedTaskList => trivial
    | xPendingReadyList => exact hholds
    | event _ => exact hholds

/-- A ready task of a new priority is moved to its new list. -/
theorem Good.requeue (h : Good none s a) (hr : s.isReady t = true) (s1 : Scheduler T E)
    (hrep : Represents s1.lists a1) (howner : s1.lists.pvOwner = s.lists.pvOwner)
    (hcon : s1.lists.pvContainer = s.lists.pvContainer)
    (hprio : ∀ u, u ≠ t → s1.uxPriority u = s.uxPriority u)
    (htop : s1.uxTopReadyPriority = s.uxTopReadyPriority) :
    ∃ ls top a', s1.makeReady t = some { s1 with lists := ls, uxTopReadyPriority := top } ∧
      Good none { s1 with lists := ls, uxTopReadyPriority := top } a' ∧
      ls.pvContainer = update s.lists.pvContainer (.xGenericListItem t)
        (some (.pxReadyTasksLists (s1.uxPriority t))) ∧ Fair (some t) [] a1 a' := by
  have hc := isReady_iff.1 hr
  have he : s.lists.pvContainer (.xEventListItem t) = none := by
    refine Option.eq_none_iff_forall_ne_some.2 fun l hl => ?_
    rw [h.waits t l (by simp) hl] at hr
    cases hr
  rw [← hcon] at hc he
  obtain ⟨ls2, a2, hls2, hrep2, hcon2, hown2, hfair2, -⟩ := listRemove_spec (x := some t) hrep hc
    fun u hu => congrArg some (TaskItem.xGenericListItem.inj hu)
  have h2 : Good (some t) { s1 with lists := ls2 } a2 := by
    refine h.moveGeneric (c := none) (.inl rfl) { s1 with lists := ls2 } hrep2
      (hown2.trans howner) ?_ hprio (fun _ hn => ?_) htop.ge (fun _ hn => ?_) (.inl rfl)
    · rw [← hcon]
      exact hcon2
    · cases hn
    · cases hn
  have hg2 : ls2.pvContainer (.xGenericListItem t) = none := by rw [hcon2, update_self]
  have he2 : ls2.pvContainer (.xEventListItem t) = none := by rwa [hcon2, update_of_ne (by simp)]
  obtain ⟨a', h', hfair', -⟩ := h2.addReady (.inr rfl) hg2 he2
  refine ⟨_, _, a', by rw [Scheduler.makeReady, hls2]; rfl, h', ?_, hfair2.trans hfair'.weaken⟩
  change update ls2.pvContainer _ _ = _
  rw [hcon2, update_idem, hcon]

/-- What `vTaskPrioritySet` and `vTaskPriorityInherit` do to a task. -/
theorem Good.changePriority (h : Good none s a) (s1 : Scheduler T E)
    (hrep : Represents s1.lists a1) (howner : s1.lists.pvOwner = s.lists.pvOwner)
    (hcon : s1.lists.pvContainer = s.lists.pvContainer)
    (hprio : ∀ u, u ≠ t → s1.uxPriority u = s.uxPriority u)
    (htop : s1.uxTopReadyPriority = s.uxTopReadyPriority) :
    ∃ ls top a', (if s.isReady t = true then s1.makeReady t else some s1) =
        some { s1 with lists := ls, uxTopReadyPriority := top } ∧
      Good none { s1 with lists := ls, uxTopReadyPriority := top } a' ∧ Fair (some t) [] a1 a' ∧
      ∀ u, isReady { s1 with lists := ls, uxTopReadyPriority := top } u = true ↔
        s.isReady u = true := by
  cases hr : s.isReady t with
  | false =>
    refine ⟨s1.lists, s1.uxTopReadyPriority, a1, rfl,
      h.reprioritise hr s1 hrep howner hcon hprio htop, Fair.refl _ a1, fun u => ?_⟩
    by_cases hu : u = t
    · subst hu
      rw [hr, isReady_iff]
      refine iff_of_false (fun hc => ?_) Bool.false_ne_true
      have hc : s.lists.pvContainer (.xGenericListItem u) =
          some (.pxReadyTasksLists (s1.uxPriority u)) := (congrFun hcon _).symm.trans hc
      have hp : s1.uxPriority u = s.uxPriority u := h.holds _ _ hc
      rw [hp] at hc
      rw [isReady_iff.2 hc] at hr
      cases hr
    · rw [isReady_iff, isReady_iff]
      change s1.lists.pvContainer _ = some (.pxReadyTasksLists (s1.uxPriority u)) ↔ _
      rw [hcon, hprio u hu]
  | true =>
    obtain ⟨ls, top, a', hls, h', hc, hfair⟩ := h.requeue hr s1 hrep howner hcon hprio htop
    refine ⟨ls, top, a', hls, h', hfair, fun u => ?_⟩
    rw [isReady_iff]
    change ls.pvContainer _ = some (.pxReadyTasksLists (s1.uxPriority u)) ↔ _
    rw [hc]
    by_cases hu : u = t
    · subst hu
      rw [update_self]
      exact iff_of_true rfl hr
    · rw [update_of_ne (by simpa using hu), hprio u hu, isReady_iff]

variable [Fintype E]

/-- First the priority of one task changes, in its list too, then the step goes on. -/
theorem Outcome.of_changed (hready : ∀ u, s1.isReady u = true ↔ s.isReady u = true)
    (hdisp : s1.dispatched = s.dispatched) (hf1 : Fair x [] a a1)
    (hleft : ∀ t, x = some t → (∃ p, l = .prioritySet t p) ∨ s1.uxPriority t ≠ s.uxPriority t)
    (hbooks : s.MutexBooks → s1.MutexBooks) (hm : Moved s1 s2 asked) (hf2 : Fair none [] a1 a2)
    (ht : Turned s2 s' new P) (hf : Fair none new a2 a') (h : Good none s' a')
    (hP : s.Preempts → ¬ s.Missed l → P) : Outcome l xIdleTask x s s' a a' new := by
  have hsame := hm.books.trans ht.books
  refine ⟨h, fun hi => (ht.ready _).2 (hm.kept _ ((hready _).2 hi)),
    (hf1.trans hf2.weaken).trans hf.weaken, fun t hx _ _ => ?_, ?_,
    fun hp hmiss => ht.preempts (hP hp hmiss), fun hb => (hbooks hb).of_same hsame⟩
  · rw [hsame.priority]
    exact hleft t hx
  · rw [ht.dispatched, hm.dispatched, hdisp]

variable [Fintype T]

omit [Fintype T] [Fintype E] in
/-- Where `vTaskPrioritySet` does not yield, the running task keeps the highest priority. -/
theorem prioritySet_le {p q : Priority} (hne : s.uxBasePriority t ≠ p)
    (hq : q = if s.uxBasePriority t = s.uxPriority t then p else s.uxPriority t)
    (hb : ¬ (if p > s.uxBasePriority t then
        decide (t ≠ s.pxCurrentTCB ∧ p ≥ s.uxPriority s.pxCurrentTCB)
      else decide (t = s.pxCurrentTCB)) = true)
    (hmax : ∀ u, s.isReady u = true → s.uxPriority u ≤ s.uxPriority s.pxCurrentTCB) (u : T)
    (hu : s.isReady u = true) :
    update s.uxPriority t q u ≤ update s.uxPriority t q s.pxCurrentTCB := by
  by_cases hbase : s.uxBasePriority t = s.uxPriority t
  · rw [if_pos hbase] at hq
    subst hq
    rw [hbase] at hb hne
    by_cases hgt : q > s.uxPriority t
    · rw [if_pos hgt, decide_eq_true_iff, not_and_or, not_not, not_le] at hb
      by_cases hct : s.pxCurrentTCB = t
      · rw [hct, update_self]
        by_cases hut : u = t
        · rw [hut, update_self]
        · rw [update_of_ne hut]
          exact (hmax u hu).trans (hct ▸ hgt.le)
      · rw [update_of_ne hct]
        by_cases hut : u = t
        · rw [hut, update_self]
          exact (hb.resolve_left (Ne.symm hct)).le
        · rw [update_of_ne hut]
          exact hmax u hu
    · rw [if_neg hgt, decide_eq_true_iff] at hb
      rw [update_of_ne (Ne.symm hb)]
      by_cases hut : u = t
      · subst hut
        rw [update_self]
        exact (not_lt.1 hgt).trans (hmax u hu)
      · rw [update_of_ne hut]
        exact hmax u hu
  · rw [hq, if_neg hbase, update_eq_self]
    exact hmax u hu

theorem Good.prioritySet (h : Good none s a) (hT : Fintype.card T < 256)
    (hidle : s.isReady xIdleTask = true) (t : T) (uxNewPriority : Nat) :
    ∃ s' a' x new, s.vTaskPrioritySet t uxNewPriority = some s' ∧
      Outcome (.prioritySet t uxNewPriority) xIdleTask x s s' a a' new := by
  rw [vTaskPrioritySet]
  dsimp only
  generalize validPriority uxNewPriority = p
  by_cases hne : s.uxBasePriority t ≠ p
  · rw [if_pos hne]
    obtain ⟨q, hq⟩ : ∃ q, q = if s.uxBasePriority t = s.uxPriority t then p else s.uxPriority t :=
      ⟨_, rfl⟩
    have hset : (if s.uxBasePriority t = s.uxPriority t then s.setPriority t p else s) =
        { s with uxPriority := update s.uxPriority t q } := by
      split
      · rename_i heq
        rw [hq, if_pos heq, setPriority]
      · rename_i heq
        rw [hq, if_neg heq, update_eq_self]
    rw [hset]
    obtain ⟨ls1, a1, hls1, hrep1, hcon1, hown1, hfair1⟩ := setEventValue_spec
      (s := { s with
        uxPriority := update s.uxPriority t q
        uxBasePriority := update s.uxBasePriority t p }) h.rep t p
    obtain ⟨ls2, top, a2, hls2, h2, hfair2, hready2⟩ := h.changePriority (t := t)
      { s with
        lists := ls1
        uxPriority := update s.uxPriority t q
        uxBasePriority := update s.uxBasePriority t p } hrep1 hown1 hcon1
      (fun u hu => update_of_ne hu _ _) rfl
    obtain ⟨b, hb⟩ : ∃ b, b = if p > s.uxBasePriority t then
        decide (t ≠ s.pxCurrentTCB ∧ p ≥ s.uxPriority s.pxCurrentTCB)
      else decide (t = s.pxCurrentTCB) := ⟨_, rfl⟩
    obtain ⟨s', a', new, hs', h', hfair, hturn⟩ :=
      h2.switchIf hT ⟨_, (hready2 _).2 hidle⟩ b
    refine ⟨s', a', some t, new, ?_, Outcome.of_changed hready2 rfl (hfair1.weaken.trans hfair2)
      (fun u hu => .inl ⟨_, by rw [Option.some.inj hu]⟩) (fun hb => ⟨hb.held, fun u hu => ?_⟩)
      (Moved.refl _ False) (Fair.refl none a2) hturn hfair h' fun hp _ => ?_⟩
    · rw [hls1, hls2, Option.bind_some, ← hb]
      exact hs'
    · have heq : s.uxPriority u = s.uxBasePriority u := hb.base u hu
      change update s.uxPriority t q u = update s.uxBasePriority t p u
      rw [update_apply, update_apply]
      split
      · rename_i hut
        subst hut
        rw [hq, if_pos heq.symm]
      · exact heq
    · by_cases hbt : b = true
      · exact .inl hbt
      · refine .inr (hp.imp_right fun hmax u hu => ?_)
        exact prioritySet_le hne hq (fun hb' => hbt (hb.trans hb')) hmax u ((hready2 u).1 hu)
  · rw [if_neg hne]
    exact ⟨s, a, none, [], rfl, Outcome.of_same h ⟨rfl, rfl, rfl, rfl⟩ rfl rfl rfl rfl id⟩

omit [Fintype T] [DecidableEq E] in
theorem mutexesOf_pos {f : E → Option T} {e : E} (he : f e = some t) : 0 < mutexesOf f t :=
  Finset.card_pos.2 ⟨e, by simp [he]⟩

omit [Fintype E] [Fintype T] [DecidableEq T] in
theorem listRemove_setPriority [DecidableEq T] (s : Scheduler T E) (t : T) (p : Priority)
    (i : TaskItem T) :
    (s.setPriority t p).listRemove i = (s.listRemove i).map fun s => s.setPriority t p := by
  rw [listRemove, listRemove, Option.map_map]
  rfl

omit [Fintype T] in
/-- The holder of the mutex has the priority of the running task, if that is higher. -/
theorem Good.inheritPriority (h : Good none s a) (e : E) :
    ∃ s' a' x, s.vTaskPriorityInherit (s.pxMutexHolder e) = some s' ∧
      Outcome (.inherit e) xIdleTask x s s' a a' [] := by
  cases he : s.pxMutexHolder e with
  | none =>
    exact ⟨s, a, none, rfl, Outcome.of_same h ⟨rfl, rfl, rfl, rfl⟩ rfl rfl rfl rfl id⟩
  | some t =>
    rw [vTaskPriorityInherit]
    dsimp only
    split
    · rename_i hlt
      obtain ⟨ls1, a1, hls1, hrep1, hcon1, hown1, hfair1⟩ :=
        setEventValue_spec h.rep t (s.uxPriority s.pxCurrentTCB)
      obtain ⟨ls2, top, a2, hls2, h2, hfair2, hready2⟩ := h.changePriority (t := t)
        (setPriority { s with lists := ls1 } t (s.uxPriority s.pxCurrentTCB)) hrep1 hown1 hcon1
        (fun u hu => update_of_ne hu _ _) rfl
      have hready1 : isReady { s with lists := ls1 } t = s.isReady t := by
        rw [isReady, isReady, Lists.listIsContainedWithin, Lists.listIsContainedWithin, hcon1]
      have hne : s.pxCurrentTCB ≠ t := fun heq => by rw [heq] at hlt; exact lt_irrefl _ hlt
      refine ⟨_, a2, some t, ?_, Outcome.of_changed hready2 rfl (hfair1.weaken.trans hfair2)
        (fun u hu => .inr ?_) (fun hb => ⟨hb.held, fun u hu => ?_⟩) (Moved.refl _ False)
        (Fair.refl none a2) (Turned.refl id) (Fair.refl none a2) h2 fun hp _ => ?_⟩
      · rw [hls1, hready1, ← hls2]
        refine ite_congr rfl (fun _ => ?_) fun _ => rfl
        rw [Scheduler.makeReady, listRemove_setPriority, Option.map_map]
        rfl
      · obtain rfl := Option.some.inj hu
        change update s.uxPriority t _ t ≠ _
        rw [update_self]
        exact hlt.ne'
      · have hut : u ≠ t := by
          rintro rfl
          have hpos := mutexesOf_pos he
          rw [← hb.held] at hpos
          exact absurd hu hpos.ne'
        change update s.uxPriority t _ u = _
        rw [update_of_ne hut]
        exact hb.base u hu
      · refine hp.imp_right fun hmax u hu => ?_
        change update s.uxPriority t _ u ≤ update s.uxPriority t _ s.pxCurrentTCB
        rw [update_of_ne hne]
        by_cases hut : u = t
        · rw [hut, update_self]
        · rw [update_of_ne hut]
          exact hmax u ((hready2 u).1 hu)
    · exact ⟨s, a, none, rfl, Outcome.of_same h ⟨rfl, rfl, rfl, rfl⟩ rfl rfl rfl rfl id⟩

/-! ## Giving a mutex -/

omit [Fintype E] [Fintype T] in
/-- The running task counts one mutex less, and may be back at its own priority. -/
theorem Good.disinherit (h : Good none s a) (hr : s.isReady s.pxCurrentTCB = true) :
    ∃ s1 a1, s.xTaskPriorityDisinherit = some (s1, decide s.lowers) ∧ Good none s1 a1 ∧
      Fair (if s.lowers then some s.pxCurrentTCB else none) [] a a1 ∧
      s1.uxPriority = update s.uxPriority s.pxCurrentTCB s.priorityLeft ∧
      s1.uxBasePriority = s.uxBasePriority ∧
      s1.uxMutexesHeld =
        update s.uxMutexesHeld s.pxCurrentTCB (s.uxMutexesHeld s.pxCurrentTCB - 1) ∧
      s1.pxMutexHolder = s.pxMutexHolder ∧ s1.pxCurrentTCB = s.pxCurrentTCB ∧
      s1.dispatched = s.dispatched ∧ s1.xYieldPending = s.xYieldPending ∧
      (∀ u, s1.isReady u = true ↔ s.isReady u = true) ∧
      ∀ e, a1.walk (.event e) = a.walk (.event e) := by
  obtain ⟨t, ht⟩ : ∃ t, t = s.pxCurrentTCB := ⟨_, rfl⟩
  rw [priorityLeft]
  by_cases hlow : s.lowers
  · rw [if_pos hlow, if_pos hlow, decide_eq_true hlow]
    obtain ⟨hne, hheld⟩ := hlow
    rw [← ht] at hr hne hheld ⊢
    have hc := isReady_iff.1 hr
    have he : s.lists.pvContainer (.xEventListItem t) = none := by
      refine Option.eq_none_iff_forall_ne_some.2 fun l hl => ?_
      rw [h.waits t l (by simp) hl] at hr
      cases hr
    obtain ⟨ls1, a1, hls1, hrep1, hcon1, hown1, hfair1, hwalk1⟩ := listRemove_spec (x := some t)
      (s := { s with uxMutexesHeld := update s.uxMutexesHeld t (s.uxMutexesHeld t - 1) }) h.rep hc
      fun u hu => congrArg some (TaskItem.xGenericListItem.inj hu)
    obtain ⟨s2, hs2⟩ : ∃ s2 : Scheduler T E, s2 = { s with
        uxMutexesHeld := update s.uxMutexesHeld t (s.uxMutexesHeld t - 1)
        uxPriority := update s.uxPriority t (s.uxBasePriority t)
        lists := ls1.listSetListItemValue (.xEventListItem t) (UInt16.ofNat
          (configMaxPriorities - update s.uxPriority t (s.uxBasePriority t) t)) } := ⟨_, rfl⟩
    obtain ⟨a2, hrep2, hwalk2⟩ : ∃ a2, Represents s2.lists a2 ∧ a2.walk = a1.walk := by
      rw [hs2]
      exact ⟨_, hrep1.setValue _, rfl⟩
    have h2 : Good (some t) s2 a2 := by
      refine h.moveGeneric (c := none) (.inl rfl) s2 hrep2 (by rw [hs2]; exact hown1)
        (by rw [hs2]; exact hcon1) (fun u hu => ?_) (fun _ hn => ?_) (by rw [hs2]) (fun _ hn => ?_)
        (.inl rfl)
      · rw [hs2]
        exact update_of_ne hu _ _
      · cases hn
      · cases hn
    have hcon2 : s2.lists.pvContainer = update s.lists.pvContainer (.xGenericListItem t) none := by
      rw [hs2]
      exact hcon1
    obtain ⟨a3, h3, hfair3, hwalk3⟩ := h2.addReady (.inr rfl) (by rw [hcon2, update_self])
      (by rw [hcon2, update_of_ne (by simp), he])
    refine ⟨s2.prvAddTaskToReadyList t, a3, ?_, h3, ?_, ?_, ?_, ?_, ?_, ?_, ?_, ?_, fun u => ?_,
      fun e => ?_⟩
    · subst ht
      refine (if_pos ⟨hne, (update_self _ _ _).trans hheld⟩).trans ?_
      rw [hls1, hs2]
      rfl
    · have hvalue : Fair (some t) [] a1 a2 := by
        intro p v u n _ _ hw
        rw [Waiting, hwalk2]
        exact ⟨Nat.zero_le n, hw⟩
      exact (hfair1.trans hvalue).trans hfair3.weaken
    · rw [hs2]
      rfl
    · rw [hs2]
      rfl
    · rw [hs2]
      rfl
    · rw [hs2]
      rfl
    · rw [hs2]
      exact ht.symm
    · rw [hs2]
      rfl
    · rw [hs2]
      rfl
    · rw [isReady_iff, isReady_iff]
      change update s2.lists.pvContainer _ _ _ = some (.pxReadyTasksLists (s2.uxPriority u)) ↔ _
      rw [hcon2, update_idem]
      by_cases hu : u = t
      · subst hu
        rw [update_self]
        exact iff_of_true rfl hc
      · rw [update_of_ne (by simpa using hu), hs2]
        dsimp only
        rw [update_of_ne hu]
    · rw [hwalk3 _ (by simp), hwalk2]
      exact hwalk1 _ (by simp)
  · rw [if_neg hlow, if_neg hlow, decide_eq_false hlow, update_eq_self]
    rw [lowers] at hlow
    refine ⟨_, a, ?_, h.of_same
      { s with
        uxMutexesHeld :=
          update s.uxMutexesHeld s.pxCurrentTCB (s.uxMutexesHeld s.pxCurrentTCB - 1) } rfl rfl rfl,
      Fair.refl none a, rfl, rfl, rfl, rfl, rfl, rfl, rfl, fun _ => Iff.rfl, fun _ => rfl⟩
    refine if_neg fun hand => hlow ⟨hand.1, ?_⟩
    exact (update_self _ _ _).symm.trans hand.2

omit [DecidableEq T] [Fintype E] in
/-- The lists show the same first waiter. -/
theorem Good.same_waiters (h : Good none s a) (h1 : Good none s1 a1) (hT : Fintype.card T < 256)
    {e : E} (hwalk : a1.walk (.event e) = a.walk (.event e)) :
    s1.lists.listListIsEmpty (.event e) = s.lists.listListIsEmpty (.event e) ∧
      (s.lists.listListIsEmpty (.event e) = false →
        s1.lists.listGetOwnerOfHeadEntry (.event e) =
          s.lists.listGetOwnerOfHeadEntry (.event e)) := by
  constructor
  · rw [Bool.eq_iff_iff, h1.isEmpty hT, h.isEmpty hT, hwalk]
  · intro hne
    have hnil : (a.walk (.event e)).items ≠ [] := by
      rw [Ne, ← h.isEmpty hT, hne]
      exact Bool.false_ne_true
    obtain ⟨i, xs, hw⟩ := List.exists_cons_of_ne_nil hnil
    rw [h.rep.head hw, h1.rep.head (hwalk ▸ hw), ← h.rep.owner, ← h1.rep.owner, h.owner, h1.owner]

omit [Fintype T] in
/-- The books after a give. -/
theorem MutexBooks.give (hb : s.MutexBooks) {e : E}
    (he : s.pxMutexHolder e = some s.pxCurrentTCB)
    (hprio : s1.uxPriority = update s.uxPriority s.pxCurrentTCB s.priorityLeft)
    (hbase : s1.uxBasePriority = s.uxBasePriority)
    (hheld : s1.uxMutexesHeld =
      update s.uxMutexesHeld s.pxCurrentTCB (s.uxMutexesHeld s.pxCurrentTCB - 1))
    (hholder : s1.pxMutexHolder = update s.pxMutexHolder e none) : s1.MutexBooks := by
  have hback : update s1.pxMutexHolder e (some s.pxCurrentTCB) = s.pxMutexHolder := by
    rw [hholder, update_idem, ← he, update_eq_self]
  have hcount : ∀ t, mutexesOf s.pxMutexHolder t =
      mutexesOf s1.pxMutexHolder t + if t = s.pxCurrentTCB then 1 else 0 := by
    intro t
    rw [← hback]
    exact mutexesOf_update (by rw [hholder, update_self]) t _
  refine ⟨fun t => ?_, fun t ht => ?_⟩
  · have hc := hcount t
    have hb := hb.held t
    rw [hheld, update_apply]
    split
    · rename_i heq
      rw [← heq]
      rw [if_pos heq] at hc
      omega
    · rename_i hne
      rw [if_neg hne] at hc
      omega
  · rw [hheld, update_apply] at ht
    rw [hprio, hbase, update_apply]
    split
    · rename_i heq
      subst heq
      rw [if_pos rfl] at ht
      rw [priorityLeft]
      by_cases hlow : s.lowers
      · rw [if_pos hlow]
      · rw [if_neg hlow]
        by_contra hne
        exact hlow ⟨hne, ht⟩
    · rename_i hne
      rw [if_neg hne] at ht
      exact hb.base t ht

omit [DecidableEq T] [Fintype E] in
theorem Good.firstWaiter (h : Good none s a) (hT : Fintype.card T < 256) {e : E}
    (hne : ¬ s.lists.listListIsEmpty (.event e) = true) :
    ∃ t, s.lists.listGetOwnerOfHeadEntry (.event e) = some t ∧ s.isReady t = false := by
  obtain ⟨i, hhead, hi⟩ := h.head hT hne
  have hholds := h.holds i _ hi
  cases i with
  | xGenericListItem t => cases hholds
  | xEventListItem t => exact ⟨t, hhead, h.waits t _ (by simp) hi⟩

theorem Good.give (h : Good none s a) (hT : Fintype.card T < 256)
    (hidle : s.isReady xIdleTask = true) (hr : s.isReady s.pxCurrentTCB = true) {e : E}
    (he : s.pxMutexHolder e = some s.pxCurrentTCB) :
    ∃ s' a' x new, s.giveMutex e = some s' ∧ Outcome (.giveMutex e) xIdleTask x s s' a a' new ∧
      (s.Missed (.giveMutex e) → ¬ s'.Preempts) := by
  obtain ⟨s0, a1, hs0, h0, hfair1, hprio, hbase, hheld, hholder, hcur, hdisp, hy, hready, hwalk⟩ :=
    h.disinherit hr
  obtain ⟨s1, hs1⟩ : ∃ s1 : Scheduler T E,
      s1 = { s0 with pxMutexHolder := update s0.pxMutexHolder e none } := ⟨_, rfl⟩
  have h1 : Good none s1 a1 := h0.of_same s1 (by rw [hs1]) (by rw [hs1]) (by rw [hs1])
  have hprio1 : s1.uxPriority = update s.uxPriority s.pxCurrentTCB s.priorityLeft := by
    rw [hs1, ← hprio]
  have hcur1 : s1.pxCurrentTCB = s.pxCurrentTCB := by rw [hs1, ← hcur]
  have hready1 : ∀ u, s1.isReady u = true ↔ s.isReady u = true := by
    intro u
    rw [← hready, hs1]
    rfl
  have hleft : ∀ t, (if s.lowers then some s.pxCurrentTCB else none) = some t →
      (∃ p, SchedulerLabel.giveMutex e = .prioritySet t p) ∨ s1.uxPriority t ≠ s.uxPriority t := by
    intro t ht
    obtain ⟨hlow, ht⟩ := Option.ite_none_right_eq_some.1 ht
    obtain rfl := Option.some.inj ht
    rw [hprio1, update_self, priorityLeft, if_pos hlow]
    exact .inr (Ne.symm hlow.1)
  have hbooks : s.MutexBooks → s1.MutexBooks := by
    intro hb
    refine hb.give he hprio1 (by rw [hs1, ← hbase]) (by rw [hs1, ← hheld]) ?_
    rw [hs1, ← hholder]
  have hp1 : s.Preempts → (¬ s.lowers ∨ ∀ u, u ≠ s.pxCurrentTCB → s.isReady u = true →
      s.uxPriority u ≤ s.uxBasePriority s.pxCurrentTCB) → s1.Preempts := by
    intro hp hlow
    obtain hpend | hmax := hp
    · refine .inl ?_
      rw [hs1, ← hpend, ← hy]
    · refine .inr fun u hu => ?_
      have hu := (hready1 u).1 hu
      rw [hcur1, hprio1, update_self]
      by_cases huc : u = s.pxCurrentTCB
      · rw [huc, update_self]
      · rw [update_of_ne huc, priorityLeft]
        obtain hlow | hle := hlow
        · rw [if_neg hlow]
          exact hmax u hu
        · split
          · exact hle u huc hu
          · exact hmax u hu
  have hgive : s.giveMutex e = if s1.lists.listListIsEmpty (.event e) = true then
      s1.switchIf (decide s.lowers)
      else (s1.xTaskRemoveFromEventList e).bind fun r => r.1.switchIf r.2 := by
    rw [giveMutex, hs0, hs1]
    rfl
  obtain ⟨hsame, hhead⟩ := h.same_waiters h1 hT (hwalk e)
  cases hempty : s.lists.listListIsEmpty (.event e) with
  | true =>
    obtain ⟨s', a', new, hs', h', hfair, hturn⟩ :=
      h1.switchIf hT ⟨_, (hready1 _).2 hidle⟩ (decide s.lowers)
    refine ⟨s', a', _, new, ?_, Outcome.of_changed hready1 (by rw [hs1, ← hdisp]) hfair1 hleft
      hbooks (Moved.refl s1 False) (Fair.refl none a1) hturn hfair h' fun hp _ => ?_, fun hmiss => ?_⟩
    · rw [hgive, hsame, hempty, if_pos rfl, hs']
    · by_cases hlow : s.lowers
      · exact .inl (decide_eq_true hlow)
      · exact .inr (hp1 hp (.inl hlow))
    · rw [Missed, hempty] at hmiss
      exact absurd hmiss.2.2.1 Bool.noConfusion
  | false =>
    rw [hempty] at hsame
    obtain ⟨t, s2, a2, b, ht1, hb, hs2, h2, hfair2, hm, hy2⟩ :=
      h1.removeFromEventList hT (by rw [hsame]; exact Bool.false_ne_true)
    obtain ⟨t', ht, hnr⟩ := h.firstWaiter hT (by rw [hempty]; exact Bool.false_ne_true)
    obtain rfl : t = t' := Option.some.inj (ht1.symm.trans ((hhead hempty).trans ht))
    have htc : t ≠ s.pxCurrentTCB := by
      rintro rfl
      rw [hr] at hnr
      cases hnr
    rw [hcur1, hprio1, update_of_ne htc, update_self] at hb
    obtain ⟨s', a', new, hs', h', hfair, hturn⟩ :=
      h2.switchIf hT ⟨_, hm.kept _ ((hready1 _).2 hidle)⟩ b
    refine ⟨s', a', _, new, ?_, Outcome.of_changed hready1 (by rw [hs1, ← hdisp]) hfair1 hleft
      hbooks hm hfair2 hturn hfair h' fun hp hmiss => ?_, fun hmiss hp' => ?_⟩
    · rw [hgive, hsame, if_neg Bool.false_ne_true, hs2]
      exact hs'
    · cases b with
      | true => exact .inl rfl
      | false =>
        refine .inr ((hm.preempts ?_).resolve_left Bool.false_ne_true)
        by_cases hlow : s.lowers
        · cases hpend : s.xYieldPending with
          | true =>
            refine .inl ?_
            rw [hs1, ← hpend, ← hy]
          | false =>
            refine hp1 hp (.inr fun u hu hru => ?_)
            by_contra hgt
            have hle := of_decide_eq_false hb.symm
            rw [priorityLeft, if_pos hlow, not_lt] at hle
            exact hmiss ⟨hlow, hpend, hempty, ⟨t, ht, hle⟩, u, hu, hru, not_le.1 hgt⟩
        · exact hp1 hp (.inl hlow)
    · obtain ⟨hlow, hpend, -, ⟨t', ht', hle⟩, u, hu, hru, hgt⟩ := hmiss
      obtain rfl : t = t' := Option.some.inj (ht.symm.trans ht')
      rw [priorityLeft, if_pos hlow, decide_eq_false (not_lt.2 hle)] at hb
      subst hb
      obtain rfl : s2 = s' := Option.some.inj hs'
      obtain hyes | hmax := hp'
      · rw [hy2, hs1, Bool.or_false] at hyes
        rw [← hy, hyes] at hpend
        cases hpend
      · have hu2 := hmax u (hm.kept u ((hready1 u).2 hru))
        rw [hm.books.priority, hm.current, hcur1, hprio1, update_of_ne hu, update_self,
          priorityLeft, if_pos hlow] at hu2
        exact absurd hgt (not_lt.2 hu2)

end Scheduler

end HmBoard
