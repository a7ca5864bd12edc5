import HmBoard.Rtos.ListPointers
import HmBoard.Rtos.Scheduler
import HmBoard.Rtos.Turns

/-!
# Every task is in its list

`Good x s a`: the lists of the scheduler show the walks `a`, each list holds items of its kind, a
ready list only tasks of its priority, and no ready task waits for an event. A task that is just
being moved (`x`) may be in no list. Under `Good` no call reads through `NULL` and every loop ends.
`Fair x new a a'`: no task but `x` that waits for its turn in a ready list has been put off, while
the tasks `new` were dispatched.
-/

namespace HmBoard

open Lib Function

variable {T E : Type}

def TaskItem.task : TaskItem T → T
  | .xGenericListItem t => t
  | .xEventListItem t => t

/-- Which items belong in a list. -/
def TaskList.Holds (uxPriority : T → Priority) : TaskList E → TaskItem T → Prop
  | .pxReadyTasksLists p, .xGenericListItem t => p = uxPriority t
  | .xDelayedTaskList _, .xGenericListItem _ | .xSuspendedTaskList, .xGenericListItem _ => True
  | .xPendingReadyList, .xEventListItem _ | .event _, .xEventListItem _ => True
  | _, _ => False

namespace Scheduler

abbrev TaskWalks (T E : Type) := Walks (TaskList E) (TaskItem T) T

variable {x : Option T} {s : Scheduler T E} {a a' : TaskWalks T E} {t u : T}

theorem task_inj_on {f : T → Priority} {l : TaskList E} {i j : TaskItem T} (hi : l.Holds f i)
    (hj : l.Holds f j) (h : i.task = j.task) : i = j := by
  cases i <;> cases j <;> cases l <;> simp_all [TaskList.Holds, TaskItem.task]

theorem holds_congr {f g : T → Priority} {l : TaskList E} {i : TaskItem T}
    (h : ∀ t, i = .xGenericListItem t → f t = g t) : l.Holds f i ↔ l.Holds g i := by
  cases i with
  | xGenericListItem t => cases l <;> simp [TaskList.Holds, h t rfl]
  | xEventListItem t => cases l <;> rfl

section

variable [DecidableEq T]

/-- `t` is in ready list `p`, and `u` has no more than `n` turns before it. -/
def Waiting (a : TaskWalks T E) (p : Priority) (t u : T) (n : Nat) : Prop :=
  .xGenericListItem t ∈ (a.walk (.pxReadyTasksLists p)).items ∧
    (a.walk (.pxReadyTasksLists p)).credit (.xGenericListItem t) (.xGenericListItem u) ≤ n

/-- Among the tasks `new` that were dispatched meanwhile. -/
def Fair (x : Option T) (new : List (Priority × T)) (a a' : TaskWalks T E) : Prop :=
  ∀ p t u n, x ≠ some t → (p, t) ∉ new → Waiting a p t u n →
    new.count (p, u) ≤ n ∧ Waiting a' p t u (n - new.count (p, u))

theorem Fair.refl (x : Option T) (a : TaskWalks T E) : Fair x [] a a :=
  fun _ _ _ _ _ _ h => ⟨Nat.zero_le _, h⟩

theorem Fair.trans {a'' : TaskWalks T E} {new new' : List (Priority × T)} (h : Fair x new a a')
    (h' : Fair x new' a' a'') : Fair x (new ++ new') a a'' := by
  intro p t u n hx hnew hw
  rw [List.mem_append, not_or] at hnew
  obtain ⟨h1, hw⟩ := h p t u n hx hnew.1 hw
  obtain ⟨h2, hw⟩ := h' p t u _ hx hnew.2 hw
  rw [List.count_append]
  refine ⟨by omega, ?_⟩
  rwa [Nat.sub_add_eq]

theorem Fair.weaken {new : List (Priority × T)} (h : Fair none new a a') : Fair x new a a' :=
  fun p t u n _ hnew hw => h p t u n (by simp) hnew hw

end

variable [DecidableEq E]

theorem isReady_iff : s.isReady t = true ↔
    s.lists.pvContainer (.xGenericListItem t) = some (.pxReadyTasksLists (s.uxPriority t)) := by
  simp [isReady, Lists.listIsContainedWithin]

structure Good (x : Option T) (s : Scheduler T E) (a : TaskWalks T E) : Prop where
  rep : Represents s.lists a
  owner : ∀ i, s.lists.pvOwner i = i.task
  holds : ∀ i l, s.lists.pvContainer i = some l → l.Holds s.uxPriority i
  home : ∀ t, x ≠ some t → ∃ l, s.lists.pvContainer (.xGenericListItem t) = some l
  waits : ∀ t l, x ≠ some t → s.lists.pvContainer (.xEventListItem t) = some l →
    s.isReady t = false
  top : ∀ t, s.isReady t = true → s.uxPriority t ≤ s.uxTopReadyPriority

/-- A task in any ready list is in the one of its priority. -/
theorem Good.ready_of_mem (h : Good x s a) {p : Priority}
    (hm : .xGenericListItem t ∈ (a.walk (.pxReadyTasksLists p)).items) :
    s.isReady t = true ∧ p = s.uxPriority t := by
  have hc := (h.rep.container _ _).2 hm
  have hp : p = s.uxPriority t := h.holds _ _ hc
  exact ⟨isReady_iff.2 (hp ▸ hc), hp⟩

theorem Good.mem_of_ready (h : Good x s a) (hr : s.isReady t = true) :
    .xGenericListItem t ∈ (a.walk (.pxReadyTasksLists (s.uxPriority t))).items :=
  (h.rep.container _ _).1 (isReady_iff.1 hr)

/-! ## The lengths -/

section

variable [Fintype T]

theorem Good.length_le (h : Good x s a) (l : TaskList E) :
    (a.walk l).items.length ≤ Fintype.card T := by
  have hnodup : ((a.walk l).items.map TaskItem.task).Nodup := by
    refine (h.rep.nodup l).map_on fun i hi j hj => ?_
    exact task_inj_on (h.holds i l ((h.rep.container i l).2 hi))
      (h.holds j l ((h.rep.container j l).2 hj))
  simpa using hnodup.length_le_card

/-- With fewer than 256 tasks the count of a list is its length. -/
theorem Good.isEmpty (h : Good x s a) (hT : Fintype.card T < 256) (l : TaskList E) :
    s.lists.listListIsEmpty l = true ↔ (a.walk l).items = [] :=
  h.rep.isEmpty ((h.length_le l).trans_lt hT)

/-- The first entry of a list that is not empty. -/
theorem Good.head (h : Good x s a) (hT : Fintype.card T < 256) {l : TaskList E}
    (hl : ¬ s.lists.listListIsEmpty l = true) :
    ∃ i, s.lists.listGetOwnerOfHeadEntry l = some i.task ∧ s.lists.pvContainer i = some l := by
  rw [h.isEmpty hT] at hl
  obtain ⟨i, xs, hw⟩ := List.exists_cons_of_ne_nil hl
  refine ⟨i, ?_, (h.rep.container i l).2 (by simp [hw])⟩
  rw [h.rep.head hw, ← h.rep.owner, h.owner]

end

/-! ## Moving one item -/

variable [DecidableEq T]

/-- The task's own item goes to list `c`, or off its list; its priority may change. -/
theorem Good.moveGeneric (h : Good x s a) (hx : x = none ∨ x = some t) (s' : Scheduler T E)
    {c : Option (TaskList E)} (hrep : Represents s'.lists a')
    (howner : s'.lists.pvOwner = s.lists.pvOwner)
    (hcon : s'.lists.pvContainer = update s.lists.pvContainer (.xGenericListItem t) c)
    (hprio : ∀ u, u ≠ t → s'.uxPriority u = s.uxPriority u)
    (hc : ∀ l, c = some l → l.Holds s'.uxPriority (.xGenericListItem t))
    (htop : s.uxTopReadyPriority ≤ s'.uxTopReadyPriority)
    (hready : ∀ p, c = some (.pxReadyTasksLists p) →
      p ≤ s'.uxTopReadyPriority ∧ s.lists.pvContainer (.xEventListItem t) = none)
    {y : Option T} (hy : y = some t ∨ y = none ∧ c ≠ none) : Good y s' a' := by
  have hevent : ∀ u, s'.lists.pvContainer (.xEventListItem u) =
      s.lists.pvContainer (.xEventListItem u) := by
    intro u
    rw [hcon, update_of_ne (by simp)]
  have hgen : ∀ u, u ≠ t → s'.lists.pvContainer (.xGenericListItem u) =
      s.lists.pvContainer (.xGenericListItem u) := by
    intro u hu
    rw [hcon, update_of_ne (by simpa using hu)]
  have hself : s'.lists.pvContainer (.xGenericListItem t) = c := by rw [hcon, update_self]
  have hold : ∀ u, u ≠ t → x ≠ some u := by
    rintro u hu rfl
    obtain hx | hx := hx
    · cases hx
    · exact hu (Option.some.inj hx)
  have hkeep : ∀ u, u ≠ t → (s'.isReady u = true ↔ s.isReady u = true) := by
    intro u hu
    rw [isReady_iff, isReady_iff, hgen u hu, hprio u hu]
  refine ⟨hrep, fun i => howner ▸ h.owner i, fun i l hl => ?_, fun u hu => ?_, fun u l hu hl => ?_,
    fun u hu => ?_⟩
  · by_cases hi : i = .xGenericListItem t
    · subst hi
      exact hc l (hself ▸ hl)
    · rw [hcon, update_of_ne hi] at hl
      refine (holds_congr fun u hu => hprio u fun hut => hi ?_).2 (h.holds i l hl)
      rw [hu, hut]
  · by_cases hut : u = t
    · subst hut
      obtain ⟨-, hc⟩ := hy.resolve_left hu
      exact ⟨c.get (Option.isSome_iff_ne_none.2 hc), by simp [hself]⟩
    · obtain ⟨l, hl⟩ := h.home u (hold u hut)
      exact ⟨l, (hgen u hut).trans hl⟩
  · have hl : s.lists.pvContainer (.xEventListItem u) = some l := (hevent u).symm.trans hl
    by_cases hut : u = t
    · subst hut
      refine Bool.eq_false_iff.2 fun hr => ?_
      rw [isReady_iff] at hr
      have hc := (hready _ (hself.symm.trans hr)).2
      rw [hc] at hl
      cases hl
    · refine Bool.eq_false_iff.2 fun hr => ?_
      have := h.waits u l (hold u hut) hl
      rw [(hkeep u hut).1 hr] at this
      cases this
  · by_cases hut : u = t
    · subst hut
      rw [isReady_iff] at hu
      exact (hready _ (hself.symm.trans hu)).1
    · rw [hprio u hut]
      exact (h.top u ((hkeep u hut).1 hu)).trans htop

/-- Its event item goes to list `c`, or off its list. -/
theorem Good.moveEvent (h : Good x s a) (hx : x = none ∨ x = some t)
    {ls : Lists (TaskList E) (TaskItem T) T} {c : Option (TaskList E)}
    (hrep : Represents ls a') (howner : ls.pvOwner = s.lists.pvOwner)
    (hcon : ls.pvContainer = update s.lists.pvContainer (.xEventListItem t) c)
    (hc : ∀ l, c = some l → l.Holds s.uxPriority (.xEventListItem t))
    {y : Option T} (hy : y = some t ∨ y = x ∧ (c = none ∨ s.isReady t = false)) :
    Good y { s with lists := ls } a' := by
  have hgen : ∀ u, ls.pvContainer (.xGenericListItem u) =
      s.lists.pvContainer (.xGenericListItem u) := by
    intro u
    rw [hcon, update_of_ne (by simp)]
  have hkeep : ∀ u, isReady { s with lists := ls } u = true ↔ s.isReady u = true := by
    intro u
    rw [isReady_iff, isReady_iff]
    exact iff_of_eq (congrArg (· = _) (hgen u))
  have hold : ∀ u, y ≠ some u → x ≠ some u := by
    rintro u hu rfl
    obtain rfl | ⟨rfl, -⟩ := hy
    · obtain hx | hx := hx
      · cases hx
      · exact hu hx.symm
    · exact hu rfl
  refine ⟨hrep, fun i => howner ▸ h.owner i, fun i l hl => ?_, fun u hu => ?_, fun u l hu hl => ?_,
    fun u hu => h.top u ((hkeep u).1 hu)⟩
  · have hl : ls.pvContainer i = some l := hl
    by_cases hi : i = .xEventListItem t
    · subst hi
      rw [hcon, update_self] at hl
      exact hc l hl
    · rw [hcon, update_of_ne hi] at hl
      exact h.holds i l hl
  · obtain ⟨l, hl⟩ := h.home u (hold u hu)
    exact ⟨l, (hgen u).trans hl⟩
  · have hl : ls.pvContainer (.xEventListItem u) = some l := hl
    refine Bool.eq_false_iff.2 fun hr => ?_
    have hr := (hkeep u).1 hr
    by_cases hut : u = t
    · subst hut
      rw [hcon, update_self] at hl
      obtain hc | hf := (hy.resolve_left hu).2
      · rw [hc] at hl
        cases hl
      · rw [hf] at hr
        cases hr
    · rw [hcon, update_of_ne (by simpa using hut)] at hl
      rw [h.waits u l (hold u hu) hl] at hr
      cases hr

theorem fair_setWalk {l : TaskList E} {w : Walk (TaskItem T)}
    (h : ∀ p t u, l = .pxReadyTasksLists p → x ≠ some t → .xGenericListItem t ∈ (a.walk l).items →
      .xGenericListItem t ∈ w.items ∧ w.credit (.xGenericListItem t) (.xGenericListItem u) ≤
        (a.walk l).credit (.xGenericListItem t) (.xGenericListItem u)) :
    Fair x [] a (a.setWalk l w) := by
  intro p t u n hx _ ⟨hm, hn⟩
  refine ⟨Nat.zero_le _, ?_⟩
  by_cases hl : l = .pxReadyTasksLists p
  · subst hl
    obtain ⟨h1, h2⟩ := h p t u rfl hx hm
    rw [Waiting, Walks.setWalk_self]
    exact ⟨h1, h2.trans hn⟩
  · rw [Waiting, Walks.setWalk_of_ne (Ne.symm hl)]
    exact ⟨hm, hn⟩

theorem fair_remove {l : TaskList E} {i : TaskItem T} (hnodup : (a.walk l).items.Nodup)
    (hi : i ∈ (a.walk l).items) (hx : ∀ t, i = .xGenericListItem t → x = some t) :
    Fair x [] a (a.setWalk l ((a.walk l).remove i)) := by
  refine fair_setWalk fun p t u _ hne hm => ?_
  have hit : i ≠ .xGenericListItem t := fun heq => hne (hx t heq)
  obtain ⟨as, bs, hw, hw', -⟩ := Walk.items_remove l hnodup hi
  refine ⟨?_, Walk.credit_remove hit⟩
  rw [hw, List.perm_middle.mem_iff, List.mem_cons, or_iff_right hit.symm] at hm
  rwa [hw']

theorem fair_insertEnd (l : TaskList E) (i : TaskItem T) :
    Fair x [] a (a.setWalk l ((a.walk l).insertEnd i)) := by
  refine fair_setWalk fun p t u _ _ hm => ?_
  obtain ⟨as, bs, hw, hw', -⟩ := Walk.items_insertEnd l i (a.walk l)
  refine ⟨?_, (Walk.credit_insertEnd hm).le⟩
  rw [hw', List.perm_middle.mem_iff, List.mem_cons, ← hw]
  exact .inr hm

theorem listRemove_spec (h : Represents s.lists a) {i : TaskItem T} {l : TaskList E}
    (hc : s.lists.pvContainer i = some l) (hx : ∀ t, i = .xGenericListItem t → x = some t) :
    ∃ ls a', s.listRemove i = some { s with lists := ls } ∧ Represents ls a' ∧
      ls.pvContainer = update s.lists.pvContainer i none ∧ ls.pvOwner = s.lists.pvOwner ∧
      Fair x [] a a' ∧ ∀ c, c ≠ l → a'.walk c = a.walk c := by
  have hi := (h.container i l).1 hc
  obtain ⟨ls, hls, hrep⟩ := h.remove hi
  obtain ⟨hcon, hown, -⟩ := uxListRemove_frame hls
  exact ⟨ls, _, by rw [listRemove, hls]; rfl, hrep, hcon, hown, fair_remove (h.nodup l) hi hx,
    fun c hne => Walks.setWalk_of_ne hne _⟩

/-- The task's own item comes off its list. -/
theorem Good.removeGeneric (h : Good x s a) (hx : x = none ∨ x = some t)
    (hc : ∃ l, s.lists.pvContainer (.xGenericListItem t) = some l) :
    ∃ ls a', s.listRemove (.xGenericListItem t) = some { s with lists := ls } ∧
      Good (some t) { s with lists := ls } a' ∧
      ls.pvContainer = update s.lists.pvContainer (.xGenericListItem t) none ∧
      Fair (some t) [] a a' := by
  obtain ⟨l, hc⟩ := hc
  obtain ⟨ls, a', hls, hrep, hcon, hown, hfair, -⟩ := listRemove_spec (x := some t) h.rep hc
    fun u hu => congrArg some (TaskItem.xGenericListItem.inj hu)
  exact ⟨ls, a', hls, h.moveGeneric hx { s with lists := ls } hrep hown hcon (fun _ _ => rfl)
    (fun _ hn => nomatch hn) le_rfl (fun _ hn => nomatch hn) (.inl rfl), hcon, hfair⟩

/-- Its event item comes off its list. -/
theorem Good.removeEvent (h : Good x s a) (hx : x = none ∨ x = some t) {l : TaskList E}
    (hc : s.lists.pvContainer (.xEventListItem t) = some l) :
    ∃ ls a', s.listRemove (.xEventListItem t) = some { s with lists := ls } ∧
      Good x { s with lists := ls } a' ∧
      ls.pvContainer = update s.lists.pvContainer (.xEventListItem t) none ∧ Fair none [] a a' := by
  obtain ⟨ls, a', hls, hrep, hcon, hown, hfair, -⟩ := listRemove_spec (x := none) h.rep hc
    fun u hu => nomatch hu
  exact ⟨ls, a', hls, h.moveEvent hx hrep hown hcon (fun _ hn => nomatch hn) (.inr ⟨rfl, .inl rfl⟩),
    hcon, hfair⟩

/-- It goes to the end of its ready list. -/
theorem Good.addReady (h : Good x s a) (hx : x = none ∨ x = some t)
    (hg : s.lists.pvContainer (.xGenericListItem t) = none)
    (he : s.lists.pvContainer (.xEventListItem t) = none) :
    ∃ a', Good none (s.prvAddTaskToReadyList t) a' ∧ Fair none [] a a' ∧
      ∀ c, (∀ p, c ≠ .pxReadyTasksLists p) → a'.walk c = a.walk c := by
  refine ⟨_, h.moveGeneric hx (s.prvAddTaskToReadyList t) (h.rep.insertEnd (h.rep.inNoList hg)) rfl
    rfl (fun _ _ => rfl) ?_ ?_ ?_ (.inr ⟨rfl, by simp⟩), fair_insertEnd _ _,
    fun c hc => Walks.setWalk_of_ne (hc _) _⟩
  · rintro l ⟨rfl⟩
    rfl
  · rw [prvAddTaskToReadyList]
    dsimp only
    split
    · rename_i hlt
      exact hlt.le
    · exact le_rfl
  · rintro p ⟨rfl⟩
    refine ⟨?_, he⟩
    rw [prvAddTaskToReadyList]
    dsimp only
    split
    · exact le_rfl
    · rename_i hle
      exact not_lt.1 hle

/-- From whatever list it is in into its ready list. -/
theorem Good.makeReady (h : Good x s a) (hx : x = none ∨ x = some t)
    (hc : ∃ l, s.lists.pvContainer (.xGenericListItem t) = some l)
    (he : s.lists.pvContainer (.xEventListItem t) = none) :
    ∃ ls top a', s.makeReady t = some { s with lists := ls, uxTopReadyPriority := top } ∧
      Good none { s with lists := ls, uxTopReadyPriority := top } a' ∧
      ls.pvContainer = update s.lists.pvContainer (.xGenericListItem t)
        (some (.pxReadyTasksLists (s.uxPriority t))) ∧ Fair (some t) [] a a' := by
  obtain ⟨ls, a1, hls, h1, hcon, hfair1⟩ := h.removeGeneric hx hc
  have hg : ls.pvContainer (.xGenericListItem t) = none := by rw [hcon, update_self]
  have he' : ls.pvContainer (.xEventListItem t) = none := by rwa [hcon, update_of_ne (by simp)]
  obtain ⟨a2, h2, hfair2, -⟩ := h1.addReady (.inr rfl) hg he'
  refine ⟨_, _, a2, by rw [Scheduler.makeReady, hls]; rfl, h2, ?_, hfair1.trans hfair2.weaken⟩
  change update ls.pvContainer _ _ = _
  rw [hcon, update_idem]

/-! ## Switching -/

omit [DecidableEq T] in
/-- Only the place of the index and the top of the ready lists have changed. -/
theorem Good.turn (h : Good x s a) (s' : Scheduler T E) (hrep : Represents s'.lists a')
    (howner : s'.lists.pvOwner = s.lists.pvOwner)
    (hcon : s'.lists.pvContainer = s.lists.pvContainer) (hprio : s'.uxPriority = s.uxPriority)
    (htop : ∀ t, s.isReady t = true → s.uxPriority t ≤ s'.uxTopReadyPriority) :
    Good x s' a' ∧ ∀ t, s'.isReady t = true ↔ s.isReady t = true := by
  have hready : ∀ t, s'.isReady t = true ↔ s.isReady t = true := by
    intro t
    rw [isReady_iff, isReady_iff, hcon, hprio]
  refine ⟨⟨hrep, ?_, ?_, ?_, ?_, ?_⟩, hready⟩
  · rw [howner]
    exact h.owner
  · rw [hcon, hprio]
    exact h.holds
  · rw [hcon]
    exact h.home
  · intro t l hx hl
    rw [hcon] at hl
    refine Bool.eq_false_iff.2 fun hr => ?_
    have hnot := h.waits t l hx hl
    rw [(hready t).1 hr] at hnot
    cases hnot
  · intro t hr
    rw [hprio]
    exact htop t ((hready t).1 hr)

/-- A task has its turn in ready list `p`. -/
theorem fair_next (h : Good none s a) {p : Priority} {w : Walk (TaskItem T)}
    (hn : (a.walk (.pxReadyTasksLists p)).next = some (w, .xGenericListItem u)) :
    Fair none [(p, u)] a (a.setWalk (.pxReadyTasksLists p) w) := by
  intro q t v n _ hnew ⟨hm, hle⟩
  by_cases hq : q = p
  · subst hq
    have htu : (TaskItem.xGenericListItem u) ≠ .xGenericListItem t := by
      intro heq
      simp [TaskItem.xGenericListItem.inj heq] at hnew
    obtain ⟨hitems, -⟩ := Walk.items_next hn (TaskList.xSuspendedTaskList (E := E))
    have hcredit := Walk.credit_next (i := .xGenericListItem v) (h.rep.nodup _) hm hn htu
    rw [Waiting, Walks.setWalk_self, hitems]
    by_cases hv : u = v
    · subst hv
      rw [if_pos rfl] at hcredit
      rw [List.count_singleton_self]
      exact ⟨by omega, hm, by omega⟩
    · rw [if_neg (by simpa using hv)] at hcredit
      rw [List.count_eq_zero_of_not_mem (by simp [Ne.symm hv])]
      exact ⟨Nat.zero_le n, hm, by omega⟩
  · rw [List.count_eq_zero_of_not_mem (by simp [hq]), Waiting,
      Walks.setWalk_of_ne (by simpa using hq)]
    exact ⟨Nat.zero_le n, hm, hle⟩

variable [Fintype T]

omit [DecidableEq T] in
/-- The loop of `taskSELECT_HIGHEST_PRIORITY_TASK` ends at the highest ready list in use. -/
theorem Good.highestReady (h : Good none s a) (hT : Fintype.card T < 256) {n : Nat}
    (hn : n < configMaxPriorities) (ht : s.isReady t = true) (hle : (s.uxPriority t).1 ≤ n) :
    ∃ p, s.highestReady n hn = some p ∧ s.lists.listListIsEmpty (.pxReadyTasksLists p) = false ∧
      ∀ u, s.isReady u = true → (s.uxPriority u).1 ≤ n → s.uxPriority u ≤ p := by
  have hfull : ∀ u, s.isReady u = true →
      s.lists.listListIsEmpty (.pxReadyTasksLists (s.uxPriority u)) = false := by
    intro u hu
    refine Bool.eq_false_iff.2 fun hempty => ?_
    rw [h.isEmpty hT] at hempty
    have hm := h.mem_of_ready hu
    rw [hempty] at hm
    cases hm
  induction n with
  | zero =>
    have hp : s.uxPriority t = ⟨0, hn⟩ := Fin.ext (Nat.le_zero.1 hle)
    have hne := hfull t ht
    rw [hp] at hne
    refine ⟨⟨0, hn⟩, by simp [Scheduler.highestReady, hne], hne, fun u _ hu => ?_⟩
    exact Fin.le_def.2 hu
  | succ n ih =>
    rw [Scheduler.highestReady]
    cases hempty : s.lists.listListIsEmpty (.pxReadyTasksLists ⟨n + 1, hn⟩) with
    | false => exact ⟨⟨n + 1, hn⟩, rfl, hempty, fun u _ hu => Fin.le_def.2 hu⟩
    | true =>
      have hless : ∀ u, s.isReady u = true → (s.uxPriority u).1 ≤ n + 1 →
          (s.uxPriority u).1 ≤ n := by
        intro u hu hle
        refine Nat.le_of_lt_succ (lt_of_le_of_ne hle fun heq => ?_)
        have hp : s.uxPriority u = ⟨n + 1, hn⟩ := Fin.ext heq
        have := hfull u hu
        rw [hp, hempty] at this
        cases this
      obtain ⟨p, h1, h2, h3⟩ := ih (Nat.lt_of_succ_lt hn) (hless t ht hle)
      exact ⟨p, by simpa using h1, h2, fun u hu hle => h3 u hu (hless u hu hle)⟩

/-- The books that no move between lists touches. -/
structure SameBooks (s s' : Scheduler T E) : Prop where
  priority : s'.uxPriority = s.uxPriority
  base : s'.uxBasePriority = s.uxBasePriority
  held : s'.uxMutexesHeld = s.uxMutexesHeld
  holder : s'.pxMutexHolder = s.pxMutexHolder

/-- Nobody with a higher priority is ready, or a yield is pending. -/
def Preempts (s : Scheduler T E) : Prop :=
  s.xYieldPending = true ∨ ∀ t, s.isReady t = true → s.uxPriority t ≤ s.uxPriority s.pxCurrentTCB

/-- The running task is a ready one of the highest priority. -/
def Highest (s : Scheduler T E) : Prop :=
  s.isReady s.pxCurrentTCB = true ∧
    ∀ t, s.isReady t = true → s.uxPriority t ≤ s.uxPriority s.pxCurrentTCB

/-- The tasks `new` were switched in, after which the running task is right where `P`. -/
structure Turned (s s' : Scheduler T E) (new : List (Priority × T)) (P : Prop) : Prop where
  books : SameBooks s s'
  ready : ∀ t, s'.isReady t = true ↔ s.isReady t = true
  dispatched : s'.dispatched = s.dispatched ++ new
  preempts : P → s'.Preempts

theorem Good.switchContext (h : Good none s a) (hT : Fintype.card T < 256)
    (hidle : ∃ t, s.isReady t = true) :
    ∃ s' a' new, s.vTaskSwitchContext = some s' ∧ Good none s' a' ∧ Fair none new a a' ∧
      Turned s s' new True ∧ (s.uxSchedulerSuspended = 0 → s'.Highest) := by
  rw [vTaskSwitchContext]
  split
  · rename_i hsus
    exact ⟨_, a, [], rfl, ⟨h.rep, h.owner, h.holds, h.home, h.waits, h.top⟩, Fair.refl none a,
      ⟨⟨rfl, rfl, rfl, rfl⟩, fun _ => Iff.rfl, (List.append_nil _).symm, fun _ => .inl rfl⟩,
      fun h0 => absurd h0 hsus⟩
  · obtain ⟨t, ht⟩ := hidle
    obtain ⟨p, hp, hempty, hmax⟩ := h.highestReady hT s.uxTopReadyPriority.2 ht (h.top t ht)
    have hne : (a.walk (.pxReadyTasksLists p)).items ≠ [] := by
      rw [Ne, ← h.isEmpty hT, hempty]
      decide
    obtain ⟨w, i, hnext⟩ := Walk.exists_next hne
    obtain ⟨-, as, bs, hw, -⟩ := Walk.items_next hnext (TaskList.xSuspendedTaskList (E := E))
    have hm : i ∈ (a.walk (.pxReadyTasksLists p)).items := by simp [hw]
    obtain ⟨u, rfl⟩ : ∃ u, i = .xGenericListItem u := by
      have hholds := h.holds _ _ ((h.rep.container _ _).2 hm)
      cases i with
      | xGenericListItem u => exact ⟨u, rfl⟩
      | xEventListItem u => cases hholds
    obtain ⟨ls, hls, hrep⟩ := h.rep.next hnext
    obtain ⟨hcon, hown, -⟩ := nextEntry_frame hls
    have howner : a.owner (.xGenericListItem u) = u := by rw [← h.rep.owner, h.owner]; rfl
    obtain ⟨hready, rfl⟩ := h.ready_of_mem hm
    have hmax : ∀ t, s.isReady t = true → s.uxPriority t ≤ s.uxPriority u :=
      fun t ht => hmax t ht (h.top t ht)
    have hgood := h.turn
      { s with
        xYieldPending := false
        uxTopReadyPriority := s.uxPriority u
        lists := ls
        pxCurrentTCB := u
        dispatched := s.dispatched ++ [(s.uxPriority u, u)] } hrep hown hcon rfl hmax
    have hhigh : ∀ t, _ → _ := fun t ht => hmax t ((hgood.2 t).1 ht)
    refine ⟨_, _, _, ?_, hgood.1, fair_next h hnext,
      ⟨⟨rfl, rfl, rfl, rfl⟩, hgood.2, rfl, fun _ => .inr hhigh⟩,
      fun _ => ⟨(hgood.2 u).2 hready, hhigh⟩⟩
    rw [hp, Option.bind_some, hls, howner]
    rfl

theorem Good.switchIf (h : Good none s a) (hT : Fintype.card T < 256)
    (hidle : ∃ t, s.isReady t = true) (b : Bool) :
    ∃ s' a' new, s.switchIf b = some s' ∧ Good none s' a' ∧ Fair none new a a' ∧
      Turned s s' new (b = true ∨ s.Preempts) := by
  cases b with
  | false =>
    refine ⟨s, a, [], rfl, h, Fair.refl none a, ⟨rfl, rfl, rfl, rfl⟩, fun _ => Iff.rfl,
      (List.append_nil _).symm, fun hp => ?_⟩
    exact hp.resolve_left Bool.false_ne_true
  | true =>
    obtain ⟨s', a', new, hs', h', hfair, hturn, -⟩ := h.switchContext hT hidle
    exact ⟨s', a', new, hs', h', hfair, hturn.books, hturn.ready,
      hturn.dispatched, fun _ => hturn.preempts trivial⟩

end Scheduler

end HmBoard
