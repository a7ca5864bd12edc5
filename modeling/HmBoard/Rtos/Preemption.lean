import HmBoard.Rtos.Priorities

/-!
# Who runs

From the start, in which every task has been created, through any steps: no call reads through
`NULL` and every loop ends, and a task of higher priority is ready while no yield is pending only
behind a give that misses its switch (queue.c:698: the giver's lost priority is looked at only
where no task waits for the mutex).
-/

namespace HmBoard

open Lib Function

namespace Scheduler

variable {T E : Type} [DecidableEq T] [DecidableEq E] {s : Scheduler T E} {a : TaskWalks T E}
  {t : T} {C : List T}

/-! ## The start -/

/-- Before the first task is created. -/
def boot (lists : Lists (TaskList E) (TaskItem T) T) (t : T) : Scheduler T E where
  lists := lists
  uxPriority := fun _ => tskIdlePriority
  uxBasePriority := fun _ => tskIdlePriority
  uxMutexesHeld := fun _ => 0
  pxMutexHolder := fun _ => none
  uxTopReadyPriority := tskIdlePriority
  pxCurrentTCB := t
  uxSchedulerSuspended := 0
  xYieldPending := false
  pxDelayedTaskList := false
  dispatched := []

/-- The tasks are created one after the other, with these priorities. -/
def createAll (uxPriority : T → Nat) (ts : List T) (s : Scheduler T E) : Scheduler T E :=
  ts.foldl (fun s t => s.create t (uxPriority t)) s

/-- The tasks `C` have been created. -/
structure Created (C : List T) (s : Scheduler T E) (a : TaskWalks T E) : Prop where
  rep : Represents s.lists a
  owner : ∀ i, i.task ∈ C → s.lists.pvOwner i = i.task
  generic : ∀ t, s.lists.pvContainer (.xGenericListItem t) =
    if t ∈ C then some (.pxReadyTasksLists (s.uxPriority t)) else none
  event : ∀ t, s.lists.pvContainer (.xEventListItem t) = none
  top : ∀ t, t ∈ C → s.uxPriority t ≤ s.uxTopReadyPriority
  held : s.uxMutexesHeld = fun _ => 0
  holder : s.pxMutexHolder = fun _ => none
  base : s.uxBasePriority = s.uxPriority
  first : C = [] → s.uxPriority s.pxCurrentTCB = tskIdlePriority
  current : ∀ t, t ∈ C → s.pxCurrentTCB ∈ C ∧ s.uxPriority t ≤ s.uxPriority s.pxCurrentTCB

omit [DecidableEq E] in
theorem created_boot {lists : Lists (TaskList E) (TaskItem T) T} (h : Represents lists a)
    (hempty : ∀ l, (a.walk l).items = []) (t : T) : Created [] (boot lists t) a := by
  have hnone : ∀ i, lists.pvContainer i = none := by
    intro i
    refine Option.eq_none_iff_forall_ne_some.2 fun l hl => ?_
    rw [h.container, hempty] at hl
    cases hl
  exact ⟨h, nofun, fun t => hnone _, fun t => hnone _, nofun, rfl, rfl, rfl,
    fun _ => rfl, nofun⟩

theorem Created.create (h : Created C s a) (ht : t ∉ C) (uxPriority : Nat) :
    ∃ a', Created (t :: C) (s.create t uxPriority) a' := by
  have hg := h.generic t
  rw [if_neg ht] at hg
  rw [Scheduler.create]
  generalize validPriority uxPriority = p
  have hrep := ((h.rep.setOwner (i := .xGenericListItem t) t).setValue (i := .xEventListItem t)
    (UInt16.ofNat (configMaxPriorities - p))).setOwner (i := .xEventListItem t) t
  have hself : update s.uxPriority t p t = p := update_self _ _ _
  have hother : ∀ u, u ∈ C → update s.uxPriority t p u = s.uxPriority u := by
    rintro u hu
    have hut : u ≠ t := fun heq => ht (heq ▸ hu)
    exact update_of_ne hut _ _
  have hrep := hrep.insertEnd (l := .pxReadyTasksLists (update s.uxPriority t p t))
    (hrep.inNoList hg)
  refine ⟨_, hrep, fun i hi => ?owner, fun u => ?generic, fun u => ?event, fun u hu => ?top, ?held,
    h.holder, ?base, fun hn => ?first, fun u hu => ?current⟩
  case owner =>
    change update (update s.lists.pvOwner _ t) _ t i = i.task
    cases i with
    | xGenericListItem u =>
      rw [update_of_ne (by simp)]
      by_cases hu : u = t
      · subst hu
        exact update_self _ _ _
      · rw [update_of_ne (by simpa using hu)]
        exact h.owner _ ((List.mem_cons.1 hi).resolve_left hu)
    | xEventListItem u =>
      by_cases hu : u = t
      · subst hu
        exact update_self _ _ _
      · rw [update_of_ne (by simpa using hu), update_of_ne (by simp)]
        exact h.owner _ ((List.mem_cons.1 hi).resolve_left hu)
  case generic =>
    change update s.lists.pvContainer _ (some (.pxReadyTasksLists (update s.uxPriority t p t))) _ =
      if u ∈ t :: C then some (.pxReadyTasksLists (update s.uxPriority t p u)) else none
    by_cases hu : u = t
    · subst hu
      rw [update_self, if_pos List.mem_cons_self]
    · rw [update_of_ne (by simpa using hu), h.generic, update_of_ne hu]
      simp [hu]
  case event =>
    change update s.lists.pvContainer (.xGenericListItem t)
      (some (.pxReadyTasksLists (update s.uxPriority t p t))) (.xEventListItem u) = none
    rw [update_of_ne (by simp), h.event]
  case top =>
    change update s.uxPriority t p u ≤ if update s.uxPriority t p t > s.uxTopReadyPriority then
      update s.uxPriority t p t else s.uxTopReadyPriority
    rw [hself]
    obtain rfl | hu := List.mem_cons.1 hu
    · rw [hself]
      split
      · exact le_rfl
      · exact not_lt.1 ‹_›
    · rw [hother u hu]
      split
      · exact (h.top u hu).trans (le_of_lt ‹_›)
      · exact h.top u hu
  case held =>
    change update s.uxMutexesHeld t 0 = _
    rw [h.held]
    exact update_eq_self t _
  case base =>
    change update s.uxBasePriority t _ = update s.uxPriority t _
    rw [h.base]
  case first => cases hn
  case current =>
    change (if update s.uxPriority t p s.pxCurrentTCB ≤ p then t else s.pxCurrentTCB) ∈ t :: C ∧
      update s.uxPriority t p u ≤ update s.uxPriority t p
        (if update s.uxPriority t p s.pxCurrentTCB ≤ p then t else s.pxCurrentTCB)
    obtain rfl | hu := List.mem_cons.1 hu
    · rw [hself]
      split
      · exact ⟨List.mem_cons_self, hself.ge⟩
      · rename_i hgt
        have hne : s.pxCurrentTCB ≠ u := by
          intro heq
          rw [heq, hself] at hgt
          exact hgt le_rfl
        rw [update_of_ne hne] at hgt ⊢
        refine ⟨List.mem_cons_of_mem u ?_, (not_le.1 hgt).le⟩
        cases C with
        | nil =>
          rw [h.first rfl] at hgt
          exact absurd (Fin.le_def.2 (Nat.zero_le _)) hgt
        | cons c C => exact (h.current c List.mem_cons_self).1
    · obtain ⟨hmem, hle⟩ := h.current u hu
      rw [hother u hu, hother _ hmem]
      split
      · rename_i hcur
        rw [hself]
        exact ⟨List.mem_cons_self, hle.trans hcur⟩
      · rw [hother _ hmem]
        exact ⟨List.mem_cons_of_mem t hmem, hle⟩

theorem created_all (uxPriority : T → Nat) (ts : List T) {C : List T} {s : Scheduler T E}
    {a : TaskWalks T E} (h : Created C s a) (hnodup : (ts ++ C).Nodup) :
    ∃ a' C', Created C' (createAll uxPriority ts s) a' ∧ ∀ t, t ∈ ts ∨ t ∈ C → t ∈ C' := by
  induction ts generalizing C s a with
  | nil => exact ⟨a, C, h, fun t ht => ht.resolve_left (by simp)⟩
  | cons t ts ih =>
    rw [List.cons_append, List.nodup_cons, List.mem_append, not_or] at hnodup
    obtain ⟨a1, h1⟩ := h.create hnodup.1.2 (uxPriority t)
    obtain ⟨a', C', h', hmem⟩ := ih h1
      (List.perm_middle.nodup_iff.2 (List.nodup_cons.2 ⟨by simp [hnodup.1], hnodup.2⟩))
    refine ⟨a', C', h', fun u hu => hmem u ?_⟩
    rw [List.mem_cons, or_assoc, or_left_comm] at hu
    rwa [List.mem_cons]

/-- What the scheduler is started with: memory, and every task once with its priority. -/
structure Setup (T E : Type) [Fintype T] where
  lists : Lists (TaskList E) (TaskItem T) T
  taskLists : List (TaskList E)
  items : List (TaskItem T)
  tasks : List T
  uxPriority : T → Nat
  xIdleTask : T
  allLists : ∀ l, l ∈ taskLists
  allItems : ∀ i, i ∈ items
  allTasks : ∀ t, t ∈ tasks
  once : tasks.Nodup
  few : Fintype.card T < 256

/-- All lists and items initialised and all tasks created. -/
def Setup.start [Fintype T] (b : Setup T E) : Scheduler T E :=
  createAll b.uxPriority b.tasks (boot (b.lists.boot b.taskLists b.items) b.xIdleTask)

/-- The steps taken one after the other. -/
def run (xIdleTask : T) (labels : List (SchedulerLabel T E)) (s : Scheduler T E) :
    Option (Scheduler T E) :=
  labels.foldlM (fun s l => s.step xIdleTask l) s

/-- What holds in every state. -/
structure Sound [Fintype E] (xIdleTask : T) (s : Scheduler T E) : Prop where
  good : ∃ a, Good none s a
  idle : s.isReady xIdleTask = true
  books : s.MutexBooks

theorem Created.good (h : Created C s a) (hall : ∀ t, t ∈ C) : Good none s a := by
  have hgen : ∀ t, s.lists.pvContainer (.xGenericListItem t) =
      some (.pxReadyTasksLists (s.uxPriority t)) := by
    intro t
    rw [h.generic, if_pos (hall t)]
  refine ⟨h.rep, fun i => h.owner i (hall _), fun i l hl => ?_, fun t _ => ⟨_, hgen t⟩,
    fun t l _ hl => ?_, fun t _ => h.top t (hall t)⟩
  · cases i with
    | xGenericListItem t =>
      rw [hgen] at hl
      cases hl
      rfl
    | xEventListItem t =>
      rw [h.event] at hl
      cases hl
  · rw [h.event] at hl
    cases hl

variable [Fintype E]

theorem Created.sound (h : Created C s a) (hall : ∀ t, t ∈ C) (xIdleTask : T) :
    Sound xIdleTask s ∧ s.Preempts := by
  refine ⟨⟨⟨a, h.good hall⟩, ?_, ?_, ?_⟩, .inr fun t _ => (h.current t (hall t)).2⟩
  · rw [isReady_iff, h.generic, if_pos (hall _)]
  · intro t
    rw [h.held, h.holder]
    simp [mutexesOf]
  · intro t _
    rw [h.base]

variable [Fintype T]

theorem Setup.sound (b : Setup T E) : Sound b.xIdleTask b.start ∧ b.start.Preempts := by
  have hboot := created_boot (represents_boot b.lists b.allLists b.allItems) (fun _ => rfl)
    b.xIdleTask
  obtain ⟨a, C, h, hmem⟩ := created_all b.uxPriority b.tasks hboot (by simpa using b.once)
  exact h.sound (fun t => hmem t (.inl (b.allTasks t))) b.xIdleTask

/-! ## One step -/

/-- Every step that the callers may ask for can be taken. -/
theorem Good.step (h : Good none s a) (hT : Fintype.card T < 256) {xIdleTask : T}
    (hidle : s.isReady xIdleTask = true) {l : SchedulerLabel T E}
    (hl : s.allowed xIdleTask l = true) :
    ∃ s' a' x new, s.perform l = some s' ∧ Outcome l xIdleTask x s s' a a' new ∧
      (s.Missed l → ¬ s'.Preempts) ∧
      ((l = .yield ∨ ∃ wraps due, l = .tick wraps due) → s.uxSchedulerSuspended = 0 →
        s'.Highest) := by
  cases l with
  | yield =>
    obtain ⟨s', a', new, hs', hout, hhigh⟩ := h.yield hT hidle
    exact ⟨s', a', none, new, hs', hout, False.elim, fun _ => hhigh⟩
  | tick wraps due =>
    obtain ⟨s', a', new, hs', hout, hhigh⟩ := h.tick hT hidle wraps due
    exact ⟨s', a', none, new, hs', hout, False.elim, fun _ => hhigh⟩
  | suspendAll =>
    exact ⟨_, a, none, [], rfl, Outcome.of_same h ⟨rfl, rfl, rfl, rfl⟩ rfl rfl rfl rfl id, False.elim,
      by simp⟩
  | resumeAll ticks =>
    obtain ⟨s', a', new, hs', hout⟩ := h.resumeAll hT hidle ticks
    exact ⟨s', a', none, new, hs', hout, False.elim, by simp⟩
  | block w =>
    simp only [allowed, Bool.and_eq_true, decide_eq_true_eq] at hl
    obtain ⟨s', a', hs', hout⟩ := h.blockCurrent hT hl.2 w
    exact ⟨s', a', _, [], hs', hout, False.elim, by simp⟩
  | placeOnEventList e w =>
    simp only [allowed, Bool.and_eq_true, decide_eq_true_eq] at hl
    obtain ⟨s', a', hs', hout⟩ := h.placeOnEventList hT hl.2 hl.1.2 e w
    exact ⟨s', a', _, [], hs', hout, False.elim, by simp⟩
  | removeFromEventList e =>
    obtain ⟨s', a', new, hs', hout⟩ := h.wakeFirst hT (e := e) (by simpa [allowed] using hl)
    exact ⟨s', a', none, new, hs', hout, False.elim, by simp⟩
  | missedYield =>
    exact ⟨_, a, none, [], rfl,
      Outcome.of_same h ⟨rfl, rfl, rfl, rfl⟩ rfl rfl rfl rfl fun _ => rfl, False.elim, by simp⟩
  | prioritySet t p =>
    obtain ⟨s', a', x, new, hs', hout⟩ := h.prioritySet hT hidle t p
    exact ⟨s', a', x, new, hs', hout, False.elim, by simp⟩
  | suspend t =>
    obtain ⟨s', a', hs', hout⟩ := h.suspendTask (t := t) (by simpa [allowed] using hl)
    exact ⟨s', a', _, [], hs', hout, False.elim, by simp⟩
  | resume t =>
    obtain ⟨s', a', new, hs', hout⟩ := h.resume hT hidle t
    exact ⟨s', a', none, new, hs', hout, False.elim, by simp⟩
  | resumeFromISR t =>
    obtain ⟨s', a', new, hs', hout⟩ := h.resumeFromISR hT hidle t
    exact ⟨s', a', none, new, hs', hout, False.elim, by simp⟩
  | takeMutex e =>
    simp only [allowed, Bool.and_eq_true, decide_eq_true_eq] at hl
    exact ⟨_, a, none, [], rfl, h.take hl.1, False.elim, by simp⟩
  | inherit e =>
    obtain ⟨s', a', x, hs', hout⟩ := h.inheritPriority e
    exact ⟨s', a', x, [], hs', hout, False.elim, by simp⟩
  | giveMutex e =>
    simp only [allowed, Bool.and_eq_true, decide_eq_true_eq] at hl
    obtain ⟨s', a', x, new, hs', hout, hmiss⟩ := h.give hT hidle hl.2 hl.1
    exact ⟨s', a', x, new, hs', hout, hmiss, by simp⟩

theorem step_outcome (h : Good none s a) (hT : Fintype.card T < 256) {xIdleTask : T}
    (hidle : s.isReady xIdleTask = true) {l : SchedulerLabel T E} {s' : Scheduler T E}
    (hs : s.step xIdleTask l = some s') :
    ∃ a' x new, Outcome l xIdleTask x s s' a a' new ∧ (s.Missed l → ¬ s'.Preempts) := by
  obtain ⟨hl, hs⟩ := Option.ite_none_right_eq_some.1 hs
  obtain ⟨s1, a', x, new, hs1, hout, hmiss, -⟩ := h.step hT hidle hl
  obtain rfl : s1 = s' := Option.some.inj (hs1.symm.trans hs)
  exact ⟨a', x, new, hout, hmiss⟩

theorem Sound.step {xIdleTask : T} (h : Sound xIdleTask s) (hT : Fintype.card T < 256)
    {l : SchedulerLabel T E} {s' : Scheduler T E} (hs : s.step xIdleTask l = some s') :
    Sound xIdleTask s' := by
  obtain ⟨a, hgood⟩ := h.good
  obtain ⟨a', x, new, hout, -⟩ := step_outcome hgood hT h.idle hs
  exact ⟨⟨a', hout.good⟩, hout.idle h.idle, hout.books h.books⟩

/-! ## Runs from the start -/

theorem Setup.sound_run (b : Setup T E) {labels : List (SchedulerLabel T E)} {s : Scheduler T E}
    (hrun : run b.xIdleTask labels b.start = some s) : Sound b.xIdleTask s :=
  Along.last (Along.of_inv (fun _ h => h) (fun _ _ _ h hs => h.step b.few hs) labels b.sound.1) hrun

/-- Four tasks and one mutex: the idle task, two tasks of priority 1 and one of priority 3. -/
def fourTasks : Setup (Fin 4) Unit where
  lists :=
    { xItemValue := fun _ => 0
      pxNext := id
      pxPrevious := id
      pvOwner := fun _ => 0
      pvContainer := fun _ => none
      uxNumberOfItems := fun _ => 0
      pxIndex := .xListEnd }
  taskLists := (List.finRange 5).map .pxReadyTasksLists ++ [.xDelayedTaskList false,
    .xDelayedTaskList true, .xSuspendedTaskList, .xPendingReadyList, .event ()]
  items := (List.finRange 4).map .xGenericListItem ++ (List.finRange 4).map .xEventListItem
  tasks := List.finRange 4
  uxPriority := fun t => [0, 1, 1, 3].getD t 0
  xIdleTask := 0
  allLists := by
    rintro (p | second | _ | _ | e)
    · exact List.mem_append_left _ (List.mem_map_of_mem (List.mem_finRange p))
    · cases second <;> simp
    · simp
    · simp
    · simp
  allItems := by rintro (t | t) <;> simp
  allTasks := by simp
  once := List.nodup_finRange 4
  few := by decide

/-- In every state of a run a yield is pending, or no ready task has a higher priority than the
running one, exactly when no give of the run misses its switch. -/
theorem preemption (b : Setup T E) (labels : List (SchedulerLabel T E)) :
    Along (fun s l => s.step b.xIdleTask l) Preempts b.start labels ↔
      Avoids (fun s l => s.step b.xIdleTask l) Missed b.start labels := by
  refine along_iff_avoids (I := fun s => Sound b.xIdleTask s ∧ s.Preempts) (fun s h => h.2)
    (fun s l s' h hmiss hs => ?_) (fun s l s' h hmiss hs => ?_) labels b.sound
  · obtain ⟨a, hgood⟩ := h.1.good
    obtain ⟨a', x, new, hout, -⟩ := step_outcome hgood b.few h.1.idle hs
    exact ⟨h.1.step b.few hs, hout.preempts h.2 hmiss⟩
  · obtain ⟨a, hgood⟩ := h.1.good
    obtain ⟨a', x, new, -, hbroken⟩ := step_outcome hgood b.few h.1.idle hs
    exact hbroken hmiss

/-- Task 3 gives up waiting for the mutex that task 1 holds; when task 1 gives the mutex, task 2 is
waiting for it, and task 3 is ready but not switched in. -/
def missedGive : List (SchedulerLabel (Fin 4) Unit) :=
  [.suspendAll, .block (.until_ false 5), .resumeAll [], .yield, .takeMutex (), .tick false 0,
    .inherit (), .suspendAll, .placeOnEventList () .forever, .resumeAll [], .yield, .tick false 1,
    .inherit (), .suspendAll, .placeOnEventList () (.until_ false 9), .resumeAll [], .yield,
    .tick false 1, .tick false 0, .giveMutex ()]

theorem preemption_missed :
    ¬ Along (fun s l => s.step fourTasks.xIdleTask l) Preempts fourTasks.start missedGive ∧
      Along (fun s l => s.step fourTasks.xIdleTask l) Preempts fourTasks.start
        missedGive.dropLast :=
  ⟨fun h => absurd ((preemption fourTasks missedGive).1 h) (by decide +kernel),
    (preemption fourTasks missedGive.dropLast).2 (by decide +kernel)⟩

/-- In every state reached, every step the callers may ask for can be taken; a switch or a tick
leaves a ready task of the highest priority running, unless the scheduler is suspended. -/
theorem scheduler_goes_on (b : Setup T E) {labels : List (SchedulerLabel T E)} {s : Scheduler T E}
    (hrun : run b.xIdleTask labels b.start = some s) {l : SchedulerLabel T E}
    (hallowed : s.allowed b.xIdleTask l = true) :
    ∃ s', s.step b.xIdleTask l = some s' ∧
      ((l = .yield ∨ ∃ wraps due, l = .tick wraps due) → s.uxSchedulerSuspended = 0 →
        s'.Highest) := by
  have hsound := b.sound_run hrun
  obtain ⟨a, hgood⟩ := hsound.good
  obtain ⟨s', a', x, new, hs', -, -, hhigh⟩ := hgood.step b.few hsound.idle hallowed
  exact ⟨s', by rw [step, if_pos hallowed, hs'], hhigh⟩

theorem scheduler_goes_on_four :
    ∃ s s', run 0 missedGive fourTasks.start = some s ∧
      s.step 0 (.tick false 0) = some s' ∧ s'.Highest := by
  obtain ⟨s, hrun, hs⟩ := Option.any_eq_true _ _ |>.1 (show (run 0 missedGive fourTasks.start).any
    (fun s => decide (s.uxSchedulerSuspended = 0)) = true by decide +kernel)
  obtain ⟨s', hs', hhigh⟩ := scheduler_goes_on fourTasks hrun (l := .tick false 0) rfl
  exact ⟨s, s', hrun, hs', hhigh (.inr ⟨false, 0, rfl⟩) (of_decide_eq_true hs)⟩

/-- In every state reached, each task counts the mutexes whose holder it is, and one that holds none
has its own priority. -/
theorem mutexes_counted (b : Setup T E) {labels : List (SchedulerLabel T E)} {s : Scheduler T E}
    (hrun : run b.xIdleTask labels b.start = some s) (t : T) :
    s.uxMutexesHeld t = mutexesOf s.pxMutexHolder t ∧
      ((∀ e, s.pxMutexHolder e ≠ some t) → s.uxPriority t = s.uxBasePriority t) := by
  have hbooks := (b.sound_run hrun).books
  refine ⟨hbooks.held t, fun hnone => hbooks.base t ?_⟩
  rw [hbooks.held, mutexesOf, Finset.card_eq_zero, Finset.filter_eq_empty_iff]
  exact fun e _ => hnone e

/-- Before the missed give, task 1 holds the mutex and runs at the priority lent to it. -/
theorem mutexes_counted_four :
    ∃ s, run 0 missedGive.dropLast fourTasks.start = some s ∧ s.uxMutexesHeld 1 = 1 ∧
      s.uxBasePriority 1 < s.uxPriority 1 ∧ s.uxPriority 2 = s.uxBasePriority 2 := by
  obtain ⟨s, hrun, hs⟩ := Option.any_eq_true _ _ |>.1
    (show (run 0 missedGive.dropLast fourTasks.start).any (fun s =>
      decide (mutexesOf s.pxMutexHolder 1 = 1 ∧ s.uxBasePriority 1 < s.uxPriority 1 ∧
        ∀ e, s.pxMutexHolder e ≠ some 2)) = true by decide +kernel)
  obtain ⟨h1, hlt, h2⟩ := of_decide_eq_true hs
  exact ⟨s, hrun, (mutexes_counted fourTasks hrun 1).1.trans h1, hlt,
    (mutexes_counted fourTasks hrun 2).2 h2⟩

end Scheduler

end HmBoard
