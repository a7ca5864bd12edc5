import HmBoard.Config
import HmBoard.Lib.Run

/-!
# Start-up: who runs before `xCSPEventQueue` exists

| here | there |
| --- | --- |
| `Startup.boot`          | the tasks that `main` (main.c:35-52) and `vTaskStartScheduler` (tasks.c:1539) have created when the first one starts |
| `Startup.switchContext` | `vTaskSwitchContext` (tasks.c:2198): the first ready task of the highest priority, in turn among equals |
| `CspAt`                 | `cspTask` (cspTask.c:15-38) up to its loop |
| `MainAt`                | `mainTask` (mainTask.c:287-299) up to `xQueueReceive`, where it comes back to |
| `StartEvent.tick`       | `ISR(TCC0_OVF_vect)` (port.c:358), which switches on every tick |
| `StartEvent.frame`      | a frame that `csp_new_packet` (csp_route.c:509) enqueues; inside the interrupt `xQueueGenericSend` switches to a router that waits |

`cspTask` and `mainTask` share priority 0 and `mainTask` comes next in turn, so the queue exists
before its first use as long as `cspTask` is not switched out before it has assigned it, and any
such switch can lead to the contrary (`queue_before_use`). After the start-up the two tasks also
wait and are woken (`StartEvent.wake`); when is left to the events.
-/

namespace HmBoard

open Lib

/-- `xCSPEventQueue`: `none` is `NULL`. -/
abbrev QueueHandle := Option Nat

inductive BoardTask where
  /-- FreeRTOS's timer task, of priority 3; no timer is ever started. -/
  | timer
  /-- `csp_task_router`, of priority 1. -/
  | router
  | cspTask
  | mainTask
  | idle
deriving DecidableEq, Repr

inductive CspAt where
  | socket
  | bind
  | listen
  | create
  /-- `xCSPEventQueue = q` -/
  | assign (q : QueueHandle)
  | serve
deriving DecidableEq, Repr

inductive MainAt where
  | bufferGet
  | receive
deriving DecidableEq, Repr

structure Startup where
  running : BoardTask
  /-- The timer task and the router do not wait. -/
  timerReady : Bool
  routerReady : Bool
  /-- The ready tasks of priority 0 in the order of their turns. -/
  ready : List BoardTask
  /-- The number of packets in the router's input queue. -/
  fifo : Nat
  cspPc : CspAt
  mainPc : MainAt
  xCSPEventQueue : QueueHandle
  /-- The arguments of the calls of `xQueueReceive` by `mainTask`. -/
  received : List QueueHandle
deriving DecidableEq, Repr

inductive StartEvent where
  /-- The running task takes a step; `made` is what `xQueueCreate` returns in it, and `waits` says
  whether `csp_accept` or `xQueueReceive` has to wait. -/
  | run (made : QueueHandle) (waits : Bool)
  | tick
  | frame
  /-- A wait of `cspTask` or `mainTask` ends, and the task is `i`-th in turn. -/
  | wake (t : BoardTask) (i : Nat)
deriving DecidableEq, Repr

namespace Startup

/-- `n` packets have come in before. -/
def boot (n : Nat) : Startup :=
  ⟨.timer, true, true, [.cspTask, .mainTask, .idle], n, .socket, .bufferGet, none, []⟩

def switchContext (s : Startup) : Startup :=
  if s.timerReady = true then { s with running := .timer }
  else if s.routerReady = true then { s with running := .router }
  else match s.ready with
    | [] => s
    | t :: ts => { s with running := t, ready := ts ++ [t] }

/-- The running task of priority 0 waits. -/
def wait (s : Startup) : Startup := { s with ready := s.ready.erase s.running }.switchContext

def runCsp (s : Startup) (made : QueueHandle) (waits : Bool) : Startup :=
  match s.cspPc with
  | .socket => { s with cspPc := .bind }
  | .bind => { s with cspPc := .listen }
  | .listen => { s with cspPc := .create }
  | .create => { s with cspPc := .assign made }
  | .assign q => { s with cspPc := .serve, xCSPEventQueue := q }
  | .serve => if waits = true then s.wait else s

def runMain (s : Startup) (waits : Bool) : Startup :=
  match s.mainPc with
  | .bufferGet => { s with mainPc := .receive }
  | .receive =>
    let s := { s with received := s.received ++ [s.xCSPEventQueue] }
    if waits = true then s.wait else s

/-- A step of the running task. -/
def run (s : Startup) (made : QueueHandle) (waits : Bool) : Startup :=
  match s.running with
  | .timer => { s with timerReady := false }.switchContext
  | .router =>
    if s.fifo = 0 then { s with routerReady := false }.switchContext
    else { s with fifo := s.fifo - 1 }
  | .cspTask => s.runCsp made waits
  | .mainTask => s.runMain waits
  -- `configIDLE_SHOULD_YIELD`
  | .idle => if 1 < s.ready.length then s.switchContext else s

/-- A frame that does not fit is dropped. -/
def frame (s : Startup) : Startup :=
  if s.routerReady = true then { s with fifo := if s.fifo < cspFifoInput then s.fifo + 1 else s.fifo }
  else { s with fifo := s.fifo + 1, routerReady := true }.switchContext

def step (s : Startup) : StartEvent → Option Startup
  | .run made waits => some (s.run made waits)
  | .tick => some s.switchContext
  | .frame => some s.frame
  | .wake t i =>
    if (t = .cspTask ∨ t = .mainTask) ∧ t ∉ s.ready ∧ i ≤ s.ready.length then
      some { s with ready := s.ready.insertIdx i t }
    else none

/-- `mainTask` has never called `xQueueReceive` without a queue. -/
def Sound (s : Startup) : Prop := none ∉ s.received

/-- `cspTask` loses the processor before it has assigned the queue, or gets no queue. -/
def Premature (s : Startup) : StartEvent → Prop
  | .run made _ => s.running = .cspTask ∧ s.cspPc = .create ∧ made = none
  | .tick | .frame => s.running = .cspTask ∧ s.cspPc ≠ .serve
  | .wake _ _ => False

instance (s : Startup) : ∀ e, Decidable (s.Premature e)
  | .run _ _ => inferInstanceAs (Decidable (_ ∧ _ ∧ _))
  | .tick | .frame => inferInstanceAs (Decidable (_ ∧ _))
  | .wake _ _ => inferInstanceAs (Decidable False)

/-! ## The order of the start -/

/-- Nothing of `mainTask` has run, and it is its turn after `cspTask`. -/
structure Before (s : Startup) : Prop where
  mainPc : s.mainPc = .bufferGet
  queue : s.xCSPEventQueue = none
  received : s.received = []

/-- The tasks of higher priority run, or `cspTask` is on its way to the queue, or has got there. -/
inductive Phase (s : Startup) : Prop where
  | above (hrun : s.running = .timer ∨ s.running = .router) (hpc : s.cspPc = .socket)
      (hready : s.ready = [.cspTask, .mainTask, .idle]) (h : s.Before)
  | creating (hrun : s.running = .cspTask) (hpc : s.cspPc ≠ .serve)
      (hmade : s.cspPc ≠ .assign none) (hready : s.ready = [.mainTask, .idle, .cspTask])
      (htimer : s.timerReady = false) (hrouter : s.routerReady = false) (h : s.Before)
  | assigned (hpc : s.cspPc = .serve) (hqueue : s.xCSPEventQueue ≠ none) (h : s.Sound)

variable {s s' : Startup}

theorem switchContext_fields (s : Startup) :
    ∃ r l, s.switchContext = { s with running := r, ready := l } := by
  unfold switchContext
  split
  · exact ⟨_, _, rfl⟩
  · split
    · exact ⟨_, _, rfl⟩
    · split
      · exact ⟨_, _, rfl⟩
      · exact ⟨_, _, rfl⟩

/-- The choice among the three when it is the first turn. -/
theorem phase_first (hpc : s.cspPc = .socket) (hready : s.ready = [.cspTask, .mainTask, .idle])
    (h : s.Before) : s.switchContext.Phase := by
  obtain ⟨hmain, hqueue, hreceived⟩ := h
  cases ht : s.timerReady with
  | true =>
    rw [switchContext, if_pos ht]
    exact .above (.inl rfl) hpc hready ⟨hmain, hqueue, hreceived⟩
  | false =>
    cases hr : s.routerReady with
    | true =>
      rw [switchContext, ht, if_neg Bool.false_ne_true, if_pos hr]
      exact .above (.inr rfl) hpc hready ⟨hmain, hqueue, hreceived⟩
    | false =>
      rw [switchContext, ht, hr, if_neg Bool.false_ne_true, if_neg Bool.false_ne_true, hready]
      refine .creating rfl ?_ ?_ rfl rfl rfl ⟨hmain, hqueue, hreceived⟩
      · show s.cspPc ≠ .serve
        rw [hpc]
        exact fun h => nomatch h
      · show s.cspPc ≠ .assign none
        rw [hpc]
        exact fun h => nomatch h

theorem assigned_switch (hpc : s.cspPc = .serve) (hqueue : s.xCSPEventQueue ≠ none) (h : s.Sound) :
    s.switchContext.Phase := by
  obtain ⟨r, l, he⟩ := switchContext_fields s
  rw [he]
  exact .assigned hpc hqueue h

theorem run_cspTask (hrun : s.running = .cspTask) (made : QueueHandle) (waits : Bool) :
    s.run made waits = s.runCsp made waits := by
  simp only [run, hrun]

theorem run_mainTask (hrun : s.running = .mainTask) (made : QueueHandle) (waits : Bool) :
    s.run made waits = s.runMain waits := by
  simp only [run, hrun]

theorem assigned_run (hpc : s.cspPc = .serve) (hqueue : s.xCSPEventQueue ≠ none) (h : s.Sound)
    (made : QueueHandle) (waits : Bool) : (s.run made waits).Phase := by
  cases hrun : s.running with
  | timer =>
    simp only [run, hrun]
    exact assigned_switch hpc hqueue h
  | router =>
    simp only [run, hrun]
    split
    · exact assigned_switch hpc hqueue h
    · exact .assigned hpc hqueue h
  | cspTask =>
    rw [run_cspTask hrun, runCsp, hpc]
    dsimp only
    split
    · exact assigned_switch hpc hqueue h
    · exact .assigned hpc hqueue h
  | mainTask =>
    rw [run_mainTask hrun, runMain]
    split
    · exact .assigned hpc hqueue h
    · have h' : none ∉ s.received ++ [s.xCSPEventQueue] := by
        rw [List.mem_append, List.mem_singleton]
        rintro (hm | hm)
        · exact h hm
        · exact hqueue hm.symm
      split
      · exact assigned_switch hpc hqueue h'
      · exact .assigned hpc hqueue h'
  | idle =>
    simp only [run, hrun]
    split
    · exact assigned_switch hpc hqueue h
    · exact .assigned hpc hqueue h

theorem creating_run (hrun : s.running = .cspTask) (hpc : s.cspPc ≠ .serve)
    (hmade : s.cspPc ≠ .assign none) (hready : s.ready = [.mainTask, .idle, .cspTask])
    (htimer : s.timerReady = false) (hrouter : s.routerReady = false) (h : s.Before)
    {made : QueueHandle} (waits : Bool) (hp : ¬ s.Premature (.run made waits)) :
    (s.run made waits).Phase := by
  obtain ⟨hmain, hqueue, hreceived⟩ := h
  rw [run_cspTask hrun, runCsp]
  cases hcsp : s.cspPc with
  | socket => exact .creating hrun nofun nofun hready htimer hrouter ⟨hmain, hqueue, hreceived⟩
  | bind => exact .creating hrun nofun nofun hready htimer hrouter ⟨hmain, hqueue, hreceived⟩
  | listen => exact .creating hrun nofun nofun hready htimer hrouter ⟨hmain, hqueue, hreceived⟩
  | create =>
    refine .creating hrun nofun ?_ hready htimer hrouter ⟨hmain, hqueue, hreceived⟩
    rintro ⟨rfl⟩
    exact hp ⟨hrun, hcsp, rfl⟩
  | assign q =>
    refine .assigned rfl ?_ ?_
    · rintro rfl
      exact hmade hcsp
    · show none ∉ s.received
      rw [hreceived]
      exact List.not_mem_nil
  | serve => exact absurd hcsp hpc

theorem phase_step {e : StartEvent} (h : s.Phase) (hp : ¬ s.Premature e) (hs : s.step e = some s') :
    s'.Phase := by
  cases e with
  | run made waits =>
    obtain rfl := Option.some.inj hs
    cases h with
    | above hrun hpc hready h =>
      rcases hrun with hrun | hrun
      · simp only [run, hrun]
        exact phase_first hpc hready ⟨h.mainPc, h.queue, h.received⟩
      · simp only [run, hrun]
        split
        · exact phase_first hpc hready ⟨h.mainPc, h.queue, h.received⟩
        · exact .above (.inr rfl) hpc hready ⟨h.mainPc, h.queue, h.received⟩
    | creating hrun hpc hmade hready htimer hrouter h =>
      exact creating_run hrun hpc hmade hready htimer hrouter h waits hp
    | assigned hpc hqueue h => exact assigned_run hpc hqueue h made waits
  | tick =>
    obtain rfl := Option.some.inj hs
    cases h with
    | above hrun hpc hready h => exact phase_first hpc hready h
    | creating hrun hpc _ _ _ _ _ => exact absurd ⟨hrun, hpc⟩ hp
    | assigned hpc hqueue h => exact assigned_switch hpc hqueue h
  | frame =>
    obtain rfl := Option.some.inj hs
    rw [frame]
    cases h with
    | above hrun hpc hready h =>
      split
      · exact .above hrun hpc hready ⟨h.mainPc, h.queue, h.received⟩
      · exact phase_first hpc hready ⟨h.mainPc, h.queue, h.received⟩
    | creating hrun hpc _ _ _ _ _ => exact absurd ⟨hrun, hpc⟩ hp
    | assigned hpc hqueue h =>
      split
      · exact .assigned hpc hqueue h
      · exact assigned_switch hpc hqueue h
  | wake t i =>
    rw [step] at hs
    split at hs
    · next hw =>
      obtain rfl := Option.some.inj hs
      obtain ⟨ht, hmem, -⟩ := hw
      cases h with
      | above _ _ hready _ =>
        rw [hready] at hmem
        rcases ht with rfl | rfl <;> simp at hmem
      | creating _ _ _ hready _ _ _ =>
        rw [hready] at hmem
        rcases ht with rfl | rfl <;> simp at hmem
      | assigned hpc hqueue h => exact .assigned hpc hqueue h
    · cases hs

theorem phase_sound (h : s.Phase) : s.Sound := by
  cases h with
  | above _ _ _ h =>
    rw [Sound, h.received]
    exact List.not_mem_nil
  | creating _ _ _ _ _ _ h =>
    rw [Sound, h.received]
    exact List.not_mem_nil
  | assigned _ _ h => exact h

/-! ## Where a premature switch leads -/

/-- Some continuation ends with a call of `xQueueReceive` without a queue. -/
def CanFail (s : Startup) : Prop :=
  ∃ (es : List StartEvent) (t : Startup), es.foldlM step s = some t ∧ ¬ t.Sound

theorem CanFail.of_step {e : StartEvent} (hs : s.step e = some s') (h : s'.CanFail) : s.CanFail := by
  obtain ⟨es, t, ht, hbad⟩ := h
  refine ⟨e :: es, t, ?_, hbad⟩
  rw [List.foldlM_cons, hs]
  exact ht

/-- `mainTask` goes on to its first `xQueueReceive`. -/
theorem canFail_mainTask (hrun : s.running = .mainTask) (hmain : s.mainPc = .bufferGet)
    (hqueue : s.xCSPEventQueue = none) : s.CanFail := by
  have h1 : s.step (.run none false) = some { s with mainPc := .receive } := by
    rw [step, run_mainTask hrun, runMain, hmain]
  have h2 : step { s with mainPc := .receive } (.run none false) =
      some { s with mainPc := .receive, received := s.received ++ [none] } := by
    rw [step, run_mainTask (s := { s with mainPc := .receive }) hrun, runMain]
    simp only [hqueue, Bool.false_eq_true, if_false]
  refine .of_step h1 (.of_step h2 ⟨[], _, rfl, ?_⟩)
  exact fun h => h (List.mem_append_right _ (List.mem_singleton_self _))

/-- `mainTask` comes next in turn. -/
structure MainNext (s : Startup) : Prop where
  ready : s.ready = [.mainTask, .idle, .cspTask]
  timer : s.timerReady = false
  mainPc : s.mainPc = .bufferGet
  queue : s.xCSPEventQueue = none

theorem canFail_switch (h : s.MainNext) (hrouter : s.routerReady = false) :
    s.switchContext.CanFail := by
  rw [switchContext, h.timer, hrouter, if_neg Bool.false_ne_true, if_neg Bool.false_ne_true, h.ready]
  exact canFail_mainTask rfl h.mainPc h.queue

/-- The router works its queue off and waits. -/
theorem canFail_router : ∀ {n : Nat} {s : Startup}, s.MainNext → s.running = .router →
    s.fifo = n → s.CanFail
  | 0, s, h, hrun, hfifo => by
    have hs : s.step (.run none false) = some { s with routerReady := false }.switchContext := by
      simp only [step, run, hrun, hfifo, if_true]
    refine .of_step hs (canFail_switch ?_ rfl)
    exact ⟨h.ready, h.timer, h.mainPc, h.queue⟩
  | n + 1, s, h, hrun, hfifo => by
    have hs : s.step (.run none false) = some { s with fifo := n } := by
      simp only [step, run, hrun, hfifo, Nat.add_sub_cancel]
      rfl
    refine .of_step hs (canFail_router (n := n) ?_ hrun rfl)
    exact ⟨h.ready, h.timer, h.mainPc, h.queue⟩

theorem canFail_premature {e : StartEvent} (h : s.Phase) (hp : s.Premature e)
    (hs : s.step e = some s') : s'.CanFail := by
  cases h with
  | above hrun hpc _ _ =>
    cases e with
    | run made waits =>
      rw [hp.1] at hrun
      rcases hrun with hrun | hrun <;> cases hrun
    | tick | frame =>
      rw [hp.1] at hrun
      rcases hrun with hrun | hrun <;> cases hrun
    | wake t i => exact hp.elim
  | assigned hpc _ _ =>
    cases e with
    | run made waits =>
      obtain ⟨-, hcsp, -⟩ := hp
      rw [hpc] at hcsp
      cases hcsp
    | tick | frame => exact absurd hpc hp.2
    | wake t i => exact hp.elim
  | creating hrun hpc hmade hready htimer hrouter h =>
    have hnext : s.MainNext := ⟨hready, htimer, h.mainPc, h.queue⟩
    cases e with
    | run made waits =>
      obtain ⟨-, hcsp, rfl⟩ := hp
      rw [step, run_cspTask hrun, runCsp, hcsp] at hs
      obtain rfl := Option.some.inj hs
      have h1 : step { s with cspPc := .assign none } (.run none false) =
          some { s with cspPc := .serve, xCSPEventQueue := none } := by
        rw [step, run_cspTask (s := { s with cspPc := .assign none }) hrun, runCsp]
      refine .of_step h1 (.of_step (e := .tick) rfl (canFail_switch ?_ hrouter))
      exact ⟨hready, htimer, h.mainPc, rfl⟩
    | tick =>
      obtain rfl := Option.some.inj hs
      exact canFail_switch hnext hrouter
    | frame =>
      obtain rfl := Option.some.inj hs
      rw [frame, hrouter, if_neg Bool.false_ne_true, switchContext, if_neg (by simp [htimer]),
        if_pos rfl]
      refine canFail_router ?_ rfl rfl
      exact ⟨hready, htimer, h.mainPc, h.queue⟩
    | wake t i => exact hp.elim

theorem phase_boot (n : Nat) : (boot n).Phase := .above (.inl rfl) rfl rfl ⟨rfl, rfl, rfl⟩

/-- Along every schedule on which `cspTask` assigns a queue before it is switched out, no call of
`xQueueReceive` precedes it; and after any other switch there can be one. -/
theorem queue_before_use (n : Nat) :
    (∀ es, Avoids step Premature (boot n) es → Along step Sound (boot n) es) ∧
      ∀ (es : List StartEvent) s e s', Avoids step Premature (boot n) es → es.foldlM step (boot n) = some s →
        s.Premature e → s.step e = some s' → s'.CanFail := by
  have hgood : ∀ (s : Startup) (e : StartEvent) (s' : Startup), s.Phase → ¬ s.Premature e →
      s.step e = some s' → s'.Phase := fun _ _ _ h hp hs => phase_step h hp hs
  refine ⟨fun es => Along.of_avoids (fun _ h => phase_sound h) hgood es (phase_boot n), ?_⟩
  intro es s e s' ha hes hp hs
  exact canFail_premature (Avoids.inv hgood ha hes (phase_boot n)) hp hs

/-- The usual start: `cspTask` gets through in one go. -/
def usualStart : List StartEvent :=
  [.run none false, .run none false, .run none false, .run none false, .run none false,
    .run (some 1) false, .run none false, .tick, .run none false, .run none true]

theorem queue_before_use_usual :
    Along step Sound (boot 0) usualStart ∧
      (usualStart.foldlM step (boot 0)).map (·.received) = some [some 1] ∧
      (boot 0 |>.run none false |>.run none false |>.switchContext).CanFail := by
  refine ⟨(queue_before_use 0).1 usualStart (by decide), by decide, ?_⟩
  exact (queue_before_use 0).2 [.run none false, .run none false] _ .tick _ (by decide) rfl
    ⟨rfl, nofun⟩ rfl

/-- A tick after `csp_socket`, and `mainTask` gets as far as `xQueueReceive`. -/
theorem queue_used_early :
    ([.run none false, .run none false, .run none false, .tick, .run none false,
        .run none false].foldlM step (boot 0)).map (·.received) = some [none] ∧
      ¬ ∀ (n : Nat) (es : List StartEvent), Along step Sound (boot n) es := by
  refine ⟨by decide, fun h => ?_⟩
  have hlast := (h 0 [.run none false, .run none false, .run none false, .tick, .run none false,
    .run none false]).last rfl
  exact hlast (by decide)

end Startup

end HmBoard
