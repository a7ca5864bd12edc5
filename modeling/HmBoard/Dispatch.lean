import HmBoard.Board
import HmBoard.CspTask
import HmBoard.ExactFloat
import HmBoard.Lib.Run
import Mathlib.Data.List.Forall2

/-!
# From `cspTask` to `mainTask`

`cspTask` and `mainTask` with the queue between them, step by step in any order. What libcsp does
is the environment's: `csp_accept` gives any connection, which is its `idin`, and `csp_read` any
packet whose header matches the connection under `CSP_ID_CONN_MASK`. A packet `p : P` is one
received packet, with the header `id p`; two receptions into one buffer are two packets. All
accesses of the handlers and of `csp_service_handler` are answered by the environment.

`newEvent` is the one record all events are sent from. `xQueueSend` copies it into the queue when
there is room, and gives up when there is none at the end of its time-out; waiting is taking no
step. The histories:

| history | |
| --- | --- |
| `reads`    | packets returned by `csp_read` |
| `sends`    | calls of `xQueueSend`: the packet, and whether it was queued |
| `serviced` | packets given to `csp_service_handler` |
| `finished` | the events `mainTask` is done with, each with the accesses it made for it |
-/

namespace HmBoard

open Lib

variable {F B P : Type}

/-- The event `mainTask` has received, its accesses since then, and what is left of its branch. -/
structure Running (B P : Type) where
  event : CspStackEvent P
  done : List (Σ o : Op B P, o.Res)
  rest : Fw B P Unit

structure Dispatch (B P : Type) where
  pc : CspPc CspId P
  newEvent : CspStackEvent P
  eventQueue : List (CspStackEvent P)
  main : Option (Running B P)
  reads : List P
  sends : List (P × Bool)
  serviced : List P
  finished : List (CspStackEvent P × List (Σ o : Op B P, o.Res))

inductive DispatchLabel (B P : Type) where
  /-- `csp_accept` returns. -/
  | accept (conn : Option CspId)
  /-- `csp_read` returns. -/
  | read (packet : Option P)
  /-- Any other statement of `cspTask`. -/
  | csp (answer : (o : SvcOp P) → o.Res)
  /-- `xQueueReceive` returns an event. -/
  | receive
  /-- The next access of the handler, or its end. -/
  | main (answer : (o : Op B P) → o.Res)

namespace Dispatch

/-- Before the first connection. -/
def boot (newEvent : CspStackEvent P) : Dispatch B P where
  pc := .accept
  newEvent := newEvent
  eventQueue := []
  main := none
  reads := []
  sends := []
  serviced := []
  finished := []

/-- A statement of `cspTask` but for `csp_accept` and `csp_read`. -/
def cspStep (s : Dispatch B P) (answer : (o : SvcOp P) → o.Res) : Option (Dispatch B P) :=
  match s.pc with
  | .switch c p =>
    match cspTaskCase c.dport.toNat with
    | some (event, ticks) => some { s with pc := .setType c p event ticks }
    | none =>
      some { s with
        pc := .service c (cspServiceHandler c.dport.toNat p), serviced := s.serviced ++ [p] }
  | .setType c p event ticks =>
    some { s with
      pc := .setData c p ticks, newEvent := { s.newEvent with eEventType := event } }
  | .setData c p ticks =>
    some { s with pc := .queueSend c p ticks, newEvent := { s.newEvent with pvData := p } }
  | .queueSend c p _ =>
    if s.eventQueue.length < eventQueueLength then
      some { s with
        pc := .read c, eventQueue := s.eventQueue ++ [s.newEvent], sends := s.sends ++ [(p, true)] }
    else some { s with pc := .read c, sends := s.sends ++ [(p, false)] }
  | .service c (.ret _) => some { s with pc := .read c }
  | .service c (.op o k) => some { s with pc := .service c (k (answer o)) }
  | .close _ => some { s with pc := .accept }
  | _ => none

def step [Cell B] [FloatFormat F B] (out : P) (sincos : Nat → F) (id : P → CspId)
    (s : Dispatch B P) : DispatchLabel B P → Option (Dispatch B P)
  | .accept conn =>
    match s.pc with
    | .accept => some { s with pc := (conn.map .read).getD .accept }
    | _ => none
  | .read packet =>
    match s.pc with
    | .read c =>
      match packet with
      | none => some { s with pc := .close c }
      | some p =>
        if (id p).ext &&& CspId.connMask = c.ext &&& CspId.connMask then
          some { s with pc := .switch c p, reads := s.reads ++ [p] }
        else none
    | _ => none
  | .csp answer => s.cspStep answer
  | .receive =>
    match s.main, s.eventQueue with
    | none, e :: rest =>
      some { s with eventQueue := rest, main := some ⟨e, [], handle sincos out e⟩ }
    | _, _ => none
  | .main answer =>
    match s.main with
    | some ⟨e, done, .ret _⟩ =>
      some { s with main := none, finished := s.finished ++ [(e, done)] }
    | some ⟨e, done, .op o k⟩ =>
      some { s with main := some ⟨e, done ++ [⟨o, answer o⟩], k (answer o)⟩ }
    | none => none

end Dispatch

/-! ## The property -/

/-- The ports that are `mainTask`'s. -/
def MainPort (port : Nat) : Prop := 15 ≤ port ∧ port ≤ 22

instance (port : Nat) : Decidable (MainPort port) := inferInstanceAs (Decidable (_ ∧ _))

variable [Cell B] [FloatFormat F B]

/-- What `mainTask` is to do for a packet of port 15 … 22: the branch of its `switch`, and the code
of the branch. -/
def portHandler (sincos : Nat → F) (out : P) (port : Nat) (p : P) : CspStackEvent P × Fw B P Unit :=
  match port with
  | 15 => (⟨.echoBackEvent, p⟩, echoBack p)
  | 16 => (⟨.freeHeapEvent, p⟩, sendFreeHeapSpace out p)
  | 17 => (⟨.housKeepingEvent, p⟩, houseKeeping F out p)
  | 18 => (⟨.processAllEvent, p⟩, processAll sincos out p)
  | 19 => (⟨.sendSignalEvent, p⟩, sendSignal out p)
  | 20 => (⟨.sendFFTEvent, p⟩, sendFFT F out p)
  | 21 => (⟨.sendSummaryInfoEvent, p⟩, pure ())
  | 22 => (⟨.sendAttenuationEvent, p⟩, pure ())
  | _ => (⟨.other, p⟩, pure ())

/-- The packet read and not yet dealt with. -/
def CspPc.inHand {C : Type} : CspPc C P → List P
  | .switch _ p | .setType _ p _ _ | .setData _ p _ | .queueSend _ p _ => [p]
  | _ => []

/-- The accesses made for an event are a whole run of this code. -/
def Served (x : CspStackEvent P × List (Σ o : Op B P, o.Res))
    (y : CspStackEvent P × Fw B P Unit) : Prop :=
  x.1 = y.1 ∧ y.2.Does x.2 (.ret ())

/-- What `mainTask` is running is this code, begun. -/
def Begun (m : Option (Running B P)) (ys : List (CspStackEvent P × Fw B P Unit)) : Prop :=
  match m with
  | none => ys = []
  | some m => ∃ code, ys = [(m.event, code)] ∧ code.Does m.done m.rest

/-- Of the packets `dealt` with, those of the ports of `mainTask` went through `xQueueSend` and
the others to `csp_service_handler`, each once and in the order read; and the handlers of the
packets queued are those that have run to their end, the one that is running and those due for the
events in the queue. -/
def Dispatch.Exact (sincos : Nat → F) (out : P) (id : P → CspId) (s : Dispatch B P) : Prop :=
  (∃ dealt, s.reads = dealt ++ s.pc.inHand ∧
    s.sends.map (·.1) = dealt.filter (fun p => MainPort (id p).dport.toNat) ∧
    s.serviced = dealt.filter (fun p => ¬ MainPort (id p).dport.toNat)) ∧
  ∃ finished running,
    finished ++ running ++ s.eventQueue.map (fun e => (e, handle sincos out e)) =
      (s.sends.filter (·.2)).map (fun x => portHandler sincos out (id x.1).dport.toNat x.1) ∧
    List.Forall₂ Served s.finished finished ∧ Begun s.main running

/-! ## The switches -/

theorem cspTaskCase_isSome (port : Nat) : (cspTaskCase port).isSome ↔ MainPort port := by
  by_cases h : MainPort port
  · obtain ⟨h1, h2⟩ := h
    interval_cases port <;> simp [cspTaskCase, MainPort]
  · have hnone : cspTaskCase port = none := by
      unfold cspTaskCase
      split <;> first | rfl | exact absurd (by decide) h
    simp [hnone, h]

/-- The two switches together choose the handler of the port. -/
theorem handle_cspTaskCase (sincos : Nat → F) (out p : P) {port ticks : Nat} {event : EventType}
    (h : cspTaskCase port = some (event, ticks)) :
    (⟨event, p⟩, handle sincos out ⟨event, p⟩) =
      (portHandler sincos out port p : CspStackEvent P × Fw B P Unit) := by
  have hport : MainPort port := (cspTaskCase_isSome port).1 (by rw [h]; rfl)
  obtain ⟨h1, h2⟩ := hport
  interval_cases port <;> simp only [cspTaskCase, Option.some.injEq, Prod.mk.injEq] at h <;>
    (obtain ⟨rfl, -⟩ := h; rfl)

/-! ## The invariant -/

section

omit [Cell B] [FloatFormat F B]

/-- What is known at each statement of `cspTask` about the packet in hand and the record. -/
def Dispatch.AtPc (id : P → CspId) (s : Dispatch B P) : Prop :=
  match s.pc with
  | .switch c p => (id p).dport = c.dport
  | .setType c p event ticks =>
    (id p).dport = c.dport ∧ cspTaskCase c.dport.toNat = some (event, ticks)
  | .setData c p ticks =>
    (id p).dport = c.dport ∧ cspTaskCase c.dport.toNat = some (s.newEvent.eEventType, ticks)
  | .queueSend c p ticks =>
    (id p).dport = c.dport ∧ cspTaskCase c.dport.toNat = some (s.newEvent.eEventType, ticks) ∧
      s.newEvent.pvData = p
  | _ => True

end

variable {sincos : Nat → F} {out : P} {id : P → CspId} {s s' : Dispatch B P}

/-- Steps that leave the books of the order alone. -/
theorem Dispatch.Exact.congr (h : s.Exact sincos out id) (hr : s'.reads = s.reads)
    (hp : s'.pc.inHand = s.pc.inHand) (hs : s'.sends = s.sends) (hv : s'.serviced = s.serviced)
    (hf : s'.finished = s.finished) (hm : s'.main = s.main) (hq : s'.eventQueue = s.eventQueue) :
    s'.Exact sincos out id := by
  simpa only [Dispatch.Exact, hr, hp, hs, hv, hf, hm, hq] using h

/-- `xQueueSend`, whether it finds room or not. -/
theorem exact_queueSend {c : CspId} {p : P} {ticks : Nat} (h : s.Exact sincos out id)
    (hpc : s.pc = .queueSend c p ticks) (hat : s.AtPc id) (ok : Bool)
    (hs : s' = { s with
      pc := .read c, sends := s.sends ++ [(p, ok)]
      eventQueue := if ok then s.eventQueue ++ [s.newEvent] else s.eventQueue }) :
    s'.Exact sincos out id := by
  simp only [Dispatch.AtPc, hpc] at hat
  obtain ⟨hport, hcase, hdata⟩ := hat
  obtain ⟨⟨dealt, hr, hsend, hserv⟩, finished, running, hall, hserved, hbegun⟩ := h
  have hmain : MainPort (id p).dport.toNat := by
    rw [hport]
    exact (cspTaskCase_isSome _).1 (by rw [hcase]; rfl)
  have hbranch : (s.newEvent, handle sincos out s.newEvent) =
      (portHandler sincos out (id p).dport.toNat p : CspStackEvent P × Fw B P Unit) := by
    have := handle_cspTaskCase (B := B) sincos out p hcase
    rw [hport, ← this, ← hdata]
  subst hs
  refine ⟨⟨dealt ++ [p], ?_, ?_, ?_⟩, finished, running, ?_, hserved, hbegun⟩
  · simpa [hpc, CspPc.inHand] using hr
  · simp [hsend, hmain]
  · simp [hserv, hmain]
  · cases ok
    · simpa using hall
    · simp only [if_true, List.map_append, List.filter_append, ← List.append_assoc, hall]
      simp [hbranch]

/-- A packet of any other port goes to `csp_service_handler`. -/
theorem exact_service {c : CspId} {p : P} {code : Svc P Unit} (h : s.Exact sincos out id)
    (hpc : s.pc = .switch c p) (hat : s.AtPc id) (hcase : cspTaskCase c.dport.toNat = none)
    (hs : s' = { s with pc := .service c code, serviced := s.serviced ++ [p] }) :
    s'.Exact sincos out id := by
  simp only [Dispatch.AtPc, hpc] at hat
  obtain ⟨⟨dealt, hr, hsend, hserv⟩, hh⟩ := h
  have hmain : ¬ MainPort (id p).dport.toNat := by
    rw [hat, ← cspTaskCase_isSome, hcase]
    simp
  subst hs
  refine ⟨⟨dealt ++ [p], ?_, ?_, ?_⟩, hh⟩
  · simpa [hpc, CspPc.inHand] using hr
  · simp [hsend, hmain]
  · simp [hserv, hmain]

theorem exact_csp (h : s.Exact sincos out id) (hat : s.AtPc id)
    {answer : (o : SvcOp P) → o.Res} (hs : s.cspStep answer = some s') :
    s'.Exact sincos out id ∧ s'.AtPc id := by
  cases hpc : s.pc with
  | accept => simp [Dispatch.cspStep, hpc] at hs
  | read c => simp [Dispatch.cspStep, hpc] at hs
  | switch c p =>
    have hport : (id p).dport = c.dport := by simpa only [Dispatch.AtPc, hpc] using hat
    cases hcase : cspTaskCase c.dport.toNat with
    | none =>
      simp only [Dispatch.cspStep, hpc, hcase, Option.some.injEq] at hs
      exact ⟨exact_service h hpc hat hcase hs.symm, by simp [← hs, Dispatch.AtPc]⟩
    | some x =>
      simp only [Dispatch.cspStep, hpc, hcase, Option.some.injEq] at hs
      subst hs
      exact ⟨h.congr rfl (by simp [hpc, CspPc.inHand]) rfl rfl rfl rfl rfl, hport, hcase⟩
  | setType c p event ticks =>
    simp only [Dispatch.AtPc, hpc] at hat
    simp only [Dispatch.cspStep, hpc, Option.some.injEq] at hs
    subst hs
    exact ⟨h.congr rfl (by simp [hpc, CspPc.inHand]) rfl rfl rfl rfl rfl, hat⟩
  | setData c p ticks =>
    simp only [Dispatch.AtPc, hpc] at hat
    simp only [Dispatch.cspStep, hpc, Option.some.injEq] at hs
    subst hs
    exact ⟨h.congr rfl (by simp [hpc, CspPc.inHand]) rfl rfl rfl rfl rfl, hat.1, hat.2, rfl⟩
  | queueSend c p ticks =>
    by_cases hroom : s.eventQueue.length < eventQueueLength
    · simp only [Dispatch.cspStep, hpc, if_pos hroom, Option.some.injEq] at hs
      exact ⟨exact_queueSend h hpc hat true (by simp [← hs]), by simp [← hs, Dispatch.AtPc]⟩
    · simp only [Dispatch.cspStep, hpc, if_neg hroom, Option.some.injEq] at hs
      exact ⟨exact_queueSend h hpc hat false (by simp [← hs]), by simp [← hs, Dispatch.AtPc]⟩
  | service c code =>
    cases code <;>
      simp only [Dispatch.cspStep, hpc, Option.some.injEq] at hs <;>
      subst hs <;>
      exact ⟨h.congr rfl (by simp [hpc, CspPc.inHand]) rfl rfl rfl rfl rfl, trivial⟩
  | close c =>
    simp only [Dispatch.cspStep, hpc, Option.some.injEq] at hs
    subst hs
    exact ⟨h.congr rfl (by simp [hpc, CspPc.inHand]) rfl rfl rfl rfl rfl, trivial⟩

/-- `mainTask` takes the next event, goes on with its handler or comes to its end. -/
theorem exact_main {l : DispatchLabel B P} (h : s.Exact sincos out id)
    (hl : l = .receive ∨ ∃ answer, l = .main answer) (hs : s.step out sincos id l = some s') :
    s'.Exact sincos out id := by
  obtain ⟨hread, finished, running, hall, hserved, hbegun⟩ := h
  rcases hl with rfl | ⟨answer, rfl⟩
  · cases hm : s.main with
    | some m => simp [Dispatch.step, hm] at hs
    | none =>
      cases hq : s.eventQueue with
      | nil => simp [Dispatch.step, hm, hq] at hs
      | cons e rest =>
        simp only [Dispatch.step, hm, hq, Option.some.injEq] at hs
        subst hs
        obtain rfl : running = [] := by simpa only [Begun, hm] using hbegun
        refine ⟨hread, finished, [(e, handle sincos out e)], ?_, hserved, _, rfl, .start _⟩
        simpa [hq] using hall
  · cases hm : s.main with
    | none => simp [Dispatch.step, hm] at hs
    | some m =>
      obtain ⟨e, done, rest⟩ := m
      obtain ⟨code, rfl, hdoes⟩ : ∃ code, running = [(e, code)] ∧ code.Does done rest := by
        simpa only [Begun, hm] using hbegun
      cases rest with
      | ret =>
        simp only [Dispatch.step, hm, Option.some.injEq] at hs
        subst hs
        have hlast : Served (e, done) (e, code) := ⟨rfl, hdoes⟩
        refine ⟨hread, finished ++ [(e, code)], [], ?_, ?_, rfl⟩
        · rw [List.append_nil]
          exact hall
        · exact List.rel_append hserved (.cons hlast .nil)
      | op o k =>
        simp only [Dispatch.step, hm, Option.some.injEq] at hs
        subst hs
        exact ⟨hread, finished, _, hall, hserved, code, rfl, hdoes.access (answer o)⟩

theorem exact_step {l : DispatchLabel B P} (h : s.Exact sincos out id ∧ s.AtPc id)
    (hs : s.step out sincos id l = some s') : s'.Exact sincos out id ∧ s'.AtPc id := by
  obtain ⟨h, hat⟩ := h
  cases l with
  | accept conn =>
    cases hpc : s.pc <;> simp only [Dispatch.step, hpc, Option.some.injEq, reduceCtorEq] at hs
    subst hs
    cases conn <;> exact ⟨h.congr rfl (by simp [hpc, CspPc.inHand]) rfl rfl rfl rfl rfl, trivial⟩
  | read packet =>
    cases hpc : s.pc with
    | read c =>
      cases packet with
      | none =>
        simp only [Dispatch.step, hpc, Option.some.injEq] at hs
        subst hs
        exact ⟨h.congr rfl (by simp [hpc, CspPc.inHand]) rfl rfl rfl rfl rfl, trivial⟩
      | some p =>
        by_cases hm : (id p).ext &&& CspId.connMask = c.ext &&& CspId.connMask
        · simp only [Dispatch.step, hpc, if_pos hm, Option.some.injEq] at hs
          subst hs
          obtain ⟨⟨dealt, hr, hrest⟩, hh⟩ := h
          refine ⟨⟨⟨dealt, ?_, hrest⟩, hh⟩, CspId.dport_of_connMask hm⟩
          simpa [hpc, CspPc.inHand] using hr
        · simp [Dispatch.step, hpc, hm] at hs
    | _ => simp [Dispatch.step, hpc] at hs
  | csp answer => exact exact_csp h hat hs
  | receive =>
    refine ⟨exact_main h (.inl rfl) hs, ?_⟩
    cases hm : s.main <;> cases hq : s.eventQueue <;>
      simp only [Dispatch.step, hm, hq, Option.some.injEq, reduceCtorEq] at hs
    subst hs
    exact hat
  | main answer =>
    refine ⟨exact_main h (.inr ⟨answer, rfl⟩) hs, ?_⟩
    cases hm : s.main with
    | none => simp [Dispatch.step, hm] at hs
    | some m =>
      obtain ⟨e, done, rest⟩ := m
      cases rest <;> simp only [Dispatch.step, hm, Option.some.injEq] at hs <;> subst hs <;>
        exact hat

/-- Nothing has been read yet. -/
theorem exact_boot (sincos : Nat → F) (out : P) (id : P → CspId) (newEvent : CspStackEvent P) :
    (Dispatch.boot newEvent : Dispatch B P).Exact sincos out id ∧
      (Dispatch.boot newEvent : Dispatch B P).AtPc id :=
  ⟨⟨⟨[], rfl, rfl, rfl⟩, [], [], rfl, .nil, rfl⟩, trivial⟩

/-- **Dispatch.** In every state along every run: for all connections and packets `csp_read` gives,
all answers to the handlers, all interleavings of the two tasks, and a queue that may be full. -/
theorem dispatch_exact (sincos : Nat → F) (out : P) (id : P → CspId)
    (newEvent : CspStackEvent P) (ls : List (DispatchLabel B P)) :
    Along (Dispatch.step out sincos id) (Dispatch.Exact sincos out id)
      (Dispatch.boot newEvent) ls := by
  refine Along.of_inv (I := fun s => s.Exact sincos out id ∧ s.AtPc id) (fun _ h => h.1)
    (fun _ _ _ h hs => exact_step h hs) ls ?_
  exact exact_boot sincos out id newEvent

/-- Every packet is from node 2, to this port. -/
def requestTo (port : Nat) (_ : Nat) : CspId :=
  { pri := 1, src := 2, dst := 6, dport := .ofNat 6 port, sport := 40, flags := 0 }

/-- Every access is answered 0; `csp_send` sends. -/
def zeroSvc : (o : SvcOp Nat) → o.Res
  | .send _ => 1
  | .cmpHandler _ => 0
  | .sysTasklist => []
  | .sysMemfree | .getS | .bufferRemaining | .dataWord _ => 0
  | .bufferGet _ => none
  | .sysReboot | .bufferFree _ | .setData .. => ()

/-- A packet is read and its event queued; `mainTask` takes it. -/
def forwarded (port : Nat) : List (DispatchLabel ExactCell Nat) :=
  [.accept (some (requestTo port 1)), .read (some 1), .csp zeroSvc, .csp zeroSvc, .csp zeroSvc,
    .csp zeroSvc, .receive]

def echoed : List (DispatchLabel ExactCell Nat) :=
  forwarded 15 ++ List.replicate 4 (.main (quiet 0))

/-- An echo, from `csp_accept` to the end of its handler. -/
theorem dispatch_exact_echo :
    ∃ s, echoed.foldlM (Dispatch.step 0 exactSincos (requestTo 15)) (Dispatch.boot ⟨.other, 0⟩) =
        some s ∧
      s.Exact exactSincos 0 (requestTo 15) ∧
      s.finished.map (fun x => (x.1, x.2.length)) = [(⟨.echoBackEvent, 1⟩, 3)] := by
  have hrun : ∃ s, echoed.foldlM (Dispatch.step 0 exactSincos (requestTo 15))
      (Dispatch.boot ⟨.other, 0⟩) = some s ∧
      s.finished.map (fun x => (x.1, x.2.length)) = [(⟨.echoBackEvent, 1⟩, 3)] := ⟨_, rfl, rfl⟩
  obtain ⟨s, hs, hfinished⟩ := hrun
  have halong := dispatch_exact exactSincos 0 (requestTo 15) ⟨.other, 0⟩ echoed
  exact ⟨s, hs, halong.last hs, hfinished⟩

end HmBoard
