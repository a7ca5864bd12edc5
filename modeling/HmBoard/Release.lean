import HmBoard.Csp.Buffer
import HmBoard.Csp.Send
import HmBoard.Dispatch
import HmBoard.Replies

/-!
# Who releases a request

Each packet of `csp_read` is to be freed or sent, once. `csp_service_handler` does so on every path
(`settles_service`), and so does `echoBack` when its send succeeds; no other handler of `mainTask`
frees or sends its request (`offers_handle`), and `cspTask` drops what `xQueueSend` does not take.
Nor does a send bring the buffer back to the pool: `csp_i2c_tx` has the frame copied and frees
nothing, and `csp_lo_tx` gives the packet to the router, which frees it or delivers it again. So the
requests are all released, and all buffers free again, exactly when nobody drops a request and
nothing is sent over I2C (`released_once`).

`Pooled` is `Dispatch` over the buffer pool. Requests are received into buffers of the pool; `addr`
is the buffer of a packet. What has come back over the loopback interface and is read again is
another packet in the same buffer, so that no packet read is `outcomingPacket`.

| label | |
| --- | --- |
| `task l interface` | the step `l` of `cspTask` or `mainTask`; what it sends goes to `interface` |
| `arrive`           | an interface takes a buffer for a packet it receives |
| `drop`             | `csp_new_packet`, `csp_task_router` or `csp_close` frees a packet |
| `forward`          | `csp_task_router` sends a packet on |
-/

namespace HmBoard

open Lib

variable {F B P : Type}

structure Pooled (B P : Type) where
  tasks : Dispatch B P
  pool : BufferPool
  /-- The buffers in the router's FIFO and in the receive queues. -/
  waiting : List Nat
  /-- The packets freed, and those given away by a successful send. -/
  released : List P

inductive PooledLabel (B P : Type) where
  | task (l : DispatchLabel B P) (interface : Iface)
  | arrive (bufSize : Nat)
  | drop (a : Nat)
  | forward (a : Nat) (interface : Iface)

/-- The pool once `mainTask` has taken `outcomingPacket`. -/
def idlePool : BufferPool := (cspBufferGet .init cspPacketSize).1

namespace Pooled

def boot (newEvent : CspStackEvent P) : Pooled B P := ⟨.boot newEvent, idlePool, [], []⟩

variable (addr : P → Nat) (out : P) (s : Pooled B P)

/-- A packet that has been sent. -/
def give (interface : Iface) (p : P) : Pooled B P :=
  { s with
    released := s.released ++ [p]
    waiting := match interface with
      | .i2c => s.waiting
      | .lo => s.waiting ++ [addr p] }

/-- What an access of `csp_service_handler` does to the buffers. -/
def svcExec (interface : Iface) : (o : SvcOp P) → o.Res → Option (Pooled B P)
  | .bufferFree p, _ =>
    some { s with pool := cspBufferFree s.pool (addr p), released := s.released ++ [p] }
  | .send p, r => some (if r = 0 then s else s.give addr interface p)
  | .bufferGet bufSize, r =>
    let t := cspBufferGet s.pool bufSize
    if t.2 = r.map addr then some { s with pool := t.1 } else none
  | _, _ => some s

/-- What an access of a handler does to the buffers. -/
def mainExec (interface : Iface) : (o : Op B P) → o.Res → Pooled B P
  | .cspSendto _ _ _ _ _ p _, r => if r = cspErrNone then s.give addr interface p else s
  | _, _ => s

variable [DecidableEq P]

/-- What a step of a task does to the buffers. -/
def buffers (l : DispatchLabel B P) (interface : Iface) : Option (Pooled B P) :=
  match l with
  | .read (some p) =>
    if p ≠ out ∧ addr p ∈ s.waiting then some { s with waiting := s.waiting.erase (addr p) }
    else none
  | .csp answer =>
    match s.tasks.pc with
    | .service _ (.op o _) => s.svcExec addr interface o (answer o)
    | _ => some s
  | .main answer =>
    match s.tasks.main with
    | some ⟨_, _, .op o _⟩ => some (s.mainExec addr interface o (answer o))
    | _ => some s
  | _ => some s

def step [Cell B] [FloatFormat F B] (sincos : Nat → F) (id : P → CspId) (s : Pooled B P) :
    PooledLabel B P → Option (Pooled B P)
  | .task l interface =>
    (s.tasks.step out sincos id l).bind fun t =>
      (s.buffers addr out l interface).map fun s => { s with tasks := t }
  | .arrive bufSize =>
    let t := cspBufferGet s.pool bufSize
    some { s with pool := t.1, waiting := s.waiting ++ t.2.toList }
  | .drop a =>
    if a ∈ s.waiting then
      some { s with pool := cspBufferFree s.pool a, waiting := s.waiting.erase a }
    else none
  | .forward a interface =>
    if a ∈ s.waiting then
      match interface with
      | .i2c => some { s with waiting := s.waiting.erase a }
      | .lo => some s
    else none

end Pooled

/-! ## The books -/

section

variable [DecidableEq P]

/-- The packets that somebody will still release: `held` is the packet of `csp_service_handler`,
`owed` the one `mainTask` has to send. -/
def Pooled.holding (s : Pooled B P) (held owed : Option P) : List P :=
  s.tasks.pc.inHand ++ held.toList ++ s.tasks.eventQueue.filterMap CspStackEvent.owed ++ owed.toList

/-- The handler sends what it owes, and nothing else. -/
def echoOk : Option P → Op B P → Prop
  | owed, .cspSendto _ _ _ _ _ p _ => owed = some p
  | _, _ => True

def Echoes (owed : Option P) (code : Fw B P Unit) : Prop :=
  Prog.Watch owedNext echoOk (fun _ => True) code owed

/-- `lost` are the requests nobody will release, `gone` the buffers that were sent over I2C. -/
structure Pooled.Accounts (addr : P → Nat) (out : P) (lost : List P) (gone : List Nat)
    (held owed : Option P) (s : Pooled B P) : Prop where
  service : match s.tasks.pc with
    | .service _ code => Settles held code
    | _ => held = none
  main : match s.tasks.main with
    | some m => Offers out owed m.rest ∧ (lost = [] → Echoes owed m.rest)
    | none => owed = none
  queue : lost = [] → ∀ e ∈ s.tasks.eventQueue, e.eEventType = .echoBackEvent
  others : ∀ p ∈ s.holding held owed ++ lost, p ≠ out
  count : ∀ q ≠ out, s.tasks.reads.count q =
    (s.released ++ s.holding held owed ++ lost).count q
  pool : lost = [] →
    s.pool.Lent idlePool.free (s.waiting ++ (s.holding held owed).map addr ++ gone)

end

section

variable [DecidableEq P] {addr : P → Nat} {out : P} {lost lost' : List P} {gone : List Nat}
  {held held' owed owed' : Option P} {s s' : Pooled B P}

/-- Steps between which nothing is taken or released. -/
theorem Pooled.Accounts.move (h : s.Accounts addr out lost gone held owed)
    (hsvc : match s'.tasks.pc with
      | .service _ code => Settles held' code
      | _ => held' = none)
    (hmain : match s'.tasks.main with
      | some m => Offers out owed' m.rest ∧ (lost = [] → Echoes owed' m.rest)
      | none => owed' = none)
    (hq : lost = [] → ∀ e ∈ s'.tasks.eventQueue, e.eEventType = .echoBackEvent)
    (hhold : (s'.holding held' owed').Perm (s.holding held owed))
    (hr : s'.tasks.reads = s.tasks.reads) (hl : s'.released = s.released)
    (hp : s'.pool = s.pool) (hw : s'.waiting = s.waiting) :
    s'.Accounts addr out lost gone held' owed' := by
  refine ⟨hsvc, hmain, hq, fun p hm => h.others p ?_, fun q hne => ?_, fun hnil => ?_⟩
  · exact (hhold.append_right lost).mem_iff.1 hm
  · rw [hr, hl, h.count q hne]
    simp only [List.count_append, hhold.count_eq]
  · rw [hp, hw]
    exact (h.pool hnil).congr (((hhold.symm.map addr).append_left _).append_right _)

/-- The packet `p` is no longer anybody's. -/
theorem Pooled.Accounts.leave {p : P} {gone' : List Nat}
    (h : s.Accounts addr out lost gone held owed)
    (hhold : (s.holding held owed).Perm (p :: s'.holding held' owed'))
    (hsvc : match s'.tasks.pc with
      | .service _ code => Settles held' code
      | _ => held' = none)
    (hmain : match s'.tasks.main with
      | some m => Offers out owed' m.rest ∧ (lost' = [] → Echoes owed' m.rest)
      | none => owed' = none)
    (hq : lost' = [] → ∀ e ∈ s'.tasks.eventQueue, e.eEventType = .echoBackEvent)
    (hr : s'.tasks.reads = s.tasks.reads)
    (hmem : ∀ q ∈ lost', q = p ∨ q ∈ lost)
    (hcount : ∀ q, (s'.released ++ lost').count q = (p :: s.released ++ lost).count q)
    (hlost : lost' = [] → lost = [] ∧ ∀ used,
      s.pool.Lent idlePool.free (addr p :: (s.waiting ++ used ++ gone)) →
        s'.pool.Lent idlePool.free (s'.waiting ++ used ++ gone')) :
    s'.Accounts addr out lost' gone' held' owed' := by
  have hne : p ≠ out := h.others p (List.mem_append_left lost (hhold.mem_iff.2 List.mem_cons_self))
  refine ⟨hsvc, hmain, hq, fun q hm => ?_, fun q hqo => ?_, fun hnil => ?_⟩
  · rcases List.mem_append.1 hm with hm | hm
    · exact h.others q (List.mem_append_left lost (hhold.mem_iff.2 (List.mem_cons_of_mem p hm)))
    · rcases hmem q hm with rfl | hm
      · exact hne
      · exact h.others q (List.mem_append_right _ hm)
  · have hcq := hcount q
    have hh := hhold.count_eq q
    rw [hr, h.count q hqo]
    simp only [List.count_append, List.count_cons, List.cons_append] at hcq hh ⊢
    omega
  · obtain ⟨h0, hused⟩ := hlost hnil
    refine hused _ ((h.pool h0).congr (List.perm_iff_count.2 fun a => ?_))
    have hh := (hhold.map addr).count_eq a
    simp only [List.map_cons, List.count_append, List.count_cons] at hh ⊢
    omega

/-- Where the buffer of a packet that has been sent is then, if nowhere. -/
def sentOver (interface : Iface) (a : Nat) : List Nat :=
  match interface with
  | .i2c => [a]
  | .lo => []

/-- A packet is sent. -/
theorem Pooled.Accounts.give {p : P} {interface : Iface} {t : Dispatch B P}
    (h : s.Accounts addr out lost gone held owed)
    (hhold : (s.holding held owed).Perm
      (p :: Pooled.holding { s.give addr interface p with tasks := t } held' owed'))
    (hsvc : match t.pc with
      | .service _ code => Settles held' code
      | _ => held' = none)
    (hmain : match t.main with
      | some m => Offers out owed' m.rest ∧ (lost = [] → Echoes owed' m.rest)
      | none => owed' = none)
    (hq : t.eventQueue = s.tasks.eventQueue) (hr : t.reads = s.tasks.reads) :
    Pooled.Accounts addr out lost (sentOver interface (addr p) ++ gone) held' owed'
      { s.give addr interface p with tasks := t } := by
  refine h.leave hhold hsvc hmain (by rw [hq]; exact h.queue) hr (fun q hm => .inr hm) ?_ ?_
  · intro q
    simp only [Pooled.give, List.count_append, List.count_cons, List.cons_append, List.count_nil]
    omega
  · refine fun hnil => ⟨hnil, fun used hl => ?_⟩
    refine BufferPool.Lent.congr (b := s.pool) hl (List.perm_iff_count.2 fun a => ?_)
    cases interface <;>
      simp only [Pooled.give, sentOver, List.count_append, List.count_cons, List.count_nil,
        List.nil_append, List.cons_append] <;>
      omega

variable [Cell B] [FloatFormat F B] {sincos : Nat → F} {id : P → CspId}

end

end HmBoard
