import HmBoard.Csp.Packet
import HmBoard.Lib.Prog
import HmBoard.MainTask

/-!
# `cspTask.c` and `csp_service_handler`

| here | there |
| --- | --- |
| `cspTaskCase`        | the `case`s of the `switch` (cspTask.c:42-125): event type and time-out |
| `CspPc`              | the statement `cspTask` is about to run |
| `SvcOp`              | what `csp_service_handler` calls |
| `cspServiceHandler`  | `csp_service_handler` (csp_service_handler.c:188) |

A connection is of type `C`, a packet pointer of type `P`. `csp_cmp_handler` is one access, answered
with its return code.
-/

namespace HmBoard

open Lib

/-! ## `csp_service_handler` -/

inductive SvcOp (P : Type) where
  /-- `csp_cmp_handler`. -/
  | cmpHandler (p : P)
  /-- The text `csp_sys_tasklist` writes, up to `task_list_size`. -/
  | sysTasklist
  | sysMemfree
  | sysReboot
  | getS
  | bufferRemaining
  | bufferGet (bufSize : Nat)
  | bufferFree (p : P)
  /-- The first word of `packet->data`. -/
  | dataWord (p : P)
  /-- `memcpy(packet->data, bs, …); packet->length = …`. -/
  | setData (p : P) (bs : List UInt8)
  /-- `csp_send(conn, packet, 0)`: not 0 when the packet is sent. -/
  | send (p : P)

@[reducible] def SvcOp.Res {P : Type} : SvcOp P → Type
  | .cmpHandler _ => Int
  | .sysTasklist => List UInt8
  | .sysMemfree => BitVec 32
  | .getS => BitVec 32
  | .bufferRemaining => BitVec 32
  | .bufferGet _ => Option P
  | .dataWord _ => BitVec 32
  | .send _ => Int
  | _ => Unit

abbrev Svc (P α : Type) := Prog (SvcOp P) SvcOp.Res α

variable {P : Type}

namespace Svc

abbrev cmpHandler (p : P) : Svc P Int := Prog.call (SvcOp.cmpHandler p)
abbrev sysTasklist : Svc P (List UInt8) := Prog.call SvcOp.sysTasklist
abbrev sysMemfree : Svc P (BitVec 32) := Prog.call SvcOp.sysMemfree
abbrev sysReboot : Svc P Unit := Prog.call SvcOp.sysReboot
abbrev getS : Svc P (BitVec 32) := Prog.call SvcOp.getS
abbrev bufferRemaining : Svc P (BitVec 32) := Prog.call SvcOp.bufferRemaining
abbrev bufferGet (bufSize : Nat) : Svc P (Option P) := Prog.call (SvcOp.bufferGet bufSize)
abbrev bufferFree (p : P) : Svc P Unit := Prog.call (SvcOp.bufferFree p)
abbrev dataWord (p : P) : Svc P (BitVec 32) := Prog.call (SvcOp.dataWord p)
abbrev setData (p : P) (bs : List UInt8) : Svc P Unit := Prog.call (SvcOp.setData p bs)
abbrev send (p : P) : Svc P Int := Prog.call (SvcOp.send p)

end Svc

open Svc

/-- `CSP_RPS_MTU`. -/
def cspRpsMtu : Nat := 196

/-- The magic word of `CSP_REBOOT`. -/
def cspRebootMagic : BitVec 32 := 0x80078007#32

/-- A word as it is copied into a packet, in network order. -/
def networkWord (w : BitVec 32) : List UInt8 := leBytes 4 (cspHton32 w).toNat

/-- `if (!csp_send(conn, packet, 0)) csp_buffer_free(packet);` -/
def sendOrFree (p : P) : Svc P Unit := do
  let r ← send p
  if r = 0 then bufferFree p else pure ()

/-- The loop of `CSP_PS` over the rest of the text (csp_service_handler.c:217-236), at most `n`
times; `packet` is the variable. -/
def sendTasklist : (n : Nat) → List UInt8 → Option P → Svc P (Option P)
  | 0, _, packet => pure packet
  | n + 1, pslist, packet =>
    if pslist = [] then pure packet
    else do
      let packet ← match packet with
        | some p => pure (some p)
        | none => bufferGet cspRpsMtu
      match packet with
      | none => pure none
      | some p => do
        setData p (pslist.take cspRpsMtu)
        sendOrFree p
        sendTasklist n (pslist.drop cspRpsMtu) none

/-- `csp_service_handler` (csp_service_handler.c:188). -/
def cspServiceHandler (dport : Nat) (p : P) : Svc P Unit :=
  if dport = cspCmp then do
    let r ← cmpHandler p
    if r ≠ cspErrNone then bufferFree p else sendOrFree p
  else if dport = cspPing then sendOrFree p
  else if dport = cspPs then do
    let pslist ← sysTasklist
    let packet ← sendTasklist pslist.length pslist (some p)
    match packet with
    | some p => sendOrFree p
    | none => pure ()
  else if dport = cspMemfree then do
    let total ← sysMemfree
    setData p (networkWord total)
    sendOrFree p
  else if dport = cspReboot then do
    let magicWord ← dataWord p
    if cspHton32 magicWord ≠ cspRebootMagic then bufferFree p
    else do
      sysReboot
      bufferFree p
  else if dport = cspBufFree then do
    let size ← bufferRemaining
    setData p (networkWord size)
    sendOrFree p
  else if dport = cspUptime then do
    let time ← getS
    setData p (networkWord time)
    sendOrFree p
  else bufferFree p

/-! ## `cspTask` -/

/-- `csp_listen(sock, 10)` (cspTask.c:24). -/
def backlogLength : Nat := 10
/-- `xQueueCreate(10, …)` (cspTask.c:30). -/
def eventQueueLength : Nat := 10

/-- The `case`s of the `switch` (cspTask.c:42): event type and time-out; no event is `default`. -/
def cspTaskCase (dport : Nat) : Option (EventType × Nat) :=
  match dport with
  | 15 => some (.echoBackEvent, 100)
  | 16 => some (.freeHeapEvent, 100)
  | 17 => some (.housKeepingEvent, 10)
  | 18 => some (.processAllEvent, 100)
  | 19 => some (.sendSignalEvent, 100)
  | 20 => some (.sendFFTEvent, 100)
  | 21 => some (.sendSummaryInfoEvent, 100)
  | 22 => some (.sendAttenuationEvent, 100)
  | _ => none

/-- Where `cspTask` is in its loop; `c` is `conn`, `p` is `packet`. -/
inductive CspPc (C P : Type) where
  /-- `csp_accept`. -/
  | accept
  /-- `csp_read`. -/
  | read (c : C)
  /-- The `switch`. -/
  | switch (c : C) (p : P)
  /-- `newEvent->eEventType = …`. -/
  | setType (c : C) (p : P) (event : EventType) (ticks : Nat)
  /-- `newEvent->pvData = packet`. -/
  | setData (c : C) (p : P) (ticks : Nat)
  /-- `xQueueSend`. -/
  | queueSend (c : C) (p : P) (ticks : Nat)
  /-- In `csp_service_handler`. -/
  | service (c : C) (code : Svc P Unit)
  /-- `csp_close`. -/
  | close (c : C)

variable {α β : Type}

/-! ## `csp_service_handler` disposes of its packet -/

/-- `held` is the packet the handler is responsible for: it uses no other, and what it copies into
one is at most `CSP_RPS_MTU` bytes long. -/
def heldOk : Option P → SvcOp P → Prop
  | held, .bufferFree p | held, .send p | held, .cmpHandler p | held, .dataWord p => held = some p
  | held, .setData p bs => held = some p ∧ bs.length ≤ cspRpsMtu
  | held, .bufferGet bufSize => held = none ∧ bufSize = cspRpsMtu
  | _, _ => True

def heldNext : Option P → (o : SvcOp P) → o.Res → Option P
  | _, .bufferFree _, _ => none
  | held, .send _, r => if r = 0 then held else none
  | _, .bufferGet _, r => r
  | held, _, _ => held

/-- On every path the packet held is freed or sent, once. -/
def Settles (held : Option P) (code : Svc P α) : Prop :=
  Prog.Watch heldNext heldOk (· = none) code held

theorem Settles.access {held : Option P} {o : SvcOp P} {f : o.Res → Svc P α} (ho : heldOk held o)
    (hf : ∀ r, Settles (heldNext held o r) (f r)) : Settles held (Prog.call o >>= f) :=
  ⟨ho, hf⟩

theorem settles_free (p : P) : Settles (some p) (Svc.bufferFree p) := ⟨rfl, fun _ => rfl⟩

theorem Settles.bind {held : Option P} {code : Svc P α} {f : α → Svc P β}
    (h : Settles held code) (hf : ∀ a, Settles none (f a)) : Settles held (code.bind f) := by
  refine Prog.Watch.bind h fun a m hm => ?_
  subst hm
  exact hf a

theorem settles_sendOrFree (p : P) : Settles (some p) (sendOrFree p) := by
  refine Settles.access rfl fun r => ?_
  by_cases hr : r = 0
  · simp only [hr, heldNext, if_true]
    exact settles_free p
  · simp only [hr, heldNext, if_false]
    rfl

/-- The loop of `CSP_PS`, and what follows it. -/
theorem settles_sendTasklist {f : Option P → Svc P α} (hf : ∀ packet, Settles packet (f packet)) :
    ∀ n pslist packet, Settles packet ((sendTasklist n pslist packet).bind f)
  | 0, _, packet => hf packet
  | n + 1, pslist, packet => by
    have hchunk : ∀ p, Settles (some p) (Prog.bind (do
        Svc.setData p (pslist.take cspRpsMtu)
        sendOrFree p
        sendTasklist n (pslist.drop cspRpsMtu) none) f) := by
      intro p
      refine ⟨⟨rfl, by simp⟩, fun _ => ?_⟩
      simp only [Prog.bind_eq, Prog.bind_assoc]
      exact (settles_sendOrFree p).bind fun _ => settles_sendTasklist hf n _ none
    by_cases hnil : pslist = []
    · simpa [sendTasklist, hnil] using hf packet
    · cases packet with
      | some p => simpa [sendTasklist, hnil] using hchunk p
      | none =>
        simp only [sendTasklist, hnil, if_false]
        refine ⟨⟨rfl, rfl⟩, fun r => ?_⟩
        cases r with
        | none => exact hf none
        | some p => exact hchunk p

theorem settles_service (dport : Nat) (p : P) : Settles (some p) (cspServiceHandler dport p) := by
  have hword : ∀ w : BitVec 32, Settles (some p) (do
      Svc.setData p (networkWord w)
      sendOrFree p) := by
    intro w
    have hlen : (networkWord w).length ≤ cspRpsMtu := by simp [networkWord, cspRpsMtu]
    exact ⟨⟨rfl, hlen⟩, fun _ => settles_sendOrFree p⟩
  unfold cspServiceHandler
  by_cases hcmp : dport = cspCmp
  · simp only [hcmp, if_true]
    refine Settles.access rfl fun r => ?_
    by_cases hr : r = cspErrNone
    · simp only [hr, ne_eq, not_true_eq_false, if_false]
      exact settles_sendOrFree p
    · simp only [hr, ne_eq, not_false_eq_true, if_true]
      exact settles_free p
  by_cases hping : dport = cspPing
  · simpa [hping, cspPing, cspCmp] using settles_sendOrFree p
  by_cases hps : dport = cspPs
  · simp only [hps, cspPs, cspCmp, cspPing]
    refine ⟨trivial, fun pslist => settles_sendTasklist (fun packet => ?_) _ _ _⟩
    cases packet with
    | none => rfl
    | some p => exact settles_sendOrFree p
  by_cases hmem : dport = cspMemfree
  · simp only [hmem, cspMemfree, cspPs, cspCmp, cspPing]
    exact ⟨trivial, hword⟩
  by_cases hreboot : dport = cspReboot
  · simp only [hreboot, cspReboot, cspMemfree, cspPs, cspCmp, cspPing]
    refine Settles.access rfl fun w => ?_
    by_cases hw : cspHton32 w = cspRebootMagic
    · simp only [hw, ne_eq, not_true_eq_false, if_false]
      exact Settles.access trivial fun _ => settles_free p
    · simp only [hw, ne_eq, not_false_eq_true, if_true]
      exact settles_free p
  by_cases hbuf : dport = cspBufFree
  · simp only [hbuf, cspBufFree, cspReboot, cspMemfree, cspPs, cspCmp, cspPing]
    exact ⟨trivial, hword⟩
  by_cases hup : dport = cspUptime
  · simp only [hup, cspUptime, cspBufFree, cspReboot, cspMemfree, cspPs, cspCmp, cspPing]
    exact ⟨trivial, hword⟩
  simpa [hcmp, hping, hps, hmem, hreboot, hbuf, hup] using settles_free p

end HmBoard
