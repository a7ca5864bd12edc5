import HmBoard.Csp.Conn
import HmBoard.Csp.Send
import HmBoard.Lib.Prog

/-!
# The router (`csp_route.c`)

| here | there |
| --- | --- |
| `RouteOp`                | what the router calls and reads; every read of `packet->id` is one access |
| `cspCrc32Verify`         | `csp_crc32_verify` (csp_crc32.c:109) |
| `cspRouteSecurityCheck`  | `csp_route_security_check` (csp_route.c:88) for a socket without options |
| `cspUdpNewPacket`        | `csp_udp_new_packet` (csp_udp.c) |
| `cspTaskRouter`          | the body of the loop of `csp_task_router` (csp_route.c:262-393) |

The library is built with CRC32 and without XTEA, HMAC, RDP, QoS and promiscuous mode, and neither
interface turns its split horizon off. The only socket is bound to `CSP_ANY`.
-/

namespace HmBoard

open Lib

inductive RouteOp (P : Type) where
  | pktId (p : P)
  | routeIf (id : Nat)
  | sendDirect (idout : CspId) (p : P)
  | crc32Verify (p : P)
  | connFind (id : BitVec 32)
  /-- `csp_conn_new`. -/
  | connNew (idin idout : CspId)
  /-- `conn->socket = socket->socket`. -/
  | setSocket (c : ConnId)
  | connEnqueuePacket (c : ConnId) (p : P)
  /-- `conn->socket != NULL`. -/
  | socket (c : ConnId)
  /-- The connection into the queue of the socket: whether there was room. -/
  | enqueueConn (c : ConnId)
  /-- `conn->socket = NULL`. -/
  | clearSocket (c : ConnId)
  | close (c : ConnId)
  | bufferFree (p : P)

@[reducible] def RouteOp.Res {P : Type} : RouteOp P → Type
  | .pktId _ => CspId
  | .routeIf _ => Option Route
  | .sendDirect .. => Int
  | .crc32Verify _ => Int
  | .connFind _ => Option ConnId
  | .connNew .. => Option ConnId
  | .connEnqueuePacket .. => Int
  | .socket _ => Bool
  | .enqueueConn _ => Bool
  | _ => Unit

abbrev RouteCode (P α : Type) := Prog (RouteOp P) RouteOp.Res α

variable {P : Type}

namespace RouteCode

abbrev pktId (p : P) : RouteCode P CspId := Prog.call (RouteOp.pktId p)
abbrev routeIf (id : Nat) : RouteCode P (Option Route) := Prog.call (RouteOp.routeIf id)
abbrev sendDirect (idout : CspId) (p : P) : RouteCode P Int :=
  Prog.call (RouteOp.sendDirect idout p)
abbrev crc32Verify (p : P) : RouteCode P Int := Prog.call (RouteOp.crc32Verify p)
abbrev connFind (id : BitVec 32) : RouteCode P (Option ConnId) := Prog.call (RouteOp.connFind id)
abbrev connNew (idin idout : CspId) : RouteCode P (Option ConnId) :=
  Prog.call (RouteOp.connNew idin idout)
abbrev setSocket (c : ConnId) : RouteCode P Unit := Prog.call (RouteOp.setSocket c)
abbrev connEnqueuePacket (c : ConnId) (p : P) : RouteCode P Int :=
  Prog.call (RouteOp.connEnqueuePacket c p)
abbrev socket (c : ConnId) : RouteCode P Bool := Prog.call (RouteOp.socket c)
abbrev enqueueConn (c : ConnId) : RouteCode P Bool := Prog.call (RouteOp.enqueueConn c)
abbrev clearSocket (c : ConnId) : RouteCode P Unit := Prog.call (RouteOp.clearSocket c)
abbrev close (c : ConnId) : RouteCode P Unit := Prog.call (RouteOp.close c)
abbrev bufferFree (p : P) : RouteCode P Unit := Prog.call (RouteOp.bufferFree p)

end RouteCode

open RouteCode

/-- `csp_crc32_verify` (csp_crc32.c:109). -/
def cspCrc32Verify (crc32 : List UInt8 → BitVec 32) (m : Ram) (p : Nat) : Ram × Int :=
  let len := m.length p
  if len < 4 then (m, cspErrInval)
  else
    let crc := cspHton32 (crc32 ((m.payload p).take (len - 4)))
    if m.read (p + 14 + len - 4) 4 ≠ leBytes 4 crc.toNat then (m, cspErrInval)
    else (m.setLength p (len - 4), cspErrNone)

/-- `csp_route_security_check` (csp_route.c:88). -/
def cspRouteSecurityCheck (p : P) : RouteCode P Int := do
  let id ← pktId p
  if id.flags &&& cspFxtea ≠ 0 then pure cspErrNotsup
  else do
    let id ← pktId p
    let r ← if id.flags &&& cspFcrc32 ≠ 0 then crc32Verify p else pure cspErrNone
    if r ≠ cspErrNone then pure cspErrCrc32
    else do
      let id ← pktId p
      if id.flags &&& cspFhmac ≠ 0 then pure cspErrNotsup else pure cspErrNone

/-- `csp_udp_new_packet`. -/
def cspUdpNewPacket (c : ConnId) (p : P) : RouteCode P Unit := do
  let r ← connEnqueuePacket c p
  if r < 0 then bufferFree p
  else do
    let waiting ← socket c
    if waiting then do
      let ok ← enqueueConn c
      if ok then clearSocket c else close c
    else pure ()

/-- The packet to the transport module (csp_route.c:370). -/
def cspRouteTransport (c : ConnId) (p : P) : RouteCode P Unit := do
  let id ← pktId p
  if id.flags &&& cspFrdp ≠ 0 then bufferFree p else cspUdpNewPacket c p

/-- `idout` of a connection from `id` (csp_route.c:333). -/
def routeIdout (id : CspId) : CspId :=
  { pri := id.pri, src := .ofNat 5 cspMyAddress, dst := id.src, dport := id.sport
    sport := id.dport, flags := id.flags }

/-- A packet for another node (csp_route.c:277). -/
def cspRouteForward (interface : Iface) (p : P) : RouteCode P Unit := do
  let id ← pktId p
  let dst ← routeIf id.dst.toNat
  if dst = none ∨ dst.map (·.interface) = some interface then bufferFree p
  else do
    let id ← pktId p
    let r ← sendDirect id p
    if r ≠ cspErrNone then bufferFree p else pure ()

/-- A packet for this node (csp_route.c:301). -/
def cspRouteDeliver (p : P) : RouteCode P Unit := do
  let id ← pktId p
  let bound := id.dport.toNat ≤ cspAny
  let id ← pktId p
  let conn ← connFind id.ext
  match conn with
  | none =>
    if ¬ bound then bufferFree p
    else do
      let r ← cspRouteSecurityCheck p
      if r < 0 then bufferFree p
      else do
        let id ← pktId p
        let conn ← connNew id (routeIdout id)
        match conn with
        | none => bufferFree p
        | some c => do
          setSocket c
          cspRouteTransport c p
  | some c => do
    let r ← cspRouteSecurityCheck p
    if r < 0 then bufferFree p else cspRouteTransport c p

/-- The body of the loop of `csp_task_router` (csp_route.c:262). -/
def cspTaskRouter (interface : Iface) (p : P) : RouteCode P Unit := do
  let id ← pktId p
  if id.dst.toNat ≠ cspMyAddress ∧ id.dst.toNat ≠ cspBroadcastAddr then cspRouteForward interface p
  else cspRouteDeliver p

/-! ## The router disposes of its packet -/

/-- The router uses the packet it has in hand and no other. -/
def routeOk : Option P → RouteOp P → Prop
  | hand, .pktId p | hand, .sendDirect _ p | hand, .crc32Verify p | hand, .connEnqueuePacket _ p
  | hand, .bufferFree p => hand = some p
  | _, _ => True

/-- It is freed, sent, or put into the queue of a connection. -/
def routeNext : Option P → (o : RouteOp P) → o.Res → Option P
  | _, .bufferFree _, _ => none
  | hand, .sendDirect .., r => if r = cspErrNone then none else hand
  | hand, .connEnqueuePacket .., r => if r < 0 then hand else none
  | hand, _, _ => hand

/-- On every path the packet in hand is freed, sent or queued, once. -/
def Disposes {α : Type} (hand : Option P) (code : RouteCode P α) : Prop :=
  Prog.Watch routeNext routeOk (· = none) code hand

variable {α : Type} {hand : Option P}

theorem Disposes.access {o : RouteOp P} {f : o.Res → RouteCode P α} (ho : routeOk hand o)
    (hf : ∀ r, Disposes (routeNext hand o r) (f r)) : Disposes hand (Prog.call o >>= f) :=
  ⟨ho, hf⟩

theorem disposes_free (p : P) : Disposes (some p) (RouteCode.bufferFree p) := ⟨rfl, fun _ => rfl⟩

theorem disposes_udp (c : ConnId) (p : P) : Disposes (some p) (cspUdpNewPacket c p) := by
  refine Disposes.access rfl fun r => ?_
  by_cases hr : r < 0
  · simp only [hr, routeNext, if_true]
    exact disposes_free p
  · simp only [hr, routeNext, if_false]
    refine Disposes.access trivial fun waiting => ?_
    cases waiting
    · exact rfl
    · refine Disposes.access trivial fun ok => ?_
      cases ok <;> exact ⟨trivial, fun _ => rfl⟩

theorem disposes_transport (c : ConnId) (p : P) : Disposes (some p) (cspRouteTransport c p) := by
  refine Disposes.access rfl fun id => ?_
  by_cases hr : id.flags &&& cspFrdp ≠ 0
  · rw [if_pos hr]
    exact disposes_free p
  · rw [if_neg hr]
    exact disposes_udp c p

/-- The check reads the packet, or strips it. -/
theorem check_accesses (p : P) :
    (cspRouteSecurityCheck p).All fun o => o = .pktId p ∨ o = .crc32Verify p := by
  have hlast : ∀ r : Int, Prog.All (fun o => o = .pktId p ∨ o = .crc32Verify p)
      (if r ≠ cspErrNone then pure cspErrCrc32
      else do
        let id ← RouteCode.pktId p
        if id.flags &&& cspFhmac ≠ 0 then pure cspErrNotsup else pure cspErrNone) := fun r =>
    Prog.All.ite trivial ⟨.inl rfl, fun _ => Prog.All.ite trivial trivial⟩
  refine ⟨.inl rfl, fun _ => Prog.All.ite trivial ⟨.inl rfl, fun _ => ?_⟩⟩
  exact Prog.All.ite ⟨.inr rfl, hlast⟩ (hlast cspErrNone)

theorem disposes_check {f : Int → RouteCode P α} {p : P} (hf : ∀ r, Disposes (some p) (f r)) :
    Disposes (some p) (cspRouteSecurityCheck p >>= f) := by
  have hcheck : Prog.Watch routeNext routeOk (· = some p) (cspRouteSecurityCheck p) (some p) := by
    refine Prog.Watch.of_all ?_ ?_ ?_ (check_accesses p)
    · rintro o (rfl | rfl) <;> rfl
    · rintro o (rfl | rfl) r <;> rfl
    · rfl
  refine hcheck.bind fun r hand hh => ?_
  subst hh
  exact hf r

theorem disposes_deliver (p : P) : Disposes (some p) (cspRouteDeliver p) := by
  refine Disposes.access rfl fun id => Disposes.access rfl fun id' => ?_
  refine Disposes.access trivial fun conn => ?_
  cases conn with
  | none =>
    by_cases hb : id.dport.toNat ≤ cspAny
    · simp only [hb, not_true_eq_false, if_false]
      refine disposes_check fun r => ?_
      by_cases hr : r < 0
      · rw [if_pos hr]
        exact disposes_free p
      · rw [if_neg hr]
        refine Disposes.access rfl fun id => Disposes.access trivial fun conn => ?_
        cases conn with
        | none => exact disposes_free p
        | some c => exact Disposes.access trivial fun _ => disposes_transport c p
    · simp only [hb, not_false_eq_true, if_true]
      exact disposes_free p
  | some c =>
    refine disposes_check fun r => ?_
    by_cases hr : r < 0
    · rw [if_pos hr]
      exact disposes_free p
    · rw [if_neg hr]
      exact disposes_transport c p

theorem disposes_forward (interface : Iface) (p : P) :
    Disposes (some p) (cspRouteForward interface p) := by
  refine Disposes.access rfl fun id => Disposes.access trivial fun dst => ?_
  by_cases hd : dst = none ∨ dst.map (·.interface) = some interface
  · rw [if_pos hd]
    exact disposes_free p
  · rw [if_neg hd]
    refine Disposes.access rfl fun id => Disposes.access rfl fun r => ?_
    by_cases hr : r = cspErrNone
    · simp only [hr, routeNext, if_true, ne_eq, not_true_eq_false, if_false]
      exact rfl
    · simp only [hr, routeNext, if_false, ne_eq, not_false_eq_true, if_true]
      exact disposes_free p

theorem disposes_router (interface : Iface) (p : P) :
    Disposes (some p) (cspTaskRouter interface p) := by
  refine Disposes.access rfl fun id => ?_
  by_cases hd : id.dst.toNat ≠ cspMyAddress ∧ id.dst.toNat ≠ cspBroadcastAddr
  · rw [if_pos hd]
    exact disposes_forward interface p
  · rw [if_neg hd]
    exact disposes_deliver p

/-! ## The order of the accesses -/

/-- What the router has done to its packet, and the header it has read last. -/
inductive RouteStage where
  | unchecked (header : Option CspId)
  | checked
  | sent
deriving DecidableEq, Repr

/-- The checksum is verified once at most, and only where the header asks for it; a packet that was
offered to an interface does not go into a connection. -/
def RouteStage.Ok : RouteStage → RouteOp P → Prop
  | stage, .crc32Verify _ => ∃ id, stage = .unchecked (some id) ∧ id.flags &&& cspFcrc32 ≠ 0
  | stage, .connEnqueuePacket .. => stage ≠ .sent
  | _, _ => True

/-- The header is read. -/
def RouteStage.read (id : CspId) : RouteStage → RouteStage
  | .unchecked _ => .unchecked (some id)
  | stage => stage

def RouteStage.next : RouteStage → (o : RouteOp P) → o.Res → RouteStage
  | _, .crc32Verify _, _ => .checked
  | _, .sendDirect .., _ => .sent
  | stage, .pktId _, id => stage.read id
  | stage, _, _ => stage

def InOrder (stage : RouteStage) (code : RouteCode P α) : Prop :=
  Prog.Watch RouteStage.next RouteStage.Ok (fun _ => True) code stage

section

variable {stage : RouteStage}

theorem RouteStage.read_ne_sent (id : CspId) (h : stage ≠ .sent) : stage.read id ≠ .sent := by
  cases stage with
  | unchecked header => nofun
  | checked => exact h
  | sent => exact h

theorem InOrder.access {o : RouteOp P} {f : o.Res → RouteCode P α} (ho : stage.Ok o)
    (hf : ∀ r, InOrder (stage.next o r) (f r)) : InOrder stage (Prog.call o >>= f) :=
  ⟨ho, hf⟩

theorem inOrder_free (p : P) : InOrder stage (RouteCode.bufferFree p) := ⟨trivial, fun _ => trivial⟩

theorem inOrder_transport (c : ConnId) (p : P) (h : stage ≠ .sent) :
    InOrder stage (cspRouteTransport c p) := by
  refine InOrder.access trivial fun id => ?_
  by_cases hr : id.flags &&& cspFrdp ≠ 0
  · rw [if_pos hr]
    exact inOrder_free p
  · rw [if_neg hr]
    refine InOrder.access (RouteStage.read_ne_sent id h) fun r => ?_
    by_cases hneg : r < 0
    · rw [if_pos hneg]
      exact inOrder_free p
    · rw [if_neg hneg]
      refine InOrder.access trivial fun waiting => ?_
      cases waiting
      · exact trivial
      · refine InOrder.access trivial fun ok => ?_
        cases ok <;> exact ⟨trivial, fun _ => trivial⟩

theorem inOrder_check {f : Int → RouteCode P α} {p : P} {header : Option CspId}
    (hf : ∀ r stage, stage ≠ .sent → InOrder stage (f r)) :
    InOrder (.unchecked header) (cspRouteSecurityCheck p >>= f) := by
  have hlast : ∀ (stage : RouteStage) (r : Int), stage ≠ .sent →
      Prog.Watch RouteStage.next RouteStage.Ok (· ≠ .sent)
        (if r ≠ cspErrNone then pure cspErrCrc32
        else do
          let id ← RouteCode.pktId p
          if id.flags &&& cspFhmac ≠ 0 then pure cspErrNotsup else pure cspErrNone) stage :=
    fun stage r h => Prog.Watch.ite h ⟨trivial, fun id =>
      Prog.Watch.ite (RouteStage.read_ne_sent id h) (RouteStage.read_ne_sent id h)⟩
  have hcheck : Prog.Watch RouteStage.next RouteStage.Ok (· ≠ .sent) (cspRouteSecurityCheck p)
      (.unchecked header) := by
    refine ⟨trivial, fun id => Prog.Watch.ite nofun ⟨trivial, fun id => ?_⟩⟩
    dsimp only [Prog.bind]
    by_cases hflag : id.flags &&& cspFcrc32 ≠ 0
    · rw [if_pos hflag]
      exact ⟨⟨id, rfl, hflag⟩, fun r => hlast .checked r nofun⟩
    · rw [if_neg hflag]
      exact hlast (.unchecked (some id)) cspErrNone nofun
  exact hcheck.bind fun r stage h => hf r stage h

theorem inOrder_router (interface : Iface) (p : P) :
    InOrder (.unchecked none) (cspTaskRouter interface p) := by
  refine InOrder.access trivial fun id => ?_
  by_cases hd : id.dst.toNat ≠ cspMyAddress ∧ id.dst.toNat ≠ cspBroadcastAddr
  · rw [if_pos hd]
    refine InOrder.access trivial fun id => InOrder.access trivial fun dst => ?_
    by_cases hdst : dst = none ∨ dst.map (·.interface) = some interface
    · rw [if_pos hdst]
      exact inOrder_free p
    · rw [if_neg hdst]
      refine InOrder.access trivial fun id => InOrder.access trivial fun r => ?_
      by_cases hr : r ≠ cspErrNone
      · rw [if_pos hr]
        exact inOrder_free p
      · rw [if_neg hr]
        exact trivial
  · rw [if_neg hd]
    refine InOrder.access trivial fun id => InOrder.access trivial fun id' => ?_
    refine InOrder.access trivial fun conn => ?_
    cases conn with
    | some c =>
      refine inOrder_check fun r stage h => ?_
      by_cases hr : r < 0
      · rw [if_pos hr]
        exact inOrder_free p
      · rw [if_neg hr]
        exact inOrder_transport c p h
    | none =>
      by_cases hb : id.dport.toNat ≤ cspAny
      · simp only [hb, not_true_eq_false, if_false]
        refine inOrder_check fun r stage h => ?_
        by_cases hr : r < 0
        · rw [if_pos hr]
          exact inOrder_free p
        · rw [if_neg hr]
          refine InOrder.access trivial fun id => InOrder.access trivial fun conn => ?_
          cases conn with
          | none => exact inOrder_free p
          | some c =>
            have hid := RouteStage.read_ne_sent id h
            exact InOrder.access trivial fun _ => inOrder_transport c p hid
      · simp only [hb, not_false_eq_true, if_true]
        exact inOrder_free p

/-- After a verification the router verifies no more. -/
theorem InOrder.verified : ∀ {code : RouteCode P α} {stage : RouteStage}, InOrder stage code →
    (∀ header, stage ≠ .unchecked header) → code.All fun o => ∀ q, o ≠ .crc32Verify q
  | .ret _, _, _, _ => trivial
  | .op o k, stage, ho, hstage => by
    refine ⟨?_, fun r => ?_⟩
    · rintro q rfl
      obtain ⟨id, hunchecked, -⟩ := ho.1
      exact hstage _ hunchecked
    · have hnext : ∀ header, stage.next o r ≠ .unchecked header := by
        cases stage with
        | unchecked header => exact absurd rfl (hstage header)
        | checked => cases o <;> exact fun _ => nofun
        | sent => cases o <;> exact fun _ => nofun
      have hk : InOrder (stage.next o r) (k r) := ho.2 r
      exact hk.verified hnext

end

/-- `csp_crc32_verify` leaves the packet alone, or cuts it. -/
theorem crc32Verify_cases (crc32 : List UInt8 → BitVec 32) (m : Ram) (p : Nat) :
    (cspCrc32Verify crc32 m p).1 = m ∨
      4 ≤ m.length p ∧ (cspCrc32Verify crc32 m p).1 = m.setLength p (m.length p - 4) := by
  unfold cspCrc32Verify
  by_cases hlen : m.length p < 4
  · rw [if_pos hlen]
    exact .inl rfl
  · rw [if_neg hlen]
    dsimp only
    split
    · exact .inl rfl
    · exact .inr ⟨by omega, rfl⟩

end HmBoard
