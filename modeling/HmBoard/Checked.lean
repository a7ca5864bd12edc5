import HmBoard.Csp.Crc32
import HmBoard.ReplyBuffer
import HmBoard.Station

/-!
# Checksummed packets in the router

The body of the router's loop, run to its end on a packet for this node whose header has
`CSP_FCRC32`. What the checksum does not vouch for leaves no trace: the packet is freed, and no
connection is made or written to (`router_drops`). What it does vouch for arrives without it
(`router_queues`).
-/

namespace HmBoard

open Lib

variable {B : Type} (crc32 : List UInt8 → BitVec 32) (x : Answers B)

/-- Code of the router, with nothing in between. -/
def Station.runRoute {α : Type} (code : RouteCode Ptr α) (s : Station B) : Station B × α :=
  Prog.run (fun s o => s.routeExec crc32 x o) code s

section

variable {α β : Type} (s : Station B)

theorem runRoute_bind (code : RouteCode Ptr α) (f : α → RouteCode Ptr β) :
    s.runRoute crc32 x (code >>= f) =
      (s.runRoute crc32 x code).1.runRoute crc32 x (f (s.runRoute crc32 x code).2) :=
  Prog.run_bind code f s

theorem runRoute_op (o : RouteOp Ptr) (f : o.Res → RouteCode Ptr β) :
    s.runRoute crc32 x (Prog.call o >>= f) =
      (s.routeExec crc32 x o).1.runRoute crc32 x (f (s.routeExec crc32 x o).2) := rfl

theorem runRoute_pktId (p : Ptr) (f : CspId → RouteCode Ptr β) :
    s.runRoute crc32 x (RouteCode.pktId p >>= f) = s.runRoute crc32 x (f (s.ram.id p.addr)) := rfl

theorem runRoute_connFind (id : BitVec 32) (f : Option ConnId → RouteCode Ptr β) :
    s.runRoute crc32 x (RouteCode.connFind id >>= f) =
      s.runRoute crc32 x (f (cspConnFind s.table id)) := rfl

theorem runRoute_socket (c : ConnId) (f : Bool → RouteCode Ptr β) :
    s.runRoute crc32 x (RouteCode.socket c >>= f) =
      s.runRoute crc32 x (f (s.table.conns c).socket) := rfl

theorem runRoute_pure (a : α) : s.runRoute crc32 x (pure a) = (s, a) := rfl

theorem runRoute_free (p : Ptr) :
    s.runRoute crc32 x (RouteCode.bufferFree p) = ({ s.freeAll [p] with routerHand := none }, ()) :=
  rfl

theorem runRoute_clearSocket (c : ConnId) :
    s.runRoute crc32 x (RouteCode.clearSocket c) =
      ({ s with table := s.table.set c { s.table.conns c with socket := false } }, ()) := rfl

end

/-- The packet at `p` is for this node, and says that it ends with a checksum. -/
structure CheckedHere (m : Ram) (p : Nat) : Prop where
  dst : (m.id p).dst.toNat = cspMyAddress ∨ (m.id p).dst.toNat = cspBroadcastAddr
  flag : (m.id p).flags &&& cspFcrc32 ≠ 0

variable {crc32} {s : Station B} {p : Ptr}

/-- The check of a packet without encryption. -/
theorem runRoute_check (hx : (s.ram.id p.addr).flags &&& cspFxtea = 0)
    (hflag : (s.ram.id p.addr).flags &&& cspFcrc32 ≠ 0) :
    s.runRoute crc32 x (cspRouteSecurityCheck p) =
      let t := cspCrc32Verify crc32 s.ram p.addr
      ({ s with ram := t.1 },
        if t.2 ≠ cspErrNone then cspErrCrc32
        else if (t.1.id p.addr).flags &&& cspFhmac ≠ 0 then cspErrNotsup else cspErrNone) := by
  rw [cspRouteSecurityCheck, runRoute_pktId, if_neg (not_not.2 hx), runRoute_pktId, if_pos hflag,
    runRoute_op]
  dsimp only [Station.routeExec]
  by_cases hr : (cspCrc32Verify crc32 s.ram p.addr).2 ≠ cspErrNone
  · rw [if_pos hr, if_pos hr, runRoute_pure]
  · rw [if_neg hr, if_neg hr, runRoute_pktId]
    by_cases hh : (Ram.id (cspCrc32Verify crc32 s.ram p.addr).1 p.addr).flags &&& cspFhmac ≠ 0
    · rw [if_pos hh, if_pos hh, runRoute_pure]
    · rw [if_neg hh, if_neg hh, runRoute_pure]

/-- The check of a packet whose checksum is wrong. -/
theorem runRoute_refused (hflag : (s.ram.id p.addr).flags &&& cspFcrc32 ≠ 0)
    (hv : cspCrc32Verify crc32 s.ram p.addr = (s.ram, cspErrInval)) :
    ∃ r < 0, s.runRoute crc32 x (cspRouteSecurityCheck p) = (s, r) := by
  by_cases hx : (s.ram.id p.addr).flags &&& cspFxtea = 0
  · refine ⟨cspErrCrc32, by decide, ?_⟩
    rw [runRoute_check x hx hflag, hv]
    rfl
  · refine ⟨cspErrNotsup, by decide, ?_⟩
    rw [cspRouteSecurityCheck, runRoute_pktId, if_pos hx, runRoute_pure]

/-- A packet for this node is delivered here. -/
theorem runRoute_here (interface : Iface) (h : CheckedHere s.ram p.addr) :
    s.runRoute crc32 x (cspTaskRouter interface p) = s.runRoute crc32 x (cspRouteDeliver p) := by
  have hhere : ¬ ((s.ram.id p.addr).dst.toNat ≠ cspMyAddress ∧
      (s.ram.id p.addr).dst.toNat ≠ cspBroadcastAddr) := by
    have := h.dst
    omega
  rw [cspTaskRouter, runRoute_pktId, if_neg hhere]

/-- Where no checksum vouches for it, the packet is freed and everything else is as before. -/
theorem router_drops (interface : Iface) (h : CheckedHere s.ram p.addr)
    (hv : cspCrc32Verify crc32 s.ram p.addr = (s.ram, cspErrInval)) :
    s.runRoute crc32 x (cspTaskRouter interface p) =
      ({ s.freeAll [p] with routerHand := none }, ()) := by
  obtain ⟨r, hr, hcheck⟩ := runRoute_refused x h.flag hv
  rw [runRoute_here x interface h, cspRouteDeliver, runRoute_pktId, runRoute_pktId,
    runRoute_connFind]
  cases cspConnFind s.table (s.ram.id p.addr).ext with
  | some c =>
    dsimp only
    rw [runRoute_bind, hcheck, if_pos hr, runRoute_free]
  | none =>
    dsimp only
    by_cases hb : (s.ram.id p.addr).dport.toNat ≤ cspAny
    · rw [if_neg (not_not.2 hb), runRoute_bind, hcheck, if_pos hr, runRoute_free]
    · rw [if_pos hb, runRoute_free]

/-- The packet is last in the queue of connection `c`, which was `conn` before, and the socket has
seen the connection. -/
def ConnTable.arrived (t : ConnTable Ptr) (c : ConnId) (conn : Conn Ptr) (p : Ptr) :
    ConnTable Ptr :=
  { t.set c { conn with rxQueue := conn.rxQueue ++ [p], socket := false } with
    backlog := if conn.socket then t.backlog ++ [c] else t.backlog }

/-- A packet for a connection with room; one that the socket has not seen is posted there. -/
theorem runRoute_udp {c : ConnId} (hroom : (s.table.conns c).rxQueue.length < cspConnQueueLength)
    (hseen : (s.table.conns c).socket = true → s.table.backlog.length < backlogLength) :
    s.runRoute crc32 x (cspUdpNewPacket c p) =
      ({ s with routerHand := none, table := s.table.arrived c (s.table.conns c) p }, ()) := by
  have henq : s.routeExec crc32 x (.connEnqueuePacket c p) =
      ({ s with
          routerHand := none
          table := s.table.set c
            { s.table.conns c with rxQueue := (s.table.conns c).rxQueue ++ [p] } },
        cspErrNone) := by
    have hq : cspConnEnqueuePacket s.table c p =
        (s.table.set c { s.table.conns c with rxQueue := (s.table.conns c).rxQueue ++ [p] },
          cspErrNone) := if_pos hroom
    simp only [Station.routeExec, hq]
    rfl
  rw [cspUdpNewPacket, runRoute_op, henq, if_neg (show ¬ cspErrNone < 0 by decide),
    runRoute_socket]
  simp only [ConnTable.set, if_true]
  cases hsocket : (s.table.conns c).socket with
  | false =>
    rw [if_neg Bool.false_ne_true, runRoute_pure]
    simp [ConnTable.arrived, ConnTable.set, hsocket]
  | true =>
    -- the socket has room for the connection
    rw [if_pos rfl, runRoute_op]
    simp only [Station.routeExec, if_pos (hseen hsocket)]
    rw [if_pos trivial, runRoute_clearSocket]
    simp only [ConnTable.arrived, ConnTable.set, hsocket, if_true]
    congr 3
    funext i
    split <;> rfl

/-- The connection that gets a packet, as it is before: its own, or else a new one
(csp_route.c:319-352). The last part is what a closed connection may have left in its queue. -/
def Station.connFor (s : Station B) (id : CspId) : Option (ConnId × Conn Ptr × List Ptr) :=
  match cspConnFind s.table id.ext with
  | some c => some (c, s.table.conns c, [])
  | none =>
    if id.dport.toNat ≤ cspAny then
      (cspConnAllocate s.table).map fun c =>
        (c, ⟨true, true, id, routeIdout id, [], true⟩, (s.table.conns c).rxQueue)
    else none

/-- Without flags that ask for more than a checksum, the packet is given to UDP. -/
theorem runRoute_transport {c : ConnId} (hr : (s.ram.id p.addr).flags &&& cspFrdp = 0) :
    s.runRoute crc32 x (cspRouteTransport c p) = s.runRoute crc32 x (cspUdpNewPacket c p) := by
  rw [cspRouteTransport, runRoute_pktId, if_neg (not_not.2 hr)]

/-- Where the checksum is right, the packet is cut and goes into the queue of its connection. -/
theorem router_queues (interface : Iface) (h : CheckedHere s.ram p.addr) {m : Ram}
    (hv : cspCrc32Verify crc32 s.ram p.addr = (m, cspErrNone)) (hid : m.id p.addr = s.ram.id p.addr)
    (hflags : (s.ram.id p.addr).flags &&& (cspFxtea ||| cspFhmac ||| cspFrdp) = 0)
    {c : ConnId} {conn : Conn Ptr} {left : List Ptr}
    (hconn : s.connFor (s.ram.id p.addr) = some (c, conn, left))
    (hroom : conn.rxQueue.length < cspConnQueueLength)
    (hseen : conn.socket = true → s.table.backlog.length < backlogLength) :
    let t := (s.runRoute crc32 x (cspTaskRouter interface p)).1
    t.ram = m ∧ t.pool = s.pool.freeAll (left.map (·.addr)) ∧
      t.table.conns = (s.table.arrived c conn p).conns ∧
      t.table.backlog = (s.table.arrived c conn p).backlog := by
  rw [BitVec.and_or_distrib_left, BitVec.and_or_distrib_left] at hflags
  obtain ⟨hxh, hr⟩ := BitVec.or_eq_zero_iff.1 hflags
  obtain ⟨hx, hh⟩ := BitVec.or_eq_zero_iff.1 hxh
  have hh : ¬ (s.ram.id p.addr).flags &&& cspFhmac ≠ 0 := not_not.2 hh
  have hcheck :
      s.runRoute crc32 x (cspRouteSecurityCheck p) = ({ s with ram := m }, cspErrNone) := by
    rw [runRoute_check x hx h.flag, hv]
    dsimp only
    rw [if_neg (by decide), hid, if_neg hh]
  have hneg : ¬ cspErrNone < 0 := by decide
  rw [runRoute_here x interface h, cspRouteDeliver, runRoute_pktId, runRoute_pktId,
    runRoute_connFind]
  unfold Station.connFor at hconn
  cases hfind : cspConnFind s.table (s.ram.id p.addr).ext with
  | some c' =>
    -- an open connection
    simp only [hfind, Option.some.injEq, Prod.mk.injEq] at hconn
    obtain ⟨rfl, rfl, rfl⟩ := hconn
    dsimp only
    rw [runRoute_bind, hcheck, if_neg hneg, runRoute_transport x (by rw [hid]; exact hr),
      runRoute_udp (s := { s with ram := m }) x hroom hseen]
    exact ⟨rfl, rfl, rfl, rfl⟩
  | none =>
    -- the first packet of a connection
    simp only [hfind] at hconn
    split at hconn
    case isFalse => cases hconn
    case isTrue hb =>
      obtain ⟨c', halloc, heq⟩ := Option.map_eq_some_iff.1 hconn
      simp only [Prod.mk.injEq] at heq
      obtain ⟨rfl, rfl, rfl⟩ := heq
      dsimp only
      rw [if_neg (not_not.2 hb), runRoute_bind, hcheck, if_neg hneg, runRoute_pktId, hid,
        runRoute_op]
      simp only [Station.routeExec, cspConnNew, halloc]
      rw [runRoute_op]
      simp only [Station.routeExec]
      rw [runRoute_transport x (by exact (congrArg (·.flags &&& cspFrdp) hid).trans hr),
        runRoute_udp]
      · refine ⟨rfl, rfl, ?_, ?_⟩
        · funext i
          simp only [ConnTable.arrived, ConnTable.set, if_true]
          split <;> rfl
        · simp [ConnTable.arrived, ConnTable.set]
      · simp [ConnTable.set]
        decide
      · intro _
        exact hseen rfl

/-- A packet whose payload was hit by a burst of up to 32 bits after its checksum was made is
freed, and the board is as if it had never come. -/
theorem damaged_packet_dropped (s : Station B) (x : Answers B) (interface : Iface) (p : Ptr)
    (h : CheckedHere s.ram p.addr) {d d' : List UInt8} (hb : Crc.Burst 32 d d')
    (hpay : s.ram.payload p.addr = d' ++ checksum cspCrc32Memory d) :
    s.runRoute cspCrc32Memory x (cspTaskRouter interface p) =
      ({ s.freeAll [p] with routerHand := none }, ()) :=
  router_drops x interface h (burst_refused s.ram p.addr hb hpay)

/-- What was handed to `csp_crc32_append` on another node, in the memory `m` there, is what the
reader of its connection finds here, be it the first packet of the connection or a later one. -/
theorem checked_packet_arrives (s : Station B) (x : Answers B) (interface : Iface) (p : Ptr)
    (m : Ram) (q : Nat) (hq : m.length q + 4 < 65536)
    (hsent : s.ram.packet p.addr = (cspCrc32Append cspCrc32Memory m q).packet q)
    (h : CheckedHere s.ram p.addr)
    (hflags : (s.ram.id p.addr).flags &&& (cspFxtea ||| cspFhmac ||| cspFrdp) = 0)
    {c : ConnId} {conn : Conn Ptr} {left : List Ptr}
    (hconn : s.connFor (s.ram.id p.addr) = some (c, conn, left))
    (hroom : conn.rxQueue.length < cspConnQueueLength)
    (hseen : conn.socket = true → s.table.backlog.length < backlogLength) :
    let t := (s.runRoute cspCrc32Memory x (cspTaskRouter interface p)).1
    t.ram.packet p.addr = m.packet q ∧
      t.table.conns c = { conn with rxQueue := conn.rxQueue ++ [p], socket := false } ∧
      t.table.backlog = (if conn.socket then s.table.backlog ++ [c] else s.table.backlog) ∧
      (∀ c' ≠ c, t.table.conns c' = s.table.conns c') ∧
      t.pool = s.pool.freeAll (left.map (·.addr)) := by
  rw [packet_crc32Append cspCrc32Memory m q hq] at hsent
  obtain ⟨hid, hpay⟩ := Packet.mk.inj hsent
  obtain ⟨hv, hpkt⟩ := intact_accepted s.ram p.addr hpay
  have hsame := Packet.mk.inj hpkt |>.1
  obtain ⟨hram, hpool, hconns, hbacklog⟩ :=
    router_queues x interface h hv hsame hflags hconn hroom hseen
  refine ⟨?_, ?_, hbacklog, ?_, hpool⟩
  · rw [hram, hpkt, hid]
    rfl
  · rw [hconns]
    simp [ConnTable.arrived, ConnTable.set]
  · intro c' hc'
    rw [hconns]
    simp [ConnTable.arrived, ConnTable.set, hc']

/-! ## A packet from the OBC -/

def checkedId : CspId :=
  { pri := 2, src := 1, dst := 6, dport := 20, sport := 30, flags := cspFcrc32 }

/-- The packet on the OBC, before the checksum. -/
def checkedRam : Ram :=
  Mem.write (Ram.setLength (Ram.setId (fun _ => 0) 0 checkedId) 0 3) 14 [1, 2, 3]

/-- It is in the memory of the board, and connection 2 is open for it. -/
def checkedStation (ram : Ram) : Station ExactCell :=
  { Station.boot ram ⟨.other, ⟨0, none⟩⟩ with
    table := ConnTable.set .init 2 ⟨true, true, checkedId, default, [], false⟩ }

theorem damaged_packet_dropped_byte :
    let ram := (cspCrc32Append cspCrc32Memory checkedRam 0).write 14 [7]
    ((checkedStation ram).runRoute cspCrc32Memory quietAnswers
      (cspTaskRouter .i2c ⟨0, none⟩)).1.table.packets = [] := by
  intro ram
  have hburst : Crc.Burst 32 [1, 2, 3] [7, 2, 3] :=
    ⟨by decide, [], Crc.byteBits 1, Crc.byteBits 7, Crc.bitsOf [2, 3], rfl, rfl, rfl, by decide⟩
  have h := damaged_packet_dropped (checkedStation ram) quietAnswers .i2c ⟨0, none⟩
    ⟨by decide +kernel, by decide +kernel⟩ hburst (by decide +kernel)
  rw [h]
  decide +kernel

/-- The first packet of a connection: it is the first in its queue, and the socket is told. -/
theorem checked_packet_arrives_three :
    let s : Station ExactCell :=
      Station.boot (cspCrc32Append cspCrc32Memory checkedRam 0) ⟨.other, ⟨0, none⟩⟩
    let t := (s.runRoute cspCrc32Memory quietAnswers (cspTaskRouter .i2c ⟨0, none⟩)).1
    t.ram.packet 0 = ⟨checkedId, [1, 2, 3]⟩ ∧ (t.table.conns 2).rxQueue = [⟨0, none⟩] ∧
      t.table.backlog = [2] := by
  intro s t
  have hid : s.ram.id 0 = checkedId := by decide +kernel
  have hnew : s.connFor (s.ram.id 0) =
      some (2, ⟨true, true, checkedId, routeIdout checkedId, [], true⟩, []) := by
    rw [hid]
    rfl
  have h := checked_packet_arrives s quietAnswers .i2c ⟨0, none⟩ checkedRam 0 (by decide +kernel)
    rfl ⟨by decide +kernel, by decide +kernel⟩ (by decide +kernel) hnew (by decide)
    fun _ => by decide
  obtain ⟨hpkt, hconn, hbacklog, -⟩ := h
  exact ⟨hpkt.trans (by decide +kernel), congrArg Conn.rxQueue hconn, hbacklog⟩

end HmBoard
