import HmBoard.Board
import HmBoard.Csp.Send
import HmBoard.ExactFloat
import HmBoard.Replies

/-!
# The frames of the replies

`mainTask` handling requests from the OBC, with the packets in memory: `outcomingPacket` is a
buffer of `CSP_BUFFER_SIZE` bytes at `out` that keeps whatever the sends before have left in it;
the rest of the memory is, at each request, what the receptions have made of it. `world` answers
the accesses that are not about packets, `accepts` says which calls of `i2c_send` succeed.

`text` is the text last copied into a packet and not yet sent, for an echo the payload of the
request; `accepted` collects the frames that the TWI master accepted, each with the request and
the text it replies with.
-/

namespace HmBoard

open Lib

variable {F B : Type}

structure ReplyFrame where
  request : Packet
  text : Option (List UInt8)
  frame : WireFrame

structure Desk (B : Type) where
  ram : Ram
  world : Nat → (o : Op B Nat) → o.Res
  accepts : Nat → Bool
  clock : Nat
  request : Packet
  text : Option (List UInt8)
  accepted : List ReplyFrame

/-- The frame the TWI master takes from a call of `csp_sendto`. -/
def SendResult.taken (t : SendResult) (accepts : Bool) : List WireFrame :=
  match t.outlet with
  | some (.i2c f) => if accepts then [f] else []
  | _ => []

variable (crc32 : List UInt8 → BitVec 32)

def Desk.exec (s : Desk B) : (o : Op B Nat) → Desk B × o.Res
  | .pktId p => (s, s.ram.id p)
  | .pktCopy p msg => ({ s with ram := s.ram.write (p + 14) (msg ++ [0]), text := some msg }, ())
  | .pktLength p n => ({ s with ram := s.ram.setLength p n }, ())
  | .cspSendto prio dest dport srcPort opts p _ =>
    let ok := s.accepts s.clock
    let t := cspSendto crc32 boardRoutes ok prio dest dport srcPort opts s.ram p
    ({ s with
        ram := t.ram, clock := s.clock + 1, text := none
        accepted := s.accepted ++ (t.taken ok).map fun f => ⟨s.request, s.text, f⟩ }, t.err)
  | o => ({ s with clock := s.clock + 1 }, s.world s.clock o)

/-- A request in the event queue: its packet lies at `addr`, and `rest` is the memory then. -/
structure Request where
  event : EventType
  addr : Nat
  rest : Ram

def Request.packet (r : Request) : Packet := r.rest.packet r.addr

/-- A request the OBC has sent to the board over I2C (at most 72 bytes with its header), which
lies outside `outcomingPacket`. -/
structure Request.FromObc (out : Nat) (r : Request) : Prop where
  src : r.packet.id.src.toNat = cspObcAddress
  dst : r.packet.id.dst.toNat = cspMyAddress
  len : r.rest.length r.addr + 4 ≤ 72
  apart : r.addr + cspBufferPacketOverhead + r.rest.length r.addr ≤ out ∨
    out + cspBufferSize ≤ r.addr

/-- `mainTask` takes a request: all memory but `outcomingPacket` has changed meanwhile. -/
def Desk.receive (out : Nat) (s : Desk B) (r : Request) : Desk B :=
  { s with
    ram := fun x => if out ≤ x ∧ x < out + cspBufferSize then s.ram x else r.rest x
    request := r.packet
    text := if r.event = .echoBackEvent then some r.packet.data else none }

variable [Cell B] [FloatFormat F B]

def Desk.serve (sincos : Nat → F) (out : Nat) (s : Desk B) (r : Request) : Desk B :=
  (Prog.run (Desk.exec crc32) (handle sincos out ⟨r.event, r.addr⟩) (s.receive out r)).1

/-- The header of a reply. -/
def replyId (request : CspId) : CspId where
  pri := .ofNat 2 cspPrioNorm
  src := .ofNat 5 cspMyAddress
  dst := request.src
  dport := request.sport
  sport := request.dport
  flags := 0

/-- The frame is addressed to the OBC and consists of the header of the reply and its text. -/
def ReplyFrame.Framed (x : ReplyFrame) : Prop :=
  ∃ text, x.text = some text ∧
    x.frame = ⟨UInt8.ofNat cspI2cObcAddress, (replyId x.request.id).wire ++ text⟩

/-! ## One reply -/

variable {out : Nat} {r : Request}

section

omit [Cell B] [FloatFormat F B]

/-- While `r` is served: the request is as it came, and all frames so far are right. -/
structure Desk.Serving (s : Desk B) (r : Request) : Prop where
  request : s.request = r.packet
  intact : s.ram.packet r.addr = r.packet
  framed : ∀ x ∈ s.accepted, x.Framed

/-- What the monitor of a reply says about the memory. -/
def TalkPhase.Holds (out : Nat) (r : Request) (m : TalkPhase) (s : Desk B) : Prop :=
  s.Serving r ∧
  match m with
  | .idle => True
  | .copied msg => Fits msg ∧ s.text = some msg ∧ s.ram.read (out + 14) msg.length = msg
  | .sized msg => Fits msg ∧ s.text = some msg ∧ s.ram.payload out = msg
  | .addressed msg id =>
    Fits msg ∧ s.text = some msg ∧ s.ram.payload out = msg ∧ id = r.packet.id

/-- Writing to `outcomingPacket` leaves the request alone. -/
theorem Desk.Serving.write {s s' : Desk B} (h : s.Serving r) (hr : r.FromObc out)
    (hm : Mem.SameOutside out cspBufferSize s.ram s'.ram) (hq : s'.request = s.request)
    (ha : ∀ x ∈ s'.accepted, x ∈ s.accepted ∨ x.Framed) : s'.Serving r := by
  constructor
  · rw [hq, h.request]
  · have hlen : s.ram.length r.addr = r.rest.length r.addr := by
      have := congrArg (List.length ∘ Packet.data) h.intact
      simpa [Ram.packet, Ram.payload, Request.packet] using this
    rw [Ram.packet_congr (m := s.ram), h.intact]
    intro x h1 h2
    rw [hlen] at h2
    apply hm x
    have hap := hr.apart
    simp only [cspBufferPacketOverhead] at hap
    omega
  · intro x hx
    rcases ha x hx with hx | hx
    · exact h.framed x hx
    · exact hx

theorem sendtoId_reply (id : CspId) :
    sendtoId cspPrioNorm id.src.toNat id.sport.toNat id.dport.toNat = replyId id := by
  simp [sendtoId, replyId]

/-- A call of `csp_sendto` with a packet for the OBC, whatever its header holds. -/
theorem desk_send (timeout : Nat) {s s' : Desk B} {p : Nat} {id : CspId} {msg : List UInt8}
    (hsrc : id.src.toNat = cspObcAddress) (hp : s.ram.payload p = msg) (hm : msg.length < 252)
    (hid : s.request.id = id) (ht : s.text = some msg)
    (hs : (s.exec crc32 (.cspSendto cspPrioNorm id.src.toNat id.sport.toNat id.dport.toNat
      cspONone p timeout)).1 = s') :
    Mem.SameOutside p 14 s.ram s'.ram ∧ s'.request = s.request ∧
      ∀ x ∈ s'.accepted, x ∈ s.accepted ∨ x.Framed := by
  have hlen : s.ram.length p < 252 := by
    have := congrArg List.length hp
    simp only [Ram.payload, Mem.length_read] at this
    omega
  obtain ⟨m', hsend, hsame⟩ := cspSendto_obc crc32 (s.accepts s.clock) cspPrioNorm
    id.sport.toNat id.dport.toNat s.ram p hlen
  rw [← hsrc, sendtoId_reply, hp] at hsend
  simp only [Desk.exec, hsend, SendResult.taken] at hs
  subst hs
  refine ⟨hsame, rfl, fun x hx => ?_⟩
  rcases List.mem_append.1 hx with hx | hx
  · exact .inl hx
  · obtain ⟨f, hf, rfl⟩ := List.mem_map.1 hx
    have hf : f = ⟨1, (replyId id).wire ++ msg⟩ := by
      split at hf <;> simp_all
    exact .inr ⟨msg, ht, by rw [hf, hid]; rfl⟩

/-- Every access that the pattern of a reply allows. -/
theorem desk_access (hr : r.FromObc out) (m : TalkPhase) (s : Desk B) (o : Op B Nat)
    (h : m.Holds out r s) (ho : m.Ok out r.addr o) :
    (m.next o (s.exec crc32 o).2).Holds out r (s.exec crc32 o).1 := by
  obtain ⟨hs, hm⟩ := h
  cases m with
  | idle =>
    cases o with
    | pktCopy p msg =>
      obtain ⟨rfl, hfit⟩ := ho
      refine ⟨hs.write hr ?_ rfl fun x hx => .inl hx, hfit, rfl, ?_⟩
      · have hlt : msg.length < 72 := hfit
        refine Mem.sameOutside_write _ (by omega) ?_
        simp only [List.length_append, List.length_singleton, cspBufferSize]
        omega
      · show Mem.read (s.ram.write (p + 14) (msg ++ [0])) (p + 14) msg.length = msg
        have h := Mem.read_write_self s.ram (p + 14) (msg ++ [0])
        rw [← Mem.take_read (i := msg.length) _ _ (Nat.le_succ _)]
        rw [List.length_append, List.length_singleton] at h
        rw [h, List.take_left]
    | _ => first | exact ho.elim | exact ⟨⟨hs.request, hs.intact, hs.framed⟩, trivial⟩
  | copied msg =>
    obtain ⟨hfit, ht, hread⟩ := hm
    cases ho
    have hlt : msg.length < 72 := hfit
    have hlen : (s.ram.setLength out msg.length).length out = msg.length :=
      Ram.length_setLength s.ram out (by omega)
    refine ⟨hs.write hr ?_ rfl fun x hx => .inl hx, hfit, ht, ?_⟩
    · exact Mem.sameOutside_write _ (by omega) (by simp [cspBufferSize])
    · show (s.ram.setLength out msg.length).payload out = msg
      rw [Ram.payload, hlen, Ram.setLength, Mem.read_write_disjoint _ (.inr (by simp)), hread]
  | sized msg =>
    obtain ⟨hfit, ht, hpay⟩ := hm
    cases ho
    have hid : s.ram.id r.addr = r.packet.id := congrArg Packet.id hs.intact
    exact ⟨hs, hfit, ht, hpay, hid⟩
  | addressed msg id =>
    obtain ⟨hfit, ht, hpay, rfl⟩ := hm
    obtain ⟨timeout, rfl⟩ := ho
    have hlt : msg.length < 72 := hfit
    obtain ⟨h1, h2, h3⟩ := desk_send crc32 timeout hr.src hpay (by omega)
      (congrArg Packet.id hs.request) ht rfl
    refine ⟨hs.write hr ?_ h2 h3, trivial⟩
    intro x hx
    exact h1 x (by simp only [cspBufferSize] at hx; omega)

/-! ## Requests -/

theorem receive_serving (hr : r.FromObc out) {s : Desk B} (h : ∀ x ∈ s.accepted, x.Framed) :
    (s.receive out r).Serving r := by
  refine ⟨rfl, ?_, h⟩
  refine Ram.packet_congr fun x h1 h2 => if_neg ?_
  have hap := hr.apart
  simp only [cspBufferPacketOverhead] at hap
  omega

theorem run_toggleOnSuccess (err : Int) (s : Desk B) :
    (Prog.run (Desk.exec crc32) (toggleOnSuccess err) s).1.accepted = s.accepted := by
  unfold toggleOnSuccess
  by_cases h : err = cspErrNone
  · rw [if_pos h]
    rfl
  · rw [if_neg h]
    rfl

/-- The echo sends the request, whose header it rewrites, with its own payload. -/
theorem echo_framed (hr : r.FromObc out) {s : Desk B} (hs : s.Serving r)
    (ht : s.text = some r.packet.data) :
    ∀ x ∈ (Prog.run (Desk.exec crc32) (echoBack r.addr) s).1.accepted, x.Framed := by
  have hid : s.ram.id r.addr = r.packet.id := congrArg Packet.id hs.intact
  have hpay : s.ram.payload r.addr = r.packet.data := congrArg Packet.data hs.intact
  have hlen : r.packet.data.length < 252 := by
    have := hr.len
    simp only [Request.packet, Ram.packet, Ram.payload, Mem.length_read]
    omega
  obtain ⟨-, -, h3⟩ := desk_send crc32 1000 hr.src hpay hlen
    (congrArg Packet.id hs.request) ht rfl
  intro x hx
  simp only [echoBack, Prog.bind_eq, Prog.call_bind, Prog.run_op, Desk.exec, hid] at hx
  rw [run_toggleOnSuccess] at hx
  rcases h3 x hx with hx | hx
  · exact hs.framed x hx
  · exact hx

end

/-- The step lemma: serving a request adds only right frames. -/
theorem serve_framed (sincos : Nat → F) (hr : r.FromObc out) {s : Desk B}
    (h : ∀ x ∈ s.accepted, x.Framed) : ∀ x ∈ (s.serve crc32 sincos out r).accepted, x.Framed := by
  have hs := receive_serving hr h
  by_cases he : r.event = .echoBackEvent
  · have ht : (s.receive out r).text = some r.packet.data := if_pos he
    have hecho : handle sincos out ⟨r.event, r.addr⟩ = (echoBack r.addr : Fw B Nat Unit) := by
      rw [he]
      rfl
    rw [Desk.serve, hecho]
    exact echo_framed crc32 hr hs ht
  · have htalk : Talk out r.addr (handle sincos out ⟨r.event, r.addr⟩ : Fw B Nat Unit) :=
      talk_handle sincos (e := ⟨r.event, r.addr⟩) he
    obtain ⟨m, rfl, hend, -⟩ := htalk.watch.run (fun m s => m.Holds out r s)
      (fun m s o => desk_access crc32 hr m s o) ⟨hs, trivial⟩
    exact hend.framed

/-- **Framing.** Over every sequence of requests from the OBC, whatever else the board is answered
and whichever sends succeed, every frame the TWI master accepts goes to the OBC and is the header
of its reply followed by exactly the text of this reply. -/
theorem replies_framed (sincos : Nat → F) (out : Nat) (s : Desk B) (h0 : s.accepted = [])
    (rs : List Request) (hr : ∀ r ∈ rs, r.FromObc out) :
    ∀ x ∈ (rs.foldl (Desk.serve crc32 sincos out) s).accepted, x.Framed := by
  have hrun : ∀ (rs : List Request) (s : Desk B), (∀ r ∈ rs, r.FromObc out) →
      (∀ x ∈ s.accepted, x.Framed) →
      ∀ x ∈ (rs.foldl (Desk.serve crc32 sincos out) s).accepted, x.Framed := by
    intro rs
    induction rs with
    | nil => exact fun s _ h => h
    | cons r rs ih =>
      intro s hr h
      exact ih _ (fun r' h' => hr r' (.tail _ h')) (serve_framed crc32 sincos (hr r (.head _)) h)
  exact hrun rs s hr (by simp [h0])

/-- A request for the temperature, at address 1000. -/
def temperatureRequest : Request where
  event := .freeHeapEvent
  addr := 1000
  rest := Ram.setId (Ram.setLength (fun _ => 7) 1000 0) 1000
    { pri := 1, src := 1, dst := 6, dport := 16, sport := 33, flags := 0 }

/-- Everything reads 0, and the first send fails. -/
def coldDesk : Desk ExactCell where
  ram _ := 0xAA
  world _ o := ((Board.rest fun _ => byte 0).exec o).2
  accepts n := n != 2
  clock := 0
  request := ⟨.ofExt 0, []⟩
  text := none
  accepted := []

theorem replies_framed_twice :
    ∃ x, ([temperatureRequest, temperatureRequest].foldl
        (Desk.serve (fun _ => 0) exactSincos 0) coldDesk).accepted = [x] ∧
      x.text = some (lit "0.0\n") ∧ x.Framed := by
  have hr : temperatureRequest.FromObc 0 := ⟨rfl, rfl, by decide, .inr (by decide)⟩
  have hall := replies_framed (fun _ => 0) exactSincos 0 coldDesk rfl
    [temperatureRequest, temperatureRequest] (by simp [hr])
  obtain ⟨x, hx, ht⟩ : ∃ x, ([temperatureRequest, temperatureRequest].foldl
      (Desk.serve (fun _ => 0) exactSincos 0) coldDesk).accepted = [x] ∧
        x.text = some (lit "0.0\n") := ⟨_, rfl, rfl⟩
  refine ⟨x, hx, ht, hall x ?_⟩
  rw [hx]
  exact .head _

end HmBoard
