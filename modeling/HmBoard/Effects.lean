import HmBoard.Station
import Mathlib.Data.List.Perm.Subperm

/-!
# What a step of the station can do

To the memory, the pool and the pointers pending a step of the station is one of a few effects
(`Station.Effect`): what is pending moves from one holder to another, a task rewrites the packet in
its hand, a frame is received, `mainTask` uses `outcomingPacket`. Pointers are counted, since the
same one can be pending twice.
-/

namespace HmBoard

open Lib

variable {F B : Type}

/-- The destination and the packet of the `csp_sendto` that `mainTask` is about to call. -/
def Station.sends (s : Station B) : Option (Nat × Ptr) :=
  match s.main with
  | .handler (.op (.cspSendto _ dest _ _ _ p _) _) => some (dest, p)
  | _ => none

/-- `mainTask` is about to send `outcomingPacket` to a node that is reached over the loopback
interface. -/
def Station.LoopsReply (s : Station B) : StationLabel B → Prop
  | .main _ => ∃ t, t ∈ s.sends ∧ t.2 = s.outPtr ∧
      (s.routes.routeIf (BitVec.ofNat 5 t.1).toNat).map (·.interface) = some .lo
  | _ => False

/-- The router is about to verify a checksum. -/
def Station.Verifies (s : Station B) : StationLabel B → Prop
  | .route _ => ∃ p k, s.router = some (.op (.crc32Verify p) k)
  | _ => False

/-- What a step on a label does to the memory, the pool and the pointers pending. -/
inductive Station.Effect (s : Station B) :
    StationLabel B → Ram → BufferPool → List Ptr → Prop where
  /-- Pointers move, are freed or are dropped. -/
  | move {l : StationLabel B} {pend : List Ptr} (freed : List Ptr) (hfreed : freed ⊆ s.pending)
      (hpend : pend.Subperm s.pending) :
      Effect s l s.ram (s.pool.freeAll (freed.map (·.addr))) pend
  /-- A task rewrites the packet in its hand, and keeps it, drops it or gives it away. -/
  | rewrite {l : StationLabel B} {ram : Ram} {pend : List Ptr} (p : Ptr) (freed : List Ptr)
      (hp : p ∈ s.pending) (hfreed : ∀ q ∈ freed, q.addr = p.addr)
      (hram : Mem.SameOutside p.addr i2cFrameSize s.ram ram)
      (hpend : pend.Subperm (⟨p.addr, none⟩ :: s.pending.erase p)) :
      Effect s l ram (s.pool.freeAll (freed.map (·.addr))) pend
  /-- The router strips the checksum. -/
  | strip {x : Answers B} (p : Ptr) (hp : s.routerHand = some p) (hverifies : s.Verifies (.route x))
      (hlen : 4 ≤ s.ram.length p.addr) :
      Effect s (.route x) (s.ram.setLength p.addr (s.ram.length p.addr - 4)) s.pool s.pending
  /-- A frame is received. -/
  | receive {a : Nat} {frame : List UInt8} {pend : List Ptr} (freed : List Ptr) (hoff : OffPool a)
      (hlen : frame.length ≤ twisReceiveBufferSize) (hfreed : ∀ q ∈ freed, q.addr = a)
      (hpend : pend.Subperm (⟨a, some (framePacket frame)⟩ :: s.pending))
      (hrefused : (cspI2cRx (storeFrame s.ram a frame) a).2 = false → pend = s.pending) :
      Effect s (.receive a frame) (cspI2cRx (storeFrame s.ram a frame) a).1
        (s.pool.freeAll (freed.map (·.addr))) pend
  | other (a : Nat) (bs : List UInt8) : Effect s (.other a bs) (s.ram.write a bs) s.pool s.pending
  /-- `mainTask` writes to `outcomingPacket`, or sends it over I2C. -/
  | reply {x : Answers B} {ram : Ram} {pend : List Ptr}
      (hram : Mem.SameOutside s.outPtr.addr i2cFrameSize s.ram ram)
      (hpend : pend.Subperm s.pending) : Effect s (.main x) ram s.pool pend
  /-- `mainTask` sends `outcomingPacket` over the loopback interface. -/
  | loop {x : Answers B} {ram : Ram} {pend : List Ptr} (freed : List Ptr)
      (hloop : s.LoopsReply (.main x)) (hfreed : ∀ q ∈ freed, q = s.outPtr)
      (hram : Mem.SameOutside s.outPtr.addr i2cFrameSize s.ram ram)
      (hpend : pend.Subperm (s.outPtr :: s.pending)) :
      Effect s (.main x) ram (s.pool.freeAll (freed.map (·.addr))) pend
  /-- `mainTask` gets `outcomingPacket`. -/
  | get {x : Answers B} (hmain : s.main = .start) :
      Effect s (.main x) s.ram (cspBufferGet s.pool cspPacketSize).1 s.pending

/-! ## The pointers pending -/

variable {crc32 : List UInt8 → BitVec 32} {s s' : Station B} {x : Answers B}

theorem subperm_of_count {l l' : List Ptr} (h : ∀ q, l.count q ≤ l'.count q) : l.Subperm l' :=
  List.subperm_ext_iff.2 fun q _ => h q

theorem count_pending (s : Station B) (q : Ptr) : s.pending.count q =
    (s.fifo.map (·.2)).count q + s.routerHand.toList.count q + s.table.packets.count q +
      s.cspHand.toList.count q + (s.eventQueue.map (·.pvData)).count q +
      s.mainHand.toList.count q := by
  simp only [Station.pending, List.count_append]

/-- A pointer replaced by another. -/
theorem subperm_replace {l l' : List Ptr} {p p' : Ptr} (hp : p ∈ l')
    (h : ∀ q, l.count q + [p].count q ≤ l'.count q + [p'].count q) :
    l.Subperm (p' :: l'.erase p) := by
  refine subperm_of_count fun q => ?_
  have hq := h q
  have hpos : 0 < l'.count p := List.count_pos_iff.2 hp
  rw [List.count_cons, List.count_erase]
  simp only [List.count_cons, List.count_nil] at hq
  by_cases hpq : p = q
  · subst hpq
    simp only [beq_self_eq_true, if_true] at hq ⊢
    omega
  · simp only [beq_iff_eq, hpq, if_false] at hq ⊢
    omega

/-- A full FIFO frees the packet. -/
theorem newPacket_spec (s : Station B) (interface : Iface) (p : Ptr) :
    ∃ fifo freed, s.newPacket interface p = { s.freeAll freed with fifo := fifo } ∧
      (∀ q ∈ freed, q = p) ∧
      ∀ q, (fifo.map (·.2)).count q ≤ (s.fifo.map (·.2)).count q + [p].count q := by
  unfold Station.newPacket
  by_cases h : s.fifo.length < cspFifoInput
  · rw [if_pos h]
    refine ⟨_, [], rfl, by simp, fun q => ?_⟩
    rw [List.map_append, List.count_append]
    rfl
  · rw [if_neg h]
    refine ⟨s.fifo, [p], rfl, by simp, fun q => Nat.le_add_right _ _⟩

theorem loopback_spec (s : Station B) (p : Ptr) (t : SendResult) :
    ∃ fifo freed, s.loopback p t = { s.freeAll freed with fifo := fifo } ∧
      (∀ q ∈ freed, q = ⟨p.addr, none⟩) ∧
      (∀ q, (fifo.map (·.2)).count q ≤
        (s.fifo.map (·.2)).count q + [(⟨p.addr, none⟩ : Ptr)].count q) ∧
      (t.outlet = some .lo ∨ fifo = s.fifo ∧ freed = []) := by
  unfold Station.loopback
  split
  · next hlo =>
    obtain ⟨fifo, freed, h1, h2, h3⟩ := newPacket_spec s .lo ⟨p.addr, none⟩
    exact ⟨fifo, freed, h1, h2, h3, .inl hlo⟩
  · exact ⟨s.fifo, [], rfl, by simp, fun q => Nat.le_add_right _ _, .inr ⟨rfl, rfl⟩⟩

theorem loopback_addr {p q : Ptr} (h : p.addr = q.addr) (t : SendResult) :
    s.loopback p t = s.loopback q t := by
  rw [Station.loopback, Station.loopback, h]

theorem sameOutside_within (m scratch : Ram) (p n : Nat) :
    Mem.SameOutside p n m (Ram.within m scratch p n) := by
  intro x hx
  exact if_neg (by omega)

theorem mem_pending_router {h : Ptr} (hh : s.routerHand = some h) : h ∈ s.pending := by
  simp [Station.pending, hh]

theorem mem_pending_csp {h : Ptr} (hh : s.cspHand = some h) : h ∈ s.pending := by
  simp [Station.pending, hh]

theorem mem_pending_main {h : Ptr} (hh : s.mainHand = some h) : h ∈ s.pending := by
  simp [Station.pending, hh]

/-- A step that moves no pointer. -/
theorem effect_quiet {l : StationLabel B} {pend : List Ptr}
    (h : ∀ q, pend.count q ≤ s.pending.count q) : s.Effect l s.ram s.pool pend :=
  .move [] (List.nil_subset _) (subperm_of_count h)

/-! ## Packets that leave a hand -/

/-- A connection's packets are freed. -/
theorem effect_flush {l : StationLabel B} (c : ConnId) (conn : Conn Ptr) (h : conn.rxQueue = []) :
    s.Effect l s.ram (s.pool.freeAll ((s.table.conns c).rxQueue.map (·.addr)))
      { s with table := s.table.set c conn }.pending := by
  have hcount := fun q => count_packets_set s.table q c conn
  simp only [h, List.count_nil] at hcount
  refine .move _ ?_ (subperm_of_count fun q => ?_)
  · intro q hq
    have hmem : q ∈ s.table.packets := List.mem_flatMap.2 ⟨c, List.mem_finRange c, hq⟩
    simp [Station.pending, hmem]
  · have hq := hcount q
    rw [count_pending, count_pending]
    dsimp only
    omega

/-- The packet in the router's hand goes into a connection. -/
theorem effect_enqueue {l : StationLabel B} (c : ConnId) (conn : Conn Ptr) {p : Ptr}
    (hh : s.routerHand = some p) (h : conn.rxQueue = (s.table.conns c).rxQueue ++ [p]) :
    s.Effect l s.ram s.pool
      { s with table := s.table.set c conn, routerHand := none }.pending := by
  refine effect_quiet fun q => ?_
  have hset := count_packets_set s.table q c conn
  rw [h, List.count_append] at hset
  rw [count_pending, count_pending, hh]
  simp only [Option.toList_some, Option.toList_none, List.count_nil]
  omega

theorem loopback_frame (s : Station B) (p : Ptr) (t : SendResult) :
    ∃ pool fifo, s.loopback p t = { s with pool := pool, fifo := fifo } := by
  obtain ⟨fifo, freed, h, -⟩ := loopback_spec s p t
  exact ⟨_, fifo, h⟩

/-- A packet in a hand goes to an interface: `s₁` is the state before `csp_lo_tx`, in which the hand
holds `kept`. -/
theorem effect_send {l : StationLabel B} (s₁ : Station B) {h : Ptr} (hh : h ∈ s.pending)
    (hpool : s₁.pool = s.pool) (hram : Mem.SameOutside h.addr i2cFrameSize s.ram s₁.ram)
    (t : SendResult) (kept : Option Ptr) (hkept : kept = none ∨ kept = some ⟨h.addr, none⟩)
    (hlo : t.outlet = some .lo → kept = none)
    (hcount : ∀ q, s₁.pending.count q + [h].count q ≤ s.pending.count q + kept.toList.count q) :
    s.Effect l (s₁.loopback h t).ram (s₁.loopback h t).pool (s₁.loopback h t).pending := by
  obtain ⟨fifo, freed, heq, hfreed, hfifo, hcase⟩ := loopback_spec s₁ h t
  rw [heq]
  have hp : ({ s₁.freeAll freed with fifo := fifo } : Station B).pool =
      s.pool.freeAll (freed.map (·.addr)) := by
    rw [← hpool]
    rfl
  rw [hp]
  refine .rewrite h freed hh (fun q hq => by rw [hfreed q hq]) hram ?_
  refine subperm_replace hh fun q => ?_
  have hq := hcount q
  have hf := hfifo q
  rw [count_pending] at hq ⊢
  simp only [Station.freeAll] at hq ⊢
  rcases hcase with hl | ⟨rfl, -⟩
  · rw [hlo hl] at hq
    simp only [Option.toList_none, List.count_nil] at hq
    omega
  · rcases hkept with rfl | rfl
    · simp only [Option.toList_none, List.count_nil] at hq
      omega
    · simp only [Option.toList_some] at hq
      omega

/-- The packet in a hand is freed. -/
theorem effect_free {l : StationLabel B} {h p : Ptr} {pend : List Ptr} (hh : h ∈ s.pending)
    (ha : h.addr = p.addr) (hcount : ∀ q, pend.count q ≤ s.pending.count q) :
    s.Effect l s.ram (s.pool.freeAll [p.addr]) pend := by
  have hfreed : [p.addr] = [h].map (·.addr) := by rw [← ha]; rfl
  rw [hfreed]
  exact .move [h] (by simpa using hh) (subperm_of_count hcount)

/-- What a hand holds after `csp_send_direct`. -/
def keptAfter (p : Ptr) (t : SendResult) : Option Ptr :=
  if t.err = cspErrNone then none else some ⟨p.addr, none⟩

/-- A packet in a hand goes to `csp_send_direct`: `s₁` is the state before `csp_lo_tx`. -/
theorem effect_sendDirect {l : StationLabel B} (s₁ : Station B) {h p : Ptr} {idout : CspId}
    {ram scratch : Ram} {accepts : Bool} (hh : h ∈ s.pending) (ha : h.addr = p.addr)
    (hpool : s₁.pool = s.pool) (hram : s₁.ram = Ram.within s.ram scratch p.addr i2cFrameSize)
    (hcount : ∀ q, s₁.pending.count q + [h].count q ≤ s.pending.count q +
      (keptAfter p (cspSendDirect crc32 s.routes accepts idout ram p.addr)).toList.count q) :
    let t := cspSendDirect crc32 s.routes accepts idout ram p.addr
    s.Effect l (s₁.loopback p t).ram (s₁.loopback p t).pool (s₁.loopback p t).pending := by
  intro t
  rw [← loopback_addr ha]
  refine effect_send s₁ hh hpool ?_ t (keptAfter p t) ?_ (fun hl => ?_) hcount
  · rw [hram, ha]
    exact sameOutside_within _ _ _ _
  · rw [ha, keptAfter]
    by_cases he : t.err = cspErrNone
    · exact .inl (if_pos he)
    · exact .inr (if_neg he)
  · exact if_pos (cspSendDirect_lo crc32 hl)

/-- `csp_service_handler` rewrites its packet and keeps it. -/
theorem effect_rewriteHeld {l : StationLabel B} {h p : Ptr} (hh : s.cspHand = some h)
    (ha : h.addr = p.addr) {ram : Ram} (hram : Mem.SameOutside p.addr i2cFrameSize s.ram ram)
    (routes : Routes) :
    s.Effect l ram s.pool
      { s with ram := ram, routes := routes, cspHand := some ⟨p.addr, none⟩ }.pending := by
  rw [← ha] at hram ⊢
  refine .rewrite h [] (mem_pending_csp hh) nofun hram ?_
  refine subperm_replace (mem_pending_csp hh) fun q => ?_
  rw [count_pending, count_pending, hh]
  simp only [Option.toList_some]
  omega

theorem effect_reply {ram : Ram} {hand' : Option Ptr}
    (hram : Mem.SameOutside s.outPtr.addr i2cFrameSize s.ram ram)
    (hhand : hand' = s.mainHand ∨ hand' = none) :
    s.Effect (.main x) ram s.pool { s with ram := ram, mainHand := hand' }.pending := by
  refine .reply hram (subperm_of_count fun q => ?_)
  rw [count_pending, count_pending]
  rcases hhand with rfl | rfl
  · exact le_rfl
  · simp only [Option.toList_none, List.count_nil]
    omega

/-- `csp_sendto` of `outcomingPacket`, or of the request, in the hand of `mainTask`. -/
theorem effect_mainSend {prio dest dport srcPort timeout : Nat} {p : Ptr}
    {k : Int → Fw B Ptr Unit} {hand' : Option Ptr}
    (hm : s.main = .handler (.op (.cspSendto prio dest dport srcPort cspONone p timeout) k))
    (hp : s.mainHand = some p ∧ hand' = none ∨
      p = s.outPtr ∧ (hand' = s.mainHand ∨ hand' = none)) :
    let t := cspSendto crc32 s.routes x.accepts prio dest dport srcPort cspONone s.ram p.addr
    let s₁ := { s with ram := t.ram, mainHand := hand' }
    s.Effect (.main x) (s₁.loopback p t).ram (s₁.loopback p t).pool (s₁.loopback p t).pending := by
  intro t s₁
  have hram : Mem.SameOutside p.addr i2cFrameSize s.ram t.ram := by
    have hsize : i2cFrameSize = 265 := rfl
    have hsame :=
      sameOutside_cspSendto crc32 s.routes x.accepts prio dest dport srcPort s.ram p.addr
    intro y hy
    exact hsame y (by omega)
  rcases hp with ⟨hh, rfl⟩ | ⟨rfl, hhand⟩
  · refine effect_send s₁ (mem_pending_main hh) rfl hram t none (.inl rfl) (fun _ => rfl) fun q => ?_
    rw [count_pending, count_pending, hh]
    simp only [s₁, Option.toList_some, Option.toList_none, List.count_nil]
    omega
  · obtain ⟨fifo, freed, heq, hfreed, hfifo, hcase⟩ := loopback_spec s₁ s.outPtr t
    rw [heq]
    rcases hcase with hl | ⟨rfl, rfl⟩
    · have hsends : s.sends = some (dest, s.outPtr) := by rw [Station.sends, hm]
      refine .loop freed ⟨_, hsends, rfl, cspSendto_lo crc32 hl⟩ hfreed hram ?_
      refine subperm_of_count fun q => ?_
      have hf := hfifo q
      rw [List.count_cons, count_pending, count_pending]
      simp only [Station.freeAll, s₁] at hf ⊢
      have hout : [(⟨s.outPtr.addr, none⟩ : Ptr)].count q = if s.outPtr == q then 1 else 0 := by
        rw [List.count_singleton]
        rfl
      rw [hout] at hf
      rcases hhand with rfl | rfl
      · omega
      · simp only [Option.toList_none, List.count_nil]
        omega
    · exact effect_reply hram hhand

end HmBoard
