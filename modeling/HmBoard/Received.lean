import HmBoard.ReplyBuffer

/-!
# Received packets

`newFrame` is an automatic variable of the interrupt, and the pointer to it outlives it: through
the FIFO, a connection and the event queue, up to `mainTask`. What is read through it is what was
received as long as nothing is stored there in the meantime, neither by another reception nor by
anything else that uses the stack (`Station.Spoils`). The tasks themselves do no harm: each writes to
the packet in its hand, or to `outcomingPacket`, and no two received packets overlap
(`received_kept`).
-/

namespace HmBoard

open Lib

variable {F B : Type}

/-! ## The storage -/

/-- `[a, a + n)` and `[b, b + k)` have a byte in common. -/
def Overlap (a n b k : Nat) : Prop := a < b + k ∧ b < a + n

instance (a n b k : Nat) : Decidable (Overlap a n b k) := inferInstanceAs (Decidable (_ ∧ _))

/-- The packets do not share storage, or both are `outcomingPacket`. -/
def Ptr.Apart (p q : Ptr) : Prop :=
  ¬ Overlap p.addr i2cFrameSize q.addr i2cFrameSize ∨ p.addr = replyBuffer ∧ q.addr = replyBuffer

/-- A packet without the checksum at its end. -/
def Packet.stripped (f : Packet) : Packet := { f with data := f.data.take (f.data.length - 4) }

namespace Station

variable (s : Station B)

/-- The packet at `p` is the frame received there, or what `csp_crc32_verify` has left of one with
the CRC32 flag. -/
def ReadsFrame (p : Ptr) : Prop :=
  ∀ f, p.origin = some f → s.ram.packet p.addr = f ∨
    f.id.flags &&& cspFcrc32 ≠ 0 ∧ s.ram.packet p.addr = f.stripped

/-- The packet that the next access of the router reads. -/
def routerReads : Option Nat :=
  match s.router with
  | some (.op (.pktId p) _) | some (.op (.sendDirect _ p) _)
  | some (.op (.crc32Verify p) _) => some p.addr
  | _ => none

/-- The packet that the next access of `csp_service_handler` reads. -/
def cspReads : Option Nat :=
  match s.csp with
  | .service _ (.op (.cmpHandler p) _) | .service _ (.op (.dataWord p) _)
  | .service _ (.op (.send p) _) => some p.addr
  | _ => none

/-- The packet that the next access of `mainTask` reads. -/
def mainReads : Option Nat :=
  match s.main with
  | .handler (.op (.pktId p) _) | .handler (.op (.cspSendto _ _ _ _ _ p _) _) => some p.addr
  | _ => none

/-- No two pending packets share storage, each reads as it was received, and the tasks read these
only, and `outcomingPacket`. -/
def ReceivedKept : Prop :=
  s.pending.Pairwise Ptr.Apart ∧ (∀ p ∈ s.pending, s.ReadsFrame p) ∧
    ∀ a, s.routerReads = some a ∨ s.cspReads = some a ∨ s.mainReads = some a →
      (∃ p ∈ s.pending, p.addr = a) ∨ s.out = some a

/-- A frame is received over a pending packet, something else is written over a packet received, or
`csp_i2c_rx` takes what lies on the stack for a frame where none was received. -/
def Spoils : StationLabel B → Prop
  | .receive a frame => (∃ p ∈ s.pending, Overlap a i2cFrameSize p.addr i2cFrameSize) ∨
      frame = [] ∧ 4 ≤ s.ram.length a ∧ s.ram.length a ≤ i2cMtu
  | .other a bs =>
      ∃ p ∈ s.pending, p.origin ≠ none ∧ Overlap a bs.length p.addr i2cFrameSize
  | _ => False

end Station

theorem overlap_self (a : Nat) : Overlap a i2cFrameSize a i2cFrameSize := by
  simp [Overlap, i2cFrameSize]

theorem Ptr.Apart.symm {p q : Ptr} (h : p.Apart q) : q.Apart p := by
  simp only [Ptr.Apart, Overlap] at h ⊢
  omega

theorem apart_subperm {l l' : List Ptr} (h : l.Subperm l') (hl : l'.Pairwise Ptr.Apart) :
    l.Pairwise Ptr.Apart := by
  obtain ⟨l₁, hperm, hsub⟩ := h
  exact (hperm.pairwise_iff Ptr.Apart.symm).1 (hl.sublist hsub)

/-- The others are apart from `p`. -/
theorem apart_erase {l : List Ptr} {p q : Ptr} (hl : l.Pairwise Ptr.Apart) (hp : p ∈ l)
    (hq : q ∈ l.erase p) : p.Apart q := by
  have hperm := (List.perm_cons_erase hp).pairwise_iff (R := Ptr.Apart) Ptr.Apart.symm
  exact List.rel_of_pairwise_cons (hperm.1 hl) hq

/-- A pointer replaced by another to the same packet. -/
theorem apart_replace {l : List Ptr} {p : Ptr} (hl : l.Pairwise Ptr.Apart) (hp : p ∈ l) :
    (⟨p.addr, none⟩ :: l.erase p : List Ptr).Pairwise Ptr.Apart := by
  have hperm := (List.perm_cons_erase hp).pairwise_iff (R := Ptr.Apart) Ptr.Apart.symm
  obtain ⟨hhead, htail⟩ := List.pairwise_cons.1 (hperm.1 hl)
  exact List.pairwise_cons.2 ⟨fun q hq => hhead q hq, htail⟩

theorem not_overlap_reply {a : Nat} (h : OffPool a) :
    ¬ Overlap replyBuffer i2cFrameSize a i2cFrameSize := by
  simp only [OffPool, Overlap, replyBuffer, cspBufferPool, cspBufferCount, cspSkbfSize,
    cspBufferSize, i2cFrameSize, i2cMtu] at h ⊢
  omega

theorem length_payload (m : Ram) (p : Nat) : (m.packet p).data.length = m.length p :=
  Mem.length_read _ _ _

/-- What is stored elsewhere does not change a packet. -/
theorem packet_outside {m m' : Ram} {a n p : Nat} (h : Mem.SameOutside a n m m')
    (hover : ¬ Overlap a n p i2cFrameSize) (hlen : m.length p + 14 ≤ i2cFrameSize) :
    m'.packet p = m.packet p := by
  refine Ram.packet_congr fun x h1 h2 => h x ?_
  simp only [Overlap, not_and, Nat.not_lt] at hover
  omega

/-- `csp_crc32_verify` cuts the payload. -/
theorem packet_strip (m : Ram) (p : Nat) (h : 4 ≤ m.length p) (hlen : m.length p < 65536) :
    (m.setLength p (m.length p - 4)).packet p = (m.packet p).stripped := by
  have hl : (m.setLength p (m.length p - 4)).length p = m.length p - 4 :=
    Ram.length_setLength m p (by omega)
  have hid : (m.setLength p (m.length p - 4)).id p = m.id p := Ram.id_write m p (.inl (by simp))
  have hread : (m.setLength p (m.length p - 4)).read (p + 14) (m.length p - 4) =
      m.read (p + 14) (m.length p - 4) := Mem.read_write_disjoint m (.inr (by simp))
  rw [Ram.packet, Ram.payload, hl, hid, hread, Packet.stripped, length_payload]
  exact congrArg (Packet.mk (m.id p)) (Mem.take_read m (p + 14) (Nat.sub_le _ _)).symm

/-! ## The packets nobody has stripped yet -/

/-- The router has not yet verified the checksum of this packet, and may do so. -/
def Station.Unread (s : Station B) (p : Ptr) : Prop :=
  p ∈ s.fifo.map (·.2) ∨ s.routerHand = some p ∧
    ∃ code, s.router = some code ∧ ¬ code.All fun o => ∀ q, o ≠ .crc32Verify q

/-- What the router goes by when it verifies the checksum of `p` is the header of the frame. -/
def Station.Flagged (s : Station B) (p : Ptr) : Prop :=
  ∀ f code, p.origin = some f → s.router = some code →
    ∃ stage, InOrder stage code ∧ ∀ id, stage = .unchecked (some id) → id = f.id

/-- What is pending, and what is to become of it. -/
structure Station.Kept (s : Station B) : Prop where
  custody : s.Custody
  placed : ∀ p ∈ s.pending, OffPool p.addr ∨ p = ⟨replyBuffer, none⟩
  start : s.main = .start → s.pool = .init ∧ ∀ p ∈ s.pending, OffPool p.addr
  taken : s.main ≠ .start → s.out = some replyBuffer
  apart : s.pending.Pairwise Ptr.Apart
  short : ∀ p ∈ s.pending, ∀ f, p.origin = some f → f.data.length ≤ twisReceiveBufferSize
  reads : ∀ p ∈ s.pending, s.ReadsFrame p
  unread : ∀ p, s.Unread p → ∀ f, p.origin = some f → s.ram.packet p.addr = f
  flagged : ∀ p, s.routerHand = some p → s.Flagged p

variable {s s' : Station B} {l : StationLabel B} {p : Ptr} {f : Packet}

theorem Station.Kept.offPool (h : s.Kept) (hp : p ∈ s.pending) (hf : p.origin = some f) :
    OffPool p.addr := by
  rcases h.placed p hp with hoff | rfl
  · exact hoff
  · cases hf

theorem Station.Kept.length_le (h : s.Kept) (hp : p ∈ s.pending) (hf : p.origin = some f) :
    s.ram.length p.addr + 14 ≤ i2cFrameSize := by
  have hshort : f.data.length ≤ 72 := h.short p hp f hf
  have hsize : i2cFrameSize = 265 := rfl
  rw [← length_payload]
  rcases h.reads p hp f hf with heq | ⟨-, heq⟩
  · rw [heq]
    omega
  · rw [heq, Packet.stripped, List.length_take]
    omega

/-- A write to the storage of another pending packet. -/
theorem Station.Kept.outside (h : s.Kept) {q : Ptr} (hq : q.Apart p) (hp : p ∈ s.pending)
    (hf : p.origin = some f) {ram : Ram} (hram : Mem.SameOutside q.addr i2cFrameSize s.ram ram) :
    ram.packet p.addr = s.ram.packet p.addr := by
  refine packet_outside hram ?_ (h.length_le hp hf)
  rcases hq with hover | ⟨-, hreply⟩
  · exact hover
  · have hoff := h.offPool hp hf
    rw [hreply] at hoff
    exact absurd hoff (by decide)

theorem outPtr_addr (h : s.Kept) (hm : s.main ≠ .start) : s.outPtr = ⟨replyBuffer, none⟩ := by
  rw [Station.outPtr, h.taken hm]
  rfl

/-- `outcomingPacket` is apart from everything pending. -/
theorem Station.Kept.outPtr_apart (h : s.Kept) (hm : s.main ≠ .start) (hp : p ∈ s.pending) :
    s.outPtr.Apart p := by
  rw [outPtr_addr h hm]
  rcases h.placed p hp with hoff | rfl
  · exact .inl (not_overlap_reply hoff)
  · exact .inr ⟨rfl, rfl⟩

section

variable {ram : Ram} {pool : BufferPool} {pend : List Ptr}

theorem effect_apart (h : s.Kept) (he : s.Effect l ram pool pend) (hl : ¬ s.Spoils l)
    (hstart : ∀ x, l = .main x → s.main ≠ .start) : pend.Pairwise Ptr.Apart := by
  cases he with
  | move _ _ hpend => exact apart_subperm hpend h.apart
  | rewrite q _ hq _ _ hpend => exact apart_subperm hpend (apart_replace h.apart hq)
  | strip | other | get => exact h.apart
  | receive _ _ _ _ hpend _ =>
    refine apart_subperm hpend (List.pairwise_cons.2 ⟨fun q hq => .inl fun hover => ?_, h.apart⟩)
    exact hl (.inl ⟨q, hq, hover⟩)
  | reply _ hpend => exact apart_subperm hpend h.apart
  | loop _ _ _ _ hpend =>
    refine apart_subperm hpend (List.pairwise_cons.2 ⟨fun q hq => ?_, h.apart⟩)
    exact h.outPtr_apart (hstart _ rfl) hq

theorem effect_placed (h : s.Kept) (he : s.Effect l ram pool pend)
    (hstart : ∀ x, l = .main x → s.main ≠ .start) :
    ∀ p ∈ pend, OffPool p.addr ∨ p = ⟨replyBuffer, none⟩ := by
  intro p hp
  cases he with
  | move _ _ hpend => exact h.placed p (hpend.subset hp)
  | rewrite q _ hq _ _ hpend =>
    rcases List.mem_cons.1 (hpend.subset hp) with rfl | hp
    · rcases h.placed q hq with hoff | rfl
      · exact .inl hoff
      · exact .inr rfl
    · exact h.placed p (List.mem_of_mem_erase hp)
  | strip | other | get => exact h.placed p hp
  | receive _ hoff _ _ hpend _ =>
    rcases List.mem_cons.1 (hpend.subset hp) with rfl | hp
    · exact .inl hoff
    · exact h.placed p hp
  | reply _ hpend => exact h.placed p (hpend.subset hp)
  | loop _ _ _ _ hpend =>
    rcases List.mem_cons.1 (hpend.subset hp) with rfl | hp
    · exact .inr (outPtr_addr h (hstart _ rfl))
    · exact h.placed p hp

/-- Received now, and stored; or pending before, and unchanged but for the checksum. -/
def Station.StillReads (s : Station B) (l : StationLabel B) (ram : Ram) (p : Ptr) : Prop :=
  (∃ a frame, l = .receive a frame ∧ p = ⟨a, some (framePacket frame)⟩ ∧
    frame.length ≤ twisReceiveBufferSize ∧ ram.packet a = framePacket frame) ∨
  p ∈ s.pending ∧ (ram.packet p.addr = s.ram.packet p.addr ∨
    s.Verifies l ∧ s.routerHand = some p ∧ ram.packet p.addr = (s.ram.packet p.addr).stripped)

theorem effect_reads (h : s.Kept) (he : s.Effect l ram pool pend) (hl : ¬ s.Spoils l)
    (hstart : ∀ x, l = .main x → s.main ≠ .start) (hp : p ∈ pend) (hf : p.origin = some f) :
    s.StillReads l ram p := by
  have hsize : i2cFrameSize = 265 := rfl
  cases he with
  | move _ _ hpend => exact .inr ⟨hpend.subset hp, .inl rfl⟩
  | rewrite q _ hq _ hram hpend =>
    rcases List.mem_cons.1 (hpend.subset hp) with rfl | hp
    · cases hf
    · have hmem := List.mem_of_mem_erase hp
      exact .inr ⟨hmem, .inl (h.outside (apart_erase h.apart hq hp) hmem hf hram)⟩
  | strip q hq hverifies hlen =>
    refine .inr ⟨hp, ?_⟩
    by_cases hpq : p = q
    · subst hpq
      have hle := h.length_le hp hf
      exact .inr ⟨hverifies, hq, packet_strip s.ram p.addr hlen (by omega)⟩
    · have hother : p ∈ s.pending.erase q := (List.mem_erase_of_ne hpq).2 hp
      have hram : Mem.SameOutside q.addr i2cFrameSize s.ram
          (s.ram.setLength q.addr (s.ram.length q.addr - 4)) :=
        Mem.sameOutside_write _ (by omega) (by rw [length_leBytes]; omega)
      exact .inl (h.outside (apart_erase h.apart (mem_pending_router hq) hother) hp hf hram)
  | @receive a frame _ _ _ hlen _ hpend hrefused =>
    have hmtu : frame.length ≤ i2cMtu := le_trans hlen (by decide)
    have hram : Mem.SameOutside a i2cFrameSize s.ram (cspI2cRx (storeFrame s.ram a frame) a).1 :=
      (sameOutside_storeFrame s.ram a hmtu).trans (sameOutside_cspI2cRx _ a)
    have hold : p ∈ s.pending → s.StillReads (.receive a frame) _ p := fun hp =>
      .inr ⟨hp, .inl (packet_outside hram (fun hover => hl (.inl ⟨p, hp, hover⟩))
        (h.length_le hp hf))⟩
    by_cases hfour : 4 ≤ frame.length
    · rcases List.mem_cons.1 (hpend.subset hp) with rfl | hp
      · exact .inl ⟨a, frame, rfl, rfl, hlen, (receive_packet s.ram a hfour hmtu).2⟩
      · exact hold hp
    · have hno : (cspI2cRx (storeFrame s.ram a frame) a).2 = false := by
        have hshort : (storeFrame s.ram a frame).length a < 4 ∨
            (storeFrame s.ram a frame).length a > i2cMtu := by
          by_cases hnil : frame = []
          · subst hnil
            have hspoil : ¬ (4 ≤ s.ram.length a ∧ s.ram.length a ≤ i2cMtu) := fun hs =>
              hl (.inr ⟨rfl, hs⟩)
            have hstore : storeFrame s.ram a [] = s.ram := rfl
            rw [hstore]
            omega
          · have hpos : 0 < frame.length := List.length_pos_iff.2 hnil
            rw [storeFrame, if_pos hpos, Ram.length_write _ a (.inr (by omega)),
              Ram.length_setLength _ _ (by omega)]
            omega
        rw [cspI2cRx, if_pos hshort]
      rw [hrefused hno] at hp
      exact hold hp
  | other a bs =>
    have hover : ¬ Overlap a bs.length p.addr i2cFrameSize := fun hover =>
      hl ⟨p, hp, by simp [hf], hover⟩
    have hram : Mem.SameOutside a bs.length s.ram (s.ram.write a bs) :=
      Mem.sameOutside_write _ le_rfl le_rfl
    exact .inr ⟨hp, .inl (packet_outside hram hover (h.length_le hp hf))⟩
  | reply hram hpend =>
    have hmem := hpend.subset hp
    exact .inr ⟨hmem, .inl (h.outside (h.outPtr_apart (hstart _ rfl) hmem) hmem hf hram)⟩
  | loop _ _ _ hram hpend =>
    rcases List.mem_cons.1 (hpend.subset hp) with rfl | hp
    · cases hf
    · exact .inr ⟨hp, .inl (h.outside (h.outPtr_apart (hstart _ rfl) hp) hp hf hram)⟩
  | get => exact .inr ⟨hp, .inl rfl⟩

end

section

variable {crc32 : List UInt8 → BitVec 32} {x : Answers B}

theorem fifoFrom_mem {fifo : List (Iface × Ptr)} (h : s.FifoFrom fifo) (hf : p.origin = some f)
    (hp : p ∈ fifo.map (·.2)) : p ∈ s.fifo.map (·.2) := by
  obtain ⟨q, hq, rfl⟩ := List.mem_map.1 hp
  rcases h q hq with hq | hnone
  · exact List.mem_map.2 ⟨q, hq, rfl⟩
  · cases hf.symm.trans hnone

theorem unread_frame (hrouter : s'.router = s.router) (hhand : s'.routerHand = s.routerHand)
    (hfifo : s.FifoFrom s'.fifo) (hp : s'.Unread p) (hf : p.origin = some f) : s.Unread p := by
  rcases hp with hp | ⟨hh, code, hr, hall⟩
  · exact .inl (fifoFrom_mem hfifo hf hp)
  · rw [hhand] at hh
    rw [hrouter] at hr
    exact .inr ⟨hh, code, hr, hall⟩

/-- A frame in the router's hand has been there before. -/
theorem routeExec_hand {o : RouteOp Ptr} (hh : (s.routeExec crc32 x o).1.routerHand = some p)
    (hf : p.origin = some f) : s.routerHand = some p := by
  obtain ⟨-, -, -, hfrom⟩ := routeExec_alone crc32 x s o
  rcases hfrom with hsame | hnone
  · exact hsame.symm.trans hh
  · cases hf.symm.trans (hnone p hh)

theorem unread_route (h : s.Custody) (hs : s.routeStep crc32 x = some s') (hp : s'.Unread p)
    (hf : p.origin = some f) :
    s.Unread p ∧ (s.Verifies (.route x) → p ∈ s.fifo.map (·.2)) := by
  obtain ⟨-, -, hfifo⟩ := routeStep_alone hs
  have hold : p ∈ s'.fifo.map (·.2) → s.Unread p ∧ (s.Verifies (.route x) → p ∈ s.fifo.map (·.2)) :=
    fun hp => ⟨.inl (fifoFrom_mem hfifo hf hp), fun _ => fifoFrom_mem hfifo hf hp⟩
  rcases hp with hp | ⟨hh, code, hr', hall⟩
  · exact hold hp
  rw [Station.routeStep] at hs
  split at hs
  · split at hs
    · cases hs
    · next interface q fifo hq =>
      obtain rfl := Option.some.inj hs
      have hmem : p ∈ s.fifo.map (·.2) := by
        obtain rfl := Option.some.inj hh
        rw [hq]
        exact List.mem_cons_self
      exact ⟨.inl hmem, fun _ => hmem⟩
  · obtain rfl := Option.some.inj hs
    cases hr'
  · next o k hr =>
    have hcustody := h.router
    rw [hr] at hcustody
    obtain ⟨hand, stage, -, horder, -⟩ := hcustody
    obtain rfl := Option.some.inj hs
    obtain rfl := Option.some.inj hr'
    have hplain : ∀ q, o ≠ .crc32Verify q := by
      rintro q rfl
      have hnext : InOrder .checked (k (s.routeExec crc32 x (.crc32Verify q)).2) := horder.2 _
      have hchecked : ∀ header, RouteStage.checked ≠ .unchecked header := by
        intro header h
        cases h
      exact hall (hnext.verified hchecked)
    have hhand : s.routerHand = some p := routeExec_hand hh hf
    refine ⟨.inr ⟨hhand, _, hr, fun hk => hall (hk.2 _)⟩, ?_⟩
    rintro ⟨q, k', hv⟩
    rw [hr] at hv
    cases hv
    exact absurd rfl (hplain q)

end

/-! ## What the tasks read -/

theorem router_pending (h : s.Custody) {o : RouteOp Ptr} {k : o.Res → RouteCode Ptr Unit} {a : Nat}
    (hr : s.router = some (.op o k)) (ho : ∀ hand, routeOk hand o → hand = some p)
    (ha : some p.addr = some a) : ∃ q ∈ s.pending, q.addr = a := by
  have hrouter := h.router
  rw [hr] at hrouter
  obtain ⟨hand, stage, hd, -, hh, -⟩ := hrouter
  obtain ⟨q, hq, haddr⟩ := hand_of_map hh (ho hand hd.1)
  exact ⟨q, mem_pending_router hq, haddr.trans (Option.some.inj ha)⟩

theorem routerReads_pending {a : Nat} (h : s.Custody) (ha : s.routerReads = some a) :
    ∃ p ∈ s.pending, p.addr = a := by
  unfold Station.routerReads at ha
  split at ha
  · next hr => exact router_pending h hr (fun _ ho => ho) ha
  · next hr => exact router_pending h hr (fun _ ho => ho) ha
  · next hr => exact router_pending h hr (fun _ ho => ho) ha
  · cases ha

theorem csp_pending (h : s.Custody) {c : ConnId} {o : SvcOp Ptr} {k : o.Res → Svc Ptr Unit}
    {a : Nat} (hc : s.csp = .service c (.op o k)) (ho : ∀ held, heldOk held o → held = some p)
    (ha : some p.addr = some a) : ∃ q ∈ s.pending, q.addr = a := by
  have hcsp := h.csp
  rw [hc] at hcsp
  obtain ⟨held, hsettles, hh⟩ := hcsp
  obtain ⟨q, hq, haddr⟩ := hand_of_map hh (ho held hsettles.1)
  exact ⟨q, mem_pending_csp hq, haddr.trans (Option.some.inj ha)⟩

theorem cspReads_pending {a : Nat} (h : s.Custody) (ha : s.cspReads = some a) :
    ∃ p ∈ s.pending, p.addr = a := by
  unfold Station.cspReads at ha
  split at ha
  · next hc => exact csp_pending h hc (fun _ ho => ho) ha
  · next hc => exact csp_pending h hc (fun _ ho => ho) ha
  · next hc => exact csp_pending h hc (fun _ ho => ho) ha
  · cases ha

/-- The request, unless it is `outcomingPacket` itself. -/
theorem mainReads_pending {a : Nat} (h : s.Custody) (ha : s.mainReads = some a) :
    (∃ p ∈ s.pending, p.addr = a) ∨ a = s.outPtr.addr := by
  have hmain := h.main
  unfold Station.mainReads at ha
  split at ha
  · next p k hm =>
    rw [hm] at hmain
    obtain ⟨-, hasks | hreads⟩ := hmain
    · exact .inl ⟨p, mem_pending_main hasks.1, Option.some.inj ha⟩
    · have hp : p = s.outPtr := hreads.1
      rw [← hp]
      exact .inr (Option.some.inj ha).symm
  · next p timeout k hm =>
    rw [hm] at hmain
    obtain ⟨⟨owed, hoffers, hh⟩, -⟩ := hmain
    obtain ⟨-, howed | ⟨-, rfl⟩⟩ := hoffers.1
    · exact .inl ⟨p, mem_pending_main (hh p howed), Option.some.inj ha⟩
    · exact .inr (Option.some.inj ha).symm
  · cases ha

/-! ## The invariant -/

theorem kept_boot (ram : Ram) (newEvent : CspStackEvent Ptr) :
    (Station.boot ram newEvent : Station B).Kept := by
  have hnil : (Station.boot ram newEvent : Station B).pending = [] := by
    simp [Station.pending, Station.boot, ConnTable.packets, ConnTable.init]
  have hhand : ∀ p, (Station.boot ram newEvent : Station B).routerHand ≠ some p := by
    intro p hp
    cases hp
  have hunread : ∀ p, ¬ (Station.boot ram newEvent : Station B).Unread p := by
    rintro p (hp | ⟨hp, -⟩)
    · cases hp
    · exact hhand p hp
  refine ⟨custody_boot ram newEvent, ?_, fun _ => ⟨rfl, ?_⟩, fun h => absurd rfl h, ?_, ?_, ?_,
    fun p hp => absurd hp (hunread p), fun p hp => absurd hp (hhand p)⟩ <;> simp [hnil]

theorem unread_of_verifies (h : s.Verifies l) (hh : s.routerHand = some p) : s.Unread p := by
  cases l with
  | route x =>
    obtain ⟨q, k, hr⟩ := h
    exact .inr ⟨hh, _, hr, fun hall => hall.1 q rfl⟩
  | _ => exact h.elim

/-- The checksum is verified where the frame has the flag. -/
theorem Station.Kept.flagged_verifies (h : s.Kept) (hl : s.Verifies l) (hh : s.routerHand = some p)
    (hf : p.origin = some f) : f.id.flags &&& cspFcrc32 ≠ 0 := by
  cases l with
  | route x =>
    obtain ⟨q, k, hr⟩ := hl
    obtain ⟨stage, horder, hid⟩ := h.flagged p hh f _ hf hr
    obtain ⟨id, hstage, hflag⟩ := horder.1
    rw [← hid id hstage]
    exact hflag
  | _ => exact hl.elim

theorem Station.StillReads.frame {ram : Ram} (h : s.Kept) (hp : s.StillReads l ram p)
    (hf : p.origin = some f) : f.data.length ≤ twisReceiveBufferSize ∧
      (ram.packet p.addr = f ∨
        f.id.flags &&& cspFcrc32 ≠ 0 ∧ ram.packet p.addr = f.stripped) := by
  rcases hp with ⟨a, frame, -, rfl, hlen, hread⟩ | ⟨hp, hsame | ⟨hverifies, hh, hstrip⟩⟩
  · obtain rfl := Option.some.inj hf
    refine ⟨?_, .inl hread⟩
    rw [framePacket, List.length_drop]
    omega
  · rw [hsame]
    exact ⟨h.short p hp f hf, h.reads p hp f hf⟩
  · refine ⟨h.short p hp f hf, .inr ⟨h.flagged_verifies hverifies hh hf, ?_⟩⟩
    rw [hstrip, h.unread p (unread_of_verifies hverifies hh) f hf]

/-- A packet in the FIFO is not the one in the router's hand. -/
theorem Station.Kept.fifo_ne_hand (h : s.Kept) (hp : p ∈ s.fifo.map (·.2)) (hf : p.origin = some f) :
    s.routerHand ≠ some p := by
  intro hh
  have hmem : p ∈ s.pending := mem_pending_router hh
  have htwice : p ∈ s.pending.erase p := by
    refine List.count_pos_iff.1 ?_
    have hpos := List.count_pos_iff.2 hp
    rw [List.count_erase_self, count_pending, hh, Option.toList_some, List.count_singleton_self]
    omega
  have hoff := h.offPool hmem hf
  rcases apart_erase h.apart hmem htwice with hover | ⟨hreply, -⟩
  · exact hover (overlap_self p.addr)
  · rw [hreply] at hoff
    exact absurd hoff (by decide)

theorem mem_pending_unread (hp : s.Unread p) : p ∈ s.pending := by
  rcases hp with hp | ⟨hh, -⟩
  · simp only [Station.pending, List.mem_append]
    tauto
  · exact mem_pending_router hh

theorem receivedKept_of_kept (h : s.Kept) : s.ReceivedKept := by
  refine ⟨h.apart, h.reads, ?_⟩
  rintro a (ha | ha | ha)
  · exact .inl (routerReads_pending h.custody ha)
  · exact .inl (cspReads_pending h.custody ha)
  · refine (mainReads_pending h.custody ha).imp_right fun hout => ?_
    have hm : s.main ≠ .start := by
      intro hm
      simp [Station.mainReads, hm] at ha
    rw [hout, outPtr_addr h hm]
    exact h.taken hm

/-- What the router reads in the header of the packet in its hand is what was received. -/
theorem flagged_route {crc32 : List UInt8 → BitVec 32} {x : Answers B} (h : s.Kept)
    (hs : s.routeStep crc32 x = some s') (hh : s'.routerHand = some p) : s'.Flagged p := by
  intro f code hf hr'
  rw [Station.routeStep] at hs
  split at hs
  · split at hs
    · cases hs
    · next interface q fifo hq =>
      obtain rfl := Option.some.inj hs
      obtain rfl := Option.some.inj hr'
      refine ⟨.unchecked none, inOrder_router interface q, fun id hid => ?_⟩
      cases hid
  · obtain rfl := Option.some.inj hs
    cases hr'
  · next o k hr =>
    have hcustody := h.custody.router
    rw [hr] at hcustody
    obtain ⟨hand, -, hdisposes, -, haddr, -⟩ := hcustody
    obtain rfl := Option.some.inj hs
    obtain rfl := Option.some.inj hr'
    have hhand : s.routerHand = some p := routeExec_hand hh hf
    obtain ⟨stage, horder, hid⟩ := h.flagged p hhand f _ hf hr
    refine ⟨_, horder.2 _, fun id hnext => ?_⟩
    cases o with
    | pktId q =>
      obtain ⟨q', hq', hsame⟩ := hand_of_map haddr hdisposes.1
      obtain rfl := Option.some.inj (hhand.symm.trans hq')
      -- stripped or not, the packet has the header of the frame
      have hread : s.ram.id q.addr = f.id := by
        rw [← hsame]
        rcases h.reads p (mem_pending_router hhand) f hf with heq | ⟨-, heq⟩
        · exact congrArg Packet.id heq
        · exact congrArg Packet.id heq
      cases stage with
      | unchecked header =>
        obtain rfl := Option.some.inj (RouteStage.unchecked.inj hnext)
        exact hread
      | checked => cases hnext
      | sent => cases hnext
    | crc32Verify q => cases hnext
    | sendDirect idout q => cases hnext
    | _ => exact hid id hnext

variable [Cell B] [FloatFormat F B] {crc32 : List UInt8 → BitVec 32} {sincos : Nat → F}

theorem unread_step (h : s.Custody) (hstart : ∀ x, l = .main x → s.main ≠ .start)
    (hs : s.step crc32 sincos l = some s') (hp : s'.Unread p) (hf : p.origin = some f) :
    (∃ a frame, l = .receive a frame ∧ p = ⟨a, some (framePacket frame)⟩) ∨
    s.Unread p ∧ (s.Verifies l → p ∈ s.fifo.map (·.2)) := by
  cases l with
  | receive a frame =>
    obtain ⟨⟨-, -, hrouter, hhand⟩, hfifo⟩ := receive_alone hs
    rcases hp with hp | ⟨hh, code, hr, hall⟩
    · obtain ⟨q, hq, rfl⟩ := List.mem_map.1 hp
      rcases hfifo q hq with hq | hq
      · exact .inr ⟨.inl (List.mem_map.2 ⟨q, hq, rfl⟩), nofun⟩
      · exact .inl ⟨a, frame, rfl, hq⟩
    · rw [hhand] at hh
      rw [hrouter] at hr
      exact .inr ⟨.inr ⟨hh, code, hr, hall⟩, nofun⟩
  | other a bs =>
    obtain rfl := Option.some.inj hs
    exact .inr ⟨hp, nofun⟩
  | route x => exact .inr (unread_route h hs hp hf)
  | csp x =>
    obtain ⟨⟨-, -, hrouter, hhand⟩, hfifo⟩ := cspStep_alone hs
    exact .inr ⟨unread_frame hrouter hhand hfifo hp hf, nofun⟩
  | main x =>
    obtain ⟨⟨-, -, hrouter, hhand⟩, hfifo⟩ := mainStep_alone (hstart x rfl) hs
    exact .inr ⟨unread_frame hrouter hhand hfifo hp hf, nofun⟩

theorem flagged_step (h : s.Kept) (hstart : ∀ x, l = .main x → s.main ≠ .start)
    (hs : s.step crc32 sincos l = some s') (hh : s'.routerHand = some p) : s'.Flagged p := by
  have hkeep : s'.router = s.router → s'.routerHand = s.routerHand → s'.Flagged p := by
    intro hrouter hhand f code hf hr
    exact h.flagged p (hhand.symm.trans hh) f code hf (hrouter.symm.trans hr)
  cases l with
  | receive a frame =>
    obtain ⟨⟨-, -, hrouter, hhand⟩, -⟩ := receive_alone hs
    exact hkeep hrouter hhand
  | other a bs =>
    obtain rfl := Option.some.inj hs
    exact hkeep rfl rfl
  | route x => exact flagged_route h hs hh
  | csp x =>
    obtain ⟨⟨-, -, hrouter, hhand⟩, -⟩ := cspStep_alone hs
    exact hkeep hrouter hhand
  | main x =>
    obtain ⟨⟨-, -, hrouter, hhand⟩, -⟩ := mainStep_alone (hstart x rfl) hs
    exact hkeep hrouter hhand

theorem kept_step (h : s.Kept) (hl : ¬ s.Spoils l) (hs : s.step crc32 sincos l = some s') :
    s'.Kept := by
  obtain ⟨hcustody, he⟩ := step_spec h.custody hs
  by_cases hx : ∃ x, l = .main x ∧ s.main = .start
  · obtain ⟨x, rfl, hm⟩ := hx
    have hs : s.mainStep crc32 sincos x = some s' := hs
    rw [mainStep_start hm] at hs
    obtain rfl := Option.some.inj hs
    refine ⟨hcustody, h.placed, nofun, fun _ => ?_, h.apart, h.short, h.reads, h.unread,
      h.flagged⟩
    rw [(h.start hm).1]
    rfl
  have hstart : ∀ x, l = .main x → s.main ≠ .start := fun x hl hm => hx ⟨x, hl, hm⟩
  obtain ⟨hout, hmain⟩ := step_out hstart hs
  have hreads : ∀ p ∈ s'.pending, ∀ f, p.origin = some f → s.StillReads l s'.ram p :=
    fun p hp f hf => effect_reads h he hl hstart hp hf
  refine ⟨hcustody, effect_placed h he hstart, fun hm => ?_, fun hm => ?_,
    effect_apart h he hl hstart, fun p hp f hf => ((hreads p hp f hf).frame h hf).1,
    fun p hp f hf => ((hreads p hp f hf).frame h hf).2, fun p hp f hf => ?_,
    fun p hh => flagged_step h hstart hs hh⟩
  · obtain ⟨hpool, hoff⟩ := h.start (hmain.1 hm)
    have hloop : ¬ s.LoopsReply l := by
      cases l with
      | main x => exact absurd (hmain.1 hm) (hstart x rfl)
      | _ => exact id
    obtain ⟨hsame, hoff⟩ := effect_offPool he hoff hloop hstart
    exact ⟨hsame.trans hpool, hoff⟩
  · rw [hout]
    exact h.taken fun hm' => hm (hmain.2 hm')
  · -- a packet in the FIFO, or in the hand of a router that has not looked at the checksum
    have hold : s.Unread p → (s.Verifies l → p ∈ s.fifo.map (·.2)) → s'.ram.packet p.addr = f := by
      intro hu hverifies
      rcases hreads p (mem_pending_unread hp) f hf with ⟨a, frame, -, rfl, -, hread⟩ |
        ⟨-, hsame | ⟨hv, hh, -⟩⟩
      · exact hread.trans (Option.some.inj hf)
      · exact hsame.trans (h.unread p hu f hf)
      · exact absurd hh (h.fifo_ne_hand (hverifies hv) hf)
    rcases unread_step h.custody hstart hs hp hf with ⟨a, frame, rfl, rfl⟩ | ⟨hu, hv⟩
    · rcases hreads _ (mem_pending_unread hp) f hf with ⟨_, _, -, heq, -, hread⟩ | ⟨hmem, -⟩
      · obtain rfl := Ptr.mk.inj heq |>.1
        exact hread.trans (Option.some.inj ((Ptr.mk.inj heq).2.symm.trans hf))
      · exact absurd (.inl ⟨_, hmem, overlap_self a⟩) hl
    · exact hold hu hv

/-- **Received packets.** In every run in which nothing is stored over a packet that is pending, and
nothing is taken for a frame that was not received, whatever is received and in whatever order the
interrupt and the tasks run: every packet pending is the frame whose reception put it into the FIFO,
no two of them share storage, and what a task reads is one of them or `outcomingPacket`. -/
theorem received_kept (crc32 : List UInt8 → BitVec 32) (sincos : Nat → F) (ram : Ram)
    (newEvent : CspStackEvent Ptr) (ls : List (StationLabel B))
    (h : Avoids (fun s => Station.step s crc32 sincos) Station.Spoils (.boot ram newEvent) ls) :
    Along (fun s => Station.step s crc32 sincos) Station.ReceivedKept (.boot ram newEvent) ls :=
  Along.of_avoids (I := Station.Kept) (fun _ => receivedKept_of_kept)
    (fun _ _ _ hk hl hs => kept_step hk hl hs) ls (kept_boot ram newEvent) h

section

omit [Cell B] [FloatFormat F B]

instance (s : Station B) : ∀ l, Decidable (s.Spoils l)
  | .receive a frame => inferInstanceAs (Decidable
      ((∃ p ∈ s.pending, Overlap a i2cFrameSize p.addr i2cFrameSize) ∨
        frame = [] ∧ 4 ≤ s.ram.length a ∧ s.ram.length a ≤ i2cMtu))
  | .other a bs => inferInstanceAs (Decidable
      (∃ p ∈ s.pending, p.origin ≠ none ∧ Overlap a bs.length p.addr i2cFrameSize))
  | .route _ | .csp _ | .main _ => isFalse id

end

theorem received_kept_requests :
    Along (fun s => Station.step s (fun _ => 0) exactSincos) Station.ReceivedKept
      (.boot (fun _ => 0) ⟨.other, ⟨0, none⟩⟩) (requestRun cspObcAddress) :=
  received_kept _ _ _ _ _ (by decide +kernel)

/-- Two receptions at the same depth of the stack, before the router has run. -/
theorem received_overwritten :
    ¬ ∀ ls : List (StationLabel ExactCell),
      Along (fun s => Station.step s (fun _ => 0) exactSincos) Station.ReceivedKept
        (.boot (fun _ => 0) ⟨.other, ⟨0, none⟩⟩) ls := by
  intro h
  let run : List (StationLabel ExactCell) :=
    [.receive 0x3000 (requestFrame 1), .receive 0x3000 (requestFrame 2)]
  let p : Ptr := ⟨0x3000, some (framePacket (requestFrame 1))⟩
  obtain ⟨s, hrun, hs⟩ : ∃ s, run.foldlM (fun s => Station.step s (fun _ => 0) exactSincos)
      (.boot (fun _ => 0) ⟨.other, ⟨0, none⟩⟩) = some s ∧
      (decide (p ∈ s.pending), s.ram.packet p.addr) =
        (true, framePacket (requestFrame 2)) :=
    Option.map_eq_some_iff.1 (by decide +kernel)
  simp only [Prod.mk.injEq, decide_eq_true_eq] at hs
  obtain ⟨hp, hread⟩ := hs
  rcases ((h run).last hrun).2.1 p hp _ rfl with heq | ⟨-, heq⟩
  · exact absurd (hread.symm.trans heq) (by decide +kernel)
  · exact absurd (hread.symm.trans heq) (by decide +kernel)

end HmBoard
