import HmBoard.Csp.Buffer
import HmBoard.Csp.Kiss

/-!
# Packets over a serial line

What `csp_kiss_tx` puts out is what `csp_kiss_rx` hands on, but for packets that are too long with
their header and checksum (`kiss_round_trip`), and noise on the line costs no more than the frame
after it (`kiss_resync`), as long as `csp_buffer_get` has a buffer for each frame. Whatever the line
delivers, the receiver stays inside the buffer it holds, and loses none (`kiss_rx_safe`).
-/

namespace HmBoard

open Lib

/-! ## What is put out -/

/-- A byte on the line. -/
def kissEscape (b : UInt8) : List UInt8 :=
  if b = kissFend then [kissFesc, kissTfend]
  else if b = kissFesc then [kissFesc, kissTfesc]
  else [b]

def kissFrame (bs : List UInt8) : List UInt8 :=
  kissFend :: tncData :: bs.flatMap kissEscape ++ [kissFend]

theorem kissTxLoop_eq (n : Nat) :
    ∀ (m : Ram) (a : Nat), (kissTxLoop m a n).2 = (m.read a n).flatMap kissEscape := by
  induction n with
  | zero => intro m a; rfl
  | succ n ih =>
    intro m a
    have hbyte : (kissTxByte m a).2 = kissEscape (m a) ∧
        (kissTxByte m a).1.read (a + 1) n = m.read (a + 1) n := by
      unfold kissTxByte kissEscape
      split
      · exact ⟨rfl, Mem.read_write_disjoint m (.inr (by simp))⟩
      · split
        · exact ⟨rfl, Mem.read_write_disjoint m (.inr (by simp))⟩
        · exact ⟨rfl, rfl⟩
    rw [kissTxLoop, Mem.read_cons, List.flatMap_cons]
    dsimp only
    rw [hbyte.1, ih, hbyte.2]

variable {crc32 : List UInt8 → BitVec 32}

/-- The bytes of a packet with its checksum, in network order. -/
def kissBytes (crc32 : List UInt8 → BitVec 32) (m : Ram) (p : Nat) : List UInt8 :=
  (leBytes 4 (m.ext p).toNat).reverse ++ (m.payload p ++ checksum crc32 (m.payload p))

theorem length_kissBytes (m : Ram) (p : Nat) :
    (kissBytes crc32 m p).length = m.length p + 8 := by
  simp [kissBytes, Ram.payload]
  omega

theorem cspKissTx_eq (m : Ram) (p : Nat) (h : m.length p + 8 < 65536) :
    (cspKissTx crc32 m p).2 = kissFrame (kissBytes crc32 m p) := by
  let m₁ := cspCrc32Append crc32 m p
  have hpkt : m₁.packet p = ⟨m.id p, m.payload p ++ checksum crc32 (m.payload p)⟩ :=
    packet_crc32Append crc32 m p (by omega)
  have hpay : m₁.payload p = m.payload p ++ checksum crc32 (m.payload p) := (Packet.mk.inj hpkt).2
  have hlen : m₁.length p = m.length p + 4 := by
    have := congrArg List.length hpay
    rwa [Ram.payload, Mem.length_read, List.length_append, length_checksum, Ram.payload,
      Mem.length_read] at this
  have hext : m₁.ext p = m.ext p :=
    (Ram.ext_write _ p (.inl (by simp))).trans (Ram.ext_write m p (.inr (by omega)))
  let m₂ := m₁.setExt p (cspHton32 (m₁.ext p))
  have h2len : m₂.length p = m.length p + 4 := by
    rw [← hlen]
    exact Ram.length_write m₁ p (.inr (by omega))
  let m₃ := m₂.setLength p (m₂.length p + 4)
  have h3len : m₃.length p = 4 + m₁.length p := by
    rw [Ram.length_setLength m₂ p (by omega), h2len, hlen, Nat.add_comm]
  have hread : m₃.read (p + 10) (m₃.length p) = kissBytes crc32 m p := by
    rw [h3len, Mem.read_add, kissBytes]
    congr 1
    · rw [show m₃.read (p + 10) 4 = m₂.read (p + 10) 4 from
        Mem.read_write_disjoint m₂ (.inr (by simp)), Ram.read_setExt, leBytes_hton32, hext]
    · rw [show m₃.read (p + 10 + 4) (m₁.length p) = m₂.read (p + 10 + 4) (m₁.length p) from
        Mem.read_write_disjoint m₂ (.inr (by simp)),
        show m₂.read (p + 10 + 4) (m₁.length p) = m₁.read (p + 10 + 4) (m₁.length p) from
          Mem.read_write_disjoint m₁ (.inr (by simp)), ← hpay]
      rfl
  show kissFend :: tncData :: (kissTxLoop m₃ (p + 10) (m₃.length p)).2 ++ [kissFend] = _
  rw [kissTxLoop_eq, hread]
  rfl

/-! ## A frame that is accepted -/

variable {mtu : Nat} {supply : Nat → Nat}

/-- A frame becomes a packet in its buffer. -/
theorem packet_of_bytes (m : Ram) (p : Nat) {frame : List UInt8}
    (hread : m.read (p + 10) frame.length = frame) (h4 : 4 ≤ frame.length)
    (hlt : frame.length < 65536) :
    let m₁ := m.setLength p (frame.length - 4)
    (m₁.setExt p (cspHton32 (m₁.ext p))).packet p = framePacket frame := by
  intro m₁
  have hsplit := Mem.read_add m₁ (p + 10) 4 (frame.length - 4)
  have hm₁ : m₁.read (p + 10) frame.length = frame :=
    (Mem.read_write_disjoint m (.inr (by simp))).trans hread
  rw [Nat.add_sub_cancel' h4, hm₁] at hsplit
  have hhead : m₁.read (p + 10) 4 = frame.take 4 := by
    rw [← Mem.take_read m₁ (p + 10) h4, hm₁]
  have htail : m₁.read (p + 14) (frame.length - 4) = frame.drop 4 := by
    have hdrop := congrArg (List.drop 4) hsplit
    rw [List.drop_left' (Mem.length_read m₁ _ 4)] at hdrop
    exact hdrop.symm
  have hl : Ram.length (m₁.setExt p (cspHton32 (m₁.ext p))) p = frame.length - 4 := by
    rw [Ram.setExt, Ram.length_write _ p (.inr (by omega))]
    exact Ram.length_setLength m p (by omega)
  rw [Ram.packet, Ram.payload, hl, Ram.id, Ram.ext_setExt, ext_hton32, hhead, Ram.setExt,
    Mem.read_write_disjoint _ (.inr (by simp)), htail, framePacket]

theorem framePacket_kissBytes (m : Ram) (p : Nat) :
    framePacket (kissBytes crc32 m p) =
      ⟨m.id p, m.payload p ++ checksum crc32 (m.payload p)⟩ := by
  have hword : BitVec.ofNat 32 (leNat (leBytes 4 (m.ext p).toNat)) = m.ext p := by
    rw [leNat_leBytes]
    apply BitVec.eq_of_toNat_eq
    simpa using (m.ext p).isLt
  rw [framePacket, kissBytes, List.take_left' (by simp), List.drop_left' (by simp),
    List.reverse_reverse, hword]
  rfl

variable (crc32) in
/-- The bytes of a packet, all of them in the buffer, are accepted as that packet. -/
theorem kissAccept_bytes {k : Kiss} {m : Ram} {p : Nat} (hlt : m.length p + 8 < 65536)
    (hl : k.length = m.length p + 8)
    (hread : k.ram.read (k.packet + 10) k.length = kissBytes crc32 m p) :
    (kissAccept crc32 k).received = k.received ++ [(k.packet, m.packet p)] ∧
      (kissAccept crc32 k).mode = .notStarted := by
  have hlen : (kissBytes crc32 m p).length = k.length := by rw [length_kissBytes, hl]
  rw [← hlen] at hread
  have hpkt := packet_of_bytes k.ram k.packet hread (by omega) (by omega)
  rw [framePacket_kissBytes, hlen] at hpkt
  dsimp only at hpkt
  obtain ⟨hid, hpay⟩ := Packet.mk.inj hpkt
  have hv := crc32Verify_eq crc32 _ k.packet hpay (length_checksum _ _)
  rw [if_pos rfl] at hv
  have hcut := packet_setLength (n := (m.payload p).length) _ k.packet (by
    have := congrArg List.length hpay
    rw [Ram.payload, Mem.length_read, List.length_append] at this
    exact this ▸ Nat.le_add_right _ _)
  rw [hid, hpay, List.take_left] at hcut
  unfold kissAccept
  rw [if_neg (by omega)]
  dsimp only
  rw [hv, if_neg (not_not.2 rfl)]
  dsimp only
  rw [hcut]
  exact ⟨rfl, rfl⟩

/-! ## Between the two ends of a frame -/

/-- The receiver with the bytes `bs` of a frame in the buffer `p`. -/
def Kiss.collected (k : Kiss) (p : Nat) (bs : List UInt8) : Kiss :=
  { k with
    ram := k.ram.write (p + 10) bs, mode := .started, length := bs.length, first := false
    packet := p }

theorem kissStore_collected (k : Kiss) (p : Nat) (bs : List UInt8) (b : UInt8) :
    kissStore (k.collected p bs) b = k.collected p (bs ++ [b]) := by
  have hram : Ram.setByte (k.ram.write (p + 10) bs) (p + 10 + bs.length) b =
      k.ram.write (p + 10) (bs ++ [b]) := (Mem.write_append k.ram bs [b] (p + 10)).symm
  simp only [kissStore, Kiss.collected, hram, List.length_append, List.length_singleton]

variable (crc32 mtu supply)

theorem rx_of_le {k : Kiss} (h : k.length ≤ mtu) (b : UInt8) :
    kissRxByte crc32 mtu supply k b = kissSwitch crc32 supply k b := by
  rw [kissRxByte, kissOverflow, if_neg (Nat.not_lt.2 h)]

/-- A `FEND` while a frame is received. -/
theorem kissSwitch_fend {k : Kiss} (hm : k.mode = .started) :
    kissSwitch crc32 supply k kissFend = if k.length > 0 then kissAccept crc32 k else k := by
  have hne : ¬ kissFend = kissFesc := by decide
  simp only [kissSwitch, hm, if_neg hne, if_true]

/-- A byte of the packet, as it comes over the line. -/
theorem rx_escape {k : Kiss} (hm : k.mode = .started) (hf : k.first = false) (hl : k.length ≤ mtu)
    (b : UInt8) : cspKissRx crc32 mtu supply k (kissEscape b) = kissStore k b := by
  obtain ⟨ram, mode, length, first, packet, rxError, frame, discarded, received, gets⟩ := k
  simp only at hm hf hl
  subst hm hf
  generalize hk :
    (⟨ram, .started, length, false, packet, rxError, frame, discarded, received, gets⟩ : Kiss) = k
  have hbyte : ∀ (mode : KissMode) (c : UInt8),
      kissRxByte crc32 mtu supply { k with mode := mode } c =
        kissSwitch crc32 supply { k with mode := mode } c := by
    intro mode c
    exact rx_of_le crc32 mtu supply (by rw [← hk]; exact hl) c
  have hplain : ∀ c, kissRxByte crc32 mtu supply k c = kissSwitch crc32 supply k c := by
    intro c
    exact rx_of_le crc32 mtu supply (by rw [← hk]; exact hl) c
  have hfirst : kissRxByte crc32 mtu supply k kissFesc = { k with mode := .escaped } := by
    rw [hplain, ← hk]
    rfl
  have hesc : ∀ c, cspKissRx crc32 mtu supply k [kissFesc, c] =
      kissSwitch crc32 supply { k with mode := .escaped } c := by
    intro c
    rw [cspKissRx, List.foldl_cons, hfirst, List.foldl_cons, List.foldl_nil]
    exact hbyte .escaped c
  unfold kissEscape
  by_cases hend : b = kissFend
  · rw [if_pos hend, hesc, hend, ← hk]
    have hne : ¬ kissTfend = kissTfesc := by decide
    simp only [kissSwitch, if_neg hne, if_true]
    rfl
  by_cases hfesc : b = kissFesc
  · rw [if_neg hend, if_pos hfesc, hesc, hfesc, ← hk]
    have hne : ¬ kissTfesc = kissTfend := by decide
    simp only [kissSwitch, if_neg hne, if_true]
    rfl
  · rw [if_neg hend, if_neg hfesc, cspKissRx, List.foldl_cons, List.foldl_nil, hplain, ← hk]
    simp only [kissSwitch, if_neg hfesc, if_neg hend, Bool.false_eq_true, if_false]

theorem rx_append (k : Kiss) (xs ys : List UInt8) :
    cspKissRx crc32 mtu supply k (xs ++ ys) =
      cspKissRx crc32 mtu supply (cspKissRx crc32 mtu supply k xs) ys := by
  rw [cspKissRx, List.foldl_append]
  rfl

/-- All bytes of a packet that is not too long. -/
theorem rx_escapes (k : Kiss) (p : Nat) (bs : List UInt8) :
    ∀ {pre : List UInt8}, pre.length + bs.length ≤ mtu + 1 →
      cspKissRx crc32 mtu supply (k.collected p pre) (bs.flatMap kissEscape) =
        k.collected p (pre ++ bs) := by
  induction bs with
  | nil =>
    intro pre _
    rw [List.append_nil]
    rfl
  | cons b bs ih =>
    intro pre h
    rw [List.length_cons] at h
    have hl : (k.collected p pre).length ≤ mtu := by
      show pre.length ≤ mtu
      omega
    rw [List.flatMap_cons, rx_append, rx_escape crc32 mtu supply rfl rfl hl, kissStore_collected,
      ih (by simp; omega), List.append_assoc, List.singleton_append]

/-! ## A frame between frames -/

/-- Just after the first `FEND` of a frame. -/
def Kiss.Open (k : Kiss) : Prop :=
  k.mode = .started ∧ k.length = 0 ∧ k.first = true ∧ k.packet ≠ 0

/-- Ready for the first `FEND` of a frame; the last one of another may have been taken for it. -/
def Kiss.Idle (k : Kiss) : Prop := k.mode = .notStarted ∨ k.Open

theorem collected_nil {k : Kiss} (hm : k.mode = .started) (hl : k.length = 0)
    (hf : k.first = false) : k.collected k.packet [] = k := by
  obtain ⟨ram, mode, length, first, packet, rxError, frame, discarded, received, gets⟩ := k
  simp only at hm hl hf
  subst hm hl hf
  simp [Kiss.collected]

theorem received_kissOverflow (k : Kiss) : (kissOverflow mtu k).received = k.received := by
  unfold kissOverflow
  split <;> rfl

/-- Nothing is being received, or no longer. -/
theorem kissOverflow_mode {k : Kiss} (h : k.mode = .notStarted ∨ mtu < k.length) :
    (kissOverflow mtu k).mode = .notStarted := by
  unfold kissOverflow
  by_cases hl : k.length > mtu
  · rw [if_pos hl]
  · rw [if_neg hl]
    exact h.resolve_right hl

/-- A `FEND` then opens a frame. -/
theorem rx_fend {k : Kiss} (h : k.mode = .notStarted ∨ mtu < k.length) (hs : ∀ i, supply i ≠ 0) :
    (kissRxByte crc32 mtu supply k kissFend).Open ∧
      (kissRxByte crc32 mtu supply k kissFend).received = k.received := by
  rw [kissRxByte, ← received_kissOverflow mtu k]
  simp only [kissSwitch, kissOverflow_mode mtu h, ne_eq, not_true, if_false]
  by_cases h0 : (kissOverflow mtu k).packet = 0
  · simp only [if_pos h0, if_neg (hs _)]
    exact ⟨⟨rfl, rfl, rfl, hs _⟩, trivial⟩
  · simp only [if_neg h0]
    exact ⟨⟨rfl, rfl, rfl, h0⟩, trivial⟩

/-- Any other byte is discarded. -/
theorem rx_lost {k : Kiss} (h : k.mode = .notStarted ∨ mtu < k.length) {b : UInt8}
    (hb : b ≠ kissFend) :
    (kissRxByte crc32 mtu supply k b).mode = .notStarted ∧
      (kissRxByte crc32 mtu supply k b).received = k.received := by
  rw [kissRxByte, ← received_kissOverflow mtu k]
  simp only [kissSwitch, kissOverflow_mode mtu h, if_pos hb]
  exact ⟨trivial, trivial⟩

theorem rx_escape_lost {k : Kiss} (h : k.mode = .notStarted ∨ mtu < k.length) (b : UInt8) :
    (cspKissRx crc32 mtu supply k (kissEscape b)).mode = .notStarted ∧
      (cspKissRx crc32 mtu supply k (kissEscape b)).received = k.received := by
  have htwo : ∀ c, c ≠ kissFend →
      (cspKissRx crc32 mtu supply k [kissFesc, c]).mode = .notStarted ∧
        (cspKissRx crc32 mtu supply k [kissFesc, c]).received = k.received := by
    intro c hc
    obtain ⟨hm, hrec⟩ := rx_lost crc32 mtu supply h (b := kissFesc) (by decide)
    rw [← hrec]
    exact rx_lost crc32 mtu supply (.inl hm) hc
  unfold kissEscape
  by_cases hend : b = kissFend
  · rw [if_pos hend]
    exact htwo kissTfend (by decide)
  rw [if_neg hend]
  by_cases hesc : b = kissFesc
  · rw [if_pos hesc]
    exact htwo kissTfesc (by decide)
  · rw [if_neg hesc]
    exact rx_lost crc32 mtu supply h hend

theorem rx_escapes_lost {k : Kiss} (h : k.mode = .notStarted ∨ mtu < k.length) (bs : List UInt8) :
    let k' := cspKissRx crc32 mtu supply k (bs.flatMap kissEscape)
    (k'.mode = .notStarted ∨ mtu < k'.length) ∧ k'.received = k.received := by
  induction bs generalizing k with
  | nil => exact ⟨h, rfl⟩
  | cons b bs ih =>
    obtain ⟨hm, hrec⟩ := rx_escape_lost crc32 mtu supply h b
    rw [List.flatMap_cons, rx_append, ← hrec]
    exact ih (.inl hm)

/-- The byte after the first `FEND` is skipped. -/
theorem Kiss.Open.tnc {k : Kiss} (h : k.Open) :
    ∃ k' : Kiss, kissRxByte crc32 mtu supply k tncData = k'.collected k.packet [] ∧
      k'.received = k.received := by
  obtain ⟨hm, hl, hf, -⟩ := h
  refine ⟨{ k with first := false }, ?_, rfl⟩
  rw [collected_nil (k := { k with first := false }) hm hl rfl,
    rx_of_le crc32 mtu supply (by omega)]
  simp only [kissSwitch, hm, hf]
  rfl

/-- The start of a frame. -/
theorem Kiss.Idle.start {k : Kiss} (h : k.Idle) (hs : ∀ i, supply i ≠ 0) :
    ∃ (k' : Kiss) (p : Nat),
      cspKissRx crc32 mtu supply k [kissFend, tncData] = k'.collected p [] ∧
        k'.received = k.received := by
  have hopen : (kissRxByte crc32 mtu supply k kissFend).Open ∧
      (kissRxByte crc32 mtu supply k kissFend).received = k.received := by
    rcases h with h | ⟨hm, hl, hf, hp⟩
    · exact rx_fend crc32 mtu supply (.inl h) hs
    · -- the last `FEND` of the frame before was taken for the first of this one
      have hstay : kissRxByte crc32 mtu supply k kissFend = k := by
        rw [rx_of_le crc32 mtu supply (by omega), kissSwitch_fend crc32 supply hm,
          if_neg (by omega)]
      rw [hstay]
      exact ⟨⟨hm, hl, hf, hp⟩, rfl⟩
  obtain ⟨k', hk', hrec⟩ := hopen.1.tnc crc32 mtu supply
  exact ⟨k', _, hk', hrec.trans hopen.2⟩

/-- A frame that fits, after another frame or at the start: the packet is handed on. -/
theorem Kiss.Idle.rx_short {k : Kiss} (h : k.Idle) (hs : ∀ i, supply i ≠ 0) {m : Ram} {p : Nat}
    (hfit : m.length p + 8 ≤ mtu) (hlt : m.length p + 8 < 65536) :
    let k' := cspKissRx crc32 mtu supply k (kissFrame (kissBytes crc32 m p))
    k'.received.map Prod.snd = k.received.map Prod.snd ++ [m.packet p] ∧ k'.Idle := by
  obtain ⟨k', q, hstart, hrec⟩ := h.start crc32 mtu supply hs
  have hlen : (kissBytes crc32 m p).length = m.length p + 8 := length_kissBytes m p
  have hsplit : kissFrame (kissBytes crc32 m p) =
      [kissFend, tncData] ++ ((kissBytes crc32 m p).flatMap kissEscape ++ [kissFend]) := rfl
  have hend : ∀ k : Kiss, k.mode = .started → k.length ≤ mtu → 0 < k.length →
      cspKissRx crc32 mtu supply k [kissFend] = kissAccept crc32 k := by
    intro k hm hl hpos
    rw [cspKissRx, List.foldl_cons, List.foldl_nil, rx_of_le crc32 mtu supply hl,
      kissSwitch_fend crc32 supply hm, if_pos hpos]
  rw [hsplit, rx_append, hstart, rx_append,
    rx_escapes crc32 mtu supply k' q _ (by rw [List.length_nil]; omega), List.nil_append,
    hend _ rfl (by show (kissBytes crc32 m p).length ≤ mtu; omega)
      (by show 0 < (kissBytes crc32 m p).length; omega)]
  obtain ⟨hacc, hmode⟩ := kissAccept_bytes crc32 (k := k'.collected q (kissBytes crc32 m p))
    (m := m) (p := p) hlt hlen (Mem.read_write_self _ _ _)
  refine ⟨?_, .inl hmode⟩
  rw [hacc, List.map_append, ← hrec]
  rfl

/-- A longer one is dropped, and nothing else with it. -/
theorem Kiss.Idle.rx_long {k : Kiss} (h : k.Idle) (hs : ∀ i, supply i ≠ 0) {bs : List UInt8}
    (hlong : mtu < bs.length) :
    let k' := cspKissRx crc32 mtu supply k (kissFrame bs)
    k'.received = k.received ∧ k'.Idle := by
  obtain ⟨k', q, hstart, hrec⟩ := h.start crc32 mtu supply hs
  have hsplit : kissFrame bs = [kissFend, tncData] ++
      ((bs.take (mtu + 1)).flatMap kissEscape ++
        ((bs.drop (mtu + 1)).flatMap kissEscape ++ [kissFend])) := by
    rw [← List.append_assoc (List.flatMap _ _), ← List.flatMap_append, List.take_append_drop]
    rfl
  have hfull : (bs.take (mtu + 1)).length = mtu + 1 := List.length_take_of_le hlong
  rw [hsplit, rx_append, hstart, rx_append,
    rx_escapes crc32 mtu supply k' q _ (by rw [List.length_nil]; omega), rx_append]
  -- one byte more than fits is stored, and the next one finds it
  obtain ⟨hover, hsame⟩ := rx_escapes_lost crc32 mtu supply
    (k := k'.collected q ([] ++ bs.take (mtu + 1)))
    (.inr (by show mtu < (bs.take (mtu + 1)).length; omega)) (bs.drop (mtu + 1))
  obtain ⟨hopen, hend⟩ := rx_fend crc32 mtu supply hover hs
  exact ⟨(hend.trans hsame).trans hrec, .inr hopen⟩

/-! ## A frame after anything -/

/-- A buffer is held while a frame is being received. -/
def Kiss.Holding (k : Kiss) : Prop :=
  (k.mode = .started ∨ k.mode = .escaped) → k.packet ≠ 0

/-- Past the start of a frame, or without one. -/
def Kiss.Inside (k : Kiss) : Prop :=
  k.mode = .notStarted ∨ (k.mode = .started ∧ k.first = false ∧ k.packet ≠ 0)

/-- A byte of a packet leaves the receiver inside a frame or outside. -/
theorem Kiss.Inside.rx_escape {k : Kiss} (h : k.Inside) (b : UInt8) :
    let k' := cspKissRx crc32 mtu supply k (kissEscape b)
    k'.Inside ∧ (k'.mode = .started → 0 < k'.length) := by
  have hout : ∀ k' : Kiss, k'.mode = .notStarted →
      k'.Inside ∧ (k'.mode = .started → 0 < k'.length) := by
    intro k' hk'
    refine ⟨.inl hk', fun hm => ?_⟩
    rw [hk'] at hm
    cases hm
  by_cases hover : k.mode = .notStarted ∨ mtu < k.length
  · exact hout _ (rx_escape_lost crc32 mtu supply hover b).1
  · rw [not_or] at hover
    obtain ⟨hm, hf, hp⟩ := h.resolve_left hover.1
    intro k'
    have hk' : k' = kissStore k b :=
      HmBoard.rx_escape crc32 mtu supply hm hf (Nat.not_lt.1 hover.2) b
    rw [hk']
    exact ⟨.inr ⟨hm, hf, hp⟩, fun _ => Nat.succ_pos _⟩

/-- All bytes of a packet, of any length. -/
theorem Kiss.Inside.rx_escapes {k : Kiss} (h : k.Inside) (bs : List UInt8) :
    (cspKissRx crc32 mtu supply k (bs.flatMap kissEscape)).Inside ∧
      (bs ≠ [] → (cspKissRx crc32 mtu supply k (bs.flatMap kissEscape)).mode = .started →
        0 < (cspKissRx crc32 mtu supply k (bs.flatMap kissEscape)).length) := by
  induction bs generalizing k with
  | nil => exact ⟨h, fun hne => absurd rfl hne⟩
  | cons b bs ih =>
    obtain ⟨hin, hpos⟩ := h.rx_escape crc32 mtu supply b
    rw [List.flatMap_cons, rx_append]
    obtain ⟨hin', hpos'⟩ := ih hin
    refine ⟨hin', fun _ => ?_⟩
    cases bs with
    | nil => exact hpos
    | cons c cs => exact hpos' (List.cons_ne_nil c cs)

/-- After a `FEND` that was no escape's second byte. -/
def Kiss.Fresh (k : Kiss) : Prop :=
  k.mode = .notStarted ∨ (k.mode = .started ∧ k.packet ≠ 0)

theorem kissAccept_mode (k : Kiss) : (kissAccept crc32 k).mode = .notStarted := by
  unfold kissAccept
  split
  · rfl
  · dsimp only
    split <;> rfl

theorem Kiss.Holding.rx_fend {k : Kiss} (h : k.Holding) (hs : ∀ i, supply i ≠ 0) :
    (kissRxByte crc32 mtu supply k kissFend).Fresh := by
  by_cases hover : k.mode = .notStarted ∨ mtu < k.length
  · obtain ⟨hm, -, -, hp⟩ := (HmBoard.rx_fend crc32 mtu supply hover hs).1
    exact .inr ⟨hm, hp⟩
  rw [not_or] at hover
  rw [rx_of_le crc32 mtu supply (Nat.not_lt.1 hover.2)]
  cases hm : k.mode with
  | notStarted => exact absurd hm hover.1
  | started =>
    rw [kissSwitch_fend crc32 supply hm]
    split
    · exact .inl (kissAccept_mode crc32 k)
    · exact .inr ⟨hm, h (.inl hm)⟩
  | escaped =>
    have hne₁ : ¬ kissFend = kissTfesc := by decide
    have hne₂ : ¬ kissFend = kissTfend := by decide
    simp only [kissSwitch, hm, if_neg hne₁, if_neg hne₂]
    exact .inr ⟨rfl, h (.inr hm)⟩
  | skipFrame =>
    simp only [kissSwitch, hm, if_true]
    exact .inl rfl

/-- The first two bytes of a frame, whatever came before. -/
theorem Kiss.Holding.start {k : Kiss} (h : k.Holding) (hs : ∀ i, supply i ≠ 0) :
    (cspKissRx crc32 mtu supply k [kissFend, tncData]).Inside := by
  have hfresh := h.rx_fend crc32 mtu supply hs
  show (kissRxByte crc32 mtu supply (kissRxByte crc32 mtu supply k kissFend) tncData).Inside
  generalize kissRxByte crc32 mtu supply k kissFend = k' at hfresh ⊢
  by_cases hover : k'.mode = .notStarted ∨ mtu < k'.length
  · exact .inl (rx_lost crc32 mtu supply hover (by decide)).1
  rw [not_or] at hover
  obtain ⟨hm, hp⟩ := hfresh.resolve_left hover.1
  have hne : ¬ tncData = kissFesc := by decide
  have hne₁ : ¬ tncData = kissFend := by decide
  rw [rx_of_le crc32 mtu supply (Nat.not_lt.1 hover.2)]
  simp only [kissSwitch, hm, if_neg hne, if_neg hne₁]
  by_cases hf : k'.first = true
  · rw [if_pos hf]
    exact .inr ⟨rfl, rfl, hp⟩
  · rw [if_neg hf]
    exact .inr ⟨hm, Bool.eq_false_iff.2 hf, hp⟩

/-- The last byte. -/
theorem Kiss.Inside.rx_end {k : Kiss} (h : k.Inside) (hpos : k.mode = .started → 0 < k.length)
    (hs : ∀ i, supply i ≠ 0) : (cspKissRx crc32 mtu supply k [kissFend]).Idle := by
  show (kissRxByte crc32 mtu supply k kissFend).Idle
  by_cases hover : k.mode = .notStarted ∨ mtu < k.length
  · exact .inr (rx_fend crc32 mtu supply hover hs).1
  rw [not_or] at hover
  obtain ⟨hm, -, -⟩ := h.resolve_left hover.1
  rw [rx_of_le crc32 mtu supply (Nat.not_lt.1 hover.2), kissSwitch_fend crc32 supply hm,
    if_pos (hpos hm)]
  exact .inl (kissAccept_mode crc32 k)

/-- After a frame, whatever came before, the receiver is between frames. -/
theorem Kiss.Holding.rx_frame {k : Kiss} (h : k.Holding) (hs : ∀ i, supply i ≠ 0)
    {bs : List UInt8} (hbs : bs ≠ []) :
    (cspKissRx crc32 mtu supply k (kissFrame bs)).Idle := by
  have hsplit : kissFrame bs = [kissFend, tncData] ++ (bs.flatMap kissEscape ++ [kissFend]) := rfl
  obtain ⟨hin, hpos⟩ := (h.start crc32 mtu supply hs).rx_escapes crc32 mtu supply bs
  rw [hsplit, rx_append, rx_append]
  exact hin.rx_end crc32 mtu supply (hpos hbs) hs

/-! ## Whatever the line delivers -/

/-- The buffers that `csp_buffer_get` has given. -/
def Kiss.obtained (supply : Nat → Nat) (k : Kiss) : List Nat :=
  ((List.range k.gets).map supply).filter (· ≠ 0)

def Kiss.held (k : Kiss) : List Nat := if k.packet = 0 then [] else [k.packet]

/-- Every buffer is held, or was handed on with the packet in it. -/
structure Kiss.Safe (supply : Nat → Nat) (k : Kiss) : Prop where
  holding : k.Holding
  custody : k.obtained supply = k.received.map Prod.fst ++ k.held

theorem holding_of_mode {k : Kiss} (h : k.mode = .notStarted ∨ k.mode = .skipFrame) :
    k.Holding := by
  rintro (hm | hm) <;> rcases h with h | h <;> rw [h] at hm <;> cases hm

theorem safe_init (m : Ram) : (Kiss.init m).Safe supply :=
  ⟨holding_of_mode (.inl rfl), rfl⟩

theorem kissOverflow_safe {k : Kiss} (h : k.Safe supply) :
    (kissOverflow mtu k).Safe supply ∧ (kissOverflow mtu k).length ≤ mtu ∧
      (kissOverflow mtu k).ram = k.ram ∧ (kissOverflow mtu k).packet = k.packet := by
  unfold kissOverflow
  by_cases hl : k.length > mtu
  · rw [if_pos hl]
    exact ⟨⟨holding_of_mode (.inl rfl), h.custody⟩, Nat.zero_le mtu, rfl, rfl⟩
  · rw [if_neg hl]
    exact ⟨h, Nat.not_lt.1 hl, rfl, rfl⟩

theorem sameOutside_cspCrc32Verify (m : Ram) (p : Nat) :
    Mem.SameOutside p 14 m (cspCrc32Verify crc32 m p).1 := by
  unfold cspCrc32Verify
  by_cases hshort : m.length p < 4
  · rw [if_pos hshort]
    exact Mem.SameOutside.refl m
  rw [if_neg hshort]
  dsimp only
  split
  · exact Mem.SameOutside.refl m
  · exact Mem.sameOutside_write m (by omega) (by simp)

theorem kissAccept_safe {k : Kiss} (h : k.Safe supply) (hp : k.packet ≠ 0) :
    (kissAccept crc32 k).Safe supply ∧
      Mem.SameOutside k.packet 14 k.ram (kissAccept crc32 k).ram := by
  have hhdr : ∀ n w, Mem.SameOutside k.packet 14 k.ram
      ((k.ram.setLength k.packet n).setExt k.packet w) := fun n w =>
    (Mem.sameOutside_write k.ram (by omega) (by simp)).trans
      (Mem.sameOutside_write _ (by omega) (by simp))
  unfold kissAccept
  split
  · exact ⟨⟨holding_of_mode (.inl rfl), h.custody⟩, Mem.SameOutside.refl _⟩
  · dsimp only
    have hram := fun n w => (hhdr n w).trans (sameOutside_cspCrc32Verify crc32 _ k.packet)
    split
    · exact ⟨⟨holding_of_mode (.inl rfl), h.custody⟩, hram _ _⟩
    · refine ⟨⟨holding_of_mode (.inl rfl), ?_⟩, hram _ _⟩
      have hc := h.custody
      simp only [Kiss.held, if_neg hp] at hc
      simpa [Kiss.held, Kiss.obtained] using hc

/-- Only the buffer that is held is written, and nothing where none is. -/
def Kiss.WritesHeld (mtu : Nat) (k k' : Kiss) : Prop :=
  ∀ x, (∀ p ∈ k.held, x < p ∨ p + (14 + mtu) ≤ x) → k'.ram x = k.ram x

theorem writesHeld_of_same {k k' : Kiss} {n : Nat} (hp : k.packet ≠ 0) (hn : n ≤ 14 + mtu)
    (h : Mem.SameOutside k.packet n k.ram k'.ram) : k.WritesHeld mtu k' := by
  intro x hx
  have hout := hx k.packet (by rw [Kiss.held, if_neg hp]; exact List.mem_singleton_self _)
  exact h x (by omega)

/-- A byte of a packet goes into the buffer. -/
theorem kissStore_safe {k : Kiss} (h : k.Safe supply) (hp : k.packet ≠ 0) (hl : k.length ≤ mtu)
    (b : UInt8) : (kissStore k b).Safe supply ∧ k.WritesHeld mtu (kissStore k b) :=
  ⟨⟨h.holding, h.custody⟩, writesHeld_of_same mtu hp (Nat.le_refl _)
    (Mem.sameOutside_write k.ram (by omega) (by simp; omega))⟩

/-- The first `FEND` of a frame, when no buffer is held: a new one. -/
theorem kissGet_custody {k : Kiss} (h : k.Safe supply) (hp : k.packet = 0) :
    let k' := { k with packet := supply k.gets, gets := k.gets + 1 }
    k'.obtained supply = k'.received.map Prod.fst ++ k'.held := by
  intro k'
  have hc := h.custody
  simp only [Kiss.obtained, Kiss.held, if_pos hp, List.append_nil] at hc
  have hrange : k'.obtained supply = k.obtained supply ++ [supply k.gets].filter (· ≠ 0) := by
    show ((List.range (k.gets + 1)).map supply).filter _ = _
    rw [List.range_succ, List.map_append, List.filter_append]
    rfl
  rw [hrange, Kiss.obtained, hc]
  congr 1
  show _ = if supply k.gets = 0 then [] else [supply k.gets]
  by_cases h0 : supply k.gets = 0 <;> simp [h0]

theorem kissSwitch_safe {k : Kiss} (h : k.Safe supply) (hl : k.length ≤ mtu) (b : UInt8) :
    (kissSwitch crc32 supply k b).Safe supply ∧
      k.WritesHeld mtu (kissSwitch crc32 supply k b) := by
  cases hm : k.mode with
  | notStarted =>
    simp only [kissSwitch, hm]
    by_cases hb : b = kissFend
    · rw [if_neg (not_not.2 hb)]
      by_cases hp : k.packet = 0
      · have hc := kissGet_custody supply h hp
        simp only [if_pos hp]
        split
        · exact ⟨⟨holding_of_mode (.inr rfl), hc⟩, fun _ _ => rfl⟩
        · next hnew => exact ⟨⟨fun _ => hnew, hc⟩, fun _ _ => rfl⟩
      · simp only [if_neg hp]
        exact ⟨⟨fun _ => hp, h.custody⟩, fun _ _ => rfl⟩
    · rw [if_pos hb]
      exact ⟨⟨holding_of_mode (.inl rfl), h.custody⟩, fun _ _ => rfl⟩
  | started =>
    have hp : k.packet ≠ 0 := h.holding (.inl hm)
    simp only [kissSwitch, hm]
    split
    · exact ⟨⟨fun _ => hp, h.custody⟩, fun _ _ => rfl⟩
    split
    · split
      · obtain ⟨hsafe, hout⟩ := kissAccept_safe crc32 supply h hp
        exact ⟨hsafe, writesHeld_of_same mtu hp (by omega) hout⟩
      · exact ⟨h, fun _ _ => rfl⟩
    split
    · exact ⟨⟨fun _ => hp, h.custody⟩, fun _ _ => rfl⟩
    · exact kissStore_safe mtu supply h hp hl b
  | escaped =>
    have hp : k.packet ≠ 0 := h.holding (.inr hm)
    have hne : ¬ kissTfesc = kissTfend := by decide
    have hstore := fun c => kissStore_safe mtu supply h hp hl c
    simp only [kissSwitch, hm]
    by_cases hb : b = kissTfesc
    · simp only [hb, if_true, if_neg hne]
      obtain ⟨hsafe, hout⟩ := hstore kissFesc
      exact ⟨⟨fun _ => hp, hsafe.custody⟩, hout⟩
    simp only [if_neg hb]
    by_cases hb : b = kissTfend
    · simp only [hb, if_true]
      obtain ⟨hsafe, hout⟩ := hstore kissFend
      exact ⟨⟨fun _ => hp, hsafe.custody⟩, hout⟩
    · simp only [if_neg hb]
      exact ⟨⟨fun _ => hp, h.custody⟩, fun _ _ => rfl⟩
  | skipFrame =>
    simp only [kissSwitch, hm]
    split
    · exact ⟨⟨holding_of_mode (.inl rfl), h.custody⟩, fun _ _ => rfl⟩
    · exact ⟨h, fun _ _ => rfl⟩

theorem kissRxByte_safe {k : Kiss} (h : k.Safe supply) (b : UInt8) :
    (kissRxByte crc32 mtu supply k b).Safe supply ∧
      k.WritesHeld mtu (kissRxByte crc32 mtu supply k b) := by
  obtain ⟨hsafe, hl, hram, hpacket⟩ := kissOverflow_safe mtu supply h
  obtain ⟨hsafe', hout⟩ := kissSwitch_safe crc32 mtu supply hsafe hl b
  rw [Kiss.WritesHeld, Kiss.held, hram, hpacket] at hout
  exact ⟨hsafe', hout⟩

theorem cspKissRx_safe {k : Kiss} (h : k.Safe supply) (buf : List UInt8) :
    (cspKissRx crc32 mtu supply k buf).Safe supply := by
  induction buf generalizing k with
  | nil => exact h
  | cons b buf ih => exact ih (kissRxByte_safe crc32 mtu supply h b).1

/-- Every buffer obtained was handed on, in order, or is held; the next byte is written into the
one held, if anywhere. -/
theorem kiss_rx_safe (m : Ram) (buf : List UInt8) (b : UInt8) :
    let k := cspKissRx crc32 mtu supply (Kiss.init m) buf
    k.obtained supply = k.received.map Prod.fst ++ k.held ∧
      k.WritesHeld mtu (kissRxByte crc32 mtu supply k b) := by
  intro k
  have hsafe : k.Safe supply := cspKissRx_safe crc32 mtu supply (safe_init supply m) buf
  exact ⟨hsafe.custody, (kissRxByte_safe crc32 mtu supply hsafe b).2⟩

/-! ## Frame after frame -/

/-- The packets that fit, of those in the buffers `sent`. -/
def fitting (mtu : Nat) (sent : List (Ram × Nat)) : List Packet :=
  (sent.filter fun s => s.1.length s.2 + 8 ≤ mtu).map fun s => s.1.packet s.2

/-- The frames of packets, from between two frames on. -/
theorem Kiss.Idle.rx_frames {k : Kiss} (h : k.Idle) (hs : ∀ i, supply i ≠ 0)
    (sent : List (Ram × Nat)) (hlt : ∀ s ∈ sent, s.1.length s.2 + 8 < 65536) :
    (cspKissRx crc32 mtu supply k
        (sent.flatMap fun s => (cspKissTx crc32 s.1 s.2).2)).received.map Prod.snd =
      k.received.map Prod.snd ++ fitting mtu sent := by
  induction sent generalizing k with
  | nil => exact (List.append_nil _).symm
  | cons s sent ih =>
    have hlen := hlt s List.mem_cons_self
    have hrest := fun t ht => hlt t (List.mem_cons_of_mem s ht)
    rw [List.flatMap_cons, cspKissTx_eq s.1 s.2 hlen, rx_append]
    by_cases hfit : s.1.length s.2 + 8 ≤ mtu
    · obtain ⟨hrec, hidle⟩ := h.rx_short crc32 mtu supply hs hfit hlen
      rw [ih hidle hrest, hrec, fitting, fitting, List.filter_cons_of_pos (by simpa using hfit),
        List.append_assoc]
      rfl
    · have hlong : mtu < (kissBytes crc32 s.1 s.2).length := by
        rw [length_kissBytes]
        omega
      obtain ⟨hrec, hidle⟩ := h.rx_long crc32 mtu supply hs hlong
      rw [ih hidle hrest, hrec, fitting, fitting, List.filter_cons_of_neg (by simpa using hfit)]

/-- What `csp_buffer_get(interface->mtu)` answers: each call finds a pool of its own. -/
def kissSupply (mtu : Nat) (pools : Nat → BufferPool) (i : Nat) : Nat :=
  (cspBufferGet (pools i) mtu).2.getD 0

variable {pools : Nat → BufferPool}

/-- A buffer is not at address 0. -/
theorem kissSupply_ne (hpool : ∀ i, ∀ p ∈ (pools i).free, p ∈ cspBuffers)
    (hget : ∀ i, (cspBufferGet (pools i) mtu).2 ≠ none) (i : Nat) : kissSupply mtu pools i ≠ 0 := by
  obtain ⟨p, hp⟩ := Option.ne_none_iff_exists'.1 (hget i)
  have hmem := hpool i p (cspBufferGet_mem hp)
  rw [kissSupply, hp, Option.getD_some]
  rintro rfl
  revert hmem
  decide

/-- Without a buffer nothing is handed on. -/
theorem rx_refused (hs : ∀ i, supply i = 0) (buf : List UInt8) :
    ∀ {k : Kiss}, k.packet = 0 → k.mode = .notStarted ∨ k.mode = .skipFrame →
      (cspKissRx crc32 mtu supply k buf).received = k.received := by
  induction buf with
  | nil => exact fun _ _ => rfl
  | cons b buf ih =>
    intro k hp hm
    have hbyte : (kissRxByte crc32 mtu supply k b).packet = 0 ∧
        ((kissRxByte crc32 mtu supply k b).mode = .notStarted ∨
          (kissRxByte crc32 mtu supply k b).mode = .skipFrame) ∧
        (kissRxByte crc32 mtu supply k b).received = k.received := by
      have hover : (kissOverflow mtu k).packet = 0 ∧
          ((kissOverflow mtu k).mode = .notStarted ∨ (kissOverflow mtu k).mode = .skipFrame) := by
        unfold kissOverflow
        split
        · exact ⟨hp, .inl rfl⟩
        · exact ⟨hp, hm⟩
      rw [← received_kissOverflow mtu k]
      rw [kissRxByte]
      generalize kissOverflow mtu k = k' at hover
      obtain ⟨hp', hm'⟩ := hover
      rcases hm' with hm' | hm'
      · by_cases hb : b = kissFend
        · simp [kissSwitch, hm', hb, hp', hs]
        · simp [kissSwitch, hm', hb, hp']
      · by_cases hb : b = kissFend
        · simp [kissSwitch, hm', hb, hp']
        · simp [kissSwitch, hm', hb, hp']
    exact (ih hbyte.1 hbyte.2.1).trans hbyte.2.2

/-- Of what is sent over a clean line the packets with at most `mtu - 8` bytes are received, each as
it was, as long as there are buffers; `csp_send_direct` lets up to `mtu` bytes pass. With an `mtu`
that no buffer holds, such as the 256 of `csp_kiss_init`, nothing is received. -/
theorem kiss_round_trip (hpool : ∀ i, ∀ p ∈ (pools i).free, p ∈ cspBuffers) (m : Ram)
    (sent : List (Ram × Nat)) (hlt : ∀ s ∈ sent, s.1.length s.2 + 8 < 65536) :
    let received := (cspKissRx crc32 mtu (kissSupply mtu pools) (Kiss.init m)
      (sent.flatMap fun s => (cspKissTx crc32 s.1 s.2).2)).received.map Prod.snd
    ((∀ i, (cspBufferGet (pools i) mtu).2 ≠ none) → received = fitting mtu sent) ∧
      (cspBufferSize < mtu + cspBufferPacketOverhead → received = []) := by
  refine ⟨fun hget => ?_, fun hbig => ?_⟩
  · exact Kiss.Idle.rx_frames crc32 mtu _ (.inl rfl) (kissSupply_ne mtu hpool hget) sent hlt
  · have hs : ∀ i, kissSupply mtu pools i = 0 := fun i => by
      rw [kissSupply, cspBufferGet_large _ hbig, Option.getD_none]
    rw [rx_refused crc32 mtu _ hs _ rfl (.inl rfl)]
    rfl

/-- The pool as the first call finds it, and as the others do. -/
def kissPools (i : Nat) : BufferPool := if i = 0 then .init else (cspBufferGet .init 72).1

theorem kissPools_free : ∀ i, ∀ p ∈ (kissPools i).free, p ∈ cspBuffers := by
  intro i
  rw [kissPools]
  split <;> decide

theorem kissPools_get (i : Nat) : (cspBufferGet (kissPools i) 72).2 ≠ none := by
  rw [kissPools]
  split <;> decide

theorem kiss_round_trip_escapes :
    let m : Ram := Mem.write (fun _ => 0) 8 [3, 0, 1, 2, 3, 4, kissFend, 5, kissFesc]
    (cspKissRx (fun _ => 0) 72 (kissSupply 72 kissPools) (Kiss.init fun _ => 0)
        ([(m, 0), (m, 0)].flatMap fun s => (cspKissTx (fun _ => 0) s.1 s.2).2)).received.map
          Prod.snd = [m.packet 0, m.packet 0] := by
  intro m
  have hlen : m.length 0 = 3 := rfl
  have hlt : ∀ s ∈ [(m, 0), (m, 0)], s.1.length s.2 + 8 < 65536 := by
    intro s hs
    have hsame : s = (m, 0) := by simpa using hs
    rw [hsame, hlen]
    decide
  have hfit : fitting 72 [(m, 0), (m, 0)] = [m.packet 0, m.packet 0] := by
    simp [fitting, hlen]
  rw [← hfit]
  exact (kiss_round_trip _ 72 kissPools_free _ [(m, 0), (m, 0)] hlt).1 kissPools_get

/-- After noise, one more frame may be lost: those behind it are received, as long as there are
buffers. -/
theorem kiss_resync (hpool : ∀ i, ∀ p ∈ (pools i).free, p ∈ cspBuffers)
    (hget : ∀ i, (cspBufferGet (pools i) mtu).2 ≠ none) (m : Ram) (noise : List UInt8)
    (first : Ram × Nat) (hfirst : first.1.length first.2 + 8 < 65536) (sent : List (Ram × Nat))
    (hlt : ∀ s ∈ sent, s.1.length s.2 + 8 < 65536) :
    let supply := kissSupply mtu pools
    let lead := noise ++ (cspKissTx crc32 first.1 first.2).2
    (cspKissRx crc32 mtu supply (Kiss.init m)
        (lead ++ sent.flatMap fun s => (cspKissTx crc32 s.1 s.2).2)).received.map Prod.snd =
      (cspKissRx crc32 mtu supply (Kiss.init m) lead).received.map Prod.snd ++
        fitting mtu sent := by
  intro supply lead
  have hs : ∀ i, supply i ≠ 0 := kissSupply_ne mtu hpool hget
  have hnoise : (cspKissRx crc32 mtu supply (Kiss.init m) noise).Safe supply :=
    cspKissRx_safe crc32 mtu supply (safe_init supply m) noise
  have hne : kissBytes crc32 first.1 first.2 ≠ [] := by
    rw [← List.length_pos_iff, length_kissBytes]
    omega
  have hlead : (cspKissRx crc32 mtu supply (Kiss.init m) lead).Idle := by
    show (cspKissRx crc32 mtu supply (Kiss.init m) (noise ++ _)).Idle
    rw [cspKissTx_eq first.1 first.2 hfirst, rx_append]
    exact hnoise.holding.rx_frame crc32 mtu supply hs hne
  rw [rx_append]
  exact hlead.rx_frames crc32 mtu supply hs sent hlt

/-- The first of two frames is lost behind a piece of another. -/
theorem kiss_resync_piece :
    let m : Ram := Mem.write (fun _ => 0) 8 [3, 0, 1, 2, 3, 4, kissFend, 5, kissFesc]
    let lead := [kissFend, tncData, 7] ++ (cspKissTx (fun _ => 0) m 0).2
    (cspKissRx (fun _ => 0) 72 (kissSupply 72 kissPools) (Kiss.init fun _ => 0)
        (lead ++ [(m, 0)].flatMap fun s => (cspKissTx (fun _ => 0) s.1 s.2).2)).received.map
          Prod.snd = [m.packet 0] := by
  intro m lead
  have hlen : m.length 0 = 3 := rfl
  have hlt : ∀ s ∈ [(m, 0)], s.1.length s.2 + 8 < 65536 := by
    intro s hs
    rw [List.mem_singleton.1 hs, hlen]
    decide
  have hlost : (cspKissRx (fun _ => 0) 72 (kissSupply 72 kissPools) (Kiss.init fun _ => 0)
      lead).received = [] := by decide +kernel
  have hfit : fitting 72 [(m, 0)] = [m.packet 0] := by simp [fitting, hlen]
  have hrun := kiss_resync (fun _ => 0) 72 kissPools_free kissPools_get (fun _ => 0)
    [kissFend, tncData, 7] (m, 0) (by rw [hlen]; decide) [(m, 0)] hlt
  rw [hfit] at hrun
  refine hrun.trans ?_
  rw [show (cspKissRx _ _ _ _ _).received = _ from hlost]
  rfl

end HmBoard
