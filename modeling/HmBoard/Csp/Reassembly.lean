import HmBoard.Csp.Sfp

/-!
# What is put together again

The network may lose, repeat and reorder the fragments of a transfer. The receiver notices what is
missing by one comparison, `offset > last_byte + 1`, which is one too many: a fragment of one byte
may be missing unnoticed, a longer one may not (`reassembly_sound_iff`).
-/

namespace HmBoard

open Lib

/-! ## A turn -/

section

variable (m : Ram) (p : Nat)

theorem packet_put {pk : Packet} (h : pk.data.length < 65536) : (m.put p pk).packet p = pk := by
  have hl : (m.put p pk).length p = pk.data.length := by
    rw [Ram.put, Ram.length_write _ p (.inr (by omega)), Ram.setId, Ram.setExt,
      Ram.length_write _ p (.inr (by omega)), Ram.length_setLength _ p h]
  have hd : (m.put p pk).payload p = pk.data := by
    rw [Ram.payload, hl, Ram.put, Mem.read_write_self]
  have hi : (m.put p pk).id p = pk.id := by
    rw [Ram.put, Ram.id_write _ p (.inr (by omega)), Ram.id_setId]
  rw [Ram.packet, hd, hi]

theorem sameOutside_put (pk : Packet) :
    Mem.SameOutside (p + 8) (6 + pk.data.length) m (m.put p pk) := by
  refine Mem.SameOutside.trans ?_ (Mem.sameOutside_write _ (by omega) (by omega))
  refine Mem.SameOutside.trans ?_ (Mem.sameOutside_write _ (by omega) ?_)
  · exact Mem.sameOutside_write _ (by omega) (by rw [length_leBytes]; omega)
  · rw [length_leBytes]
    omega

end

section

variable (m : Ram) (a : Nat)

theorem read_setWord (w : BitVec 32) : (m.setWord a w).read a 4 = leBytes 4 w.toNat := by
  have := Mem.read_write_self m a (leBytes 4 w.toNat)
  rwa [length_leBytes] at this

theorem word_setWord (w : BitVec 32) : (m.setWord a w).word a = w := by
  rw [Ram.word, read_setWord, leNat_leBytes]
  apply BitVec.eq_of_toNat_eq
  simpa using w.isLt

theorem word_write {b : Nat} {bs : List UInt8} (h : a + 4 ≤ b ∨ b + bs.length ≤ a) :
    Ram.word (m.write b bs) a = m.word a := by
  rw [Ram.word, Ram.word, Mem.read_write_disjoint _ h]

/-- A word in network order. -/
theorem hton32_word {n : Nat} (h : m.read a 4 = (leBytes 4 n).reverse) :
    cspHton32 (m.word a) = .ofNat 32 n := by
  have hbytes : leBytes 4 (m.word a).toNat = (leBytes 4 n).reverse := by
    have hself := leBytes_leNat (leBytes 4 n).reverse
    rw [List.length_reverse, length_leBytes] at hself
    rw [Ram.word, leBytes_ofNat, h, hself]
  have hrev := leBytes_hton32 (m.word a)
  rw [hbytes, List.reverse_reverse] at hrev
  have hnat := congrArg leNat hrev
  rw [leNat_leBytes, leNat_leBytes] at hnat
  apply BitVec.eq_of_toNat_eq
  rw [BitVec.toNat_ofNat, ← show 256 ^ 4 = 2 ^ 32 from rfl, ← hnat]
  exact (Nat.mod_eq_of_lt (cspHton32 (m.word a)).isLt).symm

end

/-- The bytes of a fragment at `off`. -/
def fragmentBytes (chunk : List UInt8) (off total : Nat) : List UInt8 :=
  chunk ++ ((leBytes 4 off).reverse ++ (leBytes 4 total).reverse)

/-- The memory `m` holds, at `p`, a fragment with its header in host order; elsewhere it is `m₀`. -/
structure HeaderRead (m₀ m : Ram) (p : Nat) (chunk : List UInt8) (off total : Nat) : Prop where
  same : Mem.SameOutside (p + 8) (14 + chunk.length) m₀ m
  offset : m.word (p + 14 + chunk.length) = .ofNat 32 off
  totalsize : m.word (p + 14 + chunk.length + 4) = .ofNat 32 total
  length : m.length p = chunk.length
  payload : m.payload p = chunk

section

variable {m : Ram} {p : Nat} {i : CspId} {chunk : List UInt8} {off total : Nat}

theorem sfpReadHeader_fragment (hp : m.packet p = ⟨i, fragmentBytes chunk off total⟩)
    (hc : chunk.length + 8 < 65536) :
    (sfpReadHeader m p).2 = p + 14 + chunk.length ∧
      HeaderRead m (sfpReadHeader m p).1 p chunk off total := by
  have hpay : m.payload p = fragmentBytes chunk off total := (Packet.mk.inj hp).2
  have hlen : m.length p = chunk.length + 8 := by
    have := congrArg List.length hpay
    rw [Ram.payload, Mem.length_read] at this
    simpa [fragmentBytes] using this
  have hwrap : (m.length p + 65528) % 65536 = chunk.length := by omega
  rw [Ram.payload, hlen, Mem.read_add, fragmentBytes] at hpay
  obtain ⟨hchunk, hhdr⟩ := List.append_inj hpay (by simp)
  rw [show (8 : Nat) = 4 + 4 from rfl, Mem.read_add] at hhdr
  obtain ⟨hoff, htot⟩ := List.append_inj hhdr (by simp)
  generalize hh : p + 14 + chunk.length = header at hoff htot
  obtain ⟨m₁, hm₁⟩ : ∃ m₁ : Ram, m₁ = m.setLength p chunk.length := ⟨_, rfl⟩
  have h1off : m₁.read header 4 = (leBytes 4 off).reverse := by
    rw [hm₁, Ram.setLength, Mem.read_write_disjoint _ (.inr (by simp; omega)), hoff]
  have h1tot : m₁.read (header + 4) 4 = (leBytes 4 total).reverse := by
    rw [hm₁, Ram.setLength, Mem.read_write_disjoint _ (.inr (by simp; omega)), htot]
  have h2tot : (m₁.setWord header (.ofNat 32 off)).read (header + 4) 4 =
      (leBytes 4 total).reverse := by
    rw [Ram.setWord, Mem.read_write_disjoint _ (.inr (by simp)), h1tot]
  have hread : sfpReadHeader m p =
      ((m₁.setWord header (.ofNat 32 off)).setWord (header + 4) (.ofNat 32 total), header) := by
    simp only [sfpReadHeader, cspSfpHeaderRemove, hwrap, hh, ← hm₁, hton32_word m₁ header h1off,
      hton32_word _ (header + 4) h2tot]
  have hl : Ram.length ((m₁.setWord header (.ofNat 32 off)).setWord (header + 4)
      (.ofNat 32 total)) p = chunk.length := by
    rw [Ram.setWord, Ram.setWord, Ram.length_write _ p (.inr (by omega)),
      Ram.length_write _ p (.inr (by omega)), hm₁, Ram.length_setLength _ p (by omega)]
  rw [hread]
  refine ⟨rfl, ?_, ?_, ?_, hl, ?_⟩
  · refine Mem.SameOutside.trans ?_ (Mem.sameOutside_write _ (by omega) (by simp; omega))
    refine Mem.SameOutside.trans ?_ (Mem.sameOutside_write _ (by omega) (by simp; omega))
    rw [hm₁]
    exact Mem.sameOutside_write _ (by omega) (by simp; omega)
  · rw [hh, Ram.word, Ram.setWord, Mem.read_write_disjoint _ (.inl (by omega))]
    exact word_setWord m₁ header _
  · rw [hh]
    exact word_setWord _ (header + 4) _
  · rw [Ram.payload, hl, Ram.setWord, Ram.setWord, Mem.read_write_disjoint _ (.inl (by omega)),
      Mem.read_write_disjoint _ (.inl (by omega)), hm₁, Ram.setLength,
      Mem.read_write_disjoint _ (.inr (by simp)), hchunk]

end

section

variable {malloc : Nat → Nat} {x : Reassembly} {p : Nat} {i : CspId} {chunk : List UInt8}
  {off total : Nat}

/-- Where a fragment is copied to. -/
def Reassembly.out (malloc : Nat → Nat) (x : Reassembly) (total : Nat) : Nat :=
  if x.dataout = 0 then malloc total else x.dataout

/-- A fragment after a gap ends the transfer. -/
theorem sfpRecvTurn_gap (hi : i.flags &&& cspFfrag ≠ 0)
    (hp : x.ram.packet p = ⟨i, fragmentBytes chunk off total⟩) (hc : chunk.length + 8 < 65536)
    (hoff : off < 32768) (hgap : (x.lastByte + 1) % 65536 < off) :
    (sfpRecvTurn malloc x p).2 = some (-1) := by
  obtain ⟨hh, hread⟩ := sfpReadHeader_fragment hp hc
  have hid : x.ram.id p = i := (Packet.mk.inj hp).1
  have ho : (BitVec.ofNat 32 off).toNat = off := by
    rw [BitVec.toNat_ofNat, Nat.mod_eq_of_lt (by omega)]
  simp only [sfpRecvTurn, hid, if_neg hi, hh, hread.offset, ho, if_pos hgap]

/-- Any other is copied to its place, and the transfer is over with the one that reaches its end. -/
theorem sfpRecvTurn_next (malloc : Nat → Nat) (hi : i.flags &&& cspFfrag ≠ 0)
    (hp : x.ram.packet p = ⟨i, fragmentBytes chunk off total⟩)
    (hin : off + chunk.length ≤ total) (htot : total < 32768)
    (hnext : off ≤ (x.lastByte + 1) % 65536)
    (hapart : x.out malloc total = 0 ∨ x.out malloc total + off + chunk.length ≤ p + 8 ∨
      p + 22 + chunk.length ≤ x.out malloc total + off) :
    ∃ m : Ram, Mem.SameOutside (p + 8) (14 + chunk.length) x.ram m ∧
      sfpRecvTurn malloc x p =
        (⟨if x.out malloc total ≠ 0 then m.write (x.out malloc total + off) chunk else m,
            cspBufferFree x.pool p, x.out malloc total, total, off + chunk.length⟩,
          if total ≤ off + chunk.length then some 0 else none) := by
  obtain ⟨hh, hread⟩ := sfpReadHeader_fragment hp (by omega)
  refine ⟨(sfpReadHeader x.ram p).1, hread.same, ?_⟩
  have hid : x.ram.id p = i := (Packet.mk.inj hp).1
  have ho : (BitVec.ofNat 32 off).toNat = off := by
    rw [BitVec.toNat_ofNat, Nat.mod_eq_of_lt (by omega)]
  have ht : (BitVec.ofNat 32 total).toNat = total := by
    rw [BitVec.toNat_ofNat, Nat.mod_eq_of_lt (by omega)]
  have hsize : ((BitVec.ofNat 32 total).setWidth 16).toInt = total := by
    rw [BitVec.toInt_eq_toNat_of_lt (by simp; omega)]
    simp
    omega
  have hm : total % 65536 = total := Nat.mod_eq_of_lt (by omega)
  have hl : (off + chunk.length) % 65536 = off + chunk.length := Nat.mod_eq_of_lt (by omega)
  have hl' : (off + chunk.length) % 4294967296 = off + chunk.length := Nat.mod_eq_of_lt (by omega)
  obtain ⟨out, hdef⟩ : ∃ n, (if x.dataout = 0 then malloc total else x.dataout) = n := ⟨_, rfl⟩
  have hdef' : x.out malloc total = out := hdef
  rw [hdef'] at hapart ⊢
  simp only [sfpRecvTurn, hid, if_neg hi, hh, hread.offset, ho, if_neg (Nat.not_lt.2 hnext),
    hread.totalsize, ht, hm, hread.length, hl, hread.payload, hsize, hdef]
  by_cases hout : out = 0
  · simp only [hout, ne_eq, not_true, if_false, hread.offset, hread.totalsize, hread.length, ho, ht,
      hl', ge_iff_le]
  · -- the copy does not reach the header, which is read again
    have hdisj : out + off + chunk.length ≤ p + 8 ∨ p + 22 + chunk.length ≤ out + off :=
      hapart.resolve_left hout
    have hlen : Ram.length ((sfpReadHeader x.ram p).1.write (out + off) chunk) p =
        chunk.length := by
      rw [Ram.length_write _ p (by omega), hread.length]
    have hoff' : Ram.word ((sfpReadHeader x.ram p).1.write (out + off) chunk)
        (p + 14 + chunk.length) = .ofNat 32 off := by
      rw [word_write _ _ (by omega), hread.offset]
    have htot' : Ram.word ((sfpReadHeader x.ram p).1.write (out + off) chunk)
        (p + 14 + chunk.length + 4) = .ofNat 32 total := by
      rw [word_write _ _ (by omega), hread.totalsize]
    simp only [ne_eq, hout, not_false_eq_true, if_true, hlen, hoff', htot', ho, ht, hl', ge_iff_le]

end

/-! ## Any order of fragments -/

theorem framePacket_wire (i : CspId) (bs : List UInt8) : framePacket (i.wire ++ bs) = ⟨i, bs⟩ := by
  have hlen : i.wire.length = 4 := by simp [CspId.wire]
  have hword : BitVec.ofNat 32 (leNat (leBytes 4 i.ext.toNat)) = i.ext := by
    rw [leNat_leBytes]
    apply BitVec.eq_of_toNat_eq
    simpa using i.ext.isLt
  rw [framePacket, List.take_left' hlen, List.drop_left' hlen, CspId.wire, List.reverse_reverse,
    hword, CspId.ofExt_ext]

variable {idout : CspId} {data : List UInt8} {mtu : Nat}

/-- What arrives is a fragment of the transfer. -/
def IsFragment (idout : CspId) (data : List UInt8) (mtu : Nat) (pk : Packet) : Prop :=
  ∃ k, k * mtu < data.length ∧ pk = ⟨sfpId idout, sfpPayload data mtu (k * mtu)⟩

/-- The buffer of a packet is apart from the `n` bytes at `out`. -/
def Apart (out n : Nat) (a : Nat × Packet) : Prop :=
  out = 0 ∨ out + n ≤ a.1 + 8 ∨ a.1 + 14 + a.2.data.length ≤ out

/-- The first `n` bytes of the data are at `out`. -/
def Holds (m : Ram) (out : Nat) (data : List UInt8) (n : Nat) : Prop :=
  ∀ i (h : i < data.length), i < n → m (out + i) = data[i]

theorem Holds.read {m : Ram} {out : Nat} (h : Holds m out data data.length) :
    m.read out data.length = data := by
  refine List.ext_getElem (by simp) fun i hi hi' => ?_
  rw [Mem.getElem_read]
  exact h i hi' hi'

/-- Between two turns: the bytes up to `last_byte` are in place, and the transfer goes on there. -/
structure InPlace (malloc : Nat → Nat) (out : Nat) (data : List UInt8) (mtu : Nat)
    (x : Reassembly) : Prop where
  out_eq : x.out malloc data.length = out
  short : x.lastByte < data.length
  aligned : ∃ j, x.lastByte = j * mtu
  holds : out ≠ 0 → Holds x.ram out data x.lastByte

/-- A fragment of two bytes or more that is not refused continues what is there. -/
theorem fragment_continues {j k : Nat} (hone : 2 ≤ mtu ∨ data.length ≤ 1)
    (hk : k * mtu < data.length) (h : k * mtu ≤ j * mtu + 1) : k * mtu ≤ j * mtu := by
  rcases hone with hmtu | hlen
  · by_contra hgt
    have hle : j + 1 ≤ k := by
      by_contra hjk
      exact hgt (Nat.mul_le_mul_right mtu (by omega))
    have := Nat.mul_le_mul_right mtu hle
    rw [Nat.succ_mul] at this
    omega
  · omega

theorem flags_sfpId (idout : CspId) : (sfpId idout).flags &&& cspFfrag ≠ 0 := by
  change (idout.flags ||| cspFfrag) &&& cspFfrag ≠ 0
  generalize idout.flags = flags
  revert flags
  decide

/-- A chunk copied to its place behind the prefix that is there makes the prefix reach its end. -/
theorem Holds.write {m : Ram} {out off n : Nat} (h : Holds m out data n) (mtu : Nat)
    (hoff : off ≤ n) :
    Holds (m.write (out + off) ((data.drop off).take mtu)) out data
      (off + ((data.drop off).take mtu).length) := by
  intro i hi hlt
  by_cases hbefore : i < off
  · rw [Mem.write_outside _ (.inl (by omega))]
    exact h i hi (by omega)
  · obtain ⟨d, rfl⟩ : ∃ d, i = off + d := ⟨i - off, by omega⟩
    rw [← Nat.add_assoc, Mem.write_inside _ (i := d) (by omega)]
    simp

variable {malloc : Nat → Nat} {out : Nat} {x : Reassembly}

/-- One turn: fragment `k`, at `p`, is refused after a gap, and in place otherwise. -/
theorem InPlace.turn (h : InPlace malloc out data mtu x) (hlen : data.length < 32768) {p k : Nat}
    (hk : k * mtu < data.length) (hone : k * mtu ≤ x.lastByte + 1 → k * mtu ≤ x.lastByte)
    (ha : Apart out data.length (p, ⟨sfpId idout, sfpPayload data mtu (k * mtu)⟩)) :
    let t := sfpRecvTurn malloc
      { x with ram := x.ram.put p ⟨sfpId idout, sfpPayload data mtu (k * mtu)⟩ } p
    (x.lastByte + 1 < k * mtu ∧ t.2 = some (-1)) ∨
      (t.1.dataout = out ∧ t.1.datasize = data.length ∧
        ((t.2 = none ∧ InPlace malloc out data mtu t.1 ∧ t.1.lastByte = (k + 1) * mtu) ∨
          (t.2 = some 0 ∧ data.length ≤ (k + 1) * mtu ∧
            (out ≠ 0 → Holds t.1.ram out data data.length)))) := by
  generalize hchunk : (data.drop (k * mtu)).take mtu = chunk
  have hcl : chunk.length = min mtu (data.length - k * mtu) := by
    rw [← hchunk, List.length_take, List.length_drop]
  have hpay : sfpPayload data mtu (k * mtu) = fragmentBytes chunk (k * mtu) data.length := by
    rw [← hchunk]
    rfl
  have hpl : (sfpPayload data mtu (k * mtu)).length = chunk.length + 8 := by
    rw [hpay]
    simp [fragmentBytes]
  dsimp only [Apart] at ha
  rw [hpl] at ha
  intro t
  let y : Reassembly :=
    { x with ram := x.ram.put p ⟨sfpId idout, sfpPayload data mtu (k * mtu)⟩ }
  have hy : y.ram.packet p = ⟨sfpId idout, fragmentBytes chunk (k * mtu) data.length⟩ := by
    rw [← hpay]
    refine packet_put x.ram p ?_
    dsimp only
    omega
  have hwrap : (y.lastByte + 1) % 65536 = x.lastByte + 1 :=
    Nat.mod_eq_of_lt (by have := h.short; show x.lastByte + 1 < _; omega)
  by_cases hgap : (y.lastByte + 1) % 65536 < k * mtu
  · refine .inl ⟨by omega, ?_⟩
    exact sfpRecvTurn_gap (flags_sfpId idout) hy (by omega) (by omega) hgap
  have hcont : k * mtu ≤ x.lastByte := hone (by omega)
  have hout : y.out malloc data.length = out := h.out_eq
  obtain ⟨m, hsame, hturn⟩ := sfpRecvTurn_next malloc (flags_sfpId idout) hy (by omega)
    hlen (Nat.not_lt.1 hgap) (by rw [hout]; omega)
  rw [hout] at hturn
  have ht : t = _ := hturn
  -- the data received so far is in none of the bytes the packet and its header were written to
  have hkept : out ≠ 0 → Holds m out data x.lastByte := by
    intro hne i hi hlt
    have hput : Mem.SameOutside (p + 8) (14 + chunk.length) x.ram y.ram := by
      have := sameOutside_put x.ram p ⟨sfpId idout, sfpPayload data mtu (k * mtu)⟩
      rwa [hpl, show 6 + (chunk.length + 8) = 14 + chunk.length by omega] at this
    rw [(hput.trans hsame) _ (by omega)]
    exact h.holds hne i hi hlt
  have hnew : out ≠ 0 → Holds (m.write (out + k * mtu) chunk) out data
      (k * mtu + chunk.length) := by
    intro hne
    have := (hkept hne).write mtu hcont
    rwa [hchunk] at this
  refine .inr ⟨by rw [ht], by rw [ht], ?_⟩
  by_cases hend : data.length ≤ k * mtu + chunk.length
  · refine .inr ⟨by rw [ht, if_pos hend], by rw [Nat.succ_mul]; omega, fun hne => ?_⟩
    rw [ht]
    dsimp only
    rw [if_pos hne]
    exact fun i hi _ => hnew hne i hi (by omega)
  · have hlast : k * mtu + chunk.length = (k + 1) * mtu := by
      rw [Nat.succ_mul]
      omega
    refine .inl ⟨by rw [ht, if_neg hend], ?_, by rw [ht]; exact hlast⟩
    rw [ht]
    refine ⟨?_, by dsimp only; omega, ⟨k + 1, hlast⟩, fun hne => ?_⟩
    · have := h.out_eq
      unfold Reassembly.out at this ⊢
      dsimp only
      split at this <;> split <;> simp_all
    · dsimp only
      rw [if_pos hne]
      exact hnew hne

/-- All turns: a transfer that ends well has the data in place. -/
theorem InPlace.run (hone : 2 ≤ mtu ∨ data.length ≤ 1) (hlen : data.length < 32768) :
    ∀ {arrivals : List (Nat × Packet)} {x : Reassembly}, InPlace malloc out data mtu x →
      (∀ a ∈ arrivals, IsFragment idout data mtu a.2 ∧ Apart out data.length a) →
      (sfpRecvLoop malloc x arrivals).2 = 0 →
      (sfpRecvLoop malloc x arrivals).1.dataout = out ∧
        (sfpRecvLoop malloc x arrivals).1.datasize = data.length ∧
        (out ≠ 0 → Holds (sfpRecvLoop malloc x arrivals).1.ram out data data.length) := by
  intro arrivals
  induction arrivals with
  | nil =>
    intro x _ _ hret
    cases hret
  | cons a arrivals ih =>
    intro x h harr hret
    obtain ⟨p, pk⟩ := a
    obtain ⟨⟨k, hk, rfl⟩, ha⟩ := harr _ List.mem_cons_self
    obtain ⟨j, hj⟩ := h.aligned
    have hcont : k * mtu ≤ x.lastByte + 1 → k * mtu ≤ x.lastByte := by
      rw [hj]
      exact fragment_continues hone hk
    have hturn := h.turn hlen hk hcont ha
    rw [sfpRecvLoop] at hret ⊢
    rcases hturn with ⟨-, hgap⟩ | ⟨hout, hsize, ⟨hmore, hnext, -⟩ | ⟨hdone, -, hdata⟩⟩
    · rw [hgap] at hret
      cases hret
    · rw [hmore] at hret ⊢
      exact ih hnext (fun a ha => harr a (List.mem_cons_of_mem _ ha)) hret
    · rw [hdone]
      exact ⟨hout, hsize, hdata⟩

theorem inPlace_start (h0 : x.lastByte = 0) (hpos : 0 < data.length) :
    InPlace malloc (x.out malloc data.length) data mtu x :=
  ⟨rfl, by omega, ⟨0, by omega⟩, fun _ _ _ hi => by omega⟩

/-- In order, the fragments are all accepted, and the last one completes the data. -/
theorem InPlace.run_in_order (hlen : data.length < 32768) :
    ∀ {n k : Nat} {arrivals : List (Nat × Packet)} {x : Reassembly},
      InPlace malloc out data mtu x → x.lastByte = k * mtu → data.length ≤ (k + n) * mtu →
      (∀ j < k + n, j * mtu < data.length) →
      arrivals.map Prod.snd =
        (List.range' k n).map (fun j => ⟨sfpId idout, sfpPayload data mtu (j * mtu)⟩) →
      (∀ a ∈ arrivals, Apart out data.length a) →
      (sfpRecvLoop malloc x arrivals).2 = 0 ∧
        (sfpRecvLoop malloc x arrivals).1.dataout = out ∧
        (sfpRecvLoop malloc x arrivals).1.datasize = data.length ∧
        (out ≠ 0 → Holds (sfpRecvLoop malloc x arrivals).1.ram out data data.length) := by
  intro n
  induction n with
  | zero =>
    intro k _ x h hlast hend
    have := h.short
    rw [Nat.add_zero] at hend
    omega
  | succ n ih =>
    intro k arrivals x h hlast hend hin harr happ
    rw [List.range'_succ, List.map_cons] at harr
    obtain ⟨⟨p, pk⟩, rest, rfl, hpk, hrest⟩ := List.map_eq_cons_iff.1 harr
    obtain rfl : pk = _ := hpk
    have hcont : k * mtu ≤ x.lastByte + 1 → k * mtu ≤ x.lastByte := by
      intro _
      rw [hlast]
    have hturn := h.turn hlen (hin k (by omega)) hcont (happ _ List.mem_cons_self)
    rw [sfpRecvLoop]
    rcases hturn with ⟨hgap, -⟩ | ⟨hout, hsize, ⟨hmore, hnext, hl⟩ | ⟨hdone, -, hdata⟩⟩
    · omega
    · rw [hmore]
      refine ih hnext hl ?_ ?_ hrest fun a ha => happ a (List.mem_cons_of_mem _ ha)
      · rwa [Nat.add_assoc, Nat.add_comm 1]
      · intro j hj
        exact hin j (by omega)
    · rw [hdone]
      exact ⟨rfl, hout, hsize, hdata⟩

/-- Fragment `j` of a transfer in fragments of one byte. -/
def byteFragment (idout : CspId) (data : List UInt8) (j : Nat) : Nat × Packet :=
  (0, ⟨sfpId idout, sfpPayload data 1 j⟩)

/-- With the first fragment missing the transfer ends well all the same, and where the first byte
belongs is what was there before. -/
theorem first_byte_missing (idout : CspId) (malloc : Nat → Nat) (hlen : data.length < 32768)
    (hout : 1000 ≤ out) :
    ∀ {n k : Nat} {x : Reassembly}, x.dataout = out → k + n = data.length → 0 < n → 0 < k →
      k ≤ x.lastByte + 1 → x.lastByte < 65535 →
      let t := sfpRecvLoop malloc x ((List.range' k n).map (byteFragment idout data))
      t.2 = 0 ∧ t.1.dataout = out ∧ t.1.ram out = x.ram out := by
  intro n
  induction n with
  | zero => omega
  | succ n ih =>
    intro k x hd hk _ hpos hnext hl
    have hpay : sfpPayload data 1 k = fragmentBytes [data[k]] k data.length := by
      rw [sfpPayload, List.drop_eq_getElem_cons (by omega), List.take_succ_cons, List.take_zero]
      rfl
    let y : Reassembly := { x with ram := x.ram.put 0 (byteFragment idout data k).2 }
    have hput : y.ram.packet 0 = ⟨sfpId idout, fragmentBytes [data[k]] k data.length⟩ := by
      rw [← hpay]
      refine packet_put x.ram 0 ?_
      show (sfpPayload data 1 k).length < 65536
      rw [length_sfpPayload]
      omega
    have hyout : y.out malloc data.length = out := by
      rw [Reassembly.out, if_neg (by show x.dataout ≠ 0; omega)]
      exact hd
    obtain ⟨m, hsame, hturn⟩ := sfpRecvTurn_next malloc (flags_sfpId idout) hput
      (by rw [List.length_singleton]; omega) hlen
      (by
        rw [Nat.mod_eq_of_lt (show y.lastByte + 1 < _ by show x.lastByte + 1 < _; omega)]
        exact hnext)
      (by rw [hyout, List.length_singleton]; omega)
    rw [hyout, if_pos (show out ≠ 0 by omega), List.length_singleton] at hturn
    have hkept : Mem.write m (out + k) [data[k]] out = x.ram out := by
      have hlast : (byteFragment idout data k).2.data.length = 9 := by
        show (sfpPayload data 1 k).length = 9
        rw [length_sfpPayload]
        omega
      rw [Mem.write_outside _ (.inl (by omega)), hsame out (by rw [List.length_singleton]; omega)]
      exact sameOutside_put x.ram 0 _ out (by rw [hlast]; omega)
    rw [List.range'_succ, List.map_cons,
      show byteFragment idout data k = (0, (byteFragment idout data k).2) from rfl, sfpRecvLoop]
    dsimp only
    rw [show sfpRecvTurn malloc { x with ram := x.ram.put 0 (byteFragment idout data k).2 } 0 = _
      from hturn]
    by_cases hn : n = 0
    · rw [if_pos (by omega)]
      exact ⟨rfl, rfl, hkept⟩
    · rw [if_neg (by omega)]
      obtain ⟨hret, hdata, hram⟩ := ih (k := k + 1)
        (x := ⟨Mem.write m (out + k) [data[k]], _, out, _, k + 1⟩) rfl (by omega) (by omega)
        (by omega) (Nat.le_succ _) (by show k + 1 < _; omega)
      exact ⟨hret, hdata, hram.trans hkept⟩

/-! ## The transfer -/

variable {crc32 : List UInt8 → BitVec 32}

/-- The frames that reach the bus in a run of `csp_sfp_send`. -/
def sfpSent (crc32 : List UInt8 → BitVec 32) (idout : CspId) (data : List UInt8) (mtu : Nat)
    (turns : List SfpTurn) : List Outlet :=
  (cspSfpSend crc32 boardRoutes idout data mtu 0 turns).1.filterMap SfpLeft.sent

/-- The same frames, one after the other, when the transfer is whole. -/
theorem sfpSent_eq (h : PlainObc idout) {turns : List SfpTurn}
    (hret : (cspSfpSend crc32 boardRoutes idout data mtu 0 turns).2 = some 0) :
    ∃ n, sfpSent crc32 idout data mtu turns =
        (List.range n).map (fun k => .i2c (sfpFrame idout data mtu (k * mtu))) ∧
      data.length ≤ n * mtu ∧ ∀ k < n, k * mtu < data.length := by
  obtain ⟨n, hn⟩ := sent_cspSfpSend h hret
  simp only [Nat.zero_add] at hn
  exact ⟨n, hn⟩

theorem isFragment_of_sent (h : PlainObc idout) {turns : List SfpTurn} {f : WireFrame}
    (hf : Outlet.i2c f ∈ sfpSent crc32 idout data mtu turns) :
    IsFragment idout data mtu (framePacket f.bytes) := by
  rw [sfpSent, ← Nat.zero_mul mtu] at hf
  obtain ⟨k, hk, hfr⟩ := mem_cspSfpSend h hf
  refine ⟨k, hk, ?_⟩
  rw [Outlet.i2c.inj hfr, sfpFrame, framePacket_wire]

/-- Let any frames of a transfer, whole or not, reach a receiver in any order, any number of times:
what it returns as received is what was sent. -/
def SfpSound (crc32 : List UInt8 → BitVec 32) (idout : CspId) (data : List UInt8) (mtu : Nat) :
    Prop :=
  ∀ (turns : List SfpTurn) (malloc : Nat → Nat) (m : Ram) (pool : BufferPool) (dataout : Nat)
      (datasize : Int) (arrivals : List (Nat × Packet)),
    (∀ a ∈ arrivals,
      (∃ f, Outlet.i2c f ∈ sfpSent crc32 idout data mtu turns ∧ a.2 = framePacket f.bytes) ∧
      Apart (if dataout = 0 then malloc data.length else dataout) data.length a) →
    let t := cspSfpRecv malloc m pool dataout datasize arrivals
    t.2 = 0 → t.1.dataout ≠ 0 →
      t.1.datasize = data.length ∧ t.1.ram.read t.1.dataout data.length = data

/-- One byte a fragment: the receiver takes every fragment but the first, where its memory holds
another byte, for all of the data. -/
theorem not_sfpSound_bytes (h : PlainObc idout) (hone : 1 < data.length)
    (hlen : data.length < 32768) : ¬ SfpSound crc32 idout data 1 := by
  intro hsound
  let turns := List.replicate data.length (freshTurn 0)
  have hret : (cspSfpSend crc32 boardRoutes idout data 1 0 turns).2 = some 0 := by
    refine cspSfpSend_complete h (fun y hy => ?_) (by simp [turns])
    rw [List.eq_of_mem_replicate hy, get_freshTurn 0 (by decide)]
    exact ⟨rfl, Option.some_ne_none _⟩
  obtain ⟨n, hsent, hend, -⟩ := sfpSent_eq h hret
  obtain ⟨hzero, hdata, hram⟩ := first_byte_missing idout (fun _ => 0) hlen
    (Nat.le_refl 1000) (n := data.length - 1) (k := 1)
    (x := ⟨fun _ => data[0] + 1, .init, 1000, 0, 0⟩) rfl (by omega) (by omega) (by decide)
    (Nat.le_refl 1) (Nat.zero_lt_succ _)
  have hgood := hsound turns (fun _ => 0) (fun _ => data[0] + 1) .init 1000 0
    ((List.range' 1 (data.length - 1)).map (byteFragment idout data)) ?_ hzero
    (by rw [show cspSfpRecv _ _ _ _ _ _ = sfpRecvLoop _ _ _ from rfl, hdata]; decide)
  · have hread := hgood.2
    rw [show cspSfpRecv _ _ _ _ _ _ = sfpRecvLoop _ _ _ from rfl, hdata] at hread
    have hfirst : (data[0] + 1 : UInt8) = data[0] := by
      have hget := congrArg (fun l => l[0]?) hread
      simp only [List.getElem?_eq_getElem (show 0 < data.length by omega)] at hget
      rw [List.getElem?_eq_getElem (by rw [Mem.length_read]; omega), Mem.getElem_read,
        Nat.add_zero, hram] at hget
      exact Option.some.inj hget
    have hnat := congrArg UInt8.toNat hfirst
    rw [UInt8.toNat_add] at hnat
    have := data[0].toNat_lt
    have h1 : UInt8.toNat 1 = 1 := rfl
    omega
  · intro a ha
    obtain ⟨j, hj, rfl⟩ := List.mem_map.1 ha
    rw [List.mem_range'_1] at hj
    refine ⟨⟨sfpFrame idout data 1 (j * 1), ?_, ?_⟩, .inr (.inr ?_)⟩
    · rw [hsent]
      exact List.mem_map_of_mem (List.mem_range.2 (by omega))
    · rw [sfpFrame, framePacket_wire, Nat.mul_one]
      rfl
    · show 0 + 14 + (sfpPayload data 1 j).length ≤ 1000
      rw [length_sfpPayload]
      omega

/-- Fragments of two bytes or more, or only one fragment. -/
theorem sfpSound_of (h : PlainObc idout) (hone : 2 ≤ mtu ∨ data.length ≤ 1)
    (hlen : data.length < 32768) : SfpSound crc32 idout data mtu := by
  intro turns malloc m pool dataout datasize arrivals harr t hret hout
  have hfrag : ∀ a ∈ arrivals, IsFragment idout data mtu a.2 ∧
      Apart (if dataout = 0 then malloc data.length else dataout) data.length a := by
    intro a ha
    obtain ⟨⟨f, hf, hpk⟩, hap⟩ := harr a ha
    exact ⟨hpk ▸ isFragment_of_sent h hf, hap⟩
  cases arrivals with
  | nil => cases hret
  | cons a rest =>
    obtain ⟨⟨k, hk, -⟩, -⟩ := hfrag a List.mem_cons_self
    obtain ⟨h1, h2, h3⟩ := (inPlace_start (x := ⟨m, pool, dataout, datasize, 0⟩) rfl
      (by omega)).run hone hlen hfrag hret
    refine ⟨h2, ?_⟩
    have hread := (h3 (by rw [← h1]; exact hout)).read
    rw [← h1] at hread
    exact hread

/-- A transfer is sound exactly when its fragments have two bytes or more, or there is only one. -/
theorem reassembly_sound_iff (h : PlainObc idout) (hpos : 0 < mtu) (hlen : data.length < 32768) :
    SfpSound crc32 idout data mtu ↔ 2 ≤ mtu ∨ data.length ≤ 1 := by
  constructor
  · intro hsound
    by_contra hone
    rw [not_or] at hone
    obtain rfl : mtu = 1 := by omega
    exact not_sfpSound_bytes h (by omega) hlen hsound
  · exact fun hone => sfpSound_of h hone hlen

theorem reassembly_sound_iff_bytes : ¬ SfpSound (fun _ => 0) sfpConn [1, 2, 3] 1 := by
  rw [reassembly_sound_iff (show PlainObc sfpConn from ⟨rfl, rfl⟩) (by decide) (by decide)]
  decide

/-- A transfer whose turns get a buffer and a bus is sent, and is received as it was when its
frames arrive in order: in the caller's buffer, or in what `csp_malloc` gives; where that gives
nothing, the data is lost and the length is all that is returned. -/
theorem sfp_round_trip (h : PlainObc idout) (hpos : 0 < data.length)
    (hlen : data.length < 32768) {turns : List SfpTurn}
    (hx : ∀ x ∈ turns, x.accepts = true ∧ (x.get mtu).2 ≠ none)
    (hturns : data.length ≤ turns.length * mtu) (malloc : Nat → Nat) (m : Ram) (pool : BufferPool)
    (dataout : Nat) (datasize : Int) {frames : List WireFrame}
    (hframes : sfpSent crc32 idout data mtu turns = frames.map Outlet.i2c)
    {arrivals : List (Nat × Packet)}
    (harr : arrivals.map Prod.snd = frames.map fun f => framePacket f.bytes)
    (happ : ∀ a ∈ arrivals,
      Apart (if dataout = 0 then malloc data.length else dataout) data.length a) :
    (cspSfpSend crc32 boardRoutes idout data mtu 0 turns).2 = some 0 ∧
      let t := cspSfpRecv malloc m pool dataout datasize arrivals
      let out := if dataout = 0 then malloc data.length else dataout
      t.2 = 0 ∧ t.1.dataout = out ∧ t.1.datasize = data.length ∧
        (out ≠ 0 → t.1.ram.read out data.length = data) := by
  have hret : (cspSfpSend crc32 boardRoutes idout data mtu 0 turns).2 = some 0 :=
    cspSfpSend_complete h hx (by omega)
  refine ⟨hret, ?_⟩
  obtain ⟨n, hsent, hend, hin⟩ := sfpSent_eq h hret
  have hfr : frames = (List.range n).map fun k => sfpFrame idout data mtu (k * mtu) := by
    have hmap : ((List.range n).map fun k => sfpFrame idout data mtu (k * mtu)).map Outlet.i2c =
        frames.map Outlet.i2c := by
      rw [List.map_map]
      exact hsent.symm.trans hframes
    exact ((List.map_inj_right fun _ _ hf => Outlet.i2c.inj hf).1 hmap).symm
  have hpk : arrivals.map Prod.snd =
      (List.range' 0 n).map fun j => ⟨sfpId idout, sfpPayload data mtu (j * mtu)⟩ := by
    rw [harr, hfr, List.map_map, ← List.range_eq_range']
    refine List.map_congr_left fun j _ => ?_
    rw [Function.comp_apply, sfpFrame, framePacket_wire]
  have hstart : InPlace malloc (if dataout = 0 then malloc data.length else dataout) data mtu
      ⟨m, pool, dataout, datasize, 0⟩ :=
    inPlace_start (x := ⟨m, pool, dataout, datasize, 0⟩) rfl hpos
  obtain ⟨hzero, hout, hsize, hdata⟩ := hstart.run_in_order hlen (k := 0) (by simp)
    (by simpa using hend) (by simpa using hin) hpk happ
  exact ⟨hzero, hout, hsize, fun hne => (hdata hne).read⟩

/-- Three bytes in two fragments, to a buffer of the caller's. -/
theorem sfp_round_trip_three :
    let frames := [sfpFrame sfpConn [1, 2, 3] 2 0, sfpFrame sfpConn [1, 2, 3] 2 2]
    let t := cspSfpRecv (fun _ => 0) (fun _ => 0) .init 1000 0
      (frames.map fun f => (cspBufferPool + 4, framePacket f.bytes))
    t.2 = 0 ∧ t.1.dataout = 1000 ∧ t.1.datasize = 3 ∧ t.1.ram.read 1000 3 = [1, 2, 3] := by
  intro frames t
  have hobc : PlainObc sfpConn := ⟨rfl, rfl⟩
  have hturns : ∀ x ∈ List.replicate 2 (freshTurn 0), x.accepts = true ∧ (x.get 2).2 ≠ none := by
    intro x hx
    rw [List.eq_of_mem_replicate hx, get_freshTurn 0 (by decide)]
    exact ⟨rfl, Option.some_ne_none _⟩
  have hframes : sfpSent (fun _ => 0) sfpConn [1, 2, 3] 2 (List.replicate 2 (freshTurn 0)) =
      frames.map Outlet.i2c := by
    have hret : (cspSfpSend (fun _ => 0) boardRoutes sfpConn [1, 2, 3] 2 0
        (List.replicate 2 (freshTurn 0))).2 = some 0 :=
      cspSfpSend_complete hobc hturns (by decide)
    obtain ⟨n, hsent, hend, hin⟩ := sfpSent_eq hobc hret
    simp only [List.length_cons, List.length_nil] at hend hin
    have hn : n = 2 := by
      have := hin (n - 1) (by omega)
      omega
    subst hn
    exact hsent
  have h := sfp_round_trip hobc (by decide) (by decide) hturns
    (by decide) (fun _ => 0) (fun _ => 0) .init 1000 0 hframes
    (show (frames.map fun f => (cspBufferPool + 4, framePacket f.bytes)).map Prod.snd = _ by
      rw [List.map_map]; rfl) ?_
  · obtain ⟨-, hzero, hout, hsize, hdata⟩ := h
    exact ⟨hzero, hout, hsize, hdata (by decide)⟩
  · intro a ha
    obtain ⟨f, -, rfl⟩ := List.mem_map.1 ha
    refine .inr (.inl ?_)
    show 1000 + 3 ≤ cspBufferPool + 4 + 8
    decide

end HmBoard
