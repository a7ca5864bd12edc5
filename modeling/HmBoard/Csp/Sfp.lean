import HmBoard.Csp.Buffer
import HmBoard.Csp.Crc32
import HmBoard.Csp.Receive

/-!
# Fragments (`csp_sfp.c`)

A transfer larger than a packet goes out in fragments: each carries `mtu` bytes of the data and,
after them, a header that says where they belong and how long the whole is.

| here | there |
| --- | --- |
| `cspSfpHeaderAdd`, `cspSfpHeaderRemove` | the helpers of these names (csp_sfp.c:38,45) |
| `sfpFill`, `sfpSendTurn`, `cspSfpSend`  | `csp_sfp_send` (csp_sfp.c:51), and a turn of its loop |
| `sfpReadHeader`, `sfpRecvTurn`, `sfpRecvLoop`, `cspSfpRecv` | `csp_sfp_recv` (csp_sfp.c:95), and a turn of its loop |

Both functions wait between two packets, so that a turn of the sender takes the memory and the
buffers as it finds them, and the receiver is given, for each call of `csp_read`, the packet and the
buffer it is in. `malloc` stands for `csp_malloc`: nothing is freed on this heap, so that a request
it refused it refuses again. An `int` has 16 bits.
-/

namespace HmBoard

open Lib

/-- `CSP_FFRAG`. -/
def cspFfrag : BitVec 8 := 0x10

namespace Ram

/-- A `uint32_t` in memory. -/
def word (m : Ram) (a : Nat) : BitVec 32 := .ofNat 32 (leNat (m.read a 4))
def setWord (m : Ram) (a : Nat) (w : BitVec 32) : Ram := m.write a (leBytes 4 w.toNat)

/-- A packet stored in a buffer. -/
def put (m : Ram) (p : Nat) (pk : Packet) : Ram :=
  Mem.write ((m.setLength p pk.data.length).setId p pk.id) (p + 14) pk.data

end Ram

/-- The header comes after the payload, which it becomes a part of. -/
def cspSfpHeaderAdd (m : Ram) (p : Nat) : Ram × Nat :=
  let header := p + 14 + m.length p
  ((m.setLength p (m.length p + 8)).write header (List.replicate 8 0), header)

/-- `length` has 16 bits: that of a packet shorter than a header wraps around. -/
def cspSfpHeaderRemove (m : Ram) (p : Nat) : Ram × Nat :=
  let length := (m.length p + 65528) % 65536
  (m.setLength p length, p + 14 + length)

/-! ## `csp_sfp_send` -/

/-- What is put into a packet: `size` bytes of the data from `count` on, and the header. -/
def sfpFill (m : Ram) (p : Nat) (data : List UInt8) (count size : Nat) : Ram :=
  let m := Ram.setLength (m.write (p + 14) ((data.drop count).take size)) p size
  let t := cspSfpHeaderAdd m p
  let m := t.1.setWord (t.2 + 4) (cspHton32 (.ofNat 32 data.length))
  m.setWord t.2 (cspHton32 (.ofNat 32 count))

/-- What a turn finds. -/
structure SfpTurn where
  ram : Ram
  pool : BufferPool
  ofPool : ∀ p ∈ pool.free, p ∈ cspBuffers
  /-- Whether the TWI master takes the frame. -/
  accepts : Bool

/-- What a turn leaves. -/
structure SfpLeft where
  ram : Ram
  pool : BufferPool
  /-- The packet on its way, if `csp_send` took it. -/
  sent : Option Outlet

variable (crc32 : List UInt8 → BitVec 32) (r : Routes)

/-- `csp_buffer_get(mtu)` of a turn. -/
def SfpTurn.get (x : SfpTurn) (mtu : Nat) : BufferPool × Option Nat :=
  cspBufferGet (x.pool.inRam x.ram) mtu

/-- A turn of the loop; `csp_send` of an open connection is `csp_send_direct`. What is written past
the end of a buffer may spoil the next one. -/
def sfpSendTurn (idout : CspId) (data : List UInt8) (mtu count : Nat) (x : SfpTurn) : SfpLeft :=
  let t := x.get mtu
  match t.2 with
  | none => ⟨x.ram, t.1, none⟩
  | some p =>
    let m := sfpFill x.ram p data count (min (data.length - count) mtu)
    let s := cspSendDirect crc32 r x.accepts { idout with flags := idout.flags ||| cspFfrag } m p
    let pool := t.1.inRam s.ram
    if s.err ≠ cspErrNone then ⟨s.ram, cspBufferFree pool p, none⟩ else ⟨s.ram, pool, s.outlet⟩

/-- The turns that were made, and what is returned: nothing while it is still sending. -/
def cspSfpSend (idout : CspId) (data : List UInt8) (mtu : Nat) :
    Nat → List SfpTurn → List SfpLeft × Option Int
  | count, turns =>
    if data.length ≤ count then ([], some 0)
    else
      match turns with
      | [] => ([], none)
      | x :: turns =>
        let left := sfpSendTurn crc32 r idout data mtu count x
        if left.sent = none then ([left], some (-1))
        else
          let t := cspSfpSend idout data mtu (count + min (data.length - count) mtu) turns
          (left :: t.1, t.2)

/-! ### What is sent -/

/-- The fragment that starts at `count`: what the packet says. -/
def sfpPayload (data : List UInt8) (mtu count : Nat) : List UInt8 :=
  (data.drop count).take mtu ++ ((leBytes 4 count).reverse ++ (leBytes 4 data.length).reverse)

section

variable (m : Ram) (p : Nat) (data : List UInt8)

theorem leBytes_ofNat (n : Nat) : leBytes 4 (BitVec.ofNat 32 n).toNat = leBytes 4 n := by
  have h := leBytes_leNat (leBytes 4 n)
  rwa [leNat_leBytes, length_leBytes] at h

/-- The packet that is made: the bytes of the data, and the header in network order. -/
theorem payload_sfpFill (count mtu : Nat) (h : min (data.length - count) mtu + 8 < 65536) :
    (sfpFill m p data count (min (data.length - count) mtu)).payload p =
      sfpPayload data mtu count := by
  have hchunk : (data.drop count).take (min (data.length - count) mtu) =
      (data.drop count).take mtu := by
    rw [List.take_eq_take_min (i := mtu), List.length_drop, Nat.min_comm]
  generalize hs : min (data.length - count) mtu = size at h hchunk ⊢
  have hlen : ((data.drop count).take mtu).length = size := by
    rw [List.length_take, List.length_drop, ← hs, Nat.min_comm]
  have hl : ∀ m' : Ram, (m'.setLength p size).length p = size :=
    fun m' => Ram.length_setLength m' p (by omega)
  simp only [sfpFill, cspSfpHeaderAdd, hl, hchunk]
  generalize hw : Mem.write m (p + 14) ((data.drop count).take mtu) = w
  have hhdr : ∀ (m' : Ram) (bs bs' : List UInt8), bs.length = 4 → bs'.length = 4 →
      (((m'.write (p + 14 + size) (List.replicate 8 0)).write (p + 14 + size + 4) bs).write
        (p + 14 + size) bs').read (p + 14 + size) 8 = bs' ++ bs := by
    intro m' bs bs' h1 h2
    rw [show (8 : Nat) = 4 + 4 from rfl, Mem.read_add]
    congr 1
    · rw [← h2, Mem.read_write_self]
    · rw [Mem.read_write_disjoint _ (.inr (by omega)), ← h1, Mem.read_write_self]
  have hnew : ∀ (m' : Ram) (bs bs' bs'' : List UInt8),
      Ram.length ((((m'.setLength p (size + 8)).write (p + 14 + size) bs).write
        (p + 14 + size + 4) bs').write (p + 14 + size) bs'') p = size + 8 := by
    intro m' bs bs' bs''
    rw [Ram.length_write _ p (.inr (by omega)), Ram.length_write _ p (.inr (by omega)),
      Ram.length_write _ p (.inr (by omega)), Ram.length_setLength _ p (by omega)]
  simp only [Ram.setWord]
  rw [Ram.payload, hnew, Mem.read_add, sfpPayload]
  congr 1
  · rw [Mem.read_write_disjoint _ (.inl (by omega)), Mem.read_write_disjoint _ (.inl (by omega)),
      Mem.read_write_disjoint _ (.inl (by omega)), Ram.setLength, Ram.setLength,
      Mem.read_write_disjoint _ (.inr (by simp)), Mem.read_write_disjoint _ (.inr (by simp)),
      ← hw, ← hlen, Mem.read_write_self]
  · rw [hhdr _ _ _ (length_leBytes 4 _) (length_leBytes 4 _), leBytes_hton32, leBytes_hton32,
      leBytes_ofNat, leBytes_ofNat]

/-- Everything is written inside the buffer, as long as the header fits. -/
theorem sameOutside_sfpFill {count size : Nat} (h : size ≤ 64) :
    Mem.SameOutside p cspBufferSize m (sfpFill m p data count size) := by
  have hb : cspBufferSize = 86 := rfl
  have hl : Ram.length (Ram.setLength (m.write (p + 14) ((data.drop count).take size)) p size) p =
      size := Ram.length_setLength _ p (by omega)
  simp only [sfpFill, cspSfpHeaderAdd, hl]
  have htake : ((data.drop count).take size).length ≤ size := List.length_take_le _ _
  refine Mem.SameOutside.trans ?_ (Mem.sameOutside_write _ (by omega) (by simp [hb]; omega))
  refine Mem.SameOutside.trans ?_ (Mem.sameOutside_write _ (by omega) (by simp [hb]; omega))
  refine Mem.SameOutside.trans ?_ (Mem.sameOutside_write _ (by omega) (by simp [hb]; omega))
  refine Mem.SameOutside.trans ?_ (Mem.sameOutside_write _ (by omega) (by simp [hb]))
  refine Mem.SameOutside.trans ?_ (Mem.sameOutside_write _ (by omega) (by simp [hb]))
  exact Mem.sameOutside_write _ (by omega) (by omega)

end

variable {crc32} {idout : CspId} {data : List UInt8} {mtu count : Nat}

/-- A connection to the OBC without checksum, HMAC or encryption. -/
structure PlainObc (idout : CspId) : Prop where
  dst : idout.dst.toNat = cspObcAddress
  flags : idout.flags &&& (cspFhmac ||| cspFcrc32 ||| cspFxtea) = 0

/-- The flag of a fragment is none of the others. -/
theorem or_cspFfrag_and (flags : BitVec 8) {f : BitVec 8} (hf : cspFfrag &&& f = 0) :
    (flags ||| cspFfrag) &&& f = flags &&& f := by
  rw [BitVec.and_or_distrib_right, hf]
  exact BitVec.or_zero

/-- The header of its fragments. -/
def sfpId (idout : CspId) : CspId := { idout with flags := idout.flags ||| cspFfrag }

/-- The frame of the fragment that starts at `count`. -/
def sfpFrame (idout : CspId) (data : List UInt8) (mtu count : Nat) : WireFrame :=
  ⟨1, (sfpId idout).wire ++ sfpPayload data mtu count⟩

theorem cspSendDirect_fragment (crc32 : List UInt8 → BitVec 32) (h : PlainObc idout)
    (accepts : Bool) (m : Ram) (p : Nat) (hl : m.length p < 252) :
    (cspSendDirect crc32 boardRoutes accepts (sfpId idout) m p).err =
        (if accepts then cspErrNone else cspErrTx) ∧
      (cspSendDirect crc32 boardRoutes accepts (sfpId idout) m p).outlet =
        some (.i2c ⟨1, (sfpId idout).wire ++ m.payload p⟩) := by
  have hflags : ∀ f ∈ [cspFhmac, cspFcrc32, cspFxtea], (sfpId idout).flags &&& f = 0 := by
    have hf := h.flags
    intro f hmem
    rw [sfpId, or_cspFfrag_and idout.flags (by revert f; decide)]
    generalize idout.flags = flags at hf
    revert f flags
    decide
  have hd : (sfpId idout).dst.toNat = cspObcAddress := h.dst
  have hh := hflags cspFhmac (by simp)
  have hc := hflags cspFcrc32 (by simp)
  have hx := hflags cspFxtea (by simp)
  have hframe : (cspI2cTx 1 (m.setId p (sfpId idout)) p).2 = _ :=
    cspI2cTx_frame (m.setId p (sfpId idout)) p (by decide)
      (by rwa [Ram.setId, Ram.setExt, Ram.length_write _ p (.inr (by omega))])
  have hpay : (m.setId p (sfpId idout)).payload p = m.payload p := by
    rw [Ram.payload, Ram.payload, Ram.setId, Ram.setExt, Ram.length_write _ p (.inr (by omega)),
      Mem.read_write_disjoint _ (.inr (by simp))]
  rw [hpay, Ram.setId, Ram.ext_setExt] at hframe
  simp only [cspSendDirect, hd, routeIf_obc, hh, hc, hx, ne_eq, not_true, and_false, if_false,
    true_and]
  exact congrArg (fun f => some (Outlet.i2c f)) hframe

theorem length_sfpPayload : (sfpPayload data mtu count).length =
    min (data.length - count) mtu + 8 := by
  simp [sfpPayload, Nat.min_comm]

theorem length_sfpFill (m : Ram) (p : Nat) (data : List UInt8) (count mtu : Nat)
    (h : min (data.length - count) mtu + 8 < 65536) :
    Ram.length (sfpFill m p data count (min (data.length - count) mtu)) p =
      min (data.length - count) mtu + 8 := by
  have hlen := congrArg List.length (payload_sfpFill m p data count mtu h)
  rwa [Ram.payload, Mem.length_read, length_sfpPayload] at hlen

/-- A buffer of the pool, and no more than it holds. -/
theorem SfpTurn.get_some {x : SfpTurn} {p : Nat} (hp : (x.get mtu).2 = some p) :
    mtu ≤ 72 ∧ p ∈ cspBuffers := by
  refine ⟨?_, x.ofPool p (cspBufferGet_mem (b := x.pool.inRam x.ram) hp)⟩
  by_contra hbig
  rw [SfpTurn.get, cspBufferGet_large _ (by
    simp only [cspBufferPacketOverhead, cspBufferSize]; omega)] at hp
  cases hp

/-- A turn that gets a buffer offers its fragment to the TWI master. -/
theorem outlet_sfpSendTurn (crc32 : List UInt8 → BitVec 32) (h : PlainObc idout)
    (data : List UInt8) (count : Nat) {x : SfpTurn} {p : Nat} (hp : (x.get mtu).2 = some p) :
    (sfpSendTurn crc32 boardRoutes idout data mtu count x).sent =
      if x.accepts then some (.i2c (sfpFrame idout data mtu count)) else none := by
  have hmtu := (SfpTurn.get_some hp).1
  have hpay := payload_sfpFill x.ram p data count mtu (by omega)
  have hl : Ram.length (sfpFill x.ram p data count (min (data.length - count) mtu)) p < 252 := by
    rw [length_sfpFill x.ram p data count mtu (by omega)]
    omega
  obtain ⟨herr, hout⟩ := cspSendDirect_fragment crc32 h x.accepts _ p hl
  unfold sfpId at herr hout
  rw [hpay] at hout
  cases ha : x.accepts <;>
    simp [sfpSendTurn, hp, ha, ha ▸ herr, ha ▸ hout, cspErrTx, cspErrNone, sfpFrame, sfpId]

/-- A turn sends the fragment, or nothing. -/
theorem sent_sfpSendTurn (h : PlainObc idout) {x : SfpTurn} {o : Outlet}
    (hs : (sfpSendTurn crc32 boardRoutes idout data mtu count x).sent = some o) :
    o = .i2c (sfpFrame idout data mtu count) := by
  cases hget : (x.get mtu).2 with
  | none => simp [sfpSendTurn, hget] at hs
  | some p =>
    rw [outlet_sfpSendTurn crc32 h data count hget] at hs
    split at hs
    · exact (Option.some.inj hs).symm
    · cases hs

theorem cspSfpSend_done (turns : List SfpTurn) (h : data.length ≤ count) :
    cspSfpSend crc32 boardRoutes idout data mtu count turns = ([], some 0) := by
  cases turns <;> rw [cspSfpSend, if_pos h]

/-- A turn that sends, and the rest. -/
theorem cspSfpSend_cons {x : SfpTurn} (turns : List SfpTurn) (hc : count < data.length) {o : Outlet}
    (ho : (sfpSendTurn crc32 boardRoutes idout data mtu count x).sent = some o) :
    cspSfpSend crc32 boardRoutes idout data mtu count (x :: turns) =
      (sfpSendTurn crc32 boardRoutes idout data mtu count x ::
          (cspSfpSend crc32 boardRoutes idout data mtu (count + min (data.length - count) mtu)
            turns).1,
        (cspSfpSend crc32 boardRoutes idout data mtu (count + min (data.length - count) mtu)
          turns).2) := by
  rw [cspSfpSend, if_neg (by omega)]
  simp [ho]

/-- A whole transfer sends the fragments from `count` on, one after the other. -/
theorem sent_cspSfpSend (h : PlainObc idout) :
    ∀ {turns : List SfpTurn} {count : Nat},
      (cspSfpSend crc32 boardRoutes idout data mtu count turns).2 = some 0 →
      ∃ n, (cspSfpSend crc32 boardRoutes idout data mtu count turns).1.filterMap SfpLeft.sent =
          (List.range n).map (fun k => .i2c (sfpFrame idout data mtu (count + k * mtu))) ∧
        data.length ≤ count + n * mtu ∧ ∀ k < n, count + k * mtu < data.length := by
  intro turns
  induction turns with
  | nil =>
    intro count hret
    have hdone : data.length ≤ count := by
      by_contra hc
      rw [cspSfpSend, if_neg hc] at hret
      cases hret
    refine ⟨0, ?_, by omega, by simp⟩
    rw [cspSfpSend_done [] hdone]
    rfl
  | cons x turns ih =>
    intro count hret
    by_cases hdone : data.length ≤ count
    · refine ⟨0, ?_, by omega, by simp⟩
      rw [cspSfpSend_done _ hdone]
      rfl
    cases ho : (sfpSendTurn crc32 boardRoutes idout data mtu count x).sent with
    | none =>
      rw [cspSfpSend, if_neg hdone] at hret
      simp [ho] at hret
    | some o =>
      rw [cspSfpSend_cons turns (by omega) ho] at hret ⊢
      obtain ⟨n, hsent, hend, hin⟩ := ih hret
      obtain rfl := sent_sfpSendTurn h ho
      by_cases hlast : data.length - count ≤ mtu
      · -- the last fragment ends where the data does
        have hn : n = 0 := by
          by_contra hpos
          have := hin 0 (by omega)
          omega
        subst hn
        refine ⟨1, ?_, by omega, ?_⟩
        · simp only [List.filterMap_cons, ho, hsent]
          simp
        · intro k hk
          have hk0 : k = 0 := by omega
          subst hk0
          omega
      · rw [Nat.min_eq_right (by omega)] at hsent hend hin
        have hstep : ∀ k, count + mtu + k * mtu = count + (k + 1) * mtu := by
          intro k
          rw [Nat.succ_mul]
          omega
        refine ⟨n + 1, ?_, by rw [← hstep]; exact hend, ?_⟩
        · rw [Nat.min_eq_right (by omega)]
          simp only [List.filterMap_cons, ho, hsent, List.range_succ_eq_map, List.map_cons,
            List.map_map, Function.comp_def, hstep, Nat.zero_mul, Nat.add_zero, Nat.succ_eq_add_one]
        · intro k hk
          cases k with
          | zero => omega
          | succ k => rw [← hstep]; exact hin k (by omega)

/-- Whatever becomes of a transfer, only its fragments are sent. -/
theorem mem_cspSfpSend (h : PlainObc idout) {o : Outlet} :
    ∀ {turns : List SfpTurn} {k : Nat},
      o ∈ (cspSfpSend crc32 boardRoutes idout data mtu (k * mtu) turns).1.filterMap SfpLeft.sent →
      ∃ j, j * mtu < data.length ∧ o = .i2c (sfpFrame idout data mtu (j * mtu)) := by
  intro turns
  induction turns with
  | nil =>
    intro k ho
    rw [cspSfpSend] at ho
    split at ho <;> simp at ho
  | cons x turns ih =>
    intro k ho
    by_cases hdone : data.length ≤ k * mtu
    · rw [cspSfpSend_done _ hdone] at ho
      simp at ho
    cases hx : (sfpSendTurn crc32 boardRoutes idout data mtu (k * mtu) x).sent with
    | none =>
      rw [cspSfpSend, if_neg hdone] at ho
      simp [hx] at ho
    | some o' =>
      rw [cspSfpSend_cons turns (by omega) hx] at ho
      simp only [List.filterMap_cons, hx, List.mem_cons] at ho
      rcases ho with rfl | ho
      · exact ⟨k, by omega, sent_sfpSendTurn h hx⟩
      by_cases hlast : data.length - k * mtu ≤ mtu
      · rw [Nat.min_eq_left hlast, cspSfpSend_done _ (by omega)] at ho
        simp at ho
      · rw [Nat.min_eq_right (by omega), ← Nat.succ_mul] at ho
        exact ih ho

/-- A transfer whose turns all get a buffer and a bus comes to its end. -/
theorem cspSfpSend_complete (h : PlainObc idout) :
    ∀ {turns : List SfpTurn} {count : Nat},
      (∀ x ∈ turns, x.accepts = true ∧ (x.get mtu).2 ≠ none) →
      data.length ≤ count + turns.length * mtu →
      (cspSfpSend crc32 boardRoutes idout data mtu count turns).2 = some 0 := by
  intro turns
  induction turns with
  | nil =>
    intro count _ hend
    rw [cspSfpSend_done [] (by simpa using hend)]
  | cons x turns ih =>
    intro count hx hend
    by_cases hdone : data.length ≤ count
    · rw [cspSfpSend_done _ hdone]
    obtain ⟨ha, hf⟩ := hx x List.mem_cons_self
    obtain ⟨p, hp⟩ := Option.ne_none_iff_exists'.1 hf
    have hsent := outlet_sfpSendTurn crc32 h data count hp
    rw [ha, if_pos rfl] at hsent
    rw [cspSfpSend_cons turns (by omega) hsent]
    refine ih (fun y hy => hx y (List.mem_cons_of_mem _ hy)) ?_
    rw [List.length_cons, Nat.succ_mul] at hend
    omega

/-! ### Where it is written -/

/-- `csp_send_direct` appends a checksum: without HMAC in this build, it stops before. -/
def Checksummed (idout : CspId) : Prop :=
  idout.src.toNat = cspMyAddress ∧ idout.flags &&& cspFhmac = 0 ∧ idout.flags &&& cspFcrc32 ≠ 0

instance (idout : CspId) : Decidable (Checksummed idout) :=
  inferInstanceAs (Decidable (_ ∧ _ ∧ _))

/-- The flag of a fragment is not one of these. -/
theorem checksummed_sfpId : Checksummed (sfpId idout) ↔ Checksummed idout := by
  have hhmac := or_cspFfrag_and idout.flags (f := cspFhmac) rfl
  have hcrc := or_cspFfrag_and idout.flags (f := cspFcrc32) rfl
  simp only [Checksummed, sfpId, hhmac, hcrc]

/-- The packet with its checksum. -/
def sfpPacked (crc32 : List UInt8 → BitVec 32) (idout : CspId) (m : Ram) (p : Nat) : Ram :=
  if Checksummed idout then cspCrc32Append crc32 m p else m

/-- `csp_send_direct` appends the checksum; all else it writes is before the payload. -/
theorem ram_cspSendDirect (crc32 : List UInt8 → BitVec 32) (accepts : Bool) (i : CspId) (m : Ram)
    (p : Nat) :
    Mem.SameOutside p 14 (sfpPacked crc32 i m p)
      (cspSendDirect crc32 boardRoutes accepts i m p).ram := by
  obtain ⟨ifout, hroute⟩ : ∃ ifout, boardRoutes.routeIf i.dst.toNat = some ifout := by
    by_cases hd : i.dst.toNat = cspObcAddress
    · exact ⟨_, by rw [hd]; exact routeIf_obc⟩
    · exact ⟨_, routeIf_lo hd⟩
  simp only [cspSendDirect, hroute]
  by_cases hmac : i.src.toNat = cspMyAddress ∧ i.flags &&& cspFhmac ≠ 0
  · rw [if_pos hmac, sfpPacked, if_neg fun h => hmac.2 h.2.1]
    exact .refl m
  have hpacked : sfpPacked crc32 i m p =
      if i.src.toNat = cspMyAddress ∧ i.flags &&& cspFcrc32 ≠ 0 then cspCrc32Append crc32 m p
      else m := by
    refine if_congr ⟨fun h => ⟨h.1, h.2.2⟩, fun h => ⟨h.1, ?_, h.2⟩⟩ rfl rfl
    by_contra hf
    exact hmac ⟨h.1, hf⟩
  rw [if_neg hmac, hpacked]
  generalize hm : (if i.src.toNat = cspMyAddress ∧ i.flags &&& cspFcrc32 ≠ 0 then
    cspCrc32Append crc32 m p else m) = m'
  by_cases hxtea : i.src.toNat = cspMyAddress ∧ i.flags &&& cspFxtea ≠ 0
  · rw [if_pos hxtea]
    exact .refl m'
  rw [if_neg hxtea]
  cases ifout.interface with
  | i2c => exact (sameOutside_setId m' p i).trans (sameOutside_cspI2cTx _ _ p)
  | lo => exact sameOutside_setId m' p i

/-- What a turn with a buffer leaves in memory, but for the 14 bytes before the payload. -/
theorem ram_sfpSendTurn (crc32 : List UInt8 → BitVec 32) (idout : CspId) (data : List UInt8)
    (count : Nat) {x : SfpTurn} {p : Nat} (hp : (x.get mtu).2 = some p) :
    Mem.SameOutside p 14
      (sfpPacked crc32 (sfpId idout)
        (sfpFill x.ram p data count (min (data.length - count) mtu)) p)
      (sfpSendTurn crc32 boardRoutes idout data mtu count x).ram := by
  have hram := ram_cspSendDirect crc32 x.accepts (sfpId idout)
    (sfpFill x.ram p data count (min (data.length - count) mtu)) p
  simp only [sfpSendTurn, hp]
  split <;> exact hram

/-- The packet as it leaves, header and checksum included. -/
theorem payload_sfpPacked (crc32 : List UInt8 → BitVec 32) (idout : CspId) (m : Ram) (p : Nat)
    (data : List UInt8) (count : Nat) (hmtu : mtu ≤ 72) :
    (sfpPacked crc32 idout (sfpFill m p data count (min (data.length - count) mtu)) p).payload p =
      sfpPayload data mtu count ++
        if Checksummed idout then checksum crc32 (sfpPayload data mtu count) else [] := by
  have hpay := payload_sfpFill m p data count mtu (by omega)
  have hlen := length_sfpFill m p data count mtu (by omega)
  unfold sfpPacked
  split
  · have hpk := packet_crc32Append crc32 (sfpFill m p data count (min (data.length - count) mtu)) p
      (by rw [hlen]; omega)
    rw [(Packet.mk.inj hpk).2, hpay]
  · rw [hpay, List.append_nil]

/-- A turn that has room for the header, and for the checksum, writes inside its buffer. -/
theorem sfpSendTurn_inside (crc32 : List UInt8 → BitVec 32) (idout : CspId) (data : List UInt8)
    (count : Nat) {x : SfpTurn} {p : Nat} (hp : (x.get mtu).2 = some p)
    (h : min (data.length - count) mtu ≤ if Checksummed idout then 60 else 64) :
    Mem.SameOutside p cspBufferSize x.ram
      (sfpSendTurn crc32 boardRoutes idout data mtu count x).ram := by
  have hmtu := (SfpTurn.get_some hp).1
  have hlen := length_sfpFill x.ram p data count mtu (by omega)
  have hfill : Mem.SameOutside p cspBufferSize x.ram
      (sfpFill x.ram p data count (min (data.length - count) mtu)) :=
    sameOutside_sfpFill x.ram p data (by split at h <;> omega)
  refine hfill.trans (.trans ?_ fun a ha => ram_sfpSendTurn crc32 idout data count hp a
    (by simp only [cspBufferSize] at ha; omega))
  unfold sfpPacked
  rw [if_congr checksummed_sfpId rfl rfl]
  split
  · next hsum =>
    rw [if_pos hsum] at h
    refine Mem.SameOutside.trans (Mem.sameOutside_write _ (by omega) ?_)
      (Mem.sameOutside_write _ (by omega) ?_)
    · rw [hlen, length_leBytes, cspBufferSize]
      omega
    · rw [length_leBytes, cspBufferSize]
      omega
  · exact .refl _

/-- The turns of a transfer, one by one. -/
theorem zip_cspSfpSend : ∀ {turns : List SfpTurn} {count : Nat} {t : SfpTurn × SfpLeft},
    t ∈ turns.zip (cspSfpSend crc32 boardRoutes idout data mtu count turns).1 →
      ∃ c, t.2 = sfpSendTurn crc32 boardRoutes idout data mtu c t.1 := by
  intro turns
  induction turns with
  | nil =>
    intro count t ht
    simp at ht
  | cons x turns ih =>
    intro count t ht
    by_cases hdone : data.length ≤ count
    · rw [cspSfpSend_done _ hdone] at ht
      simp at ht
    rw [cspSfpSend, if_neg hdone] at ht
    dsimp only at ht
    split at ht
    · simp only [List.zip_cons_cons, List.zip_nil_right, List.mem_singleton] at ht
      subst ht
      exact ⟨count, rfl⟩
    · simp only [List.zip_cons_cons, List.mem_cons] at ht
      rcases ht with rfl | ht
      · exact ⟨count, rfl⟩
      · exact ih ht

/-- Every turn of a transfer leaves the memory outside its buffer alone. -/
def SfpInside (crc32 : List UInt8 → BitVec 32) (idout : CspId) (data : List UInt8) (mtu : Nat) :
    Prop :=
  ∀ turns : List SfpTurn,
    ∀ t ∈ turns.zip (cspSfpSend crc32 boardRoutes idout data mtu 0 turns).1,
      ∀ p, (t.1.get mtu).2 = some p → Mem.SameOutside p cspBufferSize t.1.ram t.2.ram

/-- The first turn of a board that has just started, but for the `n` users of the other buffers. -/
def freshTurn (n : UInt8) : SfpTurn := ⟨skbfRam n, .init, fun _ h => h, true⟩

theorem get_freshTurn (n : UInt8) (hmtu : mtu ≤ 72) :
    ((freshTurn n).get mtu).2 = some (cspBufferPool + 4) := by
  have hfree : (BufferPool.init.inRam (skbfRam n)).free =
      (cspBufferPool + 4) :: cspBuffers.tail := rfl
  unfold SfpTurn.get cspBufferGet
  rw [if_neg (by simp only [cspBufferPacketOverhead, cspBufferSize]; omega)]
  simp only [freshTurn, hfree, inRam_skbfRam, List.not_mem_nil, if_false]

/-- A transfer keeps to its buffers exactly when its fragments have at most 64 bytes, or 60 with a
checksum, or so many that `csp_buffer_get` refuses: header and checksum are not asked for. -/
theorem sfp_inside_iff :
    SfpInside crc32 idout data mtu ↔
      min data.length mtu ≤ (if Checksummed idout then 60 else 64) ∨ 72 < mtu := by
  constructor
  · intro hinside
    by_contra hbig
    rw [not_or, Nat.not_lt] at hbig
    obtain ⟨hbig, hmtu⟩ := hbig
    -- the byte that is written where the `refcount` of the next buffer is
    have hpay := fun m => payload_sfpPacked crc32 (sfpId idout) m (cspBufferPool + 4) data 0 hmtu
    generalize hfull : (sfpPayload data mtu 0 ++
      if Checksummed (sfpId idout) then checksum crc32 (sfpPayload data mtu 0) else []) = full at hpay
    have hlen : 72 < full.length := by
      rw [← hfull, List.length_append, length_sfpPayload, if_congr checksummed_sfpId rfl rfl]
      by_cases hsum : Checksummed idout
      · rw [if_pos hsum] at hbig ⊢
        rw [length_checksum]
        omega
      · rw [if_neg hsum] at hbig ⊢
        rw [List.length_nil]
        omega
    let x := freshTurn (full[72] + 1)
    have hget : (x.get mtu).2 = some (cspBufferPool + 4) := get_freshTurn _ hmtu
    have hram := ram_sfpSendTurn crc32 idout data 0 hget (cspBufferPool + 4 + 86) (by omega)
    have hkept := hinside [x] (x, sfpSendTurn crc32 boardRoutes idout data mtu 0 x)
      (by
        rw [cspSfpSend, if_neg (by split at hbig <;> omega)]
        dsimp only
        split <;> exact List.mem_cons_self) _ hget (cspBufferPool + 4 + 86)
      (by rw [cspBufferSize]; omega)
    have hold : x.ram (cspBufferPool + 4 + 86) = full[72] + 1 := rfl
    have hnew : sfpPacked crc32 (sfpId idout)
        (sfpFill x.ram (cspBufferPool + 4) data 0 (min (data.length - 0) mtu)) (cspBufferPool + 4)
          (cspBufferPool + 4 + 86) = full[72] := by
      have hread := congrArg (fun l => l[72]?) (hpay x.ram)
      have hsize := hlen
      rw [← hpay x.ram] at hsize
      rw [List.getElem?_eq_getElem hlen, List.getElem?_eq_getElem hsize] at hread
      exact (Mem.getElem_read _ (a := cspBufferPool + 4 + 14) hsize).symm.trans
        (Option.some.inj hread)
    rw [hnew, hkept, hold] at hram
    have hnat := congrArg UInt8.toNat hram
    rw [UInt8.toNat_add] at hnat
    have := full[72].toNat_lt
    have h1 : UInt8.toNat 1 = 1 := rfl
    omega
  · rintro hsmall turns t ht p hp
    obtain ⟨c, hc⟩ := zip_cspSfpSend ht
    rw [hc]
    have hmtu := (SfpTurn.get_some hp).1
    exact sfpSendTurn_inside crc32 idout data c hp (by omega)

/-- A connection to port 20 of the OBC. -/
def sfpConn : CspId := { pri := 2, src := 6, dst := 1, dport := 20, sport := 33, flags := 0 }

/-- With a checksum 61 bytes are too many. -/
theorem sfp_inside_iff_full :
    ¬ SfpInside (fun _ => 0) { sfpConn with flags := cspFcrc32 } (List.replicate 100 0) 61 := by
  rw [sfp_inside_iff]
  decide

/-! ## `csp_sfp_recv` -/

/-- `*dataout` (0 is `NULL`), `*datasize`, and `last_byte`, an `unsigned int`. -/
structure Reassembly where
  ram : Ram
  pool : BufferPool
  dataout : Nat
  datasize : Int
  lastByte : Nat

variable (malloc : Nat → Nat)

/-- The header of the packet at `p`, taken off and in host order. -/
def sfpReadHeader (m : Ram) (p : Nat) : Ram × Nat :=
  let t := cspSfpHeaderRemove m p
  let m := t.1.setWord t.2 (cspHton32 (t.1.word t.2))
  (m.setWord (t.2 + 4) (cspHton32 (m.word (t.2 + 4))), t.2)

/-- A turn of the loop, with a packet at `p`; a packet that is no fragment stays allocated. -/
def sfpRecvTurn (x : Reassembly) (p : Nat) : Reassembly × Option Int :=
  if (x.ram.id p).flags &&& cspFfrag = 0 then (x, some (-1))
  else
    let t := sfpReadHeader x.ram p
    let m := t.1
    let free := cspBufferFree x.pool p
    if (m.word t.2).toNat > (x.lastByte + 1) % 65536 then
      ({ x with ram := m, pool := free }, some (-1))
    else
      let lastByte := ((m.word t.2).toNat + m.length p) % 65536
      let out := if x.dataout = 0 then malloc ((m.word (t.2 + 4)).toNat % 65536) else x.dataout
      let size := ((m.word (t.2 + 4)).setWidth 16).toInt
      let m : Ram :=
        if out ≠ 0 then m.write (out + (m.word t.2).toNat) (m.payload p) else m
      (⟨m, free, out, size, lastByte⟩,
        if ((m.word t.2).toNat + m.length p) % 4294967296 ≥ (m.word (t.2 + 4)).toNat then some 0
        else none)

/-- `csp_read` gives these packets, each in the buffer at the address before it, and then nothing
until its timeout. -/
def sfpRecvLoop : Reassembly → List (Nat × Packet) → Reassembly × Int
  | x, [] => (x, -1)
  | x, (p, pk) :: arrivals =>
    let t := sfpRecvTurn malloc { x with ram := x.ram.put p pk } p
    match t.2 with
    | some err => (t.1, err)
    | none => sfpRecvLoop t.1 arrivals

def cspSfpRecv (m : Ram) (pool : BufferPool) (dataout : Nat) (datasize : Int)
    (arrivals : List (Nat × Packet)) : Reassembly × Int :=
  sfpRecvLoop malloc ⟨m, pool, dataout, datasize, 0⟩ arrivals

end HmBoard
