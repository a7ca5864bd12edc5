import HmBoard.Config
import HmBoard.Csp.Packet

/-!
# Sending: `csp_sendto`, `csp_send_direct` and the interfaces

| here | there |
| --- | --- |
| `Routes`, `routeIf`, `boardRoutes` | the routing table (`csp_route.c:166-197,435-473`) as `csp_init` and `main` fill it (`main.c:29-35`) |
| `cspI2cTx`       | `csp_i2c_tx` (`csp_if_i2c.c:31-62`) up to `TWI_MasterWrite`, whose length argument is a `uint8_t` |
| `cspSendDirect`  | `csp_send_direct` (`csp_io.c:204-309`), built with CRC32 and without HMAC and XTEA |
| `cspSendto`      | `csp_sendto` (`csp_io.c:407-454`) |

`crc32` stands for `csp_crc32_memory`. Both interfaces have `mtu` 0, which means none. Whether the
TWI master accepts the frame is an argument, `accepts`.
-/

namespace HmBoard

open Lib

/-! ## Routes -/

/-- `csp_if_i2c` and `csp_if_lo`. -/
inductive Iface where
  | i2c | lo
deriving DecidableEq, Repr

/-- `csp_route_t`. -/
structure Route where
  interface : Iface
  nexthopMacAddr : UInt8
deriving DecidableEq, Repr

abbrev Routes := Nat → Option Route

/-- `CSP_NODE_MAC`. -/
def cspNodeMac : UInt8 := 0xFF
/-- `CSP_DEFAULT_ROUTE`. -/
def cspDefaultRoute : Nat := 32

/-- `csp_route_set` (csp_route.c:435). -/
def cspRouteSet (r : Routes) (node : Nat) (ifc : Iface) (mac : UInt8) : Routes :=
  if node ≤ cspDefaultRoute then fun n => if n = node then some ⟨ifc, mac⟩ else r n else r

/-- The routes of `csp_route_table_init` (csp_route.c:166) and of `main`. -/
def boardRoutes : Routes :=
  let r := cspRouteSet (fun _ => none) cspMyAddress .lo cspNodeMac
  let r := cspRouteSet r cspDefaultRoute .lo cspNodeMac
  cspRouteSet r cspObcAddress .i2c (UInt8.ofNat cspI2cObcAddress)

/-- `csp_route_if` (csp_route.c:464). -/
def Routes.routeIf (r : Routes) (id : Nat) : Option Route :=
  match r id with
  | some x => some x
  | none => r cspDefaultRoute

theorem routeIf_obc : boardRoutes.routeIf cspObcAddress = some ⟨.i2c, 1⟩ := rfl

/-- Everything but the OBC is reached over the loopback interface. -/
theorem routeIf_lo {node : Nat} (h : node ≠ cspObcAddress) :
    boardRoutes.routeIf node = some ⟨.lo, cspNodeMac⟩ := by
  have h1 : ¬ node = 1 := h
  by_cases h32 : node = 32 <;> by_cases h6 : node = 6 <;>
    simp [Routes.routeIf, boardRoutes, cspRouteSet, cspDefaultRoute, cspMyAddress, cspObcAddress,
      h1, h32, h6]

/-! ## The I2C interface -/

/-- What is given to `TWI_MasterWrite`. -/
structure WireFrame where
  dest : UInt8
  bytes : List UInt8
deriving DecidableEq, Repr

/-- `csp_i2c_tx` (csp_if_i2c.c:31): the packet at `p`, cast to a frame. -/
def cspI2cTx (mac : UInt8) (m : Ram) (p : Nat) : Ram × WireFrame :=
  let dest := if mac = cspNodeMac then UInt8.ofNat (m.id p).dst.toNat else mac
  let m := m.setByte (p + 6) dest
  let m := m.setExt p (cspHton32 (m.ext p))
  let m := m.setLength p (m.length p + 4)
  let m := m.setByte (p + 7) 0
  let m := m.setByte (p + 1) 0
  (m, ⟨m (p + 6), m.read (p + 10) (m.length p % 256)⟩)

/-! ## `csp_send_direct`, `csp_sendto` -/

def cspFcrc32 : BitVec 8 := 0x01
def cspFrdp : BitVec 8 := 0x02
def cspFxtea : BitVec 8 := 0x04
def cspFhmac : BitVec 8 := 0x08

/-- `CSP_O_RDP` and the other connect options. -/
def cspORdp : Nat := 0x0001
def cspOHmac : Nat := 0x0004
def cspOXtea : Nat := 0x0010
def cspOCrc32 : Nat := 0x0040

/-- What happens to a packet that leaves `csp_send_direct`. -/
inductive Outlet where
  /-- The frame is offered to the TWI master. -/
  | i2c (f : WireFrame)
  /-- The pointer goes back to the router (`csp_lo_tx`, csp_if_lo.c:37). -/
  | lo
deriving DecidableEq, Repr

structure SendResult where
  ram : Ram
  err : Int
  outlet : Option Outlet

variable (crc32 : List UInt8 → BitVec 32)

/-- `csp_crc32_append` (csp_crc32.c:88). -/
def cspCrc32Append (m : Ram) (p : Nat) : Ram :=
  let len := m.length p
  let crc := cspHton32 (crc32 (m.payload p))
  Ram.setLength (m.write (p + 14 + len) (leBytes 4 crc.toNat)) p (len + 4)

/-- `csp_send_direct` (csp_io.c:204). -/
def cspSendDirect (r : Routes) (accepts : Bool) (idout : CspId) (m : Ram) (p : Nat) : SendResult :=
  match r.routeIf idout.dst.toNat with
  | none => ⟨m, cspErrTx, none⟩
  | some ifout =>
    let own := idout.src.toNat = cspMyAddress
    if own ∧ idout.flags &&& cspFhmac ≠ 0 then ⟨m, cspErrTx, none⟩
    else
      let m := if own ∧ idout.flags &&& cspFcrc32 ≠ 0 then cspCrc32Append crc32 m p else m
      if own ∧ idout.flags &&& cspFxtea ≠ 0 then ⟨m, cspErrTx, none⟩
      else
        let m := m.setId p idout
        match ifout.interface with
        | .i2c =>
          let t := cspI2cTx ifout.nexthopMacAddr m p
          ⟨t.1, if accepts then cspErrNone else cspErrTx, some (.i2c t.2)⟩
        | .lo => ⟨m, cspErrNone, some .lo⟩

/-- `csp_sendto` (csp_io.c:407). -/
def cspSendto (r : Routes) (accepts : Bool) (prio dest dport srcPort opts : Nat) (m : Ram) (p : Nat) :
    SendResult :=
  let m := m.setId p { m.id p with flags := 0 }
  if opts &&& cspORdp ≠ 0 then ⟨m, cspErrInval, none⟩
  else if opts &&& cspOHmac ≠ 0 then ⟨m, cspErrNotsup, none⟩
  else if opts &&& cspOXtea ≠ 0 then ⟨m, cspErrNotsup, none⟩
  else
    let m :=
      if opts &&& cspOCrc32 ≠ 0 then m.setId p { m.id p with flags := (m.id p).flags ||| cspFcrc32 }
      else m
    let m := m.setId p { m.id p with
      dst := .ofNat 5 dest, dport := .ofNat 6 dport, src := .ofNat 5 cspMyAddress
      sport := .ofNat 6 srcPort, pri := .ofNat 2 prio }
    let t := cspSendDirect crc32 r accepts (m.id p) m p
    { t with err := if t.err ≠ cspErrNone then cspErrNotsup else cspErrNone }

/-! ## The frame of a packet -/

/-- A header on the wire: big-endian. -/
def CspId.wire (i : CspId) : List UInt8 := (leBytes 4 i.ext.toNat).reverse

section

variable {mac : UInt8} (m : Ram) (p : Nat)

/-- The memory after `csp_i2c_tx` when the next hop has an address of its own. -/
def i2cTxRam (mac : UInt8) (m : Ram) (p : Nat) : Ram :=
  let m' := (m.setByte (p + 6) mac).setExt p (cspHton32 (m.ext p))
  ((m'.setLength p (m.length p + 4)).setByte (p + 7) 0).setByte (p + 1) 0

theorem cspI2cTx_eq (hm : mac ≠ cspNodeMac) :
    cspI2cTx mac m p = (i2cTxRam mac m p,
      ⟨i2cTxRam mac m p (p + 6),
        (i2cTxRam mac m p).read (p + 10) ((i2cTxRam mac m p).length p % 256)⟩) := by
  have he : Ram.ext (m.setByte (p + 6) mac) p = m.ext p :=
    Ram.ext_write m p (.inl (by simp))
  have hl : Ram.length ((m.setByte (p + 6) mac).setExt p (cspHton32 (m.ext p))) p = m.length p := by
    rw [Ram.setExt, Ram.length_write _ p (.inr (by omega)), Ram.setByte,
      Ram.length_write _ p (.inl (by simp))]
  simp only [cspI2cTx, if_neg hm, he, hl, i2cTxRam]

theorem length_i2cTxRam (h : m.length p < 252) :
    (i2cTxRam mac m p).length p = m.length p + 4 := by
  simp only [i2cTxRam, Ram.setByte]
  rw [Ram.length_write _ p (.inl (by simp)), Ram.length_write _ p (.inl (by simp))]
  exact Ram.length_setLength _ p (by omega)

/-- The I2C interface sends the header, big-endian, and the payload to the next hop. -/
theorem cspI2cTx_frame (hm : mac ≠ cspNodeMac) (h : m.length p < 252) :
    (cspI2cTx mac m p).2 = ⟨mac, (leBytes 4 (m.ext p).toNat).reverse ++ m.payload p⟩ := by
  rw [cspI2cTx_eq m p hm, length_i2cTxRam m p h, Nat.mod_eq_of_lt (by omega),
    Nat.add_comm (m.length p) 4, Mem.read_add]
  have hdest : i2cTxRam mac m p (p + 6) = mac := by
    simp only [i2cTxRam, Ram.setByte, Ram.setLength, Ram.setExt]
    rw [Mem.write_outside _ (.inr (by simp)), Mem.write_outside _ (.inl (by omega)),
      Mem.write_outside _ (.inl (by omega)), Mem.write_outside _ (.inl (by omega))]
    exact Mem.write_inside m (i := 0) (by simp)
  have hhead : (i2cTxRam mac m p).read (p + 10) 4 = (leBytes 4 (m.ext p).toNat).reverse := by
    simp only [i2cTxRam, Ram.setByte, Ram.setLength]
    rw [Mem.read_write_disjoint _ (.inr (by simp)),
      Mem.read_write_disjoint _ (.inr (by simp)),
      Mem.read_write_disjoint _ (.inr (by simp)), Ram.read_setExt, leBytes_hton32]
  have hdata : (i2cTxRam mac m p).read (p + 10 + 4) (m.length p) = m.payload p := by
    simp only [i2cTxRam, Ram.setByte, Ram.setLength, Ram.setExt, Ram.payload]
    rw [Mem.read_write_disjoint _ (.inr (by simp)),
      Mem.read_write_disjoint _ (.inr (by simp)),
      Mem.read_write_disjoint _ (.inr (by simp)),
      Mem.read_write_disjoint _ (.inr (by simp)),
      Mem.read_write_disjoint _ (.inr (by simp))]
  rw [hdest, hhead, hdata]

end

theorem sameOutside_cspI2cTx (mac : UInt8) (m : Ram) (p : Nat) :
    Mem.SameOutside p 14 m (cspI2cTx mac m p).1 := by
  refine Mem.SameOutside.trans ?_ (Mem.sameOutside_write _ (by omega) (by simp))
  refine Mem.SameOutside.trans ?_ (Mem.sameOutside_write _ (by omega) (by simp))
  refine Mem.SameOutside.trans ?_ (Mem.sameOutside_write _ (by omega) (by simp))
  refine Mem.SameOutside.trans ?_ (Mem.sameOutside_write _ (by omega) (by simp))
  exact Mem.sameOutside_write _ (by omega) (by simp)

theorem sameOutside_setId (m : Ram) (p : Nat) (i : CspId) : Mem.SameOutside p 14 m (m.setId p i) :=
  Mem.sameOutside_write _ (by omega) (by simp)

/-- The header `csp_sendto` writes when no option is set. -/
def sendtoId (prio dest dport srcPort : Nat) : CspId where
  pri := .ofNat 2 prio
  src := .ofNat 5 cspMyAddress
  dst := .ofNat 5 dest
  dport := .ofNat 6 dport
  sport := .ofNat 6 srcPort
  flags := 0

theorem cspSendDirect_obc (accepts : Bool) {idout : CspId} (hd : idout.dst.toNat = cspObcAddress)
    (hf : idout.flags = 0) (m : Ram) (p : Nat) :
    cspSendDirect crc32 boardRoutes accepts idout m p =
      ⟨(cspI2cTx 1 (m.setId p idout) p).1, if accepts then cspErrNone else cspErrTx,
        some (.i2c (cspI2cTx 1 (m.setId p idout) p).2)⟩ := by
  simp [cspSendDirect, hd, routeIf_obc, hf]

/-- A packet for the OBC goes over I2C, whatever its header was before: every field of the header
is rewritten. -/
theorem cspSendto_obc (accepts : Bool) (prio dport srcPort : Nat) (m : Ram) (p : Nat)
    (h : m.length p < 252) :
    ∃ m', cspSendto crc32 boardRoutes accepts prio cspObcAddress dport srcPort cspONone m p =
        ⟨m', if accepts then cspErrNone else cspErrNotsup,
          some (.i2c ⟨1, (sendtoId prio cspObcAddress dport srcPort).wire ++ m.payload p⟩)⟩ ∧
      Mem.SameOutside p 14 m m' := by
  have hid : (m.setId p { m.id p with flags := 0 }).id p = { m.id p with flags := 0 } :=
    Ram.id_setId m p _
  let i := sendtoId prio cspObcAddress dport srcPort
  let m₁ := m.setId p { m.id p with flags := 0 }
  let m₂ := (m₁.setId p i).setId p i
  have hlen : ∀ (m : Ram) (i : CspId), (m.setId p i).length p = m.length p := fun m i =>
    Ram.length_write m p (.inr (by omega))
  have hpay : m₂.payload p = m.payload p := by
    have hr : ∀ (m : Ram) (i : CspId) n, (m.setId p i).read (p + 14) n = m.read (p + 14) n :=
      fun m i n => Mem.read_write_disjoint m (.inr (by simp))
    simp only [Ram.payload, m₂, m₁, hlen, hr]
  have hframe := @cspI2cTx_frame 1 m₂ p (by decide) (by simpa only [m₂, m₁, hlen] using h)
  have hext : m₂.ext p = i.ext := Ram.ext_setExt _ p _
  refine ⟨(cspI2cTx 1 m₂ p).1, ?_, ?_⟩
  · rw [hext, hpay] at hframe
    have hsend : cspSendto crc32 boardRoutes accepts prio cspObcAddress dport srcPort cspONone m p =
        ⟨(cspI2cTx 1 m₂ p).1, if accepts then cspErrNone else cspErrNotsup,
          some (.i2c (cspI2cTx 1 m₂ p).2)⟩ := by
      have hi : (m₁.setId p i).id p = i := Ram.id_setId m₁ p i
      have hrest : { m₁.id p with
          dst := .ofNat 5 cspObcAddress, dport := .ofNat 6 dport, src := .ofNat 5 cspMyAddress
          sport := .ofNat 6 srcPort, pri := .ofNat 2 prio } = i := by
        rw [show m₁.id p = _ from hid]
        rfl
      simp only [cspSendto, cspONone, Nat.zero_and, ne_eq, not_true_eq_false, if_false]
      rw [show m.setId p { m.id p with flags := 0 } = m₁ from rfl, hrest, hi,
        cspSendDirect_obc crc32 accepts rfl rfl]
      cases accepts <;> rfl
    rw [hsend, hframe]
    rfl
  · refine Mem.SameOutside.trans ?_ (sameOutside_cspI2cTx 1 m₂ p)
    refine Mem.SameOutside.trans ?_ (sameOutside_setId _ p i)
    exact (sameOutside_setId m p _).trans (sameOutside_setId m₁ p i)

/-- The loopback interface never fails. -/
theorem cspSendDirect_lo {r : Routes} {accepts : Bool} {idout : CspId} {m : Ram} {p : Nat}
    (h : (cspSendDirect crc32 r accepts idout m p).outlet = some .lo) :
    (cspSendDirect crc32 r accepts idout m p).err = cspErrNone := by
  unfold cspSendDirect at h ⊢
  cases hr : r.routeIf idout.dst.toNat with
  | none => simp [hr] at h
  | some ifout =>
    simp only [hr] at h ⊢
    by_cases h1 : idout.src.toNat = cspMyAddress ∧ idout.flags &&& cspFhmac ≠ 0
    · rw [if_pos h1] at h
      simp at h
    by_cases h2 : idout.src.toNat = cspMyAddress ∧ idout.flags &&& cspFxtea ≠ 0
    · rw [if_neg h1, if_pos h2] at h
      simp at h
    rw [if_neg h1, if_neg h2] at h ⊢
    cases hi : ifout.interface with
    | i2c =>
      rw [hi] at h
      simp at h
    | lo => rfl

/-- Without flags the header is written and the packet goes to its interface. -/
theorem cspSendDirect_plain (r : Routes) (accepts : Bool) {idout : CspId} (hf : idout.flags = 0)
    (m : Ram) (p : Nat) :
    cspSendDirect crc32 r accepts idout m p =
      match r.routeIf idout.dst.toNat with
      | none => ⟨m, cspErrTx, none⟩
      | some ⟨.i2c, mac⟩ =>
        ⟨(cspI2cTx mac (m.setId p idout) p).1, if accepts then cspErrNone else cspErrTx,
          some (.i2c (cspI2cTx mac (m.setId p idout) p).2)⟩
      | some ⟨.lo, _⟩ => ⟨m.setId p idout, cspErrNone, some .lo⟩ := by
  cases hr : r.routeIf idout.dst.toNat with
  | none => simp [cspSendDirect, hr]
  | some ifout =>
    obtain ⟨interface, mac⟩ := ifout
    cases interface <;> simp [cspSendDirect, hr, hf]

theorem sameOutside_cspSendDirect (r : Routes) (accepts : Bool) {idout : CspId}
    (hf : idout.flags = 0) (m : Ram) (p : Nat) :
    Mem.SameOutside p 14 m (cspSendDirect crc32 r accepts idout m p).ram := by
  rw [cspSendDirect_plain crc32 r accepts hf]
  split
  · exact .refl m
  · exact (sameOutside_setId m p idout).trans (sameOutside_cspI2cTx _ _ p)
  · exact sameOutside_setId m p idout

/-- `csp_sendto` without options leaves all but the header to `csp_send_direct`. -/
theorem cspSendto_none (r : Routes) (accepts : Bool) (prio dest dport srcPort : Nat) (m : Ram)
    (p : Nat) :
    ∃ m', Mem.SameOutside p 14 m m' ∧
      let t := cspSendDirect crc32 r accepts (sendtoId prio dest dport srcPort) m' p
      cspSendto crc32 r accepts prio dest dport srcPort cspONone m p =
        { t with err := if t.err ≠ cspErrNone then cspErrNotsup else cspErrNone } := by
  let m₁ := m.setId p { m.id p with flags := 0 }
  let i := sendtoId prio dest dport srcPort
  have hi : (m₁.setId p i).id p = i := Ram.id_setId m₁ p i
  have hrest : { m₁.id p with
      dst := .ofNat 5 dest, dport := .ofNat 6 dport, src := .ofNat 5 cspMyAddress
      sport := .ofNat 6 srcPort, pri := .ofNat 2 prio } = i := by
    rw [show m₁.id p = _ from Ram.id_setId m p _]
    rfl
  have hsame : Mem.SameOutside p 14 m (m₁.setId p i) :=
    (sameOutside_setId m p _).trans (sameOutside_setId m₁ p i)
  refine ⟨m₁.setId p i, hsame, ?_⟩
  simp only [cspSendto, cspONone, Nat.zero_and, ne_eq, not_true_eq_false, if_false]
  rw [show m.setId p { m.id p with flags := 0 } = m₁ from rfl, hrest, hi]

theorem sameOutside_cspSendto (r : Routes) (accepts : Bool) (prio dest dport srcPort : Nat) (m : Ram)
    (p : Nat) :
    Mem.SameOutside p 14 m
      (cspSendto crc32 r accepts prio dest dport srcPort cspONone m p).ram := by
  obtain ⟨m', hm, heq⟩ := cspSendto_none crc32 r accepts prio dest dport srcPort m p
  rw [heq]
  exact hm.trans (sameOutside_cspSendDirect crc32 r accepts rfl m' p)

/-- What goes to the loopback interface is routed there. -/
theorem cspSendto_lo {r : Routes} {accepts : Bool} {prio dest dport srcPort p : Nat} {m : Ram}
    (h : (cspSendto crc32 r accepts prio dest dport srcPort cspONone m p).outlet = some .lo) :
    (r.routeIf (BitVec.ofNat 5 dest).toNat).map (·.interface) = some .lo := by
  obtain ⟨m', -, heq⟩ := cspSendto_none crc32 r accepts prio dest dport srcPort m p
  rw [heq, cspSendDirect_plain crc32 r accepts rfl] at h
  simp only [sendtoId] at h
  split at h
  · simp at h
  · simp at h
  · next hr =>
    rw [hr]
    rfl

end HmBoard
