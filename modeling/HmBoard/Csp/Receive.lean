import HmBoard.Csp.Frame
import HmBoard.Csp.Packet

/-!
# A frame becomes a packet

`TWI_CSP_SlaveProcessData` copies the bytes the I2C slave has received into its automatic variable
`newFrame`, at `a`, and `csp_i2c_rx` makes a packet of it in place. The packet of a frame is its
first four bytes, a header in network order, and the rest (`receive_packet`).
-/

namespace HmBoard

open Lib

/-- `sizeof(i2c_frame_t)`. -/
def i2cFrameSize : Nat := 10 + i2cMtu

/-- The stores of `TWI_CSP_SlaveProcessData` (csp_interface.c:26-38): none when nothing was received. -/
def storeFrame (m : Ram) (a : Nat) (received : List UInt8) : Ram :=
  if received.length > 0 then (m.setLength a received.length).write (a + 10) received else m

/-- `csp_i2c_rx` (csp_if_i2c.c:70): the memory, and whether `csp_new_packet` is called. -/
def cspI2cRx (m : Ram) (p : Nat) : Ram × Bool :=
  if m.length p < 4 ∨ m.length p > i2cMtu then (m, false)
  else
    let m := m.setLength p (m.length p - 4)
    (m.setExt p (cspHton32 (m.ext p)), true)

/-- What a frame says. -/
def framePacket (frame : List UInt8) : Packet :=
  ⟨.ofExt (BitVec.ofNat 32 (leNat (frame.take 4).reverse)), frame.drop 4⟩

variable (m : Ram) (a : Nat) {frame : List UInt8}

theorem sameOutside_storeFrame (h : frame.length ≤ i2cMtu) :
    Mem.SameOutside a i2cFrameSize m (storeFrame m a frame) := by
  unfold storeFrame
  simp only [i2cMtu, i2cFrameSize] at h ⊢
  split
  · refine Mem.SameOutside.trans ?_ (Mem.sameOutside_write _ (by omega) (by omega))
    exact Mem.sameOutside_write _ (by omega) (by simp)
  · exact Mem.SameOutside.refl m

theorem sameOutside_cspI2cRx : Mem.SameOutside a i2cFrameSize m (cspI2cRx m a).1 := by
  have h0 : i2cFrameSize = 265 := rfl
  unfold cspI2cRx
  by_cases h : m.length a < 4 ∨ m.length a > i2cMtu
  · rw [if_pos h]
    exact Mem.SameOutside.refl m
  · rw [if_neg h]
    refine Mem.SameOutside.trans ?_ (Mem.sameOutside_write _ (by omega) (by simp [h0]))
    exact Mem.sameOutside_write _ (by omega) (by simp [h0])

/-- The header is the first four bytes in network order. -/
theorem ext_hton32 (m : Ram) (p : Nat) :
    cspHton32 (m.ext p) = BitVec.ofNat 32 (leNat (m.read (p + 10) 4).reverse) := by
  have hlt : leNat (m.read (p + 10) 4) < 2 ^ 32 := by
    have := leNat_lt (m.read (p + 10) 4)
    rw [Mem.length_read] at this
    exact this
  have hbytes : leBytes 4 (m.ext p).toNat = m.read (p + 10) 4 := by
    have := leBytes_leNat (m.read (p + 10) 4)
    rw [Mem.length_read] at this
    rw [Ram.ext, BitVec.toNat_ofNat, Nat.mod_eq_of_lt hlt, this]
  have hrev := leBytes_hton32 (m.ext p)
  rw [hbytes] at hrev
  have hnat := congrArg leNat hrev
  have hmod := Nat.mod_eq_of_lt (cspHton32 (m.ext p)).isLt
  rw [leNat_leBytes, show 256 ^ 4 = 2 ^ 32 from rfl, hmod] at hnat
  rw [← hnat, BitVec.ofNat_toNat, BitVec.setWidth_eq]

theorem receive_packet (h1 : 4 ≤ frame.length) (h2 : frame.length ≤ i2cMtu) :
    (cspI2cRx (storeFrame m a frame) a).2 = true ∧
      Ram.packet (cspI2cRx (storeFrame m a frame) a).1 a = framePacket frame := by
  have hm : storeFrame m a frame = (m.setLength a frame.length).write (a + 10) frame :=
    if_pos (by omega)
  simp only [i2cMtu] at h2
  have hlen : (storeFrame m a frame).length a = frame.length := by
    rw [hm, Ram.length_write _ a (.inr (by omega)), Ram.length_setLength _ _ (by omega)]
  have hdata : Mem.read (storeFrame m a frame) (a + 10) frame.length = frame := by
    rw [hm]
    exact Mem.read_write_self _ _ frame
  let m₁ := (storeFrame m a frame).setLength a (frame.length - 4)
  have hrx : cspI2cRx (storeFrame m a frame) a =
      (m₁.setExt a (cspHton32 (m₁.ext a)), true) := by
    rw [cspI2cRx, if_neg (by rw [hlen]; simp only [i2cMtu]; omega), hlen]
  have hread : Mem.read m₁ (a + 10) frame.length = frame := by
    rw [show Mem.read m₁ (a + 10) frame.length = _ from
      Mem.read_write_disjoint _ (.inr (by simp)), hdata]
  have hhead : Mem.read m₁ (a + 10) 4 = frame.take 4 := by
    rw [← Mem.take_read m₁ (a + 10) h1, hread]
  have htail : Mem.read m₁ (a + 14) (frame.length - 4) = frame.drop 4 := by
    have hsplit := Mem.read_add m₁ (a + 10) 4 (frame.length - 4)
    rw [Nat.add_sub_cancel' h1, hread, hhead] at hsplit
    have := congrArg (List.drop 4) hsplit
    rw [List.drop_left' (by simp [h1])] at this
    exact this.symm
  rw [hrx]
  refine ⟨rfl, ?_⟩
  have hl : Ram.length (m₁.setExt a (cspHton32 (m₁.ext a))) a = frame.length - 4 := by
    rw [Ram.setExt, Ram.length_write _ a (.inr (by omega))]
    exact Ram.length_setLength _ _ (by omega)
  have hp : Ram.payload (m₁.setExt a (cspHton32 (m₁.ext a))) a = frame.drop 4 := by
    rw [Ram.payload, hl, Ram.setExt, Mem.read_write_disjoint _ (.inr (by simp)), htail]
  rw [Ram.packet, hp, Ram.id, Ram.ext_setExt, ext_hton32, hhead, framePacket]

end HmBoard
