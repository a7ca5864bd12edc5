import HmBoard.Csp.Header
import HmBoard.Lib.LittleEndian
import HmBoard.Lib.Mem
import Mathlib.Tactic.IntervalCases

/-!
# `csp_packet_t` in memory (csp.h:178-187)

A packet is 14 bytes of overhead and its payload; `csp_if_i2c.c` casts a pointer to it to
`i2c_frame_t` (i2c.h:53-61) and back, so that both are views of the same bytes:

| offset   | `csp_packet_t` | `i2c_frame_t` |
| --- | --- | --- |
| 0 … 7    | `padding`      | `padding`, `retries` (1), `reserved`, `dest` (6), `len_rx` (7) |
| 8, 9     | `length`       | `len`  |
| 10 … 13  | `id`           | `data[0..3]` |
| 14 …     | `data`         | `data[4..]` |

A pointer is an address in a memory of bytes.
-/

namespace HmBoard

open Lib

/-- What a packet says: its header and its payload. -/
structure Packet where
  id : CspId
  data : List UInt8
deriving DecidableEq, Repr

/-- `CSP_BUFFER_PACKET_OVERHEAD`. -/
def cspBufferPacketOverhead : Nat := 14

abbrev Ram := Mem UInt8

namespace Ram

/-- `packet->length`, and `frame->len`. -/
def length (m : Ram) (p : Nat) : Nat := leNat (m.read (p + 8) 2)
def setLength (m : Ram) (p n : Nat) : Ram := m.write (p + 8) (leBytes 2 n)

/-- `packet->id.ext`. -/
def ext (m : Ram) (p : Nat) : BitVec 32 := BitVec.ofNat 32 (leNat (m.read (p + 10) 4))
def setExt (m : Ram) (p : Nat) (w : BitVec 32) : Ram := m.write (p + 10) (leBytes 4 w.toNat)

/-- `packet->id`. -/
def id (m : Ram) (p : Nat) : CspId := .ofExt (m.ext p)
def setId (m : Ram) (p : Nat) (i : CspId) : Ram := m.setExt p i.ext

/-- `packet->data` up to `packet->length`. -/
def payload (m : Ram) (p : Nat) : List UInt8 := m.read (p + 14) (m.length p)

def packet (m : Ram) (p : Nat) : Packet := ⟨m.id p, m.payload p⟩

/-- A byte at a fixed offset, such as `frame->dest`. -/
def setByte (m : Ram) (p : Nat) (b : UInt8) : Ram := m.write p [b]

variable (m : Ram) (p : Nat)

theorem length_setLength {n : Nat} (h : n < 65536) : (m.setLength p n).length p = n := by
  have hr : (m.setLength p n).read (p + 8) 2 = leBytes 2 n := by
    have := Mem.read_write_self m (p + 8) (leBytes 2 n)
    rwa [length_leBytes] at this
  rw [length, hr, leNat_leBytes]
  exact Nat.mod_eq_of_lt h

theorem read_setExt (w : BitVec 32) : (m.setExt p w).read (p + 10) 4 = leBytes 4 w.toNat := by
  have := Mem.read_write_self m (p + 10) (leBytes 4 w.toNat)
  rwa [length_leBytes] at this

theorem ext_setExt (w : BitVec 32) : (m.setExt p w).ext p = w := by
  rw [ext, read_setExt, leNat_leBytes]
  apply BitVec.eq_of_toNat_eq
  simpa using w.isLt

theorem id_setId (i : CspId) : (m.setId p i).id p = i := by
  rw [id, setId, ext_setExt, CspId.ofExt_ext]

/-! ## Writes outside the part read -/

theorem length_write {a : Nat} {bs : List UInt8} (h : a + bs.length ≤ p + 8 ∨ p + 10 ≤ a) :
    length (m.write a bs) p = m.length p := by
  rw [length, length, Mem.read_write_disjoint]
  omega

theorem ext_write {a : Nat} {bs : List UInt8} (h : a + bs.length ≤ p + 10 ∨ p + 14 ≤ a) :
    ext (m.write a bs) p = m.ext p := by
  rw [ext, ext, Mem.read_write_disjoint]
  omega

theorem id_write {a : Nat} {bs : List UInt8} (h : a + bs.length ≤ p + 10 ∨ p + 14 ≤ a) :
    id (m.write a bs) p = m.id p := by
  rw [id, id, ext_write m p h]

/-- Two memories that agree on the storage of the packet. -/
theorem packet_congr {m m' : Ram} {p : Nat}
    (h : ∀ x, p + 8 ≤ x → x < p + 14 + m.length p → m' x = m x) : m'.packet p = m.packet p := by
  have hl : m'.length p = m.length p := by
    rw [length, length]
    exact congrArg leNat (Mem.read_congr fun x h1 h2 => h x h1 (by omega))
  have hi : m'.id p = m.id p := by
    rw [id, id, ext, ext]
    exact congrArg (fun bs => CspId.ofExt (BitVec.ofNat 32 (leNat bs)))
      (Mem.read_congr fun x h1 h2 => h x (by omega) (by omega))
  rw [packet, packet, hi, payload, payload, hl]
  exact congrArg (Packet.mk (m.id p)) (Mem.read_congr fun x h1 h2 => h x (by omega) h2)

end Ram

/-! ## `csp_hton32` (csp_endian.c:47-56) -/

def cspHton32 (h : BitVec 32) : BitVec 32 :=
  ((h &&& 0xff000000#32) >>> 24) ||| ((h &&& 0x000000ff#32) <<< 24) |||
    ((h &&& 0x0000ff00#32) <<< 8) ||| ((h &&& 0x00ff0000#32) >>> 8)

/-- Byte `i` of a word. -/
theorem leBytes_ext (w : BitVec 32) :
    leBytes 4 w.toNat = [UInt8.ofBitVec (w.extractLsb' 0 8), UInt8.ofBitVec (w.extractLsb' 8 8),
      UInt8.ofBitVec (w.extractLsb' 16 8), UInt8.ofBitVec (w.extractLsb' 24 8)] := by
  have h : ∀ i, UInt8.ofNat (w.toNat / 2 ^ i) = UInt8.ofBitVec (w.extractLsb' i 8) := by
    intro i
    apply UInt8.toNat_inj.1
    simp [Nat.shiftRight_eq_div_pow]
  simp only [leBytes, Nat.div_div_eq_div_mul]
  have h0 := h 0
  have h8 := h 8
  have h16 := h 16
  have h24 := h 24
  simp only [Nat.pow_zero, Nat.div_one] at h0
  rw [← h0, ← h8, ← h16, ← h24]
  rfl

/-- Network order is the bytes reversed. -/
theorem leBytes_hton32 (w : BitVec 32) :
    leBytes 4 (cspHton32 w).toNat = (leBytes 4 w.toNat).reverse := by
  rw [leBytes_ext, leBytes_ext]
  have h0 : (cspHton32 w).extractLsb' 0 8 = w.extractLsb' 24 8 := by
    ext i hi
    interval_cases i <;> simp [cspHton32]
  have h8 : (cspHton32 w).extractLsb' 8 8 = w.extractLsb' 16 8 := by
    ext i hi
    interval_cases i <;> simp [cspHton32]
  have h16 : (cspHton32 w).extractLsb' 16 8 = w.extractLsb' 8 8 := by
    ext i hi
    interval_cases i <;> simp [cspHton32]
  have h24 : (cspHton32 w).extractLsb' 24 8 = w.extractLsb' 0 8 := by
    ext i hi
    interval_cases i <;> simp [cspHton32]
  rw [h0, h8, h16, h24]
  rfl

end HmBoard
