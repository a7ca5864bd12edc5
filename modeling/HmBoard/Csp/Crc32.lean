import HmBoard.Csp.Route
import HmBoard.Lib.Crc

/-!
# The checksum (`csp_crc32.c`)

| here | there |
| --- | --- |
| `crcTab`          | `crc_tab` (csp_crc32.c:34-66) |
| `cspCrc32Memory`  | `csp_crc32_memory` (csp_crc32.c:69) |
| `checksum`        | the four bytes `csp_crc32_append` puts behind the payload (csp_crc32.c:95-99) |

The table belongs to a reflected CRC with the polynomial `crcPoly`. A checksum is appended by
`cspCrc32Append` and checked by `cspCrc32Verify`: what is intact is stripped and accepted
(`intact_accepted`), and a payload that has been hit by a burst of up to 32 bits is refused
(`burst_refused`).
-/

namespace HmBoard

open Lib

def crcTab : List (BitVec 32) := [
  0x00000000, 0xF26B8303, 0xE13B70F7, 0x1350F3F4, 0xC79A971F, 0x35F1141C, 0x26A1E7E8, 0xD4CA64EB,
  0x8AD958CF, 0x78B2DBCC, 0x6BE22838, 0x9989AB3B, 0x4D43CFD0, 0xBF284CD3, 0xAC78BF27, 0x5E133C24,
  0x105EC76F, 0xE235446C, 0xF165B798, 0x030E349B, 0xD7C45070, 0x25AFD373, 0x36FF2087, 0xC494A384,
  0x9A879FA0, 0x68EC1CA3, 0x7BBCEF57, 0x89D76C54, 0x5D1D08BF, 0xAF768BBC, 0xBC267848, 0x4E4DFB4B,
  0x20BD8EDE, 0xD2D60DDD, 0xC186FE29, 0x33ED7D2A, 0xE72719C1, 0x154C9AC2, 0x061C6936, 0xF477EA35,
  0xAA64D611, 0x580F5512, 0x4B5FA6E6, 0xB93425E5, 0x6DFE410E, 0x9F95C20D, 0x8CC531F9, 0x7EAEB2FA,
  0x30E349B1, 0xC288CAB2, 0xD1D83946, 0x23B3BA45, 0xF779DEAE, 0x05125DAD, 0x1642AE59, 0xE4292D5A,
  0xBA3A117E, 0x4851927D, 0x5B016189, 0xA96AE28A, 0x7DA08661, 0x8FCB0562, 0x9C9BF696, 0x6EF07595,
  0x417B1DBC, 0xB3109EBF, 0xA0406D4B, 0x522BEE48, 0x86E18AA3, 0x748A09A0, 0x67DAFA54, 0x95B17957,
  0xCBA24573, 0x39C9C670, 0x2A993584, 0xD8F2B687, 0x0C38D26C, 0xFE53516F, 0xED03A29B, 0x1F682198,
  0x5125DAD3, 0xA34E59D0, 0xB01EAA24, 0x42752927, 0x96BF4DCC, 0x64D4CECF, 0x77843D3B, 0x85EFBE38,
  0xDBFC821C, 0x2997011F, 0x3AC7F2EB, 0xC8AC71E8, 0x1C661503, 0xEE0D9600, 0xFD5D65F4, 0x0F36E6F7,
  0x61C69362, 0x93AD1061, 0x80FDE395, 0x72966096, 0xA65C047D, 0x5437877E, 0x4767748A, 0xB50CF789,
  0xEB1FCBAD, 0x197448AE, 0x0A24BB5A, 0xF84F3859, 0x2C855CB2, 0xDEEEDFB1, 0xCDBE2C45, 0x3FD5AF46,
  0x7198540D, 0x83F3D70E, 0x90A324FA, 0x62C8A7F9, 0xB602C312, 0x44694011, 0x5739B3E5, 0xA55230E6,
  0xFB410CC2, 0x092A8FC1, 0x1A7A7C35, 0xE811FF36, 0x3CDB9BDD, 0xCEB018DE, 0xDDE0EB2A, 0x2F8B6829,
  0x82F63B78, 0x709DB87B, 0x63CD4B8F, 0x91A6C88C, 0x456CAC67, 0xB7072F64, 0xA457DC90, 0x563C5F93,
  0x082F63B7, 0xFA44E0B4, 0xE9141340, 0x1B7F9043, 0xCFB5F4A8, 0x3DDE77AB, 0x2E8E845F, 0xDCE5075C,
  0x92A8FC17, 0x60C37F14, 0x73938CE0, 0x81F80FE3, 0x55326B08, 0xA759E80B, 0xB4091BFF, 0x466298FC,
  0x1871A4D8, 0xEA1A27DB, 0xF94AD42F, 0x0B21572C, 0xDFEB33C7, 0x2D80B0C4, 0x3ED04330, 0xCCBBC033,
  0xA24BB5A6, 0x502036A5, 0x4370C551, 0xB11B4652, 0x65D122B9, 0x97BAA1BA, 0x84EA524E, 0x7681D14D,
  0x2892ED69, 0xDAF96E6A, 0xC9A99D9E, 0x3BC21E9D, 0xEF087A76, 0x1D63F975, 0x0E330A81, 0xFC588982,
  0xB21572C9, 0x407EF1CA, 0x532E023E, 0xA145813D, 0x758FE5D6, 0x87E466D5, 0x94B49521, 0x66DF1622,
  0x38CC2A06, 0xCAA7A905, 0xD9F75AF1, 0x2B9CD9F2, 0xFF56BD19, 0x0D3D3E1A, 0x1E6DCDEE, 0xEC064EED,
  0xC38D26C4, 0x31E6A5C7, 0x22B65633, 0xD0DDD530, 0x0417B1DB, 0xF67C32D8, 0xE52CC12C, 0x1747422F,
  0x49547E0B, 0xBB3FFD08, 0xA86F0EFC, 0x5A048DFF, 0x8ECEE914, 0x7CA56A17, 0x6FF599E3, 0x9D9E1AE0,
  0xD3D3E1AB, 0x21B862A8, 0x32E8915C, 0xC083125F, 0x144976B4, 0xE622F5B7, 0xF5720643, 0x07198540,
  0x590AB964, 0xAB613A67, 0xB831C993, 0x4A5A4A90, 0x9E902E7B, 0x6CFBAD78, 0x7FAB5E8C, 0x8DC0DD8F,
  0xE330A81A, 0x115B2B19, 0x020BD8ED, 0xF0605BEE, 0x24AA3F05, 0xD6C1BC06, 0xC5914FF2, 0x37FACCF1,
  0x69E9F0D5, 0x9B8273D6, 0x88D28022, 0x7AB90321, 0xAE7367CA, 0x5C18E4C9, 0x4F48173D, 0xBD23943E,
  0xF36E6F75, 0x0105EC76, 0x12551F82, 0xE03E9C81, 0x34F4F86A, 0xC69F7B69, 0xD5CF889D, 0x27A40B9E,
  0x79B737BA, 0x8BDCB4B9, 0x988C474D, 0x6AE7C44E, 0xBE2DA0A5, 0x4C4623A6, 0x5F16D052, 0xAD7D5351]

/-- One round of the loop (csp_crc32.c:73-78). -/
def crc32Step (crc : BitVec 32) (b : UInt8) : BitVec 32 :=
  crcTab.getD ((crc ^^^ b.toBitVec.setWidth 32) &&& 0xFF#32).toNat 0 ^^^ (crc >>> 8)

/-- `csp_crc32_memory`. -/
def cspCrc32Memory (data : List UInt8) : BitVec 32 :=
  data.foldl crc32Step 0xFFFFFFFF#32 ^^^ 0xFFFFFFFF#32

/-- Castagnoli's polynomial, reflected. -/
def crcPoly : BitVec 32 := 0x82F63B78#32

example : cspCrc32Memory (lit "123456789") = 0xE3069283#32 := by decide +kernel

/-! ## The table and the polynomial -/

theorem crcTab_eq : crcTab = (List.range 256).map fun i => Crc.shifts crcPoly 8 (BitVec.ofNat 32 i) := by
  decide +kernel

theorem crc32Step_eq : crc32Step = Crc.tableStep fun i => crcTab.getD i 0 := by
  funext crc b
  have hmask : ∀ x : BitVec 32, (x &&& 0xFF#32).toNat = x.toNat % 256 := fun x =>
    Nat.and_two_pow_sub_one_eq_mod x.toNat 8
  rw [crc32Step, hmask]
  rfl

/-- The loop divides by the polynomial. -/
theorem foldl_crc32Step (data : List UInt8) (c : BitVec 32) :
    data.foldl crc32Step c = Crc.feed crcPoly c (Crc.bitsOf data) := by
  have htable : ∀ i < 256, crcTab.getD i 0 = Crc.shifts crcPoly 8 (BitVec.ofNat 32 i) := by
    intro i hi
    rw [crcTab_eq, List.getD_eq_getElem _ _ (by simpa using hi), List.getElem_map,
      List.getElem_range]
  rw [crc32Step_eq, Crc.foldl_tableStep crcPoly (by decide) htable]

/-- The checksum is the remainder of the message, complemented: the table changes nothing. -/
theorem crc32_bitwise (data : List UInt8) :
    cspCrc32Memory data = ~~~ Crc.feed crcPoly (BitVec.allOnes 32) (Crc.bitsOf data) := by
  rw [cspCrc32Memory, foldl_crc32Step]
  exact BitVec.xor_allOnes

/-- A burst of up to 32 bits changes the checksum. -/
theorem crc32_burst {d d' : List UInt8} (h : Crc.Burst 32 d d') :
    cspCrc32Memory d ≠ cspCrc32Memory d' := by
  intro heq
  rw [cspCrc32Memory, cspCrc32Memory, BitVec.xor_left_inj, foldl_crc32Step, foldl_crc32Step] at heq
  exact h.feed_ne crcPoly (by decide) _ heq

/-! ## Packets with a checksum -/

section

variable (crc32 : List UInt8 → BitVec 32) (m : Ram) (p : Nat)

/-- The checksum of a payload, in network order. -/
def checksum (data : List UInt8) : List UInt8 := leBytes 4 (cspHton32 (crc32 data)).toNat

@[simp] theorem length_checksum (data : List UInt8) : (checksum crc32 data).length = 4 :=
  length_leBytes 4 _

theorem packet_setLength {n : Nat} (h : n ≤ m.length p) :
    (m.setLength p n).packet p = ⟨m.id p, (m.payload p).take n⟩ := by
  have hlt : m.length p < 65536 := by
    have := leNat_lt (m.read (p + 8) 2)
    rwa [Mem.length_read] at this
  have hid : (m.setLength p n).id p = m.id p := Ram.id_write m p (.inl (by simp))
  rw [Ram.packet, hid, Ram.payload, Ram.length_setLength m p (by omega), Ram.setLength,
    Mem.read_write_disjoint _ (.inr (by simp)), Ram.payload, Mem.take_read _ _ h]

/-- Appending puts the checksum behind the payload, and nothing else. -/
theorem packet_crc32Append (h : m.length p + 4 < 65536) :
    (cspCrc32Append crc32 m p).packet p =
      ⟨m.id p, m.payload p ++ checksum crc32 (m.payload p)⟩ := by
  let m₁ : Ram := m.write (p + 14 + m.length p) (checksum crc32 (m.payload p))
  have hm : cspCrc32Append crc32 m p = m₁.setLength p (m.length p + 4) := rfl
  have hid : (m₁.setLength p (m.length p + 4)).id p = m.id p :=
    (Ram.id_write m₁ p (.inl (by simp))).trans (Ram.id_write m p (.inr (by omega)))
  have hdata : m₁.read (p + 14) (m.length p) = m.payload p :=
    Mem.read_write_disjoint m (.inl (by omega))
  have hsum : m₁.read (p + 14 + m.length p) 4 = checksum crc32 (m.payload p) := by
    have := Mem.read_write_self m (p + 14 + m.length p) (checksum crc32 (m.payload p))
    rwa [length_checksum] at this
  rw [hm, Ram.packet, hid, Ram.payload, Ram.length_setLength m₁ p h, Ram.setLength,
    Mem.read_write_disjoint _ (.inr (by simp)), Mem.read_add, hdata, hsum]

/-- What `csp_crc32_verify` does to a payload whose last four bytes are `c`. -/
theorem crc32Verify_eq {d c : List UInt8} (hpay : m.payload p = d ++ c) (hc : c.length = 4) :
    cspCrc32Verify crc32 m p =
      if c = checksum crc32 d then (m.setLength p d.length, cspErrNone) else (m, cspErrInval) := by
  have hlen : m.length p = d.length + 4 := by
    have := congrArg List.length hpay
    rwa [Ram.payload, Mem.length_read, List.length_append, hc] at this
  have htail : m.read (p + 14 + m.length p - 4) 4 = c := by
    have hread := Mem.read_add m (p + 14) d.length 4
    rw [← hlen, ← Ram.payload, hpay] at hread
    have hdrop := (List.append_inj hread (by simp)).2
    rw [hlen, show p + 14 + (d.length + 4) - 4 = p + 14 + d.length by omega]
    exact hdrop.symm
  have htake : (m.payload p).take (m.length p - 4) = d := by
    rw [hpay, hlen, Nat.add_sub_cancel, List.take_left]
  have hcut : m.length p - 4 = d.length := by omega
  unfold cspCrc32Verify
  rw [if_neg (by omega)]
  dsimp only
  rw [htake, htail, hcut, checksum]
  by_cases h : c = leBytes 4 (cspHton32 (crc32 d)).toNat
  · rw [if_pos h, if_neg (not_not.2 h)]
  · rw [if_neg h, if_pos h]

end

/-- Network order loses nothing. -/
theorem checksum_inj {crc32 : List UInt8 → BitVec 32} {d d' : List UInt8}
    (h : checksum crc32 d = checksum crc32 d') : crc32 d = crc32 d' := by
  rw [checksum, checksum, leBytes_hton32, leBytes_hton32, List.reverse_inj] at h
  have hnat := congrArg leNat h
  rw [leNat_leBytes, leNat_leBytes] at hnat
  rw [show 256 ^ 4 = 2 ^ 32 from rfl, Nat.mod_eq_of_lt (crc32 d).isLt,
    Nat.mod_eq_of_lt (crc32 d').isLt] at hnat
  exact BitVec.eq_of_toNat_eq hnat

/-- A payload hit by a burst is refused. -/
theorem burst_refused (m : Ram) (p : Nat) {d d' : List UInt8} (hb : Crc.Burst 32 d d')
    (hpay : m.payload p = d' ++ checksum cspCrc32Memory d) :
    cspCrc32Verify cspCrc32Memory m p = (m, cspErrInval) := by
  rw [crc32Verify_eq cspCrc32Memory m p hpay (length_checksum _ _),
    if_neg fun h => crc32_burst hb (checksum_inj h)]

/-- An intact payload is stripped and accepted. -/
theorem intact_accepted (m : Ram) (p : Nat) {d : List UInt8}
    (hpay : m.payload p = d ++ checksum cspCrc32Memory d) :
    cspCrc32Verify cspCrc32Memory m p = (m.setLength p d.length, cspErrNone) ∧
      (m.setLength p d.length).packet p = ⟨m.id p, d⟩ := by
  have hlen : d.length ≤ m.length p := by
    have := congrArg List.length hpay
    rw [Ram.payload, Mem.length_read, List.length_append] at this
    omega
  refine ⟨?_, ?_⟩
  · rw [crc32Verify_eq cspCrc32Memory m p hpay (length_checksum _ _), if_pos rfl]
  · rw [packet_setLength m p hlen, hpay, List.take_left]

end HmBoard
