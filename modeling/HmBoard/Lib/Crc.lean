import Mathlib.Data.Nat.Bitwise
import Mathlib.Data.List.Basic

/-!
# Cyclic redundancy checks

A register of `w` bits divides a message, bit by bit and least significant bit first, by a
polynomial: a one that is shifted out of the register adds `poly` to what is left (`shift`). The
division is linear (`shifts_xor`), so that it can be done a byte at a time with a table of the
256 remainders (`foldl_tableStep`). Where the polynomial has its highest bit, no step loses anything
(`shift_injective`), and two messages that differ in `w` adjacent bits at most leave different
remainders (`Burst.feed_ne`).
-/

namespace HmBoard.Lib.Crc

variable {w : Nat} (poly : BitVec w)

def shift (c : BitVec w) : BitVec w := if c.getLsbD 0 then (c >>> 1) ^^^ poly else c >>> 1

def shifts : Nat → BitVec w → BitVec w
  | 0, c => c
  | n + 1, c => shifts n (shift poly c)

/-- A bit in the lowest place. -/
def bit (b : Bool) : BitVec w := BitVec.ofNat w b.toNat

/-- The register after the bits of a message. -/
def feed (c : BitVec w) (bits : List Bool) : BitVec w :=
  bits.foldl (fun c b => shift poly (c ^^^ bit b)) c

theorem getLsbD_bit (b : Bool) (i : Nat) :
    (bit b : BitVec w).getLsbD i = (decide (i < w) && (decide (i = 0) && b)) := by
  rw [bit, BitVec.getLsbD_ofNat]
  cases b <;> cases i <;> simp [Nat.testBit_succ]

theorem getLsbD_shift (c : BitVec w) (i : Nat) :
    (shift poly c).getLsbD i = (c.getLsbD (i + 1) ^^ (c.getLsbD 0 && poly.getLsbD i)) := by
  unfold shift
  cases c.getLsbD 0 <;> simp [Nat.add_comm 1]

theorem feed_append (c : BitVec w) (xs ys : List Bool) :
    feed poly c (xs ++ ys) = feed poly (feed poly c xs) ys := List.foldl_append

/-! ## The division is linear -/

theorem shift_xor (a b : BitVec w) : shift poly (a ^^^ b) = shift poly a ^^^ shift poly b := by
  refine BitVec.eq_of_getLsbD_eq fun i _ => ?_
  simp only [getLsbD_shift, BitVec.getLsbD_xor]
  generalize a.getLsbD (i + 1) = x, b.getLsbD (i + 1) = y, poly.getLsbD i = z
  revert x y z
  cases a.getLsbD 0 <;> cases b.getLsbD 0 <;> decide

theorem shifts_xor : ∀ (n : Nat) (a b : BitVec w),
    shifts poly n (a ^^^ b) = shifts poly n a ^^^ shifts poly n b
  | 0, _, _ => rfl
  | n + 1, a, b => by
    rw [shifts, shift_xor, shifts_xor n]
    rfl

theorem shifts_add : ∀ (n k : Nat) (c : BitVec w),
    shifts poly (n + k) c = shifts poly k (shifts poly n c)
  | 0, k, c => by rw [Nat.zero_add]; rfl
  | n + 1, k, c => by
    rw [Nat.add_right_comm, shifts, shifts_add n k]
    rfl

/-- A register whose low `n` bits are clear only moves. -/
theorem shifts_shiftLeft : ∀ (n : Nat) (c : BitVec w), (∀ i, w ≤ i + n → c.getLsbD i = false) →
    shifts poly n (c <<< n) = c
  | 0, c, _ => by rw [BitVec.shiftLeft_zero]; rfl
  | n + 1, c, h => by
    have hmove : shift poly (c <<< (n + 1)) = c <<< n := by
      refine BitVec.eq_of_getLsbD_eq fun i hi => ?_
      rw [getLsbD_shift]
      by_cases htop : i + 1 < w
      · have hlow : i + 1 - (n + 1) = i - n := by omega
        simp [htop, hlow, hi]
      · have hc : c.getLsbD (i - n) = false := h _ (by omega)
        simp [htop, hc]
    rw [shifts, hmove]
    exact shifts_shiftLeft n c fun i hi => h i (by omega)

/-! ## A window of the message -/

/-- The bits of a message, the first in the lowest place. -/
def word : List Bool → BitVec w
  | [] => 0
  | b :: bits => bit b ^^^ (word bits <<< 1)

theorem getLsbD_word : ∀ (bits : List Bool) (i : Nat),
    (word bits : BitVec w).getLsbD i = (decide (i < w) && bits.getD i false)
  | [], i => by simp [word]
  | b :: bits, 0 => by simp [word, getLsbD_bit]
  | b :: bits, i + 1 => by
    rw [word, BitVec.getLsbD_xor, getLsbD_bit, BitVec.getLsbD_shiftLeft, Nat.add_sub_cancel,
      getLsbD_word bits i]
    by_cases h : i + 1 < w
    · simp [h, show i < w by omega]
    · simp [h]

/-- As many bits as the register has are divided as one word. -/
theorem feed_eq_shifts : ∀ (bits : List Bool) (c : BitVec w), bits.length ≤ w →
    feed poly c bits = shifts poly bits.length (c ^^^ word bits)
  | [], c, _ => by
    rw [word, show c ^^^ (0 : BitVec w) = c from BitVec.xor_zero]
    rfl
  | b :: bits, c, h => by
    rw [List.length_cons] at h
    have hmove : shift poly (word bits <<< 1) = word bits := by
      have h1 := shifts_shiftLeft poly 1 (word bits : BitVec w) fun i hi => by
        rw [getLsbD_word, List.getD_eq_default _ _ (by omega), Bool.and_false]
      exact h1
    calc feed poly c (b :: bits)
        = feed poly (shift poly (c ^^^ bit b)) bits := rfl
      _ = shifts poly bits.length (shift poly (c ^^^ bit b) ^^^ word bits) :=
          feed_eq_shifts bits _ (by omega)
      _ = shifts poly bits.length (shift poly (c ^^^ bit b ^^^ (word bits <<< 1))) := by
          rw [shift_xor poly (c ^^^ bit b), hmove]
      _ = shifts poly (b :: bits).length (c ^^^ word (b :: bits)) := by
          rw [BitVec.xor_assoc]
          rfl

theorem word_injective {xs ys : List Bool} (hl : xs.length = ys.length) (hw : xs.length ≤ w)
    (h : (word xs : BitVec w) = word ys) : xs = ys := by
  refine List.ext_getElem hl fun i hx hy => ?_
  have hi : (word xs : BitVec w).getLsbD i = (word ys : BitVec w).getLsbD i := by rw [h]
  rw [getLsbD_word, getLsbD_word, List.getD_eq_getElem _ _ hx, List.getD_eq_getElem _ _ hy] at hi
  simpa [show i < w by omega] using hi

/-! ## Nothing is lost -/

section

variable {poly} (hpoly : poly.getLsbD (w - 1) = true)

include hpoly

/-- The bit that was shifted out shows in the highest bit. -/
theorem shift_injective : Function.Injective (shift poly) := by
  intro a b h
  have hbit : ∀ i, (shift poly a).getLsbD i = (shift poly b).getLsbD i := fun i => by rw [h]
  simp only [getLsbD_shift] at hbit
  have hlow : a.getLsbD 0 = b.getLsbD 0 := by
    have htop := hbit (w - 1)
    rw [hpoly, BitVec.getLsbD_of_ge a _ (by omega), BitVec.getLsbD_of_ge b _ (by omega)] at htop
    simpa using htop
  refine BitVec.eq_of_getLsbD_eq fun i _ => ?_
  cases i with
  | zero => exact hlow
  | succ i =>
    have hi := hbit i
    rw [hlow] at hi
    simpa using hi

theorem shifts_injective : ∀ n, Function.Injective (shifts poly n)
  | 0 => fun _ _ h => h
  | n + 1 => fun _ _ h => shift_injective hpoly (shifts_injective n h)

theorem feed_injective : ∀ bits : List Bool, Function.Injective fun c => feed poly c bits
  | [] => fun _ _ h => h
  | b :: bits => fun c d h => by
    have hstep := shift_injective hpoly (feed_injective bits h)
    exact (BitVec.xor_left_inj (bit b)).1 hstep

/-- Two messages that differ, and only in `w` adjacent bits, have different remainders. -/
theorem feed_burst (c : BitVec w) (pre suf : List Bool) {xs ys : List Bool}
    (hl : xs.length = ys.length) (hw : xs.length ≤ w) (hne : xs ≠ ys) :
    feed poly c (pre ++ xs ++ suf) ≠ feed poly c (pre ++ ys ++ suf) := by
  intro h
  rw [feed_append, feed_append, feed_append, feed_append] at h
  have hmid := feed_injective hpoly suf h
  rw [feed_eq_shifts poly xs _ hw, feed_eq_shifts poly ys _ (hl ▸ hw), hl] at hmid
  have hword := (BitVec.xor_right_inj _).1 (shifts_injective hpoly _ hmid)
  exact hne (word_injective hl hw hword)

end

/-! ## A byte at a time -/

def byteBits (b : UInt8) : List Bool := (List.range 8).map b.toBitVec.getLsbD

/-- The bits of a list of bytes, each least significant bit first. -/
def bitsOf (bs : List UInt8) : List Bool := bs.flatMap byteBits

@[simp] theorem length_byteBits (b : UInt8) : (byteBits b).length = 8 := by simp [byteBits]

theorem byteBits_injective : Function.Injective byteBits := by
  intro a b h
  refine UInt8.toBitVec_inj.1 (BitVec.eq_of_getLsbD_eq fun i hi => ?_)
  have hi' : (byteBits a)[i]? = (byteBits b)[i]? := by rw [h]
  simpa [byteBits, hi] using hi'

theorem bitsOf_injective : Function.Injective bitsOf
  | [], [], _ => rfl
  | [], b :: bs, h => absurd (congrArg List.length h) (by simp [bitsOf]; omega)
  | a :: as, [], h => absurd (congrArg List.length h) (by simp [bitsOf])
  | a :: as, b :: bs, h => by
    obtain ⟨hhead, htail⟩ := List.append_inj h (by simp)
    rw [byteBits_injective hhead, bitsOf_injective htail]

theorem word_byteBits (b : UInt8) : (word (byteBits b) : BitVec w) = b.toBitVec.setWidth w := by
  refine BitVec.eq_of_getLsbD_eq fun i hi => ?_
  rw [getLsbD_word, BitVec.getLsbD_setWidth]
  by_cases h8 : i < 8
  · simp [byteBits, h8, List.getD]
  · rw [List.getD_eq_default _ _ (by simpa using Nat.le_of_not_lt h8),
      BitVec.getLsbD_of_ge _ _ (Nat.le_of_not_lt h8)]

theorem feed_byteBits (hw : 8 ≤ w) (c : BitVec w) (b : UInt8) :
    feed poly c (byteBits b) = shifts poly 8 (c ^^^ b.toBitVec.setWidth w) := by
  rw [feed_eq_shifts poly _ c (by rwa [length_byteBits]), word_byteBits, length_byteBits]

/-- Eight shifts are those of the low byte, and the other bytes moved down. -/
theorem shifts_eight (x : BitVec w) :
    shifts poly 8 x = shifts poly 8 (BitVec.ofNat w (x.toNat % 256)) ^^^ (x >>> 8) := by
  have hsplit : x = BitVec.ofNat w (x.toNat % 256) ^^^ ((x >>> 8) <<< 8) := by
    refine BitVec.eq_of_getLsbD_eq fun i hi => ?_
    have hlow : (x.toNat % 256).testBit i = (decide (i < 8) && x.getLsbD i) := by
      rw [show (256 : Nat) = 2 ^ 8 from rfl, Nat.testBit_mod_two_pow]
      rfl
    rw [BitVec.getLsbD_xor, BitVec.getLsbD_ofNat, hlow, BitVec.getLsbD_shiftLeft,
      BitVec.getLsbD_ushiftRight]
    by_cases h8 : i < 8
    · simp only [hi, h8, decide_true, Bool.not_true, Bool.true_and, Bool.and_false,
        Bool.false_and, Bool.xor_false]
    · simp only [hi, h8, Nat.add_sub_cancel' (Nat.le_of_not_lt h8), decide_true, decide_false,
        Bool.not_false, Bool.true_and, Bool.and_false, Bool.false_and, Bool.false_xor]
  have hhigh : shifts poly 8 ((x >>> 8) <<< 8) = x >>> 8 :=
    shifts_shiftLeft poly 8 _ fun i hi => by
      rw [BitVec.getLsbD_ushiftRight]
      exact BitVec.getLsbD_of_ge _ _ (by omega)
  conv => lhs; rw [hsplit, shifts_xor, hhigh]

/-- A step with a table of remainders. -/
def tableStep (table : Nat → BitVec w) (c : BitVec w) (b : UInt8) : BitVec w :=
  table ((c ^^^ b.toBitVec.setWidth w).toNat % 256) ^^^ (c >>> 8)

variable {table : Nat → BitVec w}

/-- The step with the table divides by eight bits. -/
theorem tableStep_eq (hw : 8 ≤ w)
    (htable : ∀ i < 256, table i = shifts poly 8 (BitVec.ofNat w i)) (c : BitVec w) (b : UInt8) :
    tableStep table c b = feed poly c (byteBits b) := by
  have hdrop : (c ^^^ b.toBitVec.setWidth w) >>> 8 = c >>> 8 := by
    refine BitVec.eq_of_getLsbD_eq fun i _ => ?_
    have hb : b.toBitVec.getLsbD (8 + i) = false := BitVec.getLsbD_of_ge _ _ (by omega)
    rw [BitVec.getLsbD_ushiftRight, BitVec.getLsbD_ushiftRight, BitVec.getLsbD_xor,
      BitVec.getLsbD_setWidth, hb, Bool.and_false, Bool.xor_false]
  rw [feed_byteBits poly hw, shifts_eight, hdrop, tableStep, htable _ (Nat.mod_lt _ (by omega))]

theorem foldl_tableStep (hw : 8 ≤ w)
    (htable : ∀ i < 256, table i = shifts poly 8 (BitVec.ofNat w i)) :
    ∀ (bs : List UInt8) (c : BitVec w), bs.foldl (tableStep table) c = feed poly c (bitsOf bs)
  | [], _ => rfl
  | b :: bs, c => by
    rw [List.foldl_cons, tableStep_eq poly hw htable, foldl_tableStep hw htable bs, ← feed_append]
    rfl

/-- The messages differ, and only in `n` adjacent bits. -/
def Burst (n : Nat) (d d' : List UInt8) : Prop :=
  d ≠ d' ∧ ∃ pre xs ys suf, bitsOf d = pre ++ xs ++ suf ∧ bitsOf d' = pre ++ ys ++ suf ∧
    xs.length = ys.length ∧ xs.length ≤ n

theorem Burst.feed_ne {d d' : List UInt8} (hpoly : poly.getLsbD (w - 1) = true) (h : Burst w d d')
    (c : BitVec w) : feed poly c (bitsOf d) ≠ feed poly c (bitsOf d') := by
  obtain ⟨hne, pre, xs, ys, suf, hd, hd', hl, hw⟩ := h
  rw [hd, hd']
  refine feed_burst hpoly c pre suf hl hw fun hxy => hne ?_
  rw [hxy, ← hd'] at hd
  exact bitsOf_injective hd

end HmBoard.Lib.Crc
