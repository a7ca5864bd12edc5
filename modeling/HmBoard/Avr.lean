import Mathlib.Data.Nat.Bitwise
import Mathlib.Tactic.IntervalCases

/-!
# The target: AVR integers, `sprintf` integers and the `float` format

`int` and `unsigned int` have 16 bits, `long` and `unsigned long` 32. Values are `Nat` (unsigned)
and `Int` (signed) with the wrap-around written out: `u16`, `u32`, `i16`, `i32` bring a
mathematical result into the type's range, `toU16` and `toU32` are the conversions from a signed
to an unsigned type.

`float` is a parameter: `FloatFormat F B` collects the operations the firmware uses on a type `F`
and the four cells its value occupies in memory. `exactFloat` is the instance that computes with
real numbers without rounding; its cells can hold a quarter of an exact real besides raw bytes.
-/

namespace HmBoard

/-! ## Integers -/

def u16 (x : Nat) : Nat := x % 65536
def u32 (x : Nat) : Nat := x % 4294967296
def i16 (x : Int) : Int := (x + 32768) % 65536 - 32768
def i32 (x : Int) : Int := (x + 2147483648) % 4294967296 - 2147483648
def toU16 (x : Int) : Nat := (x % 65536).toNat
def toU32 (x : Int) : Nat := (x % 4294967296).toNat

theorem u16_of_lt {x : Nat} (h : x < 65536) : u16 x = x := Nat.mod_eq_of_lt h
theorem u32_of_lt {x : Nat} (h : x < 4294967296) : u32 x = x := Nat.mod_eq_of_lt h

theorem i16_of_range {x : Int} (h1 : -32768 ≤ x) (h2 : x < 32768) : i16 x = x := by
  unfold i16; omega

theorem i32_of_range {x : Int} (h1 : -2147483648 ≤ x) (h2 : x < 2147483648) : i32 x = x := by
  unfold i32; omega

theorem i16_range (x : Int) : -32768 ≤ i16 x ∧ i16 x < 32768 := by unfold i16; omega

theorem toU16_lt (x : Int) : toU16 x < 65536 := by unfold toU16; omega

theorem i16_toU16 (x : Int) : i16 (toU16 x) = i16 x := by unfold i16 toU16; omega

/-! ## `sprintf` -/

def digit (d : Nat) : UInt8 := UInt8.ofNat (48 + d)

/-- The decimal digits of `n`, at most `fuel` of them. -/
def digits : Nat → Nat → List UInt8
  | 0, _ => []
  | fuel + 1, n => if n < 10 then [digit n] else digits fuel (n / 10) ++ [digit (n % 10)]

/-- `%u`. -/
def fmtNat (n : Nat) : List UInt8 := digits (n + 1) n

/-- `%i`, `%d`. -/
def fmtInt (x : Int) : List UInt8 := if x < 0 then 45 :: fmtNat x.natAbs else fmtNat x.natAbs

/-- A C string literal without its NUL. -/
def lit (s : String) : List UInt8 := s.toList.map fun c => UInt8.ofNat c.toNat

theorem length_digits_le : ∀ fuel n k, 0 < k → n < 10 ^ k → (digits fuel n).length ≤ k
  | 0, _, _, _, _ => by simp [digits]
  | fuel + 1, n, k, hk, h => by
    rw [digits]
    split
    · exact hk
    · next h10 =>
      obtain ⟨j, rfl⟩ : ∃ j, k = j + 1 := ⟨k - 1, by omega⟩
      rw [Nat.pow_succ] at h
      have hj : 0 < j := by
        rcases j with _ | j
        · omega
        · omega
      have := length_digits_le fuel (n / 10) j hj (by omega)
      simpa using this

/-- A number of so many digits. -/
theorem length_fmtInt_lt {x : Int} {k : Nat} (hk : 0 < k) (h : x.natAbs < 10 ^ k) :
    (fmtInt x).length ≤ k + 1 := by
  have hlen : (fmtNat x.natAbs).length ≤ k := length_digits_le _ _ k hk h
  rw [fmtInt]
  split
  · rw [List.length_cons]
    omega
  · omega

example : lit "A" ++ fmtInt (-120) = [65, 45, 49, 50, 48] := by decide

/-! ## Memory cells and `float` -/

/-- What a byte-wide memory cell can hold: at least every byte. -/
class Cell (B : Type) where
  byte : UInt8 → B
  val : B → UInt8
  val_byte : ∀ b, val (byte b) = b

export Cell (byte val)
attribute [simp] Cell.val_byte

instance : Cell UInt8 := ⟨id, id, fun _ => rfl⟩

/-- `float` as the firmware uses it: a value occupies four cells. -/
class FloatFormat (F : Type) (B : outParam Type) [Cell B] where
  /-- The constant `m * 10 ^ (-e)`. -/
  ofDec : Int → Nat → F
  ofInt : Int → F
  add : F → F → F
  sub : F → F → F
  mul : F → F → F
  log : F → F
  /-- The conversion `(int)`. -/
  toInt : F → Int
  beq : F → F → Bool
  enc : F → List B
  dec : List B → F
  length_enc : ∀ x, (enc x).length = 4
  dec_enc : ∀ x, dec (enc x) = x

attribute [simp] FloatFormat.length_enc

/-- `complex` (spi_memory_23lcxx.h:8). -/
structure Complex (F : Type) where
  real : F
  imag : F
deriving DecidableEq, Repr

namespace Complex

variable {F B : Type} [Cell B] [FloatFormat F B]

/-- The eight cells of a `complex`, as `memcpy` sees them. -/
def enc (z : Complex F) : List B := FloatFormat.enc z.real ++ FloatFormat.enc z.imag

def dec (bs : List B) : Complex F := ⟨FloatFormat.dec (bs.take 4), FloatFormat.dec (bs.drop 4)⟩

@[simp] theorem length_enc (z : Complex F) : (enc z).length = 8 := by simp [enc]

@[simp] theorem dec_enc (z : Complex F) : dec (enc z) = z := by
  have h := FloatFormat.length_enc z.real
  simp only [enc, dec, List.take_left' h, List.drop_left' h, FloatFormat.dec_enc]

end Complex

end HmBoard
