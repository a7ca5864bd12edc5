import HmBoard.Avr
import Mathlib.Analysis.SpecialFunctions.Complex.Log

/-!
# `float` without rounding

`ExactFloat` is a `float` format over the reals whose sums, differences, products and conversions
from integers are exact; `ExactCell` is memory that can hold such numbers. `ExactTable` says the
same of the sine/cosine table.
-/

namespace HmBoard

open FloatFormat (ofInt add sub mul)
open scoped Real

/-- A `float` format whose arithmetic is exact. -/
class ExactFloat (B : outParam Type) [Cell B] extends FloatFormat ℝ B where
  ofInt_eq : ∀ x : ℤ, (ofInt x : ℝ) = x
  add_eq : ∀ x y : ℝ, add x y = x + y
  sub_eq : ∀ x y : ℝ, sub x y = x - y
  mul_eq : ∀ x y : ℝ, mul x y = x * y

attribute [simp] ExactFloat.ofInt_eq ExactFloat.add_eq ExactFloat.sub_eq ExactFloat.mul_eq

/-- A cell that holds a byte or a quarter of a real number. -/
inductive ExactCell where
  | byte (b : UInt8)
  | part (x : ℝ) (i : Nat)

instance : Cell ExactCell where
  byte := .byte
  val
    | .byte b => b
    | .part _ _ => 0
  val_byte _ := rfl

noncomputable instance : ExactFloat ExactCell where
  ofDec m e := m / 10 ^ e
  ofInt x := x
  add x y := x + y
  sub x y := x - y
  mul x y := x * y
  log := Real.log
  toInt x := if 0 ≤ x then ⌊x⌋ else ⌈x⌉
  beq x y := by classical exact decide (x = y)
  enc x := [.part x 0, .part x 1, .part x 2, .part x 3]
  dec
    | .part x 0 :: _ => x
    | _ => 0
  length_enc _ := rfl
  dec_enc _ := rfl
  ofInt_eq _ := rfl
  add_eq _ _ := rfl
  sub_eq _ _ := rfl
  mul_eq _ _ := rfl

/-! ## The table -/

/-- The table holds `sin` and `cos` of `π j / 256` as pair `j`. -/
def ExactTable (sincos : Nat → ℝ) : Prop :=
  ∀ j ≤ 256, sincos (2 * j) = Real.sin (π * j / 256) ∧ sincos (2 * j + 1) = Real.cos (π * j / 256)

/-- `ω = exp (i π / 256)`. -/
noncomputable def omega : ℂ := Complex.exp (π / 256 * Complex.I)

theorem omega_pow (j : Nat) :
    omega ^ j = ⟨Real.cos (π * j / 256), Real.sin (π * j / 256)⟩ := by
  have h : (j : ℂ) * (π / 256 * Complex.I) = ((π * j / 256 : ℝ) : ℂ) * Complex.I := by
    push_cast; ring
  rw [omega, ← Complex.exp_nat_mul, h]
  apply Complex.ext
  · rw [Complex.exp_ofReal_mul_I_re]
  · rw [Complex.exp_ofReal_mul_I_im]

theorem omega_half : omega ^ 2 ^ (9 - 1) = -1 := by
  have h : π * ((2 ^ (9 - 1) : Nat) : ℝ) / 256 = π := by norm_num
  rw [omega_pow, h]
  apply Complex.ext <;> simp

/-- Pair `j` of the table is `ω ^ j`. -/
theorem ExactTable.twiddle {sincos : Nat → ℝ} (h : ExactTable sincos) {j : Nat} (hj : j ≤ 256) :
    (⟨sincos (2 * j + 1), sincos (2 * j)⟩ : ℂ) = omega ^ j := by
  rw [omega_pow, (h j hj).1, (h j hj).2]

/-- `sincos[]` without rounding: pair `j` is `sin` and `cos` of `π j / 256`. -/
noncomputable def exactSincos (i : Nat) : ℝ :=
  if i % 2 = 0 then Real.sin (π * (i / 2 : Nat) / 256) else Real.cos (π * (i / 2 : Nat) / 256)

theorem exactTable : ExactTable exactSincos := fun j _ => by
  have h0 : 2 * j % 2 = 0 ∧ 2 * j / 2 = j := by omega
  have h1 : ¬ (2 * j + 1) % 2 = 0 ∧ (2 * j + 1) / 2 = j := by omega
  simp only [exactSincos, h0.1, h0.2, h1.1, h1.2, if_true, if_false, and_self]

end HmBoard
