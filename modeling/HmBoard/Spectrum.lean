import HmBoard.ExactFloat
import HmBoard.FftProofs
import Mathlib.Analysis.SpecialFunctions.Complex.Log

/-!
# The spectrum of a measurement

With `float` read as exact real arithmetic (`ExactFloat`) and the table as exact sines and cosines,
`FFT_calculate` is the discrete Fourier transform of the bit-reversed reading of the FFT region
(`point_fftMem`), and after `decimate_and_store` that reading is the decimated signal
(`spectrum_of_signal`). Storage stays bytes: a `float` is whatever four cells its format says.
-/

namespace HmBoard

open Lib Fw
open Lib.Prog (run)
open Board (exec)
open scoped Real

variable {B P : Type} [Cell B]

/-! ## The transform -/

section

variable [ExactFloat B]

/-- Point `j` of the FFT region as a complex number. -/
noncomputable def point (m : Mem B) (j : Nat) : ℂ :=
  ⟨(loadPoint m j : Complex ℝ).real, (loadPoint m j : Complex ℝ).imag⟩

theorem point_butterflyMem (dsin dcos : ℝ) {a b : Nat} (h : a ≠ b) (m : Mem B) :
    point (butterflyMem dsin dcos a b m) = butterfly (⟨dcos, dsin⟩ : ℂ) a b (point m) := by
  funext j
  unfold butterfly butterflyMem point
  rw [loadPoint_storePoint, loadPoint_storePoint]
  by_cases hb : j = b
  · subst hb
    rw [if_pos rfl, Function.update_self]
    apply Complex.ext <;> simp <;> ring
  · rw [if_neg hb, Function.update_of_ne hb]
    by_cases ha : j = a
    · subst ha
      rw [if_pos rfl, Function.update_self]
      apply Complex.ext <;> simp <;> ring
    · rw [if_neg ha, Function.update_of_ne ha]

theorem point_columnMem (sincos : Nat → ℝ) {n angf k : Nat} (hk : k < n) (m : Mem B) (g : Nat) :
    point (Prog.sweep (fun s => butterflyMem (sincos (2 * k * angf)) (sincos (2 * k * angf + 1))
        (k + 2 * n * s) (k + n + 2 * n * s)) m g) =
      column n (⟨sincos (2 * k * angf + 1), sincos (2 * k * angf)⟩ : ℂ) k g (point m) := by
  induction g with
  | zero => rfl
  | succ g ih => rw [Prog.sweep, point_butterflyMem _ _ (by omega), ih, column]

theorem point_stageMem {sincos : Nat → ℝ} (htab : ExactTable sincos) {n angf : Nat}
    (hN : n * angf = 256) (m : Mem B) :
    point (stageMem sincos n angf m) =
      stage n (fun k => omega ^ (k * angf)) angf n (point m) := by
  have key : ∀ k ≤ n, point (Prog.sweep (columnMem sincos n angf) m k) =
      stage n (fun k => omega ^ (k * angf)) angf k (point m) := by
    intro k hk
    induction k with
    | zero => rfl
    | succ k ih =>
      have hle : k * angf ≤ 256 := hN ▸ Nat.mul_le_mul_right angf (by omega)
      rw [Prog.sweep, columnMem, point_columnMem _ (by omega), ih (by omega), stage, mul_assoc 2,
        htab.twiddle hle]
  exact key n le_rfl

/-- **The transform.** The FFT region ends up with the transform of its bit-reversed reading. -/
theorem point_fftMem {sincos : Nat → ℝ} (htab : ExactTable sincos) (m : Mem B) {k : Nat}
    (hk : k < 512) :
    point (fftMem sincos 9 m) k = dft omega 512 (fun i => point m (bitrev 9 i)) k := by
  have key : ∀ j ≤ 9, BlockDft omega 9 j (point m)
      (point (Prog.sweep (fun j => stageMem sincos (2 ^ j) (2 ^ 9 / 2 ^ (j + 1))) m j)) := by
    intro j hj
    induction j with
    | zero => exact BlockDft.zero omega 9 (point m)
    | succ j ih =>
      have hdiv : 2 ^ 9 / 2 ^ (j + 1) = 2 ^ (9 - j - 1) := Nat.pow_div (by omega) (by decide)
      have hN : 2 ^ j * 2 ^ (9 - j - 1) = 256 := by
        rw [← pow_add, show j + (9 - j - 1) = 8 by omega]; rfl
      have h := blockDft_step (by omega) omega_half (ih (by omega))
      rw [Prog.sweep, hdiv, point_stageMem htab hN]
      simpa only [hdiv] using h
  exact (key 9 le_rfl).full hk

/-! ## From the signal to its spectrum -/

/-- Sample `i` of the signal region, a signed word. -/
def sample (m : Mem B) (i : Nat) : Int := i16 (loadWord m (memSignalBegin + 2 * i))

/-- The offset stored with the signal. -/
def storedOffset (m : Mem B) : Int := i16 (loadWord m memSignalOffset)

/-- A result of the 12-bit differential ADC. -/
def AdcRange (x : Int) : Prop := -2048 ≤ x ∧ x < 2048

theorem point_decimateMem (m : Mem B) (hx : ∀ i < memSignalLength, AdcRange (sample m i))
    (ho : AdcRange (storedOffset m)) {j : Nat} (hj : j < 512) :
    point (decimateMem (F := ℝ) 512 (fun i => bitrevTable.getD i 0) m) j =
      ((sample m (2 * bitrev 9 j) - storedOffset m : ℤ) : ℂ) := by
  have hlt : 2 * bitrev 9 j < memSignalLength := by
    have := bitrev_lt 9 j
    unfold memSignalLength; omega
  have hdiff : i16 (loadWord m (memSignalBegin + 2 * (2 * bitrev 9 j)) -
      i16 (loadWord m memSignalOffset)) = sample m (2 * bitrev 9 j) - storedOffset m := by
    have h := hx _ hlt
    unfold AdcRange sample storedOffset i16 at *
    omega
  rw [point, loadPoint_decimateMem _ _ hj, decimated, bitrevTable_eq hj, if_pos hlt, hdiff]
  apply Complex.ext <;> simp

/-- `FFT_calculate` on its own. -/
theorem run_fftCalculate {sincos : Nat → ℝ} (htab : ExactTable sincos) (s : Board B P)
    (hs : s.chip.phase = .idle) {k : Nat} (hk : k < noPoints) :
    point (run exec (fftCalculate noPoints sincos) s).1.chip.mem k =
      ∑ j ∈ Finset.range noPoints, point s.chip.mem (bitrev 9 j) * omega ^ (j * k) := by
  obtain ⟨buf, e⟩ := computes_fftCalculate (B := B) (P := P) (L := 9) (by decide) sincos s hs
  rw [show noPoints = 2 ^ 9 from rfl, e]
  exact point_fftMem htab s.chip.mem hk

/-- **The measurement chain.** From any stored signal in the range of the ADC, point `k` of the
spectrum is the transform of every second sample less the stored offset; and `FFT_calculate` on
its own transforms the bit-reversed reading of whatever the region held. -/
theorem spectrum_of_signal {sincos : Nat → ℝ} (htab : ExactTable sincos) (s : Board B P)
    (hs : s.chip.phase = .idle) {k : Nat} (hk : k < noPoints) :
    ((∀ i < memSignalLength, AdcRange (sample s.chip.mem i)) → AdcRange (storedOffset s.chip.mem) →
      point (run exec (do
          decimateAndStore (F := ℝ) noPoints fun i => bitrevTable.getD i 0
          fftCalculate noPoints sincos) s).1.chip.mem k =
        ∑ j ∈ Finset.range noPoints,
          ((sample s.chip.mem (2 * j) - storedOffset s.chip.mem : ℤ) : ℂ) * omega ^ (j * k)) ∧
    point (run exec (fftCalculate noPoints sincos) s).1.chip.mem k =
      ∑ j ∈ Finset.range noPoints, point s.chip.mem (bitrev 9 j) * omega ^ (j * k) := by
  refine ⟨fun hx ho => ?_, run_fftCalculate htab s hs hk⟩
  obtain ⟨buf, e⟩ := computes_decimateAndStore (F := ℝ) (B := B) (P := P) (N := noPoints)
    (by decide)
    (fun _ => bitrevTable_lt) s hs
  rw [Prog.bind_eq, Prog.run_bind, e, run_fftCalculate htab _ rfl hk]
  refine Finset.sum_congr rfl fun j hj => ?_
  have hj' : bitrev 9 j < 512 := bitrev_lt 9 j
  rw [show (s.after (decimateMem (F := ℝ) noPoints (fun i => bitrevTable.getD i 0) s.chip.mem)
    buf).chip.mem = decimateMem (F := ℝ) 512 (fun i => bitrevTable.getD i 0) s.chip.mem from rfl,
    point_decimateMem _ hx ho hj', bitrev_bitrev 9 j (Finset.mem_range.1 hj)]

end

/-- A measurement whose only non-zero sample is a leading one. -/
def impulse (a : Nat) : ExactCell := if a = 1 then .byte 1 else .byte 0

theorem val_impulse {a : Nat} (ha : a ≠ 1) : val (impulse a) = 0 := by
  rw [impulse, if_neg ha]; rfl

theorem sample_impulse (i : Nat) : sample impulse i = if i = 0 then 1 else 0 := by
  rcases i with _ | i
  · have h0 : val (impulse 0) = 0 := val_impulse (by decide)
    have h1 : val (impulse 1) = 1 := rfl
    rw [if_pos rfl, sample, loadWord, show memSignalBegin + 2 * 0 = 0 from rfl, h0, h1]
    decide
  · rw [sample, loadWord, val_impulse (by unfold memSignalBegin; omega),
      val_impulse (by unfold memSignalBegin; omega), if_neg (Nat.succ_ne_zero i)]
    decide

theorem storedOffset_impulse : storedOffset impulse = 0 := by
  rw [storedOffset, loadWord, val_impulse (by decide), val_impulse (by decide)]
  decide

/-- Its spectrum is flat. -/
theorem spectrum_of_impulse :
    point (run exec (do
      decimateAndStore (F := ℝ) noPoints fun i => bitrevTable.getD i 0
      fftCalculate noPoints exactSincos) (Board.rest impulse : Board ExactCell Unit)).1.chip.mem 3 =
      1 := by
  have hx : ∀ i < memSignalLength, AdcRange (sample impulse i) := fun i _ => by
    rw [sample_impulse]; unfold AdcRange; split <;> omega
  have ho : AdcRange (storedOffset impulse) := by
    rw [storedOffset_impulse]; unfold AdcRange; omega
  rw [(spectrum_of_signal exactTable (Board.rest impulse : Board ExactCell Unit) rfl
    (by decide)).1 hx ho, Finset.sum_eq_single 0]
  · simp [Board.rest, sample_impulse, storedOffset_impulse]
  · intro j _ hj
    simp [Board.rest, sample_impulse, storedOffset_impulse, hj]
  · intro h0
    exact absurd (Finset.mem_range.2 (by decide)) h0

end HmBoard
