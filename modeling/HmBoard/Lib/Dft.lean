import Mathlib.Algebra.BigOperators.Intervals
import Mathlib.Algebra.Ring.GeomSum
import Mathlib.Tactic.Ring
import Mathlib.Tactic.LinearCombination

/-!
# The radix-2 decimation-in-time transform

The transform of `2 ^ L` points over a commutative ring with an `ω` such that
`ω ^ (2 ^ (L - 1)) = -1`, as an in-place sequence of butterflies on an array `ℕ → K`:

| here | meaning |
| --- | --- |
| `bitrev m i`   | `i` with its low `m` bits in reverse order |
| `dft ω N x k`  | `∑ i < N, x i * ω ^ (i * k)` |
| `butterfly`    | `(x a, x b) ← (x a + w * x b, x a - w * x b)` |
| `column`, `stage` | the butterflies of one twiddle factor, of one stage, in loop order |
| `BlockDft`     | every block of `2 ^ m` cells holds the transform of its bit-reversed reading |

`stage_spec` says what the butterflies of a stage do together; `blockDft_step` (Cooley–Tukey) that
a stage turns blocks of `2 ^ m` into blocks of `2 ^ (m + 1)`; `BlockDft.full` reads off the result.
-/

open Finset

namespace HmBoard.Lib

/-! ## Bit reversal -/

def bitrev : Nat → Nat → Nat
  | 0, _ => 0
  | m + 1, i => bitrev m (i / 2) + 2 ^ m * (i % 2)

theorem bitrev_lt : ∀ m i, bitrev m i < 2 ^ m
  | 0, _ => by simp [bitrev]
  | m + 1, i => by
    have ih := bitrev_lt m (i / 2)
    have h2 : 2 ^ m * (i % 2) ≤ 2 ^ m * 1 := Nat.mul_le_mul_left _ (by omega)
    rw [bitrev, pow_succ]; omega

/-- The other recursion: the top bit becomes the bottom one. -/
theorem bitrev_high : ∀ m i, i < 2 ^ (m + 1) →
    bitrev (m + 1) i = 2 * bitrev m (i % 2 ^ m) + i / 2 ^ m
  | 0, i, h => by simp [bitrev]; omega
  | m + 1, i, h => by
    have hi : i / 2 < 2 ^ (m + 1) := by rw [pow_succ] at h; omega
    have e1 : i % 2 ^ (m + 1) / 2 = i / 2 % 2 ^ m := by
      rw [pow_succ', Nat.mod_mul_right_div_self]
    have e2 : i % 2 ^ (m + 1) % 2 = i % 2 :=
      Nat.mod_mod_of_dvd _ (dvd_pow_self 2 (Nat.succ_ne_zero m))
    have e3 : i / 2 / 2 ^ m = i / 2 ^ (m + 1) := by rw [Nat.div_div_eq_div_mul, ← pow_succ']
    rw [bitrev, bitrev_high m _ hi, bitrev, e1, e2, e3]
    ring

theorem bitrev_bitrev : ∀ m i, i < 2 ^ m → bitrev m (bitrev m i) = i
  | 0, i, h => by simp [bitrev] at h ⊢; omega
  | m + 1, i, h => by
    have hi : i / 2 < 2 ^ m := by rw [pow_succ] at h; omega
    have hlt := bitrev_lt m (i / 2)
    rw [bitrev_high m _ (bitrev_lt (m + 1) i), bitrev]
    have e1 : (bitrev m (i / 2) + 2 ^ m * (i % 2)) % 2 ^ m = bitrev m (i / 2) := by
      rw [Nat.add_mul_mod_self_left, Nat.mod_eq_of_lt hlt]
    have e2 : (bitrev m (i / 2) + 2 ^ m * (i % 2)) / 2 ^ m = i % 2 := by
      rw [Nat.add_mul_div_left _ _ (Nat.two_pow_pos m), Nat.div_eq_of_lt hlt, Nat.zero_add]
    rw [e1, e2, bitrev_bitrev m _ hi]
    omega

theorem bitrev_even (m i : Nat) : bitrev (m + 1) (2 * i) = bitrev m i := by
  simp [bitrev]

theorem bitrev_odd (m i : Nat) : bitrev (m + 1) (2 * i + 1) = bitrev m i + 2 ^ m := by
  rw [bitrev, show (2 * i + 1) / 2 = i by omega, show (2 * i + 1) % 2 = 1 by omega, mul_one]

/-! ## The transform -/

variable {K : Type*} [CommRing K]

/-- The discrete Fourier transform of `N` points with kernel `ω`. -/
def dft (ω : K) (N : Nat) (x : Nat → K) (k : Nat) : K := ∑ i ∈ range N, x i * ω ^ (i * k)

theorem sum_range_even_odd (f : Nat → K) (n : Nat) :
    ∑ i ∈ range (2 * n), f i = ∑ i ∈ range n, f (2 * i) + ∑ i ∈ range n, f (2 * i + 1) := by
  induction n with
  | zero => simp
  | succ n ih =>
    rw [show 2 * (n + 1) = 2 * n + 1 + 1 by ring, sum_range_succ, sum_range_succ, ih,
      sum_range_succ, sum_range_succ]
    ring

/-! ## Butterflies -/

def butterfly (w : K) (a b : Nat) (x : Nat → K) : Nat → K :=
  Function.update (Function.update x a (x a + w * x b)) b (x a - w * x b)

/-- The butterflies of column `k` of a stage with half-blocks of `n`: groups `0 … s - 1`. -/
def column (n : Nat) (w : K) (k : Nat) : Nat → (Nat → K) → Nat → K
  | 0, x => x
  | s + 1, x => butterfly w (k + 2 * n * s) (k + n + 2 * n * s) (column n w k s x)

/-- Columns `0 … k - 1` of a stage with `g` groups and twiddle factors `w`. -/
def stage (n : Nat) (w : Nat → K) (g : Nat) : Nat → (Nat → K) → Nat → K
  | 0, x => x
  | k + 1, x => column n (w k) k g (stage n w g k x)

theorem pair_inj {n k k' s s' : Nat} (hk : k < 2 * n) (hk' : k' < 2 * n)
    (h : k + 2 * n * s = k' + 2 * n * s') : k = k' ∧ s = s' := by
  have hn : 0 < 2 * n := by omega
  have e1 := congrArg (· % (2 * n)) h
  have e2 := congrArg (· / (2 * n)) h
  simp only [Nat.add_mul_mod_self_left, Nat.mod_eq_of_lt hk, Nat.mod_eq_of_lt hk'] at e1
  simp only [Nat.add_mul_div_left _ _ hn, Nat.div_eq_of_lt hk, Nat.div_eq_of_lt hk',
    Nat.zero_add] at e2
  exact ⟨e1, e2⟩

/-- The cells of the butterflies of a stage with half-blocks of `n` and `g` groups, in loop order. -/
def stageCells (n g : Nat) : List Nat :=
  (List.range n).flatMap fun k => (List.range g).flatMap fun s => [k + 2 * n * s, k + n + 2 * n * s]

theorem length_stageCells (n g : Nat) : (stageCells n g).length = 2 * n * g := by
  simp only [stageCells, List.length_flatMap, List.length_cons, List.length_nil, List.map_const',
    List.sum_replicate, List.length_range, smul_eq_mul]
  ring

/-- **A stage is a partition**: its butterflies use each cell exactly once. -/
theorem stageCells_perm (n g : Nat) : (stageCells n g).Perm (List.range (2 * n * g)) := by
  have hcover : List.range (2 * n * g) ⊆ stageCells n g := by
    intro j hj
    rw [List.mem_range] at hj
    have hn : 0 < n := by
      rcases Nat.eq_zero_or_pos n with rfl | h
      · simp at hj
      · exact h
    have hs : j / (2 * n) < g := Nat.div_lt_of_lt_mul hj
    have hr : j % (2 * n) < 2 * n := Nat.mod_lt _ (by omega)
    have hsplit : j % (2 * n) + 2 * n * (j / (2 * n)) = j := Nat.mod_add_div j (2 * n)
    simp only [stageCells, List.mem_flatMap, List.mem_range, List.mem_cons, List.not_mem_nil,
      or_false]
    -- the remainder is a first or a second half
    by_cases hk : j % (2 * n) < n
    · exact ⟨j % (2 * n), hk, j / (2 * n), hs, .inl hsplit.symm⟩
    · exact ⟨j % (2 * n) - n, by omega, j / (2 * n), hs, .inr (by omega)⟩
  have hlen : (stageCells n g).length ≤ (List.range (2 * n * g)).length := by
    rw [length_stageCells, List.length_range]
  exact ((List.subperm_of_subset List.nodup_range hcover).perm_of_length_le hlen).symm

/-- Cell `j` belongs to one of the first `s` butterflies of column `k`. -/
def InColumn (n k s j : Nat) : Prop := ∃ g < s, j = k + 2 * n * g ∨ j = k + n + 2 * n * g

theorem column_outside {n k : Nat} {w : K} {x : Nat → K} {j : Nat} :
    ∀ {s : Nat}, ¬ InColumn n k s j → column n w k s x j = x j
  | 0, _ => rfl
  | s + 1, h => by
    have ih := column_outside (w := w) (x := x) (s := s)
      fun ⟨g, hg, hj⟩ => h ⟨g, Nat.lt_succ_of_lt hg, hj⟩
    have hne : j ≠ k + 2 * n * s ∧ j ≠ k + n + 2 * n * s :=
      ⟨fun e => h ⟨s, Nat.lt_succ_self s, .inl e⟩, fun e => h ⟨s, Nat.lt_succ_self s, .inr e⟩⟩
    rw [column, butterfly, Function.update_of_ne hne.2, Function.update_of_ne hne.1, ih]

theorem not_inColumn {n k s : Nat} (hk : k < n) :
    ¬ InColumn n k s (k + 2 * n * s) ∧ ¬ InColumn n k s (k + n + 2 * n * s) := by
  constructor <;> rintro ⟨g, hg, h | h⟩
  · exact absurd (pair_inj (by omega) (by omega) h).2 (by omega)
  · exact absurd (pair_inj (by omega) (by omega) h).1 (by omega)
  · exact absurd (pair_inj (by omega) (by omega) h).1 (by omega)
  · exact absurd (pair_inj (by omega) (by omega) h).2 (by omega)

theorem column_spec {n k : Nat} (hk : k < n) (w : K) (x : Nat → K) :
    ∀ s, ∀ g < s, column n w k s x (k + 2 * n * g) = x (k + 2 * n * g) + w * x (k + n + 2 * n * g) ∧
      column n w k s x (k + n + 2 * n * g) = x (k + 2 * n * g) - w * x (k + n + 2 * n * g)
  | s + 1, g, hg => by
    have hab : k + 2 * n * s ≠ k + n + 2 * n * s := by omega
    rcases Nat.lt_succ_iff_lt_or_eq.1 hg with h | rfl
    · have h1 : k + 2 * n * g ≠ k + 2 * n * s := fun e =>
        absurd (pair_inj (by omega) (by omega) e).2 (by omega)
      have h2 : k + 2 * n * g ≠ k + n + 2 * n * s := fun e =>
        absurd (pair_inj (by omega) (by omega) e).1 (by omega)
      have h3 : k + n + 2 * n * g ≠ k + 2 * n * s := fun e =>
        absurd (pair_inj (by omega) (by omega) e).1 (by omega)
      have h4 : k + n + 2 * n * g ≠ k + n + 2 * n * s := fun e =>
        absurd (pair_inj (by omega) (by omega) e).2 (by omega)
      rw [column, butterfly, Function.update_of_ne h2, Function.update_of_ne h1,
        Function.update_of_ne h4, Function.update_of_ne h3]
      exact column_spec hk w x s g h
    · have ha := column_outside (w := w) (x := x) (not_inColumn (s := g) hk).1
      have hb := column_outside (w := w) (x := x) (not_inColumn (s := g) hk).2
      rw [column, butterfly, Function.update_self, Function.update_of_ne hab, Function.update_self,
        ha, hb]
      exact ⟨rfl, rfl⟩

/-- **A stage.** Its columns touch disjoint pairs, so together they apply every butterfly to the
values from before the stage. -/
theorem stage_spec {n : Nat} (w : Nat → K) (g : Nat) (x : Nat → K) :
    ∀ k ≤ n, (∀ j, (∀ k' < k, ¬ InColumn n k' g j) → stage n w g k x j = x j) ∧
      ∀ k' < k, ∀ s < g,
        stage n w g k x (k' + 2 * n * s) = x (k' + 2 * n * s) + w k' * x (k' + n + 2 * n * s) ∧
        stage n w g k x (k' + n + 2 * n * s) = x (k' + 2 * n * s) - w k' * x (k' + n + 2 * n * s)
  | 0, _ => ⟨fun _ _ => rfl, fun _ h => absurd h (Nat.not_lt_zero _)⟩
  | k + 1, hk => by
    obtain ⟨ih1, ih2⟩ := stage_spec (n := n) w g x k (by omega)
    refine ⟨fun j hj => ?_, fun k' hk' s hs => ?_⟩
    · rw [stage, column_outside (hj k (Nat.lt_succ_self k))]
      exact ih1 j fun k' h => hj k' (Nat.lt_succ_of_lt h)
    · rcases Nat.lt_succ_iff_lt_or_eq.1 hk' with h | rfl
      · -- the new column does not touch the cells of an earlier one
        have hout : ∀ j, InColumn n k' g j → ¬ InColumn n k g j := by
          rintro j ⟨s', -, hj⟩ ⟨t, -, ht⟩
          rcases hj with rfl | rfl <;> rcases ht with ht | ht <;>
            exact absurd (pair_inj (by omega) (by omega) ht).1 (by omega)
        rw [stage, column_outside (hout _ ⟨s, hs, .inl rfl⟩),
          column_outside (hout _ ⟨s, hs, .inr rfl⟩)]
        exact ih2 k' h s hs
      · have hin : ∀ j, InColumn n k' g j → ∀ k'' < k', ¬ InColumn n k'' g j := by
          rintro j ⟨s', -, hj⟩ k'' hk'' ⟨t, -, ht⟩
          rcases hj with rfl | rfl <;> rcases ht with ht | ht <;>
            exact absurd (pair_inj (by omega) (by omega) ht).1 (by omega)
        obtain ⟨ha, hb⟩ := column_spec (n := n) (k := k') (by omega) (w k') (stage n w g k' x) g s hs
        rw [stage, ha, hb, ih1 _ (hin _ ⟨s, hs, .inl rfl⟩), ih1 _ (hin _ ⟨s, hs, .inr rfl⟩)]
        exact ⟨rfl, rfl⟩

/-! ## Cooley–Tukey -/

/-- Block `q` of `2 ^ m` cells of `y` holds the transform of the same block of `x`, read in
bit-reversed order. -/
def BlockDft (ω : K) (L m : Nat) (x y : Nat → K) : Prop :=
  ∀ q < 2 ^ (L - m), ∀ r < 2 ^ m,
    y (r + 2 ^ m * q) = dft (ω ^ 2 ^ (L - m)) (2 ^ m) (fun i => x (bitrev m i + 2 ^ m * q)) r

theorem BlockDft.zero (ω : K) (L : Nat) (x : Nat → K) : BlockDft ω L 0 x x := by
  intro q _ r hr
  obtain rfl : r = 0 := by simpa using hr
  simp [dft, bitrev]

theorem BlockDft.full {ω : K} {L : Nat} {x y : Nat → K} (h : BlockDft ω L L x y) {k : Nat}
    (hk : k < 2 ^ L) : y k = dft ω (2 ^ L) (fun i => x (bitrev L i)) k := by
  simpa using h 0 (by simp) k hk

/-- The transform of `2 ^ (m + 1)` points from those of its even and odd halves. -/
theorem dft_succ {ζ : K} {m : Nat} (hζ : ζ ^ 2 ^ m = -1) (x : Nat → K) {k : Nat} :
    dft ζ (2 ^ (m + 1)) (fun i => x (bitrev (m + 1) i)) k =
      dft (ζ ^ 2) (2 ^ m) (fun i => x (bitrev m i)) k +
        ζ ^ k * dft (ζ ^ 2) (2 ^ m) (fun i => x (bitrev m i + 2 ^ m)) k ∧
    dft ζ (2 ^ (m + 1)) (fun i => x (bitrev (m + 1) i)) (k + 2 ^ m) =
      dft (ζ ^ 2) (2 ^ m) (fun i => x (bitrev m i)) k -
        ζ ^ k * dft (ζ ^ 2) (2 ^ m) (fun i => x (bitrev m i + 2 ^ m)) k := by
  have hpow : ∀ i, ζ ^ (2 * i * 2 ^ m) = 1 := fun i => by
    rw [show 2 * i * 2 ^ m = 2 ^ m * (2 * i) by ring, pow_mul, hζ, pow_mul]; simp
  simp only [dft, pow_succ' 2 m, sum_range_even_odd, bitrev_even, bitrev_odd, mul_sum]
  constructor
  · congr 1
    · exact sum_congr rfl fun i _ => by rw [← pow_mul, mul_assoc 2 i k]
    · exact sum_congr rfl fun i _ => by
        rw [← pow_mul, show (2 * i + 1) * k = k + 2 * (i * k) by ring, pow_add]; ring
  · rw [sub_eq_add_neg, ← sum_neg_distrib]
    congr 1
    · refine sum_congr rfl fun i _ => ?_
      rw [← pow_mul, show 2 * i * (k + 2 ^ m) = 2 * (i * k) + 2 * i * 2 ^ m by ring, pow_add,
        hpow, mul_one]
    · refine sum_congr rfl fun i _ => ?_
      rw [← pow_mul, show (2 * i + 1) * (k + 2 ^ m) = k + 2 * (i * k) + 2 * i * 2 ^ m + 2 ^ m by ring,
        pow_add, pow_add, pow_add, hpow, hζ]
      ring

/-- **One stage.** Butterflies with half-blocks of `2 ^ m` and twiddles `ω ^ (k * 2 ^ (L - m - 1))`
turn transforms of blocks of `2 ^ m` into transforms of blocks of `2 ^ (m + 1)`. -/
theorem blockDft_step {ω : K} {L m : Nat} (hm : m < L) (hω : ω ^ 2 ^ (L - 1) = -1)
    {x y : Nat → K} (h : BlockDft ω L m x y) :
    BlockDft ω L (m + 1) x
      (stage (2 ^ m) (fun k => ω ^ (k * 2 ^ (L - m - 1))) (2 ^ (L - m - 1)) (2 ^ m) y) := by
  intro q hq r hr
  rw [show L - (m + 1) = L - m - 1 by omega] at hq ⊢
  have e1 : 2 ^ (L - m - 1) * 2 = 2 ^ (L - m) := by rw [← pow_succ]; congr 1; omega
  -- the twiddle base of the new blocks
  have hζ2 : (ω ^ 2 ^ (L - m - 1)) ^ 2 = ω ^ 2 ^ (L - m) := by rw [← pow_mul, e1]
  have hζ : (ω ^ 2 ^ (L - m - 1)) ^ 2 ^ m = -1 := by
    rw [← pow_mul, ← pow_add, show L - m - 1 + m = L - 1 by omega, hω]
  have hw : ∀ k, ω ^ (k * 2 ^ (L - m - 1)) = (ω ^ 2 ^ (L - m - 1)) ^ k := fun k => by
    rw [← pow_mul, mul_comm]
  -- blocks `2 q` and `2 q + 1` before the stage
  have heven : ∀ k < 2 ^ m, y (k + 2 * 2 ^ m * q) =
      dft ((ω ^ 2 ^ (L - m - 1)) ^ 2) (2 ^ m) (fun i => x (bitrev m i + 2 * 2 ^ m * q)) k := by
    intro k hk
    rw [hζ2]
    have := h (2 * q) (by omega) k hk
    rwa [show 2 ^ m * (2 * q) = 2 * 2 ^ m * q by ring] at this
  have hodd : ∀ k < 2 ^ m, y (k + 2 ^ m + 2 * 2 ^ m * q) =
      dft ((ω ^ 2 ^ (L - m - 1)) ^ 2) (2 ^ m)
        (fun i => x (bitrev m i + 2 ^ m + 2 * 2 ^ m * q)) k := by
    intro k hk
    rw [hζ2]
    have := h (2 * q + 1) (by omega) k hk
    rw [show 2 ^ m * (2 * q + 1) = 2 ^ m + 2 * 2 ^ m * q by ring] at this
    simpa only [add_assoc] using this
  have hst := (stage_spec (fun k => ω ^ (k * 2 ^ (L - m - 1))) (2 ^ (L - m - 1)) y (2 ^ m) le_rfl).2
  have hsplit := fun k => dft_succ hζ (fun i => x (i + 2 * 2 ^ m * q)) (k := k)
  simp only [pow_succ' 2 m] at hsplit hr ⊢
  by_cases hr' : r < 2 ^ m
  · rw [(hst r hr' q hq).1, (hsplit r).1, heven r hr', hodd r hr', hw]
  · obtain ⟨k, rfl⟩ : ∃ k, r = k + 2 ^ m := ⟨r - 2 ^ m, by omega⟩
    have hk : k < 2 ^ m := by omega
    rw [(hst k hk q hq).2, (hsplit k).2, heven k hk, hodd k hk, hw]

end HmBoard.Lib
