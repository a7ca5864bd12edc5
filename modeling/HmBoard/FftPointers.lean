import HmBoard.Fft
import Mathlib.Tactic.Ring

/-!
# The addresses of `fft_memory.c`

`FFT_calculate` carries two pointers and the index into the table from round to round and rewinds
them between columns; none of it depends on what the memory holds. `atColumn` and `atGroup` are
these variables at the start of a round, in the arithmetic of the code, and `fftStage_eq` and
`fftCalculate_eq` say that a run is the butterflies at the addresses they pass through, for any
number of points. Up to 4096 points they have a closed form (`atColumn_eq`, `atGroup_eq`).

| here | there |
| --- | --- |
| `pointAddress`        | `(i*8)+MEM_FFT_BEGIN` (fft_memory.c:379) |
| `decimationPosition`  | `(long) position*DECIMATION_FACTOR` (fft_memory.c:369) |
| `signalAddress`       | `decimation_position*2 + MEM_SIGNAL_BEGIN` (fft_memory.c:372) |
| `firstPointerB`       | `MEM_FFT_BEGIN + n*8` (fft_memory.c:404) |
| `groupBytes`          | `16*n` (fft_memory.c:428) |
| `rewindBytes`         | `(NO_POINTS-1)*8` (fft_memory.c:431) |
| `FftState.group`, `FftState.fetch`, `FftState.rewind` | the assignments to `pointer_A`, `pointer_B`, `Fnk` |
-/

namespace HmBoard

open Lib Fw
open FloatFormat (ofInt add sub mul)

variable {F B P : Type} [Cell B] [FloatFormat F B]

/-! ## The expressions -/

/-- In `unsigned int`. -/
def pointAddress (i : Nat) : Nat := u16 (u16 (i * 8) + memFftBegin)

/-- The bit-reversed index in `int`, times the factor in `long`. -/
def decimationPosition (bitrev : Nat → Nat) (i : Nat) : Nat :=
  toU32 (i32 (i16 (pgmReadDwordFar bitrev i) * decimationFactor))

/-- In `unsigned long`. -/
def signalAddress (bitrev : Nat → Nat) (i : Nat) : Nat :=
  u32 (u32 (decimationPosition bitrev i * 2) + memSignalBegin)

/-- In `unsigned int`. -/
def firstPointerB (n : Nat) : Nat := u16 (memFftBegin + u16 (n * 8))

/-- In `unsigned int`. -/
def groupBytes (n : Nat) : Nat := u16 (16 * n)

/-- In `int`, then converted to the `unsigned long` it is subtracted from. -/
def rewindBytes (N : Nat) : Nat := toU32 (i16 ((N - 1 : Nat) * 8))

/-! ## The loop-carried variables -/

namespace FftState

/-- Before the first column of a stage. -/
def start (n : Nat) : FftState := ⟨memFftBegin, firstPointerB n, 0⟩

/-- After `Fnk++` twice. -/
def fetch (x : FftState) : FftState := { x with fnk := u16 (u16 (x.fnk + 1) + 1) }

/-- After a butterfly. -/
def group (n : Nat) (x : FftState) : FftState :=
  { x with pointerA := u32 (x.pointerA + groupBytes n),
           pointerB := u32 (x.pointerB + groupBytes n) }

/-- After `s` butterflies. -/
def groups (n : Nat) (x : FftState) : Nat → FftState
  | 0 => x
  | s + 1 => (groups n x s).group n

/-- After the butterflies of a column. -/
def rewind (N angf : Nat) (x : FftState) : FftState where
  pointerA := toU32 (x.pointerA - rewindBytes N)
  pointerB := toU32 (x.pointerB - rewindBytes N)
  fnk := u16 (x.fnk + toU16 ((angf - 1) * 2))

/-- A column: table reads, butterflies, rewind. -/
def column (N n angf : Nat) (x : FftState) : FftState := (x.fetch.groups n angf).rewind N angf

end FftState

/-- The variables at the start of round `k` of `for(k=0;k<n;k++)`. -/
def atColumn (N n angf : Nat) : Nat → FftState
  | 0 => .start n
  | k + 1 => (atColumn N n angf k).column N n angf

/-- The variables at the start of round `s` of `for(s=0;s<angf;s++)` in column `k`. -/
def atGroup (N n angf k s : Nat) : FftState := (atColumn N n angf k).fetch.groups n s

/-! ## A run passes through them -/

/-- The accesses of one butterfly at two addresses. -/
def butterflyAt (dsin dcos : F) (pointerA pointerB : Nat) : Fw B P Unit := do
  let a : Complex F ← spiMemReadComplex pointerA
  let b : Complex F ← spiMemReadComplex pointerB
  let c : Complex F :=
    ⟨sub (mul b.real dcos) (mul b.imag dsin), add (mul b.real dsin) (mul b.imag dcos)⟩
  spiMemWriteComplex pointerA (⟨add a.real c.real, add a.imag c.imag⟩ : Complex F)
  spiMemWriteComplex pointerB (⟨sub a.real c.real, sub a.imag c.imag⟩ : Complex F)

theorem fftGroup_eq (n : Nat) (dsin dcos : F) (s : Nat) (x : FftState) :
    (fftGroup n dsin dcos s x : Fw B P FftState) =
      (butterflyAt dsin dcos x.pointerA x.pointerB).bind fun _ => .ret (x.group n) := by
  simp only [fftGroup, butterflyAt, Prog.bind_eq, Prog.pure_eq, Prog.bind_assoc]
  rfl

theorem fftColumn_eq (N : Nat) (sincos : Nat → F) (n angf k : Nat) (x : FftState) :
    (fftColumn N sincos n angf k x : Fw B P FftState) =
      (Prog.forTo angf fun s => butterflyAt (sincos x.fnk) (sincos (u16 (x.fnk + 1)))
        (x.fetch.groups n s).pointerA (x.fetch.groups n s).pointerB).bind
          fun _ => .ret (x.column N n angf) := by
  have hloop := Prog.loop_eq_forTo (x.fetch.groups n)
    (fun s => fftGroup_eq (B := B) (P := P) n (sincos x.fnk) (sincos (u16 (x.fnk + 1))) s
      (x.fetch.groups n s)) angf
  have hfetch : { x with fnk := u16 (u16 (x.fnk + 1) + 1) } = x.fetch.groups n 0 := rfl
  simp only [fftColumn, Prog.bind_eq, Prog.pure_eq, hfetch, hloop, Prog.bind_assoc, Prog.ret_bind]
  rfl

/-- **A stage.** Its butterflies are at the addresses the variables pass through. -/
theorem fftStage_eq (N : Nat) (sincos : Nat → F) (n angf : Nat) :
    (fftStage N sincos n angf : Fw B P Unit) = Prog.forTo n fun k => Prog.forTo angf fun s =>
      butterflyAt (sincos (atColumn N n angf k).fnk) (sincos (u16 ((atColumn N n angf k).fnk + 1)))
        (atGroup N n angf k s).pointerA (atGroup N n angf k s).pointerB := by
  have hloop := Prog.loop_eq_forTo (atColumn N n angf)
    (fun k => fftColumn_eq (B := B) (P := P) N sincos n angf k (atColumn N n angf k)) n
  have hstart : FftState.mk memFftBegin (u16 (memFftBegin + u16 (n * 8))) 0 =
      atColumn N n angf 0 := rfl
  simp only [fftStage, Prog.bind_eq, Prog.pure_eq, hstart, hloop, Prog.bind_assoc, Prog.ret_bind]
  exact Prog.bind_ret _

/-- From stage `j` on, with `d` stages to go. -/
theorem fftLoop_eq {L : Nat} (hL : L ≤ 15) (sincos : Nat → F) : ∀ (d j fuel : Nat),
    j + d = L → d ≤ fuel →
      (fftLoop (2 ^ L) sincos fuel (2 ^ j) (2 ^ L / 2 ^ (j + 1)) : Fw B P Unit) =
        Prog.forTo d fun i =>
          fftStage (2 ^ L) sincos (2 ^ (j + i)) (2 ^ L / 2 ^ (j + i + 1))
  | 0, j, fuel, hj, _ => by
    obtain rfl : j = L := by omega
    rw [Prog.forTo_zero]
    cases fuel with
    | zero => rfl
    | succ fuel => rw [fftLoop, if_neg (Nat.lt_irrefl _)]; rfl
  | d + 1, j, fuel + 1, hj, hd => by
    have hlt : 2 ^ j < 2 ^ L := Nat.pow_lt_pow_right (by decide) (by omega)
    have hmax : 2 ^ L ≤ 2 ^ 15 := Nat.pow_le_pow_right (by decide) hL
    have hshl : u16 (2 ^ j <<< 1) = 2 ^ (j + 1) := by
      rw [Nat.shiftLeft_eq, pow_one, ← pow_succ, u16_of_lt (by rw [pow_succ]; omega)]
    have hshr : (2 ^ L / 2 ^ (j + 1)) >>> 1 = 2 ^ L / 2 ^ (j + 1 + 1) := by
      rw [Nat.shiftRight_eq_div_pow, Nat.div_div_eq_div_mul, pow_one, ← pow_succ]
    rw [fftLoop, if_pos hlt, hshl, hshr, Prog.bind_eq, Prog.forTo_succ',
      fftLoop_eq hL sincos d (j + 1) fuel (by omega) (by omega)]
    simp only [Nat.add_zero, Nat.add_right_comm j 1, ← Nat.add_assoc]

/-- **`FFT_calculate`** is its stages; sixteen rounds of its loop are enough. -/
theorem fftCalculate_eq {L : Nat} (hL : L ≤ 15) (sincos : Nat → F) :
    (fftCalculate (2 ^ L) sincos : Fw B P Unit) =
      Prog.forTo L fun j => fftStage (2 ^ L) sincos (2 ^ j) (2 ^ L / 2 ^ (j + 1)) := by
  have h := fftLoop_eq (B := B) (P := P) hL sincos L 0 16 (by omega) (by omega)
  simpa only [fftCalculate, Nat.zero_add, pow_zero, pow_one] using h

/-- One round of `decimate_and_store` for the offset word `w`. -/
def decimateAt (bitrev : Nat → Nat) (w i : Nat) : Fw B P Unit := do
  let real : F ←
    if decimationPosition bitrev i < memSignalLength then do
      let v ← spiMemReadWord (signalAddress bitrev i)
      pure (ofInt (i16 (v - i16 w)))
    else pure (ofInt 0)
  spiMemWriteComplex (pointAddress i) (⟨real, ofInt 0⟩ : Complex F)

theorem decimateAndStore_eq (N : Nat) (bitrev : Nat → Nat) :
    (decimateAndStore (F := F) N bitrev : Fw B P Unit) =
      (spiMemReadWord memSignalOffset).bind fun w =>
        Prog.forTo N (decimateAt (F := F) bitrev w) := rfl

/-! ## What the two functions are composed of -/

variable {C : (α : Type) → Fw B P α → Prop}

theorem compositional_butterflyAt (hC : Prog.Compositional C) {a b : Nat}
    (hread : ∀ a, C _ (spiMemReadComplex a : Fw B P (Complex F)))
    (ha : ∀ z : Complex F, C _ (spiMemWriteComplex a z))
    (hb : ∀ z : Complex F, C _ (spiMemWriteComplex b z)) (dsin dcos : F) :
    C _ (butterflyAt dsin dcos a b) :=
  hC.bind (hread a) fun _ => hC.bind (hread b) fun _ => hC.bind (ha _) fun _ => hb _

theorem compositional_fftLoop (hC : Prog.Compositional C)
    (hread : ∀ a, C _ (spiMemReadComplex a : Fw B P (Complex F)))
    (hwrite : ∀ a (z : Complex F), C _ (spiMemWriteComplex a z)) (N : Nat) (sincos : Nat → F) :
    ∀ fuel n angf, C _ (fftLoop N sincos fuel n angf)
  | 0, _, _ => hC.ret ()
  | fuel + 1, n, angf => by
    rw [fftLoop]
    by_cases h : n < N
    · rw [if_pos h, fftStage_eq]
      refine hC.bind (hC.forTo fun k _ => hC.forTo fun s _ => ?_) fun _ =>
        compositional_fftLoop hC hread hwrite N sincos fuel _ _
      exact compositional_butterflyAt hC hread (hwrite _) (hwrite _) _ _
    · rw [if_neg h]
      exact hC.ret ()

/-- `FFT_calculate` reads and writes points and does nothing else, for any number of points. -/
theorem compositional_fftCalculate (hC : Prog.Compositional C)
    (hread : ∀ a, C _ (spiMemReadComplex a : Fw B P (Complex F)))
    (hwrite : ∀ a (z : Complex F), C _ (spiMemWriteComplex a z)) (N : Nat) (sincos : Nat → F) :
    C _ (fftCalculate N sincos) :=
  compositional_fftLoop hC hread hwrite N sincos 16 1 (N / 2)

theorem compositional_decimateAt (hC : Prog.Compositional C) {i : Nat}
    (hread : ∀ a, C _ (spiMemReadWord a))
    (hwrite : ∀ z : Complex F, C _ (spiMemWriteComplex (pointAddress i) z)) (bitrev : Nat → Nat)
    (w : Nat) : C _ (decimateAt (F := F) bitrev w i) := by
  unfold decimateAt
  by_cases h : decimationPosition bitrev i < memSignalLength
  · simp only [h, if_true, Prog.bind_eq, Prog.pure_eq, Prog.ret_bind]
    exact hC.bind (hread _) fun v => hwrite _
  · simp only [h, if_false, Prog.pure_eq, Prog.bind_eq, Prog.ret_bind]
    exact hwrite _

/-- `decimate_and_store` reads words and writes points. -/
theorem compositional_decimateAndStore (hC : Prog.Compositional C)
    (hread : ∀ a, C _ (spiMemReadWord a))
    (hwrite : ∀ a (z : Complex F), C _ (spiMemWriteComplex a z)) (N : Nat) (bitrev : Nat → Nat) :
    C _ (decimateAndStore (F := F) N bitrev) := by
  rw [decimateAndStore_eq]
  refine hC.bind (hread _) fun w => hC.forTo fun i _ => ?_
  exact compositional_decimateAt hC hread (hwrite _) bitrev w

/-! ## Where the arithmetic is exact -/

theorem pointAddress_eq_iff {i : Nat} (hi : i < 8192) :
    pointAddress i = i * 8 + memFftBegin ↔ i < 7424 := by
  unfold pointAddress memFftBegin u16; omega

theorem firstPointerB_of_le {n : Nat} (hn : n ≤ 4096) : firstPointerB n = memFftBegin + n * 8 := by
  unfold firstPointerB memFftBegin u16; omega

theorem groupBytes_of_lt {n : Nat} (hn : n < 4096) : groupBytes n = 16 * n :=
  u16_of_lt (by omega)

theorem rewindBytes_of_le {N : Nat} (hN : N ≤ 4096) : rewindBytes N = (N - 1) * 8 := by
  unfold rewindBytes toU32 i16; omega

theorem decimationPosition_of_lt {bitrev : Nat → Nat} {i : Nat} (h : bitrev i < 32768) :
    decimationPosition bitrev i = bitrev i * decimationFactor := by
  have hpos : i16 (pgmReadDwordFar bitrev i) = bitrev i := by
    unfold pgmReadDwordFar i16; omega
  rw [decimationPosition, hpos]
  unfold decimationFactor toU32 i32; omega

theorem signalAddress_of_lt {bitrev : Nat → Nat} {i : Nat} (h : bitrev i < 32768) :
    signalAddress bitrev i = bitrev i * decimationFactor * 2 + memSignalBegin := by
  rw [signalAddress, decimationPosition_of_lt h]
  unfold decimationFactor memSignalBegin u32; omega

theorem FftState.groups_eq {n : Nat} (hn : n < 4096) (x : FftState) : ∀ s,
    x.pointerA + 16 * n * s < 4294967296 → x.pointerB + 16 * n * s < 4294967296 →
      x.groups n s = ⟨x.pointerA + 16 * n * s, x.pointerB + 16 * n * s, x.fnk⟩
  | 0, _, _ => rfl
  | s + 1, ha, hb => by
    rw [Nat.mul_succ] at ha hb
    rw [groups, groups_eq hn x s (by omega) (by omega), group, groupBytes_of_lt hn, Nat.mul_succ,
      FftState.mk.injEq]
    dsimp only
    exact ⟨(u32_of_lt (by omega)).trans (Nat.add_assoc _ _ _),
      (u32_of_lt (by omega)).trans (Nat.add_assoc _ _ _), rfl⟩

/-- A stage of up to 4096 points: `n` columns of `angf` groups of two points. -/
structure IsStage (N n angf : Nat) : Prop where
  points : 2 * n * angf = N
  size : N ≤ 4096
  groups : 0 < angf

namespace IsStage

variable {N n angf : Nat}

/-- Stage `j` of `2 ^ L` points. -/
theorem pow {L j : Nat} (hL : L ≤ 12) (hj : j < L) :
    IsStage (2 ^ L) (2 ^ j) (2 ^ L / 2 ^ (j + 1)) := by
  have hdiv : 2 ^ L / 2 ^ (j + 1) = 2 ^ (L - (j + 1)) := Nat.pow_div (by omega) (by decide)
  refine ⟨?_, Nat.pow_le_pow_right (n := 2) (by decide) hL, ?_⟩
  · rw [hdiv, ← pow_succ', ← pow_add, Nat.add_sub_cancel' (by omega)]
  · rw [hdiv]; exact Nat.two_pow_pos _

theorem half_le (h : IsStage N n angf) : 2 * n ≤ N :=
  h.points ▸ Nat.le_mul_of_pos_right (2 * n) h.groups

/-- The bytes of one column. -/
theorem column_bytes (h : IsStage N n angf) : 16 * n * angf = 8 * N := by
  rw [← h.points]; ring

theorem group_bytes (h : IsStage N n angf) {s : Nat} (hs : s < angf) :
    16 * n * s + 16 * n ≤ 8 * N := by
  rw [← h.column_bytes, ← Nat.mul_succ]
  exact Nat.mul_le_mul_left _ hs

theorem table_le (h : IsStage N n angf) {k : Nat} (hk : k ≤ n) : 2 * k * angf ≤ N := by
  rw [← h.points]
  exact Nat.mul_le_mul_right _ (by omega)

/-- Round `k` of the outer loop: slot `k`, slot `k + n`, pair `k * angf` of the table. -/
theorem atColumn_eq (h : IsStage N n angf) : ∀ k ≤ n,
    atColumn N n angf k = ⟨memFftBegin + 8 * k, memFftBegin + 8 * (k + n), 2 * k * angf⟩
  | 0, _ => by
    have hn := h.half_le
    have hN := h.size
    rw [atColumn, FftState.start, firstPointerB_of_le (by omega)]
    simp only [Nat.mul_zero, Nat.zero_mul, Nat.zero_add, Nat.add_zero, Nat.mul_comm n 8]
  | k + 1, hk => by
    have hn := h.half_le
    have hN := h.size
    have hangf := h.groups
    have hbytes := h.column_bytes
    have htab : 2 * (k + 1) * angf ≤ N := h.table_le hk
    have hfnk : 2 * (k + 1) * angf = 2 * k * angf + 2 * angf := by ring
    have hbase : memFftBegin = 6144 := rfl
    rw [atColumn, h.atColumn_eq k (by omega), FftState.column, FftState.fetch,
      FftState.groups_eq (by omega) _ _ (by dsimp only; omega) (by dsimp only; omega),
      FftState.rewind, rewindBytes_of_le hN, FftState.mk.injEq]
    -- a column moves by all its bytes, the rewind takes back all but eight of them
    dsimp only
    refine ⟨?_, ?_, ?_⟩
    · unfold toU32; omega
    · unfold toU32; omega
    · unfold toU16 u16; omega

/-- Round `s` of the inner loop is `16 * n` bytes further for each group. -/
theorem atGroup_eq (h : IsStage N n angf) {k s : Nat} (hk : k < n) (hs : s ≤ angf) :
    atGroup N n angf k s = ⟨memFftBegin + 8 * k + 16 * n * s,
      memFftBegin + 8 * k + 16 * n * s + 8 * n, 2 * k * angf + 2⟩ := by
  have hn := h.half_le
  have hN := h.size
  have hangf := h.groups
  have hbytes : 16 * n * s ≤ 8 * N := h.column_bytes ▸ Nat.mul_le_mul_left _ hs
  have htab : 2 * (k + 1) * angf ≤ N := h.table_le hk
  have hfnk : 2 * (k + 1) * angf = 2 * k * angf + 2 * angf := by ring
  have hbase : memFftBegin = 6144 := rfl
  rw [atGroup, h.atColumn_eq k (by omega), FftState.fetch,
    FftState.groups_eq (by omega) _ _ (by dsimp only; omega) (by dsimp only; omega),
    FftState.mk.injEq]
  dsimp only
  refine ⟨rfl, ?_, ?_⟩
  · omega
  · unfold u16; omega

/-- Eight points, `n = 2`: the second butterfly of column 1. -/
example : atGroup 8 2 2 1 1 = ⟨6144 + 8 * 5, 6144 + 8 * 7, 6⟩ := by decide

end IsStage

end HmBoard
