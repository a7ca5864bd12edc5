import HmBoard.FftPointers
import HmBoard.Lib.Dft

/-!
# How many points the index arithmetic can address

`config.h` asks for a power of two as `NO_POINTS` and lays out the memory map for up to 8192 points
(config.h:68). `ExactIndices N` says that no address and no index of `decimate_and_store` and
`FFT_calculate` wraps at `N` points. It holds up to 4096 points and fails at 8192
(`exactIndices_iff`): `(i*8)+MEM_FFT_BEGIN` and `16*n` are computed in 16-bit `unsigned int`,
`(NO_POINTS-1)*8` in 16-bit `int`, where `(long) position*DECIMATION_FACTOR` has a cast.
-/

namespace HmBoard

open Lib

/-! ## Exact indices -/

/-- The expressions of a stage have their mathematical values. -/
structure ExactStage (N n angf : Nat) : Prop where
  firstPointerB : firstPointerB n = memFftBegin + n * 8
  groupBytes : groupBytes n = 16 * n
  fnk : ∀ k < n, (atColumn N n angf k).fnk = 2 * k * angf ∧
    u16 ((atColumn N n angf k).fnk + 1) = 2 * k * angf + 1 ∧
    (atColumn N n angf k).fetch.fnk = 2 * k * angf + 2
  /-- `(angf-1)*2`, in `unsigned int`. -/
  skip : toU16 ((angf - 1) * 2) = (angf - 1) * 2
  pointers : ∀ k < n, ∀ s < angf,
    (atGroup N n angf k s).pointerA = memFftBegin + 8 * k + 16 * n * s ∧
    (atGroup N n angf k s).pointerB = memFftBegin + 8 * k + 16 * n * s + 8 * n

/-- No address and no index of the transform of `N` points wraps. -/
structure ExactIndices (N : Nat) (bitrev : Nat → Nat) : Prop where
  point : ∀ i < N, pointAddress i = i * 8 + memFftBegin
  position : ∀ i < N, decimationPosition bitrev i = bitrev i * decimationFactor
  signal : ∀ i < N, signalAddress bitrev i = decimationPosition bitrev i * 2 + memSignalBegin
  /-- The words read from the signal. -/
  below : ∀ i < N, decimationPosition bitrev i < memSignalLength →
    signalAddress bitrev i + 2 ≤ memSignalBegin + 2 * memSignalLength
  rewind : rewindBytes N = (N - 1) * 8
  stage : ∀ j, 2 ^ j < N → ExactStage N (2 ^ j) (N / (2 * 2 ^ j))

variable {N n angf : Nat}

theorem exactStage (hn : 0 < n) (h : IsStage N n angf) : ExactStage N n angf where
  firstPointerB := by
    have hle := h.half_le
    have hN := h.size
    exact firstPointerB_of_le (by omega)
  groupBytes := by
    have hle := h.half_le
    have hN := h.size
    exact groupBytes_of_lt (by omega)
  fnk k hk := by
    have hN := h.size
    have htab : 2 * k * angf ≤ N := h.table_le hk.le
    rw [h.atColumn_eq k hk.le, FftState.fetch]
    dsimp only
    have h1 : u16 (2 * k * angf + 1) = 2 * k * angf + 1 := u16_of_lt (by omega)
    rw [h1]
    exact ⟨rfl, rfl, u16_of_lt (by omega)⟩
  skip := by
    have hN := h.size
    have hpos := h.groups
    have hangf : angf ≤ N := h.points ▸ Nat.le_mul_of_pos_left angf (by omega)
    unfold toU16
    omega
  pointers k hk s hs := by
    rw [h.atGroup_eq hk hs.le]
    exact ⟨rfl, rfl⟩

/-! ## The sizes -/

/-- A regenerated table stays in the range of `int`. -/
theorem regenerated_lt {L : Nat} {table : Nat → Nat} (hmax : 2 ^ L ≤ 8192)
    (htable : ∀ i < 2 ^ L, table i = bitrev L i) {i : Nat} (hi : i < 2 ^ L) : table i < 32768 := by
  have hlt := bitrev_lt L i
  rw [htable i hi]
  omega

/-- The signal is addressed exactly at every size. -/
theorem signalAddress_exact {bitrev : Nat → Nat} {i : Nat} (h : bitrev i < 32768) :
    signalAddress bitrev i = decimationPosition bitrev i * 2 + memSignalBegin := by
  rw [signalAddress_of_lt h, decimationPosition_of_lt h]

theorem signalAddress_below {bitrev : Nat → Nat} {i : Nat} (h : bitrev i < 32768)
    (hlt : decimationPosition bitrev i < memSignalLength) :
    signalAddress bitrev i + 2 ≤ memSignalBegin + 2 * memSignalLength := by
  rw [decimationPosition_of_lt h] at hlt
  rw [signalAddress_of_lt h]
  unfold memSignalBegin memSignalLength decimationFactor at *
  omega

/-- **The sizes that work.** With the tables regenerated for a power of two up to 8192, no index
of the transform wraps if and only if there are at most 4096 points. -/
theorem exactIndices_iff {L : Nat} {table : Nat → Nat} (hmax : 2 ^ L ≤ 8192)
    (htable : ∀ i < 2 ^ L, table i = bitrev L i) :
    ExactIndices (2 ^ L) table ↔ 2 ^ L ≤ 4096 := by
  have hreg : ∀ i < 2 ^ L, table i < 32768 := fun i hi => regenerated_lt hmax htable hi
  constructor
  · intro h
    by_contra hbig
    -- more than 4096 means 8192, and point 7424 is there
    have hL : 12 < L := (Nat.pow_lt_pow_iff_right (a := 2) (by decide)).1 (by omega)
    have hsize : 2 ^ 13 ≤ 2 ^ L := Nat.pow_le_pow_right (by decide) hL
    have hpoint := (pointAddress_eq_iff (i := 7424) (by decide)).1 (h.point 7424 (by omega))
    exact absurd hpoint (by decide)
  · intro hN
    have hL : L ≤ 12 := (Nat.pow_le_pow_iff_right (a := 2) (by decide)).1 hN
    refine ⟨fun i hi => (pointAddress_eq_iff (by omega)).2 (by omega),
      fun i hi => decimationPosition_of_lt (hreg i hi), fun i hi => signalAddress_exact (hreg i hi),
      fun i hi => signalAddress_below (hreg i hi), rewindBytes_of_le hN, fun j hj => ?_⟩
    have hjL : j < L := (Nat.pow_lt_pow_iff_right (a := 2) (by decide)).1 hj
    rw [← pow_succ']
    exact exactStage (Nat.two_pow_pos j) (.pow hL hjL)

/-- The largest size that works. -/
theorem exactIndices_4096 : ExactIndices 4096 (bitrev 12) :=
  (exactIndices_iff (L := 12) (by decide) fun _ _ => rfl).2 (by decide)

/-- At 8192 points, which the memory map has room for up to the stored offset, point 7424 is stored
at the start of the signal, the last stage does not move its pointers, and the rewind is eight bytes
forward. -/
theorem indices_wrap_8192 :
    memFftBegin + 8 * 8192 = memSignalOffset ∧ pointAddress 7424 = memSignalBegin ∧
      groupBytes 4096 = 0 ∧ rewindBytes 8192 = 4294967296 - 8 ∧
      ¬ ∀ L, 2 ≤ 2 ^ L → 2 ^ L ≤ 8192 → ∀ table : Nat → Nat,
        (∀ i < 2 ^ L, table i = bitrev L i) → ExactIndices (2 ^ L) table := by
  refine ⟨rfl, rfl, rfl, rfl, fun h => ?_⟩
  have hpoint := (h 13 (by decide) (by decide) (bitrev 13) fun _ _ => rfl).point 7424 (by decide)
  exact absurd hpoint (by decide)

end HmBoard
