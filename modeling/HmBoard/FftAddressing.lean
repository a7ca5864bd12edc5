import HmBoard.ExactFloat
import HmBoard.FftProofs

/-!
# Which bytes the transform touches

The pointers of a stage visit every slot `memFftBegin + 8 * j` exactly once, one butterfly a pair
(`visited`, `stageAddressing`), the table is read inside its bounds, and no rewind goes below zero.
Hence `decimate_and_store` and `FFT_calculate` store nothing outside the FFT region, at no moment of
a run (`Confined`).
-/

namespace HmBoard

open Lib Fw
open Board (exec)

variable {F B P α : Type} [Cell B] [FloatFormat F B]

/-! ## The addresses of a stage -/

/-- The pairs of pointers a stage visits, in loop order. -/
def visited (N n angf : Nat) : List (Nat × Nat) :=
  (List.range n).flatMap fun k => (List.range angf).map fun s =>
    ((atGroup N n angf k s).pointerA, (atGroup N n angf k s).pointerB)

/-- What holds of the pointers and the table index of a stage. -/
structure StageAddressing (N n angf : Nat) : Prop where
  pointerA : ∀ k < n, ∀ s < angf,
    (atGroup N n angf k s).pointerA = memFftBegin + 8 * k + 16 * n * s
  pointerB : ∀ k < n, ∀ s < angf,
    (atGroup N n angf k s).pointerB = (atGroup N n angf k s).pointerA + 8 * n
  once : ((visited N n angf).flatMap fun p => [p.1, p.2]).Perm ((List.range N).map slot)
  /-- Before a rewind both pointers are at least what it subtracts. -/
  rewind : ∀ k < n, rewindBytes N ≤ (atGroup N n angf k angf).pointerA ∧
    rewindBytes N ≤ (atGroup N n angf k angf).pointerB
  table : ∀ k < n, (atColumn N n angf k).fnk = 2 * k * angf ∧
    u16 ((atColumn N n angf k).fnk + 1) = 2 * k * angf + 1

variable {N n angf : Nat}

theorem visited_slots (h : IsStage N n angf) :
    ((visited N n angf).flatMap fun p => [p.1, p.2]) = (stageCells n angf).map slot := by
  unfold visited stageCells
  rw [List.flatMap_assoc, List.map_flatMap]
  refine List.flatMap_congr fun k hk => ?_
  rw [List.flatMap_map, List.map_flatMap]
  refine List.flatMap_congr fun s hs => ?_
  obtain ⟨ha, hb⟩ := atGroup_slots h (List.mem_range.1 hk) (List.mem_range.1 hs)
  rw [ha, hb]
  rfl

/-- **Every stage.** The pointers carried through the loops are a partition of the slots. -/
theorem stageAddressing (h : IsStage N n angf) : StageAddressing N n angf where
  pointerA k hk s hs := by rw [h.atGroup_eq hk hs.le]
  pointerB k hk s hs := by rw [h.atGroup_eq hk hs.le]
  once := by
    rw [visited_slots h, ← h.points]
    exact (stageCells_perm n angf).map slot
  rewind k hk := by
    have hbytes := h.column_bytes
    rw [h.atGroup_eq hk le_rfl, rewindBytes_of_le h.size]
    constructor <;> dsimp only <;> omega
  table k hk := by
    have hN := h.size
    have htab := h.table_le hk.le
    rw [h.atColumn_eq k hk.le]
    exact ⟨rfl, u16_of_lt (by dsimp only; omega)⟩

/-- Stage `j` as the firmware is built. -/
theorem isStage_noPoints {j : Nat} (hj : j < 9) :
    IsStage noPoints (2 ^ j) (noPoints / 2 ^ (j + 1)) := by
  have h := IsStage.pow (L := 9) (by decide) hj
  rwa [show 2 ^ 9 = noPoints from rfl] at h

theorem fftCalculate_stages (sincos : Nat → F) :
    (fftCalculate noPoints sincos : Fw B P Unit) =
      Prog.forTo 9 (fun j => fftStage noPoints sincos (2 ^ j) (noPoints / 2 ^ (j + 1))) := by
  have e := fftCalculate_eq (B := B) (P := P) (L := 9) (by decide) sincos
  rwa [show 2 ^ 9 = noPoints from rfl] at e

theorem length_sincosTable : sincosTable.length = 514 := by decide +kernel

/-- The table read at column `k` is inside the table. -/
theorem table_lt (h : IsStage noPoints n angf) {k : Nat} (hk : k < n) :
    2 * k * angf + 1 < sincosTable.length := by
  have htab : 2 * k * angf ≤ noPoints := h.table_le hk.le
  rw [length_sincosTable]
  unfold noPoints at htab
  omega

/-! ## Only the region is stored to -/

/-- The cells of the FFT region. -/
def InFftRegion (x : Nat) : Prop := memFftBegin ≤ x ∧ x < memFftBegin + 8 * noPoints

/-- Two memories that differ at most in the FFT region. -/
def SameOutsideFft (m m' : Mem B) : Prop := Mem.SameOutside memFftBegin (8 * noPoints) m m'

/-- Run on an idle chip, `p` changes no cell outside the FFT region: not at any moment of the run,
and not in the end. -/
def Confined (p : Fw B P α) : Prop :=
  ∀ b : Board B P, b.chip.phase = .idle →
    Prog.Always exec (fun b' => SameOutsideFft b.chip.mem b'.chip.mem) p b ∧
      SameOutsideFft b.chip.mem (Prog.run exec p b).1.chip.mem

theorem Touches.confined {p : Fw B P α} (h : Touches InFftRegion p) : Confined p := by
  intro b hb
  have hall : Prog.Always exec (fun b' => SameOutsideFft b.chip.mem b'.chip.mem) p b :=
    (h b hb).1.mono fun b' hk x hx => hk.2 x (by unfold InFftRegion; omega)
  exact ⟨hall, hall.last⟩

theorem touches_storeSlot {j : Nat} (hj : j < noPoints) (z : Complex F) :
    Touches InFftRegion (spiMemWriteComplex (slot j) z : Fw B P Unit) := by
  unfold noPoints at hj
  refine (touches_spiMemWriteComplex (slot j) z).mono fun x hx => ?_
  unfold Cells at hx
  rw [slot_mod (by omega)] at hx
  unfold InFftRegion noPoints
  unfold slot at hx
  omega

theorem touches_fftStage (h : IsStage noPoints n angf) (sincos : Nat → F) :
    Touches InFftRegion (fftStage noPoints sincos n angf : Fw B P Unit) := by
  rw [fftStage_eq]
  refine Touches.compositional.forTo fun k hk => Touches.compositional.forTo fun s hs => ?_
  have hlt := slots_lt h hk hs
  obtain ⟨ha, hb⟩ := atGroup_slots h hk hs
  rw [ha, hb]
  exact compositional_butterflyAt Touches.compositional touches_spiMemReadComplex
    (touches_storeSlot (by omega)) (touches_storeSlot hlt) _ _

theorem confined_fftCalculate (sincos : Nat → F) :
    Confined (fftCalculate noPoints sincos : Fw B P Unit) := by
  rw [fftCalculate_stages]
  refine Touches.confined <| Touches.compositional.forTo fun j hj => ?_
  exact touches_fftStage (isStage_noPoints hj) sincos

theorem confined_decimateAndStore (bitrev : Nat → Nat) :
    Confined (decimateAndStore (F := F) noPoints bitrev : Fw B P Unit) := by
  rw [decimateAndStore_eq]
  refine Touches.confined <| (touches_spiMemReadWord _).bind fun w =>
    Touches.compositional.forTo fun i hi => ?_
  have hlt : i < 512 := hi
  refine compositional_decimateAt Touches.compositional touches_spiMemReadWord (fun z => ?_) bitrev w
  rw [pointAddress_slot (by omega)]
  exact touches_storeSlot hi z

/-- **The addressing of the transform.** `FFT_calculate` is nine stages with `n = 1, 2, …, 256`;
in each, the pointers it passes through are a partition of the slots and the table is read inside
its bounds; neither it nor `decimate_and_store` changes a byte outside the FFT region. -/
theorem fft_addressing (sincos : Nat → F) (bitrev : Nat → Nat) :
    (fftCalculate noPoints sincos : Fw B P Unit) =
      Prog.forTo 9 (fun j => fftStage noPoints sincos (2 ^ j) (noPoints / 2 ^ (j + 1))) ∧
    (∀ n angf, (∃ j < 9, n = 2 ^ j ∧ angf = noPoints / 2 ^ (j + 1)) →
      (fftStage noPoints sincos n angf : Fw B P Unit) =
        Prog.forTo n (fun k => Prog.forTo angf fun s => butterflyAt
          (sincos (atColumn noPoints n angf k).fnk)
          (sincos (u16 ((atColumn noPoints n angf k).fnk + 1)))
          (atGroup noPoints n angf k s).pointerA (atGroup noPoints n angf k s).pointerB) ∧
      StageAddressing noPoints n angf ∧
      ∀ k < n, 2 * k * angf + 1 < sincosTable.length) ∧
    Confined (decimateAndStore (F := F) noPoints bitrev : Fw B P Unit) ∧
    Confined (fftCalculate noPoints sincos : Fw B P Unit) := by
  refine ⟨fftCalculate_stages sincos, ?_, confined_decimateAndStore bitrev,
    confined_fftCalculate sincos⟩
  rintro n angf ⟨j, hj, rfl, rfl⟩
  have h := isStage_noPoints hj
  exact ⟨fftStage_eq _ _ _ _, stageAddressing h, fun k hk => table_lt h hk⟩

/-- The stage with `n = 8`, and a transform with exact tables. -/
theorem fft_addressing_eight :
    StageAddressing noPoints 8 32 ∧
      Confined (fftCalculate noPoints exactSincos : Fw ExactCell Unit Unit) := by
  obtain ⟨-, hstages, -, hfft⟩ :=
    fft_addressing (B := ExactCell) (P := Unit) exactSincos (bitrevTable.getD · 0)
  exact ⟨(hstages 8 32 ⟨3, by decide, by decide, by decide⟩).2.1, hfft⟩

end HmBoard
