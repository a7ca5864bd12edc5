import HmBoard.FftPointers
import HmBoard.SpiMemoryProofs
import HmBoard.Lib.Dft

/-!
# `FFT_calculate` and `decimate_and_store` on the FFT region

The addresses `FFT_calculate` passes through are the slots `memFftBegin + 8 * j` of a textbook
transform: `butterflyMem`, `columnMem`, `stageMem` and `fftMem` are the loops over slot numbers, and
`computes_fftCalculate` says that the code computes them for every power of two up to 4096 points.
-/

namespace HmBoard

open Lib Fw
open FloatFormat (ofInt add sub mul)

variable {F B P : Type} [Cell B] [FloatFormat F B]

/-! ## The transform over slot numbers -/

/-- Address of point `j`. -/
def slot (j : Nat) : Nat := memFftBegin + 8 * j

def loadPoint (m : Mem B) (j : Nat) : Complex F := Complex.dec (m.read (slot j) 8)

def storePoint (m : Mem B) (j : Nat) (z : Complex F) : Mem B := m.write (slot j) z.enc

def butterflyMem (dsin dcos : F) (a b : Nat) (m : Mem B) : Mem B :=
  let za : Complex F := loadPoint m a
  let zb : Complex F := loadPoint m b
  let zc : Complex F :=
    ⟨sub (mul zb.real dcos) (mul zb.imag dsin), add (mul zb.real dsin) (mul zb.imag dcos)⟩
  storePoint (storePoint m a (⟨add za.real zc.real, add za.imag zc.imag⟩ : Complex F)) b
    (⟨sub za.real zc.real, sub za.imag zc.imag⟩ : Complex F)

/-- The groups of twiddle factor `k` in a stage of half-blocks of `n`. -/
def columnMem (sincos : Nat → F) (n angf k : Nat) (m : Mem B) : Mem B :=
  Prog.sweep (fun s => butterflyMem (sincos (2 * k * angf)) (sincos (2 * k * angf + 1))
    (k + 2 * n * s) (k + n + 2 * n * s)) m angf

def stageMem (sincos : Nat → F) (n angf : Nat) (m : Mem B) : Mem B :=
  Prog.sweep (columnMem sincos n angf) m n

/-- All stages of `2 ^ L` points. -/
def fftMem (sincos : Nat → F) (L : Nat) (m : Mem B) : Mem B :=
  Prog.sweep (fun j => stageMem sincos (2 ^ j) (2 ^ L / 2 ^ (j + 1))) m L

/-! ## The code computes it -/

theorem slot_mod {j : Nat} (h : j < 1000000) : slot j % 16777216 = slot j := by
  unfold slot memFftBegin; omega

theorem computes_loadPoint {a : Nat} (ha : a < 1000000) :
    Computes (spiMemReadComplex (slot a) : Fw B P (Complex F)) fun m => (m, loadPoint m a) := by
  have h := computes_spiMemReadComplex (F := F) (B := B) (P := P) (slot a)
  rwa [slot_mod ha] at h

theorem computes_storePoint {a : Nat} (ha : a < 1000000) (z : Complex F) :
    Computes (spiMemWriteComplex (slot a) z : Fw B P Unit) fun m => (storePoint m a z, ()) := by
  have h := computes_spiMemWriteComplex (B := B) (P := P) (slot a) z
  rwa [slot_mod ha] at h

theorem computes_butterflyAt {a b : Nat} (ha : a < 8192) (hb : b < 8192) (dsin dcos : F) :
    Computes (butterflyAt dsin dcos (slot a) (slot b) : Fw B P Unit) fun m =>
      (butterflyMem dsin dcos a b m, ()) := by
  have hla := computes_loadPoint (F := F) (B := B) (P := P) (a := a) (by omega)
  have hlb := computes_loadPoint (F := F) (B := B) (P := P) (a := b) (by omega)
  have hsa := computes_storePoint (F := F) (B := B) (P := P) (a := a) (by omega)
  have hsb := computes_storePoint (F := F) (B := B) (P := P) (a := b) (by omega)
  simp only [butterflyAt, Prog.bind_eq]
  exact hla.bind fun _ => hlb.bind fun _ => (hsa _).bind fun _ => hsb _

/-- The butterfly of round `s` in column `k` is at the slots `k + 2 * n * s` and `n` further. -/
theorem atGroup_slots {N n angf : Nat} (h : IsStage N n angf) {k s : Nat} (hk : k < n)
    (hs : s < angf) :
    (atGroup N n angf k s).pointerA = slot (k + 2 * n * s) ∧
      (atGroup N n angf k s).pointerB = slot (k + n + 2 * n * s) := by
  have e : 16 * n * s = 8 * (2 * n * s) := by ring
  rw [h.atGroup_eq hk hs.le]
  unfold slot
  constructor <;> dsimp only <;> omega

theorem slots_lt {N n angf : Nat} (h : IsStage N n angf) {k s : Nat} (hk : k < n)
    (hs : s < angf) : k + n + 2 * n * s < N := by
  have e : 16 * n * s = 8 * (2 * n * s) := by ring
  have hb := h.group_bytes hs
  omega

theorem computes_fftStage {N n angf : Nat} (h : IsStage N n angf) (sincos : Nat → F) :
    Computes (fftStage N sincos n angf : Fw B P Unit) fun m => (stageMem sincos n angf m, ()) := by
  rw [fftStage_eq]
  refine Computes.forTo fun k hk => Computes.forTo fun s hs => ?_
  have hN := h.size
  have hlt := slots_lt h hk hs
  have htab := h.table_le (k := k) (by omega)
  obtain ⟨ha, hb⟩ := atGroup_slots h hk hs
  rw [ha, hb, h.atColumn_eq k (by omega)]
  dsimp only
  rw [u16_of_lt (x := 2 * k * angf + 1) (by omega)]
  exact computes_butterflyAt (by omega) (by omega) _ _

/-- **`FFT_calculate`** over `2 ^ L` points. -/
theorem computes_fftCalculate {L : Nat} (hL : L ≤ 12) (sincos : Nat → F) :
    Computes (fftCalculate (2 ^ L) sincos : Fw B P Unit) fun m => (fftMem sincos L m, ()) := by
  rw [fftCalculate_eq (by omega)]
  exact Computes.forTo fun j hj => computes_fftStage (.pow hL hj) sincos

/-! ## Decimation -/

/-- The table in the source is the reversal of nine bits. -/
theorem bitrevTable_eq {i : Nat} (hi : i < 512) : bitrevTable.getD i 0 = bitrev 9 i := by
  have h : bitrevTable = (List.range 512).map (bitrev 9) := by decide +kernel
  rw [h, List.getD_eq_getElem _ _ (by simpa using hi), List.getElem_map, List.getElem_range]

theorem bitrevTable_lt {i : Nat} (hi : i < noPoints) : bitrevTable.getD i 0 < noPoints :=
  (bitrevTable_eq hi).trans_lt (bitrev_lt 9 i)

/-- Point `i` as `decimate_and_store` takes it from the signal. -/
def decimated (bitrev : Nat → Nat) (offset : Int) (m : Mem B) (i : Nat) : Complex F :=
  ⟨if 2 * bitrev i < memSignalLength then
      ofInt (i16 (loadWord m (memSignalBegin + 2 * (2 * bitrev i)) - offset))
    else ofInt 0, ofInt 0⟩

def decimateMem (N : Nat) (bitrev : Nat → Nat) (m : Mem B) : Mem B :=
  Prog.sweep (fun i m' => storePoint m' i
    (decimated (F := F) bitrev (i16 (loadWord m memSignalOffset)) m' i)) m N

theorem pointAddress_slot {i : Nat} (hi : i < 7424) : pointAddress i = slot i := by
  rw [(pointAddress_eq_iff (by omega)).2 hi, slot]
  omega

/-- **`decimate_and_store`**, for tables of up to 4096 entries. -/
theorem computes_decimateAndStore {N : Nat} {bitrev : Nat → Nat} (hN : N ≤ 4096)
    (hb : ∀ i < N, bitrev i < N) :
    Computes (decimateAndStore (F := F) N bitrev : Fw B P Unit) fun m =>
      (decimateMem (F := F) N bitrev m, ()) := by
  have hoff := computes_spiMemReadWord (B := B) (P := P) memSignalOffset
  rw [decimateAndStore_eq]
  refine (hoff.bind fun w => Computes.forTo (f := fun i m' => storePoint m' i
    (decimated (F := F) bitrev (i16 w) m' i)) fun i hi => ?_)
  have hbi := hb i hi
  have hpos : decimationPosition bitrev i = 2 * bitrev i := by
    rw [decimationPosition_of_lt (by omega), decimationFactor, Nat.mul_comm]
  have haddr : signalAddress bitrev i = memSignalBegin + 2 * (2 * bitrev i) := by
    rw [signalAddress_of_lt (by omega), decimationFactor]; omega
  have hslot : pointAddress i = slot i := pointAddress_slot (by omega)
  simp only [decimateAt, hpos, haddr, hslot, Prog.bind_eq]
  have hstore := computes_storePoint (F := F) (B := B) (P := P) (a := i) (by omega)
  by_cases hlt : 2 * bitrev i < memSignalLength
  · have hw := computes_spiMemReadWord (B := B) (P := P) (memSignalBegin + 2 * (2 * bitrev i))
    rw [Nat.mod_eq_of_lt (by unfold memSignalBegin; omega)] at hw
    simp only [hlt, if_true, decimated, Prog.pure_eq, Prog.ret_bind]
    exact hw.bind fun w => hstore _
  · simp only [hlt, if_false, decimated, Prog.pure_eq, Prog.ret_bind]
    exact hstore _

/-! ## Points, words and stores -/

theorem loadPoint_storePoint (m : Mem B) (i j : Nat) (z : Complex F) :
    loadPoint (storePoint m i z) j = if j = i then z else loadPoint m j := by
  have hlen : z.enc.length = 8 := Complex.length_enc z
  unfold loadPoint storePoint
  by_cases h : j = i
  · subst h
    have hr := Mem.read_write_self m (slot j) z.enc
    rw [hlen] at hr
    rw [hr, if_pos rfl, Complex.dec_enc]
  · rw [if_neg h, Mem.read_write_disjoint _ (by unfold slot; omega)]

/-- Below the FFT region nothing changes. -/
theorem loadWord_storePoint (m : Mem B) {a : Nat} (h : a + 2 ≤ memFftBegin) (i : Nat)
    (z : Complex F) : loadWord (storePoint m i z) a = loadWord m a := by
  have h0 : (storePoint m i z) a = m a := Mem.write_outside _ (by unfold slot; omega)
  have h1 : (storePoint m i z) (a + 1) = m (a + 1) := Mem.write_outside _ (by unfold slot; omega)
  rw [loadWord, h0, h1, loadWord]

theorem decimated_storePoint (bitrev : Nat → Nat) (offset : Int) (m : Mem B) (i j : Nat)
    (z : Complex F) :
    decimated (F := F) bitrev offset (storePoint m i z) j = decimated bitrev offset m j := by
  unfold decimated
  by_cases h : 2 * bitrev j < memSignalLength
  · rw [loadWord_storePoint _ (by unfold memSignalBegin memFftBegin memSignalLength at *; omega)]
  · simp only [h, if_false]

theorem loadPoint_decimateMem {N : Nat} (bitrev : Nat → Nat) (m : Mem B) {j : Nat} (hj : j < N) :
    loadPoint (decimateMem (F := F) N bitrev m) j =
      decimated (F := F) bitrev (i16 (loadWord m memSignalOffset)) m j := by
  unfold decimateMem
  generalize i16 (loadWord m memSignalOffset) = off
  -- the signal is still the original one, and the points stored so far are final
  have key : ∀ n, (∀ i, decimated (F := F) bitrev off (Prog.sweep (fun i m' => storePoint m' i
      (decimated (F := F) bitrev off m' i)) m n) i = decimated bitrev off m i) ∧
      ∀ i < n, loadPoint (Prog.sweep (fun i m' => storePoint m' i
        (decimated (F := F) bitrev off m' i)) m n) i = decimated (F := F) bitrev off m i := by
    intro n
    induction n with
    | zero => exact ⟨fun _ => rfl, fun i hi => absurd hi (Nat.not_lt_zero i)⟩
    | succ n ih =>
      refine ⟨fun i => ?_, fun i hi => ?_⟩
      · rw [Prog.sweep, decimated_storePoint, ih.1]
      · rw [Prog.sweep, loadPoint_storePoint]
        by_cases h : i = n
        · rw [if_pos h, h, ih.1]
        · rw [if_neg h, ih.2 i (by omega)]
  exact (key N).2 j hj

/-! ## Below the FFT region -/

/-- `f` changes no cell below the FFT region. -/
def KeepsBelow (f : Mem B → Mem B) : Prop := ∀ m x, x < memFftBegin → f m x = m x

omit [Cell B] in
theorem KeepsBelow.sweep {f : Nat → Mem B → Mem B} (h : ∀ i, KeepsBelow (f i)) (n : Nat) :
    KeepsBelow fun m => Prog.sweep f m n := fun m x hx =>
  Prog.sweep_inv (fun m' => m' x = m x) rfl n fun i _ m' hm => (h i m' x hx).trans hm

theorem keepsBelow_storePoint (j : Nat) (z : Complex F) :
    KeepsBelow (B := B) fun m => storePoint m j z := fun _ _ hx =>
  Mem.write_outside _ (.inl (Nat.lt_of_lt_of_le hx (Nat.le_add_right _ _)))

theorem keepsBelow_fftMem (sincos : Nat → F) (L : Nat) : KeepsBelow (B := B) (fftMem sincos L) :=
  KeepsBelow.sweep (fun _ => KeepsBelow.sweep (fun _ => KeepsBelow.sweep (fun _ m x hx =>
    (keepsBelow_storePoint _ _ _ x hx).trans (keepsBelow_storePoint _ _ m x hx)) _) _) L

theorem keepsBelow_decimateMem (N : Nat) (bitrev : Nat → Nat) :
    KeepsBelow (B := B) (decimateMem (F := F) N bitrev) := fun m x hx =>
  Prog.sweep_inv (fun m' => m' x = m x) rfl N fun i _ m' hm =>
    (keepsBelow_storePoint i _ m' x hx).trans hm

end HmBoard
