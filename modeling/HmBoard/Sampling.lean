import HmBoard.Exclusion
import HmBoard.SpiMemoryProofs

/-!
# One sampling interrupt

What `ISR(TCD0_OVF_vect)` does to the board when nothing interrupts it (`run_tcd0Ovf`), and how the
interleaved system gets from its start to its end (`runs_isr`), or a handler of the task to its
end (`runs_main`).
-/

namespace HmBoard

open Lib Fw
open Lib.Prog (run)
open Board (exec)

variable {F B P α : Type} [Cell B] [FloatFormat F B]

/-! ## The ADC -/

/-- What `adca_read_ch0` returns on this board. -/
def adcResult (s : Board B P) : Nat := (run exec adcaReadCh0 s).2

/-- It touches nothing but the outside world, twelve times. -/
theorem run_adcaReadCh0 (s : Board B P) :
    run exec adcaReadCh0 s = ({ s with now := s.now + 12 }, adcResult s) := by
  have key : ∀ n, (run exec (Prog.loop (fun _ => adcConversion) 0 n) s).1 =
      { s with now := s.now + 3 * n } := by
    intro n
    induction n with
    | zero => rfl
    | succ n ih =>
      rw [Prog.run_loop_succ, ih]
      simp only [adcConversion, Prog.bind_eq, Prog.call_bind, Prog.run_op, exec, Prog.pure_eq,
        Prog.run_ret, Nat.mul_succ, ← Nat.add_assoc]
  refine Prod.ext ?_ (by rw [adcResult])
  simp only [adcaReadCh0, Prog.bind_eq, Prog.run_bind, Prog.pure_eq, Prog.run_ret, key 4]

/-- In a world that answers zero the ADC reads zero. -/
theorem adcResult_quiet (s : Board B P) (hs : s.env = quiet) : adcResult s = 0 := by
  have key : ∀ n, (run exec (Prog.loop (fun _ => adcConversion) 0 n) s).2 = 0 ∧
      (run exec (Prog.loop (fun _ => adcConversion) 0 n) s).1.env = quiet := by
    intro n
    induction n with
    | zero => exact ⟨rfl, hs⟩
    | succ n ih =>
      rw [Prog.run_loop_succ]
      generalize run exec (Prog.loop (fun _ => adcConversion) 0 n) s = r at ih
      obtain ⟨s', sum⟩ := r
      obtain ⟨h1, h2⟩ := ih
      dsimp only at h1 h2
      simp only [adcConversion, Prog.bind_eq, Prog.call_bind, Prog.run_op, exec, Prog.pure_eq,
        Prog.run_ret, h1, h2]
      have hzero : i16 (0 + (u16 0 : Nat)) = 0 := by decide
      exact ⟨hzero, trivial⟩
  simp only [adcResult, adcaReadCh0, Prog.bind_eq, Prog.run_bind, Prog.pure_eq, Prog.run_ret,
    (key 4).1]
  decide

/-! ## The interrupt -/

/-- Where sample number `count` goes. -/
def sampleAddress (count : Nat) : Nat := u16 (u16 (count * 2) + memSignalBegin)

/-- The memory after sample `v`. -/
def sampleMem (s : Board B P) (v : Int) : Mem B :=
  s.chip.mem.write (sampleAddress s.count % 16777216) (wordCells (toU16 v))

/-- The board after an interrupt that reads `v` while `sampling` is set. -/
def Board.sampled (s : Board B P) (v : Int) (buf : Mem B) : Board B P :=
  let offset := i32 (s.offset + v)
  if u16 (s.count + 1) = memSignalLength then
    { s with
      chip := ⟨(sampleMem s v).write memSignalOffset
        (wordCells (toU16 (offset.tdiv memSignalLength))), .idle⟩
      buffer := buf, sampling := false, count := 0, offset := 0, now := s.now + 13 }
  else
    { s with
      chip := ⟨sampleMem s v, .idle⟩
      buffer := buf, count := u16 (s.count + 1), offset := offset, now := s.now + 12 }

theorem run_endMeasurement (s : Board B P) (hidle : s.chip.phase = .idle) :
    ∃ buf, run exec endMeasurement s = ({ s with
      chip := ⟨s.chip.mem.write memSignalOffset
        (wordCells (toU16 (s.offset.tdiv memSignalLength))), .idle⟩
      buffer := buf, sampling := false, count := 0, offset := 0, now := s.now + 1 }, ()) := by
  obtain ⟨buf, e⟩ := computes_spiMemWriteWord memSignalOffset
    (toU16 (s.offset.tdiv memSignalLength)) s hidle
  refine ⟨buf, ?_⟩
  simp only [endMeasurement, Prog.bind_eq, Prog.call_bind, Prog.run_op, Prog.run_bind, exec, e]
  rfl

/-- `takeSample` once `adca_read_ch0` has returned `r`. -/
def recordSample (r : Nat) : Fw B P Unit := do
  let adcValue := i16 r
  let offset ← getOffset
  setOffset (i32 (offset + adcValue))
  let count ← getCount
  spiMemWriteWord (u16 (u16 (count * 2) + memSignalBegin)) (toU16 adcValue)
  setCount (u16 (count + 1))
  let count ← getCount
  if count = memSignalLength then endMeasurement else pure ()

theorem run_recordSample (r : Nat) (s : Board B P) (hidle : s.chip.phase = .idle) :
    ∃ buf, run exec (recordSample r) { s with now := s.now + 12 } =
      (s.sampled (i16 r) buf, ()) := by
  obtain ⟨buf, e⟩ := computes_spiMemWriteWord (sampleAddress s.count) (toU16 (i16 r))
    { s with now := s.now + 12, offset := i32 (s.offset + i16 r) } hidle
  unfold sampleAddress at e
  by_cases hc : u16 (s.count + 1) = memSignalLength
  · obtain ⟨buf', e'⟩ := run_endMeasurement { s with
      chip := ⟨sampleMem s (i16 r), .idle⟩, buffer := buf, now := s.now + 12,
      count := u16 (s.count + 1), offset := i32 (s.offset + i16 r) } rfl
    refine ⟨buf', ?_⟩
    simp only [recordSample, Prog.bind_eq, Prog.run_bind, Prog.call_bind, Prog.run_op, exec, e]
    rw [Board.sampled, if_pos hc]
    change run exec (if u16 (s.count + 1) = memSignalLength then endMeasurement else pure ()) _ = _
    rw [if_pos hc]
    exact e'
  · refine ⟨buf, ?_⟩
    simp only [recordSample, Prog.bind_eq, Prog.run_bind, Prog.call_bind, Prog.run_op, exec, e]
    rw [Board.sampled, if_neg hc]
    change run exec (if u16 (s.count + 1) = memSignalLength then endMeasurement else pure ()) _ = _
    rw [if_neg hc]
    rfl

theorem run_takeSample (s : Board B P) (hidle : s.chip.phase = .idle) :
    ∃ buf, run exec takeSample s = (s.sampled (i16 (adcResult s)) buf, ()) := by
  obtain ⟨buf, e⟩ := run_recordSample (adcResult s) s hidle
  refine ⟨buf, ?_⟩
  have h : takeSample = Prog.bind adcaReadCh0 (recordSample (B := B) (P := P)) := rfl
  rw [h, Prog.run_bind, run_adcaReadCh0, e]

theorem run_tcd0Ovf (s : Board B P) (hs : s.sampling = true) (hidle : s.chip.phase = .idle) :
    ∃ buf, run exec tcd0Ovf s = (s.sampled (i16 (adcResult s)) buf, ()) := by
  obtain ⟨buf, e⟩ := run_takeSample s hidle
  refine ⟨buf, ?_⟩
  simp only [tcd0Ovf, Prog.bind_eq, Prog.call_bind, Prog.run_op, exec, hs, if_true]
  exact e

/-! ## Uninterrupted stretches of the interleaved system -/

variable {sincos : Nat → F} {out : P} {G : Sys B P → Label P → Prop}

/-- The interrupt runs to its end. -/
theorem runs_isr (hG : ∀ s, G s .isr) : ∀ (p : Fw B P Unit) (s : Sys B P), s.isr = some p →
    Runs (Sys.step sincos out) G s { s with board := (run exec p s.board).1, isr := none }
  | .ret _, s, h => Runs.step_one (hG s) (by simp [Sys.step, h])
  | .op o k, s, h => by
    have hstep : s.step sincos out .isr =
        some { s with board := (s.board.exec o).1, isr := some (k (s.board.exec o).2) } := by
      simp [Sys.step, h]
    exact (Runs.step_one (hG s) hstep).trans (runs_isr hG (k (s.board.exec o).2) _ rfl)

/-- A handler without waits runs to its end. -/
theorem runs_main (sincos : Nat → F) (out : P) (hG : ∀ s, G s .main) : ∀ (p : Fw B P Unit) (s : Sys B P), s.isr = none →
    s.main = p → p.All Op.Plain → ∃ m, Runs (Sys.step sincos out) G s
      { s with board := (run exec p s.board).1, main := .ret (), monitor := m }
  | .ret _, s, _, hm, _ => by
    obtain ⟨b, main, isr, m, evs⟩ := s
    cases hm
    exact ⟨m, Runs.refl _⟩
  | .op o k, s, hi, hm, ⟨ho, hk⟩ => by
    have hspin : s.board.spins o = false := by cases o <;> first | rfl | exact ho.elim
    have hstep : s.step sincos out .main = some { s with
        board := (s.board.exec o).1, main := k (s.board.exec o).2, monitor := s.monitor.next o } := by
      simp [Sys.step, hi, hm, hspin]
    obtain ⟨m, hrest⟩ := runs_main sincos out hG (k (s.board.exec o).2) { s with
      board := (s.board.exec o).1, main := k (s.board.exec o).2, monitor := s.monitor.next o }
      hi rfl (hk _)
    exact ⟨m, (Runs.step_one (hG s) hstep).trans hrest⟩

end HmBoard
