import HmBoard.Lib.Run
import HmBoard.Sampling
import HmBoard.Spectrum

/-!
# What a measurement records

The sampling interrupt over any number of measurements, whatever `adca_read_ch0` returns in each:

| here | there |
| --- | --- |
| `.clear`, `.go` | `count_TCD0 = 0;` and `sampling = true;` of `processAll` (mainTask.c:29-30), which waits for `sampling` to be false before it can come here again |
| `.irq r`        | `ISR(TCD0_OVF_vect)` (system.c:119) in which `adca_read_ch0` returns `r` |

`sinceGo` collects from the events alone what was returned since the latest `.go`; `Recorded` says
what the board makes of it.
-/

namespace HmBoard

open Lib Fw
open Lib.Prog (run)
open Board (exec)

variable {B P : Type} [Cell B]

inductive MeasureEvent where
  | clear
  | go
  | irq (r : Nat)

/-- `ISR(TCD0_OVF_vect)` when `adca_read_ch0` returns `r`, after twelve accesses to the ADC. -/
def Board.irq (s : Board B P) (r : Nat) : Board B P :=
  if s.sampling = true then (run exec (recordSample r) { s with now := s.now + 12 }).1 else s

def Board.measure (s : Board B P) : MeasureEvent → Option (Board B P)
  | .clear => if s.sampling = true then none else some (run exec (setCount 0) s).1
  | .go => if s.sampling = true then none else some (run exec (setSampling true) s).1
  | .irq r => some (s.irq r)

/-- With the result that the ADC gives it is `ISR(TCD0_OVF_vect)`. -/
theorem Board.irq_adcResult (s : Board B P) : s.irq (adcResult s) = (run exec tcd0Ovf s).1 := by
  have h : takeSample = Prog.bind adcaReadCh0 (recordSample (B := B) (P := P)) := rfl
  by_cases hs : s.sampling = true
  · rw [irq, if_pos hs]
    simp only [tcd0Ovf, Prog.bind_eq, Prog.call_bind, Prog.run_op, exec, hs, if_true]
    rw [h, Prog.run_bind, run_adcaReadCh0]
    simp only [hs]
  · rw [irq, if_neg hs]
    simp only [tcd0Ovf, Prog.bind_eq, Prog.call_bind, Prog.run_op, exec, hs]
    rfl

/-! ## The values since the latest start -/

def MeasureEvent.note (vs : Option (List Int)) : MeasureEvent → Option (List Int)
  | .clear => vs
  | .go => some []
  | .irq r => vs.map (· ++ [i16 r])

/-- What the interrupts since the latest `.go` got from the ADC; `none` before the first. -/
def sinceGo (es : List MeasureEvent) : Option (List Int) := es.foldl MeasureEvent.note none

/-- The cells of the signal and of its offset. -/
def SignalCell (x : Nat) : Prop :=
  (memSignalBegin ≤ x ∧ x < memSignalBegin + 2 * memSignalLength) ∨
    (memSignalOffset ≤ x ∧ x < memSignalOffset + 2)

/-- The board, which started with memory `m₀`, after interrupts that got `vs`. -/
structure Recorded (m₀ : Mem B) (vs : Option (List Int)) (s : Board B P) : Prop where
  idle : s.chip.phase = .idle
  count_lt : s.count < memSignalLength
  /-- The flag is set by the start and cleared by interrupt number 2048 after it. -/
  sampling_iff : s.sampling = true ↔ ∃ xs, vs = some xs ∧ xs.length < memSignalLength
  running : ∀ xs, vs = some xs → xs.length < memSignalLength →
    s.count = xs.length ∧ s.offset = xs.sum
  rest : s.sampling = false → s.count = 0 ∧ s.offset = 0
  signal : ∀ xs, vs = some xs → ∀ i (_ : i < xs.length), i < memSignalLength →
    sample s.chip.mem i = xs[i]
  offset : ∀ xs, vs = some xs → memSignalLength ≤ xs.length →
    storedOffset s.chip.mem = (xs.take memSignalLength).sum.tdiv memSignalLength
  outside : ∀ x, ¬ SignalCell x → s.chip.mem x = m₀ x

/-! ## One event -/

/-- Values as `adca_read_ch0` returns them. -/
def Values (vs : Option (List Int)) : Prop := ∀ xs, vs = some xs → ∀ x ∈ xs, i16 x = x

theorem values_note {vs : Option (List Int)} (h : Values vs) (e : MeasureEvent) :
    Values (e.note vs) := by
  cases e with
  | clear => exact h
  | go =>
    intro xs hxs x hx
    cases hxs
    cases hx
  | irq r =>
    intro xs hxs x hx
    obtain ⟨ys, rfl, rfl⟩ := Option.map_eq_some_iff.1 hxs
    rcases List.mem_append.1 hx with hx | hx
    · exact h ys rfl x hx
    · have hr := i16_range r
      rw [List.mem_singleton.1 hx, i16_of_range hr.1 hr.2]

/-- No overflow of the sum: 2048 samples stay within 32 bits. -/
theorem sum_range : ∀ {xs : List Int}, (∀ x ∈ xs, i16 x = x) →
    -(32768 * (xs.length : Int)) ≤ xs.sum ∧ xs.sum ≤ 32767 * (xs.length : Int)
  | [], _ => by simp
  | x :: xs, h => by
    have ih := sum_range fun y hy => h y (.tail _ hy)
    have hx := i16_range x
    rw [h x (.head _)] at hx
    rw [List.sum_cons, List.length_cons]
    omega

/-- The mean of 2048 words is a word. -/
theorem mean_range {x : Int} (h1 : -67108864 ≤ x) (h2 : x ≤ 67106816) :
    -32768 ≤ x.tdiv memSignalLength ∧ x.tdiv memSignalLength < 32768 := by
  have e : ((memSignalLength : Nat) : Int) = 2048 := rfl
  rw [e, Int.tdiv_eq_ediv]
  by_cases h : 0 ≤ x ∨ (2048 : Int) ∣ x
  · rw [if_pos h]
    omega
  · rw [if_neg h, show Int.sign 2048 = 1 from rfl]
    omega

theorem sampleAddress_eq {n : Nat} (h : n < memSignalLength) :
    sampleAddress n % 16777216 = memSignalBegin + 2 * n := by
  unfold sampleAddress u16 memSignalBegin memSignalLength at *
  omega

variable {m₀ : Mem B} {vs : Option (List Int)} {s s' : Board B P}

/-- What sample number `xs.length` adds to the samples `xs`. -/
structure Extends (s : Board B P) (xs : List Int) (v : Int) : Prop where
  count : u16 (s.count + 1) = xs.length + 1
  sum : i32 (s.offset + v) = (xs ++ [v]).sum
  signal : ∀ i (_ : i < (xs ++ [v]).length), sample (sampleMem s v) i = (xs ++ [v])[i]
  outside : ∀ x, ¬ SignalCell x → sampleMem s v x = s.chip.mem x

theorem Recorded.extends {xs : List Int} (hr : Recorded m₀ (some xs) s)
    (hlen : xs.length < memSignalLength) (hxs : Values (some xs)) {v : Int} (hv : i16 v = v) :
    Extends s xs v := by
  obtain ⟨hcount, hoffset⟩ := hr.running xs rfl hlen
  have hsum := sum_range (hxs xs rfl)
  have hrange := i16_range v
  rw [hv] at hrange
  have haddr : sampleAddress s.count % 16777216 = memSignalBegin + 2 * xs.length := by
    rw [hcount, sampleAddress_eq hlen]
  refine ⟨?_, ?_, ?_, ?_⟩
  · unfold memSignalLength at hlen
    rw [hcount, u16_of_lt (by omega)]
  · unfold memSignalLength at hlen
    rw [hoffset, i32_of_range (by omega) (by omega), List.sum_append, List.sum_singleton]
  · intro i hi
    rw [List.length_append, List.length_singleton] at hi
    unfold sample sampleMem
    rw [haddr, List.getElem_append]
    by_cases h : i < xs.length
    · rw [dif_pos h, loadWord_write_apart _ (by omega)]
      exact hr.signal xs rfl i h (by omega)
    · obtain rfl : i = xs.length := by omega
      rw [dif_neg h, i16_loadWord_write _ _ hrange.1 hrange.2]
      simp
  · intro x hx
    have h2 : (wordCells (toU16 v) : List B).length = 2 := rfl
    unfold sampleMem
    rw [haddr]
    apply Mem.write_outside
    unfold SignalCell at hx
    omega

/-- An interrupt during a measurement that is not its last. -/
theorem recorded_sampled {xs : List Int} (hr : Recorded m₀ (some xs) s)
    (hlen : xs.length + 1 < memSignalLength) (hxs : Values (some xs)) {v : Int} (hv : i16 v = v)
    (buf : Mem B) : Recorded m₀ (some (xs ++ [v])) (s.sampled v buf) := by
  have hlt : xs.length < memSignalLength := by omega
  have hx := hr.extends hlt hxs hv
  have hon : s.sampling = true := hr.sampling_iff.2 ⟨xs, rfl, hlt⟩
  have hlen' : (xs ++ [v]).length = xs.length + 1 := by simp
  have hnot : ¬ u16 (s.count + 1) = memSignalLength := by
    rw [hx.count]
    omega
  rw [Board.sampled, if_neg hnot, hx.count, hx.sum]
  constructor
  case idle => rfl
  case count_lt => exact hlen
  case sampling_iff =>
    exact ⟨fun _ => ⟨_, rfl, by omega⟩, fun _ => hon⟩
  case running =>
    rintro _ ⟨⟩ -
    exact ⟨hlen'.symm, rfl⟩
  case rest =>
    intro hoff
    exact absurd (hon.symm.trans hoff) (by simp)
  case signal =>
    rintro _ ⟨⟩ i hi -
    exact hx.signal i hi
  case offset =>
    rintro _ ⟨⟩ hfull
    omega
  case outside =>
    intro x hc
    exact (hx.outside x hc).trans (hr.outside x hc)

/-- The last interrupt of a measurement. -/
theorem recorded_last {xs : List Int} (hr : Recorded m₀ (some xs) s)
    (hlen : xs.length + 1 = memSignalLength) (hxs : Values (some xs)) {v : Int} (hv : i16 v = v)
    (buf : Mem B) : Recorded m₀ (some (xs ++ [v])) (s.sampled v buf) := by
  have hx := hr.extends (by omega) hxs hv
  have hlen' : (xs ++ [v]).length = memSignalLength := by simp [hlen]
  have hend : u16 (s.count + 1) = memSignalLength := hx.count.trans hlen
  have hmean : -32768 ≤ (xs ++ [v]).sum.tdiv memSignalLength ∧
      (xs ++ [v]).sum.tdiv memSignalLength < 32768 := by
    have hsum := sum_range (hxs xs rfl)
    have hrange := i16_range v
    rw [hv] at hrange
    unfold memSignalLength at hlen
    rw [List.sum_append, List.sum_singleton]
    exact mean_range (by omega) (by omega)
  have h2 : (wordCells (toU16 ((xs ++ [v]).sum.tdiv memSignalLength)) : List B).length = 2 := rfl
  rw [Board.sampled, if_pos hend, hx.sum]
  constructor
  case idle => rfl
  case count_lt => exact Nat.succ_pos _
  case sampling_iff =>
    constructor
    · intro h
      cases h
    · rintro ⟨_, ⟨⟩, h⟩
      omega
  case running =>
    rintro _ ⟨⟩ h
    omega
  case rest =>
    intro _
    exact ⟨rfl, rfl⟩
  case signal =>
    rintro _ ⟨⟩ i hi hi'
    rw [← hx.signal i hi]
    unfold sample
    rw [loadWord_write_apart]
    unfold memSignalBegin memSignalOffset memSignalLength at *
    omega
  case offset =>
    rintro _ ⟨⟩ -
    rw [List.take_of_length_le (by omega)]
    exact i16_loadWord_write _ _ hmean.1 hmean.2
  case outside =>
    intro x hc
    refine (Mem.write_outside _ ?_).trans ((hx.outside x hc).trans (hr.outside x hc))
    unfold SignalCell at hc
    omega

/-- The step lemma. -/
theorem recorded_step {e : MeasureEvent} (hr : Recorded m₀ vs s) (hvs : Values vs)
    (hstep : s.measure e = some s') : Recorded m₀ (e.note vs) s' := by
  cases e with
  | clear =>
    by_cases hs : s.sampling = true
    · simp only [Board.measure, if_pos hs] at hstep
      cases hstep
    · simp only [Board.measure, if_neg hs, Option.some.injEq] at hstep
      subst hstep
      have hoff : s.sampling = false := by simpa using hs
      refine ⟨hr.idle, Nat.succ_pos _, hr.sampling_iff, ?_, ?_, hr.signal, hr.offset, hr.outside⟩
      · intro xs hxs hlen
        exact absurd (hr.sampling_iff.2 ⟨xs, hxs, hlen⟩) hs
      · intro _
        exact ⟨rfl, (hr.rest hoff).2⟩
  | go =>
    by_cases hs : s.sampling = true
    · simp only [Board.measure, if_pos hs] at hstep
      cases hstep
    · simp only [Board.measure, if_neg hs, Option.some.injEq] at hstep
      subst hstep
      have hoff : s.sampling = false := by simpa using hs
      obtain ⟨hcount, hoffset⟩ := hr.rest hoff
      refine ⟨hr.idle, hr.count_lt, ?_, ?_, ?_, ?_, ?_, hr.outside⟩
      · exact ⟨fun _ => ⟨[], rfl, Nat.succ_pos _⟩, fun _ => rfl⟩
      · rintro _ ⟨⟩ -
        exact ⟨hcount, hoffset⟩
      · intro h
        cases h
      · rintro _ ⟨⟩ i hi
        cases hi
      · rintro _ ⟨⟩ hfull
        cases hfull
  | irq r =>
    simp only [Board.measure, Option.some.injEq] at hstep
    subst hstep
    by_cases hs : s.sampling = true
    · obtain ⟨xs, rfl, hlen⟩ := hr.sampling_iff.1 hs
      obtain ⟨buf, e⟩ := run_recordSample r s hr.idle
      have hv : i16 (i16 r) = i16 r := i16_of_range (i16_range r).1 (i16_range r).2
      rw [Board.irq, if_pos hs, e]
      by_cases hlast : xs.length + 1 = memSignalLength
      · exact recorded_last hr hlast hvs hv buf
      · exact recorded_sampled hr (by omega) hvs hv buf
    · -- the interrupt finds `sampling` false
      rw [Board.irq, if_neg hs]
      rcases vs with _ | xs
      · exact hr
      · have hfull : memSignalLength ≤ xs.length := by
          by_contra h
          exact hs (hr.sampling_iff.2 ⟨xs, rfl, by omega⟩)
        have hlen : (xs ++ [i16 r]).length = xs.length + 1 := by simp
        show Recorded m₀ (some (xs ++ [i16 r])) s
        refine ⟨hr.idle, hr.count_lt, ?_, ?_, hr.rest, ?_, ?_, hr.outside⟩
        · refine ⟨fun h => absurd h hs, ?_⟩
          rintro ⟨_, ⟨⟩, h⟩
          omega
        · rintro _ ⟨⟩ h
          omega
        · rintro _ ⟨⟩ i hi hi'
          rw [hr.signal xs rfl i (by omega) hi', List.getElem_append_left]
        · rintro _ ⟨⟩ -
          rw [hr.offset xs rfl hfull, List.take_append_of_le_length hfull]

/-- The run lemma. -/
theorem recorded_run : ∀ (es : List MeasureEvent) {vs : Option (List Int)} {s s' : Board B P},
    Recorded m₀ vs s → Values vs → es.foldlM Board.measure s = some s' →
      Recorded m₀ (es.foldl MeasureEvent.note vs) s'
  | [], _, _, _, hr, _, h => by
    cases h
    exact hr
  | e :: es, _, _, _, hr, hvs, h => by
    obtain ⟨u, hu, h⟩ := foldlM_cons h
    exact recorded_run es (recorded_step hr hvs hu) (values_note hvs e) h

/-- **Recording.** Over any number of measurements and whatever the ADC returns, the flag goes down
with sample 2048 after it went up; until then `count_TCD0` and `signal_offset` are the number
and the exact sum of the samples, and the samples and their truncated mean are in memory after
it. Outside of a measurement an interrupt changes nothing, and never any other cell. -/
theorem sampling_records {s₀ : Board B P} (hidle : s₀.chip.phase = .idle)
    (hsampling : s₀.sampling = false) (hcount : s₀.count = 0) (hoffset : s₀.offset = 0)
    (es : List MeasureEvent) {s : Board B P} (h : es.foldlM Board.measure s₀ = some s) :
    Recorded s₀.chip.mem (sinceGo es) s ∧
      (s.sampling = false → ∀ r, s.measure (.irq r) = some s) := by
  have h0 : Recorded s₀.chip.mem none s₀ := by
    refine ⟨hidle, by rw [hcount]; exact Nat.succ_pos _, ?_, ?_, ?_, ?_, ?_, fun _ _ => rfl⟩
    · rw [hsampling]
      simp
    · rintro _ ⟨⟩
    · intro _
      exact ⟨hcount, hoffset⟩
    · rintro _ ⟨⟩
    · rintro _ ⟨⟩
  refine ⟨recorded_run es h0 (by rintro _ ⟨⟩) h, fun hs r => ?_⟩
  rw [Board.measure, Board.irq, if_neg (by simp [hs])]

/-- Two samples, −1 and 3, into a measurement. -/
theorem sampling_records_two :
    ∃ s, [.clear, .go, .irq 65535, .irq 3].foldlM Board.measure
        (Board.rest fun _ => 0 : Board UInt8 Nat) = some s ∧
      s.sampling = true ∧ s.count = 2 ∧ s.offset = 2 ∧ sample s.chip.mem 0 = -1 := by
  obtain ⟨s, hs⟩ : ∃ s, [.clear, .go, .irq 65535, .irq 3].foldlM Board.measure
      (Board.rest fun _ => 0 : Board UInt8 Nat) = some s := ⟨_, rfl⟩
  obtain ⟨hr, -⟩ := sampling_records rfl rfl rfl rfl _ hs
  have hvs : sinceGo [.clear, .go, .irq 65535, .irq 3] = some [-1, 3] := by decide
  rw [hvs] at hr
  obtain ⟨hcount, hoffset⟩ := hr.running _ rfl (by decide)
  exact ⟨s, hs, hr.sampling_iff.2 ⟨_, rfl, by decide⟩, hcount, hoffset,
    hr.signal _ rfl 0 (by decide) (by decide)⟩

end HmBoard
