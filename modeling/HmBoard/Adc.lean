import HmBoard.Board
import HmBoard.System

/-!
# The ADC behind `adca_read_ch0`

The channel converts in the order of the starts. A conversion that completes leaves its result in
`CH0RES` and sets `CH0.INTFLAGS`, which only software clears: `adc_init` does after its
conversion, `adca_read_ch0` never does. So its wait waits in the first conversion of the first call
and never again, and from then on a result is the one of the conversion just started only if that
completes before `CH0RES` is read (`calls_fresh_iff`).
-/

namespace HmBoard

open Lib Fw
open Lib.Prog (run)

/-- Durations and results of the conversions, which are numbered in the order of their starts. -/
structure AdcWorld where
  latency : Nat → Nat
  /-- The time from start `k` to the read of `CH0RES` that follows it, without the wait. -/
  gap : Nat → Nat
  /-- The time before start `k`. -/
  pause : Nat → Nat
  result : Nat → Int
  /-- Results are signed numbers of 12 bits. -/
  result_range : ∀ k, -2048 ≤ result k ∧ result k < 2048

structure Adc where
  /-- `CH0.INTFLAGS` -/
  flag : Bool
  /-- The conversion whose result is in `CH0RES`. -/
  last : Option Nat
  /-- The conversions under way, oldest first, each with the time it still takes. -/
  flight : List (Nat × Nat)
  started : Nat
  /-- The conversions whose results have been read. -/
  reads : List (Option Nat)
deriving DecidableEq, Repr

namespace Adc

/-- The time `t` passes. -/
def pass (t : Nat) (d : Adc) : Adc :=
  match (d.flight.takeWhile fun c => c.2 ≤ t).getLast? with
  | none => { d with flight := d.flight.map fun c => (c.1, c.2 - t) }
  | some c =>
    { d with
      flag := true
      last := some c.1
      flight := (d.flight.dropWhile fun c => c.2 ≤ t).map fun c => (c.1, c.2 - t) }

variable (w : AdcWorld)

/-- `CH0.CTRL |= START` -/
def start (d : Adc) : Adc :=
  let d := d.pass (w.pause d.started)
  { d with flight := d.flight ++ [(d.started, w.latency d.started)], started := d.started + 1 }

/-- `while(!CH0.INTFLAGS);` ends at once when the flag is set, else with the next conversion. -/
def wait (d : Adc) : Adc :=
  if d.flag = true then d
  else match d.flight with
    | [] => d
    | c :: _ => d.pass c.2

/-- Reading `CH0RES`. -/
def res (d : Adc) : Adc × Nat :=
  let d := d.pass (w.gap (d.started - 1))
  ({ d with reads := d.reads ++ [d.last] }, toU16 ((d.last.map w.result).getD 0))

/-- `CH0.INTFLAGS=ADC_CH_CHIF_bm` -/
def clearFlag (d : Adc) : Adc := { d with flag := false }

/-- After reset. -/
def reset : Adc := ⟨false, none, [], 0, []⟩

/-- The end of `adc_init` (system.c:198-200). -/
def adcInit : Adc := ((reset.start w).wait).clearFlag

variable {B P α : Type} [Cell B]

def exec (d : Adc) : (o : Op B P) → Adc × o.Res
  | .adcStart => (d.start w, ())
  | .adcWait => (d.wait, ())
  | .adcRes => d.res w
  | o => (d, quiet 0 o)

/-- A call of `adca_read_ch0`, whose reads are noted from its beginning on. -/
def call (d : Adc) : Adc × Nat :=
  run (exec w) (adcaReadCh0 : Fw UInt8 Unit Nat) { d with reads := [] }

/-- The ADC after so many calls. -/
def afterCalls : Nat → Adc
  | 0 => adcInit w
  | n + 1 => ((afterCalls n).call w).1

/-- The call from `d` on reads the results of the four conversions it starts, in their order, and
returns a quarter of their sum, rounded down. -/
def Fresh (d : Adc) : Prop :=
  (d.call w).1.reads = (List.range 4).map (fun i => some (d.started + i)) ∧
    i16 (d.call w).2 = ((List.range 4).map fun i => w.result (d.started + i)).sum / 4

/-! ## One conversion -/

variable {w} {d : Adc}

theorem pass_nil (h : d.flight = []) (t : Nat) : d.pass t = d := by
  simp only [pass, h, List.takeWhile_nil, List.getLast?_nil, List.map_nil]
  rw [← h]

theorem pass_one {k left t : Nat} (h : d.flight = [(k, left)]) :
    d.pass t = if left ≤ t then { d with flag := true, last := some k, flight := [] }
      else { d with flight := [(k, left - t)] } := by
  by_cases ht : left ≤ t
  · rw [if_pos ht]
    simp [pass, h, ht]
  · rw [if_neg ht]
    simp [pass, h, ht]

theorem reads_pass (t : Nat) (d : Adc) : (d.pass t).reads = d.reads := by
  unfold pass
  split
  · rfl
  · rfl

theorem start_nil (h : d.flight = []) : d.start w =
    { d with flight := [(d.started, w.latency d.started)], started := d.started + 1 } := by
  rw [start, pass_nil h, h]
  rfl

/-- A conversion that is waited for, or that completes before its result is read. -/
theorem run_conversion_ok (h : d.flight = [])
    (hk : d.flag = false ∨ w.latency d.started ≤ w.gap d.started) (sum : Int) :
    run (exec w) (adcConversion sum : Fw B P Int) d =
      ({ d with
          flag := true, last := some d.started, flight := [], started := d.started + 1
          reads := d.reads ++ [some d.started] }, i16 (sum + u16 (toU16 (w.result d.started)))) := by
  simp only [adcConversion, Prog.bind_eq, Prog.call_bind, Prog.run_op, exec, start_nil h,
    Prog.pure_eq, Prog.run_ret]
  cases hflag : d.flag with
  | false =>
    simp only [wait, Bool.false_eq_true, if_false]
    rw [pass_one rfl, if_pos le_rfl]
    simp only [res]
    rw [pass_nil rfl]
    rfl
  | true =>
    have hle : w.latency d.started ≤ w.gap d.started := by
      rcases hk with hk | hk
      · rw [hflag] at hk
        cases hk
      · exact hk
    simp only [wait, if_true, res, Nat.add_sub_cancel]
    rw [pass_one rfl, if_pos hle]
    rfl

/-- A conversion that is not waited for and is still under way when `CH0RES` is read. -/
theorem run_conversion_late (h : d.flight = []) (hflag : d.flag = true)
    (hlate : w.gap d.started < w.latency d.started) (sum : Int) :
    (run (exec w) (adcConversion sum : Fw B P Int) d).1.reads = d.reads ++ [d.last] := by
  simp only [adcConversion, Prog.bind_eq, Prog.call_bind, Prog.run_op, exec, start_nil h,
    Prog.pure_eq, Prog.run_ret, wait, hflag, if_true, res, Nat.add_sub_cancel]
  rw [pass_one rfl, if_neg (by omega)]

/-! ## The reads only grow -/

theorem reads_wait (d : Adc) : d.wait.reads = d.reads := by
  unfold wait
  split
  · rfl
  · split
    · rfl
    · exact reads_pass _ d

theorem reads_exec (d : Adc) (o : Op B P) : d.reads <+: (d.exec w o).1.reads := by
  cases o
  case adcRes =>
    refine ⟨[(d.pass (w.gap (d.started - 1))).last], ?_⟩
    rw [← reads_pass (w.gap (d.started - 1)) d]
    rfl
  case adcWait =>
    refine ⟨[], ?_⟩
    rw [List.append_nil]
    exact (reads_wait d).symm
  case adcStart =>
    refine ⟨[], ?_⟩
    rw [List.append_nil]
    exact (reads_pass (w.pause d.started) d).symm
  all_goals exact List.prefix_rfl

theorem reads_run : ∀ (p : Fw B P α) (d : Adc), d.reads <+: (run (exec w) p d).1.reads
  | .ret _, _ => List.prefix_rfl
  | .op o k, d => (reads_exec d o).trans (reads_run (k (d.exec w o).2) (d.exec w o).1)

/-! ## One call -/

/-- Conversion `i` of a call from `d` on is waited for, or completes in time. -/
def InTime (w : AdcWorld) (d : Adc) (i : Nat) : Prop :=
  (i = 0 ∧ d.flag = false) ∨ w.latency (d.started + i) ≤ w.gap (d.started + i)

/-- `d` after `n` conversions of which each was read. -/
def converted (d : Adc) : Nat → Adc
  | 0 => d
  | n + 1 =>
    { d with
      flag := true
      last := some (d.started + n)
      flight := []
      started := d.started + (n + 1)
      reads := d.reads ++ (List.range (n + 1)).map fun i => some (d.started + i) }

def sumOf (w : AdcWorld) (d : Adc) (n : Nat) : Int :=
  ((List.range n).map fun i => w.result (d.started + i)).sum

theorem sumOf_succ (n : Nat) : sumOf w d (n + 1) = sumOf w d n + w.result (d.started + n) := by
  simp [sumOf, List.range_succ]

theorem sumOf_range : ∀ n : Nat, -(2048 * (n : Int)) ≤ sumOf w d n ∧ sumOf w d n ≤ 2048 * (n : Int)
  | 0 => by simp [sumOf]
  | n + 1 => by
    have ih := sumOf_range n
    have h := w.result_range (d.started + n)
    rw [sumOf_succ]
    push_cast
    omega

theorem started_converted (d : Adc) : ∀ n, (d.converted n).started = d.started + n
  | 0 => rfl
  | _ + 1 => rfl

theorem flight_converted (h : d.flight = []) : ∀ n, (d.converted n).flight = []
  | 0 => h
  | _ + 1 => rfl

theorem reads_converted (d : Adc) :
    ∀ n, (d.converted n).reads = d.reads ++ (List.range n).map fun i => some (d.started + i)
  | 0 => (List.append_nil _).symm
  | _ + 1 => rfl

theorem converted_next (d : Adc) (n : Nat) :
    (⟨true, some (d.converted n).started, [], (d.converted n).started + 1,
      (d.converted n).reads ++ [some (d.converted n).started]⟩ : Adc) = d.converted (n + 1) := by
  rw [started_converted, reads_converted, converted, List.range_succ, List.map_append,
    List.append_assoc]
  rfl

/-- Conversions in time, one after the other; four of them do not leave 16 bits. -/
theorem run_conversions (h : d.flight = []) : ∀ {n : Nat}, n ≤ 4 → (∀ i < n, InTime w d i) →
    run (exec w) (Prog.loop (fun _ => adcConversion) 0 n : Fw B P Int) d =
      (d.converted n, sumOf w d n)
  | 0, _, _ => rfl
  | n + 1, hn, hin => by
    have ih := run_conversions h (n := n) (by omega) fun i hi => hin i (by omega)
    have hk : (d.converted n).flag = false ∨
        w.latency (d.converted n).started ≤ w.gap (d.converted n).started := by
      rw [started_converted]
      rcases hin n (by omega) with ⟨h0, hflag⟩ | hle
      · left
        rw [h0]
        exact hflag
      · exact Or.inr hle
    rw [Prog.run_loop_succ, ih, run_conversion_ok (flight_converted h n) hk]
    have hr := w.result_range (d.started + n)
    have hs : sumOf w d n ≤ 2048 * n ∧ -(2048 * (n : Int)) ≤ sumOf w d n := (sumOf_range n).symm
    refine Prod.ext ?_ ?_
    · exact converted_next d n
    · simp only [started_converted]
      rw [sumOf_succ]
      generalize w.result (d.started + n) = r at hr ⊢
      generalize sumOf w d n = x at hs ⊢
      have : i16 (x + (u16 (toU16 r) : Nat)) = i16 (x + r) := by
        unfold i16 u16 toU16
        omega
      rw [this]
      exact i16_of_range (by omega) (by omega)

theorem reads_loop {n m : Nat} (h : n ≤ m) (d : Adc) :
    (run (exec w) (Prog.loop (fun _ => adcConversion) 0 n : Fw B P Int) d).1.reads <+:
      (run (exec w) (Prog.loop (fun _ => adcConversion) 0 m : Fw B P Int) d).1.reads := by
  induction m, h using Nat.le_induction with
  | base => exact List.prefix_rfl
  | succ m _ ih =>
    rw [Prog.run_loop_succ (n := m)]
    exact ih.trans (reads_run _ _)

/-- Nothing is under way and `CH0RES` holds the result of the last conversion started. -/
structure Settled (d : Adc) : Prop where
  idle : d.flight = []
  latest : ∃ k, d.started = k + 1 ∧ d.last = some k

theorem Settled.converted (h : Settled d) : ∀ n, Settled (d.converted n)
  | 0 => h
  | n + 1 => ⟨rfl, d.started + n, rfl, rfl⟩

/-- The first conversion that is not in time is read as the one before it. -/
theorem inTime_of_reads (h : Settled d) {n : Nat} (hn : n < 4) (hin : ∀ i < n, InTime w d i)
    (hreads : (run (exec w) (Prog.loop (fun _ => adcConversion) 0 4 : Fw B P Int) d).1.reads =
      d.reads ++ (List.range 4).map fun i => some (d.started + i)) :
    InTime w d n := by
  by_contra hlate
  obtain ⟨h0, hle⟩ := not_or.mp hlate
  have hflag : (d.converted n).flag = true := by
    cases n with
    | zero =>
      rw [← Bool.not_eq_false]
      exact fun hflag => h0 ⟨rfl, hflag⟩
    | succ n => rfl
  obtain ⟨k, hk, hlast⟩ := (h.converted n).latest
  have hpre := reads_loop (w := w) (B := B) (P := P) (show n + 1 ≤ 4 from hn) d
  rw [hreads, Prog.run_loop_succ, run_conversions h.idle (by omega) hin,
    run_conversion_late (h.converted n).idle hflag (by rw [started_converted]; omega),
    reads_converted, hlast] at hpre
  rw [List.append_assoc, List.prefix_append_right_inj] at hpre
  have hget := hpre.getElem (i := n) (by simp)
  simp only [List.getElem_map, List.getElem_range, List.getElem_append, List.length_map,
    List.length_range, Nat.lt_irrefl, dif_neg, not_false_eq_true, List.getElem_singleton,
    Option.some.injEq] at hget
  rw [started_converted] at hk
  omega

theorem call_eq (d : Adc) : d.call w =
    ((run (exec w) (Prog.loop (fun _ => adcConversion) 0 4 : Fw UInt8 Unit Int)
        { d with reads := [] }).1,
      toU16 ((run (exec w) (Prog.loop (fun _ => adcConversion) 0 4 : Fw UInt8 Unit Int)
        { d with reads := [] }).2.shiftRight 2)) := by
  rw [call, adcaReadCh0, Prog.bind_eq, Prog.run_bind]
  rfl

theorem call_inTime (h : d.flight = []) (hin : ∀ i < 4, InTime w d i) :
    d.call w = (converted { d with reads := [] } 4, toU16 ((sumOf w d 4).shiftRight 2)) := by
  rw [call_eq, run_conversions (d := { d with reads := [] }) h le_rfl hin]
  rfl

/-- A call whose conversions are not all in time does not read all of them. -/
theorem fresh_iff (h : Settled d) : Fresh w d ↔ ∀ i < 4, InTime w d i := by
  constructor
  · rintro ⟨hreads, _⟩
    rw [call_eq] at hreads
    have hreads' := hreads.trans (List.nil_append _).symm
    dsimp only at hreads'
    have hset : Settled { d with reads := [] } := ⟨h.idle, h.latest⟩
    have key : ∀ n ≤ 4, ∀ i < n, InTime w d i := by
      intro n
      induction n with
      | zero => exact fun _ i hi => absurd hi (by omega)
      | succ n ih =>
        intro hn i hi
        have hin := ih (by omega)
        rcases Nat.lt_succ_iff_lt_or_eq.mp hi with hlt | rfl
        · exact hin i hlt
        · exact inTime_of_reads (B := UInt8) (P := Unit) hset hn hin hreads'
    exact key 4 le_rfl
  · intro hin
    have hs := sumOf_range (w := w) (d := d) 4
    rw [Fresh, call_inTime h.idle hin]
    refine ⟨rfl, ?_⟩
    show i16 (toU16 ((sumOf w d 4).shiftRight 2)) = sumOf w d 4 / 4
    generalize sumOf w d 4 = x at hs ⊢
    rw [i16_toU16, show x.shiftRight 2 = x / 4 from Int.shiftRight_eq_div_pow x 2]
    exact i16_of_range (by omega) (by omega)

/-! ## Every call -/

theorem adcInit_eq : adcInit w = ⟨false, some 0, [], 1, []⟩ := by
  rw [adcInit, start_nil rfl, wait]
  simp only [reset, Bool.false_eq_true, if_false]
  rw [pass_one rfl, if_pos le_rfl]
  rfl

/-- After calls whose conversions were all in time, of which the first is waited for. -/
theorem afterCalls_eq : ∀ {n : Nat},
    (∀ k, 2 ≤ k → k ≤ 4 * n → w.latency k ≤ w.gap k) →
    Settled (afterCalls w n) ∧ (afterCalls w n).started = 4 * n + 1 ∧
      ((afterCalls w n).flag = false ↔ n = 0)
  | 0, _ => by
    rw [afterCalls, adcInit_eq]
    exact ⟨⟨rfl, 0, rfl, rfl⟩, rfl, by simp⟩
  | n + 1, hle => by
    obtain ⟨hset, hstart, hflag⟩ := afterCalls_eq (n := n) fun k h2 hk => hle k h2 (by omega)
    have hin : ∀ i < 4, InTime w (afterCalls w n) i := by
      intro i hi
      rw [InTime, hstart, hflag]
      by_cases h0 : i = 0 ∧ n = 0
      · exact Or.inl h0
      · exact Or.inr (hle _ (by omega) (by omega))
    have hset' : Settled { afterCalls w n with reads := [] } := ⟨hset.idle, hset.latest⟩
    rw [afterCalls, call_inTime hset.idle hin]
    refine ⟨hset'.converted 4, ?_, ?_⟩
    · rw [started_converted, hstart]
      omega
    · simp [Adc.converted]

/-- Every call after `adc_init` is fresh if and only if each conversion started in them but the
first completes before its result is read: the first call's first conversion is waited for. -/
theorem calls_fresh_iff (w : AdcWorld) (n : Nat) :
    (∀ c < n, Fresh w (afterCalls w c)) ↔
      ∀ k, 2 ≤ k → k ≤ 4 * n → w.latency k ≤ w.gap k := by
  induction n with
  | zero =>
    constructor
    · intro _ k h2 hk
      omega
    · intro _ c hc
      omega
  | succ n ih =>
    have step (hle : ∀ k, 2 ≤ k → k ≤ 4 * n → w.latency k ≤ w.gap k) :
        Fresh w (afterCalls w n) ↔ ∀ i < 4, (i = 0 ∧ n = 0) ∨
          w.latency (4 * n + 1 + i) ≤ w.gap (4 * n + 1 + i) := by
      obtain ⟨hset, hstart, hflag⟩ := afterCalls_eq hle
      rw [fresh_iff hset]
      simp only [InTime, hstart, hflag]
    constructor
    · intro hfresh k h2 hk
      have hle := ih.mp fun c hc => hfresh c (by omega)
      rcases Nat.lt_or_ge (4 * n) k with hlt | hge
      · have hlast := (step hle).mp (hfresh n (by omega)) (k - (4 * n + 1)) (by omega)
        rw [show 4 * n + 1 + (k - (4 * n + 1)) = k by omega] at hlast
        rcases hlast with h0 | hlast
        · omega
        · exact hlast
      · exact hle k h2 hge
    · intro hle c hc
      have hbefore : ∀ k, 2 ≤ k → k ≤ 4 * n → w.latency k ≤ w.gap k :=
        fun k h2 hk => hle k h2 (by omega)
      rcases Nat.lt_succ_iff_lt_or_eq.mp hc with hlt | rfl
      · exact ih.mpr hbefore c hlt
      · refine (step hbefore).mpr fun i hi => ?_
        by_cases h0 : i = 0 ∧ c = 0
        · exact Or.inl h0
        · exact Or.inr (hle _ (by omega) (by omega))

/-- Conversions take longer than the program from a start to the read after it. -/
def slowWorld : AdcWorld where
  latency _ := 8
  gap _ := 1
  pause _ := 1
  result k := k % 2048
  result_range k := by omega

/-- The first call after `adc_init` reads the conversion it waited for four times. -/
theorem call_stale :
    ((adcInit slowWorld).call slowWorld).1.reads = [some 1, some 1, some 1, some 1] ∧
      ((adcInit slowWorld).call slowWorld).2 = 1 ∧
      ¬ ∀ n, ∀ c < n, Fresh slowWorld (afterCalls slowWorld c) := by
  refine ⟨by decide, by decide, fun h => ?_⟩
  have hreads := (h 1 0 (by omega)).1
  revert hreads
  decide

end Adc

end HmBoard
