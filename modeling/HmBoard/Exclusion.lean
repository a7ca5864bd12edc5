import HmBoard.ExactFloat
import HmBoard.Handlers
import HmBoard.Interrupt

/-!
# The interrupt and the task never share the SPI port

`Flow I K p`: whatever its accesses are answered, `p` takes a monitor from `I` to `K`
without storing to `sampling` or waiting for it. Every handler but `processAll` is a flow from
`Closed` to `Closed` (`tidy_…`); `processAll` is one from behind its wait on. So `sampling` is true
only while the task is between the two (`Inv`), and the interrupt passes its test only then
(`interrupt_only_in_wait`).
-/

namespace HmBoard

open Lib Fw

variable {F B P α β : Type}

/-- An access that neither stores to `sampling` nor waits for it. -/
def Op.Plain : Op B P → Prop
  | .setSampling _ | .waitSampling => False
  | _ => True

/-- An access the monitor does not notice. -/
def Op.Neutral : Op B P → Prop
  | .bufSet _ _ | .csLow | .csHigh | .adcStart | .adcWait | .adcRes => False
  | .setSampling _ | .waitSampling => False
  | _ => True

theorem Op.Neutral.plain {o : Op B P} (h : o.Neutral) : o.Plain := by
  cases o <;> trivial

theorem Op.Neutral.next {o : Op B P} (h : o.Neutral) (m : Monitor) : m.next o = m := by
  cases o <;> first | rfl | exact h.elim

/-! ## Flows -/

structure Flow (I K : Monitor → Prop) (p : Fw B P α) : Prop where
  watch : ∀ m, I m → Prog.Watch (fun m o _ => m.next o) (fun _ o => o.Plain) K p m

variable {I J K : Monitor → Prop}

theorem Flow.ret (a : α) : Flow I I (.ret a : Fw B P α) := ⟨fun _ h => h⟩

theorem Flow.bind {p : Fw B P α} {f : α → Fw B P β} (hp : Flow I J p)
    (hf : ∀ a, Flow J K (f a)) : Flow I K (p.bind f) :=
  ⟨fun m hm => Prog.Watch.bind (hp.watch m hm) fun a m' h => (hf a).watch m' h⟩

theorem Flow.call {o : Op B P} (ho : o.Plain) (h : ∀ m, I m → K (m.next o)) :
    Flow I K (Prog.call o : Fw B P o.Res) := ⟨fun m hm => ⟨ho, fun _ => h m hm⟩⟩

theorem Flow.neutral {o : Op B P} (ho : o.Neutral) : Flow I I (Prog.call o : Fw B P o.Res) :=
  Flow.call ho.plain fun m hm => by rwa [ho.next m]

theorem Flow.skip {o : Op B P} {f : o.Res → Fw B P α} (ho : o.Neutral)
    (hf : ∀ r, Flow I K (f r)) : Flow I K ((Prog.call o).bind f) :=
  (Flow.neutral ho).bind hf

theorem Flow.compositional : Prog.Compositional fun _ (p : Fw B P _) => Flow I I p :=
  ⟨Flow.ret, Flow.bind⟩

theorem Flow.loop {τ : Type} {body : Nat → τ → Fw B P τ} (h : ∀ i x, Flow I I (body i x))
    (x : τ) (n : Nat) : Flow I I (Prog.loop body x n) :=
  Flow.compositional.loop x fun i _ => h i

theorem Flow.forTo {body : Nat → Fw B P Unit} (h : ∀ i, Flow I I (body i)) (n : Nat) :
    Flow I I (Prog.forTo n body) :=
  Flow.compositional.forTo fun i _ => h i

/-- Opens and closes its SPI and ADC calls itself. -/
abbrev Tidy (p : Fw B P α) : Prop := Flow Monitor.Closed Monitor.Closed p

/-- Inside an SPI call. -/
def Monitor.Open (m : Monitor) : Prop := m.spi = true ∧ m.adc % 12 = 0

/-! ## The SPI calls and the ADC -/

theorem open_bufSet (i : Nat) (b : B) : Flow Monitor.Open Monitor.Open (bufSet i b : Fw B P Unit) :=
  Flow.call trivial fun _ h => ⟨rfl, h.2⟩

theorem open_csLow : Flow Monitor.Open Monitor.Open (csLow : Fw B P Unit) :=
  Flow.call trivial fun _ h => ⟨rfl, h.2⟩

theorem close_csHigh : Flow Monitor.Open Monitor.Closed (csHigh : Fw B P Unit) :=
  Flow.call trivial fun _ h => ⟨rfl, h.2⟩

theorem open_spiWritePacket (n : Nat) :
    Flow Monitor.Open Monitor.Open (spiWritePacket n : Fw B P Unit) := by
  refine Flow.forTo (fun i => ?_) n
  exact .skip trivial fun _ => .skip trivial fun _ => .ret ()

theorem flow_bufCopyOut (n : Nat) : Flow I I (bufCopyOut n : Fw B P (List B)) := by
  refine Flow.loop (fun i bs => ?_) [] n
  exact .skip trivial fun _ => .ret _

theorem tidy_adcaReadCh0 : Tidy (adcaReadCh0 : Fw B P Nat) := by
  refine Flow.bind (J := Monitor.Closed) ?_ fun _ => Flow.ret _
  constructor
  intro m hm
  -- three accesses for each of the four conversions
  refine Prog.Watch.loop (fun i (m : Monitor) => m.spi = false ∧ m.adc % 12 = 3 * i % 12)
    ⟨hm.1, hm.2⟩ 4 fun i _ sum m h => ?_
  refine ⟨trivial, fun _ => ⟨trivial, fun _ => ⟨trivial, fun r => ⟨h.1, ?_⟩⟩⟩⟩
  have := h.2
  simp only [Monitor.next]
  omega

variable [Cell B] [FloatFormat F B]

theorem open_bufCommand (op : UInt8) (address : Nat) :
    Flow Monitor.Closed Monitor.Open (bufCommand op address : Fw B P Unit) :=
  (Flow.call trivial fun _ h => ⟨rfl, h.2⟩ : Flow _ _ (bufSet 0 _)).bind fun _ =>
    (open_bufSet 1 _).bind fun _ => (open_bufSet 2 _).bind fun _ => open_bufSet 3 _

theorem open_spiReadPacket (n : Nat) :
    Flow Monitor.Open Monitor.Open (spiReadPacket n : Fw B P Unit) := by
  refine Flow.forTo (fun i => ?_) n
  exact .skip trivial fun b => open_bufSet i b

theorem open_bufCopyIn (bs : List B) :
    Flow Monitor.Open Monitor.Open (bufCopyIn bs : Fw B P Unit) :=
  Flow.forTo (fun i => open_bufSet i _) bs.length

theorem tidy_spiMemWriteWord (address data : Nat) :
    Tidy (spiMemWriteWord address data : Fw B P Unit) :=
  (open_bufCommand _ address).bind fun _ => (open_bufSet 4 _).bind fun _ =>
    (open_bufSet 5 _).bind fun _ => open_csLow.bind fun _ =>
      (open_spiWritePacket 6).bind fun _ => close_csHigh

theorem tidy_spiMemWriteComplex (address : Nat) (data : Complex F) :
    Tidy (spiMemWriteComplex address data : Fw B P Unit) :=
  (open_bufCommand _ address).bind fun _ => open_csLow.bind fun _ =>
    (open_spiWritePacket 4).bind fun _ => (open_bufCopyIn _).bind fun _ =>
      (open_spiWritePacket 8).bind fun _ => close_csHigh

theorem tidy_spiMemReadWord (address : Nat) : Tidy (spiMemReadWord address : Fw B P Nat) :=
  (open_bufCommand _ address).bind fun _ => open_csLow.bind fun _ =>
    (open_spiWritePacket 4).bind fun _ => (open_spiReadPacket 2).bind fun _ =>
      close_csHigh.bind fun _ => .skip trivial fun _ => .skip trivial fun _ => .ret _

theorem tidy_spiMemReadComplex (address : Nat) :
    Tidy (spiMemReadComplex address : Fw B P (Complex F)) :=
  (open_bufCommand _ address).bind fun _ => open_csLow.bind fun _ =>
    (open_spiWritePacket 4).bind fun _ => (open_spiReadPacket 8).bind fun _ =>
      close_csHigh.bind fun _ => (flow_bufCopyOut 8).bind fun _ => .ret _

/-! ## The handlers -/

omit [Cell B] in
theorem tidy_reply (out inPacket : P) (msg : List UInt8) (timeout : Nat) :
    Tidy (reply out inPacket msg timeout : Fw B P Int) :=
  Flow.skip trivial fun _ => Flow.skip trivial fun _ => Flow.skip trivial fun _ => Flow.neutral trivial

omit [Cell B] in
theorem tidy_toggleOnSuccess (r : Int) : Tidy (toggleOnSuccess r : Fw B P Unit) := by
  unfold toggleOnSuccess
  by_cases h : r = cspErrNone
  · rw [if_pos h]; exact Flow.neutral trivial
  · rw [if_neg h]; exact Flow.ret ()

theorem tidy_decimateAndStore (N : Nat) (bitrev : Nat → Nat) :
    Tidy (decimateAndStore (F := F) N bitrev : Fw B P Unit) :=
  compositional_decimateAndStore Flow.compositional tidy_spiMemReadWord
    (tidy_spiMemWriteComplex (F := F)) N bitrev

theorem tidy_fftCalculate (N : Nat) (sincos : Nat → F) :
    Tidy (fftCalculate N sincos : Fw B P Unit) :=
  compositional_fftCalculate Flow.compositional tidy_spiMemReadComplex tidy_spiMemWriteComplex
    N sincos

theorem tidy_calls (out inPacket : P) :
    Calls (fun _ (p : Fw B P _) => Tidy p) (fun _ => True) out inPacket where
  compositional := Flow.compositional
  device o ho := Flow.neutral (by cases o <;> first | exact ho.elim | trivial)
  readWord := tidy_spiMemReadWord
  reply msg timeout _ := tidy_reply out inPacket msg timeout

theorem tidy_sendSignal (out inPacket : P) : Tidy (sendSignal out inPacket : Fw B P Unit) :=
  (tidy_calls out inPacket).sendSignal trivial fun _ _ => trivial

theorem tidy_sendFFT (out inPacket : P) : Tidy (sendFFT F out inPacket : Fw B P Unit) :=
  (tidy_calls out inPacket).sendFFT tidy_spiMemReadComplex trivial fun _ _ => trivial

theorem tidy_sendFreeHeapSpace (out inPacket : P) :
    Tidy (sendFreeHeapSpace out inPacket : Fw B P Unit) :=
  (tidy_calls out inPacket).sendFreeHeapSpace fun _ => trivial

theorem tidy_houseKeeping (out inPacket : P) : Tidy (houseKeeping F out inPacket : Fw B P Unit) :=
  (tidy_calls out inPacket).houseKeeping tidy_spiMemReadComplex (tidy_spiMemWriteComplex 145 _)
    (tidy_spiMemWriteWord _ _) tidy_adcaReadCh0 fun _ _ => trivial

omit [Cell B] in
theorem tidy_echoBack (inPacket : P) : Tidy (echoBack inPacket : Fw B P Unit) :=
  Flow.skip trivial fun _ => Flow.skip trivial fun _ => tidy_toggleOnSuccess _

/-! ## `processAll` -/

/-- What `processAll` does after its wait. -/
def processAllCompute (sincos : Nat → F) (out inPacket : P) : Fw B P Unit := do
  powerSwitchToggle
  decimateAndStore (F := F) noPoints fun i => bitrevTable.getD i 0
  fftCalculate noPoints sincos
  powerSwitchToggle
  let _ ← reply out inPacket (lit "Sampling and computing done\n") 1000
  vTaskDelay 10

theorem tidy_processAllCompute (sincos : Nat → F) (out inPacket : P) :
    Tidy (processAllCompute sincos out inPacket : Fw B P Unit) := by
  refine Flow.skip trivial fun _ => Flow.bind (tidy_decimateAndStore _ _) fun _ => ?_
  refine Flow.bind (tidy_fftCalculate _ sincos) fun _ => ?_
  exact Flow.skip trivial fun _ => Flow.bind (tidy_reply _ _ _ _) fun _ => Flow.neutral trivial

/-- The accesses of `processAll` up to its wait. -/
def atWait (sincos : Nat → F) (out inPacket : P) : Fw B P Unit :=
  .op .waitSampling fun _ => processAllCompute sincos out inPacket

def atDelay (sincos : Nat → F) (out inPacket : P) : Fw B P Unit :=
  .op (.vTaskDelay 2000) fun _ => atWait sincos out inPacket

def atArm (sincos : Nat → F) (out inPacket : P) : Fw B P Unit :=
  .op (.setSampling true) fun _ => atDelay sincos out inPacket

theorem processAll_eq (sincos : Nat → F) (out inPacket : P) :
    (processAll sincos out inPacket : Fw B P Unit) =
      .op (.setCount 0) fun _ => atArm sincos out inPacket := rfl

/-! ## Where the task is -/

/-- Between `sampling = true` and the end of the wait. -/
def InWait (sincos : Nat → F) (out : P) (m : Monitor) (p : Fw B P Unit) : Prop :=
  m.waiting = true ∧ m.Closed ∧
    ∃ inPacket, p = atDelay sincos out inPacket ∨ p = atWait sincos out inPacket

/-- What is left of the task's handler when it is not there. -/
inductive Elsewhere (sincos : Nat → F) (out : P) (m : Monitor) : Fw B P Unit → Prop where
  | plain {p : Fw B P Unit} :
      Prog.Watch (fun m o _ => m.next o) (fun _ o => o.Plain) Monitor.Closed p m →
        Elsewhere sincos out m p
  | start (inPacket : P) : m.Closed → Elsewhere sincos out m (processAll sincos out inPacket)
  | arm (inPacket : P) : m.Closed → Elsewhere sincos out m (atArm sincos out inPacket)

/-- With nothing left to do no call is open. -/
theorem Elsewhere.closed {sincos : Nat → F} {out : P} {m : Monitor}
    (h : Elsewhere sincos out m (.ret () : Fw B P Unit)) : m.Closed := by
  generalize hp : (.ret () : Fw B P Unit) = p at h
  cases h with
  | plain hw => subst hp; exact hw
  | start q hc => exact hc
  | arm q hc => exact hc

theorem elsewhere_handle (sincos : Nat → F) (out : P) {m : Monitor} (hm : m.Closed)
    (e : CspStackEvent P) : Elsewhere sincos out m (handle sincos out e : Fw B P Unit) := by
  obtain ⟨ty, p⟩ := e
  cases ty with
  | processAllEvent => exact .start p hm
  | freeHeapEvent => exact .plain ((tidy_sendFreeHeapSpace out p).watch m hm)
  | echoBackEvent => exact .plain ((tidy_echoBack p).watch m hm)
  | housKeepingEvent => exact .plain ((tidy_houseKeeping out p).watch m hm)
  | sendSignalEvent => exact .plain ((tidy_sendSignal out p).watch m hm)
  | sendFFTEvent => exact .plain ((tidy_sendFFT out p).watch m hm)
  | sendSummaryInfoEvent | sendAttenuationEvent | other => exact .plain hm

theorem exec_sampling {o : Op B P} (ho : o.Plain) (s : Board B P) :
    (s.exec o).1.sampling = s.sampling := by
  cases o <;> first | rfl | exact ho.elim

/-- The invariant of every run from boot. -/
structure Excl (sincos : Nat → F) (out : P) (s : Sys B P) : Prop where
  task : InWait sincos out s.monitor s.main ∨ Elsewhere sincos out s.monitor s.main
  flag : s.board.sampling = true → InWait sincos out s.monitor s.main
  /-- Past its test of `sampling` the interrupt finds the task in its wait. -/
  isr : s.isr = none ∨ s.isr = some tcd0Ovf ∨ s.isr = some (.ret ()) ∨
    InWait sincos out s.monitor s.main

variable {sincos : Nat → F} {out : P}

/-- One access of the task. -/
theorem excl_main {s : Sys B P} {o : Op B P} {k : o.Res → Fw B P Unit} (h : Excl sincos out s)
    (hisr : s.isr = none) (hm : s.main = .op o k) (hspin : s.board.spins o = false) :
    Excl sincos out { s with
      board := (s.board.exec o).1, main := k (s.board.exec o).2, monitor := s.monitor.next o } := by
  by_cases hs : s.board.sampling = true
  · obtain ⟨hw, hc, q, hq | hq⟩ := h.flag hs
    · rw [hm] at hq
      cases hq
      exact ⟨.inl ⟨hw, hc, q, .inr rfl⟩, fun _ => ⟨hw, hc, q, .inr rfl⟩, .inl hisr⟩
    · rw [hm] at hq
      cases hq
      rw [Board.spins, hs] at hspin
      cases hspin
  · rcases h.task with ⟨hw, hc, q, hq | hq⟩ | he
    · rw [hm] at hq
      cases hq
      exact ⟨.inl ⟨hw, hc, q, .inr rfl⟩, fun _ => ⟨hw, hc, q, .inr rfl⟩, .inl hisr⟩
    · rw [hm] at hq
      cases hq
      exact ⟨.inr (.plain ((tidy_processAllCompute sincos out q).watch _ hc)), fun h' => absurd h' hs,
        .inl hisr⟩
    · generalize hp : s.main = p at he
      cases he with
      | plain hw =>
        rw [hp] at hm
        subst hm
        have hf : (s.board.exec o).1.sampling = s.board.sampling := exec_sampling hw.1 s.board
        exact ⟨.inr (.plain (hw.2 _)), fun h' => absurd (hf ▸ h') hs, .inl hisr⟩
      | start q hc =>
        rw [hp, processAll_eq] at hm
        cases hm
        exact ⟨.inr (.arm q hc), fun h' => absurd h' hs, .inl hisr⟩
      | arm q hc =>
        rw [hp] at hm
        cases hm
        have hw : InWait sincos out (s.monitor.next (.setSampling true : Op B P))
            (atDelay sincos out q) := ⟨rfl, hc, q, .inl rfl⟩
        exact ⟨.inl hw, fun _ => hw, .inl hisr⟩

/-- One access of the interrupt. -/
theorem excl_isr {s : Sys B P} {o : Op B P} {k : o.Res → Fw B P Unit} (h : Excl sincos out s)
    (hi : s.isr = some (.op o k)) :
    Excl sincos out { s with board := (s.board.exec o).1, isr := some (k (s.board.exec o).2) } := by
  rcases h.isr with hn | ht | hr | hw
  · rw [hn] at hi; cases hi
  · -- the test of `sampling`
    rw [ht] at hi
    have hi' : some (tcd0Ovf : Fw B P Unit) = some (.op .getSampling fun r =>
      if r = true then _ else .ret ()) := rfl
    rw [hi'] at hi
    cases hi
    refine ⟨h.task, h.flag, ?_⟩
    by_cases hs : s.board.sampling = true
    · exact .inr (.inr (.inr (h.flag hs)))
    · exact .inr (.inr (.inl (by simp [Board.exec, hs])))
  · rw [hr] at hi; cases hi
  · exact ⟨.inl hw, fun _ => hw, .inr (.inr (.inr hw))⟩

theorem excl_step {s s' : Sys B P} {l : Label P} (h : Excl sincos out s)
    (hstep : s.step sincos out l = some s') : Excl sincos out s' := by
  rcases Sys.step_cases hstep with ⟨e, -, hisr, hm, rfl⟩ | ⟨o, k, -, hisr, hm, -, rfl⟩ |
    ⟨o, k, -, hisr, hm, hspin, rfl⟩ | ⟨-, hisr, rfl⟩ | ⟨o, k, -, hi, rfl⟩ | ⟨-, hi, rfl⟩
  · -- a new event: the last handler is over, so its calls are closed
    have hnw : ¬ InWait sincos out s.monitor s.main := by
      rintro ⟨-, -, q, hq | hq⟩ <;> rw [hm] at hq <;> cases hq
    have hc : s.monitor.Closed := by
      rcases h.task with hw | he
      · exact absurd hw hnw
      · rw [hm] at he
        exact he.closed
    exact ⟨.inr (elsewhere_handle sincos out hc e), fun hs => absurd (h.flag hs) hnw, .inl hisr⟩
  · exact h
  · exact excl_main h hisr hm hspin
  · exact ⟨h.task, h.flag, .inr (.inl rfl)⟩
  · exact excl_isr h hi
  · exact ⟨h.task, h.flag, .inl rfl⟩

/-- A run of the task and the interrupt from boot, with any events. -/
def Sys.Reachable (sincos : Nat → F) (out : P) (b : Board B P) (s : Sys B P) : Prop :=
  Runs (Sys.step sincos out) anyStep (Sys.boot b) s

theorem excl_reachable {b : Board B P} (hb : b.sampling = false) {s : Sys B P}
    (h : Sys.Reachable sincos out b s) : Excl sincos out s := by
  have hc : (Sys.boot b).monitor.Closed := ⟨rfl, rfl⟩
  have h0 : Excl sincos out (Sys.boot b) :=
    ⟨.inr (.plain hc), fun hs => absurd (hb.symm.trans hs) (by decide), .inl rfl⟩
  exact h.inv h0 fun s l s' hs _ => excl_step hs

/-- **Exclusion.** Whenever the interrupt is about to access the memory chip, its buffer or the
ADC, the task is in `processAll` between setting `sampling` and leaving the wait, in no SPI call
and in no ADC conversion. -/
theorem interrupt_only_in_wait {b : Board B P} (hb : b.sampling = false) {s : Sys B P}
    (h : Sys.Reachable sincos out b s) {o : Op B P} {k : o.Res → Fw B P Unit}
    (hi : s.isr = some (.op o k)) (ho : o.Traffic) :
    InWait sincos out s.monitor s.main := by
  rcases (excl_reachable hb h).isr with hn | ht | hr | hw
  · rw [hn] at hi; cases hi
  · rw [ht] at hi
    cases hi
    exact ho.elim
  · rw [hr] at hi; cases hi
  · exact hw

/-- Such a state: `processAll` has just set the flag and the interrupt starts a conversion. -/
theorem interrupt_samples_in_wait :
    ∃ (s : Sys ExactCell Unit) (k : Unit → Fw ExactCell Unit Unit),
      s.isr = some (.op .adcStart k) ∧ InWait exactSincos () s.monitor s.main := by
  have hrun : Sys.Reachable exactSincos () (Board.rest fun _ => byte 0 : Board ExactCell Unit) _ :=
    Runs.of_labels [.event ⟨.processAllEvent, ()⟩, .main, .main, .irq, .isr] rfl
  exact ⟨_, _, rfl, interrupt_only_in_wait rfl hrun rfl trivial⟩

end HmBoard
