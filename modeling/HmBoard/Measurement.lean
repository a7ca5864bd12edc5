import HmBoard.FftProofs
import HmBoard.Sampling

/-!
# What happens to a stored measurement

The signal, the spectrum and the offset of a completed measurement (`Measured`) against the later
events. All handlers but `processAll` and `houseKeeping` leave every cell of the memory alone
(`touches_…`), and the interrupt does nothing while `sampling` is false; so without those two events
a measurement survives (`measurement_survives`). `houseKeeping` tests the memory with a complex number
at 145 and the word 7442 at 0x789, both inside the signal (`measurement_damaged`).
-/

namespace HmBoard

open Lib Fw
open Lib.Prog (run)
open Board (exec)

variable {F B P α : Type} [Cell B] [FloatFormat F B]

/-- The cells of a measurement. -/
def Measured (x : Nat) : Prop :=
  (memSignalBegin ≤ x ∧ x < memSignalBegin + 2 * memSignalLength) ∨
    (memFftBegin ≤ x ∧ x < memFftBegin + 8 * noPoints) ∨
    (memSignalOffset ≤ x ∧ x < memSignalOffset + 2)

/-! ## Handlers that store nothing -/

variable {R : Nat → Prop}

omit [Cell B] in
theorem aside_reply (out inPacket : P) (msg : List UInt8) (timeout : Nat) :
    (reply out inPacket msg timeout : Fw B P Int).All Op.Aside :=
  ⟨trivial, fun _ => ⟨trivial, fun _ => ⟨trivial, fun _ => ⟨trivial, fun _ => trivial⟩⟩⟩⟩

omit [Cell B] in
theorem aside_toggleOnSuccess (r : Int) : (toggleOnSuccess r : Fw B P Unit).All Op.Aside := by
  unfold toggleOnSuccess
  split
  · exact ⟨trivial, fun _ => trivial⟩
  · trivial

/-- An access on the side, and the rest. -/
theorem Touches.skip {o : Op B P} {f : o.Res → Fw B P α} (ho : o.Aside)
    (hf : ∀ r, Touches R (f r)) : Touches R ((Prog.call o).bind f) :=
  (Touches.aside ((Prog.all_call o).2 ho)).bind hf

theorem Touches.one {o : Op B P} (ho : o.Aside) : Touches R (Prog.call o : Fw B P o.Res) :=
  Touches.aside ((Prog.all_call o).2 ho)

theorem touches_reply (out inPacket : P) (msg : List UInt8) (timeout : Nat) :
    Touches R (reply out inPacket msg timeout : Fw B P Int) := Touches.aside (aside_reply ..)

theorem touches_calls (out inPacket : P) :
    Calls (fun _ (p : Fw B P _) => Touches R p) (fun _ => True) out inPacket where
  compositional := Touches.compositional
  device o ho := Touches.one (by cases o <;> first | exact ho.elim | trivial)
  readWord := touches_spiMemReadWord
  reply msg timeout _ := touches_reply out inPacket msg timeout

theorem touches_sendSignal (out inPacket : P) :
    Touches R (sendSignal out inPacket : Fw B P Unit) :=
  (touches_calls out inPacket).sendSignal trivial fun _ _ => trivial

theorem touches_sendFFT (out inPacket : P) : Touches R (sendFFT F out inPacket : Fw B P Unit) :=
  (touches_calls out inPacket).sendFFT touches_spiMemReadComplex trivial fun _ _ => trivial

theorem touches_sendFreeHeapSpace (out inPacket : P) :
    Touches R (sendFreeHeapSpace out inPacket : Fw B P Unit) :=
  (touches_calls out inPacket).sendFreeHeapSpace fun _ => trivial

theorem touches_echoBack (inPacket : P) : Touches R (echoBack inPacket : Fw B P Unit) :=
  Touches.skip trivial fun _ => Touches.skip trivial fun _ =>
    Touches.aside (aside_toggleOnSuccess _)

/-- Everything but a measurement and the self test. -/
theorem touches_handle (sincos : Nat → F) (out : P) (e : CspStackEvent P)
    (h1 : e.eEventType ≠ .processAllEvent) (h2 : e.eEventType ≠ .housKeepingEvent) :
    Touches R (handle sincos out e : Fw B P Unit) := by
  obtain ⟨ty, p⟩ := e
  cases ty with
  | processAllEvent => exact absurd rfl h1
  | housKeepingEvent => exact absurd rfl h2
  | freeHeapEvent => exact touches_sendFreeHeapSpace out p
  | echoBackEvent => exact touches_echoBack p
  | sendSignalEvent => exact touches_sendSignal out p
  | sendFFTEvent => exact touches_sendFFT out p
  | sendSummaryInfoEvent | sendAttenuationEvent | other => exact Touches.ret ()

/-! ## Between measurements -/

variable {sincos : Nat → F} {out : P}

omit [FloatFormat F B] in
theorem exec_idle {o : Op B P} (ho : o ≠ .csLow) (s : Board B P) (hs : s.chip.phase = .idle) :
    (s.exec o).1.chip.phase = .idle := by
  cases o with
  | csLow => exact absurd rfl ho
  | spiXfer b => simp only [exec, Chip.xfer, hs]
  | csHigh => rfl
  | _ => exact hs

theorem idle_tcd0Ovf (s : Board B P) (hs : s.chip.phase = .idle) :
    (run exec tcd0Ovf s).1.chip.phase = .idle := by
  by_cases hsam : s.sampling = true
  · obtain ⟨buf, e⟩ := run_tcd0Ovf s hsam hs
    rw [e, Board.sampled]
    split <;> rfl
  · simp only [tcd0Ovf, Prog.bind_eq, Prog.call_bind, Prog.run_op, exec, hsam]
    exact hs

/-- Outside of SPI calls the chip is deselected, or will be when the interrupt is through. -/
structure Deselected (sincos : Nat → F) (out : P) (s : Sys B P) : Prop where
  none : s.isr = none → s.board.chip.phase = .idle
  some : ∀ p, s.isr = some p → (run exec p s.board).1.chip.phase = .idle
  rest : ¬ InWait sincos out s.monitor s.main → s.board.chip.phase = .idle

theorem Deselected.of_idle {s : Sys B P} (h : s.board.chip.phase = .idle)
    (hi : s.isr = .none ∨ s.isr = .some tcd0Ovf) : Deselected sincos out s := by
  refine ⟨fun _ => h, fun p hp => ?_, fun _ => h⟩
  rcases hi with hi | hi <;> rw [hi] at hp <;> cases hp
  exact idle_tcd0Ovf s.board h

theorem deselected_step {s s' : Sys B P} {l : Label P} (he : Excl sincos out s)
    (h : s.monitor.spi = false → Deselected sincos out s) (hstep : s.step sincos out l = some s') :
    s'.monitor.spi = false → Deselected sincos out s' := by
  intro hspi
  rcases Sys.step_cases hstep with ⟨e, -, hisr, hm, rfl⟩ | ⟨o, k, -, hisr, hm, -, rfl⟩ |
    ⟨o, k, -, hisr, hm, -, rfl⟩ | ⟨-, hisr, rfl⟩ | ⟨o, k, -, hi, rfl⟩ | ⟨-, hi, rfl⟩
  · exact .of_idle ((h hspi).none hisr) (.inl hisr)
  · exact h hspi
  · refine .of_idle ?_ (.inl hisr)
    -- an access that leaves no SPI call open ends one or was outside of one
    by_cases hhigh : o = .csHigh
    · subst hhigh; rfl
    · have hpre : s.monitor.spi = false ∧ o ≠ .csLow := by
        cases o <;> first | exact absurd rfl hhigh | exact ⟨hspi, by simp⟩ | cases hspi
      exact exec_idle hpre.2 s.board ((h hpre.1).none hisr)
  · exact .of_idle ((h hspi).none hisr) (.inr rfl)
  · obtain ⟨h1, h2, h3⟩ := h hspi
    refine ⟨fun hn => absurd hn (by simp), fun p hp => ?_, fun hnw => ?_⟩
    · cases hp
      exact h2 _ hi
    · rcases he.isr with hn | ht | hr | hw
      · rw [hn] at hi; cases hi
      · rw [ht] at hi
        cases hi
        exact h3 hnw
      · rw [hr] at hi; cases hi
      · exact absurd hw hnw
  · have hend : s.board.chip.phase = .idle := (h hspi).some _ hi
    exact .of_idle hend (.inl rfl)

theorem deselected_reachable {b : Board B P} (hb : b.sampling = false)
    (hidle : b.chip.phase = .idle) {s : Sys B P} (h : Sys.Reachable sincos out b s) :
    Excl sincos out s ∧ (s.monitor.spi = false → Deselected sincos out s) := by
  have h0 : Excl sincos out (Sys.boot b) := excl_reachable hb (Runs.refl _)
  have h1 : Deselected sincos out (Sys.boot b) := .of_idle hidle (.inl rfl)
  refine ⟨excl_reachable hb h, (h.inv (I := fun s => Excl sincos out s ∧
    (s.monitor.spi = false → Deselected sincos out s)) ⟨h0, fun _ => h1⟩ ?_).2⟩
  intro s l s' hs _ hstep
  exact ⟨excl_step hs.1 hstep, deselected_step hs.1 hs.2 hstep⟩

/-- The task waits for an event and no measurement is running: the interrupt has nothing to do. -/
structure AtRest (s : Sys B P) : Prop where
  main : s.main = .ret ()
  sampling : s.board.sampling = false
  chip : s.board.chip.phase = .idle
  isr : s.isr = none ∨ s.isr = some tcd0Ovf ∨ s.isr = some (.ret ())

/-- Every reachable state in which the task waits for an event is such a state. -/
theorem atRest_of_reachable {b : Board B P} (hb : b.sampling = false)
    (hidle : b.chip.phase = .idle) {s : Sys B P} (h : Sys.Reachable sincos out b s)
    (hm : s.main = .ret ()) : AtRest s := by
  obtain ⟨he, hd⟩ := deselected_reachable hb hidle h
  have hnw : ¬ InWait sincos out s.monitor s.main := by
    rintro ⟨-, -, q, hq | hq⟩ <;> rw [hm] at hq <;> cases hq
  have hc : s.monitor.Closed := by
    rcases he.task with hw | hw
    · exact absurd hw hnw
    · rw [hm] at hw
      exact hw.closed
  refine ⟨hm, ?_, (hd hc.1).rest hnw, ?_⟩
  · cases hs : s.board.sampling
    · rfl
    · exact absurd (he.flag hs) hnw
  · rcases he.isr with hi | hi | hi | hi
    · exact .inl hi
    · exact .inr (.inl hi)
    · exact .inr (.inr hi)
    · exact absurd hi hnw

/-! ## Runs without a measurement -/

/-- In a run from rest whose handlers keep to `R`. -/
structure Still (R : Nat → Prop) (b : Board B P) (s : Sys B P) : Prop where
  isr : s.isr = none ∨ s.isr = some tcd0Ovf ∨ s.isr = some (.ret ())
  task : Prog.Always exec (b.Kept R) s.main s.board
  chip : (run exec s.main s.board).1.chip.phase = .idle

theorem still_step {b : Board B P} (hb : b.sampling = false) {s s' : Sys B P} {l : Label P}
    (hR : ∀ e, l = .event e → Touches R (handle sincos out e : Fw B P Unit)) (h : Still R b s)
    (hstep : s.step sincos out l = some s') : Still R b s' := by
  have hs : s.board.sampling = false := h.task.here.1.trans hb
  rcases Sys.step_cases hstep with ⟨e, hl, hisr, hm, rfl⟩ | ⟨o, k, -, hisr, hm, -, rfl⟩ |
    ⟨o, k, -, hisr, hm, -, rfl⟩ | ⟨-, hisr, rfl⟩ | ⟨o, k, -, hi, rfl⟩ | ⟨-, hi, rfl⟩
  · have hc := h.chip
    rw [hm] at hc
    obtain ⟨h1, h2⟩ := hR e hl s.board hc
    exact ⟨.inl hisr, h1.mono fun _ h' => h.task.here.trans h', h2⟩
  · exact h
  · have ht := h.task
    have hc := h.chip
    rw [hm] at ht hc
    exact ⟨.inl hisr, ht.2, hc⟩
  · exact ⟨.inr (.inl rfl), h.task, h.chip⟩
  · -- the interrupt finds `sampling` false
    rcases h.isr with hn | ht | hr
    · rw [hn] at hi; cases hi
    · rw [ht] at hi
      cases hi
      have hk : (if s.board.sampling = true then takeSample else pure () : Fw B P Unit) = .ret () := by
        rw [hs]; rfl
      exact ⟨.inr (.inr (congrArg some hk)), h.task, h.chip⟩
    · rw [hr] at hi; cases hi
  · exact ⟨.inl rfl, h.task, h.chip⟩

/-- The run lemma: cells outside `R` are unchanged in every state reached. -/
theorem still_run {G : Sys B P → Label P → Prop}
    (hR : ∀ s e, G s (.event e) → Touches R (handle sincos out e : Fw B P Unit)) {s s' : Sys B P}
    (hs : AtRest s) (h : Runs (Sys.step sincos out) G s s') {x : Nat} (hx : ¬ R x) :
    s'.board.chip.mem x = s.board.chip.mem x := by
  have h0 : Still R s.board s :=
    ⟨hs.isr, by rw [hs.main]; exact .refl s.board, by rw [hs.main]; exact hs.chip⟩
  have hinv : Still R s.board s' := h.inv h0 fun s l s' hi hG hstep =>
    still_step hs.sampling (fun e hl => hR s e (hl ▸ hG)) hi hstep
  exact hinv.task.here.2 x hx

/-- `processAll` has been handled, and `mainTask` waits for the next event. -/
def Completed (sincos : Nat → F) (out : P) (b : Board B P) (s : Sys B P) : Prop :=
  Sys.Reachable sincos out b s ∧ s.main = .ret () ∧ .processAllEvent ∈ s.handled

/-- No cell of the measurement has changed. -/
def Survives (s s' : Sys B P) : Prop :=
  ∀ x, Measured x → s'.board.chip.mem x = s.board.chip.mem x

/-- **Survival.** After a measurement and until the next, as long as no housekeeping event is
handled, every cell of it is unchanged in every state, within handlers and interrupts too. -/
theorem measurement_survives {b : Board B P} (hb : b.sampling = false)
    (hidle : b.chip.phase = .idle) {s s' : Sys B P} (hs : Completed sincos out b s)
    (h : Runs (Sys.step sincos out) (fun _ l => ∀ e, l = .event e →
      e.eEventType ≠ .processAllEvent ∧ e.eEventType ≠ .housKeepingEvent) s s') : Survives s s' :=
  fun _ _ => still_run (R := fun _ => False)
    (fun _ e hG => touches_handle sincos out e (hG e rfl).1 (hG e rfl).2)
    (atRest_of_reachable hb hidle hs.1 hs.2.1) h id

/-! ## A measurement of silence -/

/-- Memory and world all zero: what the samples leave as it is. -/
def zeroes : Mem B := fun _ => byte 0

theorem write_zeroes (a : Nat) (n : Nat) :
    (zeroes : Mem B).write a (List.replicate n (byte 0)) = zeroes := by
  funext x
  unfold Mem.write zeroes
  split
  · by_cases h : x - a < n <;> simp [h]
  · rfl

theorem wordCells_zero : (wordCells 0 : List B) = List.replicate 2 (byte 0) := rfl

/-- `n` samples of silence have been taken. -/
structure Silence (sincos : Nat → F) (out q : P) (n : Nat) (s : Sys B P) : Prop where
  main : s.main = atDelay sincos out q
  isr : s.isr = none
  handled : s.handled = [.processAllEvent]
  chip : s.board.chip = ⟨zeroes, .idle⟩
  sampling : s.board.sampling = true
  count : s.board.count = n
  offset : s.board.offset = 0
  env : s.board.env = quiet

theorem silence_step {q : P} {n : Nat} (hn : n + 1 < 2048) {s : Sys B P}
    (h : Silence sincos out q n s) :
    ∃ s', Runs (Sys.step sincos out) anyStep s s' ∧ Silence sincos out q (n + 1) s' := by
  obtain ⟨buf, e⟩ := run_tcd0Ovf s.board h.sampling (by rw [h.chip])
  have hirq : s.step sincos out .irq = some { s with isr := some tcd0Ovf } := by
    simp [Sys.step, h.isr]
  refine ⟨_, (Runs.step_one trivial hirq).trans (runs_isr (fun _ => trivial) _ _ rfl), ?_⟩
  have hc : ¬ u16 (n + 1) = memSignalLength := by
    rw [u16_of_lt (by omega)]; unfold memSignalLength; omega
  have hz : i16 (adcResult s.board : Nat) = 0 := by rw [adcResult_quiet _ h.env]; decide
  simp only [e, hz, Board.sampled, h.count, if_neg hc, sampleMem, h.chip]
  refine ⟨h.main, rfl, h.handled, ?_, h.sampling, u16_of_lt (by omega), ?_, h.env⟩
  · rw [show toU16 0 = 0 from rfl, wordCells_zero, write_zeroes]
  · rw [h.offset]; rfl

theorem silence_last {q : P} {s : Sys B P} (h : Silence sincos out q 2047 s) :
    ∃ s', Runs (Sys.step sincos out) anyStep s s' ∧ s'.main = atDelay sincos out q ∧
      s'.isr = none ∧ s'.handled = [.processAllEvent] ∧ s'.board.sampling = false ∧
      s'.board.chip = ⟨zeroes, .idle⟩ := by
  obtain ⟨buf, e⟩ := run_tcd0Ovf s.board h.sampling (by rw [h.chip])
  have hirq : s.step sincos out .irq = some { s with isr := some tcd0Ovf } := by
    simp [Sys.step, h.isr]
  refine ⟨_, (Runs.step_one trivial hirq).trans (runs_isr (fun _ => trivial) _ _ rfl), ?_⟩
  have hc : u16 (2047 + 1) = memSignalLength := by decide
  have hz : i16 (adcResult s.board : Nat) = 0 := by rw [adcResult_quiet _ h.env]; decide
  have ho : toU16 ((i32 (0 + 0)).tdiv memSignalLength) = 0 := by decide
  simp only [e, hz, Board.sampled, h.count, if_pos hc, sampleMem, h.chip, h.offset, ho]
  refine ⟨h.main, trivial, h.handled, trivial, ?_⟩
  rw [show toU16 0 = 0 from rfl, wordCells_zero, write_zeroes, write_zeroes]

/-- What `processAll` computes after its wait. -/
theorem effect_processAllCompute (q : P) :
    Effect (processAllCompute sincos out q : Fw B P Unit) fun m =>
      fftMem sincos 9 (decimateMem (F := F) noPoints (fun i => bitrevTable.getD i 0) m) := by
  have hdec := (computes_decimateAndStore (F := F) (B := B) (P := P) (by decide)
    fun _ => bitrevTable_lt).effect
  have hfft := (computes_fftCalculate (B := B) (P := P) (L := 9) (by decide) sincos).effect
  have htoggle : Effect (powerSwitchToggle : Fw B P Unit) id := .aside ((Prog.all_call _).2 trivial)
  have hend : Effect (reply out q (lit "Sampling and computing done\n") 1000 >>=
      fun _ => vTaskDelay 10 : Fw B P Unit) id :=
    .aside ((aside_reply ..).bind fun _ => (Prog.all_call _).2 trivial)
  exact htoggle.bind fun _ => hdec.bind fun _ => hfft.bind fun _ => htoggle.bind fun _ => hend

/-- Once `sampling` is false the wait ends and `processAll` runs to its end. -/
theorem runs_processAll {q : P} {s : Sys B P} (hm : s.main = atDelay sincos out q)
    (hi : s.isr = none) (hs : s.board.sampling = false) (hc : s.board.chip.phase = .idle) :
    ∃ s', Runs (Sys.step sincos out) anyStep s s' ∧ s'.main = .ret () ∧ s'.isr = none ∧
      s'.handled = s.handled ∧ s'.board.chip = ⟨fftMem sincos 9
        (decimateMem (F := F) noPoints (fun i => bitrevTable.getD i 0) s.board.chip.mem), .idle⟩ := by
  have h1 : s.step sincos out .main = some { s with
      board := { s.board with now := s.board.now + 1 }, main := atWait sincos out q } := by
    simp only [Sys.step, hi, hm]; rfl
  have h2 : Sys.step sincos out { s with
      board := { s.board with now := s.board.now + 1 }, main := atWait sincos out q } .main =
      some { s with
        board := { s.board with now := s.board.now + 1 }, main := processAllCompute sincos out q
        monitor := { s.monitor with waiting := false } } := by
    simp only [Sys.step, hi, atWait, Board.spins, hs]; rfl
  obtain ⟨m, h3⟩ := runs_main sincos out (G := anyStep) (fun _ => trivial)
    (processAllCompute sincos out q) { s with
      board := { s.board with now := s.board.now + 1 }, main := processAllCompute sincos out q
      monitor := { s.monitor with waiting := false } } hi rfl
    (((tidy_processAllCompute sincos out q).watch ⟨false, false, 0⟩ ⟨rfl, rfl⟩).all fun _ _ h => h)
  refine ⟨_, (Runs.step_one trivial h1).trans ((Runs.step_one trivial h2).trans h3), rfl, hi, rfl, ?_⟩
  exact effect_processAllCompute q _ hc

/-- From boot on a zero memory: a measurement of silence, complete. -/
theorem silence_completed (sincos : Nat → F) (out q : P) :
    ∃ s, Completed sincos out (Board.rest zeroes : Board B P) s ∧ s.isr = none ∧
      s.board.chip.phase = .idle ∧ ∀ x < memFftBegin, s.board.chip.mem x = byte 0 := by
  -- the event and the two assignments before the wait
  have hstart : ∃ s, Runs (Sys.step sincos out) anyStep (Sys.boot (Board.rest zeroes)) s ∧
      Silence sincos out q 0 s :=
    ⟨_, Runs.of_labels [.event ⟨.processAllEvent, q⟩, .main, .main] rfl,
      rfl, rfl, rfl, rfl, rfl, rfl, rfl, rfl⟩
  have hsamples : ∀ n < 2048, ∃ s, Runs (Sys.step sincos out) anyStep
      (Sys.boot (Board.rest zeroes)) s ∧ Silence sincos out q n s := by
    intro n hn
    induction n with
    | zero => exact hstart
    | succ n ih =>
      obtain ⟨s, h, hs⟩ := ih (by omega)
      obtain ⟨s', h', hs'⟩ := silence_step hn hs
      exact ⟨s', h.trans h', hs'⟩
  obtain ⟨s, h, hs⟩ := hsamples 2047 (by omega)
  obtain ⟨s₁, h₁, hm, hi, hev, hsam, hc⟩ := silence_last hs
  obtain ⟨s₂, h₂, hm₂, hi₂, hev₂, hc₂⟩ := runs_processAll hm hi hsam (by rw [hc])
  refine ⟨s₂, ⟨h.trans (h₁.trans h₂), hm₂, ?_⟩, hi₂, by rw [hc₂], fun x hx => ?_⟩
  · rw [hev₂, hev]; exact List.mem_singleton.2 rfl
  · rw [hc₂, hc]
    exact (keepsBelow_fftMem sincos 9 _ x hx).trans (keepsBelow_decimateMem _ _ _ x hx)

variable (sincos out) in
/-- An event between two handlers, handled to the end without an interrupt. -/
theorem runs_event {G : Sys B P → Label P → Prop} (hG : ∀ s, G s .main) {s : Sys B P}
    (hm : s.main = .ret ()) (hi : s.isr = none) (e : CspStackEvent P) (he : G s (.event e))
    (htidy : Tidy (handle sincos out e : Fw B P Unit)) :
    ∃ s', Runs (Sys.step sincos out) G s s' ∧ s'.main = .ret () ∧ s'.isr = none ∧
      s'.handled = e.eEventType :: s.handled ∧
      s'.board = (run exec (handle sincos out e) s.board).1 := by
  have hev : s.step sincos out (.event e) = some { s with
      main := handle sincos out e, handled := e.eEventType :: s.handled } := by
    simp only [Sys.step, hi, hm]
  obtain ⟨m, h⟩ := runs_main sincos out hG (handle sincos out e) { s with
    main := handle sincos out e, handled := e.eEventType :: s.handled } hi rfl
    ((htidy.watch ⟨false, false, 0⟩ ⟨rfl, rfl⟩).all fun _ _ h => h)
  exact ⟨_, (Runs.step_one he hev).trans h, rfl, hi, rfl, rfl⟩

/-- Such a run: after the measurement of silence an echo is sent, and the signal downloaded. -/
theorem silence_survives_echo :
    ∃ s s' : Sys ExactCell Unit, Completed exactSincos () (Board.rest zeroes) s ∧
      s'.handled = .sendSignalEvent :: .echoBackEvent :: s.handled ∧ s'.main = .ret () ∧
      Survives s s' := by
  obtain ⟨s, hs, hi, -⟩ := silence_completed (B := ExactCell) exactSincos () ()
  let G : Sys ExactCell Unit → Label Unit → Prop := fun _ l => ∀ e, l = .event e →
    e.eEventType ≠ .processAllEvent ∧ e.eEventType ≠ .housKeepingEvent
  have hmain : ∀ s, G s .main := fun _ _ he => absurd he (by simp)
  have hguard : ∀ (s : Sys ExactCell Unit) (ty : EventType), ty ≠ .processAllEvent →
      ty ≠ .housKeepingEvent → G s (.event ⟨ty, ()⟩) := by
    rintro s ty h1 h2 e he
    cases he
    exact ⟨h1, h2⟩
  obtain ⟨s₁, h₁, hm₁, hi₁, hev₁, -⟩ := runs_event exactSincos () hmain hs.2.1 hi
    ⟨.echoBackEvent, ()⟩ (hguard s _ (by decide) (by decide)) (tidy_echoBack ())
  obtain ⟨s₂, h₂, hm₂, -, hev₂, -⟩ := runs_event exactSincos () hmain hm₁ hi₁
    ⟨.sendSignalEvent, ()⟩ (hguard s₁ _ (by decide) (by decide)) (tidy_sendSignal () ())
  exact ⟨s, s₂, hs, by rw [hev₂, hev₁], hm₂, measurement_survives rfl rfl hs (h₁.trans h₂)⟩

/-! ## The self test of `houseKeeping` -/

/-- The cells it stores to: eight from 145 on and two from 0x789 on. -/
def SelfTest (x : Nat) : Prop := Cells 145 8 x ∨ Cells 0x789 2 x

theorem touches_houseKeeping (q : P) :
    Touches SelfTest (houseKeeping F out q : Fw B P Unit) := by
  have hconv : ∀ sum, (adcConversion sum : Fw B P Int).All Op.Aside := fun _ =>
    ⟨trivial, fun _ => ⟨trivial, fun _ => ⟨trivial, fun _ => trivial⟩⟩⟩
  have hadc : Touches SelfTest (adcaReadCh0 : Fw B P Nat) :=
    .aside ((Prog.All.loop (fun _ => hconv) 4).bind fun _ => trivial)
  have hcomplex : Touches SelfTest
      (spiMemWriteComplex 145 (houseKeepingCislo : Complex F) : Fw B P Unit) :=
    (touches_spiMemWriteComplex 145 _).mono fun _ => .inl
  have hword : Touches SelfTest (spiMemWriteWord 0x789 houseKeepingAa : Fw B P Unit) :=
    (touches_spiMemWriteWord 0x789 _).mono fun _ => .inr
  exact (touches_calls out q).houseKeeping touches_spiMemReadComplex hcomplex hword hadc
    fun _ _ => trivial

/-- It is the only damage: with housekeeping requests in the run, all other cells survive. -/
theorem measurement_survives_outside_selfTest {b : Board B P} (hb : b.sampling = false)
    (hidle : b.chip.phase = .idle) {s s' : Sys B P} (hs : Completed sincos out b s)
    (h : Runs (Sys.step sincos out) (fun _ l => ∀ e, l = .event e →
      e.eEventType ≠ .processAllEvent) s s') {x : Nat} (hx : ¬ SelfTest x) :
    s'.board.chip.mem x = s.board.chip.mem x := by
  refine still_run (R := SelfTest) (fun _ e hG => ?_) (atRest_of_reachable hb hidle hs.1 hs.2.1) h hx
  by_cases hk : e.eEventType = .housKeepingEvent
  · obtain ⟨ty, p⟩ := e
    cases hk
    exact touches_houseKeeping p
  · exact touches_handle sincos out e (hG e rfl) hk

theorem effect_houseKeeping (q : P) :
    Effect (houseKeeping F out q : Fw B P Unit) fun m =>
      (m.write 145 (houseKeepingCislo : Complex F).enc).write 0x789 (wordCells houseKeepingAa) := by
  have hside : ∀ o : Op B P, o.Aside → Effect (Prog.call o : Fw B P o.Res) id := fun o ho =>
    .aside ((Prog.all_call o).2 ho)
  have hcislo := (computes_spiMemWriteComplex (B := B) (P := P) 145 (houseKeepingCislo : Complex F)).effect
  have hcisloRead := (computes_spiMemReadComplex (F := F) (B := B) (P := P) 145).effect
  have hword := (computes_spiMemWriteWord (B := B) (P := P) 0x789 houseKeepingAa).effect
  have hwordRead := (computes_spiMemReadWord (B := B) (P := P) 0x789).effect
  have hadc : Effect (adcaReadCh0 : Fw B P Nat) id := fun s hs => by
    rw [run_adcaReadCh0, id, ← hs]
  exact (hside (.tickTimer false) trivial).bind fun _ => hcislo.bind fun _ =>
    hcisloRead.bind fun _ => hword.bind fun _ => hwordRead.bind fun _ => hadc.bind fun _ =>
      (hside .hours trivial).bind fun _ => (hside .seconds trivial).bind fun _ =>
        (Effect.aside (aside_reply ..)).bind fun _ =>
          (Effect.aside (aside_toggleOnSuccess _)).bind fun _ =>
            (hside (.delayMs 300) trivial).bind fun _ => hside (.tickTimer true) trivial

/-- **The self test overwrites the signal.** Without another measurement, one housekeeping request
changes byte 0x789: the low byte of sample 964. -/
theorem measurement_damaged :
    ¬ ∀ s s' : Sys ExactCell Unit, Completed exactSincos () (Board.rest zeroes) s →
      Runs (Sys.step exactSincos ()) (fun _ l => ∀ e, l = .event e →
        e.eEventType ≠ .processAllEvent) s s' → Survives s s' := by
  intro hall
  obtain ⟨s, hs, hi, hidle, hmem⟩ := silence_completed (B := ExactCell) exactSincos () ()
  have hguard : ∀ e : CspStackEvent Unit, Label.event ⟨.housKeepingEvent, ()⟩ = Label.event e →
      e.eEventType ≠ .processAllEvent := by rintro e he; cases he; decide
  obtain ⟨s', h, -, -, -, hboard⟩ := runs_event exactSincos ()
    (G := fun _ l => ∀ e, l = .event e → e.eEventType ≠ .processAllEvent)
    (fun _ e he => absurd he (by simp)) hs.2.1 hi ⟨.housKeepingEvent, ()⟩ hguard
    (tidy_houseKeeping () ())
  have hsame := hall s s' hs h 0x789 (.inl (by unfold memSignalBegin memSignalLength; omega))
  have hmem' : s'.board.chip.mem =
      (s.board.chip.mem.write 145 (houseKeepingCislo : Complex ℝ).enc).write 0x789
        (wordCells houseKeepingAa) := by
    rw [hboard]
    exact congrArg Chip.mem (effect_houseKeeping () s.board hidle)
  rw [hmem', hmem 0x789 (by decide)] at hsame
  have hnew : ((s.board.chip.mem.write 145 (houseKeepingCislo : Complex ℝ).enc).write 0x789
      (wordCells houseKeepingAa)) (0x789 + 0) = byte 29 := Mem.write_inside _ (by decide)
  have hval := congrArg val (hnew.symm.trans hsame)
  rw [Cell.val_byte, Cell.val_byte] at hval
  exact absurd hval (by decide)

end HmBoard
