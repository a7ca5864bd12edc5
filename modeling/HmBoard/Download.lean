import HmBoard.Decimal
import HmBoard.Measurement
import HmBoard.Replies
import HmBoard.Spectrum

/-!
# The signal download

`sendSignal` over a memory that holds any signal, with any answers of `csp_sendto`. `Outbox` is the
board together with the packets: `strcpy` leaves what lies behind the NUL as it was, and a call of
`csp_sendto` takes the first `length` bytes of the packet. `log` has each call with what it
returned.

`readSample` and `rebuild` are the receiver: the one reads a message, the other puts the samples
back where they were.
-/

namespace HmBoard

open Lib Fw
open Lib.Prog (run)

variable {B P : Type} [Cell B] [DecidableEq P]

structure Outbox (B P : Type) where
  board : Board B P
  /-- `packet->data` -/
  data : P → Mem UInt8
  /-- `packet->length` -/
  length : P → Nat
  /-- What `csp_sendto` leaves in the length of the packet. -/
  left : Nat → Nat
  log : List (List UInt8 × Int)

def Outbox.exec (s : Outbox B P) : (o : Op B P) → Outbox B P × o.Res
  | .pktCopy p msg =>
    ({ s with
        board := (s.board.exec (.pktCopy p msg)).1
        data := Function.update s.data p ((s.data p).write 0 (msg ++ [0])) }, ())
  | .pktLength p n =>
    ({ s with
        board := (s.board.exec (.pktLength p n)).1
        length := Function.update s.length p n }, ())
  | .cspSendto prio dest dport srcPort opts p timeout =>
    let r := s.board.exec (.cspSendto prio dest dport srcPort opts p timeout)
    ({ s with
        board := r.1
        length := Function.update s.length p (s.left s.log.length)
        log := s.log ++ [((s.data p).read 0 (s.length p), r.2)] }, r.2)
  | o => ({ s with board := (s.board.exec o).1 }, (s.board.exec o).2)

/-- The payloads of the calls that returned `CSP_ERR_NONE`. -/
def delivered (calls : List (List UInt8 × Int)) : List (List UInt8) :=
  (calls.filter fun c => c.2 = cspErrNone).map Prod.fst

/-! ## The receiver -/

/-- A message `<t>;<v>` and a newline. -/
def readSample (msg : List UInt8) : Option (Int × Int) := do
  match ← readNumbers [lit ";", lit "\n"] msg with
  | [t, v] => some (t, v)
  | _ => none

/-- The signal region from the samples received: the one of time `t` is number `t / 5`. -/
def rebuild (xs : List (Int × Int)) : Mem UInt8 := fun x =>
  match xs.find? fun r : Int × Int => r.1 = 5 * ((x / 2 : Nat) : Int) with
  | some (_, v) => if x % 2 = 0 then UInt8.ofNat (toU16 v / 256) else UInt8.ofNat (toU16 v % 256)
  | none => 0

theorem readSample_text (t v : Int) :
    readSample (fmtInt t ++ lit ";" ++ fmtInt v ++ lit "\n") = some (t, v) := by
  have h : readNumbers [lit ";", lit "\n"]
      (fmtInt t ++ (lit ";" ++ (fmtInt v ++ (lit "\n" ++ [])))) = some [t, v] := by
    rw [readNumbers_cons t _ _ (by decide), readNumbers_cons v _ _ (by decide)]
    rfl
  rw [List.append_nil] at h
  simp only [readSample, List.append_assoc, h, Option.bind_eq_bind, Option.bind_some]

/-- The message for sample `i`. -/
theorem signalText_eq {m : Mem B} {i : Nat} (hi : i < memSignalLength) :
    signalText i (loadWord m (memSignalBegin + 2 * i)) =
      fmtInt (5 * i) ++ lit ";" ++ fmtInt (sample m i) ++ lit "\n" := by
  have h5 : i16 (u16 (i * 5)) = 5 * (i : Int) := by
    unfold memSignalLength at hi
    rw [u16_of_lt (by omega), i16_of_range (by omega) (by omega)]
    omega
  rw [signalText, h5]
  rfl

/-- The two cells of a sample from its value. -/
theorem sample_cells (m : Mem B) (i : Nat) :
    UInt8.ofNat (toU16 (sample m i) / 256) = val (m (memSignalBegin + 2 * i)) ∧
      UInt8.ofNat (toU16 (sample m i) % 256) = val (m (memSignalBegin + 2 * i + 1)) := by
  have h0 := (val (m (memSignalBegin + 2 * i))).toNat_lt
  have h1 := (val (m (memSignalBegin + 2 * i + 1))).toNat_lt
  have hw := loadWord_eq m (memSignalBegin + 2 * i)
  have hu : toU16 (sample m i) = loadWord m (memSignalBegin + 2 * i) := by
    unfold sample toU16 i16
    omega
  rw [hu, hw]
  constructor
  · apply UInt8.toNat.inj
    rw [UInt8.toNat_ofNat']
    omega
  · apply UInt8.toNat.inj
    rw [UInt8.toNat_ofNat']
    omega

/-! ## What a program posts -/

theorem Outbox.exec_board (s : Outbox B P) (o : Op B P) :
    (s.exec o).1.board = (s.board.exec o).1 ∧ (s.exec o).2 = (s.board.exec o).2 := by
  cases o <;> exact ⟨rfl, rfl⟩

/-- `s'` is `s` after calls of `csp_sendto` with these payloads, the chip as it was. -/
structure Posted (s s' : Outbox B P) (texts : List (List UInt8)) : Prop where
  chip : s'.board.chip = s.board.chip
  log : ∃ calls, s'.log = s.log ++ calls ∧ calls.map Prod.fst = texts

omit [Cell B] [DecidableEq P] in
theorem Posted.refl (s : Outbox B P) : Posted s s [] := ⟨rfl, [], by simp, rfl⟩

omit [Cell B] [DecidableEq P] in
theorem Posted.trans {s s' s'' : Outbox B P} {ts ts' : List (List UInt8)} (h : Posted s s' ts)
    (h' : Posted s' s'' ts') : Posted s s'' (ts ++ ts') := by
  obtain ⟨hchip, calls, hlog, hts⟩ := h
  obtain ⟨hchip', calls', hlog', hts'⟩ := h'
  refine ⟨hchip'.trans hchip, calls ++ calls', ?_, ?_⟩
  · rw [hlog', hlog, List.append_assoc]
  · rw [List.map_append, hts, hts']

variable {α : Type}

/-- Programs that leave the packets alone. -/
theorem log_quiet {p : Fw B P α} (hp : p.All Op.Quiet) (s : Outbox B P) :
    (run Outbox.exec p s).1.log = s.log := by
  refine hp.run (I := fun s' : Outbox B P => s'.log = s.log) ?_ rfl
  intro s' o ho h
  cases o <;> first | exact ho.elim | exact h

/-- A single access off the chip. -/
theorem posted_call {o : Op B P} (hq : o.Quiet) (ho : o.Aside) (s : Outbox B P) :
    Posted s (s.exec o).1 [] := by
  have hlog := log_quiet (p := Prog.call o) (by simpa using hq) s
  refine ⟨?_, [], ?_, rfl⟩
  · rw [(s.exec_board o).1, (exec_aside ho s.board).1]
  · rw [List.append_nil]
    exact hlog

theorem posted_reply (out q : P) (msg : List UInt8) (timeout : Nat) (s : Outbox B P) :
    Posted s (run Outbox.exec (reply out q msg timeout) s).1 [msg] := by
  constructor
  · exact (by simp only [reply, Prog.bind_eq, Prog.call_bind, Prog.run_op, Prog.run_call,
      Outbox.exec, Board.exec])
  · have hread : (((s.data out).write 0 (msg ++ [0])).read 0 msg.length : List UInt8) = msg := by
      have h := Mem.read_write_self (s.data out) 0 (msg ++ [0])
      rw [List.length_append, List.length_singleton] at h
      rw [← Mem.take_read (i := msg.length) _ _ (Nat.le_succ _), h, List.take_left]
    simp only [reply, Prog.bind_eq, Prog.call_bind, Prog.run_op, Prog.run_call, Outbox.exec,
      Function.update_self, hread]
    exact ⟨_, rfl, rfl⟩

theorem posted_bind {β : Type} {p : Fw B P α} {f : α → Fw B P β} {s : Outbox B P}
    {ts ts' : List (List UInt8)} (hp : Posted s (run Outbox.exec p s).1 ts)
    (hf : ∀ a t, t.board.chip = s.board.chip → Posted t (run Outbox.exec (f a) t).1 ts') :
    Posted s (run Outbox.exec (p.bind f) s).1 (ts ++ ts') := by
  rw [Prog.run_bind]
  exact hp.trans (hf _ _ hp.chip)

theorem posted_spiMemReadWord (address : Nat) {s : Outbox B P}
    (hidle : s.board.chip.phase = .idle) :
    Posted s (run Outbox.exec (spiMemReadWord address) s).1 [] ∧
      (run Outbox.exec (spiMemReadWord address) s).2 =
        loadWord s.board.chip.mem (address % 16777216) := by
  obtain ⟨buf, e⟩ := computes_spiMemReadWord address s.board hidle
  obtain ⟨hboard, hword⟩ := Prog.run_view Outbox.board Outbox.exec_board
    (spiMemReadWord address) s
  rw [e] at hboard hword
  refine ⟨⟨?_, [], ?_, rfl⟩, hword⟩
  · rw [hboard, Board.after, ← hidle]
  · rw [List.append_nil]
    exact log_quiet (quiet_spiMemReadWord address) s

/-- The text `sendSignal` makes of sample `i` of a memory. -/
def sampleText (m : Mem B) (i : Nat) : List UInt8 :=
  signalText i (loadWord m (memSignalBegin + 2 * i))

/-- One round of the loop of `sendSignal`. -/
def sendSample (out q : P) (i : Nat) : Fw B P Unit := do
  let point ← spiMemReadWord (u16 (u16 (i * 2) + memSignalBegin))
  let _ ← reply out q (signalText i point) 100
  delayMs 2

omit [DecidableEq P] in
theorem sendSignal_eq (out q : P) : (sendSignal out q : Fw B P Unit) = (do
    powerSwitchToggle
    tickTimer false
    delayMs 4
    let _ ← reply out q (lit "Sampled signal\n") 100
    delayMs 4
    Prog.forTo memSignalLength (sendSample out q)
    tickTimer true) := rfl

theorem posted_sendSample (out q : P) {s : Outbox B P} (hidle : s.board.chip.phase = .idle)
    {i : Nat} (hi : i < memSignalLength) :
    Posted s (run Outbox.exec (sendSample out q i) s).1 [sampleText s.board.chip.mem i] := by
  have haddr : u16 (u16 (i * 2) + memSignalBegin) % 16777216 = memSignalBegin + 2 * i := by
    unfold u16 memSignalBegin memSignalLength at *
    omega
  obtain ⟨hread, hword⟩ := posted_spiMemReadWord (u16 (u16 (i * 2) + memSignalBegin)) hidle
  rw [haddr] at hword
  simp only [sendSample, Prog.bind_eq]
  rw [Prog.run_bind, hword]
  exact hread.trans (posted_bind (posted_reply out q _ 100 _) fun _ t _ =>
    posted_call (o := .delayMs 2) trivial trivial t)

/-- The loop. -/
theorem posted_samples (out q : P) {s : Outbox B P} (hidle : s.board.chip.phase = .idle) :
    ∀ n ≤ memSignalLength,
      Posted s (run Outbox.exec (Prog.loop (fun i _ => sendSample out q i) () n) s).1
        ((List.range n).map (sampleText s.board.chip.mem)) := by
  intro n hn
  induction n with
  | zero => exact .refl s
  | succ n ih =>
    have hrest := ih (by omega)
    generalize hs' : (run Outbox.exec (Prog.loop (fun i _ => sendSample out q i) () n) s).1 = s'
      at hrest
    have hround := posted_sendSample out q (s := s') (by rw [hrest.chip, hidle]) hn
    rw [hrest.chip] at hround
    rw [Prog.run_loop_succ, hs', List.range_succ, List.map_append]
    exact hrest.trans hround

theorem posted_sendSignal (out q : P) {s : Outbox B P} (hidle : s.board.chip.phase = .idle) :
    Posted s (run Outbox.exec (sendSignal out q) s).1
      (lit "Sampled signal\n" ::
        (List.range memSignalLength).map (sampleText s.board.chip.mem)) := by
  have hcall : ∀ (o : Op B P) (t : Outbox B P), o.Quiet → o.Aside →
      Posted t (run Outbox.exec (Prog.call o) t).1 [] := fun o t hq ho => posted_call hq ho t
  have hchain : Posted s (run Outbox.exec (sendSignal out q) s).1 ([] ++ ([] ++ ([] ++
      ([lit "Sampled signal\n"] ++ ([] ++
        ((List.range memSignalLength).map (sampleText s.board.chip.mem) ++ [])))))) := by
    rw [sendSignal_eq]
    refine posted_bind (hcall .powerSwitchToggle _ trivial trivial) fun _ s₁ h1 => ?_
    refine posted_bind (hcall (.tickTimer false) _ trivial trivial) fun _ s₂ h2 => ?_
    refine posted_bind (hcall (.delayMs 4) _ trivial trivial) fun _ s₃ h3 => ?_
    refine posted_bind (posted_reply out q _ 100 _) fun _ s₄ h4 => ?_
    refine posted_bind (hcall (.delayMs 4) _ trivial trivial) fun _ s₅ h5 => ?_
    refine posted_bind ?_ fun _ s₆ _ => hcall (.tickTimer true) s₆ trivial trivial
    have hchip : s₅.board.chip = s.board.chip := h5.trans (h4.trans (h3.trans (h2.trans h1)))
    rw [← hchip]
    unfold Prog.forTo
    exact posted_samples out q (by rw [hchip, hidle]) memSignalLength le_rfl
  simpa only [List.append_nil, List.nil_append, List.singleton_append] using hchain

/-! ## The download -/

section

omit [Cell B] [DecidableEq P]

theorem delivered_range {f : Nat → List UInt8} {r : Nat → Int} (n : Nat) :
    delivered ((List.range n).map fun i => (f i, r i)) =
      ((List.range n).filter fun i => r i = cspErrNone).map f := by
  rw [delivered, List.filter_map, List.map_map]
  rfl

/-- Calls with given payloads, and their results. -/
theorem exists_results {calls : List (List UInt8 × Int)} {n : Nat} {f : Nat → List UInt8}
    (h : calls.map Prod.fst = (List.range n).map f) :
    ∃ r : Nat → Int, calls = (List.range n).map fun i => (f i, r i) := by
  have hlen : calls.length = n := by
    have := congrArg List.length h
    simpa using this
  refine ⟨fun i => (calls.getD i ([], 0)).2, List.ext_getElem (by simp [hlen]) fun i h1 h2 => ?_⟩
  have hi : (calls.map Prod.fst)[i]? = some (f i) := by
    rw [h, List.getElem?_map, List.getElem?_range (hlen ▸ h1)]
    rfl
  rw [List.getElem?_map, List.getElem?_eq_getElem h1] at hi
  simp only [List.getElem_map, List.getElem_range, List.getD_eq_getElem _ _ h1,
    ← Option.some.inj hi]

theorem Posted.results {s s' : Outbox B P} {t : List UInt8} {f : Nat → List UInt8} {n : Nat}
    (h : Posted s s' (t :: (List.range n).map f)) :
    ∃ (hello : List UInt8 × Int) (r : Nat → Int),
      s'.log = s.log ++ hello :: (List.range n).map (fun i => (f i, r i)) ∧ hello.1 = t := by
  obtain ⟨-, calls, hlog, hcalls⟩ := h
  obtain ⟨hello, data, rfl, hhello, hdata⟩ := List.map_eq_cons_iff.1 hcalls
  obtain ⟨r, rfl⟩ := exists_results hdata
  exact ⟨hello, r, hlog, hhello⟩

/-- What the receiver makes of the messages that came through, given that each reads as the time
and the value of its sample. -/
theorem filterMap_delivered {f : Nat → List UInt8} {r : Nat → Int} {v : Nat → Int} {n : Nat}
    (hf : ∀ i < n, readSample (f i) = some (5 * (i : Int), v i)) :
    (delivered ((List.range n).map fun i => (f i, r i))).filterMap readSample =
      ((List.range n).filter fun i => r i = cspErrNone).map fun i : Nat => (5 * (i : Int), v i) := by
  rw [delivered_range, List.filterMap_map, ← List.filterMap_eq_map]
  refine List.filterMap_congr fun i hi => ?_
  have hlt : i < n := List.mem_range.1 (List.mem_filter.1 hi).1
  exact hf i hlt

/-- Among samples at distinct times `rebuild` finds the one. -/
theorem rebuild_map {is : List Nat} {v : Nat → Int} {x : Nat} (hx : x / 2 ∈ is) :
    rebuild (is.map fun i : Nat => (5 * (i : Int), v i)) x =
      if x % 2 = 0 then UInt8.ofNat (toU16 (v (x / 2)) / 256)
      else UInt8.ofNat (toU16 (v (x / 2)) % 256) := by
  have hfind : (is.map fun i : Nat => (5 * (i : Int), v i)).find?
      (fun r : Int × Int => r.1 = 5 * ((x / 2 : Nat) : Int)) =
      some (5 * ((x / 2 : Nat) : Int), v (x / 2)) := by
    induction is with
    | nil => cases hx
    | cons i is ih =>
      rw [List.map_cons, List.find?_cons]
      by_cases h : i = x / 2
      · simp [h]
      · have hne : ¬ (5 * (i : Int) = 5 * ((x / 2 : Nat) : Int)) := by omega
        rcases List.mem_cons.1 hx with h' | h'
        · exact absurd h'.symm h
        · simp only [hne, decide_false]
          exact ih h'
  rw [rebuild, hfind]

end

/-- **The download.** Whatever the memory holds and whatever `csp_sendto` returns, `sendSignal`
announces itself and then offers one message for each sample in turn, `<t>;<v>` with `t = 5 i`
and `v` the signed sample. Those that come through read as exactly the samples whose send
succeeded, in order, and put their cells back; and no cell of the memory changes on the way. -/
theorem signal_download (out q : P) (s : Outbox B P) (hidle : s.board.chip.phase = .idle) :
    ∃ (hello : List UInt8 × Int) (text : Nat → List UInt8) (r : Nat → Int),
      (run Outbox.exec (sendSignal out q) s).1.log =
        s.log ++ hello :: (List.range memSignalLength).map (fun i => (text i, r i)) ∧
      readSample hello.1 = none ∧
      (∀ i < memSignalLength,
        text i = fmtInt (5 * i) ++ lit ";" ++ fmtInt (sample s.board.chip.mem i) ++ lit "\n" ∧
        readSample (text i) = some (5 * (i : Int), sample s.board.chip.mem i)) ∧
      (delivered ((List.range memSignalLength).map fun i => (text i, r i))).filterMap readSample =
        ((List.range memSignalLength).filter fun i => r i = cspErrNone).map
          (fun i : Nat => (5 * (i : Int), sample s.board.chip.mem i)) ∧
      (∀ x < 2 * memSignalLength, r (x / 2) = cspErrNone →
        rebuild ((delivered ((List.range memSignalLength).map fun i => (text i, r i))).filterMap
          readSample) x = val (s.board.chip.mem (memSignalBegin + x))) ∧
      Prog.Always Outbox.exec (fun s' => s'.board.chip.mem = s.board.chip.mem)
        (sendSignal out q) s := by
  obtain ⟨hello, r, hlog, hhello⟩ := (posted_sendSignal out q hidle).results
  have htext : ∀ i < memSignalLength, sampleText s.board.chip.mem i =
      fmtInt (5 * i) ++ lit ";" ++ fmtInt (sample s.board.chip.mem i) ++ lit "\n" :=
    fun i hi => signalText_eq hi
  have hread : ∀ i < memSignalLength, readSample (sampleText s.board.chip.mem i) =
      some (5 * (i : Int), sample s.board.chip.mem i) := by
    intro i hi
    rw [htext i hi, readSample_text]
  have hdecoded := filterMap_delivered (r := r) hread
  refine ⟨hello, sampleText s.board.chip.mem, r, hlog, ?_, ?_, hdecoded, ?_, ?_⟩
  · rw [hhello]
    decide
  · exact fun i hi => ⟨htext i hi, hread i hi⟩
  · intro x hx hr
    obtain ⟨h0, h1⟩ := sample_cells s.board.chip.mem (x / 2)
    have hmem : x / 2 ∈ (List.range memSignalLength).filter fun i => r i = cspErrNone := by
      rw [List.mem_filter, List.mem_range]
      exact ⟨by omega, by simpa using hr⟩
    rw [hdecoded, rebuild_map hmem]
    by_cases hpar : x % 2 = 0
    · rw [if_pos hpar, h0, show 2 * (x / 2) = x by omega]
    · rw [if_neg hpar, h1, show memSignalBegin + 2 * (x / 2) + 1 = memSignalBegin + x by omega]
  · obtain ⟨hkept, -⟩ := touches_sendSignal (R := fun _ => False) out q s.board hidle
    exact (hkept.mono fun _ h => funext fun x => h.2 x id).view Outbox.board Outbox.exec_board

/-- A `csp_sendto` that returns `r` each time. -/
def steadyWorld (r : Int) (now : Nat) : (o : Op UInt8 Nat) → o.Res
  | .cspSendto .. => r
  | o => quiet now o

/-- A signal of samples -1, in a packet that still holds an old text. -/
def negativeOutbox (r : Int) : Outbox UInt8 Nat where
  board := { (Board.rest fun _ => 0xFF : Board UInt8 Nat) with env := steadyWorld r }
  data _ _ := 57
  length _ := 72
  left _ := 0
  log := []

theorem log_negativeOutbox (r : Int) :
    ∀ c ∈ (run Outbox.exec (sendSignal 0 1) (negativeOutbox r)).1.log, c.2 = r := by
  have hplain : (sendSignal 0 1 : Fw UInt8 Nat Unit).All Op.Plain :=
    ((tidy_sendSignal 0 1).watch ⟨false, false, 0⟩ ⟨rfl, rfl⟩).all fun _ _ h => h
  refine (hplain.run (s := negativeOutbox r) (I := fun s : Outbox UInt8 Nat =>
    s.board.env = steadyWorld r ∧ ∀ c ∈ s.log, c.2 = r) ?_ ⟨rfl, fun _ hc => ?_⟩).2
  case refine_2 => cases hc
  rintro s o - ⟨henv, hlog⟩
  cases o <;> first
    | exact ⟨henv, hlog⟩
    | (refine ⟨henv, fun c hc => ?_⟩
       rcases List.mem_append.1 hc with hc | hc
       · exact hlog c hc
       · rw [List.mem_singleton.1 hc]
         simp only [Board.exec, henv]
         rfl)

/-- Where no call succeeds the receiver has nothing; where all do, it has the negative samples. -/
theorem signal_download_negative :
    (∃ (hello : List UInt8 × Int) (text : Nat → List UInt8) (r : Nat → Int),
      (run Outbox.exec (sendSignal 0 1) (negativeOutbox cspErrTx)).1.log =
        hello :: (List.range memSignalLength).map (fun i => (text i, r i)) ∧
      text 7 = lit "35;-1\n" ∧ r 7 = cspErrTx ∧
      (delivered ((List.range memSignalLength).map fun i => (text i, r i))).filterMap readSample =
        []) ∧
    ∃ (hello : List UInt8 × Int) (text : Nat → List UInt8) (r : Nat → Int),
      (run Outbox.exec (sendSignal 0 1) (negativeOutbox cspErrNone)).1.log =
        hello :: (List.range memSignalLength).map (fun i => (text i, r i)) ∧
      r 7 = cspErrNone ∧
      rebuild ((delivered ((List.range memSignalLength).map fun i => (text i, r i))).filterMap
        readSample) 15 = 0xFF := by
  have hresult : ∀ (c : Int) {hello : List UInt8 × Int} {text : Nat → List UInt8} {r : Nat → Int},
      (run Outbox.exec (sendSignal 0 1) (negativeOutbox c)).1.log =
        hello :: (List.range memSignalLength).map (fun i => (text i, r i)) →
      ∀ i < memSignalLength, r i = c := by
    intro c hello text r hlog i hi
    have hmem : (text i, r i) ∈ (run Outbox.exec (sendSignal 0 1) (negativeOutbox c)).1.log := by
      rw [hlog]
      exact List.mem_cons_of_mem _ (List.mem_map_of_mem (List.mem_range.2 hi))
    exact log_negativeOutbox c _ hmem
  constructor
  · obtain ⟨hello, text, r, hlog, -, htext, hread, -⟩ :=
      signal_download 0 1 (negativeOutbox cspErrTx) rfl
    have hr := hresult cspErrTx hlog
    have h7 := (htext 7 (by decide)).1
    refine ⟨hello, text, r, hlog, h7.trans (by decide), hr 7 (by decide), ?_⟩
    rw [hread, List.map_eq_nil_iff, List.filter_eq_nil_iff]
    intro i hi
    rw [hr i (List.mem_range.1 hi)]
    decide
  · obtain ⟨hello, text, r, hlog, -, -, -, hcells, -⟩ :=
      signal_download 0 1 (negativeOutbox cspErrNone) rfl
    have hr := hresult cspErrNone hlog
    exact ⟨hello, text, r, hlog, hr 7 (by decide), hcells 15 (by decide) (hr 7 (by decide))⟩

end HmBoard
