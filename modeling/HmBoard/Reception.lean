import HmBoard.Lib.Run
import HmBoard.TwiSlave
import Mathlib.Data.List.Forall2

/-!
# Reception of I2C frames

The board as a slave on the bus. A step is an interrupt of the TWI slave, with the status and the
data byte the hardware has latched and whatever the stack then holds, or a stop condition that
raises none. The hardware is used as follows: it raises a stop interrupt for an addressed
transaction exactly while `PIEN` is set; data interrupts come inside an addressed transaction, in
the direction the address byte gave.

`Txn` is the transaction as the wires show it: the bytes the board acknowledged, whether it refused
one, and whether an error interrupt came. `calls` collects the frames passed to `callbackFunction`,
`due` the bytes of the transactions that should be delivered.
-/

namespace HmBoard

open Lib

structure Txn where
  /-- The master reads from the board. -/
  read : Bool
  /-- The bytes received and acknowledged. -/
  bytes : List UInt8
  /-- A byte was not acknowledged. -/
  refused : Bool
  /-- A bus error, a collision or an unexpected interrupt came. -/
  failed : Bool
deriving DecidableEq, Repr

/-- A complete and correctly received master write. -/
def Txn.Whole (t : Txn) : Prop :=
  t.read = false ∧ 1 ≤ t.bytes.length ∧ t.bytes.length ≤ twisReceiveBufferSize ∧
    t.refused = false ∧ t.failed = false

instance (t : Txn) : Decidable t.Whole := inferInstanceAs (Decidable (_ ∧ _))

/-- The bytes to deliver when a transaction stops. -/
def Txn.due (t : Txn) : List (List UInt8) := if t.Whole then [t.bytes] else []

/-- A data byte from the master, answered with the command `c`. -/
def Txn.receive (t : Txn) (data : UInt8) (c : Option SlaveCommand) : Txn :=
  if c = some .nackComptrans then { t with refused := true }
  else { t with bytes := t.bytes ++ [data] }

structure Bus where
  twi : TwiSlave
  txn : Option Txn
  calls : List I2cFrame
  due : List (List UInt8)

inductive BusEvent where
  /-- An interrupt of the TWI slave; `stack` is what `newFrame` would start with. -/
  | irq (st : SlaveStatus) (data : UInt8) (stack : I2cFrame)
  /-- A stop condition without an interrupt. -/
  | stop

/-- Can the hardware raise this interrupt now? -/
def Bus.raises (s : Bus) (st : SlaveStatus) : Bool :=
  match st.cause with
  | .stop => s.txn.isSome && s.twi.pien
  | .data => s.txn.any fun t => t.read == st.dir
  | _ => true

/-- The transaction after an interrupt that the driver answered with `c`. -/
def Bus.follow (s : Bus) (st : SlaveStatus) (data : UInt8) (c : Option SlaveCommand) :
    Option Txn :=
  match st.cause with
  | .addressMatch => some { read := st.dir, bytes := [], refused := false, failed := false }
  | .stop => none
  | .data => s.txn.map fun t => if st.dir then t else t.receive data c
  | .busError | .collision | .unexpected => s.txn.map fun t => { t with failed := true }

def Bus.step (s : Bus) : BusEvent → Option Bus
  | .irq st data stack =>
    if s.raises st then
      let r := slaveInterruptHandler st data stack s.twi
      some {
        twi := r.1
        txn := s.follow st data r.1.ctrlb
        calls := s.calls ++ r.2.toList
        due := s.due ++ if st.cause = .stop then s.txn.toList.flatMap Txn.due else [] }
    else none
  | .stop =>
    if s.txn.isSome && !s.twi.pien then
      some { s with txn := none, due := s.due ++ s.txn.toList.flatMap Txn.due }
    else none

/-- After `i2c_init`. -/
def Bus.boot (receivedData sendData : Mem UInt8) : Bus :=
  { twi := slaveInitialize receivedData sendData, txn := none, calls := [], due := [] }

/-- A read that the master ends with a NACK, or the stop interrupt of a transaction in which a byte
was refused or an error came. -/
def Bus.Spurious (s : Bus) : BusEvent → Prop
  | .irq st _ _ =>
    match st.cause with
    | .data => st.dir = true ∧ st.rxack = true ∧ 0 < s.twi.bytesSent
    | .stop => ∃ t ∈ s.txn, t.refused = true ∨ t.failed = true
    | _ => False
  | .stop => False

/-! ## The driver follows the wires -/

/-- While a write goes well, the buffer holds its bytes, and the stop interrupt is enabled once
there is one. -/
structure Txn.Held (t : Txn) (d : TwiSlave) : Prop where
  len : t.bytes.length = d.bytesReceived
  data : d.receivedData.read 0 t.bytes.length = t.bytes
  pien : d.pien = true ↔ t.bytes ≠ []
  fits : d.bytesReceived ≤ twisReceiveBufferSize

/-- What the driver state says about the transaction on the bus. -/
structure Tracks (d : TwiSlave) (txn : Option Txn) : Prop where
  /-- Nothing asks the driver to abort. -/
  abort : d.abort = false
  read : ∀ t, txn = some t → t.read = true → d.pien = false
  held : ∀ t, txn = some t → t.read = false → t.failed = false → t.Held d

theorem Txn.Held.whole {t : Txn} {d : TwiSlave} (h : t.Held d) (hr : t.read = false)
    (h1 : t.refused = false) (h2 : t.failed = false) (hp : d.pien = true) : t.Whole :=
  ⟨hr, List.length_pos_iff.2 (h.pien.1 hp), h.len ▸ h.fits, h1, h2⟩

theorem Txn.Whole.pien {t : Txn} {d : TwiSlave} (h : t.Whole) (hd : t.Held d) : d.pien = true :=
  hd.pien.2 (List.length_pos_iff.1 h.2.1)

/-- A byte stored and acknowledged. -/
theorem Txn.Held.receive {t : Txn} {d : TwiSlave} (h : t.Held d) (data : UInt8)
    (hlt : d.bytesReceived < twisReceiveBufferSize) {c : Option SlaveCommand}
    (hc : c ≠ some .nackComptrans) :
    (t.receive data c).Held { d with
      pien := true, receivedData := d.receivedData.write d.bytesReceived [data],
      bytesReceived := d.bytesReceived + 1, ctrlb := c } := by
  simp only [Txn.receive, if_neg hc]
  constructor
  · simp [h.len]
  · have hw : (d.receivedData.write d.bytesReceived [data]).read 0 t.bytes.length = t.bytes := by
      rw [Mem.read_write_disjoint _ (.inl (by simp [h.len])), h.data]
    simp only [List.length_append, List.length_singleton]
    rw [Mem.read_succ, hw, Nat.zero_add, h.len]
    simp [Mem.write]
  · simp
  · exact hlt

/-- The buffer, its fill and the stop interrupt are as before. -/
theorem Txn.Held.congr {t : Txn} {d d' : TwiSlave} (h : t.Held d)
    (h1 : d'.receivedData = d.receivedData) (h2 : d'.bytesReceived = d.bytesReceived)
    (h3 : d'.pien = d.pien) : t.Held d' := by
  constructor
  · rw [h2, h.len]
  · rw [h1, h.data]
  · rw [h3, h.pien]
  · rw [h2]; exact h.fits

namespace Tracks

variable {d d' : TwiSlave} {txn : Option Txn}

theorem none (h : d.abort = false) : Tracks d none :=
  ⟨h, fun _ h _ => (by cases h), fun _ h _ _ => (by cases h)⟩

/-- An error interrupt leaves the stop interrupt as it is. -/
theorem fail (h : Tracks d txn) (ha : d'.abort = d.abort) (hp : d'.pien = d.pien) :
    Tracks d' (txn.map fun t => { t with failed := true }) := by
  constructor
  · rw [ha, h.abort]
  · intro t ht hr
    obtain ⟨u, hu, rfl⟩ := Option.map_eq_some_iff.1 ht
    rw [hp, h.read u hu hr]
  · intro t ht _ hf
    obtain ⟨u, hu, rfl⟩ := Option.map_eq_some_iff.1 ht
    cases hf

/-- A new transaction, with the counters cleared and the stop interrupt disabled. -/
theorem start (ha : d.abort = false) (hb : d.bytesReceived = 0) (hp : d.pien = false)
    (r : Bool) : Tracks d (some { read := r, bytes := [], refused := false, failed := false }) := by
  constructor
  · exact ha
  · intro t _ _
    exact hp
  · rintro t ⟨⟩ _ _
    constructor <;> simp [hb, hp, Mem.read]

/-- Sending a byte to the master. -/
theorem send (h : Tracks d txn) (hr : ∀ t, txn = some t → t.read = true)
    (ha : d'.abort = d.abort) (hp : d'.pien = d.pien) : Tracks d' txn := by
  constructor
  · rw [ha, h.abort]
  · intro t ht hr
    rw [hp, h.read t ht hr]
  · intro t ht hw
    simp [hr t ht] at hw

end Tracks

theorem tracks_writeHandler {d : TwiSlave} {txn : Option Txn} (h : Tracks d txn)
    (hr : ∀ t, txn = some t → t.read = true) (junk : I2cFrame) (rxack : Bool) :
    Tracks (slaveWriteHandler junk rxack d).1 txn := by
  unfold slaveWriteHandler
  split
  · exact h.send hr rfl rfl
  · split
    · exact h.send hr rfl rfl
    · exact h.send hr rfl rfl

/-- A data byte from the master: stored and acknowledged, or refused when the buffer is full. -/
theorem slaveReadHandler_eq {d : TwiSlave} (ha : d.abort = false) (junk : I2cFrame) (b : UInt8) :
    slaveReadHandler junk b d =
      if d.bytesReceived < twisReceiveBufferSize then
        ({ d with
          pien := true, receivedData := d.receivedData.write d.bytesReceived [b],
          bytesReceived := d.bytesReceived + 1, ctrlb := some .response }, none)
      else ({ d with
        pien := true, ctrlb := some .nackComptrans, result := .bufferOverflow, status := .ready },
        none) := by
  by_cases hlt : d.bytesReceived < twisReceiveBufferSize
  · simp [slaveReadHandler, hlt, ha]
  · simp [slaveReadHandler, hlt, slaveTransactionFinished, slaveProcessData]

theorem tracks_readHandler {d : TwiSlave} {txn : Option Txn} (h : Tracks d txn)
    (hw : ∀ t, txn = some t → t.read = false) (junk : I2cFrame) (b : UInt8) :
    Tracks (slaveReadHandler junk b d).1
      (txn.map fun t => t.receive b (slaveReadHandler junk b d).1.ctrlb) := by
  rw [slaveReadHandler_eq h.abort]
  by_cases hlt : d.bytesReceived < twisReceiveBufferSize
  · rw [if_pos hlt]
    constructor
    · exact h.abort
    · intro t ht hr
      obtain ⟨u, hu, rfl⟩ := Option.map_eq_some_iff.1 ht
      simp [Txn.receive, hw u hu] at hr
    · intro t ht hr hf
      obtain ⟨u, hu, rfl⟩ := Option.map_eq_some_iff.1 ht
      exact (h.held u hu (hw u hu) (by simpa [Txn.receive] using hf)).receive b hlt (by simp)
  · rw [if_neg hlt]
    constructor
    · exact h.abort
    · intro t ht hr
      obtain ⟨u, hu, rfl⟩ := Option.map_eq_some_iff.1 ht
      simp [Txn.receive, hw u hu] at hr
    · intro t ht hr hf
      obtain ⟨u, hu, rfl⟩ := Option.map_eq_some_iff.1 ht
      have hu := h.held u hu (hw u hu) (by simpa [Txn.receive] using hf)
      have h0 : u.bytes ≠ [] := by
        intro h0
        have := hu.len
        rw [h0] at this
        simp only [twisReceiveBufferSize, List.length_nil] at this hlt
        omega
      simp only [Txn.receive, if_true]
      exact ⟨hu.len, hu.data, by simpa using h0, hu.fits⟩

theorem tracks_addressMatch {d : TwiSlave} (ha : d.abort = false) (junk : I2cFrame) (r : Bool) :
    Tracks (slaveAddressMatchHandler junk d).1
      (some { read := r, bytes := [], refused := false, failed := false }) := by
  unfold slaveAddressMatchHandler
  rw [if_neg (by simp [ha])]
  refine Tracks.start ?_ ?_ ?_ r
  · exact ha
  · rfl
  · rfl

/-- Every interrupt keeps the driver in step with the bus. -/
theorem tracks_handler {s : Bus} (h : Tracks s.twi s.txn) {st : SlaveStatus}
    (hr : s.raises st = true) (data : UInt8) (junk : I2cFrame) :
    Tracks (slaveInterruptHandler st data junk s.twi).1
      (s.follow st data (slaveInterruptHandler st data junk s.twi).1.ctrlb) := by
  unfold slaveInterruptHandler Bus.follow
  unfold Bus.raises at hr
  cases hc : st.cause <;> simp only [hc] at hr ⊢
  case busError => exact h.fail rfl rfl
  case collision => exact h.fail rfl rfl
  case addressMatch => exact tracks_addressMatch h.abort junk st.dir
  case stop => exact Tracks.none h.abort
  case unexpected => exact h.fail rfl rfl
  case data =>
    have hdir : ∀ t, s.txn = some t → t.read = st.dir := by
      intro t ht
      simpa [ht] using hr
    cases hd : st.dir
    · simp only [hd] at hdir
      exact tracks_readHandler h hdir junk data
    · simp only [hd] at hdir
      simpa using tracks_writeHandler h hdir junk st.rxack

/-! ## Which interrupts call back -/

theorem writeHandler_calls (junk : I2cFrame) (rxack : Bool) (d : TwiSlave) :
    (0 < d.bytesSent ∧ rxack = true → ∃ f, (slaveWriteHandler junk rxack d).2 = some f) ∧
    (¬ (0 < d.bytesSent ∧ rxack = true) → (slaveWriteHandler junk rxack d).2 = none) := by
  unfold slaveWriteHandler
  constructor
  · intro h
    rw [if_pos h]
    exact slaveTransactionFinished_calls _ _
  · intro h
    rw [if_neg h]
    split
    · rfl
    · exact slaveTransactionFinished_none _ _ (by simp)

theorem readHandler_calls {d : TwiSlave} (ha : d.abort = false) (junk : I2cFrame) (b : UInt8) :
    (slaveReadHandler junk b d).2 = none := by
  rw [slaveReadHandler_eq ha]
  split <;> rfl

theorem addressMatch_calls {d : TwiSlave} (ha : d.abort = false) (junk : I2cFrame) :
    (slaveAddressMatchHandler junk d).2 = none := by
  simp [slaveAddressMatchHandler, ha]

/-- What a step adds to the calls and to what is due: as many calls as there is due, each with the
bytes due, but for the spurious steps, which call back with nothing due. -/
inductive Delivery (bad : Prop) : List I2cFrame → List (List UInt8) → Prop where
  | quiet (h : ¬ bad) : Delivery bad [] []
  | whole (h : ¬ bad) {f : I2cFrame} {bs : List UInt8} (hf : f.Carries bs) : Delivery bad [f] [bs]
  | spurious (h : bad) (f : I2cFrame) : Delivery bad [f] []

/-- The stop interrupt of a transaction. -/
theorem delivery_stop {d : TwiSlave} {t : Txn} (h : Tracks d (some t)) (hp : d.pien = true)
    (junk : I2cFrame) :
    Delivery (t.refused = true ∨ t.failed = true) (slaveStopHandler junk d).2.toList t.due := by
  have hr : t.read = false := by
    by_contra hr
    have := h.read t rfl (by simpa using hr)
    simp [hp] at this
  by_cases hbad : t.refused = true ∨ t.failed = true
  · obtain ⟨f, hf⟩ := slaveTransactionFinished_calls junk { d with pien := false }
    have hw : ¬ t.Whole := by
      rintro ⟨-, -, -, h1, h2⟩
      simp [h1, h2] at hbad
    have hdue : t.due = [] := if_neg hw
    have hcall : (slaveStopHandler junk d).2 = some f := hf
    rw [hcall, hdue]
    exact .spurious hbad f
  · have h1 : t.refused = false := by simpa using (not_or.1 hbad).1
    have h2 : t.failed = false := by simpa using (not_or.1 hbad).2
    have hh := h.held t rfl hr h2
    have hdue : t.due = [t.bytes] := if_pos (hh.whole hr h1 h2 hp)
    have hfit : d.bytesReceived < 2 ^ 16 := Nat.lt_of_le_of_lt hh.fits (by decide)
    obtain ⟨f, hf, hc⟩ := slaveTransactionFinished_carries junk
      { d with pien := false } (hh.pien.1 hp) hfit hh.len hh.data
    have hcall : (slaveStopHandler junk d).2 = some f := hf
    rw [hcall, hdue]
    exact .whole hbad hc

/-- A stop without an interrupt ends nothing that was due. -/
theorem due_silent {d : TwiSlave} {t : Txn} (h : Tracks d (some t)) (hp : d.pien = false) :
    t.due = [] := by
  refine if_neg fun hw => ?_
  have := hw.pien (h.held t rfl hw.1 hw.2.2.2.2)
  simp [hp] at this

theorem delivery_irq {s : Bus} (h : Tracks s.twi s.txn) {st : SlaveStatus}
    (hr : s.raises st = true) (data : UInt8) (junk : I2cFrame) :
    Delivery (s.Spurious (.irq st data junk)) (slaveInterruptHandler st data junk s.twi).2.toList
      (if st.cause = .stop then s.txn.toList.flatMap Txn.due else []) := by
  unfold slaveInterruptHandler Bus.Spurious
  unfold Bus.raises at hr
  cases hc : st.cause <;> simp only [hc, reduceCtorEq, if_false, if_true] at hr ⊢
  case busError => exact .quiet id
  case collision => exact .quiet id
  case addressMatch =>
    rw [addressMatch_calls h.abort]
    exact .quiet id
  case unexpected =>
    rw [slaveTransactionFinished_none _ _ (by simp)]
    exact .quiet id
  case stop =>
    obtain ⟨h1, h2⟩ := Bool.and_eq_true_iff.1 hr
    obtain ⟨t, ht⟩ := Option.isSome_iff_exists.1 h1
    rw [ht] at h ⊢
    simpa using delivery_stop h h2 junk
  case data =>
    cases hd : st.dir
    · simp only [Bool.false_eq_true, if_false, false_and]
      rw [readHandler_calls h.abort]
      exact .quiet id
    · simp only [if_true, true_and]
      obtain ⟨h1, h2⟩ := writeHandler_calls junk st.rxack s.twi
      by_cases hb : 0 < s.twi.bytesSent ∧ st.rxack = true
      · obtain ⟨f, hf⟩ := h1 hb
        rw [hf]
        exact .spurious hb.symm f
      · rw [h2 hb]
        exact .quiet fun h => hb h.symm

/-- The step lemma: a step keeps the driver in step with the bus, and delivers what is due unless
it is spurious. -/
theorem Bus.step_spec {s s' : Bus} {e : BusEvent} (h : Tracks s.twi s.txn)
    (hs : s.step e = some s') :
    Tracks s'.twi s'.txn ∧ ∃ fs bs, s'.calls = s.calls ++ fs ∧ s'.due = s.due ++ bs ∧
      Delivery (s.Spurious e) fs bs := by
  cases e with
  | irq st data stack =>
    simp only [Bus.step] at hs
    split at hs
    · next hr =>
      cases hs
      exact ⟨tracks_handler h hr data stack, _, _, rfl, rfl, delivery_irq h hr data stack⟩
    · cases hs
  | stop =>
    simp only [Bus.step] at hs
    split at hs
    · next hr =>
      cases hs
      simp only [Bool.and_eq_true, Bool.not_eq_true', Option.isSome_iff_exists] at hr
      obtain ⟨⟨t, ht⟩, hp⟩ := hr
      rw [ht] at h
      refine ⟨Tracks.none h.abort, [], [], by simp, ?_, .quiet id⟩
      simp [ht, due_silent h hp]
    · cases hs

/-- The run lemma: there are never fewer calls than due, and the calls are what is due exactly when
no step is spurious. -/
theorem Bus.run_spec : ∀ (es : List BusEvent) {s s' : Bus}, Tracks s.twi s.txn →
    es.foldlM Bus.step s = some s' →
    ∃ fs bs, s'.calls = s.calls ++ fs ∧ s'.due = s.due ++ bs ∧ bs.length ≤ fs.length ∧
      (Avoids Bus.step Bus.Spurious s es → List.Forall₂ I2cFrame.Carries fs bs) ∧
      (¬ Avoids Bus.step Bus.Spurious s es → bs.length < fs.length)
  | [], s, s', _, hs => by
    obtain rfl : s = s' := by simpa using hs
    exact ⟨[], [], by simp, by simp, le_rfl, fun _ => .nil, fun h => absurd trivial h⟩
  | e :: es, s, s', h, hs => by
    obtain ⟨u, hu, hs⟩ := foldlM_cons hs
    obtain ⟨hT, fs, bs, hc, hd, hdel⟩ := Bus.step_spec h hu
    obtain ⟨fs', bs', hc', hd', hle, hgood, hbad⟩ := Bus.run_spec es hT hs
    refine ⟨fs ++ fs', bs ++ bs', by rw [hc', hc, List.append_assoc],
      by rw [hd', hd, List.append_assoc], ?_, ?_, ?_⟩
    · cases hdel <;> simp <;> omega
    · rw [avoids_cons hu]
      rintro ⟨h1, h2⟩
      cases hdel with
      | quiet _ => exact hgood h2
      | whole _ hf => exact .cons hf (hgood h2)
      | spurious hb _ => exact absurd hb h1
    · rw [avoids_cons hu]
      intro hn
      cases hdel with
      | quiet hq => simpa using hbad fun ha => hn ⟨hq, ha⟩
      | whole hq _ => simpa using hbad fun ha => hn ⟨hq, ha⟩
      | spurious _ _ => simp; omega

/-- **Reception.** Over every sequence of bus events, `callbackFunction` is called once for each
whole master write, in order and with its bytes, and for nothing else, exactly when no step is
spurious. -/
theorem frames_received (receivedData sendData : Mem UInt8) (es : List BusEvent) {s : Bus}
    (h : es.foldlM Bus.step (Bus.boot receivedData sendData) = some s) :
    List.Forall₂ I2cFrame.Carries s.calls s.due ↔
      Avoids Bus.step Bus.Spurious (Bus.boot receivedData sendData) es := by
  obtain ⟨fs, bs, hc, hd, -, hgood, hbad⟩ := Bus.run_spec es (Tracks.none rfl) h
  have hc : s.calls = fs := by simpa [Bus.boot] using hc
  have hd : s.due = bs := by simpa [Bus.boot] using hd
  rw [hc, hd]
  constructor
  · intro hall
    by_contra hn
    exact absurd hall.length_eq (Nat.ne_of_gt (hbad hn))
  · exact hgood

/-! ## Some transactions -/

def SlaveStatus.clear : SlaveStatus :=
  { buserr := false, coll := false, apif := false, ap := false, dif := false, dir := false,
    rxack := false }

/-- An address match, a data byte, the stop, and the bus error of a transaction; `read` is the
direction, `nack` the acknowledge bit of the master. -/
def addressed (read : Bool) : SlaveStatus :=
  { SlaveStatus.clear with apif := true, ap := true, dir := read }
def dataReady (read nack : Bool) : SlaveStatus :=
  { SlaveStatus.clear with dif := true, dir := read, rxack := nack }
def stopped : SlaveStatus := { SlaveStatus.clear with apif := true }
def busFault : SlaveStatus := { SlaveStatus.clear with buserr := true }

/-- The master writes `bs` and stops. -/
def masterWrites (stack : I2cFrame) (bs : List UInt8) : List BusEvent :=
  .irq (addressed false) 0 stack :: bs.map (fun b => .irq (dataReady false false) b stack) ++
    [.irq stopped 0 stack]

/-- The master reads one byte, does not acknowledge it and stops. -/
def masterReads (stack : I2cFrame) : List BusEvent :=
  [.irq (addressed true) 0 stack, .irq (dataReady true false) 0 stack,
    .irq (dataReady true true) 0 stack, .stop]

/-- A bus error after the first byte of a write. -/
def writeFails (stack : I2cFrame) : List BusEvent :=
  [.irq (addressed false) 0 stack, .irq (dataReady false false) 7 stack, .irq busFault 0 stack,
    .irq stopped 0 stack]

def noFrame : I2cFrame :=
  { padding := 0, retries := 0, reserved := 0, dest := 0, lenRx := 0, len := 0, data := fun _ => 0 }

theorem frames_received_write :
    ∃ s, (masterWrites noFrame [1, 2, 3]).foldlM Bus.step (Bus.boot (fun _ => 0) fun _ => 0) =
        some s ∧
      s.due = [[1, 2, 3]] ∧ List.Forall₂ I2cFrame.Carries s.calls s.due := by
  refine ⟨_, rfl, rfl, 
    (frames_received (fun _ => 0) (fun _ => 0) (masterWrites noFrame [1, 2, 3]) rfl).2 ?_⟩
  simp [masterWrites, Avoids, Bus.Spurious, Bus.step, Bus.boot, Bus.raises, Bus.follow,
    SlaveStatus.cause, addressed, dataReady, stopped, SlaveStatus.clear, slaveInitialize,
    slaveInterruptHandler, slaveAddressMatchHandler, slaveReadHandler, Txn.receive,
    twisReceiveBufferSize]

/-- Uninitialised storage is delivered after a master read, 72 bytes of a longer write, and
uninitialised storage again after a bus error. -/
theorem frames_spurious :
    (∃ s, (masterReads noFrame).foldlM Bus.step (Bus.boot (fun _ => 0) fun _ => 0) = some s ∧
      ¬ List.Forall₂ I2cFrame.Carries s.calls s.due) ∧
    (∃ s, (masterWrites noFrame (List.replicate 73 9)).foldlM Bus.step
        (Bus.boot (fun _ => 0) fun _ => 0) = some s ∧
      ¬ List.Forall₂ I2cFrame.Carries s.calls s.due) ∧
    (∃ s, (writeFails noFrame).foldlM Bus.step (Bus.boot (fun _ => 0) fun _ => 0) = some s ∧
      ¬ List.Forall₂ I2cFrame.Carries s.calls s.due) := by
  refine ⟨⟨_, rfl, fun h => ?_⟩, ⟨_, rfl, fun h => ?_⟩, ⟨_, rfl, fun h => ?_⟩⟩
  · exact absurd h.length_eq (by decide)
  · exact absurd h.length_eq (by decide)
  · exact absurd h.length_eq (by decide)

end HmBoard
