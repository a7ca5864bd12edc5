import HmBoard.Avr
import HmBoard.TwiMaster

/-!
# The temperature sensor behind `ADT_get_temperature` (ADT7420.c)

| here | there |
| --- | --- |
| `masterWriteRead`    | a whole call of `TWI_MasterWriteRead` (twi_master_driver.c:193), statement by statement |
| `Adt.getTemperature` | `ADT_get_temperature` (ADT7420.c:25-37) |
| `Adt.interrupt`      | `ISR(ADT_I2C_TWIM)` (ADT7420.c:41-44), on the interrupt the bus raises |

`ADT_get_temperature` looks neither at what `TWI_MasterWriteRead` returns nor at `twi->result`:
after 250 ms it returns what is in `readData`, and `sendFreeHeapSpace` sends that in any case. The
value is a measurement of this call exactly when the master was ready and the whole transaction
came through in time (`temperature_measured_iff`).
-/

namespace HmBoard

open Lib

/-! ## A whole call of the driver -/

/-- The statements from `pc` on: the driver, the address byte of the START, and what is returned. -/
def MasterPc.runCall (w : WriteRead) :
    Nat → MasterPc → TwiMaster → Option UInt8 → TwiMaster × Option UInt8 × Bool
  | 0, _, t, a => (t, a, false)
  | n + 1, pc, t, a =>
    match pc.next w t with
    | .pass pc => runCall w n pc t a
    | .store t pc => runCall w n pc t a
    | .start b pc => runCall w n pc t (some b)
    | .ret b => (t, a, b)

def masterWriteRead (w : WriteRead) (t : TwiMaster) : TwiMaster × Option UInt8 × Bool :=
  MasterPc.runCall w (w.bytesToWrite + 14) .sanity t none

/-- The driver when the START goes out. -/
def WriteRead.load (w : WriteRead) (t : TwiMaster) : TwiMaster :=
  { t with
    status := .busy
    result := .unknown
    address := w.address <<< 1
    writeData := t.writeData.write 0 (w.writeData.read 0 w.bytesToWrite)
    bytesToWrite := w.bytesToWrite
    bytesToRead := w.bytesToRead
    bytesWritten := 0
    bytesRead := 0 }

theorem runCall_fill {w : WriteRead} (n : Nat) (a : Option UInt8) : ∀ (k i : Nat) (t : TwiMaster),
    i + k = w.bytesToWrite →
      MasterPc.runCall w (k + n + 1) (.fill i) t a = MasterPc.runCall w n .setBytesToWrite
        { t with writeData := t.writeData.write i (w.writeData.read i k) } a
  | 0, i, t, h => by
    rw [Nat.zero_add, MasterPc.runCall, MasterPc.next, if_neg (by omega), Mem.read_zero,
      Mem.write_nil]
  | k + 1, i, t, h => by
    rw [MasterPc.runCall, MasterPc.next, if_pos (by omega), Nat.add_right_comm]
    dsimp only
    rw [runCall_fill n a k (i + 1) _ (by omega), Mem.read_cons, ← Mem.write_cons]

theorem runCall_end {w : WriteRead} (h : 0 < w.bytesToWrite) (t : TwiMaster) (a : Option UInt8) :
    MasterPc.runCall w 8 .setBytesToWrite t a =
      ({ t with
          bytesToWrite := w.bytesToWrite
          bytesToRead := w.bytesToRead
          bytesWritten := 0
          bytesRead := 0 }, some (t.address &&& ~~~0x01), true) := by
  simp only [MasterPc.runCall, MasterPc.next, if_pos h]

theorem runCall_accepted {w : WriteRead} {t : TwiMaster} (h : t.status = .ready) (n : Nat)
    (a : Option UInt8) :
    MasterPc.runCall w (n + 4) .ready t a =
      MasterPc.runCall w n (.fill 0)
        { t with status := .busy, result := .unknown, address := w.address <<< 1 } a := by
  simp only [MasterPc.runCall, MasterPc.next, if_pos h]

/-- A call for a write that may be followed by a read. -/
theorem masterWriteRead_eq {w : WriteRead} (h0 : 0 < w.bytesToWrite)
    (h1 : w.bytesToWrite ≤ twimWriteBufferSize) (h2 : w.bytesToRead ≤ twimReadBufferSize)
    (t : TwiMaster) :
    masterWriteRead w t =
      if t.status = .ready then (w.load t, some (w.address <<< 1 &&& ~~~0x01), true)
      else (t, none, false) := by
  rw [masterWriteRead, MasterPc.runCall, MasterPc.next, if_neg (by omega), if_neg (by omega)]
  dsimp only
  by_cases ht : t.status = .ready
  · rw [if_pos ht, runCall_accepted ht, runCall_fill 8 none w.bytesToWrite 0 _ (by omega),
      runCall_end h0]
    rfl
  · rw [if_neg ht, MasterPc.runCall, MasterPc.next, if_neg ht]
    rfl

/-! ## The bus -/

/-- How a byte that the master has ordered ends on the bus. -/
inductive Outcome where
  /-- It is transferred: a byte sent is acknowledged or not, a byte read is `data`. -/
  | done (ack : Bool) (data : UInt8)
  | arbitrationLost
  | busError
deriving DecidableEq, Repr

/-- `MASTER.STATUS` and `MASTER.DATA` at the interrupt that reports the outcome; after a STOP, or
when nothing was ordered, there is none. An address with the read bit that is acknowledged orders
the first byte as well. -/
def Outcome.report : MasterAction → Outcome → Option (MasterStatus × UInt8)
  | .none, _ | .stop, _ | .nackStop, _ => none
  | _, .arbitrationLost => some (⟨true, false, true, false, false⟩, 0)
  | _, .busError => some (⟨false, true, true, false, false⟩, 0)
  | .data _, .done ack _ => some (⟨false, false, true, false, !ack⟩, 0)
  | .recvtrans, .done ack b => some (⟨false, false, false, true, !ack⟩, b)
  | .addr a, .done ack b =>
    if a &&& 0x01 = 0x01 ∧ ack = true then some (⟨false, false, false, true, false⟩, b)
    else some (⟨false, false, true, false, !ack⟩, 0)

/-- The handler stores `MASTER.DATA` into `readData`. -/
def MasterStatus.fetches (st : MasterStatus) (t : TwiMaster) : Bool :=
  !st.arblost && !st.buserr && !st.wif && st.rif && decide (t.bytesRead < twimReadBufferSize)

/-- `twi_adt_master` and its bus. -/
structure Adt where
  master : TwiMaster
  /-- What the bus is doing for the master. -/
  pending : MasterAction
  /-- `adt_write_buffer` -/
  writeBuffer : Mem UInt8
  /-- The number of transactions started. -/
  started : Nat
  /-- The bytes read in the transaction started last. -/
  fetched : List UInt8

namespace Adt

/-- `ADT_I2C_ADDRESS` -/
def i2cAddress : UInt8 := 0x48
/-- `ADT_REG_TEMPERATURE` -/
def regTemperature : UInt8 := 0x00

/-- `ISR(ADT_I2C_TWIM)`, when the bus is done with what was ordered. -/
def interrupt (s : Adt) (o : Outcome) : Adt :=
  match o.report s.pending with
  | none => s
  | some (st, b) =>
    { s with
      master := (masterInterruptHandler st b s.master).1
      pending := (masterInterruptHandler st b s.master).2
      fetched := if st.fetches s.master then s.fetched ++ [b] else s.fetched }

/-- `TWI_MasterWriteRead(&twi_adt_master, …)` -/
def writeRead (s : Adt) (w : WriteRead) : Adt :=
  match masterWriteRead w s.master with
  | (t, none, _) => { s with master := t }
  | (t, some a, _) =>
    { s with master := t, pending := .addr a, started := s.started + 1, fetched := [] }

/-- `ADT_get_temperature` up to its wait. -/
def request (s : Adt) : Adt :=
  let s := { s with writeBuffer := s.writeBuffer.write 0 [regTemperature] }
  s.writeRead ⟨i2cAddress, s.writeBuffer, 1, 2⟩

/-- `ADT_get_temperature` (ADT7420.c:25-37), where the outcomes `wait` come before `readData[0]` is
read and `late` between that and the read of `readData[1]`: the state at either, and the value. -/
def getTemperature (s : Adt) (wait late : List Outcome) : Adt × Adt × Int :=
  let s := wait.foldl interrupt s.request
  let s' := late.foldl interrupt s
  (s, s', i16 ((s.master.readData 0).toNat <<< 8 ||| (s'.master.readData 1).toNat : Nat))

/-- Both bytes of the value were read in a transaction that this call has started. -/
def Measured (s : Adt) (wait late : List Outcome) : Prop :=
  let r := s.getTemperature wait late
  r.1.started = s.started + 1 ∧ r.2.1.started = s.started + 1 ∧
    ∃ hi lo, r.1.fetched[0]? = some hi ∧ r.2.1.fetched[1]? = some lo ∧
      r.2.2 = i16 (hi.toNat <<< 8 ||| lo.toNat : Nat)

/-- The sensor's address, the register and the address again are acknowledged and the first byte
arrives, all before `readData[0]` is read, and the second before `readData[1]` is. -/
def Delivered (wait late : List Outcome) : Prop :=
  ∃ b c hi rest, wait = .done true b :: .done true c :: .done true hi :: rest ∧
    ∃ ack lo rest', rest ++ late = .done ack lo :: rest'

/-! ## A transaction that ends -/

/-- Nothing is ordered on the bus. -/
def Idle (s : Adt) : Prop := ∀ o : Outcome, o.report s.pending = none

variable {s : Adt}

theorem interrupts_idle (h : s.Idle) : ∀ os : List Outcome, os.foldl interrupt s = s
  | [] => rfl
  | o :: os => by
    have ho : s.interrupt o = s := by rw [interrupt, h o]
    rw [List.foldl_cons, ho]
    exact interrupts_idle h os

theorem started_interrupt (s : Adt) (o : Outcome) : (s.interrupt o).started = s.started := by
  unfold interrupt
  split
  · rfl
  · rfl

theorem started_interrupts : ∀ (os : List Outcome) (s : Adt),
    (os.foldl interrupt s).started = s.started
  | [], _ => rfl
  | o :: os, s => by
    rw [List.foldl_cons, started_interrupts os, started_interrupt]

/-- How far the transaction of the call is, with the bytes it has read. -/
inductive Leg where
  | address
  | register
  | again
  | second (hi : UInt8)
  | ended (bs : List UInt8)

def Leg.bytes : Leg → List UInt8
  | .address | .register | .again => []
  | .second hi => [hi]
  | .ended bs => bs

def Leg.next : Leg → Outcome → Leg
  | .address, .done true _ => .register
  | .register, .done true _ => .again
  | .again, .done true hi => .second hi
  | .second hi, .done _ lo => .ended [hi, lo]
  | l, _ => .ended l.bytes

/-- The transaction of a temperature request, after `written` and `read` bytes. -/
structure Underway (s : Adt) (written read : Nat) : Prop where
  address : s.master.address = 0x90
  bytesToWrite : s.master.bytesToWrite = 1
  bytesToRead : s.master.bytesToRead = 2
  bytesWritten : s.master.bytesWritten = written
  bytesRead : s.master.bytesRead = read

def At (s : Adt) : Leg → Prop
  | .address => s.Underway 0 0 ∧ s.pending = .addr 0x90
  | .register => s.Underway 1 0 ∧ ∃ b, s.pending = .data b
  | .again => s.Underway 1 0 ∧ s.pending = .addr 0x91
  | .second _ => s.Underway 1 1 ∧ s.pending = .recvtrans
  | .ended _ => s.Idle

/-- The driver and the bus are where `l` says, and its bytes are in `readData`. -/
structure Follows (s : Adt) (l : Leg) : Prop where
  here : s.At l
  fetched : s.fetched = l.bytes
  stored : s.master.readData.read 0 l.bytes.length = l.bytes

/-- What the interrupt does that reports an outcome. -/
theorem interrupt_eq {o : Outcome} {st : MasterStatus} {b : UInt8} {t : TwiMaster}
    {a : MasterAction} (ho : o.report s.pending = some (st, b))
    (ht : masterInterruptHandler st b s.master = (t, a)) :
    s.interrupt o = { s with
      master := t, pending := a
      fetched := if st.fetches s.master then s.fetched ++ [b] else s.fetched } := by
  rw [interrupt, ho]
  dsimp only
  rw [ht]

theorem follows_failed {l : Leg} {o : Outcome} {st : MasterStatus} {b : UInt8} {t : TwiMaster}
    {a : MasterAction} (h : s.Follows l) (ho : o.report s.pending = some (st, b))
    (ht : masterInterruptHandler st b s.master = (t, a)) (hf : st.fetches s.master = false)
    (ha : ∀ o : Outcome, o.report a = none) (hr : t.readData = s.master.readData) :
    (s.interrupt o).Follows (.ended l.bytes) := by
  rw [interrupt_eq ho ht, hf]
  refine ⟨ha, h.fetched, ?_⟩
  show t.readData.read 0 l.bytes.length = l.bytes
  rw [hr]
  exact h.stored

theorem follows_lost {l : Leg} {o : Outcome} {st : MasterStatus} {b : UInt8} (h : s.Follows l)
    (ho : o.report s.pending = some (st, b)) (hst : st.arblost = true ∨ st.buserr = true) :
    (s.interrupt o).Follows (.ended l.bytes) := by
  have hor : (st.arblost || st.buserr) = true := by simpa using hst
  refine follows_failed h ho (t := (masterInterruptHandler st b s.master).1)
    (a := (masterInterruptHandler st b s.master).2) rfl ?_ ?_ ?_
  · rcases hst with h1 | h1 <;> simp [MasterStatus.fetches, h1]
  · rw [masterInterruptHandler, if_pos hor]
    exact fun _ => rfl
  · rw [masterInterruptHandler, if_pos hor]

theorem follows_nack {l : Leg} {o : Outcome} (h : s.Follows l)
    (ho : o.report s.pending = some (⟨false, false, true, false, true⟩, 0)) :
    (s.interrupt o).Follows (.ended l.bytes) :=
  follows_failed h ho rfl rfl (fun _ => rfl) rfl

/-! ## Its bytes -/

theorem interrupt_write {o : Outcome}
    (ho : o.report s.pending = some (⟨false, false, true, false, false⟩, 0))
    (h : s.master.bytesWritten < s.master.bytesToWrite) :
    s.interrupt o = { s with
      master := { s.master with bytesWritten := s.master.bytesWritten + 1 }
      pending := .data (s.master.writeData s.master.bytesWritten) } := by
  have ht : masterWriteHandler false s.master =
      ({ s.master with bytesWritten := s.master.bytesWritten + 1 },
        .data (s.master.writeData s.master.bytesWritten)) := by
    rw [masterWriteHandler, if_neg Bool.false_ne_true, if_pos h]
  exact interrupt_eq ho ht

theorem interrupt_restart {o : Outcome}
    (ho : o.report s.pending = some (⟨false, false, true, false, false⟩, 0))
    (h : ¬ s.master.bytesWritten < s.master.bytesToWrite)
    (h' : s.master.bytesRead < s.master.bytesToRead) :
    s.interrupt o = { s with pending := .addr (s.master.address ||| 0x01) } := by
  have ht : masterWriteHandler false s.master = (s.master, .addr (s.master.address ||| 0x01)) := by
    rw [masterWriteHandler, if_neg Bool.false_ne_true, if_neg h, if_pos h']
  exact interrupt_eq ho ht

theorem interrupt_fetch {o : Outcome} {ack : Bool} {b : UInt8}
    (ho : o.report s.pending = some (⟨false, false, false, true, ack⟩, b))
    (h : s.master.bytesRead < twimReadBufferSize) :
    ∃ t a, s.interrupt o = { s with master := t, pending := a, fetched := s.fetched ++ [b] } ∧
      t.readData = s.master.readData.write s.master.bytesRead [b] ∧
      if s.master.bytesRead + 1 < s.master.bytesToRead then
        t = { s.master with
          readData := s.master.readData.write s.master.bytesRead [b]
          bytesRead := s.master.bytesRead + 1 } ∧ a = .recvtrans
      else a = .nackStop := by
  have hf : (⟨false, false, false, true, ack⟩ : MasterStatus).fetches s.master = true := by
    simpa [MasterStatus.fetches] using h
  by_cases hmore : s.master.bytesRead + 1 < s.master.bytesToRead
  · have ht : masterReadHandler b s.master = ({ s.master with
        readData := s.master.readData.write s.master.bytesRead [b]
        bytesRead := s.master.bytesRead + 1 }, .recvtrans) := by
      rw [masterReadHandler, if_pos h]
      exact if_pos hmore
    refine ⟨_, _, (interrupt_eq ho ht).trans (by rw [hf, if_pos rfl]), rfl, ?_⟩
    rw [if_pos hmore]
    exact ⟨rfl, rfl⟩
  · have ht : masterReadHandler b s.master = (masterTransactionFinished { s.master with
        readData := s.master.readData.write s.master.bytesRead [b]
        bytesRead := s.master.bytesRead + 1 } .ok, .nackStop) := by
      rw [masterReadHandler, if_pos h]
      exact if_neg hmore
    refine ⟨_, _, (interrupt_eq ho ht).trans (by rw [hf, if_pos rfl]), rfl, ?_⟩
    rw [if_neg hmore]

theorem follows_interrupt {l : Leg} (h : s.Follows l) (o : Outcome) :
    (s.interrupt o).Follows (l.next o) := by
  obtain ⟨hat, hfetched, hstored⟩ := id h
  cases l with
  | address =>
    obtain ⟨hu, hp⟩ := hat
    rcases o with ⟨_ | _, b⟩ | _ | _
    · exact follows_nack h (by rw [hp]; rfl)
    · rw [interrupt_write (by rw [hp]; rfl) (by rw [hu.bytesWritten, hu.bytesToWrite]; decide)]
      have hw : s.master.bytesWritten + 1 = 1 := congrArg (· + 1) hu.bytesWritten
      exact ⟨⟨{ hu with bytesWritten := hw }, _, rfl⟩, hfetched, hstored⟩
    · exact follows_lost h (by rw [hp]; rfl) (.inl rfl)
    · exact follows_lost h (by rw [hp]; rfl) (.inr rfl)
  | register =>
    obtain ⟨hu, c, hp⟩ := hat
    rcases o with ⟨_ | _, b⟩ | _ | _
    · exact follows_nack h (by rw [hp]; rfl)
    · rw [interrupt_restart (by rw [hp]; rfl) (by rw [hu.bytesWritten, hu.bytesToWrite]; decide)
        (by rw [hu.bytesRead, hu.bytesToRead]; decide)]
      have ha : s.master.address ||| 0x01 = 0x91 := by
        rw [hu.address]
        rfl
      exact ⟨⟨{ hu with }, congrArg MasterAction.addr ha⟩, hfetched, hstored⟩
    · exact follows_lost h (by rw [hp]; rfl) (.inl rfl)
    · exact follows_lost h (by rw [hp]; rfl) (.inr rfl)
  | again =>
    obtain ⟨hu, hp⟩ := hat
    rcases o with ⟨_ | _, b⟩ | _ | _
    · exact follows_nack h (by rw [hp]; rfl)
    · have ho : (Outcome.done true b).report s.pending = some (⟨false, false, false, true, false⟩, b) := by
        rw [hp]
        rfl
      obtain ⟨t, a, hi, hr, hmore⟩ := interrupt_fetch ho (by rw [hu.bytesRead]; decide)
      rw [if_pos (by rw [hu.bytesRead, hu.bytesToRead]; decide)] at hmore
      obtain ⟨rfl, rfl⟩ := hmore
      rw [hi]
      have hn : s.master.bytesRead + 1 = 1 := congrArg (· + 1) hu.bytesRead
      refine ⟨⟨{ hu with bytesRead := hn }, rfl⟩, ?_, ?_⟩
      · show s.fetched ++ [b] = [b]
        rw [hfetched]
        rfl
      · show (s.master.readData.write s.master.bytesRead [b]).read 0 1 = [b]
        rw [hu.bytesRead]
        exact Mem.read_write_self _ 0 [b]
    · exact follows_lost h (by rw [hp]; rfl) (.inl rfl)
    · exact follows_lost h (by rw [hp]; rfl) (.inr rfl)
  | second hi =>
    obtain ⟨hu, hp⟩ := hat
    rcases o with ⟨ack, b⟩ | _ | _
    · have ho : (Outcome.done ack b).report s.pending = some (⟨false, false, false, true, !ack⟩, b) := by
        rw [hp]
        rfl
      obtain ⟨t, a, hi', hr, hmore⟩ := interrupt_fetch ho (by rw [hu.bytesRead]; decide)
      rw [if_neg (by rw [hu.bytesRead, hu.bytesToRead]; decide)] at hmore
      subst hmore
      rw [hi']
      refine ⟨fun _ => rfl, ?_, ?_⟩
      · show s.fetched ++ [b] = [hi, b]
        rw [hfetched]
        rfl
      · show t.readData.read 0 2 = [hi, b]
        rw [hr, hu.bytesRead, Mem.read_succ, Mem.read_write_disjoint _ (.inl (by decide : 0 + 1 ≤ 1))]
        have hone : 0 < [b].length := Nat.one_pos
        exact congrArg₂ (· ++ [·]) hstored (Mem.write_inside _ hone)
    · exact follows_lost h (by rw [hp]; rfl) (.inl rfl)
    · exact follows_lost h (by rw [hp]; rfl) (.inr rfl)
  | ended bs =>
    have ho : s.interrupt o = s := by
      rw [interrupt, hat o]
    rw [ho]
    exact h

theorem follows_interrupts : ∀ (os : List Outcome) {s : Adt} {l : Leg}, s.Follows l →
    (os.foldl interrupt s).Follows (os.foldl Leg.next l)
  | [], _, _, h => h
  | o :: os, _, _, h => follows_interrupts os (follows_interrupt h o)

/-- What was fetched is where `ADT_get_temperature` reads. -/
theorem Follows.readData {l : Leg} (h : s.Follows l) {i : Nat} {b : UInt8}
    (hb : l.bytes[i]? = some b) : s.master.readData i = b := by
  obtain ⟨hlt, hget⟩ := List.getElem?_eq_some_iff.mp hb
  have hread : (s.master.readData.read 0 l.bytes.length)[i]? = some b := by
    rw [h.stored]
    exact hb
  rw [List.getElem?_eq_getElem (by simpa using hlt), Mem.getElem_read, Nat.zero_add] at hread
  exact Option.some.inj hread

/-! ## The legs -/

theorem legs_ended (bs : List UInt8) : ∀ os : List Outcome, os.foldl Leg.next (.ended bs) = .ended bs
  | [] => rfl
  | _ :: os => legs_ended bs os

theorem legs_append (wait late : List Outcome) (l : Leg) :
    late.foldl Leg.next (wait.foldl Leg.next l) = (wait ++ late).foldl Leg.next l :=
  List.foldl_append.symm

theorem first_byte_kept (os : List Outcome) (hi : UInt8) :
    (os.foldl Leg.next (.second hi)).bytes[0]? = some hi := by
  rcases os with _ | ⟨⟨ack, b⟩ | _ | _, os⟩
  · rfl
  · simp [Leg.next, legs_ended, Leg.bytes]
  · simp [Leg.next, legs_ended, Leg.bytes]
  · simp [Leg.next, legs_ended, Leg.bytes]

theorem first_byte_iff (os : List Outcome) (hi : UInt8) :
    (os.foldl Leg.next .address).bytes[0]? = some hi ↔
      ∃ b c rest, os = .done true b :: .done true c :: .done true hi :: rest := by
  rcases os with _ | ⟨⟨_ | _, b⟩ | _ | _, os⟩
  case cons.done.true =>
    rcases os with _ | ⟨⟨_ | _, c⟩ | _ | _, os⟩
    case cons.done.true =>
      rcases os with _ | ⟨⟨_ | _, hi'⟩ | _ | _, os⟩
      case cons.done.true =>
        simp only [List.foldl_cons, Leg.next, first_byte_kept, Option.some.injEq]
        constructor
        · rintro rfl
          exact ⟨b, c, os, rfl⟩
        · rintro ⟨b', c', rest, h⟩
          simp only [List.cons.injEq, Outcome.done.injEq] at h
          exact h.2.2.1.2
      all_goals simp [Leg.next, legs_ended, Leg.bytes]
    all_goals simp [Leg.next, legs_ended, Leg.bytes]
  all_goals simp [Leg.next, legs_ended, Leg.bytes]

theorem second_byte_iff (os : List Outcome) (hi lo : UInt8) :
    (os.foldl Leg.next (.second hi)).bytes[1]? = some lo ↔
      ∃ ack rest, os = .done ack lo :: rest := by
  rcases os with _ | ⟨⟨ack, b⟩ | _ | _, os⟩
  · simp [Leg.bytes]
  · simp [Leg.next, legs_ended, Leg.bytes]
  · simp [Leg.next, legs_ended, Leg.bytes]
  · simp [Leg.next, legs_ended, Leg.bytes]

/-! ## The call -/

theorem masterWriteRead_request (buf : Mem UInt8) (t : TwiMaster) :
    masterWriteRead ⟨i2cAddress, buf, 1, 2⟩ t =
      if t.status = .ready then (WriteRead.load ⟨i2cAddress, buf, 1, 2⟩ t, some 0x90, true)
      else (t, none, false) := by
  have ha : i2cAddress <<< 1 &&& ~~~0x01 = 0x90 := by decide
  rw [← ha]
  exact masterWriteRead_eq (w := ⟨i2cAddress, buf, 1, 2⟩) Nat.one_pos (show 1 ≤ 255 by decide)
    (show 2 ≤ 20 by decide) t

theorem request_ready (h : s.master.status = .ready) :
    s.request.Follows .address ∧ s.request.started = s.started + 1 := by
  rw [request, writeRead, masterWriteRead_request, if_pos h]
  exact ⟨⟨⟨⟨rfl, rfl, rfl, rfl, rfl⟩, rfl⟩, rfl, rfl⟩, rfl⟩

theorem request_busy (h : s.master.status ≠ .ready) : s.request.started = s.started := by
  rw [request, writeRead, masterWriteRead_request, if_neg h]

/-- The value is a measurement of this call if and only if the master was ready and all of its
transaction came through before the reads. -/
theorem temperature_measured_iff (s : Adt) (wait late : List Outcome) :
    s.Measured wait late ↔ s.master.status = .ready ∧ Delivered wait late := by
  by_cases hready : s.master.status = .ready
  · obtain ⟨hfollows, hstarted⟩ := request_ready hready
    have h1 := follows_interrupts wait hfollows
    have h2 := follows_interrupts late h1
    rw [legs_append] at h2
    constructor
    · rintro ⟨-, -, hi, lo, hhi, hlo, -⟩
      refine ⟨hready, ?_⟩
      have hhi' : (wait.foldl Leg.next .address).bytes[0]? = some hi := by
        rw [← h1.fetched]
        exact hhi
      have hlo' : ((wait ++ late).foldl Leg.next .address).bytes[1]? = some lo := by
        rw [← h2.fetched]
        exact hlo
      obtain ⟨b, c, rest, rfl⟩ := (first_byte_iff wait hi).mp hhi'
      obtain ⟨ack, rest', hrest⟩ := (second_byte_iff (rest ++ late) hi lo).mp hlo'
      exact ⟨b, c, hi, rest, rfl, ack, lo, rest', hrest⟩
    · rintro ⟨-, b, c, hi, rest, rfl, ack, lo, rest', hrest⟩
      have hhi := (first_byte_iff _ hi).mpr ⟨b, c, rest, rfl⟩
      have hlo := (second_byte_iff _ hi lo).mpr ⟨ack, rest', hrest⟩
      refine ⟨?_, ?_, hi, lo, ?_, ?_, ?_⟩
      · exact (started_interrupts _ _).trans hstarted
      · exact (started_interrupts _ _).trans ((started_interrupts _ _).trans hstarted)
      · exact (congrArg (·[0]?) h1.fetched).trans hhi
      · exact (congrArg (·[1]?) h2.fetched).trans hlo
      · rw [getTemperature]
        dsimp only
        rw [h1.readData hhi, h2.readData hlo]
  · constructor
    · rintro ⟨hstarted, -⟩
      rw [getTemperature] at hstarted
      dsimp only at hstarted
      rw [started_interrupts, request_busy hready] at hstarted
      omega
    · exact fun h => absurd h.1 hready

/-- 25 degrees, measured by an earlier call. -/
def measured25 : Adt where
  master := ⟨0x90, fun _ => 0, fun i => if i = 0 then 12 else 128, 1, 2, 1, 2, .ready, .ok⟩
  pending := .nackStop
  writeBuffer _ := 0
  started := 1
  fetched := [12, 128]

/-- The sensor does not acknowledge its address, and the 25 degrees are returned again. -/
theorem temperature_stale :
    (measured25.getTemperature [.done false 0] []).2.2 = 25 * 128 ∧
      (measured25.getTemperature [.done false 0] []).1.fetched = [] ∧
      ¬ ∀ (s : Adt) (wait late : List Outcome), s.Measured wait late := by
  refine ⟨by decide, by decide, fun h => ?_⟩
  obtain ⟨-, -, hi, lo, hhi, -⟩ := h measured25 [.done false 0] []
  cases hhi

end Adt

end HmBoard
