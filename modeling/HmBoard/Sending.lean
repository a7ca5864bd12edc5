import HmBoard.Lib.Run
import HmBoard.TwiMaster
import Mathlib.Data.List.Infix
import Mathlib.Logic.Function.Basic

/-!
# Concurrent `i2c_send`

Any set `D` of tasks calls `i2c_send` on the one `twi_csp_master`. A step is the start of a call,
the next statement of a task's call, or a write interrupt of the master, which runs to its end
while the tasks stand still. The slave acknowledges every byte, so after each address or data byte
the interrupt comes; a `STOP` frees the bus.

`done` and `current` are what has gone over the bus. `log`, `accepted`, `refused` are histories:
the calls that have written `MASTER.ADDR`, those that returned `E_NO_ERR`, and those that did not,
with whether any of their statements had stored something.
-/

namespace HmBoard

open Lib

/-- A frame of length 1..255. -/
structure OutFrame where
  frame : I2cFrame
  pos   : 1 ≤ frame.len.toNat
  fits  : frame.len.toNat ≤ i2cMtu

/-- The bytes on the bus between a START and the next START or STOP. -/
structure Transfer where
  address : UInt8
  bytes   : List UInt8

namespace OutFrame

/-- The address byte of a write to the frame's destination. -/
def address (f : OutFrame) : UInt8 := f.frame.dest <<< 1
def bytes (f : OutFrame) : List UInt8 := f.frame.data.read 0 f.frame.len.toNat
def transfer (f : OutFrame) : Transfer := ⟨f.address, f.bytes⟩
def args (f : OutFrame) : WriteRead := .i2cSend f.frame

end OutFrame

/-- A call of `i2c_send` under way. -/
structure SendCall where
  pc : MasterPc
  frame : OutFrame
  /-- A statement of this call has stored something or written to the bus. -/
  stored : Bool

variable {D : Type} [DecidableEq D]

structure Line (D : Type) where
  twi : TwiMaster
  /-- What is on the bus since the START, while the master owns it. -/
  current : Option Transfer
  /-- A write interrupt will come. -/
  wif : Bool
  done : List Transfer
  tasks : D → Option SendCall
  log : List (D × OutFrame)
  accepted : List (D × OutFrame)
  refused : List (D × OutFrame × Bool)

inductive LineEvent (D : Type) where
  | send (d : D) (f : OutFrame)
  | task (d : D)
  | irq

/-- A write interrupt after an acknowledged byte. -/
def acknowledged : MasterStatus :=
  { arblost := false, buserr := false, wif := true, rif := false, rxack := false }

/-- A START with the address byte `a`, repeated when the master owns the bus. -/
def Line.start (s : Line D) (a : UInt8) : Line D :=
  { s with done := s.done ++ s.current.toList, current := some ⟨a, []⟩, wif := true }

def Line.act (s : Line D) : MasterAction → Line D
  | .none => { s with wif := false }
  | .data b => { s with current := s.current.map fun t => { t with bytes := t.bytes ++ [b] } }
  | .addr a => s.start a
  | .recvtrans => { s with wif := false }
  | .stop | .nackStop =>
    { s with done := s.done ++ s.current.toList, current := none, wif := false }

def Line.goto (s : Line D) (d : D) (k : Option SendCall) : Line D :=
  { s with tasks := Function.update s.tasks d k }

def Line.effect (s : Line D) (d : D) (k : SendCall) : MasterEffect → Line D
  | .pass pc => s.goto d (some { k with pc := pc })
  | .store t pc => { s.goto d (some { k with pc := pc, stored := true }) with twi := t }
  | .start a pc =>
    { (s.start a).goto d (some { k with pc := pc, stored := true }) with
      log := s.log ++ [(d, k.frame)] }
  | .ret true => { s.goto d none with accepted := s.accepted ++ [(d, k.frame)] }
  | .ret false => { s.goto d none with refused := s.refused ++ [(d, k.frame, k.stored)] }

def Line.step (s : Line D) : LineEvent D → Option (Line D)
  | .send d f =>
    match s.tasks d with
    | none => some (s.goto d (some ⟨.sanity, f, false⟩))
    | some _ => none
  | .task d =>
    match s.tasks d with
    | none => none
    | some k => some (s.effect d k (k.pc.next k.frame.args s.twi))
  | .irq =>
    if s.wif then
      let r := masterInterruptHandler acknowledged 0 s.twi
      some ({ s with twi := r.1 }.act r.2)
    else none

/-- After `TWI_MasterInit`, with a driver that is ready. -/
def Line.boot (t : TwiMaster) : Line D :=
  { twi := { t with status := .ready }, current := none, wif := false, done := [],
    tasks := fun _ => none, log := [], accepted := [], refused := [] }

/-! ## What has to hold -/

/-- Task `d` has set the driver busy and not yet sent its START. -/
def Line.Preparing (s : Line D) (d : D) : Prop := ∃ k, s.tasks d = some k ∧ k.pc.Preparing

/-- The entries of task `d`. -/
def ofTask (d : D) (l : List (D × OutFrame)) : List OutFrame :=
  (l.filter fun x => x.1 = d).map Prod.snd

/-- The frame of `d`'s call when the call is about to return `E_NO_ERR`. -/
def Line.accepting (s : Line D) (d : D) : List OutFrame :=
  match s.tasks d with
  | some k => if k.pc = .accept then [k.frame] else []
  | none => []

/-- The bus has carried exactly the frames of `log`, the last one perhaps only in part. -/
inductive OnWire : List (D × OutFrame) → List Transfer → Option Transfer → Prop where
  | idle (log : List (D × OutFrame)) : OnWire log (log.map fun x => x.2.transfer) none
  | busy (log : List (D × OutFrame)) (d : D) (f : OutFrame) (bs : List UInt8)
      (h : bs <+: f.bytes) :
      OnWire (log ++ [(d, f)]) (log.map fun x => x.2.transfer) (some ⟨f.address, bs⟩)

omit [DecidableEq D] in
theorem OnWire.done_eq {log : List (D × OutFrame)} {done : List Transfer}
    (h : OnWire log done none) : done = log.map fun x => x.2.transfer := by
  cases h
  rfl

structure Line.Sound (s : Line D) : Prop where
  /-- At most one transaction is in progress. -/
  exclusive : ∀ d e, s.Preparing d → s.Preparing e → d = e
  exclusive_bus : ∀ d, s.Preparing d → s.current = none
  /-- The bus carries frames as they were given to the calls in `log`. -/
  wire : OnWire s.log s.done s.current
  /-- Every call that returned `E_NO_ERR` has its frame there, and no other call has. -/
  own : ∀ d, ofTask d s.log = ofTask d s.accepted ++ s.accepting d
  /-- A call that did not changed nothing. -/
  refused : ∀ r ∈ s.refused, r.2.2 = false

/-- Setting `twi->status` to busy when it is busy already. -/
def Line.Clash (s : Line D) : LineEvent D → Prop
  | .task d => ∃ k, s.tasks d = some k ∧ k.pc = .setBusy ∧ s.twi.status = .busy
  | _ => False

/-! ## Preparing a transaction -/

/-- The address and the first `i` bytes are stored. -/
def Filled (w : WriteRead) (t : TwiMaster) (i : Nat) : Prop :=
  t.address = w.address <<< 1 ∧ t.writeData.read 0 i = w.writeData.read 0 i

/-- Everything is stored for the START. -/
structure Loaded (w : WriteRead) (t : TwiMaster) : Prop where
  filled : Filled w t w.bytesToWrite
  toWrite : t.bytesToWrite = w.bytesToWrite
  toRead : t.bytesToRead = 0
  written : t.bytesWritten = 0
  read : t.bytesRead = 0

/-- What the statements before `pc` have stored. -/
def Prepared (w : WriteRead) (t : TwiMaster) : MasterPc → Prop
  | .fill i => i ≤ w.bytesToWrite ∧ Filled w t i
  | .setBytesToWrite => Filled w t w.bytesToWrite
  | .setBytesToRead => Filled w t w.bytesToWrite ∧ t.bytesToWrite = w.bytesToWrite
  | .clearBytesWritten =>
    Filled w t w.bytesToWrite ∧ t.bytesToWrite = w.bytesToWrite ∧ t.bytesToRead = 0
  | .clearBytesRead =>
    Filled w t w.bytesToWrite ∧ t.bytesToWrite = w.bytesToWrite ∧ t.bytesToRead = 0 ∧
      t.bytesWritten = 0
  | .testWrite | .writeAddress => Loaded w t
  | .start a => Loaded w t ∧ a = w.address <<< 1
  | .testRead | .readAddress => False
  | _ => True

/-- What the next statement of a call in preparation does. -/
def PreparedNext (w : WriteRead) (t : TwiMaster) : MasterEffect → Prop
  | .pass pc => pc.Preparing ∧ Prepared w t pc
  | .store t' pc => t'.status = t.status ∧ pc.Preparing ∧ Prepared w t' pc
  | .start a pc => pc = .accept ∧ Loaded w t ∧ a = w.address <<< 1
  | .ret _ => False

theorem shiftLeft_write (a : UInt8) : (a <<< (1 : UInt8)) &&& ~~~(0x01 : UInt8) = a <<< 1 := by
  apply UInt8.toBitVec_inj.1
  ext i hi
  rcases i with _ | i
  · simp [UInt8.toBitVec_shiftLeft]
  · have h : ∀ j < 7, (254#8).getLsbD (j + 1) = true := by decide
    have := h i (by omega)
    rw [BitVec.getLsbD_eq_getElem hi] at this
    simp [UInt8.toBitVec_shiftLeft, this]

theorem filled_write {w : WriteRead} {t : TwiMaster} {i : Nat} (h : Filled w t i) :
    Filled w { t with writeData := t.writeData.write i [w.writeData i] } (i + 1) := by
  refine ⟨h.1, ?_⟩
  have h1 : (t.writeData.write i [w.writeData i]).read 0 i = t.writeData.read 0 i :=
    Mem.read_write_disjoint _ (.inl (by omega))
  rw [Mem.read_succ, Mem.read_succ, h1, h.2, Nat.zero_add]
  simp [Mem.write]

/-- The step lemma of the preparation: each statement extends what is stored, and the START goes
out when all is. -/
theorem prepared_next {w : WriteRead} {t : TwiMaster} {pc : MasterPc} (hr : w.bytesToRead = 0)
    (hw : 0 < w.bytesToWrite) (hp : pc.Preparing) (h : Prepared w t pc) :
    PreparedNext w t (pc.next w t) := by
  cases pc with
  | sanity => cases hp
  | ready => cases hp
  | setBusy => cases hp
  | accept => cases hp
  | refuse => cases hp
  | setUnknown => exact ⟨rfl, trivial, trivial⟩
  | setAddress => exact ⟨rfl, trivial, Nat.zero_le _, rfl, by simp [Mem.read]⟩
  | fill i =>
    obtain ⟨hi, hf⟩ := h
    by_cases hlt : i < w.bytesToWrite
    · simp only [MasterPc.next, if_pos hlt]
      exact ⟨rfl, trivial, hlt, filled_write hf⟩
    · obtain rfl : i = w.bytesToWrite := by omega
      simp only [MasterPc.next, if_neg hlt]
      exact ⟨trivial, hf⟩
  | setBytesToWrite => exact ⟨rfl, trivial, h, rfl⟩
  | setBytesToRead => exact ⟨rfl, trivial, h.1, h.2, hr⟩
  | clearBytesWritten => exact ⟨rfl, trivial, h.1, h.2.1, h.2.2, rfl⟩
  | clearBytesRead => exact ⟨rfl, trivial, h.1, h.2.1, h.2.2.1, h.2.2.2, rfl⟩
  | testWrite =>
    have hpos : 0 < t.bytesToWrite := by rw [h.toWrite]; exact hw
    simp only [MasterPc.next, if_pos hpos]
    exact ⟨trivial, h⟩
  | writeAddress =>
    refine ⟨trivial, h, ?_⟩
    rw [h.filled.1, shiftLeft_write]
  | testRead => cases h
  | readAddress => cases h
  | start a => exact ⟨rfl, h.1, h.2⟩

/-! ## The phases of the driver -/

inductive LinePhase (s : Line D) : Prop where
  | free (none : ∀ d, ¬ s.Preparing d) (hs : s.twi.status = .ready) (hc : s.current = .none)
      (hw : s.wif = false) (hd : s.done = s.log.map fun x => x.2.transfer)
  | preparing (d : D) (k : SendCall) (hk : s.tasks d = some k) (hp : k.pc.Preparing)
      (only : ∀ e, s.Preparing e → e = d) (hs : s.twi.status = .busy) (hc : s.current = .none)
      (hw : s.wif = false) (hd : s.done = s.log.map fun x => x.2.transfer)
      (hP : Prepared k.frame.args s.twi k.pc)
  | sending (log : List (D × OutFrame)) (d : D) (f : OutFrame) (bs : List UInt8)
      (none : ∀ d, ¬ s.Preparing d) (hs : s.twi.status = .busy)
      (hl : s.log = log ++ [(d, f)]) (hd : s.done = log.map fun x => x.2.transfer)
      (hc : s.current = some ⟨f.address, bs⟩) (hb : bs <+: f.bytes)
      (hm : s.twi.writeData.read 0 f.bytes.length = f.bytes)
      (hn : s.twi.bytesToWrite = f.bytes.length) (hr : s.twi.bytesToRead = 0)
      (hi : s.twi.bytesWritten = bs.length) (hz : s.twi.bytesRead = 0)

omit [DecidableEq D] in
theorem LinePhase.onWire {s : Line D} : LinePhase s → OnWire s.log s.done s.current
  | .free _ _ hc _ hd => by rw [hc, hd]; exact .idle _
  | .preparing _ _ _ _ _ _ hc _ hd _ => by rw [hc, hd]; exact .idle _
  | .sending log d f bs _ _ hl hd hc hb _ _ _ _ _ => by
    rw [hl, hd, hc]
    exact .busy log d f bs hb

omit [DecidableEq D] in
theorem LinePhase.exclusive {s : Line D} (h : LinePhase s) {d e : D} (hd : s.Preparing d)
    (he : s.Preparing e) : d = e := by
  cases h with
  | free none _ _ _ _ => exact absurd hd (none d)
  | preparing d₀ k hk hp only _ _ _ _ _ => rw [only d hd, only e he]
  | sending log d₀ f bs none _ _ _ _ _ _ _ _ _ _ => exact absurd hd (none d)

omit [DecidableEq D] in
theorem LinePhase.bus_free {s : Line D} (h : LinePhase s) {d : D} (hd : s.Preparing d) :
    s.current = none := by
  cases h with
  | free none _ _ _ _ => exact absurd hd (none d)
  | preparing d₀ k hk hp only _ hc _ _ _ => exact hc
  | sending log d₀ f bs none _ _ _ _ _ _ _ _ _ _ => exact absurd hd (none d)

omit [DecidableEq D] in
theorem LinePhase.prepared {s : Line D} (h : LinePhase s) {d : D} {k : SendCall} (hk : s.tasks d = some k)
    (hp : k.pc.Preparing) : Prepared k.frame.args s.twi k.pc := by
  cases h with
  | free none _ _ _ _ => exact absurd ⟨k, hk, hp⟩ (none d)
  | sending log d₀ f bs none _ _ _ _ _ _ _ _ _ _ => exact absurd ⟨k, hk, hp⟩ (none d)
  | preparing d₀ k₀ hk₀ hp₀ only hs hc hw hl hP =>
    obtain rfl : d = d₀ := only d ⟨k, hk, hp⟩
    rw [hk] at hk₀
    cases hk₀
    exact hP

theorem preparing_goto {s : Line D} {d e : D} {k : Option SendCall} :
    (s.goto d k).Preparing e ↔ if e = d then ∃ k', k = some k' ∧ k'.pc.Preparing
      else s.Preparing e := by
  by_cases h : e = d
  · subst h
    simp [Line.Preparing, Line.goto]
  · simp [Line.Preparing, Line.goto, h]

theorem preparing_goto_quiet {s : Line D} {d e : D} {k : Option SendCall}
    (hd : ¬ s.Preparing d) (hk : ∀ k', k = some k' → ¬ k'.pc.Preparing) :
    (s.goto d k).Preparing e ↔ s.Preparing e := by
  rw [preparing_goto]
  by_cases h : e = d
  · subst h
    rw [if_pos rfl]
    constructor
    · rintro ⟨k', h1, h2⟩
      exact absurd h2 (hk k' h1)
    · intro he
      exact absurd he hd
  · rw [if_neg h]

/-- A task outside the preparation moves on outside it, and perhaps returns. -/
theorem phase_quiet {s : Line D} (h : LinePhase s) {d : D} {k : Option SendCall}
    (hd : ¬ s.Preparing d) (hk : ∀ k', k = some k' → ¬ k'.pc.Preparing)
    (a : List (D × OutFrame)) (r : List (D × OutFrame × Bool)) :
    LinePhase { s.goto d k with accepted := a, refused := r } := by
  have hiff : ∀ e, (s.goto d k).Preparing e ↔ s.Preparing e := fun e =>
    preparing_goto_quiet hd hk
  cases h with
  | free none hs hc hw hl => exact .free (fun e he => none e ((hiff e).1 he)) hs hc hw hl
  | preparing d₀ k₀ hk₀ hp only hs hc hw hl hP =>
    have hne : d₀ ≠ d := by
      rintro rfl
      exact hd ⟨k₀, hk₀, hp⟩
    refine .preparing d₀ k₀ ?_ hp (fun e he => only e ((hiff e).1 he)) hs hc hw hl hP
    simpa [Line.goto, hne] using hk₀
  | sending log d₀ f bs none hs hl hd₀ hc hb hm hn hr hi hz =>
    exact .sending log d₀ f bs (fun e he => none e ((hiff e).1 he)) hs hl hd₀ hc hb hm hn hr hi hz

theorem length_bytes (f : OutFrame) : f.bytes.length = f.args.bytesToWrite := by
  have h : f.frame.len.toNat < 256 := Nat.lt_of_le_of_lt f.fits (by decide)
  simp only [OutFrame.bytes, OutFrame.args, WriteRead.i2cSend, Mem.length_read]
  rw [UInt16.toNat_toUInt8, Nat.mod_eq_of_lt h]

theorem bytesToWrite_pos (f : OutFrame) : 0 < f.args.bytesToWrite := by
  rw [← length_bytes, OutFrame.bytes, Mem.length_read]
  exact f.pos

/-- The statements of the preparation. -/
theorem phase_preparing {s : Line D} (h : LinePhase s) {d : D} {k : SendCall}
    (hk : s.tasks d = some k) (hp : k.pc.Preparing) :
    LinePhase (s.effect d k (k.pc.next k.frame.args s.twi)) := by
  have hd : s.Preparing d := ⟨k, hk, hp⟩
  cases h with
  | free none _ _ _ _ => exact absurd hd (none d)
  | sending log d₀ f bs none _ _ _ _ _ _ _ _ _ _ => exact absurd hd (none d)
  | preparing d₀ k₀ hk₀ hp₀ only hs hc hw hl hP =>
    obtain rfl : d = d₀ := only d hd
    obtain rfl : k = k₀ := by
      rw [hk] at hk₀
      exact Option.some.inj hk₀
    have hnext := prepared_next rfl (bytesToWrite_pos k.frame) hp hP
    have honly : ∀ k' e, (s.goto d k').Preparing e → e = d := by
      intro k' e he
      by_contra hne
      rw [preparing_goto, if_neg hne] at he
      exact hne (only e he)
    cases hn : k.pc.next k.frame.args s.twi with
    | pass pc =>
      rw [hn] at hnext
      obtain ⟨h1, h2⟩ := hnext
      exact .preparing d { k with pc := pc } (by simp [Line.effect, Line.goto]) h1 (honly _)
        hs hc hw hl h2
    | store t pc =>
      rw [hn] at hnext
      obtain ⟨h1, h2, h3⟩ := hnext
      exact .preparing d { k with pc := pc, stored := true } (by simp [Line.effect, Line.goto]) h2
        (honly _) (h1.trans hs) hc hw hl h3
    | ret b =>
      rw [hn] at hnext
      cases hnext
    | start a pc =>
      rw [hn] at hnext
      obtain ⟨rfl, hL, rfl⟩ := hnext
      refine .sending s.log d k.frame [] ?_ hs rfl ?_ rfl List.nil_prefix ?_ ?_ hL.toRead hL.written
        hL.read
      · intro e he
        have he' : (s.goto d (some { k with pc := .accept, stored := true })).Preparing e := he
        rw [preparing_goto] at he'
        by_cases hne : e = d
        · rw [if_pos hne] at he'
          obtain ⟨k', hk', hp'⟩ := he'
          cases hk'
          exact hp'
        · rw [if_neg hne] at he'
          exact hne (only e he')
      · simp [Line.effect, Line.start, Line.goto, hc, hl]
      · have hm : s.twi.writeData.read 0 k.frame.bytes.length = k.frame.bytes := by
          rw [length_bytes, hL.filled.2, ← length_bytes, OutFrame.bytes, Mem.length_read]
          rfl
        exact hm
      · exact hL.toWrite.trans (length_bytes _).symm

/-- Setting the status in a driver that is ready. -/
theorem phase_setBusy {s : Line D} (h : LinePhase s) {d : D} {k : SendCall}
    (hr : s.twi.status ≠ .busy) :
    LinePhase (s.effect d k (.store { s.twi with status := .busy } .setUnknown)) := by
  cases h with
  | preparing d₀ k₀ hk₀ hp₀ only hs hc hw hl hP => exact absurd hs hr
  | sending log d₀ f bs none hs _ _ _ _ _ _ _ _ _ => exact absurd hs hr
  | free none hs hc hw hl =>
    refine .preparing d { k with pc := .setUnknown, stored := true }
      (by simp [Line.effect, Line.goto]) trivial ?_ rfl hc hw hl trivial
    intro e he
    have he' : (s.goto d (some { k with pc := .setUnknown, stored := true })).Preparing e := he
    by_contra hne
    rw [preparing_goto, if_neg hne] at he'
    exact none e he'

omit [DecidableEq D] in
/-- A write interrupt sends the next byte, or the STOP after the last. -/
theorem phase_irq {s : Line D} (h : LinePhase s) (hw : s.wif = true) :
    LinePhase ({ s with twi := (masterInterruptHandler acknowledged 0 s.twi).1 }.act
      (masterInterruptHandler acknowledged 0 s.twi).2) := by
  cases h with
  | free none _ _ hw' _ => simp [hw] at hw'
  | preparing d₀ k₀ hk₀ hp₀ only hs hc hw' hl hP => simp [hw] at hw'
  | sending log d f bs none hs hl hd hc hb hm hn hr hi hz =>
    by_cases hlt : bs.length < f.bytes.length
    · have hact : masterInterruptHandler acknowledged 0 s.twi =
          ({ s.twi with bytesWritten := bs.length + 1 }, .data f.bytes[bs.length]) := by
        have hbyte : s.twi.writeData bs.length = f.bytes[bs.length] := by
          have := Mem.getElem_read s.twi.writeData (a := 0) (n := f.bytes.length)
            (i := bs.length) (by simpa using hlt)
          simpa [hm] using this.symm
        simp [masterInterruptHandler, acknowledged, masterWriteHandler, hi, hn, hlt, hbyte]
      rw [hact]
      refine .sending log d f (bs ++ [f.bytes[bs.length]]) none hs hl hd ?_ ?_ hm hn hr ?_ hz
      · simp [Line.act, hc]
      · obtain ⟨cs, hcs⟩ := hb
        obtain ⟨c, cs, rfl⟩ := List.exists_cons_of_ne_nil (l := cs) (by
          rintro rfl
          rw [← hcs] at hlt
          simp at hlt)
        refine ⟨cs, ?_⟩
        simp [← hcs]
      · simp [Line.act]
    · have hfull : bs = f.bytes := List.IsPrefix.eq_of_length_le hb (by omega)
      have hact : masterInterruptHandler acknowledged 0 s.twi =
          (masterTransactionFinished s.twi .ok, .stop) := by
        simp [masterInterruptHandler, acknowledged, masterWriteHandler, hi, hn, hr, hz, hlt]
      rw [hact]
      refine .free none rfl rfl rfl ?_
      simp [Line.act, hc, hd, hl, hfull, OutFrame.transfer]

/-! ## The calls and their frames -/

/-- The histories agree with where the calls are. -/
structure Books (s : Line D) : Prop where
  own : ∀ d, ofTask d s.log = ofTask d s.accepted ++ s.accepting d
  quiet : ∀ d k, s.tasks d = some k → ¬ k.pc.Preparing → k.pc ≠ .accept → k.stored = false
  refused : ∀ r ∈ s.refused, r.2.2 = false

@[simp] theorem ofTask_append (d : D) (l l' : List (D × OutFrame)) :
    ofTask d (l ++ l') = ofTask d l ++ ofTask d l' := by
  simp [ofTask]

@[simp] theorem ofTask_self (d : D) (f : OutFrame) : ofTask d [(d, f)] = [f] := by
  simp [ofTask]

theorem ofTask_other {d e : D} (h : e ≠ d) (f : OutFrame) : ofTask e [(d, f)] = [] := by
  have : d ≠ e := fun hde => h hde.symm
  simp [ofTask, this]

/-- Only the entries of task `d` change. -/
theorem books_update {s s' : Line D} (h : Books s) {d : D} {k' : Option SendCall}
    (ht : s'.tasks = Function.update s.tasks d k')
    (own : ofTask d s'.log = ofTask d s'.accepted ++ s'.accepting d)
    (hl : ∀ e, e ≠ d → ofTask e s'.log = ofTask e s.log)
    (ha : ∀ e, e ≠ d → ofTask e s'.accepted = ofTask e s.accepted)
    (hq : ∀ k, k' = some k → ¬ k.pc.Preparing → k.pc ≠ .accept → k.stored = false)
    (hr : ∀ r ∈ s'.refused, r ∈ s.refused ∨ r.2.2 = false) : Books s' := by
  constructor
  · intro e
    by_cases he : e = d
    · subst he
      exact own
    · have hacc : s'.accepting e = s.accepting e := by
        simp only [Line.accepting, ht, Function.update_of_ne he]
      rw [hl e he, ha e he, hacc, h.own e]
  · intro e k hk hp hn
    by_cases he : e = d
    · subst he
      rw [ht, Function.update_self] at hk
      exact hq k hk hp hn
    · rw [ht, Function.update_of_ne he] at hk
      exact h.quiet e k hk hp hn
  · intro r hm
    rcases hr r hm with hr | hr
    · exact h.refused r hr
    · exact hr

/-- A statement that neither starts the transfer nor ends the call. -/
theorem books_goto {s : Line D} (h : Books s) {d : D} {k : SendCall} (t : TwiMaster)
    (h0 : s.accepting d = []) (h1 : k.pc ≠ .accept)
    (h2 : ¬ k.pc.Preparing → k.stored = false) :
    Books { s.goto d (some k) with twi := t } := by
  refine books_update h rfl ?_ (fun _ _ => rfl) (fun _ _ => rfl) ?_ fun _ hr => .inl hr
  · have hown := h.own d
    rw [h0] at hown
    simpa [Line.goto, Line.accepting, h1] using hown
  · rintro k' ⟨⟩ hp _
    exact h2 hp

theorem books_start {s : Line D} (h : Books s) {d : D} {k : SendCall} (h0 : s.accepting d = [])
    (a : UInt8) : Books (s.effect d k (.start a .accept)) := by
  refine books_update h rfl ?_ ?_ (fun _ _ => rfl) ?_ fun _ hr => .inl hr
  · have hown := h.own d
    rw [h0] at hown
    simp [Line.effect, Line.start, Line.goto, Line.accepting, hown]
  · intro e he
    simp [Line.effect, Line.start, Line.goto, ofTask_other he]
  · rintro k' ⟨⟩ _ hn
    exact absurd rfl hn

theorem books_accept {s : Line D} (h : Books s) {d : D} {k : SendCall} (hk : s.tasks d = some k)
    (hb : k.pc = .accept) : Books (s.effect d k (.ret true)) := by
  have h0 : s.accepting d = [k.frame] := by simp [Line.accepting, hk, hb]
  refine books_update h rfl ?_ (fun _ _ => rfl) ?_ ?_ fun _ hr => .inl hr
  · have hown := h.own d
    rw [h0] at hown
    simp [Line.effect, Line.goto, Line.accepting, hown]
  · intro e he
    simp [Line.effect, Line.goto, ofTask_other he]
  · rintro k' ⟨⟩

theorem books_refuse {s : Line D} (h : Books s) {d : D} {k : SendCall} (hk : s.tasks d = some k)
    (hb : k.pc = .refuse) : Books (s.effect d k (.ret false)) := by
  have h0 : s.accepting d = [] := by simp [Line.accepting, hk, hb]
  have hs : k.stored = false := h.quiet d k hk (by simp [hb, MasterPc.Preparing]) (by simp [hb])
  refine books_update h rfl ?_ (fun _ _ => rfl) (fun _ _ => rfl) ?_ ?_
  · have hown := h.own d
    rw [h0] at hown
    simpa [Line.effect, Line.goto, Line.accepting] using hown
  · rintro k' ⟨⟩
  · intro r hr
    rcases List.mem_append.1 hr with hr | hr
    · exact .inl hr
    · obtain rfl := List.mem_singleton.1 hr
      exact .inr hs

/-! ## Runs -/

structure Line.Inv (s : Line D) : Prop where
  phase : LinePhase s
  books : Books s

theorem inv_boot (t : TwiMaster) : (Line.boot t : Line D).Inv := by
  constructor
  · refine .free ?_ rfl rfl rfl rfl
    rintro d ⟨k, hk, -⟩
    cases hk
  · constructor
    · intro d
      rfl
    · intro d k hk
      cases hk
    · intro r hr
      cases hr

omit [DecidableEq D] in
theorem not_preparing {s : Line D} {d : D} {k : SendCall} (hk : s.tasks d = some k)
    (h : ¬ k.pc.Preparing) : ¬ s.Preparing d := by
  rintro ⟨k', hk', hp⟩
  rw [hk] at hk'
  cases hk'
  exact h hp

/-- A statement outside the preparation that leads to another one outside it. -/
theorem inv_pass {s : Line D} (h : s.Inv) {d : D} {k : SendCall} (hk : s.tasks d = some k)
    (hp : ¬ k.pc.Preparing) (ha : k.pc ≠ .accept) {pc : MasterPc} (hp' : ¬ pc.Preparing)
    (ha' : pc ≠ .accept) : (s.effect d k (.pass pc)).Inv := by
  constructor
  · refine phase_quiet h.phase (not_preparing hk hp) ?_ s.accepted s.refused
    rintro k' ⟨⟩
    exact hp'
  · refine books_goto h.books s.twi ?_ ha' fun _ => h.books.quiet d k hk hp ha
    simp [Line.accepting, hk, ha]

/-- The next statement of a call, unless it sets a busy driver busy. -/
theorem inv_task {s : Line D} (h : s.Inv) {d : D} {k : SendCall} (hk : s.tasks d = some k)
    (hc : ¬ (k.pc = .setBusy ∧ s.twi.status = .busy)) :
    (s.effect d k (k.pc.next k.frame.args s.twi)).Inv := by
  by_cases hp : k.pc.Preparing
  · refine ⟨phase_preparing h.phase hk hp, ?_⟩
    have hna : k.pc ≠ .accept := by
      intro ha
      simp [ha, MasterPc.Preparing] at hp
    have h0 : s.accepting d = [] := by simp [Line.accepting, hk, hna]
    have hnext := prepared_next rfl (bytesToWrite_pos k.frame) hp (h.phase.prepared hk hp)
    cases hn : k.pc.next k.frame.args s.twi with
    | pass pc =>
      rw [hn] at hnext
      refine books_goto h.books s.twi h0 ?_ fun hnp => absurd hnext.1 hnp
      rintro rfl
      exact hnext.1
    | store t pc =>
      rw [hn] at hnext
      refine books_goto h.books t h0 ?_ fun hnp => absurd hnext.2.1 hnp
      rintro rfl
      exact hnext.2.1
    | start a pc =>
      rw [hn] at hnext
      obtain ⟨rfl, -, -⟩ := hnext
      exact books_start h.books h0 a
    | ret b =>
      rw [hn] at hnext
      cases hnext
  · cases hpc : k.pc <;> rw [hpc] at hp <;> try exact absurd trivial hp
    case sanity =>
      simp only [MasterPc.next]
      split
      · exact inv_pass h hk (by simp [hpc, MasterPc.Preparing]) (by simp [hpc]) id (by simp)
      · split
        · exact inv_pass h hk (by simp [hpc, MasterPc.Preparing]) (by simp [hpc]) id (by simp)
        · exact inv_pass h hk (by simp [hpc, MasterPc.Preparing]) (by simp [hpc]) id (by simp)
    case ready =>
      simp only [MasterPc.next]
      by_cases hr : s.twi.status = .ready
      · rw [if_pos hr]
        exact inv_pass h hk (by simp [hpc, MasterPc.Preparing]) (by simp [hpc]) id (by simp)
      · rw [if_neg hr]
        exact inv_pass h hk (by simp [hpc, MasterPc.Preparing]) (by simp [hpc]) id (by simp)
    case setBusy =>
      refine ⟨phase_setBusy h.phase fun hb => hc ⟨hpc, hb⟩, ?_⟩
      refine books_goto h.books _ ?_ (by simp) fun hnp => absurd trivial hnp
      simp [Line.accepting, hk, hpc]
    case accept =>
      refine ⟨phase_quiet h.phase (not_preparing hk (by simp [hpc, MasterPc.Preparing])) ?_ _ _,
        books_accept h.books hk hpc⟩
      rintro k' ⟨⟩
    case refuse =>
      refine ⟨phase_quiet h.phase (not_preparing hk (by simp [hpc, MasterPc.Preparing])) ?_ _ _,
        books_refuse h.books hk hpc⟩
      rintro k' ⟨⟩

theorem inv_step {s s' : Line D} {e : LineEvent D} (h : s.Inv) (hc : ¬ s.Clash e)
    (hs : s.step e = some s') : s'.Inv := by
  cases e with
  | send d f =>
    cases ht : s.tasks d with
    | some k => simp [Line.step, ht] at hs
    | none =>
      simp only [Line.step, ht, Option.some.injEq] at hs
      subst hs
      have hd : ¬ s.Preparing d := by
        rintro ⟨k, hk, -⟩
        simp [ht] at hk
      constructor
      · refine phase_quiet h.phase hd ?_ s.accepted s.refused
        rintro k' ⟨⟩
        exact id
      · refine books_goto h.books s.twi ?_ (by simp) fun _ => rfl
        simp [Line.accepting, ht]
  | task d =>
    cases ht : s.tasks d with
    | none => simp [Line.step, ht] at hs
    | some k =>
      simp only [Line.step, ht, Option.some.injEq] at hs
      subst hs
      exact inv_task h ht fun hb => hc ⟨k, ht, hb⟩
  | irq =>
    by_cases hw : s.wif = true
    · simp only [Line.step] at hs
      rw [if_pos hw] at hs
      cases hs
      refine ⟨phase_irq h.phase hw, ?_⟩
      cases hm : (masterInterruptHandler acknowledged 0 s.twi).2 <;>
        exact ⟨h.books.own, h.books.quiet, h.books.refused⟩
    · simp [Line.step, hw] at hs

theorem Line.Inv.sound {s : Line D} (h : s.Inv) : s.Sound :=
  ⟨fun _ _ => h.phase.exclusive, fun _ => h.phase.bus_free, h.phase.onWire, h.books.own,
    h.books.refused⟩

/-- A clash leaves two transactions in progress. -/
theorem clash_not_sound {s s' : Line D} {e : LineEvent D} (h : s.Inv) (hc : s.Clash e)
    (hs : s.step e = some s') : ¬ s'.Sound := by
  cases e with
  | send d f => cases hc
  | irq => cases hc
  | task d =>
    obtain ⟨k, hk, hpc, hb⟩ := hc
    simp only [Line.step, hk, hpc, MasterPc.next, Option.some.injEq] at hs
    subst hs
    intro hS
    have hd : ∀ t, ({ s.goto d (some ⟨.setUnknown, k.frame, true⟩) with twi := t }).Preparing d := by
      intro t
      exact ⟨⟨.setUnknown, k.frame, true⟩, by simp [Line.goto], trivial⟩
    have hnd : ¬ s.Preparing d := not_preparing hk (by simp [hpc, MasterPc.Preparing])
    cases h.phase with
    | free none hs _ _ _ => simp [hb] at hs
    | preparing d₀ k₀ hk₀ hp₀ only _ _ _ _ _ =>
      have hne : d₀ ≠ d := by
        rintro rfl
        exact hnd ⟨k₀, hk₀, hp₀⟩
      refine hne (hS.exclusive d₀ d ⟨k₀, ?_, hp₀⟩ (hd _))
      simpa [Line.effect, Line.goto, hne] using hk₀
    | sending log d₀ f bs none _ _ _ hc _ _ _ _ _ _ =>
      have hbus := hS.exclusive_bus d (hd _)
      simp [Line.effect, Line.goto, hc] at hbus

/-- **Sending.** For any tasks, frames and interleaving: all along the run at most one transaction
is in progress, the bus carries exactly the frames of the calls that return `E_NO_ERR`, each to its
own address, and the other calls change nothing, exactly when no call sets the status of a driver
that is busy already. -/
theorem sends_sound (t : TwiMaster) (es : List (LineEvent D)) :
    Along Line.step Line.Sound (Line.boot t : Line D) es ↔
      Avoids Line.step Line.Clash (Line.boot t : Line D) es :=
  along_iff_avoids (fun _ => Line.Inv.sound) (fun _ _ _ => inv_step)
    (fun _ _ _ => clash_not_sound) es (inv_boot t)

/-! ## Two calls that meet between the check and the busy flag -/

/-- A frame of one byte. -/
def oneByte (dest b : UInt8) : OutFrame where
  frame := { padding := 0, retries := 0, reserved := 0, dest := dest, lenRx := 0, len := 1,
             data := fun _ => b }
  pos := Nat.le_refl 1
  fits := by simp [i2cMtu]

/-- Both tasks find the driver ready; `false` stores its address after `true` has stored its own,
and before `true` reads it for the START. -/
def crossedSends : List (LineEvent Bool) :=
  List.flatten [[.send false (oneByte 1 10), .send true (oneByte 2 20)],
    List.replicate 2 (.task false), List.replicate 12 (.task true),
    List.replicate 3 (.task false), List.replicate 3 (.task true), [.irq, .irq],
    List.replicate 10 (.task false), [.irq, .irq]]

def crossedStart : Line Bool :=
  .boot { address := 0, writeData := fun _ => 0, readData := fun _ => 0, bytesToWrite := 0,
          bytesToRead := 0, bytesWritten := 0, bytesRead := 0, status := .ready,
          result := .unknown }

/-- Both calls return `E_NO_ERR`, but nothing goes to the address of `true`: its byte is sent to
the address of `false`. -/
theorem sends_mixed :
    ∃ s, crossedSends.foldlM Line.step crossedStart = some s ∧
      s.accepted = [(true, oneByte 2 20), (false, oneByte 1 10)] ∧
      s.done = [⟨(oneByte 1 10).address, [20]⟩, ⟨(oneByte 1 10).address, [10]⟩] ∧ ¬ s.Sound := by
  obtain ⟨s, hs⟩ : ∃ s, crossedSends.foldlM Line.step crossedStart = some s := ⟨_, rfl⟩
  -- each part of the final state is evaluated from the run, not from the state's own term
  have hacc : (crossedSends.foldlM Line.step crossedStart).map Line.accepted =
      some [(true, oneByte 2 20), (false, oneByte 1 10)] := rfl
  have hdone : (crossedSends.foldlM Line.step crossedStart).map Line.done =
      some [⟨(oneByte 1 10).address, [20]⟩, ⟨(oneByte 1 10).address, [10]⟩] := rfl
  have hlog : (crossedSends.foldlM Line.step crossedStart).map Line.log =
      some [(true, oneByte 2 20), (false, oneByte 1 10)] := rfl
  have hcur : (crossedSends.foldlM Line.step crossedStart).map Line.current = some none := rfl
  rw [hs] at hacc hdone hlog hcur
  refine ⟨s, hs, Option.some.inj hacc, Option.some.inj hdone, fun h => ?_⟩
  have hwire := h.wire
  rw [Option.some.inj hlog, Option.some.inj hdone, Option.some.inj hcur] at hwire
  have heq := congrArg (List.map Transfer.address) hwire.done_eq
  exact absurd heq (by decide)

end HmBoard
