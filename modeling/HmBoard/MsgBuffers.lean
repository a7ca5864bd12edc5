import HmBoard.Board
import HmBoard.ExactFloat
import HmBoard.Replies
import HmBoard.TwiSlave

/-!
# The buffers of the replies

Every text reply is written by `sprintf` into the handler's own `msg` and copied from there into
`outcomingPacket`. `MsgFits` asks for the room of the text and its NUL in both, and for the room
of the text and the CSP header in the receive buffer of the bus. It holds of every text of every
handler (`fits_sendSignal` … `fits_houseKeeping`) but the one of `processAll`, which has 28
characters for an array of 20 (`not_fits_processAll`).
-/

namespace HmBoard

open Lib Fw

variable {F B P : Type}

/-- The functions of `mainTask.c` that format a reply. -/
inductive Handler where
  | processAll
  | sendSignal
  | sendFFT
  | sendFreeHeapSpace
  | houseKeeping
deriving DecidableEq, Repr

/-- `char msg[…]` (mainTask.c:27, 62, 114, 169, 220). -/
def Handler.msgSize : Handler → Nat
  | .processAll => 20
  | .sendSignal => 30
  | .sendFFT => 30
  | .sendFreeHeapSpace => 20
  | .houseKeeping => 64

/-- The text and its NUL fit `msg[size]` and the packet; the frame with it fits the bus. -/
structure MsgFits (size : Nat) (msg : List UInt8) : Prop where
  own : msg.length + 1 ≤ size
  packet : msg.length + 1 ≤ cspPacketSize
  frame : msg.length + 4 ≤ twisReceiveBufferSize

/-- A text that is copied into a packet fits. -/
def Op.MsgFits (size : Nat) : Op B P → Prop
  | .pktCopy _ msg => HmBoard.MsgFits size msg
  | _ => True

theorem MsgFits.of_length {size n : Nat} {msg : List UInt8} (h : msg.length ≤ n)
    (hsize : n + 1 ≤ size) (hn : n ≤ 68) : MsgFits size msg := by
  constructor
  · omega
  · unfold cspPacketSize
    omega
  · unfold twisReceiveBufferSize
    omega

/-! ## The handlers -/

variable {α : Type} {size : Nat}

theorem fits_quiet {p : Fw B P α} (hp : p.All Op.Quiet) : p.All (Op.MsgFits size) := by
  refine Prog.All.mono (fun o ho => ?_) hp
  cases o <;> first | exact ho.elim | trivial

theorem fits_reply {msg : List UInt8} (h : MsgFits size msg) (out q : P) (timeout : Nat) :
    (reply out q msg timeout : Fw B P Int).All (Op.MsgFits size) :=
  ⟨h, fun _ => ⟨trivial, fun _ => ⟨trivial, fun _ => ⟨trivial, fun _ => trivial⟩⟩⟩⟩

variable [Cell B] [FloatFormat F B] (out q : P)

/-- The announcement of both downloads. -/
theorem fits_sampledSignal : MsgFits 30 (lit "Sampled signal\n") :=
  .of_length (n := 15) (by decide) (by decide) (by decide)

theorem fits_calls (size : Nat) :
    Calls (fun _ (p : Fw B P _) => p.All (Op.MsgFits size)) (MsgFits size) out q where
  compositional := Prog.All.compositional
  device o ho := ⟨by cases o <;> first | exact ho.elim | trivial, fun _ => trivial⟩
  readWord a := fits_quiet (quiet_spiMemReadWord a)
  reply _ timeout htext := fits_reply htext out q timeout

theorem fits_readComplex (a : Nat) :
    (spiMemReadComplex a : Fw B P (Complex F)).All (Op.MsgFits size) :=
  fits_quiet (quiet_spiMemReadComplex a)

theorem fits_sendSignal : (sendSignal out q : Fw B P Unit).All (Op.MsgFits 30) := by
  refine (fits_calls out q 30).sendSignal fits_sampledSignal fun i point => ?_
  have hlen : (signalText i point).length ≤ 14 := length_pair _ _
  exact .of_length hlen (by decide) (by decide)

theorem fits_sendFFT : (sendFFT F out q : Fw B P Unit).All (Op.MsgFits 30) := by
  refine (fits_calls out q 30).sendFFT fits_readComplex fits_sampledSignal fun i point => ?_
  have hlen : (fftText i point).length ≤ 14 := length_pair _ _
  exact .of_length hlen (by decide) (by decide)

theorem fits_sendFreeHeapSpace : (sendFreeHeapSpace out q : Fw B P Unit).All (Op.MsgFits 20) := by
  refine (fits_calls out q 20).sendFreeHeapSpace fun temp => ?_
  have hrange := i16_range temp
  have hlen := length_temperatureText hrange.1 hrange.2
  exact .of_length hlen (by decide) (by decide)

theorem fits_houseKeeping : (houseKeeping F out q : Fw B P Unit).All (Op.MsgFits 64) := by
  refine (fits_calls out q 64).houseKeeping fits_readComplex
    (fits_quiet (quiet_spiMemWriteComplex _ _)) (fits_quiet (quiet_spiMemWriteWord _ _))
    (fits_quiet quiet_adcaReadCh0) fun hours seconds => ?_
  have hlen := length_uptimeText hours seconds
  exact .of_length hlen (by decide) (by decide)

/-- How `processAll` ends. -/
def processAllReply (out q : P) : Fw B P Unit := do
  powerSwitchToggle
  let _ ← reply out q (lit "Sampling and computing done\n") 1000
  vTaskDelay 10

omit [Cell B] in
theorem not_fits_processAllReply :
    ¬ (processAllReply out q : Fw B P Unit).All (Op.MsgFits 20) := by
  intro h
  have htext : MsgFits 20 (lit "Sampling and computing done\n") := (h.2 ()).1
  exact absurd htext.own (by decide)

theorem not_fits_bind {p k : Fw B P Unit} (hk : ¬ k.All (Op.MsgFits size)) :
    ¬ (p.bind fun _ => k).All (Op.MsgFits size) :=
  fun h => hk (h.rest Board.exec (Board.rest fun _ => byte 0))

/-- The text of `processAll` overflows its array, whatever was computed before. -/
theorem not_fits_processAll (sincos : Nat → F) :
    ¬ (processAll sincos out q : Fw B P Unit).All (Op.MsgFits 20) := by
  intro h
  have hwait : Prog.All (Op.MsgFits 20) (Prog.bind (decimateAndStore noPoints fun i =>
      bitrevTable.getD i 0) fun _ => Prog.bind (fftCalculate noPoints sincos) fun _ =>
        processAllReply out q) := ((((h.2 ()).2 ()).2 ()).2 ()).2 ()
  exact not_fits_bind (not_fits_bind (not_fits_processAllReply out q)) hwait

/-- The code of a handler. -/
def Handler.code (sincos : Nat → F) (out q : P) : Handler → Fw B P Unit
  | .processAll => HmBoard.processAll sincos out q
  | .sendSignal => HmBoard.sendSignal out q
  | .sendFFT => HmBoard.sendFFT F out q
  | .sendFreeHeapSpace => HmBoard.sendFreeHeapSpace out q
  | .houseKeeping => HmBoard.houseKeeping F out q

/-- **The buffers.** Whatever is formatted, every text of a handler fits, unless the handler is
`processAll`. -/
theorem replies_fit_iff (sincos : Nat → F) (handler : Handler) :
    (handler.code sincos out q).All (Op.MsgFits handler.msgSize) ↔ handler ≠ .processAll := by
  cases handler with
  | processAll => exact iff_of_false (not_fits_processAll out q sincos) fun h => h rfl
  | sendSignal => exact iff_of_true (fits_sendSignal out q) (by decide)
  | sendFFT => exact iff_of_true (fits_sendFFT out q) (by decide)
  | sendFreeHeapSpace => exact iff_of_true (fits_sendFreeHeapSpace out q) (by decide)
  | houseKeeping => exact iff_of_true (fits_houseKeeping out q) (by decide)

/-- 28 characters and the NUL for `char msg[20]`. -/
theorem processAll_overflows :
    (lit "Sampling and computing done\n").length + 1 = 29 ∧ Handler.processAll.msgSize = 20 ∧
      ¬ (Handler.processAll.code exactSincos 0 1 : Fw ExactCell Nat Unit).All (Op.MsgFits 20) :=
  ⟨by decide, rfl, not_fits_processAll 0 1 exactSincos⟩

end HmBoard
