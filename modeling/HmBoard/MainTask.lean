import HmBoard.Fft
import HmBoard.System

/-!
# `mainTask.c`

The handlers of `mainTask` and its dispatch. `out` is `outcomingPacket`, the one packet all text
replies are built in; `inPacket` is the request. Message texts are byte strings without the NUL.

| here | there |
| --- | --- |
| `EventType`, `CspStackEvent` | `eCSPEvent_t`, `xCSPStackEvent_t` (cspTask.h:16-34) |
| `processAll` … `echoBack`    | the functions of the same names (mainTask.c:26-282) |
| `handle`                     | the `switch` of `mainTask` (mainTask.c:299) |
-/

namespace HmBoard

open Lib Fw
open FloatFormat (ofDec ofInt add mul log toInt beq)

variable {F B P : Type} [Cell B] [FloatFormat F B]

/-- `eCSPEvent_t` (cspTask.h:16), in the order of its values. -/
inductive EventType where
  | echoBackEvent
  | freeHeapEvent
  | housKeepingEvent
  | processAllEvent
  | sendSignalEvent
  | sendFFTEvent
  | sendSummaryInfoEvent
  | sendAttenuationEvent
  /-- A value that is none of the enumerators. -/
  | other
deriving DecidableEq, Repr

/-- `xCSPStackEvent_t` (cspTask.h:29). -/
structure CspStackEvent (P : Type) where
  eEventType : EventType
  pvData : P
deriving DecidableEq, Repr

/-- The lines that end every text reply: the text and its length go to `outcomingPacket`, which
is sent to where the request came from. -/
def reply (out inPacket : P) (msg : List UInt8) (timeout : Nat) : Fw B P Int := do
  pktCopy out msg
  pktLength out msg.length
  let id ← pktId inPacket
  sendto cspPrioNorm id.src.toNat id.sport.toNat id.dport.toNat cspONone out timeout

/-- `if (r == CSP_ERR_NONE) power_switch_toggle();` -/
def toggleOnSuccess (r : Int) : Fw B P Unit :=
  if r = cspErrNone then powerSwitchToggle else pure ()

/-- `processAll` (mainTask.c:26). -/
def processAll (sincos : Nat → F) (out inPacket : P) : Fw B P Unit := do
  setCount 0
  setSampling true
  vTaskDelay 2000
  waitSampling
  powerSwitchToggle
  decimateAndStore (F := F) noPoints fun i => bitrevTable.getD i 0
  fftCalculate noPoints sincos
  powerSwitchToggle
  let _ ← reply out inPacket (lit "Sampling and computing done\n") 1000
  vTaskDelay 10

/-- The text `sendSignal` sends for sample `i` with value `w` (mainTask.c:83). -/
def signalText (i w : Nat) : List UInt8 :=
  fmtInt (i16 (u16 (i * 5))) ++ lit ";" ++ fmtInt (i16 w) ++ lit "\n"

/-- `sendSignal` (mainTask.c:58). -/
def sendSignal (out inPacket : P) : Fw B P Unit := do
  powerSwitchToggle
  tickTimer false
  delayMs 4
  let _ ← reply out inPacket (lit "Sampled signal\n") 100
  delayMs 4
  Prog.forTo memSignalLength fun i => do
    let point ← spiMemReadWord (u16 (u16 (i * 2) + memSignalBegin))
    let _ ← reply out inPacket (signalText i point) 100
    delayMs 2
  tickTimer true

/-- The text `sendFFT` sends for point `i` (mainTask.c:132-141). -/
def fftText (i : Nat) (z : Complex F) : List UInt8 :=
  let real := mul z.real z.real
  let imag := mul z.imag z.imag
  let data2 := mul (log (add real imag)) (ofInt 10)
  let data := i16 (toInt data2)
  let fAxis := (i32 (i * 10000)).tdiv noPoints
  fmtInt (i16 fAxis) ++ lit ";" ++ fmtInt data ++ lit "\n"

/-- `sendFFT` (mainTask.c:107). -/
def sendFFT (F : Type) [FloatFormat F B] (out inPacket : P) : Fw B P Unit := do
  tickTimer false
  delayMs 5
  powerSwitchToggle
  let _ ← reply out inPacket (lit "Sampled signal\n") 15
  Prog.forTo (noPoints / 2) fun i => do
    let point : Complex F ← spiMemReadComplex (u16 (u16 (i * 8) + memFftBegin))
    let r ← reply out inPacket (fftText i point) 10
    toggleOnSuccess r
    delayMs 4
  tickTimer true

/-- The text of a temperature reading (mainTask.c:176). -/
def temperatureText (temp : Int) : List UInt8 :=
  fmtInt (temp.tdiv 128) ++ lit "." ++ fmtInt ((i16 ((i32 (temp * 100)).tdiv 128)).tmod 100) ++
    lit "\n"

/-- `sendFreeHeapSpace` (mainTask.c:168). -/
def sendFreeHeapSpace (out inPacket : P) : Fw B P Unit := do
  tickTimer false
  let temp ← adtGetTemperature
  let _ ← reply out inPacket (temperatureText (i16 temp)) 10
  tickTimer true

/-- The status text (mainTask.c:244). -/
def uptimeText (hoursTimer secondsTimer : Nat) : List UInt8 :=
  let h := i16 hoursTimer
  let s := i16 secondsTimer
  lit "*** Board\n\rSoftware v1.0\n\rUptime: " ++ fmtInt (h.tdiv 24) ++ lit "d " ++
    fmtInt (h.tmod 24) ++ lit "h " ++ fmtInt (s.tdiv 60) ++ lit "m " ++ fmtInt (s.tmod 60) ++
    lit "s\n\r"

/-- The values of the memory test in `houseKeeping` (mainTask.c:213-217). -/
def houseKeepingAa : Nat := 7442
def houseKeepingCislo : Complex F := { real := ofDec (-347) 2, imag := ofDec 187645 2 }

/-- `houseKeeping` (mainTask.c:209). `bb` and `cc` end up in no message. -/
def houseKeeping (F : Type) [FloatFormat F B] (out inPacket : P) : Fw B P Unit := do
  tickTimer false
  spiMemWriteComplex 145 (houseKeepingCislo : Complex F)
  let cisloRead : Complex F ← spiMemReadComplex 145
  spiMemWriteWord 0x789 houseKeepingAa
  let bb ← spiMemReadWord 0x789
  let bb := if beq cisloRead.real (houseKeepingCislo : Complex F).real then u16 (bb + 1) else bb
  let _bb := if beq cisloRead.imag (houseKeepingCislo : Complex F).imag then u16 (bb + 2) else bb
  let _cc ← adcaReadCh0
  let h ← hours
  let s ← seconds
  let r ← reply out inPacket (uptimeText h s) 50
  toggleOnSuccess r
  delayMs 300
  tickTimer true

/-- `echoBack` (mainTask.c:269): the request itself is sent back. -/
def echoBack (inPacket : P) : Fw B P Unit := do
  let id ← pktId inPacket
  let r ← sendto cspPrioNorm id.src.toNat id.sport.toNat id.dport.toNat cspONone inPacket 1000
  toggleOnSuccess r

/-- The `switch` of `mainTask` (mainTask.c:299). -/
def handle (sincos : Nat → F) (out : P) (e : CspStackEvent P) : Fw B P Unit :=
  match e.eEventType with
  | .freeHeapEvent => sendFreeHeapSpace out e.pvData
  | .echoBackEvent => echoBack e.pvData
  | .housKeepingEvent => houseKeeping F out e.pvData
  | .processAllEvent => processAll sincos out e.pvData
  | .sendSignalEvent => sendSignal out e.pvData
  | .sendFFTEvent => sendFFT F out e.pvData
  | .sendAttenuationEvent => pure ()
  | .sendSummaryInfoEvent => pure ()
  | .other => pure ()

end HmBoard
