import HmBoard.SpiMemory

/-!
# `system.c`: the ADC and the sampling interrupt

| here | there |
| --- | --- |
| `adcaReadCh0` | `adca_read_ch0` (system.c:203) |
| `tcd0Ovf`     | `ISR(TCD0_OVF_vect)` (system.c:119) |
-/

namespace HmBoard

open Lib Fw

variable {B P : Type} [Cell B]

/-- One conversion added to the sum: the body of the loop in `adca_read_ch0`. -/
def adcConversion (sum : Int) : Fw B P Int := do
  adcStart
  adcWait
  let r ← adcRes
  pure (i16 (sum + u16 r))

/-- `adca_read_ch0` (system.c:203): four conversions, their sum shifted right by two. -/
def adcaReadCh0 : Fw B P Nat := do
  let sum ← Prog.loop (fun _ => adcConversion) 0 4
  pure (toU16 (sum.shiftRight 2))

/-- The measurement is complete (system.c:134-141). -/
def endMeasurement : Fw B P Unit := do
  let offset ← getOffset
  spiMemWriteWord memSignalOffset (toU16 (offset.tdiv memSignalLength))
  powerSwitchToggle
  setCount 0
  setSampling false
  setOffset 0

/-- One sample (system.c:126-142). -/
def takeSample : Fw B P Unit := do
  let r ← adcaReadCh0
  let adcValue := i16 r
  let offset ← getOffset
  setOffset (i32 (offset + adcValue))
  let count ← getCount
  spiMemWriteWord (u16 (u16 (count * 2) + memSignalBegin)) (toU16 adcValue)
  setCount (u16 (count + 1))
  let count ← getCount
  if count = memSignalLength then endMeasurement else pure ()

/-- `ISR(TCD0_OVF_vect)` (system.c:119). -/
def tcd0Ovf : Fw B P Unit := do
  let sampling ← getSampling
  if sampling = true then takeSample else pure ()

end HmBoard
