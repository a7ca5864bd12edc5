import HmBoard.Lib.Prog
import HmBoard.Config
import HmBoard.Csp.Header

/-!
# The accesses of `mainTask` and of the sampling interrupt

The code of `mainTask`, its handlers and `ISR(TCD0_OVF_vect)` are programs (`Fw`) over these
accesses: memory and registers that the interrupt shares with the task (`buffer_memory`, the SPI
port, the three sampling globals, the ADC), packets, and what the rest of the world answers.
Purely local computation needs no access.

| access | there |
| --- | --- |
| `bufSet`, `bufGet`       | `buffer_memory[i]` (spi_memory_23lcxx.c:7) |
| `csLow`, `csHigh`        | `spi_select_device`, `spi_deselect_device`: the chip-select pin |
| `spiXfer`                | one byte exchanged on the SPI bus: `spi_write_single` and the wait for it (spi_master.c) |
| `setSampling` … `getOffset` | `sampling`, `count_TCD0`, `signal_offset` (config.h:81, system.c:20-24) |
| `waitSampling`           | `while(sampling==true);` (mainTask.c:33) |
| `adcStart`, `adcWait`, `adcRes` | `CH0.CTRL \|= START`, `while(!CH0.INTFLAGS);`, `CH0RES` (system.c:211-213) |
| `adtGetTemperature`      | `ADT_get_temperature()` (ADT7420.c:25) |
| `hours`, `seconds`       | `hoursTimer`, `secondsTimer` |
| `pktId`                  | reading `packet->id` |
| `pktCopy`, `pktLength`   | `strcpy(packet->data, msg)`, `packet->length = n` |
| `cspSendto`              | `csp_sendto(…)`, answered with its return code |
-/

namespace HmBoard

open Lib

inductive Op (B P : Type) where
  | bufSet (i : Nat) (b : B)
  | bufGet (i : Nat)
  | csLow
  | csHigh
  | spiXfer (b : B)
  | setSampling (v : Bool)
  | getSampling
  | waitSampling
  | setCount (n : Nat)
  | getCount
  | setOffset (x : Int)
  | getOffset
  | adcStart
  | adcWait
  | adcRes
  | adtGetTemperature
  | hours
  | seconds
  | powerSwitchToggle
  | tickTimer (on : Bool)
  | delayMs (n : Nat)
  | vTaskDelay (n : Nat)
  | pktId (p : P)
  | pktCopy (p : P) (msg : List UInt8)
  | pktLength (p : P) (n : Nat)
  | cspSendto (prio dest dport srcPort opts : Nat) (p : P) (timeout : Nat)

/-- What an access answers. -/
@[reducible] def Op.Res {B P : Type} : Op B P → Type
  | .bufGet _ => B
  | .spiXfer _ => B
  | .getSampling => Bool
  | .getCount => Nat
  | .getOffset => Int
  | .adcRes => Nat
  | .adtGetTemperature => Int
  | .hours => Nat
  | .seconds => Nat
  | .pktId _ => CspId
  | .cspSendto .. => Int
  | _ => Unit

/-- Firmware code over cells `B` and packet pointers `P`. -/
abbrev Fw (B P α : Type) := Prog (Op B P) Op.Res α

namespace Fw

variable {B P : Type}

abbrev bufSet (i : Nat) (b : B) : Fw B P Unit := Prog.call (Op.bufSet i b)
abbrev bufGet (i : Nat) : Fw B P B := Prog.call (Op.bufGet i)
abbrev csLow : Fw B P Unit := Prog.call Op.csLow
abbrev csHigh : Fw B P Unit := Prog.call Op.csHigh
abbrev spiXfer (b : B) : Fw B P B := Prog.call (Op.spiXfer b)
abbrev setSampling (v : Bool) : Fw B P Unit := Prog.call (Op.setSampling v)
abbrev getSampling : Fw B P Bool := Prog.call Op.getSampling
abbrev waitSampling : Fw B P Unit := Prog.call Op.waitSampling
abbrev setCount (n : Nat) : Fw B P Unit := Prog.call (Op.setCount n)
abbrev getCount : Fw B P Nat := Prog.call Op.getCount
abbrev setOffset (x : Int) : Fw B P Unit := Prog.call (Op.setOffset x)
abbrev getOffset : Fw B P Int := Prog.call Op.getOffset
abbrev adcStart : Fw B P Unit := Prog.call Op.adcStart
abbrev adcWait : Fw B P Unit := Prog.call Op.adcWait
abbrev adcRes : Fw B P Nat := Prog.call Op.adcRes
abbrev adtGetTemperature : Fw B P Int := Prog.call Op.adtGetTemperature
abbrev hours : Fw B P Nat := Prog.call Op.hours
abbrev seconds : Fw B P Nat := Prog.call Op.seconds
abbrev powerSwitchToggle : Fw B P Unit := Prog.call Op.powerSwitchToggle
abbrev tickTimer (on : Bool) : Fw B P Unit := Prog.call (Op.tickTimer on)
abbrev delayMs (n : Nat) : Fw B P Unit := Prog.call (Op.delayMs n)
abbrev vTaskDelay (n : Nat) : Fw B P Unit := Prog.call (Op.vTaskDelay n)
abbrev pktId (p : P) : Fw B P CspId := Prog.call (Op.pktId p)
abbrev pktCopy (p : P) (msg : List UInt8) : Fw B P Unit := Prog.call (Op.pktCopy p msg)
abbrev pktLength (p : P) (n : Nat) : Fw B P Unit := Prog.call (Op.pktLength p n)
abbrev sendto (prio dest dport srcPort opts : Nat) (p : P) (timeout : Nat) : Fw B P Int :=
  Prog.call (Op.cspSendto prio dest dport srcPort opts p timeout)

end Fw

end HmBoard
