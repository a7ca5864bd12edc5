import HmBoard.Csp.Crc32
import HmBoard.Csp.Receive

/-!
# The KISS interface (`csp_if_kiss.c`)

| here | there |
| --- | --- |
| `kissTxLoop`, `kissTxByte`   | the loop of `csp_kiss_tx` (csp_if_kiss.c:68-77), one round |
| `cspKissTx`                  | `csp_kiss_tx` (csp_if_kiss.c:49) and what it gives `kiss_putc` |
| `Kiss`, `Kiss.init`          | the handle and the counters, as `csp_kiss_init` leaves them |
| `kissOverflow`, `kissSwitch` | a round of `csp_kiss_rx` (csp_if_kiss.c:93) |
| `kissStore`, `kissAccept`    | a byte of the packet, the end of a frame |

A frame is the packet with its checksum between two `FEND`, after a byte `TNC_DATA`; each `FEND` and
`FESC` inside is escaped. `csp_kiss_rx` is called with any piece of what the line delivers, and the
state is kept in the handle: several calls are one call with the pieces put together. `supply` is
what `csp_buffer_get` answers, call by call; address 0 is `NULL`.
-/

namespace HmBoard

open Lib

def kissFend : UInt8 := 0xC0
def kissFesc : UInt8 := 0xDB
def kissTfend : UInt8 := 0xDC
def kissTfesc : UInt8 := 0xDD
/-- `TNC_DATA`. -/
def tncData : UInt8 := 0x00

variable (crc32 : List UInt8 → BitVec 32)

/-! ## Sending -/

/-- One byte; it is replaced in the packet before it is put out. -/
def kissTxByte (m : Ram) (a : Nat) : Ram × List UInt8 :=
  if m a = kissFend then (m.setByte a kissTfend, [kissFesc, kissTfend])
  else if m a = kissFesc then (m.setByte a kissTfesc, [kissFesc, kissTfesc])
  else (m, [m a])

def kissTxLoop (m : Ram) (a : Nat) : Nat → Ram × List UInt8
  | 0 => (m, [])
  | n + 1 =>
    let t := kissTxByte m a
    let u := kissTxLoop t.1 (a + 1) n
    (u.1, t.2 ++ u.2)

/-- `csp_kiss_tx`, with a driver; the packet is freed after it. -/
def cspKissTx (m : Ram) (p : Nat) : Ram × List UInt8 :=
  let m := cspCrc32Append crc32 m p
  let m := m.setExt p (cspHton32 (m.ext p))
  let m := m.setLength p (m.length p + 4)
  let t := kissTxLoop m (p + 10) (m.length p)
  (t.1, kissFend :: tncData :: t.2 ++ [kissFend])

/-! ## Receiving -/

inductive KissMode where
  | notStarted | started | escaped | skipFrame
deriving DecidableEq, Repr

structure Kiss where
  ram : Ram
  mode : KissMode
  length : Nat
  first : Bool
  /-- `rx_packet`. -/
  packet : Nat
  rxError : UInt32
  frame : UInt32
  /-- What `kiss_discard` was given. -/
  discarded : List UInt8
  /-- What `csp_new_packet` was given: the buffer, and the packet in it. -/
  received : List (Nat × Packet)
  /-- How often `csp_buffer_get` was called. -/
  gets : Nat

def Kiss.init (m : Ram) : Kiss := ⟨m, .notStarted, 0, false, 0, 0, 0, [], [], 0⟩

/-- A byte of the packet: `((char *) &rx_packet->id.ext)[rx_length++] = b`. -/
def kissStore (k : Kiss) (b : UInt8) : Kiss :=
  { k with ram := k.ram.setByte (k.packet + 10 + k.length) b, length := k.length + 1 }

/-- The end of a frame that is not empty. -/
def kissAccept (k : Kiss) : Kiss :=
  if k.length < 8 then { k with rxError := k.rxError + 1, mode := .notStarted }
  else
    let m := k.ram.setLength k.packet (k.length - 4)
    let m := m.setExt k.packet (cspHton32 (m.ext k.packet))
    let v := cspCrc32Verify crc32 m k.packet
    if v.2 ≠ cspErrNone then
      { k with ram := v.1, frame := k.frame + 1, rxError := k.rxError + 1, mode := .notStarted }
    else
      { k with
        ram := v.1, frame := k.frame + 1, packet := 0, mode := .notStarted
        received := k.received ++ [(k.packet, v.1.packet k.packet)] }

variable (mtu : Nat) (supply : Nat → Nat)

/-- The packet was too long. -/
def kissOverflow (k : Kiss) : Kiss :=
  if k.length > mtu then { k with rxError := k.rxError + 1, mode := .notStarted, length := 0 }
  else k

/-- The `switch`. -/
def kissSwitch (k : Kiss) (b : UInt8) : Kiss :=
  match k.mode with
  | .notStarted =>
    if b ≠ kissFend then { k with discarded := k.discarded ++ [b] }
    else
      let k := if k.packet = 0 then { k with packet := supply k.gets, gets := k.gets + 1 } else k
      if k.packet = 0 then { k with mode := .skipFrame }
      else { k with length := 0, mode := .started, first := true }
  | .started =>
    if b = kissFesc then { k with mode := .escaped }
    else if b = kissFend then if k.length > 0 then kissAccept crc32 k else k
    else if k.first then { k with first := false }
    else kissStore k b
  | .escaped =>
    let k := if b = kissTfesc then kissStore k kissFesc else k
    let k := if b = kissTfend then kissStore k kissFend else k
    { k with mode := .started }
  | .skipFrame => if b = kissFend then { k with mode := .notStarted } else k

def kissRxByte (k : Kiss) (b : UInt8) : Kiss := kissSwitch crc32 supply (kissOverflow mtu k) b

def cspKissRx (k : Kiss) (buf : List UInt8) : Kiss := buf.foldl (kissRxByte crc32 mtu supply) k

end HmBoard
