import HmBoard.Csp.Frame

/-!
# The TWI slave driver (twi_slave_driver.c) and `TWI_CSP_SlaveProcessData` (csp_interface.c)

| here | there |
| --- | --- |
| `SlaveStatus`, `SlaveStatus.cause` | `SLAVE.STATUS` and the chain of tests on it in `TWI_SlaveInterruptHandler` (`twi_slave_driver.c:123-166`) |
| `TwiSlave`              | `TWI_Slave_t` (`twi_slave_driver.h:91-101`) with the registers the driver writes: `PIEN` of `CTRLA`, the last command in `CTRLB`, `DATA` |
| `slaveProcessData`      | `TWI_CSP_SlaveProcessData` (`csp_interface.c:20-42`): the frame it passes to `callbackFunction`, if it calls it |
| `junk`                  | what the stack holds where `newFrame` is placed |

A handler returns the driver state and the frame passed to `callbackFunction`, if any. The counters
are `register8_t` there; they never exceed the buffer sizes, so they are `Nat` here.
-/

namespace HmBoard

open Lib

/-- `TWIS_RECEIVE_BUFFER_SIZE`. -/
def twisReceiveBufferSize : Nat := 72
/-- `TWIS_SEND_BUFFER_SIZE`. -/
def twisSendBufferSize : Nat := 1

/-- The bits of `SLAVE.STATUS` that the driver tests. -/
structure SlaveStatus where
  buserr : Bool
  coll   : Bool
  apif   : Bool
  ap     : Bool
  dif    : Bool
  /-- `TWI_SLAVE_DIR_bm`: set when the master reads. -/
  dir    : Bool
  /-- `TWI_SLAVE_RXACK_bm`: set when the master did not acknowledge. -/
  rxack  : Bool
deriving DecidableEq, Repr

inductive SlaveCause where
  | busError | collision | addressMatch | stop | data | unexpected
deriving DecidableEq, Repr

/-- The branch that `TWI_SlaveInterruptHandler` takes. -/
def SlaveStatus.cause (st : SlaveStatus) : SlaveCause :=
  if st.buserr then .busError
  else if st.coll then .collision
  else if st.apif && st.ap then .addressMatch
  else if st.apif then .stop
  else if st.dif then .data
  else .unexpected

/-- `TWIS_RESULT_t`. -/
inductive TwisResult where
  | unknown | ok | bufferOverflow | transmitCollision | busError | fail | aborted
deriving DecidableEq, Repr

inductive TwisStatus where
  | ready | busy
deriving DecidableEq, Repr

/-- The commands the driver writes to `SLAVE.CTRLB`. -/
inductive SlaveCommand where
  /-- `TWI_SLAVE_CMD_RESPONSE_gc`: acknowledge and wait for the next interrupt. -/
  | response
  /-- `TWI_SLAVE_CMD_COMPTRANS_gc`. -/
  | comptrans
  /-- `TWI_SLAVE_ACKACT_bm | TWI_SLAVE_CMD_COMPTRANS_gc`: do not acknowledge. -/
  | nackComptrans
deriving DecidableEq, Repr

structure TwiSlave where
  receivedData  : Mem UInt8
  sendData      : Mem UInt8
  bytesReceived : Nat
  bytesSent     : Nat
  status        : TwisStatus
  result        : TwisResult
  abort         : Bool
  /-- `TWI_SLAVE_PIEN_bm` of `CTRLA`: the stop interrupt is enabled. -/
  pien          : Bool
  ctrlb         : Option SlaveCommand
  /-- The last byte written to `SLAVE.DATA`. -/
  data          : Option UInt8

/-- `TWI_SlaveInitializeDriver` and `TWI_SlaveInitializeModule` (twi_slave_driver.c:81-115);
the buffers start with whatever they hold. -/
def slaveInitialize (receivedData sendData : Mem UInt8) : TwiSlave where
  receivedData := receivedData
  sendData := sendData
  bytesReceived := 0
  bytesSent := 0
  status := .ready
  result := .unknown
  abort := false
  pien := false
  ctrlb := none
  data := none

/-- `TWI_CSP_SlaveProcessData` (csp_interface.c:20-42). -/
def slaveProcessData (junk : I2cFrame) (t : TwiSlave) : Option I2cFrame :=
  if t.result = .ok then
    if 0 < t.bytesReceived then
      some { junk with
        len := UInt16.ofNat t.bytesReceived
        data := junk.data.write 0 (t.receivedData.read 0 t.bytesReceived) }
    else some junk
  else none

/-- `TWI_SlaveTransactionFinished` (twi_slave_driver.c:315-323). -/
def slaveTransactionFinished (junk : I2cFrame) (t : TwiSlave) (r : TwisResult) :
    TwiSlave × Option I2cFrame :=
  let t := { t with result := r, status := .ready }
  (t, slaveProcessData junk t)

/-- Completing a transaction for a waiting `abort`. -/
def slaveAbort (junk : I2cFrame) (t : TwiSlave) : TwiSlave × Option I2cFrame :=
  let r := slaveTransactionFinished junk { t with ctrlb := some .comptrans } .aborted
  ({ r.1 with abort := false }, r.2)

/-- `TWI_SlaveAddressMatchHandler` (twi_slave_driver.c:172-193). -/
def slaveAddressMatchHandler (junk : I2cFrame) (t : TwiSlave) : TwiSlave × Option I2cFrame :=
  if t.abort then slaveAbort junk t
  else ({ t with
    status := .busy, result := .unknown, pien := false, bytesReceived := 0, bytesSent := 0,
    ctrlb := some .response }, none)

/-- `TWI_SlaveStopHandler` (twi_slave_driver.c:200-213). -/
def slaveStopHandler (junk : I2cFrame) (t : TwiSlave) : TwiSlave × Option I2cFrame :=
  slaveTransactionFinished junk { t with pien := false } .ok

/-- `TWI_SlaveReadHandler` (twi_slave_driver.c:237-272); `data` is `SLAVE.DATA`. -/
def slaveReadHandler (junk : I2cFrame) (data : UInt8) (t : TwiSlave) :
    TwiSlave × Option I2cFrame :=
  let t := { t with pien := true }
  if t.bytesReceived < twisReceiveBufferSize then
    let t := { t with
      receivedData := t.receivedData.write t.bytesReceived [data]
      bytesReceived := t.bytesReceived + 1 }
    if t.abort then slaveAbort junk t
    else ({ t with ctrlb := some .response }, none)
  else slaveTransactionFinished junk { t with ctrlb := some .nackComptrans } .bufferOverflow

/-- `TWI_SlaveWriteHandler` (twi_slave_driver.c:280-305). -/
def slaveWriteHandler (junk : I2cFrame) (rxack : Bool) (t : TwiSlave) :
    TwiSlave × Option I2cFrame :=
  if 0 < t.bytesSent ∧ rxack = true then
    slaveTransactionFinished junk { t with ctrlb := some .comptrans } .ok
  else if t.bytesSent < twisSendBufferSize then
    ({ t with
      data := some (t.sendData t.bytesSent), bytesSent := t.bytesSent + 1,
      ctrlb := some .response }, none)
  else slaveTransactionFinished junk { t with ctrlb := some .comptrans } .bufferOverflow

/-- `TWI_SlaveInterruptHandler` (twi_slave_driver.c:123-166), the data branch with
`TWI_SlaveDataHandler` (:221-228). -/
def slaveInterruptHandler (st : SlaveStatus) (data : UInt8) (junk : I2cFrame) (t : TwiSlave) :
    TwiSlave × Option I2cFrame :=
  match st.cause with
  | .busError =>
    ({ t with bytesReceived := 0, bytesSent := 0, result := .busError, status := .ready }, none)
  | .collision =>
    ({ t with
      bytesReceived := 0, bytesSent := 0, result := .transmitCollision, status := .ready }, none)
  | .addressMatch => slaveAddressMatchHandler junk t
  | .stop => slaveStopHandler junk t
  | .data => if st.dir then slaveWriteHandler junk st.rxack t else slaveReadHandler junk data t
  | .unexpected => slaveTransactionFinished junk t .fail

/-! ## What a finished transaction passes on -/

@[simp] theorem slaveTransactionFinished_none (junk : I2cFrame) (t : TwiSlave) {r : TwisResult}
    (h : r ≠ .ok) : (slaveTransactionFinished junk t r).2 = none := by
  simp [slaveTransactionFinished, slaveProcessData, h]

/-- A transaction that finishes well calls `callbackFunction`, whatever was received. -/
theorem slaveTransactionFinished_calls (junk : I2cFrame) (t : TwiSlave) :
    ∃ f, (slaveTransactionFinished junk t .ok).2 = some f := by
  by_cases h : 0 < t.bytesReceived <;> simp [slaveTransactionFinished, slaveProcessData, h]

/-- The frame has the bytes received when there are any. -/
theorem slaveTransactionFinished_carries (junk : I2cFrame) (t : TwiSlave) {bs : List UInt8}
    (h0 : bs ≠ []) (hb : t.bytesReceived < 2 ^ 16) (hl : bs.length = t.bytesReceived)
    (hd : t.receivedData.read 0 bs.length = bs) :
    ∃ f, (slaveTransactionFinished junk t .ok).2 = some f ∧ f.Carries bs := by
  have hpos : 0 < t.bytesReceived := by
    rw [← hl]; exact List.length_pos_iff.2 h0
  refine ⟨{ junk with
    len := UInt16.ofNat t.bytesReceived
    data := junk.data.write 0 (t.receivedData.read 0 t.bytesReceived) }, ?_, ?_, ?_⟩
  · simp [slaveTransactionFinished, slaveProcessData, hpos]
  · rw [hl]
    exact Nat.mod_eq_of_lt hb
  · rw [← hl, hd]
    exact Mem.read_write_self junk.data 0 bs

end HmBoard
