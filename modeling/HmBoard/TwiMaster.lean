import HmBoard.Csp.Frame

/-!
# The TWI master driver (twi_master_driver.c) and `i2c_send` (csp_interface.c)

| here | there |
| --- | --- |
| `TwiMaster`          | `TWI_Master_t` (`twi_master_driver.h:94-105`) |
| `WriteRead`          | the arguments of `TWI_MasterWriteRead`; `WriteRead.i2cSend` is `i2c_send` (`csp_interface.c:67-76`) with `TWI_MasterWrite` (`twi_master_driver.c:148-155`), whose length is a `uint8_t` |
| `MasterPc`, `MasterPc.next` | the statements of `TWI_MasterWriteRead` (`twi_master_driver.c:193-244`), one at a time |
| `masterInterruptHandler` | `TWI_MasterInterruptHandler` (`twi_master_driver.c:253-278`) |

The two tasks that send run `TWI_MasterWriteRead` on the one `twi_csp_master` and can be preempted
after every statement. The counters are `register8_t` there; none exceeds its buffer size.
-/

namespace HmBoard

open Lib

/-- `TWIM_WRITE_BUFFER_SIZE`. -/
def twimWriteBufferSize : Nat := 255
/-- `TWIM_READ_BUFFER_SIZE`. -/
def twimReadBufferSize : Nat := 20

/-- `TWIM_RESULT_t`. -/
inductive TwimResult where
  | unknown | ok | bufferOverflow | arbitrationLost | busError | nackReceived | fail
deriving DecidableEq, Repr

inductive TwimStatus where
  | ready | busy
deriving DecidableEq, Repr

structure TwiMaster where
  address      : UInt8
  writeData    : Mem UInt8
  readData     : Mem UInt8
  bytesToWrite : Nat
  bytesToRead  : Nat
  bytesWritten : Nat
  bytesRead    : Nat
  status       : TwimStatus
  result       : TwimResult

/-- The arguments of `TWI_MasterWriteRead`. -/
structure WriteRead where
  address      : UInt8
  writeData    : Mem UInt8
  bytesToWrite : Nat
  bytesToRead  : Nat

/-- `i2c_send` through `TWI_MasterWrite`. -/
def WriteRead.i2cSend (f : I2cFrame) : WriteRead where
  address := f.dest
  writeData := f.data
  bytesToWrite := f.len.toUInt8.toNat
  bytesToRead := 0

/-- Where a task is in `TWI_MasterWriteRead`. -/
inductive MasterPc where
  /-- Parameter sanity check. -/
  | sanity
  /-- `if (twi->status == TWIM_STATUS_READY)`. -/
  | ready
  | setBusy
  | setUnknown
  | setAddress
  /-- The copy loop at `bufferIndex = i`. -/
  | fill (i : Nat)
  | setBytesToWrite
  | setBytesToRead
  | clearBytesWritten
  | clearBytesRead
  /-- `if (twi->bytesToWrite > 0)`. -/
  | testWrite
  | writeAddress
  /-- `else if (twi->bytesToRead > 0)`. -/
  | testRead
  | readAddress
  /-- `twi->interface->MASTER.ADDR = a`. -/
  | start (a : UInt8)
  /-- `return true`. -/
  | accept
  /-- `return false`. -/
  | refuse
deriving DecidableEq, Repr

/-- What a statement does to the driver or the bus, and where it leaves the task. -/
inductive MasterEffect where
  | pass (pc : MasterPc)
  | store (t : TwiMaster) (pc : MasterPc)
  /-- Writing `MASTER.ADDR` sends a START and the address byte. -/
  | start (a : UInt8) (pc : MasterPc)
  | ret (b : Bool)

/-- One statement of `TWI_MasterWriteRead` with the arguments `w`. -/
def MasterPc.next (w : WriteRead) (t : TwiMaster) : MasterPc → MasterEffect
  | .sanity =>
    if w.bytesToWrite > twimWriteBufferSize then .pass .refuse
    else if w.bytesToRead > twimReadBufferSize then .pass .refuse
    else .pass .ready
  | .ready => .pass (if t.status = .ready then .setBusy else .refuse)
  | .setBusy => .store { t with status := .busy } .setUnknown
  | .setUnknown => .store { t with result := .unknown } .setAddress
  | .setAddress => .store { t with address := w.address <<< 1 } (.fill 0)
  | .fill i =>
    if i < w.bytesToWrite then
      .store { t with writeData := t.writeData.write i [w.writeData i] } (.fill (i + 1))
    else .pass .setBytesToWrite
  | .setBytesToWrite => .store { t with bytesToWrite := w.bytesToWrite } .setBytesToRead
  | .setBytesToRead => .store { t with bytesToRead := w.bytesToRead } .clearBytesWritten
  | .clearBytesWritten => .store { t with bytesWritten := 0 } .clearBytesRead
  | .clearBytesRead => .store { t with bytesRead := 0 } .testWrite
  | .testWrite => .pass (if 0 < t.bytesToWrite then .writeAddress else .testRead)
  | .writeAddress => .pass (.start (t.address &&& ~~~0x01))
  | .testRead => .pass (if 0 < t.bytesToRead then .readAddress else .accept)
  | .readAddress => .pass (.start (t.address ||| 0x01))
  | .start a => .start a .accept
  | .accept => .ret true
  | .refuse => .ret false

/-- The call has set `twi->status`, and its START is still to come. -/
def MasterPc.Preparing : MasterPc → Prop
  | .sanity | .ready | .setBusy | .accept | .refuse => False
  | _ => True

/-! ## The interrupt handler -/

/-- The bits of `MASTER.STATUS` that the driver tests. -/
structure MasterStatus where
  arblost : Bool
  buserr  : Bool
  wif     : Bool
  rif     : Bool
  /-- `TWI_MASTER_RXACK_bm`: set when the slave did not acknowledge. -/
  rxack   : Bool
deriving DecidableEq, Repr

/-- What the handler writes to the bus registers. -/
inductive MasterAction where
  | none
  /-- A byte written to `MASTER.DATA`. -/
  | data (b : UInt8)
  /-- An address written to `MASTER.ADDR`. -/
  | addr (a : UInt8)
  /-- `TWI_MASTER_CMD_RECVTRANS_gc`: acknowledge and receive a byte. -/
  | recvtrans
  /-- `TWI_MASTER_CMD_STOP_gc`. -/
  | stop
  /-- `TWI_MASTER_ACKACT_bm | TWI_MASTER_CMD_STOP_gc`. -/
  | nackStop
deriving DecidableEq, Repr

/-- `TWI_MasterTransactionFinished` (twi_master_driver.c:395-399). -/
def masterTransactionFinished (t : TwiMaster) (r : TwimResult) : TwiMaster :=
  { t with result := r, status := .ready }

/-- `TWI_MasterWriteHandler` (twi_master_driver.c:313-346). -/
def masterWriteHandler (rxack : Bool) (t : TwiMaster) : TwiMaster × MasterAction :=
  if rxack then ({ t with result := .nackReceived, status := .ready }, .stop)
  else if t.bytesWritten < t.bytesToWrite then
    ({ t with bytesWritten := t.bytesWritten + 1 }, .data (t.writeData t.bytesWritten))
  else if t.bytesRead < t.bytesToRead then (t, .addr (t.address ||| 0x01))
  else (masterTransactionFinished t .ok, .stop)

/-- `TWI_MasterReadHandler` (twi_master_driver.c:356-385); after an overflow it goes on and stops
the transaction a second time. -/
def masterReadHandler (data : UInt8) (t : TwiMaster) : TwiMaster × MasterAction :=
  let t :=
    if t.bytesRead < twimReadBufferSize then
      { t with readData := t.readData.write t.bytesRead [data], bytesRead := t.bytesRead + 1 }
    else masterTransactionFinished t .bufferOverflow
  if t.bytesRead < t.bytesToRead then (t, .recvtrans)
  else (masterTransactionFinished t .ok, .nackStop)

/-- `TWI_MasterInterruptHandler` (twi_master_driver.c:253-278) with
`TWI_MasterArbitrationLostBusErrorHandler` (:287-304). -/
def masterInterruptHandler (st : MasterStatus) (data : UInt8) (t : TwiMaster) :
    TwiMaster × MasterAction :=
  if st.arblost || st.buserr then
    ({ t with result := if st.buserr then .busError else .arbitrationLost, status := .ready },
      .none)
  else if st.wif then masterWriteHandler st.rxack t
  else if st.rif then masterReadHandler data t
  else (masterTransactionFinished t .fail, .none)

end HmBoard
