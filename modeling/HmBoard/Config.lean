/-!
# `config.h` and `csp_autoconfig.h`

The constants the modelled functions read, under their source names.
-/

namespace HmBoard

/-! ## `config.h` -/

/-- Address of the local CSP node. -/
def cspMyAddress : Nat := 6
/-- Address of the OBC CSP node. -/
def cspObcAddress : Nat := 1
/-- Slave address of the OBC on the I2C bus. -/
def cspI2cObcAddress : Nat := cspObcAddress
def cspBufferCount : Nat := 3
def cspBufferSize : Nat := 86
/-- Maximum size of a CSP packet, payload and header. -/
def cspPacketSize : Nat := 72

/-! The SPI memory map (config.h:65-69). -/

def memSignalBegin : Nat := 0x000000
def memFftBegin : Nat := 0x001800
def memSignalOffset : Nat := 0x011800
/-- Samples of a measurement, two bytes each. -/
def memSignalLength : Nat := 2048
/-- Points of the transform, eight bytes each. -/
def noPoints : Nat := 512

/-! ## `csp_autoconfig.h`, `csp.h` -/

def cspConnMax : Nat := 10
def cspConnQueueLength : Nat := 10
def cspFifoInput : Nat := 10
def cspMaxBindPort : Nat := 31
/-- `CSP_BROADCAST_ADDR`. -/
def cspBroadcastAddr : Nat := 31
/-- `CSP_ANY`, the local "catch all" port. -/
def cspAny : Nat := cspMaxBindPort + 1
def cspPrioNorm : Nat := 2
def cspONone : Nat := 0

/-! The service ports (csp.h:59-67). -/

def cspCmp : Nat := 0
def cspPing : Nat := 1
def cspPs : Nat := 2
def cspMemfree : Nat := 3
def cspReboot : Nat := 4
def cspBufFree : Nat := 5
def cspUptime : Nat := 6

/-! ## `csp_error.h` -/

def cspErrNone : Int := 0
def cspErrNomem : Int := -1
def cspErrInval : Int := -2
def cspErrNotsup : Int := -5
def cspErrTx : Int := -10
def cspErrCrc32 : Int := -102

end HmBoard
