import HmBoard.Csp.Header
import HmBoard.Lib.Mem

/-!
# `i2c_frame_t` (i2c.h:53-61)

The frame that the I2C driver exchanges with `csp_if_i2c.c`. An automatic variable of this type
starts out as whatever the stack holds.
-/

namespace HmBoard

open Lib

/-- Maximum transfer length on I2C. -/
def i2cMtu : Nat := 255

structure I2cFrame where
  padding  : UInt8
  retries  : UInt8
  reserved : UInt32
  dest     : UInt8
  lenRx    : UInt8
  len      : UInt16
  data     : Mem UInt8

/-- The frame holds exactly the bytes `bs`. -/
def I2cFrame.Carries (f : I2cFrame) (bs : List UInt8) : Prop :=
  f.len.toNat = bs.length ∧ f.data.read 0 bs.length = bs

end HmBoard
