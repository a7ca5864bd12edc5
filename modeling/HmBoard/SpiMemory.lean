import HmBoard.Firmware
import HmBoard.Config

/-!
# `spi_memory_23lcxx.c`

The six accesses to the external SPI memory. Each fills the shared `buffer_memory` with opcode and
big-endian address, pulls chip select low, clocks the bytes out (and, for a read, clocks the answer
into the same buffer), and releases chip select.
-/

namespace HmBoard

open Lib Fw

variable {F B P : Type} [Cell B] [FloatFormat F B]

/-- `SPI_READ`, `SPI_WRITE` (spi_memory_23lcxx.h:33-34). -/
def spiRead : UInt8 := 0x03
def spiWrite : UInt8 := 0x02

/-- `CONFIG_SPI_MASTER_DUMMY` (spi_master.h:79). -/
def configSpiMasterDummy : UInt8 := 0xFF

/-- `spi_write_packet(…, buffer_memory, len)`: the received bytes are discarded. -/
def spiWritePacket (len : Nat) : Fw B P Unit :=
  Prog.forTo len fun i => do
    let b ← bufGet i
    let _ ← spiXfer b
    pure ()

/-- `spi_read_packet(…, buffer_memory, len)`. -/
def spiReadPacket (len : Nat) : Fw B P Unit :=
  Prog.forTo len fun i => do
    let b ← spiXfer (byte configSpiMasterDummy)
    bufSet i b

/-- `memcpy(buffer_memory, &data, 8)`. -/
def bufCopyIn (bs : List B) : Fw B P Unit :=
  Prog.forTo bs.length fun i => bufSet i (bs.getD i (byte 0))

/-- `memcpy(&data, buffer_memory, n)`. -/
def bufCopyOut (n : Nat) : Fw B P (List B) :=
  Prog.loop (fun i bs => do
    let b ← bufGet i
    pure (bs ++ [b])) [] n

/-- The four assignments that open every access: opcode and 24-bit address. -/
def bufCommand (op : UInt8) (address : Nat) : Fw B P Unit := do
  bufSet 0 (byte op)
  bufSet 1 (byte (UInt8.ofNat ((address &&& 0xFF0000) >>> 16)))
  bufSet 2 (byte (UInt8.ofNat ((address &&& 0x00FF00) >>> 8)))
  bufSet 3 (byte (UInt8.ofNat (address &&& 0x0000FF)))

/-- `spi_mem_write_word` (spi_memory_23lcxx.c:60). -/
def spiMemWriteWord (address data : Nat) : Fw B P Unit := do
  bufCommand spiWrite address
  bufSet 4 (byte (UInt8.ofNat (data >>> 8)))
  bufSet 5 (byte (UInt8.ofNat data))
  csLow
  spiWritePacket 6
  csHigh

/-- `spi_mem_write_byte` (spi_memory_23lcxx.c:79). -/
def spiMemWriteByte (address : Nat) (data : UInt8) : Fw B P Unit := do
  bufCommand spiWrite address
  bufSet 4 (byte data)
  csLow
  spiWritePacket 5
  csHigh

/-- `spi_mem_write_complex` (spi_memory_23lcxx.c:96). -/
def spiMemWriteComplex (address : Nat) (data : Complex F) : Fw B P Unit := do
  bufCommand spiWrite address
  csLow
  spiWritePacket 4
  bufCopyIn data.enc
  spiWritePacket 8
  csHigh

/-- `spi_mem_read_word` (spi_memory_23lcxx.c:133); `char` is unsigned in this build. -/
def spiMemReadWord (address : Nat) : Fw B P Nat := do
  bufCommand spiRead address
  csLow
  spiWritePacket 4
  spiReadPacket 2
  csHigh
  let b0 ← bufGet 0
  let b1 ← bufGet 1
  pure (((val b0).toNat <<< 8) ||| (val b1).toNat)

/-- `spi_mem_read_byte` (spi_memory_23lcxx.c:155). -/
def spiMemReadByte (address : Nat) : Fw B P UInt8 := do
  bufCommand spiRead address
  csLow
  spiWritePacket 4
  spiReadPacket 1
  csHigh
  let b0 ← bufGet 0
  pure (val b0)

/-- `spi_mem_read_complex` (spi_memory_23lcxx.c:175). -/
def spiMemReadComplex (address : Nat) : Fw B P (Complex F) := do
  bufCommand spiRead address
  csLow
  spiWritePacket 4
  spiReadPacket 8
  csHigh
  let bs ← bufCopyOut 8
  pure (Complex.dec bs)

end HmBoard
