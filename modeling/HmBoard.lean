import HmBoard.Lib.Prog
import HmBoard.Avr
import HmBoard.Config
import HmBoard.Csp.Header
import HmBoard.Lib.Dft
import HmBoard.Lib.Mem
import HmBoard.Firmware
import HmBoard.SpiMemory
import HmBoard.Board
import HmBoard.ExactFloat
import HmBoard.Exclusion
import HmBoard.FftProofs
import HmBoard.Measurement
import HmBoard.Spectrum
import HmBoard.Csp.Frame
import HmBoard.Reception
import HmBoard.Sending
import HmBoard.Csp.Packet
import HmBoard.Csp.Send
import HmBoard.Framing
import HmBoard.CspTask
import HmBoard.Dispatch
import HmBoard.Release
import HmBoard.Csp.Buffer
import HmBoard.Csp.Conn
import HmBoard.Csp.Receive
import HmBoard.Csp.Route
import HmBoard.Station
import HmBoard.Adc
import HmBoard.ByteMap
import HmBoard.Clock
import HmBoard.Download
import HmBoard.MsgBuffers
import HmBoard.Recording
import HmBoard.Startup
import HmBoard.Temperature
import HmBoard.Thermometer
import HmBoard.Received
import HmBoard.FftAddressing
import HmBoard.FftWidths
import HmBoard.Checked
import HmBoard.Rtos.Wakeup
import HmBoard.Rtos.Transfer
import HmBoard.Rtos.OnTime
import HmBoard.Rtos.ListPointers
import HmBoard.Rtos.TimeSlicing
import HmBoard.Csp.Reassembly
import HmBoard.Csp.Sfp
import HmBoard.Csp.Kiss
import HmBoard.Csp.KissLine
