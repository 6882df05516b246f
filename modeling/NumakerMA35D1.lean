import NumakerMA35D1.Lib.Bytes
import NumakerMA35D1.Lib.Crc
import NumakerMA35D1.Lib.Outcome
import NumakerMA35D1.Lib.Buffer
import NumakerMA35D1.Lib.Align
import NumakerMA35D1.Lib.Words
import NumakerMA35D1.Lib.BitField
import NumakerMA35D1.Lib.Layout
import NumakerMA35D1.Lib.Run
import NumakerMA35D1.Lib.Bus
import NumakerMA35D1.Lib.Owners
import NumakerMA35D1.Lib.FirstMin
import NumakerMA35D1.Lib.Chain
import NumakerMA35D1.Lib.Placed
import NumakerMA35D1.Lib.Confined
import NumakerMA35D1.Lib.Bcd
import NumakerMA35D1.NuWriter.Crc32
import NumakerMA35D1.NuWriter.Format
import NumakerMA35D1.NuWriter.RoundTrip
import NumakerMA35D1.NuWriter.Verify
import NumakerMA35D1.NuWriter.HostProgram
import NumakerMA35D1.NuWriter.FailSafe
import NumakerMA35D1.Canfd.Message
import NumakerMA35D1.Canfd.TxFrame
import NumakerMA35D1.Canfd.RecvMsg
import NumakerMA35D1.Canfd.OpenLayout
import NumakerMA35D1.Canfd.FilterRun
import NumakerMA35D1.Canfd.TimingDecode
import NumakerMA35D1.Pdma.SgtblRun
import NumakerMA35D1.Pdma.ChainTable
import NumakerMA35D1.Pdma.ChannelRun
import NumakerMA35D1.Pdma.MemfunRun
import NumakerMA35D1.Pdma.ErrorCodes
import NumakerMA35D1.Pdma.Timeout
import NumakerMA35D1.Pdma.Memcpy
import NumakerMA35D1.Clk.ReadBack
import NumakerMA35D1.Clk.SetRun
import NumakerMA35D1.Clk.Limits
import NumakerMA35D1.Clk.Module
import NumakerMA35D1.UsbHost.PoolRun
import NumakerMA35D1.UsbHost.HeapRun
import NumakerMA35D1.UsbHost.MallocRun
import NumakerMA35D1.UsbHost.DevAddr
import NumakerMA35D1.UsbHost.WriteQh
import NumakerMA35D1.UsbHost.PortDevs
import NumakerMA35D1.UsbHost.CtrlRequests
import NumakerMA35D1.SpiNand.BadBlock
import NumakerMA35D1.SpiNand.PartitionBounds
import NumakerMA35D1.SpiNand.Status
import NumakerMA35D1.SpiNand.OnChip
import NumakerMA35D1.Gpio.IrqRun
import NumakerMA35D1.Whc.TxRun
import NumakerMA35D1.Uart.RxRun
import NumakerMA35D1.Uart.NuUart
import NumakerMA35D1.Epwm.SetRun
import NumakerMA35D1.Tpwm.SetGet
import NumakerMA35D1.I2s.StreamRun
import NumakerMA35D1.I2s.Clock
import NumakerMA35D1.Spi.BusClock
import NumakerMA35D1.Spi.PolledRun
import NumakerMA35D1.Gmac.FrameRun
import NumakerMA35D1.Rtc.SetGet
import NumakerMA35D1.UsbHost.OhciSubmit
import NumakerMA35D1.UsbHost.OhciPeriodic
import NumakerMA35D1.Sdh.RequestErr
import NumakerMA35D1.Sdh.Clock
import NumakerMA35D1.Adc.DrvAdc
import NumakerMA35D1.Ecap.DrvEcap
import NumakerMA35D1.Wdt.Window
import NumakerMA35D1.UsbHost.IsoPages
import NumakerMA35D1.UsbHost.SitdSchedule
import NumakerMA35D1.I2c.Transfer
import NumakerMA35D1.I2c.Polled
import NumakerMA35D1.NuWriter.BootInfo
import NumakerMA35D1.UsbHost.EhciPoll
import NumakerMA35D1.Hwsem.DrvHwsem
import NumakerMA35D1.UsbHost.OhciBytes
