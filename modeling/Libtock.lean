import Libtock.Core.Run
import Libtock.Core.Progress
import Libtock.Core.Ring
import Libtock.Core.Chain
import Libtock.Core.Clock
import Libtock.Tock.TaskQueue
import Libtock.Tock.Yield
import Libtock.Alarm.State
import Libtock.Alarm.Schedule
import Libtock.Alarm.Linked
import Libtock.Alarm.Insert
import Libtock.Alarm.Refinement
import Libtock.Alarm.World
import Libtock.Alarm.Simulation
import Libtock.Alarm.Effect
import Libtock.Alarm.Armed
import Libtock.Alarm.Early
import Libtock.Alarm.Restart
import Libtock.Alarm.Cancel
import Libtock.Alarm.Expire
import Libtock.Alarm.Period
import Libtock.Alarm.Order
import Libtock.Alarm.OnTime
import Libtock.Alarm.Delayed
import Libtock.Core.Serial
import Libtock.Tock.Syscall
import Libtock.Console.State
import Libtock.Console.Queue
import Libtock.Console.Memory
import Libtock.Console.World
import Libtock.Console.Serialized
import Libtock.Console.Progress
import Libtock.Console.Exact
import Libtock.AppState.Demo
import Libtock.Console.Errors
import Libtock.Console.Read
import Libtock.Console.OwnRead
import Libtock.Core.Bytes
import Libtock.Ieee802154.Frame
import Libtock.Ieee802154.Header
import Libtock.Ieee802154.Invalid
import Libtock.Ieee802154.Radio
import Libtock.SimpleBle.Advertisement
import Libtock.SimpleBle.AllOrNothing
import Libtock.SimpleBle.Oort
import Libtock.Crt0.Relocation
import Libtock.Crt0.Layout
import Libtock.UnitTest.Pending
import Libtock.Nrf.Delivery
import Libtock.Nrf.Transmit
import Libtock.Alarm.Ticks
import Libtock.Adc.Routing
import Libtock.Touch.MultiTouch
import Libtock.Touch.Read
import Libtock.Udp.Source
import Libtock.Screen.Waits
import Libtock.Screen.Pixel
import Libtock.Upcalls.Returned
import Libtock.GpioAsync.Nested
import Libtock.UnitTest.Turns
import Libtock.UnitTest.Ledger
import Libtock.UnitTest.Unblocked
import Libtock.Ipc.Discover
import Libtock.Ipc.Rotated
import Libtock.Ipc.Lit
import Libtock.Drivers.OwnAnswer
import Libtock.BleScan.Listed
import Libtock.RadioRx.Missed
import Libtock.RadioRx.InOrder
import Libtock.Tock.Sbrk
import Libtock.I2c.Master
