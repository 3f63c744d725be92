import Hidpin.Lib.Run
import Hidpin.Lib.Mask
import Hidpin.Lib.Ring
import Hidpin.Lib.Bytes
import Hidpin.Lib.Replay
import Hidpin.Lib.Flips
import Hidpin.Lib.Program
import Hidpin.Lib.Gaps
import Hidpin.Lib.Gf2
import Hidpin.Lib.Simulation
import Hidpin.Lib.Paced
import Hidpin.Firmware.Protocol
import Hidpin.Firmware.EventQueue
import Hidpin.Firmware.Fifo
import Hidpin.Firmware.Debounce
import Hidpin.Firmware.Engine
import Hidpin.Firmware.Delivery
import Hidpin.Firmware.Reasons
import Hidpin.Firmware.Replay
import Hidpin.Firmware.Sequel
import Hidpin.Firmware.Ongoing
import Hidpin.Firmware.Electrical
import Hidpin.Firmware.Settle
import Hidpin.Firmware.MainLoop
import Hidpin.Host.Error
import Hidpin.Host.Protocol
import Hidpin.Host.Clock
import Hidpin.Host.Device
import Hidpin.Host.RequestIds
import Hidpin.Host.Watch
import Hidpin.Host.Watcher
import Hidpin.Host.View
import Hidpin.Host.OnOff
import Hidpin.Firmware.Invariant
import Hidpin.Firmware.Confirm
import Hidpin.Host.Target
import Hidpin.Host.LifeCycle
import Hidpin.Host.Missed
import Hidpin.Host.CatchUp
import Hidpin.Host.Sequel
import Hidpin.Host.Noting
import Hidpin.Go.Protocol
import Hidpin.Python.Protocol
import Hidpin.Codec.Validation
import Hidpin.Codec.Status
import Hidpin.System.Missed
import Hidpin.System.Sequel
import Hidpin.System.CatchUp
import Hidpin.System.Bus
import Hidpin.System.Hosts
import Hidpin.System.Updates
import Hidpin.System.Wire
import Hidpin.System.Driven
import Hidpin.System.Line
import Hidpin.System.Cable
import Hidpin.System.Current
import Hidpin.System.Since
import Hidpin.System.Attached
import Hidpin.Firmware.Times
import Hidpin.Firmware.Pin
import Hidpin.Firmware.Changes
import Hidpin.Firmware.Isolation
import Hidpin.Firmware.Recovery
import Hidpin.Firmware.Order
import Hidpin.System.Times
import Hidpin.Host.Windows
import Hidpin.Codec.Info
import Hidpin.Codec.TopLevelUsage
import Hidpin.Codec.UsbIds
import Hidpin.Go.Device
import Hidpin.Go.LifeCycle
import Hidpin.Cli.Usage
import Hidpin.System.ConfigSet
import Hidpin.Host.Pace
import Hidpin.Host.Mailbox
import Hidpin.Host.Iterations
import Hidpin.System.Once
import Hidpin.Firmware.Loop
import Hidpin.Firmware.Heartbeat
import Hidpin.Firmware.Turns
import Hidpin.Firmware.Picture
import Hidpin.Testing.Handles
import Hidpin.Testing.Simulation
