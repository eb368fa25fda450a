import HauppaugeUSB.MythTV.Deadlock
import HauppaugeUSB.MythTV.Pairing
import HauppaugeUSB.MythTV.Lifetime
import HauppaugeUSB.Concurrency.Ledger
import HauppaugeUSB.MythTV.Queue
import HauppaugeUSB.MythTV.Recording
import HauppaugeUSB.Commands.Reply
import HauppaugeUSB.Commands.Version
import HauppaugeUSB.MythTV.Wedge
import HauppaugeUSB.Commands.Stdin
import HauppaugeUSB.MythTV.Channel
import HauppaugeUSB.MythTV.FlowControl
import HauppaugeUSB.Wrappers.Mutex
import HauppaugeUSB.Wrappers.Semaphore
import HauppaugeUSB.Main.Parameters
import HauppaugeUSB.Wrappers.Async
import HauppaugeUSB.Wrappers.Registry
import HauppaugeUSB.Control.Stage
import HauppaugeUSB.Device.Hdmi
import HauppaugeUSB.Wrappers.UsbLookup
import HauppaugeUSB.MythTV.Encoding
import HauppaugeUSB.MythTV.Conversation
import HauppaugeUSB.MythTV.Dialogue
import HauppaugeUSB.MythTV.Replying
import HauppaugeUSB.MythTV.Verdict
import HauppaugeUSB.MythTV.Watchdog
import HauppaugeUSB.MythTV.Races
import HauppaugeUSB.MythTV.Output
import HauppaugeUSB.MythTV.HangUp
import HauppaugeUSB.MythTV.Progress
import HauppaugeUSB.MythTV.Shutdown
import HauppaugeUSB.MythTV.Delivery
import HauppaugeUSB.Wrappers.RegistryFile
import HauppaugeUSB.Wrappers.Bulk
import HauppaugeUSB.Wrappers.UsbHandles
import HauppaugeUSB.Concurrency.Tokens
import HauppaugeUSB.Wrappers.Transfers
import HauppaugeUSB.Device.Gate
import HauppaugeUSB.Device.Opening
import HauppaugeUSB.Device.FreshErrors
import HauppaugeUSB.Main.Teardown
import HauppaugeUSB.Wrappers.UsbListing
import HauppaugeUSB.Device.Selection
import HauppaugeUSB.Main.Duration
import HauppaugeUSB.Main.Settings
import HauppaugeUSB.Wrappers.Wakeups
import HauppaugeUSB.Wrappers.Workers
import HauppaugeUSB.MythTV.Refinement
