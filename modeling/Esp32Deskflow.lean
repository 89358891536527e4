import Esp32Deskflow.Foundation.Bytes
import Esp32Deskflow.Foundation.EspErr
import Esp32Deskflow.Foundation.Transition
import Esp32Deskflow.Foundation.SlotTable
import Esp32Deskflow.Libc.CStr
import Esp32Deskflow.Libc.Format
import Esp32Deskflow.Barrier.Io
import Esp32Deskflow.Barrier.Packet
import Esp32Deskflow.Barrier.PacketRoundTrip
import Esp32Deskflow.Tusb.Keycodes
import Esp32Deskflow.Tusb.Actuator
import Esp32Deskflow.Tusb.HidTask
import Esp32Deskflow.Tusb.TrackedKeys
import Esp32Deskflow.Tusb.HostView
import Esp32Deskflow.Tusb.Delivery
import Esp32Deskflow.Tusb.Pointer
import Esp32Deskflow.Tusb.SpecialKeys
import Esp32Deskflow.Tusb.ReportBounds
import Esp32Deskflow.Tusb.Tasks
import Esp32Deskflow.Tusb.Unmounted
import Esp32Deskflow.Tusb.Movement
import Esp32Deskflow.Config.Config
import Esp32Deskflow.Config.RoundTrip
import Esp32Deskflow.Config.Load
import Esp32Deskflow.Config.Save
import Esp32Deskflow.Config.Layout
import Esp32Deskflow.Config.Certs
import Esp32Deskflow.Network.TlsClient
import Esp32Deskflow.Network.Reconnect
import Esp32Deskflow.Network.EthNetwork
import Esp32Deskflow.Foundation.History
import Esp32Deskflow.Foundation.Ring
import Esp32Deskflow.Foundation.EventGroup
import Esp32Deskflow.Barrier.Client
import Esp32Deskflow.Barrier.ClientCalls
import Esp32Deskflow.Barrier.ClientTask
import Esp32Deskflow.Barrier.TaskSteps
import Esp32Deskflow.Barrier.Framing
import Esp32Deskflow.Barrier.Session
import Esp32Deskflow.Barrier.Reconfigure
import Esp32Deskflow.Web.LogRing
import Esp32Deskflow.Foundation.BlockStream
import Esp32Deskflow.Barrier.Outbound
import Esp32Deskflow.Barrier.ScreenSize
import Esp32Deskflow.Barrier.PacketGrammar
import Esp32Deskflow.Barrier.ReadPacket
import Esp32Deskflow.Barrier.Handshake
import Esp32Deskflow.UsbHost.UsbHostMsc
import Esp32Deskflow.UsbHost.StartMounted
import Esp32Deskflow.UsbHost.DeviceSlots
import Esp32Deskflow.Foundation.Occurrence
import Esp32Deskflow.Libc.Str
import Esp32Deskflow.Foundation.CompactJson
import Esp32Deskflow.Web.HttpRequest
import Esp32Deskflow.Web.SettingsPost
import Esp32Deskflow.Web.SettingsNumbers
import Esp32Deskflow.Web.SettingsGet
import Esp32Deskflow.Web.CertUpload
import Esp32Deskflow.Web.CertStores
import Esp32Deskflow.Web.RequestBodies
import Esp32Deskflow.Barrier.StartStop
import Esp32Deskflow.Tusb.LastReport
import Esp32Deskflow.Tusb.SendOnce
import Esp32Deskflow.Tusb.Wheel
import Esp32Deskflow.Tusb.KeySlots
import Esp32Deskflow.Barrier.PartialSend
import Esp32Deskflow.Tusb.Scaling
import Esp32Deskflow.Tusb.Duplicates
import Esp32Deskflow.Tusb.Click
import Esp32Deskflow.Foundation.HandleTable
import Esp32Deskflow.Network.EthReconfig
import Esp32Deskflow.Web.UartSenders
import Esp32Deskflow.Web.UartRead
import Esp32Deskflow.Foundation.HandleLog
import Esp32Deskflow.Network.TlsHandles
import Esp32Deskflow.Web.LogRedirect
import Esp32Deskflow.Barrier.Jiggles
import Esp32Deskflow.Tusb.Statements
import Esp32Deskflow.Tusb.Wakeups
import Esp32Deskflow.Tusb.WakeupsInv
import Esp32Deskflow.Tusb.HidWaits
import Esp32Deskflow.Tusb.Iterations
import Esp32Deskflow.Foundation.BitFields
import Esp32Deskflow.Foundation.HidDescriptor
import Esp32Deskflow.Tusb.ReportDescriptor
import Esp32Deskflow.Libc.ScanPrefix
import Esp32Deskflow.Config.TornSave
import Esp32Deskflow.Web.SettingsStore
import Esp32Deskflow.Barrier.InputPath
import Esp32Deskflow.Barrier.TlsKept
import Esp32Deskflow.Barrier.Recovery
import Esp32Deskflow.Foundation.Since
import Esp32Deskflow.Device.Firmware
import Esp32Deskflow.Device.HostInput
import Esp32Deskflow.Foundation.RingWindow
import Esp32Deskflow.Web.LogTasks
import Esp32Deskflow.Web.LogTurns
import Esp32Deskflow.Web.LogOverlap
import Esp32Deskflow.Device.Monitor
import Esp32Deskflow.Network.EthInit
import Esp32Deskflow.Web.UartStream
