import PacketForwarder.JitQueue.Separation
import PacketForwarder.JitQueue.Lifetime
import PacketForwarder.JitQueue.RollOver
import PacketForwarder.JitQueue.ClassC
import PacketForwarder.JitQueue.PurgeRight
import PacketForwarder.Beacon.Loop
import PacketForwarder.TimerSync
import PacketForwarder.Threads.Selection
import PacketForwarder.Threads.Transmission
import PacketForwarder.Downlink.Indices
import PacketForwarder.Comms.Delivery
import PacketForwarder.Comms.Size
import PacketForwarder.Comms.Wakeup
import PacketForwarder.Comms.DeferredClose
import PacketForwarder.Comms.Stopping
import PacketForwarder.Statistics
import PacketForwarder.Lifecycle.Status
import PacketForwarder.Lifecycle.Reset
import PacketForwarder.Uplink.Text
import PacketForwarder.Base64.Grammar
import PacketForwarder.Base64.Bounds
import PacketForwarder.Downlink.Fields
import PacketForwarder.Downlink.Keepalive
import PacketForwarder.Beacon.Frame
import PacketForwarder.Configuration
import PacketForwarder.Configuration.Files
import PacketForwarder.Configuration.TxLut
import PacketForwarder.Gps.Timing
import PacketForwarder.Gps.Copies
import PacketForwarder.JitQueue.Window
import PacketForwarder.Beacon.Crc
import PacketForwarder.Wait
import PacketForwarder.Parson.Comments
import PacketForwarder.Parson.Bounds
import PacketForwarder.Station.Conservation
import PacketForwarder.Validation
import PacketForwarder.Uplink.Accepted
import PacketForwarder.Downlink.Echo
import PacketForwarder.TxTest.Rounds
