import RigControl.Lib.Endian
import RigControl.Lib.Decode
import RigControl.Core.Internal
import RigControl.Core.Net
import RigControl.Lib.Lts
import RigControl.Core.Control
import RigControl.Server.ControlReceiver
import RigControl.Wire.Control
import RigControl.Server.VideoOutput
import RigControl.Core.Demuxer
import RigControl.Wire.Video
import RigControl.Lib.Interleave
import RigControl.Server.DesktopConnection
import RigControl.Agent.Group
import RigControl.Lib.Turns
import RigControl.Core.NetThread
import RigControl.Agent.Relay
import RigControl.Gtk.Input
import RigControl.Lib.Strokes
import RigControl.Wire.Touch
import RigControl.Agent.Adb
import RigControl.Agent.Discovery
import RigControl.Agent.Effects
import RigControl.Agent.Routing
import RigControl.Gtk.Session
import RigControl.Wire.Route
import RigControl.Agent.Loopback
import RigControl.Lib.Ledger
import RigControl.Lib.Triple
import RigControl.Core.Client
import RigControl.Core.Deploy
import RigControl.Core.Deployed
import RigControl.Core.Lifecycle
import RigControl.Agent.Advertised
import RigControl.Agent.Refreshed
import RigControl.Agent.Replug
import RigControl.Agent.Answer
import RigControl.Agent.Upstream
import RigControl.Core.ServerArgv
import RigControl.Gtk.Agent
import RigControl.Gtk.Chooser
import RigControl.Gtk.Keys
import RigControl.Gtk.Render
import RigControl.Server.Options
import RigControl.Swift.AgentScan
import RigControl.Wire.Discovery
import RigControl.Wire.Launch
import RigControl.Wire.Scans
import RigControl.Agent.Forwards
import RigControl.Agent.Spares
import RigControl.Agent.Disturbed
import RigControl.Agent.Retry
import RigControl.Wire.Grammar
import RigControl.Gtk.Address
import RigControl.Core.MetaWait
import RigControl.Core.Decoder
import RigControl.Core.Backend
import RigControl.Lib.Ring
import RigControl.Core.Audio
import RigControl.Core.Pacing
import RigControl.Agent.Wakeups
import RigControl.Core.Configs
import RigControl.Gtk.Ports
import RigControl.Lib.PrefixCode
import RigControl.Wire.DeviceName
import RigControl.Server.EncodeLoop
import RigControl.Gtk.Planes
import RigControl.Lib.Multiple
import RigControl.Server.VideoSize
import RigControl.Lib.Letterbox
import RigControl.Gtk.Viewport
import RigControl.Wire.Pointer
import RigControl.Server.StreamTo
import RigControl.Wire.Stream
import RigControl.Server.AudioEncoder
import RigControl.Core.AudioThread
import RigControl.Wire.Sound
import RigControl.Gtk.Teardown
import RigControl.Swift.Sessions
import RigControl.Wire.AdbDevices
import RigControl.Gtk.Scanning
import RigControl.Swift.Keys
