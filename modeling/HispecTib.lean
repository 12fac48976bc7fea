import HispecTib.Base.Binary32
import HispecTib.Base.CString
import HispecTib.Base.Cost
import HispecTib.Base.Fair
import HispecTib.Base.JsonText
import HispecTib.Base.LinkedList
import HispecTib.Base.Loop
import HispecTib.Base.Machine
import HispecTib.Base.MsgQueue
import HispecTib.Base.Prog
import HispecTib.Base.Quantizer
import HispecTib.Base.Sampled
import HispecTib.Base.Spaced
import HispecTib.Base.Sys
import HispecTib.Base.Views
import HispecTib.Base.Writes
import HispecTib.Commons.JsonUtils
import HispecTib.Commons.MqttClient
import HispecTib.Commons.Network
import HispecTib.Commons.Pid
import HispecTib.Commons.Sockets
import HispecTib.App.World
import HispecTib.App.MemsSwitching
import HispecTib.App.Attenuator
import HispecTib.App.Maiman
import HispecTib.App.MaimanReadings
import HispecTib.App.Command
import HispecTib.App.Handlers
import HispecTib.App.Devices
import HispecTib.App.Startup
import HispecTib.App.Main
import HispecTib.App.Threads
import HispecTib.App.MainLoop
import HispecTib.App.MainThread
import HispecTib.Proofs.Dispatch
import HispecTib.Proofs.Intake
import HispecTib.Proofs.Wording
import HispecTib.Proofs.Replies
import HispecTib.Proofs.Rejections
import HispecTib.Proofs.Exchange
import HispecTib.Proofs.Messages
import HispecTib.Proofs.Publishing
import HispecTib.Proofs.Telemetry
import HispecTib.Proofs.Sampling
import HispecTib.Proofs.Liveness
import HispecTib.Proofs.MainThread
import HispecTib.Proofs.Watchdog
import HispecTib.Proofs.Connection
import HispecTib.Proofs.Subscription
import HispecTib.Proofs.Delivery
import HispecTib.Proofs.KeyPairs
import HispecTib.Proofs.Lasers
import HispecTib.Proofs.Switches
import HispecTib.Proofs.Routes
import HispecTib.Proofs.RouterStore
import HispecTib.Proofs.Report
import HispecTib.Proofs.ReportCodec
import HispecTib.Proofs.Pins
import HispecTib.Proofs.Outcomes
import HispecTib.Proofs.Walks
import HispecTib.Proofs.Defaults
import HispecTib.Proofs.Settings
import HispecTib.Proofs.Attenuators
import HispecTib.Proofs.Frames
import HispecTib.Proofs.Apart
import HispecTib.Proofs.Reach
import HispecTib.Proofs.PowerLatch
import HispecTib.Proofs.Instrument
import HispecTib.Proofs.Startup
import HispecTib.Proofs.ServiceTime
import HispecTib.Proofs.ReadBack
import HispecTib.Proofs.Pulses
import HispecTib.Proofs.Addressing
import HispecTib.Proofs.LaserRegisters
import HispecTib.Proofs.MaimanReadings
import HispecTib.Proofs.Network
import HispecTib.Proofs.Sockets
import HispecTib.Proofs.SimpleCommands
import HispecTib.Proofs.Pid
import HispecTib.Proofs.Processing
import HispecTib.Base.Scan
import HispecTib.Proofs.ReplyTexts
import HispecTib.Proofs.Subscriber
