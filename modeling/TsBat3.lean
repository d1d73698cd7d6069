import TsBat3.Foundation.Machine
import TsBat3.Foundation.Framing
import TsBat3.Foundation.Epochs
import TsBat3.Message.Layout
import TsBat3.Message.Echo
import TsBat3.Stream.RoundTrip
import TsBat3.Stream.Resync
import TsBat3.Stream.Acceptance
import TsBat3.Charger.Recording
import TsBat3.Charger.Stopping
import TsBat3.Charger.Enables
import TsBat3.Daemon.Round
import TsBat3.Daemon.Pwm
import TsBat3.Daemon.EndTime
import TsBat3.Daemon.Eeprom
import TsBat3.Daemon.WriteOnce
import TsBat3.Daemon.Retries
import TsBat3.Daemon.Freshness
import TsBat3.Vendor.Packet
import TsBat3.Vendor.Serial
import TsBat3.Stream.Bounds
import TsBat3.Stream.DeadLine
import TsBat3.Foundation.Effects
import TsBat3.Server.Net
import TsBat3.Server.Commands
import TsBat3.Server.Connections
import TsBat3.Server.Replies
import TsBat3.Server.Calls
import TsBat3.Server.Indexes
import TsBat3.Server.Table
import TsBat3.Server.NoWord
import TsBat3.Server.Commanded
import TsBat3.Daemon.Pause
import TsBat3.Stream.WellFormed
import TsBat3.Charger.Regulator
import TsBat3.Stream.Damage
import TsBat3.Daemon.Leftover
import TsBat3.Charger.Window
import TsBat3.Server.Logged
import TsBat3.Foundation.Bisection
import TsBat3.Vendor.Charge
import TsBat3.Vendor.Search
import TsBat3.Vendor.Settling
import TsBat3.Vendor.Seconds
import TsBat3.Daemon.Regulation
import TsBat3.Foundation.Refinement
import TsBat3.Server.MainLoop
import TsBat3.Server.Isolation
import TsBat3.Server.Arrival
import TsBat3.Foundation.Deframing
import TsBat3.Vendor.Decoder
import TsBat3.Vendor.CutFrame
import TsBat3.Vendor.Exchange
import TsBat3.Vendor.Access
import TsBat3.Vendor.Unframe
import TsBat3.Server.Typed
import TsBat3.Foundation.Batches
import TsBat3.Vendor.Log
import TsBat3.Vendor.Options
