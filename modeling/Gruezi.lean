import Gruezi.Rust.Time
import Gruezi.Config
import Gruezi.Ha.Runtime
import Gruezi.Ha.Packet
import Gruezi.Ha.WireFormat
import Gruezi.Ha.Auth
import Gruezi.Ha.Decision
import Gruezi.Ha.Effects
import Gruezi.Ha.Loop
import Gruezi.Lib.Machine
import Gruezi.Ha.Node
import Gruezi.Ha.Run
import Gruezi.Ha.OneWayLoss
import Gruezi.Ha.LastAdvert
import Gruezi.Ha.Advertise
import Gruezi.Ha.Pair
import Gruezi.Ha.Safety
import Gruezi.Ha.Addresses
import Gruezi.Ha.Contest
import Gruezi.Ha.Rounds
import Gruezi.Ha.History
import Gruezi.Ha.Reception
import Gruezi.Ha.ConflictLatch
import Gruezi.Ha.Reasons
import Gruezi.Ha.Status
import Gruezi.Ha.Timers
import Gruezi.Ha.Election
import Gruezi.Ha.RaisedPriority
import Gruezi.Ha.SideEffects
import Gruezi.Ha.ErrorTexts
import Gruezi.Ha.Counters
import Gruezi.Ha.LossTolerance
import Gruezi.Ha.Service
import Gruezi.Lib.Attempts
import Gruezi.Ha.AddressCommands
import Gruezi.Lib.Spawning
import Gruezi.Lib.TaskRefinement
import Gruezi.Ha.FaultReports
import Gruezi.Ha.Automaton
import Gruezi.Ha.SendPace
import Gruezi.Ha.Failover
import Gruezi.Ha.OneOwner
import Gruezi.Ha.Restarts
import Gruezi.Ha.Exits
import Gruezi.Ha.Shutdown
import Gruezi.Ha.StatusApi
import Gruezi.Ha.HookCommands
import Gruezi.Ha.Overlap
import Gruezi.Ha.TakeoverPace
import Gruezi.Ha.Crashes
import Gruezi.Lib.Script
import Gruezi.Rust.Net
import Gruezi.Ha.Announcements
import Gruezi.Ha.Presence
import Gruezi.Ha.OneHolder
import Gruezi.Ha.StartUp
import Gruezi.Lib.Logs
import Gruezi.Ha.SocketCalls
import Gruezi.Ha.Binding
