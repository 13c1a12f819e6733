import SrtWhep.Library.Runs
import SrtWhep.Library.Tables
import SrtWhep.Library.Channels
import SrtWhep.Coordinator
import SrtWhep.Moves
import SrtWhep.Waiters
import SrtWhep.Branches
import SrtWhep.Rejections
import SrtWhep.Panics
import SrtWhep.Deliveries
import SrtWhep.Handshake
import SrtWhep.Isolation
import SrtWhep.Reaping
import SrtWhep.Supervisor
import SrtWhep.RestartRequests
import SrtWhep.Service
import SrtWhep.Generations.Separation
import SrtWhep.Generations.StaleResets
import SrtWhep.Library.Bursts
import SrtWhep.Watchdog.Histories
import SrtWhep.Watchdog.Windows
import SrtWhep.Feeding
import SrtWhep.Lifecycle
import SrtWhep.MainLoop
import SrtWhep.PipelineSlot
import SrtWhep.Routes
import SrtWhep.Stream.Bus
import SrtWhep.WireContract
import SrtWhep.Stream.Branch
import SrtWhep.Stream.Creation
import SrtWhep.Sweeps
import SrtWhep.Trips
import SrtWhep.Backoff
import SrtWhep.Directions
import SrtWhep.Stream.Egress
import SrtWhep.Stream.Readiness
import SrtWhep.Stream.Teardown
import SrtWhep.Watchdog.Segments
import SrtWhep.Library.Accounts
import SrtWhep.RestartCosts
import SrtWhep.Deadlines
import SrtWhep.Gateway
import SrtWhep.Application
import SrtWhep.Containment
import SrtWhep.Broadcast
