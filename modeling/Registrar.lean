import Registrar.Instance
import Registrar.Journal.Console
import Registrar.Proofs.Cache.SingleFlight
import Registrar.Proofs.Client.Posting
import Registrar.Proofs.Record.Agreement
import Registrar.Proofs.Record.References
import Registrar.Record.Shared
import Registrar.Script
import Registrar.Proofs.Cache.Courses
import Registrar.Proofs.Cache.Permanence
import Registrar.Proofs.Program.Behaves
import Registrar.Proofs.Schedule.Scenes
import Registrar.Proofs.Client.Ledger
import Registrar.Proofs.Client.Shelves
import Registrar.Proofs.Client.Together
import Registrar.Proofs.Record.Transparent
import Registrar.Proofs.Program.Apart
import Registrar.Proofs.Schedule.Turnstile
import Registrar.Proofs.Schedule.Queued
import Registrar.Proofs.Schedule.Passing
import Registrar.Proofs.Cache.Separate
import Registrar.Proofs.Record.Sharing
import Registrar.Proofs.Record.Frugal
import Registrar.Proofs.Record.Contained
import Registrar.Proofs.Cache.Replay
import Registrar.Proofs.Record.Registered
import Registrar.Proofs.Cache.LockTable
import Registrar.Proofs.Frame
import Registrar.Proofs.Cache.Trails
import Registrar.Proofs.Cache.Counters
import Registrar.Proofs.Program.Paths
import Registrar.Proofs.Client.Errands
import Registrar.Proofs.Client.Failures
import Registrar.Proofs.Counters
import Registrar.Proofs.Closure.Branches
import Registrar.Proofs.Record.Depth
import Registrar.Proofs.Client.Plans
import Registrar.Proofs.Client.Levels
import Registrar.Proofs.Client.Typed
import Registrar.Proofs.Client.Destinations
import Registrar.Proofs.Exchange.Sessions
import Registrar.Proofs.Json.Reading
import Registrar.Proofs.Payload.Documents
import Registrar.Proofs.Client.Layout
import Registrar.Proofs.Client.Versions
