import EventStream.Text.Lemmas
import EventStream.Value.Lemmas
import EventStream.Frame.Decoder
import EventStream.Sse.Buffer
import EventStream.Endpoint
import EventStream.Outbound.Queue
import EventStream.Clock.Timeline
import EventStream.Session.Machine
import EventStream.Transport.WebSocket
import EventStream.Transport.HttpStream
import EventStream.Watch
import EventStream.Scenario.Configuring
import EventStream.Scenario.StandIn
import EventStream.Scenario.Live
import EventStream.Proofs.Session.Continuity
import EventStream.Proofs.Session.Silence
import EventStream.Proofs.Session.Closing
import EventStream.Proofs.Session.Delivery
import EventStream.Proofs.Sse.Chunking
import EventStream.Proofs.Sse.Writing
import EventStream.Proofs.Session.LateReports
import EventStream.Proofs.Session.Streaks
import EventStream.Proofs.Session.Appointments
import EventStream.Proofs.Session.Changes
import EventStream.Proofs.Transport.Ending
import EventStream.Proofs.Session.Isolation
import EventStream.Proofs.Session.Messages
import EventStream.Proofs.Session.Opening
import EventStream.Proofs.Session.Refusals
import EventStream.Proofs.Session.FailedOpenings
import EventStream.Proofs.Watch.Secrecy
import EventStream.Proofs.Config.Reloading
import EventStream.Proofs.Session.Stranding
import EventStream.Proofs.Outbound.Ledger
import EventStream.Proofs.Config.Atomicity
import EventStream.Proofs.Config.Differences
import EventStream.Proofs.Frame.Agreement
import EventStream.Proofs.Event.Rewriting
import EventStream.Proofs.Policy.Exact
import EventStream.Proofs.Policy.Usability
import EventStream.Proofs.Policy.Settings
import EventStream.Proofs.Endpoint.Feeds
