import Switchboard.Table
import Switchboard.Text.Blank
import Switchboard.Decimal.Shortest
import Switchboard.Text.Hidden
import Switchboard.Text.Quoted
import Switchboard.Json.Basic
import Switchboard.Json.Flaw
import Switchboard.Json.Number
import Switchboard.Json.Reader
import Switchboard.Decimal.Layout
import Switchboard.Entry
import Switchboard.Fault.Code
import Switchboard.Json.Writer
import Switchboard.Shape.Mismatch
import Switchboard.Json.Format
import Switchboard.Fault.Basic
import Switchboard.Wire.Envelope
import Switchboard.Wire.Frame
import Switchboard.Config.Basic
import Switchboard.Event
import Switchboard.Credential
import Switchboard.Wire.Inbox
import Switchboard.Toml.Bare
import Switchboard.Toml.Reader
import Switchboard.Config.File
import Switchboard.Conn.Basic
import Switchboard.Bus
import Switchboard.Exchange.Basic
import Switchboard.Exchange.Rooms
import Switchboard.Store
import Switchboard.Hub.Basic
import Switchboard.Hub.Chat
import Switchboard.Station.Basic
import Switchboard.Station.Clock
import Switchboard.Proofs.Station.Runs
import Switchboard.Proofs.Station.Membership
import Switchboard.Proofs.Station.Confidential
import Switchboard.Proofs.Dispatcher.Order
import Switchboard.Proofs.Dispatcher.Stations
import Switchboard.Proofs.Station.Folding
import Switchboard.Proofs.Station.Told
import Switchboard.Proofs.Amid
import Switchboard.Proofs.Exchange.Apart
import Switchboard.Proofs.Hub.Isolation
import Switchboard.Proofs.Hub.Persistence
import Switchboard.Proofs.Station.Requests
import Switchboard.Proofs.Station.Persistence
import Switchboard.Proofs.Exchange.OneRoom
import Switchboard.Proofs.Station.OneRoom
import Switchboard.Proofs.Exchange.Published
import Switchboard.Proofs.Hub.Said
import Switchboard.Proofs.Station.Said
import Switchboard.Proofs.Station.Talk
import Switchboard.Proofs.Exchange.Ledger
import Switchboard.Proofs.Conn.Arrivals
import Switchboard.Proofs.Exchange.Interleaved
import Switchboard.Proofs.Dispatcher.Choices
import Switchboard.Proofs.Station.Held
import Switchboard.Proofs.Station.Tally
import Switchboard.Proofs.Hub.Failures
import Switchboard.Proofs.Station.Newcomers
import Switchboard.Proofs.Wire.Refused
import Switchboard.Proofs.Json.Concise
import Switchboard.Proofs.Wire.Rewritten
import Switchboard.Proofs.Wire.Payloads
import Switchboard.Proofs.Hub.Relayed
import Switchboard.Proofs.Wire.Events
import Switchboard.Proofs.Station.Snapshot
import Switchboard.Proofs.Station.Watching
import Switchboard.Proofs.Config.RoundTrip
import Switchboard.Proofs.Credential
import Switchboard.Proofs.Store.Past
import Switchboard.Proofs.Hooks.Nested
