import EventSnapshot.Bridge
import EventSnapshot.Wire.Codec
import EventSnapshot.Event.Access
import EventSnapshot.Proofs.SortedMap
import EventSnapshot.Proofs.Text.ByteOrder
import EventSnapshot.Proofs.Binary64.Rounding
import EventSnapshot.Proofs.Binary64.Shortest
import EventSnapshot.Proofs.Json.Scaling
import EventSnapshot.Proofs.Json.Number
import EventSnapshot.Proofs.Json.Scanning
import EventSnapshot.Proofs.Json.Text
import EventSnapshot.Proofs.Json.Trees
import EventSnapshot.Proofs.Json.Rereading
import EventSnapshot.Proofs.Wire.BigEndian
import EventSnapshot.Proofs.Wire.Runs
import EventSnapshot.Proofs.Wire.Accepting
import EventSnapshot.Proofs.Wire.Layout
import EventSnapshot.Proofs.Wire.Acceptance
import EventSnapshot.Proofs.Wire.Writing
import EventSnapshot.Proofs.Wire.RoundTrip
import EventSnapshot.Proofs.Wire.Stream
import EventSnapshot.Proofs.Wire.Naming
import EventSnapshot.Proofs.Wire.Limits
import EventSnapshot.Proofs.Wire.HalfWritten
import EventSnapshot.Proofs.Wire.Appending
import EventSnapshot.Proofs.Wire.Truncation
import EventSnapshot.Proofs.Wire.NormalForm
import EventSnapshot.Proofs.Wire.Values
import EventSnapshot.Proofs.Wire.EitherName
import EventSnapshot.Proofs.Wire.Renaming
import EventSnapshot.Proofs.Wire.Resolving
import EventSnapshot.Proofs.Level.Remembering
import EventSnapshot.Proofs.Level.Racing
import EventSnapshot.Proofs.Wire.Relay
import EventSnapshot.Proofs.Event.Capture
import EventSnapshot.Proofs.Event.Independence
import EventSnapshot.Proofs.Event.Explicit
import EventSnapshot.Proofs.Event.Editing
import EventSnapshot.Proofs.Delivery.Courses
import EventSnapshot.Proofs.Delivery.Resuming
import EventSnapshot.Proofs.Delivery.Session
import EventSnapshot.Proofs.Delivery.Simulation
import EventSnapshot.Proofs.Delivery.Handing
import EventSnapshot.Proofs.Bridge.Emission
import EventSnapshot.Proofs.Bridge.Handover
import EventSnapshot.Proofs.Bridge.Traffic
import EventSnapshot.Proofs.Bridge.Moments
import EventSnapshot.Proofs.Bridge.Accounting
import EventSnapshot.Proofs.Wire.Thresholds
import EventSnapshot.Proofs.Wire.Consulting
import EventSnapshot.Proofs.Event.Rendering
import EventSnapshot.Proofs.Event.Histories
import EventSnapshot.Proofs.Wire.Canonical
import EventSnapshot.Proofs.Wire.Room
import EventSnapshot.Proofs.Location.Caller
import EventSnapshot.Proofs.Location.Spelling
import EventSnapshot.Proofs.Config.Settings
import EventSnapshot.Proofs.Failure.Callers
