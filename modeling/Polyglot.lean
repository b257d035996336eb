import Polyglot.Backend.Codec
import Polyglot.Builtin
import Polyglot.Envelope
import Polyglot.Json.Value
import Polyglot.Origin
import Polyglot.Dispatcher
import Polyglot.Gateway
import Polyglot.Host.Format
import Polyglot.Host.Glob
import Polyglot.Host.Machine
import Polyglot.Proofs.Await
import Polyglot.Proofs.Exchange
import Polyglot.Proofs.Desk
import Polyglot.Proofs.Pairing
import Polyglot.Proofs.Leftover
import Polyglot.Proofs.Gate
import Polyglot.Proofs.Places
import Polyglot.Proofs.Following
import Polyglot.Proofs.Components
import Polyglot.Proofs.Making
import Polyglot.Proofs.Inside
import Polyglot.Proofs.Ancestors
import Polyglot.Proofs.Filing
import Polyglot.Proofs.Lifecycle
import Polyglot.Proofs.Entries
import Polyglot.Proofs.Stamps
import Polyglot.Proofs.Visits
import Polyglot.Proofs.Furnishing
import Polyglot.Proofs.Sources
import Polyglot.Proofs.Tables
import Polyglot.Proofs.Registration
import Polyglot.Proofs.Serving
import Polyglot.Proofs.Utf8
import Polyglot.Proofs.Records
import Polyglot.Proofs.Messages
import Polyglot.Proofs.Delivery
import Polyglot.Proofs.Courses
import Polyglot.Proofs.Isolation
import Polyglot.Proofs.Responses
import Polyglot.Proofs.Jobs
import Polyglot.Proofs.Sending
import Polyglot.Proofs.Replies
import Polyglot.Proofs.Envelopes
import Polyglot.Proofs.Specifications
import Polyglot.Proofs.Outcomes
import Polyglot.Proofs.Toolchains
import Polyglot.Proofs.Reporting
import Polyglot.Proofs.Startup
import Polyglot.Proofs.Origins
import Polyglot.Proofs.Forwarding
import Polyglot.Proofs.SelfTests
import Polyglot.Proofs.Readiness
import Polyglot.Proofs.Executors
import Polyglot.Proofs.Routing
import Polyglot.Proofs.Closing
import Polyglot.Proofs.Resolution
import Polyglot.Proofs.Launches
