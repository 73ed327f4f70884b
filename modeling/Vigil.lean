import Vigil.Text.Blank
import Vigil.Text.Utf8
import Vigil.Text.Number
import Vigil.Text.Shown
import Vigil.Text.Unstyled
import Vigil.Time.Duration
import Vigil.Time.Instant
import Vigil.Time.Rfc3339
import Vigil.Record.Basic
import Vigil.Yaml.Cursor
import Vigil.Yaml.Scalar
import Vigil.Yaml.Token
import Vigil.Yaml.Tokens
import Vigil.Yaml.Node
import Vigil.Yaml.Anchors
import Vigil.Yaml.Plain
import Vigil.Yaml.Writer
import Vigil.Record.Reader
import Vigil.Record.Writer
import Vigil.Json.Value
import Vigil.Json.Real
import Vigil.Json.Writer
import Vigil.Json.Reader
import Vigil.Files.Path
import Vigil.Files.Tree
import Vigil.Files.Error
import Vigil.Files.JsonFile
import Vigil.Files.Resolve
import Vigil.Daemon.Policy
import Vigil.Daemon.Error
import Vigil.Daemon.Locator
import Vigil.Home
import Vigil.Settings
import Vigil.Cancellation
import Vigil.Telemetry
import Vigil.Wire.Format
import Vigil.Wire.Message
import Vigil.Wire.Schema
import Vigil.Streams.Status
import Vigil.Streams.Basic
import Vigil.Link.State
import Vigil.Shell.Event
import Vigil.Shell.Queue
import Vigil.Shell.Presentation
import Vigil.Link.Endpoint
import Vigil.Link.Channel
import Vigil.Daemon.Session
import Vigil.Daemon.Supervision
import Vigil.Daemon.Ensure
import Vigil.Daemon.Watch
import Vigil.Rehearsal.Turns
import Vigil.Rehearsal.World
import Vigil.Shell.Mailbox
import Vigil.Rehearsal.Supervised
import Vigil.Link.Reconnect
import Vigil.Rehearsal.Reconnecting
import Vigil.Streams.Subscriptions
import Vigil.Rehearsal.Streaming
import Vigil.Shell.Run
import Vigil.Rehearsal.Shift
import Vigil.Rehearsal.Machine
import Vigil.Rehearsal.Console
import Vigil.Link.Network
import Vigil.Daemon.Liveness
import Vigil.Daemon.Programs
import Vigil.Cli.Command
import Vigil.Cli.Grammar
import Vigil.Cli.Arguments
import Vigil.Cli.Failure
import Vigil.Cli.Outcome
import Vigil.Main
import Vigil.Script.Word
import Vigil.Script.Grammar
import Vigil.Script.Pattern
import Vigil.Script.Arithmetic
import Vigil.Script.Job
import Vigil.Script.Expansion
import Vigil.Script.Printing
import Vigil.Script.Regular
import Vigil.Script.Filters
import Vigil.Script.Test
import Vigil.Script.Utility
import Vigil.Script.Run
import Vigil.Rehearsal.Terminal
import Vigil.Proofs.Streams.Registry
import Vigil.Proofs.Streams.Courses
import Vigil.Proofs.Streams.Delivery
import Vigil.Proofs.Streams.Removals
import Vigil.Proofs.Streams.Cancellations
import Vigil.Proofs.Streams.Isolation
import Vigil.Proofs.Streams.Renewals
import Vigil.Proofs.Streams.Requests
import Vigil.Proofs.Daemon.Chronicle
import Vigil.Proofs.Daemon.Crashes
import Vigil.Proofs.Daemon.Launches
import Vigil.Proofs.Daemon.Sessions
import Vigil.Proofs.Daemon.Idle
import Vigil.Proofs.Daemon.Farewells
import Vigil.Proofs.Link.Losses
import Vigil.Proofs.Link.Connections
import Vigil.Proofs.Link.Intervals
import Vigil.Proofs.Shell.Banners
import Vigil.Proofs.Shell.Moves
import Vigil.Proofs.Shell.Overlays
import Vigil.Proofs.Shell.Exits
import Vigil.Proofs.Shell.Queue
import Vigil.Proofs.Shell.Traffic
import Vigil.Proofs.Shell.Streams
import Vigil.Proofs.Shell.Losses
import Vigil.Proofs.Shell.Opens
import Vigil.Proofs.Shell.Order
import Vigil.Proofs.Shell.Places
import Vigil.Proofs.Shell.Waking
import Vigil.Proofs.Daemon.Calls
import Vigil.Proofs.Daemon.Shares
import Vigil.Proofs.Daemon.Restarts
import Vigil.Proofs.Files.Outcomes
import Vigil.Proofs.Files.Leftovers
import Vigil.Proofs.Settings.Saved
import Vigil.Proofs.Settings.Expansion
import Vigil.Proofs.Record.Starts
import Vigil.Proofs.Telemetry.Lines
import Vigil.Proofs.Telemetry.Reports
import Vigil.Proofs.Daemon.Delays
import Vigil.Proofs.Link.Bindings
import Vigil.Proofs.Link.Authorities
import Vigil.Proofs.Wire.Schemas
import Vigil.Proofs.Cancellation.Families
import Vigil.Proofs.Cancellation.Waiters
