import Webroar.Scgi.Entries
import Webroar.Scgi.Layout
import Webroar.Scgi.Build
import Webroar.Scgi.Parser
import Webroar.Scgi.Draft
import Webroar.Scgi.RoundTrip
import Webroar.Scgi.Send
import Webroar.Library.Transition
import Webroar.Head.Reassembly
import Webroar.Worker.Response
import Webroar.Head.Request
import Webroar.Head.Incoming
import Webroar.Head.Entries
import Webroar.Head.Forgery
import Webroar.Worker.HttpRequest
import Webroar.Worker.Receive
import Webroar.Head.Capacity
import Webroar.Head.Sender
import Webroar.Worker.Body
import Webroar.Head.Framing
import Webroar.Worker.Environment
import Webroar.Head.Agreement
import Webroar.Head.Resolver
import Webroar.Head.Routing
import Webroar.Head.Registry
import Webroar.App.Ping
import Webroar.App.Allocation
import Webroar.App.Application
import Webroar.App.Forking
import Webroar.App.Queueing
import Webroar.App.Supply
import Webroar.App.DeadEnd
import Webroar.App.Death
import Webroar.App.Reload
import Webroar.App.ReloadRun
import Webroar.App.Atomicity
import Webroar.Client.Connection
import Webroar.Client.Failure
import Webroar.Client.Stream
import Webroar.Client.Integrity
import Webroar.App.Answering
import Webroar.Library.Desk
import Webroar.Admin.Answers
import Webroar.Client.Account
import Webroar.App.Watch
import Webroar.App.Watchdog
import Webroar.App.ForkOrder
import Webroar.Library.Intake
import Webroar.Control.Message
import Webroar.Control.Framing
import Webroar.Admin.Codec
import Webroar.Admin.Exchange
import Webroar.Library.Chain
import Webroar.Library.Loop
import Webroar.Configurator.Baseuri
import Webroar.Configurator.Hostname
import Webroar.Configurator.Deployment
import Webroar.Configurator.Uniqueness
import Webroar.Configurator.Applications
import Webroar.Configurator.Numbers
import Webroar.Configurator.Independence
import Webroar.Configurator.Settings
import Webroar.Configurator.Reply
import Webroar.Control.Sharing
import Webroar.Queue.Ring
import Webroar.Control.Progress
import Webroar.Scgi.Grammar
import Webroar.Head.Absolute
import Webroar.Head.Chunking
import Webroar.Worker.Writer
import Webroar.Worker.Writer
import Webroar.Worker.Input
import Webroar.Worker.Handler
import Webroar.Worker.Answer
import Webroar.Control.Slot
import Webroar.Control.HeadSlot
import Webroar.Control.WorkerSlot
import Webroar.Admin.Specification
import Webroar.Configurator.Acceptance
import Webroar.Admin.HostNames
import Webroar.Admin.Served
import Webroar.Head.UriDecode
import Webroar.Head.StaticContent
import Webroar.Configurator.HostGrammar
import Webroar.Library.Calendar
import Webroar.Worker.MimeType
import Webroar.Library.DateText
import Webroar.Library.Zlib
import Webroar.Worker.Conditional
import Webroar.Worker.Compression
import Webroar.Library.HttpHead
import Webroar.Worker.StaticResponse
import Webroar.Worker.Encoding
import Webroar.Worker.StaticHead
import Webroar.App.LowLoad
import Webroar.Client.Reports
import Webroar.Client.ErrorPage
import Webroar.Control.Handling
import Webroar.App.Ratios
import Webroar.Worker.Privileges
import Webroar.Configurator.Totality
import Webroar.Scgi.Notes
import Webroar.Library.StringIo
import Webroar.Worker.RequestBody
import Webroar.Worker.Rewind
import Webroar.Profiler.Exclusive
import Webroar.Worker.RailsAdapter
import Webroar.Library.Forest
import Webroar.Yaml.Document
import Webroar.Yaml.Parser
import Webroar.Yaml.Builder
import Webroar.Yaml.Nesting
import Webroar.Yaml.Reading
import Webroar.Yaml.Lookup
import Webroar.Yaml.Mirror
import Webroar.Library.Hash
import Webroar.Library.Ledger
import Webroar.Analyzer.Message
import Webroar.Analyzer.Samples
import Webroar.Analyzer.Conservation
import Webroar.Analyzer.Analytics
import Webroar.Library.Tally
import Webroar.Analyzer.Windows
import Webroar.Ebb.Grammar
import Webroar.Ebb.Parser
import Webroar.Ebb.Settled
import Webroar.Ebb.Split
import Webroar.Ebb.Buffers
import Webroar.Ebb.Moves
import Webroar.Ebb.Discipline
import Webroar.Ebb.Message
import Webroar.Ebb.Headers
import Webroar.Ebb.RoundTrip
import Webroar.Ebb.Consumers
import Webroar.Ebb.Served
import Webroar.Ebb.Delivery
