import SyslogIntake.Address.Basic
import SyslogIntake.Address.Reader
import SyslogIntake.Connection.Basic
import SyslogIntake.Connection.Detector
import SyslogIntake.Connection.Plan
import SyslogIntake.Error.Fault
import SyslogIntake.Error.Flaw
import SyslogIntake.Error.Problem
import SyslogIntake.Files.Path
import SyslogIntake.Files.Tree
import SyslogIntake.Framing.Basic
import SyslogIntake.Framing.Framer
import SyslogIntake.Framing.Reader
import SyslogIntake.Journal
import SyslogIntake.Json.Basic
import SyslogIntake.Json.Flaw
import SyslogIntake.Json.Number
import SyslogIntake.Json.Printer
import SyslogIntake.Json.Reader
import SyslogIntake.Main
import SyslogIntake.Number.Binary64
import SyslogIntake.Number.Shortest
import SyslogIntake.Octets
import SyslogIntake.Options
import SyslogIntake.Output.Medium
import SyslogIntake.Output.Record
import SyslogIntake.Output.Sink
import SyslogIntake.Proofs.Address.Texts
import SyslogIntake.Proofs.Address.Writing
import SyslogIntake.Proofs.Careful.Basic
import SyslogIntake.Proofs.Careful.Header
import SyslogIntake.Proofs.Careful.Message
import SyslogIntake.Proofs.Careful.Reading
import SyslogIntake.Proofs.Connection.Blame
import SyslogIntake.Proofs.Connection.Sniffing
import SyslogIntake.Proofs.Connection.Survey
import SyslogIntake.Proofs.Connection.Vetting
import SyslogIntake.Proofs.Connection.Wrapping
import SyslogIntake.Proofs.Framing.Decoding
import SyslogIntake.Proofs.Framing.Locking
import SyslogIntake.Proofs.Framing.Promptness
import SyslogIntake.Proofs.Framing.Reading
import SyslogIntake.Proofs.Framing.Room
import SyslogIntake.Proofs.Framing.Searching
import SyslogIntake.Proofs.Framing.Sending
import SyslogIntake.Proofs.Json.Tidy
import SyslogIntake.Proofs.Json.Writing
import SyslogIntake.Proofs.Number.Rounding
import SyslogIntake.Proofs.Number.Shortest
import SyslogIntake.Proofs.Number.Writing
import SyslogIntake.Proofs.Output.Books
import SyslogIntake.Proofs.Output.Delivery
import SyslogIntake.Proofs.Output.Parts
import SyslogIntake.Proofs.Output.Priority
import SyslogIntake.Proofs.Output.Settling
import SyslogIntake.Proofs.Output.Traffic
import SyslogIntake.Proofs.ProxyHeader.Conveying
import SyslogIntake.Proofs.ProxyHeader.Hints
import SyslogIntake.Proofs.ProxyHeader.Lines
import SyslogIntake.Proofs.ProxyHeader.Pending
import SyslogIntake.Proofs.ProxyHeader.Writing
import SyslogIntake.Proofs.Server.Active
import SyslogIntake.Proofs.Server.Closing
import SyslogIntake.Proofs.Server.Deadlines
import SyslogIntake.Proofs.Server.Exchange
import SyslogIntake.Proofs.Server.Findings
import SyslogIntake.Proofs.Server.Handing
import SyslogIntake.Proofs.Server.Harmless
import SyslogIntake.Proofs.Server.Passage
import SyslogIntake.Proofs.Server.Permits
import SyslogIntake.Proofs.Server.Pieces
import SyslogIntake.Proofs.Server.ReadAhead
import SyslogIntake.Proofs.Server.Shutdown
import SyslogIntake.Proofs.Server.Stages
import SyslogIntake.Proofs.Server.Truncation
import SyslogIntake.Proofs.Server.Vetting
import SyslogIntake.Proofs.Server.Wrapping
import SyslogIntake.Proofs.Settings.Layers
import SyslogIntake.Proofs.Settings.Leaves
import SyslogIntake.Proofs.Settings.Loading
import SyslogIntake.Proofs.Settings.Placing
import SyslogIntake.Proofs.Settings.Texts
import SyslogIntake.Proofs.Settings.Writing
import SyslogIntake.Proofs.Startup.Starting
import SyslogIntake.Proofs.Stream.Clocks
import SyslogIntake.Proofs.Stream.Courses
import SyslogIntake.Proofs.Stream.Fills
import SyslogIntake.Proofs.Stream.Questions
import SyslogIntake.Proofs.Stream.Recording
import SyslogIntake.Proofs.Stream.Supply
import SyslogIntake.Proofs.Text.Ascii
import SyslogIntake.Proofs.Text.Encoding
import SyslogIntake.Proofs.Text.Numerals
import SyslogIntake.ProxyHeader.Basic
import SyslogIntake.ProxyHeader.Binary
import SyslogIntake.ProxyHeader.Parser
import SyslogIntake.ProxyHeader.Text
import SyslogIntake.Server.Binding
import SyslogIntake.Server.Conversation
import SyslogIntake.Server.Counters
import SyslogIntake.Server.Refusal
import SyslogIntake.Server.Service
import SyslogIntake.Server.Source
import SyslogIntake.Settings.Basic
import SyslogIntake.Settings.Checks
import SyslogIntake.Settings.KeyPath
import SyslogIntake.Settings.Loading
import SyslogIntake.Settings.Overrides
import SyslogIntake.Settings.Reading
import SyslogIntake.Settings.Sourced
import SyslogIntake.Settings.Writer
import SyslogIntake.Startup.CommandLine
import SyslogIntake.Startup.Daemon
import SyslogIntake.Startup.Identity
import SyslogIntake.Startup.Launch
import SyslogIntake.Stream.Basic
import SyslogIntake.Stream.Channel
import SyslogIntake.Stream.Inquiry
import SyslogIntake.Stream.Lookahead
import SyslogIntake.Stream.Wire
import SyslogIntake.Text.Numeral
import SyslogIntake.Text.Printable
import SyslogIntake.Text.Quoted
import SyslogIntake.Text.Terminal
import SyslogIntake.Text.Utf8
import SyslogIntake.Text.Word
import SyslogIntake.Tls.Certificate
import SyslogIntake.Tls.CertificateFile
import SyslogIntake.Tls.Record
import SyslogIntake.Tls.Session
