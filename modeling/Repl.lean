import Repl.Main
import Repl.Session.Rehearsal
import Repl.Terminal.Request
import Repl.Proofs.Exchange
import Repl.Proofs.Supply
import Repl.Proofs.Session.Supply
import Repl.Proofs.Session.Outcomes
import Repl.Proofs.Session.Phases
import Repl.Proofs.Session.Cycle
import Repl.Proofs.Session.Script
import Repl.Proofs.Command.DispatchTable
import Repl.Proofs.Command.Registration
import Repl.Proofs.Command.Resolution
import Repl.Proofs.Session.Unfolding
import Repl.Proofs.Session.Reads
import Repl.Proofs.Session.Failure
import Repl.Proofs.Stock.Commands
import Repl.Proofs.Stock.Sessions
import Repl.Proofs.Configuration.Lines
import Repl.Proofs.Configuration.Loading
import Repl.Proofs.Configuration.RoundTrip
import Repl.Proofs.Command.Order
import Repl.Proofs.Configuration.History
import Repl.Proofs.Session.Alignment
import Repl.Proofs.Session.Logging
import Repl.Proofs.Session.Positions
import Repl.Proofs.Session.Rejection
import Repl.Proofs.Session.LookAhead
import Repl.Proofs.Session.Exhaustion
import Repl.Proofs.Session.Context
import Repl.Proofs.Session.Succession
import Repl.Proofs.Stock.Succession
import Repl.Proofs.Session.Nesting
import Repl.Proofs.Stock.Nesting
import Repl.Proofs.Session.Bracketing
import Repl.Proofs.Terminal.Stream
import Repl.Proofs.Session.Feeding
import Repl.Proofs.Calculator.Process
import Repl.Proofs.Calculator.Quitting
import Repl.Proofs.Log.Delivery
import Repl.Proofs.Log.FileContents
import Repl.Proofs.Calculator.Settings
import Repl.Proofs.Session.Conversation
import Repl.Proofs.Calculator.Dialogue
import Repl.Proofs.Output.Files
import Repl.Proofs.Log.History
import Repl.Proofs.Session.Pairing
import Repl.Proofs.Services.Console
import Repl.Proofs.Calculator.Startup
import Repl.Proofs.Command.Examples
import Repl.Proofs.Command.Lint
import Repl.Proofs.Command.HelpTable
import Repl.Proofs.Command.Violations
import Repl.Proofs.Terminal.Faults
import Repl.Proofs.Terminal.Devices
import Repl.Proofs.Terminal.Questions
import Repl.Proofs.Terminal.Defaults
import Repl.Proofs.Terminal.Answers
import Repl.Proofs.Services.Restarting
import Repl.Proofs.Text.Padding
import Repl.Proofs.Configuration.Layout
import Repl.Proofs.Session.Padding
import Repl.Proofs.Stock.Padding
import Repl.Proofs.Command.Insertions
import Repl.Proofs.Log.Levels
import Repl.Proofs.Log.Calendar
import Repl.Proofs.Log.Timestamps
import Repl.Proofs.Services.Starting
import Repl.Proofs.Services.ConsoleSetting
import Repl.Proofs.Text.Tokens
import Repl.Proofs.Text.Trimmed
import Repl.Proofs.Text.Decoding
import Repl.Proofs.Text.Uppercase
import Repl.Proofs.Value.Decimal
