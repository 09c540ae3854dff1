import ChatStory.Action
import ChatStory.Action.Params
import ChatStory.Action.Reader
import ChatStory.Assignment
import ChatStory.Command.Arguments
import ChatStory.Command.Run
import ChatStory.Command.Source
import ChatStory.Compile
import ChatStory.Condition
import ChatStory.Decimal.Layout
import ChatStory.Decimal.Reading
import ChatStory.Decimal.Shortest
import ChatStory.Diagnostic
import ChatStory.Document.Action
import ChatStory.Document.Player
import ChatStory.Document.Program
import ChatStory.Document.Progress
import ChatStory.Document.Save
import ChatStory.Evaluation
import ChatStory.Event
import ChatStory.Fault
import ChatStory.Files.Basic
import ChatStory.Files.Path
import ChatStory.Files.Script
import ChatStory.Files.Store
import ChatStory.Files.Tree
import ChatStory.Fragment
import ChatStory.Json.Basic
import ChatStory.Json.Fields
import ChatStory.Json.Number
import ChatStory.Json.Reader
import ChatStory.Json.Writer
import ChatStory.Main
import ChatStory.Markup.Bracket
import ChatStory.Markup.Link
import ChatStory.Markup.Span
import ChatStory.Message
import ChatStory.Passage
import ChatStory.Program
import ChatStory.Progress
import ChatStory.Proofs.Action.DelaySearch
import ChatStory.Proofs.Action.DelayToken
import ChatStory.Proofs.Action.Fields
import ChatStory.Proofs.Action.Listing
import ChatStory.Proofs.Action.Quotes
import ChatStory.Proofs.Action.Spelling
import ChatStory.Proofs.Assembly
import ChatStory.Proofs.Closers
import ChatStory.Proofs.Command.Boundary
import ChatStory.Proofs.Command.Step
import ChatStory.Proofs.Condition
import ChatStory.Proofs.Cut
import ChatStory.Proofs.Decimal.Arithmetic
import ChatStory.Proofs.Decimal.Digits
import ChatStory.Proofs.Decimal.Interval
import ChatStory.Proofs.Decimal.Packing
import ChatStory.Proofs.Decimal.Rounding
import ChatStory.Proofs.Document.Action
import ChatStory.Proofs.Document.Doubles
import ChatStory.Proofs.Document.Progress
import ChatStory.Proofs.Document.Readable
import ChatStory.Proofs.Document.Roundtrip
import ChatStory.Proofs.Document.Words
import ChatStory.Proofs.Embedding
import ChatStory.Proofs.Evaluation
import ChatStory.Proofs.Files.Path
import ChatStory.Proofs.Files.Script
import ChatStory.Proofs.Files.Walk
import ChatStory.Proofs.Fitting
import ChatStory.Proofs.Hidden
import ChatStory.Proofs.Json.Fields
import ChatStory.Proofs.Json.Legible
import ChatStory.Proofs.Json.Numeral
import ChatStory.Proofs.Json.Range
import ChatStory.Proofs.Json.Written
import ChatStory.Proofs.Lines
import ChatStory.Proofs.Link
import ChatStory.Proofs.Literals
import ChatStory.Proofs.Operand
import ChatStory.Proofs.Partition
import ChatStory.Proofs.Placing
import ChatStory.Proofs.Program
import ChatStory.Proofs.Progress
import ChatStory.Proofs.Queue
import ChatStory.Proofs.Resumed
import ChatStory.Proofs.RoundKey
import ChatStory.Proofs.Scenario.Observed
import ChatStory.Proofs.Scenario.Pace
import ChatStory.Proofs.Separators
import ChatStory.Proofs.Session.Abreast
import ChatStory.Proofs.Session.Accepted
import ChatStory.Proofs.Session.Afresh
import ChatStory.Proofs.Session.Arising
import ChatStory.Proofs.Session.Asking
import ChatStory.Proofs.Session.Attended
import ChatStory.Proofs.Session.Balance
import ChatStory.Proofs.Session.Branch
import ChatStory.Proofs.Session.Cascade
import ChatStory.Proofs.Session.Checked
import ChatStory.Proofs.Session.Clock
import ChatStory.Proofs.Session.Coherent
import ChatStory.Proofs.Session.Computed
import ChatStory.Proofs.Session.Dated
import ChatStory.Proofs.Session.Deeds
import ChatStory.Proofs.Session.Delay
import ChatStory.Proofs.Session.Depth
import ChatStory.Proofs.Session.Durable
import ChatStory.Proofs.Session.EndNotice
import ChatStory.Proofs.Session.Entering
import ChatStory.Proofs.Session.Entrance
import ChatStory.Proofs.Session.Finite
import ChatStory.Proofs.Session.Firing
import ChatStory.Proofs.Session.Gates
import ChatStory.Proofs.Session.Granularity
import ChatStory.Proofs.Session.Heard
import ChatStory.Proofs.Session.Input
import ChatStory.Proofs.Session.Level
import ChatStory.Proofs.Session.Locking
import ChatStory.Proofs.Session.Looking
import ChatStory.Proofs.Session.Notices
import ChatStory.Proofs.Session.Numbering
import ChatStory.Proofs.Session.Opening
import ChatStory.Proofs.Session.Orderly
import ChatStory.Proofs.Session.Pace
import ChatStory.Proofs.Session.Parallel
import ChatStory.Proofs.Session.Picking
import ChatStory.Proofs.Session.Punctual
import ChatStory.Proofs.Session.Reached
import ChatStory.Proofs.Session.Rebuilt
import ChatStory.Proofs.Session.Recast
import ChatStory.Proofs.Session.Refused
import ChatStory.Proofs.Session.Remade
import ChatStory.Proofs.Session.Reopening
import ChatStory.Proofs.Session.Requests
import ChatStory.Proofs.Session.Run
import ChatStory.Proofs.Session.Saved
import ChatStory.Proofs.Session.Seeding
import ChatStory.Proofs.Session.Sequence
import ChatStory.Proofs.Session.Setting
import ChatStory.Proofs.Session.Speech
import ChatStory.Proofs.Session.Stir
import ChatStory.Proofs.Session.Switching
import ChatStory.Proofs.Session.Timetable
import ChatStory.Proofs.Session.Turns
import ChatStory.Proofs.Session.Twins
import ChatStory.Proofs.Session.Unconditional
import ChatStory.Proofs.Session.Walk
import ChatStory.Proofs.SetMacro
import ChatStory.Proofs.Survey
import ChatStory.Proofs.Table
import ChatStory.Proofs.Targets
import ChatStory.Proofs.Tickets
import ChatStory.Proofs.Visibility
import ChatStory.Queue
import ChatStory.Report
import ChatStory.RoundKey
import ChatStory.Scenario.Case
import ChatStory.Scenario.Fault
import ChatStory.Scenario.Run
import ChatStory.Scenario.Source
import ChatStory.Session.Basic
import ChatStory.Session.Cascade
import ChatStory.Session.Choosing
import ChatStory.Session.Firing
import ChatStory.Session.Growth
import ChatStory.Session.Loading
import ChatStory.Session.Play
import ChatStory.Session.Queries
import ChatStory.Session.Timeline
import ChatStory.Store
import ChatStory.Table
import ChatStory.Text.Basic
import ChatStory.Text.Blank
import ChatStory.Text.Digit
import ChatStory.Text.Mark
import ChatStory.Text.Quoted
import ChatStory.Text.Word
import ChatStory.Value
