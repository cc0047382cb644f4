import WorldAudit.Audit.Call
import WorldAudit.Audit.Finding
import WorldAudit.Audit.Rule
import WorldAudit.Audit.Run
import WorldAudit.Audit.Settings
import WorldAudit.Audit.Stream
import WorldAudit.Catalog
import WorldAudit.CommandLine.Answer
import WorldAudit.CommandLine.Arguments
import WorldAudit.Decode.Basic
import WorldAudit.Decode.Fault
import WorldAudit.Decode.Layout
import WorldAudit.Decode.Record
import WorldAudit.File.Folder
import WorldAudit.File.Load
import WorldAudit.File.Path
import WorldAudit.File.Shape
import WorldAudit.Json.Fault
import WorldAudit.Json.Numeral
import WorldAudit.Json.Print
import WorldAudit.Json.Quoted
import WorldAudit.Json.Read
import WorldAudit.Json.Value
import WorldAudit.Markup.Event
import WorldAudit.Markup.Scan
import WorldAudit.Number.Binary
import WorldAudit.Number.Count
import WorldAudit.Number.Read
import WorldAudit.Number.Shortest
import WorldAudit.Proofs.Audit.Isolation
import WorldAudit.Proofs.Audit.Lockstep
import WorldAudit.Proofs.Audit.Order
import WorldAudit.Proofs.Audit.Part
import WorldAudit.Proofs.Audit.Protocol
import WorldAudit.Proofs.Catalog
import WorldAudit.Proofs.Markup.Acceptance
import WorldAudit.Proofs.Markup.Grammar
import WorldAudit.Proofs.Markup.Reading
import WorldAudit.Proofs.Reachability.Facts
import WorldAudit.Proofs.Reachability.Gathering
import WorldAudit.Proofs.Reachability.Ledger
import WorldAudit.Proofs.Reachability.Orphans
import WorldAudit.Record.Basic
import WorldAudit.Record.Kind
import WorldAudit.Rules.Books
import WorldAudit.Rules.Duplicates
import WorldAudit.Rules.LevelledLists
import WorldAudit.Rules.Population
import WorldAudit.Rules.Reachability
import WorldAudit.Rules.SimilarNames
import WorldAudit.Rules.Standard
import WorldAudit.Rules.Typography
import WorldAudit.Rules.WorkNotes
import WorldAudit.Script.Command
import WorldAudit.Script.Line
import WorldAudit.Script.WorkNote
import WorldAudit.Text.Blank
import WorldAudit.Text.CaseTable
import WorldAudit.Text.Digit
import WorldAudit.Text.EditDistance
import WorldAudit.Text.HiddenTable
import WorldAudit.Text.Lower
import WorldAudit.Text.Position
import WorldAudit.Text.Ranges
import WorldAudit.Text.Search
import WorldAudit.Text.Shown
import WorldAudit.Main
import WorldAudit.Proofs.Audit.Violation
import WorldAudit.Proofs.Markup.Printing
import WorldAudit.Proofs.Rules.Conduct
import WorldAudit.Proofs.Audit.Interleaving
import WorldAudit.Proofs.CommandLine.AllOrNothing
import WorldAudit.Proofs.Reachability.Layers
import WorldAudit.Proofs.Script.Word
import WorldAudit.Proofs.Script.Caller
import WorldAudit.Proofs.Script.Shape
import WorldAudit.Proofs.Text.Lower
import WorldAudit.Proofs.Script.Line
import WorldAudit.Proofs.Script.Key
import WorldAudit.Proofs.Script.Quote
import WorldAudit.Proofs.Markup.Reached
import WorldAudit.Proofs.Markup.Closing
import WorldAudit.Proofs.Text.Unbroken
import WorldAudit.Proofs.Markup.Naming
import WorldAudit.Proofs.Rules.Books
import WorldAudit.Proofs.Audit.NamesOnLine
import WorldAudit.Proofs.Rules.Lines
import WorldAudit.Proofs.CommandLine.Output
import WorldAudit.Proofs.Audit.Boundary
import WorldAudit.Proofs.Audit.Memoryless
import WorldAudit.Proofs.Script.Channel
import WorldAudit.Proofs.Rules.Channels
import WorldAudit.Proofs.Markup.Location
import WorldAudit.Proofs.Markup.Appending
import WorldAudit.Proofs.Rules.Unseen
import WorldAudit.Proofs.Rules.Tags
import WorldAudit.Proofs.Audit.Memory
import WorldAudit.Proofs.Rules.Nesting
import WorldAudit.Proofs.Rules.Inhabitants
import WorldAudit.Proofs.Text.EditDistance
import WorldAudit.Proofs.Number.Order
import WorldAudit.Proofs.Number.Rounding
import WorldAudit.Proofs.Text.Fold
import WorldAudit.Proofs.Rules.Pairs
import WorldAudit.Proofs.Rules.Places
import WorldAudit.Proofs.Rules.Resemblance
import WorldAudit.Proofs.Script.Writing
import WorldAudit.Proofs.Reachability.LifeCycle
import WorldAudit.Proofs.File.Shape
import WorldAudit.Proofs.Decode.Layout
import WorldAudit.Proofs.Decode.Record
import WorldAudit.Proofs.File.Stages
import WorldAudit.Proofs.Text.Position
import WorldAudit.Proofs.Json.Location
import WorldAudit.Proofs.File.Path
