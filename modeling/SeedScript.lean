import SeedScript.Cli.Arguments
import SeedScript.Cli.Command
import SeedScript.Cli.Grammar
import SeedScript.Cli.Number
import SeedScript.Cli.Reach
import SeedScript.Cli.Run
import SeedScript.Compile
import SeedScript.Dataset
import SeedScript.Decimal.Binary64
import SeedScript.Decimal.Display
import SeedScript.Decimal.Shortest
import SeedScript.Environment
import SeedScript.Error
import SeedScript.Failure
import SeedScript.Files.Path
import SeedScript.Files.Tree
import SeedScript.Identifier
import SeedScript.Job
import SeedScript.Json.Basic
import SeedScript.Json.Printer
import SeedScript.Json.Reader
import SeedScript.Log.Calendar
import SeedScript.Log.Event
import SeedScript.Log.Level
import SeedScript.Log.Root
import SeedScript.Log.Session
import SeedScript.Log.Setup
import SeedScript.Main
import SeedScript.NameSource
import SeedScript.Output
import SeedScript.Progress
import SeedScript.Proofs.Attempts
import SeedScript.Proofs.Batch
import SeedScript.Proofs.Canonical
import SeedScript.Proofs.Cli.Handover
import SeedScript.Proofs.Cli.Options
import SeedScript.Proofs.Cli.Reading
import SeedScript.Proofs.Comparison
import SeedScript.Proofs.Compilation
import SeedScript.Proofs.Conformance
import SeedScript.Proofs.Dataset
import SeedScript.Proofs.Effects
import SeedScript.Proofs.Ending
import SeedScript.Proofs.Entries
import SeedScript.Proofs.EntryForms
import SeedScript.Proofs.Export
import SeedScript.Proofs.Fields
import SeedScript.Proofs.Files.Appending
import SeedScript.Proofs.Files.Directories
import SeedScript.Proofs.Files.Reading
import SeedScript.Proofs.Files.Writing
import SeedScript.Proofs.Identifier
import SeedScript.Proofs.Json.Limits
import SeedScript.Proofs.Json.Reading
import SeedScript.Proofs.Linking
import SeedScript.Proofs.Log.Calendar
import SeedScript.Proofs.Log.Calls
import SeedScript.Proofs.Log.Levels
import SeedScript.Proofs.Log.Setup
import SeedScript.Proofs.Milestones
import SeedScript.Proofs.NameKey
import SeedScript.Proofs.NamedEntries
import SeedScript.Proofs.Outputs
import SeedScript.Proofs.Records
import SeedScript.Proofs.Refusal
import SeedScript.Proofs.Requests
import SeedScript.Proofs.Resolution
import SeedScript.Proofs.Results
import SeedScript.Proofs.Scan
import SeedScript.Proofs.Schema.Calls
import SeedScript.Proofs.Schema.Cutting
import SeedScript.Proofs.Schema.Reading
import SeedScript.Proofs.Schema.Whole
import SeedScript.Proofs.Script
import SeedScript.Proofs.Settings.Sources
import SeedScript.Proofs.Sql.Clauses
import SeedScript.Proofs.Sql.Decoding
import SeedScript.Proofs.Sql.Escaping
import SeedScript.Proofs.Sql.Insertion
import SeedScript.Proofs.Sql.Names
import SeedScript.Proofs.Sql.Reading
import SeedScript.Proofs.Sql.Statements
import SeedScript.Proofs.Sql.Whole
import SeedScript.Proofs.Text.Case
import SeedScript.Proofs.Text.Trim
import SeedScript.Proofs.Text.Utf8
import SeedScript.Proofs.Text.Words
import SeedScript.Record
import SeedScript.Request
import SeedScript.Resolver
import SeedScript.Schema.Ddl
import SeedScript.Schema.Registry
import SeedScript.Schema.Seeded
import SeedScript.Schema.Table
import SeedScript.Settings.Assignment
import SeedScript.Settings.Basic
import SeedScript.Settings.Source
import SeedScript.Settings.Value
import SeedScript.Sql.Insert
import SeedScript.Sql.Literal
import SeedScript.Sql.Name
import SeedScript.StatementSet
import SeedScript.Supply
import SeedScript.Text.Blank
import SeedScript.Text.CaseFold
import SeedScript.Text.CaseMap
import SeedScript.Text.Digit
import SeedScript.Text.Join
import SeedScript.Text.Lines
import SeedScript.Text.LowerCase
import SeedScript.Text.Printable
import SeedScript.Text.Quoted
import SeedScript.Text.Split
import SeedScript.Text.UpperCase
import SeedScript.Text.Utf8
import SeedScript.Validation
