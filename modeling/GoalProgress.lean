import GoalProgress.Arguments
import GoalProgress.Arguments.Reader
import GoalProgress.Bytes
import GoalProgress.Cache
import GoalProgress.Cache.Operation
import GoalProgress.Config
import GoalProgress.Config.Reader
import GoalProgress.Date
import GoalProgress.Decimal
import GoalProgress.Decimal.Shortest
import GoalProgress.Definition
import GoalProgress.Definition.Decoder
import GoalProgress.Definition.Printer
import GoalProgress.Definition.Reader
import GoalProgress.Document
import GoalProgress.Error
import GoalProgress.Files.Disk
import GoalProgress.Files.Path
import GoalProgress.Files.Problem
import GoalProgress.Files.System
import GoalProgress.Files.Tree
import GoalProgress.GoalId
import GoalProgress.Instant
import GoalProgress.Instant.Reader
import GoalProgress.Json.Escape
import GoalProgress.Json.Escaped
import GoalProgress.Json.Numeral
import GoalProgress.Json.Problem
import GoalProgress.Json.Reader
import GoalProgress.Json.Skip
import GoalProgress.Json.Value
import GoalProgress.Json.Value.Reader
import GoalProgress.Main
import GoalProgress.Mismatch
import GoalProgress.Progress.Lookup
import GoalProgress.Progress.Printer
import GoalProgress.Progress.Reader
import GoalProgress.Progress.Record
import GoalProgress.Progress.Suffix
import GoalProgress.Proofs.Bytes.Search
import GoalProgress.Proofs.Cache
import GoalProgress.Proofs.Cache.Checked
import GoalProgress.Proofs.Cache.Contents
import GoalProgress.Proofs.Cache.Integrity
import GoalProgress.Proofs.Cache.Operation
import GoalProgress.Proofs.Cache.Origin
import GoalProgress.Proofs.Cache.Orphan
import GoalProgress.Proofs.Cache.Reload
import GoalProgress.Proofs.Config
import GoalProgress.Proofs.Config.Decode
import GoalProgress.Proofs.Config.Unrecognized
import GoalProgress.Proofs.Definition.Check
import GoalProgress.Proofs.Definition.Occurrence
import GoalProgress.Proofs.Definition.Repetition
import GoalProgress.Proofs.Definition.RoundTrip
import GoalProgress.Proofs.Definition.Tree
import GoalProgress.Proofs.Document
import GoalProgress.Proofs.Document.Exposed
import GoalProgress.Proofs.Document.Members
import GoalProgress.Proofs.Document.Names
import GoalProgress.Proofs.Files.Frame
import GoalProgress.Proofs.Files.Touched
import GoalProgress.Proofs.Files.Tree
import GoalProgress.Proofs.GoalId
import GoalProgress.Proofs.GoalId.Layout
import GoalProgress.Proofs.Instant.RoundTrip
import GoalProgress.Proofs.Json.Compact
import GoalProgress.Proofs.Json.Content
import GoalProgress.Proofs.Json.Escape
import GoalProgress.Proofs.Json.Escaped
import GoalProgress.Proofs.Json.EscapedText
import GoalProgress.Proofs.Json.Frame
import GoalProgress.Proofs.Json.Key
import GoalProgress.Proofs.Json.Opening
import GoalProgress.Proofs.Json.RoundTrip
import GoalProgress.Proofs.Json.Token
import GoalProgress.Proofs.Json.Tree
import GoalProgress.Proofs.Json.Unambiguous
import GoalProgress.Proofs.Program
import GoalProgress.Proofs.Progress.Faithful
import GoalProgress.Proofs.Progress.Lookup
import GoalProgress.Proofs.Progress.RoundTrip
import GoalProgress.Proofs.Progress.Suffix
import GoalProgress.Proofs.Response
import GoalProgress.Proofs.Response.Definitions
import GoalProgress.Proofs.Response.Room
import GoalProgress.Proofs.Response.Sizing
import GoalProgress.Proofs.Response.Stored
import GoalProgress.Proofs.Response.Views
import GoalProgress.Proofs.Run
import GoalProgress.Proofs.Run.Query
import GoalProgress.Proofs.Run.Statistics
import GoalProgress.Proofs.Scan.Balanced
import GoalProgress.Proofs.Scan.Braced
import GoalProgress.Proofs.Scan.Bracket
import GoalProgress.Proofs.Scan.Closing
import GoalProgress.Proofs.Scan.Compose
import GoalProgress.Proofs.Scan.Row
import GoalProgress.Proofs.Scan.Scanner
import GoalProgress.Proofs.Scan.Span
import GoalProgress.Proofs.Scan.Tree
import GoalProgress.Proofs.Snapshot.Codec
import GoalProgress.Proofs.Snapshot.Faithful
import GoalProgress.Proofs.Snapshot.Layout
import GoalProgress.Proofs.Snapshot.Restore
import GoalProgress.Proofs.Snapshot.RoundTrip
import GoalProgress.Proofs.Snapshot.Save
import GoalProgress.Proofs.Snapshot.Version
import GoalProgress.Proofs.Source
import GoalProgress.Proofs.Splice.Buffer
import GoalProgress.Proofs.Splice.Challenge
import GoalProgress.Proofs.Splice.Cut
import GoalProgress.Proofs.Splice.Goal
import GoalProgress.Proofs.Splice.Insertion
import GoalProgress.Proofs.Splice.Layout
import GoalProgress.Proofs.Splice.Length
import GoalProgress.Proofs.Splice.Object
import GoalProgress.Proofs.Splice.Rendered
import GoalProgress.Proofs.Splice.Reserved
import GoalProgress.Proofs.Splice.Served
import GoalProgress.Proofs.Splice.Text
import GoalProgress.Proofs.Table
import GoalProgress.Proofs.Text.Decimal
import GoalProgress.Proofs.Text.Encoding
import GoalProgress.Proofs.Toml.DateTable
import GoalProgress.Proofs.Toml.Distinct
import GoalProgress.Proofs.Toml.Reader
import GoalProgress.Proofs.Toml.Sorted
import GoalProgress.Response
import GoalProgress.Response.Sizing
import GoalProgress.Run
import GoalProgress.Scan.Bracket
import GoalProgress.Scan.Literal
import GoalProgress.Scan.Scanner
import GoalProgress.Scan.Span
import GoalProgress.Snapshot
import GoalProgress.Snapshot.Varint
import GoalProgress.Source
import GoalProgress.Splice.Buffer
import GoalProgress.Splice.Challenge
import GoalProgress.Splice.Goal
import GoalProgress.Splice.Reserved
import GoalProgress.Text.Digits
import GoalProgress.Text.Invisible
import GoalProgress.Text.Shown
import GoalProgress.Toml.DateTable
import GoalProgress.Toml.Moment
import GoalProgress.Toml.Number
import GoalProgress.Toml.Reader
import GoalProgress.Toml.Text
import GoalProgress.Toml.Tree
import GoalProgress.Toml.Value
