import RowQuery.Command.Arguments
import RowQuery.Command.Markup
import RowQuery.Command.Run
import RowQuery.ErrorKind
import RowQuery.Failure
import RowQuery.Filter.Checked
import RowQuery.Filter.Wire
import RowQuery.Geo
import RowQuery.Journal
import RowQuery.Json.Basic
import RowQuery.Json.Printer
import RowQuery.Json.Reader
import RowQuery.Log.Emission
import RowQuery.Log.Formatter
import RowQuery.Log.Level
import RowQuery.Log.Record
import RowQuery.Log.Root
import RowQuery.Log.Template
import RowQuery.Log.Timed
import RowQuery.Log.Timestamp
import RowQuery.Main
import RowQuery.Number.Binary64
import RowQuery.Number.Decimal
import RowQuery.Number.Literal
import RowQuery.Number.Notation
import RowQuery.Number.Places
import RowQuery.Number.Rounding
import RowQuery.Options
import RowQuery.Proofs.Action
import RowQuery.Proofs.Command.Arguments
import RowQuery.Proofs.Command.Build
import RowQuery.Proofs.Command.Printing
import RowQuery.Proofs.Fallible
import RowQuery.Proofs.Filter.Canonical
import RowQuery.Proofs.Filter.Construction
import RowQuery.Proofs.Filter.Grammar
import RowQuery.Proofs.Filter.Reading
import RowQuery.Proofs.Geo
import RowQuery.Proofs.Json.Agreement
import RowQuery.Proofs.Json.Ascii
import RowQuery.Proofs.Json.Atoms
import RowQuery.Proofs.Json.Conditions
import RowQuery.Proofs.Json.Encoding
import RowQuery.Proofs.Json.Grammar
import RowQuery.Proofs.Json.Numbers
import RowQuery.Proofs.Json.RoundTrip
import RowQuery.Proofs.Json.Settling
import RowQuery.Proofs.Json.Shape
import RowQuery.Proofs.Json.Strings
import RowQuery.Proofs.Json.Wire
import RowQuery.Proofs.Log.Context
import RowQuery.Proofs.Log.Emission
import RowQuery.Proofs.Log.Extension
import RowQuery.Proofs.Log.Formatting
import RowQuery.Proofs.Log.Objects
import RowQuery.Proofs.Log.Setup
import RowQuery.Proofs.Log.Timing
import RowQuery.Proofs.Number.Fixed
import RowQuery.Proofs.Number.Integer
import RowQuery.Proofs.Number.Range
import RowQuery.Proofs.Number.Rank
import RowQuery.Proofs.Number.Shortest
import RowQuery.Proofs.Options.Contents
import RowQuery.Proofs.Options.Decoding
import RowQuery.Proofs.Options.Encoding
import RowQuery.Proofs.Options.Failures
import RowQuery.Proofs.Options.Grouping
import RowQuery.Proofs.Options.Normalization
import RowQuery.Proofs.Options.Readings
import RowQuery.Proofs.Options.Rebuilding
import RowQuery.Proofs.Options.Slots
import RowQuery.Proofs.Pairing
import RowQuery.Proofs.Query.Atomicity
import RowQuery.Proofs.Query.Blending
import RowQuery.Proofs.Query.Conflicts
import RowQuery.Proofs.Query.Conservation
import RowQuery.Proofs.Query.Finiteness
import RowQuery.Proofs.Query.Leaves
import RowQuery.Proofs.Query.Runs
import RowQuery.Proofs.Query.Sorting
import RowQuery.Proofs.Query.Spelling
import RowQuery.Proofs.Query.Typing
import RowQuery.Proofs.Store.Atomicity
import RowQuery.Proofs.Store.Families
import RowQuery.Proofs.Store.Folding
import RowQuery.Proofs.Store.Independence
import RowQuery.Proofs.Store.Invariant
import RowQuery.Proofs.Store.Joining
import RowQuery.Proofs.Store.Locality
import RowQuery.Proofs.Store.Operations
import RowQuery.Proofs.Store.Reencoding
import RowQuery.Proofs.Store.Refresh
import RowQuery.Proofs.Store.RoundTrip
import RowQuery.Proofs.Store.Runs
import RowQuery.Proofs.Store.Sameness
import RowQuery.Proofs.Store.Serialization
import RowQuery.Proofs.Store.Spelling
import RowQuery.Proofs.Store.Steps
import RowQuery.Proofs.Text.Controls
import RowQuery.Proofs.Text.Lowercase
import RowQuery.Proofs.Text.Pieces
import RowQuery.Proofs.Text.Utf8
import RowQuery.Proofs.Text.WellFormed
import RowQuery.Proofs.Url.Form
import RowQuery.Proofs.Url.ReadPath
import RowQuery.Proofs.Url.WellFormed
import RowQuery.Proofs.Value.Finiteness
import RowQuery.Proofs.Value.Inspection
import RowQuery.Proofs.Value.Key
import RowQuery.Proofs.Value.Spelling
import RowQuery.Query.Basic
import RowQuery.Query.Call
import RowQuery.Query.Handle
import RowQuery.Settings
import RowQuery.Settings.File
import RowQuery.Store.Basic
import RowQuery.Store.Decoding
import RowQuery.Store.Family
import RowQuery.Store.Payload
import RowQuery.Store.Rendering
import RowQuery.Text.Basic
import RowQuery.Text.Blank
import RowQuery.Text.Controls
import RowQuery.Text.Lowercase
import RowQuery.Text.Printable
import RowQuery.Text.Quoted
import RowQuery.Text.Utf8
import RowQuery.Url.Form
import RowQuery.Url.Percent
import RowQuery.Url.ReadPath
import RowQuery.Value.Basic
import RowQuery.Value.Element
import RowQuery.Value.Equality
import RowQuery.Value.Inspect
import RowQuery.Value.Key
import RowQuery.Value.Make
import RowQuery.Vocabulary
