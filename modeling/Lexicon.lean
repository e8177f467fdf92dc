import Lexicon.Calendar
import Lexicon.Check
import Lexicon.CommandLine.Command
import Lexicon.CommandLine.Interface
import Lexicon.CommandLine.Run
import Lexicon.Compile.Bundle
import Lexicon.Compile.Definition
import Lexicon.Compile.Field
import Lexicon.Decimal.Binary64
import Lexicon.Decimal.Shortest
import Lexicon.Document.Basic
import Lexicon.Document.Definition
import Lexicon.Entries
import Lexicon.Failure
import Lexicon.Fault
import Lexicon.FieldType
import Lexicon.Files.FilePath
import Lexicon.Files.FileSystem
import Lexicon.Files.Glob
import Lexicon.Format
import Lexicon.Format.Cid
import Lexicon.Format.Datetime
import Lexicon.Format.Language
import Lexicon.Format.Uri
import Lexicon.Identifier.AtUri
import Lexicon.Identifier.Base32
import Lexicon.Identifier.Did
import Lexicon.Identifier.Handle
import Lexicon.Identifier.Label
import Lexicon.Identifier.Nsid
import Lexicon.Identifier.RecordKey
import Lexicon.Identifier.Tid
import Lexicon.Json.Reader
import Lexicon.Json.Writer
import Lexicon.Main
import Lexicon.MediaPattern
import Lexicon.Module.Docstring
import Lexicon.Module.Layout
import Lexicon.Module.Render
import Lexicon.Naming
import Lexicon.Path
import Lexicon.Proofs.Calendar
import Lexicon.Proofs.Check.Located
import Lexicon.Proofs.Check.Place
import Lexicon.Proofs.Check.Simulation
import Lexicon.Proofs.Compile.ClassNames
import Lexicon.Proofs.Compile.Conforms
import Lexicon.Proofs.Compile.Definition
import Lexicon.Proofs.Compile.Faults
import Lexicon.Proofs.Compile.Field
import Lexicon.Proofs.Compile.MediaTypes
import Lexicon.Proofs.Compile.Object
import Lexicon.Proofs.Compile.Recognized
import Lexicon.Proofs.Compile.Same
import Lexicon.Proofs.Compile.Strictness
import Lexicon.Proofs.Decimal.Exact
import Lexicon.Proofs.Decimal.Nearest
import Lexicon.Proofs.Decimal.Shortest
import Lexicon.Proofs.Document.Declared
import Lexicon.Proofs.Document.Decoded
import Lexicon.Proofs.Document.Indistinct
import Lexicon.Proofs.Document.Order
import Lexicon.Proofs.Document.Reading
import Lexicon.Proofs.Document.Reordered
import Lexicon.Proofs.Document.Same
import Lexicon.Proofs.Document.WellFormed
import Lexicon.Proofs.Entries
import Lexicon.Proofs.Files.Below
import Lexicon.Proofs.Files.Namespaced
import Lexicon.Proofs.Files.Writing
import Lexicon.Proofs.Format.Datetime
import Lexicon.Proofs.Format.Graphic
import Lexicon.Proofs.Identifier.AtUri
import Lexicon.Proofs.Identifier.Canonical
import Lexicon.Proofs.Identifier.Characters
import Lexicon.Proofs.Identifier.Labels
import Lexicon.Proofs.Identifier.Moment
import Lexicon.Proofs.Identifier.Numeral
import Lexicon.Proofs.Identifier.Pattern
import Lexicon.Proofs.Identifier.Reading
import Lexicon.Proofs.Identifier.Reference
import Lexicon.Proofs.Identifier.Sorting
import Lexicon.Proofs.Identifier.Tid
import Lexicon.Proofs.Identifier.UriParts
import Lexicon.Proofs.Json.Decoded
import Lexicon.Proofs.Json.Number
import Lexicon.Proofs.Json.Size
import Lexicon.Proofs.Module.ClassSource
import Lexicon.Proofs.Module.Classes
import Lexicon.Proofs.Module.Docstring
import Lexicon.Proofs.Module.Embedded
import Lexicon.Proofs.Module.Layout
import Lexicon.Proofs.Module.Names
import Lexicon.Proofs.Naming
import Lexicon.Proofs.Outcome
import Lexicon.Proofs.Record.Accepted
import Lexicon.Proofs.Record.Agreement
import Lexicon.Proofs.Record.Encode
import Lexicon.Proofs.Record.Hydrate
import Lexicon.Proofs.Record.Making
import Lexicon.Proofs.Record.Omission
import Lexicon.Proofs.Record.Places
import Lexicon.Proofs.Record.Reading
import Lexicon.Proofs.Record.Refused
import Lexicon.Proofs.Record.Regular
import Lexicon.Proofs.Record.RoundTrip
import Lexicon.Proofs.Record.Shape
import Lexicon.Proofs.Record.Slots
import Lexicon.Proofs.Record.Typed
import Lexicon.Proofs.Registry.Addressable
import Lexicon.Proofs.Registry.Budget
import Lexicon.Proofs.Registry.Capacity
import Lexicon.Proofs.Registry.Compile
import Lexicon.Proofs.Registry.Defaults
import Lexicon.Proofs.Registry.Faults
import Lexicon.Proofs.Registry.Guarded
import Lexicon.Proofs.Registry.Idempotent
import Lexicon.Proofs.Registry.Loading
import Lexicon.Proofs.Registry.Located
import Lexicon.Proofs.Registry.Lookup
import Lexicon.Proofs.Registry.Parts
import Lexicon.Proofs.Registry.Reordered
import Lexicon.Proofs.Registry.Same
import Lexicon.Proofs.Registry.Sound
import Lexicon.Proofs.Registry.Stability
import Lexicon.Proofs.Registry.Verdict
import Lexicon.Proofs.Registry.WriteOnce
import Lexicon.Proofs.Schema.Accepts
import Lexicon.Proofs.Schema.Decides
import Lexicon.Proofs.Schema.Faults
import Lexicon.Proofs.Schema.Idempotent
import Lexicon.Proofs.Schema.Language
import Lexicon.Proofs.Schema.Lasting
import Lexicon.Proofs.Schema.Links
import Lexicon.Proofs.Schema.Object
import Lexicon.Proofs.Schema.Plain
import Lexicon.Proofs.Schema.Reordered
import Lexicon.Proofs.Schema.Upholds
import Lexicon.Proofs.Schema.Written
import Lexicon.Proofs.Text.Base64
import Lexicon.Proofs.Text.Lines
import Lexicon.Proofs.Text.MediaPattern
import Lexicon.Proofs.Text.MediaRegex
import Lexicon.Proofs.Text.Quoted
import Lexicon.Proofs.Text.Regex
import Lexicon.Proofs.Value.Literal
import Lexicon.Proofs.Value.Parts
import Lexicon.Proofs.Value.Rearranged
import Lexicon.Proofs.Value.Reordered
import Lexicon.Proofs.Value.Same
import Lexicon.Proofs.Workspace.Accessors
import Lexicon.Proofs.Workspace.Ordered
import Lexicon.Record.Class
import Lexicon.Record.Encode
import Lexicon.Record.Hydrate
import Lexicon.Registry.Basic
import Lexicon.Registry.Bundled
import Lexicon.Registry.Source
import Lexicon.Schema.Basic
import Lexicon.Schema.Check
import Lexicon.Schema.Language
import Lexicon.Settings.Config
import Lexicon.Settings.EnvironmentFile
import Lexicon.Text.Base64
import Lexicon.Text.Blank
import Lexicon.Text.Casing
import Lexicon.Text.CodeRange
import Lexicon.Text.Digit
import Lexicon.Text.Grapheme
import Lexicon.Text.GraphemeTable
import Lexicon.Text.IdentifierChar
import Lexicon.Text.Normalized
import Lexicon.Text.Printable
import Lexicon.Text.Quoted
import Lexicon.Text.Split
import Lexicon.Text.WordChar
import Lexicon.Trace
import Lexicon.Value.Access
import Lexicon.Value.Basic
import Lexicon.Value.Literal
import Lexicon.Workspace
