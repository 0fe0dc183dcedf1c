import WireSchema.Binary.Float
import WireSchema.Binary.Format
import WireSchema.Binary.Layout
import WireSchema.Binary.Shortest
import WireSchema.Command.Numeral
import WireSchema.Command.Options
import WireSchema.Command.Run
import WireSchema.Config
import WireSchema.Dispatch
import WireSchema.Document.Basic
import WireSchema.Document.Json
import WireSchema.Files.Location
import WireSchema.Files.Store
import WireSchema.Files.Tree
import WireSchema.Identifier.Namespace
import WireSchema.Identifier.Path
import WireSchema.Identifier.Words
import WireSchema.Json.Printer
import WireSchema.Json.Reader
import WireSchema.Json.Record
import WireSchema.Json.Token
import WireSchema.Json.Value
import WireSchema.Main
import WireSchema.Name
import WireSchema.Proofs.Binary.Conversion
import WireSchema.Proofs.Binary.Literal
import WireSchema.Proofs.Command.Effects
import WireSchema.Proofs.Dispatch
import WireSchema.Proofs.Dispatch.Foreign
import WireSchema.Proofs.Document.RoundTrip
import WireSchema.Proofs.Files.Writing
import WireSchema.Proofs.Identifier.Capital
import WireSchema.Proofs.Identifier.Homonyms
import WireSchema.Proofs.Identifier.Legality
import WireSchema.Proofs.Identifier.Spelling
import WireSchema.Proofs.Identifier.Stem
import WireSchema.Proofs.Json.Order
import WireSchema.Proofs.Schema.Acceptance
import WireSchema.Proofs.Schema.Assembly
import WireSchema.Proofs.Schema.Building
import WireSchema.Proofs.Schema.Containment
import WireSchema.Proofs.Schema.Drafts
import WireSchema.Proofs.Schema.Integrity
import WireSchema.Proofs.Schema.Interfaces
import WireSchema.Proofs.Schema.Listing
import WireSchema.Proofs.Schema.Memory
import WireSchema.Proofs.Schema.Outcome
import WireSchema.Proofs.Schema.Passes
import WireSchema.Proofs.Schema.Placement
import WireSchema.Proofs.Schema.Reference
import WireSchema.Proofs.Schema.Renaming
import WireSchema.Proofs.Schema.Reordering
import WireSchema.Proofs.Schema.Resolution
import WireSchema.Proofs.Schema.Rules
import WireSchema.Proofs.Schema.Standing
import WireSchema.Proofs.Schema.TypeRules
import WireSchema.Proofs.Schema.Waiting
import WireSchema.Proofs.Schema.Written
import WireSchema.Proofs.Source.Agreement
import WireSchema.Proofs.Source.Arms
import WireSchema.Proofs.Source.Clashes
import WireSchema.Proofs.Source.Closure
import WireSchema.Proofs.Source.Collisions
import WireSchema.Proofs.Source.Constants
import WireSchema.Proofs.Source.Declarations
import WireSchema.Proofs.Source.Directory
import WireSchema.Proofs.Source.Dispatch
import WireSchema.Proofs.Source.Emission
import WireSchema.Proofs.Source.Exports
import WireSchema.Proofs.Source.Layout
import WireSchema.Proofs.Source.Lines
import WireSchema.Proofs.Source.MapPolicy
import WireSchema.Proofs.Source.Maps
import WireSchema.Proofs.Source.Meaning
import WireSchema.Proofs.Source.Numbers
import WireSchema.Proofs.Source.Paths
import WireSchema.Proofs.Source.Siblings
import WireSchema.Proofs.Source.TypeNames
import WireSchema.Proofs.Source.Writing
import WireSchema.Proofs.Value.Capacity
import WireSchema.Proofs.Value.Caps
import WireSchema.Proofs.Value.Consumption
import WireSchema.Proofs.Value.Defaults
import WireSchema.Proofs.Value.Encode
import WireSchema.Proofs.Value.FixedPoint
import WireSchema.Proofs.Value.Keys
import WireSchema.Proofs.Value.Number
import WireSchema.Proofs.Value.Recode
import WireSchema.Proofs.Value.RoundTrip
import WireSchema.Proofs.Value.Size
import WireSchema.Proofs.Value.Termination
import WireSchema.Proofs.Value.Typing
import WireSchema.Proofs.Wire.Cursor
import WireSchema.Proofs.Wire.Decoder
import WireSchema.Proofs.Wire.Output
import WireSchema.Proofs.Wire.Padding
import WireSchema.Proofs.Wire.Stream
import WireSchema.Schema.Basic
import WireSchema.Schema.Build
import WireSchema.Schema.Declare
import WireSchema.Schema.Define
import WireSchema.Schema.Draft
import WireSchema.Schema.Error
import WireSchema.Schema.Resolve
import WireSchema.Schema.Type
import WireSchema.Source.Body
import WireSchema.Source.Container
import WireSchema.Source.Dispatch
import WireSchema.Source.Enumeration
import WireSchema.Source.File
import WireSchema.Source.Interface
import WireSchema.Source.Page
import WireSchema.Source.Record
import WireSchema.Source.Strategy
import WireSchema.Source.Tree
import WireSchema.Text.Alphanumeric
import WireSchema.Text.LetterCase
import WireSchema.Text.Quoted
import WireSchema.Text.Split
import WireSchema.Value.Basic
import WireSchema.Value.Decode
import WireSchema.Value.Default
import WireSchema.Value.Encode
import WireSchema.Value.Size
import WireSchema.Wire.Basic
import WireSchema.Wire.Decoder
import WireSchema.Wire.Item
import WireSchema.Wire.Numeric
import WireSchema.Wire.Output
import WireSchema.Wire.Shape
