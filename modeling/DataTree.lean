import DataTree.Binary.Bits
import DataTree.Decimal.Layout
import DataTree.Decimal.Text
import DataTree.Text.Alphanumeric
import DataTree.Text.LetterCase
import DataTree.Text.Blank
import DataTree.Text.Utf8
import DataTree.KeySpace
import DataTree.Fault
import DataTree.Navigation
import DataTree.RawEnum
import DataTree.Json.Printer
import DataTree.Json.Error
import DataTree.Json.Number
import DataTree.Json.Reader
import DataTree.Naming
import DataTree.Samples.Keys
import DataTree.Value.Build
import DataTree.Xml.Backend
import DataTree.Xml.Error
import DataTree.Xml.Symbol
import DataTree.Xml.Token
import DataTree.Xml.Attribute
import DataTree.Xml.Escape
import DataTree.Xml.Event
import DataTree.Xml.Reader
import DataTree.Xml.Writer
import DataTree.Mapping.Context
import DataTree.Samples.Contexts
import DataTree.Container
import DataTree.Decoder
import DataTree.Decoder.Keyed
import DataTree.Decoder.Sequential
import DataTree.Decoder.Single
import DataTree.Encoder
import DataTree.Encoder.Keyed
import DataTree.Encoder.Sequential
import DataTree.Encoder.Single
import DataTree.Codable
import DataTree.Script.Decoding
import DataTree.Script.Encoding
import DataTree.Proofs.Tree.PathLaw
import DataTree.Proofs.Tree.Shape
import DataTree.Proofs.Tree.Effect
import DataTree.Proofs.Tree.Independence
import DataTree.Proofs.Json.Agreement
import DataTree.Proofs.Xml.Refinement
import DataTree.Proofs.Mapping.Types
import DataTree.Proofs.Backend.Lawful
import DataTree.Proofs.Backend.Atomic
import DataTree.Proofs.Backend.Building
import DataTree.Proofs.Tree.Recovery
import DataTree.Proofs.Coding.Encoded
import DataTree.Proofs.Coding.Decoded
import DataTree.Proofs.Coding.RoundTrip
import DataTree.Proofs.Backend.Wrote
import DataTree.Proofs.Backend.Erased
import DataTree.Proofs.Xml.Removal
import DataTree.Proofs.Xml.Union
import DataTree.Proofs.Xml.Number
import DataTree.Proofs.Text.Numeral
import DataTree.Proofs.Xml.Field
import DataTree.Proofs.Xml.Merging
import DataTree.Proofs.Text.Blank
import DataTree.Proofs.Xml.Leaf
import DataTree.Proofs.Mapping.Placeable
import DataTree.Proofs.Text.Span
import DataTree.Proofs.Xml.Escaping
import DataTree.Proofs.Xml.Scanning
import DataTree.Proofs.Xml.Tags
import DataTree.Proofs.Xml.RoundTrip
import DataTree.Proofs.Decimal.Nearest
import DataTree.Proofs.Decimal.Shortest
import DataTree.Proofs.Decimal.Text
import DataTree.Proofs.Backend.Through
import DataTree.Proofs.Backend.Barrier
import DataTree.Proofs.Backend.Coherent
import DataTree.Proofs.Backend.FirstFailure
import DataTree.Proofs.Mapping.Failure
import DataTree.Proofs.Coding.Failure
import DataTree.Proofs.Decoder.Request
import DataTree.Proofs.Decoder.Run
import DataTree.Proofs.Decoder.Discipline
import DataTree.Proofs.Encoder.Steps
import DataTree.Proofs.Encoder.Traceless
import DataTree.Proofs.Coding.Shared
import DataTree.Proofs.Json.Typed
import DataTree.Proofs.Coding.Conversion
import DataTree.Proofs.Coding.Keyed
import DataTree.Proofs.Json.Conversion
import DataTree.Proofs.Mapping.Absence
import DataTree.Proofs.Xml.Coding
import DataTree.Proofs.Xml.Record
import DataTree.Proofs.Tree.Repetition
import DataTree.Proofs.Tree.Refusal
import DataTree.Proofs.Tree.Removal
import DataTree.Proofs.Xml.Reshaping
import DataTree.Proofs.Xml.Placement
import DataTree.Proofs.Backend.Views
import DataTree.Proofs.Xml.Grammar
import DataTree.Proofs.Mapping.Enumerations
import DataTree.Proofs.Decoder.Cursor
import DataTree.Proofs.Backend.Fieldwise
import DataTree.Proofs.Encoder.Standalone
import DataTree.Proofs.Coding.Delegation
import DataTree.Proofs.Coding.Raised
import DataTree.Proofs.Coercion
import DataTree.Proofs.Mapping.Context
import DataTree.Proofs.Xml.Attributes
import DataTree.Proofs.Xml.Overwriting
import DataTree.Proofs.Xml.Escaped
import DataTree.Proofs.Text.Radix
import DataTree.Proofs.Xml.Numbered
import DataTree.Proofs.Naming
import DataTree.Proofs.Mapping.Samples
