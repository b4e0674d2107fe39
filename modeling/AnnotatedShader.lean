import AnnotatedShader.Batch.Compile
import AnnotatedShader.Batch.Narration
import AnnotatedShader.Batch.Options
import AnnotatedShader.CommandLine.Argument
import AnnotatedShader.CommandLine.Flag
import AnnotatedShader.CommandLine.Help
import AnnotatedShader.CommandLine.Request
import AnnotatedShader.CommandLine.Run
import AnnotatedShader.Diagnostic
import AnnotatedShader.Failure
import AnnotatedShader.Files.Path
import AnnotatedShader.Files.Tree
import AnnotatedShader.Glsl.Declaration
import AnnotatedShader.Glsl.Generate
import AnnotatedShader.Glsl.Rewrite
import AnnotatedShader.Grammar.Descent
import AnnotatedShader.Grammar.Tree
import AnnotatedShader.Json.Basic
import AnnotatedShader.Json.Reader
import AnnotatedShader.Json.Writer
import AnnotatedShader.Layout.Basic
import AnnotatedShader.Layout.Std140
import AnnotatedShader.Layout.Vertex
import AnnotatedShader.Main
import AnnotatedShader.Model.Basic
import AnnotatedShader.Model.Build
import AnnotatedShader.Model.Struct
import AnnotatedShader.Namespace.Basic
import AnnotatedShader.Namespace.Cycle
import AnnotatedShader.Namespace.Import
import AnnotatedShader.Number.Binary64
import AnnotatedShader.Number.Freeform
import AnnotatedShader.Number.Numeral
import AnnotatedShader.Number.Shortest
import AnnotatedShader.Position
import AnnotatedShader.Proofs.Batch.Acceptance
import AnnotatedShader.Proofs.Batch.Again
import AnnotatedShader.Proofs.Batch.Alone
import AnnotatedShader.Proofs.Batch.Analysis
import AnnotatedShader.Proofs.Batch.Annotated
import AnnotatedShader.Proofs.Batch.Comments
import AnnotatedShader.Proofs.Batch.Documents
import AnnotatedShader.Proofs.Batch.Failures
import AnnotatedShader.Proofs.Batch.Globals
import AnnotatedShader.Proofs.Batch.InPlace
import AnnotatedShader.Proofs.Batch.Independence
import AnnotatedShader.Proofs.Batch.Interface
import AnnotatedShader.Proofs.Batch.Isolation
import AnnotatedShader.Proofs.Batch.Pass
import AnnotatedShader.Proofs.Batch.Placement
import AnnotatedShader.Proofs.Batch.Rearranged
import AnnotatedShader.Proofs.Batch.Recording
import AnnotatedShader.Proofs.Batch.Relocation
import AnnotatedShader.Proofs.Batch.Reports
import AnnotatedShader.Proofs.Batch.Sharing
import AnnotatedShader.Proofs.Batch.Structs
import AnnotatedShader.Proofs.CommandLine.Inputs
import AnnotatedShader.Proofs.EndAlike
import AnnotatedShader.Proofs.Except
import AnnotatedShader.Proofs.Files.Tree
import AnnotatedShader.Proofs.Glsl.Arguments
import AnnotatedShader.Proofs.Glsl.Failures
import AnnotatedShader.Proofs.Glsl.Globals
import AnnotatedShader.Proofs.Glsl.Lexeme
import AnnotatedShader.Proofs.Glsl.Markerless
import AnnotatedShader.Proofs.Glsl.Origin
import AnnotatedShader.Proofs.Glsl.Parenthesis
import AnnotatedShader.Proofs.Glsl.Placement
import AnnotatedShader.Proofs.Glsl.Rearranged
import AnnotatedShader.Proofs.Glsl.Reference
import AnnotatedShader.Proofs.Glsl.Reindexed
import AnnotatedShader.Proofs.Glsl.Respaced
import AnnotatedShader.Proofs.Glsl.Rewriting
import AnnotatedShader.Proofs.Glsl.Sampling
import AnnotatedShader.Proofs.Glsl.Stretch
import AnnotatedShader.Proofs.Glsl.Structs
import AnnotatedShader.Proofs.Glsl.Substitution
import AnnotatedShader.Proofs.Glsl.Unannotated
import AnnotatedShader.Proofs.Glsl.Unmarked
import AnnotatedShader.Proofs.Grammar.Derivation
import AnnotatedShader.Proofs.Grammar.Prompt
import AnnotatedShader.Proofs.Grammar.Reading
import AnnotatedShader.Proofs.Grammar.Stuck
import AnnotatedShader.Proofs.Grammar.Text
import AnnotatedShader.Proofs.Json.Grammar
import AnnotatedShader.Proofs.Json.Reading
import AnnotatedShader.Proofs.Layout.Extent
import AnnotatedShader.Proofs.Layout.Placement
import AnnotatedShader.Proofs.Layout.Room
import AnnotatedShader.Proofs.Layout.Unpacked
import AnnotatedShader.Proofs.Lists
import AnnotatedShader.Proofs.Model.Agreement
import AnnotatedShader.Proofs.Model.Alike
import AnnotatedShader.Proofs.Model.Build
import AnnotatedShader.Proofs.Model.Containment
import AnnotatedShader.Proofs.Model.Emittable
import AnnotatedShader.Proofs.Model.Failures
import AnnotatedShader.Proofs.Model.Leaf
import AnnotatedShader.Proofs.Model.Members
import AnnotatedShader.Proofs.Model.Names
import AnnotatedShader.Proofs.Model.Provenance
import AnnotatedShader.Proofs.Model.Reindexed
import AnnotatedShader.Proofs.Model.Reports
import AnnotatedShader.Proofs.Model.Spelling
import AnnotatedShader.Proofs.Model.States
import AnnotatedShader.Proofs.Model.Struct
import AnnotatedShader.Proofs.Model.Visit
import AnnotatedShader.Proofs.Model.WellFormed
import AnnotatedShader.Proofs.Namespace.Alike
import AnnotatedShader.Proofs.Namespace.Cycle
import AnnotatedShader.Proofs.Namespace.Ending
import AnnotatedShader.Proofs.Namespace.Graph
import AnnotatedShader.Proofs.Namespace.Imports
import AnnotatedShader.Proofs.Namespace.Resolution
import AnnotatedShader.Proofs.Namespace.Rings
import AnnotatedShader.Proofs.Namespace.Search
import AnnotatedShader.Proofs.Number.Digits
import AnnotatedShader.Proofs.Number.Layout
import AnnotatedShader.Proofs.Number.Literal
import AnnotatedShader.Proofs.Number.Rounding
import AnnotatedShader.Proofs.Number.Shortest
import AnnotatedShader.Proofs.Reflection.Document
import AnnotatedShader.Proofs.Slot.Allotment
import AnnotatedShader.Proofs.Slot.Alone
import AnnotatedShader.Proofs.Slot.Assignment
import AnnotatedShader.Proofs.Slot.Filling
import AnnotatedShader.Proofs.Slot.Numbering
import AnnotatedShader.Proofs.Slot.Pins
import AnnotatedShader.Proofs.Slot.Reindexed
import AnnotatedShader.Proofs.Slot.Reports
import AnnotatedShader.Proofs.Slot.Unslotted
import AnnotatedShader.Proofs.Source.Comments
import AnnotatedShader.Proofs.Source.Coordinates
import AnnotatedShader.Proofs.Source.Landmark
import AnnotatedShader.Proofs.Source.Marker
import AnnotatedShader.Proofs.Source.Markerless
import AnnotatedShader.Proofs.Source.Partition
import AnnotatedShader.Proofs.Statement.Comments
import AnnotatedShader.Proofs.Statement.Earliest
import AnnotatedShader.Proofs.Statement.Failures
import AnnotatedShader.Proofs.Statement.Interpretation
import AnnotatedShader.Proofs.Statement.Parsing
import AnnotatedShader.Proofs.Statement.Place
import AnnotatedShader.Proofs.Statement.Reports
import AnnotatedShader.Proofs.Statement.Spelling
import AnnotatedShader.Proofs.Statement.Values
import AnnotatedShader.Proofs.Text.Run
import AnnotatedShader.Proofs.Token.Line
import AnnotatedShader.Proofs.Token.Longest
import AnnotatedShader.Proofs.Token.Precedence
import AnnotatedShader.Proofs.Token.Tokenized
import AnnotatedShader.Reflection
import AnnotatedShader.ShaderType
import AnnotatedShader.Slot.Allocation
import AnnotatedShader.Slot.Assignment
import AnnotatedShader.Slot.Program
import AnnotatedShader.Source.Annotated
import AnnotatedShader.Source.Line
import AnnotatedShader.Source.Stage
import AnnotatedShader.Statement.Attribute
import AnnotatedShader.Statement.Basic
import AnnotatedShader.Statement.Parser
import AnnotatedShader.Text.Blank
import AnnotatedShader.Text.Cased
import AnnotatedShader.Text.CodeRange
import AnnotatedShader.Text.Digit
import AnnotatedShader.Text.Line
import AnnotatedShader.Text.Lower
import AnnotatedShader.Text.Printable
import AnnotatedShader.Text.Quoted
import AnnotatedShader.Text.Utf16
import AnnotatedShader.Text.Word
import AnnotatedShader.Token.Basic
import AnnotatedShader.Token.Lexer
import AnnotatedShader.Validator
