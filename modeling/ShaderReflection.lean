import ShaderReflection.Main
import ShaderReflection.Proofs.Json.Tree
import ShaderReflection.Proofs.Json.Reading
import ShaderReflection.Proofs.Text.Numeral
import ShaderReflection.Proofs.Json.Decoding
import ShaderReflection.Proofs.Json.Grammar
import ShaderReflection.Proofs.Json.Written
import ShaderReflection.Proofs.Json.Lookahead
import ShaderReflection.Proofs.Json.Acceptance
import ShaderReflection.Proofs.Json.Fields
import ShaderReflection.Proofs.Document.RoundTrip
import ShaderReflection.Proofs.Document.Accepted
import ShaderReflection.Proofs.Document.Cut
import ShaderReflection.Proofs.Document.Described
import ShaderReflection.Proofs.Document.Parts
import ShaderReflection.Proofs.Extraction.Calls
import ShaderReflection.Proofs.Extraction.Protocol
import ShaderReflection.Proofs.Glsl.Comment
import ShaderReflection.Proofs.Glsl.Rendering
import ShaderReflection.Proofs.Glsl.DeclarationRow
import ShaderReflection.Proofs.Glsl.StructRow
import ShaderReflection.Proofs.Glsl.Recovery
import ShaderReflection.Proofs.Interface.Completion
import ShaderReflection.Proofs.Interface.Extension
import ShaderReflection.Proofs.Dump.Entry
import ShaderReflection.Proofs.Dump.Sections
import ShaderReflection.Proofs.Glsl.Spacing
import ShaderReflection.Proofs.Glsl.ClauseTokens
import ShaderReflection.Proofs.Glsl.ClauseRecovery
import ShaderReflection.Proofs.Glsl.Port
import ShaderReflection.Proofs.Dump.Comment
import ShaderReflection.Proofs.Dump.Agreement
import ShaderReflection.Proofs.Files.Pieces
import ShaderReflection.Proofs.Files.Tree
import ShaderReflection.Proofs.Files.Walk
import ShaderReflection.Proofs.Files.Directories
import ShaderReflection.Proofs.Files.Contents
import ShaderReflection.Proofs.Extraction.Verdict
import ShaderReflection.Proofs.Batch.Listing
import ShaderReflection.Proofs.Batch.Settling
import ShaderReflection.Proofs.Batch.Run
import ShaderReflection.Proofs.Batch.Rerun
import ShaderReflection.Proofs.Batch.Summary
import ShaderReflection.Proofs.Batch.Isolation
import ShaderReflection.Proofs.Dump.Separation
import ShaderReflection.Proofs.Interface.Leaves
import ShaderReflection.Proofs.Interface.Nesting
import ShaderReflection.Proofs.Document.Completeness
import ShaderReflection.Proofs.Interface.Names
import ShaderReflection.Proofs.Interface.Redefinition
import ShaderReflection.Proofs.Interface.Repetition
import ShaderReflection.Proofs.Glsl.Emission
import ShaderReflection.Proofs.Glsl.TokenPlaces
import ShaderReflection.Proofs.Glsl.DeclaredText
import ShaderReflection.Proofs.Glsl.Parameters
import ShaderReflection.Proofs.Glsl.StructNames
import ShaderReflection.Proofs.Interface.WellFormed
import ShaderReflection.Proofs.Glsl.ClauseLocation
import ShaderReflection.Proofs.Glsl.StructSeam
import ShaderReflection.Proofs.Glsl.StructLayout
import ShaderReflection.Proofs.Text.Place
import ShaderReflection.Proofs.Dump.Codes
import ShaderReflection.Proofs.Interface.Duplicates
import ShaderReflection.Proofs.Extraction.Warnings
import ShaderReflection.Proofs.Dump.Attribution
import ShaderReflection.Proofs.Binary64.Range
import ShaderReflection.Proofs.Json.Frame
import ShaderReflection.Proofs.Json.Focus
import ShaderReflection.Proofs.Json.Literal
import ShaderReflection.Proofs.Document.Spots
import ShaderReflection.Proofs.Document.Integers
import ShaderReflection.Proofs.Glsl.LineTokens
import ShaderReflection.Proofs.Glsl.StructSpans
import ShaderReflection.Proofs.Text.Bytes
import ShaderReflection.Proofs.Glsl.WordOffset
