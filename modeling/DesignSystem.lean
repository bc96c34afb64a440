import DesignSystem.Check.Basic
import DesignSystem.Check.Contract
import DesignSystem.Check.Manifest
import DesignSystem.Check.Tokens
import DesignSystem.CommandLine.Command
import DesignSystem.CommandLine.Grammar
import DesignSystem.CommandLine.Run
import DesignSystem.Dict
import DesignSystem.Disk.Basic
import DesignSystem.Disk.Entry
import DesignSystem.Disk.Fault
import DesignSystem.Disk.Path
import DesignSystem.Failure
import DesignSystem.Issue
import DesignSystem.Json.Basic
import DesignSystem.Json.Display
import DesignSystem.Json.Pointer
import DesignSystem.Json.Reader
import DesignSystem.Json.Writer
import DesignSystem.Main
import DesignSystem.Model.Contract
import DesignSystem.Model.Decoded
import DesignSystem.Model.Manifest
import DesignSystem.Model.Tokens
import DesignSystem.Number.Basic
import DesignSystem.Number.Binary64
import DesignSystem.Number.Fault
import DesignSystem.Number.Shortest
import DesignSystem.Number.Spelled
import DesignSystem.Outcome
import DesignSystem.Proofs.Check.Cause
import DesignSystem.Proofs.Check.ContractCause
import DesignSystem.Proofs.Check.ContractShape
import DesignSystem.Proofs.Check.Entries
import DesignSystem.Proofs.Check.Phases
import DesignSystem.Proofs.Check.Reported
import DesignSystem.Proofs.Check.Shape
import DesignSystem.Proofs.Check.TokenShape
import DesignSystem.Proofs.Check.Totality
import DesignSystem.Proofs.Dict
import DesignSystem.Proofs.Disk.Absence
import DesignSystem.Proofs.Disk.Below
import DesignSystem.Proofs.Disk.Effect
import DesignSystem.Proofs.Disk.Listing
import DesignSystem.Proofs.Disk.Locality
import DesignSystem.Proofs.Disk.Overlong
import DesignSystem.Proofs.Disk.Overwrite
import DesignSystem.Proofs.Disk.Rewrite
import DesignSystem.Proofs.Disk.Spelling
import DesignSystem.Proofs.Disk.Tree
import DesignSystem.Proofs.Json.Encodable
import DesignSystem.Proofs.Json.Finite
import DesignSystem.Proofs.Json.Grammar
import DesignSystem.Proofs.Json.Lexical
import DesignSystem.Proofs.Json.LineEnds
import DesignSystem.Proofs.Json.Literal
import DesignSystem.Proofs.Json.Meaning
import DesignSystem.Proofs.Json.Numeral
import DesignSystem.Proofs.Json.Opening
import DesignSystem.Proofs.Json.Parsing
import DesignSystem.Proofs.Json.Parts
import DesignSystem.Proofs.Json.Pointer
import DesignSystem.Proofs.Json.PointerOrder
import DesignSystem.Proofs.Json.PointerTokens
import DesignSystem.Proofs.Json.Readable
import DesignSystem.Proofs.Json.Rendering
import DesignSystem.Proofs.Json.RoundTrip
import DesignSystem.Proofs.Model.Agreement
import DesignSystem.Proofs.Model.Contract
import DesignSystem.Proofs.Model.Layout
import DesignSystem.Proofs.Model.Origin
import DesignSystem.Proofs.Model.Reported
import DesignSystem.Proofs.Model.Settled
import DesignSystem.Proofs.Model.SettledContract
import DesignSystem.Proofs.Model.Taken
import DesignSystem.Proofs.Model.Written
import DesignSystem.Proofs.Number.Decimal
import DesignSystem.Proofs.Number.Denoted
import DesignSystem.Proofs.Number.Notation
import DesignSystem.Proofs.Number.Quotient
import DesignSystem.Proofs.Number.Range
import DesignSystem.Proofs.Number.Rendered
import DesignSystem.Proofs.Number.Rounding
import DesignSystem.Proofs.Number.Significant
import DesignSystem.Proofs.Outcome
import DesignSystem.Proofs.Text.Basic
import DesignSystem.Proofs.Text.Encoding
import DesignSystem.Proofs.Text.Joined
import DesignSystem.Proofs.Tokens.Compiled
import DesignSystem.Proofs.Tokens.CustomProperties
import DesignSystem.Proofs.Tokens.Dependence
import DesignSystem.Proofs.Tokens.Export
import DesignSystem.Proofs.Tokens.Meaning
import DesignSystem.Proofs.Tokens.ModuleLines
import DesignSystem.Proofs.Tokens.RemBase
import DesignSystem.Proofs.Tokens.RemMultiple
import DesignSystem.Proofs.Tokens.Safety
import DesignSystem.Proofs.Tool.Agreement
import DesignSystem.Proofs.Tool.Answer
import DesignSystem.Proofs.Usage
import DesignSystem.Proofs.Usage.Report
import DesignSystem.Proofs.Workspace.Classification
import DesignSystem.Proofs.Workspace.Completeness
import DesignSystem.Proofs.Workspace.ComponentName
import DesignSystem.Proofs.Workspace.Confinement
import DesignSystem.Proofs.Workspace.Consistency
import DesignSystem.Proofs.Workspace.Declared
import DesignSystem.Proofs.Workspace.Location
import DesignSystem.Proofs.Workspace.Naming
import DesignSystem.Proofs.Workspace.Operation
import DesignSystem.Proofs.Workspace.Readable
import DesignSystem.Proofs.Workspace.Rejected
import DesignSystem.Proofs.Workspace.Report
import DesignSystem.Proofs.Workspace.Rules
import DesignSystem.Proofs.Workspace.Scaffold
import DesignSystem.Proofs.Workspace.Settled
import DesignSystem.Proofs.Workspace.Slot
import DesignSystem.Proofs.Workspace.Soundness
import DesignSystem.Proofs.Workspace.Spelling
import DesignSystem.Proofs.Workspace.Starter
import DesignSystem.Proofs.Workspace.Validity
import DesignSystem.Proofs.Workspace.Views
import DesignSystem.Proofs.Workspace.Write
import DesignSystem.Schema
import DesignSystem.Text.Basic
import DesignSystem.Text.Digit
import DesignSystem.Text.Newline
import DesignSystem.Text.Printable
import DesignSystem.Text.Quoted
import DesignSystem.Text.Utf8
import DesignSystem.Tokens.Compile
import DesignSystem.Tokens.Export
import DesignSystem.Tool
import DesignSystem.Usage
import DesignSystem.Vocabulary
import DesignSystem.Workspace.Basic
import DesignSystem.Workspace.Scaffold
import DesignSystem.Workspace.Slot
import DesignSystem.Workspace.Starter
import DesignSystem.Workspace.Validation
import DesignSystem.Workspace.Views
