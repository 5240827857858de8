import LibSurvey.Arguments
import LibSurvey.Binary
import LibSurvey.Cancellation
import LibSurvey.Command
import LibSurvey.Config
import LibSurvey.Constant.Evaluate
import LibSurvey.Constant.Literal
import LibSurvey.DebugInfo.Category
import LibSurvey.DebugInfo.Extraction
import LibSurvey.DebugInfo.TypeGraph
import LibSurvey.Demand
import LibSurvey.Demangle
import LibSurvey.Demangle.Legacy
import LibSurvey.Demangle.Punycode
import LibSurvey.Demangle.V0.Cursor
import LibSurvey.Demangle.V0.Printer
import LibSurvey.Diagnostics
import LibSurvey.Document
import LibSurvey.Dwarf.Abbreviation
import LibSurvey.Dwarf.Entry
import LibSurvey.Dwarf.Fault
import LibSurvey.Dwarf.LineTable
import LibSurvey.Dwarf.Reader
import LibSurvey.Dwarf.Signatures
import LibSurvey.Dwarf.Unit
import LibSurvey.Dwarf.UnitHeader
import LibSurvey.Dwarf.Value
import LibSurvey.Environment
import LibSurvey.Export
import LibSurvey.Failure
import LibSurvey.FileTree
import LibSurvey.FoundFunction
import LibSurvey.Header.Annotations
import LibSurvey.Header.Declarations
import LibSurvey.Header.Directive
import LibSurvey.Header.Emission
import LibSurvey.Header.Findings
import LibSurvey.Header.Line.Directive
import LibSurvey.Header.Line.Enumeration
import LibSurvey.Header.Line.Logical
import LibSurvey.Header.Line.Prototype
import LibSurvey.Header.Line.Scan
import LibSurvey.Header.Line.Word
import LibSurvey.Header.Prototype
import LibSurvey.Header.Session
import LibSurvey.Header.Token
import LibSurvey.Header.Token.Lexer
import LibSurvey.LibraryName
import LibSurvey.Locate
import LibSurvey.Log
import LibSurvey.Main
import LibSurvey.Merge
import LibSurvey.Object.Basic
import LibSurvey.Object.Bytes
import LibSurvey.Object.Coff
import LibSurvey.Object.Elf
import LibSurvey.Object.Inflate
import LibSurvey.Object.MachO
import LibSurvey.Object.Open
import LibSurvey.OsError
import LibSurvey.Path
import LibSurvey.Preprocess
import LibSurvey.Proofs.Constant.Clear
import LibSurvey.Proofs.Constant.Grammar
import LibSurvey.Proofs.Constant.Literal
import LibSurvey.Proofs.Constant.Tree
import LibSurvey.Proofs.Text.Spaced
import LibSurvey.Proofs.Word
import LibSurvey.Report.Document
import LibSurvey.Report.Listing
import LibSurvey.Script.Expand
import LibSurvey.Script.Format
import LibSurvey.Script.Lexer
import LibSurvey.Script.Parser
import LibSurvey.Script.Programs
import LibSurvey.Script.Run
import LibSurvey.Script.Sum
import LibSurvey.Script.Syntax
import LibSurvey.SearchPaths
import LibSurvey.Signature
import LibSurvey.SignatureSet
import LibSurvey.Survey
import LibSurvey.Text.Blank
import LibSurvey.Text.CaseTable
import LibSurvey.Text.Casing
import LibSurvey.Text.Distinct
import LibSurvey.Text.Duration
import LibSurvey.Text.Natural
import LibSurvey.Text.Utf8
import LibSurvey.Text.Visible
import LibSurvey.Text.WordChar
import LibSurvey.Tool
import LibSurvey.Word
import LibSurvey.Proofs.Constant.Meaning
import LibSurvey.Proofs.Merge
import LibSurvey.Proofs.Walk.Reach
import LibSurvey.Proofs.Findings
import LibSurvey.Proofs.Walk.History
import LibSurvey.Proofs.Text.Split
import LibSurvey.Proofs.Walk.Complete
import LibSurvey.Proofs.Walk.Limit
import LibSurvey.Proofs.Findings.History
import LibSurvey.Proofs.Prototype.Canonical
import LibSurvey.Proofs.Agreement.Directives
import LibSurvey.Proofs.Agreement.Prototypes
import LibSurvey.Proofs.Survey.Shape
import LibSurvey.Proofs.Survey.Silent
import LibSurvey.Proofs.Token.Printed
import LibSurvey.Proofs.Survey.Cancelled
import LibSurvey.Proofs.Survey.Kept
import LibSurvey.Proofs.Declarations.Blocks
import LibSurvey.Proofs.Declarations.Bodies
import LibSurvey.Proofs.Declarations.Directives
import LibSurvey.Proofs.Prototype.Noise
import LibSurvey.Proofs.Constant.Known
import LibSurvey.Proofs.Walk.Agreement
import LibSurvey.Proofs.DebugInfo.Chain
import LibSurvey.Proofs.DebugInfo.Remembered
import LibSurvey.Proofs.DebugInfo.Independent
import LibSurvey.Proofs.Constant.Numeral
import LibSurvey.Proofs.Constant.Substitution
import LibSurvey.Proofs.Declarations.Enumerations
import LibSurvey.Proofs.Agreement.Enumerations
import LibSurvey.Proofs.Prototype.Arrays
import LibSurvey.Proofs.Token.Endings
import LibSurvey.Proofs.Constant.Joined
import LibSurvey.Proofs.Line.ReturnType
import LibSurvey.Proofs.Line.Wrapped
import LibSurvey.Proofs.Agreement.Callbacks
import LibSurvey.Proofs.Agreement.Comments
import LibSurvey.Proofs.SearchPaths.Flags
import LibSurvey.Proofs.SearchPaths.MainHeader
import LibSurvey.Proofs.Exports
import LibSurvey.Proofs.DebugInfo.Resolution
import LibSurvey.Proofs.DebugInfo.Definitions
import LibSurvey.Proofs.DebugInfo.Functions
import LibSurvey.Proofs.Merge.Arithmetic
