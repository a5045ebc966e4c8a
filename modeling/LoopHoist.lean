import LoopHoist.Analysis.Literals
import LoopHoist.Analysis.Names
import LoopHoist.Analysis.Purity
import LoopHoist.CommandLine.Arguments
import LoopHoist.CommandLine.Report
import LoopHoist.CommandLine.Run
import LoopHoist.Decimal.Numeral
import LoopHoist.Decimal.Shortest
import LoopHoist.Diagnostic
import LoopHoist.Document.Equality
import LoopHoist.Document.Fault
import LoopHoist.Document.Fields
import LoopHoist.Document.Group
import LoopHoist.Document.Kind
import LoopHoist.Document.Lowering
import LoopHoist.Document.Reader
import LoopHoist.Document.Text
import LoopHoist.Document.Tree
import LoopHoist.Document.Value
import LoopHoist.Document.Writer
import LoopHoist.Event
import LoopHoist.Failure
import LoopHoist.File
import LoopHoist.Hoisting.Extraction
import LoopHoist.Hoisting.Hoist
import LoopHoist.Json.Numeral
import LoopHoist.Json.Printer
import LoopHoist.Json.Text
import LoopHoist.Level
import LoopHoist.Loading
import LoopHoist.Main
import LoopHoist.Optimizer.Pass
import LoopHoist.Optimizer.Pipeline
import LoopHoist.Proofs.CommandLine.Files
import LoopHoist.Proofs.Document.Chains
import LoopHoist.Proofs.Document.Faults
import LoopHoist.Proofs.Document.Image
import LoopHoist.Proofs.Document.Integers
import LoopHoist.Proofs.Document.Lowered
import LoopHoist.Proofs.Document.Parts
import LoopHoist.Proofs.Document.Reading
import LoopHoist.Proofs.Document.Spelling
import LoopHoist.Proofs.Fragments
import LoopHoist.Proofs.Hoisting.Account
import LoopHoist.Proofs.Hoisting.Blocks
import LoopHoist.Proofs.Hoisting.Forecast
import LoopHoist.Proofs.Hoisting.Growth
import LoopHoist.Proofs.Hoisting.InOrder
import LoopHoist.Proofs.Hoisting.Inlining
import LoopHoist.Proofs.Hoisting.Literals
import LoopHoist.Proofs.Hoisting.Nesting
import LoopHoist.Proofs.Hoisting.Passed
import LoopHoist.Proofs.Hoisting.Rules
import LoopHoist.Proofs.Hoisting.Scope
import LoopHoist.Proofs.Hoisting.Shape
import LoopHoist.Proofs.Hoisting.Sharing
import LoopHoist.Proofs.Hoisting.Sites
import LoopHoist.Proofs.Hoisting.Takings
import LoopHoist.Proofs.Identifiers
import LoopHoist.Proofs.Meaning.Capture
import LoopHoist.Proofs.Meaning.Conduct
import LoopHoist.Proofs.Meaning.Dependence
import LoopHoist.Proofs.Meaning.Failure
import LoopHoist.Proofs.Meaning.Frame
import LoopHoist.Proofs.Meaning.Partial
import LoopHoist.Proofs.Meaning.Repeated
import LoopHoist.Proofs.Meaning.Runs
import LoopHoist.Proofs.Meaning.Shadowing
import LoopHoist.Proofs.Meaning.Store
import LoopHoist.Proofs.Meaning.Temporaries
import LoopHoist.Proofs.Optimizer.Calls
import LoopHoist.Proofs.Printing.Beginnings
import LoopHoist.Proofs.Printing.Canonical
import LoopHoist.Proofs.Printing.Grouping
import LoopHoist.Proofs.Printing.Parser
import LoopHoist.Proofs.Printing.Reading
import LoopHoist.Proofs.Printing.RoundTrip
import LoopHoist.Proofs.Printing.Unambiguous
import LoopHoist.Proofs.Sketch
import LoopHoist.Proofs.Spans
import LoopHoist.Settings
import LoopHoist.Span
import LoopHoist.Text.Quoted
import LoopHoist.Text.Shown
import LoopHoist.Triangle.Equality
import LoopHoist.Triangle.Outline
import LoopHoist.Triangle.Printer
import LoopHoist.Triangle.Terminal
import LoopHoist.Triangle.Tree
import LoopHoist.Yaml.Group
import LoopHoist.Yaml.Lexer
import LoopHoist.Yaml.Marked
import LoopHoist.Yaml.Node
import LoopHoist.Yaml.Resolution
import LoopHoist.Yaml.Scalar
import LoopHoist.Yaml.Token
