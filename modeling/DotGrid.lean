import DotGrid.Archive.Grid
import DotGrid.Command.Run
import DotGrid.Config.File
import DotGrid.Config.Request
import DotGrid.Evaluation.DotFunction
import DotGrid.Frame.Drawing
import DotGrid.Frame.Sequence
import DotGrid.Log.Setup
import DotGrid.Main
import DotGrid.Syntax.Source
import DotGrid.Value.Functions
import DotGrid.Yaml.Load
import DotGrid.Proofs.Grammar.Basic
import DotGrid.Proofs.Parser.Outcome
import DotGrid.Proofs.Parser.Soundness
import DotGrid.Proofs.Parser.Coupling
import DotGrid.Proofs.Parser.Budget
import DotGrid.Proofs.Parser.Completeness
import DotGrid.Proofs.Parser.Exactness
import DotGrid.Proofs.Parser.Prefix
import DotGrid.Proofs.Printer
import DotGrid.Proofs.Scanner.Segmentation
import DotGrid.Proofs.Double.Rounding
import DotGrid.Proofs.Leaves
import DotGrid.Proofs.Double.Arithmetic
import DotGrid.Proofs.Approximant.Bounds
import DotGrid.Proofs.Double.Elementary
import DotGrid.Proofs.Value.Answers
import DotGrid.Proofs.Value.Logarithm
import DotGrid.Proofs.Value.Functions
import DotGrid.Proofs.Scanner.Literals
import DotGrid.Proofs.Evaluation.Answers
import DotGrid.Proofs.Distinct
import DotGrid.Proofs.Value.Faults
import DotGrid.Proofs.Evaluation.Names
import DotGrid.Proofs.Evaluation.Dependence
import DotGrid.Proofs.Pool
import DotGrid.Proofs.Frame.Batches
import DotGrid.Proofs.Frame.Clamping
import DotGrid.Proofs.Nesting
import DotGrid.Proofs.Log.Emission
import DotGrid.Proofs.Command.Run
import DotGrid.Proofs.Inlining
import DotGrid.Proofs.Double.Exact
import DotGrid.Proofs.Value.Rounding
import DotGrid.Proofs.Value.Words
import DotGrid.Proofs.Frame.Glyphs
import DotGrid.Proofs.Scanner.Faults
import DotGrid.Proofs.Scanner.Spacing
import DotGrid.Proofs.Frame.Sampling
import DotGrid.Proofs.Decimal.Value
import DotGrid.Proofs.Decimal.Shortest
import DotGrid.Proofs.Decimal.Text
import DotGrid.Proofs.Text.Quoted
import DotGrid.Proofs.Value.Reports
import DotGrid.Proofs.Parser.Cursor
import DotGrid.Proofs.Config.Offences
import DotGrid.Proofs.Config.Subjects
import DotGrid.Proofs.Config.Report
import DotGrid.Proofs.Config.Exactness
import DotGrid.Proofs.Command.Overrides
import DotGrid.Proofs.Double.Nearest
import DotGrid.Proofs.Scanner.Numerals
import DotGrid.Proofs.Double.Order
import DotGrid.Proofs.Value.Extremes
import DotGrid.Proofs.Evaluation.Division
import DotGrid.Proofs.Evaluation.Logic
import DotGrid.Proofs.Grammar.Flat
import DotGrid.Proofs.Parser.Depth
import DotGrid.Proofs.Value.Mismatches
