import Pseudolang.Folder
import Pseudolang.Grammar.Unrolling
import Pseudolang.Main
import Pseudolang.Proofs.Callees
import Pseudolang.Proofs.Calls
import Pseudolang.Proofs.Caret
import Pseudolang.Proofs.Classification
import Pseudolang.Proofs.Consumption
import Pseudolang.Proofs.Depth
import Pseudolang.Proofs.Diagnosis
import Pseudolang.Proofs.EarliestError
import Pseudolang.Proofs.ExactPositions
import Pseudolang.Proofs.Grouped
import Pseudolang.Proofs.Isolation
import Pseudolang.Proofs.Layout
import Pseudolang.Proofs.LayoutIndependence
import Pseudolang.Proofs.Lexeme
import Pseudolang.Proofs.Lexing
import Pseudolang.Proofs.LineEndings
import Pseudolang.Proofs.Lines
import Pseudolang.Proofs.Lookahead
import Pseudolang.Proofs.Moving
import Pseudolang.Proofs.NestingBalance
import Pseudolang.Proofs.NestingRefusal
import Pseudolang.Proofs.Operands
import Pseudolang.Proofs.Outcomes
import Pseudolang.Proofs.Placement
import Pseudolang.Proofs.Precedence
import Pseudolang.Proofs.Precedence.Completeness
import Pseudolang.Proofs.Precedence.HigherPower
import Pseudolang.Proofs.Precedence.Soundness
import Pseudolang.Proofs.Precedence.ValidPrefix
import Pseudolang.Proofs.Printing
import Pseudolang.Proofs.Progress
import Pseudolang.Proofs.Relabelling
import Pseudolang.Proofs.Simulation
import Pseudolang.Proofs.Simulation.Grammar
import Pseudolang.Proofs.Spacing
import Pseudolang.Proofs.Statements
import Pseudolang.Proofs.Statements.Exactness
import Pseudolang.Proofs.Statements.Printing
import Pseudolang.Proofs.TokenDump
import Pseudolang.Proofs.Transport
import Pseudolang.Proofs.Truthfulness
import Pseudolang.Proofs.WindowView
