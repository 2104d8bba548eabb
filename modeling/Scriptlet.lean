import Scriptlet.Tree.Build
import Scriptlet.Session.Highlight
import Scriptlet.CommandLine.Response
import Scriptlet.Main
import Scriptlet.Proofs.Evaluation.Containment
import Scriptlet.Proofs.Evaluation.Frame
import Scriptlet.Proofs.Evaluation.Safety
import Scriptlet.Proofs.Reader.RoundTrip
import Scriptlet.Proofs.Token.Lexing
import Scriptlet.Proofs.Reader.Accepts
import Scriptlet.Proofs.Reader.Order
import Scriptlet.Proofs.Evaluation.Limit
import Scriptlet.Proofs.Value.Embedding
import Scriptlet.Proofs.Store.Embedding
import Scriptlet.Proofs.Evaluation.Matching
import Scriptlet.Proofs.Evaluation.Embedded
import Scriptlet.Proofs.Evaluation.UnusedName
import Scriptlet.Proofs.Evaluation.Wrapping
import Scriptlet.Proofs.Evaluation.Range
import Scriptlet.Proofs.Evaluation.Identity
import Scriptlet.Proofs.Token.Seams
import Scriptlet.Proofs.Reader.Advances
import Scriptlet.Proofs.Reader.Completion
import Scriptlet.Proofs.Reader.FirstWrong
import Scriptlet.Proofs.Evaluation.Submissions
import Scriptlet.Proofs.Token.Overlap
import Scriptlet.Proofs.Session.Highlight
import Scriptlet.Proofs.Reader.Misread
import Scriptlet.Proofs.Session.Course
import Scriptlet.Proofs.Session.Isolation
import Scriptlet.Proofs.CommandLine.FrontEnds
import Scriptlet.Proofs.Evaluation.Alarm
import Scriptlet.Proofs.Store.Outward
import Scriptlet.Proofs.Evaluation.Grounding
import Scriptlet.Proofs.Evaluation.Signals
import Scriptlet.Proofs.Evaluation.Steady
import Scriptlet.Proofs.Number.Residue
import Scriptlet.Proofs.Evaluation.Arithmetic
import Scriptlet.Proofs.Evaluation.Division
import Scriptlet.Proofs.Evaluation.Typing
import Scriptlet.Proofs.Reader.Layout
import Scriptlet.Proofs.Evaluation.Blockless
import Scriptlet.Proofs.Reader.Juxtaposed
import Scriptlet.Proofs.Evaluation.HashLiteral
import Scriptlet.Proofs.Reader.Inspected
import Scriptlet.Proofs.Evaluation.Data
import Scriptlet.Proofs.Evaluation.Applying
import Scriptlet.Proofs.Store.Names
import Scriptlet.Proofs.Evaluation.Calling
import Scriptlet.Proofs.Evaluation.MapProgram
import Scriptlet.Proofs.Evaluation.Mapping
import Scriptlet.Proofs.Tree.Same
import Scriptlet.Proofs.Session.Partition
import Scriptlet.Proofs.CommandLine.SourceArgument
import Scriptlet.Proofs.Session.Evaluating
import Scriptlet.Proofs.Evaluation.ReadBack
import Scriptlet.Proofs.Store.History
import Scriptlet.Proofs.CommandLine.Arguments
import Scriptlet.Proofs.Evaluation.Arrays
