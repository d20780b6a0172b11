import ByNeed.Text.Blank
import ByNeed.Text.Lines
import ByNeed.Text.Unprintable
import ByNeed.Text.Quoted
import ByNeed.Numeral
import ByNeed.Numeral.Setting
import ByNeed.Value
import ByNeed.Fault
import ByNeed.Store
import ByNeed.Apply
import ByNeed.Force
import ByNeed.Token
import ByNeed.TokenStream
import ByNeed.Environment
import ByNeed.Reader
import ByNeed.Definitions
import ByNeed.Builtins
import ByNeed.Tree
import ByNeed.Traversal
import ByNeed.Display
import ByNeed.Interpreter
import ByNeed.Event
import ByNeed.NestingLimit
import ByNeed.Session.Command
import ByNeed.Session.State
import ByNeed.Session.Execute
import ByNeed.Session
import ByNeed.Proofs.Reduction.Term
import ByNeed.Proofs.Reduction.Outcome
import ByNeed.Proofs.Reduction.Early
import ByNeed.Proofs.Reduction.Order
import ByNeed.Proofs.Reduction.Data
import ByNeed.Proofs.Expression
import ByNeed.Proofs.Computation
import ByNeed.Proofs.Evolution
import ByNeed.Proofs.Labels
import ByNeed.Proofs.Representation
import ByNeed.Proofs.Effect
import ByNeed.Proofs.Representation.Apply
import ByNeed.Proofs.Representation.Force
import ByNeed.Proofs.Representation.Traversal
import ByNeed.Proofs.Representation.Reader
import ByNeed.Proofs.Representation.Definitions
import ByNeed.Proofs.History
import ByNeed.Proofs.CallByName
import ByNeed.Proofs.Repetition
import ByNeed.Proofs.Progress
import ByNeed.Proofs.Steps
import ByNeed.Proofs.SingleForcing
import ByNeed.Proofs.Laziness
import ByNeed.Proofs.Grammar
import ByNeed.Proofs.Termination
import ByNeed.Proofs.Termination.Apply
import ByNeed.Proofs.Termination.Loading
import ByNeed.Proofs.ForcedData
import ByNeed.Proofs.Lexing
import ByNeed.Proofs.Bindings
import ByNeed.Proofs.RoundTrip
import ByNeed.Proofs.DisplayText
import ByNeed.Proofs.Respects
import ByNeed.Proofs.Bindings.Kept
import ByNeed.Proofs.Bindings.Log
import ByNeed.Proofs.Bindings.WriteOnce
import ByNeed.Proofs.Arithmetic.Formula
import ByNeed.Proofs.Arithmetic.Roles
import ByNeed.Proofs.Arithmetic
import ByNeed.Proofs.Rounds.Notes
import ByNeed.Proofs.Rounds.Rehearsal
import ByNeed.Proofs.Rounds.Mirror
import ByNeed.Proofs.Rounds.Retrace
import ByNeed.Proofs.Rounds
import ByNeed.Proofs.NilQuestion
import ByNeed.Proofs.FailedForcing
import ByNeed.Proofs.Termination.Depth
import ByNeed.Proofs.Deferral
import ByNeed.Proofs.Recursion.Recurrence
import ByNeed.Proofs.Recursion.Promises
import ByNeed.Proofs.Recursion
import ByNeed.Proofs.Traversals
import ByNeed.Proofs.Showing
import ByNeed.Proofs.Mentions
import ByNeed.Proofs.Batches
import ByNeed.Proofs.TokenStreams
import ByNeed.Proofs.Spines
import ByNeed.Proofs.Building
