import QuotedLisp.Main
import QuotedLisp.Scope.Operation
import QuotedLisp.Proofs.Results
import QuotedLisp.Proofs.Binary64.Exact
import QuotedLisp.Proofs.Decimal.RoundTrip
import QuotedLisp.Proofs.Text.Quoted
import QuotedLisp.Proofs.Token.Lexemes
import QuotedLisp.Proofs.Token.Tokens
import QuotedLisp.Proofs.Value.Grammar
import QuotedLisp.Proofs.Value.RoundTrip
import QuotedLisp.Proofs.Value.Regular
import QuotedLisp.Proofs.Eval.Arguments
import QuotedLisp.Proofs.Eval.Closure
import QuotedLisp.Proofs.Eval.Perform
import QuotedLisp.Proofs.Eval.Application
import QuotedLisp.Proofs.Eval.Writes
import QuotedLisp.Proofs.Eval.Errors
import QuotedLisp.Proofs.Eval.Failure
import QuotedLisp.Proofs.Eval.Normal
import QuotedLisp.Proofs.Scope.Workspace
import QuotedLisp.Proofs.Eval.Loading
import QuotedLisp.Proofs.Token.Pattern
import QuotedLisp.Proofs.Value.Derivation
import QuotedLisp.Proofs.Token.Language
import QuotedLisp.Proofs.Token.Munch
import QuotedLisp.Proofs.Eval.Allowance
import QuotedLisp.Proofs.Eval.Inclusion
import QuotedLisp.Proofs.Eval.Reachable
import QuotedLisp.Proofs.Eval.ReadBack
import QuotedLisp.Proofs.Eval.Formals
import QuotedLisp.Proofs.Scope.LiveChain
import QuotedLisp.Proofs.Scope.History
import QuotedLisp.Proofs.Value.Mention
import QuotedLisp.Proofs.Eval.Lockstep
import QuotedLisp.Proofs.Eval.Flattening
import QuotedLisp.Proofs.Eval.Unmentioned
import QuotedLisp.Proofs.Eval.Entering
import QuotedLisp.Proofs.Eval.Quoting
import QuotedLisp.Proofs.Text.BreakProperty
import QuotedLisp.Proofs.Text.Grapheme
import QuotedLisp.Proofs.Eval.Sequence
import QuotedLisp.Proofs.Eval.BigStep
import QuotedLisp.Proofs.Prelude.Definitions
import QuotedLisp.Proofs.Prelude.Lists
import QuotedLisp.Proofs.Binary64.Integer
import QuotedLisp.Proofs.Prelude.Indexing
import QuotedLisp.Proofs.Token.Layout
import QuotedLisp.Proofs.Value.Equality
import QuotedLisp.Proofs.Eval.Equality
import QuotedLisp.Proofs.Scope.Binding
import QuotedLisp.Proofs.Decimal.Overflow
import QuotedLisp.Proofs.Value.Faults
import QuotedLisp.Proofs.Value.Depth
import QuotedLisp.Proofs.Value.EndOfInput
import QuotedLisp.Proofs.Prelude.Definer
import QuotedLisp.Proofs.Eval.Grouping
import QuotedLisp.Proofs.Command.Precedence
import QuotedLisp.Proofs.Value.ClosingBracket
