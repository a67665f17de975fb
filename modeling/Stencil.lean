import Stencil.Main
import Stencil.Proofs.Condition.Arguments
import Stencil.Proofs.Condition.Arithmetic
import Stencil.Proofs.Condition.Asking
import Stencil.Proofs.Condition.Brackets
import Stencil.Proofs.Condition.Coercion
import Stencil.Proofs.Condition.Conservation
import Stencil.Proofs.Condition.Height
import Stencil.Proofs.Condition.Layout
import Stencil.Proofs.Condition.Lossless
import Stencil.Proofs.Condition.Membership
import Stencil.Proofs.Condition.Negation
import Stencil.Proofs.Condition.Quoting
import Stencil.Proofs.Condition.Reading
import Stencil.Proofs.Condition.Running
import Stencil.Proofs.Condition.Scanning
import Stencil.Proofs.Condition.Tree
import Stencil.Proofs.Condition.Unmatched
import Stencil.Proofs.Condition.Vocabulary
import Stencil.Proofs.Input.Alike
import Stencil.Proofs.Input.CommentBody
import Stencil.Proofs.Input.Occurrence
import Stencil.Proofs.Input.Outside
import Stencil.Proofs.Input.Pushback
import Stencil.Proofs.Input.PushedLine
import Stencil.Proofs.Input.Ready
import Stencil.Proofs.Input.Remainder
import Stencil.Proofs.Input.Skipping
import Stencil.Proofs.Input.Stepwise
import Stencil.Proofs.Input.Terminator
import Stencil.Proofs.Input.Trivia
import Stencil.Proofs.Input.Unclosed
import Stencil.Proofs.Number.Decimal
import Stencil.Proofs.Pair.Grammar
import Stencil.Proofs.Pair.Unquoted
import Stencil.Proofs.Pair.Writing
import Stencil.Proofs.Script.Conduct
import Stencil.Proofs.Script.Outcome
import Stencil.Proofs.Script.Vocabulary
import Stencil.Proofs.Template.Agreement
import Stencil.Proofs.Template.Counting
import Stencil.Proofs.Template.Default
import Stencil.Proofs.Template.Deferral
import Stencil.Proofs.Template.Ending
import Stencil.Proofs.Template.EscapedKey
import Stencil.Proofs.Template.Escaping
import Stencil.Proofs.Template.Expansion
import Stencil.Proofs.Template.Extension
import Stencil.Proofs.Template.Marked
import Stencil.Proofs.Template.Marks
import Stencil.Proofs.Template.MatchingEnd
import Stencil.Proofs.Template.Nesting
import Stencil.Proofs.Template.Operand
import Stencil.Proofs.Template.OtherMarks
import Stencil.Proofs.Template.Outsider
import Stencil.Proofs.Template.Placeholder
import Stencil.Proofs.Template.Presence
import Stencil.Proofs.Template.Row
import Stencil.Proofs.Template.StandIn
import Stencil.Proofs.Template.Unrelated
import Stencil.Proofs.Template.Untouched
import Stencil.Proofs.Template.Vocabulary
import Stencil.Proofs.Template.Wording
import Stencil.Proofs.Text.Alphanumeric
import Stencil.Proofs.Text.Pieces
import Stencil.Proofs.Text.Spelling
import Stencil.Proofs.Text.Vocabulary
import Stencil.Proofs.Value.Printable
import Stencil.Proofs.Value.Strings
