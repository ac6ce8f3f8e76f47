import LineCalc.Session.Shared
import LineCalc.Token.Table
import LineCalc.Command.Program
import LineCalc.Command.Folder
import LineCalc.Terminal.Events
import LineCalc.Terminal.Screen
import LineCalc.Terminal.Surface
import LineCalc.Main
import LineCalc.Proofs.Formula
import LineCalc.Proofs.Grammar
import LineCalc.Proofs.Machine.Reduction
import LineCalc.Proofs.Machine.Steps
import LineCalc.Proofs.Machine.TreeValue
import LineCalc.Proofs.Machine.Arity
import LineCalc.Proofs.Machine.Substitution
import LineCalc.Proofs.Machine.Groups
import LineCalc.Proofs.Machine.Faults
import LineCalc.Proofs.Machine.Acceptance
import LineCalc.Proofs.Machine.Counting
import LineCalc.Proofs.Machine.Scopes
import LineCalc.Proofs.Agreement
import LineCalc.Proofs.Unknowns
import LineCalc.Proofs.Token.Lexeme
import LineCalc.Proofs.Token.Tokenization
import LineCalc.Proofs.Token.Cuts
import LineCalc.Proofs.Parens.Matching
import LineCalc.Proofs.Parens.Depth
import LineCalc.Proofs.Causes
import LineCalc.Proofs.Positions
import LineCalc.Proofs.Answer
import LineCalc.Proofs.Machine.Lockstep
import LineCalc.Proofs.Machine.Relocation
import LineCalc.Proofs.ZeroDivision
import LineCalc.Proofs.WellFormed
import LineCalc.Proofs.Spacing
import LineCalc.Proofs.Machine.Blame
import LineCalc.Proofs.Blame
import LineCalc.Proofs.History
import LineCalc.Proofs.Session
import LineCalc.Proofs.Session.Serial
import LineCalc.Proofs.Session.Threads
import LineCalc.Proofs.Session.LockOrder
import LineCalc.Proofs.Text.Lines
import LineCalc.Proofs.Text.Quoted
import LineCalc.Proofs.Text.Bytes
import LineCalc.Proofs.Token.Table
import LineCalc.Proofs.Session.Export
import LineCalc.Proofs.Terminal.Operations
import LineCalc.Proofs.Terminal.Offsets
import LineCalc.Proofs.Terminal.Zipper
import LineCalc.Proofs.Terminal.LiveAnswer
import LineCalc.Proofs.Terminal.Characters
import LineCalc.Proofs.Terminal.Events
import LineCalc.Proofs.Terminal.Surface
import LineCalc.Proofs.Terminal.Highlight
import LineCalc.Proofs.Command.Lines
import LineCalc.Proofs.Command.Dialogue
import LineCalc.Proofs.Command.Caret
import LineCalc.Proofs.Command.Forms
import LineCalc.Proofs.Decimal.Ratio
import LineCalc.Proofs.Decimal.Binary
import LineCalc.Proofs.Decimal.Float
import LineCalc.Proofs.Decimal.Nearest
import LineCalc.Proofs.Decimal.Digits
import LineCalc.Proofs.Decimal.Shortest
import LineCalc.Proofs.Decimal.Exact
import LineCalc.Proofs.Decimal.Display
import LineCalc.Proofs.Decimal.Retyped
import LineCalc.Proofs.Decimal.Limits
import LineCalc.Proofs.Json.Reader
import LineCalc.Proofs.Json.Grammar
import LineCalc.Proofs.Json.Scalars
import LineCalc.Proofs.Json.Written
import LineCalc.Proofs.Json.Layout
import LineCalc.Proofs.Json.Recovered
import LineCalc.Proofs.Command.Table
import LineCalc.Proofs.Yaml.Braces
import LineCalc.Proofs.Settings.Written
import LineCalc.Proofs.Command.Config
import LineCalc.Proofs.Command.Arguments
