import Scenario.Action
import Scenario.Action.Building
import Scenario.Action.CaseFlow
import Scenario.Action.Collection
import Scenario.Action.Mention
import Scenario.Action.Request
import Scenario.Action.Ticket
import Scenario.Action.Transaction
import Scenario.CommandLine.Arguments
import Scenario.CommandLine.Command
import Scenario.CommandLine.Directory
import Scenario.CommandLine.Report
import Scenario.Compile
import Scenario.Component
import Scenario.Component.Text
import Scenario.Component.Tree
import Scenario.Condition.Reading
import Scenario.Diagnostic
import Scenario.Fields
import Scenario.Json.Printer
import Scenario.Json.Reader
import Scenario.Main
import Scenario.Number
import Scenario.Options
import Scenario.Progress
import Scenario.Scope
import Scenario.Service
import Scenario.StaticValue
import Scenario.Store.Declaration
import Scenario.Syntax.Cursor
import Scenario.Syntax.Escape
import Scenario.Syntax.Lexeme
import Scenario.Syntax.Node
import Scenario.Syntax.Numeral
import Scenario.Syntax.Program
import Scenario.Syntax.TypeRules
import Scenario.Syntax.View
import Scenario.Syntax.Weight
import Scenario.Text.Blank
import Scenario.Text.Digit
import Scenario.Text.Printable
import Scenario.Text.Quoted
import Scenario.Text.Reference
import Scenario.Value
import Scenario.Wire.Documents
import Scenario.Proofs.Likeness
import Scenario.Proofs.Outcome
import Scenario.Proofs.Options
import Scenario.Proofs.References
import Scenario.Proofs.WrappedReadings
import Scenario.Proofs.Trees
import Scenario.Proofs.WellFormed
import Scenario.Proofs.Erasure
import Scenario.Proofs.Acceptance
import Scenario.Proofs.Inert
import Scenario.Proofs.Meaning
import Scenario.Proofs.EarlyReturn
import Scenario.Proofs.Nested
import Scenario.Proofs.Places
import Scenario.Proofs.Identity
import Scenario.Proofs.Sites
import Scenario.Proofs.Guards
import Scenario.Proofs.Lexical
import Scenario.Proofs.NestedFunctions
import Scenario.Proofs.WrappedParts
import Scenario.Proofs.WrappedActions
import Scenario.Proofs.Transparency
import Scenario.Proofs.Origins
import Scenario.Proofs.Props
import Scenario.Proofs.Metadata
import Scenario.Proofs.Assembling
import Scenario.Proofs.ShortForms
import Scenario.Proofs.StatementOrder
import Scenario.Proofs.ReservedNames
import Scenario.Proofs.ActionsInFull
import Scenario.Proofs.Spelling
import Scenario.Proofs.Conditions
import Scenario.Proofs.Decoding
import Scenario.Proofs.Exchange
import Scenario.Proofs.Destructuring
import Scenario.Proofs.FlatCode
import Scenario.Proofs.Silence
import Scenario.Proofs.DefaultClause
import Scenario.Proofs.Numbering
import Scenario.Proofs.Transactions
import Scenario.Proofs.Recasting
import Scenario.Proofs.RecastParts
import Scenario.Proofs.Revaluing
import Scenario.Proofs.MutationValues
import Scenario.Proofs.ValuePlaces
import Scenario.Proofs.Cleaning
import Scenario.Proofs.CleanedContent
import Scenario.Proofs.Escaping
import Scenario.Proofs.Literals
import Scenario.Proofs.Lookalikes
import Scenario.Proofs.MarkupText
import Scenario.Proofs.TextReferences
import Scenario.Proofs.Fragments
import Scenario.Proofs.Conformity
import Scenario.Proofs.Entries
import Scenario.Proofs.Rounding
import Scenario.Proofs.Numerals
