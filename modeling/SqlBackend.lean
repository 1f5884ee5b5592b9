import SqlBackend.Text.Ascii
import SqlBackend.Text.Blank
import SqlBackend.Text.Replace
import SqlBackend.Text.Quoted
import SqlBackend.Decimal.Layout
import SqlBackend.Decimal.Numeral
import SqlBackend.Capabilities
import SqlBackend.TypeTemplate
import SqlBackend.Lock
import SqlBackend.Error
import SqlBackend.Function.Builtin
import SqlBackend.Statement.Basic
import SqlBackend.Render.Rendering
import SqlBackend.Render.RowPredicate
import SqlBackend.Settings.Spanner
import SqlBackend.Violation.SqlState
import SqlBackend.Violation.Spanner
import SqlBackend.Sequence
import SqlBackend.Component
import SqlBackend.ZoneOffset
import SqlBackend.Schema.Table
import SqlBackend.Dialect.LockClause
import SqlBackend.Render.Query
import SqlBackend.Render.Session
import SqlBackend.Schema.ForeignKey
import SqlBackend.Schema.Export
import SqlBackend.Schema.Command
import SqlBackend.Proofs.Render.Needs
import SqlBackend.Proofs.Render.AppendOnly
import SqlBackend.Proofs.Function.Unmarked
import SqlBackend.Settings.Document
import SqlBackend.Proofs.Render.Placeholders
import SqlBackend.Proofs.Predicate.Reading
import SqlBackend.Proofs.Predicate.Words
import SqlBackend.Proofs.Predicate.Emulation
import SqlBackend.Proofs.Render.Refusal
import SqlBackend.Proofs.Render.Styles
import SqlBackend.Proofs.Literal.Comments
import SqlBackend.Proofs.Predicate.Expansion
import SqlBackend.Proofs.Render.Targets
import SqlBackend.Proofs.Render.Features
import SqlBackend.Proofs.Function.Copies
import SqlBackend.Proofs.Render.Places
import SqlBackend.Proofs.Render.Parameters
import SqlBackend.Proofs.Rows.Expanded
import SqlBackend.Proofs.Rows.Refines
import SqlBackend.Proofs.Rows.Conditions
import SqlBackend.Proofs.Rows.Statements
import SqlBackend.Proofs.Bracket.Nesting
import SqlBackend.Proofs.Bracket.Writing
import SqlBackend.Proofs.Bracket.Backend
import SqlBackend.Proofs.Bracket.Clauses
import SqlBackend.Proofs.Bracket.Queries
import SqlBackend.Proofs.Bracket.Statements
import SqlBackend.Proofs.Pattern.Matching
import SqlBackend.Proofs.Schema.Commands
import SqlBackend.Proofs.Schema.Uniqueness
import SqlBackend.Proofs.Schema.Indexes
import SqlBackend.Proofs.Pattern.Written
import SqlBackend.Proofs.Schema.PrimaryKey
import SqlBackend.Proofs.Violation.Priority
import SqlBackend.Proofs.Function.Contained
import SqlBackend.Proofs.Aggregate.Calls
import SqlBackend.Proofs.Aggregate.Kept
import SqlBackend.Proofs.Aggregate.Filtered
import SqlBackend.Proofs.Text.Lowercase
import SqlBackend.Proofs.Pattern.IgnoringCase
import SqlBackend.Proofs.Schema.HiddenKey
import SqlBackend.Proofs.Schema.ForeignKeys
import SqlBackend.Proofs.Schema.Catalog
import SqlBackend.Proofs.Schema.CreateAndDrop
import SqlBackend.Proofs.Schema.StandardDrop
import SqlBackend.Proofs.Schema.Faults
import SqlBackend.Proofs.Schema.KeyNames
import SqlBackend.Proofs.Schema.References
import SqlBackend.Proofs.Text.Quotation
import SqlBackend.Proofs.Text.Replacement
import SqlBackend.Proofs.Schema.QuotedNames
import SqlBackend.Proofs.Violation.ForeignKeys
import SqlBackend.Proofs.Sequence.Bounds
import SqlBackend.Proofs.Component.Reading
import SqlBackend.Proofs.Component.Documents
import SqlBackend.Proofs.Component.Written
import SqlBackend.Proofs.Text.Parts
import SqlBackend.Proofs.Decimal.Numerals
import SqlBackend.Proofs.Settings.Versions
import SqlBackend.Proofs.Settings.Spelled
import SqlBackend.Proofs.ZoneOffset.Stored
import SqlBackend.Proofs.TypeTemplate.Capacities
import SqlBackend.Proofs.Entry.Last
import SqlBackend.Proofs.Capabilities.Overrides
import SqlBackend.Proofs.Function.Changes
import SqlBackend.Proofs.Function.Substitution
import SqlBackend.Proofs.TypeTemplate.Sizes
