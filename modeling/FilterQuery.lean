import FilterQuery.Calendar.Date
import FilterQuery.Calendar.DateTime
import FilterQuery.Calendar.Item
import FilterQuery.Calendar.Rfc3339
import FilterQuery.Calendar.Time
import FilterQuery.Code.Bound
import FilterQuery.Code.Grammar
import FilterQuery.Code.Index
import FilterQuery.Code.Item
import FilterQuery.Code.Language
import FilterQuery.Code.Member
import FilterQuery.Code.Path
import FilterQuery.Code.Pattern
import FilterQuery.Code.Reader
import FilterQuery.Code.Record
import FilterQuery.Code.Signature
import FilterQuery.Code.Statement
import FilterQuery.Code.Token
import FilterQuery.Code.Token.Lexer
import FilterQuery.Code.Tree
import FilterQuery.Code.Type
import FilterQuery.Code.Value
import FilterQuery.Declaration.Enumeration
import FilterQuery.Declaration.Inference
import FilterQuery.Declaration.Options
import FilterQuery.Declaration.Parameters
import FilterQuery.Declaration.Record
import FilterQuery.Declaration.TypeExpr
import FilterQuery.Declaration.TypeExpr.Reader
import FilterQuery.Dialect
import FilterQuery.Error
import FilterQuery.Expression
import FilterQuery.Json
import FilterQuery.Json.Reader
import FilterQuery.Node
import FilterQuery.Node.Arguments
import FilterQuery.Node.Walk
import FilterQuery.Operator
import FilterQuery.Operator.Registry
import FilterQuery.Resolve
import FilterQuery.Resolve.Condition
import FilterQuery.Resolve.Leaf
import FilterQuery.Sample
import FilterQuery.Schema.Attribute
import FilterQuery.Schema.Cache
import FilterQuery.Schema.Codec
import FilterQuery.Schema.Entity
import FilterQuery.Schema.Family
import FilterQuery.Schema.Sample
import FilterQuery.Session
import FilterQuery.Settings
import FilterQuery.Settings.Access
import FilterQuery.Settings.Builder
import FilterQuery.Sql
import FilterQuery.Table
import FilterQuery.Text.Blank
import FilterQuery.Text.Dotted
import FilterQuery.Text.Printable
import FilterQuery.Text.Quoted
import FilterQuery.Text.Reader
import FilterQuery.Text.Unreserved
import FilterQuery.Token
import FilterQuery.Token.Lexer
import FilterQuery.Value
import FilterQuery.Value.BinaryFloat
import FilterQuery.Value.Codec
import FilterQuery.Value.Convert
import FilterQuery.Value.Integer
import FilterQuery.Value.Shortest
import FilterQuery.Value.Type
import FilterQuery.Value.Uuid
import FilterQuery.Proofs.Language.Lexemes
import FilterQuery.Proofs.Language.Moves
import FilterQuery.Proofs.Language.Phrase
import FilterQuery.Proofs.Language.Partial
import FilterQuery.Proofs.Language.Recognition
import FilterQuery.Proofs.Language.Canonical
import FilterQuery.Proofs.Language.Delimiting
import FilterQuery.Proofs.Language.Spelling
import FilterQuery.Proofs.Language.RoundTrip
import FilterQuery.Proofs.Language.Trees
import FilterQuery.Proofs.Language.Rereading
import FilterQuery.Proofs.Language.Joining
import FilterQuery.Proofs.Language.Restriction
import FilterQuery.Proofs.Language.Height
import FilterQuery.Proofs.Language.Stepping
import FilterQuery.Proofs.Language.Tiling
import FilterQuery.Proofs.Language.Failures
import FilterQuery.Proofs.Histories
import FilterQuery.Proofs.Resolve.Access
import FilterQuery.Proofs.Session.Access
import FilterQuery.Proofs.Resolve.Views
import FilterQuery.Proofs.Resolve.Meaning
import FilterQuery.Proofs.Resolve.Arguments
import FilterQuery.Proofs.Resolve.Secrecy
import FilterQuery.Proofs.Resolve.Skipping
import FilterQuery.Proofs.Resolve.Leaves
import FilterQuery.Proofs.Session.Caching
import FilterQuery.Proofs.Table.Entries
import FilterQuery.Proofs.Operator.Listing
import FilterQuery.Proofs.Operator.History
import FilterQuery.Proofs.Operator.Reachable
import FilterQuery.Proofs.Operator.Removal
import FilterQuery.Proofs.Node.Routes
import FilterQuery.Proofs.Resolve.Connected
import FilterQuery.Proofs.Resolve.Order
import FilterQuery.Proofs.Schema.Registration
import FilterQuery.Proofs.Declaration.References
import FilterQuery.Proofs.Json.Cutting
import FilterQuery.Proofs.Json.Rereading
import FilterQuery.Proofs.Value.RoundTrip
import FilterQuery.Proofs.Schema.RoundTrip
import FilterQuery.Proofs.Language.Outline
import FilterQuery.Proofs.Language.Viability
import FilterQuery.Proofs.Language.Scanning
import FilterQuery.Proofs.Language.Faults
import FilterQuery.Proofs.Language.Symbols
import FilterQuery.Proofs.Language.Reporting
import FilterQuery.Proofs.Language.Spacing
import FilterQuery.Proofs.Operator.Relisting
import FilterQuery.Proofs.Operator.Additions
import FilterQuery.Proofs.Settings.Building
import FilterQuery.Proofs.Settings.Predicates
import FilterQuery.Proofs.Resolve.Remapping
import FilterQuery.Proofs.Resolve.Rounds
import FilterQuery.Proofs.Resolve.Types
import FilterQuery.Proofs.Resolve.Grouping
import FilterQuery.Proofs.Table.Tally
import FilterQuery.Proofs.Node.Tallies
import FilterQuery.Proofs.Schema.Reachability
import FilterQuery.Proofs.Declaration.Wrappers
import FilterQuery.Proofs.Text.Digits
import FilterQuery.Proofs.Value.Integers
import FilterQuery.Proofs.Text.Reading
import FilterQuery.Proofs.Calendar.Days
import FilterQuery.Proofs.Calendar.Formats
import FilterQuery.Proofs.Calendar.RoundTrip
import FilterQuery.Proofs.Value.Rereading
import FilterQuery.Proofs.Value.Dates
