import RelaySql.Arguments
import RelaySql.Base64
import RelaySql.Cursor
import RelaySql.Decimal.Basic
import RelaySql.Decimal.Binary64
import RelaySql.Decimal.Layout
import RelaySql.Decimal.Shortest
import RelaySql.Fault
import RelaySql.Fields
import RelaySql.Graph.Document
import RelaySql.Graph.Execution
import RelaySql.Graph.Loading
import RelaySql.Graph.Lookahead
import RelaySql.Graph.Pages
import RelaySql.Graph.Schema
import RelaySql.Graph.Selection
import RelaySql.Graph.TypeRef
import RelaySql.Input
import RelaySql.Json.Basic
import RelaySql.Json.Number
import RelaySql.Json.Printer
import RelaySql.Json.Reader
import RelaySql.Page.Connection
import RelaySql.Page.Request
import RelaySql.Page.Window
import RelaySql.Proofs.Base64
import RelaySql.Proofs.Cursor
import RelaySql.Proofs.Fields
import RelaySql.Proofs.Graph.Alone
import RelaySql.Proofs.Graph.Answers
import RelaySql.Proofs.Graph.Beside
import RelaySql.Proofs.Graph.Covered
import RelaySql.Proofs.Graph.Executed
import RelaySql.Proofs.Graph.Failing
import RelaySql.Proofs.Graph.Follows
import RelaySql.Proofs.Graph.Isolated
import RelaySql.Proofs.Graph.Issued
import RelaySql.Proofs.Graph.Layers
import RelaySql.Proofs.Graph.NullKeys
import RelaySql.Proofs.Graph.OwnArguments
import RelaySql.Proofs.Graph.Paired
import RelaySql.Proofs.Graph.Planned
import RelaySql.Proofs.Graph.Reading
import RelaySql.Proofs.Graph.Scopes
import RelaySql.Proofs.Graph.Shown
import RelaySql.Proofs.Graph.SingleRows
import RelaySql.Proofs.Graph.Spared
import RelaySql.Proofs.Graph.Stored
import RelaySql.Proofs.Graph.Valid
import RelaySql.Proofs.Outcome
import RelaySql.Proofs.Page.Accepted
import RelaySql.Proofs.Page.Answered
import RelaySql.Proofs.Page.Bounds
import RelaySql.Proofs.Page.CountedBack
import RelaySql.Proofs.Page.Edges
import RelaySql.Proofs.Page.EmptyWindow
import RelaySql.Proofs.Page.Fetched
import RelaySql.Proofs.Page.Info
import RelaySql.Proofs.Page.Learned
import RelaySql.Proofs.Page.Policy
import RelaySql.Proofs.Page.Slice
import RelaySql.Proofs.Page.Sufficient
import RelaySql.Proofs.Page.Totals
import RelaySql.Proofs.Page.Visits
import RelaySql.Proofs.Page.Walk
import RelaySql.Proofs.Page.Whole
import RelaySql.Proofs.Resolver.Compose
import RelaySql.Proofs.Resolver.EmptyPages
import RelaySql.Proofs.Resolver.Groups
import RelaySql.Proofs.Resolver.KeyList
import RelaySql.Proofs.Resolver.Keyed
import RelaySql.Proofs.Resolver.Keys
import RelaySql.Proofs.Resolver.PerParent
import RelaySql.Proofs.Resolver.Shape
import RelaySql.Proofs.Resolver.WellFormed
import RelaySql.Proofs.Run
import RelaySql.Proofs.Settings.Diagnostics
import RelaySql.Proofs.Settings.Layers
import RelaySql.Proofs.Settings.References
import RelaySql.Proofs.Settings.RoundTrip
import RelaySql.Proofs.Source.Children
import RelaySql.Proofs.Source.Rows
import RelaySql.Proofs.Sql.Lexer
import RelaySql.Proofs.Sql.Literal
import RelaySql.Proofs.Sql.Ordering
import RelaySql.Proofs.Sql.Window
import RelaySql.Proofs.Text.Quoted
import RelaySql.Proofs.Url.Credentials
import RelaySql.Proofs.Url.Parts
import RelaySql.Proofs.Url.Percent
import RelaySql.Resolver.Basic
import RelaySql.Resolver.Batch
import RelaySql.Resolver.Compose
import RelaySql.Resolver.Condition
import RelaySql.Resolver.Resolution
import RelaySql.Resolver.Resolve
import RelaySql.Settings.Basic
import RelaySql.Settings.CommandLine
import RelaySql.Settings.Connection
import RelaySql.Settings.Database
import RelaySql.Settings.Environment
import RelaySql.Settings.File
import RelaySql.Settings.Logging
import RelaySql.Settings.Retry
import RelaySql.Source
import RelaySql.Sql.Internal
import RelaySql.Sql.Literal
import RelaySql.Sql.Order
import RelaySql.Sql.Statement
import RelaySql.Text.Blank
import RelaySql.Text.Printable
import RelaySql.Text.Quoted
import RelaySql.Trace
import RelaySql.Url.Basic
import RelaySql.Url.Ipv6
import RelaySql.Url.Path
import RelaySql.Url.Percent
import RelaySql.Yaml.Document
import RelaySql.Yaml.Token
import RelaySql.Yaml.Value
