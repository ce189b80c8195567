import Tabularium.Digest.Sha256
import Tabularium.Gateway.Access
import Tabularium.Gateway.Address
import Tabularium.Gateway.Client
import Tabularium.Gateway.Config
import Tabularium.Gateway.Dispatch
import Tabularium.Gateway.Endpoint
import Tabularium.Gateway.Environment
import Tabularium.Gateway.Error
import Tabularium.Gateway.Http
import Tabularium.Gateway.Route
import Tabularium.Gateway.Token
import Tabularium.Instant
import Tabularium.Json.Basic
import Tabularium.Json.Draft
import Tabularium.Json.Overlay
import Tabularium.Json.Printer
import Tabularium.Json.Reader
import Tabularium.Migration.Bundle
import Tabularium.Migration.Directory
import Tabularium.Migration.Drift
import Tabularium.Migration.Error
import Tabularium.Migration.Generate
import Tabularium.Migration.History
import Tabularium.Migration.Journal
import Tabularium.Migration.Run
import Tabularium.Migration.Source
import Tabularium.Numeric.Binary64
import Tabularium.Numeric.Integer
import Tabularium.Numeric.Layout
import Tabularium.Numeric.Shortest
import Tabularium.OrderedMap
import Tabularium.Proofs.Characters
import Tabularium.Proofs.Gateway.Authority
import Tabularium.Proofs.Gateway.Headers
import Tabularium.Proofs.Gateway.RefusedAnswers
import Tabularium.Proofs.Gateway.RequestReading
import Tabularium.Proofs.Gateway.ResultReading
import Tabularium.Proofs.Gateway.ServedNames
import Tabularium.Proofs.Gateway.TokenIntegrity
import Tabularium.Proofs.Gateway.TokenLifetime
import Tabularium.Proofs.Gateway.TokenValidation
import Tabularium.Proofs.Gateway.Transparency
import Tabularium.Proofs.InsertionOrder
import Tabularium.Proofs.Json.CompactRoundTrip
import Tabularium.Proofs.Json.Faithful
import Tabularium.Proofs.Json.NumberText
import Tabularium.Proofs.Json.PrettyRoundTrip
import Tabularium.Proofs.Json.RecordReading
import Tabularium.Proofs.Json.TextRoundTrip
import Tabularium.Proofs.Migration.BundleNumbering
import Tabularium.Proofs.Migration.DirectoryAccess
import Tabularium.Proofs.Migration.DriftReport
import Tabularium.Proofs.Migration.ExactlyOnce
import Tabularium.Proofs.Migration.Generation
import Tabularium.Proofs.Migration.HistoryStore
import Tabularium.Proofs.Migration.HistoryTable
import Tabularium.Proofs.Migration.InitialMigration
import Tabularium.Proofs.Migration.Replay
import Tabularium.Proofs.Migration.RunContract
import Tabularium.Proofs.Migration.RunCourse
import Tabularium.Proofs.Migration.Tag
import Tabularium.Proofs.Migration.Telescoping
import Tabularium.Proofs.Numeric.DecimalText
import Tabularium.Proofs.Numeric.IntegerText
import Tabularium.Proofs.Numeric.Nearest
import Tabularium.Proofs.Numeric.Numeral
import Tabularium.Proofs.Numeric.Rounding
import Tabularium.Proofs.Numeric.Scaling
import Tabularium.Proofs.Numeric.ShortestDecimal
import Tabularium.Proofs.OrderedMap
import Tabularium.Proofs.Outcome
import Tabularium.Proofs.Query.AcceptedConditions
import Tabularium.Proofs.Query.Building
import Tabularium.Proofs.Query.CommandReading
import Tabularium.Proofs.Query.FilterText
import Tabularium.Proofs.Query.FirstRow
import Tabularium.Proofs.Query.Inclusion
import Tabularium.Proofs.Query.Pages
import Tabularium.Proofs.Query.Paging
import Tabularium.Proofs.Query.SharedCondition
import Tabularium.Proofs.Query.StatementMarks
import Tabularium.Proofs.Query.StatementShape
import Tabularium.Proofs.Query.WhereMeaning
import Tabularium.Proofs.Query.WhereReading
import Tabularium.Proofs.Schema.Announcement
import Tabularium.Proofs.Schema.Catalog
import Tabularium.Proofs.Schema.ClauseGrammar
import Tabularium.Proofs.Schema.ClauseText
import Tabularium.Proofs.Schema.ColumnAddition
import Tabularium.Proofs.Schema.ColumnReading
import Tabularium.Proofs.Schema.ColumnText
import Tabularium.Proofs.Schema.Compilation
import Tabularium.Proofs.Schema.Compiled
import Tabularium.Proofs.Schema.Convergence
import Tabularium.Proofs.Schema.Creation
import Tabularium.Proofs.Schema.DefinitionDocument
import Tabularium.Proofs.Schema.EmptyDifference
import Tabularium.Proofs.Schema.GroupValues
import Tabularium.Proofs.Schema.IndexConvergence
import Tabularium.Proofs.Schema.IndexSpace
import Tabularium.Proofs.Schema.KeptValues
import Tabularium.Proofs.Schema.Lookup
import Tabularium.Proofs.Schema.MigrationScript
import Tabularium.Proofs.Schema.QuotedValues
import Tabularium.Proofs.Schema.RelationColumns
import Tabularium.Proofs.Schema.RelationPairs
import Tabularium.Proofs.Schema.ResolvedRelations
import Tabularium.Proofs.Schema.SelfDifference
import Tabularium.Proofs.Schema.Snapshot
import Tabularium.Proofs.Schema.StatementText
import Tabularium.Proofs.Schema.Succession
import Tabularium.Proofs.Schema.TableDifference
import Tabularium.Proofs.Schema.TokenPositions
import Tabularium.Proofs.Schema.TokenText
import Tabularium.Proofs.Schema.ValueListing
import Tabularium.Proofs.Sql.Composition
import Tabularium.Proofs.Sql.Names
import Tabularium.Proofs.Sql.Residue
import Tabularium.Proofs.Sql.Scanning
import Tabularium.Proofs.Sql.Splitting
import Tabularium.Proofs.Store.AdapterSelection
import Tabularium.Proofs.Store.Contract
import Tabularium.Proofs.Store.ProjectedRows
import Tabularium.Proofs.Store.ReportedRows
import Tabularium.Proofs.Store.SessionBookmarks
import Tabularium.Proofs.Text.Base64Coding
import Tabularium.Proofs.Text.Pieces
import Tabularium.Query.Basic
import Tabularium.Query.Condition
import Tabularium.Query.Error
import Tabularium.Query.Mutation
import Tabularium.Query.Related
import Tabularium.QueryResult
import Tabularium.Schema.Basic
import Tabularium.Schema.Column.Clause
import Tabularium.Schema.Column.Text
import Tabularium.Schema.Column.Token
import Tabularium.Schema.Ddl
import Tabularium.Schema.Definition
import Tabularium.Schema.Difference
import Tabularium.Schema.Document
import Tabularium.Schema.Error
import Tabularium.Schema.Relation
import Tabularium.Sql.Identifier
import Tabularium.Sql.Script
import Tabularium.Sql.Statement
import Tabularium.Sql.Value
import Tabularium.Store.Binding
import Tabularium.Store.Bookmark
import Tabularium.Store.Dialogue
import Tabularium.Store.Error
import Tabularium.Store.Operation
import Tabularium.Store.Session
import Tabularium.Text.Ascii
import Tabularium.Text.Base64
import Tabularium.Text.Blank
import Tabularium.Text.Escaped
import Tabularium.Text.Hexadecimal
import Tabularium.Text.Hidden
import Tabularium.Text.Pieces
import Tabularium.Text.Quoted
import Tabularium.Toml.Document
import Tabularium.Toml.Moment
import Tabularium.Toml.Number
import Tabularium.Toml.Table
import Tabularium.Toml.Text
