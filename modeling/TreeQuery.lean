import TreeQuery.Extension.Stock
import TreeQuery.Main
import TreeQuery.Session.Script
import TreeQuery.Sql.Document
import TreeQuery.Storage.Cell
import TreeQuery.Proofs.Sql.Reading
import TreeQuery.Proofs.Sql.Rendering
import TreeQuery.Proofs.Catalog.Answers
import TreeQuery.Proofs.Plan.FilterMeaning
import TreeQuery.Proofs.Plan.GatherRuns
import TreeQuery.Proofs.Plan.Gathering
import TreeQuery.Proofs.Plan.Building
import TreeQuery.Proofs.Catalog.Faithful
import TreeQuery.Proofs.Catalog.Transparency
import TreeQuery.Proofs.Session.NestedRecords
import TreeQuery.Proofs.Session.Sites
import TreeQuery.Proofs.Session.Preparing
import TreeQuery.Proofs.Session.Columns
import TreeQuery.Proofs.Session.Assembling
import TreeQuery.Proofs.Session.Fetching
import TreeQuery.Proofs.Session.ChildBuckets
import TreeQuery.Proofs.Session.Grouping
import TreeQuery.Proofs.Session.Attachment
import TreeQuery.Proofs.Session.Junctions
import TreeQuery.Proofs.Session.Depth
import TreeQuery.Proofs.Plan.Statements
import TreeQuery.Proofs.Session.Calls
import TreeQuery.Proofs.Session.WriteTasks
import TreeQuery.Proofs.Session.Guards
import TreeQuery.Proofs.Session.OpenTransactions
import TreeQuery.Proofs.Sql.Lexing
import TreeQuery.Proofs.Sql.ReadBack
import TreeQuery.Proofs.Sql.Numerals
import TreeQuery.Proofs.Sql.TokenText
import TreeQuery.Proofs.Sql.Spacing
import TreeQuery.Proofs.Sql.Wording
import TreeQuery.Proofs.Plan.PlannedText
import TreeQuery.Proofs.Plan.Failures
import TreeQuery.Proofs.Session.StatementCount
import TreeQuery.Proofs.Plan.Joins
import TreeQuery.Proofs.Sql.References
import TreeQuery.Proofs.Plan.Scope
import TreeQuery.Proofs.Plan.TableNames
import TreeQuery.Proofs.Session.Standing
import TreeQuery.Proofs.Session.KeptColumns
import TreeQuery.Proofs.Session.Exclusion
import TreeQuery.Proofs.Session.Aliases
import TreeQuery.Proofs.Catalog.Steady
import TreeQuery.Proofs.Plan.SteadyPlans
import TreeQuery.Proofs.Catalog.ListedKeys
import TreeQuery.Proofs.Session.KeyedQueries
import TreeQuery.Proofs.Session.PrimaryQuery
import TreeQuery.Proofs.Request.Documents
import TreeQuery.Proofs.Plan.NumericTests
import TreeQuery.Proofs.Plan.KeyBlind
import TreeQuery.Proofs.SideBySide
import TreeQuery.Proofs.Session.Validity
import TreeQuery.Proofs.Sql.Grouping
import TreeQuery.Proofs.Request.Formula
import TreeQuery.Proofs.Plan.Formulas
import TreeQuery.Proofs.Plan.CollectedClauses
import TreeQuery.Proofs.Plan.Negation
import TreeQuery.Proofs.Plan.Membership
import TreeQuery.Proofs.Plan.Substrings
import TreeQuery.Proofs.Session.Unflattening
import TreeQuery.Proofs.Session.Collapsing
import TreeQuery.Proofs.Catalog.LinkColumns
import TreeQuery.Proofs.Catalog.LinkAnswers
import TreeQuery.Proofs.Catalog.MutualLinks
import TreeQuery.Catalog.NumberedGraph
import TreeQuery.Proofs.FirstOccurrences
import TreeQuery.Proofs.Catalog.GraphAdditions
import TreeQuery.Proofs.Catalog.BuiltTables
import TreeQuery.Proofs.Catalog.TableOrder
import TreeQuery.Proofs.Plan.Insertions
import TreeQuery.Proofs.Sql.Paging
import TreeQuery.Proofs.Plan.CompleteStatements
import TreeQuery.Proofs.Catalog.Confined
import TreeQuery.Proofs.Plan.CompiledFilter
import TreeQuery.Proofs.Plan.Changes
import TreeQuery.Proofs.Session.PlannedCourses
import TreeQuery.Proofs.Session.RowUpdates
import TreeQuery.Proofs.Session.Replacements
import TreeQuery.Proofs.Session.JunctionQuery
import TreeQuery.Proofs.Storage.ForeignKeys
import TreeQuery.Proofs.Decimal.Layout
import TreeQuery.Proofs.Session.NumericKeys
import TreeQuery.Proofs.Session.Integers
import TreeQuery.Proofs.Path.RoundTrips
import TreeQuery.Proofs.Spans
import TreeQuery.Proofs.Settings.Expansion
import TreeQuery.Proofs.Plan.SortOrder
