import RunAlexDb.Access.AccountNames
import RunAlexDb.Access.AccountSlices
import RunAlexDb.Access.Accounts
import RunAlexDb.Access.Confinement
import RunAlexDb.Access.DroppedUsers
import RunAlexDb.Access.FirewallRules
import RunAlexDb.Access.Grants
import RunAlexDb.Access.Isolation
import RunAlexDb.Access.LockOwners
import RunAlexDb.Access.OpenedPorts
import RunAlexDb.Access.Passwords
import RunAlexDb.Access.ReadOnlyUsers
import RunAlexDb.Access.TableFree
import RunAlexDb.Lib.Calendar
import RunAlexDb.Lib.Calls
import RunAlexDb.Lib.Chains
import RunAlexDb.Lib.CharBoundaries
import RunAlexDb.Lib.Clusters
import RunAlexDb.Lib.Cursors
import RunAlexDb.Lib.Digits
import RunAlexDb.Lib.Exclusion
import RunAlexDb.Lib.Framing
import RunAlexDb.Lib.Groups
import RunAlexDb.Lib.HeaderBlocks
import RunAlexDb.Lib.Index
import RunAlexDb.Lib.Joins
import RunAlexDb.Lib.KeyedLists
import RunAlexDb.Lib.KeyedSorts
import RunAlexDb.Lib.Lanes
import RunAlexDb.Lib.Leases
import RunAlexDb.Lib.Literals
import RunAlexDb.Lib.Map
import RunAlexDb.Lib.Orderings
import RunAlexDb.Lib.Origins
import RunAlexDb.Lib.Prog
import RunAlexDb.Lib.QuotedTexts
import RunAlexDb.Lib.Slices
import RunAlexDb.Lib.Subtables
import RunAlexDb.Lib.Text
import RunAlexDb.Lib.ThreeValued
import RunAlexDb.Lib.TotalPreorders
import RunAlexDb.Lib.Trace
import RunAlexDb.Lib.Utf8
import RunAlexDb.Lib.Wildcards
import RunAlexDb.Lib.Windows
import RunAlexDb.Lib.Words
import RunAlexDb.Model.Aggregate
import RunAlexDb.Model.Ast
import RunAlexDb.Model.Auth
import RunAlexDb.Model.Avx2Scan
import RunAlexDb.Model.Concrete
import RunAlexDb.Model.Dates
import RunAlexDb.Model.Dump
import RunAlexDb.Model.Eval
import RunAlexDb.Model.Execute
import RunAlexDb.Model.Firewall
import RunAlexDb.Model.FirewallManager
import RunAlexDb.Model.Functions
import RunAlexDb.Model.Greeting
import RunAlexDb.Model.IcmpGuard
import RunAlexDb.Model.Persistence
import RunAlexDb.Model.Platform
import RunAlexDb.Model.Prepared
import RunAlexDb.Model.Protocol
import RunAlexDb.Model.ResultSet
import RunAlexDb.Model.Select
import RunAlexDb.Model.Server
import RunAlexDb.Model.SimdScan
import RunAlexDb.Model.Statements
import RunAlexDb.Model.TableOps
import RunAlexDb.Model.Types
import RunAlexDb.Model.Users
import RunAlexDb.Model.WebPages
import RunAlexDb.Model.WebUi
import RunAlexDb.Model.Wire
import RunAlexDb.Query.Aggregates
import RunAlexDb.Query.Applications
import RunAlexDb.Query.BoundParameters
import RunAlexDb.Query.ColumnReads
import RunAlexDb.Query.ColumnScan
import RunAlexDb.Query.DateFormats
import RunAlexDb.Query.DateIntervals
import RunAlexDb.Query.DateShifts
import RunAlexDb.Query.DayInverses
import RunAlexDb.Query.DayNames
import RunAlexDb.Query.DayNumbers
import RunAlexDb.Query.DerivedTables
import RunAlexDb.Query.DistinctRows
import RunAlexDb.Query.EvalFaults
import RunAlexDb.Query.Grouping
import RunAlexDb.Query.HavingAliases
import RunAlexDb.Query.JoinLoops
import RunAlexDb.Query.Joins
import RunAlexDb.Query.KeyLookup
import RunAlexDb.Query.LaneScans
import RunAlexDb.Query.LikePatterns
import RunAlexDb.Query.MonthShifts
import RunAlexDb.Query.Numbers
import RunAlexDb.Query.OrderedRows
import RunAlexDb.Query.Placeholders
import RunAlexDb.Query.Predicate
import RunAlexDb.Query.PreparedSelect
import RunAlexDb.Query.RowSelection
import RunAlexDb.Query.SelectLists
import RunAlexDb.Query.SetOperations
import RunAlexDb.Query.SortKeys
import RunAlexDb.Query.SpelledSelects
import RunAlexDb.Query.Spelling
import RunAlexDb.Query.Subqueries
import RunAlexDb.Query.TableQueries
import RunAlexDb.Query.ValueOrders
import RunAlexDb.Query.WhereTruth
import RunAlexDb.Query.WindowLaws
import RunAlexDb.Query.WindowQueries
import RunAlexDb.Query.Windows
import RunAlexDb.Session.AuthGate
import RunAlexDb.Session.BinaryParams
import RunAlexDb.Session.BoundTypes
import RunAlexDb.Session.CommandReplies
import RunAlexDb.Session.FirstPacket
import RunAlexDb.Session.LastInsertId
import RunAlexDb.Session.LoginRuns
import RunAlexDb.Session.Logins
import RunAlexDb.Session.PacketStream
import RunAlexDb.Session.ParamBounds
import RunAlexDb.Session.ParamTypes
import RunAlexDb.Session.PreparedCounts
import RunAlexDb.Session.ResultCache
import RunAlexDb.Session.ResultFraming
import RunAlexDb.Session.ResultPackets
import RunAlexDb.Session.ResultReads
import RunAlexDb.Session.Rollback
import RunAlexDb.Session.RowPayloads
import RunAlexDb.Session.Segmentation
import RunAlexDb.Session.SequenceIds
import RunAlexDb.Session.SharedEngine
import RunAlexDb.Session.StaleReads
import RunAlexDb.Session.Transactions
import RunAlexDb.Session.WebQueries
import RunAlexDb.Session.WebReplies
import RunAlexDb.Session.WebSessions
import RunAlexDb.Session.WriteGeneration
import RunAlexDb.Statement.Batches
import RunAlexDb.Statement.Calls
import RunAlexDb.Statement.ColumnNames
import RunAlexDb.Statement.Constants
import RunAlexDb.Statement.DumpLiterals
import RunAlexDb.Statement.DumpTexts
import RunAlexDb.Statement.Effects
import RunAlexDb.Statement.Failures
import RunAlexDb.Statement.InsertSelect
import RunAlexDb.Statement.Interception
import RunAlexDb.Statement.Outcomes
import RunAlexDb.Statement.ParseCache
import RunAlexDb.Statement.PreparedInsert
import RunAlexDb.Statement.PreparedText
import RunAlexDb.Statement.PreparedUpdate
import RunAlexDb.Statement.Reads
import RunAlexDb.Statement.RestoredTables
import RunAlexDb.Statement.RestoredTexts
import RunAlexDb.Statement.Runs
import RunAlexDb.Statement.StringParams
import RunAlexDb.Statement.TableNames
import RunAlexDb.Statement.Views
import RunAlexDb.Store.ActionSteps
import RunAlexDb.Store.Alterations
import RunAlexDb.Store.AutoIncrement
import RunAlexDb.Store.Checkpoints
import RunAlexDb.Store.ColumnStores
import RunAlexDb.Store.Consistency
import RunAlexDb.Store.Invariants
import RunAlexDb.Store.KeyUniqueness
import RunAlexDb.Store.KeyedTables
import RunAlexDb.Store.NewTables
import RunAlexDb.Store.PkIndex
import RunAlexDb.Store.Replacements
import RunAlexDb.Store.RowKeys
import RunAlexDb.Store.RowWidths
import RunAlexDb.Store.TableRuns
