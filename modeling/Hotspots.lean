import Hotspots.CommandLine
import Hotspots.Config.Document
import Hotspots.Config.Folder
import Hotspots.Config.Settings
import Hotspots.Config.Sources
import Hotspots.Config.Stack
import Hotspots.ErrorClass
import Hotspots.Failure
import Hotspots.Git.Command
import Hotspots.Git.Reader
import Hotspots.Git.Recording
import Hotspots.Git.Transcript
import Hotspots.History.Change
import Hotspots.History.LineOverlap
import Hotspots.History.RawLog
import Hotspots.History.Renames
import Hotspots.History.Walk
import Hotspots.Logging
import Hotspots.Main
import Hotspots.Moment
import Hotspots.Number.Binary64
import Hotspots.Number.Decimal
import Hotspots.Number.Reading
import Hotspots.Number.Real
import Hotspots.Number.Writing
import Hotspots.Proofs.Config.Checks
import Hotspots.Proofs.Config.Domain
import Hotspots.Proofs.Config.LoadFailures
import Hotspots.Proofs.Config.Merging
import Hotspots.Proofs.Config.Priority
import Hotspots.Proofs.Git.AnnouncedSize
import Hotspots.Proofs.Git.Answered
import Hotspots.Proofs.Git.BlobRequests
import Hotspots.Proofs.Git.Calls
import Hotspots.Proofs.Git.CoveringWalk
import Hotspots.Proofs.Git.Described
import Hotspots.Proofs.Git.Exchange
import Hotspots.Proofs.Git.HeadAndRevision
import Hotspots.Proofs.Git.Header
import Hotspots.Proofs.Git.HistoryRepository
import Hotspots.Proofs.Git.Listed
import Hotspots.Proofs.Git.Logged
import Hotspots.Proofs.Git.Opening
import Hotspots.Proofs.Git.RawPaths
import Hotspots.Proofs.Git.Served
import Hotspots.Proofs.Git.Shown
import Hotspots.Proofs.Git.TwoReadings
import Hotspots.Proofs.Git.Undisturbed
import Hotspots.Proofs.Git.WellFormed
import Hotspots.Proofs.Git.Window
import Hotspots.Proofs.History.AlikeContents
import Hotspots.Proofs.History.ChangeCounts
import Hotspots.Proofs.History.CommutingChanges
import Hotspots.Proofs.History.CountedChanges
import Hotspots.Proofs.History.EditedMoves
import Hotspots.Proofs.History.EqualBlobs
import Hotspots.Proofs.History.FilledPaths
import Hotspots.Proofs.History.GrowingHistory
import Hotspots.Proofs.History.LaterWalk
import Hotspots.Proofs.History.ListingOrder
import Hotspots.Proofs.History.LiveIdentity
import Hotspots.Proofs.History.LiveRecords
import Hotspots.Proofs.History.Loading
import Hotspots.Proofs.History.LowerThreshold
import Hotspots.Proofs.History.MirroredWalks
import Hotspots.Proofs.History.MovedFiles
import Hotspots.Proofs.History.MovedRecords
import Hotspots.Proofs.History.OneChange
import Hotspots.Proofs.History.OpenPaths
import Hotspots.Proofs.History.OpenRecords
import Hotspots.Proofs.History.OverlapRatio
import Hotspots.Proofs.History.Pairing
import Hotspots.Proofs.History.PrintedLog
import Hotspots.Proofs.History.RatedPairs
import Hotspots.Proofs.History.RawDiff
import Hotspots.Proofs.History.Removals
import Hotspots.Proofs.History.SeparateFiles
import Hotspots.Proofs.History.SoundWalk
import Hotspots.Proofs.History.StableMatching
import Hotspots.Proofs.History.Tree
import Hotspots.Proofs.History.TreeHistory
import Hotspots.Proofs.History.TreeTracking
import Hotspots.Proofs.Number.Digits
import Hotspots.Proofs.Number.ExactWhole
import Hotspots.Proofs.Number.FiniteRange
import Hotspots.Proofs.Number.NearOne
import Hotspots.Proofs.Number.Rational
import Hotspots.Proofs.Number.RoundedOrder
import Hotspots.Proofs.Number.WholeRatio
import Hotspots.Proofs.Ranking.Admissible
import Hotspots.Proofs.Ranking.DenseCount
import Hotspots.Proofs.Ranking.DenseOrder
import Hotspots.Proofs.Ranking.Entries
import Hotspots.Proofs.Ranking.RealRanks
import Hotspots.Proofs.Ranking.Rescaled
import Hotspots.Proofs.Ranking.Tiers
import Hotspots.Proofs.Ranking.WeightedTiers
import Hotspots.Proofs.Record.Lookup
import Hotspots.Proofs.Report.CsvReading
import Hotspots.Proofs.Run.Ends
import Hotspots.Proofs.Run.Ensures
import Hotspots.Proofs.Run.Exec
import Hotspots.Proofs.Run.Follows
import Hotspots.Proofs.Run.Gives
import Hotspots.Proofs.Run.Projects
import Hotspots.Proofs.Run.Returns
import Hotspots.Proofs.Scan.AcceptedRule
import Hotspots.Proofs.Scan.Accesses
import Hotspots.Proofs.Scan.Accounts
import Hotspots.Proofs.Scan.CancelledScoring
import Hotspots.Proofs.Scan.Cohesion
import Hotspots.Proofs.Scan.Decisions
import Hotspots.Proofs.Scan.Findings
import Hotspots.Proofs.Scan.ForeignData
import Hotspots.Proofs.Scan.GodClassRule
import Hotspots.Proofs.Scan.Pool
import Hotspots.Proofs.Scan.StruckScoring
import Hotspots.Proofs.Scan.Tallies
import Hotspots.Proofs.Scan.TreePlaces
import Hotspots.Proofs.Scan.TreeSize
import Hotspots.Proofs.Text.Ascii
import Hotspots.Proofs.Text.Encoded
import Hotspots.Proofs.Text.Joined
import Hotspots.Proofs.Text.Lossy
import Hotspots.Proofs.Text.QuotedBytes
import Hotspots.Proofs.Text.QuotedPath
import Hotspots.Proofs.Text.SplitLines
import Hotspots.Proofs.Triage.AcceptedSettings
import Hotspots.Proofs.Triage.CancelledRun
import Hotspots.Proofs.Triage.CleanFailures
import Hotspots.Proofs.Triage.Inclusion
import Hotspots.Proofs.Triage.ScoreOrder
import Hotspots.Proofs.Triage.ShorterWindow
import Hotspots.Proofs.Triage.Snapshot
import Hotspots.Proofs.Triage.WorstClass
import Hotspots.Ranking.DenseRank
import Hotspots.Ranking.Worklist
import Hotspots.Record
import Hotspots.Report.Csv
import Hotspots.Report.Json
import Hotspots.Report.Markup
import Hotspots.Report.Table
import Hotspots.Report.Terminal
import Hotspots.Scan.ClassMetrics
import Hotspots.Scan.Finding
import Hotspots.Scan.GodClass
import Hotspots.Scan.Scorer
import Hotspots.Session
import Hotspots.Source.Expression
import Hotspots.Source.Grammar
import Hotspots.Source.Lexer
import Hotspots.Source.Numeral
import Hotspots.Source.Parse
import Hotspots.Source.Pattern
import Hotspots.Source.Statement
import Hotspots.Source.StringLiteral
import Hotspots.Source.Token
import Hotspots.Source.Tree
import Hotspots.Text.Blank
import Hotspots.Text.CQuoted
import Hotspots.Text.CellWidth
import Hotspots.Text.CodeRange
import Hotspots.Text.CombiningMark
import Hotspots.Text.Compatibility
import Hotspots.Text.DecimalDigit
import Hotspots.Text.Glob
import Hotspots.Text.Identifier
import Hotspots.Text.Lines
import Hotspots.Text.PathName
import Hotspots.Text.Pieces
import Hotspots.Text.Printable
import Hotspots.Text.Quoted
import Hotspots.Text.Utf8
import Hotspots.Triage
import Hotspots.Value
