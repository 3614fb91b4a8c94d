import MarketdataProvider.Cache.CacheTexts
import MarketdataProvider.Cache.Local
import MarketdataProvider.Cache.TornWrites
import MarketdataProvider.Canonical.Acceptance
import MarketdataProvider.Canonical.Bar
import MarketdataProvider.Canonical.Copies
import MarketdataProvider.Canonical.Coverage
import MarketdataProvider.Canonical.Provider
import MarketdataProvider.Canonical.RawOrder
import MarketdataProvider.Canonical.Redelivery
import MarketdataProvider.Canonical.Snapshot
import MarketdataProvider.Canonical.Validation
import MarketdataProvider.Contracts.Calendar
import MarketdataProvider.Contracts.Periods
import MarketdataProvider.Core.Bar
import MarketdataProvider.Core.Decimal
import MarketdataProvider.Core.Exact
import MarketdataProvider.Core.Intervals
import MarketdataProvider.Core.Reference
import MarketdataProvider.Core.SymbolSplits
import MarketdataProvider.Core.Symbols
import MarketdataProvider.Core.Timeframe
import MarketdataProvider.Exchanges.ArchiveFetch
import MarketdataProvider.Exchanges.ArchiveFold
import MarketdataProvider.Exchanges.ArchiveGaps
import MarketdataProvider.Exchanges.ArchiveMerge
import MarketdataProvider.Exchanges.ArchivePeriods
import MarketdataProvider.Exchanges.BinanceArchive
import MarketdataProvider.Exchanges.BinanceKlines
import MarketdataProvider.Exchanges.BinanceTrades
import MarketdataProvider.Exchanges.BybitKlines
import MarketdataProvider.Exchanges.KlinePages
import MarketdataProvider.Exchanges.KlineRows
import MarketdataProvider.Exchanges.PageCursor
import MarketdataProvider.Footprint.Aggregate
import MarketdataProvider.Footprint.Conservation
import MarketdataProvider.Footprint.RawTrades
import MarketdataProvider.Footprint.Service
import MarketdataProvider.Foundation.Accumulate
import MarketdataProvider.Foundation.Cleanup
import MarketdataProvider.Foundation.Crash
import MarketdataProvider.Foundation.Csv
import MarketdataProvider.Foundation.CsvLine
import MarketdataProvider.Foundation.Directory
import MarketdataProvider.Foundation.Encoding
import MarketdataProvider.Foundation.Extents
import MarketdataProvider.Foundation.Grouping
import MarketdataProvider.Foundation.Json
import MarketdataProvider.Foundation.JsonObjects
import MarketdataProvider.Foundation.Mirrors
import MarketdataProvider.Foundation.Outcome
import MarketdataProvider.Foundation.Paging
import MarketdataProvider.Foundation.Raises
import MarketdataProvider.Foundation.Refinement
import MarketdataProvider.Foundation.Runs
import MarketdataProvider.Foundation.Sessions
import MarketdataProvider.Foundation.Sha256
import MarketdataProvider.Foundation.Spans
import MarketdataProvider.Foundation.Tally
import MarketdataProvider.Foundation.Tiling
import MarketdataProvider.Foundation.Trail
import MarketdataProvider.Foundation.WindowedMerge
import MarketdataProvider.Service.CandleAdapter
import MarketdataProvider.Service.Composition
import MarketdataProvider.Service.CoverageChecks
import MarketdataProvider.Service.DerivedBars
import MarketdataProvider.Service.Divisions
import MarketdataProvider.Service.FaithfulCalls
import MarketdataProvider.Service.FinalizedCandles
import MarketdataProvider.Service.MarketDataService
import MarketdataProvider.Service.OneCall
import MarketdataProvider.Service.OneGrid
import MarketdataProvider.Service.Sources
import MarketdataProvider.Service.StoreFiles
import MarketdataProvider.Store.Agreement
import MarketdataProvider.Store.AppendRecovery
import MarketdataProvider.Store.BulkMerge
import MarketdataProvider.Store.BulkWrite
import MarketdataProvider.Store.CandleStore
import MarketdataProvider.Store.CandleView
import MarketdataProvider.Store.ClosedPaths
import MarketdataProvider.Store.ClosedWrites
import MarketdataProvider.Store.FootprintWrites
import MarketdataProvider.Store.LegacyRollback
import MarketdataProvider.Store.LiveStore
import MarketdataProvider.Store.Openings
import MarketdataProvider.Store.PlainRows
import MarketdataProvider.Store.RangedRead
import MarketdataProvider.Store.RawBatches
import MarketdataProvider.Store.RawStore
import MarketdataProvider.Store.ReadersWriters
import MarketdataProvider.Store.Repair
import MarketdataProvider.Store.RepairConvergence
import MarketdataProvider.Store.ReplaceAtomicity
import MarketdataProvider.Store.ReplaceCommit
import MarketdataProvider.Store.ReplaceRecovery
import MarketdataProvider.Store.RoundTrip
import MarketdataProvider.Store.RowCodec
import MarketdataProvider.Store.SameCandle
import MarketdataProvider.Store.SegmentAppend
import MarketdataProvider.Store.SegmentChecksums
import MarketdataProvider.Store.SegmentCsv
import MarketdataProvider.Store.SegmentIntegrity
import MarketdataProvider.Store.SegmentMaintenance
import MarketdataProvider.Store.SegmentManifest
import MarketdataProvider.Store.SegmentRead
import MarketdataProvider.Store.SegmentReplace
import MarketdataProvider.Store.SegmentRows
import MarketdataProvider.Store.SegmentState
import MarketdataProvider.Store.SegmentStore
import MarketdataProvider.Store.SegmentTree
import MarketdataProvider.Store.SeriesFiles
import MarketdataProvider.Store.SeriesIsolation
import MarketdataProvider.Store.SeriesRefinement
import MarketdataProvider.Store.SeriesWrites
import MarketdataProvider.Store.StoredGeneration
import MarketdataProvider.Store.StoredRepair
import MarketdataProvider.Store.StreamReplace
import MarketdataProvider.Store.TailReader
import MarketdataProvider.Store.TailScan
import MarketdataProvider.Store.TamperEvidence
import MarketdataProvider.Streaming.Checkpoints
import MarketdataProvider.Streaming.Live
import MarketdataProvider.Streaming.OneKline
import MarketdataProvider.Streaming.QueueAccounting
import MarketdataProvider.Streaming.StreamedSeries
import MarketdataProvider.Streaming.Supervisor
