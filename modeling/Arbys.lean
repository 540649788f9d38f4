import Arbys.Lib.Dict
import Arbys.Lib.Runs
import Arbys.Lib.Clusters
import Arbys.Lib.Logged
import Arbys.Types
import Arbys.Fees
import Arbys.QuoteBook
import Arbys.Qty
import Arbys.PaperBroker
import Arbys.Movement
import Arbys.Equity
import Arbys.Ledger
import Arbys.ExecutionRouter
import Arbys.TicketAtomicity
import Arbys.ArbEngine
import Arbys.TwoLegTicket
import Arbys.EngineRuntime
import Arbys.Backtest
import Arbys.Cash
import Arbys.Persistence
import Arbys.Restart
import Arbys.AppState
import Arbys.TicketService
import Arbys.SettleServices
import Arbys.EventLoop
import Arbys.NoBuyAfterSettlement
import Arbys.PriceGuards
import Arbys.ExposureCap
import Arbys.Audit
import Arbys.PaidOnce
import Arbys.WrittenOff
import Arbys.Discovery.Games
import Arbys.Discovery.Matcher
import Arbys.Discovery.MatchGrouping
import Arbys.Discovery.FixtureId
import Arbys.Discovery.Teams
import Arbys.Discovery.Venues
import Arbys.Discovery.Kalshi
import Arbys.Discovery.PolymarketUs
import Arbys.Discovery.SpreadSides
import Arbys.Discovery.Service
import Arbys.Discovery.Completeness
import Arbys.TicketLedger
import Arbys.TicketScores
import Arbys.Publication
import Arbys.Lib.Gate
import Arbys.Drain
import Arbys.Monitored
import Arbys.Lib.WriteBehind
import Arbys.WriteOrder
import Arbys.AuditTrail
import Arbys.BestPair
import Arbys.QuoteHistory
import Arbys.CashLevelling
import Arbys.CompleteSet
import Arbys.Lib.DecimalArith
import Arbys.Adapters.FeedQuote
import Arbys.Adapters.PolymarketUs
import Arbys.Adapters.KalshiWs
import Arbys.Adapters.KalshiFeed
import Arbys.Adapters.KalshiNumericBook
import Arbys.Adapters.KalshiRest
import Arbys.Adapters.KalshiDecoders
import Arbys.Lib.ClusterTurns
import Arbys.Discovery.ExactPairs
import Arbys.SettlementAlgebra
import Arbys.LedgerQueries
import Arbys.LedgerPopulation
import Arbys.LedgerScorers
import Arbys.AutoSettleRuns
import Arbys.PinnedEvidence
import Arbys.Adapters.PolymarketUsWs
import Arbys.Lib.Budgets
import Arbys.Adapters.PolymarketUsShards
import Arbys.Adapters.Settlement
import Arbys.VenueSettlePass
import Arbys.VenueAnswers
import Arbys.ClosedBooks
import Arbys.DecimalEngine
import Arbys.Adapters.PolymarketUsPairs
import Arbys.Lib.Keyset
import Arbys.TicketPages
import Arbys.GroupIds
import Arbys.SyntheticIds
import Arbys.Subscriptions
import Arbys.Discovery.TeamTitles
import Arbys.Discovery.HeadToHead
import Arbys.Lib.Tally
import Arbys.Performance
import Arbys.Reconciliation
import Arbys.AccrualCurve
import Arbys.Discovery.InStep
import Arbys.StartTimes
import Arbys.Lib.InvertedIndex
import Arbys.OutcomeIndex
import Arbys.Discovery.TickerCodes
import Arbys.Solvency
import Arbys.Lib.Scaling
import Arbys.Sizing
import Arbys.AutoTrade
import Arbys.Lib.Hub
import Arbys.OpportunityFeed
import Arbys.AccountReset
import Arbys.Adapters.KalshiReconnect
import Arbys.Access
import Arbys.OutageWindow
import Arbys.Adapters.KalshiKey
import Arbys.Lib.Tables
import Arbys.Schema
import Arbys.SchemaWrites
import Arbys.SchemaRuns
import Arbys.SchemaGroups
import Arbys.SchemaListing
import Arbys.SchemaBook
import Arbys.SchemaLedger
