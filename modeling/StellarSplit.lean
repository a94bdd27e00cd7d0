import StellarSplit.Lib.Call
import StellarSplit.Lib.KeyMap
import StellarSplit.Lib.Totals
import StellarSplit.Host
import StellarSplit.Movements
import StellarSplit.Escrow.Types
import StellarSplit.Escrow.Contract
import StellarSplit.Escrow.Books
import StellarSplit.Escrow.Gates
import StellarSplit.Escrow.Solvency
import StellarSplit.Escrow.Settlement
import StellarSplit.Escrow.Bans
import StellarSplit.Escrow.Balance
import StellarSplit.Escrow.Grace
import StellarSplit.Split.Settled
import StellarSplit.Split.Votes
import StellarSplit.Split.Volume
import StellarSplit.Split.Claims
import StellarSplit.Split.Milestones
import StellarSplit.Split.Alignment
import StellarSplit.Split.Succession
import StellarSplit.Split.PayerBooks
import StellarSplit.Split.Clones
import StellarSplit.Split.Tranches
import StellarSplit.Split.Shards
import StellarSplit.Split.ReleaseGates
import StellarSplit.Split.Pools
import StellarSplit.Split.Backing
import StellarSplit.Split.Velocity
import StellarSplit.Split.Tracking
import StellarSplit.Split.Schema
import StellarSplit.Split.Tiers
import StellarSplit.Split.Archival
import StellarSplit.Split.Legacy
import StellarSplit.Split.Releasable
import StellarSplit.Split.PayerDisputes
import StellarSplit.Split.Currency
import StellarSplit.Split.Multisig
import StellarSplit.Split.Undo
import StellarSplit.Split.Breaker
import StellarSplit.Split.Waivers
import StellarSplit.Split.Timelock
import StellarSplit.Split.Pagination
import StellarSplit.Split.PaymentWindows
import StellarSplit.Split.RecipientReads
import StellarSplit.Split.Subscriptions
import StellarSplit.Split.Batches
import StellarSplit.Split.OpenCount
import StellarSplit.Split.Verification
import StellarSplit.Split.Roles
import StellarSplit.CharitySplit.Conservation
import StellarSplit.Split.Upgrade
import StellarSplit.Split.Emergency
import StellarSplit.Split.Insurance
import StellarSplit.Split.SidePools
import StellarSplit.CarbonCredit.Credits
import StellarSplit.SkillVerification.Justification
import StellarSplit.Mentorship.Capacity
import StellarSplit.Tax.Marginal
import StellarSplit.Split.Migration
import StellarSplit.Split.LogStatistics
import StellarSplit.Split.RateLimits
import StellarSplit.Split.Aggregation
import StellarSplit.Split.SlotPool
import StellarSplit.Split.Strkey
import StellarSplit.Split.Backoff
import StellarSplit.Split.Drip
import StellarSplit.Split.Rebalance
import StellarSplit.Split.Renewal
import StellarSplit.Split.Cancellation
import StellarSplit.Split.Alerts
import StellarSplit.Split.Webhooks
import StellarSplit.Split.PlainRelease
import StellarSplit.Split.Distribution
import StellarSplit.Split.Stages
import StellarSplit.Split.Compression
import StellarSplit.Split.PartialRelease
import StellarSplit.Split.Charges
import StellarSplit.Split.Taxes
import StellarSplit.Split.Reserves
import StellarSplit.Split.ProtocolFee
import StellarSplit.Split.RuleEngine
import StellarSplit.Split.PayloadCompression
import StellarSplit.Split.FeeBrackets
import StellarSplit.Split.FundingProgress
import StellarSplit.Split.FailureWindow
import StellarSplit.Split.Averages
import StellarSplit.Split.MicroPayments
import StellarSplit.Split.Ratios
import StellarSplit.CharitySplit.Feasible
import StellarSplit.Split.ConfidentialAudit
import StellarSplit.Factory.Contract
