import CredMesh.Foundation.Outcome
import CredMesh.Foundation.FixedWidth
import CredMesh.Foundation.AccountMap
import CredMesh.Foundation.Execution
import CredMesh.Shared.IxIntrospection
import CredMesh.Shared.CreditMessage
import CredMesh.Spl.TokenFlow
import CredMesh.Escrow.Pricing
import CredMesh.Escrow.Liquidity
import CredMesh.Registry.AttestorRegistry
import CredMesh.Escrow.RequestAdvance
import CredMesh.Escrow.Settlement
import CredMesh.Escrow.Governance
import CredMesh.Chain.System
import CredMesh.Chain.Instructions
import CredMesh.Bridge.Attestation
import CredMesh.Safety.WireFormat
import CredMesh.Chain.Localnet
import CredMesh.Chain.Books
import CredMesh.Chain.Custody
import CredMesh.Spl.BalanceShift
import CredMesh.Chain.Shift
import CredMesh.Safety.Exposure
import CredMesh.Safety.Solvency
import CredMesh.Safety.Coverage
import CredMesh.Foundation.VirtualShares
import CredMesh.Safety.SharePrice
import CredMesh.Safety.Redemption
import CredMesh.Safety.Donation
import CredMesh.Safety.Rounding
import CredMesh.Safety.Lifecycle
import CredMesh.Safety.TimeGates
import CredMesh.Safety.Terms
import CredMesh.Foundation.History
import CredMesh.Safety.Timelock
import CredMesh.Safety.Revocation
import CredMesh.Foundation.TumblingWindow
import CredMesh.Safety.IssuanceWindow
import CredMesh.Safety.IssuanceRate
import CredMesh.Safety.Underwriting
import CredMesh.Safety.GovernanceGate
import CredMesh.Safety.Repayment
import CredMesh.Safety.Waterfall
import CredMesh.Safety.TerminalOrder
import CredMesh.Safety.WindingUp
import CredMesh.Foundation.Interpolation
import CredMesh.Safety.FeeFunction
import CredMesh.Foundation.BaseEncoding
import CredMesh.Bridge.EventTail
import CredMesh.Bridge.ProgramLog
import CredMesh.Safety.Replay
import CredMesh.Safety.EventAuthenticity
import CredMesh.Foundation.EcmaScript
import CredMesh.Bridge.Quote
import CredMesh.Safety.QuoteWindow
import CredMesh.Foundation.BoundedRead
import CredMesh.Safety.SignatureParsing
import CredMesh.Escrow.Layout
import CredMesh.Keeper.AdvanceDecoder
import CredMesh.Safety.AdvanceDecoding
import CredMesh.Keeper.Tick
import CredMesh.Keeper.Acceptance
import CredMesh.Safety.KeeperTargets
import CredMesh.Safety.ConfigBound
import CredMesh.Safety.TailSurvival
import CredMesh.Safety.Base58Text
import CredMesh.Foundation.TokenBucket
import CredMesh.Bridge.RateLimiter
import CredMesh.Safety.QuoteRate
import CredMesh.Safety.NonceText
import CredMesh.Foundation.Calendar
import CredMesh.Foundation.IsoTime
import CredMesh.Server.NonceStore
import CredMesh.Server.Auth
import CredMesh.Safety.OneShotNonces
import CredMesh.Safety.SignInExpiry
import CredMesh.Foundation.Codec
import CredMesh.Shared.CrossProgram
import CredMesh.Escrow.AccountCodec
import CredMesh.Chain.Memory
import CredMesh.Safety.AccountData
import CredMesh.Chain.Dispatch
import CredMesh.Scripts.Deployment
import CredMesh.Safety.Deployment
import CredMesh.Bridge.EventCodec
import CredMesh.Foundation.Journal
import CredMesh.Safety.AuditTrail
import CredMesh.Foundation.Projection
import CredMesh.Bridge.Service
import CredMesh.Safety.ServiceHistory
import CredMesh.Safety.QuoteService
import CredMesh.Safety.CreditLine
import CredMesh.Foundation.Submission
import CredMesh.Safety.KeeperSweep
import CredMesh.Chain.Acceptance
import CredMesh.Foundation.Timelock
import CredMesh.Safety.CreditDecision
import CredMesh.Safety.GovernanceHistory
import CredMesh.Safety.LiquidityTerms
import CredMesh.Foundation.TextLines
import CredMesh.Safety.MessageBinding
