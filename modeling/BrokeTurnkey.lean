import BrokeTurnkey.AdminChanges
import BrokeTurnkey.Api.Advances
import BrokeTurnkey.Api.AuthService
import BrokeTurnkey.Api.Base64url
import BrokeTurnkey.Api.Commands
import BrokeTurnkey.Api.Effects
import BrokeTurnkey.Api.Endpoints
import BrokeTurnkey.Api.Footprint
import BrokeTurnkey.Api.Growth
import BrokeTurnkey.Api.KeyIds
import BrokeTurnkey.Api.PolicyAdmin
import BrokeTurnkey.Api.Repositories
import BrokeTurnkey.Api.Schema
import BrokeTurnkey.Api.Services
import BrokeTurnkey.Api.SignTransactionDto
import BrokeTurnkey.Api.SigningService
import BrokeTurnkey.Api.StampGuard
import BrokeTurnkey.Api.Tenancy
import BrokeTurnkey.Api.TenantCalls
import BrokeTurnkey.Api.UserService
import BrokeTurnkey.Api.WalletQueries
import BrokeTurnkey.AuditTrail
import BrokeTurnkey.BootstrapToken
import BrokeTurnkey.Broadcasts
import BrokeTurnkey.CalldataPolicies
import BrokeTurnkey.ChainAgreement
import BrokeTurnkey.ChainService
import BrokeTurnkey.CleanRetry
import BrokeTurnkey.Commands
import BrokeTurnkey.ConfirmedRows
import BrokeTurnkey.CryptoClient
import BrokeTurnkey.Der
import BrokeTurnkey.DuplicateAnswers
import BrokeTurnkey.EdgeAuthority
import BrokeTurnkey.EdgeKeys
import BrokeTurnkey.EdgeMessages
import BrokeTurnkey.EdgeOutsiders
import BrokeTurnkey.EdgePayments
import BrokeTurnkey.EdgePolicies
import BrokeTurnkey.EdgeRecords
import BrokeTurnkey.EdgeRegistration
import BrokeTurnkey.EdgeScopes
import BrokeTurnkey.EdgeSignatures
import BrokeTurnkey.EdgeTenancy
import BrokeTurnkey.EdgeWallets
import BrokeTurnkey.Effects
import BrokeTurnkey.FailedUnsent
import BrokeTurnkey.Footprint
import BrokeTurnkey.GasService
import BrokeTurnkey.Growth
import BrokeTurnkey.HonestStamps
import BrokeTurnkey.IdempotencyKey
import BrokeTurnkey.Interaction.Advances
import BrokeTurnkey.Interaction.Automaton
import BrokeTurnkey.Interaction.Embedding
import BrokeTurnkey.Interaction.Evolving
import BrokeTurnkey.Interaction.Executions
import BrokeTurnkey.Interaction.Extends
import BrokeTurnkey.Interaction.Given
import BrokeTurnkey.Interaction.Ledger
import BrokeTurnkey.Interaction.Pool
import BrokeTurnkey.Interaction.Prog
import BrokeTurnkey.Interaction.Register
import BrokeTurnkey.Interaction.Sequential
import BrokeTurnkey.Interaction.Tenants
import BrokeTurnkey.KeyRegistration
import BrokeTurnkey.LogSanitizer
import BrokeTurnkey.Monitor
import BrokeTurnkey.NonceFloor
import BrokeTurnkey.NonceGaps
import BrokeTurnkey.NonceSafety
import BrokeTurnkey.Numerals
import BrokeTurnkey.OnePayment
import BrokeTurnkey.OrganizationSetup
import BrokeTurnkey.PolicyAuthority
import BrokeTurnkey.PolicyCoverage
import BrokeTurnkey.PolicyMeaning
import BrokeTurnkey.PolicyService
import BrokeTurnkey.PolicyTargets
import BrokeTurnkey.Redaction
import BrokeTurnkey.Repositories
import BrokeTurnkey.Retry
import BrokeTurnkey.Rows
import BrokeTurnkey.Schema
import BrokeTurnkey.Services
import BrokeTurnkey.Sidecar
import BrokeTurnkey.Signer.Base64
import BrokeTurnkey.Signer.Crypto
import BrokeTurnkey.Signer.DerivationPaths
import BrokeTurnkey.Signer.FieldBounds
import BrokeTurnkey.Signer.GoText
import BrokeTurnkey.Signer.Handlers
import BrokeTurnkey.Signer.Libraries
import BrokeTurnkey.Signer.Limits
import BrokeTurnkey.Signer.LimitsMeaning
import BrokeTurnkey.Signer.Server
import BrokeTurnkey.Signer.Signing
import BrokeTurnkey.Signer.System
import BrokeTurnkey.Signer.TokenRenewal
import BrokeTurnkey.Signer.ValidatedSigning
import BrokeTurnkey.Signer.WalletHandlers
import BrokeTurnkey.Signer.Wire
import BrokeTurnkey.SingleFlight
import BrokeTurnkey.SpeedUpBudget
import BrokeTurnkey.SpeedUpFees
import BrokeTurnkey.Stages
import BrokeTurnkey.StampReuse
import BrokeTurnkey.StampSpelling
import BrokeTurnkey.Tenancy
import BrokeTurnkey.TenantCalls
import BrokeTurnkey.TenantIsolation
import BrokeTurnkey.Text
import BrokeTurnkey.TransactionReading
import BrokeTurnkey.TypedDataDomain
import BrokeTurnkey.Uuid
import BrokeTurnkey.WalletAddresses
import BrokeTurnkey.WalletKeys
import BrokeTurnkey.WalletService
import BrokeTurnkey.WedgedRows
