import Coivitas.Foundation.Text
import Coivitas.Foundation.UuidText
import Coivitas.Foundation.Json
import Coivitas.Foundation.Outcome
import Coivitas.Foundation.Bytes
import Coivitas.Foundation.Calendar
import Coivitas.Foundation.OrderedMap
import Coivitas.Foundation.Run
import Coivitas.Crypto.Encoding
import Coivitas.Crypto.Signing
import Coivitas.Crypto.Sha256
import Coivitas.Crypto.Sha256Packed
import Coivitas.Crypto.HashChainEvidence
import Coivitas.Identity.DelegationProvenance
import Coivitas.Identity.OldKeys
import Coivitas.Identity.IssuerAgreement
import Coivitas.Identity.TokenWindow
import Coivitas.Identity.Registry
import Coivitas.Identity.KeyRotation
import Coivitas.Policy.ValueAttenuation
import Coivitas.Policy.TokenActions
import Coivitas.Policy.TemporalAttenuation
import Coivitas.Policy.NoOverspend
import Coivitas.Policy.CumulativeScopes
import Coivitas.Policy.SharedLedger
import Coivitas.Policy.NoDoubleSettlement
import Coivitas.Communication.TerminalStates
import Coivitas.Policy.EnvelopeExclusivity
import Coivitas.Policy.RowHistory
import Coivitas.Policy.SequentialRuns
import Coivitas.Policy.LeaseSafety
import Coivitas.Communication.SessionFence
import Coivitas.Communication.SessionRecovery
import Coivitas.Crypto.MerklePaths
import Coivitas.Crypto.MultisigSchema
import Coivitas.Crypto.MultisigCompleteness
import Coivitas.Identity.MultisigAgreement
import Coivitas.Crypto.Multisig
import Coivitas.Communication.Envelope
import Coivitas.Sdk.RateLimiter
import Coivitas.Crypto.MultisigQuorum
import Coivitas.Identity.FederatedVersions
import Coivitas.Identity.QuorumSelection
import Coivitas.Identity.ResolverFreshness
import Coivitas.Identity.PrivateIp
import Coivitas.Foundation.BackLinks
import Coivitas.Policy.AuditChain
import Coivitas.Policy.AuditStore
import Coivitas.Policy.AuditAgreement
import Coivitas.Identity.ControllerChain
import Coivitas.Identity.CredentialResolver
import Coivitas.Identity.ChainFreshness
import Coivitas.Foundation.Returns
import Coivitas.Identity.ChainShape
import Coivitas.Identity.ChainCompleteness
import Coivitas.Communication.ScopeValidator
import Coivitas.Communication.ScopeAccounting
import Coivitas.Communication.ScopeCaps
import Coivitas.Foundation.JsonReader
import Coivitas.Foundation.IpText
import Coivitas.Communication.HandshakeBody
import Coivitas.Communication.Handshake
import Coivitas.Communication.HandshakeAgreement
import Coivitas.Communication.BoundaryLifecycle
import Coivitas.Policy.SettlementLifecycle
import Coivitas.Foundation.LruTtlCache
import Coivitas.Foundation.LinkedKeys
import Coivitas.Policy.RevocationApi
import Coivitas.Policy.RevocationCache
import Coivitas.Policy.CacheRefinement
import Coivitas.Policy.TenantIsolation
import Coivitas.Policy.DisputeArbitration
import Coivitas.Policy.DisputeLifecycle
import Coivitas.Foundation.BigEndian
import Coivitas.Communication.SessionCrypto
import Coivitas.Communication.NonceUniqueness
import Coivitas.Communication.EncryptedBody
import Coivitas.Communication.ReplayProtection
import Coivitas.Communication.FieldDecoders
import Coivitas.Communication.SessionViews
import Coivitas.Communication.EncryptedChannel
import Coivitas.Communication.ChannelRoundTrip
import Coivitas.Crypto.HashChainBuilder
import Coivitas.Crypto.ChainCheckpoint
import Coivitas.Crypto.ChainMigration
import Coivitas.Crypto.ChainStorage
import Coivitas.Crypto.MigrationInvariant
import Coivitas.Crypto.MigrationRuns
import Coivitas.Crypto.MigrationEnds
import Coivitas.Crypto.ChainAcceptance
import Coivitas.Crypto.PreimageParts
import Coivitas.Crypto.MigratedChains
import Coivitas.Crypto.MigrationRestart
import Coivitas.Crypto.MigrationSchedules
import Coivitas.Crypto.MigrationLaundering
import Coivitas.Crypto.HashChainPython
import Coivitas.Crypto.ChainAgreement
import Coivitas.Crypto.RecordChain
import Coivitas.Crypto.RecordProof
import Coivitas.Policy.ReservationFinality
import Coivitas.Policy.MetricIsolation
import Coivitas.Communication.LeaseGrants
import Coivitas.Policy.AuditBarrier
import Coivitas.Policy.AuditPairing
import Coivitas.Foundation.Paging
import Coivitas.Foundation.PageRuns
import Coivitas.Foundation.KeyedRuns
import Coivitas.Foundation.Parcels
import Coivitas.Foundation.Radix
import Coivitas.Foundation.AuditPath
import Coivitas.Identity.DidKey
import Coivitas.Policy.CrossDomainSettle
import Coivitas.Policy.Reconciliation
import Coivitas.Policy.SettleRoundTrip
import Coivitas.Policy.SideTable
import Coivitas.Policy.IntegrityCheck
import Coivitas.Policy.LedgerPages
import Coivitas.Communication.SessionLifecycle
import Coivitas.Communication.RegistryInvariant
import Coivitas.Policy.ListVersions
import Coivitas.Crypto.Base64Url
import Coivitas.Communication.WebSocketFraming
import Coivitas.Crypto.DeliveredPositions
import Coivitas.Crypto.DryRun
import Coivitas.Policy.TokenOrder
import Coivitas.Sdk.UserClaims
import Coivitas.Sdk.TenantFederation
import Coivitas.Foundation.Emits
import Coivitas.Sdk.FederatedResolution
