import SecureNet.Library.EventMachine
import SecureNet.Library.Tasks
import SecureNet.Library.TaskHistory
import SecureNet.Library.TaskEvents
import SecureNet.Issuer
import SecureNet.Library.KeyedStore
import SecureNet.NonceStore
import SecureNet.VaultState
import SecureNet.Routes
import SecureNet.Outcomes
import SecureNet.VaultReplay
import SecureNet.Library.Mutex
import SecureNet.VaultProgress
import SecureNet.Library.Json
import SecureNet.Library.JsonFields
import SecureNet.Wire
import SecureNet.Library.Exchange
import SecureNet.Library.OwnState
import SecureNet.VaultHttp
import SecureNet.NonceLedger
import SecureNet.Serials
import SecureNet.GrantAudit
import SecureNet.RejectionAudit
import SecureNet.Revocation
import SecureNet.Library.SoloRuns
import SecureNet.Library.Timeline
import SecureNet.Library.Utf8
import SecureNet.Tls
import SecureNet.Rotation
import SecureNet.RotationSchedule
import SecureNet.ServiceBoot
import SecureNet.VaultClient
import SecureNet.IdentityRuns
import SecureNet.HonestClient
import SecureNet.RotationTask
import SecureNet.CertSwap
import SecureNet.Health
import SecureNet.Proxy
import SecureNet.Library.Percent
import SecureNet.Library.Url
import SecureNet.ProxyConfinement
import SecureNet.Library.Http
import SecureNet.Gateway
import SecureNet.GatewayProvenance
import SecureNet.Library.JsonText
import SecureNet.Library.Lines
import SecureNet.LogText
import SecureNet.LogRecovery
import SecureNet.Library.BackgroundWrites
import SecureNet.LogWrites
import SecureNet.Library.CallRules
import SecureNet.Library.TaskSum
import SecureNet.Serve
import SecureNet.AcceptLoop
import SecureNet.ConfigFreshness
import SecureNet.IdentityPropagation
import SecureNet.IssuedCount
import SecureNet.Library.ExpiringStore
import SecureNet.NonceHistory
import SecureNet.Attestation
import SecureNet.RenewalRate
import SecureNet.ClientBundle
import SecureNet.TokenLifetime
import SecureNet.CertExpiry
import SecureNet.Library.Sections
import SecureNet.ClientChain
import SecureNet.RetryBackoff
import SecureNet.Library.Readiness
import SecureNet.Chaos
import SecureNet.ChaosReadiness
import SecureNet.Fleet
import SecureNet.FleetServices
import SecureNet.FleetProgress
import SecureNet.FleetAgreement
import SecureNet.Library.TornJson
import SecureNet.LogSoundness
import SecureNet.Backends
import SecureNet.Lookup
import SecureNet.Access
import SecureNet.Library.Purge
import SecureNet.Isolation
