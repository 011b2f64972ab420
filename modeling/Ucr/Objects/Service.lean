import Ucr.Objects.Basic

-- Service accounts: what they may consume, and the audit records of their requests.

namespace Ucr

inductive CanonicalErrorCode
  | invalidArgument
  | unauthenticated
  | permissionDenied
  | resourceExhausted
  | temporarilyUnavailable
  | integrityFailure
  | conflict
  | notFound
  | internal

structure ServiceQuotaPolicy where
  subject     : ScopedPrincipal
  maxRequests : U64
  windowMs    : U64
deriving DecidableEq

structure ServiceResourceQuotaPolicy where
  subject : ScopedPrincipal
  maxConcurrentParticipants : U64
  maxConcurrentConferences : Option U64
  maxConcurrentPublishers : Option U64
  maxAggregateBandwidthBps : Option U64
  maxRecordingMinutes : Option U64

inductive ServiceRequestRateClass
  | management
  | joinIssuance
  | signaling
  | mediaTransport
deriving DecidableEq

def ServiceRequestRateClass.all : List ServiceRequestRateClass :=
  [.management, .joinIssuance, .signaling, .mediaTransport]

structure ServiceRateLimitPolicy where
  subject     : ScopedPrincipal
  rateClass   : ServiceRequestRateClass
  maxRequests : U64
  windowMs    : U64
deriving DecidableEq

inductive ServiceAuditOutcome
  | authenticationFailed
  | authenticationUnavailable
  | rateLimited
  | quotaUnavailable
  | permissionDenied
  | authorizationUnavailable
  | authorized
deriving DecidableEq

structure ServiceAuditOperationRef where
  operationKind : String
  operationId   : OpaqueId
deriving DecidableEq

inductive ServiceAuthenticationRef
  | serviceCredential (id : ServiceCredentialId)
  | machineAccessToken (id : OpaqueId)
deriving DecidableEq

namespace ServiceAuthenticationRef

def kind : ServiceAuthenticationRef → String
  | .serviceCredential _  => "service_credential"
  | .machineAccessToken _ => "machine_access_token"

def asOpaque : ServiceAuthenticationRef → OpaqueId
  | .serviceCredential id  => id
  | .machineAccessToken id => id

end ServiceAuthenticationRef

structure ServiceAuditRecord where
  auditId : AuditRecordId
  authentication : ServiceAuthenticationRef
  presentedScope : TenantScope
  subject : Option ScopedPrincipal
  permission : String
  resourceScope : TenantScope
  outcome : ServiceAuditOutcome
  occurredAtUnixMs : I64
  operation : Option ServiceAuditOperationRef
deriving DecidableEq

end Ucr
