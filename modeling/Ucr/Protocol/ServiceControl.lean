import Ucr.Lib.Sha256
import Ucr.Objects.Service
import Ucr.Protocol.Extension

-- What is checked of quota policies and audit records, and the hash that chains the records.

namespace Ucr

open Except Encoding

def maxServiceAuditOperationKindLen : ℕ := 256
def maxServiceRequestPermissionLen : ℕ := 256
def serviceAuditHashV1Domain : Bytes := utf8 "UCR-SERVICE-AUDIT-HASH-V1" ++ [0]
def serviceAuditHashV2Domain : Bytes := utf8 "UCR-SERVICE-AUDIT-HASH-V2" ++ [0]
def serviceAuditHashV3Domain : Bytes := utf8 "UCR-SERVICE-AUDIT-HASH-V3" ++ [0]

inductive ServiceControlValidationError
  | notServiceAccount
  | invalidQuota
  | invalidPermission
  | invalidTimestamp
  | invalidAuditSubject
  | invalidOperation
deriving DecidableEq

def invalidLimit (limit : U64) : Bool :=
  limit = 0 || maxI64 < limit.val

def validateServiceQuotaPolicy (policy : ServiceQuotaPolicy) :
    Except ServiceControlValidationError Unit := do
  rejectIf (policy.subject.principal.kind ≠ .serviceAccount) .notServiceAccount
  rejectIf (invalidLimit policy.maxRequests ∨ invalidLimit policy.windowMs) .invalidQuota

def validateServiceResourceQuotaPolicy (policy : ServiceResourceQuotaPolicy) :
    Except ServiceControlValidationError Unit := do
  rejectIf (policy.subject.principal.kind ≠ .serviceAccount) .notServiceAccount
  rejectIf (invalidLimit policy.maxConcurrentParticipants ∨
    policy.maxConcurrentConferences.any invalidLimit ∨
    policy.maxConcurrentPublishers.any invalidLimit ∨
    policy.maxAggregateBandwidthBps.any invalidLimit ∨
    policy.maxRecordingMinutes.any fun limit => limit = 0 || maxI64 / 60000 < limit.val)
    .invalidQuota

def validateServiceRateLimitPolicy (policy : ServiceRateLimitPolicy) :
    Except ServiceControlValidationError Unit :=
  validateServiceQuotaPolicy ⟨policy.subject, policy.maxRequests, policy.windowMs⟩

def validateServiceAuditOperationRef (operation : ServiceAuditOperationRef) :
    Except ServiceControlValidationError Unit := do
  rejectIf (operation.operationKind.utf8ByteSize > maxServiceAuditOperationKindLen) .invalidOperation
  (validateNamespacedIdentifier operation.operationKind).mapError fun _ => .invalidOperation

-- Only a request that was authenticated has a subject: a service account of the presented scope.
def validateAuditSubject (record : ServiceAuditRecord) : Except ServiceControlValidationError Unit :=
  match record.outcome with
  | .authenticationFailed | .authenticationUnavailable =>
    rejectIf record.subject.isSome .invalidAuditSubject
  | .rateLimited | .quotaUnavailable | .permissionDenied | .authorizationUnavailable
  | .authorized => do
    let subject ← record.subject.okOr .invalidAuditSubject
    rejectIf (subject.principal.kind ≠ .serviceAccount ∨ subject.scope ≠ record.presentedScope)
      .invalidAuditSubject

def validateServiceAuditRecord (record : ServiceAuditRecord) :
    Except ServiceControlValidationError Unit := do
  rejectIf (record.permission.utf8ByteSize > maxServiceRequestPermissionLen) .invalidPermission
  (validateNamespacedIdentifier record.permission).mapError fun _ => .invalidPermission
  rejectIf (record.occurredAtUnixMs.val < 0) .invalidTimestamp
  match record.operation with
  | some operation => validateServiceAuditOperationRef operation
  | none => pure ()
  validateAuditSubject record

namespace Audit

def hashId (value : Bytes) : Bytes :=
  lengthPrefixed 4 value

def hashScope (scope : TenantScope) : Bytes :=
  hashId scope.tenantId.asWireBytes ++ pushOptional (hashId ·.asWireBytes) scope.namespaceId

-- The kind of the principal is not hashed.
def hashSubject (subject : ScopedPrincipal) : Bytes :=
  hashScope subject.scope ++ hashId subject.principal.principalId.asWireBytes

def hashOperation (operation : ServiceAuditOperationRef) : Bytes :=
  hashId (utf8 operation.operationKind) ++ hashId operation.operationId.asWireBytes

def auditOutcomeCode : ServiceAuditOutcome → UInt8
  | .authenticationFailed => 1
  | .authenticationUnavailable => 2
  | .rateLimited => 3
  | .quotaUnavailable => 4
  | .permissionDenied => 5
  | .authorizationUnavailable => 6
  | .authorized => 7

-- The fields all layouts end with.
def hashRequest (record : ServiceAuditRecord) : Bytes :=
  hashScope record.presentedScope ++ pushOptional hashSubject record.subject ++
    hashId (utf8 record.permission) ++ hashScope record.resourceScope ++
    [auditOutcomeCode record.outcome] ++ beBytes 8 (record.occurredAtUnixMs.val % 2 ^ 64).toNat

def hashLegacyAuditFields (credentialId : ServiceCredentialId) (record : ServiceAuditRecord) :
    Bytes :=
  hashId record.auditId.asWireBytes ++ hashId credentialId.asWireBytes ++ hashRequest record

-- What is hashed with the previous hash. The layout depends on how the request was authenticated
-- and whether it names an operation.
def preimage (previousHash : Digest) (record : ServiceAuditRecord) : Bytes :=
  match record.authentication, record.operation with
  | .serviceCredential id, some operation =>
    serviceAuditHashV2Domain ++ previousHash.bytes ++ hashLegacyAuditFields id record ++
      1 :: hashOperation operation
  | .serviceCredential id, none =>
    serviceAuditHashV1Domain ++ previousHash.bytes ++ hashLegacyAuditFields id record
  | .machineAccessToken _, operation =>
    serviceAuditHashV3Domain ++ previousHash.bytes ++ hashId record.auditId.asWireBytes ++
      hashId (utf8 record.authentication.kind) ++ hashId record.authentication.asOpaque.asWireBytes ++
      hashRequest record ++ pushOptional hashOperation operation

end Audit

def zeroAuditHash : Digest := ⟨List.replicate 32 0, by simp⟩

def serviceAuditHash (previousHash : Digest) (record : ServiceAuditRecord) : Digest :=
  sha256 (Audit.preimage previousHash record)

end Ucr
