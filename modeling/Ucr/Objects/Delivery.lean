import Ucr.Objects.Message

-- Delivery attempts with their evidence, and the jobs that schedule them.

namespace Ucr

inductive DeliveryEvidenceKind
  | createdLocal
  | persistedLocal
  | acceptedByTransport
  | replicatedToRelay
  | receivedByDevice
  | decryptedByDevice
  | presentedToUser
  | readByUser
deriving DecidableEq

structure DeliveryAttempt where
  deliveryId : DeliveryId
  scope      : TenantScope
  messageId  : MessageId
  state      : DeliveryState
deriving DecidableEq

structure DeliveryEvidence where
  deliveryId : DeliveryId
  scope : TenantScope
  messageId : MessageId
  kind : DeliveryEvidenceKind
  logicalOrder : U64
deriving DecidableEq

-- The part of an intent that storing and loading it depends on.
structure CommunicationIntent where
  intentId : IntentId
  scope    : TenantScope
deriving DecidableEq

structure StoreForwardPolicy where
  maxDeliveryAttempts : U16
  baseRetryDelayMs    : U64
  maxRetryDelayMs     : U64
  leaseDurationMs     : U64
  expiresAtUnixMs     : Option ℤ
deriving DecidableEq

structure StoreForwardJob where
  storeForwardId : StoreForwardId
  scope : TenantScope
  intentId : IntentId
  messageId : MessageId
  encryptedEnvelope : Bytes
  policy : StoreForwardPolicy
  attemptsUsed : U16
  nextAttemptAtUnixMs : ℤ
  lastDeliveryId : Option DeliveryId
deriving DecidableEq

structure StoreForwardLease where
  job : StoreForwardJob
  leaseId : StoreForwardLeaseId
  leaseUntilUnixMs : ℤ

inductive StoreForwardOutcome
  | acceptedByTransport
  | rescheduledNoRoute
  | rescheduledAfterFailure
  | acceptanceUnknown
  | attemptsExhausted
  | expired
  | notDue
  | busy

end Ucr
