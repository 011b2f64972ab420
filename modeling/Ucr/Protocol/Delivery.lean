import Ucr.Lib.Sha256
import Ucr.Objects.Delivery
import Ucr.Protocol.Message

-- The life of a delivery attempt, the evidence for it, and the rules for jobs that schedule
-- attempts.

namespace Ucr

open Except Encoding String

def maxStoreForwardDeliveryAttempts : U16 := 64
def maxStoreForwardRetryDelayMs : U64 := 7 * 24 * 60 * 60 * 1000
def maxStoreForwardLeaseMs : U64 := 5 * 60 * 1000
def storeForwardDeliveryIdDomain : Bytes := utf8 "UCR-STORE-FORWARD-DELIVERY-ID-V1"
def storeForwardJobFingerprintDomain : Bytes := utf8 "UCR-STORE-FORWARD-JOB-FINGERPRINT-V1"

inductive DeliveryError
  | invalidInitialState
  | illegalTransition
  | scopeMismatch
  | messageMismatch
  | deliveryMismatch
  | evidenceRegression
  | evidenceDoesNotProveState

inductive StoreForwardError
  | invalidAttemptBudget
  | invalidRetryDelay
  | invalidLeaseDuration
  | invalidExpiry
  | invalidEnvelope
  | invalidAttemptState
  | invalidPageSize
  | clockOverflow
deriving DecidableEq

def isTerminalDeliveryState : DeliveryState → Bool
  | .read | .failed | .expired => true
  | _ => false

def canTransitionDelivery (before after : DeliveryState) : Bool :=
  (match before, after with
    | .persisted, .encrypted => true
    | .encrypted, .queued => true
    | .queued, .routePlanned => true
    | .routePlanned, .inFlight => true
    | .inFlight, .acknowledged => true
    | .acknowledged, .delivered => true
    | .delivered, .read => true
    | _, _ => false) ||
  (!isTerminalDeliveryState before && (after = .failed || after = .expired))

def validateDeliveryAttempt (attempt : DeliveryAttempt) : Except DeliveryError Unit :=
  rejectIf (attempt.state ≠ .persisted) .invalidInitialState

def validateDeliveryTransition (current : DeliveryAttempt) (next : DeliveryState) :
    Except DeliveryError Unit :=
  rejectIf (¬canTransitionDelivery current.state next) .illegalTransition

def validateDeliveryEvidenceBinding (attempt : DeliveryAttempt) (evidence : DeliveryEvidence) :
    Except DeliveryError Unit := do
  rejectIf (evidence.deliveryId ≠ attempt.deliveryId) .deliveryMismatch
  rejectIf (evidence.scope ≠ attempt.scope) .scopeMismatch
  rejectIf (evidence.messageId ≠ attempt.messageId) .messageMismatch

def evidenceSupportsState : DeliveryEvidenceKind → DeliveryState → Bool
  | .persistedLocal, .persisted => true
  | .acceptedByTransport, .acknowledged => true
  | .receivedByDevice, .delivered | .decryptedByDevice, .delivered
  | .presentedToUser, .delivered => true
  | .readByUser, .read => true
  | _, _ => false

def validateDeliveryEvidence (attempt : DeliveryAttempt) (evidence : DeliveryEvidence)
    (state : DeliveryState) : Except DeliveryError Unit := do
  validateDeliveryEvidenceBinding attempt evidence
  rejectIf (¬evidenceSupportsState evidence.kind state) .evidenceDoesNotProveState

def validateDeliveryEvidenceOrder (previousOrder : Option U64) (incomingOrder : U64) :
    Except DeliveryError Unit :=
  rejectIf (previousOrder.any (incomingOrder < ·)) .evidenceRegression

def validateStoreForwardPolicy (policy : StoreForwardPolicy) : Except StoreForwardError Unit := do
  rejectIf (policy.maxDeliveryAttempts = 0 ∨
    policy.maxDeliveryAttempts > maxStoreForwardDeliveryAttempts) .invalidAttemptBudget
  rejectIf (policy.baseRetryDelayMs = 0 ∨ policy.maxRetryDelayMs < policy.baseRetryDelayMs ∨
    policy.maxRetryDelayMs > maxStoreForwardRetryDelayMs) .invalidRetryDelay
  rejectIf (policy.leaseDurationMs = 0 ∨ policy.leaseDurationMs > maxStoreForwardLeaseMs)
    .invalidLeaseDuration

def validateStoreForwardJob (job : StoreForwardJob) : Except StoreForwardError Unit := do
  validateStoreForwardPolicy job.policy
  rejectIf (job.encryptedEnvelope.isEmpty ∨ job.encryptedEnvelope.length > defaultMaxPayloadLen)
    .invalidEnvelope
  rejectIf (job.attemptsUsed > job.policy.maxDeliveryAttempts ∨
    (job.attemptsUsed = 0 ∧ job.lastDeliveryId.isSome) ∨
    (job.attemptsUsed > 0 ∧ job.lastDeliveryId.isNone)) .invalidAttemptState
  rejectIf (job.policy.expiresAtUnixMs.any (job.nextAttemptAtUnixMs > ·)) .invalidExpiry

def storeForwardRetryDelayMs (policy : StoreForwardPolicy) (attemptsUsed : U16) : ℕ :=
  let shift := if attemptsUsed > 1 then min (attemptsUsed.val - 1) 31 else 0
  -- The product saturates.
  let scaled := min (policy.baseRetryDelayMs.val * 2 ^ shift) (2 ^ 64 - 1)
  min scaled policy.maxRetryDelayMs

def storeForwardNextAttemptAt (nowUnixMs : ℤ) (policy : StoreForwardPolicy) (attemptsUsed : U16) :
    Except StoreForwardError ℤ := do
  let delay : ℤ := storeForwardRetryDelayMs policy attemptsUsed
  rejectIf (delay > maxI64) .clockOverflow
  let next := nowUnixMs + delay
  rejectIf (next > maxI64) .clockOverflow
  return policy.expiresAtUnixMs.elim next (min next)

namespace StoreForward

def appendLenPrefixed (value : Bytes) : Bytes :=
  lengthPrefixed 4 value

def appendScope (scope : TenantScope) : Bytes :=
  appendLenPrefixed scope.tenantId.asWireBytes ++
    match scope.namespaceId with
    | some namespaceId => 1 :: appendLenPrefixed namespaceId.asWireBytes
    | none => [0]

end StoreForward

open StoreForward

def storeForwardJobFingerprint (job : StoreForwardJob) : Except StoreForwardError Digest := do
  validateStoreForwardJob job
  rejectIf (job.attemptsUsed ≠ 0 ∨ job.lastDeliveryId.isSome) .invalidAttemptState
  return sha256 (storeForwardJobFingerprintDomain ++ appendScope job.scope ++
    appendLenPrefixed job.storeForwardId.asWireBytes ++
    appendLenPrefixed job.intentId.asWireBytes ++ appendLenPrefixed job.messageId.asWireBytes ++
    appendLenPrefixed job.encryptedEnvelope ++ beBytes 2 job.policy.maxDeliveryAttempts ++
    beBytes 8 job.policy.baseRetryDelayMs ++ beBytes 8 job.policy.maxRetryDelayMs ++
    beBytes 8 job.policy.leaseDurationMs ++
    (match job.policy.expiresAtUnixMs with
      | some expiry => 1 :: beBytes 8 (expiry % 2 ^ 64).toNat
      | none => [0]) ++
    beBytes 8 (job.nextAttemptAtUnixMs % 2 ^ 64).toNat)

def hexByte (byte : UInt8) : List Char :=
  [Nat.digitChar (byte.toNat / 16), Nat.digitChar (byte.toNat % 16)]

theorem utf8Len_hexByte (byte : UInt8) : utf8Len (hexByte byte) = 2 := by
  have hsize : ∀ digit < 16, (Nat.digitChar digit).utf8Size = 1 := by decide
  have hhigh := hsize (byte.toNat / 16) (by have := byte.toNat_lt; omega)
  have hlow := hsize (byte.toNat % 16) (by omega)
  simp [hexByte, utf8Len, hhigh, hlow]

theorem utf8ByteSize_hex (bytes : Bytes) :
    (ofList (bytes.flatMap hexByte)).utf8ByteSize = 2 * bytes.length := by
  rw [utf8ByteSize_ofList]
  induction bytes
  case nil => rfl
  case cons byte bytes ih =>
    rw [List.flatMap_cons, utf8Len_append, ih, utf8Len_hexByte, List.length_cons]
    omega

-- The digest in hexadecimal always fits an identifier.
def Digest.toOpaqueId (digest : Digest) : OpaqueId where
  value    := ofList (digest.bytes.flatMap hexByte)
  nonempty := by
    intro hempty
    have hsize := utf8ByteSize_hex digest.bytes
    rw [hempty, digest.length_eq] at hsize
    simp at hsize
  bounded  := by
    rw [utf8ByteSize_hex, digest.length_eq]
    decide

def storeForwardDeliveryId (scope : TenantScope) (storeForwardId : StoreForwardId)
    (attemptOrdinal : U16) : DeliveryId :=
  Digest.toOpaqueId (sha256 (storeForwardDeliveryIdDomain ++ appendScope scope ++
    appendLenPrefixed storeForwardId.asWireBytes ++ beBytes 2 attemptOrdinal))

end Ucr
