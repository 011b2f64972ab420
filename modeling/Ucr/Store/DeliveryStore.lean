import Ucr.Protocol.Delivery
import Ucr.Store.State

-- Delivery attempts, and the leases under which jobs make them.

namespace Ucr

open Except

def StoreForwardJob.key (job : StoreForwardJob) : ScopedId :=
  (job.scope, job.storeForwardId)

def DeliveryAttempt.key (attempt : DeliveryAttempt) : ScopedId :=
  (attempt.scope, attempt.deliveryId)

namespace MemoryState

variable (s : MemoryState)

def persistCommunicationIntent (intent : CommunicationIntent) :
    StoreResult (DurableRecordStatus × MemoryState) := do
  let key := (intent.scope, intent.intentId)
  match ← storeOnce (s.intents.get key) intent with
  | .duplicate => return (.duplicate, s)
  | .persisted => return (.persisted, { s with intents := s.intents.put key intent })

def createDeliveryAttempt (attempt : DeliveryAttempt)
    (persistedEvidence : DeliveryEvidence) :
    StoreResult (DurableRecordStatus × MemoryState) := do
  (validateDeliveryAttempt attempt).mapError fun _ => .invalidRecord
  (validateDeliveryEvidence attempt persistedEvidence .persisted).mapError fun _ => .invalidRecord
  let key := (attempt.scope, attempt.deliveryId)
  let message ← (s.messages.get (attempt.scope, attempt.messageId)).okOr .invalidRecord
  rejectIf (message.deliveryState ≠ .persisted) .invalidRecord
  match s.deliveries.get key with
  | some existing =>
    rejectIf (existing ≠ attempt) .conflict
    let evidence ← (s.deliveryEvidence.get key).okOr .corrupt
    rejectIf (evidence.head? ≠ some persistedEvidence) .conflict
    return (.duplicate, s)
  | none =>
    return (.persisted, { s with
      deliveries := s.deliveries.put key attempt
      deliveryEvidence := s.deliveryEvidence.put key [persistedEvidence] })

def appendDeliveryEvidence (key : ScopedId) (evidence : DeliveryEvidence) :
    StoreResult (DurableRecordStatus × MemoryState) := do
  let journal := (s.deliveryEvidence.get key).getD []
  match journal.find? (·.logicalOrder = evidence.logicalOrder) with
  | some existing =>
    rejectIf (existing ≠ evidence) .conflict
    return (.duplicate, s)
  | none =>
    (validateDeliveryEvidenceOrder (journal.getLast?.map (·.logicalOrder))
      evidence.logicalOrder).mapError fun _ => .conflict
    return (.persisted, { s with
      deliveryEvidence := s.deliveryEvidence.put key (journal ++ [evidence]) })

def isPending : DeliveryState → Bool
  | .queued | .routePlanned | .inFlight => true
  | _ => false

-- The attempts are visited in the order of the map, which may be any.
def pendingDeliveryAttempts (visited : List DeliveryAttempt) (scope : TenantScope) (limit : ℕ) :
    StoreResult (List DeliveryAttempt) := do
  rejectIf (limit = 0 ∨ limit > 256) .invalidRecord
  return (visited.filter fun attempt => attempt.scope = scope ∧ isPending attempt.state).foldl
    (List.insertLowest (·.deliveryId.value) limit) []

def proofRequired : DeliveryState → Bool
  | .acknowledged | .delivered | .read => true
  | _ => false

-- The evidence for a transition, checked and written.
def writeTransitionEvidence (current : DeliveryAttempt) (key : ScopedId)
    (nextState : DeliveryState) : Option DeliveryEvidence → StoreResult MemoryState
  | none => return s
  | some evidence => do
    (validateDeliveryEvidence current evidence nextState).mapError fun _ => .invalidRecord
    let (_, s) ← s.appendDeliveryEvidence key evidence
    return s

variable (scope : TenantScope)

def transitionDelivery (deliveryId : DeliveryId)
    (expectedState nextState : DeliveryState) (evidence : Option DeliveryEvidence) :
    StoreResult (DurableRecordStatus × MemoryState) := do
  let key := (scope, deliveryId)
  let current ← (s.deliveries.get key).okOr .invalidRecord
  rejectIf (current.state ≠ expectedState) .conflict
  (validateDeliveryTransition current nextState).mapError fun _ => .invalidRecord
  rejectIf (proofRequired nextState ∧ evidence.isNone) .invalidRecord
  let s ← s.writeTransitionEvidence current key nextState evidence
  return (.persisted, { s with
    deliveries := s.deliveries.put key { current with state := nextState } })

def recordDeliveryEvidence (evidence : DeliveryEvidence) :
    StoreResult (DurableRecordStatus × MemoryState) := do
  let key := (evidence.scope, evidence.deliveryId)
  let current ← (s.deliveries.get key).okOr .invalidRecord
  (validateDeliveryEvidenceBinding current evidence).mapError fun _ => .invalidRecord
  s.appendDeliveryEvidence key evidence

def persistStoreForwardJob (job : StoreForwardJob) :
    StoreResult (DurableRecordStatus × MemoryState) := do
  (validateStoreForwardJob job).mapError fun _ => .invalidRecord
  rejectIf (job.attemptsUsed ≠ 0 ∨ job.lastDeliveryId.isSome) .invalidRecord
  let fingerprint ← (storeForwardJobFingerprint job).mapError fun _ => .invalidRecord
  rejectIf ((s.intents.get (job.scope, job.intentId)).isNone ∨
    (s.messages.get (job.scope, job.messageId)).isNone) .invalidRecord
  let key := (job.scope, job.storeForwardId)
  match s.storeForwardTombstones.get key with
  | some existing =>
    rejectIf (existing ≠ fingerprint) .conflict
    return (.duplicate, s)
  | none =>
    match s.storeForwardJobs.get key with
    | some existing =>
      rejectIf (existing.fingerprint ≠ fingerprint) .conflict
      return (.duplicate, s)
    | none =>
      return (.persisted, { s with
        storeForwardJobs := s.storeForwardJobs.put key ⟨job, fingerprint, none⟩ })

def storeForwardJob (storeForwardId : StoreForwardId) :
    Option StoreForwardJob :=
  (s.storeForwardJobs.get (scope, storeForwardId)).map (·.job)

def lastAttemptInFlight (job : StoreForwardJob) : Bool :=
  job.lastDeliveryId.any fun deliveryId =>
    (s.deliveries.get (scope, deliveryId)).any (·.state = .inFlight)

def claimStoreForwardJob (storeForwardId : StoreForwardId)
    (leaseId : StoreForwardLeaseId) (nowUnixMs leaseUntilUnixMs : ℤ) :
    StoreResult (Option StoreForwardLease × MemoryState) := do
  let key := (scope, storeForwardId)
  match s.storeForwardJobs.get key with
  | none => return (none, s)
  | some value =>
    let leaseMs : ℤ := value.job.policy.leaseDurationMs.val
    rejectIf (leaseMs > maxI64 ∨ nowUnixMs + leaseMs > maxI64) .invalidRecord
    if leaseUntilUnixMs ≤ nowUnixMs ∨ leaseUntilUnixMs > nowUnixMs + leaseMs ∨
        value.job.nextAttemptAtUnixMs > nowUnixMs ∨ value.lease.any (·.2 > nowUnixMs) ∨
        s.lastAttemptInFlight scope value.job then
      return (none, s)
    else
      return (some ⟨value.job, leaseId, leaseUntilUnixMs⟩, { s with
        storeForwardJobs := s.storeForwardJobs.put key
          { value with lease := some (leaseId, leaseUntilUnixMs) } })

def requireLease (value : MemoryStoreForwardState) (lease : StoreForwardLease) (nowUnixMs : ℤ) :
    StoreResult Unit := do
  let (leaseId, leaseUntil) ← value.lease.okOr .conflict
  rejectIf (leaseId ≠ lease.leaseId ∨ leaseUntil ≠ lease.leaseUntilUnixMs ∨ nowUnixMs ≥ leaseUntil)
    .conflict

-- The job is written before it is validated, and stays written if that fails.
def writeJob (key : ScopedId) (value : MemoryStoreForwardState) :
    StoreResult StoreForwardJob × MemoryState :=
  ((validateStoreForwardJob value.job).mapError (fun _ => .invalidRecord) |>.map fun _ => value.job,
    { s with storeForwardJobs := s.storeForwardJobs.put key value })

variable (lease : StoreForwardLease)

def checkAttempt (deliveryId : DeliveryId)
    (attemptsUsed : U16) (nowUnixMs : ℤ) : StoreResult MemoryStoreForwardState := do
  let value ← (s.storeForwardJobs.get (lease.job.scope, lease.job.storeForwardId)).okOr
    .invalidRecord
  requireLease value lease nowUnixMs
  rejectIf (attemptsUsed ≠ value.job.attemptsUsed.saturatingSucc ∨
    attemptsUsed > value.job.policy.maxDeliveryAttempts ∨
    deliveryId ≠ storeForwardDeliveryId value.job.scope value.job.storeForwardId attemptsUsed)
    .conflict
  let attempt ← (s.deliveries.get (value.job.scope, deliveryId)).okOr .invalidRecord
  rejectIf (attempt.messageId ≠ value.job.messageId ∨ attempt.state ≠ .persisted) .conflict
  return value

def recordStoreForwardAttempt (deliveryId : DeliveryId) (attemptsUsed : U16) (nowUnixMs : ℤ) :
    StoreResult StoreForwardJob × MemoryState :=
  match s.checkAttempt lease deliveryId attemptsUsed nowUnixMs with
  | .error e  => (.error e, s)
  | .ok value => s.writeJob (lease.job.scope, lease.job.storeForwardId) { value with
      job := { value.job with attemptsUsed := attemptsUsed, lastDeliveryId := some deliveryId } }

def leasedJob (nowUnixMs : ℤ) :
    StoreResult MemoryStoreForwardState := do
  let value ← (s.storeForwardJobs.get (lease.job.scope, lease.job.storeForwardId)).okOr
    .invalidRecord
  requireLease value lease nowUnixMs
  return value

def rescheduleStoreForwardJob (nextAttemptAtUnixMs nowUnixMs : ℤ) :
    StoreResult StoreForwardJob × MemoryState :=
  match s.leasedJob lease nowUnixMs with
  | .error e  => (.error e, s)
  | .ok value => s.writeJob (lease.job.scope, lease.job.storeForwardId) { value with
      job   := { value.job with nextAttemptAtUnixMs := nextAttemptAtUnixMs }
      lease := none }

def completeStoreForwardJob (nowUnixMs : ℤ) :
    StoreResult (DurableRecordStatus × MemoryState) := do
  let value ← s.leasedJob lease nowUnixMs
  let key := (lease.job.scope, lease.job.storeForwardId)
  return (.persisted, { s with
    storeForwardTombstones := s.storeForwardTombstones.put key value.fingerprint
    storeForwardJobs := s.storeForwardJobs.erase key })

end MemoryState

-- What the three calls on attempts and their evidence leave behind also when they fail. A journal
-- is made before anything is known about the evidence.

namespace MemoryState

variable (s : MemoryState)

def openJournal (key : ScopedId) : MemoryState :=
  if (s.deliveryEvidence.get key).isSome then s
  else { s with deliveryEvidence := s.deliveryEvidence.put key [] }

def appendDeliveryEvidenceInPlace (key : ScopedId) (evidence : DeliveryEvidence) :
    StoreResult DurableRecordStatus × MemoryState :=
  let s := s.openJournal key
  (s.appendDeliveryEvidence key evidence).commit s

def checkTransition (key : ScopedId) (expectedState nextState : DeliveryState)
    (evidence : Option DeliveryEvidence) : StoreResult DeliveryAttempt := do
  let current ← (s.deliveries.get key).okOr .invalidRecord
  rejectIf (current.state ≠ expectedState) .conflict
  (validateDeliveryTransition current nextState).mapError fun _ => .invalidRecord
  rejectIf (proofRequired nextState ∧ evidence.isNone) .invalidRecord
  forM evidence.toList fun evidence =>
    (validateDeliveryEvidence current evidence nextState).mapError fun _ => .invalidRecord
  return current

def transitionDeliveryInPlace (scope : TenantScope) (deliveryId : DeliveryId)
    (expectedState nextState : DeliveryState) (evidence : Option DeliveryEvidence) :
    StoreResult DurableRecordStatus × MemoryState :=
  let key := (scope, deliveryId)
  match s.checkTransition key expectedState nextState evidence with
  | .error e    => (.error e, s)
  | .ok current =>
    let appended := evidence.elim (.ok .persisted, s) (s.appendDeliveryEvidenceInPlace key)
    match appended with
    | (.error e, s) => (.error e, s)
    | (.ok _, s)    =>
      (.ok .persisted, { s with
        deliveries := s.deliveries.put key { current with state := nextState } })

def checkRecording (evidence : DeliveryEvidence) :
    StoreResult Unit := do
  let current ← (s.deliveries.get (evidence.scope, evidence.deliveryId)).okOr .invalidRecord
  (validateDeliveryEvidenceBinding current evidence).mapError fun _ => .invalidRecord

def recordDeliveryEvidenceInPlace (evidence : DeliveryEvidence) :
    StoreResult DurableRecordStatus × MemoryState :=
  match s.checkRecording evidence with
  | .error e => (.error e, s)
  | .ok ()   => s.appendDeliveryEvidenceInPlace (evidence.scope, evidence.deliveryId) evidence

end MemoryState

inductive DeliveryCall
  | create (attempt : DeliveryAttempt) (persistedEvidence : DeliveryEvidence)
  | transition (scope : TenantScope) (deliveryId : DeliveryId)
      (expectedState nextState : DeliveryState) (evidence : Option DeliveryEvidence)
  | record (evidence : DeliveryEvidence)

def DeliveryCall.run (s : MemoryState) :
    DeliveryCall → StoreResult DurableRecordStatus × MemoryState
  | create attempt persistedEvidence => (s.createDeliveryAttempt attempt persistedEvidence).commit s
  | transition scope deliveryId expectedState nextState evidence =>
    s.transitionDeliveryInPlace scope deliveryId expectedState nextState evidence
  | record evidence => s.recordDeliveryEvidenceInPlace evidence

inductive DeliveryOp
  | persistCommunicationIntent (intent : CommunicationIntent)
  | createDeliveryAttempt (attempt : DeliveryAttempt) (persistedEvidence : DeliveryEvidence)
  | transitionDelivery (scope : TenantScope) (deliveryId : DeliveryId)
      (expectedState nextState : DeliveryState) (evidence : Option DeliveryEvidence)
  | recordDeliveryEvidence (evidence : DeliveryEvidence)
  | persistStoreForwardJob (job : StoreForwardJob)
  | claimStoreForwardJob (scope : TenantScope) (storeForwardId : StoreForwardId)
      (leaseId : StoreForwardLeaseId) (nowUnixMs leaseUntilUnixMs : ℤ)
  | recordStoreForwardAttempt (lease : StoreForwardLease) (deliveryId : DeliveryId)
      (attemptsUsed : U16) (nowUnixMs : ℤ)
  | rescheduleStoreForwardJob (lease : StoreForwardLease) (nextAttemptAtUnixMs nowUnixMs : ℤ)
  | completeStoreForwardJob (lease : StoreForwardLease) (nowUnixMs : ℤ)

def DeliveryOp.run (s : MemoryState) : DeliveryOp → MemoryState
  | .persistCommunicationIntent intent => ((s.persistCommunicationIntent intent).commit s).2
  | .createDeliveryAttempt attempt persistedEvidence =>
    ((s.createDeliveryAttempt attempt persistedEvidence).commit s).2
  | .transitionDelivery scope deliveryId expectedState nextState evidence =>
    ((s.transitionDelivery scope deliveryId expectedState nextState evidence).commit s).2
  | .recordDeliveryEvidence evidence => ((s.recordDeliveryEvidence evidence).commit s).2
  | .persistStoreForwardJob job => ((s.persistStoreForwardJob job).commit s).2
  | .claimStoreForwardJob scope storeForwardId leaseId nowUnixMs leaseUntilUnixMs =>
    ((s.claimStoreForwardJob scope storeForwardId leaseId nowUnixMs leaseUntilUnixMs).commit s).2
  | .recordStoreForwardAttempt lease deliveryId attemptsUsed nowUnixMs =>
    (s.recordStoreForwardAttempt lease deliveryId attemptsUsed nowUnixMs).2
  | .rescheduleStoreForwardJob lease nextAttemptAtUnixMs nowUnixMs =>
    (s.rescheduleStoreForwardJob lease nextAttemptAtUnixMs nowUnixMs).2
  | .completeStoreForwardJob lease nowUnixMs => ((s.completeStoreForwardJob lease nowUnixMs).commit s).2

end Ucr
