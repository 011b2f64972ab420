import Ucr.Store.DeliveryStore
import Ucr.Transport.Failover

-- Store-and-forward: workers that process jobs against one store. Reading the clock, drawing an
-- identifier, each access to the store and each call that failover makes are steps of their own,
-- between which other workers run.

namespace Ucr

open Interleaving Except TransportOrchestrator

inductive IdGenerationError
  | osRandomUnavailable
  | internalEncoding

-- What the outside world can be asked. Each step takes from it what it asks for, and is answered
-- differently each time.
structure Answers where
  nowUnixMs : ℤ
  opaqueId  : Except IdGenerationError OpaqueId
  -- The intent of the job, with all that planning depends on, and the plan that is made for it.
  plan      : Except TransportOrchestratorError (OutboundIntent × TransportPlan)
  failover  : (call : FailoverCall) → FailoverAnswer call

-- What leaves a trace: jobs that are accepted, attempts that are found under way, counted, moved to
-- another state, and providers that are invoked.
inductive ForwardEvent
  | enqueued (job : StoreForwardJob)
  | found (delivery : ScopedId)
  | recorded (job : ScopedId) (ordinal : U16)
  | transitioned (delivery : ScopedId) (before after : DeliveryState)
  | invoked (job : StoreForwardJob) (deliveryId : DeliveryId)
deriving DecidableEq

inductive StoreForwardRuntimeError
  | store (error : DurableStoreError)
  | protocol (error : StoreForwardError)
  | idGeneration (error : IdGenerationError)
  | missingJob
  | missingIntent
  | missingMessage
  | unsupportedDeliveryPolicy
  | orchestrator (error : TransportOrchestratorError)

abbrev Worker := Fallible MemoryState Answers ForwardEvent StoreForwardRuntimeError

namespace Worker

variable {α : Type}

def read (f : MemoryState → α) : Worker α :=
  .atomic (fun _ s => (.ok (f s), s)) fun _ => none

-- An operation of the store, with the event it leaves if it succeeds.
def update (f : MemoryState → StoreResult α × MemoryState)
    (event : α → Option ForwardEvent) : Worker α :=
  .atomic (fun _ s => ((f s).1.mapError .store, (f s).2)) fun
    | .ok a    => event a
    | .error _ => none

def protocol (x : Except StoreForwardError α) : Worker α :=
  .ofExcept (x.mapError .protocol)

def some (o : Option α) (e : StoreForwardRuntimeError) : Worker α :=
  .ofExcept (o.okOr e)

end Worker

structure PreparedAttempt where
  attempt      : DeliveryAttempt
  attemptsUsed : U16

def validateDeliveryPolicy (message : MessageEnvelope) (job : StoreForwardJob) :
    Except StoreForwardRuntimeError Unit := do
  rejectIf (message.deliveryState ≠ .persisted ∨ message.deliveryPolicy = .bestEffort)
    .unsupportedDeliveryPolicy
  rejectIf (message.deliveryPolicy = .expiring ∧ job.policy.expiresAtUnixMs.isNone)
    .unsupportedDeliveryPolicy

-- The worker sees a job or an attempt as it was when it was read.
def loadCanonicalJob (scope : TenantScope) (storeForwardId : StoreForwardId) :
    Worker (Option StoreForwardJob) := do
  match ← Worker.read (·.storeForwardJob scope storeForwardId) with
  | none     => return none
  | some job =>
    Worker.protocol (validateStoreForwardJob job)
    return some job

variable (job : StoreForwardJob)

def loadJobOwners : Worker (CommunicationIntent × MessageEnvelope) := do
  let intent ← Worker.some (← Worker.read (·.intents.get (job.scope, job.intentId))) .missingIntent
  let message ←
    Worker.some (← Worker.read (·.messages.get (job.scope, job.messageId))) .missingMessage
  Fallible.ofExcept (validateDeliveryPolicy message job)
  return (intent, message)

def persistStoreForwardJob : Worker DurableRecordStatus :=
  Worker.update (fun s => (s.persistStoreForwardJob job).commit s) fun
    | .persisted => some (.enqueued job)
    | .duplicate => none

def enqueueCanonicalJob : Worker DurableRecordStatus := do
  Worker.protocol (validateStoreForwardJob job)
  Worker.protocol (rejectIf (job.attemptsUsed ≠ 0 ∨ job.lastDeliveryId.isSome)
    .invalidAttemptState)
  let (intent, message) ← loadJobOwners job
  Fallible.ofExcept (rejectIf (intent.scope ≠ job.scope ∨ message.scope ≠ job.scope)
    (.store .invalidRecord))
  persistStoreForwardJob job

-- An attempt that is found under way leaves a trace.
def foundInFlight (attempt : DeliveryAttempt) : Option ForwardEvent :=
  if attempt.state = .inFlight then some (.found attempt.key) else none

def lastAttempt : Worker (Option DeliveryAttempt) :=
  match job.lastDeliveryId with
  | none => return none
  | some deliveryId => do
    let attempt ← Worker.update
      (fun s => ((s.deliveries.get (job.scope, deliveryId)).okOr .corrupt, s)) foundInFlight
    return some attempt

def transitionDelivery (attempt : DeliveryAttempt) (before after : DeliveryState)
    (evidence : Option DeliveryEvidence) : Worker Unit := do
  let _ ← Worker.update
    (fun s => (s.transitionDelivery attempt.scope attempt.deliveryId before after evidence).commit s)
    fun _ => some (.transitioned attempt.key before after)

def claim (now : ℤ) : Worker (Option StoreForwardLease) := do
  let leaseId ← Fallible.ofExcept ((← Fallible.ask (·.opaqueId)).mapError .idGeneration)
  let leaseMs : ℤ := job.policy.leaseDurationMs.val
  Fallible.ofExcept (rejectIf (leaseMs > maxI64 ∨ now + leaseMs > maxI64)
    (.store .invalidRecord))
  Worker.update (fun s => (s.claimStoreForwardJob job.scope job.storeForwardId leaseId now
    (now + leaseMs)).commit s) fun _ => none

variable (lease : StoreForwardLease)

def completeStoreForwardJob (now : ℤ) : Worker Unit := do
  let _ ← Worker.update (fun s => (s.completeStoreForwardJob lease now).commit s) fun _ => none

def rescheduleStoreForwardJob (next now : ℤ) : Worker Unit := do
  let _ ← Worker.update (·.rescheduleStoreForwardJob lease next now) fun _ => none

def finishExisting (now : ℤ) (outcome : StoreForwardOutcome) :
    Worker StoreForwardOutcome := do
  if job.nextAttemptAtUnixMs > now then
    return .notDue
  else
    match ← claim job now with
    | none => return .busy
    | some lease =>
      completeStoreForwardJob lease now
      return outcome

def expireAttempt : Option DeliveryAttempt → Worker Unit
  | none => return
  | some attempt =>
    if isTerminalDeliveryState attempt.state then
      return
    else
      transitionDelivery attempt attempt.state .expired none

variable (last : Option DeliveryAttempt)

def expireExisting (now : ℤ) :
    Worker StoreForwardOutcome := do
  match ← claim job now with
  | none => return .busy
  | some lease =>
    expireAttempt last
    completeStoreForwardJob lease now
    return .expired

def resolveExistingState (now : ℤ) :
    Worker (Option StoreForwardOutcome) := do
  if last.any (·.state = .inFlight) then
    return some .acceptanceUnknown
  else if last.any fun attempt => attempt.state = .acknowledged || attempt.state = .delivered ||
      attempt.state = .read then
    return some (← finishExisting job now .acceptedByTransport)
  else if job.policy.expiresAtUnixMs.any (now ≥ ·) then
    return some (← expireExisting job last now)
  else if last.any (·.state = .expired) then
    return some (← finishExisting job now .expired)
  else if last.any (·.state = .failed) ∧ job.attemptsUsed ≥ job.policy.maxDeliveryAttempts then
    return some (← finishExisting job now .attemptsExhausted)
  else
    return if job.nextAttemptAtUnixMs > now then some .notDue else none

def createRetryAttempt : Worker (DeliveryAttempt × U16) := do
  let job := lease.job
  let ordinal := job.attemptsUsed.saturatingSucc
  Worker.protocol (rejectIf (ordinal = 0 ∨ ordinal > job.policy.maxDeliveryAttempts)
    .invalidAttemptState)
  let deliveryId := storeForwardDeliveryId job.scope job.storeForwardId ordinal
  let attempt : DeliveryAttempt := ⟨deliveryId, job.scope, job.messageId, .persisted⟩
  let evidence : DeliveryEvidence := ⟨deliveryId, job.scope, job.messageId, .persistedLocal, 1⟩
  let _ ← Worker.update (fun s => (s.createDeliveryAttempt attempt evidence).commit s) fun _ => none
  let now ← Fallible.ask (·.nowUnixMs)
  let _ ← Worker.update (·.recordStoreForwardAttempt lease deliveryId ordinal now)
    fun _ => some (.recorded job.key ordinal)
  return (attempt, ordinal)

-- One transition on the way to a route. The attempt at hand follows the stored one.
def advanceFrom (before after : DeliveryState) (attempt : DeliveryAttempt) :
    Worker DeliveryAttempt := do
  if attempt.state = before then
    transitionDelivery attempt before after none
    return { attempt with state := after }
  else
    return attempt

def normalizePreRouteAttempt (attempt : DeliveryAttempt) : Worker DeliveryAttempt := do
  let attempt ← advanceFrom .persisted .encrypted attempt
  let attempt ← advanceFrom .encrypted .queued attempt
  Fallible.ofExcept (rejectIf (¬(attempt.state = .queued ∨ attempt.state = .routePlanned))
    (.store .conflict))
  return attempt

-- What was read before the job was claimed decides whether a new attempt is made.
def chooseAttempt :
    Option DeliveryAttempt → Worker (DeliveryAttempt × U16)
  | some attempt =>
    if attempt.state ≠ .failed then return (attempt, job.attemptsUsed) else createRetryAttempt lease
  | none => createRetryAttempt lease

def prepareAttempt : Worker PreparedAttempt := do
  let (attempt, attemptsUsed) ← chooseAttempt job lease last
  let attempt ← normalizePreRouteAttempt attempt
  let attempt ← advanceFrom .queued .routePlanned attempt
  transitionDelivery attempt .routePlanned .inFlight none
  return ⟨{ attempt with state := .inFlight }, attemptsUsed⟩

def acceptAttempt (attempt : DeliveryAttempt) (now : ℤ) :
    Worker StoreForwardOutcome := do
  let evidence : DeliveryEvidence :=
    ⟨attempt.deliveryId, attempt.scope, attempt.messageId, .acceptedByTransport, 2⟩
  transitionDelivery attempt .inFlight .acknowledged (some evidence)
  completeStoreForwardJob lease now
  return .acceptedByTransport

def failAttempt (attempt : DeliveryAttempt)
    (attemptsUsed : U16) (now : ℤ) : Worker StoreForwardOutcome := do
  transitionDelivery attempt .inFlight .failed none
  if attemptsUsed ≥ job.policy.maxDeliveryAttempts then
    completeStoreForwardJob lease now
    return .attemptsExhausted
  else if job.policy.expiresAtUnixMs.any (now ≥ ·) then
    completeStoreForwardJob lease now
    return .expired
  else
    let next ← Worker.protocol (storeForwardNextAttemptAt now job.policy (max attemptsUsed 1))
    rescheduleStoreForwardJob lease next now
    return .rescheduledAfterFailure

-- Of the calls that failover makes, an invocation of a provider leaves a trace: for which attempt.
def invokes (event : ForwardEvent) : FailoverCall → Option ForwardEvent
  | .transmitClassified .. => some event
  | _ => none

-- One attempt is good for one invocation of a provider.
def executeAttempt (intent : OutboundIntent) (plan : TransportPlan) (prepared : PreparedAttempt)
    (protectedDevices : Bool) (now : ℤ) : Worker StoreForwardOutcome := do
  let failover : TransportFailoverPolicy := ⟨1, job.policy.expiresAtUnixMs⟩
  let transmission :=
    transmitWithFailoverInner intent plan job.encryptedEnvelope failover protectedDevices
  match ← Fallible.ofProg (transmission.perform Answers.failover
    (invokes (.invoked job prepared.attempt.deliveryId))) with
  | .ok _    => acceptAttempt lease prepared.attempt now
  | .error e =>
    if e.decision.stopReason = .acceptanceUnknown then
      return .acceptanceUnknown
    else
      failAttempt job lease prepared.attempt prepared.attemptsUsed now

def rescheduleNoRoute (now : ℤ) : Worker StoreForwardOutcome := do
  let next ← Worker.protocol
    (storeForwardNextAttemptAt now lease.job.policy (max lease.job.attemptsUsed 1))
  rescheduleStoreForwardJob lease next now
  return .rescheduledNoRoute

def sendUnderLease (lease : StoreForwardLease) (protectedDevices : Bool) (now : ℤ) :
    Worker StoreForwardOutcome := do
  let _ ← loadJobOwners job
  match ← Fallible.ask (·.plan) with
  | .ok (intent, plan) =>
    let prepared ← prepareAttempt job lease last
    executeAttempt job lease intent plan prepared protectedDevices now
  | .error .noEligibleRoute | .error .policyDenied | .error .policyPending =>
    rescheduleNoRoute lease now
  | .error e => throw (.orchestrator e)

def processOne (scope : TenantScope) (storeForwardId : StoreForwardId) (protectedDevices : Bool) :
    Worker StoreForwardOutcome := do
  let now ← Fallible.ask (·.nowUnixMs)
  let job ← Worker.some (← loadCanonicalJob scope storeForwardId) .missingJob
  let last ← lastAttempt job
  match ← resolveExistingState job last now with
  | some outcome => return outcome
  | none =>
    match ← claim job now with
    | none => return .busy
    | some lease => sendUnderLease job last lease protectedDevices now

-- Operations that have nothing to do with jobs and deliveries.
structure SameForwarding (s s' : MemoryState) : Prop where
  jobs : s'.storeForwardJobs = s.storeForwardJobs
  tombstones : s'.storeForwardTombstones = s.storeForwardTombstones
  deliveries : s'.deliveries = s.deliveries
  evidence : s'.deliveryEvidence = s.deliveryEvidence

-- What the runtime is asked to do. A job can also be put into the store directly.
inductive ForwardTask
  | persist (job : StoreForwardJob)
  | enqueue (job : StoreForwardJob)
  | processOne (scope : TenantScope) (storeForwardId : StoreForwardId) (protectedDevices : Bool)

inductive ForwardResult
  | enqueued (status : DurableRecordStatus)
  | processed (outcome : StoreForwardOutcome)

def ForwardTask.program : ForwardTask → Worker ForwardResult
  | persist job => return .enqueued (← persistStoreForwardJob job)
  | enqueue job => return .enqueued (← enqueueCanonicalJob job)
  | processOne scope storeForwardId protectedDevices =>
    return .processed (← Ucr.processOne scope storeForwardId protectedDevices)

-- Any number of workers at one store. Intents, messages and everything else the store keeps changes
-- as it likes.
def forwarding (allows : MemoryState → ForwardEvent → Prop) :
    Workload MemoryState Answers ForwardEvent ForwardTask
      (Except StoreForwardRuntimeError ForwardResult) where
  program task := task.program.run
  env := SameForwarding
  allows := allows

end Ucr
