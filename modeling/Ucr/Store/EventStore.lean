import Ucr.Protocol.Event
import Ucr.Store.State

-- The event journal with all ways of writing to it, and the subscriptions that read it in batches.

namespace Ucr

open Except

def maxAtomicEventBatch : ℕ := 16
def legacyIdempotencyReservationCommandType : String := "ucr.command.idempotency.reservation.v1"
def legacyIdempotencyReservationPayload : Bytes := utf8 "UCR-LEGACY-IDEMPOTENCY-RESERVATION-V1"

def mapCommandError : CommandError → DurableStoreError
  | .idempotencyConflict => .conflict
  | _ => .invalidRecord

def EventEnvelope.key (event : EventEnvelope) : ScopedId :=
  (event.scope, event.eventId)

-- The kind of actor a principal appears as in events of its own, if there is one.
def directActorKind : PrincipalKind → Option ActorKind
  | .person => some .person
  | .aiAgent => some .aiAgent
  | .bot => some .bot
  | .organization => some .organization
  | .device | .serviceAccount | .automation | .externalPlatform => none

def eventIsAttributedToPrincipal (event : EventEnvelope) (principal : PrincipalRef) : Bool :=
  match directActorKind principal.kind with
  | some kind =>
    event.actor.kind = kind && event.actor.actorId = principal.principalId &&
      event.actor.onBehalfOf.isNone
  | none => event.actor.kind = .system && event.actor.onBehalfOf = some principal.principalId

def eventVisibleToSubscriptionOwner (owner : ScopedPrincipal) (event : EventEnvelope) : Bool :=
  owner.principal.kind ≠ .serviceAccount || eventIsAttributedToPrincipal event owner.principal

namespace MemoryEventSubscriptionState

def selects (sub : MemoryEventSubscriptionState) (event : EventEnvelope) : Bool :=
  eventMatchesSubscription sub.subscription event && eventVisibleToSubscriptionOwner sub.owner event

def cursor (sub : MemoryEventSubscriptionState) (scope : TenantScope)
    (active : MemoryEventActiveBatch) : EventConsumerCursor :=
  eventConsumerCursorToken scope sub.subscription sub.generation active.endPosition active.attempt

end MemoryEventSubscriptionState

namespace MemoryState

def eventIdInUse (s : MemoryState) (key : ScopedId) : Bool :=
  (s.groupChanges.get key).isSome || (s.callSignals.get key).isSome

def journalEvent (s : MemoryState) (event : EventEnvelope) : MemoryState :=
  { s with
    events     := s.events.put event.key event
    eventOrder := s.eventOrder ++ [event.key] }

def appendEvent (s : MemoryState) (event : EventEnvelope) :
    StoreResult (EventAppendStatus × MemoryState) := do
  let event ← (canonicalEvent event).mapError fun _ => .invalidRecord
  match s.events.get event.key with
  | some original =>
    rejectIf (original ≠ event) .conflict
    return (.duplicate, s)
  | none =>
    rejectIf (s.eventIdInUse event.key) .conflict
    return (.appended, s.journalEvent event)

-- Sorts the events of an atomic append into those already there and those to be written.
def stageEvents (s : MemoryState) (staged : List EventEnvelope) :
    List EventEnvelope → StoreResult (List EventAppendStatus × List EventEnvelope)
  | [] => return ([], staged)
  | event :: rest => do
    match s.events.get event.key with
    | some existing =>
      rejectIf (existing ≠ event) .conflict
      let (statuses, staged) ← s.stageEvents staged rest
      return (.duplicate :: statuses, staged)
    | none =>
      rejectIf (s.eventIdInUse event.key) .conflict
      match staged.find? (·.key = event.key) with
      | some existing =>
        rejectIf (existing ≠ event) .conflict
        let (statuses, staged) ← s.stageEvents staged rest
        return (.duplicate :: statuses, staged)
      | none =>
        let (statuses, staged) ← s.stageEvents (staged ++ [event]) rest
        return (.appended :: statuses, staged)

def appendEventsAtomically (s : MemoryState) (events : List EventEnvelope) :
    StoreResult (List EventAppendStatus × MemoryState) := do
  rejectIf (events.isEmpty ∨ events.length > maxAtomicEventBatch) .invalidRecord
  let canonical ← events.mapM fun event => (canonicalEvent event).mapError fun _ => .invalidRecord
  let (statuses, staged) ← s.stageEvents [] canonical
  return (statuses, staged.foldl journalEvent s)

def loadAntiEntropySession (s : MemoryState) (scope : TenantScope) (sessionId : SessionId) :
    StoreResult SyncSession := do
  let session ← (s.syncSessions.get (scope, sessionId)).okOr .invalidRecord
  (validateAntiEntropySession session).mapError fun _ => .invalidRecord
  return session

def reconcileEvent (s : MemoryState) (scope : TenantScope) (sessionId : SessionId)
    (event : EventEnvelope) : StoreResult (EventAppendStatus × MemoryState) := do
  let event ← (canonicalEvent event).mapError fun _ => .invalidRecord
  rejectIf (event.scope ≠ scope) .invalidRecord
  let _ ← s.loadAntiEntropySession scope sessionId
  match s.events.get event.key with
  | some existing =>
    let localFingerprint ← (eventFingerprint existing).mapError fun _ => .corrupt
    let fingerprint ← (eventFingerprint event).mapError fun _ => .invalidRecord
    rejectIf (localFingerprint ≠ fingerprint) .conflict
    return (.duplicate, s)
  | none =>
    rejectIf (s.eventIdInUse event.key) .conflict
    return (.appended, s.journalEvent event)

def recordTerminalEvent (s : MemoryState) (scope : TenantScope) (commandId : CommandId)
    (event : EventEnvelope) : StoreResult (EventAppendStatus × MemoryState) := do
  let event ← (canonicalEvent event).mapError fun _ => .invalidRecord
  rejectIf (event.scope ≠ scope ∨ event.correlation.causationId ≠ some commandId) .invalidRecord
  let commandRef := (scope, commandId)
  rejectIf (s.acceptedById.get commandRef).isNone .invalidRecord
  match s.terminalEvents.get commandRef with
  | some existingId =>
    rejectIf (existingId ≠ event.eventId) .conflict
    rejectIf (s.events.get event.key ≠ some event) .conflict
    return (.duplicate, s)
  | none =>
    rejectIf (s.eventIdInUse event.key) .conflict
    let recorded := { s with terminalEvents := s.terminalEvents.put commandRef event.eventId }
    match s.events.get event.key with
    | some original =>
      rejectIf (original ≠ event) .conflict
      return (.appended, recorded)
    | none => return (.appended, recorded.journalEvent event)

def receiptForExisting (original incoming : CommandEnvelope) :
    StoreResult CommandReceipt := do
  let repeated ← (compareCommandIdempotency original incoming).mapError mapCommandError
  let originalCommandId ← repeated.okOr .internal
  return duplicateCommandReceipt incoming.commandId originalCommandId

def acceptCommand (s : MemoryState) (command : CommandEnvelope) :
    StoreResult (CommandReceipt × MemoryState) := do
  let command ← (canonicalCommand command).mapError mapCommandError
  let idempotencyKey ← command.correlation.idempotencyKey.okOr .invalidRecord
  let key := (command.scope, idempotencyKey)
  let commandRef := (command.scope, command.commandId)
  match s.accepted.get key with
  | some original => return (← receiptForExisting original command, s)
  | none =>
    rejectIf (s.acceptedById.get commandRef).isSome .conflict
    return (acceptedCommandReceipt command.commandId, { s with
      accepted     := s.accepted.put key command
      acceptedById := s.acceptedById.put commandRef command })

def commandKey (command : CommandEnvelope) : StoreResult (TenantScope × String) := do
  return (command.scope, ← command.correlation.idempotencyKey.okOr .invalidRecord)

def isLegacyReservation (command : CommandEnvelope) : Bool :=
  command.commandType = legacyIdempotencyReservationCommandType &&
    command.payload = legacyIdempotencyReservationPayload

-- The command that holds a key of the former format.
def legacyReservation (legacyIncoming : CommandEnvelope) (reservationId : CommandId) :
    CommandEnvelope :=
  { legacyIncoming with
    commandId   := reservationId
    commandType := legacyIdempotencyReservationCommandType
    payload     := legacyIdempotencyReservationPayload
    correlation := { legacyIncoming.correlation with
      correlationId := reservationId
      causationId   := none } }

def insertCommand (s : MemoryState) (key : TenantScope × String) (command : CommandEnvelope) :
    MemoryState :=
  { s with
    accepted     := s.accepted.put key command
    acceptedById := s.acceptedById.put (command.scope, command.commandId) command }

-- Reserves the key of the former format, unless a command was accepted under it: then that command
-- decides. The identifier of the reservation is generated, which may fail.
def reserveLegacyKey (s : MemoryState) (rawKey : TenantScope × String)
    (legacyIncoming : CommandEnvelope) (generated : Option CommandId) :
    StoreResult (Option CommandReceipt × MemoryState) := do
  match s.accepted.get rawKey with
  | some original =>
    if isLegacyReservation original then
      return (none, s)
    else
      return (some (← receiptForExisting original legacyIncoming), s)
  | none =>
    let reservationId ← generated.okOr .internal
    let reservation ←
      (canonicalCommand (legacyReservation legacyIncoming reservationId)).mapError mapCommandError
    rejectIf (s.acceptedById.get (reservation.scope, reservation.commandId)).isSome .conflict
    return (none, s.insertCommand rawKey reservation)

def acceptCanonicalCommand (s : MemoryState) (key : TenantScope × String)
    (command : CommandEnvelope) : StoreResult (CommandReceipt × MemoryState) := do
  match s.accepted.get key with
  | some original => return (← receiptForExisting original command, s)
  | none =>
    rejectIf (s.acceptedById.get (command.scope, command.commandId)).isSome .conflict
    return (acceptedCommandReceipt command.commandId, s.insertCommand key command)

-- A command in canonical form under its own key and under the one of the former format.
def legacyCommands (command : CommandEnvelope) (legacyIdempotencyKey : String) :
    StoreResult
      ((TenantScope × String) × CommandEnvelope × (TenantScope × String) × CommandEnvelope) := do
  let command ← (canonicalCommand command).mapError mapCommandError
  let legacyIncoming ← (canonicalCommand { command with
    correlation := { command.correlation with
      idempotencyKey := some legacyIdempotencyKey } }).mapError mapCommandError
  return (← commandKey legacyIncoming, legacyIncoming, ← commandKey command, command)

-- The reservation is written before the command is looked at, and stays written if that one fails.
def acceptCommandWithLegacyReservation (s : MemoryState) (command : CommandEnvelope)
    (legacyIdempotencyKey : String) (generated : Option CommandId) :
    StoreResult CommandReceipt × MemoryState :=
  match legacyCommands command legacyIdempotencyKey with
  | .error e => (.error e, s)
  | .ok (rawKey, legacyIncoming, key, command) =>
    match s.reserveLegacyKey rawKey legacyIncoming generated with
    | .error e => (.error e, s)
    | .ok (some receipt, s) => (.ok receipt, s)
    | .ok (none, reserved) => (reserved.acceptCanonicalCommand key command).commit reserved

def createSyncSession (s : MemoryState) (session : SyncSession) :
    StoreResult (DurableRecordStatus × MemoryState) := do
  let canonical ← (canonicalSyncSession session).mapError fun _ => .invalidRecord
  let key := (canonical.scope, canonical.sessionId)
  match ← storeOnce (s.syncSessions.get key) canonical with
  | .duplicate => return (.duplicate, s)
  | .persisted => return (.persisted, { s with syncSessions := s.syncSessions.put key canonical })

def transitionSync (s : MemoryState) (scope : TenantScope) (sessionId : SessionId)
    (expectedState nextState : SyncState) :
    StoreResult (DurableRecordStatus × MemoryState) := do
  let session ← (s.syncSessions.get (scope, sessionId)).okOr .invalidRecord
  rejectIf (session.state ≠ expectedState) .conflict
  if expectedState = nextState then
    return (.duplicate, s)
  (validateSyncTransition expectedState nextState).mapError fun _ => .conflict
  return (.persisted, { s with
    syncSessions := s.syncSessions.put (scope, sessionId) { session with state := nextState } })

def startPosition (s : MemoryState) : EventSubscriptionStart → ℕ
  | .beginning => 0
  | .latest    => s.eventOrder.length

def newEventSubscription (s : MemoryState) (owner : ScopedPrincipal)
    (subscription : EventSubscription) : MemoryEventSubscriptionState where
  subscription := subscription
  owner := owner
  committedPosition := s.startPosition subscription.start
  generation := 1
  active := none
  lastCursorAction := none
  lastReplayId := none
  deadLetters := []

def persistEventSubscription (s : MemoryState) (owner : ScopedPrincipal)
    (subscription : EventSubscription) :
    StoreResult (DurableRecordStatus × MemoryState) := do
  let canonical ← (canonicalEventSubscription subscription).mapError fun _ => .invalidRecord
  rejectIf (owner.scope ≠ canonical.scope) .permissionDenied
  let key := (canonical.scope, canonical.subscriptionId)
  match s.eventSubscriptions.get key with
  | some existing =>
    rejectIf (¬(existing.subscription = canonical ∧ existing.owner = owner)) .conflict
    return (.duplicate, s)
  | none =>
    return (.persisted, { s with
      eventSubscriptions :=
        s.eventSubscriptions.put key (s.newEventSubscription owner canonical) })

end MemoryState

end Ucr
