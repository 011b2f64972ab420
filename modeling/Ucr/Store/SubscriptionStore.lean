import Ucr.Lib.Slice
import Ucr.Store.EventStore

-- Consuming a subscription: batches are handed out, acknowledged, rejected and replayed.

namespace Ucr

open Except

namespace MemoryState

-- One pass over the journal behind `position`. `events` and `bytes` are what the batch holds so
-- far, `endPosition` is the last entry it accounts for: entries the subscription does not select
-- are skipped, and an entry that does not fit any more is left for the next batch.
def nextEventBatchLoop (s : MemoryState) (sub : MemoryEventSubscriptionState) (limit : ℕ)
    (position : ℕ) (events : List EventEnvelope) (endPosition bytes : ℕ) :
    List ScopedId → StoreResult (List EventEnvelope × ℕ)
  | [] => return (events, endPosition)
  | key :: rest => do
    let event ← (s.events.get key).okOr .corrupt
    if ¬sub.selects event then
      s.nextEventBatchLoop sub limit (position + 1) events (position + 1) bytes rest
    else
      match ← (eventDeliveryBatchNextSize bytes event).mapError fun _ => .invalidRecord with
      | none =>
        rejectIf events.isEmpty .corrupt
        return (events, endPosition)
      | some nextBytes =>
        let events := events ++ [event]
        if events.length = limit then
          return (events, position + 1)
        else
          s.nextEventBatchLoop sub limit (position + 1) events (position + 1) nextBytes rest

def memoryNextEventBatch (s : MemoryState) (sub : MemoryEventSubscriptionState) (limit : ℕ) :
    StoreResult (Option (List EventEnvelope × ℕ)) := do
  let start := sub.committedPosition
  rejectIf (start > s.eventOrder.length) .corrupt
  let (events, endPosition) ←
    s.nextEventBatchLoop sub limit start [] start 0 (s.eventOrder.drop start)
  return if events.isEmpty then none else some (events, endPosition)

-- The event of a journal entry with its size, if the subscription selects it.
def activeEvent (s : MemoryState) (sub : MemoryEventSubscriptionState) (key : ScopedId) :
    StoreResult (Option (EventEnvelope × ℕ)) := do
  let event ← (s.events.get key).okOr .corrupt
  if sub.selects event then
    let size ← (eventDeliverySize event).mapError fun _ => .invalidRecord
    return some (event, size)
  else
    return none

def memoryActiveEvents (s : MemoryState) (sub : MemoryEventSubscriptionState)
    (active : MemoryEventActiveBatch) : StoreResult (List EventEnvelope) := do
  let start := sub.committedPosition
  rejectIf (start > active.endPosition ∨ active.endPosition > s.eventOrder.length) .corrupt
  let slice ← (s.eventOrder.between start active.endPosition).mapM (s.activeEvent sub)
  let events := slice.reduceOption.map Prod.fst
  rejectIf (events.isEmpty ∨ events.length > sub.subscription.maxInFlight.val ∨
    (slice.reduceOption.map Prod.snd).sum > maxEventDeliveryBatchBytes) .corrupt
  return events

def putSubscription (s : MemoryState) (key : ScopedId) (sub : MemoryEventSubscriptionState) :
    MemoryState :=
  { s with eventSubscriptions := s.eventSubscriptions.put key sub }

def pollEventSubscription (s : MemoryState) (scope : TenantScope)
    (subscriptionId : EventSubscriptionId) (maxItems : ℕ) (nowUnixMs : ℤ) :
    StoreResult (EventPollResult × MemoryState) := do
  (validateEventBatchSize maxItems).mapError fun _ => .invalidRecord
  rejectIf (nowUnixMs < 0) .invalidRecord
  let key := (scope, subscriptionId)
  let sub ← (s.eventSubscriptions.get key).okOr .invalidRecord
  rejectIf (sub.subscription.scope ≠ scope) .corrupt
  match sub.active with
  | some active =>
    if nowUnixMs < active.notBeforeUnixMs then
      return (.retryAfter (active.notBeforeUnixMs - nowUnixMs).toNat, s)
    else
      let events ← s.memoryActiveEvents sub active
      return (.batch ⟨subscriptionId, scope, events, sub.cursor scope active, active.attempt⟩, s)
  | none =>
    let limit := min maxItems sub.subscription.maxInFlight.val
    match ← s.memoryNextEventBatch sub limit with
    -- Nothing to deliver: everything seen so far counts as consumed.
    | none =>
      return (.empty, s.putSubscription key { sub with committedPosition := s.eventOrder.length })
    | some (events, endPosition) =>
      let active : MemoryEventActiveBatch := ⟨endPosition, 1, nowUnixMs⟩
      return (.batch ⟨subscriptionId, scope, events, sub.cursor scope active, active.attempt⟩,
        s.putSubscription key { sub with active := some active })

-- Checks a cursor against the outstanding batch; nothing is returned for a repeated action.
def requireActiveCursor (s : MemoryState) (scope : TenantScope)
    (subscriptionId : EventSubscriptionId) (cursor : EventConsumerCursor)
    (action : MemoryEventCursorAction) :
    StoreResult
      (Option (MemoryEventSubscriptionState × MemoryEventActiveBatch)) := do
  let sub ← (s.eventSubscriptions.get (scope, subscriptionId)).okOr .invalidRecord
  match sub.lastCursorAction.filter (·.1 = cursor.token) with
  | some (_, last) =>
    rejectIf (last ≠ action) .conflict
    return none
  | none =>
    let active ← sub.active.okOr .conflict
    rejectIf (sub.cursor scope active ≠ cursor) .conflict
    return some (sub, active)

def acknowledgeEventCursor (s : MemoryState) (scope : TenantScope)
    (subscriptionId : EventSubscriptionId) (cursor : EventConsumerCursor) :
    StoreResult (DurableRecordStatus × MemoryState) := do
  (validateEventConsumerCursor cursor).mapError fun _ => .invalidRecord
  match ← s.requireActiveCursor scope subscriptionId cursor .acknowledge with
  | none => return (.duplicate, s)
  | some (sub, active) =>
    return (.persisted, s.putSubscription (scope, subscriptionId) { sub with
      committedPosition := active.endPosition
      active := none
      lastCursorAction := some (cursor.token, .acknowledge) })

def isTerminalRejection (sub : MemoryEventSubscriptionState) (active : MemoryEventActiveBatch)
    (failureKind : EventDeliveryFailureKind) : Bool :=
  failureKind = .permanent || active.attempt ≥ sub.subscription.maxAttempts

-- The next attempt at a batch that is to be retried.
def retryBatch (active : MemoryEventActiveBatch) (nowUnixMs : ℤ) :
    StoreResult MemoryEventActiveBatch := do
  rejectIf (active.attempt.val + 1 ≥ 2 ^ 32) .corrupt
  let nextAttempt : U32 := active.attempt + 1
  let notBefore := nowUnixMs + eventRetryDelayMs nextAttempt
  rejectIf (notBefore > maxI64) .invalidRecord
  return ⟨active.endPosition, nextAttempt, notBefore⟩

-- The checks of a rejection, with the events a terminal one moves to the dead letters.
def prepareRejection (s : MemoryState) (scope : TenantScope) (subscriptionId : EventSubscriptionId)
    (cursor : EventConsumerCursor) (failureKind : EventDeliveryFailureKind) (nowUnixMs : ℤ) :
    StoreResult (Option (MemoryEventSubscriptionState × MemoryEventActiveBatch ×
      Option (List EventEnvelope))) := do
  (validateEventConsumerCursor cursor).mapError fun _ => .invalidRecord
  rejectIf (nowUnixMs < 0) .invalidRecord
  match ← s.requireActiveCursor scope subscriptionId cursor .reject with
  | none => return none
  | some (sub, active) =>
    if isTerminalRejection sub active failureKind then
      return some (sub, active, some (← s.memoryActiveEvents sub active))
    else
      return some (sub, active, none)

-- The cursor action is noted before the retry is computed, and stays noted if that fails.
def rejectEventCursor (s : MemoryState) (scope : TenantScope) (subscriptionId : EventSubscriptionId)
    (cursor : EventConsumerCursor) (failureKind : EventDeliveryFailureKind) (nowUnixMs : ℤ) :
    StoreResult DurableRecordStatus × MemoryState :=
  match s.prepareRejection scope subscriptionId cursor failureKind nowUnixMs with
  | .error e => (.error e, s)
  | .ok none => (.ok .duplicate, s)
  | .ok (some (sub, active, deadEvents?)) =>
    let key := (scope, subscriptionId)
    let noted := { sub with lastCursorAction := some (cursor.token, .reject) }
    match deadEvents? with
    | some deadEvents => (.ok .persisted, s.putSubscription key { noted with
        deadLetters := noted.deadLetters ++ deadEvents.map fun event =>
          ⟨subscriptionId, scope, event, active.attempt, failureKind⟩
        committedPosition := active.endPosition
        active := none })
    | none =>
      match retryBatch active nowUnixMs with
      | .error e  => (.error e, s.putSubscription key noted)
      | .ok retry => (.ok .persisted, s.putSubscription key { noted with active := some retry })

def replayEventSubscription (s : MemoryState) (scope : TenantScope)
    (subscriptionId : EventSubscriptionId) (replayId : OpaqueId) :
    StoreResult (DurableRecordStatus × MemoryState) := do
  let sub ← (s.eventSubscriptions.get (scope, subscriptionId)).okOr .invalidRecord
  if sub.lastReplayId = some replayId then
    return (.duplicate, s)
  let generation ← sub.generation.checkedSucc.okOr .corrupt
  return (.persisted, s.putSubscription (scope, subscriptionId) { sub with
    generation := generation
    committedPosition := 0
    active := none
    lastCursorAction := none
    deadLetters := []
    lastReplayId := some replayId })

end MemoryState

end Ucr
