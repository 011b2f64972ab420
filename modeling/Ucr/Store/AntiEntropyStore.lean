import Ucr.Lib.Slice
import Ucr.Store.EventStore

-- Two stores compare their journals by summaries, a page at a time, and exchange what is missing.

namespace Ucr

open Except Encoding

def memoryCursorVersion : UInt8 := 1
def memoryCursorLen : ℕ := 1 + 32 + 8 + 8

def encodeMemoryCursor (session : SyncSession) (snapshot position : ℕ) : AntiEntropyCursor :=
  ⟨[memoryCursorVersion] ++ antiEntropySessionBinding session ++ beBytes 8 snapshot ++
    beBytes 8 position⟩

def decodeMemoryCursor (session : SyncSession) (cursor : AntiEntropyCursor) :
    StoreResult (ℕ × ℕ) := do
  (validateAntiEntropyCursor cursor.token).mapError fun _ => .invalidRecord
  rejectIf (cursor.token.length ≠ memoryCursorLen ∨
    cursor.token.head? ≠ some memoryCursorVersion) .invalidRecord
  rejectIf (cursor.token.between 1 33 ≠ antiEntropySessionBinding session) .invalidRecord
  let snapshot := beNat (cursor.token.between 33 41)
  let position := beNat (cursor.token.between 41 49)
  rejectIf (position > snapshot) .invalidRecord
  return (snapshot, position)

namespace MemoryState

-- The entries of the journal from `position` to the snapshot, as far as the page has room.
def summaryLoop (s : MemoryState) (scope : TenantScope) (maxItems position : ℕ)
    (summaries : List EventSummary) :
    List ScopedId → StoreResult (List EventSummary × ℕ)
  | [] => return (summaries, position)
  | key :: rest =>
    if summaries.length ≥ maxItems then
      return (summaries, position)
    else if key.1 ≠ scope then
      s.summaryLoop scope maxItems (position + 1) summaries rest
    else do
      let event ← (s.events.get key).okOr .corrupt
      let fingerprint ← (eventFingerprint event).mapError fun _ => .corrupt
      s.summaryLoop scope maxItems (position + 1) (summaries ++ [⟨event.eventId, fingerprint⟩]) rest

-- The snapshot a page belongs to, and where it starts.
def pageStart (s : MemoryState) (session : SyncSession) :
    Option AntiEntropyCursor → StoreResult (ℕ × ℕ)
  | some cursor => decodeMemoryCursor session cursor
  | none => return (s.eventOrder.length, 0)

def antiEntropySummaryPage (s : MemoryState) (scope : TenantScope) (sessionId : SessionId)
    (cursor : Option AntiEntropyCursor) (maxItems : ℕ) :
    StoreResult AntiEntropyPage := do
  (validateAntiEntropyPageSize maxItems).mapError fun _ => .invalidRecord
  let session ← s.loadAntiEntropySession scope sessionId
  let (snapshot, position) ← s.pageStart session cursor
  rejectIf (snapshot > s.eventOrder.length) .corrupt
  let (summaries, position) ←
    s.summaryLoop scope maxItems position [] (s.eventOrder.between position snapshot)
  return ⟨session.sessionId, session.scope, summaries,
    if position < snapshot then some (encodeMemoryCursor session snapshot position) else none⟩

def replicaState (s : MemoryState) (scope : TenantScope) (summary : EventSummary) :
    StoreResult EventReplicaState :=
  match s.events.get (scope, summary.eventId) with
  | none => return .missing
  | some existing => do
    let localFingerprint ← (eventFingerprint existing).mapError fun _ => .corrupt
    return if localFingerprint = summary.fingerprint then .matching else .damaged

def classifyLoop (s : MemoryState) (scope : TenantScope) (seen : List EventId) :
    List EventSummary → StoreResult (List EventReconciliation)
  | [] => return []
  | summary :: rest => do
    rejectIf (summary.eventId ∈ seen) .invalidRecord
    let state ← s.replicaState scope summary
    let result ← s.classifyLoop scope (summary.eventId :: seen) rest
    return ⟨summary.eventId, state⟩ :: result

def classifyEventSummaries (s : MemoryState) (scope : TenantScope) (sessionId : SessionId)
    (summaries : List EventSummary) : StoreResult (List EventReconciliation) := do
  (validateAntiEntropySummaryCount summaries.length).mapError fun _ => .invalidRecord
  let _ ← s.loadAntiEntropySession scope sessionId
  s.classifyLoop scope [] summaries

end MemoryState

end Ucr
