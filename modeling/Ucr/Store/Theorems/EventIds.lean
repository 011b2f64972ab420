import Ucr.Protocol.Theorems.RecordingLife
import Ucr.Store.Theorems.Invariant

-- In every run an event identifier gets one meaning and keeps it.

namespace Ucr

open Relation MemoryState

variable {s s' : MemoryState}

namespace MemoryState

theorem run_records (hs : s.Keyed) (op : StoreOp) :
    s.toEventLedgers.Records (op.run s).toEventLedgers := by
  have hcases := run_cases hs op
  split at hcases
  case h_1 =>
    obtain hsame | ⟨sub, hput⟩ := hcases
    · rw [hsame]
    · rw [hput]
      exact .refl
  case h_2 => exact hcases.eventsGrow.records

theorem runs_records (hs : s.Reachable) (hrun : StoreRun s s') :
    s.toEventLedgers.Records s'.toEventLedgers :=
  hs.induction hrun .refl fun _ op ht ih => ih.trans (run_records ht.attainable.keyed op)

theorem Reachable.ledgersSound (hs : s.Reachable) : s.toEventLedgers.Sound := by
  refine (runs_records .refl hs).sound ⟨fun key => ?_, List.nodup_nil, fun key => ?_, fun key => ?_⟩
  · simp [EventLedgers.uses, empty]
  · simp [empty]
  · simp [empty]

end MemoryState

-- At most one ledger knows an identifier, the order of the journal lists the events that are
-- stored, each once and under its own identifier, and later operations change nothing that is
-- recorded.
theorem event_ids_have_one_meaning (hs : s.Reachable) (hrun : StoreRun s s') :
    (∀ key, s.uses key ≤ 1) ∧
      s.eventOrder.Nodup ∧ (∀ key, key ∈ s.eventOrder ↔ (s.events.get key).isSome) ∧
      (∀ key event, s.events.get key = some event → event.key = key) ∧
      (∀ key event, s.events.get key = some event → s'.events.get key = some event) ∧
      (∀ key change, s.groupChanges.get key = some change → s'.groupChanges.get key = some change) ∧
      ∀ key signal, s.callSignals.get key = some signal →
        s'.callSignals.get key = some signal := by
  have hsound := hs.ledgersSound
  have hextends := (runs_records hs hrun).extends
  exact ⟨hsound.exclusive, hsound.nodup, hsound.listed, hsound.keyed, hextends.events,
    hextends.changes, hextends.signals⟩

namespace Scenario

def memoStarted : EventEnvelope :=
  { journalEntry (named "memo-started") "ucr.recording.started" with
    logicalOrder := 2 }

def memoStore : MemoryState :=
  empty.runAll [.recording (.persistRecording memo),
    .recording (.startRecordingWithEvent tenant memo.recordingId 1 100 memoStarted)]

-- The identifier of the start is used again, for another event.
def memoReused : MemoryState :=
  memoStore.runAll [.appendEvent { memoStarted with eventType := "ucr.note" }]

end Scenario

open Scenario

-- The start of the memo is the only event, and stays what it is.
theorem memo_start_is_kept :
    memoStore.eventOrder = [memoStarted.key] ∧
      memoStore.events.get memoStarted.key = some memoStarted ∧
      memoStore.uses memoStarted.key ≤ 1 ∧
      memoReused.events.get memoStarted.key = some memoStarted := by
  have hstored : memoStore.events.get memoStarted.key =
      some memoStarted := by decide +kernel
  obtain ⟨hexclusive, -, -, -, hevents, -, -⟩ :=
    event_ids_have_one_meaning (storeRun_runAll _ _)
      (storeRun_runAll memoStore
        [.appendEvent { memoStarted with eventType := "ucr.note" }])
  exact ⟨by decide +kernel, hstored, hexclusive _, hevents _ _ hstored⟩

end Ucr
