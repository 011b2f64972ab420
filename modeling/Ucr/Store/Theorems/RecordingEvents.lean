import Ucr.Store.Theorems.Conferences
import Ucr.Store.Theorems.EventIds

-- A recording that changes its state is told of by an event of its own and handed to the provider
-- once, provided that the event is a new one.

namespace Ucr

open Except MemoryState

variable {s s' : MemoryState}

-- A transition with the event that tells of it and what it asks of the provider.
structure HandOver where
  key : ScopedId
  expectedRevision : U64
  transition : RecordingTransition
  event : EventEnvelope
  operation : RecordingProviderOperation

def HandOver.run (c : HandOver) (s : MemoryState) : StoreResult RecordingSession × MemoryState :=
  s.transitionRecordingWithEventAndProviderOperation c.key c.expectedRevision c.transition c.event
    c.operation

def StoreOp.handOver : StoreOp → Option HandOver
  | .recording (.setRecordingConsentWithEventAndProviderStop scope id revision participant state now
      event) =>
    some ⟨(scope, id), revision, (applyRecordingConsent · participant state now), event, .stop⟩
  | .recording (.startRecordingWithEventAndProviderOperation scope id revision now event) =>
    some ⟨(scope, id), revision, (startRecording · now), event, .start⟩
  | .recording (.stopRecordingWithEventAndProviderOperation scope id revision now event) =>
    some ⟨(scope, id), revision, (stopRecording · now), event, .stop⟩
  | .recording (.expireRecordingWithEventAndProviderOperation scope id revision now event) =>
    some ⟨(scope, id), revision, (expireRecording · now), event, .delete⟩
  | .recording (.deleteRecordingWithEventAndProviderOperation scope id revision now event) =>
    some ⟨(scope, id), revision, (deleteRecording · now), event, .delete⟩
  | _ => none

theorem StoreOp.run_handOver {op : StoreOp} (h : op.handOver = some c) :
    op.run s = (c.run s).2 := by
  simp only [StoreOp.handOver] at h
  split at h <;> cases h <;> rfl

def ChangesState (s s' : MemoryState) (key : ScopedId) : Bool :=
  (s.recordings.get key).any fun current => (s'.recordings.get key).any (·.state ≠ current.state)

-- The recordings change their states in these operations only.
def OnlyByHandOver (s : MemoryState) (op : StoreOp) : Bool :=
  op.handOver.isSome || s.recordings.entries.all fun e => !ChangesState s (op.run s) e.fst

-- An event is used once. What is based on another revision is refused anyway.
def WithNewEvent (s : MemoryState) (op : StoreOp) : Bool :=
  op.handOver.all fun c => (s.recordings.get c.key).all fun current =>
    current.revision = c.expectedRevision → (s.events.get c.event.key).isNone

def HandOver.request (c : HandOver) (next : RecordingSession) : RecordingProviderRequest :=
  .forSession next c.operation

-- The store with the recording and the provider's operation, before the event is journaled.
def HandOver.written (c : HandOver) (s : MemoryState) (next : RecordingSession) : MemoryState :=
  { s with
    recordings := s.recordings.put c.key next
    recordingProviderOperations := s.recordingProviderOperations.put
      (recordingProviderOperationKey (c.request next))
      ⟨c.request next, .pending, 0, c.event.wallTimeUnixMs⟩ }

-- What a change of a recording comes with.
structure TellsOf (c : HandOver) (s s' : MemoryState) (next : RecordingSession) : Prop where
  changed : ∃ current, s.recordings.get c.key = some current ∧ next.state ≠ current.state
  handed  : s.recordingProviderOperations.get (recordingProviderOperationKey (c.request next)) = none
  journal : ∃ event : EventEnvelope, event.key = c.event.key ∧ event.eventType = c.event.eventType ∧
    s.events.get event.key = none ∧ s' = (c.written s next).journalEvent event

variable {c : HandOver} {next : RecordingSession} {op : StoreOp} {ops : List StoreOp}

theorem nextRecordingWithEvent_spec
    (h : s.nextRecordingWithEvent c.key c.expectedRevision c.transition (some c.event) =
      .ok (current, next)) :
    s.recordings.get c.key = some current ∧ current.revision = c.expectedRevision ∧
      next.state ≠ current.state := by
  simp only [nextRecordingWithEvent, nextRecording, ok_iff, not_not] at h
  obtain ⟨⟨_, _⟩, ⟨_, hfound, _, hrevision, _, _, rfl, rfl⟩, _, hvalid, rfl, rfl⟩ := h
  refine ⟨hfound, hrevision, fun heq => ?_⟩
  dsimp only at heq
  simp [validateRecordingLifecycleEvent, heq] at hvalid

-- A hand-over that fails leaves the store as it was; the rollback restores what was written.
theorem HandOver.run_cases (c : HandOver) (s : MemoryState) : (∃ e, c.run s = (.error e, s)) ∨
    ∃ current next status s', s.recordings.get c.key = some current ∧
      current.revision = c.expectedRevision ∧ next.state ≠ current.state ∧
      s.recordingProviderOperations.get (recordingProviderOperationKey (c.request next)) = none ∧
      (c.written s next).appendEvent c.event = .ok (status, s') ∧ c.run s = (.ok next, s') := by
  simp only [run, transitionRecordingWithEventAndProviderOperation]
  split
  case h_1 e _ => exact .inl ⟨e, rfl⟩
  case h_2 current next hnext =>
    obtain ⟨hfound, hrevision, hchanged⟩ := nextRecordingWithEvent_spec hnext
    rw [if_neg fun heq => hchanged (congrArg _ heq)]
    split
    case isTrue => exact .inl ⟨_, rfl⟩
    case isFalse hfree =>
      rw [Bool.not_eq_true, Option.isSome_eq_false_iff, Option.isNone_iff_eq_none] at hfree
      split
      case h_1 status s' happended =>
        exact .inr ⟨current, next, status, s', hfound, hrevision, hchanged, hfree, happended, rfl⟩
      case h_2 e _ =>
        refine .inl ⟨e, ?_⟩
        rw [Table.put_put_of_get hfound, Table.erase_put hfree]

theorem HandOver.run_error (h : (c.run s).1 = .error e) : (c.run s).2 = s := by
  obtain ⟨e', heq⟩ | ⟨_, _, _, _, _, _, _, _, _, heq⟩ := c.run_cases s <;> rw [heq] at h ⊢
  cases h

theorem HandOver.event_new (hnew : WithNewEvent s op) (hc : op.handOver = some c)
    (h : (c.run s).1 = .ok next) : s.events.get c.event.key = none := by
  obtain ⟨e, heq⟩ | ⟨current, _, _, _, hfound, hrevision, -⟩ := c.run_cases s
  · rw [heq] at h
    cases h
  · simpa [WithNewEvent, hc, hfound, hrevision] using hnew

theorem HandOver.run_ok (hnew : s.events.get c.event.key = none) (h : (c.run s).1 = .ok next) :
    TellsOf c s (c.run s).2 next := by
  obtain ⟨e, heq⟩ | ⟨current, next', status, s'', hfound, -, hchanged, hfree, happended, heq⟩ :=
    c.run_cases s <;> rw [heq] at h ⊢ <;> cases h
  obtain ⟨hold, -⟩ | ⟨-, event, hkey, htype, rfl⟩ := appendEvent_cases happended
  · exact absurd hold (by simp [written, hnew])
  · exact ⟨⟨current, hfound, hchanged⟩, hfree, event, hkey, htype, hkey ▸ hnew, rfl⟩

theorem changesState_iff : ChangesState s s' key ↔ ∃ current,
    s.recordings.get key = some current ∧ ∃ next, s'.recordings.get key = some next ∧
      next.state ≠ current.state := by
  simp [ChangesState, Option.any_eq_true]

theorem TellsOf.key_eq (h : TellsOf c s s' next) (hchanges : ChangesState s s' key) :
    c.key = key := by
  obtain ⟨event, -, -, -, rfl⟩ := h.journal
  obtain ⟨current, hold, next', hnew, hne⟩ := changesState_iff.mp hchanges
  by_contra hkey
  rw [journalEvent, HandOver.written, Table.get_put_ne (Ne.symm hkey), hold] at hnew
  exact hne (congrArg _ (Option.some.inj hnew).symm)

theorem runsWhere_at {P : MemoryState → StoreOp → Prop}
    (h : RunsWhere P s (before ++ op :: after)) : P (s.runAll before) op := by
  induction before generalizing s
  case nil => exact h.1
  case cons ih => exact ih h.2

-- The event of a change is in the journal from then on.
theorem HandOver.event_kept (later : List StoreOp)
    (hnew : WithNewEvent (empty.runAll earlier) op) (hc : op.handOver = some c)
    (hok : (c.run (empty.runAll earlier)).1 = .ok next) :
    ∃ event, (empty.runAll (earlier ++ op :: later)).events.get c.event.key = some event := by
  obtain ⟨event, hkey, -, -, heq⟩ := (run_ok (event_new hnew hc hok) hok).journal
  have hstored : (op.run (empty.runAll earlier)).events.get event.key = some event := by
    rw [StoreOp.run_handOver hc, heq]
    exact Table.get_put_self
  have hkept := (runs_records (.tail (storeRun_runAll _ earlier) ⟨op, rfl⟩)
    (storeRun_runAll _ later)).extends.events _ _ hstored
  rw [← hkey, runAll, List.foldl_append]
  exact ⟨event, hkept⟩

-- Every change of a state is handed over and told of, by another event than any change before, and
-- a call that fails changes nothing.
theorem recording_changes_are_told
    (hrun : RunsWhere (fun s op => OnlyByHandOver s op ∧ WithNewEvent s op) .empty ops)
    {before after : List StoreOp} (hops : ops = before ++ op :: after) :
    let s := empty.runAll before
    (∀ key, ChangesState s (op.run s) key → ∃ c next, op.handOver = some c ∧ c.key = key ∧
      (c.run s).1 = .ok next) ∧
    (∀ c next, op.handOver = some c → (c.run s).1 = .ok next → TellsOf c s (op.run s) next ∧
      ∀ earlier op' between, before = earlier ++ op' :: between → ∀ c' next', op'.handOver = some c' →
        (c'.run (empty.runAll earlier)).1 = .ok next' → c'.event.key ≠ c.event.key) ∧
    ∀ c e, op.handOver = some c → (c.run s).1 = .error e → op.run s = s := by
  obtain ⟨honly, hnew⟩ := runsWhere_at (hops ▸ hrun)
  intro s
  refine ⟨fun key hchanges => ?_, fun c next hc hok => ?_, fun c e hc herror => ?_⟩
  · cases hc : op.handOver
    case none =>
      obtain ⟨current, hold, -⟩ := changesState_iff.mp hchanges
      simp only [OnlyByHandOver, hc, Option.isSome_none, Bool.false_or, List.all_eq_true] at honly
      exact absurd hchanges (by simpa using honly _ (Table.mem_entries_iff.mpr hold))
    case some c =>
      rw [StoreOp.run_handOver hc] at hchanges
      rcases hr : (c.run s).1 with e | next
      · rw [HandOver.run_error hr] at hchanges
        obtain ⟨current, hold, next, hnew, hne⟩ := changesState_iff.mp hchanges
        exact absurd (congrArg _ (Option.mem_unique hnew hold)) hne
      · exact ⟨c, next, rfl, (HandOver.run_ok (HandOver.event_new hnew hc hr) hr).key_eq hchanges, hr⟩
  · have hfree := HandOver.event_new hnew hc hok
    refine ⟨StoreOp.run_handOver hc ▸ HandOver.run_ok hfree hok, ?_⟩
    rintro earlier op' between rfl c' next' hc' hok' hsame
    rw [hops, List.append_assoc] at hrun
    obtain ⟨-, hnew'⟩ := runsWhere_at hrun
    obtain ⟨event, hkept⟩ := HandOver.event_kept between hnew' hc' hok'
    rw [hsame] at hkept
    cases hfree.symm.trans hkept
  · rw [StoreOp.run_handOver hc, HandOver.run_error herror]

namespace Scenario

def idea : RecordingSession :=
  { memo with recordingId := named "idea" }

def startWith (recording : RecordingSession) (event : EventEnvelope) : StoreOp :=
  .recording (.startRecordingWithEventAndProviderOperation tenant recording.recordingId 1 100 event)

def memoTakenDown : List StoreOp :=
  [.recording (.persistRecording memo), .recording (.persistRecording idea), startWith memo memoStarted]

-- The start is tried again, and refused.
def memoRetried : List StoreOp :=
  memoTakenDown ++ [startWith memo memoStarted]

def ideaStarted : EventEnvelope :=
  { memoStarted with eventId := idea.recordingId }

end Scenario

open Scenario

-- Both recordings are started with the same event: it is journaled once.
theorem idea_start_is_not_told :
    let s := empty.runAll memoTakenDown
    let s' := (startWith idea memoStarted).run s
    RunsWhere (fun s op => OnlyByHandOver s op) .empty (memoTakenDown ++ [startWith idea memoStarted]) ∧
      ChangesState s s' (tenant, idea.recordingId) ∧ s'.eventOrder = s.eventOrder := by
  decide +kernel

-- With an event of its own the second start is told of.
theorem idea_start_is_told : ∃ c next, (startWith idea ideaStarted).handOver = some c ∧
    TellsOf c (empty.runAll memoRetried)
      ((startWith idea ideaStarted).run (empty.runAll memoRetried)) next := by
  have hrun : RunsWhere (fun s op => OnlyByHandOver s op ∧ WithNewEvent s op) .empty
      (memoRetried ++ [startWith idea ideaStarted]) := by decide +kernel
  obtain ⟨-, htold, -⟩ := recording_changes_are_told hrun rfl
  exact ⟨_, _, rfl,
    (htold _ { idea with state := .active, startedAtUnixMs := some 100, revision := 2 } rfl
      (by decide +kernel)).1⟩

end Ucr
