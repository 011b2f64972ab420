import Ucr.Store.AntiEntropyStore
import Ucr.Store.Theorems.EventIds

-- Whoever asks a store for all pages gets a summary of every event it held, and two stores that
-- send each other what is missing end up with the same events.

namespace Ucr

open Except Relation Encoding MemoryState List Option

variable {s s' a b : MemoryState} {scope : TenantScope} {sessionId : SessionId}
  {session : SyncSession} {position n : ℕ}

section Cursor

theorem decodeMemoryCursor_encode (hposition : position ≤ snapshot) (hsnapshot : snapshot < 2 ^ 64) :
    decodeMemoryCursor session (encodeMemoryCursor session snapshot position) =
      .ok (snapshot, position) := by
  have hbinding : (antiEntropySessionBinding session).length = 32 := Digest.length_eq _
  have hbound : (2 : ℕ) ^ 64 = 256 ^ 8 := by decide
  have hlength : (encodeMemoryCursor session snapshot position).token.length = memoryCursorLen := by
    simp [encodeMemoryCursor, hbinding, memoryCursorLen]
  have hfirst : (encodeMemoryCursor session snapshot position).token.between 1 33 =
      antiEntropySessionBinding session := by
    have h := between_append [memoryCursorVersion] (antiEntropySessionBinding session)
      (beBytes 8 snapshot ++ beBytes 8 position)
    simpa [encodeMemoryCursor, hbinding] using h
  have hsecond : (encodeMemoryCursor session snapshot position).token.between 33 41 =
      beBytes 8 snapshot := by
    have h := between_append ([memoryCursorVersion] ++ antiEntropySessionBinding session)
      (beBytes 8 snapshot) (beBytes 8 position)
    simpa [encodeMemoryCursor, hbinding] using h
  have hthird : (encodeMemoryCursor session snapshot position).token.between 41 49 =
      beBytes 8 position := by
    have h := between_append
      ([memoryCursorVersion] ++ antiEntropySessionBinding session ++ beBytes 8 snapshot)
      (beBytes 8 position) []
    simpa [encodeMemoryCursor, hbinding] using h
  simp only [decodeMemoryCursor, validateAntiEntropyCursor, bind_eq_ok, mapError_eq_ok,
    rejectIf_eq_ok, exists_const, hlength, hfirst, hsecond, hthird,
    beNat_beBytes (hbound ▸ hsnapshot), beNat_beBytes (hbound ▸ hposition.trans_lt hsnapshot)]
  refine ⟨⟨by simp [encodeMemoryCursor], by decide⟩, by simp [encodeMemoryCursor], by simp, ?_, rfl⟩
  exact not_lt.mpr hposition

end Cursor

variable {keys : List ScopedId}

namespace MemoryState

theorem Reachable.canonical (hs : s.Reachable) : s.toEventLedgers.Canonical :=
  (runs_records .refl hs).canonical fun key event h => by simp [empty] at h

-- An event is held under its own identifier, and has a fingerprint.
theorem Reachable.fingerprinted (hs : s.Reachable) (hevent : s.events.get key = some event) :
    event.eventId = key.2 ∧ ∃ digest, eventFingerprint event = .ok digest := by
  refine ⟨congrArg Prod.snd (hs.ledgersSound.keyed key event hevent), ?_⟩
  simp only [eventFingerprint, hs.canonical key event hevent]
  exact ⟨_, rfl⟩

theorem loadAntiEntropySession_eq_ok :
    s.loadAntiEntropySession scope sessionId = .ok session ↔
      s.syncSessions.get (scope, sessionId) = some session ∧
        validateAntiEntropySession session = .ok () := by
  simp only [loadAntiEntropySession, ok_iff]
  constructor
  · rintro ⟨_, hget, _, hvalid, rfl⟩
    exact ⟨hget, hvalid⟩
  · rintro ⟨hget, hvalid⟩
    exact ⟨session, hget, (), hvalid, rfl⟩

section Pages

def summaryAt (s : MemoryState) (key : ScopedId) : Option EventSummary :=
  (s.events.get key).bind fun event =>
    (eventFingerprint event).toOption.map fun fingerprint => ⟨event.eventId, fingerprint⟩

def summariesAmong (s : MemoryState) (scope : TenantScope) (keys : List ScopedId) :
    List EventSummary :=
  (keys.filter (·.1 = scope)).filterMap s.summaryAt

theorem summariesAmong_append :
    s.summariesAmong scope (keys ++ keys') =
      s.summariesAmong scope keys ++ s.summariesAmong scope keys' := by
  simp [summariesAmong]

theorem summariesAmong_cons :
    s.summariesAmong scope (key :: keys) =
      (if key.1 = scope then (s.summaryAt key).toList else []) ++ s.summariesAmong scope keys := by
  simp only [summariesAmong, filter_cons, decide_eq_true_eq]
  split
  case isTrue  => cases hkey : s.summaryAt key <;> simp [hkey]
  case isFalse => rfl

theorem Reachable.backed (hs : s.Reachable) (hkey : key ∈ s.eventOrder) :
    ∃ event digest, s.events.get key = some event ∧ event.eventId = key.2 ∧
      eventFingerprint event = .ok digest ∧ s.summaryAt key = some ⟨key.2, digest⟩ := by
  obtain ⟨event, hevent⟩ := isSome_iff_exists.mp ((hs.ledgersSound.listed key).mp hkey)
  obtain ⟨hid, digest, hdigest⟩ := hs.fingerprinted hevent
  exact ⟨event, digest, hevent, hid, hdigest, by simp [summaryAt, hevent, hdigest, hid, Except.toOption]⟩

-- A page takes entries from the front until it is full, and at least one if there is room.
theorem summaryLoop_spec {summaries} (hs : s.Reachable) (hkeys : keys ⊆ s.eventOrder)
    (hroom : summaries.length ≤ n) :
    ∃ passed left, keys = passed ++ left ∧
      s.summaryLoop scope n position summaries keys =
        .ok (summaries ++ s.summariesAmong scope passed, position + passed.length) ∧
      (summaries ++ s.summariesAmong scope passed).length ≤ n ∧
      (summaries.length < n → keys ≠ [] → passed ≠ []) := by
  induction keys generalizing position summaries
  case nil =>
    exact ⟨[], [], rfl, by simp [summaryLoop, summariesAmong], by simpa [summariesAmong], by simp⟩
  case cons key rest ih =>
    obtain ⟨hkey, hrest⟩ := cons_subset.mp hkeys
    by_cases hfull : summaries.length ≥ n
    case pos =>
      refine ⟨[], key :: rest, rfl, ?_, by simpa [summariesAmong], by omega⟩
      simp [summaryLoop, hfull, summariesAmong]
    case neg =>
      by_cases hscope : key.1 = scope
      case pos =>
        obtain ⟨event, digest, hevent, hid, hdigest, hsummary⟩ := hs.backed hkey
        have hnext : (summaries ++ [EventSummary.mk key.2 digest]).length ≤ n := by
          simp only [length_append, length_singleton]
          omega
        obtain ⟨passed, left, rfl, hloop, hlength, -⟩ := @ih (position + 1) _ hrest hnext
        refine ⟨key :: passed, left, rfl, ?_, ?_, by simp⟩
        · simp only [summaryLoop, if_neg hfull, hscope, ne_eq, not_true_eq_false, if_false, hevent,
            okOr, bind_eq_ok]
          refine ⟨event, rfl, digest, mapError_eq_ok.mpr hdigest, ?_⟩
          rw [hid, hloop]
          simp [summariesAmong_cons, hscope, hsummary, Nat.add_assoc, Nat.add_comm 1]
        · simpa [summariesAmong_cons, hscope, hsummary] using hlength
      case neg =>
        obtain ⟨passed, left, rfl, hloop, hlength, -⟩ := @ih (position + 1) _ hrest hroom
        refine ⟨key :: passed, left, rfl, ?_, ?_, by simp⟩
        · simp only [summaryLoop, if_neg hfull, hscope, ne_eq, not_false_eq_true, if_true, hloop]
          simp [summariesAmong_cons, hscope, Nat.add_assoc, Nat.add_comm 1]
        · simpa [summariesAmong_cons, hscope] using hlength

-- A page moves on from where it starts, within the snapshot.
theorem antiEntropySummaryPage_spec (hs : s.Reachable)
    (hsession : s.loadAntiEntropySession scope sessionId = .ok session)
    (hsize : validateAntiEntropyPageSize n = .ok ())
    (hstart : s.pageStart session cursor? = .ok (snapshot, position))
    (hposition : position ≤ snapshot) (hsnapshot : snapshot ≤ s.eventOrder.length) :
    ∃ next, position ≤ next ∧ next ≤ snapshot ∧ (position < snapshot → position < next) ∧
      (s.summariesAmong scope (s.eventOrder.between position next)).length ≤
        maxAntiEntropyPageItems ∧
      s.antiEntropySummaryPage scope sessionId cursor? n = .ok
        ⟨session.sessionId, session.scope,
          s.summariesAmong scope (s.eventOrder.between position next),
          if next < snapshot then some (encodeMemoryCursor session snapshot next) else none⟩ := by
  have hsizes := hsize
  simp only [validateAntiEntropyPageSize, ok_iff, not_or, not_lt] at hsizes
  have hlength : (s.eventOrder.between position snapshot).length = snapshot - position := by
    simp only [between_eq_take_drop, length_take, length_drop]
    omega
  obtain ⟨passed, left, hkeys, hloop, hpage, hprogress⟩ := @summaryLoop_spec s scope position n
    (s.eventOrder.between position snapshot) [] hs (fun key hkey =>
      mem_of_mem_take (mem_of_mem_drop hkey)) (Nat.zero_le n)
  have hsum := congrArg List.length hkeys
  rw [hlength, length_append] at hsum
  have hpassed := between_of_between hkeys
  refine ⟨position + passed.length, by omega, by omega, fun hopen => ?_, ?_, ?_⟩
  · have hsome : s.eventOrder.between position snapshot ≠ [] := by
      rw [← length_pos_iff, hlength]
      omega
    have hmoved := length_pos_iff.mpr (hprogress (Nat.pos_of_ne_zero hsizes.1) hsome)
    omega
  · rw [hpassed]
    exact hpage.trans hsizes.2
  · rw [hpassed]
    simp only [antiEntropySummaryPage, ok_iff, exists_const]
    exact ⟨(), hsize, session, hsession, _, hstart, not_lt.mpr hsnapshot, _, hloop, rfl⟩

theorem antiEntropySummaryPage_eq_ok
    (h : s.antiEntropySummaryPage scope sessionId cursor? n = .ok page) :
    validateAntiEntropyPageSize n = .ok () := by
  simp only [antiEntropySummaryPage, ok_iff] at h
  obtain ⟨_, hsize, -⟩ := h
  exact hsize

-- A store that has grown gives the same summaries for the entries there were.
theorem summariesAmong_of_extends (hs : s.Reachable)
    (h : s.toEventLedgers.Extends s'.toEventLedgers) (hkeys : keys ⊆ s.eventOrder) :
    s'.summariesAmong scope keys = s.summariesAmong scope keys := by
  refine filterMap_congr fun key hkey => ?_
  obtain ⟨event, -, hevent, -⟩ := hs.backed (hkeys (mem_of_mem_filter hkey))
  rw [summaryAt, summaryAt, hevent, h.events key event hevent]

end Pages

end MemoryState

-- Someone pages through a store: the cursor to go on with, if there is one, and the pages so far.
structure Paging where
  store  : MemoryState
  cursor : Option AntiEntropyCursor
  pages  : List (List EventSummary)

-- The next page is requested with any size, and between the requests the store may do anything that
-- leaves the session as it is.
inductive Paging.Step (scope : TenantScope) (sessionId : SessionId) (p : Paging) : Paging → Prop
  | requested (cursor : AntiEntropyCursor) (maxItems : ℕ) (page : AntiEntropyPage)
      (unfinished : p.cursor = some cursor)
      (answered :
        p.store.antiEntropySummaryPage scope sessionId (some cursor) maxItems = .ok page) :
      Step scope sessionId p ⟨p.store, page.nextCursor, p.pages ++ [page.summaries]⟩
  | stored (op : StoreOp) (kept : (op.run p.store).syncSessions.get (scope, sessionId) =
        p.store.syncSessions.get (scope, sessionId)) :
      Step scope sessionId p { p with store := op.run p.store }

-- A paging that has begun with a page of a store.
inductive Paging.Run (scope : TenantScope) (sessionId : SessionId) (a : MemoryState) : Paging → Prop
  | begun (maxItems : ℕ) (page : AntiEntropyPage)
      (answered : a.antiEntropySummaryPage scope sessionId none maxItems = .ok page) :
      Run scope sessionId a ⟨a, page.nextCursor, [page.summaries]⟩
  | step {p p' : Paging} (run : Run scope sessionId a p) (step : p.Step scope sessionId p') :
      Run scope sessionId a p'

namespace Paging

variable {p : Paging}

-- The pages so far are the summaries of the journal up to a position.
structure At (scope : TenantScope) (sessionId : SessionId) (a : MemoryState) (session : SyncSession)
    (position : ℕ) (p : Paging) : Prop where
  reachable : p.store.Reachable
  loaded    : p.store.loadAntiEntropySession scope sessionId = .ok session
  grown     : a.toEventLedgers.Extends p.store.toEventLedgers
  within    : position ≤ a.eventOrder.length
  moved     : position = 0 → a.eventOrder.length = 0
  listed    : p.pages.flatten = a.summariesAmong scope (a.eventOrder.take position)
  cursor    : p.cursor = if position < a.eventOrder.length then
    some (encodeMemoryCursor session a.eventOrder.length position) else none
  count     : p.pages.length ≤ max 1 position
  sizes     : ∀ page ∈ p.pages, page.length ≤ maxAntiEntropyPageItems

theorem take_append_between {l : List ScopedId} {next} (h : position ≤ next) :
    l.take position ++ l.between position next = l.take next := by
  have hparts := @between_trans _ l 0 position next (Nat.zero_le _) h
  simpa [between] using hparts

theorem At.stored {op : StoreOp} (h : p.At scope sessionId a session position)
    (hkept : (op.run p.store).syncSessions.get (scope, sessionId) =
      p.store.syncSessions.get (scope, sessionId)) :
    At scope sessionId a session position { p with store := op.run p.store } := by
  have hgrown := (run_records h.reachable.attainable.keyed op).extends
  have hloaded := loadAntiEntropySession_eq_ok.mp h.loaded
  exact { h with
    reachable := h.reachable.tail ⟨op, rfl⟩
    loaded    := loadAntiEntropySession_eq_ok.mpr ⟨hkept.trans hloaded.1, hloaded.2⟩
    grown     := h.grown.trans hgrown }

theorem At.page (ha : a.Reachable) (hlength : a.eventOrder.length < 2 ^ 64)
    (h : p.At scope sessionId a session position) (hopen : position < a.eventOrder.length)
    (hsize : validateAntiEntropyPageSize n = .ok ()) :
    ∃ page next, position < next ∧
      p.store.antiEntropySummaryPage scope sessionId
        (some (encodeMemoryCursor session a.eventOrder.length position)) n = .ok page ∧
      At scope sessionId a session next ⟨p.store, page.nextCursor, p.pages ++ [page.summaries]⟩ := by
  have hstart : p.store.pageStart session
      (some (encodeMemoryCursor session a.eventOrder.length position)) =
        .ok (a.eventOrder.length, position) := decodeMemoryCursor_encode hopen.le hlength
  obtain ⟨next, hle, hnext, hprogress, hitems, hpage⟩ := antiEntropySummaryPage_spec
    h.reachable h.loaded hsize hstart hopen.le h.grown.order.length_le
  have hsummaries : p.store.summariesAmong scope (p.store.eventOrder.between position next) =
      a.summariesAmong scope (a.eventOrder.between position next) := by
    rw [ between_of_prefix h.grown.order hnext]
    exact summariesAmong_of_extends ha h.grown fun key hkey =>
      mem_of_mem_take (mem_of_mem_drop hkey)
  have hmoved := hprogress hopen
  refine ⟨_, next, hmoved, hpage, ?_⟩
  constructor
  case reachable => exact h.reachable
  case loaded    => exact h.loaded
  case grown     => exact h.grown
  case within    => exact hnext
  case moved     => omega
  case listed =>
    rw [flatten_append, h.listed, hsummaries, ← take_append_between hle,
      summariesAmong_append]
    simp
  case cursor => rfl
  case count =>
    have hcount := h.count
    simp only [length_append, length_singleton]
    have hpositive : 0 < position := Nat.pos_of_ne_zero fun hzero => by
      have hempty := h.moved hzero
      omega
    omega
  case sizes =>
    simp only [mem_append, mem_singleton]
    rintro page (hmem | rfl)
    · exact h.sizes page hmem
    · exact hitems

theorem At.begun (ha : a.Reachable) (hsession : a.loadAntiEntropySession scope sessionId = .ok session)
    (hsize : validateAntiEntropyPageSize n = .ok ()) :
    ∃ page next, a.antiEntropySummaryPage scope sessionId none n = .ok page ∧
      At scope sessionId a session next ⟨a, page.nextCursor, [page.summaries]⟩ := by
  have hstart : a.pageStart session none = .ok (a.eventOrder.length, 0) := rfl
  obtain ⟨next, -, hnext, hprogress, hitems, hpage⟩ := antiEntropySummaryPage_spec ha
    hsession hsize hstart (Nat.zero_le _) le_rfl
  refine ⟨_, next, hpage, ?_⟩
  constructor
  case reachable => exact ha
  case loaded    => exact hsession
  case grown     => exact .refl _
  case within    => exact hnext
  case moved     => omega
  case listed    => simp [between]
  case cursor    => rfl
  case count     => simp
  case sizes     => simpa using hitems

theorem Run.somewhere (ha : a.Reachable) (hlength : a.eventOrder.length < 2 ^ 64)
    (hsession : a.loadAntiEntropySession scope sessionId = .ok session)
    (h : Run scope sessionId a p) : ∃ position, p.At scope sessionId a session position := by
  induction h
  case begun maxItems page answered =>
    have hsize := antiEntropySummaryPage_eq_ok answered
    obtain ⟨_, next, hpage, hat⟩ := At.begun ha hsession hsize
    obtain rfl := Except.ok.inj (hpage.symm.trans answered)
    exact ⟨next, hat⟩
  case step step ih =>
    obtain ⟨position, hat⟩ := ih
    cases step
    case stored op kept => exact ⟨position, hat.stored kept⟩
    case requested cursor maxItems page unfinished answered =>
      have hsize := antiEntropySummaryPage_eq_ok answered
      have hcursor := hat.cursor
      rw [unfinished] at hcursor
      split at hcursor
      case isFalse => simp at hcursor
      case isTrue hopen =>
        obtain rfl := Option.some.inj hcursor
        obtain ⟨_, next, -, hpage, hnext⟩ := hat.page ha hlength hopen hsize
        obtain rfl := Except.ok.inj (hpage.symm.trans answered)
        exact ⟨next, hnext⟩

end Paging

-- Every event of the scope is listed once, with its fingerprint, and nothing else is.
structure MemoryState.Lists (a : MemoryState) (scope : TenantScope) (summaries : List EventSummary) :
    Prop where
  once    : (summaries.map (·.eventId)).Nodup
  all     : ∀ eventId, (a.events.get (scope, eventId)).isSome →
    eventId ∈ summaries.map (·.eventId)
  genuine : ∀ summary ∈ summaries, ∃ event, a.events.get (scope, summary.eventId) = some event ∧
    eventFingerprint event = .ok summary.fingerprint

namespace MemoryState

theorem mem_summariesAmong (ha : a.Reachable) :
    summary ∈ a.summariesAmong scope a.eventOrder ↔
      ∃ event, a.events.get (scope, summary.eventId) = some event ∧
        eventFingerprint event = .ok summary.fingerprint := by
  simp only [summariesAmong, mem_filterMap, mem_filter, decide_eq_true_eq]
  constructor
  · rintro ⟨⟨_, eventId⟩, ⟨hkey, rfl⟩, hsummary⟩
    obtain ⟨event, digest, hevent, -, hdigest, hat⟩ := ha.backed hkey
    obtain rfl := mem_unique hat hsummary
    exact ⟨event, hevent, hdigest⟩
  · rintro ⟨event, hevent, hdigest⟩
    have hid := (ha.fingerprinted hevent).1
    refine ⟨(scope, summary.eventId), ⟨(ha.ledgersSound.listed _).mpr (by simp [hevent]), rfl⟩, ?_⟩
    simp [summaryAt, hevent, hdigest, Except.toOption, hid]

theorem map_eventId_summariesAmong (ha : a.Reachable) (hkeys : keys ⊆ a.eventOrder) :
    (a.summariesAmong scope keys).map (·.eventId) = (keys.filter (·.1 = scope)).map Prod.snd := by
  induction keys
  case nil => rfl
  case cons key keys ih =>
    obtain ⟨hkey, hrest⟩ := cons_subset.mp hkeys
    obtain ⟨event, digest, -, -, -, hsummary⟩ := ha.backed hkey
    rw [summariesAmong_cons, map_append, ih hrest, filter_cons]
    by_cases hscope : key.1 = scope <;> simp [hscope, hsummary]

theorem lists_summariesAmong (ha : a.Reachable) :
    a.Lists scope (a.summariesAmong scope a.eventOrder) := by
  refine ⟨?_, fun eventId hsome => ?_, fun summary hmem => (mem_summariesAmong ha).mp hmem⟩
  · rw [map_eventId_summariesAmong ha (List.Subset.refl _)]
    refine (ha.ledgersSound.nodup.filter _).map_on ?_
    rintro ⟨_, x⟩ hx ⟨_, y⟩ hy rfl
    simp only [mem_filter, decide_eq_true_eq] at hx hy
    rw [hx.2, hy.2]
  · rw [map_eventId_summariesAmong ha (List.Subset.refl _)]
    refine List.mem_map.mpr ⟨(scope, eventId), ?_, rfl⟩
    simp [(ha.ledgersSound.listed _).mpr hsome]

section Classifying

theorem replicaState_spec (hs : s.Reachable) (scope : TenantScope) (summary : EventSummary) :
    ∃ state, s.replicaState scope summary = .ok state ∧
      (state ≠ .missing → (s.events.get (scope, summary.eventId)).isSome) := by
  unfold replicaState
  cases hlocal : s.events.get (scope, summary.eventId)
  case none => exact ⟨.missing, rfl, by simp⟩
  case some existing =>
    obtain ⟨-, digest, hdigest⟩ := hs.fingerprinted hlocal
    exact ⟨if digest = summary.fingerprint then .matching else .damaged, by simp [hdigest], by simp⟩

theorem classifyLoop_spec (hs : s.Reachable) {seen summaries}
    (honce : (summaries.map (·.eventId)).Nodup)
    (hnew : ∀ summary ∈ summaries, summary.eventId ∉ seen) :
    ∃ result, s.classifyLoop scope seen summaries = .ok result ∧
      result.map (·.eventId) = summaries.map (·.eventId) ∧
      ∀ r ∈ result, r.state ≠ .missing → (s.events.get (scope, r.eventId)).isSome := by
  induction summaries generalizing seen
  case nil => exact ⟨[], rfl, rfl, by simp⟩
  case cons summary rest ih =>
    simp only [map_cons, nodup_cons, List.mem_map, not_exists, not_and] at honce
    simp only [mem_cons, forall_eq_or_imp] at hnew
    obtain ⟨state, hstate, hpresent⟩ := replicaState_spec hs scope summary
    have hunseen : ∀ other ∈ rest, other.eventId ∉ summary.eventId :: seen := by
      intro other hmem
      rw [mem_cons, not_or]
      exact ⟨honce.1 other hmem, hnew.2 other hmem⟩
    obtain ⟨result, hresult, hids, hothers⟩ := ih honce.2 hunseen
    refine ⟨⟨summary.eventId, state⟩ :: result, ?_, by simp [hids], ?_⟩
    · simp [classifyLoop, hnew.1, rejectIf, hstate, hresult]
    · simp only [mem_cons, forall_eq_or_imp]
      exact ⟨hpresent, hothers⟩

theorem classifyEventSummaries_spec (hs : s.Reachable)
    (hsession : s.loadAntiEntropySession scope sessionId = .ok session)
    (hcount : summaries.length ≤ maxAntiEntropyPageItems)
    (honce : (summaries.map (·.eventId)).Nodup) :
    ∃ result, s.classifyEventSummaries scope sessionId summaries = .ok result ∧
      result.map (·.eventId) = summaries.map (·.eventId) ∧
      ∀ r ∈ result, r.state ≠ .missing → (s.events.get (scope, r.eventId)).isSome := by
  obtain ⟨result, hloop, hids, hpresent⟩ :=
    @classifyLoop_spec s scope hs [] summaries honce (by simp)
  refine ⟨result, ?_, hids, hpresent⟩
  simp [classifyEventSummaries, validateAntiEntropySummaryCount, rejectIf, not_lt.mpr hcount,
    hsession, hloop]

end Classifying

-- The events another store reported missing are taken from where the summaries came from.
def reconcileMissing (b source : MemoryState) (scope : TenantScope) (sessionId : SessionId) :
    List EventReconciliation → StoreResult MemoryState
  | [] => return b
  | reconciliation :: rest => do
    if reconciliation.state = .missing then
      let event ← (source.events.get (scope, reconciliation.eventId)).okOr .corrupt
      let (_, b) ← b.reconcileEvent scope sessionId event
      b.reconcileMissing source scope sessionId rest
    else
      b.reconcileMissing source scope sessionId rest

-- Page by page: classify, then reconcile what is missing.
def pull (b source : MemoryState) (scope : TenantScope) (sessionId : SessionId) :
    List (List EventSummary) → StoreResult MemoryState
  | [] => return b
  | page :: pages => do
    let reconciliations ← b.classifyEventSummaries scope sessionId page
    let b ← b.reconcileMissing source scope sessionId reconciliations
    b.pull source scope sessionId pages

-- No event of one store means something else in the other.
structure Compatible (a b : MemoryState) (scope : TenantScope) : Prop where
  content : ∀ eventId event event', a.events.get (scope, eventId) = some event →
    b.events.get (scope, eventId) = some event' → event = event'
  free    : ∀ eventId, (a.events.get (scope, eventId)).isSome → ¬b.eventIdInUse (scope, eventId)

-- What `b` has become by taking events of `a`.
structure Receives (a b b' : MemoryState) (scope : TenantScope) : Prop where
  reachable : b'.Reachable
  sessions  : b'.syncSessions = b.syncSessions
  changes   : b'.groupChanges = b.groupChanges
  signals   : b'.callSignals = b.callSignals
  kept      : b.toEventLedgers.Extends b'.toEventLedgers
  origin    : ∀ key event, b'.events.get key = some event →
    b.events.get key = some event ∨ key.1 = scope ∧ a.events.get key = some event

section Receiving

variable {b' source : MemoryState}

theorem Receives.refl (hb : b.Reachable) : Receives a b b scope :=
  ⟨hb, rfl, rfl, rfl, .refl _, fun _ _ h => .inl h⟩

-- Whatever is there under the identifier of an event of `a` is that event.
theorem Receives.same (h : Receives a b b' scope) (hcompatible : a.Compatible b scope)
    (hevent : a.events.get (scope, eventId) = some event)
    (hexisting : b'.events.get (scope, eventId) = some existing) : existing = event := by
  obtain hold | ⟨-, hnew⟩ := h.origin _ existing hexisting
  · exact (hcompatible.content eventId event existing hevent hold).symm
  · exact mem_unique hnew hevent

theorem Receives.loaded (h : Receives a b b' scope)
    (hsession : b.loadAntiEntropySession scope sessionId = .ok session) :
    b'.loadAntiEntropySession scope sessionId = .ok session := by
  rw [loadAntiEntropySession_eq_ok, h.sessions]
  exact loadAntiEntropySession_eq_ok.mp hsession

theorem held_of_extends (h : b.toEventLedgers.Extends b'.toEventLedgers)
    (hheld : (b.events.get key).isSome) : (b'.events.get key).isSome := by
  obtain ⟨event, hevent⟩ := isSome_iff_exists.mp hheld
  simp [h.events key event hevent]

variable (ha : a.Reachable) (hcompatible : a.Compatible b scope)
  (hsession : b.loadAntiEntropySession scope sessionId = .ok session)

include ha hcompatible hsession

theorem Receives.reconcile (h : Receives a b b' scope)
    (hevent : a.events.get (scope, eventId) = some event) :
    ∃ status b'', b'.reconcileEvent scope sessionId event = .ok (status, b'') ∧
      Receives a b b'' scope ∧ b'.toEventLedgers.Extends b''.toEventLedgers ∧
      (b''.events.get (scope, eventId)).isSome := by
  have hcanonical := ha.canonical _ event hevent
  have hkey : event.key = (scope, eventId) := ha.ledgersSound.keyed _ event hevent
  have hscope : event.scope = scope := congrArg Prod.fst hkey
  have hloaded := h.loaded hsession
  cases hlocal : b'.events.get (scope, eventId)
  case some existing =>
    obtain rfl := h.same hcompatible hevent hlocal
    obtain ⟨-, digest, hdigest⟩ := ha.fingerprinted hevent
    refine ⟨.duplicate, b', ?_, h, .refl _, by simp [hlocal]⟩
    simp [reconcileEvent, hcanonical, hscope, hloaded, hkey, hlocal, hdigest, rejectIf]
  case none =>
    have hfree : ¬b'.eventIdInUse (scope, eventId) := by
      have hunused := hcompatible.free eventId (by simp [hevent])
      simpa only [eventIdInUse, h.changes, h.signals] using hunused
    have hreconciled : b'.reconcileEvent scope sessionId event =
        .ok (.appended, b'.journalEvent event) := by
      simp [reconcileEvent, hcanonical, hscope, hloaded, hkey, hlocal, hfree, rejectIf]
    have hrun : (StoreOp.reconcileEvent scope sessionId event).run b' = b'.journalEvent event := by
      simp [StoreOp.run, hreconciled, commit]
    have hgrown := (run_records h.reachable.attainable.keyed
      (.reconcileEvent scope sessionId event)).extends
    rw [hrun] at hgrown
    refine ⟨.appended, b'.journalEvent event, hreconciled, ?_, hgrown, ?_⟩
    · refine ⟨h.reachable.tail ⟨_, hrun⟩, h.sessions, h.changes, h.signals, h.kept.trans hgrown, ?_⟩
      intro key stored hget
      simp only [journalEvent, Table.get_put] at hget
      split at hget
      case isTrue heq =>
        obtain rfl := Option.some.inj hget
        rw [heq, hkey]
        exact .inr ⟨rfl, hevent⟩
      case isFalse => exact h.origin key stored hget
    · simp [journalEvent, hkey]

-- Going through a classified page: nothing fails, and afterwards nothing is missing.
theorem Receives.reconcileMissing (hsource : a.toEventLedgers.Extends source.toEventLedgers)
    (hheld : ∀ r ∈ reconciliations, (a.events.get (scope, r.eventId)).isSome)
    (hpresent : ∀ r ∈ reconciliations, r.state ≠ .missing →
      (b'.events.get (scope, r.eventId)).isSome) (h : Receives a b b' scope) :
    ∃ b'', b'.reconcileMissing source scope sessionId reconciliations = .ok b'' ∧
      Receives a b b'' scope ∧ b'.toEventLedgers.Extends b''.toEventLedgers ∧
      ∀ r ∈ reconciliations, (b''.events.get (scope, r.eventId)).isSome := by
  induction reconciliations generalizing b'
  case nil => exact ⟨b', rfl, h, .refl _, by simp⟩
  case cons r rest ih =>
    simp only [mem_cons, forall_eq_or_imp] at hheld hpresent
    by_cases hmissing : r.state = .missing
    case pos =>
      obtain ⟨event, hevent⟩ := isSome_iff_exists.mp hheld.1
      obtain ⟨status, b₁, hreconciled, h₁, hgrown₁, hthere⟩ :=
        h.reconcile ha hcompatible hsession hevent
      obtain ⟨b₂, hrest, h₂, hgrown₂, hpresent₂⟩ := ih hheld.2
        (fun r hr hstate => held_of_extends hgrown₁ (hpresent.2 r hr hstate)) h₁
      refine ⟨b₂, ?_, h₂, hgrown₁.trans hgrown₂, ?_⟩
      · simp [reconcileMissing, hmissing, hsource.events _ event hevent, okOr,
          hreconciled, hrest]
      · simp only [mem_cons, forall_eq_or_imp]
        exact ⟨held_of_extends hgrown₂ hthere, hpresent₂⟩
    case neg =>
      obtain ⟨b₂, hrest, h₂, hgrown₂, hpresent₂⟩ := ih hheld.2 hpresent.2 h
      refine ⟨b₂, ?_, h₂, hgrown₂, ?_⟩
      · simp [reconcileMissing, hmissing, hrest]
      · simp only [mem_cons, forall_eq_or_imp]
        exact ⟨held_of_extends hgrown₂ (hpresent.1 hmissing), hpresent₂⟩

theorem Receives.pull (hsource : a.toEventLedgers.Extends source.toEventLedgers)
    (honce : (pages.flatten.map (·.eventId)).Nodup)
    (hheld : ∀ summary ∈ pages.flatten, (a.events.get (scope, summary.eventId)).isSome)
    (hsizes : ∀ page ∈ pages, page.length ≤ maxAntiEntropyPageItems) (h : Receives a b b' scope) :
    ∃ b'', b'.pull source scope sessionId pages = .ok b'' ∧ Receives a b b'' scope ∧
      b'.toEventLedgers.Extends b''.toEventLedgers ∧
      ∀ summary ∈ pages.flatten, (b''.events.get (scope, summary.eventId)).isSome := by
  induction pages generalizing b'
  case nil => exact ⟨b', rfl, h, .refl _, by simp⟩
  case cons page pages ih =>
    simp only [flatten_cons, map_append, nodup_append] at honce
    simp only [flatten_cons, mem_append, or_imp, forall_and] at hheld
    simp only [mem_cons, forall_eq_or_imp] at hsizes
    obtain ⟨result, hclassified, hids, hpresent⟩ :=
      classifyEventSummaries_spec h.reachable (h.loaded hsession) hsizes.1 honce.1
    -- The classification is about the identifiers of the page.
    have hmember : ∀ eventId, (∃ r ∈ result, r.eventId = eventId) ↔
        ∃ summary ∈ page, summary.eventId = eventId := fun eventId => by
      simp only [← List.mem_map, hids]
    have hheld' : ∀ r ∈ result, (a.events.get (scope, r.eventId)).isSome := by
      intro r hr
      obtain ⟨summary, hmem, hid⟩ := (hmember r.eventId).mp ⟨r, hr, rfl⟩
      exact hid ▸ hheld.1 summary hmem
    obtain ⟨b₁, hreconciled, h₁, hgrown₁, hthere⟩ :=
      h.reconcileMissing ha hcompatible hsession hsource hheld' hpresent
    obtain ⟨b₂, hrest, h₂, hgrown₂, hothers⟩ := ih honce.2.1 hheld.2 hsizes.2 h₁
    refine ⟨b₂, ?_, h₂, hgrown₁.trans hgrown₂, ?_⟩
    · simp [pull, hclassified, hreconciled, hrest]
    · simp only [flatten_cons, mem_append]
      rintro summary (hmem | hmem)
      · obtain ⟨r, hr, hid⟩ := (hmember summary.eventId).mpr ⟨summary, hmem, rfl⟩
        exact held_of_extends hgrown₂ (hid ▸ hthere r hr)
      · exact hothers summary hmem

omit hcompatible hsession in
theorem Receives.compatible (h : Receives a b b' scope)
    (hcompatible : b.Compatible a scope) : b'.Compatible a scope := by
  refine ⟨fun eventId event event' hevent hevent' => ?_, fun eventId hsome => ?_⟩
  · obtain hold | ⟨-, hnew⟩ := h.origin _ event hevent
    · exact hcompatible.content eventId event event' hold hevent'
    · exact mem_unique hnew hevent'
  · obtain ⟨event, hevent⟩ := isSome_iff_exists.mp hsome
    obtain hold | ⟨-, hnew⟩ := h.origin _ event hevent
    · exact hcompatible.free eventId (by simp [hold])
    · have hone := ha.ledgersSound.exclusive (scope, eventId)
      simp only [EventLedgers.uses, hnew, isSome_some, Bool.toNat_true] at hone
      have hchanges : (a.groupChanges.get (scope, eventId)).isSome.toNat = 0 := by omega
      have hsignals : (a.callSignals.get (scope, eventId)).isSome.toNat = 0 := by omega
      simp [eventIdInUse, Bool.toNat_eq_zero.mp hchanges, Bool.toNat_eq_zero.mp hsignals]

omit hcompatible hsession in
theorem Receives.length_le (hb : b.Reachable) (h : Receives a b b' scope) :
    b'.eventOrder.length ≤ a.eventOrder.length + b.eventOrder.length := by
  have hsub : b'.eventOrder ⊆ a.eventOrder ++ b.eventOrder := by
    intro key hkey
    obtain ⟨event, -, hevent, -⟩ := h.reachable.backed hkey
    rw [mem_append, ha.ledgersSound.listed, hb.ledgersSound.listed]
    obtain hold | ⟨-, hnew⟩ := h.origin key event hevent
    · exact .inr (by simp [hold])
    · exact .inl (by simp [hnew])
  have hlength := (subperm_of_subset h.reachable.ledgersSound.nodup hsub).length_le
  simpa using hlength

end Receiving

end MemoryState

open MemoryState in
theorem Paging.At.finished {p : Paging} (ha : a.Reachable)
    (h : p.At scope sessionId a session position) (hfinished : p.cursor = none) :
    a.Lists scope p.pages.flatten := by
  have hend : position = a.eventOrder.length := by
    have hcursor := h.cursor
    rw [hfinished] at hcursor
    split at hcursor
    case isTrue  => simp at hcursor
    case isFalse =>
      have hwithin := h.within
      omega
  rw [h.listed, hend, take_length]
  exact lists_summariesAmong ha

open MemoryState in
theorem pull_finished {p : Paging} (ha : a.Reachable) (hb : b.Reachable)
    (hcompatible : a.Compatible b scope) (hb' : b.loadAntiEntropySession scope idB = .ok sessionB)
    (h : p.At scope idA a sessionA position) (hfinished : p.cursor = none) :
    ∃ b', b.pull p.store scope idB p.pages = .ok b' ∧ Receives a b b' scope ∧
      ∀ eventId, (a.events.get (scope, eventId)).isSome → (b'.events.get (scope, eventId)).isSome := by
  have hlists := h.finished ha hfinished
  have hheld : ∀ summary ∈ p.pages.flatten, (a.events.get (scope, summary.eventId)).isSome := by
    intro summary hmem
    obtain ⟨event, hevent, -⟩ := hlists.genuine summary hmem
    simp [hevent]
  obtain ⟨b', hpull, hreceives, -, hthere⟩ :=
    (Receives.refl hb).pull ha hcompatible hb' h.grown hlists.once hheld h.sizes
  refine ⟨b', hpull, hreceives, fun eventId hsome => ?_⟩
  obtain ⟨summary, hmem, rfl⟩ := List.mem_map.mp (hlists.all eventId hsome)
  exact hthere summary hmem

-- Any way of asking for the pages of `a` comes to an end and lists what `a` held at the first page.
-- Taking those pages, `b` never fails; and if then `a` takes the pages of `b`, the two are the
-- same.
theorem anti_entropy_converges {sessionA sessionB : SyncSession} {idA idB : SessionId}
    (ha : a.Reachable) (hb : b.Reachable)
    (hsessionA : a.loadAntiEntropySession scope idA = .ok sessionA)
    (hsessionB : b.loadAntiEntropySession scope idB = .ok sessionB)
    (hlength : a.eventOrder.length + b.eventOrder.length < 2 ^ 64)
    (hab : a.Compatible b scope) (hba : b.Compatible a scope) :
    (∀ maxItems, validateAntiEntropyPageSize maxItems = .ok () →
      ∃ page, a.antiEntropySummaryPage scope idA none maxItems = .ok page) ∧
    ∀ p, Paging.Run scope idA a p →
      p.pages.length ≤ max 1 a.eventOrder.length ∧
      (∀ cursor maxItems, p.cursor = some cursor → validateAntiEntropyPageSize maxItems = .ok () →
        ∃ page, p.store.antiEntropySummaryPage scope idA (some cursor) maxItems = .ok page) ∧
      (p.cursor = none → a.Lists scope p.pages.flatten ∧
        ∃ b', b.pull p.store scope idB p.pages = .ok b' ∧
          (p.store = a → ∀ q, Paging.Run scope idB b' q → q.cursor = none → q.store = b' →
            ∃ a', a.pull b' scope idA q.pages = .ok a' ∧
              ∀ eventId, a'.events.get (scope, eventId) = b'.events.get (scope, eventId))) := by
  refine ⟨fun maxItems hsize => ?_, fun p hrun => ?_⟩
  · obtain ⟨page, -, hpage, -⟩ := Paging.At.begun ha hsessionA hsize
    exact ⟨page, hpage⟩
  obtain ⟨position, hat⟩ := hrun.somewhere ha (by omega) hsessionA
  refine ⟨?_, fun cursor maxItems hcursor hsize => ?_, fun hfinished => ⟨hat.finished ha hfinished, ?_⟩⟩
  · have hcount := hat.count
    have hwithin := hat.within
    omega
  · rw [hat.cursor] at hcursor
    split at hcursor
    case isFalse => simp at hcursor
    case isTrue hopen =>
      obtain rfl := Option.some.inj hcursor
      obtain ⟨page, -, -, hpage, -⟩ := hat.page ha (by omega) hopen hsize
      exact ⟨page, hpage⟩
  · obtain ⟨b', hpull, hreceives, hthere⟩ := pull_finished ha hb hab hsessionB hat hfinished
    refine ⟨b', hpull, fun _ q hrun' hfinished' hidle => ?_⟩
    have hlength' := hreceives.length_le ha hb
    obtain ⟨_, hat'⟩ := hrun'.somewhere hreceives.reachable (by omega) (hreceives.loaded hsessionB)
    obtain ⟨a', hpull', hreceives', hthere'⟩ := pull_finished hreceives.reachable ha
      (hreceives.compatible ha hba) hsessionA hat' hfinished'
    refine ⟨a', hidle ▸ hpull', fun eventId => Option.ext fun event =>
      ⟨fun hevent => ?_, fun hevent => ?_⟩⟩
    · obtain hold | ⟨-, hnew⟩ := hreceives'.origin _ event hevent
      · obtain ⟨existing, hexisting⟩ := isSome_iff_exists.mp (hthere eventId (by simp [hold]))
        rwa [hreceives.same hab hold hexisting] at hexisting
      · exact hnew
    · obtain ⟨existing, hexisting⟩ := isSome_iff_exists.mp (hthere' eventId (by simp [hevent]))
      rwa [hreceives'.same (hreceives.compatible ha hba) hevent hexisting] at hexisting

namespace Scenario

def islandSync : SyncSession where
  sessionId := named "island-sync"
  scope := tenant
  sourceEndpointId := named "north-island"
  targetEndpointId := named "south-island"
  linkKind := .peerPeer
  selection := ⟨.full, []⟩
  state := .prepared

def activeSync : SyncSession := { islandSync with state := .active }

def northEvent : EventEnvelope := journalEntry (named "north-wind") "ucr.weather"
def southEvent : EventEnvelope := journalEntry (named "south-wind") "ucr.weather"

def island (event : EventEnvelope) : MemoryState :=
  empty.runAll [
    .createSyncSession islandSync,
    .transitionSync tenant islandSync.sessionId .prepared .active,
    .appendEvent event]

theorem north_events :
    (island northEvent).events = Table.put ∅ northEvent.key northEvent := by
  rfl

theorem south_events :
    (island southEvent).events = Table.put ∅ southEvent.key southEvent := by
  rfl

-- Different identifiers, and no group changes or call signals.
theorem islands_compatible (hkey : one.key ≠ other.key)
    (hone : (island one).events = Table.put ∅ one.key one)
    (hother : (island other).events = Table.put ∅ other.key other)
    (hfree : ¬(island other).eventIdInUse one.key) :
    (island one).Compatible (island other) tenant := by
  refine ⟨fun eventId event event' hevent hevent' => ?_, fun eventId hsome => ?_⟩
  · rw [hone, Table.get_put] at hevent
    rw [hother, Table.get_put] at hevent'
    split at hevent
    case isFalse => simp at hevent
    case isTrue heq =>
      rw [if_neg (heq ▸ hkey)] at hevent'
      simp at hevent'
  · rw [hone, Table.get_put] at hsome
    split at hsome
    case isFalse => simp at hsome
    case isTrue heq => exact heq ▸ hfree

end Scenario

open Scenario

-- The southern island takes the event of the northern one; what the northern one takes then makes
-- the two equal.
theorem islands_agree :
    ∃ south, (island southEvent).pull (island northEvent) tenant islandSync.sessionId
        [(island northEvent).summariesAmong tenant (island northEvent).eventOrder] = .ok south ∧
      ∀ q, Paging.Run tenant islandSync.sessionId south q → q.cursor = none → q.store = south →
        ∃ north, (island northEvent).pull south tenant islandSync.sessionId q.pages = .ok north ∧
          ∀ eventId, north.events.get (tenant, eventId) = south.events.get (tenant, eventId) := by
  have hrun : Paging.Run tenant islandSync.sessionId (island northEvent) ⟨island northEvent, none,
      [(island northEvent).summariesAmong tenant (island northEvent).eventOrder]⟩ := by
    have hpage : (island northEvent).antiEntropySummaryPage tenant islandSync.sessionId none 10 =
        .ok ⟨islandSync.sessionId, tenant,
          (island northEvent).summariesAmong tenant (island northEvent).eventOrder, none⟩ := by
      decide +kernel
    exact .begun 10 _ hpage
  have hnorth : (island northEvent).loadAntiEntropySession tenant islandSync.sessionId =
      .ok activeSync := by decide +kernel
  have hsouth : (island southEvent).loadAntiEntropySession tenant islandSync.sessionId =
      .ok activeSync := by decide +kernel
  obtain ⟨-, hpaging⟩ := anti_entropy_converges (storeRun_runAll _ _)
    (storeRun_runAll _ _) hnorth hsouth (by decide +kernel)
    (islands_compatible (by decide) north_events south_events (by decide +kernel))
    (islands_compatible (by decide) south_events north_events (by decide +kernel))
  obtain ⟨-, -, hfinished⟩ := hpaging _ hrun
  obtain ⟨-, south, hpull, hagree⟩ := hfinished rfl
  exact ⟨south, hpull, hagree rfl⟩

end Ucr
