import Mathlib.Data.Nat.Digits.Defs
import Ucr.Realtime.Attendance
import Ucr.Realtime.Theorems.Leases
import Ucr.Store.Theorems.EventLedgers

-- Attendance events are named after a sequence that starts over when a session is let in anew. As
-- long as that does not happen, every one of them finds its place in the journal.

namespace Ucr

open RealtimeSessionRegistry Leases Except AttendanceTransition Protobuf List

variable {r : RealtimeSessionRegistry} {claims : RealtimeSessionClaims}
  {outcome : RealtimeJoinOutcome} {nowUnixMs : ℤ} {nonce : Option OpaqueId} {ops : List RegistryOp}
  {op : RegistryOp} {session : SessionKey}

def transitionsOf (session : SessionKey) (r : RealtimeSessionRegistry) (ops : List RegistryOp) :
    List AttendanceTransition :=
  ((r.answers ops).filterMap RegistryAnswer.transition).filter (·.session = session)

def registered (r : RealtimeSessionRegistry) (session : SessionKey) : Bool :=
  (r.entries.find session).isSome

-- Whoever asks to join in the session after it was known to the registry finds it still there, once
-- what has expired is gone.
def NeverReturns (session : SessionKey) : Bool → RealtimeSessionRegistry → List RegistryOp → Prop
  | _, _, [] => True
  | known, r, op :: ops =>
    (known → ∀ claims nowUnixMs nonce, op = .join claims nowUnixMs nonce → claims.session = session →
      registered (r.pruneExpired nowUnixMs).2 session) ∧
    NeverReturns session (known || registered (op.run r).2 session) (op.run r).2 ops

namespace RegistryAnswer

-- What an answer says about attendance is about the session it answers.
def Sound : RegistryAnswer → Prop
  | joined outcome => outcome.transition.claims = outcome.claims
  | attached claims attachment => ∀ t, attachment.transition = some t → t.claims = claims
  | _ => True

end RegistryAnswer

theorem attachDownlink_sound (h : (r.attachDownlink claims nowUnixMs).1 = .ok attachment)
    (t : AttendanceTransition) (ht : attachment.transition = some t) : t.claims = claims := by
  simp only [attachDownlink, withSession] at h
  repeat' split at h
  all_goals cases h
  all_goals cases ht
  rfl

section

variable {α : Type} {f : α → RegistryAnswer}
  {result : RegistryResult α}

theorem answer_sound (h : ∀ a, result.1 = .ok a → (f a).Sound) : (answer f result).1.Sound := by
  obtain ⟨_ | a, _⟩ := result
  case error => trivial
  case ok    => exact h a rfl

end

theorem RegistryOp.run_sound : (op.run r).1.Sound := by
  cases op
  case join =>
    exact answer_sound fun outcome hok => (join_sound hok).2.trans (join_sound hok).1.symm
  case attachDownlink  => exact answer_sound fun attachment hok => attachDownlink_sound hok
  case markMediaReady  => exact answer_sound fun transition _ => by cases transition <;> trivial
  case heartbeat | heartbeatIfJoinGeneration | currentJoinGeneration | claimPublisherSlot | leave |
      leaveIfSequence | chargeAggregateBandwidth | expire | queueCallCleanupCandidate =>
    exact answer_sound fun _ _ => trivial
  all_goals trivial

theorem connect_registered (hnone : r.find claims = none)
    (h : (r.connect claims nowUnixMs nonce).1 = .ok outcome) :
    registered (r.connect claims nowUnixMs nonce).2 claims.session := by
  obtain ⟨n, _, ⟨e, heq⟩ | ⟨g, _, _, heq⟩⟩ := @nextJoinGeneration_spec r nonce
    <;> rw [connect, heq] at h ⊢ <;> split at h
  case inl.isTrue | inl.isFalse | inr.isTrue => cases h
  case inr.isFalse hroom =>
    rw [if_neg hroom]
    dsimp only [registered, openChannel]
    rw [Roster.find_push (by exact hnone), if_pos (by rfl)]
    rfl

-- A session that is let in as a new one was not there, and is there now.
theorem join_fresh (h : (r.join claims nowUnixMs nonce).1 = .ok outcome)
    (hkind : outcome.transition.kind = .joined) :
    ¬registered (r.pruneExpired nowUnixMs).2 claims.session ∧
      registered (r.join claims nowUnixMs nonce).2 claims.session := by
  simp only [join] at h ⊢
  split at h
  case isTrue => cases h
  case isFalse hlive =>
    split at h
    case isTrue => cases h
    case isFalse hcapacity =>
      rw [if_neg hlive, if_neg hcapacity]
      split at h
      case h_1 => cases h
      case h_2 r₁ heq =>
        rw [heq]
        dsimp only
        split at h
        case h_1 entry hfind =>
          simp only [reconnect, renew] at h
          repeat' split at h
          all_goals cases h
          all_goals cases hkind
        case h_2 hnone =>
          have habsent : r₁.entries.find claims.session = none := hnone
          exact ⟨by rw [registered, habsent]; simp, connect_registered hnone h⟩

theorem RegistryOp.run_enters (h : (op.run r).1.events.countP (Event.enters session) ≠ 0) :
    ∃ claims nowUnixMs nonce, op = .join claims nowUnixMs nonce ∧ claims.session = session ∧
      ¬registered (r.pruneExpired nowUnixMs).2 session ∧ registered (op.run r).2 session ∧
      (op.run r).1.events.countP (Event.enters session) = 1 := by
  cases hanswer : (op.run r).1 <;> rw [hanswer] at h
  case joined outcome =>
    obtain ⟨claims, nowUnixMs, nonce, rfl, hok⟩ := run_outcome (by rw [hanswer]; rfl)
    have hstate : (RegistryOp.run r (.join claims nowUnixMs nonce)).2 =
        (r.join claims nowUnixMs nonce).2 := by
      simp only [RegistryOp.run, answer]
      split <;> simp_all
    simp only [RegistryAnswer.events] at h ⊢
    split at h
    case isFalse => simp [Event.enters] at h
    case isTrue hkind =>
      have hsession : claims.session = session := by
        simpa [Event.enters, (join_sound hok).1] using h
      subst hsession
      obtain ⟨habsent, hpresent⟩ := join_fresh hok hkind
      refine ⟨claims, nowUnixMs, nonce, rfl, rfl, habsent, hstate ▸ hpresent, ?_⟩
      rw [if_pos hkind]
      simp [Event.enters, (join_sound hok).1]
  all_goals simp [RegistryAnswer.events, Event.enters] at h

-- A session that never returns is let in at most once, and not at all if it is known already.
theorem NeverReturns.enters (h : NeverReturns session known r ops) :
    (r.events ops).countP (Event.enters session) ≤ if known then 0 else 1 := by
  induction ops generalizing r known
  case nil => exact Nat.zero_le _
  case cons op ops ih =>
    obtain ⟨hstays, hrest⟩ := h
    have hlater := ih hrest
    have hevents : r.events (op :: ops) = (op.run r).1.events ++ (op.run r).2.events ops := rfl
    rw [hevents, countP_append]
    by_cases henters : (op.run r).1.events.countP (Event.enters session) = 0
    case pos =>
      rw [henters, Nat.zero_add]
      refine hlater.trans ?_
      cases known <;> grind
    case neg =>
      obtain ⟨claims, nowUnixMs, nonce, rfl, hsession, habsent, hpresent, hone⟩ :=
        RegistryOp.run_enters henters
      have hnew : known = false := by
        cases known
        case false => rfl
        case true  => exact absurd (hstays rfl claims nowUnixMs nonce rfl hsession) habsent
      rw [hpresent, Bool.or_true, if_pos rfl] at hlater
      rw [hone, hnew, Nat.le_zero.mp hlater]
      exact le_rfl

theorem RegistryAnswer.Sound.counted {a : RegistryAnswer} (h : a.Sound) :
    Leases.counted session a.events =
      (a.transition.toList.filter (·.session = session)).map (·.sessionSequence.val) := by
  cases a
  case joined outcome =>
    have hsession : outcome.transition.session = outcome.claims.session :=
      congrArg RealtimeSessionClaims.session h
    by_cases heq : outcome.claims.session = session
    all_goals
      simp only [events]
      split
      all_goals simp [Leases.counted, Event.counted, transition, hsession, heq]
  case attached claims attachment =>
    cases htransition : attachment.transition
    case none => simp [Leases.counted, events, Event.counted, transition, htransition]
    case some t =>
      have hsession : t.session = claims.session :=
        congrArg RealtimeSessionClaims.session (h t htransition)
      by_cases heq : claims.session = session
      all_goals simp [Leases.counted, events, Event.counted, transition, htransition, hsession, heq]
  case mediaReady t | left t =>
    by_cases heq : t.session = session
    all_goals simp [Leases.counted, events, Event.counted, transition, heq]
  case other => rfl

theorem counted_events {answers : List RegistryAnswer} (h : ∀ a ∈ answers, a.Sound) :
    Leases.counted session (answers.flatMap RegistryAnswer.events) =
      ((answers.filterMap RegistryAnswer.transition).filter (·.session = session)).map
        (·.sessionSequence.val) := by
  induction answers
  case nil => rfl
  case cons hd tl ih =>
    rw [flatMap_cons, Counting.counted_append, ih fun a ha => h a (List.mem_cons_of_mem _ ha)]
    rw [(h hd List.mem_cons_self).counted, filterMap_cons]
    cases hd.transition <;> simp [filter_cons]
    split <;> simp

theorem answers_sound : ∀ a ∈ r.answers ops, a.Sound := by
  induction ops generalizing r
  case nil => simp [answers]
  case cons op ops ih =>
    rintro a (_ | ⟨_, ha⟩)
    · exact RegistryOp.run_sound
    · exact ih a ha

theorem transitions_increasing {maxSessions queueCapacity track}
    (h : NeverReturns session false (.new maxSessions queueCapacity track) ops) :
    ((transitionsOf session (.new maxSessions queueCapacity track) ops).map
      (·.sessionSequence.val)).Pairwise (· < ·) := by
  have hcounting := (@run_of_new maxSessions queueCapacity track ops).counting session
  have hincreasing := hcounting.increasing h.enters
  rwa [RealtimeSessionRegistry.events, counted_events answers_sound] at hincreasing

section Names

variable {t t' : AttendanceTransition}

theorem utf8Len_ascii (h : ∀ c ∈ chars, c.utf8Size = 1) : String.utf8Len chars = chars.length := by
  induction chars
  case nil => rfl
  case cons hd tl ih =>
    rw [String.utf8Len_cons, ih fun c hc => h c (List.mem_cons_of_mem _ hc), h hd List.mem_cons_self,
      length_cons]

theorem utf8Size_digit {c : Char} (h : c.isDigit) : c.utf8Size = 1 := by
  rw [Char.isDigit, Bool.and_eq_true, decide_eq_true_eq, decide_eq_true_eq] at h
  exact Char.utf8Size_eq_one_iff.mpr (UInt32.le_trans h.2 (by decide))

theorem utf8ByteSize_repr (h : n < 2 ^ 64) : n.repr.utf8ByteSize ≤ 20 := by
  have hdigits : ∀ c ∈ Nat.toDigits 10 n, c.utf8Size = 1 := fun c hc =>
    utf8Size_digit (Nat.isDigit_of_mem_toDigits (by decide) (by decide) hc)
  rw [Nat.repr, String.utf8ByteSize_ofList, utf8Len_ascii hdigits]
  exact Nat.toDigits_length 10 n 20 (by decide) (h.trans (by decide))

theorem attendanceKindSlug_size {kind} : (attendanceKindSlug kind).utf8ByteSize ≤ 11 := by
  cases kind <;> decide

-- A session whose identifier leaves room for the rest of the name.
def maxAttendedSessionIdLen : ℕ := 84

theorem eventIdText_size (h : t.claims.sessionId.value.utf8ByteSize ≤ maxAttendedSessionIdLen) :
    t.eventIdText.utf8ByteSize ≤ OpaqueId.maxLen := by
  have hslug := @attendanceKindSlug_size t.kind
  have hdigits := utf8ByteSize_repr t.sessionSequence.isLt
  have hprefix : "attendance-".utf8ByteSize = 11 := by decide
  have hdash : "-".utf8ByteSize = 1 := by decide
  simp only [eventIdText, String.utf8ByteSize_append, OpaqueId.maxLen,
    maxAttendedSessionIdLen] at h ⊢
  omega

theorem eventIdText_ne_empty : t.eventIdText ≠ "" := by
  intro hempty
  have hsize := congrArg String.utf8ByteSize hempty
  have hprefix : "attendance-".utf8ByteSize = 11 := by decide
  simp only [eventIdText, String.utf8ByteSize_append,
    String.utf8ByteSize_empty] at hsize
  omega

-- Within a session the name says what happened, and as which of its events.
theorem eventIdText_inj (hsession : t.claims.sessionId = t'.claims.sessionId)
    (h : t.eventIdText = t'.eventIdText) :
    t.kind = t'.kind ∧ t.sessionSequence = t'.sessionSequence := by
  have hchars := congrArg String.toList h
  simp only [eventIdText, String.toList_append, hsession, append_assoc,
    append_cancel_left_eq] at hchars
  have hkind : t.kind = t'.kind := by
    cases ht : t.kind <;> cases ht' : t'.kind <;> first
      | rfl
      | simp [ht, ht', attendanceKindSlug] at hchars
  rw [hkind, append_cancel_left_eq, append_cancel_left_eq, Nat.repr, Nat.repr,
    String.toList_ofList, String.toList_ofList] at hchars
  have hdigits := congrArg (Nat.ofDigitChars 10 · 0) hchars
  rw [Nat.ofDigitChars_toDigits (by decide) le_rfl,
    Nat.ofDigitChars_toDigits (by decide) le_rfl] at hdigits
  exact ⟨hkind, Fin.ext hdigits⟩

theorem length_pbOpaque {id : OpaqueId} : (pbOpaque id).length ≤ 148 := by
  have hfield := @length_bytesField 1 id.asWireBytes
  have hid : id.asWireBytes.length ≤ 128 := id.bounded
  exact hfield.trans (by omega)

theorem length_optionalId {field} {id : Option OpaqueId} :
    (optionalField field (id.map pbOpaque)).length ≤ 168 := by
  refine length_optionalField fun m hm => ?_
  obtain ⟨id, _, rfl⟩ := Option.map_eq_some_iff.mp hm
  exact length_pbOpaque

theorem length_payload : t.payload.length ≤ maxEventPayloadLen := by
  have htenant := @length_messageField 1 (pbOpaque t.claims.scope.tenantId)
  have hnamespace := @length_optionalId 2 t.claims.scope.namespaceId
  have hscope := @length_messageField 1 (pbScope t.claims.scope)
  have hcall := @length_messageField 2 (pbOpaque t.claims.callId)
  have hsession := @length_messageField 3 (pbOpaque t.claims.sessionId)
  have hprincipal := @length_messageField 1 (pbOpaque t.claims.participant.principalId)
  have hkind := @length_uint64Field 2 (pbPrincipalKind t.claims.participant.kind)
  have hparticipant := @length_messageField 4 (pbPrincipalRef t.claims.participant)
  have hdevice := @length_optionalId 5 t.claims.deviceId
  have hattendance := @length_uint64Field 6 (pbAttendanceKind t.kind)
  have htime := @length_uint64Field 7 (t.occurredAtUnixMs % 2 ^ 64).toNat
  have hsequence := @length_uint64Field 8 t.sessionSequence.val
  have hids : ∀ id, (pbOpaque id).length ≤ 148 := fun _ => length_pbOpaque
  have htenantId := hids t.claims.scope.tenantId
  have hcallId := hids t.claims.callId
  have hsessionId := hids t.claims.sessionId
  have hprincipalId := hids t.claims.participant.principalId
  simp only [payload, int64Field, pbScope, pbPrincipalRef,
    length_append, maxEventPayloadLen, defaultMaxPayloadLen] at *
  omega

theorem idempotencyKey_size : t.idempotencyKey.utf8ByteSize ≤ maxIdempotencyKeyLen := by
  have hslug := @attendanceKindSlug_size t.kind
  have hdigits := utf8ByteSize_repr t.sessionSequence.isLt
  have hprefix : "attendance:".utf8ByteSize = 11 := by decide
  have hcolon : ":".utf8ByteSize = 1 := by decide
  simp only [idempotencyKey, String.utf8ByteSize_append, maxIdempotencyKeyLen]
  omega

theorem attendanceEventType_valid {kind} :
    validateNamespacedIdentifier (attendanceEventType kind) = .ok () := by
  cases kind <;> decide +kernel

theorem canonicalEvent_envelope :
    canonicalEvent (t.envelope device eventId) = .ok (t.envelope device eventId) := by
  have hkey : ¬(t.envelope device eventId).correlation.idempotencyKey.any
      (·.utf8ByteSize > maxIdempotencyKeyLen) := by
    simpa [envelope] using idempotencyKey_size
  have hpayload : ¬(t.envelope device eventId).payload.length > maxEventPayloadLen :=
    not_lt.mpr length_payload
  simp only [canonicalEvent, validateEvent, bind_eq_ok, mapError_eq_ok, pure_eq_ok]
  exact ⟨(), ⟨(), attendanceEventType_valid, (), rejectIf_eq_ok.mpr hkey, (),
    rejectIf_eq_ok.mpr hpayload, (), rfl, (), rfl, [], rfl, trivial⟩, [], rfl, rfl⟩

-- An attendance event can always be built if its name fits.
theorem attendanceEvent_ok {device}
    (h : t.claims.sessionId.value.utf8ByteSize ≤ maxAttendedSessionIdLen) :
    ∃ eventId : EventId, eventId.value = t.eventIdText ∧
      attendanceEvent (some device) t = .ok (t.envelope device eventId) := by
  refine ⟨⟨t.eventIdText, eventIdText_ne_empty, eventIdText_size h⟩, rfl, ?_⟩
  simp only [attendanceEvent, ok_iff]
  exact ⟨device, rfl, _, dif_pos ⟨eventIdText_ne_empty, eventIdText_size h⟩, canonicalEvent_envelope⟩

end Names

-- The transitions become events one after the other, and each of them is new to the journal.
inductive Recorded (device : DeviceRef) : MemoryState → List AttendanceTransition → MemoryState → Prop
  | nil {s} : Recorded device s [] s
  | cons {s s₁ s₂ t ts event} : attendanceEvent (some device) t = .ok event →
      s.appendEvent event = .ok (.appended, s₁) → Recorded device s₁ ts s₂ →
      Recorded device s (t :: ts) s₂

-- Nothing in the store has the name of an attendance event of the session.
def UnusedFor (s : MemoryState) (session : SessionKey) : Prop :=
  ∀ (t : AttendanceTransition) (eventId : EventId), t.session = session →
    eventId.value = t.eventIdText →
      s.events.get (session.scope, eventId) = none ∧ s.eventIdInUse (session.scope, eventId) = false

section Recording

variable {s : MemoryState}

theorem appendEvent_conflict (hcanonical : canonicalEvent event = .ok event)
    (hstored : s.events.get event.key = some original) (hne : original ≠ event) :
    s.appendEvent event = .error .conflict := by
  have hreject : rejectIf (original ≠ event) DurableStoreError.conflict = .error .conflict := if_pos hne
  simp only [MemoryState.appendEvent, hcanonical, Except.mapError, bind, Except.bind, hstored, hreject]

theorem recorded (hsession : ∀ t ∈ ts, t.session = session)
    (hshort : session.sessionId.value.utf8ByteSize ≤ maxAttendedSessionIdLen)
    (hnames : (ts.map eventIdText).Nodup)
    (hunused : ∀ t ∈ ts, ∀ eventId : EventId, eventId.value = t.eventIdText →
      s.events.get (session.scope, eventId) = none ∧
        s.eventIdInUse (session.scope, eventId) = false) :
    ∃ s', Recorded device s ts s' := by
  induction ts generalizing s
  case nil => exact ⟨s, .nil⟩
  case cons t ts ih =>
    have ht : t.session = session := hsession t List.mem_cons_self
    have hid : t.claims.sessionId = session.sessionId := congrArg SessionKey.sessionId ht
    have hscope : t.claims.scope = session.scope := congrArg SessionKey.scope ht
    obtain ⟨eventId, hvalue, hevent⟩ := @attendanceEvent_ok t device (by rw [hid]; exact hshort)
    obtain ⟨hfree, hunusedId⟩ := hunused t List.mem_cons_self eventId hvalue
    have hkey : (t.envelope device eventId).key = (session.scope, eventId) := by rw [← hscope]; rfl
    have happend : s.appendEvent (t.envelope device eventId) =
        .ok (.appended, s.journalEvent (t.envelope device eventId)) := by
      simp only [MemoryState.appendEvent, ok_iff]
      refine ⟨_, canonicalEvent_envelope, ?_⟩
      rw [hkey, hfree, hunusedId]
      rfl
    rw [map_cons, nodup_cons] at hnames
    have hunused' : ∀ u ∈ ts, ∀ id : EventId, id.value = u.eventIdText →
        (s.journalEvent (t.envelope device eventId)).events.get (session.scope, id) = none ∧
          (s.journalEvent (t.envelope device eventId)).eventIdInUse (session.scope, id) = false := by
      intro u hu id hvalue'
      obtain ⟨hfree', hunusedId'⟩ := hunused u (List.mem_cons_of_mem _ hu) id hvalue'
      have hne : (session.scope, id) ≠ (t.envelope device eventId).key := by
        rw [hkey]
        rintro heq
        obtain rfl : id = eventId := (Prod.mk.inj heq).2
        exact hnames.1 (hvalue ▸ hvalue' ▸ mem_map_of_mem hu)
      exact ⟨(Table.get_put_ne hne).trans hfree', hunusedId'⟩
    obtain ⟨s', hrest⟩ := ih (fun u hu => hsession u (List.mem_cons_of_mem _ hu)) hnames.2 hunused'
    exact ⟨s', .cons hevent happend hrest⟩

end Recording

-- Everything the registry tells about the session is told under a name of its own, and can be
-- recorded.
structure Attended (session : SessionKey) (ts : List AttendanceTransition) : Prop where
  distinct : (ts.map fun t => (t.kind, t.sessionSequence)).Nodup
  names    : (ts.map eventIdText).Nodup
  recorded : ∀ device s, UnusedFor s session → ∃ s', Recorded device s ts s'

theorem attendance_is_recorded (maxSessions queueCapacity : ℕ) (track : Bool) (ops : List RegistryOp)
    (session : SessionKey)
    (hstays : NeverReturns session false (.new maxSessions queueCapacity track) ops)
    (hshort : session.sessionId.value.utf8ByteSize ≤ maxAttendedSessionIdLen) :
    Attended session (transitionsOf session (.new maxSessions queueCapacity track) ops) := by
  have hincreasing := transitions_increasing hstays
  have hsession : ∀ t ∈ transitionsOf session (.new maxSessions queueCapacity track) ops,
      t.session = session := fun t ht => of_decide_eq_true (mem_filter.mp ht).2
  generalize transitionsOf session (.new maxSessions queueCapacity track) ops = ts at *
  rw [pairwise_map] at hincreasing
  have hnames : (ts.map eventIdText).Nodup := by
    refine pairwise_map.mpr (hincreasing.imp_of_mem fun {t t'} ht ht' hlt heq => ?_)
    have hid : t.claims.sessionId = t'.claims.sessionId :=
      congrArg SessionKey.sessionId ((hsession t ht).trans (hsession t' ht').symm)
    exact hlt.ne (congrArg Fin.val (eventIdText_inj hid heq).2)
  constructor
  case distinct =>
    refine pairwise_map.mpr (hincreasing.imp fun hlt heq => ?_)
    exact hlt.ne (congrArg Fin.val (Prod.mk.inj heq).2)
  case names => exact hnames
  case recorded =>
    exact fun device s hunused => recorded hsession hshort hnames fun t ht eventId =>
      hunused t eventId (hsession t ht)

def aviary : TenantScope := ⟨Scenario.named "aviary", none⟩

def perch : RealtimeSessionRegistry := .new 8 8 false

def ringNumber : OpaqueId := Scenario.named "ring-number"

-- Claims of a participant who takes part in a session of their own name.
def birdClaims (bird : OpaqueId) : RealtimeSessionClaims where
  scope := aviary
  callId := Scenario.named "dawn-chorus"
  participant := ⟨bird, .person⟩
  deviceId := none
  sessionId := bird
  issuedAtUnixMs := 0
  notBeforeUnixMs := 0
  expiresAtUnixMs := 1000
  usePolicy := .reusable

def finch : RealtimeSessionClaims := birdClaims (Scenario.named "finch")
def robin : RealtimeSessionClaims := birdClaims (Scenario.named "robin")

-- The finch reconnects before it leaves.
theorem finch_attends :
    let ops := [.join finch 0 (some ringNumber), .join finch 5 none, .markMediaReady finch 7,
      .leave finch 10]
    transitionsOf finch.session perch ops =
        [⟨.joined, finch, 1, 0⟩, ⟨.reconnected, finch, 2, 5⟩, ⟨.mediaReady, finch, 3, 7⟩,
          ⟨.left, finch, 4, 10⟩] ∧
      Attended finch.session (transitionsOf finch.session perch ops) := by
  refine ⟨by decide +kernel, attendance_is_recorded 8 8 false _ _ ?_ (by decide)⟩
  refine ⟨fun h => absurd h (by decide), ?_, ?_, ?_, trivial⟩
  · rintro _ _ _ _ ⟨⟩ _
    decide +kernel
  · rintro _ _ _ _ ⟨⟩
  · rintro _ _ _ _ ⟨⟩

-- The robin leaves and comes back with the same claims. It is let in as a new session, and the
-- journal takes the second event for a changed copy of the first.
theorem robin_returns :
    let ops := [.join robin 0 (some ringNumber), .leave robin 10, .join robin 20 none]
    transitionsOf robin.session perch ops =
        [⟨.joined, robin, 1, 0⟩, ⟨.left, robin, 2, 10⟩, ⟨.joined, robin, 1, 20⟩] ∧
      ¬Attended robin.session (transitionsOf robin.session perch ops) ∧
      ∀ (s : MemoryState) device eventId,
        s.events.get (aviary, eventId) =
            some (envelope ⟨.joined, robin, 1, 0⟩ device eventId) →
          s.appendEvent (envelope ⟨.joined, robin, 1, 20⟩ device eventId) =
            .error .conflict := by
  have hrun : transitionsOf robin.session perch
      [.join robin 0 (some ringNumber), .leave robin 10, .join robin 20 none] =
        [⟨.joined, robin, 1, 0⟩, ⟨.left, robin, 2, 10⟩, ⟨.joined, robin, 1, 20⟩] := by
    decide +kernel
  refine ⟨hrun, fun h => ?_, fun s device eventId hstored => ?_⟩
  · have hdistinct := h.distinct
    rw [hrun] at hdistinct
    revert hdistinct
    decide
  · refine appendEvent_conflict canonicalEvent_envelope hstored fun hsame => ?_
    have htime := congrArg EventEnvelope.wallTimeUnixMs hsame
    cases htime

end Ucr
