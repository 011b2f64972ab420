import Ucr.Store.Theorems.Invariant

-- Stored calls live by call runs only: none is lost, none turns corrupt, and what the fingerprint
-- of their creation covers never changes.

namespace Ucr

open Except Relation MemoryState Table

variable {s s' : MemoryState} {key : ScopedId} {created : List ScopedId}

namespace MemoryState

-- A call and its creation fingerprint are stored together and fit together.
structure CallsSound (s : MemoryState) : Prop where
  absent : ∀ key, s.calls.get key = none → s.callCreationFingerprints.get key = none
  stored : ∀ key call, s.calls.get key = some call → call.Canonical ∧
    ∃ digest, s.callCreationFingerprints.get key = some digest ∧
      callCreationFingerprint call = .ok digest

theorem CallsSound.validated (hs : s.CallsSound) (scope : TenantScope) (callId : CallId) :
    s.validatedCallFromState scope callId = .ok (s.calls.get (scope, callId)) := by
  unfold validatedCallFromState
  split
  case h_1 hnone => simp [hs.absent _ hnone, hnone, rejectIf, pure, bind, Except.bind, Except.pure]
  case h_2 call hcall =>
    obtain ⟨hcanonical, digest, hdigest, hfingerprint⟩ := hs.stored _ call hcall
    simp [CallSession.canonical_iff.mp hcanonical, hdigest, hfingerprint, hcall,
      Option.okOr, rejectIf, pure, bind, Except.bind, Except.pure]

-- What a transition does to the call under a key, if calls under the given keys may be created.
inductive CallChange (created : List ScopedId) (s s' : MemoryState) (key : ScopedId) : Prop
  | absent (before : s.calls.get key = none) (after : s'.calls.get key = none)
      (fingerprint : s'.callCreationFingerprints.get key = s.callCreationFingerprints.get key)
  | run (call next : CallSession) (before : s.calls.get key = some call)
      (after : s'.calls.get key = some next) (steps : CallRun call next)
      (fingerprint : s'.callCreationFingerprints.get key = s.callCreationFingerprints.get key)
  | created (creator : ScopedPrincipal) (given session : CallSession) (digest : Digest)
      (asked : key ∈ created) (before : s.calls.get key = none)
      (creation : canonicalCallCreation given creator.scope creator.principal = .ok session)
      (after : s'.calls.get key = some session)
      (hdigest : callCreationFingerprint session = .ok digest)
      (fingerprint : s'.callCreationFingerprints.get key = some digest)

theorem CallChange.same (hcalls : s'.calls = s.calls)
    (hfingerprints : s'.callCreationFingerprints = s.callCreationFingerprints) (key : ScopedId) :
    s.CallChange created s' key := by
  cases hget : s.calls.get key
  case none      => exact .absent hget (hcalls ▸ hget) (by rw [hfingerprints])
  case some call => exact .run call call hget (hcalls ▸ hget) .refl (by rw [hfingerprints])

theorem Effect.callChange (h : s.Effect cause s') (hs : s.CallsSound) (key : ScopedId) :
    s.CallChange cause.calls s' key := by
  cases h
  case other same _ _ => exact .same same.calls same.fingerprints key
  case callCreated creator given session digest asked creation hdigest fresh _ =>
    by_cases hkey : key = (session.scope, session.callId)
    · subst hkey
      have hnone := Except.ok.inj ((hs.validated _ _).symm.trans fresh)
      exact .created creator given session digest asked hnone creation get_put_self hdigest
        get_put_self
    · cases hget : s.calls.get key
      case none =>
        exact .absent hget ((get_put_ne hkey).trans hget) (get_put_ne hkey)
      case some call =>
        exact .run call call hget ((get_put_ne hkey).trans hget) .refl (get_put_ne hkey)
  case callSignalled actor signal current next _ stored _ _ applied =>
    by_cases hkey : key = (signal.scope, signal.callId)
    · subst hkey
      have hcurrent := Except.ok.inj ((hs.validated _ _).symm.trans stored)
      exact .run current next hcurrent get_put_self
        (.single (.signal actor.scope actor.principal signal applied)) rfl
    · cases hget : s.calls.get key
      case none      => exact .absent hget ((get_put_ne hkey).trans hget) rfl
      case some call => exact .run call call hget ((get_put_ne hkey).trans hget) .refl rfl
  all_goals exact .same (by rfl) (by rfl) key

theorem GroupEffect.callChange (h : s.GroupEffect s') (key : ScopedId) :
    s.CallChange created s' key := by
  cases h
  case groupCreated => exact .same (by rfl) (by rfl) key
  case groupChanged actor change group floor transition calls stored _ applied reconciled =>
    cases hget : s.calls.get key
    case none => exact .absent hget ((get_rewriteM reconciled).1 hget) rfl
    case some call =>
      obtain ⟨next, hnext, ⟨-, hreconciled⟩ | ⟨-, rfl⟩⟩ := reconcileGroupCalls_get reconciled hget
      · exact .run call next hget hnext (.single (.membership _ hreconciled)) rfl
      · exact .run next next hget hnext .refl rfl

theorem Transition.callChange (h : s.Transition s') (hs : s.CallsSound) (key : ScopedId) :
    ∃ created, s.CallChange created s' key := by
  cases h
  case same h => exact ⟨[], .same h.calls h.fingerprints key⟩
  case effect cause h => exact ⟨cause.calls, h.callChange hs key⟩
  case group h => exact ⟨[], h.callChange key⟩

theorem CallChange.sound (h : s.CallChange created s' key) (hs : s.CallsSound) :
    (s'.calls.get key = none → s'.callCreationFingerprints.get key = none) ∧
      ∀ call, s'.calls.get key = some call → call.Canonical ∧
        ∃ digest, s'.callCreationFingerprints.get key = some digest ∧
          callCreationFingerprint call = .ok digest := by
  cases h
  case absent hbefore hafter hfingerprint =>
    refine ⟨fun _ => hfingerprint.trans (hs.absent key hbefore), fun call hcall => ?_⟩
    simp [hafter] at hcall
  case run call next hbefore hafter steps hfingerprint =>
    refine ⟨fun hnone => by simp [hafter] at hnone, fun _ hcall => ?_⟩
    obtain rfl := Option.mem_unique hafter hcall
    obtain ⟨hcanonical, digest, hdigest, heq⟩ := hs.stored key call hbefore
    have hpreserves := CallRun.preserves hcanonical steps
    refine ⟨hpreserves.canonical, digest, hfingerprint.trans hdigest, ?_⟩
    rw [hpreserves.continues.fingerprint_eq hcanonical hpreserves.canonical, heq]
  case created creator given session digest _ _ creation hafter hdigest hfingerprint =>
    refine ⟨fun hnone => by simp [hafter] at hnone, fun _ hcall => ?_⟩
    obtain rfl := Option.mem_unique hafter hcall
    exact ⟨(canonicalCallCreation_spec creation).1, digest, hfingerprint, hdigest⟩

theorem Transition.callsSound (h : s.Transition s') (hs : s.CallsSound) : s'.CallsSound where
  absent key := by
    obtain ⟨_, hchange⟩ := h.callChange hs key
    exact (hchange.sound hs).1
  stored key := by
    obtain ⟨_, hchange⟩ := h.callChange hs key
    exact (hchange.sound hs).2

theorem Transitions.callsSound (h : s.Transitions s') (hs : s.CallsSound) : s'.CallsSound := by
  induction h
  case refl => exact hs
  case tail step ih => exact step.callsSound ih

theorem Attainable.callsSound (hs : s.Attainable) : s.CallsSound :=
  Transitions.callsSound hs ⟨by simp [empty], by simp [empty]⟩

end MemoryState

-- From its creation on a call keeps its fingerprint and its participants, nobody who is out comes
-- back, and nothing happens after the end. In the store this means that no call is ever corrupt.
theorem calls_stay_retryable :
    (∀ given creatorScope creator created session,
      canonicalCallCreation given creatorScope creator = .ok created → CallRun created session →
      (∃ digest, callCreationFingerprint created = .ok digest ∧
        callCreationFingerprint session = .ok digest) ∧
      ∀ later, CallRun session later →
        (∀ v ∈ session.participants, ∃ v' ∈ later.participants, v'.principal = v.principal ∧
          (v.state ∈ [.rejected, .busy, .left] → ¬v'.isActive)) ∧
        (session.signallingState = .terminated → later = session)) ∧
    ∀ s : MemoryState, s.Reachable → ∀ scope callId,
      s.validatedCallFromState scope callId = .ok (s.calls.get (scope, callId)) := by
  refine ⟨fun given creatorScope creator created session hcreation hrun => ⟨?_, ?_⟩, ?_⟩
  · obtain ⟨digest, hdigest⟩ := callCreationFingerprint_of_creation hcreation
    obtain ⟨hcanonical, -⟩ := canonicalCallCreation_spec hcreation
    have hpreserves := CallRun.preserves hcanonical hrun
    refine ⟨digest, hdigest, ?_⟩
    rw [hpreserves.continues.fingerprint_eq hcanonical hpreserves.canonical, hdigest]
  · intro later hlater
    obtain ⟨hcanonical, -⟩ := canonicalCallCreation_spec hcreation
    have hpreserves := CallRun.preserves (CallRun.preserves hcanonical hrun).canonical hlater
    refine ⟨fun v hv => ?_, hpreserves.terminated⟩
    obtain ⟨v', hv', hprincipal, -, hdead⟩ := hpreserves.continues.kept v hv
    refine ⟨v', hv', hprincipal, fun hout => ?_⟩
    have hnotLive : ¬v.state.isLive := by
      simp only [List.mem_cons, List.not_mem_nil, or_false] at hout
      obtain h | h | h := hout <;> simp [h, CallParticipantState.isLive]
    simp [CallParticipant.isActive, hdead hnotLive, hnotLive]
  · exact fun s hs => hs.attainable.callsSound.validated

namespace Scenario

def directChat : ConversationRecord where
  scope := tenant
  conversation := ⟨named "direct-chat", .direct⟩
  parentConversationId := none

def directCall : CallSession :=
  aliceCallsBob (named "direct-call") directChat.conversation

def directSignal (eventId : OpaqueId) (revision : U64) (kind : CallSignalKind) : CallSignal where
  eventId := eventId
  scope := tenant
  callId := directCall.callId
  expectedRevision := revision
  kind := kind

def bobRejects : CallSignal := directSignal (named "bob-rejects") 0 .reject

def rejectedCall : CallSession :=
  { directCall with
    participants := [⟨alice, .accepted, 0, none⟩, ⟨bob, .rejected, 0, none⟩]
    signallingState := .terminated
    replicationGeneration := 1
    revision := 1
    terminationReason := some .rejected }

def rejectedCallStore : MemoryState :=
  empty.runAll [.persistConversation directChat,
    .createCall ⟨tenant, alice⟩ directCall, .applyCallSignal ⟨tenant, bob⟩ bobRejects]

end Scenario

open Scenario

-- A call that was rejected can still be asked for again, and cannot change any more.
theorem rejected_call_stays_retryable :
    (∃ digest, callCreationFingerprint directCall = .ok digest ∧
      callCreationFingerprint rejectedCall = .ok digest) ∧
    rejectedCallStore.validatedCallFromState tenant directCall.callId =
      .ok (some rejectedCall) := by
  have hcreation : canonicalCallCreation directCall tenant alice =
      .ok directCall := by decide +kernel
  have hstep : applyCallSignal directCall tenant bob
      bobRejects = .ok rejectedCall := by decide +kernel
  have hstored : rejectedCallStore.calls.get
      (tenant, directCall.callId) = some rejectedCall := by
    decide +kernel
  refine ⟨(calls_stay_retryable.1 _ _ _ _ _ hcreation (.single (.signal _ _ _ hstep))).1, ?_⟩
  have hreachable : rejectedCallStore.Reachable := storeRun_runAll _ _
  rw [calls_stay_retryable.2 _ hreachable, hstored]

end Ucr
