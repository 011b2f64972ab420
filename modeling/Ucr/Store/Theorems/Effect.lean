import Ucr.Protocol.Theorems.CallLife
import Ucr.Store.Op
import Ucr.Store.Theorems.EventLedgers

-- What operations do to the records that calls, groups, messages and grants are about. Every
-- operation is a sequence of the effects below, so an invariant only has to survive each of them.

namespace Ucr

open Except Relation Table

variable {s s' : MemoryState} {cause : Cause}

namespace MemoryState

-- Two states that differ at most in the journal, its subscriptions, and bookkeeping.
structure SameCore (s s' : MemoryState) : Prop where
  conversations : s'.conversations = s.conversations
  calls : s'.calls = s.calls
  fingerprints : s'.callCreationFingerprints = s.callCreationFingerprints
  signals : s'.callSignals = s.callSignals
  groups : s'.groups = s.groups
  memberships : s'.groupMemberships = s.groupMemberships
  messages : s'.messages = s.messages
  replicas : s'.offlineGroupMessageReplicas = s.offlineGroupMessageReplicas
  grants : s'.conferenceJoinGrants = s.conferenceJoinGrants

-- Subscriptions stay, and the ledgers of event identifiers get new records only.
structure EventsGrow (s s' : MemoryState) : Prop where
  subscriptions : s'.eventSubscriptions = s.eventSubscriptions
  records : s.toEventLedgers.Records s'.toEventLedgers

-- The tables of an area change in that area only.
structure Keeps (area : Option StoreArea) (t t' : AreaTables) : Prop where
  commands    : area ≠ some .commands → t'.toCommandTables = t.toCommandTables
  deliveries  : area ≠ some .deliveries → t'.toDeliveryTables = t.toDeliveryTables
  recordings  : area ≠ some .recordings → t'.toRecordingTables = t.toRecordingTables
  conferences : area ≠ some .conferences → t'.toConferenceTables = t.toConferenceTables
  services    : area ≠ some .services → t'.toServiceTables = t.toServiceTables
  devices     : area ≠ some .devices → t'.toDeviceTables = t.toDeviceTables

-- Grants may be used up, revoked and redacted, but a revocation is never taken back and a grant
-- that is still valid is still a grant for the same call.
def GrantsDecay (grants grants' : Table ScopedId ConferenceJoinGrantRecord) : Prop :=
  ∀ key grant', grants'.get key = some grant' → ∃ grant, grants.get key = some grant ∧
    (¬grant'.revoked → ¬grant.revoked ∧ grant'.scope = grant.scope ∧
      grant'.callId = grant.callId ∧ grant'.integrationId = grant.integrationId)

-- Effects that leave groups and their members alone.
inductive Effect (cause : Cause) (s : MemoryState) : MemoryState → Prop
  | other {s' : MemoryState} (same : s.SameCore s') (events : s.EventsGrow s')
      (keeps : Keeps cause.area s.toAreaTables s'.toAreaTables) : Effect cause s s'
  | conversationStored (record : ConversationRecord)
      (fresh : s.conversations.get (record.scope, record.conversation.conversationId) = none) :
      Effect cause s { s with
        conversations :=
          s.conversations.put (record.scope, record.conversation.conversationId) record }
  | callCreated (creator : ScopedPrincipal) (given session : CallSession) (digest : Digest)
      (asked : (session.scope, session.callId) ∈ cause.calls)
      (creation : canonicalCallCreation given creator.scope creator.principal = .ok session)
      (fingerprint : callCreationFingerprint session = .ok digest)
      (fresh : s.validatedCallFromState session.scope session.callId = .ok none)
      (members : s.requireGroupParticipantsIfNeeded session = .ok ()) :
      Effect cause s { s with
        callCreationFingerprints :=
          s.callCreationFingerprints.put (session.scope, session.callId) digest
        calls := s.calls.put (session.scope, session.callId) session }
  | callSignalled (actor : ScopedPrincipal) (signal : CallSignal) (current next : CallSession)
      (asked : signal ∈ cause.signals)
      (stored : s.validatedCallFromState signal.scope signal.callId = .ok (some current))
      (unused : s.Unused (signal.scope, signal.eventId))
      (target : s.requireGroupSignalTargetIfNeeded current signal = .ok ())
      (applied : applyCallSignal current actor.scope actor.principal signal = .ok next) :
      Effect cause s (s.recordSignal actor.principal signal next)
  | messageStored (given canonical : MessageEnvelope)
      (hcanonical : canonicalMessage given = .ok canonical)
      (fresh : s.messages.get (canonical.scope, canonical.messageId) = none) :
      Effect cause s { s with
        messages := s.messages.put (canonical.scope, canonical.messageId)
          { canonical with deliveryState := .persisted } }
  | messageExported (sequence : U64) (replica : OfflineGroupMessageReplica) (group : GroupRecord)
      (stored : s.messages.get (replica.message.scope, replica.message.messageId) =
        some replica.message)
      (owner : s.groups.get (replica.message.scope, replica.groupId) = some group)
      (conversation : group.conversation = replica.message.conversation) :
      Effect cause s { s with
        offlineGroupMessageReplicas := s.offlineGroupMessageReplicas ++ [(sequence, replica)] }
  | grantIssued (grant : ConferenceJoinGrantRecord)
      (allowed : s.requireFirstPartyMedia grant = .ok ()) :
      Effect cause s { s with
        conferenceJoinGrants :=
          s.conferenceJoinGrants.put (grant.scope, grant.sessionId) grant }
  | grantsDecayed (grants : Table ScopedId ConferenceJoinGrantRecord)
      (decay : GrantsDecay s.conferenceJoinGrants grants) :
      Effect cause s { s with conferenceJoinGrants := grants }

inductive GroupEffect (s : MemoryState) : MemoryState → Prop
  | groupCreated (creator : ScopedPrincipal) (given group : GroupRecord)
      (membership : GroupMembership) (floor : U64)
      (creation : canonicalGroupCreation given creator.scope creator.principal =
        .ok (group, membership))
      (fresh : s.groups.get (group.scope, group.groupId) = none)
      (unowned : s.groupOf group.scope group.conversation = none)
      (hfloor : s.historyFloorForAdd group = .ok floor)
      (conversation : ∃ record, s.conversations.get
        (group.scope, group.conversation.conversationId) = some record ∧
          record.conversation = group.conversation) :
      GroupEffect s { s with
        groups := s.groups.put (group.scope, group.groupId) group
        groupMemberships := s.groupMemberships.put
          (group.scope, group.groupId, membership.member)
          { membership with historyFloorLogicalOrder := floor } }
  | groupChanged (actor : ScopedPrincipal) (change : GroupChange) (group : GroupRecord)
      (floor : Option U64) (transition : GroupTransition) (calls : Table ScopedId CallSession)
      (stored : s.groups.get (change.scope, change.groupId) = some group)
      (hfloor : ∀ order, floor = some order → s.historyFloorForAdd group = .ok order)
      (applied : Ucr.applyGroupChange group (s.membersOf change.scope change.groupId) actor.scope
        actor.principal change floor = .ok transition)
      (reconciled : s.reconcileGroupCallsAfterMembershipChange transition.group
        transition.memberships = .ok calls) :
      GroupEffect s { s with
        calls := calls
        groups := s.groups.put (change.scope, change.groupId) transition.group
        groupMemberships := s.replaceMembers change.scope change.groupId transition.memberships }

abbrev Effects (cause : Cause) := ReflTransGen (Effect cause)

-- What one operation does: there is at most one effect on groups among its effects, and an
-- operation with such an effect stores no messages.
inductive Changes (cause : Cause) (s s' : MemoryState) : Prop
  | of_effects (h : s.Effects cause s')
  | of_group (s₁ s₂ : MemoryState) (before : s.Effects cause s₁) (group : s₁.GroupEffect s₂)
      (after : s₂.Effects cause s') (messages : s₁.messages = s.messages)
      (messages' : s'.messages = s.messages)

-- Every record lies under its own identifiers.
structure Keyed (s : MemoryState) : Prop where
  calls : ∀ key call, s.calls.get key = some call → (call.scope, call.callId) = key
  groups : ∀ key group, s.groups.get key = some group → (group.scope, group.groupId) = key
  memberships : ∀ key membership, s.groupMemberships.get key = some membership →
    membershipKey membership = key
  messages    : ∀ key message, s.messages.get key = some message →
    (message.scope, message.messageId) = key

theorem SameCore.refl (s : MemoryState) : s.SameCore s :=
  ⟨rfl, rfl, rfl, rfl, rfl, rfl, rfl, rfl, rfl⟩

theorem Keeps.of_eq (h : t' = t) : Keeps area t t' := by
  subst h
  exact ⟨fun _ => rfl, fun _ => rfl, fun _ => rfl, fun _ => rfl, fun _ => rfl, fun _ => rfl⟩

theorem Keeps.trans (h₁ : Keeps area t t') (h₂ : Keeps area t' t'') : Keeps area t t'' where
  commands h    := (h₂.commands h).trans (h₁.commands h)
  deliveries h  := (h₂.deliveries h).trans (h₁.deliveries h)
  recordings h  := (h₂.recordings h).trans (h₁.recordings h)
  conferences h := (h₂.conferences h).trans (h₁.conferences h)
  services h    := (h₂.services h).trans (h₁.services h)
  devices h     := (h₂.devices h).trans (h₁.devices h)

theorem EventsGrow.of_eq (hsubscriptions : s'.eventSubscriptions = s.eventSubscriptions)
    (hledgers : s'.toEventLedgers = s.toEventLedgers) : s.EventsGrow s' :=
  ⟨hsubscriptions, hledgers ▸ .refl⟩

theorem EventsGrow.trans (h₁ : s.EventsGrow s') (h₂ : s'.EventsGrow s'') : s.EventsGrow s'' :=
  ⟨h₂.subscriptions.trans h₁.subscriptions, h₁.records.trans h₂.records⟩

theorem EventsGrow.journalEvent (unused : s.Unused event.key)
    (canonical : canonicalEvent event = .ok event) : s.EventsGrow (s.journalEvent event) :=
  ⟨rfl, .single (.event event unused canonical)⟩

theorem Effect.eventsGrow (h : s.Effect cause s') : s.EventsGrow s' := by
  cases h
  case other events _ => exact events
  case callSignalled unused _ _ => exact ⟨rfl, .single (.signal _ _ unused)⟩
  all_goals exact .of_eq rfl rfl

theorem Effects.eventsGrow (h : s.Effects cause s') : s.EventsGrow s' := by
  induction h
  case refl => exact .of_eq rfl rfl
  case tail hstep grow => exact grow.trans hstep.eventsGrow

theorem Changes.eventsGrow (h : s.Changes cause s') : s.EventsGrow s' := by
  cases h
  case of_effects h => exact h.eventsGrow
  case of_group s₁ s₂ before group after _ _ =>
    have hgroup : s₁.EventsGrow s₂ := by cases group <;> exact .of_eq rfl rfl
    exact (before.eventsGrow.trans hgroup).trans after.eventsGrow

theorem Effect.keeps (h : s.Effect cause s') : Keeps cause.area s.toAreaTables s'.toAreaTables := by
  cases h
  case other keeps => exact keeps
  all_goals exact .of_eq rfl

theorem Effects.keeps (h : s.Effects cause s') :
    Keeps cause.area s.toAreaTables s'.toAreaTables := by
  induction h
  case refl => exact .of_eq rfl
  case tail hstep ih => exact ih.trans hstep.keeps

theorem Changes.keeps (h : s.Changes cause s') :
    Keeps cause.area s.toAreaTables s'.toAreaTables := by
  cases h
  case of_effects h => exact h.keeps
  case of_group s₁ s₂ before group after _ _ =>
    have hgroup : Keeps cause.area s₁.toAreaTables s₂.toAreaTables := by
      cases group <;> exact .of_eq rfl
    exact (before.keeps.trans hgroup).trans after.keeps

-- What no effect is about.
theorem Effects.other (same : s.SameCore s')
    (hsubscriptions : s'.eventSubscriptions = s.eventSubscriptions)
    (hledgers : s'.toEventLedgers = s.toEventLedgers)
    (hareas : s'.toAreaTables = s.toAreaTables) : s.Effects cause s' :=
  .single (.other same (.of_eq hsubscriptions hledgers) (.of_eq hareas))

variable {α : Type} {r : StoreResult (α × MemoryState)}

-- An update that writes everything at the end changes what its success does, or nothing.
theorem Changes.commit
    (success : ∀ a s', r = .ok (a, s') → s.Changes cause s') : s.Changes cause (r.commit s).2 :=
  commit_snd_cases (.of_effects .refl) success

theorem Effects.commit
    (success : ∀ a s', r = .ok (a, s') → s.Effects cause s') : s.Effects cause (r.commit s).2 :=
  commit_snd_cases .refl success

theorem Changes.of_commit
    (success : ∀ {a s'}, r = .ok (a, s') → s.Effects cause s') : s.Changes cause (r.commit s).2 :=
  .of_effects (Effects.commit fun _ _ => success)

section Calls

variable {session direct : CallSession} {signal : CallSignal}

theorem createCallWithParentGuard_effects (hasked : (session.scope, session.callId) ∈ cause.calls)
    (h : s.createCallWithParentGuard creator session parent = .ok (status, s')) :
    s.Effects cause s' := by
  simp only [createCallWithParentGuard, ok_iff, exists_const] at h
  obtain ⟨session', hcreation, digest, hdigest, -, -, -, -, -, existing, hexisting, h⟩ := h
  cases existing
  case some existing =>
    simp only [ok_iff] at h
    obtain ⟨-, -, -, -, -, -, -, rfl⟩ := h
    exact .refl
  case none =>
    simp only [ok_iff] at h
    obtain ⟨_, hmembers, -, rfl⟩ := h
    refine .single (.callCreated creator session session' digest ?_ hcreation hdigest hexisting
      hmembers)
    obtain ⟨-, -, rfl, -⟩ := canonicalCallCreation_spec hcreation
    exact hasked

-- A signal is recorded and changes its call, or it has been recorded before.
theorem applyCallSignalInState_spec
    (h : s.applyCallSignalInState actor signal = .ok (status, s')) :
    ∃ current, s.validatedCallFromState signal.scope signal.callId = .ok (some current) ∧
      s.groupActorCurrentIfNeeded current actor.principal ∧
      ((status = .duplicate ∧ s' = s ∧ ∃ revision,
          s.callSignals.get (signal.scope, signal.eventId) =
            some (actor.principal, callSignalFingerprint signal, revision)) ∨
        (status = .persisted ∧ s.Unused (signal.scope, signal.eventId) ∧
          s.requireGroupSignalTargetIfNeeded current signal = .ok () ∧
          ∃ next, applyCallSignal current actor.scope actor.principal signal = .ok next ∧
            s' = s.recordSignal actor.principal signal next)) := by
  simp only [applyCallSignalInState, ok_iff, exists_const, not_not] at h
  obtain ⟨-, _, hstored, current, rfl, hmember, h⟩ := h
  refine ⟨current, hstored, hmember, ?_⟩
  split at h
  case h_1 revision hrecorded =>
    simp only [ok_iff, exists_const, ne_eq, not_or, not_not] at h
    obtain ⟨⟨rfl, -⟩, rfl, rfl, rfl⟩ := h
    exact .inl ⟨rfl, rfl, revision, hrecorded⟩
  case h_2 hfresh =>
    simp only [ok_iff, exists_const, not_or, Option.not_isSome_iff_eq_none] at h
    obtain ⟨-, _, htarget, next, happlied, ⟨hevent, hchange⟩, rfl, rfl⟩ := h
    exact .inr ⟨rfl, ⟨hevent, hchange, hfresh⟩, htarget, next, happlied, rfl⟩

theorem applyCallSignalInState_effects (hasked : signal ∈ cause.signals)
    (h : s.applyCallSignalInState actor signal = .ok (status, s')) : s.Effects cause s' := by
  obtain ⟨current, hstored, -, ⟨-, rfl, -⟩ | ⟨-, hunused, htarget, next, happlied, rfl⟩⟩ :=
    applyCallSignalInState_spec h
  · exact .refl
  · exact .single (.callSignalled actor signal current next hasked hstored hunused htarget happlied)

theorem validatedCallFromState_get
    (h : s.validatedCallFromState scope callId = .ok (some session)) :
    ∃ stored, s.calls.get (scope, callId) = some stored ∧ canonicalCallSession stored = .ok session
    := by
  unfold validatedCallFromState at h
  split at h
  case h_1 =>
    simp only [ok_iff, reduceCtorEq, and_false, exists_false] at h
  case h_2 stored hstored =>
    simp only [ok_iff, Option.some.injEq] at h
    obtain ⟨_, hcanonical, -, -, -, -, -, -, rfl⟩ := h
    exact ⟨stored, hstored, hcanonical⟩

theorem validatedCallFromState_none
    (h : s.validatedCallFromState scope callId = .ok none) : s.calls.get (scope, callId) = none := by
  unfold validatedCallFromState at h
  split at h
  case h_1 hnone => exact hnone
  case h_2 => simp at h

theorem derivedTermination_eq_none : derivedTermination state = none ↔ state = .terminated := by
  cases state <;> simp [derivedTermination]

theorem Keyed.validated (hs : s.Keyed)
    (h : s.validatedCallFromState scope callId = .ok (some session)) :
    session.scope = scope ∧ session.callId = callId := by
  obtain ⟨stored, hstored, hcanonical⟩ := validatedCallFromState_get h
  obtain ⟨-, rfl⟩ := canonicalCallSession_eq_ok.mp hcanonical
  exact Prod.mk.inj (hs.calls _ stored hstored)

@[simp]
theorem restoreCall_self : s.restoreCall s.calls key = s.calls := by
  unfold restoreCall
  split
  case h_1 h => exact put_eq_self h
  case h_2   => rfl

@[simp]
theorem restoreSignal_self : s.restoreSignal s.callSignals key = s.callSignals := by
  unfold restoreSignal
  split
  case h_1 h => exact put_eq_self h
  case h_2 h => exact erase_of_get h

-- Undoing a signal gives back the very same state.
theorem rollBack_recordSignal (hcall : s.calls.get (signal.scope, signal.callId) = some session)
    (hsignal : s.callSignals.get (signal.scope, signal.eventId) = none) :
    (s.recordSignal principal signal next).rollBack s [(signal.scope, signal.callId), key]
      [(signal.scope, signal.eventId), event] = s := by
  have hcalls : ∀ next, s.restoreCall (s.calls.put (signal.scope, signal.callId) next)
      (signal.scope, signal.callId) = s.calls := fun next => by
    simp only [restoreCall, hcall]
    exact put_put_of_get hcall
  have hsignals : ∀ record, s.restoreSignal
      (s.callSignals.put (signal.scope, signal.eventId) record) (signal.scope, signal.eventId) =
        s.callSignals := fun record => by
    simp only [restoreSignal, hsignal]
    exact erase_put hsignal
  simp [rollBack, recordSignal, hcalls, hsignals]

-- The media call is gone, over, or ended by the signal for it.
theorem terminateDerived_spec (h : s.terminateDerived direct callId eventId = .ok s') :
    (s' = s ∧ ∀ stored, s.calls.get (direct.scope, callId) = some stored →
        stored.signallingState = .terminated) ∨
      ∃ stored kind status, s.calls.get (direct.scope, callId) = some stored ∧
        derivedTermination stored.signallingState = some kind ∧
        s.applyCallSignalInState ⟨direct.scope, direct.initiatedBy⟩
          (derivedSignal direct.scope callId eventId stored.revision kind) = .ok (status, s') := by
  simp only [terminateDerived, ok_iff] at h
  obtain ⟨media, hmedia, h⟩ := h
  cases media
  case none =>
    obtain rfl := pure_eq_ok.mp h
    have hnone := validatedCallFromState_none hmedia
    exact .inl ⟨rfl, by simp [hnone]⟩
  case some media =>
    obtain ⟨stored, hstored, hcanonical⟩ := validatedCallFromState_get hmedia
    obtain ⟨-, rfl⟩ := canonicalCallSession_eq_ok.mp hcanonical
    simp only [ok_iff] at h
    obtain ⟨-, -, h⟩ := h
    split at h
    case h_1 hkind =>
      obtain rfl := pure_eq_ok.mp h
      refine .inl ⟨rfl, fun stored' hstored' => ?_⟩
      obtain rfl := Option.mem_unique hstored hstored'
      exact derivedTermination_eq_none.mp hkind
    case h_2 kind hkind =>
      simp only [ok_iff, Prod.exists] at h
      obtain ⟨status, _, happlied, rfl⟩ := h
      exact .inr ⟨stored, kind, status, hstored, hkind, happlied⟩

theorem terminateDerived_effects
    (hasked : s.derivedSignals direct.scope callId eventId ⊆ cause.signals)
    (h : s.terminateDerived direct callId eventId = .ok s') : s.Effects cause s' := by
  obtain ⟨rfl, -⟩ | ⟨stored, kind, status, hstored, hkind, happlied⟩ := terminateDerived_spec h
  · exact .refl
  · refine applyCallSignalInState_effects (hasked ?_) happlied
    simp [derivedSignals, hstored, hkind]

theorem grantsDecay_revokeFirstPartyDerivedJoins :
    GrantsDecay s.conferenceJoinGrants
      (s.revokeFirstPartyDerivedJoins scope callId).conferenceJoinGrants := by
  intro key grant' hget
  simp only [revokeFirstPartyDerivedJoins, get_mapEntries, Option.map_eq_some_iff] at hget
  obtain ⟨grant, hgrant, rfl⟩ := hget
  refine ⟨grant, hgrant, fun hvalid => ?_⟩
  split at hvalid
  case isTrue => simp at hvalid
  case isFalse h =>
    rw [if_neg h]
    exact ⟨hvalid, rfl, rfl, rfl⟩

theorem requireDirectCall_spec (h : s.requireDirectCall actor signal callId = .ok direct) :
    s.validatedCallFromState signal.scope signal.callId = .ok (some direct) ∧
      signal.kind.isTerminate ∧ callId ≠ signal.callId := by
  simp only [requireDirectCall, ok_iff, exists_const, not_or, not_not] at h
  obtain ⟨⟨-, hne, hkind⟩, _, hvalid, _, rfl, -, rfl⟩ := h
  exact ⟨hvalid, hkind, hne⟩

-- A hang-up that fails changes nothing. One that succeeds has signalled the direct call before or
-- does so now; only in the second case it looks at the derived call. Both revoke grants.
theorem terminateDirectCallWithDerived_cases (hs : s.Keyed) (actor : ScopedPrincipal)
    (signal : CallSignal) (callId : CallId) (eventId : EventId) :
    (∃ e, s.terminateDirectCallWithDerived actor signal callId eventId = (.error e, s)) ∨
      ∃ direct status s₁ s₂, s.requireDirectCall actor signal callId = .ok direct ∧
        s.applyCallSignalInState actor signal = .ok (status, s₁) ∧
        (status = .duplicate ∧ s₂ = s₁ ∨
          status = .persisted ∧ s₁.terminateDerived direct callId eventId = .ok s₂) ∧
        s.terminateDirectCallWithDerived actor signal callId eventId =
          (.ok status, s₂.revokeFirstPartyDerivedJoins direct.scope callId) := by
  unfold terminateDirectCallWithDerived
  cases hdirect : s.requireDirectCall actor signal callId
  case error e => exact .inl ⟨e, rfl⟩
  case ok direct =>
    obtain ⟨hvalid, -, -⟩ := requireDirectCall_spec hdirect
    obtain ⟨hscope, hid⟩ := hs.validated hvalid
    obtain ⟨stored, hstored, -⟩ := validatedCallFromState_get hvalid
    simp only [hangUp]
    cases happlied : s.applyCallSignalInState actor signal
    case error e => exact .inl ⟨e, by simp [rollBack]⟩
    case ok result =>
      obtain ⟨status, s₁⟩ := result
      cases status
      case duplicate => exact .inr ⟨direct, _, s₁, s₁, rfl, rfl, .inl ⟨rfl, rfl⟩, rfl⟩
      case persisted =>
        cases hderived : s₁.terminateDerived direct callId eventId
        case ok s₂ => exact .inr ⟨direct, _, s₁, s₂, rfl, rfl, .inr ⟨rfl, hderived⟩, by simp [hderived]⟩
        case error e =>
          obtain ⟨-, -, -, ⟨hstatus, -⟩ | ⟨-, hunused, -, next, -, rfl⟩⟩ :=
            applyCallSignalInState_spec happlied
          · simp at hstatus
          · refine .inl ⟨e, ?_⟩
            simp only [hderived, hscope, hid, rollBack_recordSignal hstored hunused.signals]

-- The media call is another call, so the signal to the direct call does not change it.
theorem derivedSignals_recordSignal (hne : callId ≠ signal.callId) :
    (s.recordSignal principal signal next).derivedSignals signal.scope callId eventId =
      s.derivedSignals signal.scope callId eventId := by
  have hkey : (signal.scope, callId) ≠ (signal.scope, signal.callId) := fun heq =>
    hne (Prod.mk.inj heq).2
  simp [derivedSignals, recordSignal, get_put_ne hkey]

theorem terminateDirectCallWithDerived_effects (hs : s.Keyed) (hsignal : signal ∈ cause.signals)
    (hderived : s.derivedSignals signal.scope callId eventId ⊆ cause.signals) :
    s.Effects cause (s.terminateDirectCallWithDerived actor signal callId eventId).2 := by
  obtain ⟨e, heq⟩ | ⟨direct, status, s₁, s₂, hdirect, happlied, hsecond, heq⟩ :=
    terminateDirectCallWithDerived_cases hs actor signal callId eventId
  · rw [heq]
  · rw [heq]
    have heffects : s₁.Effects cause s₂ := by
      obtain ⟨-, rfl⟩ | ⟨rfl, hsecond⟩ := hsecond
      · exact .refl
      · obtain ⟨hvalid, -, hne⟩ := requireDirectCall_spec hdirect
        obtain ⟨hscope, -⟩ := hs.validated hvalid
        obtain ⟨-, -, -, ⟨hstatus, -⟩ | ⟨-, -, -, next, -, rfl⟩⟩ :=
          applyCallSignalInState_spec happlied
        · cases hstatus
        · refine terminateDerived_effects ?_ hsecond
          rwa [hscope, derivedSignals_recordSignal hne]
    exact ((applyCallSignalInState_effects hsignal happlied).trans heffects).tail
      (.grantsDecayed _ grantsDecay_revokeFirstPartyDerivedJoins)

end Calls

end MemoryState

end Ucr
