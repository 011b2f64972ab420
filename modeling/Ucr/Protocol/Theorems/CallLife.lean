import Ucr.Protocol.Theorems.CallTransitions

-- The life of a call: sessions stay canonical under every transition, transitions never fail in
-- their last step, and what the creation fingerprint covers never changes.

namespace Ucr

open Except CallSession List

variable {s s' c next : CallSession} {actorScope : TenantScope} {actor : PrincipalRef}
  {signal : CallSignal} {kind : CallSignalKind} {revision : U64}
  {activeMembers added : List PrincipalRef}
  {e : CallSignallingError}

-- The errors that would mean a stored session is malformed.
def malformedSessionErrors : List CallSignallingError :=
  [.invalidSession, .invalidParticipant, .duplicateParticipant]

theorem applyCallSignalKind_error :
    FailsOnlyWith (· ∉ malformedSessionErrors) (applyCallSignalKind s actor revision kind) := by
  cases kind <;> simp only [applyCallSignalKind]
  case ringing =>
    simp only [applyRinging, failsOnlyWith_bind]
    refine ⟨by simp [malformedSessionErrors], fun _ _ => ⟨by simp [malformedSessionErrors], ?_⟩⟩
    intro _ _
    split <;> simp
  case accept =>
    simp only [applyAccept, failsOnlyWith_bind]
    refine ⟨by simp [malformedSessionErrors], fun _ _ => ⟨by simp [malformedSessionErrors], ?_⟩⟩
    intro _ _
    split <;> simp
  case reject | busy => simp [applyDecline, rejectOrBusy, malformedSessionErrors]
  case cancel | timeout =>
    simp [applyPreAcceptTermination, requireInitiatorWithoutRemoteAccept, malformedSessionErrors]
  case reconnect =>
    simp only [applyReconnect, failsOnlyWith_bind]
    refine ⟨by simp [malformedSessionErrors], fun _ _ => ⟨by simp [malformedSessionErrors], ?_⟩⟩
    intro _ _
    split <;> simp [malformedSessionErrors]
  case participantUpdate kind =>
    cases kind
    case add    => simp [applyParticipantUpdate, addParticipant, malformedSessionErrors]
    case remove => simp [applyParticipantUpdate, removeParticipant, malformedSessionErrors]
  case mediaRenegotiation => simp [applyMediaRenegotiation, malformedSessionErrors]
  case terminate => simp [applyExplicitTermination, malformedSessionErrors]

-- What an accepted transition leads to, before it is canonicalized.
structure CallSession.Advances (c next : CallSession) (added : List PrincipalRef) : Prop where
  wellFormed : next.WellFormed
  continues : c.Continues next
  live : c.signallingState ≠ .terminated
  revision : next.revision.val = c.revision.val + 1
  generation : next.replicationGeneration.val = c.replicationGeneration.val + 1
  names : next.principals = c.principals ++ added

theorem CallSession.Follows.advances (h : c.Follows body revision added)
    (ht : c.signallingState ≠ .terminated) (hr : c.revision.checkedSucc = some revision)
    (hg : c.replicationGeneration.checkedSucc = some generation) :
    c.Advances { body with revision := revision, replicationGeneration := generation } added where
  wellFormed := h.wellFormed generation
  continues := { h.continues with }
  live := ht
  revision := U64.checkedSucc_eq_some.mp hr
  generation := U64.checkedSucc_eq_some.mp hg
  names := h.names

-- Nobody is active in the call who is not a member of the group.
def CallSession.OnlyMembers (s : CallSession) (activeMembers : List PrincipalRef) : Prop :=
  ∀ v ∈ s.participants, v.isActive → v.principal ∈ activeMembers

instance : Decidable (s.OnlyMembers activeMembers) :=
  inferInstanceAs (Decidable (∀ v ∈ s.participants, v.isActive → v.principal ∈ activeMembers))

theorem CallSession.OnlyMembers.accepted (ho : s.OnlyMembers activeMembers) (h : s.WellFormed)
    (ha : s.HasAccepted actor) : actor ∈ activeMembers := by
  obtain ⟨v, hv, hs, hleft⟩ := h.accepted_valid ha
  obtain ⟨hmem, rfl⟩ := (participant_eq_some h.nodup).mp hv
  exact ho v hmem (by simp [CallParticipant.isActive, hs, hleft, CallParticipantState.isLive])

theorem isRevoked_iff (hinitiator : s.initiatedBy ∈ activeMembers) :
    s.isRevoked activeMembers v ↔ v.isActive ∧ v.principal ∉ activeMembers := by
  have hremote : v.principal ∉ activeMembers → v.principal ≠ s.initiatedBy :=
    fun hout heq => hout (heq ▸ hinitiator)
  simp only [isRevoked, Bool.and_eq_true, decide_eq_true_eq]
  tauto

theorem onlyMembers_iff (h : s.WellFormed) :
    s.OnlyMembers activeMembers ↔
      ¬s.initiatedBy ∉ activeMembers ∧ ¬s.participants.any (s.isRevoked activeMembers) := by
  by_cases hmember : s.initiatedBy ∈ activeMembers
  case pos => simp [OnlyMembers, hmember, isRevoked_iff hmember]
  case neg => exact iff_of_false (fun ho => hmember (ho.accepted h h.initiator)) fun h => h.1 hmember

-- The next session if a running call has somebody in it who is not a member of its group.
def CallSession.projection (c : CallSession) (activeMembers : List PrincipalRef)
    (revision generation : U64) : CallSession :=
  { (if c.initiatedBy ∉ activeMembers then c.terminate .completed
      else c.revokeRemotes activeMembers revision) with
    revision := revision, replicationGeneration := generation }

variable (hc : canonicalCallSession s = .ok c)
include hc

theorem advances_projection
    (hchanges : ¬(c.signallingState = .terminated ∨ c.OnlyMembers activeMembers))
    (hr : c.revision.checkedSucc = some revision)
    (hg : c.replicationGeneration.checkedSucc = some generation) :
    c.Advances (c.projection activeMembers revision generation) [] := by
  have h := (canonical_of_canonicalCallSession hc).toWellFormed
  have hle := (U64.lt_of_checkedSucc hr).le
  have ht := (not_or.mp hchanges).1
  refine Follows.advances ?_ ht hr hg
  split
  case isTrue  => exact follows_terminate h hle _
  case isFalse => exact revokeRemotes_spec h hle ht

theorem groupMembershipTransition_eq :
    groupMembershipTransition s activeMembers = (do
      rejectIf (¬isGroupConversationKind c.conversation.kind) .invalidConversationKind
      if c.signallingState = .terminated ∨ c.OnlyMembers activeMembers then
        return (c, none)
      let revision ← c.revision.checkedSucc.okOr .overflow
      let generation ← c.replicationGeneration.checkedSucc.okOr .overflow
      return (c, some (c.projection activeMembers revision generation))) := by
  simp only [onlyMembers_iff (canonical_of_canonicalCallSession hc).toWellFormed, ite_or,
    groupMembershipTransition, hc]
  rfl

theorem callSignalTransition_spec
    (h : callSignalTransition s actorScope actor signal = .ok next) :
    c.Advances next signal.kind.added := by
  simp only [callSignalTransition, hc, ok_iff, exists_const, ok.injEq, exists_eq_left'] at h
  obtain ⟨-, -, -, ht, -, revision, hr, generation, hg, body, hbody, rfl⟩ := h
  have hcan := canonical_of_canonicalCallSession hc
  have hle := (U64.lt_of_checkedSucc hr).le
  have hfol := applyCallSignalKind_spec hcan.toWellFormed hle (U64.checkedSucc_ne_zero hr) ht hbody
  exact hfol.advances ht hr hg

theorem groupMembershipTransition_spec
    (h : groupMembershipTransition s activeMembers = .ok (unchanged, some next)) :
    c.Advances next [] := by
  simp only [groupMembershipTransition_eq hc, ok_iff] at h
  obtain ⟨-, -, h⟩ := h
  split at h
  case isTrue => simp at h
  case isFalse hchanges =>
    simp only [ok_iff] at h
    obtain ⟨revision, hr, generation, hg, -, rfl⟩ := h
    exact advances_projection hc hchanges hr hg

theorem callSignalTransition_error :
    FailsOnlyWith (· ∉ malformedSessionErrors)
      (callSignalTransition s actorScope actor signal) := by
  simp [callSignalTransition, hc, applyCallSignalKind_error]
  simp [malformedSessionErrors]

theorem applyCallSignal_spec
    (h : applyCallSignal s actorScope actor signal = .ok s') :
    ∃ next, c.Advances next signal.kind.added ∧ next.sorted = s' := by
  simp only [applyCallSignal, ok_iff] at h
  obtain ⟨next, hnext, h⟩ := h
  exact ⟨next, callSignalTransition_spec hc hnext, (canonicalCallSession_eq_ok.mp h).2⟩

theorem reconcileGroupCallMembership_eq :
    reconcileGroupCallMembership s activeMembers = (do
      rejectIf (¬isGroupConversationKind c.conversation.kind) .invalidConversationKind
      if c.signallingState = .terminated ∨ c.OnlyMembers activeMembers then
        return c
      let revision ← c.revision.checkedSucc.okOr .overflow
      let generation ← c.replicationGeneration.checkedSucc.okOr .overflow
      return (c.projection activeMembers revision generation).sorted) := by
  simp only [reconcileGroupCallMembership, groupMembershipTransition_eq hc, bind_assoc]
  refine bind_congr fun _ => ?_
  split
  case isTrue => rfl
  case isFalse hchanges =>
    cases hr : c.revision.checkedSucc <;> cases hg : c.replicationGeneration.checkedSucc
    case some.some =>
      exact (advances_projection hc hchanges hr hg).wellFormed.canonicalCallSession
    all_goals rfl

theorem reconcileGroupCallMembership_spec
    (h : reconcileGroupCallMembership s activeMembers = .ok s') :
    s' = c ∧ (c.signallingState = .terminated ∨ c.OnlyMembers activeMembers) ∨
      ∃ revision generation, c.revision.checkedSucc = some revision ∧
        c.Advances (c.projection activeMembers revision generation) [] ∧
        (c.projection activeMembers revision generation).sorted = s' := by
  simp only [reconcileGroupCallMembership_eq hc, ok_iff] at h
  obtain ⟨-, -, h⟩ := h
  split at h
  case isTrue hsame => exact .inl ⟨(pure_eq_ok.mp h).symm, hsame⟩
  case isFalse hchanges =>
    simp only [ok_iff] at h
    obtain ⟨revision, hr, generation, hg, rfl⟩ := h
    exact .inr ⟨revision, generation, hr, advances_projection hc hchanges hr hg, rfl⟩

theorem applyCallSignal_error :
    FailsOnlyWith (· ∉ malformedSessionErrors) (applyCallSignal s actorScope actor signal) := by
  simp only [applyCallSignal, failsOnlyWith_bind]
  refine ⟨callSignalTransition_error hc, fun next hnext => ?_⟩
  rw [(callSignalTransition_spec hc hnext).wellFormed.canonicalCallSession]
  exact failsOnlyWith_ok

theorem reconcileGroupCallMembership_error :
    FailsOnlyWith (· ∉ malformedSessionErrors)
      (reconcileGroupCallMembership s activeMembers) := by
  rw [reconcileGroupCallMembership_eq hc]
  refine failsOnlyWith_bind.mpr ⟨by simp [malformedSessionErrors], fun _ _ => ?_⟩
  split
  case isTrue  => simp
  case isFalse => simp [malformedSessionErrors]

omit hc

-- What both transition functions guarantee about a result: it is a fixed point of canonicalization
-- and one revision and one generation ahead of a session it differs from.
def CallSession.NextCanonical (c result : CallSession) : Prop :=
  canonicalCallSession result = .ok result ∧
    (result ≠ c → result.revision.val = c.revision.val + 1 ∧
      result.replicationGeneration.val = c.replicationGeneration.val + 1)

theorem CallSession.Advances.nextCanonical (h : c.Advances next added) : c.NextCanonical next.sorted :=
  ⟨canonical_iff.mp h.wellFormed.canonical_sorted, fun _ => ⟨h.revision, h.generation⟩⟩

theorem exists_canonical_of_reconcile (h : reconcileGroupCallMembership s activeMembers = .ok s') :
    ∃ c, canonicalCallSession s = .ok c := by
  simp only [reconcileGroupCallMembership, groupMembershipTransition, ok_iff] at h
  obtain ⟨-, ⟨c, hc, -⟩, -⟩ := h
  exact ⟨c, hc⟩

-- A reconciliation continues the session, canonical or not.
theorem reconcileGroupCallMembership_continues
    (h : reconcileGroupCallMembership s activeMembers = .ok s') : s.Continues s' := by
  obtain ⟨c, hc⟩ := exists_canonical_of_reconcile h
  have hcontinues : s.Continues c :=
    (canonicalCallSession_eq_ok.mp hc).2 ▸ (Continues.refl s).sorted_right
  obtain ⟨rfl, -⟩ | ⟨_, _, -, hadv, rfl⟩ := reconcileGroupCallMembership_spec hc h
  · exact hcontinues
  · exact hcontinues.trans hadv.continues.sorted_right

-- Neither transition can fail once its body has succeeded, neither ever reports a malformed
-- session, and both lead from canonical sessions to canonical sessions.
theorem call_transitions_stay_canonical (hc : canonicalCallSession s = .ok c) :
    (∀ actorScope actor signal,
      (∀ next, callSignalTransition s actorScope actor signal = .ok next →
        ∃ result, canonicalCallSession next = .ok result) ∧
      (∀ e, applyCallSignal s actorScope actor signal = .error e → e ∉ malformedSessionErrors) ∧
      (∀ result, applyCallSignal s actorScope actor signal = .ok result →
        c.NextCanonical result)) ∧
    (∀ activeMembers,
      (∀ unchanged next,
        groupMembershipTransition s activeMembers = .ok (unchanged, some next) →
        ∃ result, canonicalCallSession next = .ok result) ∧
      (∀ e, reconcileGroupCallMembership s activeMembers = .error e →
        e ∉ malformedSessionErrors) ∧
      (∀ result, reconcileGroupCallMembership s activeMembers = .ok result →
        c.NextCanonical result)) := by
  refine ⟨fun actorScope actor signal => ⟨?_, ?_, ?_⟩, fun activeMembers => ⟨?_, ?_, ?_⟩⟩
  · intro next hnext
    exact ⟨_, (callSignalTransition_spec hc hnext).wellFormed.canonicalCallSession⟩
  · exact fun e => applyCallSignal_error hc e
  · intro result h
    obtain ⟨next, hadv, rfl⟩ := applyCallSignal_spec hc h
    exact hadv.nextCanonical
  · intro unchanged next hnext
    exact ⟨_, (groupMembershipTransition_spec hc hnext).wellFormed.canonicalCallSession⟩
  · exact fun e => reconcileGroupCallMembership_error hc e
  · intro result h
    obtain ⟨rfl, -⟩ | ⟨_, _, -, hadv, rfl⟩ := reconcileGroupCallMembership_spec hc h
    · exact ⟨canonical_iff.mp (canonical_of_canonicalCallSession hc), absurd rfl⟩
    · exact hadv.nextCanonical

namespace Scenario

-- A running group call of Alice with Bob, while Carol is still invited.
def groupCall : CallSession :=
  { bobTakesCall (named "call") ⟨named "group-chat", .privateGroup⟩ with
    participants := [⟨alice, .accepted, 0, none⟩, ⟨bob, .accepted, 0, none⟩,
                                 ⟨carol, .invited, 2, none⟩]
    replicationGeneration := 2
    revision := 2 }

def removeBob : CallSignal where
  eventId := named "remove-bob"
  scope := tenant
  callId := groupCall.callId
  expectedRevision := 2
  kind := .participantUpdate bob .remove

-- Without Bob nobody else has accepted, so the call is back to inviting Carol.
def groupCallWithoutBob : CallSession :=
  { groupCall with
    participants := [⟨alice, .accepted, 0, none⟩, ⟨bob, .left, 0, some 3⟩,
                              ⟨carol, .invited, 2, none⟩]
    signallingState := .inviting
    replicationGeneration := 3
    revision := 3 }

end Scenario

open Scenario

theorem remove_bob_stays_canonical :
    applyCallSignal groupCall tenant alice removeBob = .ok groupCallWithoutBob ∧
      groupCall.NextCanonical groupCallWithoutBob :=
  have hstep : applyCallSignal groupCall tenant alice removeBob = .ok groupCallWithoutBob := by
    decide +kernel
  have hc : canonicalCallSession groupCall = .ok groupCall := by decide +kernel
  ⟨hstep, ((call_transitions_stay_canonical hc).1 _ _ _).2.2 _ hstep⟩

-- One successful transition of a session, and a run of such transitions.
inductive CallStep (s s' : CallSession) : Prop
  | signal (actorScope : TenantScope) (actor : PrincipalRef) (signal : CallSignal)
      (h : applyCallSignal s actorScope actor signal = .ok s')
  | membership (activeMembers : List PrincipalRef)
      (h : reconcileGroupCallMembership s activeMembers = .ok s')

abbrev CallRun := Relation.ReflTransGen CallStep

-- What one step, and then every run, preserves of a canonical session.
structure CallSession.Preserves (s s' : CallSession) : Prop where
  canonical  : s'.Canonical
  continues  : s.Continues s'
  terminated : s.signallingState = .terminated → s' = s

theorem CallSession.Advances.preserves (h : s.Advances next added) : s.Preserves next.sorted :=
  ⟨h.wellFormed.canonical_sorted, h.continues.sorted_right, fun ht => absurd ht h.live⟩

theorem CallStep.preserves (hs : s.Canonical) : CallStep s s' → s.Preserves s'
  | .signal _ _ _ h => by
    obtain ⟨next, hadv, rfl⟩ := applyCallSignal_spec (canonical_iff.mp hs) h
    exact hadv.preserves
  | .membership _ h => by
    obtain ⟨rfl, -⟩ | ⟨_, _, -, hadv, rfl⟩ :=
      reconcileGroupCallMembership_spec (canonical_iff.mp hs) h
    · exact ⟨hs, .refl _, fun _ => rfl⟩
    · exact hadv.preserves

theorem CallRun.preserves (hs : s.Canonical) (hr : CallRun s s') : s.Preserves s' := by
  induction hr
  case refl => exact ⟨hs, .refl s, fun _ => rfl⟩
  case tail mid last _ step ih =>
    have hstep := step.preserves ih.canonical
    refine ⟨hstep.canonical, ih.continues.trans hstep.continues, fun ht => ?_⟩
    obtain rfl := ih.terminated ht
    exact hstep.terminated ht

section Fingerprint

def CallSession.originPrincipals (s : CallSession) : List PrincipalRef :=
  (s.participants.filter (·.joinedRevision = 0)).map (·.principal)

theorem CallSession.mem_originPrincipals :
    p ∈ s.originPrincipals ↔ ∃ v ∈ s.participants, v.joinedRevision = 0 ∧ v.principal = p := by
  simp [originPrincipals, and_assoc]

theorem CallSession.Canonical.nodup_originPrincipals (h : s.Canonical) :
    s.originPrincipals.Nodup :=
  h.nodup.sublist (filter_sublist.map _)

theorem CallSession.Canonical.sortedOn_originPrincipals (h : s.Canonical) :
    s.originPrincipals.SortedOn PrincipalRef.sortKey := by
  have hs : s.participants.SortedOn CallParticipant.sortKey := by
    rw [← h.sorted_eq]
    exact sortedOn_sortOn
  exact pairwise_map.mpr hs.filter

theorem CallSession.Continues.originPrincipals_eq (h : s.Continues s') (hs : s.Canonical)
    (hs' : s'.Canonical) : s'.originPrincipals = s.originPrincipals := by
  have hmem : ∀ p, p ∈ s'.originPrincipals ↔ p ∈ s.originPrincipals := by
    intro p
    simp only [mem_originPrincipals]
    constructor
    · rintro ⟨v', hv', hj', rfl⟩
      obtain ⟨v, hv, hp, hj⟩ | hne := h.origin v' hv'
      · exact ⟨v, hv, hj ▸ hj', hp.symm⟩
      · exact absurd hj' hne
    · rintro ⟨v, hv, hj, rfl⟩
      obtain ⟨v', hv', hp, hj', -⟩ := h.kept v hv
      exact ⟨v', hv', hj'.trans hj, hp⟩
  refine eq_of_sortedOn_of_perm hs'.sortedOn_originPrincipals hs.sortedOn_originPrincipals ?_ ?_
  · exact hs'.nodup_originPrincipals.map fun _ _ => PrincipalRef.sortKey_inj.mp
  · exact (perm_ext_iff_of_nodup hs'.nodup_originPrincipals hs.nodup_originPrincipals).mpr hmem

theorem callCreationFingerprint_eq (h : s.Canonical) :
    callCreationFingerprint s = (do
      rejectIf (s.originPrincipals.length < 2 ∨ s.initiatedBy ∉ s.originPrincipals) .invalidSession
      rejectIf (s.originPrincipals.length ≥ 2 ^ 32) .overflow
      return sha256 (callCreationFingerprintV1Domain ++
        Call.creationBytes s s.originPrincipals)) := by
  simp only [callCreationFingerprint, canonical_iff.mp h, originPrincipals,
    length_map, mem_map, any_eq_true, decide_eq_true_eq]
  rfl

theorem CallSession.Continues.fingerprint_eq (h : s.Continues s') (hs : s.Canonical)
    (hs' : s'.Canonical) : callCreationFingerprint s' = callCreationFingerprint s := by
  simp only [callCreationFingerprint_eq hs, callCreationFingerprint_eq hs', Call.creationBytes,
    h.originPrincipals_eq hs hs', h.scope, h.callId, h.conversation, h.initiatedBy]

theorem canonicalCallCreation_spec
    (h : canonicalCallCreation s actorScope actor = .ok c) :
    c.Canonical ∧ s.WellFormed ∧ c = s.sorted ∧ actorScope = s.scope ∧ actor = s.initiatedBy ∧
      s.signallingState = .inviting ∧ ∀ v ∈ c.participants, v.joinedRevision = 0 ∧
        v.state = if v.principal = c.initiatedBy then .accepted else .invited := by
  simp only [canonicalCallCreation, ok_iff, forM_eq_ok, exists_const, not_or, not_not, ne_eq] at h
  obtain ⟨hscope, hactor, hinit, _, hcan, hall, rfl⟩ := h
  obtain ⟨hwf, rfl⟩ := canonicalCallSession_eq_ok.mp hcan
  exact ⟨hwf.canonical_sorted, hwf, rfl, hscope, hactor, hinit.2.2.2.2.2.2,
    fun v hv => ⟨(hall v hv).2.1, (hall v hv).1⟩⟩

theorem callCreationFingerprint_of_creation
    (h : canonicalCallCreation s actorScope actor = .ok c) :
    ∃ digest, callCreationFingerprint c = .ok digest := by
  obtain ⟨hcan, -, -, -, -, -, horigin⟩ := canonicalCallCreation_spec h
  have hfilter : c.participants.filter (·.joinedRevision = 0) = c.participants :=
    filter_eq_self.mpr fun v hv => by simpa using (horigin v hv).1
  have hlen : c.originPrincipals.length = c.participants.length := by
    simp [originPrincipals, hfilter]
  have hinit : c.initiatedBy ∈ c.originPrincipals := by
    obtain ⟨v, hv, hp, -⟩ := hcan.initiator
    exact mem_originPrincipals.mpr ⟨v, hv, (horigin v hv).1, hp⟩
  have htwo := hcan.two_le
  have hmax := hcan.le_max
  simp only [maxCallParticipants] at hmax
  simp only [callCreationFingerprint_eq hcan, ok_iff, exists_const, not_or, not_not]
  exact ⟨_, ⟨by omega, hinit⟩, by omega, rfl⟩

end Fingerprint

end Ucr
