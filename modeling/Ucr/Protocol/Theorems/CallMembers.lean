import Ucr.Protocol.Theorems.CallLife

-- Who can be active in a call after a transition.

namespace Ucr

open Except CallSession List

variable {s s' : CallSession} {revision : U64} {activeMembers : List PrincipalRef}
  {v' : CallParticipant}

theorem mem_principals_applyCallSignal (hs : s.Canonical)
    (h : applyCallSignal s actorScope actor signal = .ok s') (hp : p ∈ s'.principals) :
    p ∈ s.principals ∨ p ∈ signal.kind.added := by
  obtain ⟨next, hadvances, rfl⟩ := applyCallSignal_spec (canonical_iff.mp hs) h
  have hmem : p ∈ next.principals := by
    simpa [principals, sorted] using hp
  rwa [hadvances.names, mem_append] at hmem

-- Nobody becomes active by a signal of somebody else, except for those it adds.
theorem active_before_applyCallSignal (hs : s.Canonical)
    (h : applyCallSignal s actorScope actor signal = .ok s') (hv' : v' ∈ s'.participants)
    (hactive : v'.isActive) :
    (∃ v ∈ s.participants, v.isActive ∧ v.principal = v'.principal) ∨
      v'.principal ∈ signal.kind.added := by
  have hpreserves := CallStep.preserves hs (.signal actorScope actor signal h)
  refine (mem_principals_applyCallSignal hs h (mem_map_of_mem hv')).imp_left fun hmem => ?_
  obtain ⟨v, hv, hprincipal⟩ := mem_map.mp hmem
  refine ⟨v, hv, ?_, hprincipal⟩
  obtain ⟨v'', hv'', hprincipal', -, hdead⟩ := hpreserves.continues.kept v hv
  have hvalid' := hpreserves.canonical.valid v' hv'
  obtain rfl := inj_on_of_nodup_map hpreserves.canonical.nodup hv'' hv'
    (hprincipal'.trans hprincipal)
  rw [(hs.valid v hv).isActive_eq]
  rw [hvalid'.isActive_eq] at hactive
  by_contra hnotLive
  rw [hdead hnotLive] at hactive
  exact hnotLive hactive

-- A participant that is active but not a member leaves.
def CallParticipant.projected (activeMembers : List PrincipalRef) (revision : U64)
    (v : CallParticipant) : CallParticipant :=
  if v.isActive ∧ v.principal ∉ activeMembers then
    { v with state := .left, leftRevision := some revision }
  else v

theorem CallParticipant.projected_member (h : (v'.projected activeMembers revision).isActive) :
    (v'.projected activeMembers revision).principal ∈ activeMembers := by
  unfold projected at h ⊢
  split_ifs at h ⊢ with hout
  · simp [isActive] at h
  · exact by_contra fun hnot => hout ⟨h, hnot⟩

theorem participants_revokeRemotes (hinitiator : s.initiatedBy ∈ activeMembers) :
    (s.revokeRemotes activeMembers revision).participants =
      s.participants.map (·.projected activeMembers revision) := by
  unfold revokeRemotes
  obtain ⟨_, _, _, hsettle⟩ := settleIfNoViableRemote_eq (closeReconnectIf _ _) .completed
  rw [hsettle]
  obtain ⟨_, _, hclose⟩ := closeReconnectIf_eq _ _
  rw [hclose]
  simp only [CallParticipant.projected, isRevoked_iff hinitiator]

-- A call that survives a reconciliation has only members of the group in it.
theorem active_reconcileGroupCallMembership
    (h : reconcileGroupCallMembership s activeMembers = .ok s')
    (ht : s'.signallingState ≠ .terminated) : s'.OnlyMembers activeMembers := by
  obtain ⟨c, hc⟩ := exists_canonical_of_reconcile h
  obtain ⟨rfl, hsame⟩ | ⟨_, _, -, -, rfl⟩ := reconcileGroupCallMembership_spec hc h
  · exact hsame.resolve_left ht
  · intro v' hv' hactive
    simp only [sorted, projection, mem_sortOn] at hv' ht
    split at hv'
    case isTrue hrevoked => simp [hrevoked, terminate] at ht
    case isFalse hkept =>
      rw [participants_revokeRemotes (not_not.mp hkept)] at hv'
      obtain ⟨v, -, rfl⟩ := mem_map.mp hv'
      exact CallParticipant.projected_member hactive

-- A call that goes on without those who are not members of its group any more.
structure CallSession.Projects (s : CallSession) (activeMembers : List PrincipalRef)
    (s' : CallSession) : Prop where
  revision : s'.revision.val = s.revision.val + 1
  participants : s'.participants = s.participants.map (·.projected activeMembers s'.revision)
  owner : ∀ owner, s'.reconnectingParticipant = some owner → owner ∈ activeMembers

theorem projects_of_reconcile (hs : s.Canonical)
    (h : reconcileGroupCallMembership s activeMembers = .ok s') :
    s' = s ∨ s'.signallingState = .terminated ∨ s.Projects activeMembers s' := by
  refine or_iff_not_imp_left.mpr fun hne => or_iff_not_imp_left.mpr fun ht => ?_
  have hmembers := active_reconcileGroupCallMembership h ht
  have hcanonical := (CallStep.preserves hs (.membership _ h)).canonical
  obtain ⟨rfl, -⟩ | ⟨_, _, hr, -, rfl⟩ := reconcileGroupCallMembership_spec (canonical_iff.mp hs) h
  · exact absurd rfl hne
  have hkept : s.initiatedBy ∈ activeMembers := by
    by_contra hout
    simp [projection, hout, sorted, terminate] at ht
  refine ⟨U64.checkedSucc_eq_some.mp hr, ?_, fun owner howner => ?_⟩
  · have hsorted : s.participants.SortedOn (·.sortKey) := by
      rw [← hs.sorted_eq]
      exact sortedOn_sortOn
    simp only [sorted, projection, hkept, not_true, if_false, participants_revokeRemotes hkept]
    refine sortOn_of_sortedOn (hsorted.map fun v => ?_)
    unfold CallParticipant.projected
    split <;> rfl
  · exact hmembers.accepted hcanonical.toWellFormed
      ((reconnectOk_iff.mp hcanonical.reconnect).2 owner howner)

theorem reconcileGroupCallMembership_eq_self (hs : s.Canonical)
    (hkind : isGroupConversationKind s.conversation.kind) :
    reconcileGroupCallMembership s activeMembers = .ok s ↔
      s.signallingState = .terminated ∨ s.OnlyMembers activeMembers := by
  constructor
  · intro h
    obtain ⟨-, hsame⟩ | ⟨_, _, hr, -, h⟩ := reconcileGroupCallMembership_spec (canonical_iff.mp hs) h
    · exact hsame
    · exact absurd (congrArg CallSession.revision h).symm (U64.lt_of_checkedSucc hr).ne
  · intro h
    rw [reconcileGroupCallMembership_eq (canonical_iff.mp hs)]
    simp [hkind, h]

theorem membership_projection_is_exact (hs : s.Canonical)
    (hkind : isGroupConversationKind s.conversation.kind) (activeMembers : List PrincipalRef) :
    (reconcileGroupCallMembership s activeMembers = .ok s ↔
      s.signallingState = .terminated ∨ s.OnlyMembers activeMembers) ∧
    (∀ s', reconcileGroupCallMembership s activeMembers = .ok s' →
      (s' = s ∨ s'.signallingState = .terminated ∨ s.Projects activeMembers s') ∧
        reconcileGroupCallMembership s' activeMembers = .ok s') ∧
    ((∃ s', reconcileGroupCallMembership s activeMembers = .ok s') ∨
      s.revision = Fin.last _ ∨ s.replicationGeneration = Fin.last _) := by
  refine ⟨reconcileGroupCallMembership_eq_self hs hkind, fun s' h => ⟨?_, ?_⟩, ?_⟩
  · exact projects_of_reconcile hs h
  · have hpreserves := CallStep.preserves hs (.membership activeMembers h)
    refine (reconcileGroupCallMembership_eq_self hpreserves.canonical
      (hpreserves.continues.conversation ▸ hkind)).mpr ?_
    exact or_iff_not_imp_left.mpr (active_reconcileGroupCallMembership h)
  · by_contra hends
    simp only [not_or] at hends
    obtain ⟨hfails, hr, hg⟩ := hends
    obtain ⟨_, hr⟩ := U64.exists_checkedSucc.mpr (Fin.lt_last_iff_ne_last.mpr hr)
    obtain ⟨_, hg⟩ := U64.exists_checkedSucc.mpr (Fin.lt_last_iff_ne_last.mpr hg)
    rw [reconcileGroupCallMembership_eq (canonical_iff.mp hs), hr, hg] at hfails
    simp only [hkind, not_true, rejectIf, if_false] at hfails
    split at hfails
    all_goals exact hfails ⟨_, rfl⟩

open Scenario

theorem bob_is_projected_out :
    groupCall.Projects [alice, carol] groupCallWithoutBob ∧
      reconcileGroupCallMembership groupCallWithoutBob [alice, carol] = .ok groupCallWithoutBob := by
  have hstep : reconcileGroupCallMembership groupCall [alice, carol] = .ok groupCallWithoutBob := by
    decide +kernel
  have hs : groupCall.Canonical := canonical_iff.mpr (by decide +kernel)
  obtain ⟨hcases, hagain⟩ := (membership_projection_is_exact hs rfl [alice, carol]).2.1 _ hstep
  exact ⟨(hcases.resolve_left (by decide)).resolve_left (by decide), hagain⟩

end Ucr
