import Ucr.Protocol.Call

-- What it means for a call session to be canonical. `canonicalCallSession` only reorders the
-- participants, so acceptance is a property of the unordered session.

namespace Ucr

open Except CallSession List

variable {s : CallSession} {p : CallParticipant} {revision : U64}

namespace CallParticipant

def Valid (p : CallParticipant) (revision : U64) : Prop :=
  p.joinedRevision ≤ revision ∧
    match p.leftRevision with
    | some left => p.state = .left ∧ p.joinedRevision ≤ left ∧ left ≤ revision
    | none      => p.state ≠ .left

theorem Valid.mono (h : p.Valid revision) (hle : revision ≤ revision') : p.Valid revision' := by
  obtain ⟨hj, hl⟩ := h
  refine ⟨hj.trans hle, ?_⟩
  split at hl
  case h_1 => exact ⟨hl.1, hl.2.1, hl.2.2.trans hle⟩
  case h_2 => exact hl

theorem Valid.leftRevision_eq_none (h : p.Valid revision) (hs : p.state ≠ .left) :
    p.leftRevision = none := by
  obtain ⟨-, hl⟩ := h
  split at hl
  case h_1 => exact absurd hl.1 hs
  case h_2 heq => exact heq

theorem Valid.isActive_eq (h : p.Valid revision) : p.isActive = p.state.isLive := by
  cases hs : p.state <;>
    simp [isActive, hs, CallParticipantState.isLive, h.leftRevision_eq_none]

-- A participant that is still in the call may move to any state that does not leave it.
theorem Valid.withState {state} (h : p.Valid revision) (hp : p.state ≠ .left) (hs : state ≠ .left) :
    Valid { p with state := state } revision := by
  refine ⟨h.1, ?_⟩
  rw [h.leftRevision_eq_none hp]
  exact hs

theorem Valid.leave (h : p.joinedRevision ≤ revision) :
    Valid { p with state := .left, leftRevision := some revision } revision :=
  ⟨h, rfl, h, le_rfl⟩

end CallParticipant

theorem validateParticipant_eq_ok : validateParticipant p revision = .ok u ↔ p.Valid revision := by
  obtain ⟨principal, state, joined, left⟩ := p
  cases state <;> cases left <;>
    simp [validateParticipant, CallParticipant.Valid]

namespace CallSession

@[simp]
theorem anyRemote_iff {q : CallParticipantState → Bool} :
    s.anyRemote q = true ↔
      ∃ v ∈ s.participants, v.principal ≠ s.initiatedBy ∧ q v.state = true := by
  simp [anyRemote]

def HasAccepted (s : CallSession) (principal : PrincipalRef) : Prop :=
  ∃ v ∈ s.participants, v.principal = principal ∧ v.state = .accepted

-- The participants of a session at a revision, whatever the signalling state.
structure Roster (s : CallSession) (revision : U64) : Prop where
  kind      : isCallConversationKind s.conversation.kind
  two_le    : 2 ≤ s.participants.length
  le_max    : s.participants.length ≤ maxCallParticipants
  nodup     : (s.participants.map (·.principal)).Nodup
  valid     : ∀ v ∈ s.participants, v.Valid revision
  initiator : s.HasAccepted s.initiatedBy

def MediaOk (s : CallSession) : Prop :=
  s.mediaNegotiationGeneration = 0 ↔ s.mediaNegotiationRef.isNone

def ReconnectOk (s : CallSession) : Prop :=
  match s.signallingState with
  | .reconnecting => ∃ owner, s.reconnectingParticipant = some owner ∧ s.HasAccepted owner
  | _ => s.reconnectingParticipant = none

def LifecycleOk (s : CallSession) : Prop :=
  match s.signallingState with
  | .inviting =>
    (¬s.anyRemote (· = .accepted) ∧ ¬s.anyRemote (· = .ringing)) ∧ s.anyRemote (·.isPending) ∧
      s.terminationReason = none
  | .ringing =>
    (¬s.anyRemote (· = .accepted) ∧ s.anyRemote (· = .ringing)) ∧ s.terminationReason = none
  | .active | .reconnecting => s.anyRemote (· = .accepted) ∧ s.terminationReason = none
  | .terminated => s.terminationReason ≠ none

structure WellFormed (s : CallSession) : Prop extends s.Roster s.revision where
  media     : s.MediaOk
  reconnect : s.ReconnectOk
  lifecycle : s.LifecycleOk

theorem reconnectOk_iff :
    s.ReconnectOk ↔ (s.signallingState = .reconnecting ↔ s.reconnectingParticipant.isSome) ∧
      ∀ owner, s.reconnectingParticipant = some owner → s.HasAccepted owner := by
  unfold ReconnectOk
  cases s.signallingState <;> cases s.reconnectingParticipant <;> simp

theorem participant_eq_some (hn : (s.participants.map (·.principal)).Nodup) :
    s.participant principal = some p ↔ p ∈ s.participants ∧ p.principal = principal :=
  findKey_eq_some hn

theorem Roster.accepted_valid (h : s.Roster revision) (ha : s.HasAccepted principal) :
    ∃ v, s.participant principal = some v ∧ v.state = .accepted ∧ v.leftRevision = none := by
  obtain ⟨v, hv, hp, hs⟩ := ha
  refine ⟨v, (participant_eq_some h.nodup).mpr ⟨hv, hp⟩, hs, ?_⟩
  exact (h.valid v hv).leftRevision_eq_none (by simp [hs])

@[simp]
theorem anyRemote_sorted {q : CallParticipantState → Bool} :
    s.sorted.anyRemote q = s.anyRemote q := by
  rw [Bool.eq_iff_iff]
  simp [sorted]

@[simp]
theorem hasAccepted_sorted :
    s.sorted.HasAccepted principal ↔ s.HasAccepted principal := by
  simp [HasAccepted, sorted]

@[simp]
theorem roster_sorted : s.sorted.Roster revision ↔ s.Roster revision := by
  refine ⟨fun h => ?_, fun h => ?_⟩
  · exact
      { kind := h.kind
        two_le := by simpa [sorted] using h.two_le
        le_max := by simpa [sorted] using h.le_max
        nodup := (nodup_map_sortOn _).mp h.nodup
        valid := by simpa [sorted] using h.valid
        initiator := hasAccepted_sorted.mp h.initiator }
  · exact
      { kind := h.kind
        two_le := by simpa [sorted] using h.two_le
        le_max := by simpa [sorted] using h.le_max
        nodup := (nodup_map_sortOn _).mpr h.nodup
        valid := by simpa [sorted] using h.valid
        initiator := hasAccepted_sorted.mpr h.initiator }

@[simp]
theorem reconnectOk_sorted : s.sorted.ReconnectOk ↔ s.ReconnectOk := by
  simp only [ReconnectOk, hasAccepted_sorted]
  rfl

@[simp]
theorem lifecycleOk_sorted : s.sorted.LifecycleOk ↔ s.LifecycleOk := by
  simp only [LifecycleOk, anyRemote_sorted]
  rfl

@[simp]
theorem wellFormed_sorted : s.sorted.WellFormed ↔ s.WellFormed :=
  ⟨fun h => ⟨roster_sorted.mp h.toRoster, h.media, reconnectOk_sorted.mp h.reconnect,
      lifecycleOk_sorted.mp h.lifecycle⟩,
    fun h => ⟨roster_sorted.mpr h.toRoster, h.media, reconnectOk_sorted.mpr h.reconnect,
      lifecycleOk_sorted.mpr h.lifecycle⟩⟩

@[simp]
theorem sorted_sorted : s.sorted.sorted = s.sorted := by
  simp [sorted]

end CallSession

theorem validateReconnecting_eq_ok (h : s.Roster revision) :
    validateReconnecting s = .ok u ↔ s.ReconnectOk := by
  unfold validateReconnecting ReconnectOk
  cases s.signallingState
  case reconnecting =>
    simp only [ok_iff, not_or, not_not]
    constructor
    · rintro ⟨owner, ho, v, hv, hs, -⟩
      obtain ⟨hm, hp⟩ := (participant_eq_some h.nodup).mp hv
      exact ⟨owner, ho, v, hm, hp, hs⟩
    · rintro ⟨owner, ho, ha⟩
      obtain ⟨v, hv, hs, hl⟩ := h.accepted_valid ha
      exact ⟨owner, ho, v, hv, hs, by simp [hl]⟩
  all_goals simp

theorem validateLifecycle_eq_ok : validateLifecycle s = .ok u ↔ s.LifecycleOk := by
  unfold validateLifecycle LifecycleOk
  cases s.signallingState <;> simp

theorem CallSession.anyAdjacent_sorted_eq_false :
    s.sorted.participants.anyAdjacent (·.principal = ·.principal) = false ↔
      (s.participants.map (·.principal)).Nodup :=
  anyAdjacent_sortOn_eq_false fun _ _ => PrincipalRef.sortKey_inj

-- Canonicalization accepts exactly the well-formed sessions and only sorts their participants.
theorem canonicalCallSession_eq_ok :
    canonicalCallSession s = .ok c ↔ s.WellFormed ∧ s.sorted = c := by
  simp only [canonicalCallSession, ok_iff, forM_eq_ok, validateParticipant_eq_ok, exists_const,
    not_not, not_lt, not_or, Bool.not_eq_true, Bool.not_eq_false, anyAdjacent_sorted_eq_false,
    validateLifecycle_eq_ok, exists_and_right]
  constructor
  · rintro ⟨hkind, htwo, hmax, hnodup, hvalid, v, hv, ⟨hs, -⟩, hmedia, ⟨_, hrec⟩, hlife, rfl⟩
    have hv := (participant_eq_some ((nodup_map_sortOn _).mpr hnodup)).mp hv
    have hroster : s.sorted.Roster s.revision :=
      roster_sorted.mpr
        { kind := hkind, two_le := htwo, le_max := hmax, nodup := hnodup
          valid := fun p hp => hvalid p (mem_sortOn.mpr hp)
          initiator := hasAccepted_sorted.mp ⟨v, hv.1, hv.2, hs⟩ }
    have hrec := (validateReconnecting_eq_ok hroster).mp hrec
    exact ⟨wellFormed_sorted.mp ⟨hroster, hmedia, hrec, hlife⟩, rfl⟩
  · rintro ⟨h, rfl⟩
    have hsorted := wellFormed_sorted.mpr h
    obtain ⟨v, hv, hs, hl⟩ := hsorted.accepted_valid hsorted.initiator
    exact ⟨h.kind, h.two_le, h.le_max, h.nodup, hsorted.valid, v, hv, ⟨hs, by simp [hl]⟩,
      hsorted.media, ⟨(), (validateReconnecting_eq_ok hsorted.toRoster).mpr hsorted.reconnect⟩,
      hsorted.lifecycle, rfl⟩

namespace CallSession

-- A session that canonicalization leaves as it is.
structure Canonical (s : CallSession) : Prop extends s.WellFormed where
  sorted_eq : s.sorted = s

theorem canonical_iff : s.Canonical ↔ canonicalCallSession s = .ok s := by
  rw [canonicalCallSession_eq_ok]
  exact ⟨fun h => ⟨h.toWellFormed, h.sorted_eq⟩, fun h => ⟨h.1, h.2⟩⟩

theorem WellFormed.canonical_sorted (h : s.WellFormed) : s.sorted.Canonical :=
  ⟨wellFormed_sorted.mpr h, sorted_sorted⟩

theorem WellFormed.canonicalCallSession (h : s.WellFormed) :
    canonicalCallSession s = .ok s.sorted :=
  canonicalCallSession_eq_ok.mpr ⟨h, rfl⟩

end CallSession

theorem canonical_of_canonicalCallSession (h : canonicalCallSession s = .ok c) : c.Canonical := by
  obtain ⟨hw, rfl⟩ := canonicalCallSession_eq_ok.mp h
  exact hw.canonical_sorted

end Ucr
