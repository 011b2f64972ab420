import Ucr.Protocol.Theorems.CanonicalCall

-- One specification per signal: from a well-formed session that has not ended, every accepted
-- signal leads to a session that is well formed at the next revision and keeps the call's history.

namespace Ucr

open Except CallSession CallParticipantState List

variable {s s' : CallSession} {v : CallParticipant} {revision : U64}
  {f : CallParticipant → CallParticipant} {q : CallParticipantState → Bool}

def CallSignalKind.added : CallSignalKind → List PrincipalRef
  | .participantUpdate participant .add => [participant]
  | _ => []

namespace CallSession

@[simp]
theorem setState_signallingState :
    (s.setState target state).signallingState = s.signallingState :=
  rfl

def principals (s : CallSession) : List PrincipalRef :=
  s.participants.map (·.principal)

-- The parts of a call that survive every transition: its identity, all participants with the
-- revision they joined at, and the final state of those that are out. Later participants never look
-- original.
structure Continues (s s' : CallSession) : Prop where
  scope : s'.scope = s.scope
  callId : s'.callId = s.callId
  conversation : s'.conversation = s.conversation
  initiatedBy : s'.initiatedBy = s.initiatedBy
  kept : ∀ v ∈ s.participants, ∃ v' ∈ s'.participants, v'.principal = v.principal ∧
    v'.joinedRevision = v.joinedRevision ∧ (¬v.state.isLive → v'.state = v.state)
  origin : ∀ v' ∈ s'.participants, (∃ v ∈ s.participants, v'.principal = v.principal ∧
    v'.joinedRevision = v.joinedRevision) ∨ v'.joinedRevision ≠ 0

namespace Continues

theorem refl (s : CallSession) : s.Continues s where
  scope := rfl
  callId := rfl
  conversation := rfl
  initiatedBy := rfl
  kept v hv := ⟨v, hv, rfl, rfl, fun _ => rfl⟩
  origin v hv := .inl ⟨v, hv, rfl, rfl⟩

theorem trans {s₁ s₂ s₃ : CallSession} (h₁ : s₁.Continues s₂) (h₂ : s₂.Continues s₃) :
    s₁.Continues s₃ where
  scope := h₂.scope.trans h₁.scope
  callId := h₂.callId.trans h₁.callId
  conversation := h₂.conversation.trans h₁.conversation
  initiatedBy := h₂.initiatedBy.trans h₁.initiatedBy
  kept v hv := by
    obtain ⟨v₂, hv₂, hp₂, hj₂, hd₂⟩ := h₁.kept v hv
    obtain ⟨v₃, hv₃, hp₃, hj₃, hd₃⟩ := h₂.kept v₂ hv₂
    refine ⟨v₃, hv₃, hp₃.trans hp₂, hj₃.trans hj₂, fun hd => ?_⟩
    have hs₂ := hd₂ hd
    exact (hd₃ (hs₂ ▸ hd)).trans hs₂
  origin v₃ hv₃ := by
    obtain ⟨v₂, hv₂, hp₃, hj₃⟩ | h := h₂.origin v₃ hv₃
    · rw [hp₃, hj₃]
      exact h₁.origin v₂ hv₂
    · exact .inr h

theorem sorted_right (h : s.Continues s') : s.Continues s'.sorted where
  __ := h
  kept := by simpa [sorted] using h.kept
  origin := by simpa [sorted] using h.origin

end Continues

-- A rewriting of the participants, entry by entry, that a signal at `revision` may perform.
structure Rewrites (s : CallSession) (f : CallParticipant → CallParticipant) (revision : U64) :
    Prop where
  principal : ∀ v, (f v).principal = v.principal
  joined    : ∀ v, (f v).joinedRevision = v.joinedRevision
  valid     : ∀ v ∈ s.participants, v.Valid revision → (f v).Valid revision
  initiator : ∀ v ∈ s.participants, v.principal = s.initiatedBy → f v = v
  dead      : ∀ v ∈ s.participants, ¬v.state.isLive → f v = v

theorem Rewrites.roster (hf : s.Rewrites f revision) (h : s.Roster s.revision)
    (hr : s.revision ≤ revision) :
    Roster { s with participants := s.participants.map f } revision where
  kind      := h.kind
  two_le    := by simpa using h.two_le
  le_max    := by simpa using h.le_max
  nodup     := by simpa [Function.comp_def, hf.principal] using h.nodup
  valid     := by
    simp only [mem_map]
    rintro _ ⟨v, hv, rfl⟩
    exact hf.valid v hv ((h.valid v hv).mono hr)
  initiator := by
    obtain ⟨v, hv, hp, hs⟩ := h.initiator
    exact ⟨v, mem_map.mpr ⟨v, hv, hf.initiator v hv hp⟩, hp, hs⟩

theorem Rewrites.names (hf : s.Rewrites f revision) :
    principals { s with participants := s.participants.map f } = s.principals := by
  simp [principals, hf.principal]

theorem Rewrites.continues (hf : s.Rewrites f revision) :
    s.Continues { s with participants := s.participants.map f } where
  __ := Continues.refl s
  kept v hv := ⟨f v, mem_map_of_mem hv, hf.principal v, hf.joined v,
    fun hd => by rw [hf.dead v hv hd]⟩
  origin := by
    simp only [mem_map]
    rintro _ ⟨v, hv, rfl⟩
    exact .inl ⟨v, hv, hf.principal v, hf.joined v⟩

-- Rewriting the entry of one live remote participant.
theorem updateParticipant_eq_map (hn : (s.participants.map (·.principal)).Nodup) :
    s.updateParticipant target f = { s with
      participants := s.participants.map fun v => if v.principal = target then f v else v } := by
  rw [updateParticipant, updateKey_eq_map hn]

theorem rewrites_one (h : s.Roster s.revision) (hv : s.participant target = some v)
    (hlive : v.state.isLive) (hne : target ≠ s.initiatedBy)
    (hp : ∀ w, (f w).principal = w.principal) (hj : ∀ w, (f w).joinedRevision = w.joinedRevision)
    (hvalid : v.Valid revision → (f v).Valid revision) :
    s.Rewrites (fun w => if w.principal = target then f w else w) revision := by
  have honly : ∀ w ∈ s.participants, w.principal = target → w = v := fun w hw hwp => by
    have := (participant_eq_some h.nodup).mpr ⟨hw, hwp⟩
    simpa [hv] using this.symm
  constructor
  case principal => intro w; split <;> simp [hp]
  case joined    => intro w; split <;> simp [hj]
  case valid     =>
    intro w hw hwv
    split
    case isTrue hwp => obtain rfl := honly w hw hwp; exact hvalid hwv
    case isFalse    => exact hwv
  case initiator =>
    intro w _ hwp
    exact if_neg fun hwt => hne (hwt.symm.trans hwp)
  case dead =>
    intro w hw hwd
    exact if_neg fun hwp => hwd (honly w hw hwp ▸ hlive)

theorem anyRemote_update (hn : (s.participants.map (·.principal)).Nodup)
    (hv : s.participant target = some v) (hne : target ≠ s.initiatedBy)
    (hp : ∀ w, (f w).principal = w.principal) :
    (s.updateParticipant target f).anyRemote q = true ↔
      q (f v).state = true ∨
        ∃ w ∈ s.participants, w.principal ≠ target ∧ w.principal ≠ s.initiatedBy ∧
          q w.state = true := by
  obtain ⟨hm, rfl⟩ := (participant_eq_some hn).mp hv
  simp only [anyRemote_iff, updateParticipant, mem_updateKey hn]
  constructor
  · rintro ⟨_, ⟨w, hw, hwp, rfl⟩ | ⟨hw, hwp⟩, hwi, hq⟩
    · obtain rfl := inj_on_of_nodup_map hn hw hm hwp
      exact .inl hq
    · exact .inr ⟨_, hw, hwp, hwi, hq⟩
  · rintro (hq | ⟨w, hw, hwp, hwi, hq⟩)
    · exact ⟨f v, .inl ⟨v, hm, rfl, rfl⟩, by simpa [hp] using hne, hq⟩
    · exact ⟨w, .inr ⟨hw, hwp⟩, hwi, hq⟩

theorem hasAccepted_update (hn : (s.participants.map (·.principal)).Nodup)
    (ho : s.HasAccepted owner) (hne : owner ≠ target) :
    (s.updateParticipant target f).HasAccepted owner := by
  obtain ⟨w, hw, rfl, hs⟩ := ho
  exact ⟨w, (mem_updateKey hn).mpr (.inr ⟨hw, hne⟩), rfl, hs⟩

-- Everything but the signalling fields decides the roster and the history of a session.
theorem Roster.congr (h : s.Roster revision) (hc : s'.conversation = s.conversation)
    (hi : s'.initiatedBy = s.initiatedBy) (hp : s'.participants = s.participants) :
    s'.Roster revision where
  kind      := hc ▸ h.kind
  two_le    := hp ▸ h.two_le
  le_max    := hp ▸ h.le_max
  nodup     := hp ▸ h.nodup
  valid     := hp ▸ h.valid
  initiator := by simpa [HasAccepted, hi, hp] using h.initiator

theorem Roster.mono (h : s.Roster s.revision) (hr : s.revision ≤ revision) : s.Roster revision :=
  { h with valid := fun v hv => (h.valid v hv).mono hr }

-- What may follow a session at the next revision, when somebody is added.
structure Follows (s s' : CallSession) (revision : U64) (added : List PrincipalRef) : Prop where
  roster    : s'.Roster revision
  media     : s'.MediaOk
  reconnect : s'.ReconnectOk
  lifecycle : s'.LifecycleOk
  continues : s.Continues s'
  names     : s'.principals = s.principals ++ added

theorem Follows.wellFormed (h : s.Follows s' revision added) (generation : U64) :
    WellFormed { s' with revision := revision, replicationGeneration := generation } :=
  ⟨h.roster.congr rfl rfl rfl, h.media, h.reconnect, h.lifecycle⟩

theorem terminationReason_eq_none (h : s.LifecycleOk) (ht : s.signallingState ≠ .terminated) :
    s.terminationReason = none := by
  unfold LifecycleOk at h
  cases hs : s.signallingState <;> simp only [hs] at h ht <;> simp_all

theorem reconnectingParticipant_eq_none (h : s.ReconnectOk)
    (hs : s.signallingState ≠ .reconnecting) : s.reconnectingParticipant = none := by
  simpa [hs] using (reconnectOk_iff.mp h).1

theorem follows_terminate (h : s.WellFormed) (hr : s.revision ≤ revision)
    (reason : CallTerminationReason) : s.Follows (s.terminate reason) revision [] where
  roster    := (h.toRoster.mono hr).congr rfl rfl rfl
  media     := h.media
  reconnect := rfl
  lifecycle := by simp [LifecycleOk, terminate]
  continues := { Continues.refl s with }
  names     := (append_nil _).symm

end CallSession

section Settle

variable {reason : CallTerminationReason}

theorem settleIfNoViableRemote_eq (s : CallSession) (reason : CallTerminationReason) :
    ∃ state owner ended, settleIfNoViableRemote s reason =
      { s with signallingState := state, reconnectingParticipant := owner,
               terminationReason := ended } := by
  unfold settleIfNoViableRemote
  split_ifs
  · exact ⟨_, s.reconnectingParticipant, s.terminationReason, rfl⟩
  · exact ⟨s.signallingState, s.reconnectingParticipant, s.terminationReason, rfl⟩
  · exact ⟨_, _, s.terminationReason, rfl⟩
  · exact ⟨_, _, s.terminationReason, rfl⟩
  · exact ⟨_, _, _, rfl⟩

theorem CallSession.Roster.anyRemote_ringing (h : s.Roster revision)
    (hr : s.participants.any (·.state = .ringing)) : s.anyRemote (· = .ringing) := by
  simp only [any_eq_true, decide_eq_true_eq] at hr
  obtain ⟨v, hv, hs⟩ := hr
  obtain ⟨w, hw, hwp, hws⟩ := h.initiator
  refine anyRemote_iff.mpr ⟨v, hv, fun hvp => ?_, by simp [hs]⟩
  obtain rfl := inj_on_of_nodup_map h.nodup hv hw (hvp.trans hwp.symm)
  simp [hs] at hws

theorem settleIfNoViableRemote_ok (h : s.Roster revision) (hr : s.ReconnectOk)
    (ht : s.terminationReason = none) (reason : CallTerminationReason) :
    (settleIfNoViableRemote s reason).ReconnectOk ∧
      (settleIfNoViableRemote s reason).LifecycleOk := by
  unfold settleIfNoViableRemote
  split_ifs with hlive hacc hstate hring
  · have hnone := reconnectingParticipant_eq_none hr hstate
    exact ⟨hnone, hacc, ht⟩
  · refine ⟨hr, ?_⟩
    rw [ne_eq, not_not] at hstate
    simp only [LifecycleOk, hstate]
    exact ⟨hacc, ht⟩
  · exact ⟨rfl, ⟨hacc, h.anyRemote_ringing hring⟩, ht⟩
  -- Nobody has accepted and nobody rings, so whoever is still live is invited.
  · refine ⟨rfl, ⟨hacc, fun hrem => hring ?_⟩, ?_, ht⟩
    · obtain ⟨v, hv, -, hs⟩ := anyRemote_iff.mp hrem
      exact any_eq_true.mpr ⟨v, hv, hs⟩
    · obtain ⟨v, hv, hp, hs⟩ := anyRemote_iff.mp hlive
      refine anyRemote_iff.mpr ⟨v, hv, hp, ?_⟩
      have hnacc : v.state ≠ .accepted := fun hva =>
        hacc (anyRemote_iff.mpr ⟨v, hv, hp, by simpa using hva⟩)
      cases hvs : v.state <;> simp_all [isLive, isPending]
  · exact ⟨rfl, by simp [LifecycleOk, terminate]⟩

theorem follows_settle (hroster : rewritten.Roster revision) (hmedia : rewritten.MediaOk)
    (hrec : rewritten.ReconnectOk) (hend : rewritten.terminationReason = none)
    (hc : s.Continues rewritten) (hnames : rewritten.principals = s.principals) :
    s.Follows (settleIfNoViableRemote rewritten reason) revision [] := by
  obtain ⟨hrec', hlife'⟩ := settleIfNoViableRemote_ok hroster hrec hend reason
  obtain ⟨state, owner, ended, heq⟩ := settleIfNoViableRemote_eq rewritten reason
  rw [heq] at hrec' hlife' ⊢
  exact ⟨hroster.congr rfl rfl rfl, hmedia, hrec', hlife', { hc with },
    hnames.trans (append_nil _).symm⟩

end Settle

section Signals

variable {state : CallParticipantState} {reason : CallTerminationReason}

theorem CallParticipantState.isLive_of_isPending (h : state.isPending) : state.isLive := by
  cases state <;> simp_all [isPending, isLive]

theorem CallParticipantState.ne_left_of_isLive (h : state.isLive) : state ≠ .left := by
  rintro rfl
  simp [isLive] at h

-- Moving one live remote participant to another state it can be in without leaving.
theorem setState_follows (h : s.WellFormed) (hr : s.revision ≤ revision)
    (hv : s.participant actor = some v) (hlive : v.state.isLive) (hne : actor ≠ s.initiatedBy)
    (hs : state ≠ .left) :
    (s.setState actor state).Roster revision ∧ s.Continues (s.setState actor state) ∧
      (s.setState actor state).principals = s.principals ++ [] := by
  have hrw := rewrites_one (f := fun w => { w with state := state }) h.toRoster hv hlive hne
    (fun _ => rfl) (fun _ => rfl)
    fun (hvalid : v.Valid revision) => hvalid.withState (ne_left_of_isLive hlive) hs
  rw [setState, updateParticipant_eq_map h.nodup, append_nil]
  exact ⟨hrw.roster h.toRoster hr, hrw.continues, hrw.names⟩

-- Whoever owns a reconnect cycle has accepted, so it is not the participant that just moved.
theorem reconnectOk_update (h : s.WellFormed) (hv : s.participant actor = some v)
    (hs : v.state ≠ .accepted) : (s.updateParticipant actor f).ReconnectOk := by
  obtain ⟨hstate, howner⟩ := reconnectOk_iff.mp h.reconnect
  refine reconnectOk_iff.mpr ⟨hstate, fun owner ho => ?_⟩
  refine hasAccepted_update h.nodup (howner owner ho) ?_
  rintro rfl
  obtain ⟨w, hw, hws, -⟩ := h.accepted_valid (howner _ ho)
  simp_all

theorem anyRemote_accepted_update (h : s.WellFormed) (hv : s.participant actor = some v)
    (hne : actor ≠ s.initiatedBy) (hs : v.state ≠ .accepted)
    (hf : ∀ w, (f w).principal = w.principal) (hacc : s.anyRemote (· = .accepted)) :
    (s.updateParticipant actor f).anyRemote (· = .accepted) := by
  rw [anyRemote_update h.nodup hv hne hf]
  obtain ⟨w, hw, hwp, hws⟩ := anyRemote_iff.mp hacc
  refine .inr ⟨w, hw, fun hwa => ?_, hwp, hws⟩
  have hwv := (participant_eq_some h.nodup).mpr ⟨hw, hwa⟩
  simp_all

theorem not_anyRemote_accepted_update (h : s.WellFormed) (hv : s.participant actor = some v)
    (hne : actor ≠ s.initiatedBy) (hf : ∀ w, (f w).principal = w.principal)
    (hs : (f v).state ≠ .accepted) (hacc : ¬s.anyRemote (· = .accepted)) :
    ¬(s.updateParticipant actor f).anyRemote (· = .accepted) := by
  rw [anyRemote_update h.nodup hv hne hf]
  rintro (hfv | ⟨w, hw, -, hwp, hws⟩)
  · simp_all
  · exact hacc (anyRemote_iff.mpr ⟨w, hw, hwp, hws⟩)

theorem anyRemote_of_live_state (h : s.LifecycleOk)
    (hs : s.signallingState = .active ∨ s.signallingState = .reconnecting) :
    s.anyRemote (· = .accepted) := by
  unfold LifecycleOk at h
  obtain hs | hs := hs <;> simp only [hs] at h <;> exact h.1

theorem not_anyRemote_of_pending_state (h : s.LifecycleOk)
    (hs : s.signallingState = .inviting ∨ s.signallingState = .ringing) :
    ¬s.anyRemote (· = .accepted) := by
  unfold LifecycleOk at h
  obtain hs | hs := hs <;> simp only [hs] at h <;> exact h.1.1

variable (h : s.WellFormed) (hr : s.revision ≤ revision)

include h hr

theorem applyRinging_spec (ht : s.signallingState ≠ .terminated)
    (ha : applyRinging s actor = .ok s') : s.Follows s' revision [] := by
  simp only [applyRinging, ok_iff, not_or, ne_eq, not_not] at ha
  obtain ⟨v, hv, -, ⟨hne, hs⟩, ha⟩ := ha
  obtain ⟨-, rfl⟩ := (participant_eq_some h.nodup).mp hv
  have hlive : v.state.isLive := by simp [hs, isLive]
  have hnleft : ringing ≠ .left := by simp
  obtain ⟨hroster, hcont, hnames⟩ := setState_follows h hr hv hlive hne hnleft
  have hend := terminationReason_eq_none h.lifecycle ht
  cases hstate : s.signallingState
  case terminated => exact absurd hstate ht
  case active | reconnecting =>
    have hacc := anyRemote_of_live_state h.lifecycle (by simp [hstate])
    have hacc : (s.setState v.principal .ringing).anyRemote (· = .accepted) :=
      anyRemote_accepted_update h hv hne (by simp [hs]) (fun _ => rfl) hacc
    have hrec : (s.setState v.principal .ringing).ReconnectOk :=
      reconnectOk_update h hv (by simp [hs])
    simp only [setState_signallingState, hstate, ok_iff] at ha
    subst ha
    refine ⟨hroster, h.media, hrec, ?_, hcont, hnames⟩
    simp only [LifecycleOk, setState_signallingState, hstate]
    exact ⟨hacc, hend⟩
  case inviting | ringing =>
    have hnacc := not_anyRemote_of_pending_state h.lifecycle (by simp [hstate])
    have hnacc : ¬(s.setState v.principal .ringing).anyRemote (· = .accepted) :=
      not_anyRemote_accepted_update h hv hne (fun _ => rfl) (by simp) hnacc
    have hring : (s.setState v.principal .ringing).anyRemote (· = .ringing) :=
      (anyRemote_update h.nodup hv hne (by simp)).mpr (by simp)
    have hnone := reconnectingParticipant_eq_none h.reconnect (by simp [hstate])
    simp only [setState_signallingState, hstate, ok_iff] at ha
    subst ha
    exact ⟨hroster.congr rfl rfl rfl, h.media, hnone, ⟨⟨hnacc, hring⟩, hend⟩, { hcont with }, hnames⟩

theorem applyAccept_spec (ht : s.signallingState ≠ .terminated)
    (ha : applyAccept s actor = .ok s') : s.Follows s' revision [] := by
  simp only [applyAccept, ok_iff, not_or, not_not] at ha
  obtain ⟨v, hv, -, ⟨hne, hs⟩, ha⟩ := ha
  obtain ⟨-, rfl⟩ := (participant_eq_some h.nodup).mp hv
  have hnleft : accepted ≠ .left := by simp
  obtain ⟨hroster, hcont, hnames⟩ := setState_follows h hr hv
    (isLive_of_isPending hs) hne hnleft
  have hend := terminationReason_eq_none h.lifecycle ht
  have hacc : (s.setState v.principal .accepted).anyRemote (· = .accepted) :=
    (anyRemote_update h.nodup hv hne (by simp)).mpr (by simp)
  rw [setState_signallingState] at ha
  split at ha
  case isTrue hstate =>
    rw [pure_eq_ok] at ha
    subst ha
    have hnone := reconnectingParticipant_eq_none h.reconnect hstate
    exact ⟨hroster.congr rfl rfl rfl, h.media, hnone, ⟨hacc, hend⟩, { hcont with }, hnames⟩
  case isFalse hstate =>
    rw [pure_eq_ok] at ha
    subst ha
    rw [ne_eq, not_not] at hstate
    have hrec : (s.setState v.principal .accepted).ReconnectOk := reconnectOk_update h hv <| by
      rintro hva
      simp [hva, isPending] at hs
    refine ⟨hroster, h.media, hrec, ?_, hcont, hnames⟩
    simp only [LifecycleOk, setState_signallingState, hstate]
    exact ⟨hacc, hend⟩

theorem applyDecline_spec (ht : s.signallingState ≠ .terminated) (hnleft : state ≠ .left)
    (ha : applyDecline s actor state reason = .ok s') : s.Follows s' revision [] := by
  simp only [applyDecline, rejectOrBusy, ok_iff, not_or, not_not] at ha
  obtain ⟨_, ⟨v, hv, -, ⟨hne, hs⟩, rfl⟩, rfl⟩ := ha
  obtain ⟨-, rfl⟩ := (participant_eq_some h.nodup).mp hv
  obtain ⟨hroster, hcont, hnames⟩ := setState_follows h hr hv
    (isLive_of_isPending hs) hne hnleft
  have hrec : (s.setState v.principal state).ReconnectOk := reconnectOk_update h hv <| by
    rintro hva
    simp [hva, isPending] at hs
  have hend := terminationReason_eq_none h.lifecycle ht
  exact follows_settle hroster h.media hrec hend hcont (by simpa using hnames)

theorem applyPreAcceptTermination_spec
    (ha : applyPreAcceptTermination s actor reason = .ok s') : s.Follows s' revision [] := by
  simp only [applyPreAcceptTermination, ok_iff] at ha
  obtain ⟨-, -, rfl⟩ := ha
  exact follows_terminate h hr reason

theorem applyExplicitTermination_spec
    (ha : applyExplicitTermination s actor reason = .ok s') : s.Follows s' revision [] := by
  simp only [applyExplicitTermination, ok_iff] at ha
  obtain ⟨-, -, -, -, -, -, rfl⟩ := ha
  exact follows_terminate h hr reason

theorem applyReconnect_spec (ha : applyReconnect s actor phase = .ok s') :
    s.Follows s' revision [] := by
  simp only [applyReconnect, ok_iff, ne_eq, not_not] at ha
  obtain ⟨v, hv, -, hs, ha⟩ := ha
  obtain ⟨hm, rfl⟩ := (participant_eq_some h.nodup).mp hv
  have hroster := h.toRoster.mono hr
  split at ha
  case h_1 hstate =>
    rw [pure_eq_ok] at ha
    subst ha
    have hacc := anyRemote_of_live_state h.lifecycle (.inl hstate)
    have hend := terminationReason_eq_none h.lifecycle (by simp [hstate])
    exact ⟨hroster.congr rfl rfl rfl, h.media, ⟨_, rfl, v, hm, rfl, hs⟩, ⟨hacc, hend⟩,
      { Continues.refl s with }, (append_nil _).symm⟩
  case h_2 hstate =>
    simp only [ok_iff] at ha
    obtain ⟨-, -, rfl⟩ := ha
    have hacc := anyRemote_of_live_state h.lifecycle (.inr hstate)
    have hend := terminationReason_eq_none h.lifecycle (by simp [hstate])
    exact ⟨hroster.congr rfl rfl rfl, h.media, rfl, ⟨hacc, hend⟩,
      { Continues.refl s with }, (append_nil _).symm⟩
  case h_3 => simp at ha

theorem applyMediaRenegotiation_spec
    (ha : applyMediaRenegotiation s actor negotiationRef = .ok s') :
    s.Follows s' revision [] := by
  simp only [applyMediaRenegotiation, ok_iff] at ha
  obtain ⟨-, -, generation, hg, rfl⟩ := ha
  have hmedia : generation ≠ 0 := U64.checkedSucc_ne_zero hg
  exact ⟨(h.toRoster.mono hr).congr rfl rfl rfl, by simp [MediaOk, hmedia],
    h.reconnect, h.lifecycle, { Continues.refl s with }, (append_nil _).symm⟩

end Signals

section Participants

theorem mem_invite :
    v ∈ (s.invite target revision).participants ↔ v ∈ s.participants ∨
      v = { principal := target, state := .invited, joinedRevision := revision,
            leftRevision := none } := by
  simp [invite]

theorem anyRemote_invite (hq : q .invited = false) :
    (s.invite target revision).anyRemote q = s.anyRemote q := by
  simp only [anyRemote, invite, any_append, any_cons, hq,
    any_nil, Bool.and_false, Bool.or_false]
  rfl

theorem anyRemote_invite_of_anyRemote (h : s.anyRemote q) :
    (s.invite target revision).anyRemote q := by
  obtain ⟨v, hv, hp, hq⟩ := anyRemote_iff.mp h
  exact anyRemote_iff.mpr ⟨v, mem_invite.mpr (.inl hv), hp, hq⟩

theorem roster_invite (h : s.Roster revision) (hlen : s.participants.length < maxCallParticipants)
    (hnew : ∀ v ∈ s.participants, v.principal ≠ target) :
    (s.invite target revision).Roster revision where
  kind      := h.kind
  two_le    := by have := h.two_le; simp [invite]; omega
  le_max    := by simp [invite]; omega
  nodup     := by
    simp only [invite, map_append, map_cons, map_nil, nodup_append]
    exact ⟨h.nodup, by simp, by simpa using hnew⟩
  valid v hv := by
    obtain hv | rfl := mem_invite.mp hv
    · exact h.valid v hv
    · exact ⟨le_rfl, by simp⟩
  initiator := by
    obtain ⟨v, hv, hp, hs⟩ := h.initiator
    exact ⟨v, mem_invite.mpr (.inl hv), hp, hs⟩

theorem reconnectOk_invite (h : s.ReconnectOk) : (s.invite target revision).ReconnectOk := by
  obtain ⟨hstate, howner⟩ := reconnectOk_iff.mp h
  refine reconnectOk_iff.mpr ⟨hstate, fun owner ho => ?_⟩
  obtain ⟨v, hv, hp, hs⟩ := howner owner ho
  exact ⟨v, mem_invite.mpr (.inl hv), hp, hs⟩

theorem lifecycleOk_invite (h : s.LifecycleOk) : (s.invite target revision).LifecycleOk := by
  unfold LifecycleOk at h ⊢
  simp only [show (s.invite target revision).signallingState = s.signallingState from rfl,
    anyRemote_invite, reduceCtorEq, decide_false]
  cases hs : s.signallingState <;> simp only [hs] at h ⊢
  case inviting => exact ⟨h.1, anyRemote_invite_of_anyRemote h.2.1, h.2.2⟩
  all_goals exact h

theorem continues_invite (h0 : revision ≠ 0) : s.Continues (s.invite target revision) where
  __ := Continues.refl s
  kept v hv := ⟨v, mem_invite.mpr (.inl hv), rfl, rfl, fun _ => rfl⟩
  origin v hv := by
    obtain hv | rfl := mem_invite.mp hv
    · exact .inl ⟨v, hv, rfl, rfl⟩
    · exact .inr h0

theorem addParticipant_spec (h : s.WellFormed) (hr : s.revision ≤ revision) (h0 : revision ≠ 0)
    (ha : addParticipant s actor target revision = .ok s') : s.Follows s' revision [target] := by
  simp only [addParticipant, ok_iff, exists_const, not_le, ge_iff_le,
    Option.not_isSome_iff_eq_none] at ha
  obtain ⟨-, hlen, hnew, rfl⟩ := ha
  exact ⟨roster_invite (h.toRoster.mono hr) hlen (findKey_eq_none.mp hnew), h.media,
    reconnectOk_invite h.reconnect, lifecycleOk_invite h.lifecycle, continues_invite h0,
    by simp [principals, invite]⟩

theorem closeReconnectIf_eq (s : CallSession) (closes : Bool) :
    ∃ state owner, s.closeReconnectIf closes =
      { s with signallingState := state, reconnectingParticipant := owner } := by
  unfold closeReconnectIf
  split
  case isTrue  => exact ⟨_, _, rfl⟩
  case isFalse => exact ⟨s.signallingState, s.reconnectingParticipant, rfl⟩

theorem reconnectOk_closeReconnectIf {closes : Bool} (h : s.ReconnectOk)
    (hf : ¬closes → ∀ v ∈ s.participants, s.reconnectingParticipant = some v.principal → f v = v) :
    (closeReconnectIf { s with participants := s.participants.map f }
      closes).ReconnectOk := by
  unfold closeReconnectIf
  split
  case isTrue => rfl
  case isFalse hc =>
    obtain ⟨hstate, howner⟩ := reconnectOk_iff.mp h
    refine reconnectOk_iff.mpr ⟨hstate, fun owner ho => ?_⟩
    obtain ⟨v, hv, rfl, hs⟩ := howner owner ho
    exact ⟨v, mem_map.mpr ⟨v, hv, hf hc v hv ho⟩, rfl, hs⟩

variable (h : s.WellFormed) (hr : s.revision ≤ revision) (ht : s.signallingState ≠ .terminated)
include h hr ht

-- The common tail of a removal and of a membership projection: some remote participants leave, a
-- reconnect cycle that loses its owner is closed, and the call settles.
theorem follows_rewrite {closes : Bool} {reason} (hf : s.Rewrites f revision)
    (hk : ¬closes → ∀ v ∈ s.participants, s.reconnectingParticipant = some v.principal → f v = v) :
    s.Follows (settleIfNoViableRemote (closeReconnectIf
      { s with participants := s.participants.map f } closes) reason) revision [] := by
  have hrec := reconnectOk_closeReconnectIf h.reconnect hk
  have hend := terminationReason_eq_none h.lifecycle ht
  obtain ⟨state, owner, heq⟩ := closeReconnectIf_eq { s with participants := s.participants.map f }
    closes
  rw [heq] at hrec ⊢
  exact follows_settle ((hf.roster h.toRoster hr).congr rfl rfl rfl) h.media hrec hend
    { hf.continues with } hf.names

theorem removeParticipant_spec
    (ha : removeParticipant s actor target revision = .ok s') : s.Follows s' revision [] := by
  simp only [removeParticipant, ok_iff, exists_const, not_not] at ha
  obtain ⟨hne, -, v, hv, hlive, rfl⟩ := ha
  have hrw : s.Rewrites (fun w => if w.principal = target then
      { w with state := .left, leftRevision := some revision } else w) revision :=
    rewrites_one h.toRoster hv hlive hne (fun _ => rfl) (fun _ => rfl)
      fun hvalid => .leave hvalid.1
  rw [leave, updateParticipant_eq_map h.nodup]
  refine follows_rewrite h hr ht hrw fun hclose w _ hw => if_neg fun hwt => hclose ?_
  simp [hw, hwt]

theorem revokeRemotes_spec : s.Follows (s.revokeRemotes activeMembers revision) revision [] := by
  refine follows_rewrite h hr ht ?_ fun hclose w _ hw => if_neg fun hrev => hclose ?_
  case refine_2 =>
    simp only [isRevoked, Bool.and_eq_true, decide_eq_true_eq] at hrev
    simp [hw, hrev.2]
  case refine_1 =>
    constructor
    case principal => intro w; split <;> rfl
    case joined    => intro w; split <;> rfl
    case valid     =>
      intro w _ hvalid
      split
      case isTrue  => exact .leave hvalid.1
      case isFalse => exact hvalid
    case initiator =>
      intro w _ hwi
      exact if_neg (by simp [isRevoked, hwi])
    case dead =>
      intro w hw hwd
      have hactive := (h.valid w hw).isActive_eq
      exact if_neg (by simp_all [isRevoked])

end Participants

section Transitions

theorem applyCallSignalKind_spec (h : s.WellFormed) (hr : s.revision ≤ revision)
    (h0 : revision ≠ 0) (ht : s.signallingState ≠ .terminated)
    (ha : applyCallSignalKind s actor revision kind = .ok s') :
    s.Follows s' revision kind.added := by
  cases kind
  case ringing => exact applyRinging_spec h hr ht ha
  case accept => exact applyAccept_spec h hr ht ha
  case reject | busy => exact applyDecline_spec h hr ht (by simp) ha
  case cancel | timeout => exact applyPreAcceptTermination_spec h hr ha
  case reconnect => exact applyReconnect_spec h hr ha
  case mediaRenegotiation => exact applyMediaRenegotiation_spec h hr ha
  case terminate => exact applyExplicitTermination_spec h hr ha
  case participantUpdate kind =>
    cases kind
    case add    => exact addParticipant_spec h hr h0 ha
    case remove => exact removeParticipant_spec h hr ht ha

end Transitions

end Ucr
