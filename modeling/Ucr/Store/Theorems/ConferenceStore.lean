import Ucr.Store.ConferenceStore

-- What operations on conferences write, and which checks have been made before.

namespace Ucr

open Except MemoryState Option

abbrev QuotaPolicies := Table ScopedId ServiceResourceQuotaPolicy

section Counted

variable (scope : TenantScope)

def busyFor (integrationId : IntegrationId) (existing : UniversalConferenceProfile) : Bool :=
  existing.scope = scope && existing.integrationId = integrationId &&
    conferenceConsumesResourceQuota existing.lifecycle

def activeFor (integrationId : IntegrationId) (existing : UniversalConferenceParticipantProfile) :
    Bool :=
  existing.scope = scope && existing.integrationId = integrationId && existing.active

def activeIn (conferenceId : GroupId) (existing : UniversalConferenceParticipantProfile) : Bool :=
  existing.scope = scope && existing.conferenceId = conferenceId && existing.active

def ownerIn (conferenceId : GroupId) (existing : UniversalConferenceParticipantProfile) : Bool :=
  activeIn scope conferenceId existing && existing.role = .owner

end Counted

def UniversalConferenceProfile.externalKey (profile : UniversalConferenceProfile) :
    TenantScope × IntegrationId × Bytes :=
  (profile.scope, profile.integrationId, profile.externalConferenceId)

def UniversalConferenceProfile.idempotencyKey (profile : UniversalConferenceProfile) :
    TenantScope × IntegrationId × String :=
  (profile.scope, profile.integrationId, profile.createIdempotencyKey)

def UniversalConferenceProfile.key (profile : UniversalConferenceProfile) : ScopedId :=
  (profile.scope, profile.conferenceId)

namespace UniversalConferenceParticipantProfile

def conferenceKey (profile : UniversalConferenceParticipantProfile) : ScopedId :=
  (profile.scope, profile.conferenceId)

def key (profile : UniversalConferenceParticipantProfile) : ScopedId × PrincipalRef :=
  (profile.conferenceKey, profile.participant)

def external (profile : UniversalConferenceParticipantProfile) : ScopedId × IntegrationId × Bytes :=
  (profile.conferenceKey, profile.integrationId, profile.externalUserId)

end UniversalConferenceParticipantProfile

section Writes

variable {s s' : MemoryState} {policies : QuotaPolicies} {t : ConferenceTables}
  {scope : TenantScope} {integrationId : IntegrationId} {conferenceId : GroupId} {key : ScopedId}
  {profile current next : UniversalConferenceProfile}
  {participant : UniversalConferenceParticipantProfile}

def ConferenceRoom (policies : QuotaPolicies) (t : ConferenceTables) (scope : TenantScope)
    (integrationId : IntegrationId) : Prop :=
  ∀ policy limit, policies.get (scope, integrationId) = some policy →
    policy.maxConcurrentConferences = some limit →
    t.universalConferences.values.countP (busyFor scope integrationId) < limit.val

structure ParticipantRoom (policies : QuotaPolicies) (t : ConferenceTables) (scope : TenantScope)
    (conferenceId : GroupId) (integrationId : IntegrationId) : Prop where
  conference  : t.universalConferenceParticipants.values.countP (activeIn scope conferenceId) <
    maxUniversalConferenceParticipants
  integration : ∀ policy, policies.get (scope, integrationId) = some policy →
    t.universalConferenceParticipants.values.countP (activeFor scope integrationId) <
      policy.maxConcurrentParticipants.val

def OwnerFree (t : ConferenceTables) (key : ScopedId × PrincipalRef) : Prop :=
  ∀ existing ∈ t.universalConferenceParticipants.values,
    ownerIn key.1.1 key.1.2 existing → existing.participant = key.2

structure SameConference (current next : UniversalConferenceProfile) : Prop where
  key : next.key = current.key
  external : next.externalKey = current.externalKey
  idempotency : next.idempotencyKey = current.idempotencyKey

inductive ConferenceWrite (policies : QuotaPolicies) (t : ConferenceTables) : ConferenceTables → Prop
  | nothing : ConferenceWrite policies t t
  | created (profile : UniversalConferenceProfile)
      (fresh : t.universalConferences.get profile.key = none)
      (external : t.universalConferenceExternal.get profile.externalKey = none)
      (idempotency : t.universalConferenceIdempotency.get profile.idempotencyKey = none)
      (room : conferenceConsumesResourceQuota profile.lifecycle →
        ConferenceRoom policies t profile.scope profile.integrationId) :
      ConferenceWrite policies t { t with
        universalConferenceExternal    :=
          t.universalConferenceExternal.put profile.externalKey profile.key
        universalConferenceIdempotency :=
          t.universalConferenceIdempotency.put profile.idempotencyKey profile.key
        universalConferences := t.universalConferences.put profile.key profile }
  | edited (key : ScopedId) (current next : UniversalConferenceProfile)
      (stored : t.universalConferences.get key = some current) (same : SameConference current next)
      (room : conferenceConsumesResourceQuota next.lifecycle →
        conferenceConsumesResourceQuota current.lifecycle ∨
          ConferenceRoom policies t key.1 current.integrationId) :
      ConferenceWrite policies t { t with universalConferences := t.universalConferences.put key next }
  | joined (participant : UniversalConferenceParticipantProfile)
      (fresh : t.universalConferenceParticipants.get participant.key = none)
      (user : ∀ existing ∈ t.universalConferenceParticipants.values,
        existing.external ≠ participant.external)
      (room : participant.active → ParticipantRoom policies t participant.scope participant.conferenceId
        participant.integrationId)
      (owner : participant.active → participant.role = .owner → OwnerFree t participant.key) :
      ConferenceWrite policies t { t with universalConferenceParticipants :=
        t.universalConferenceParticipants.put participant.key participant }
  | updated (key : ScopedId × PrincipalRef) (current next : UniversalConferenceParticipantProfile)
      (stored : t.universalConferenceParticipants.get key = some current)
      (same : next.key = current.key) (external : next.external = current.external)
      (room : next.active → current.active ∨
        ParticipantRoom policies t key.1.1 key.1.2 current.integrationId)
      (owner : next.active → next.role = .owner → OwnerFree t key) :
      ConferenceWrite policies t { t with universalConferenceParticipants :=
        t.universalConferenceParticipants.put key next }

end Writes

section Events

variable {s s' : MemoryState}

theorem appendEvent_cases (h : s.appendEvent event = .ok (status, s')) :
    ((s.events.get event.key).isSome ∧ s' = s) ∨
      (s.events.get event.key = none ∧ ∃ canonical, canonical.key = event.key ∧
        canonical.eventType = event.eventType ∧ s' = s.journalEvent canonical) := by
  simp only [appendEvent, ok_iff] at h
  obtain ⟨canonical, hcanonical, h⟩ := h
  simp only [canonicalEvent, ok_iff] at hcanonical
  obtain ⟨-, -, extensions, -, rfl⟩ := hcanonical
  have hkey : { event with extensions := extensions : EventEnvelope }.key = event.key := rfl
  rw [hkey] at h
  split at h
  case h_1 original hstored =>
    obtain rfl := state_after_eq h
    exact .inl ⟨by rw [hstored]; rfl, rfl⟩
  case h_2 hfresh =>
    simp only [ok_iff, exists_const] at h
    obtain ⟨-, -, rfl⟩ := h
    exact .inr ⟨hfresh, _, hkey, rfl, rfl⟩

end Events

section Operations

open UniversalConferenceParticipantProfile (external conferenceKey)

variable {s s' : MemoryState} {scope : TenantScope} {conferenceId : GroupId} {key : ScopedId}
  {integrationId : IntegrationId} {expectedRevision : U64} {entryOpen : Bool}
  {lifecycle : UniversalConferenceLifecycle} {event? : Option EventEnvelope}
  {current next : UniversalConferenceProfile}

theorem appendOptionalEvent_tables (h : s.appendOptionalEvent event? = .ok s') :
    s'.toAreaTables = s.toAreaTables := by
  cases event?
  case none =>
    cases pure_eq_ok.mp h
    rfl
  case some event =>
    simp only [appendOptionalEvent, ok_iff, Prod.exists] at h
    obtain ⟨status, _, happend, rfl⟩ := h
    obtain ⟨-, rfl⟩ | ⟨-, canonical, -, -, rfl⟩ := appendEvent_cases happend <;> rfl

-- The tables of conferences are written, and then the event that tells of it.
def WritesConferences (s s' : MemoryState) : Prop :=
  ∃ t event?, ConferenceWrite s.serviceResourceQuotaPolicies s.toConferenceTables t ∧
    { s with toConferenceTables := t }.appendOptionalEvent event? = .ok s'

namespace WritesConferences

theorem of_write {t} (h : ConferenceWrite s.serviceResourceQuotaPolicies s.toConferenceTables t) :
    WritesConferences s { s with toConferenceTables := t } :=
  ⟨t, none, h, rfl⟩

theorem refl : WritesConferences s s :=
  of_write .nothing

theorem policies (h : WritesConferences s s') :
    s'.serviceResourceQuotaPolicies = s.serviceResourceQuotaPolicies := by
  obtain ⟨t, event?, -, happended⟩ := h
  exact congrArg (·.serviceResourceQuotaPolicies) (appendOptionalEvent_tables happended)

theorem tables (h : WritesConferences s s') :
    ConferenceWrite s.serviceResourceQuotaPolicies s.toConferenceTables s'.toConferenceTables := by
  obtain ⟨t, event?, hwrite, happended⟩ := h
  exact congrArg (·.toConferenceTables) (appendOptionalEvent_tables happended) ▸ hwrite

end WritesConferences

theorem ensureIntegrationConferenceQuota_ok
    (h : s.ensureIntegrationConferenceQuota scope integrationId = .ok ()) :
    ConferenceRoom s.serviceResourceQuotaPolicies s.toConferenceTables scope integrationId := by
  intro policy limit hpolicy hlimit
  simp only [ensureIntegrationConferenceQuota, hpolicy, bind_some, hlimit, ok_iff] at h
  exact not_le.mp h

theorem ensureQuotaForTransition_ok
    (h : s.ensureQuotaForTransition current scope lifecycle = .ok ())
    (hconsumes : conferenceConsumesResourceQuota lifecycle) :
    conferenceConsumesResourceQuota current.lifecycle ∨
      ConferenceRoom s.serviceResourceQuotaPolicies s.toConferenceTables scope
        current.integrationId := by
  simp only [ensureQuotaForTransition] at h
  split at h
  case isTrue => exact .inr (ensureIntegrationConferenceQuota_ok h)
  case isFalse hnot => exact .inl (by simpa [hconsumes] using hnot)

theorem ensureParticipantRoom_ok
    (h : s.ensureParticipantRoom scope conferenceId integrationId = .ok ()) :
    ParticipantRoom s.serviceResourceQuotaPolicies s.toConferenceTables scope conferenceId
      integrationId := by
  simp only [ensureParticipantRoom, ok_iff, exists_const] at h
  obtain ⟨hconference, hintegration⟩ := h
  refine ⟨not_le.mp hconference, fun policy hpolicy => ?_⟩
  simp only [ensureIntegrationParticipantQuota, hpolicy, ok_iff] at hintegration
  exact not_le.mp hintegration

variable {participant : PrincipalRef}

theorem ownerFree_of_noConflict
    (h : ¬s.hasConflictingActiveConferenceOwner scope conferenceId participant) :
    OwnerFree s.toConferenceTables ((scope, conferenceId), participant) := by
  intro existing hmem hcounts
  by_contra hne
  refine h (List.any_eq_true.mpr ⟨existing, hmem, ?_⟩)
  simpa [ownerIn, activeIn, hne] using hcounts

theorem persistUniversalConferenceProfile_writes {profile status}
    (h : s.persistUniversalConferenceProfile profile = .ok (status, s')) :
    WritesConferences s s' := by
  simp only [persistUniversalConferenceProfile, ok_iff] at h
  obtain ⟨metadata, -, -, -, h⟩ := h
  split at h
  case h_1 =>
    simp only [ok_iff] at h
    obtain ⟨-, -, -, rfl⟩ := h
    exact .refl
  case h_2 hnone =>
    simp only [orElse_eq_none, map_eq_none_iff] at hnone
    have hwrites {fields : UniversalConferenceProfile} (hfields : fields = { profile with metadata })
        (hroom : conferenceConsumesResourceQuota profile.lifecycle → ConferenceRoom
          s.serviceResourceQuotaPolicies s.toConferenceTables profile.scope profile.integrationId) :=
      @ConferenceWrite.created s.serviceResourceQuotaPolicies s.toConferenceTables fields
        (hfields ▸ hnone.1) (hfields ▸ hnone.2.1) (hfields ▸ hnone.2.2) (hfields ▸ hroom)
    split at h
    case isTrue =>
      simp only [ok_iff] at h
      obtain ⟨_, hquota, -, rfl⟩ := h
      exact .of_write (hwrites rfl fun _ => ensureIntegrationConferenceQuota_ok hquota)
    case isFalse hfree =>
      obtain rfl := state_eq h
      exact .of_write (hwrites rfl fun hconsumes => absurd hconsumes hfree)

theorem editConference_writes (hstored : s.universalConferences.get key = some current)
    (hsame : SameConference current next)
    (hroom : conferenceConsumesResourceQuota next.lifecycle →
      conferenceConsumesResourceQuota current.lifecycle ∨
        ConferenceRoom s.serviceResourceQuotaPolicies s.toConferenceTables key.1 current.integrationId) :
    WritesConferences s (s.editConference key next).2 := by
  simp only [editConference]
  split
  case h_1 => exact .of_write (.edited key current next hstored hsame hroom)
  case h_2 revision _ =>
    exact .of_write (.edited key current { next with revision := revision } hstored
      ⟨hsame.key, hsame.external, hsame.idempotency⟩ hroom)

theorem replaceUniversalConferenceMetadata_writes :
    WritesConferences s (s.replaceUniversalConferenceMetadata scope conferenceId expectedRevision
      metadata).2 := by
  simp only [replaceUniversalConferenceMetadata]
  split
  case h_1 => exact .refl
  case h_2 current metadata hcurrent =>
    repeat' split
    · exact .refl
    · exact .refl
    · simp only [conferenceAndMetadata, ok_iff, Prod.mk.injEq]
        at hcurrent
      obtain ⟨_, -, _, hstored, rfl, rfl⟩ := hcurrent
      exact editConference_writes hstored ⟨rfl, rfl, rfl⟩ .inl

theorem transitionUniversalConference_writes :
    WritesConferences s (s.transitionUniversalConference scope conferenceId expectedRevision lifecycle
      entryOpen).2 := by
  simp only [transitionUniversalConference]
  split
  case h_1 => exact .refl
  case h_2 current hstored =>
    split
    · exact .refl
    · split
      case h_1 => exact .refl
      case h_2 hcheck =>
        simp only [checkConferenceTransition, ok_iff, exists_const] at hcheck
        exact editConference_writes hstored ⟨rfl, rfl, rfl⟩ (ensureQuotaForTransition_ok hcheck.2)

-- A call that carries an event does nothing, or appends the event of a transition made before, or
-- makes the transition. What is written without its event is put back.
theorem transitionUniversalConferenceWithEvent_cases :
    let s' := (s.transitionUniversalConferenceWithEvent scope conferenceId expectedRevision lifecycle
      entryOpen event?).2
    s' = s ∨ ∃ current, s.universalConferences.get (scope, conferenceId) = some current ∧
      validateConferenceLifecycleEvent current expectedRevision lifecycle event? = .ok () ∧
      (transitionApplied current expectedRevision lifecycle entryOpen ∧
          s.appendOptionalEvent event? = .ok s' ∨
        ¬transitionApplied current expectedRevision lifecycle entryOpen ∧ ∃ revision,
          s.nextConferenceRevision current scope expectedRevision lifecycle event? = .ok revision ∧
          appendOptionalEvent { s with
            universalConferences := s.universalConferences.put (scope, conferenceId)
              { current with lifecycle, entryOpen, revision } } event? = .ok s') := by
  simp only [transitionUniversalConferenceWithEvent]
  split
  case h_1 => exact .inl rfl
  case h_2 current hstored =>
    split
    case h_1 => exact .inl rfl
    case h_2 hvalid =>
      split
      case isTrue happlied =>
        split
        case h_1 => exact .inl rfl
        case h_2 happended => exact .inr ⟨current, hstored, hvalid, .inl ⟨happlied, happended⟩⟩
      case isFalse happlied =>
        split
        case h_1 => exact .inl rfl
        case h_2 revision hrevision =>
          split
          case h_1 happended =>
            exact .inr ⟨current, hstored, hvalid, .inr ⟨happlied, revision, hrevision, happended⟩⟩
          case h_2 =>
            left
            dsimp only
            rw [Table.put_put_of_get hstored]

theorem transitionUniversalConferenceWithEvent_writes :
    WritesConferences s (s.transitionUniversalConferenceWithEvent scope conferenceId expectedRevision
      lifecycle entryOpen event?).2 := by
  obtain hsame | ⟨current, hstored, -, ⟨-, happended⟩ | ⟨-, revision, hrevision, happended⟩⟩ :=
    @transitionUniversalConferenceWithEvent_cases s scope conferenceId expectedRevision entryOpen
      lifecycle event?
  · exact hsame.symm ▸ .refl
  · exact ⟨_, event?, .nothing, happended⟩
  · simp only [nextConferenceRevision, ok_iff, exists_const] at hrevision
    obtain ⟨-, _, hquota, -⟩ := hrevision
    exact ⟨_, event?, .edited _ current { current with lifecycle, entryOpen, revision } hstored
      ⟨rfl, rfl, rfl⟩ (ensureQuotaForTransition_ok hquota), happended⟩

theorem persistUniversalConferenceParticipant_writes {participant status}
    (h : s.persistUniversalConferenceParticipant participant = .ok (status, s')) :
    WritesConferences s s' := by
  simp only [persistUniversalConferenceParticipant, ok_iff, exists_const] at h
  obtain ⟨-, -, h⟩ := h
  split at h
  case h_1 =>
    simp only [ok_iff, exists_const] at h
    obtain ⟨-, -, rfl⟩ := h
    exact .refl
  case h_2 hnone =>
    simp only [orElse_eq_none, List.find?_eq_none] at hnone
    obtain ⟨hfresh, huser⟩ := hnone
    have huser : ∀ existing ∈ s.universalConferenceParticipants.values,
        existing.external ≠ participant.external := by
      intro existing hmem heq
      simp only [external, conferenceKey, Prod.mk.injEq] at heq
      exact huser existing hmem (by simp [heq])
    split at h
    case isTrue hactive =>
      simp only [ok_iff, exists_const] at h
      obtain ⟨_, hroom, howner, -, rfl⟩ := h
      refine .of_write (.joined participant hfresh huser (fun _ => ensureParticipantRoom_ok hroom) ?_)
      exact fun hactive hrole =>
        ownerFree_of_noConflict fun hconflict => howner ⟨hactive, hrole, hconflict⟩
    case isFalse hinactive =>
      simp only [ok_iff, exists_const] at h
      obtain ⟨-, -, rfl⟩ := h
      exact .of_write (.joined participant hfresh huser (fun hactive => absurd hactive hinactive)
        fun hactive => absurd hactive hinactive)

theorem checkParticipantUpdate_ok {current}
    (h : s.checkParticipantUpdate scope conferenceId participant policy = .ok current) :
    s.universalConferenceParticipants.get ((scope, conferenceId), participant) = some current ∧
      (policy.active → current.active ∨ ParticipantRoom s.serviceResourceQuotaPolicies
        s.toConferenceTables scope conferenceId current.integrationId) ∧
      (policy.active → policy.role = .owner →
        ¬s.hasConflictingActiveConferenceOwner scope conferenceId participant) := by
  simp only [checkParticipantUpdate, ok_iff] at h
  obtain ⟨stored, hstored, h⟩ := h
  split at h
  case isTrue =>
    simp only [ok_iff, exists_const] at h
    obtain ⟨_, hroom, howner, rfl⟩ := h
    exact ⟨hstored, fun _ => .inr (ensureParticipantRoom_ok hroom),
      fun hactive hrole hconflict => howner ⟨hactive, hrole, hconflict⟩⟩
  case isFalse hnot =>
    simp only [ok_iff, exists_const] at h
    obtain ⟨howner, rfl⟩ := h
    exact ⟨hstored, fun hactive => .inl (by simpa [hactive] using hnot),
      fun hactive hrole hconflict => howner ⟨hactive, hrole, hconflict⟩⟩

theorem updateUniversalConferenceParticipant_writes :
    WritesConferences s (s.updateUniversalConferenceParticipant scope conferenceId participant
      expectedRevision policy).2 := by
  simp only [updateUniversalConferenceParticipant]
  split
  case h_1 => exact .refl
  case h_2 current hcheck =>
    obtain ⟨hstored, hroom, howner⟩ := checkParticipantUpdate_ok hcheck
    have hfree (hactive : policy.active) (hrole : policy.role = .owner) :=
      ownerFree_of_noConflict (howner hactive hrole)
    repeat' split
    · exact .refl
    · exact .refl
    · exact .of_write (.updated _ current _ hstored rfl rfl hroom hfree)
    · exact .of_write (.updated _ current _ hstored rfl rfl hroom hfree)

theorem conferenceOp_writes (op : ConferenceOp) : WritesConferences s (op.run s) := by
  cases op
  case persistUniversalConferenceProfile profile =>
    exact commit_snd_cases .refl fun _ _ => persistUniversalConferenceProfile_writes
  case replaceUniversalConferenceMetadata => exact replaceUniversalConferenceMetadata_writes
  case transitionUniversalConference => exact transitionUniversalConference_writes
  case transitionUniversalConferenceWithEvent => exact transitionUniversalConferenceWithEvent_writes
  case persistUniversalConferenceParticipant =>
    exact commit_snd_cases .refl fun _ _ => persistUniversalConferenceParticipant_writes
  case updateUniversalConferenceParticipant => exact updateUniversalConferenceParticipant_writes

end Operations

end Ucr
