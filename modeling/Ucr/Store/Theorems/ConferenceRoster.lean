import Ucr.Store.Theorems.ConferenceStore

-- The limits on conferences and their participants are checked where something changes, by
-- counting. They hold in every store, because every change is one of a few writes and each of them
-- was checked.

namespace Ucr

open Except MemoryState Table Option

-- An index names conferences that exist, each of them once.
structure Indexes {κ : Type} [DecidableEq κ] (index : Table κ ScopedId)
    (conferences : Table ScopedId UniversalConferenceProfile) : Prop where
  exist     : ∀ k key, index.get k = some key → (conferences.get key).isSome
  injective : ∀ k k' key, index.get k = some key → index.get k' = some key → k = k'

structure WithinLimits (policies : QuotaPolicies) (t : ConferenceTables) : Prop where
  owners : ∀ scope conferenceId,
    t.universalConferenceParticipants.values.countP (ownerIn scope conferenceId) ≤ 1
  participants : ∀ scope conferenceId,
    t.universalConferenceParticipants.values.countP (activeIn scope conferenceId) ≤
      maxUniversalConferenceParticipants
  users : ∀ k k' p p', t.universalConferenceParticipants.get k = some p →
    t.universalConferenceParticipants.get k' = some p' → p.external = p'.external → k = k'
  external     : Indexes t.universalConferenceExternal t.universalConferences
  idempotency  : Indexes t.universalConferenceIdempotency t.universalConferences
  participantQuota : ∀ scope integrationId policy, policies.get (scope, integrationId) = some policy →
    t.universalConferenceParticipants.values.countP (activeFor scope integrationId) ≤
      policy.maxConcurrentParticipants.val
  conferenceQuota  : ∀ scope integrationId policy limit,
    policies.get (scope, integrationId) = some policy → policy.maxConcurrentConferences = some limit →
    t.universalConferences.values.countP (busyFor scope integrationId) ≤ limit.val

section Invariant

open UniversalConferenceParticipantProfile (external conferenceKey)

variable {policies : QuotaPolicies} {t : ConferenceTables} {κ : Type} [DecidableEq κ]
  {f : UniversalConferenceProfile → κ} {index : Table κ ScopedId}
  {conferences : Table ScopedId UniversalConferenceProfile} {key : ScopedId}
  {profile next : UniversalConferenceProfile} {participant : UniversalConferenceParticipantProfile}

def Names (f : UniversalConferenceProfile → κ) (index : Table κ ScopedId)
    (conferences : Table ScopedId UniversalConferenceProfile) : Prop :=
  ∀ k key, index.get k = some key → ∃ profile, conferences.get key = some profile ∧ f profile = k

theorem Names.indexes (h : Names f index conferences) : Indexes index conferences where
  exist k key hk := by
    obtain ⟨profile, hprofile, -⟩ := h k key hk
    rw [hprofile]
    rfl
  injective k k' key hk hk' := by
    obtain ⟨profile, hprofile, rfl⟩ := h k key hk
    obtain ⟨profile', hprofile', rfl⟩ := h k' key hk'
    rw [mem_unique hprofile hprofile']

theorem Names.created (h : Names f index conferences) (hfresh : conferences.get key = none) :
    Names f (index.put (f profile) key) (conferences.put key profile) := by
  refine forall_put (fun k key' hk => ?_) ⟨profile, get_put_self, rfl⟩
  obtain ⟨profile', hprofile', rfl⟩ := h k key' hk
  exact ⟨profile', get_put_of_free hfresh hprofile', rfl⟩

theorem Names.edited (h : Names f index conferences) (hstored : conferences.get key = some current)
    (hsame : f next = f current) : Names f index (conferences.put key next) := by
  intro k key' hk
  obtain ⟨profile, hprofile, rfl⟩ := h k key' hk
  by_cases heq : key' = key
  case pos =>
    subst heq
    obtain rfl := mem_unique hstored hprofile
    exact ⟨next, get_put_self, hsame⟩
  case neg => exact ⟨profile, (get_put_ne heq).trans hprofile, rfl⟩

structure Consistent (policies : QuotaPolicies) (t : ConferenceTables) : Prop
    extends WithinLimits policies t where
  conferenceKeys   : ∀ k profile, t.universalConferences.get k = some profile → profile.key = k
  participantKeys  : ∀ k participant,
    t.universalConferenceParticipants.get k = some participant → participant.key = k
  externalNames    : Names UniversalConferenceProfile.externalKey t.universalConferenceExternal
    t.universalConferences
  idempotencyNames : Names UniversalConferenceProfile.idempotencyKey t.universalConferenceIdempotency
    t.universalConferences

theorem Consistent.conferenceQuota_put (h : Consistent policies t)
    (hroom : conferenceConsumesResourceQuota next.lifecycle →
      ((t.universalConferences.get key).any fun old => old.scope = next.scope &&
        old.integrationId = next.integrationId && conferenceConsumesResourceQuota old.lifecycle) ∨
      ConferenceRoom policies t next.scope next.integrationId) (scope : TenantScope)
    (integrationId : IntegrationId) (policy : ServiceResourceQuotaPolicy) (limit : U64)
    (hpolicy : policies.get (scope, integrationId) = some policy)
    (hlimit : policy.maxConcurrentConferences = some limit) :
    (t.universalConferences.put key next).values.countP (busyFor scope integrationId) ≤ limit.val := by
  refine countP_put_le (h.conferenceQuota scope integrationId policy limit hpolicy hlimit)
    fun hbusy => ?_
  simp only [busyFor, Bool.and_eq_true, decide_eq_true_eq] at hbusy
  obtain ⟨⟨rfl, rfl⟩, hconsumes⟩ := hbusy
  exact (hroom hconsumes).imp_right fun hfree => hfree policy limit hpolicy hlimit

-- A participant is written who is not somebody else.
theorem Consistent.putParticipant (h : Consistent policies t)
    (huser : ∀ k old, t.universalConferenceParticipants.get k = some old →
      (old.external = participant.external ↔ k = participant.key))
    (hroom : participant.active →
      (t.universalConferenceParticipants.get participant.key).any (·.active) ∨
      ParticipantRoom policies t participant.scope participant.conferenceId participant.integrationId)
    (howner : participant.active → participant.role = .owner → OwnerFree t participant.key) :
    Consistent policies { t with universalConferenceParticipants :=
      t.universalConferenceParticipants.put participant.key participant } where
  __ := h
  owners scope conferenceId := by
    refine countP_put_le (h.owners scope conferenceId) fun hcounts => ?_
    simp only [ownerIn, activeIn, Bool.and_eq_true, decide_eq_true_eq] at hcounts
    obtain ⟨⟨⟨rfl, rfl⟩, hactive⟩, hrole⟩ := hcounts
    -- An owner who is there is the participant themselves.
    by_cases hexists : ∃ existing ∈ t.universalConferenceParticipants.values,
        ownerIn participant.scope participant.conferenceId existing
    case neg =>
      refine .inr (Nat.lt_one_iff.mpr (List.countP_eq_zero.mpr fun existing hmem hcounts => ?_))
      exact hexists ⟨existing, hmem, hcounts⟩
    case pos =>
      obtain ⟨existing, hmem, hcounts⟩ := hexists
      obtain ⟨k, hk⟩ := mem_values.mp hmem
      have hsame := howner hactive hrole existing hmem hcounts
      have hkey : participant.key = k := by
        rw [← h.participantKeys k existing hk]
        simp only [ownerIn, activeIn, Bool.and_eq_true, decide_eq_true_eq] at hcounts
        simp [UniversalConferenceParticipantProfile.key,
          UniversalConferenceParticipantProfile.conferenceKey, hcounts.1.1, hsame]
      left
      rw [hkey, hk]
      exact hcounts
  participants scope conferenceId := by
    refine countP_put_le (h.participants scope conferenceId) fun hcounts => ?_
    simp only [activeIn, Bool.and_eq_true, decide_eq_true_eq] at hcounts
    obtain ⟨⟨rfl, rfl⟩, hactive⟩ := hcounts
    refine (hroom hactive).imp (fun hold => ?_) (·.conference)
    obtain ⟨old, hstored, hactive⟩ := (any_eq_true _ _).mp hold
    have hsame := (huser _ old hstored).mpr rfl
    simp only [external, conferenceKey, Prod.mk.injEq] at hsame
    simp [hstored, activeIn, hsame, hactive]
  users k k' p p' hk hk' hsame := by
    rw [get_put] at hk hk'
    split at hk <;> split at hk'
    case isTrue.isTrue heq heq' => rw [heq, heq']
    case isTrue.isFalse heq hne =>
      obtain rfl := Option.some.inj hk
      exact absurd ((huser k' p' hk').mp hsame.symm) hne
    case isFalse.isTrue hne heq =>
      obtain rfl := Option.some.inj hk'
      exact absurd ((huser k p hk).mp hsame) hne
    case isFalse.isFalse => exact h.users k k' p p' hk hk' hsame
  participantQuota scope integrationId policy hpolicy := by
    refine countP_put_le (h.participantQuota scope integrationId policy hpolicy) fun hcounts => ?_
    simp only [activeFor, Bool.and_eq_true, decide_eq_true_eq] at hcounts
    obtain ⟨⟨rfl, rfl⟩, hactive⟩ := hcounts
    refine (hroom hactive).imp (fun hold => ?_) (·.integration policy hpolicy)
    obtain ⟨old, hstored, hactive⟩ := (any_eq_true _ _).mp hold
    have hsame := (huser _ old hstored).mpr rfl
    simp only [external, conferenceKey, Prod.mk.injEq] at hsame
    simp [hstored, activeFor, hsame, hactive]
  participantKeys := forall_put h.participantKeys rfl

theorem Consistent.write (h : Consistent policies t) (hwrite : ConferenceWrite policies t t') :
    Consistent policies t' := by
  cases hwrite
  case nothing => exact h
  case created profile hfresh hexternal hidempotency hroom =>
    have hexternal' := @Names.created _ _ _ _ _ _ profile h.externalNames hfresh
    have hidempotency' := @Names.created _ _ _ _ _ _ profile h.idempotencyNames hfresh
    exact { h with
      external := hexternal'.indexes
      idempotency := hidempotency'.indexes
      conferenceQuota := h.conferenceQuota_put fun hconsumes => .inr (hroom hconsumes)
      conferenceKeys := forall_put h.conferenceKeys rfl
      externalNames := hexternal'
      idempotencyNames := hidempotency' }
  case edited key current next hstored hsame hroom =>
    have hexternal := h.externalNames.edited hstored hsame.external
    have hidempotency := h.idempotencyNames.edited hstored hsame.idempotency
    have hkey := h.conferenceKeys key current hstored
    exact { h with
      external := hexternal.indexes
      idempotency := hidempotency.indexes
      conferenceQuota := by
        refine h.conferenceQuota_put fun hconsumes => ?_
        have hids := hsame.external
        simp only [UniversalConferenceProfile.externalKey, Prod.mk.injEq] at hids
        refine (hroom hconsumes).imp (fun hold => ?_) fun hfree => ?_
        · simp [hstored, hids, hold]
        · rw [← hkey] at hfree
          rwa [hids.1, hids.2.1]
      conferenceKeys   := forall_put h.conferenceKeys (hsame.key.trans hkey)
      externalNames    := hexternal
      idempotencyNames := hidempotency }
  case joined participant hfresh huser hroom howner =>
    refine h.putParticipant (fun k old hold => ?_) (fun hactive => .inr (hroom hactive)) howner
    refine iff_of_false (huser old (get_mem_values hold)) ?_
    rintro rfl
    rw [hfresh] at hold
    cases hold
  case updated key current next hstored hsame hexternal hroom howner =>
    have hkey : next.key = key := hsame.trans (h.participantKeys key current hstored)
    subst hkey
    refine h.putParticipant (fun k old hold => ⟨fun heq => ?_, ?_⟩) (fun hactive => ?_) howner
    · exact h.users k _ old current hold hstored (heq.trans hexternal)
    · rintro rfl
      rw [← mem_unique hstored hold, hexternal]
    · have hids := hexternal
      simp only [external, Prod.mk.injEq] at hids
      refine (hroom hactive).imp (fun hold => ?_) fun hfree => ?_
      · simp [hstored, hold]
      · rw [hids.2.1]
        exact hfree

end Invariant

section Runs

open UniversalConferenceParticipantProfile (external conferenceKey)

variable {s : MemoryState} {policies : QuotaPolicies}

theorem consistent_empty : Consistent policies empty.toConferenceTables where
  owners := by simp [empty]
  participants := by simp [empty]
  users := by simp [empty]
  external := ⟨by simp [empty], by simp [empty]⟩
  idempotency := ⟨by simp [empty], by simp [empty]⟩
  participantQuota := by simp [empty]
  conferenceQuota := by simp [empty]
  conferenceKeys := by simp [empty]
  participantKeys := by simp [empty]
  externalNames := by simp [empty, Names]
  idempotencyNames := by simp [empty, Names]

theorem consistent_foldl {ops : List ConferenceOp}
    (h : Consistent s.serviceResourceQuotaPolicies s.toConferenceTables) :
    let s' := ops.foldl ConferenceOp.run s
    s'.serviceResourceQuotaPolicies = s.serviceResourceQuotaPolicies ∧
      Consistent s.serviceResourceQuotaPolicies s'.toConferenceTables := by
  induction ops generalizing s
  case nil => exact ⟨rfl, h⟩
  case cons op ops ih =>
    have hwrites := @conferenceOp_writes s op
    have hnext := h.write hwrites.tables
    rw [← hwrites.policies] at hnext ⊢
    exact ih hnext

-- Two participants of one external user would be found under one key.
theorem forExternal_ne_corrupt (h : Consistent policies s.toConferenceTables) (scope : TenantScope)
    (conferenceId : GroupId) (integrationId : IntegrationId) (externalUserId : Bytes) :
    s.universalConferenceParticipantForExternal scope conferenceId integrationId externalUserId ≠
      .error .corrupt := by
  have hone := @countP_le_one _ _ _ s.universalConferenceParticipants (fun profile =>
    profile.scope = scope && profile.conferenceId = conferenceId &&
      profile.integrationId = integrationId && profile.externalUserId = externalUserId)
    fun k k' p p' hk hk' hp hp' => by
      simp only [Bool.and_eq_true, decide_eq_true_eq] at hp hp'
      exact h.users k k' p p' hk hk' (by simp [external, conferenceKey, hp, hp'])
  rw [List.countP_eq_length_filter] at hone
  intro hcorrupt
  simp only [universalConferenceParticipantForExternal, bind_eq_error, rejectIf_eq_error, ok_iff,
    exists_const, pure_ne_error, and_false, or_false, reduceCtorEq, false_or] at hcorrupt
  omega

theorem conference_limits_hold (policies : QuotaPolicies) (ops : List ConferenceOp) :
    let s := ops.foldl ConferenceOp.run
      { empty with serviceResourceQuotaPolicies := policies }
    WithinLimits policies s.toConferenceTables ∧
      ∀ scope conferenceId integrationId externalUserId,
        s.universalConferenceParticipantForExternal scope conferenceId integrationId externalUserId ≠
          .error .corrupt := by
  have hrun := @consistent_foldl { empty with serviceResourceQuotaPolicies := policies } ops
    consistent_empty
  exact ⟨hrun.2.toWithinLimits, forExternal_ne_corrupt hrun.2⟩

end Runs

end Ucr
