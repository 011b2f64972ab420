import Ucr.Store.Theorems.GroupCalls

-- Hanging up a direct call: what becomes of its media call and of the grants that admit to it.

namespace Ucr

open Except Relation MemoryState Option Table

variable {s s' : MemoryState} {cause : Cause} {scope : TenantScope} {callId : CallId}
  {signal : CallSignal} {actor : ScopedPrincipal} {status : DurableRecordStatus}

def CallSignalKind.ends : CallSignalKind → Bool
  | .cancel | .timeout | .terminate _ => true
  | _ => false

theorem CallSignalKind.ends_of_isTerminate {kind : CallSignalKind} (h : kind.isTerminate) :
    kind.ends := by
  cases kind <;> simp_all [isTerminate, ends]

theorem ends_of_derivedTermination (h : derivedTermination state = some kind) :
    kind.ends := by
  cases state <;>
    simp only [derivedTermination, Option.some.injEq, reduceCtorEq] at h <;>
    subst h <;> rfl

theorem terminated_of_ends (hends : signal.kind.ends)
    (h : applyCallSignal call actorScope principal signal = .ok next) :
    next.signallingState = .terminated := by
  simp only [applyCallSignal, callSignalTransition, ok_iff] at h
  obtain ⟨_, ⟨c, -, -, -, -, -, -, -, -, -, -, -, _, -, _, -, body, hbody, rfl⟩, hcanonical⟩ := h
  obtain ⟨-, rfl⟩ := canonicalCallSession_eq_ok.mp hcanonical
  suffices body.signallingState = .terminated from this
  cases hkind : signal.kind <;> simp only [hkind, CallSignalKind.ends, Bool.false_eq_true] at hends
  case cancel | timeout =>
    simp only [hkind, applyCallSignalKind, applyPreAcceptTermination, ok_iff]
      at hbody
    obtain ⟨-, -, rfl⟩ := hbody
    rfl
  case terminate =>
    simp only [hkind, applyCallSignalKind, applyExplicitTermination, ok_iff]
      at hbody
    obtain ⟨-, -, _, -, -, -, rfl⟩ := hbody
    rfl

-- No other signal asked for has the fingerprint of the given one.
def Cause.Apart (cause : Cause) (signal : CallSignal) : Prop :=
  ∀ other ∈ cause.signals, callSignalFingerprint other = callSignalFingerprint signal →
    other = signal

-- No signal an operation asks for is mistaken for one of the given signals.
def SignalsApart (signals : List CallSignal) (s : MemoryState) (op : StoreOp) : Prop :=
  ∀ signal ∈ signals, (op.cause s).Apart signal

instance {signals : List CallSignal} {s : MemoryState} {op : StoreOp} :
    Decidable (SignalsApart signals s op) :=
  inferInstanceAs (Decidable (∀ signal ∈ signals, ∀ other ∈ (op.cause s).signals,
    callSignalFingerprint other = callSignalFingerprint signal → other = signal))

namespace MemoryState

def Ended (s : MemoryState) (scope : TenantScope) (callId : CallId) : Prop :=
  ∃ call, s.calls.get (scope, callId) = some call ∧ call.signallingState = .terminated

def NotRunning (s : MemoryState) (scope : TenantScope) (callId : CallId) : Prop :=
  ∀ call, s.calls.get (scope, callId) = some call → call.signallingState = .terminated

variable {created : List ScopedId}

theorem CallChange.ended (hs : s.CallsSound)
    (h : s.CallChange created s' (scope, callId)) (hended : s.Ended scope callId) :
    s'.Ended scope callId := by
  obtain ⟨call, hcall, hterminated⟩ := hended
  cases h
  case absent hbefore _ _ => simp [hbefore] at hcall
  case created hbefore _ _ _ _ => simp [hbefore] at hcall
  case run _ next hbefore hafter steps _ =>
    obtain rfl := mem_unique hbefore hcall
    obtain ⟨hcanonical, -⟩ := hs.stored _ _ hbefore
    have hsame := (CallRun.preserves hcanonical steps).terminated hterminated
    exact ⟨next, hafter, hsame ▸ hterminated⟩

theorem CallChange.notRunning (hs : s.CallsSound) (h : s.CallChange created s' (scope, callId))
    (hcreated : s.calls.get (scope, callId) = none → (scope, callId) ∉ created)
    (hover : s.NotRunning scope callId) : s'.NotRunning scope callId := by
  intro call hcall
  cases hbefore : s.calls.get (scope, callId)
  case some before =>
    obtain ⟨_, hcall', hterminated⟩ := h.ended hs ⟨before, hbefore, hover before hbefore⟩
    obtain rfl := mem_unique hcall' hcall
    exact hterminated
  case none =>
    cases h
    case absent hafter _ => simp [hafter] at hcall
    case run hrun _ _ _ => simp [hrun] at hbefore
    case created asked _ _ _ _ _ => exact absurd asked (hcreated hbefore)

theorem Effect.ended (h : s.Effect cause s') (hs : s.CallsSound) (hended : s.Ended scope callId) :
    s'.Ended scope callId :=
  (h.callChange hs _).ended hs hended

-- A signal that ends its call and is on record has done so.
def RecordedEnds (s : MemoryState) (signal : CallSignal) : Prop :=
  ∀ principal revision, s.callSignals.get (signal.scope, signal.eventId) =
    some (principal, callSignalFingerprint signal, revision) → s.Ended signal.scope signal.callId

theorem Effect.recordedEnds (h : s.Effect cause s') (hs : s.CallsSound)
    (hends : signal.kind.ends) (hapart : cause.Apart signal) (hrecorded : s.RecordedEnds signal) :
    s'.RecordedEnds signal := by
  intro principal revision hget
  have hbefore : s.callSignals.get (signal.scope, signal.eventId) =
      some (principal, callSignalFingerprint signal, revision) →
        s'.Ended signal.scope signal.callId :=
    fun hget => h.ended hs (hrecorded principal revision hget)
  cases h
  case other same _ _ => exact hbefore (same.signals ▸ hget)
  case callSignalled actor other current next asked stored _ _ applied =>
    simp only [recordSignal, get_put] at hget
    split at hget
    case isFalse => exact hbefore hget
    case isTrue =>
      simp only [Option.some.injEq, Prod.mk.injEq] at hget
      obtain rfl := hapart other asked hget.2.1
      exact ⟨next, get_put_self, terminated_of_ends hends applied⟩
  all_goals exact hbefore hget

theorem GroupEffect.recordedEnds (h : s.GroupEffect s') (hs : s.CallsSound)
    (hrecorded : s.RecordedEnds signal) : s'.RecordedEnds signal := by
  have hsignals : s'.callSignals = s.callSignals := by cases h <;> rfl
  intro principal revision hget
  rw [hsignals] at hget
  have hchange : s.CallChange [] s' (signal.scope, signal.callId) := h.callChange _
  exact hchange.ended hs (hrecorded principal revision hget)

theorem recordedEnds_of_run (hends : signal.kind.ends)
    (hrun : StoreRunWhere (fun s op => (op.cause s).Apart signal) .empty s) :
    s.RecordedEnds signal := by
  refine hrun.induction .refl (by simp [RecordedEnds, MemoryState.empty]) fun t op ht hapart ih => ?_
  refine run_induction (Q := (·.RecordedEnds signal)) ht.attainable op (fun a b hsame ha => ?_)
    (fun a b ha heffect => ?_) (fun a b ha heffect => ?_) ih
  · simpa only [RecordedEnds, Ended, hsame.signals, hsame.calls] using ha
  · exact heffect.recordedEnds ha.callsSound hends hapart
  · exact heffect.recordedEnds ha.callsSound

theorem Effects.ended (hs : s.Attainable) (h : s.Effects cause s') (hended : s.Ended scope callId) :
    s'.Ended scope callId :=
  (h.induction hs (fun _ _ ha heffect => heffect.ended ha.callsSound) hended).2

theorem Effects.recordedEnds (hs : s.Attainable) (h : s.Effects cause s')
    (hends : signal.kind.ends) (hapart : cause.Apart signal) (hrecorded : s.RecordedEnds signal) :
    s'.RecordedEnds signal :=
  (h.induction hs (fun _ _ ha heffect => heffect.recordedEnds ha.callsSound hends hapart)
    hrecorded).2

-- Accepting a signal that ends its call ends it, now or when it was recorded.
theorem ended_of_applyCallSignalInState (hends : signal.kind.ends)
    (hrecorded : s.RecordedEnds signal)
    (h : s.applyCallSignalInState actor signal = .ok (status, s')) :
    s'.Ended signal.scope signal.callId := by
  obtain ⟨current, -, -, ⟨-, rfl, revision, hget⟩ | ⟨-, -, -, next, happlied, rfl⟩⟩ :=
    applyCallSignalInState_spec h
  · exact hrecorded actor.principal revision hget
  · exact ⟨next, get_put_self, terminated_of_ends hends happlied⟩

theorem ends_of_mem_derivedSignals (h : signal ∈ s.derivedSignals scope callId eventId) :
    signal.kind.ends := by
  unfold derivedSignals at h
  split at h
  case h_1 => simp at h
  case h_2 media _ =>
    simp only [List.mem_map, mem_toList] at h
    obtain ⟨kind, hkind, rfl⟩ := h
    exact ends_of_derivedTermination hkind

theorem notRunning_of_terminateDerived
    (hrecorded : ∀ other ∈ s.derivedSignals direct.scope callId eventId, s.RecordedEnds other)
    (h : s.terminateDerived direct callId eventId = .ok s') :
    s'.NotRunning direct.scope callId := by
  obtain ⟨rfl, hover⟩ | ⟨stored, kind, status, hstored, hkind, happlied⟩ := terminateDerived_spec h
  · exact hover
  · have hmem : derivedSignal direct.scope callId eventId stored.revision kind ∈
        s.derivedSignals direct.scope callId eventId := by
      simp [derivedSignals, hstored, hkind]
    obtain ⟨call, hcall, hterminated⟩ := ended_of_applyCallSignalInState
      (ends_of_derivedTermination hkind) (hrecorded _ hmem) happlied
    intro call' hcall'
    exact mem_unique hcall hcall' ▸ hterminated

-- The media call after a hang-up that went through.
theorem hangUp_spec (cause : Cause) (hs : s.Attainable) (hsignal : signal ∈ cause.signals)
    (hderived : s.derivedSignals signal.scope callId eventId ⊆ cause.signals)
    (hapart : ∀ other ∈ cause.signals, cause.Apart other)
    (hrecorded : ∀ other ∈ cause.signals, other.kind.ends → s.RecordedEnds other)
    (hdirect : s.requireDirectCall actor signal callId = .ok direct)
    (happlied : s.applyCallSignalInState actor signal = .ok (status, s₁))
    (hsecond : status = .duplicate ∧ s₂ = s₁ ∨
      status = .persisted ∧ s₁.terminateDerived direct callId eventId = .ok s₂) :
    s₂.Ended signal.scope signal.callId ∧
      (s₂.NotRunning signal.scope callId ↔
        s.callSignals.get (signal.scope, signal.eventId) = none ∨
          s.NotRunning signal.scope callId) := by
  obtain ⟨hvalid, hkind, hne⟩ := requireDirectCall_spec hdirect
  obtain ⟨hscope, -⟩ := hs.keyed.validated hvalid
  have hends := CallSignalKind.ends_of_isTerminate hkind
  have heffects := applyCallSignalInState_effects hsignal happlied
  have hended := ended_of_applyCallSignalInState hends (hrecorded signal hsignal hends) happlied
  obtain ⟨_, -, -, hcases⟩ := applyCallSignalInState_spec happlied
  obtain ⟨rfl, rfl⟩ | ⟨rfl, hsecond⟩ := hsecond
  -- Recorded before: the media call is not looked at.
  · obtain ⟨-, rfl, revision, hget⟩ | ⟨hstatus, -⟩ := hcases
    · exact ⟨hended, by simp [hget]⟩
    · cases hstatus
  · obtain ⟨hstatus, -⟩ | ⟨-, hunused, -, next, -, rfl⟩ := hcases
    · cases hstatus
    · rw [← derivedSignals_recordSignal hne, ← hscope] at hderived
      refine ⟨?_, iff_of_true ?_ (.inl hunused.signals)⟩
      · exact Effects.ended (hs.trans heffects.transitions)
          (terminateDerived_effects hderived hsecond) hended
      · rw [← hscope]
        refine notRunning_of_terminateDerived (fun other hother => ?_) hsecond
        have hmem := hderived hother
        have hends' := ends_of_mem_derivedSignals hother
        exact heffects.recordedEnds hs hends' (hapart other hmem) (hrecorded other hmem hends')

-- No grant admits to the media of the call any more.
structure ShutOut (s : MemoryState) (scope : TenantScope) (callId : CallId) : Prop where
  stopped : s.NotRunning scope callId
  revoked : ∀ key grant, s.conferenceJoinGrants.get key = some grant →
    isFirstPartyDerivedJoin scope callId grant → grant.revoked

-- Operations that do not create the call anew.
def KeepsAbsent (cause : Cause) (scope : TenantScope) (callId : CallId) (s : MemoryState) : Prop :=
  s.calls.get (scope, callId) = none → (scope, callId) ∉ cause.calls

theorem CallChange.keepsAbsent
    (h : s.CallChange created s' (scope, callId)) (hkeeps : KeepsAbsent cause scope callId s) :
    KeepsAbsent cause scope callId s' := by
  intro hafter
  cases h
  case absent hbefore _ _ => exact hkeeps hbefore
  case run hsome _ _ => simp [hafter] at hsome
  case created hsome _ _ => simp [hafter] at hsome

variable {grant : ConferenceJoinGrantRecord}

-- A grant for the media of a direct call shows that the media call is running.
theorem requireFirstPartyMedia_running (h : s.requireFirstPartyMedia grant = .ok ())
    (hjoin : isFirstPartyDerivedJoin scope callId grant) : ¬s.NotRunning scope callId := by
  simp only [isFirstPartyDerivedJoin, Bool.and_eq_true, decide_eq_true_eq] at hjoin
  obtain ⟨⟨rfl, rfl⟩, hparty⟩ := hjoin
  simp only [requireFirstPartyMedia, hparty, ne_eq, not_true_eq_false, if_false, ok_iff, not_or] at h
  obtain ⟨media, hmedia, -, -, -, hrunning, -⟩ := h
  exact fun hover => hrunning (hover media hmedia)

theorem GrantsDecay.isFirstPartyDerivedJoin
    (hsame : grant'.scope = grant.scope ∧ grant'.callId = grant.callId ∧
      grant'.integrationId = grant.integrationId)
    (hjoin : isFirstPartyDerivedJoin scope callId grant') :
    MemoryState.isFirstPartyDerivedJoin scope callId grant := by
  simpa only [MemoryState.isFirstPartyDerivedJoin, hsame] using hjoin

theorem Effect.shutOut (h : s.Effect cause s') (hs : s.CallsSound)
    (hkeeps : KeepsAbsent cause scope callId s) (hshut : s.ShutOut scope callId) :
    s'.ShutOut scope callId where
  stopped := (h.callChange hs _).notRunning hs hkeeps hshut.stopped
  revoked key grant hget hjoin := by
    cases h
    case other same _ _ => exact hshut.revoked key grant (same.grants ▸ hget) hjoin
    case grantIssued issued allowed =>
      refine forall_put hshut.revoked (fun hjoin => ?_) key grant hget hjoin
      exact absurd hshut.stopped (requireFirstPartyMedia_running allowed hjoin)
    case grantsDecayed grants decay =>
      by_contra hvalid
      obtain ⟨before, hbefore, hdecay⟩ := decay key grant hget
      obtain ⟨hvalid', hsame⟩ := hdecay hvalid
      exact hvalid' (hshut.revoked key before hbefore (GrantsDecay.isFirstPartyDerivedJoin hsame hjoin))
    all_goals exact hshut.revoked key grant hget hjoin

theorem GroupEffect.shutOut (h : s.GroupEffect s') (hs : s.CallsSound)
    (hshut : s.ShutOut scope callId) : s'.ShutOut scope callId where
  stopped := by
    have hchange : s.CallChange [] s' (scope, callId) := h.callChange _
    exact hchange.notRunning hs (by simp) hshut.stopped
  revoked := by
    have hgrants : s'.conferenceJoinGrants = s.conferenceJoinGrants := by cases h <;> rfl
    exact hgrants ▸ hshut.revoked

theorem ShutOut.run (hs : s.Attainable) (hshut : s.ShutOut scope callId)
    (hrun : StoreRunWhere (fun a op => KeepsAbsent (op.cause a) scope callId a) s s') :
    s'.ShutOut scope callId := by
  induction hrun
  case refl => exact hshut
  case tail before after hbefore step ih =>
    have hattainable := hs.run (StoreRunWhere.storeRun hbefore)
    obtain ⟨op, hkeeps, rfl⟩ := step
    refine (run_induction
      (Q := fun a => a.ShutOut scope callId ∧ KeepsAbsent (op.cause before) scope callId a)
      hattainable op (fun a b hsame ha => ?_) (fun a b ha heffect hq => ?_)
      (fun a b ha heffect hq => ?_) ⟨ih, hkeeps⟩).1
    · refine ⟨⟨?_, hsame.grants ▸ ha.1.revoked⟩, ?_⟩
      · simpa only [NotRunning, hsame.calls] using ha.1.stopped
      · simpa only [KeepsAbsent, hsame.calls] using ha.2
    · exact ⟨heffect.shutOut ha.callsSound hq.2 hq.1,
        (heffect.callChange ha.callsSound _).keepsAbsent hq.2⟩
    · have hchange : a.CallChange [] b (scope, callId) := heffect.callChange _
      exact ⟨heffect.shutOut ha.callsSound hq.1, hchange.keepsAbsent hq.2⟩

theorem revoked_revokeFirstPartyDerivedJoins
    (hget : (s.revokeFirstPartyDerivedJoins scope callId).conferenceJoinGrants.get key = some grant)
    (hjoin : isFirstPartyDerivedJoin scope callId grant) : grant.revoked := by
  simp only [revokeFirstPartyDerivedJoins, get_mapEntries, map_eq_some_iff] at hget
  obtain ⟨before, -, rfl⟩ := hget
  split at hjoin
  case isTrue h  => rw [if_pos h]
  case isFalse h => exact absurd hjoin h

theorem not_redeemed_of_shutOut (hshut : s.ShutOut scope callId)
    (h : s.redeemConferenceJoinGrant scope sessionId = .ok (grant, s')) :
    ¬isFirstPartyDerivedJoin scope callId grant := by
  simp only [redeemConferenceJoinGrant, ok_iff, exists_const] at h
  obtain ⟨stored, hstored, hvalid, -, rfl, -⟩ := h
  exact fun hjoin => hvalid (hshut.revoked _ stored hstored hjoin)

end MemoryState

-- A hang-up that is answered with success has ended the direct call. The media call is gone or over
-- exactly if the hang-up was new or the media call was gone or over already, and then no grant for
-- it is redeemed again unless it is created again. Fingerprints of signals must not collide on the
-- way.
theorem hang_up_ends_media_iff {derivedCallId : CallId} {derivedEventId : EventId}
    (hrun : StoreRunWhere (SignalsApart (signal ::
      s.derivedSignals signal.scope derivedCallId derivedEventId)) .empty s)
    (hapart : SignalsApart (signal :: s.derivedSignals signal.scope derivedCallId derivedEventId) s
      (.terminateDirectCallWithDerived actor signal derivedCallId derivedEventId))
    (h : s.terminateDirectCallWithDerived actor signal derivedCallId derivedEventId =
      (.ok status, s')) :
    s'.Ended signal.scope signal.callId ∧
    (s'.NotRunning signal.scope derivedCallId ↔
      s.callSignals.get (signal.scope, signal.eventId) = none ∨
        s.NotRunning signal.scope derivedCallId) ∧
    (s.callSignals.get (signal.scope, signal.eventId) = none ∨
        s.NotRunning signal.scope derivedCallId →
      ∀ later, StoreRunWhere (fun a op => a.calls.get (signal.scope, derivedCallId) = none →
        (signal.scope, derivedCallId) ∉ (op.cause a).calls) s' later →
      ∀ sessionId grant after,
        later.redeemConferenceJoinGrant signal.scope sessionId = .ok (grant, after) →
        ¬MemoryState.isFirstPartyDerivedJoin signal.scope derivedCallId grant) := by
  have hs : s.Attainable := MemoryState.Reachable.attainable (StoreRunWhere.storeRun hrun)
  have hrecorded : ∀ other ∈ signal :: s.derivedSignals signal.scope derivedCallId derivedEventId,
      other.kind.ends → s.RecordedEnds other := fun other hother hends =>
    recordedEnds_of_run hends
      (hrun.lift id fun a b ⟨op, hop, heq⟩ => ⟨op, hop other hother, heq⟩)
  have hafter : s'.Attainable := by
    have hop := run_transitions hs.keyed
      (.terminateDirectCallWithDerived actor signal derivedCallId derivedEventId)
    simp only [StoreOp.run, h] at hop
    exact hs.trans hop
  obtain ⟨e, heq⟩ | ⟨direct, _, s₁, s₂, hdirect, happlied, hsecond, heq⟩ :=
    terminateDirectCallWithDerived_cases hs.keyed actor signal derivedCallId derivedEventId
  · simp [heq] at h
  · rw [heq] at h
    obtain ⟨hstatus, rfl⟩ := Prod.mk.inj h
    obtain rfl := Except.ok.inj hstatus
    obtain ⟨hvalid, -, -⟩ := requireDirectCall_spec hdirect
    obtain ⟨hscope, -⟩ := hs.keyed.validated hvalid
    obtain ⟨hended, hiff⟩ := hangUp_spec
      (StoreOp.cause s (.terminateDirectCallWithDerived actor signal derivedCallId derivedEventId))
      hs List.mem_cons_self (List.subset_cons_self _ _) hapart hrecorded hdirect happlied hsecond
    refine ⟨hended, hiff, fun hcondition later hlater sessionId grant after hredeemed => ?_⟩
    have hshut : (s₂.revokeFirstPartyDerivedJoins direct.scope derivedCallId).ShutOut signal.scope
        derivedCallId := by
      refine ⟨hiff.mpr hcondition, fun key grant hget => ?_⟩
      rw [hscope] at hget
      exact revoked_revokeFirstPartyDerivedJoins hget
    exact not_redeemed_of_shutOut (hshut.run hafter hlater) hredeemed

namespace Scenario

-- The direct call of Alice and Bob has a media call in a room of its own.
def mediaRoom : GroupRecord :=
  { club with
    groupId      := named "media-room"
    conversation := ⟨named "media-chat", .privateGroup⟩ }

def mediaChat : ConversationRecord where
  scope := tenant
  conversation := mediaRoom.conversation
  parentConversationId := none

def bobEntersRoom : GroupChange :=
  { clubChange (named "bob-enters") 0 (.addMember bob .member) with
    groupId := mediaRoom.groupId }

def bobAnswers : CallSignal := directSignal (named "bob-answers") 0 .accept

def aliceEnds : CallSignal :=
  directSignal (named "alice-ends") 1 (.terminate .completed)

def answeredCall : CallSession :=
  bobTakesCall directCall.callId directChat.conversation

def mediaCall : CallSession :=
  { directCall with
    callId := named "media-call"
    conversation := mediaRoom.conversation }

def mediaEnds : EventId := named "media-ends"

def mediaOps : List StoreOp :=
  [.persistConversation directChat,
    .createGroup mediaChat mediaRoom ⟨tenant, alice⟩,
    .applyGroupChange ⟨tenant, alice⟩ bobEntersRoom,
    .createCall ⟨tenant, alice⟩ directCall,
    .applyCallSignal ⟨tenant, bob⟩ bobAnswers,
    .createCallIfParentCurrent ⟨tenant, alice⟩ mediaCall answeredCall]

def mediaGrant : ConferenceJoinGrantRecord where
  scope := tenant
  conferenceId := mediaRoom.groupId
  integrationId := ⟨firstPartyDirectMedia, by decide, by decide⟩
  callId := mediaCall.callId
  participant := bob
  deviceId := named "bobs-phone"
  sessionId := named "bobs-session"
  issuedAtUnixMs := 0
  notBeforeUnixMs := 0
  expiresAtUnixMs := 1000
  usePolicy := .singleUse
  revoked := false
  redeemed := false

def mediaStore : MemoryState := MemoryState.empty.runAll mediaOps

def hangUp : StoreResult DurableRecordStatus × MemoryState :=
  mediaStore.terminateDirectCallWithDerived ⟨tenant, alice⟩ aliceEnds mediaCall.callId mediaEnds

-- Alice ends the direct call by a plain signal before hanging up.
def endedStore : MemoryState :=
  MemoryState.empty.runAll (mediaOps ++ [.applyCallSignal ⟨tenant, alice⟩ aliceEnds])

def hangUpAfterEnd : StoreResult DurableRecordStatus × MemoryState :=
  endedStore.terminateDirectCallWithDerived ⟨tenant, alice⟩ aliceEnds mediaCall.callId mediaEnds

end Scenario

open Scenario

-- The hang-up is a repetition, so the media call runs on and even admits new participants.
theorem media_call_outlives_hang_up :
    endedStore.Reachable ∧ hangUpAfterEnd.1 = .ok .duplicate ∧
      hangUpAfterEnd.2.calls.get (tenant, mediaCall.callId) =
        some mediaCall ∧
      mediaCall.signallingState ≠ .terminated ∧
      (((StoreOp.persistConferenceJoinGrant mediaGrant).run
        hangUpAfterEnd.2).redeemConferenceJoinGrant tenant
          mediaGrant.sessionId).map Prod.fst =
        .ok { mediaGrant with redeemed := true } :=
  ⟨storeRun_runAll _ _, by decide +kernel, by decide +kernel, by decide,
    by decide +kernel⟩

-- Hanging up right away takes the media call down.
theorem first_hang_up_ends_media :
    hangUp.1 = .ok .persisted ∧
      hangUp.2.Ended tenant directCall.callId ∧
      hangUp.2.NotRunning tenant mediaCall.callId ∧
      ∀ sessionId grant after,
        hangUp.2.redeemConferenceJoinGrant tenant sessionId =
          .ok (grant, after) →
        ¬MemoryState.isFirstPartyDerivedJoin tenant mediaCall.callId grant := by
  have hstatus : hangUp.1 = .ok .persisted := by decide +kernel
  have hfresh : mediaStore.callSignals.get
      (tenant, aliceEnds.eventId) = none := by decide +kernel
  have hrun : StoreRunWhere (SignalsApart (aliceEnds ::
      mediaStore.derivedSignals tenant mediaCall.callId
        mediaEnds)) .empty mediaStore :=
    MemoryState.RunsWhere.storeRunWhere (by decide +kernel)
  obtain ⟨hended, hiff, hshut⟩ := hang_up_ends_media_iff hrun (by decide +kernel)
    (Prod.ext hstatus rfl)
  exact ⟨hstatus, hended, hiff.mpr (.inl hfresh), hshut (.inl hfresh) _ .refl⟩

end Ucr
