import Ucr.Protocol.Theorems.CallMembers
import Ucr.Protocol.Theorems.GroupGovernance
import Ucr.Store.Theorems.CallSound

-- Only current members of a group take part in its calls, however membership changes.

namespace Ucr

open Except Relation MemoryState Table

variable {s s' : MemoryState} {group : GroupRecord} {call : CallSession} {scope : TenantScope}
  {conversation : ConversationRef}

namespace MemoryState

section Owners

def OwnersUnique (s : MemoryState) : Prop :=
  ∀ key key' group group', s.groups.get key = some group → s.groups.get key' = some group' →
    group.scope = group'.scope → group.conversation = group'.conversation → key = key'

theorem groupOf_eq_some (hs : s.Keyed) (hunique : s.OwnersUnique) :
    s.groupOf scope conversation = some group ↔
      s.groups.get (scope, group.groupId) = some group ∧ group.conversation = conversation := by
  refine (List.find?_eq_some_of_unique fun a ha b hb hpa hpb => ?_).trans ?_
  · simp only [Bool.and_eq_true, decide_eq_true_eq] at hpa hpb
    obtain ⟨key, hget⟩ := mem_values.mp ha
    obtain ⟨key', hget'⟩ := mem_values.mp hb
    obtain rfl := hunique key key' a b hget hget' (hpa.1.trans hpb.1.symm) (hpa.2.trans hpb.2.symm)
    exact Option.mem_unique hget hget'
  · simp [get_iff_mem_values hs.groups, and_assoc]

theorem groupOf_eq_none (h : s.groupOf scope conversation = none)
    (hget : s.groups.get key = some group) :
    ¬(group.scope = scope ∧ group.conversation = conversation) := by
  rintro ⟨rfl, rfl⟩
  simp only [groupOf, List.find?_eq_none] at h
  simpa using h group (get_mem_values hget)

-- A record that owns what only its own key owned so far.
theorem OwnersUnique.put (hunique : s.OwnersUnique)
    (hown : ∀ key' group', s.groups.get key' = some group' → group'.scope = group.scope →
      group'.conversation = group.conversation → key' = key) :
    OwnersUnique { s with groups := s.groups.put key group } := by
  intro key₁ key₂ group₁ group₂ hget₁ hget₂ hscope hconversation
  rw [get_put] at hget₁ hget₂
  split at hget₁ <;> split at hget₂
  case isTrue.isTrue heq₁ heq₂ => rw [heq₁, heq₂]
  case isTrue.isFalse heq _ =>
    obtain rfl := Option.some.inj hget₁
    exact heq.trans (hown key₂ group₂ hget₂ hscope.symm hconversation.symm).symm
  case isFalse.isTrue _ heq =>
    obtain rfl := Option.some.inj hget₂
    exact (hown key₁ group₁ hget₁ hscope hconversation).trans heq.symm
  case isFalse.isFalse => exact hunique _ _ group₁ group₂ hget₁ hget₂ hscope hconversation

theorem GroupEffect.ownersUnique (h : s.GroupEffect s') (hunique : s.OwnersUnique) :
    s'.OwnersUnique := by
  cases h
  case groupCreated unowned _ _ =>
    exact hunique.put fun _ _ hget hscope hconversation =>
      absurd ⟨hscope, hconversation⟩ (groupOf_eq_none unowned hget)
  case groupChanged changed _ _ _ stored _ applied _ =>
    obtain ⟨hscope, -, hconversation⟩ := (applyGroupChange_applied applied).identity
    exact hunique.put fun key' group' hget hscope' hconversation' =>
      hunique key' _ group' changed hget stored (hscope'.trans hscope)
        (hconversation'.trans hconversation)

theorem Effect.groups_eq (h : s.Effect cause s') :
    s'.groups = s.groups ∧ s'.groupMemberships = s.groupMemberships := by
  cases h
  case other same _ _ => exact ⟨same.groups, same.memberships⟩
  all_goals exact ⟨rfl, rfl⟩

theorem OwnersUnique.congr (hunique : s.OwnersUnique) (h : s'.groups = s.groups) :
    s'.OwnersUnique := by
  unfold OwnersUnique
  rwa [h]

theorem Transition.ownersUnique (h : s.Transition s') (hunique : s.OwnersUnique) :
    s'.OwnersUnique := by
  cases h
  case same h   => exact hunique.congr h.groups
  case effect h => exact hunique.congr h.groups_eq.1
  case group h  => exact h.ownersUnique hunique

theorem Attainable.ownersUnique (hs : s.Attainable) : s.OwnersUnique := by
  induction hs
  case refl => simp [OwnersUnique, empty]
  case tail step ih => exact step.ownersUnique ih

end Owners

theorem hasActiveMember_iff (hs : s.Keyed) :
    s.hasActiveMember scope groupId p ↔
      ∃ m, s.groupMemberships.get (scope, groupId, p) = some m ∧ m.state = .active := by
  simp [hasActiveMember, get_iff_mem_values hs.memberships, membershipKey, and_assoc]

-- Everyone still active in a running group call is a member of the group.
def Guarded (s : MemoryState) (call : CallSession) : Prop :=
  isGroupConversationKind call.conversation.kind → call.signallingState ≠ .terminated →
    ∃ group, s.groupOf call.scope call.conversation = some group ∧
      ∀ v ∈ call.participants, v.isActive → s.hasActiveMember call.scope group.groupId v.principal

def CallsGuarded (s : MemoryState) : Prop :=
  ∀ key call, s.calls.get key = some call → s.Guarded call

theorem Guarded.congr (h : s.Guarded call) (hgroups : s'.groups = s.groups)
    (hmemberships : s'.groupMemberships = s.groupMemberships) : s'.Guarded call := by
  simpa only [Guarded, groupOf, hasActiveMember, hgroups, hmemberships] using h

-- A call of a group whose record and members stay as they are.
theorem Guarded.transfer (hs : s.Keyed) (hs' : s'.Keyed) (hunique' : s'.OwnersUnique)
    (h : s.Guarded call)
    (hkept : ∀ group, s.groups.get (call.scope, group.groupId) = some group →
      group.conversation = call.conversation →
      s'.groups.get (call.scope, group.groupId) = some group ∧
        ∀ p, s'.groupMemberships.get (call.scope, group.groupId, p) =
          s.groupMemberships.get (call.scope, group.groupId, p)) : s'.Guarded call := by
  intro hkind hrunning
  obtain ⟨group, howner, hmembers⟩ := h hkind hrunning
  obtain ⟨hget, -, hconversation⟩ := groupOf_spec hs howner
  obtain ⟨hget', hsame⟩ := hkept group hget hconversation
  refine ⟨group, (groupOf_eq_some hs' hunique').mpr ⟨hget', hconversation⟩, fun v hv hactive => ?_⟩
  simpa only [hasActiveMember_iff hs', hsame, ← hasActiveMember_iff hs] using hmembers v hv hactive

theorem guarded_of_requireGroupParticipants
    (h : s.requireGroupParticipantsIfNeeded call = .ok ()) : s.Guarded call := by
  intro hkind _
  simp only [requireGroupParticipantsIfNeeded, hkind, not_true_eq_false, if_false, ok_iff, not_not,
    List.all_eq_true] at h
  obtain ⟨group, howner, hmembers⟩ := h
  exact ⟨group, howner, fun v hv _ => hmembers v hv⟩

theorem Guarded.signalled {actor : ScopedPrincipal} (h : s.Guarded call)
    (hcanonical : call.Canonical) (target : s.requireGroupSignalTargetIfNeeded call signal = .ok ())
    (applied : applyCallSignal call actor.scope actor.principal signal = .ok next) :
    s.Guarded next := by
  have hpreserves := CallStep.preserves hcanonical (.signal _ _ signal applied)
  intro hkind hrunning
  rw [hpreserves.continues.conversation] at hkind
  have hbefore : call.signallingState ≠ .terminated := fun ht =>
    hrunning (hpreserves.terminated ht ▸ ht)
  obtain ⟨group, howner, hmembers⟩ := h hkind hbefore
  rw [hpreserves.continues.scope, hpreserves.continues.conversation]
  refine ⟨group, howner, fun v' hv' hactive => ?_⟩
  obtain ⟨v, hv, hactiveBefore, hprincipal⟩ | hadded :=
    active_before_applyCallSignal hcanonical applied hv' hactive
  · exact hprincipal ▸ hmembers v hv hactiveBefore
  -- Whoever is added has been checked against the same group.
  · unfold requireGroupSignalTargetIfNeeded at target
    split at target
    case h_1 participant hsignal =>
      simp only [hkind, not_true_eq_false, if_false, howner, Option.okOr, ok_iff, ok.injEq,
        exists_eq_left', not_not] at target
      simp only [hsignal, CallSignalKind.added, List.mem_singleton] at hadded
      exact hadded ▸ target
    case h_2 hnotAdd =>
      unfold CallSignalKind.added at hadded
      split at hadded
      case h_1 participant hsignal => exact absurd hsignal (hnotAdd participant)
      case h_2 => simp at hadded

theorem Effect.callsGuarded (h : s.Effect cause s') (hs : s.CallsSound) (hguarded : s.CallsGuarded) :
    s'.CallsGuarded := by
  obtain ⟨hgroups, hmemberships⟩ := h.groups_eq
  intro key call hcall
  refine Guarded.congr (s := s) ?_ hgroups hmemberships
  cases h
  case other same _ _ => exact hguarded key call (same.calls ▸ hcall)
  case callCreated members =>
    rw [get_put] at hcall
    split at hcall
    case isTrue  => exact Option.some.inj hcall ▸ guarded_of_requireGroupParticipants members
    case isFalse => exact hguarded key call hcall
  case callSignalled actor signal current next _ stored _ target applied =>
    simp only [recordSignal, get_put] at hcall
    split at hcall
    case isTrue =>
      have hcurrent := Except.ok.inj ((hs.validated _ _).symm.trans stored)
      obtain ⟨hcanonical, -⟩ := hs.stored _ current hcurrent
      exact Option.some.inj hcall ▸ (hguarded _ current hcurrent).signalled hcanonical target applied
    case isFalse => exact hguarded key call hcall
  all_goals exact hguarded key call hcall

theorem GroupEffect.callsGuarded (h : s.GroupEffect s') (hs : s.Keyed) (hunique : s.OwnersUnique)
    (hguarded : s.CallsGuarded) : s'.CallsGuarded := by
  have hs' := h.keyed hs
  have hunique' := h.ownersUnique hunique
  cases h
  case groupCreated creator given group membership floor _ fresh _ _ _ =>
    intro key call hcall
    refine (hguarded key call hcall).transfer hs hs' hunique' fun g hget _ => ?_
    have hne : (call.scope, g.groupId) ≠ (group.scope, group.groupId) := fun heq => by
      rw [heq, fresh] at hget
      cases hget
    refine ⟨(get_put_ne hne).trans hget, fun p => get_put_ne fun heq => hne ?_⟩
    obtain ⟨h₁, h₂, -⟩ := by simpa only [Prod.mk.injEq] using heq
    rw [h₁, h₂]
  case groupChanged actor change group floor transition calls stored hfloor applied reconciled =>
    have happlied := applyGroupChange_applied applied
    obtain ⟨-, -, hconversation⟩ := happlied.identity
    obtain ⟨⟨hscope, hid⟩, hms⟩ := changed_identity hs stored applied
    intro key next hnext
    cases hcall : s.calls.get key
    case none => simp [(get_rewriteM reconciled).1 hcall] at hnext
    case some call =>
      obtain ⟨_, hget, hcases⟩ := reconcileGroupCalls_get reconciled hcall
      obtain rfl := Option.mem_unique hnext hget
      obtain ⟨⟨hcallScope, hcallConversation⟩, hreconciled⟩ | ⟨hother, rfl⟩ := hcases
      -- A call of this group: whoever is still active has passed the reconciliation.
      · intro _ hrunning
        have hcontinues := reconcileGroupCallMembership_continues hreconciled
        have hscope' : next.scope = change.scope := by rw [hcontinues.scope, hcallScope, hscope]
        refine ⟨transition.group, (groupOf_eq_some hs' hunique').mpr ⟨?_, ?_⟩, fun v hv hactive => ?_⟩
        · rw [hscope', hid]
          exact get_put_self
        · rw [hcontinues.conversation, hcallConversation]
        · have hmember := active_reconcileGroupCallMembership hreconciled hrunning v hv hactive
          simp only [activeMembersOf, List.mem_map, List.mem_filter, decide_eq_true_eq] at hmember
          obtain ⟨m, ⟨hm, hstate⟩, hprincipal⟩ := hmember
          refine (hasActiveMember_iff hs').mpr ⟨m, ?_, hstate⟩
          rw [hscope', hid]
          exact (get_replaceMembers_own hs hms happlied.members.nodup).mpr ⟨hm, hprincipal⟩
      -- A call of another group.
      · refine (hguarded key next hcall).transfer hs hs' hunique' fun g hg hgc => ?_
        have hne : ¬(next.scope = change.scope ∧ g.groupId = change.groupId) := by
          rintro ⟨hsame, hsameId⟩
          rw [hsame, hsameId, stored] at hg
          obtain rfl := Option.some.inj hg
          exact hother ⟨hsame.trans hscope.symm, by rw [hconversation, hgc]⟩
        refine ⟨(get_put_ne fun heq => hne (Prod.mk.inj heq)).trans hg, fun p => ?_⟩
        exact get_replaceMembers_other hs hms hne

theorem Attainable.callsGuarded (hs : s.Attainable) : s.CallsGuarded := by
  induction hs
  case refl => simp [CallsGuarded, empty]
  case tail before after hbefore step ih =>
    have hattainable : before.Attainable := hbefore
    cases step
    case same h =>
      intro key call hcall
      exact (ih key call (h.calls ▸ hcall)).congr h.groups h.memberships
    case effect h => exact h.callsGuarded hattainable.callsSound ih
    case group h  => exact h.callsGuarded hattainable.keyed hattainable.ownersUnique ih

theorem groupActorCurrentIfNeeded_spec (h : s.groupActorCurrentIfNeeded call p)
    (hkind : isGroupConversationKind call.conversation.kind) :
    ∃ group, s.groupOf call.scope call.conversation = some group ∧
      s.hasActiveMember call.scope group.groupId p := by
  simpa [groupActorCurrentIfNeeded, hkind, Option.any_eq_true] using h

end MemoryState

-- In every reachable state a running group call has only members of its group active in it, and
-- nobody else can read the call or signal in it.
theorem revocation_reaches_calls (hs : s.Reachable) :
    (∀ key call, s.calls.get key = some call → isGroupConversationKind call.conversation.kind →
      call.signallingState = .terminated ∨
        ∃ group, s.groupOf call.scope call.conversation = some group ∧
          ∀ v ∈ call.participants, v.isActive →
            s.hasActiveMember call.scope group.groupId v.principal) ∧
    (∀ subject scope callId call,
      s.callForParticipant subject scope callId = .ok (some call) →
      isGroupConversationKind call.conversation.kind →
      ∃ group, s.groupOf call.scope call.conversation = some group ∧
        s.hasActiveMember call.scope group.groupId subject.principal) ∧
    (∀ actor signal status s', s.applyCallSignalInState actor signal = .ok (status, s') →
      ∃ call, s.calls.get (signal.scope, signal.callId) = some call ∧
        (isGroupConversationKind call.conversation.kind →
          ∃ group, s.groupOf call.scope call.conversation = some group ∧
            s.hasActiveMember call.scope group.groupId actor.principal)) := by
  refine ⟨fun key call hcall hkind => ?_, fun subject scope callId call h hkind => ?_,
    fun actor signal status s' h => ?_⟩
  · by_cases ht : call.signallingState = .terminated
    · exact .inl ht
    · exact .inr (hs.attainable.callsGuarded key call hcall hkind ht)
  · simp only [callForParticipant, ok_iff] at h
    obtain ⟨-, -, found, -, h⟩ := h
    cases found
    case none => simp at h
    case some found =>
      dsimp only at h
      split at h
      case isTrue => simp at h
      case isFalse hallowed =>
        simp only [not_or, not_not] at hallowed
        obtain rfl := Option.some.inj (pure_eq_ok.mp h)
        exact groupActorCurrentIfNeeded_spec hallowed.2 hkind
  · obtain ⟨current, hstored, hcurrent, -⟩ := applyCallSignalInState_spec h
    rw [hs.attainable.callsSound.validated] at hstored
    exact ⟨current, Except.ok.inj hstored,
      fun hkind => groupActorCurrentIfNeeded_spec hcurrent hkind⟩

namespace Scenario

def clubChat : ConversationRecord where
  scope := tenant
  conversation := club.conversation
  parentConversationId := none

-- Alice calls the club, and Bob has to leave it.
def clubCall : CallSession :=
  { directCall with
    callId := named "club-call"
    conversation := club.conversation
    participants := [⟨alice, .accepted, 0, none⟩, ⟨bob, .invited, 0, none⟩,
                     ⟨carol, .invited, 0, none⟩] }

def clubCallWithoutBob : CallSession :=
  { clubCall with
    participants := [⟨alice, .accepted, 0, none⟩, ⟨bob, .left, 0, some 1⟩,
                              ⟨carol, .invited, 0, none⟩]
    replicationGeneration := 1
    revision := 1 }

def clubOps : List StoreOp :=
  [.createGroup clubChat club ⟨tenant, alice⟩,
    .applyGroupChange ⟨tenant, alice⟩ (clubChange addBob 0 (.addMember bob .member)),
    .applyGroupChange ⟨tenant, alice⟩
      (clubChange (named "add-carol") 1 (.addMember carol .member)),
    .createCall ⟨tenant, alice⟩ clubCall,
    .applyGroupChange ⟨tenant, alice⟩
      (clubChange (named "expel-bob") 2 (.removeMember bob))]

end Scenario

open Scenario

-- Bob's membership ends and so does Bob's part in the call, which goes on with the others.
theorem bob_leaves_club_call :
    (empty.runAll clubOps).calls.get
        (tenant, clubCall.callId) = some clubCallWithoutBob ∧
      ∃ group, (empty.runAll clubOps).groupOf tenant
          club.conversation = some group ∧
        ∀ v ∈ clubCallWithoutBob.participants, v.isActive →
          (empty.runAll clubOps).hasActiveMember tenant group.groupId
            v.principal := by
  have hcall : (empty.runAll clubOps).calls.get
      (tenant, clubCall.callId) = some clubCallWithoutBob := by
    decide +kernel
  refine ⟨hcall, ?_⟩
  have hreaches := (revocation_reaches_calls (storeRun_runAll _ clubOps)).1
  exact (hreaches _ _ hcall (by decide)).resolve_left (by decide)

end Ucr
