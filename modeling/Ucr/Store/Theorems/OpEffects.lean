import Ucr.Protocol.Theorems.GroupEffect
import Ucr.Store.Theorems.CommandStore
import Ucr.Store.Theorems.ConferenceStore
import Ucr.Store.Theorems.Consumption
import Ucr.Store.Theorems.DeliveryStore
import Ucr.Store.Theorems.DeviceStore
import Ucr.Store.Theorems.Effect

-- Every operation of the store is a sequence of effects.

namespace Ucr

open Except Relation MemoryState

variable {s s' : MemoryState} {cause : Cause}

namespace MemoryState

section Groups

variable {group : GroupRecord} {status : DurableRecordStatus}

theorem prepareGroup_spec (h : s.prepareGroup conversation group creator = .ok (created?, s')) :
    s.Effects cause s' ∧ s'.groups = s.groups ∧ s'.messages = s.messages ∧
      ∀ g m, created? = some (g, m) →
        canonicalGroupCreation group creator.scope creator.principal = .ok (g, m) ∧
          s.groups.get (g.scope, g.groupId) = none ∧ s.groupOf g.scope g.conversation = none ∧
          s'.conversations.get (g.scope, g.conversation.conversationId) = some conversation ∧
          conversation.conversation = g.conversation := by
  simp only [prepareGroup, ok_iff, Prod.exists, not_or, not_not, ne_eq] at h
  obtain ⟨-, -, -, ⟨-, -, hscope, hconversation⟩, g, m, hcreation, h⟩ := h
  have hg : g.scope = group.scope ∧ g.conversation = group.conversation := by
    simp only [canonicalGroupCreation, ok_iff] at hcreation
    obtain ⟨-, -, _, hrecord, -, -, _, -, rfl, -⟩ := hcreation
    rw [← (canonicalGroupRecord_eq_ok.mp hrecord).2]
    exact ⟨rfl, rfl⟩
  rw [← hg.1] at hscope
  rw [← hg.2] at hconversation
  split at h
  case h_1 =>
    simp only [ok_iff] at h
    obtain ⟨-, -, rfl, rfl⟩ := h
    exact ⟨.refl, rfl, rfl, by simp⟩
  case h_2 hfresh =>
    simp only [ok_iff, exists_const, Option.not_isSome_iff_eq_none] at h
    obtain ⟨hunowned, -, -, -, -, stored, hstored, h⟩ := h
    cases stored
    case duplicate =>
      obtain ⟨rfl, rfl⟩ := return_eq_ok.mp h
      refine ⟨.refl, rfl, rfl, fun g' m' heq => ?_⟩
      obtain ⟨rfl, rfl⟩ := Prod.mk.inj (Option.some.inj heq)
      have hold := storeOnce_eq_duplicate.mp hstored
      exact ⟨hcreation, hfresh, hunowned, hscope ▸ hconversation ▸ hold, hconversation⟩
    case persisted =>
      obtain ⟨rfl, rfl⟩ := return_eq_ok.mp h
      have hnew := storeOnce_eq_persisted.mp hstored
      refine ⟨.single (.conversationStored conversation hnew), rfl, rfl, fun g' m' heq => ?_⟩
      obtain ⟨rfl, rfl⟩ := Prod.mk.inj (Option.some.inj heq)
      exact ⟨hcreation, hfresh, hunowned, hscope ▸ hconversation ▸ Table.get_put_self, hconversation⟩

theorem createGroup_changes : s.Changes cause (s.createGroup conversation group creator).2 := by
  unfold createGroup
  cases hprepare : s.prepareGroup conversation group creator
  case error => exact .of_effects .refl
  case ok result =>
    obtain ⟨created?, s₁⟩ := result
    obtain ⟨heffects, hgroups, hmessages, hspec⟩ := prepareGroup_spec hprepare
    cases created?
    case none => exact .of_effects heffects
    case some created =>
      obtain ⟨g, m⟩ := created
      obtain ⟨hcreation, hfresh, hunowned, hconversation⟩ := hspec g m rfl
      refine commit_snd_cases (.of_effects heffects) fun status s₂ hinsert => ?_
      simp only [insertGroup, ok_iff] at hinsert
      obtain ⟨floor, hfloor, -, rfl⟩ := hinsert
      refine .of_group s₁ _ heffects (.groupCreated creator group g m floor hcreation ?_ ?_ hfloor
        ⟨conversation, hconversation⟩) .refl hmessages hmessages
      · rwa [hgroups]
      · simpa only [groupOf, hgroups] using hunowned

theorem historyFloorForChange_some (h : s.historyFloorForChange group change = .ok (some floor)) :
    s.historyFloorForAdd group = .ok floor := by
  unfold historyFloorForChange at h
  split at h
  case h_1 => simpa using h
  case h_2 => simp at h

theorem applyGroupChangeInState_changes
    (h : s.applyGroupChangeInState actor change exportReplica = .ok (status, s')) :
    s.Changes cause s' := by
  simp only [applyGroupChangeInState, ok_iff] at h
  obtain ⟨-, -, group, hgroup, -, -, h⟩ := h
  split at h
  case h_1 =>
    simp only [ok_iff] at h
    obtain ⟨-, -, -, -, -, rfl⟩ := h
    exact .of_effects .refl
  case h_2 hfresh =>
    simp only [ok_iff, exists_const, not_or, Option.not_isSome_iff_eq_none] at h
    obtain ⟨-, -, floor, hfloor, transition, happlied, -, -, ⟨hevent, hsignal⟩, sequence?, -, calls,
      hcalls, -, rfl⟩ := h
    refine .of_group s _ .refl (.groupChanged actor change group floor transition calls hgroup
      (fun order heq => historyFloorForChange_some (heq ▸ hfloor)) happlied hcalls)
      (.single (.other ?_ ?_ ?_)) rfl ?_
    · cases sequence? <;> exact (by constructor <;> rfl)
    · cases sequence? <;> exact ⟨rfl, .single (.change _ _ ⟨hevent, hfresh, hsignal⟩)⟩
    · cases sequence? <;> exact .of_eq rfl
    · cases sequence? <;> rfl

end Groups

variable {scope : TenantScope}

section Messages

variable {canonical : MessageEnvelope} {status : DurableRecordStatus} {group : GroupRecord}
  {sequence : U64} {replica : OfflineGroupMessageReplica}

theorem persistMessageInState_spec (h : s.persistMessageInState message = .ok (status, s')) :
    ∃ canonical, canonicalMessage message = .ok canonical ∧
      s'.messages.get (canonical.scope, canonical.messageId) =
        some { canonical with deliveryState := .persisted } ∧
      s'.groups = s.groups ∧ s.Effects cause s' := by
  simp only [persistMessageInState, ok_iff] at h
  obtain ⟨canonical, hcanonical, -, -, -, -, -, -, stored, hstored, h⟩ := h
  refine ⟨canonical, hcanonical, ?_⟩
  cases stored
  case duplicate =>
    obtain rfl := state_eq h
    exact ⟨storeOnce_eq_duplicate.mp hstored, rfl, .refl⟩
  case persisted =>
    obtain rfl := state_eq h
    refine ⟨Table.get_put_self, rfl, .single (.messageStored message canonical hcanonical ?_)⟩
    exact storeOnce_eq_persisted.mp hstored

theorem groupOf_spec {conversation} (hs : s.Keyed) (h : s.groupOf scope conversation = some group) :
    s.groups.get (scope, group.groupId) = some group ∧ group.scope = scope ∧
      group.conversation = conversation := by
  have hfound := List.find?_some h
  simp only [Bool.and_eq_true, decide_eq_true_eq] at hfound
  rw [Table.get_iff_mem_values hs.groups]
  exact ⟨⟨List.mem_of_find?_eq_some h, by rw [hfound.1]⟩, hfound⟩

theorem requireSender_owner (hs : s.Keyed) (h : s.requireSender subject message = .ok group) :
    s.groups.get (message.scope, group.groupId) = some group ∧
      group.conversation = message.conversation := by
  simp only [requireSender, ok_iff] at h
  obtain ⟨-, -, _, hgroup, -, -, -, -, -, -, rfl⟩ := h
  obtain ⟨hget, -, hconversation⟩ := groupOf_spec hs hgroup
  exact ⟨hget, hconversation⟩

theorem exportMessage_effects
    (hstored : s.messages.get (replica.message.scope, replica.message.messageId) =
      some replica.message)
    (howner : s.groups.get (replica.message.scope, replica.groupId) = some group)
    (hconversation : group.conversation = replica.message.conversation) :
    s.Effects cause (s.exportMessage sequence replica) := by
  unfold exportMessage
  split
  case isTrue =>
    exact .tail (.single (.messageExported sequence replica group hstored howner hconversation))
      (.other (by constructor <;> rfl) (.of_eq rfl rfl) (.of_eq rfl))
  case isFalse => exact .refl

@[simp]
theorem exportMessage_messages : (s.exportMessage sequence replica).messages = s.messages := by
  unfold exportMessage
  split <;> rfl

theorem persistGroupMessage_spec (hs : s.Keyed)
    (h : s.persistGroupMessage subject message = .ok (status, s')) :
    s.Effects cause s' ∧ ∃ canonical, canonicalMessage message = .ok canonical ∧
      s'.messages.get (canonical.scope, canonical.messageId) =
        some { canonical with deliveryState := .persisted } := by
  simp only [persistGroupMessage, ok_iff, Prod.exists] at h
  obtain ⟨canonical, hcanonical, -, -, group, hsender, sequence, -, stored, s₁, hstored, h⟩ := h
  obtain ⟨_, hagain, hget, hgroups, heffects⟩ := persistMessageInState_spec hstored
  obtain rfl := (canonicalMessage_ordered hcanonical).canonicalMessage_eq hagain
  obtain ⟨howner, hconversation⟩ := requireSender_owner hs hsender
  rw [← hgroups] at howner
  have hfound : ∃ canonical', canonicalMessage message = .ok canonical' ∧
      s₁.messages.get (canonical'.scope, canonical'.messageId) =
        some { canonical' with deliveryState := .persisted } := ⟨_, hcanonical, hget⟩
  cases stored
  case duplicate =>
    rw [← state_eq h]
    exact ⟨heffects, hfound⟩
  case persisted =>
    rw [← state_eq h]
    exact ⟨heffects.trans (exportMessage_effects hget howner hconversation), by simpa using hfound⟩

-- A message with a new identifier gets the next order of its conversation.
theorem persistGroupMessageWithNextLogicalOrder_spec (hs : s.Keyed)
    (h : s.persistGroupMessageWithNextLogicalOrder subject message =
      .ok ((status, persisted), s')) :
    s.Effects cause s' ∧ ∃ canonical, canonicalMessage message = .ok canonical ∧
      (s.messages.get (canonical.scope, canonical.messageId) = none → ∃ order,
        nextLogicalOrder (s.messageOrders canonical.scope canonical.conversation) = .ok order ∧
        s'.messages.get (canonical.scope, canonical.messageId) =
          some { canonical with logicalOrder := order, deliveryState := .persisted }) := by
  simp only [persistGroupMessageWithNextLogicalOrder, ok_iff] at h
  obtain ⟨canonical, hcanonical, -, -, group, hsender, h⟩ := h
  obtain ⟨howner, hconversation⟩ := requireSender_owner hs hsender
  split at h
  case h_1 existing hexisting =>
    obtain rfl := state_after_eq h
    exact ⟨.refl, canonical, hcanonical, fun hfree => by simp [hfree] at hexisting⟩
  case h_2 =>
    simp only [ok_iff, Prod.exists] at h
    obtain ⟨order, horder, sequence, -, stored, s₁, hstored, existing, hexisting, h⟩ := h
    obtain ⟨_, hagain, hget, hgroups, heffects⟩ := persistMessageInState_spec hstored
    have hordered : ({ canonical with logicalOrder := order } : MessageEnvelope).Ordered :=
      ⟨(canonicalMessage_ordered hcanonical).relations,
        (canonicalMessage_ordered hcanonical).externalMappings,
        (canonicalMessage_ordered hcanonical).extensions⟩
    obtain rfl := hordered.canonicalMessage_eq hagain
    obtain rfl := Option.mem_unique hexisting hget
    rw [← hgroups] at howner
    cases stored
    case duplicate =>
      rw [← state_eq h]
      exact ⟨heffects, canonical, hcanonical, fun _ => ⟨order, horder, hget⟩⟩
    case persisted =>
      rw [← state_eq h]
      exact ⟨heffects.trans (exportMessage_effects hget howner hconversation), canonical, hcanonical,
        fun _ => ⟨order, horder, by simpa using hget⟩⟩

theorem reconcileOfflineGroupChange_changes {record}
    (h : s.reconcileOfflineGroupChange recipient record = .ok (status, s')) :
    s.Changes cause s' := by
  simp only [reconcileOfflineGroupChange, ok_iff] at h
  obtain ⟨_, -, -, -, -, -, -, -, -, -, -, -, -, -, h⟩ := h
  exact applyGroupChangeInState_changes h

theorem reconcileOfflineGroupMessage_effects
    (h : s.reconcileOfflineGroupMessage recipient record = .ok (status, s')) : s.Effects cause s' := by
  simp only [reconcileOfflineGroupMessage, ok_iff] at h
  obtain ⟨_, -, -, -, h⟩ := h
  obtain ⟨-, -, -, -, heffects⟩ := persistMessageInState_spec h
  exact heffects

theorem requireRecipient_owner (h : s.requireRecipient recipient record = .ok ()) :
    ∃ group, s.groups.get (record.message.scope, record.groupId) = some group ∧
      group.conversation = record.message.conversation := by
  simp only [requireRecipient, ok_iff, exists_const, not_or, ne_eq, not_not] at h
  obtain ⟨-, group, hgroup, ⟨hconversation, -⟩, -⟩ := h
  exact ⟨group, hgroup, hconversation.symm⟩

theorem receiveMeshGroupMessage_spec {record extended}
    (h : s.receiveMeshGroupMessage recipient record = .ok ((status, extended), s')) :
    s.Effects cause s' ∧
      s'.messages.get (extended.record.message.scope, extended.record.message.messageId) =
        some extended.record.message ∧
      ∃ group, s'.groups.get (extended.record.message.scope, extended.record.groupId) = some group ∧
        group.conversation = extended.record.message.conversation := by
  simp only [receiveMeshGroupMessage, ok_iff] at h
  obtain ⟨_, -, _, -, _, hextended, _, hrecipient, h⟩ := h
  obtain ⟨hordered, hstate⟩ := appendMeshRecipient_message hextended
  have howner := requireRecipient_owner hrecipient
  split at h
  case h_1 existing hexisting =>
    simp only [ok_iff, exists_const, ne_eq, not_not] at h
    obtain ⟨rfl, ⟨-, rfl⟩, rfl⟩ := h
    exact ⟨.refl, hexisting, howner⟩
  case h_2 =>
    simp only [ok_iff, Prod.exists] at h
    obtain ⟨_, _, hstored, ⟨-, rfl⟩, rfl⟩ := h
    obtain ⟨_, hagain, hget, hgroups, heffects⟩ := persistMessageInState_spec hstored
    obtain rfl := hordered.canonicalMessage_eq hagain
    rw [← hstate] at hget
    rw [← hgroups] at howner
    exact ⟨heffects, hget, howner⟩

theorem reconcileMeshGroupMessage_effects {record} :
    s.Effects cause (s.reconcileMeshGroupMessage recipient record).2 := by
  unfold reconcileMeshGroupMessage
  cases hreceived : s.receiveMeshGroupMessage recipient record
  case error => exact .refl
  case ok result =>
    obtain ⟨⟨status, extended⟩, s₁⟩ := result
    obtain ⟨heffects, hget, group, howner, hconversation⟩ := receiveMeshGroupMessage_spec hreceived
    refine heffects.trans (Effects.commit fun _ s₂ hrelayed => ?_)
    simp only [relayMeshGroupMessage] at hrelayed
    split at hrelayed
    case isTrue =>
      simp only [return_eq_ok] at hrelayed
      exact hrelayed.2 ▸ .refl
    case isFalse =>
      simp only [ok_iff] at hrelayed
      obtain ⟨sequence, -, -, rfl⟩ := hrelayed
      exact .tail
        (.single (.messageExported sequence extended.record group hget howner hconversation))
        (.other (by constructor <;> rfl) (.of_eq rfl rfl) (.of_eq rfl))

end Messages

variable {key : ScopedId}

section Records

variable {status : DurableRecordStatus} {scope : TenantScope}

theorem persistConversation_effects {conversation}
    (h : s.persistConversation conversation = .ok (status, s')) : s.Effects cause s' := by
  simp only [persistConversation, bind_eq_ok] at h
  obtain ⟨-, -, -, -, stored, hstored, h⟩ := h
  cases stored
  case duplicate => exact state_eq h ▸ .refl
  case persisted =>
    rw [← state_eq h]
    exact .single (.conversationStored conversation (storeOnce_eq_persisted.mp hstored))

theorem installBridgeRegistration_effects
    (h : s.installBridgeRegistration registration = .ok (status, s')) : s.Effects cause s' := by
  simp only [installBridgeRegistration, ok_iff] at h
  obtain ⟨_, -, -, -, stored, -, h⟩ := h
  cases stored <;>
  · obtain rfl := state_eq h
    exact .other (by constructor <;> rfl) rfl rfl rfl

theorem transitionBridgeRegistration_effects
    (h : s.transitionBridgeRegistration scope integrationId expected next = .ok (status, s')) :
    s.Effects cause s' := by
  simp only [transitionBridgeRegistration, bind_eq_ok] at h
  obtain ⟨_, -, _, -, h⟩ := h
  split at h
  case isTrue => exact state_eq h ▸ .refl
  case isFalse =>
    simp only [ok_iff] at h
    obtain ⟨-, -, -, -, -, -, -, rfl⟩ := h
    exact .other (by constructor <;> rfl) rfl rfl rfl

theorem persistConferenceJoinGrant_effects
    (h : s.persistConferenceJoinGrant grant = .ok (status, s')) : s.Effects cause s' := by
  simp only [persistConferenceJoinGrant, bind_eq_ok] at h
  obtain ⟨-, -, stored, -, h⟩ := h
  cases stored
  case duplicate => exact state_eq h ▸ .refl
  case persisted =>
    simp only [ok_iff] at h
    obtain ⟨_, hallowed, -, rfl⟩ := h
    exact .single (.grantIssued grant hallowed)

-- Replacing one grant by one that is no more valid.
theorem grantsDecay_put (hget : s.conferenceJoinGrants.get key = some grant)
    (hdecay : ¬grant'.revoked → ¬grant.revoked ∧ grant'.scope = grant.scope ∧
      grant'.callId = grant.callId ∧ grant'.integrationId = grant.integrationId) :
    GrantsDecay s.conferenceJoinGrants (s.conferenceJoinGrants.put key grant') := by
  intro key' _ hget'
  by_cases heq : key' = key
  · subst heq
    rw [Table.get_put_self] at hget'
    obtain rfl := Option.some.inj hget'
    exact ⟨grant, hget, hdecay⟩
  · rw [Table.get_put_ne heq] at hget'
    exact ⟨_, hget', fun hvalid => ⟨hvalid, rfl, rfl, rfl⟩⟩

theorem revokeConferenceJoinGrant_effects
    (h : s.revokeConferenceJoinGrant scope sessionId = .ok (grant, s')) : s.Effects cause s' := by
  simp only [revokeConferenceJoinGrant, ok_iff] at h
  obtain ⟨_, hget, -, rfl⟩ := h
  exact .single (.grantsDecayed _ (grantsDecay_put hget (by simp)))

theorem redeemConferenceJoinGrant_effects
    (h : s.redeemConferenceJoinGrant scope sessionId = .ok (grant, s')) : s.Effects cause s' := by
  simp only [redeemConferenceJoinGrant, ok_iff] at h
  obtain ⟨_, hget, -, -, -, -, -, rfl⟩ := h
  exact .single (.grantsDecayed _ (grantsDecay_put hget fun hvalid => ⟨hvalid, rfl, rfl, rfl⟩))

theorem pruneExpiredConferenceJoinGrants_effects
    (h : s.pruneExpiredConferenceJoinGrants now = .ok (count, s')) : s.Effects cause s' := by
  simp only [pruneExpiredConferenceJoinGrants, ok_iff] at h
  obtain ⟨-, -, -, rfl⟩ := h
  refine .tail (.single (.grantsDecayed _ ?_))
    (.other (by constructor <;> rfl) (.of_eq rfl rfl) (.of_eq rfl))
  intro key grant' hget
  rw [Table.get_mapEntries, Option.map_eq_some_iff] at hget
  obtain ⟨grant, hgrant, rfl⟩ := hget
  refine ⟨grant, hgrant, fun hvalid => ?_⟩
  split at hvalid
  case isTrue => simp [redactGrant] at hvalid
  case isFalse h =>
    rw [if_neg h]
    exact ⟨hvalid, rfl, rfl, rfl⟩

end Records

section Events

variable {event : EventEnvelope} {events staged : List EventEnvelope} {scope : TenantScope}
  {status : EventAppendStatus} {e : DurableStoreError}

theorem unused_of_eventIdInUse (hevents : s.events.get key = none)
    (hfree : ¬s.eventIdInUse key) : s.Unused key := by
  simp only [eventIdInUse, Bool.or_eq_true, not_or, Option.not_isSome_iff_eq_none] at hfree
  exact ⟨hevents, hfree.1, hfree.2⟩

theorem journalEvent_effects (unused : s.Unused event.key)
    (canonical : canonicalEvent event = .ok event) : s.Effects cause (s.journalEvent event) :=
  .single (.other (by constructor <;> rfl) (.journalEvent unused canonical)
    (.of_eq rfl))

theorem appendEvent_effects (h : s.appendEvent event = .ok (status, s')) : s.Effects cause s' := by
  simp only [appendEvent, ok_iff] at h
  obtain ⟨canonical, hcanonical, h⟩ := h
  split at h
  case h_1 =>
    obtain rfl := state_after_eq h
    exact .refl
  case h_2 fresh =>
    simp only [ok_iff, exists_const] at h
    obtain ⟨hfree, -, rfl⟩ := h
    exact journalEvent_effects (unused_of_eventIdInUse fresh hfree) (canonicalEvent_idem hcanonical)

theorem appendOptionalEvent_effects (h : s.appendOptionalEvent event? = .ok s') :
    s.Effects cause s' := by
  cases event?
  case none =>
    obtain rfl := pure_eq_ok.mp h
    exact .refl
  case some event =>
    simp only [appendOptionalEvent, ok_iff, Prod.exists] at h
    obtain ⟨status, _, happended, rfl⟩ := h
    exact appendEvent_effects happended

-- Events that can be written one after the other: new ones with distinct identifiers.
def Staged (s : MemoryState) (staged : List EventEnvelope) : Prop :=
  (staged.map (·.key)).Nodup ∧ ∀ event ∈ staged, s.Unused event.key

theorem stageEvents_staged (h : s.stageEvents staged events = .ok (statuses, staged'))
    (hstaged : s.Staged staged) : s.Staged staged' ∧ staged' ⊆ staged ++ events := by
  induction events generalizing staged statuses
  case nil =>
    simp only [stageEvents, return_eq_ok] at h
    exact h.2 ▸ ⟨hstaged, by simp⟩
  case cons event rest ih =>
    have hskip : staged ++ rest ⊆ staged ++ event :: rest := by simp
    unfold stageEvents at h
    split at h
    case h_1 =>
      simp only [ok_iff, Prod.exists] at h
      obtain ⟨-, -, _, _, hrest, -, rfl⟩ := h
      exact (ih hrest hstaged).imp_right fun hsub => List.Subset.trans hsub hskip
    case h_2 fresh =>
      simp only [ok_iff, exists_const] at h
      obtain ⟨hfree, h⟩ := h
      split at h
      case h_1 =>
        simp only [ok_iff, Prod.exists] at h
        obtain ⟨-, -, _, _, hrest, -, rfl⟩ := h
        exact (ih hrest hstaged).imp_right fun hsub => List.Subset.trans hsub hskip
      case h_2 hnew =>
        simp only [ok_iff, Prod.exists] at h
        obtain ⟨_, _, hrest, -, rfl⟩ := h
        have hdistinct : ∀ other ∈ staged, other.key ≠ event.key := by
          simpa [List.find?_eq_none] using hnew
        have hnext : s.Staged (staged ++ [event]) := by
          refine ⟨?_, ?_⟩
          · simpa [List.nodup_append, hstaged.1] using hdistinct
          · have hunused := unused_of_eventIdInUse fresh hfree
            simpa [or_imp, forall_and, hunused] using hstaged.2
        exact (ih hrest hnext).imp_right fun hsub => by simpa using hsub

theorem foldl_journalEvent_effects (hstaged : s.Staged staged)
    (hcanonical : ∀ event ∈ staged, canonicalEvent event = .ok event) :
    s.Effects cause (staged.foldl journalEvent s) := by
  induction staged generalizing s
  case nil => exact .refl
  case cons event rest ih =>
    obtain ⟨hnodup, hunused⟩ := hstaged
    simp only [List.map_cons, List.nodup_cons, List.mem_map, not_exists, not_and] at hnodup
    refine (journalEvent_effects (hunused event (by simp)) (hcanonical event (by simp))).trans
      (ih ⟨hnodup.2, fun other hmem => ?_⟩ fun other hmem => hcanonical other (by simp [hmem]))
    have hother := hunused other (by simp [hmem])
    refine ⟨?_, hother.changes, hother.signals⟩
    rw [journalEvent, Table.get_put_ne (hnodup.1 other hmem)]
    exact hother.events

theorem mapM_canonicalEvent {canonical}
    (h : events.mapM (fun event => (canonicalEvent event).mapError fun _ => e) = .ok canonical) :
    ∀ event ∈ canonical, canonicalEvent event = .ok event := by
  induction events generalizing canonical
  case nil =>
    obtain rfl := pure_eq_ok.mp h
    simp
  case cons event rest ih =>
    simp only [List.mapM_cons, ok_iff] at h
    obtain ⟨first, hfirst, others, hothers, rfl⟩ := h
    simpa [canonicalEvent_idem hfirst] using ih hothers

theorem appendEventsAtomically_effects
    (h : s.appendEventsAtomically events = .ok (statuses, s')) : s.Effects cause s' := by
  simp only [appendEventsAtomically, ok_iff, Prod.exists] at h
  obtain ⟨-, -, canonical, hcanonical, _, staged, hstaged, -, rfl⟩ := h
  obtain ⟨hstaged, hsub⟩ := stageEvents_staged hstaged ⟨by simp, by simp⟩
  exact foldl_journalEvent_effects hstaged fun event hmem =>
    mapM_canonicalEvent hcanonical event (by simpa using hsub hmem)

theorem reconcileEvent_effects
    (h : s.reconcileEvent scope sessionId event = .ok (status, s')) : s.Effects cause s' := by
  simp only [reconcileEvent, ok_iff] at h
  obtain ⟨canonical, hcanonical, -, -, -, -, h⟩ := h
  split at h
  case h_1 =>
    simp only [ok_iff] at h
    obtain ⟨-, -, -, -, -, -, -, rfl⟩ := h
    exact .refl
  case h_2 fresh =>
    simp only [ok_iff, exists_const] at h
    obtain ⟨hfree, -, rfl⟩ := h
    exact journalEvent_effects (unused_of_eventIdInUse fresh hfree) (canonicalEvent_idem hcanonical)

theorem recordTerminalEvent_effects
    (h : s.recordTerminalEvent scope commandId event = .ok (status, s')) : s.Effects cause s' := by
  simp only [recordTerminalEvent, ok_iff] at h
  obtain ⟨canonical, hcanonical, -, -, -, -, h⟩ := h
  have hrecorded : s.Effects cause
      { s with terminalEvents := s.terminalEvents.put (scope, commandId) canonical.eventId } :=
    .other (by constructor <;> rfl) rfl rfl rfl
  split at h
  case h_1 =>
    simp only [ok_iff] at h
    obtain ⟨-, -, -, -, -, rfl⟩ := h
    exact .refl
  case h_2 =>
    simp only [ok_iff, exists_const] at h
    obtain ⟨hfree, h⟩ := h
    split at h
    case h_1 =>
      obtain rfl := state_after_eq h
      exact hrecorded
    case h_2 fresh =>
      obtain rfl := state_eq h
      exact hrecorded.trans (journalEvent_effects (unused_of_eventIdInUse fresh hfree)
        (canonicalEvent_idem hcanonical))

theorem createSyncSession_effects {status} (h : s.createSyncSession session = .ok (status, s')) :
    s.Effects cause s' := by
  simp only [createSyncSession, ok_iff] at h
  obtain ⟨_, -, stored, -, h⟩ := h
  cases stored <;>
  · obtain rfl := state_eq h
    exact .other (by constructor <;> rfl) rfl rfl rfl

theorem transitionSync_effects {status}
    (h : s.transitionSync scope sessionId expected next = .ok (status, s')) :
    s.Effects cause s' := by
  simp only [transitionSync, bind_eq_ok] at h
  obtain ⟨_, -, -, -, h⟩ := h
  split at h
  case isTrue => exact state_eq h ▸ .refl
  case isFalse =>
    obtain rfl := state_after_eq h
    exact .other (by constructor <;> rfl) rfl rfl rfl

end Events

section Areas

variable {status : DurableRecordStatus} {key : ScopedId} {event : EventEnvelope}

-- Writing the tables of the area an operation works in.
theorem area_effects (hkeeps : Keeps cause.area s.toAreaTables tables) :
    s.Effects cause { s with toAreaTables := tables } :=
  .single (.other (by constructor <;> rfl) (.of_eq rfl rfl) hkeeps)

theorem recordings_effects (harea : cause.area = some .recordings) :
    s.Effects cause { s with toRecordingTables := tables } :=
  area_effects (by constructor <;> simp [harea])

theorem WritesCommands.effects (h : s.WritesCommands s') (harea : cause.area = some .commands) :
    s.Effects cause s' := by
  rw [h.frame]
  exact area_effects (by constructor <;> simp [harea])

theorem deliveryOp_effects (harea : cause.area = some .deliveries) (op : DeliveryOp) :
    s.Effects cause (op.run s) := by
  rw [deliveryOp_writes op]
  exact area_effects (by constructor <;> simp [harea])

theorem deviceOp_effects (harea : cause.area = some .devices) (op : DeviceOp) :
    s.Effects cause (op.run s) := by
  rw [(@deviceOp_writes s (fun _ => True) op fun _ _ => trivial).frame]
  exact area_effects (by constructor <;> simp [harea])

variable (harea : cause.area = some .recordings)
include harea

theorem persistRecording_effects (h : s.persistRecording recording = .ok (status, s')) :
    s.Effects cause s' := by
  simp only [persistRecording, ok_iff] at h
  obtain ⟨-, -, stored, -, h⟩ := h
  cases stored <;>
  · obtain rfl := state_eq h
    exact recordings_effects harea

theorem transitionRecording_effects
    (h : s.transitionRecording key revision transition = .ok (recording, s')) :
    s.Effects cause s' := by
  simp only [transitionRecording, ok_iff, Prod.exists] at h
  obtain ⟨-, -, -, -, rfl⟩ := h
  exact recordings_effects harea

-- Whether the event is appended or the recording put back, nothing else has changed.
theorem transitionRecordingWithEvent_effects :
    s.Effects cause (s.transitionRecordingWithEvent key revision transition event?).2 := by
  unfold transitionRecordingWithEvent
  split
  case h_1 => exact .refl
  case h_2 current next _ =>
    split
    case isTrue => exact .refl
    case isFalse =>
      dsimp only
      split
      case h_1 happended =>
        exact (recordings_effects harea).trans (appendOptionalEvent_effects happended)
      case h_2 => exact recordings_effects harea

theorem transitionRecordingWithEventAndProviderOperation_effects :
    s.Effects cause (s.transitionRecordingWithEventAndProviderOperation key revision transition event
      operation).2 := by
  unfold transitionRecordingWithEventAndProviderOperation
  split
  case h_1 => exact .refl
  case h_2 current next _ =>
    split
    case isTrue => exact .refl
    case isFalse =>
      dsimp only
      split
      case isTrue => exact .refl
      case isFalse =>
        split
        case h_1 happended =>
          exact (recordings_effects harea).trans (appendEvent_effects happended)
        case h_2 => exact recordings_effects harea

theorem prepareRecordingProviderOperation_effects
    (h : s.prepareRecordingProviderOperation record = .ok (status, s')) : s.Effects cause s' := by
  simp only [prepareRecordingProviderOperation, ok_iff] at h
  obtain ⟨-, -, stored, -, h⟩ := h
  cases stored <;>
  · obtain rfl := state_eq h
    exact recordings_effects harea

theorem endRecordingProviderOperation_effects {state}
    (h : s.endRecordingProviderOperation state request = .ok (done, s')) : s.Effects cause s' := by
  simp only [endRecordingProviderOperation, ok_iff] at h
  obtain ⟨record, -, -, -, h⟩ := h
  split at h
  case isTrue =>
    obtain rfl := state_eq h
    exact .refl
  case isFalse =>
    simp only [ok_iff] at h
    obtain ⟨-, -, -, rfl⟩ := h
    exact recordings_effects harea

theorem retryRecordingProviderOperation_effects {next}
    (h : s.retryRecordingProviderOperation request next = .ok (done, s')) : s.Effects cause s' := by
  simp only [retryRecordingProviderOperation, ok_iff] at h
  obtain ⟨record, -, -, -, attempts, -, -, rfl⟩ := h
  exact recordings_effects harea

theorem recordingOp_effects (op : RecordingOp) :
    s.Effects cause (op.run s) := by
  cases op
  case prepareRecordingProviderOperation =>
    exact Effects.commit fun _ _ => prepareRecordingProviderOperation_effects harea
  case markRecordingProviderOperationApplied | markRecordingProviderOperationFailed =>
    exact Effects.commit fun _ _ => endRecordingProviderOperation_effects harea
  case retryRecordingProviderOperation =>
    exact Effects.commit fun _ _ => retryRecordingProviderOperation_effects harea
  case persistRecording => exact Effects.commit fun _ _ => persistRecording_effects harea
  case setRecordingConsent | startRecording | stopRecording | expireRecording | deleteRecording =>
    exact Effects.commit fun _ _ => transitionRecording_effects harea
  case setRecordingConsentWithEvent | startRecordingWithEvent | stopRecordingWithEvent
      | expireRecordingWithEvent | deleteRecordingWithEvent =>
    exact transitionRecordingWithEvent_effects harea
  all_goals exact transitionRecordingWithEventAndProviderOperation_effects harea

omit harea

theorem conferenceOp_effects (harea : cause.area = some .conferences) (op : ConferenceOp) :
    s.Effects cause (op.run s) := by
  obtain ⟨t, event?, -, happended⟩ := @conferenceOp_writes s op
  exact (area_effects (by constructor <;> simp [harea])).trans (appendOptionalEvent_effects happended)

-- An operation on services writes their tables, and to the audit trail at most one more record. The
-- limits of requests have operations of their own.
structure WritesServices (limits : Bool) (s s' : MemoryState) : Prop where
  frame  : ∃ tables : ServiceTables, s' = { s with toServiceTables := tables }
  audit  : s'.serviceAuditRecords = s.serviceAuditRecords ∨
    ∃ record, validateServiceAuditRecord record = .ok () ∧ s'.serviceAuditRecords =
      s.serviceAuditRecords ++ [(record, serviceAuditHash s.lastAuditHash record)]
  limits : limits = false → s'.serviceQuotaPolicies = s.serviceQuotaPolicies ∧
    s'.serviceRateLimitPolicies = s.serviceRateLimitPolicies ∧
    s'.serviceRateLimitUsage = s.serviceRateLimitUsage

theorem WritesServices.commit {ε α : Type} {limits : Bool} {r : Except ε (α × MemoryState)}
    (success : ∀ a s', r = .ok (a, s') → s.WritesServices limits s') :
    s.WritesServices limits (r.commit s).2 :=
  commit_snd_cases ⟨⟨s.toServiceTables, rfl⟩, .inl rfl, fun _ => ⟨rfl, rfl, rfl⟩⟩ success

theorem serviceOp_writes (op : ServiceOp) : s.WritesServices op.limits (op.run s) := by
  cases op
  case setServiceResourceQuotaPolicy | resetServiceRecordingUsage =>
    refine .commit fun _ s' h => ?_
    simp only [setServiceResourceQuotaPolicy, resetServiceRecordingUsage, ok_iff] at h
    obtain ⟨-, -, -, rfl⟩ := h
    exact ⟨⟨_, rfl⟩, .inl rfl, fun _ => ⟨rfl, rfl, rfl⟩⟩
  case setServiceQuotaPolicy | setServiceRateLimitPolicy =>
    refine .commit fun _ s' h => ?_
    simp only [setServiceQuotaPolicy, setServiceRateLimitPolicy, ok_iff] at h
    obtain ⟨-, -, h⟩ := h
    split at h <;>
    · obtain rfl := state_eq h
      exact ⟨⟨_, rfl⟩, .inl rfl, by rintro ⟨⟩⟩
  case consumeServiceRequestForClass subject rateClass now =>
    simp only [ServiceOp.run, consumeServiceRequestForClass]
    split <;> exact ⟨⟨_, rfl⟩, .inl rfl, by rintro ⟨⟩⟩
  case consumeServiceRecordingDuration subject duration =>
    refine .commit fun _ s' h => ?_
    simp only [consumeServiceRecordingDuration, ok_iff] at h
    obtain ⟨-, -, -, -, -, -, -, -, -, -, -, -, -, rfl⟩ := h
    exact ⟨⟨_, rfl⟩, .inl rfl, fun _ => ⟨rfl, rfl, rfl⟩⟩
  case appendServiceAudit record =>
    refine .commit fun _ s' h => ?_
    simp only [appendServiceAudit, ok_iff] at h
    obtain ⟨_, hvalid, h⟩ := h
    split at h
    case h_1 =>
      obtain rfl := state_after_eq h
      exact ⟨⟨_, rfl⟩, .inl rfl, fun _ => ⟨rfl, rfl, rfl⟩⟩
    case h_2 =>
      obtain rfl := state_eq h
      exact ⟨⟨_, rfl⟩, .inr ⟨record, hvalid, rfl⟩, fun _ => ⟨rfl, rfl, rfl⟩⟩

theorem serviceOp_effects (harea : cause.area = some .services) (op : ServiceOp) :
    s.Effects cause (op.run s) := by
  obtain ⟨tables, hrun⟩ := (serviceOp_writes (s := s) op).frame
  rw [hrun]
  exact area_effects (by constructor <;> simp [harea])

end Areas

-- Operations on a subscription change nothing else.
def Subscribes (s : MemoryState) (key : ScopedId) (s' : MemoryState) : Prop :=
  s' = s ∨ ∃ sub, s' = s.putSubscription key sub

theorem Subscribes.sameCore (h : s.Subscribes key s') : s.SameCore s' := by
  obtain rfl | ⟨sub, rfl⟩ := h
  · exact .refl s'
  · exact (by constructor <;> rfl)

theorem Subscribes.commit {α : Type} {r : StoreResult (α × MemoryState)}
    (success : ∀ a s', r = .ok (a, s') → s.Subscribes key s') : s.Subscribes key (r.commit s).2 :=
  commit_snd_cases (.inl rfl) success

theorem run_subscribes {op : StoreOp} (hop : op.subscription? = some key) :
    s.Subscribes key (op.run s) := by
  cases op <;> simp only [StoreOp.subscription?, reduceCtorEq, Option.some.injEq] at hop
  all_goals subst hop
  case persistEventSubscription =>
    refine .commit fun _ _ h => ?_
    obtain ⟨-, rfl⟩ | ⟨-, canonical, -, -, rfl⟩ := persistEventSubscription_spec h
    · exact .inl rfl
    · exact .inr ⟨_, rfl⟩
  case pollEventSubscription =>
    refine .commit fun _ _ h => ?_
    obtain ⟨sub, -, hanswer⟩ := pollEventSubscription_answer h
    cases hanswer
    case waiting | again => exact .inl rfl
    case empty | batch   => exact .inr ⟨_, rfl⟩
  case acknowledgeEventCursor =>
    refine .commit fun _ _ h => ?_
    obtain ⟨-, rfl⟩ | ⟨-, sub, active, -, -, rfl⟩ := acknowledgeEventCursor_spec h
    · exact .inl rfl
    · exact .inr ⟨_, rfl⟩
  case rejectEventCursor scope subscriptionId cursor failureKind now =>
    have hanswer := rejectEventCursor_answer s scope subscriptionId cursor failureKind now
    simp only [StoreOp.run]
    generalize s.rejectEventCursor scope subscriptionId cursor failureKind now = answer at hanswer ⊢
    cases hanswer
    case unchanged => exact .inl rfl
    all_goals exact .inr ⟨_, rfl⟩
  case replayEventSubscription =>
    refine .commit fun _ _ h => ?_
    obtain ⟨-, rfl⟩ | ⟨-, sub, generation, -, -, rfl⟩ := replayEventSubscription_spec h
    · exact .inl rfl
    · exact .inr ⟨_, rfl⟩

-- An operation either works on one subscription or changes records.
theorem run_cases (hs : s.Keyed) (op : StoreOp) :
    match op.subscription? with
    | some key => s.Subscribes key (op.run s)
    | none     => s.Changes (op.cause s) (op.run s) := by
  cases op
  case persistConversation => exact .of_commit persistConversation_effects
  case installBridgeRegistration => exact .of_commit installBridgeRegistration_effects
  case transitionBridgeRegistration => exact .of_commit transitionBridgeRegistration_effects
  case createCall => exact .of_commit (createCallWithParentGuard_effects (List.mem_singleton_self _))
  case createCallIfParentCurrent =>
    exact .of_commit (createCallWithParentGuard_effects (List.mem_singleton_self _))
  case applyCallSignal => exact .of_commit (applyCallSignalInState_effects (List.mem_singleton_self _))
  case terminateDirectCallWithDerived =>
    exact .of_effects (terminateDirectCallWithDerived_effects hs List.mem_cons_self
      (List.subset_cons_self _ _))
  case createGroup => exact createGroup_changes
  case applyGroupChange => exact Changes.commit fun _ _ => applyGroupChangeInState_changes
  case persistMessage =>
    refine .of_effects (Effects.commit fun _ _ h => ?_)
    obtain ⟨-, -, -, -, heffects⟩ := persistMessageInState_spec h
    exact heffects
  case persistGroupMessage => exact .of_commit fun h => (persistGroupMessage_spec hs h).1
  case persistGroupMessageWithNextLogicalOrder =>
    exact .of_commit fun h => (persistGroupMessageWithNextLogicalOrder_spec hs h).1
  case reconcileOfflineGroupChange =>
    exact Changes.commit fun _ _ => reconcileOfflineGroupChange_changes
  case reconcileOfflineGroupMessage => exact .of_commit reconcileOfflineGroupMessage_effects
  case reconcileMeshGroupMessage => exact .of_effects reconcileMeshGroupMessage_effects
  case persistConferenceJoinGrant => exact .of_commit persistConferenceJoinGrant_effects
  case revokeConferenceJoinGrant => exact .of_commit revokeConferenceJoinGrant_effects
  case redeemConferenceJoinGrant => exact .of_commit redeemConferenceJoinGrant_effects
  case pruneExpiredConferenceJoinGrants => exact .of_commit pruneExpiredConferenceJoinGrants_effects
  case acceptCommand =>
    exact .of_effects (Effects.commit fun _ _ h => (acceptCommand_writes h).effects rfl)
  case createSyncSession => exact .of_commit createSyncSession_effects
  case transitionSync => exact .of_commit transitionSync_effects
  case appendEvent => exact .of_commit appendEvent_effects
  case appendEventsAtomically => exact .of_commit appendEventsAtomically_effects
  case reconcileEvent => exact .of_commit reconcileEvent_effects
  case recordTerminalEvent => exact .of_commit recordTerminalEvent_effects
  case persistEventSubscription | pollEventSubscription | acknowledgeEventCursor | rejectEventCursor
      | replayEventSubscription => exact run_subscribes rfl
  case recording op => exact .of_effects (recordingOp_effects rfl op)
  case conference op => exact .of_effects (conferenceOp_effects rfl op)
  case service op => exact .of_effects (serviceOp_effects rfl op)
  case acceptCommandWithLegacyReservation =>
    exact .of_effects (acceptCommandWithLegacyReservation_writes.effects rfl)
  case delivery op => exact .of_effects (deliveryOp_effects rfl op)
  case device op => exact .of_effects (deviceOp_effects rfl op)

end MemoryState

end Ucr
