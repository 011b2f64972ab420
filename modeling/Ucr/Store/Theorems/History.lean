import Ucr.Store.Theorems.GroupCalls
import Ucr.Store.Theorems.HistoryFloor

-- What members of a group get to see of the messages from before they joined.

namespace Ucr

open Except Relation MemoryState List Option Table

variable {s s' : MemoryState} {message : MessageEnvelope} {scope : TenantScope} {groupId : GroupId}
  {p : PrincipalRef} {group : GroupRecord} {m : GroupMembership} {floor : U64}

namespace MemoryState

section Permanence

theorem Transition.message_kept (h : s.Transition s') (hget : s.messages.get key = some message) :
    s'.messages.get key = some message := by
  cases h
  case same h => exact h.messages ▸ hget
  case effect h =>
    cases h
    case other same _ _ => exact same.messages ▸ hget
    case messageStored fresh => exact get_put_of_free fresh hget
    all_goals exact hget
  case group h => cases h <;> exact hget

theorem Transition.group_kept (h : s.Transition s') (hget : s.groups.get key = some group) :
    ∃ group', s'.groups.get key = some group' ∧ group'.conversation = group.conversation := by
  cases h
  case same h     => exact ⟨group, h.groups ▸ hget, rfl⟩
  case effect h   => exact ⟨group, h.groups_eq.1 ▸ hget, rfl⟩
  case group h =>
    cases h
    case groupCreated fresh _ _ _ => exact ⟨group, get_put_of_free fresh hget, rfl⟩
    case groupChanged actor change changed floor transition calls stored _ applied _ =>
      by_cases heq : key = (change.scope, change.groupId)
      · subst heq
        obtain rfl := mem_unique stored hget
        exact ⟨transition.group, get_put_self, (applyGroupChange_applied applied).identity.2.2⟩
      · exact ⟨group, (get_put_ne heq).trans hget, rfl⟩

theorem Transitions.message_kept (h : s.Transitions s') (hget : s.messages.get key = some message) :
    s'.messages.get key = some message := by
  induction h
  case refl => exact hget
  case tail step ih => exact step.message_kept ih

theorem Transitions.group_kept (h : s.Transitions s') (hget : s.groups.get key = some group) :
    ∃ group', s'.groups.get key = some group' ∧ group'.conversation = group.conversation := by
  induction h
  case refl => exact ⟨group, hget, rfl⟩
  case tail step ih =>
    obtain ⟨group₁, hget₁, hconversation₁⟩ := ih
    obtain ⟨group₂, hget₂, hconversation₂⟩ := step.group_kept hget₁
    exact ⟨group₂, hget₂, hconversation₂.trans hconversation₁⟩

end Permanence

-- A replica carries a stored message of the group it is labelled with.
def ReplicaSound (s : MemoryState) (replica : OfflineGroupMessageReplica) : Prop :=
  s.messages.get (replica.message.scope, replica.message.messageId) = some replica.message ∧
    ∃ group, s.groups.get (replica.message.scope, replica.groupId) = some group ∧
      group.conversation = replica.message.conversation

def ReplicasSound (s : MemoryState) : Prop :=
  ∀ entry ∈ s.offlineGroupMessageReplicas, s.ReplicaSound entry.2

theorem Transition.replicaSound (h : s.Transition s')
    (hs : s.ReplicaSound replica) : s'.ReplicaSound replica := by
  obtain ⟨hmessage, group, hgroup, hconversation⟩ := hs
  obtain ⟨group', hgroup', hconversation'⟩ := h.group_kept hgroup
  exact ⟨h.message_kept hmessage, group', hgroup', hconversation'.trans hconversation⟩

theorem Transition.replicasSound (h : s.Transition s') (hs : s.ReplicasSound) :
    s'.ReplicasSound := by
  have hkept : ∀ entry ∈ s.offlineGroupMessageReplicas, s'.ReplicaSound entry.2 :=
    fun entry hentry => h.replicaSound (hs entry hentry)
  intro entry hentry
  cases h
  case same h => exact hkept entry (h.replicas ▸ hentry)
  case group h => cases h <;> exact hkept entry hentry
  case effect h =>
    cases h
    case other same _ _ => exact hkept entry (same.replicas ▸ hentry)
    case messageExported sequence replica group stored owner conversation =>
      obtain hold | rfl := by simpa using hentry
      · exact hkept entry hold
      · exact ⟨stored, group, owner, conversation⟩
    all_goals exact hkept entry hentry

theorem Attainable.replicasSound (hs : s.Attainable) : s.ReplicasSound := by
  induction hs
  case refl => simp [ReplicasSound, empty]
  case tail step ih => exact step.replicasSound ih

-- The three ways a message of a group is handed to a principal.
inductive Handed (s : MemoryState) (recipient : ScopedPrincipal) (groupId : GroupId)
    (message : MessageEnvelope) : Prop
  | read (messageId : MessageId) (group : GroupRecord)
      (h : s.groupMessage recipient recipient.scope messageId = .ok (some message))
      (owner : s.groupOf recipient.scope message.conversation = some group)
      (id : group.groupId = groupId)
  | offline (source : ScopedPrincipal) (cursor : Option OfflineGroupCursor) (maxItems : ℕ)
      (page : OfflineGroupMessagePage) (record : OfflineGroupMessageReplica)
      (h : s.offlineGroupMessagePage source recipient recipient.scope groupId cursor maxItems =
        .ok page)
      (mem : record ∈ page.records) (carries : record.message = message)
  | mesh (source : ScopedPrincipal) (cursor : Option MeshCursor) (maxItems : ℕ)
      (page : MeshGroupMessagePage) (record : MeshGroupMessageReplica)
      (h : s.meshGroupMessagePage source recipient recipient.scope groupId cursor maxItems =
        .ok page)
      (mem : record ∈ page.records) (carries : record.record.message = message)

-- A stored message of the group that does not lie below the floor of an active entry.
structure Visible (s : MemoryState) (recipient : ScopedPrincipal) (groupId : GroupId)
    (message : MessageEnvelope) (group : GroupRecord) (entry : GroupMembership) : Prop where
  owner : s.groups.get (recipient.scope, groupId) = some group
  member : s.groupMemberships.get (recipient.scope, groupId, recipient.principal) = some entry
  active : entry.state = .active
  stored : s.messages.get (recipient.scope, message.messageId) = some message
  conversation : message.conversation = group.conversation
  above : entry.historyFloorLogicalOrder ≤ message.logicalOrder

theorem floor_le_of_historyAllows (h : historyAllows group m message) :
    m.historyFloorLogicalOrder ≤ message.logicalOrder := by
  unfold historyAllows at h
  split at h
  case isTrue      => simp at h
  case isFalse hle => exact not_lt.mp hle

theorem mem_pageOf {α : Type} {maxItems : ℕ} {eligible : List (U64 × α)} {a : α}
    (h : a ∈ (pageOf maxItems eligible).1) : ∃ sequence, (sequence, a) ∈ eligible := by
  have hscanned : ∃ sequence, (sequence, a) ∈ eligible.take (maxItems + 1) := by
    simp only [pageOf] at h
    split at h
    case isTrue =>
      obtain ⟨⟨sequence, _⟩, hmem, rfl⟩ := List.mem_map.mp h
      exact ⟨sequence, mem_of_mem_dropLast hmem⟩
    case isFalse =>
      obtain ⟨⟨sequence, _⟩, hmem, rfl⟩ := List.mem_map.mp h
      exact ⟨sequence, hmem⟩
  obtain ⟨sequence, hmem⟩ := hscanned
  exact ⟨sequence, mem_of_mem_take hmem⟩

variable {recipient : ScopedPrincipal}

theorem activeEntry_spec (hs : s.Keyed) (hgroup : s.groups.get (scope, groupId) = some group)
    (h : s.activeEntry group recipient = some m) :
    s.groupMemberships.get (scope, groupId, recipient.principal) = some m ∧ m.state = .active := by
  obtain ⟨rfl, rfl⟩ := Prod.mk.inj (hs.groups _ group hgroup)
  simp only [activeEntry, memberEntry, filter_eq_some_iff, decide_eq_true_eq] at h
  exact ⟨h.1.1, h.2⟩

-- What a page shows of a replica.
theorem visible_of_replica (hs : s.Keyed) (hreplica : s.ReplicaSound replica)
    (hscope : replica.message.scope = recipient.scope) (hid : replica.groupId = groupId)
    (hgroup : s.groups.get (recipient.scope, groupId) = some group)
    (hentry : s.activeEntry group recipient = some m)
    (hallowed : historyAllows group m replica.message) :
    s.Visible recipient groupId replica.message group m := by
  obtain ⟨hmessage, group', hgroup', hconversation⟩ := hreplica
  rw [hscope] at hmessage
  rw [hscope, hid, hgroup] at hgroup'
  obtain rfl := Option.some.inj hgroup'
  obtain ⟨hget, hactive⟩ := activeEntry_spec hs hgroup hentry
  exact ⟨hgroup, hget, hactive, hmessage, hconversation.symm, floor_le_of_historyAllows hallowed⟩

theorem meshOffer_spec {sourceDevice recipientDevice : DeviceId} {record : MeshGroupMessageReplica}
    (h : s.meshOffer scope group m sourceDevice recipientDevice replica = some record) :
    record.record = replica ∧ historyAllows group m replica.message := by
  simp only [meshOffer] at h
  split at h
  case isTrue => simp at h
  case isFalse hoffered =>
    simp only [not_or, not_not] at hoffered
    obtain rfl := Option.some.inj h
    exact ⟨rfl, hoffered.1⟩

theorem Handed.visible (hs : s.Attainable) (h : s.Handed recipient groupId message) :
    ∃ group entry, s.Visible recipient groupId message group entry := by
  cases h
  case read messageId group h howner hid =>
    simp only [groupMessage, ok_iff, bind_eq_bind, bind_eq_some_iff, guard_option_eq_some,
      Option.pure_def, Option.some.injEq] at h
    obtain ⟨-, -, stored, hstored, -, -, owner, howner', entry, hentry, -, ⟨hactive, -, hallowed⟩,
      rfl⟩ := h
    obtain rfl := mem_unique howner howner'
    subst hid
    obtain ⟨hgroup, -, hconversation⟩ := groupOf_spec hs.keyed howner
    have hkey := hs.keyed.messages _ stored hstored
    rw [filter_eq_some_iff] at hentry
    refine ⟨group, entry, hgroup, hentry.1, hactive, ?_, hconversation.symm,
      floor_le_of_historyAllows hallowed⟩
    rw [(Prod.mk.inj hkey).2, hstored]
  case offline source cursor maxItems page record h hmem hcarries =>
    simp only [offlineGroupMessagePage, requireTwoActiveMembers, ok_iff] at h
    obtain ⟨-, -, -, -, after, -, group, hgroup, entry, ⟨-, -, hentry⟩, rfl⟩ := h
    obtain ⟨sequence, hmem⟩ := mem_pageOf hmem
    simp only [mem_filter, Bool.and_eq_true, decide_eq_true_eq] at hmem
    obtain ⟨hreplica, ⟨⟨⟨-, hscope⟩, hid⟩, -⟩, hallowed⟩ := hmem
    exact ⟨group, entry, hcarries ▸ visible_of_replica hs.keyed (hs.replicasSound _ hreplica) hscope
      hid hgroup hentry hallowed⟩
  case mesh source cursor maxItems page record h hmem hcarries =>
    simp only [meshGroupMessagePage, requireTwoActiveMembers, ok_iff] at h
    obtain ⟨-, -, -, -, _, -, _, -, after, -, group, hgroup, entry, ⟨-, -, hentry⟩, rfl⟩ := h
    obtain ⟨replica, hmem, hoffer⟩ := mem_filterMap.mp hmem
    obtain ⟨sequence, hmem⟩ := mem_pageOf hmem
    simp only [mem_filter, Bool.and_eq_true, decide_eq_true_eq] at hmem
    obtain ⟨hreplica, ⟨-, hscope⟩, hid⟩ := hmem
    obtain ⟨rfl, hallowed⟩ := meshOffer_spec hoffer
    exact ⟨group, entry, hcarries ▸ visible_of_replica hs.keyed (hs.replicasSound _ hreplica) hscope
      hid hgroup hentry hallowed⟩

section Floors

theorem mem_membersOf (hs : s.Keyed) :
    m ∈ s.membersOf scope groupId ↔
      s.groupMemberships.get (scope, groupId, m.member) = some m := by
  simp [membersOf, get_iff_mem_values hs.memberships, membershipKey]

def FloorOf (s : MemoryState) (scope : TenantScope) (groupId : GroupId) (p : PrincipalRef)
    (floor : U64) : Prop :=
  ∃ m, s.groupMemberships.get (scope, groupId, p) = some m ∧ m.state = .active ∧
    m.historyFloorLogicalOrder = floor

-- The floor that goes with joining the group now.
structure JoinedNow (s : MemoryState) (scope : TenantScope) (groupId : GroupId)
    (group : GroupRecord) (floor : U64) : Prop where
  owner    : s.groups.get (scope, groupId) = some group
  computed : historyFloor group.historyPolicy (s.messageOrders scope group.conversation) = .ok floor
  counts   : ∀ count, group.historyPolicy = .lastNMessages count → count ≠ 0

-- An active member has kept its floor, or it is new, or its group is.
theorem GroupEffect.floor_cases (h : s.GroupEffect s') (hs : s.Keyed)
    (hfloor : s'.FloorOf scope groupId p floor) :
    s.FloorOf scope groupId p floor ∨
      (∃ group, s'.JoinedNow scope groupId group floor) ∧
        (s.groups.get (scope, groupId) = none ∨ ∀ floor, ¬s.FloorOf scope groupId p floor) := by
  obtain ⟨m', hget, hactive, rfl⟩ := hfloor
  cases h
  case groupCreated creator given group membership floor creation fresh unowned hfloor _ =>
    rw [get_put] at hget
    split at hget
    case isFalse => exact .inl ⟨m', hget, hactive, rfl⟩
    case isTrue heq =>
      obtain ⟨rfl, rfl, -⟩ := by simpa only [Prod.mk.injEq] using heq
      obtain rfl := Option.some.inj hget
      refine .inr ⟨⟨group, get_put_self, hfloor, fun count hpolicy => ?_⟩, .inl fresh⟩
      simp only [canonicalGroupCreation, ok_iff] at creation
      obtain ⟨-, -, _, hrecord, -, -, _, -, rfl, -⟩ := creation
      rw [← (canonicalGroupRecord_eq_ok.mp hrecord).2] at hpolicy
      exact historyPolicy_valid hrecord hpolicy
  case groupChanged actor change group floor transition calls stored hfloor applied _ =>
    have happlied := applyGroupChange_applied applied
    obtain ⟨⟨hscope, hid⟩, hms⟩ := changed_identity hs stored applied
    obtain ⟨-, -, hconversation⟩ := happlied.identity
    by_cases hown : scope = change.scope ∧ groupId = change.groupId
    · obtain ⟨rfl, rfl⟩ := hown
      obtain ⟨hmem, rfl⟩ := (get_replaceMembers_own hs hms happlied.members.nodup).mp hget
      obtain ⟨m, hm, hmember, hstate, hsame⟩ | ⟨hjoin, hpolicy, hout⟩ :=
        happlied.floorOrigin hmem hactive
      · exact .inl ⟨m, hmember ▸ (mem_membersOf hs).mp hm, hstate, hsame⟩
      · refine .inr ⟨⟨transition.group, get_put_self, ?_, fun count hcount => ?_⟩, .inr ?_⟩
        · have hcomputed := hfloor _ hjoin
          rw [historyFloorForAdd, (Prod.mk.inj (hs.groups _ group stored)).1] at hcomputed
          rw [hpolicy, hconversation]
          exact hcomputed
        · cases happlied with
          | intro _ _ _ _ _ _ record => exact historyPolicy_valid record (hpolicy ▸ hcount)
        · rintro _ ⟨m, hm, hstate, -⟩
          have hkey := hs.memberships _ m hm
          simp only [membershipKey, Prod.mk.injEq] at hkey
          exact hout m ((mem_membersOf hs).mpr (hkey.2.2.symm ▸ hm)) hkey.2.2 hstate
    · dsimp only at hget
      rw [get_replaceMembers_other hs hms hown] at hget
      exact .inl ⟨m', hget, hactive, rfl⟩

theorem Effects.memberships_eq (h : s.Effects cause s') :
    s'.groupMemberships = s.groupMemberships ∧ s'.groups = s.groups := by
  induction h
  case refl => exact ⟨rfl, rfl⟩
  case tail step ih =>
    obtain ⟨hgroups, hmemberships⟩ := step.groups_eq
    exact ⟨hmemberships.trans ih.1, hgroups.trans ih.2⟩

theorem run_floor_cases (hs : s.Attainable) (op : StoreOp)
    (hfloor : (op.run s).FloorOf scope groupId p floor) :
    s.FloorOf scope groupId p floor ∨
      (∃ group, (op.run s).JoinedNow scope groupId group floor) ∧
        (s.groups.get (scope, groupId) = none ∨ ∀ floor, ¬s.FloorOf scope groupId p floor) := by
  have hcases := run_cases hs.keyed op
  split at hcases
  case h_1 => exact .inl (by rwa [FloorOf, ← hcases.sameCore.memberships])
  case h_2 =>
    cases hcases
    case of_effects h => exact .inl (by rwa [FloorOf, ← h.memberships_eq.1])
    case of_group s₁ s₂ before group after hmessages hmessages' =>
      rw [FloorOf, after.memberships_eq.1] at hfloor
      have hs₁ : s₁.Keyed := (before.transitions.keyed hs.keyed)
      unfold FloorOf
      rw [← before.memberships_eq.1, ← before.memberships_eq.2]
      refine (group.floor_cases hs₁ hfloor).imp_right ?_
      rintro ⟨⟨g, hjoined⟩, hnew⟩
      refine ⟨⟨g, ?_⟩, hnew⟩
      have hsame : s₂.messages = s₁.messages := by cases group <;> rfl
      refine ⟨after.memberships_eq.2 ▸ hjoined.owner, ?_, hjoined.counts⟩
      simpa only [messageOrders, hmessages', hmessages, hsame] using hjoined.computed

theorem join_floor (hs : s.Attainable) (op : StoreOp) (hbefore : ¬s.hasActiveMember scope groupId p)
    (hafter : (op.run s).hasActiveMember scope groupId p) :
    ∃ floor group, (op.run s).FloorOf scope groupId p floor ∧
      (op.run s).JoinedNow scope groupId group floor := by
  have hs' : (op.run s).Attainable := hs.trans (run_transitions hs.keyed op)
  obtain ⟨m', hget, hactive⟩ := (hasActiveMember_iff hs'.keyed).mp hafter
  have hfloor : (op.run s).FloorOf scope groupId p _ := ⟨m', hget, hactive, rfl⟩
  obtain ⟨m, hm, hstate, -⟩ | ⟨⟨group, hjoined⟩, -⟩ := run_floor_cases hs op hfloor
  · exact absurd ((hasActiveMember_iff hs.keyed).mpr ⟨m, hm, hstate⟩) hbefore
  · exact ⟨_, group, hfloor, hjoined⟩

theorem stay_floor (hs : s.Attainable) (op : StoreOp) (hgroup : s.groups.get (scope, groupId) ≠ none)
    (h : s.FloorOf scope groupId p floor) (hafter : (op.run s).hasActiveMember scope groupId p) :
    (op.run s).FloorOf scope groupId p floor := by
  have hs' : (op.run s).Attainable := hs.trans (run_transitions hs.keyed op)
  obtain ⟨m', hget, hactive⟩ := (hasActiveMember_iff hs'.keyed).mp hafter
  have hfloor : (op.run s).FloorOf scope groupId p _ := ⟨m', hget, hactive, rfl⟩
  obtain ⟨m₁, hm₁, -, hsame⟩ | ⟨-, hnone | hout⟩ := run_floor_cases hs op hfloor
  · obtain ⟨m, hm, -, rfl⟩ := h
    obtain rfl := mem_unique hm hm₁
    exact hsame ▸ hfloor
  · exact absurd hnone hgroup
  · exact absurd h (hout floor)

-- A run in which the principal is an active member of the group all the time.
abbrev StaysMember (recipient : ScopedPrincipal) (groupId : GroupId) :=
  ReflTransGen fun s s' : MemoryState =>
    StoreStep s s' ∧ s'.hasActiveMember recipient.scope groupId recipient.principal

theorem StaysMember.storeRun (h : StaysMember recipient groupId s s') : StoreRun s s' :=
  h.lift id fun _ _ hstep => hstep.1

theorem StaysMember.floorOf (hs : s.Attainable)
    (hgroup : s.groups.get (recipient.scope, groupId) = some group)
    (hfloor : s.FloorOf recipient.scope groupId recipient.principal floor)
    (h : StaysMember recipient groupId s s') :
    s'.FloorOf recipient.scope groupId recipient.principal floor := by
  induction h
  case refl => exact hfloor
  case tail hbefore step ih =>
    obtain ⟨⟨op, rfl⟩, hmember⟩ := step
    have hrun := StaysMember.storeRun hbefore
    obtain ⟨_, hgroup₁, -⟩ := (runs_transitions hs hrun).group_kept hgroup
    exact stay_floor (hs.run hrun) op (by simp [hgroup₁]) ih hmember

theorem mem_messageOrders :
    order ∈ s.messageOrders scope conversation ↔
      ∃ message ∈ s.messages.values, (message.scope = scope ∧ message.conversation = conversation) ∧
        message.logicalOrder = order := by
  simp [messageOrders, and_assoc]

-- A message from before the join that is handed out is one of the group and not below the floor.
theorem old_message_visible (hs : s.Attainable)
    (hgroup : s.groups.get (recipient.scope, groupId) = some group)
    (hfloor : s.FloorOf recipient.scope groupId recipient.principal floor)
    (hstays : StaysMember recipient groupId s s') (hhanded : s'.Handed recipient groupId message)
    (hold : s.messages.get (recipient.scope, message.messageId) = some old) :
    message ∈ s.messages.values ∧ message.scope = recipient.scope ∧
      message.conversation = group.conversation ∧
      floor ≤ message.logicalOrder := by
  have hrun := StaysMember.storeRun hstays
  have htransitions := runs_transitions hs hrun
  obtain ⟨group', entry, hvisible⟩ := hhanded.visible (hs.run hrun)
  obtain rfl := mem_unique (htransitions.message_kept hold) hvisible.stored
  obtain ⟨_, hgroup', hconversation⟩ := htransitions.group_kept hgroup
  obtain rfl := mem_unique hgroup' hvisible.owner
  obtain ⟨_, hget', -, rfl⟩ := StaysMember.floorOf hs hgroup hfloor hstays
  obtain rfl := mem_unique hget' hvisible.member
  exact ⟨get_mem_values hold, (Prod.mk.inj (hs.keyed.messages _ old hold)).1,
    hvisible.conversation.trans hconversation, hvisible.above⟩

end Floors

end MemoryState

-- Under a policy without history a member is never handed a message that was stored when it joined,
-- and under a policy that counts messages at most that many of them, however long it stays, however
-- the policy changes and whoever chose the orders of the messages.
theorem joiners_see_no_more_history (recipient : ScopedPrincipal) (hs : s.Reachable) (op : StoreOp)
    (hbefore : ¬s.hasActiveMember recipient.scope groupId recipient.principal)
    (hjoined : (op.run s).hasActiveMember recipient.scope groupId recipient.principal)
    (hgroup : (op.run s).groups.get (recipient.scope, groupId) = some group) :
    (group.historyPolicy = .noHistory ∨ group.historyPolicy = .fromJoin →
      ∀ later message, StaysMember recipient groupId (op.run s) later →
        later.Handed recipient groupId message →
        (op.run s).messages.get (recipient.scope, message.messageId) = none) ∧
    ∀ count, group.historyPolicy = .lastNMessages count →
      ∀ ids : Finset MessageId,
        (∀ id ∈ ids, (op.run s).messages.get (recipient.scope, id) ≠ none ∧
          ∃ later message, StaysMember recipient groupId (op.run s) later ∧
            later.Handed recipient groupId message ∧ message.messageId = id) →
        ids.card ≤ count.val := by
  have hs' : (op.run s).Attainable := hs.attainable.run (.single ⟨op, rfl⟩)
  obtain ⟨floor, _, hfloor, hnow⟩ := join_floor hs.attainable op hbefore hjoined
  obtain rfl := mem_unique hgroup hnow.owner
  refine ⟨fun hpolicy later message hstays hhanded => ?_, fun count hpolicy ids hids => ?_⟩
  · by_contra hold
    obtain ⟨old, hold⟩ := ne_none_iff_exists'.mp hold
    obtain ⟨hmem, hscope, hconversation, habove⟩ :=
      old_message_visible hs' hgroup hfloor hstays hhanded hold
    have horder := mem_messageOrders.mpr ⟨message, hmem, ⟨hscope, hconversation⟩, rfl⟩
    exact absurd habove (not_le.mpr (lt_historyFloor hnow.computed hpolicy horder))
  · have hcount := countP_historyFloor (hnow.counts count hpolicy) (hpolicy ▸ hnow.computed)
    -- The messages that can still be handed out, by their identifiers.
    let shown := ((op.run s).messages.values.filter fun message =>
      message.scope = recipient.scope && message.conversation = group.conversation).filter
        fun message => floor ≤ message.logicalOrder
    have hshown : shown.length ≤ count.val := by
      rw [messageOrders, countP_map, countP_eq_length_filter] at hcount
      exact hcount
    have hsub : ids ⊆ (shown.map (·.messageId)).toFinset := by
      intro id hid
      obtain ⟨hstored, later, message, hstays, hhanded, rfl⟩ := hids id hid
      obtain ⟨old, hold⟩ := ne_none_iff_exists'.mp hstored
      obtain ⟨hmem, hscope, hconversation, habove⟩ :=
        old_message_visible hs' hgroup hfloor hstays hhanded hold
      simp only [List.mem_toFinset, List.mem_map]
      exact ⟨message, by simp [shown, hmem, hscope, hconversation, habove], rfl⟩
    calc ids.card ≤ (shown.map (·.messageId)).toFinset.card := Finset.card_le_card hsub
      _ ≤ (shown.map (·.messageId)).length := toFinset_card_le _
      _ ≤ count.val := by simpa using hshown

namespace Scenario

def aliceWrites (messageId : MessageId) : MessageEnvelope :=
  { aliceTells messageId club.conversation with deliveryPolicy := club.deliveryPolicy }

def oldMessage : MessageEnvelope := aliceWrites (named "old")
def newMessage : MessageEnvelope := aliceWrites (named "new")

-- The club before Bob joins it.
def quietClub : MemoryState :=
  empty.runAll
    [.createGroup clubChat club ⟨tenant, alice⟩,
      .persistGroupMessageWithNextLogicalOrder ⟨tenant, alice⟩ oldMessage]

def bobJoins : StoreOp :=
  .applyGroupChange ⟨tenant, alice⟩ (clubChange addBob 0 (.addMember bob .member))

def alicePosts : StoreOp :=
  .persistGroupMessageWithNextLogicalOrder ⟨tenant, alice⟩ newMessage

-- The new message as it is stored: the second one of the conversation.
def postedMessage : MessageEnvelope :=
  { newMessage with logicalOrder := 2, deliveryState := .persisted }

end Scenario

open Scenario

-- Bob reads what Alice posts after Bob has joined; it was not there before.
theorem bob_reads_new_message :
    (alicePosts.run (bobJoins.run quietClub)).groupMessage ⟨tenant, bob⟩ tenant
        newMessage.messageId = .ok (some postedMessage) ∧
      (bobJoins.run quietClub).messages.get (tenant, oldMessage.messageId) ≠ none ∧
      (bobJoins.run quietClub).messages.get (tenant, newMessage.messageId) = none := by
  have hread : (alicePosts.run (bobJoins.run quietClub)).groupMessage ⟨tenant, bob⟩ tenant
      newMessage.messageId = .ok (some postedMessage) := by decide +kernel
  have howner : (alicePosts.run (bobJoins.run quietClub)).groupOf tenant club.conversation =
      some clubOfTwo.group := by decide +kernel
  have hgroup : (bobJoins.run quietClub).groups.get (tenant, club.groupId) =
      some clubOfTwo.group := by decide +kernel
  have hjoin := joiners_see_no_more_history ⟨tenant, bob⟩
    (storeRun_runAll _ _ : quietClub.Reachable) bobJoins (by decide +kernel)
    (by decide +kernel) hgroup
  refine ⟨hread, by decide +kernel, hjoin.1 (.inl rfl) _ postedMessage (.single ⟨⟨alicePosts, rfl⟩, ?_⟩)
    (.read newMessage.messageId clubOfTwo.group hread howner rfl)⟩
  decide +kernel

end Ucr
