import Ucr.Store.Theorems.History

-- Talking in a group: what a member gets to read of what is said, and when there is still an order
-- left to say something under.

namespace Ucr

open Except Relation MemoryState

variable {s s' later : MemoryState} {key : ScopedId} {scope : TenantScope} {groupId : GroupId}
  {group group' : GroupRecord} {m : GroupMembership} {given message : MessageEnvelope}
  {subject recipient : ScopedPrincipal} {op : StoreOp} {order floor : U64} {orders : List U64}

-- Under these policies a member may read everything from its floor on.
def GroupHistoryPolicy.isByOrder : GroupHistoryPolicy → Bool
  | .noHistory | .fromJoin | .lastNMessages _ | .fullHistory => true
  | .fromTimestamp _ | .customPolicy _ => false

theorem historyAllows_iff (h : group.historyPolicy.isByOrder) :
    historyAllows group m message ↔ m.historyFloorLogicalOrder ≤ message.logicalOrder := by
  unfold historyAllows
  split
  case isTrue hlt => simpa using hlt
  case isFalse hle =>
    cases hpolicy : group.historyPolicy <;> simp_all [GroupHistoryPolicy.isByOrder]

namespace MemoryState

section Orders

theorem foldl_max_lt :
    orders.foldl max start < floor ↔ start < floor ∧ ∀ order ∈ orders, order < floor := by
  induction orders generalizing start
  case nil => simp
  case cons hd tl ih => simp [ih, and_assoc]

theorem lt_nextLogicalOrder (h : nextLogicalOrder orders = .ok floor) :
    ∀ order ∈ orders, order < floor :=
  (foldl_max_lt.mp (U64.lt_of_checkedSucc (Option.okOr_eq_ok.mp h))).2

theorem lt_last_iff : (∀ order ∈ orders, order < Fin.last _) ↔ Fin.last _ ∉ orders := by
  simp only [Fin.lt_last_iff_ne_last]
  exact ⟨fun h hlast => h _ hlast rfl, fun h order hmem heq => h (heq ▸ hmem)⟩

theorem exists_nextLogicalOrder :
    (∃ next, nextLogicalOrder orders = .ok next) ↔ Fin.last _ ∉ orders := by
  simp only [nextLogicalOrder, Option.okOr_eq_ok, U64.exists_checkedSucc, foldl_max_lt, lt_last_iff]
  exact and_iff_right (by decide)

-- Joining fails only when the last order there is has been used.
theorem exists_historyFloor (policy : GroupHistoryPolicy) (h : Fin.last _ ∉ orders) :
    ∃ floor, historyFloor policy orders = .ok floor := by
  have hsucc (i : ℕ) : ∃ floor, ((orders.sortOn id)[i]?.getD 0).checkedSucc = some floor := by
    rw [U64.exists_checkedSucc]
    cases horder : (orders.sortOn id)[i]?
    case none => decide
    case some order =>
      exact lt_last_iff.mpr h order (List.mem_sortOn.mp (List.mem_of_getElem? horder))
  cases policy
  case fullHistory | fromTimestamp | customPolicy => exact ⟨_, rfl⟩
  case noHistory | fromJoin =>
    simpa only [historyFloor, Option.okOr_eq_ok, List.getLast?_eq_getElem?] using hsucc _
  case lastNMessages count =>
    simp only [historyFloor]
    split
    case isTrue  => exact ⟨_, rfl⟩
    case isFalse =>
      split
      case isTrue  => simpa only [Option.okOr_eq_ok, List.getD_eq_getElem?_getD] using hsucc _
      case isFalse => exact ⟨_, rfl⟩

end Orders

section Sound

def Houses (s : MemoryState) (scope : TenantScope) (conversation : ConversationRef) : Prop :=
  isGroupConversationKind conversation.kind ∧
    ∃ record, s.conversations.get (scope, conversation.conversationId) = some record ∧
      record.conversation = conversation

structure GroupsSound (s : MemoryState) : Prop where
  houses : ∀ key group, s.groups.get key = some group → s.Houses group.scope group.conversation
  permissions : ∀ key m, s.groupMemberships.get key = some m →
    m.permissions = groupPermissionsForRole m.role

theorem Transition.houses (h : s.Transition s') (hs : s.Houses scope conversation) :
    s'.Houses scope conversation := by
  obtain ⟨hkind, record, hget, hsame⟩ := hs
  refine ⟨hkind, record, ?_, hsame⟩
  cases h
  case same h  => exact h.conversations ▸ hget
  case group h => cases h <;> exact hget
  case effect h =>
    cases h
    case other same _ _           => exact same.conversations ▸ hget
    case conversationStored fresh => exact Table.get_put_of_free fresh hget
    all_goals exact hget

theorem Transition.groupsSound (h : s.Transition s') (hs : s.Keyed) (hsound : s.GroupsSound) :
    s'.GroupsSound := by
  have hhouses key group (hget : s.groups.get key = some group) :
      s'.Houses group.scope group.conversation := h.houses (hsound.houses key group hget)
  cases h
  case same h => exact ⟨h.groups ▸ hhouses, h.memberships ▸ hsound.permissions⟩
  case effect h => exact ⟨h.groups_eq.1 ▸ hhouses, h.groups_eq.2 ▸ hsound.permissions⟩
  case group h =>
    cases h
    case groupCreated creation _ _ _ hstored =>
      simp only [canonicalGroupCreation, canonicalGroupRecord_eq_ok, ok_iff] at creation
      obtain ⟨-, -, _, ⟨hvalid, rfl⟩, -, -, _, -, rfl, rfl⟩ := creation
      exact ⟨Table.forall_put hhouses ⟨hvalid.kind, hstored⟩, Table.forall_put hsound.permissions rfl⟩
    case groupChanged actor change group floor transition calls stored _ applied _ =>
      have happlied := applyGroupChange_applied applied
      obtain ⟨hscope, -, hconversation⟩ := happlied.identity
      obtain ⟨-, hms⟩ := changed_identity hs stored applied
      refine ⟨Table.forall_put hhouses ?_, ?_⟩
      · rw [hscope, hconversation]
        exact hhouses _ group stored
      · rintro ⟨scope, groupId, p⟩ m hget
        by_cases hown : scope = change.scope ∧ groupId = change.groupId
        · obtain ⟨rfl, rfl⟩ := hown
          obtain ⟨hmem, -⟩ := (get_replaceMembers_own hs hms happlied.members.nodup).mp hget
          exact (happlied.members.valid m hmem).permissions
        · dsimp only at hget
          rw [get_replaceMembers_other hs hms hown] at hget
          exact hsound.permissions _ m hget

theorem Attainable.groupsSound (hs : s.Attainable) : s.GroupsSound := by
  induction hs
  case refl => exact ⟨by simp [empty], by simp [empty]⟩
  case tail hbefore step ih => exact step.groupsSound (Attainable.keyed hbefore) ih

end Sound

theorem owned (hs : s.Attainable) (hgroup : s.groups.get (scope, groupId) = some group)
    (hentry : s.groupMemberships.get (scope, groupId, p) = some m) :
    s.groupOf scope group.conversation = some group ∧ m.member = p := by
  have hid := (Prod.mk.inj (hs.keyed.groups _ group hgroup)).2
  have hkey := hs.keyed.memberships _ m hentry
  simp only [membershipKey, Prod.mk.injEq] at hkey
  exact ⟨(groupOf_eq_some hs.keyed hs.ownersUnique).mpr ⟨hid ▸ hgroup, rfl⟩, hkey.2.2⟩

-- What an active member is answered about a message of the group.
theorem groupMessage_iff (hs : s.Attainable)
    (hgroup : s.groups.get (recipient.scope, groupId) = some group)
    (hentry : s.groupMemberships.get (recipient.scope, groupId, recipient.principal) = some m)
    (hactive : m.state = .active)
    (hstored : s.messages.get (recipient.scope, messageId) = some message)
    (hconversation : message.conversation = group.conversation) :
    s.groupMessage recipient recipient.scope messageId = .ok (some message) ↔
      historyAllows group m message := by
  obtain ⟨hkind, -⟩ := hs.groupsSound.houses _ group hgroup
  have hid : group.groupId = groupId := (Prod.mk.inj (hs.keyed.groups _ group hgroup)).2
  obtain ⟨howner, hmember⟩ := owned hs hgroup hentry
  have hreads : .readHistory ∈ m.permissions := by
    rw [hs.groupsSound.permissions _ m hentry]
    cases m.role <;> decide
  cases hallowed : historyAllows group m message <;>
    simp [groupMessage, rejectIf, hstored, hconversation, hkind, howner, hid, hentry, hmember, hactive,
      hreads, hallowed, Option.filter, guard, pure, Except.pure]

-- A message as the group takes it from the sender, its order still to be found.
structure Ready (group : GroupRecord) (subject : ScopedPrincipal) (message : MessageEnvelope) :
    Prop where
  canonical : canonicalMessage message = .ok message
  scope : message.scope = subject.scope
  origin : message.origin.principalId = some subject.principal.principalId
  order : message.logicalOrder = 0
  state : message.deliveryState.isInitial
  conversation : message.conversation = group.conversation
  policy : message.deliveryPolicy = group.deliveryPolicy

theorem persistMessageInState_of_free (hcanonical : canonicalMessage message = .ok message)
    (hstate : message.deliveryState.isInitial)
    (hrecord : s.conversations.get (message.scope, message.conversation.conversationId) = some record)
    (hsame : record.conversation = message.conversation)
    (hfree : s.messages.get (message.scope, message.messageId) = none) :
    ∃ s', s.persistMessageInState message = .ok (.persisted, s') ∧
      s'.messages.get (message.scope, message.messageId) =
        some { message with deliveryState := .persisted } := by
  simp [persistMessageInState, storeOnce, rejectIf, hcanonical, hstate, hrecord, hsame, hfree]

theorem Ready.persist (h : Ready group subject message) (hs : s.Attainable)
    (hgroup : s.groups.get (subject.scope, groupId) = some group)
    (hentry : s.groupMemberships.get (subject.scope, groupId, subject.principal) = some m)
    (hactive : m.state = .active) (hsends : .sendMessage ∈ m.permissions)
    (hfree : s.messages.get (subject.scope, message.messageId) = none)
    (horder : nextLogicalOrder (s.messageOrders subject.scope group.conversation) = .ok order)
    {sequence : U64} (hsequence : s.offlineGroupNextSequence.checkedSucc = some sequence) :
    ∃ persisted s', s.persistGroupMessageWithNextLogicalOrder subject message =
      .ok ((.persisted, persisted), s') ∧ persisted.logicalOrder = order := by
  obtain ⟨hkind, record, hrecord, hsame⟩ := hs.groupsSound.houses _ group hgroup
  obtain ⟨howner, hmember⟩ := owned hs hgroup hentry
  obtain ⟨hscope, hid⟩ := Prod.mk.inj (hs.keyed.groups _ group hgroup)
  have hsender : s.requireSender subject message = .ok group := by
    simp [requireSender, memberEntry, rejectIf, h.scope, h.origin, h.conversation, h.policy, howner,
      hscope, hid, hentry, hmember, hactive, hsends, Option.filter]
  -- The order is not part of what the canonical form is about.
  have hcanonical : canonicalMessage { message with logicalOrder := order } =
      .ok { message with logicalOrder := order } := by
    have hgiven := h.canonical
    simp only [canonicalMessage, ok_iff] at hgiven ⊢
    obtain ⟨u, hvalid, extensions, hextensions, heq⟩ := hgiven
    exact ⟨u, hvalid, extensions, hextensions, congrArg ({ · with logicalOrder := order }) heq⟩
  rw [hscope, ← h.scope, ← h.conversation] at hrecord
  rw [← h.conversation] at hkind hsame
  rw [← h.scope] at hfree
  rw [← h.scope, ← h.conversation] at horder
  obtain ⟨s₁, hstored, hget⟩ := persistMessageInState_of_free hcanonical h.state hrecord hsame hfree
  simp [persistGroupMessageWithNextLogicalOrder, checkedNextOfflineGroupSequence, rejectIf, hsender,
    hstored, hget, h.canonical, h.order, h.state, hkind, hfree, horder, hsequence]

-- The order a message is sent under: the one its sender chose, or the next of the conversation.
inductive Sends (s : MemoryState) (given : MessageEnvelope) (order : U64) : StoreOp → Prop
  | chosen (subject : ScopedPrincipal) (h : given.logicalOrder = order) :
      Sends s given order (.persistGroupMessage subject given)
  | next (subject : ScopedPrincipal)
      (h : nextLogicalOrder (s.messageOrders given.scope given.conversation) = .ok order) :
      Sends s given order (.persistGroupMessageWithNextLogicalOrder subject given)

theorem Sends.stored (h : s.Sends given order op) (hs : s.Keyed)
    (hfree : s.messages.get (given.scope, given.messageId) = none)
    (hstored : (op.run s).messages.get (given.scope, given.messageId) = some message) :
    message.logicalOrder = order ∧ message.conversation = given.conversation ∧
      (op.run s).groupMemberships = s.groupMemberships ∧ (op.run s).groups = s.groups := by
  cases h
  case chosen subject horder =>
    cases hsent : s.persistGroupMessage subject given
    case error => simp [StoreOp.run, hsent, commit, hfree] at hstored
    case ok result =>
      obtain ⟨heffects, canonical, hcanonical, hget⟩ : s.Effects ⟨[], [], none⟩ result.2 ∧ _ :=
        persistGroupMessage_spec hs hsent
      obtain rfl := canonicalMessage_eq hcanonical
      simp only [StoreOp.run, hsent, commit] at hstored ⊢
      obtain rfl := Option.mem_unique hget hstored
      exact ⟨horder, rfl, heffects.memberships_eq⟩
  case next subject horder =>
    cases hsent : s.persistGroupMessageWithNextLogicalOrder subject given
    case error => simp [StoreOp.run, hsent, commit, hfree] at hstored
    case ok result =>
      obtain ⟨heffects, canonical, hcanonical, hnext⟩ : s.Effects ⟨[], [], none⟩ result.2 ∧ _ :=
        persistGroupMessageWithNextLogicalOrder_spec hs hsent
      obtain rfl := canonicalMessage_eq hcanonical
      obtain ⟨_, horder', hget⟩ := hnext hfree
      obtain rfl := Except.ok.inj (horder.symm.trans horder')
      simp only [StoreOp.run, hsent, commit] at hstored ⊢
      obtain rfl := Option.mem_unique hget hstored
      exact ⟨rfl, rfl, heffects.memberships_eq⟩

end MemoryState

-- A message is read by a member of the group, from when it is sent on for as long as it stays one,
-- exactly if its order is not below the floor the member has when it is sent.
theorem members_read_messages_iff (recipient : ScopedPrincipal) (hs : s.Reachable)
    (hsent : s.Sends given order op)
    (hfree : s.messages.get (given.scope, given.messageId) = none)
    (hstored : (op.run s).messages.get (given.scope, given.messageId) = some message)
    (hscope : recipient.scope = given.scope)
    (hgroup : s.groups.get (recipient.scope, groupId) = some group)
    (hconversation : given.conversation = group.conversation)
    (hentry : s.groupMemberships.get (recipient.scope, groupId, recipient.principal) = some m)
    (hactive : m.state = .active)
    (hstays : StaysMember recipient groupId (op.run s) later)
    (hgroup' : later.groups.get (recipient.scope, groupId) = some group')
    (hpolicy : group'.historyPolicy.isByOrder) :
    later.groupMessage recipient recipient.scope given.messageId = .ok (some message) ↔
      m.historyFloorLogicalOrder ≤ order := by
  obtain ⟨rfl, hsame, hmemberships, hgroups⟩ := hsent.stored hs.attainable.keyed hfree hstored
  have hs' : (op.run s).Attainable := hs.attainable.run (.single ⟨op, rfl⟩)
  have hrun := StaysMember.storeRun hstays
  rw [← hgroups] at hgroup
  rw [← hmemberships] at hentry
  rw [← hscope] at hstored
  have htransitions := runs_transitions hs' hrun
  obtain ⟨m', hentry', hactive', hfloor⟩ :=
    StaysMember.floorOf hs' hgroup ⟨m, hentry, hactive, rfl⟩ hstays
  obtain ⟨_, hkept, hconversation'⟩ := htransitions.group_kept hgroup
  obtain rfl := Option.mem_unique hgroup' hkept
  rw [groupMessage_iff (hs'.run hrun) hgroup' hentry' hactive'
    (htransitions.message_kept hstored) ((hsame.trans hconversation).trans hconversation'.symm),
    historyAllows_iff hpolicy, hfloor]

-- A member that may send can send, above all there is, and new members can join, exactly as long as
-- neither the orders of the conversation nor the sequences of the store have come to their end.
theorem groups_stay_open_iff (hs : s.Reachable)
    (hgroup : s.groups.get (subject.scope, groupId) = some group)
    (hentry : s.groupMemberships.get (subject.scope, groupId, subject.principal) = some m)
    (hactive : m.state = .active) (hsends : .sendMessage ∈ m.permissions)
    (hready : Ready group subject message)
    (hfree : s.messages.get (subject.scope, message.messageId) = none) :
    ((∃ persisted s', s.persistGroupMessageWithNextLogicalOrder subject message =
          .ok ((.persisted, persisted), s') ∧
        ∀ order ∈ s.messageOrders subject.scope group.conversation, order < persisted.logicalOrder) ∧
      ∀ actorScope actor change member role floor t, change.kind = .addMember member role →
        applyGroupChange group (s.membersOf subject.scope groupId) actorScope actor change
          (some floor) = .ok t →
        ∃ floor' t', s.historyFloorForChange group change = .ok (some floor') ∧
          applyGroupChange group (s.membersOf subject.scope groupId) actorScope actor change
            (some floor') = .ok t') ↔
      Fin.last _ ∉ s.messageOrders subject.scope group.conversation ∧
        s.offlineGroupNextSequence ≠ Fin.last _ := by
  constructor
  · rintro ⟨⟨persisted, s', h, -⟩, -⟩
    simp only [persistGroupMessageWithNextLogicalOrder, hready.canonical, ok_iff,
      Except.ok.injEq, exists_eq_left', exists_const] at h
    obtain ⟨-, _, -, h⟩ := h
    rw [← hready.scope] at hfree ⊢
    simp only [hfree, checkedNextOfflineGroupSequence, ok_iff] at h
    obtain ⟨order, horder, sequence, hsequence, -⟩ := h
    rw [hready.conversation] at horder
    exact ⟨exists_nextLogicalOrder.mp ⟨order, horder⟩,
      (U64.exists_checkedSucc.mp ⟨sequence, hsequence⟩).ne⟩
  · rintro ⟨horders, hsequence⟩
    obtain ⟨order, horder⟩ := exists_nextLogicalOrder.mpr horders
    obtain ⟨sequence, hsequence⟩ := U64.exists_checkedSucc.mpr (Fin.lt_last_iff_ne_last.mpr hsequence)
    obtain ⟨persisted, s', hsent, rfl⟩ :=
      hready.persist hs.attainable hgroup hentry hactive hsends hfree horder hsequence
    refine ⟨⟨persisted, s', hsent, lt_nextLogicalOrder horder⟩,
      fun actorScope actor change member role floor t hkind happlied => ?_⟩
    rw [← (Prod.mk.inj (hs.attainable.keyed.groups _ group hgroup)).1] at horders
    obtain ⟨floor', hfloor⟩ := exists_historyFloor group.historyPolicy horders
    obtain ⟨t', happlied'⟩ := applyGroupChange_anyFloor hkind happlied
    exact ⟨floor', t', by simp [historyFloorForChange, hkind, historyFloorForAdd, hfloor], happlied'⟩

namespace Scenario

def lateMessage (order : U64) : MessageEnvelope :=
  { aliceWrites (named "late") with logicalOrder := order }

def aliceWritesLate (order : U64) : StoreOp := .persistGroupMessage ⟨tenant, alice⟩ (lateMessage order)

end Scenario

open Scenario

-- Bob has joined after the first message. What Alice sends under the second order Bob reads,
theorem bob_reads_message_in_order :
    ((aliceWritesLate 2).run (bobJoins.run quietClub)).groupMessage ⟨tenant, bob⟩ tenant
      (lateMessage 2).messageId = .ok (some { lateMessage 2 with deliveryState := .persisted }) := by
  have hs : (bobJoins.run quietClub).Reachable :=
    (storeRun_runAll _ _ : quietClub.Reachable).tail ⟨bobJoins, rfl⟩
  have hgroup : (bobJoins.run quietClub).groups.get (tenant, club.groupId) =
      some clubOfTwo.group := by decide +kernel
  have hentry : (bobJoins.run quietClub).groupMemberships.get (tenant, club.groupId, bob) =
      some (.joined club bob .member 1 2) := by decide +kernel
  have hgroup' : ((aliceWritesLate 2).run (bobJoins.run quietClub)).groups.get
      (tenant, club.groupId) = some clubOfTwo.group := by decide +kernel
  exact (members_read_messages_iff ⟨tenant, bob⟩ hs (.chosen ⟨tenant, alice⟩ rfl) (by decide +kernel)
    (by decide +kernel) rfl hgroup rfl hentry rfl .refl hgroup' rfl).mpr (by decide)

-- but not what Alice sends under the first one.
theorem bob_misses_message_out_of_order :
    (bobJoins.run quietClub).hasActiveMember tenant club.groupId bob ∧
      ((aliceWritesLate 1).run (bobJoins.run quietClub)).messages.get
        (tenant, (lateMessage 1).messageId) =
          some { lateMessage 1 with deliveryState := .persisted } ∧
      ((aliceWritesLate 1).run (bobJoins.run quietClub)).groupMessage ⟨tenant, bob⟩ tenant
        (lateMessage 1).messageId = .ok none := by
  decide +kernel

namespace Scenario

-- Bob, a plain member, uses up the last order there is.
def lastWord : StoreOp :=
  .persistGroupMessage ⟨tenant, bob⟩ { aliceWrites (named "last-word") with
    logicalOrder := Fin.last _, origin := ⟨some bob.principalId, none, none⟩ }

def spentClub : MemoryState := lastWord.run (bobJoins.run quietClub)

def addCarol : GroupChange :=
  clubChange (named "new-carol") 1 (.addMember carol .member)

end Scenario

theorem alice_can_still_send : ∃ persisted s',
    (bobJoins.run quietClub).persistGroupMessageWithNextLogicalOrder ⟨tenant, alice⟩ newMessage =
      .ok ((.persisted, persisted), s') := by
  have hs : (bobJoins.run quietClub).Reachable :=
    (storeRun_runAll _ _ : quietClub.Reachable).tail ⟨bobJoins, rfl⟩
  have hgroup : (bobJoins.run quietClub).groups.get (tenant, club.groupId) =
      some clubOfTwo.group := by decide +kernel
  have hentry : (bobJoins.run quietClub).groupMemberships.get (tenant, club.groupId, alice) =
      some (.joined club alice .owner 0 1) := by decide +kernel
  have hready : Ready clubOfTwo.group ⟨tenant, alice⟩ newMessage :=
    ⟨by decide +kernel, rfl, rfl, rfl, rfl, rfl, rfl⟩
  obtain ⟨⟨persisted, s', h, -⟩, -⟩ := (groups_stay_open_iff hs hgroup hentry rfl (by decide)
    hready (by decide +kernel)).mpr ⟨by decide +kernel, by decide +kernel⟩
  exact ⟨persisted, s', h⟩

-- After that nobody can send under the next order, and nobody can join.
theorem bob_locks_the_club :
    spentClub.Reachable ∧
      (spentClub.persistGroupMessageWithNextLogicalOrder ⟨tenant, alice⟩ newMessage).toOption =
        none ∧
      (applyGroupChange clubOfTwo.group (spentClub.membersOf tenant club.groupId) tenant alice addCarol
        (some 0)).isOk ∧
      spentClub.historyFloorForChange clubOfTwo.group addCarol = .error .invalidRecord := by
  refine ⟨?_, by decide +kernel, by decide +kernel, by decide +kernel⟩
  exact ((storeRun_runAll _ _ : quietClub.Reachable).tail ⟨bobJoins, rfl⟩).tail
    ⟨lastWord, rfl⟩

end Ucr
