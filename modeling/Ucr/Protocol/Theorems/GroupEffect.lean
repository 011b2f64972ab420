import Ucr.Protocol.Group

-- What a group change can do. `ChangeEffect` lists every outcome with the authority it needs; all
-- facts about group changes are read off it.

namespace Ucr

open Except List

variable {group group' : GroupRecord} {ms ms' : List GroupMembership} {m : GroupMembership}
  {actor member : PrincipalRef} {actorScope : TenantScope} {change : GroupChange}
  {kind : GroupChangeKind} {context : GroupChangeContext} {floor : Option U64}

@[mk_iff]
structure GroupMembership.Valid (m : GroupMembership) (group : GroupRecord) : Prop where
  scope : m.scope = group.scope
  groupId : m.groupId = group.groupId
  permissions : m.permissions = groupPermissionsForRole m.role
  joined : m.joinedRevision ≤ group.revision
  removed : match m.removedRevision with
    | some removed => m.state = .removed ∧ m.joinedRevision ≤ removed ∧ removed ≤ group.revision
    | none => m.state = .active

-- A list of memberships a group accepts, in whatever order.
@[mk_iff]
structure Members (group : GroupRecord) (ms : List GroupMembership) : Prop where
  le_max : ms.length ≤ maxGroupMembers
  valid  : ∀ m ∈ ms, m.Valid group
  nodup  : (ms.map (·.member)).Nodup

theorem canonicalGroupMembership_eq_ok :
    canonicalGroupMembership group m = .ok u ↔ m.Valid group := by
  rw [GroupMembership.valid_iff]
  simp only [canonicalGroupMembership, ok_iff, exists_const, ne_eq, not_not, gt_iff_lt, not_lt]
  cases m.state <;> cases m.removedRevision <;> simp

theorem canonicalGroupMemberships_eq_ok :
    canonicalGroupMemberships group ms = .ok c ↔
      Members group ms ∧ ms.sortOn (·.sortKey) = c := by
  have hadj : (ms.sortOn (·.sortKey)).anyAdjacent (·.member = ·.member) = false ↔
      (ms.map (·.member)).Nodup :=
    anyAdjacent_sortOn_eq_false fun _ _ => PrincipalRef.sortKey_inj
  simp only [canonicalGroupMemberships, ok_iff, forM_eq_ok, exists_const,
    canonicalGroupMembership_eq_ok, gt_iff_lt, not_lt, Bool.not_eq_true, hadj, members_iff, and_assoc]

theorem Members.perm (h : Members group ms) (hp : ms'.Perm ms) : Members group ms' where
  le_max     := hp.length_eq ▸ h.le_max
  valid m hm := h.valid m (hp.mem_iff.mp hm)
  nodup      := (hp.map _).nodup_iff.mpr h.nodup

theorem Members.sortOn (h : Members group ms) : Members group (ms.sortOn (·.sortKey)) :=
  h.perm sortOn_perm

-- A record a group accepts, with its bridge mappings in whatever order.
@[mk_iff]
structure GroupRecord.Valid (group : GroupRecord) : Prop where
  kind : isGroupConversationKind group.conversation.kind
  ownership : validateOwnership group.ownership = .ok ()
  historyPolicy : validateHistoryPolicy group.historyPolicy = .ok ()
  cryptoState : validateCryptoState group.cryptoState = .ok ()
  publicPolicy : validatePublicPolicy group = .ok ()
  le_max : group.bridgeMappings.length ≤ maxGroupBridgeMappings
  mapping : ∀ mapping ∈ group.bridgeMappings, validateBridgeMapping mapping = .ok ()
  nodup : (group.bridgeMappings.map (·.integrationId)).Nodup

-- Canonicalizing a record checks it and only reorders its bridge mappings.
theorem canonicalGroupRecord_eq_ok :
    canonicalGroupRecord group = .ok g ↔ group.Valid ∧ group.sorted = g := by
  have hfirst : group.sorted.bridgeMappings.SortedOn (·.integrationId.value) := by
    refine List.Pairwise.imp ?_ sortedOn_sortOn
    exact fun h => Prod.Lex.monotone_fst _ _ h
  have hadj : group.sorted.bridgeMappings.anyAdjacent (·.integrationId = ·.integrationId) = false ↔
      (group.bridgeMappings.map (·.integrationId)).Nodup := by
    rw [hfirst.anyAdjacent_eq_false fun _ _ => OpaqueId.ext_iff.symm]
    exact nodup_map_sortOn _
  simp only [canonicalGroupRecord, ok_iff, forM_eq_ok, Bool.not_eq_false, gt_iff_lt, not_lt,
    Unique.exists_iff, Bool.not_eq_true, hadj, GroupRecord.valid_iff, and_assoc]
  simp only [GroupRecord.sorted, mem_sortOn]

theorem activeMember_eq_some (hn : (ms.map (·.member)).Nodup) :
    activeMember ms actor = some m ↔ m ∈ ms ∧ m.member = actor ∧ m.state = .active := by
  refine (find?_eq_some_of_unique fun a ha b hb hpa hpb => ?_).trans (by simp)
  simp only [Bool.and_eq_true, decide_eq_true_eq] at hpa hpb
  exact inj_on_of_nodup_map hn ha hb (hpa.1.trans hpb.1.symm)

-- The changes of a group record that touch neither its identity nor its ownership.
structure GroupRecord.Reshapes (group group' : GroupRecord) : Prop where
  scope : group'.scope = group.scope
  groupId : group'.groupId = group.groupId
  conversation : group'.conversation = group.conversation
  ownership : group'.ownership = group.ownership
  cryptoState : group'.cryptoState = group.cryptoState

inductive ChangeEffect (group : GroupRecord) (ms : List GroupMembership)
    (context : GroupChangeContext) :
    GroupChangeKind → GroupRecord → List GroupMembership → Prop
  | added (member : PrincipalRef) (role : GroupRole) (floor : U64)
      (authority : context.actorRole.isPrivileged) (notOwner : role ≠ .owner)
      (byOwner : role = .admin → context.actorRole = .owner)
      (hfloor : context.historyFloor = some floor) (fresh : ∀ m ∈ ms, m.member ≠ member) :
      ChangeEffect group ms context (.addMember member role) group
        (ms ++ [.joined group member role context.nextRevision floor])
  | rejoined (entry : GroupMembership) (role : GroupRole) (floor : U64)
      (authority : context.actorRole.isPrivileged) (notOwner : role ≠ .owner)
      (byOwner : role = .admin → context.actorRole = .owner)
      (hfloor : context.historyFloor = some floor) (mem : entry ∈ ms)
      (state : entry.state = .removed) :
      ChangeEffect group ms context (.addMember entry.member role) group
        (updateMember ms entry.member (·.rejoined role context.nextRevision floor))
  | removed (entry : GroupMembership) (mem : entry ∈ ms) (state : entry.state = .active)
      (notOwner : entry.role ≠ .owner)
      (authority : entry.member ≠ context.actor → context.actorRole.isPrivileged)
      (byOwner : entry.member ≠ context.actor → entry.role = .admin → context.actorRole = .owner) :
      ChangeEffect group ms context (.removeMember entry.member) group
        (updateMember ms entry.member (·.removed context.nextRevision))
  | roleChanged (entry : GroupMembership) (role : GroupRole) (mem : entry ∈ ms)
      (state : entry.state = .active) (authority : context.actorRole = .owner)
      (notOwner : role ≠ .owner) (wasNotOwner : entry.role ≠ .owner) :
      ChangeEffect group ms context (.changeRole entry.member role) group
        (updateMember ms entry.member (·.withRole role))
  | transferred (entry : GroupMembership) (ownership : GroupOwnership) (mem : entry ∈ ms)
      (state : entry.state = .active) (authority : context.actorRole = .owner)
      (other : entry.member ≠ context.actor)
      (howner : updateOwnership group.ownership entry.member = .ok ownership) :
      ChangeEffect group ms context (.transferOwnership entry.member)
        { group with ownership := ownership }
        (updateMember (updateMember ms context.actor (·.withRole .admin)) entry.member
          (·.withRole .owner))
  | reshaped (kind : GroupChangeKind) (group' : GroupRecord)
      (authority : context.actorRole.isPrivileged) (hkind : ¬kind.isSecuritySensitive)
      (reshapes : group.Reshapes group') : ChangeEffect group ms context kind group' ms

theorem applyAddMember_effect
    (h : applyAddMember group ms context.actorRole member role context.nextRevision
      context.historyFloor = .ok ms') :
    ChangeEffect group ms context (.addMember member role) group ms' := by
  simp only [applyAddMember, requireManageMembers, ok_iff, exists_const, not_not, not_or, not_and] at h
  obtain ⟨hauth, ⟨howner, hadmin⟩, floor, hfloor, h⟩ := h
  split at h
  case h_1 entry hentry =>
    simp only [ok_iff, exists_const] at h
    obtain ⟨hstate, rfl⟩ := h
    obtain rfl := findKey_key hentry
    have hremoved : entry.state = .removed := by
      cases hs : entry.state <;> simp_all
    exact .rejoined entry role floor hauth howner hadmin hfloor (findKey_mem hentry) hremoved
  case h_2 hnone =>
    simp only [ok_iff, exists_const] at h
    obtain ⟨-, rfl⟩ := h
    exact .added member role floor hauth howner hadmin hfloor (findKey_eq_none.mp hnone)

theorem applyRemoveMember_effect
    (h : applyRemoveMember ms context.actor context.actorRole member context.nextRevision =
      .ok ms') :
    ChangeEffect group ms context (.removeMember member) group ms' := by
  simp only [applyRemoveMember, ok_iff, exists_const, not_and, not_not] at h
  obtain ⟨entry, hentry, hstate, howner, hauth, hadmin, rfl⟩ := h
  obtain rfl := findKey_key hentry
  exact .removed entry (findKey_mem hentry) hstate howner hauth hadmin

theorem applyRoleChange_effect (hn : (ms.map (·.member)).Nodup)
    (h : applyRoleChange ms context.actorRole member role = .ok ms') :
    ChangeEffect group ms context (.changeRole member role) group ms' := by
  simp only [applyRoleChange, ok_iff, exists_const, not_or, not_not] at h
  obtain ⟨⟨hauth, howner⟩, entry, hentry, hwas, rfl⟩ := h
  obtain ⟨hmem, rfl, hstate⟩ := (activeMember_eq_some hn).mp hentry
  exact .roleChanged entry role hmem hstate hauth howner hwas

theorem applyOwnershipTransfer_effect (hn : (ms.map (·.member)).Nodup)
    (h : applyOwnershipTransfer group ms context.actor context.actorRole member =
      .ok (group', ms')) :
    ChangeEffect group ms context (.transferOwnership member) group' ms' := by
  simp only [applyOwnershipTransfer, ok_iff, exists_const, not_not, Prod.mk.injEq] at h
  obtain ⟨hauth, entry, hentry, hother, ownership, howner, rfl, rfl⟩ := h
  obtain ⟨hmem, rfl, hstate⟩ := (activeMember_eq_some hn).mp hentry
  exact .transferred entry ownership hmem hstate hauth hother howner

theorem applyChangeKind_effect (hn : (ms.map (·.member)).Nodup)
    (h : applyChangeKind group ms change context = .ok (group', ms')) :
    ChangeEffect group ms context change.kind group' ms' := by
  cases hkind : change.kind <;> simp only [applyChangeKind, hkind, ok_iff] at h
  case transferOwnership => exact applyOwnershipTransfer_effect hn h
  all_goals obtain ⟨_, h, rfl, rfl⟩ := h
  case addMember => exact applyAddMember_effect h
  case removeMember => exact applyRemoveMember_effect h
  case changeRole => exact applyRoleChange_effect hn h
  -- The remaining kinds only rewrite policies and bridge mappings of the record.
  all_goals
    simp only [applyHistoryPolicy, applyPublicPolicy, applyDeliveryPolicy, applyAddBridgeMapping,
      applyRemoveBridgeMapping, requireManageGroup, requireManageMembers, ok_iff, exists_const,
      not_not] at h
    obtain ⟨hauth, h⟩ := h
    refine .reshaped _ _ hauth (by simp [GroupChangeKind.isSecuritySensitive]) ?_
  case setHistoryPolicy =>
    obtain ⟨-, -, rfl⟩ := h
    exact ⟨rfl, rfl, rfl, rfl, rfl⟩
  case setPublicPolicy | removeBridgeMapping =>
    obtain ⟨-, rfl⟩ := h
    exact ⟨rfl, rfl, rfl, rfl, rfl⟩
  case setDeliveryPolicy =>
    obtain rfl := h
    exact ⟨rfl, rfl, rfl, rfl, rfl⟩
  case addBridgeMapping =>
    obtain ⟨-, -, -, -, rfl⟩ := h
    exact ⟨rfl, rfl, rfl, rfl, rfl⟩

theorem applyChangeCrypto_eq (h : applyChangeCrypto group change = .ok g) :
    ∃ crypto, g = { group with cryptoState := crypto } ∧
      (validateCryptoState group.cryptoState = .ok () → validateCryptoState crypto = .ok ()) := by
  unfold applyChangeCrypto advanceCryptoState at h
  split at h
  case isTrue =>
    split at h
    case h_1 => exact ⟨group.cryptoState, (pure_eq_ok.mp h).symm, id⟩
    case h_4 next _ _ =>
      simp only [ok_iff] at h
      obtain ⟨_, hnext, -, -, -, -, rfl⟩ := h
      exact ⟨_, rfl, fun _ => hnext⟩
    all_goals simp at h
  case isFalse =>
    split at h
    case isTrue  => simp at h
    case isFalse => exact ⟨group.cryptoState, (pure_eq_ok.mp h).symm, id⟩

-- A successful change: who asked for it, what it did, and what its result satisfies.
inductive Applied (group : GroupRecord) (ms : List GroupMembership) (actorScope : TenantScope)
    (actor : PrincipalRef) (change : GroupChange) (floor : Option U64) : GroupTransition → Prop
  | intro (entry : GroupMembership) (crypto : GroupCryptoState) (revision generation : U64)
      (group' : GroupRecord) (ms' : List GroupMembership)
      (record : canonicalGroupRecord group = .ok group.sorted) (members : Members group ms)
      (scope : actorScope = group.scope ∧ change.scope = group.scope)
      (groupId : change.groupId = group.groupId)
      (mem : entry ∈ ms) (member : entry.member = actor) (state : entry.state = .active)
      (hrevision : group.revision.checkedSucc = some revision)
      (hgeneration : group.replicationGeneration.checkedSucc = some generation)
      (effect : ChangeEffect { group.sorted with cryptoState := crypto }
        (ms.sortOn (·.sortKey)) ⟨actor, entry.role, revision, floor⟩ change.kind group' ms')
      (members' : Members { group' with
        revision := revision, replicationGeneration := generation } ms')
      (administered : ∃ m ∈ ms', m.state = .active ∧ m.role.isPrivileged) :
      Applied group ms actorScope actor change floor
        { group := { group' with revision := revision, replicationGeneration := generation }
          memberships := ms'.sortOn (·.sortKey) }

theorem applyGroupChange_applied
    (h : applyGroupChange group ms actorScope actor change floor = .ok t) :
    Applied group ms actorScope actor change floor t := by
  simp only [applyGroupChange, validateChangeBinding, requireGroupAdminContinuity, ok_iff,
    exists_const, not_or, not_not, ne_eq, canonicalGroupMemberships_eq_ok] at h
  obtain ⟨g, hrecord, _, ⟨hmembers, rfl⟩, ⟨hscope, hgroup, -⟩, entry, hentry, revision, hrevision,
    generation, hgeneration, _, hcrypto, ⟨group', ms'⟩, heffect, _, ⟨hmembers', rfl⟩, hadmin, rfl⟩
    := h
  obtain rfl := (canonicalGroupRecord_eq_ok.mp hrecord).2
  obtain ⟨crypto, rfl, -⟩ := applyChangeCrypto_eq hcrypto
  have hsorted := hmembers.sortOn
  obtain ⟨hmem, hmember, hstate⟩ := (activeMember_eq_some hsorted.nodup).mp hentry
  have hmembers : Members group ms := { hmembers with valid := fun m hm => { hmembers.valid m hm with } }
  refine .intro entry crypto revision generation group' ms' hrecord hmembers hscope hgroup
    (mem_sortOn.mp hmem) hmember hstate hrevision hgeneration
    (applyChangeKind_effect hsorted.nodup heffect) hmembers' ?_
  simpa using hadmin

section Floors

def GroupMembership.atFloor (m : GroupMembership) (floor : U64) : GroupMembership :=
  { m with historyFloorLogicalOrder := floor }

-- A group asks nothing of the floors of its entries.
theorem Members.of_map (h : Members group ms)
    (hsame : ms'.map (·.atFloor 0) = ms.map (·.atFloor 0)) : Members group ms' where
  le_max := by
    have hlength := congrArg List.length hsame
    simp only [length_map] at hlength
    exact hlength ▸ h.le_max
  valid m' hm' := by
    obtain ⟨m, hm, heq⟩ := mem_map.mp (hsame ▸ mem_map_of_mem hm')
    have hvalid : (m.atFloor 0).Valid group := { h.valid m hm with }
    exact { heq ▸ hvalid with }
  nodup := by
    have hmembers := congrArg (List.map (·.member)) hsame
    simp only [map_map] at hmembers
    exact hmembers ▸ h.nodup

theorem applyAddMember_anyFloor {floor}
    (h : applyAddMember group ms actorRole member role revision (some floor) = .ok ms') :
    ∃ ms'', applyAddMember group ms actorRole member role revision (some floor') = .ok ms'' ∧
      ms''.map (·.atFloor 0) = ms'.map (·.atFloor 0) := by
  simp only [applyAddMember, ok_iff, exists_const, Option.some.injEq, exists_eq_left'] at h ⊢
  obtain ⟨u, hmanage, hrole, h⟩ := h
  cases hfound : ms.findKey (·.member) member
  case none =>
    simp only [hfound, ok_iff, exists_const] at h ⊢
    obtain ⟨hroom, rfl⟩ := h
    exact ⟨_, ⟨u, hmanage, hrole, hroom, rfl⟩, by simp [GroupMembership.atFloor, GroupMembership.joined]⟩
  case some entry =>
    simp only [hfound, ok_iff, exists_const] at h ⊢
    obtain ⟨hstate, rfl⟩ := h
    exact ⟨_, ⟨u, hmanage, hrole, hstate, rfl⟩, map_updateKey_congr fun _ => rfl⟩

-- Which floor a joining member gets is no reason to refuse it.
theorem applyGroupChange_anyFloor {floor} (hkind : change.kind = .addMember member role)
    (h : applyGroupChange group ms actorScope actor change (some floor) = .ok t) :
    ∃ t', applyGroupChange group ms actorScope actor change (some floor') = .ok t' := by
  simp only [applyGroupChange, applyChangeKind, hkind, requireGroupAdminContinuity, ok_iff,
    exists_const, not_not, canonicalGroupMemberships_eq_ok] at h ⊢
  obtain ⟨g, hrecord, sorted, hsorted, u, hbinding, entry, hentry, revision, hrevision, generation,
    hgeneration, g', hcrypto, _, ⟨ms', hadded, rfl⟩, _, ⟨hmembers, rfl⟩, hadmin, -⟩ := h
  obtain ⟨ms'', hadded', hsame⟩ := applyAddMember_anyFloor hadded
  have hany (l : List GroupMembership) :
      (l.sortOn (·.sortKey)).any (fun m => m.state = .active && m.role.isPrivileged) =
        (l.map (·.atFloor 0)).any fun m => m.state = .active && m.role.isPrivileged := by
    rw [any_map]
    exact sortOn_perm.any_eq
  rw [hany, ← hsame, ← hany] at hadmin
  exact ⟨_, g, hrecord, sorted, hsorted, u, hbinding, entry, hentry, revision, hrevision, generation,
    hgeneration, g', hcrypto, _, ⟨ms'', hadded', rfl⟩, _, ⟨hmembers.of_map hsame, rfl⟩, hadmin, rfl⟩

end Floors

theorem ChangeEffect.identity (h : ChangeEffect group ms context kind group' ms') :
    group'.scope = group.scope ∧ group'.groupId = group.groupId ∧
      group'.conversation = group.conversation := by
  cases h
  case reshaped hreshapes => exact ⟨hreshapes.scope, hreshapes.groupId, hreshapes.conversation⟩
  all_goals exact ⟨rfl, rfl, rfl⟩

-- No change gives a group another identity or another conversation.
theorem Applied.identity (h : Applied group ms actorScope actor change floor t) :
    t.group.scope = group.scope ∧ t.group.groupId = group.groupId ∧
      t.group.conversation = group.conversation := by
  cases h with
  | intro _ _ _ _ _ _ _ _ _ _ _ _ _ _ _ effect => exact effect.identity

theorem Applied.members (h : Applied group ms actorScope actor change floor t) :
    Members t.group t.memberships := by
  cases h with
  | intro _ _ _ _ _ _ _ _ _ _ _ _ _ _ _ _ members' => exact members'.sortOn

end Ucr
