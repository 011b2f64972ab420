import Ucr.Protocol.Theorems.GroupEffect

-- Who governs a group. Ownership is recorded twice, in the group record and in the members' roles;
-- both views agree along every run, and no change raises anybody's privileges without the owner.

namespace Ucr

open Except GroupRecord List

variable {group g : GroupRecord} {ms : List GroupMembership} {m : GroupMembership}
  {p actor : PrincipalRef} {actorScope : TenantScope} {change : GroupChange}
  {kind : GroupChangeKind} {context : GroupChangeContext} {floor : Option U64} {t : GroupTransition}
  {P : GroupMembership → Prop} {f : GroupMembership → GroupMembership}

-- Groups as they arise: created, then changed any number of times.
inductive GroupReachable : GroupRecord → List GroupMembership → Prop
  | created {group g : GroupRecord} {creatorScope : TenantScope} {creator : PrincipalRef}
      {m : GroupMembership} (h : canonicalGroupCreation group creatorScope creator = .ok (g, m)) :
      GroupReachable g [m]
  | changed {g : GroupRecord} {ms : List GroupMembership} {actorScope : TenantScope}
      {actor : PrincipalRef} {change : GroupChange} {floor : Option U64} {t : GroupTransition}
      (reachable : GroupReachable g ms)
      (h : applyGroupChange g ms actorScope actor change floor = .ok t) :
      GroupReachable t.group t.memberships

def Holds (ms : List GroupMembership) (p : PrincipalRef) (P : GroupMembership → Prop) : Prop :=
  ∃ m ∈ ms, m.member = p ∧ P m

def GroupMembership.IsActiveOwner (m : GroupMembership) : Prop :=
  m.state = .active ∧ m.role = .owner

def GroupMembership.IsActivePrivileged (m : GroupMembership) : Prop :=
  m.state = .active ∧ m.role.isPrivileged

def GroupOwnership.namedOwner : GroupOwnership → Option PrincipalRef
  | .personOwned owner | .organizationOwned owner => some owner
  | .sharedAdmin | .ownerlessFederated => none
  | .temporary owner _ => owner

-- Updates of an entry never hand it to another member.
def KeepsMember (f : GroupMembership → GroupMembership) : Prop :=
  ∀ m, (f m).member = m.member

theorem keepsMember_withRole (role : GroupRole) : KeepsMember (·.withRole role) :=
  fun _ => rfl

theorem keepsMember_removed (revision : U64) : KeepsMember (·.removed revision) :=
  fun _ => rfl

theorem keepsMember_rejoined (role : GroupRole) (revision floor : U64) :
    KeepsMember (·.rejoined role revision floor) :=
  fun _ => rfl

section Holds

@[simp]
theorem holds_sortOn : Holds (ms.sortOn (·.sortKey)) p P ↔ Holds ms p P := by
  simp only [Holds, mem_sortOn]

theorem Holds.of_mem (hm : m ∈ ms) (hP : P m) : Holds ms m.member P :=
  ⟨m, hm, rfl, hP⟩

-- With one entry a member, that entry decides.
theorem holds_iff_of_mem (hn : (ms.map (·.member)).Nodup) (hm : m ∈ ms) :
    Holds ms m.member P ↔ P m := by
  refine ⟨?_, .of_mem hm⟩
  rintro ⟨m', hm', hp, hP⟩
  exact inj_on_of_nodup_map hn hm' hm hp ▸ hP

theorem holds_updateMember (hn : (ms.map (·.member)).Nodup) (hf : KeepsMember f)
    (hm : m ∈ ms) :
    Holds (updateMember ms m.member f) p P ↔
      if p = m.member then P (f m) else Holds ms p P := by
  simp only [Holds, updateMember, mem_updateKey hn]
  split
  case isTrue h =>
    subst h
    constructor
    · rintro ⟨_, ⟨a, ha, hp, rfl⟩ | ⟨-, hne⟩, hm', hP⟩
      · exact inj_on_of_nodup_map hn ha hm hp ▸ hP
      · exact absurd hm' hne
    · exact fun hP => ⟨f m, .inl ⟨m, hm, rfl, rfl⟩, hf m, hP⟩
  case isFalse h =>
    constructor
    · rintro ⟨_, ⟨a, -, hp, rfl⟩ | ⟨hb, -⟩, hm', hP⟩
      · exact absurd (hm'.symm.trans ((hf a).trans hp)) h
      · exact ⟨_, hb, hm', hP⟩
    · rintro ⟨b, hb, rfl, hP⟩
      exact ⟨b, .inr ⟨hb, h⟩, rfl, hP⟩

theorem nodup_updateMember (hn : (ms.map (·.member)).Nodup) (hf : KeepsMember f) :
    ((updateMember ms p f).map (·.member)).Nodup := by
  rwa [updateMember, map_updateKey hf]

end Holds

variable {ownership : GroupOwnership}

section Effect

-- A property that an update leaves as it was.
theorem holds_updateMember_of_iff (hn : (ms.map (·.member)).Nodup)
    (hf : KeepsMember f) (hm : m ∈ ms) (hP : P (f m) ↔ P m) :
    Holds (updateMember ms m.member f) p P ↔ Holds ms p P := by
  rw [holds_updateMember hn hf hm]
  split
  case isTrue h  => rw [hP, h, holds_iff_of_mem hn hm]
  case isFalse h => rfl

theorem holds_append (hP : ¬P added) : Holds (ms ++ [added]) p P ↔ Holds ms p P := by
  simp [Holds, or_and_right, exists_or, hP]

theorem namedOwner_updateOwnership (h : updateOwnership ownership p = .ok ownership') :
    ownership'.namedOwner = some p := by
  unfold updateOwnership at h
  split at h
  case h_1 | h_2 =>
    simp only [ok_iff] at h
    obtain ⟨-, -, rfl⟩ := h
    rfl
  case h_3 =>
    obtain rfl := pure_eq_ok.mp h
    rfl
  all_goals simp at h

def GroupChangeContext.ActsIn (context : GroupChangeContext) (ms : List GroupMembership) : Prop :=
  Holds ms context.actor fun m => m.state = .active ∧ m.role = context.actorRole

def OwnersMatch (group : GroupRecord) (ms : List GroupMembership) : Prop :=
  ∀ p, Holds ms p (·.IsActiveOwner) ↔ group.ownership.namedOwner = some p

theorem ownersMatch_transfer (hn : (ms.map (·.member)).Nodup)
    (hacts : Holds ms actor (·.IsActiveOwner)) (hmatch : OwnersMatch group ms) (hmem : entry ∈ ms)
    (hstate : entry.state = .active) (hother : entry.member ≠ actor)
    (hnamed : ownership.namedOwner = some entry.member) :
    OwnersMatch { group with ownership := ownership }
      (updateMember (updateMember ms actor (·.withRole .admin)) entry.member (·.withRole .owner)) := by
  intro p
  have honly : ∀ q, Holds ms q (·.IsActiveOwner) → q = actor := fun q hq =>
    Option.mem_unique ((hmatch q).mp hq) ((hmatch actor).mp hacts)
  obtain ⟨a, ha, rfl, -⟩ := hacts
  have hn' : ((updateMember ms a.member (·.withRole .admin)).map (·.member)).Nodup :=
    nodup_updateMember hn (keepsMember_withRole _)
  have hmem' : entry ∈ updateMember ms a.member (·.withRole .admin) :=
    (mem_updateKey hn).mpr (.inr ⟨hmem, hother⟩)
  rw [holds_updateMember hn' (keepsMember_withRole _) hmem']
  simp only [hnamed, Option.some.injEq]
  split
  case isTrue h => exact iff_of_true ⟨hstate, rfl⟩ h.symm
  case isFalse h =>
    refine iff_of_false ?_ (Ne.symm h)
    rw [holds_updateMember hn (keepsMember_withRole _) ha]
    split
    case isTrue => simp [GroupMembership.IsActiveOwner, GroupMembership.withRole]
    case isFalse hp => exact fun hq => hp (honly p hq)

theorem ChangeEffect.ownersMatch (h : ChangeEffect group ms context kind group' ms')
    (hn : (ms.map (·.member)).Nodup) (hacts : context.ActsIn ms) (hmatch : OwnersMatch group ms) :
    OwnersMatch group' ms' := by
  cases h
  case added role floor _ hrole _ _ _ =>
    intro p
    rw [holds_append fun hnew => hrole hnew.2]
    exact hmatch p
  case rejoined entry role floor _ hrole _ _ hmem hstate =>
    intro p
    rw [holds_updateMember_of_iff hn (keepsMember_rejoined _ _ _) hmem
      (iff_of_false (fun h => hrole h.2) ?_)]
    · exact hmatch p
    · simp [GroupMembership.IsActiveOwner, hstate]
  case removed entry hmem _ hrole _ _ =>
    intro p
    rw [holds_updateMember_of_iff hn (keepsMember_removed _) hmem
      (iff_of_false ?_ fun h => hrole h.2)]
    · exact hmatch p
    · simp [GroupMembership.IsActiveOwner, GroupMembership.removed]
  case roleChanged entry role hmem _ _ hrole hwas =>
    intro p
    rw [holds_updateMember_of_iff hn (keepsMember_withRole _) hmem
      (iff_of_false (fun h => hrole h.2) fun h => hwas h.2)]
    exact hmatch p
  case transferred entry ownership hmem hstate hauth hother howner =>
    have hacts : Holds ms context.actor (·.IsActiveOwner) := by
      obtain ⟨a, ha, hp, hs, hr⟩ := hacts
      exact ⟨a, ha, hp, hs, hr.trans hauth⟩
    exact ownersMatch_transfer hn hacts hmatch hmem hstate hother (namedOwner_updateOwnership howner)
  case reshaped hreshape =>
    intro p
    rw [hreshape.ownership]
    exact hmatch p

-- Without the owner nobody gains privileges, and only the actor can give its own up.
theorem ChangeEffect.privileged (h : ChangeEffect group ms context kind group' ms')
    (hn : (ms.map (·.member)).Nodup) (hrole : context.actorRole ≠ .owner) :
    (Holds ms' p (·.IsActivePrivileged) → Holds ms p (·.IsActivePrivileged)) ∧
      (p ≠ context.actor → Holds ms p (·.IsActivePrivileged) →
        Holds ms' p (·.IsActivePrivileged)) := by
  have hmember : ∀ {role : GroupRole}, role ≠ .owner → (role = .admin → context.actorRole = .owner) →
      ¬role.isPrivileged := fun {role} howner hadmin => by
    cases role <;> simp_all [GroupRole.isPrivileged]
  cases h
  case added role floor _ howner hadmin _ _ =>
    rw [holds_append fun hnew => hmember howner hadmin hnew.2]
    exact ⟨id, fun _ => id⟩
  case rejoined entry role floor _ howner hadmin _ hmem hstate =>
    rw [holds_updateMember_of_iff hn (keepsMember_rejoined _ _ _) hmem
      (iff_of_false (fun hnew => hmember howner hadmin hnew.2) fun hwas => ?_)]
    · exact ⟨id, fun _ => id⟩
    · exact absurd (hstate.symm.trans hwas.1) (by simp)
  case removed entry hmem _ howner _ hadmin =>
    rw [holds_updateMember hn (keepsMember_removed _) hmem]
    split
    case isTrue h =>
      subst h
      refine ⟨fun hnew => ?_, fun hne hwas => ?_⟩
      · simp [GroupMembership.IsActivePrivileged, GroupMembership.removed] at hnew
      · have hwas := (holds_iff_of_mem hn hmem).mp hwas
        exact absurd hwas.2 (hmember howner (hadmin hne))
    case isFalse => exact ⟨id, fun _ => id⟩
  case roleChanged hauth _ _ => exact absurd hauth hrole
  case transferred hauth _ _ => exact absurd hauth hrole
  case reshaped => exact ⟨id, fun _ => id⟩

end Effect

section Runs

structure Governed (group : GroupRecord) (ms : List GroupMembership) : Prop where
  members : Members group ms
  owners : OwnersMatch group ms
  administered : ∃ m ∈ ms, m.IsActivePrivileged
  sorted : ms.SortedOn (·.sortKey)

theorem creatorRole_spec (h : creatorRole ownership p = .ok role) :
    role.isPrivileged ∧ ∀ q, (role = .owner ∧ q = p) ↔ ownership.namedOwner = some q := by
  unfold creatorRole at h
  split at h
  case h_1 | h_2 | h_5 =>
    simp only [ok_iff, exists_const, not_or, not_not, ne_eq] at h
    obtain ⟨⟨rfl, -⟩, rfl⟩ := h
    exact ⟨rfl, fun q => by simp [GroupOwnership.namedOwner, eq_comm]⟩
  all_goals
    obtain rfl := pure_eq_ok.mp h
    exact ⟨rfl, by simp [GroupOwnership.namedOwner]⟩

theorem governed_created (h : canonicalGroupCreation group creatorScope creator = .ok (g, m)) :
    Governed g [m] := by
  simp only [canonicalGroupCreation, ok_iff, exists_const, not_or, not_not, Prod.mk.injEq, ne_eq] at h
  obtain ⟨-, _, -, ⟨hrev, -⟩, role, hrole, rfl, rfl⟩ := h
  obtain ⟨hpriv, hnamed⟩ := creatorRole_spec hrole
  constructor
  case members =>
    refine ⟨by simp [maxGroupMembers], fun m hm => ?_, by simp⟩
    obtain rfl := mem_singleton.mp hm
    exact ⟨rfl, rfl, rfl, hrev ▸ le_rfl, rfl⟩
  case owners =>
    intro q
    rw [← hnamed q]
    simp [Holds, GroupMembership.IsActiveOwner, GroupMembership.joined, and_comm, eq_comm]
  case administered => exact ⟨_, mem_singleton_self _, rfl, hpriv⟩
  case sorted => exact pairwise_singleton _ _

theorem Governed.applied (h : Governed group ms)
    (ha : Applied group ms actorScope actor change floor t) : Governed t.group t.memberships := by
  obtain ⟨entry, crypto, revision, generation, group', ms', -, hmembers, -, -, hmem, hmember, hstate,
    -, -, heffect, hmembers', hadmin⟩ := ha
  have hsorted := hmembers.sortOn
  have hacts : GroupChangeContext.ActsIn ⟨actor, entry.role, revision, floor⟩
      (ms.sortOn (·.sortKey)) := ⟨entry, mem_sortOn.mpr hmem, hmember, hstate, rfl⟩
  have howners : OwnersMatch group' ms' :=
    heffect.ownersMatch hsorted.nodup hacts fun p => holds_sortOn.trans (h.owners p)
  refine ⟨hmembers'.sortOn, fun p => holds_sortOn.trans (howners p), ?_, sortedOn_sortOn⟩
  obtain ⟨m, hm, hm'⟩ := hadmin
  exact ⟨m, mem_sortOn.mpr hm, hm'⟩

theorem GroupReachable.governed (h : GroupReachable g ms) : Governed g ms := by
  induction h
  case created h => exact governed_created h
  case changed _ h ih => exact ih.applied (applyGroupChange_applied h)

-- Ownership and administration never drift.
theorem group_governance_never_drifts (h : GroupReachable g ms) :
    {p | ∃ m ∈ ms, m.member = p ∧ m.state = .active ∧ m.role = .owner} =
        {p | g.ownership.namedOwner = some p} ∧
      (∀ m ∈ ms, g.ownership.namedOwner = some m.member → m.state = .active) ∧
      (ms.map (·.member)).Nodup ∧ ms.length ≤ maxGroupMembers ∧
      (∃ m ∈ ms, m.state = .active ∧ (m.role = .owner ∨ m.role = .admin)) ∧
      ∀ m ∈ ms, m.permissions = groupPermissionsForRole m.role := by
  have hg := h.governed
  refine ⟨Set.ext hg.owners, fun m hm hnamed => ?_, hg.members.nodup, hg.members.le_max, ?_,
    fun m hm => (hg.members.valid m hm).permissions⟩
  · have howner := (hg.owners m.member).mpr hnamed
    exact ((holds_iff_of_mem hg.members.nodup hm).mp howner).1
  · obtain ⟨m, hm, hs, hr⟩ := hg.administered
    refine ⟨m, hm, hs, ?_⟩
    cases hrole : m.role <;> simp_all [GroupRole.isPrivileged]

def privilegedPrincipals (ms : List GroupMembership) : Set PrincipalRef :=
  {p | ∃ m ∈ ms, m.member = p ∧ m.state = .active ∧ (m.role = .owner ∨ m.role = .admin)}

theorem mem_privilegedPrincipals :
    p ∈ privilegedPrincipals ms ↔ Holds ms p (·.IsActivePrivileged) := by
  have hrole : ∀ role : GroupRole, (role = .owner ∨ role = .admin) ↔ role.isPrivileged := by
    intro role
    cases role <;> simp [GroupRole.isPrivileged]
  simp only [privilegedPrincipals, Holds, GroupMembership.IsActivePrivileged, hrole, Set.mem_ofPred_eq]

-- What a change by an acting member of the given role may do without the owner's authority.
structure NoEscalation (group : GroupRecord) (ms : List GroupMembership) (actor : PrincipalRef)
    (role : GroupRole) (t : GroupTransition) : Prop where
  withoutOwner : role ≠ .owner →
    privilegedPrincipals t.memberships ⊆ privilegedPrincipals ms ∧
      privilegedPrincipals ms ⊆ insert actor (privilegedPrincipals t.memberships)
  plainMember : role = .member →
    t.memberships =
        ms.map (fun m => if m.member = actor then m.removed t.group.revision else m) ∧
      t.group = { group with
        revision := t.group.revision
        replicationGeneration := t.group.replicationGeneration
        cryptoState := t.group.cryptoState }

-- A plain member can only leave.
theorem ChangeEffect.plainMember (h : ChangeEffect group ms context kind group' ms')
    (hrole : context.actorRole = .member) :
    group' = group ∧ ms' = updateMember ms context.actor (·.removed context.nextRevision) := by
  have hunpriv : ¬context.actorRole.isPrivileged := by simp [hrole, GroupRole.isPrivileged]
  cases h
  case removed entry _ _ _ hauth _ =>
    have hself : entry.member = context.actor := by
      by_contra hne
      exact hunpriv (hauth hne)
    exact ⟨rfl, by rw [hself]⟩
  case roleChanged hauth _ _ => simp [hrole] at hauth
  case transferred hauth _ _ => simp [hrole] at hauth
  all_goals contradiction

theorem sortedOn_updateMember (p : PrincipalRef) (hn : (ms.map (·.member)).Nodup) (hf : KeepsMember f)
    (hs : ms.SortedOn (·.sortKey)) : (updateMember ms p f).SortedOn (·.sortKey) := by
  rw [updateMember, updateKey_eq_map hn]
  refine hs.map fun m => ?_
  split
  case isTrue  => simp only [GroupMembership.sortKey, hf m]
  case isFalse => rfl

theorem Applied.plainMember (h : Governed group ms)
    (ha : Applied group ms actorScope actor change floor t) (hm : m ∈ ms) (hmember : m.member = actor)
    (hrole : m.role = .member) :
    t.memberships =
        ms.map (fun m => if m.member = actor then m.removed t.group.revision else m) ∧
      t.group = { group with
        revision := t.group.revision
        replicationGeneration := t.group.replicationGeneration
        cryptoState := t.group.cryptoState
        bridgeMappings := group.sorted.bridgeMappings } := by
  obtain ⟨entry, crypto, revision, generation, group', ms', -, hmembers, -, -, hmem, rfl, hstate,
    -, -, heffect, -, -⟩ := ha
  obtain rfl := inj_on_of_nodup_map hmembers.nodup hm hmem hmember
  rw [sortOn_of_sortedOn h.sorted] at heffect
  obtain ⟨rfl, rfl⟩ := heffect.plainMember hrole
  refine ⟨?_, rfl⟩
  have hsorted := sortedOn_updateMember m.member hmembers.nodup (keepsMember_removed revision)
    h.sorted
  rw [sortOn_of_sortedOn hsorted, updateMember, updateKey_eq_map hmembers.nodup]

theorem Applied.withoutOwner (ha : Applied group ms actorScope actor change floor t) (hm : m ∈ ms)
    (hmember : m.member = actor) (hrole : m.role ≠ .owner) :
    privilegedPrincipals t.memberships ⊆ privilegedPrincipals ms ∧
      privilegedPrincipals ms ⊆ insert actor (privilegedPrincipals t.memberships) := by
  obtain ⟨entry, crypto, revision, generation, group', ms', -, hmembers, -, -, hmem, rfl, hstate,
    -, -, heffect, -, -⟩ := ha
  obtain rfl := inj_on_of_nodup_map hmembers.nodup hm hmem hmember
  have heff := fun p => heffect.privileged (p := p) hmembers.sortOn.nodup hrole
  simp only [holds_sortOn] at heff
  constructor
  · intro p hp
    rw [mem_privilegedPrincipals, holds_sortOn] at hp
    exact mem_privilegedPrincipals.mpr ((heff p).1 hp)
  · intro p hp
    rw [Set.mem_insert_iff, or_iff_not_imp_left, mem_privilegedPrincipals, holds_sortOn]
    exact fun hne => (heff p).2 hne (mem_privilegedPrincipals.mp hp)

-- Changes never escalate privileges, and a plain member changes nothing else either, exactly as
-- long as it does not meet a record whose bridge mappings an earlier change has left out of order.
theorem no_privilege_escalation_iff (h : GroupReachable g ms)
    (ha : applyGroupChange g ms actorScope actor change floor = .ok t) (hm : m ∈ ms)
    (hmember : m.member = actor) :
    NoEscalation g ms actor m.role t ↔
      (m.role = .member → g.bridgeMappings.SortedOn (·.sortKey)) := by
  have happ := applyGroupChange_applied ha
  constructor
  · intro hno hrole
    have hafter := congrArg bridgeMappings
      (happ.plainMember h.governed hm hmember hrole).2
    have hsame := congrArg bridgeMappings (hno.plainMember hrole).2
    have hmap : g.bridgeMappings = g.sorted.bridgeMappings := hsame.symm.trans hafter
    rw [hmap]
    exact sortedOn_sortOn
  · intro hsorted
    refine ⟨happ.withoutOwner hm hmember, fun hrole => ?_⟩
    obtain ⟨hms, hgroup⟩ := happ.plainMember h.governed hm hmember hrole
    have hmap : g.sorted.bridgeMappings = g.bridgeMappings :=
      sortOn_of_sortedOn (hsorted hrole)
    rw [hmap] at hgroup
    exact ⟨hms, hgroup⟩

end Runs

section Canonical

def GroupChangeKind.remap (mappings : List GroupBridgeMapping) :
    GroupChangeKind → List GroupBridgeMapping
  | .addBridgeMapping mapping => mappings ++ [mapping]
  | .removeBridgeMapping integrationId externalGroupId =>
    mappings.erase ⟨integrationId, externalGroupId⟩
  | _ => mappings

theorem validateOwnership_updated (h : updateOwnership ownership p = .ok ownership')
    (hv : validateOwnership ownership = .ok ()) : validateOwnership ownership' = .ok () := by
  cases ownership <;> simp only [updateOwnership, ok_iff, throw_ne_ok] at h
  case temporary =>
    subst h
    exact hv
  all_goals
    obtain ⟨-, hkind, rfl⟩ := h
    exact rejectIf_eq_ok.mpr hkind

theorem GroupRecord.Valid.changed (hv : group.Valid)
    (h : applyChangeKind group ms change context = .ok (group', ms')) :
    group'.Valid ∧ group'.bridgeMappings = change.kind.remap group.bridgeMappings := by
  cases hkind : change.kind <;>
    simp only [applyChangeKind, hkind, applyOwnershipTransfer, applyHistoryPolicy, applyPublicPolicy,
      applyDeliveryPolicy, applyAddBridgeMapping, applyRemoveBridgeMapping, ok_iff] at h
  case addMember | removeMember | changeRole =>
    obtain ⟨_, -, rfl, rfl⟩ := h
    exact ⟨hv, rfl⟩
  case transferOwnership =>
    obtain ⟨-, -, -, -, -, -, _, howner, rfl, rfl⟩ := h
    exact ⟨{ hv with ownership := validateOwnership_updated howner hv.ownership }, rfl⟩
  case setHistoryPolicy =>
    obtain ⟨_, ⟨-, -, _, hpolicy, rfl⟩, rfl, rfl⟩ := h
    exact ⟨{ hv with historyPolicy := hpolicy }, rfl⟩
  case setPublicPolicy =>
    obtain ⟨_, ⟨-, -, -, hpublic, rfl⟩, rfl, rfl⟩ := h
    exact ⟨{ hv with publicPolicy := by simp_all [validatePublicPolicy] }, rfl⟩
  case setDeliveryPolicy =>
    obtain ⟨_, ⟨-, -, rfl⟩, rfl, rfl⟩ := h
    exact ⟨{ hv with }, rfl⟩
  case addBridgeMapping =>
    obtain ⟨_, ⟨-, -, _, hmapping, -, hroom, -, hfresh, rfl⟩, rfl, rfl⟩ := h
    exact ⟨{ hv with
      le_max := by
        rw [length_append]
        exact Nat.lt_of_not_ge hroom
      mapping := by
        simp only [mem_append, mem_singleton, or_imp, forall_and, forall_eq]
        exact ⟨hv.mapping, hmapping⟩
      nodup := by simpa [nodup_append, hv.nodup] using hfresh }, rfl⟩
  case removeBridgeMapping =>
    obtain ⟨_, ⟨-, -, -, -, rfl⟩, rfl, rfl⟩ := h
    exact ⟨{ hv with
      le_max := length_erase_le.trans hv.le_max
      mapping := fun m hm => hv.mapping m (mem_of_mem_erase hm)
      nodup := hv.nodup.sublist (erase_sublist.map _) }, rfl⟩

theorem applyGroupChange_record (h : applyGroupChange group ms actorScope actor change floor = .ok t) :
    t.group.Valid ∧ t.group.bridgeMappings = change.kind.remap group.sorted.bridgeMappings := by
  simp only [applyGroupChange, ok_iff, canonicalGroupRecord_eq_ok] at h
  obtain ⟨_, ⟨hv, rfl⟩, _, -, _, -, _, -, _, -, _, -, _, hcrypto, _, hkind, _, -, _, -, rfl⟩ := h
  obtain ⟨crypto, rfl, hadvanced⟩ := applyChangeCrypto_eq hcrypto
  have hsorted : { group.sorted with cryptoState := crypto }.Valid := { hv with
    cryptoState := hadvanced hv.cryptoState
    le_max := by simpa [GroupRecord.sorted] using hv.le_max
    mapping := by simpa [GroupRecord.sorted] using hv.mapping
    nodup := (nodup_map_sortOn _).mpr hv.nodup }
  obtain ⟨hv', hmappings⟩ := hsorted.changed hkind
  exact ⟨{ hv' with }, hmappings⟩

-- What a change returns is canonical exactly if it maps no bridge that belongs before another one:
-- the new mapping is put at the end of a record that was sorted on entry only.
theorem change_returns_canonical_iff
    (h : applyGroupChange group ms actorScope actor change floor = .ok t) :
    (canonicalGroupRecord t.group = .ok t.group ∧
        canonicalGroupMemberships t.group t.memberships = .ok t.memberships) ↔
      ∀ mapping, change.kind = .addBridgeMapping mapping →
        ∀ existing ∈ group.bridgeMappings, existing.sortKey ≤ mapping.sortKey := by
  obtain ⟨hv, hmappings⟩ := applyGroupChange_record h
  have hmembers : canonicalGroupMemberships t.group t.memberships = .ok t.memberships := by
    obtain ⟨_, _, _, _, _, _, -, -, -, -, -, -, -, -, -, -, hms, -⟩ := applyGroupChange_applied h
    exact canonicalGroupMemberships_eq_ok.mpr ⟨hms.sortOn, sortOn_sortOn⟩
  have hsorted : group.sorted.bridgeMappings.SortedOn (·.sortKey) := sortedOn_sortOn
  have hiff : canonicalGroupRecord t.group = .ok t.group ↔
      t.group.bridgeMappings.SortedOn (·.sortKey) := by
    rw [canonicalGroupRecord_eq_ok, and_iff_right hv]
    refine ⟨fun heq => ?_, fun hs => ?_⟩
    · rw [← heq]
      exact sortedOn_sortOn
    · simp only [GroupRecord.sorted, sortOn_of_sortedOn hs]
  rw [and_iff_left hmembers, hiff, hmappings]
  cases hkind : change.kind
  case addBridgeMapping =>
    simpa [GroupChangeKind.remap, List.SortedOn, pairwise_append,
      GroupRecord.sorted] using fun _ => hsorted
  case removeBridgeMapping => simpa [GroupChangeKind.remap, List.SortedOn] using hsorted.erase _
  all_goals simpa [GroupChangeKind.remap] using hsorted

end Canonical

namespace Scenario

-- Alice founds a club and takes Bob in.
def club : GroupRecord where
  scope := tenant
  groupId := named "club"
  conversation := ⟨named "club-chat", .privateGroup⟩
  ownership := .personOwned alice
  historyPolicy := .noHistory
  deliveryPolicy := .durable
  cryptoState := ⟨none, 0, none⟩
  publicPolicy := none
  mediaState := .idle
  bridgeMappings := []
  replicationGeneration := 0
  revision := 0

def aliceFounds : GroupMembership := .joined club alice .owner 0 0

def clubChange (eventId : OpaqueId) (revision : U64) (kind : GroupChangeKind) : GroupChange where
  eventId := eventId
  scope := tenant
  groupId := club.groupId
  expectedRevision := revision
  kind := kind
  nextCryptoState := none

def addBob : EventId := named "add-bob"

def clubOfTwo : GroupTransition where
  group := { club with revision := 1, replicationGeneration := 1 }
  memberships := [aliceFounds, .joined club bob .member 1 5]

theorem clubOfTwo_eq :
    applyGroupChange club [aliceFounds] tenant alice
      (clubChange addBob 0 (.addMember bob .member)) (some 5) =
      .ok clubOfTwo := by
  decide +kernel

theorem clubOfTwo_reachable : GroupReachable clubOfTwo.group clubOfTwo.memberships := by
  have hfounded : canonicalGroupCreation club tenant alice = .ok (club, aliceFounds) := by
    decide +kernel
  exact .changed (.created hfounded) clubOfTwo_eq

-- A bridge is mapped, and then another one that comes before or after it in canonical order.
def bridgeA : GroupBridgeMapping := ⟨named "a-bridge", [1]⟩
def bridgeB : GroupBridgeMapping := ⟨named "b-bridge", [2]⟩
def bridgeC : GroupBridgeMapping := ⟨named "c-bridge", [1]⟩

def bridgedClub (mappings : List GroupBridgeMapping) (revision : U64) : GroupTransition where
  group := { club with
    bridgeMappings := mappings, revision := revision, replicationGeneration := revision }
  memberships := clubOfTwo.memberships

def mapsBridge (t : GroupTransition) (mapping : GroupBridgeMapping) :
    Except GroupError GroupTransition :=
  applyGroupChange t.group t.memberships tenant alice
    (clubChange (named "map-bridge") t.group.revision (.addBridgeMapping mapping)) none

theorem bridgeB_mapped : mapsBridge clubOfTwo bridgeB = .ok (bridgedClub [bridgeB] 2) := by
  decide +kernel

theorem bridgeA_mapped :
    mapsBridge (bridgedClub [bridgeB] 2) bridgeA = .ok (bridgedClub [bridgeB, bridgeA] 3) := by
  decide +kernel

def bobLeaves (revision : U64) : GroupChange :=
  clubChange (named "bob-leaves") revision (.removeMember bob)

-- The club once Bob has left, with its bridge mappings in canonical order.
def clubWithoutBob (mappings : List GroupBridgeMapping) (revision : U64) : GroupTransition where
  group := { club with
    bridgeMappings := mappings, revision := revision, replicationGeneration := revision }
  memberships := [aliceFounds, (GroupMembership.joined club bob .member 1 5).removed revision]

end Scenario

open Scenario

theorem clubOfTwo_governance :
    {p | ∃ m ∈ clubOfTwo.memberships, m.member = p ∧ m.state = .active ∧ m.role = .owner} =
      {p | clubOfTwo.group.ownership.namedOwner = some p} :=
  (group_governance_never_drifts clubOfTwo_reachable).1

theorem bob_leaves_without_escalation :
    NoEscalation clubOfTwo.group clubOfTwo.memberships bob .member (clubWithoutBob [] 2) := by
  have hstep : applyGroupChange clubOfTwo.group clubOfTwo.memberships tenant bob (bobLeaves 1)
      none = .ok (clubWithoutBob [] 2) := by
    decide +kernel
  have hbob : GroupMembership.joined club bob .member 1 5 ∈ clubOfTwo.memberships := by decide
  exact (no_privilege_escalation_iff clubOfTwo_reachable hstep hbob rfl).mpr fun _ => .nil

theorem bob_leaving_reorders_bridge_mappings :
    let t := bridgedClub [bridgeB, bridgeA] 3
    GroupReachable t.group t.memberships ∧
      applyGroupChange t.group t.memberships tenant bob (bobLeaves 3) none =
        .ok (clubWithoutBob [bridgeA, bridgeB] 4) ∧
      ¬NoEscalation t.group t.memberships bob .member (clubWithoutBob [bridgeA, bridgeB] 4) := by
  refine ⟨.changed (.changed clubOfTwo_reachable bridgeB_mapped) bridgeA_mapped,
    by decide +kernel, fun h => ?_⟩
  have hgroup := congrArg bridgeMappings (h.plainMember rfl).2
  exact absurd hgroup (by decide)

theorem bridges_in_order_are_canonical :
    let t := bridgedClub [bridgeB, bridgeC] 3
    mapsBridge (bridgedClub [bridgeB] 2) bridgeC = .ok t ∧
      canonicalGroupRecord t.group = .ok t.group ∧
      canonicalGroupMemberships t.group t.memberships = .ok t.memberships := by
  intro t
  have hmapped : mapsBridge (bridgedClub [bridgeB] 2) bridgeC = .ok t := by decide +kernel
  refine ⟨hmapped, (change_returns_canonical_iff hmapped).mpr ?_⟩
  rintro _ ⟨⟩
  decide

theorem bridges_out_of_order_are_not_canonical :
    let t := bridgedClub [bridgeB] 2
    let t' := bridgedClub [bridgeB, bridgeA] 3
    canonicalGroupRecord t.group = .ok t.group ∧ mapsBridge t bridgeA = .ok t' ∧
      canonicalGroupRecord t'.group ≠ .ok t'.group :=
  ⟨by decide +kernel, bridgeA_mapped, by decide +kernel⟩

end Ucr
