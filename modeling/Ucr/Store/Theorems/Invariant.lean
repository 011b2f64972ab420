import Ucr.Store.Theorems.OpEffects

-- Invariants of the store are proved along its transitions: every run of operations is made of
-- them.

namespace Ucr

open Except Relation Table

variable {s s' : MemoryState} {cause : Cause}

namespace MemoryState

inductive Transition (s s' : MemoryState) : Prop
  | same (h : s.SameCore s')
  | effect (cause : Cause) (h : s.Effect cause s')
  | group (h : s.GroupEffect s')

abbrev Transitions := ReflTransGen Transition

-- All states that occur in a run from the empty store, those inside of an operation included.
def Attainable (s : MemoryState) : Prop :=
  Transitions .empty s

theorem Effects.transitions (h : s.Effects cause s') : s.Transitions s' :=
  h.lift id fun _ _ => .effect cause

theorem Changes.transitions (h : s.Changes cause s') : s.Transitions s' := by
  cases h
  case of_effects h => exact h.transitions
  case of_group before group after _ _ =>
    exact (before.transitions.tail (.group group)).trans after.transitions

section Keyed

theorem Keyed.empty : MemoryState.empty.Keyed := by
  constructor <;> simp [MemoryState.empty]

theorem Keyed.congr (hs : s.Keyed) (h : s.SameCore s') : s'.Keyed where
  calls := h.calls ▸ hs.calls
  groups := h.groups ▸ hs.groups
  memberships := h.memberships ▸ hs.memberships
  messages := h.messages ▸ hs.messages

theorem reconcileGroupCalls_get {group ms calls key call}
    (h : s.reconcileGroupCallsAfterMembershipChange group ms = .ok calls)
    (hget : s.calls.get key = some call) :
    ∃ next, calls.get key = some next ∧
      ((call.scope = group.scope ∧ call.conversation = group.conversation) ∧
          reconcileGroupCallMembership call (activeMembersOf ms) = .ok next ∨
        ¬(call.scope = group.scope ∧ call.conversation = group.conversation) ∧ next = call) := by
  unfold reconcileGroupCallsAfterMembershipChange at h
  obtain ⟨r, hr, hnext⟩ := (get_rewriteM h).2 call hget
  refine ⟨_, hnext, ?_⟩
  split at hr
  case isTrue hother =>
    obtain rfl := pure_eq_ok.mp hr
    exact .inr ⟨by tauto, rfl⟩
  case isFalse hsame =>
    simp only [not_or, ne_eq, not_not] at hsame
    simp only [ok_iff] at hr
    obtain ⟨next, hreconciled, rfl⟩ := hr
    refine .inl ⟨hsame, hreconciled.trans (congrArg _ ?_)⟩
    split
    case isTrue  => rfl
    case isFalse heq => simpa using heq

-- What a signal that the store accepts does to the stored call.
theorem signalled_preserves {actor : ScopedPrincipal} {signal : CallSignal}
    (hstored : s.validatedCallFromState signal.scope signal.callId = .ok (some current))
    (happlied : applyCallSignal current actor.scope actor.principal signal = .ok next) :
    current.Preserves next := by
  obtain ⟨stored, -, hcanonical⟩ := validatedCallFromState_get hstored
  exact CallStep.preserves (canonical_of_canonicalCallSession hcanonical)
    (.signal actor.scope actor.principal signal happlied)

theorem Effect.keyed (h : s.Effect cause s') (hs : s.Keyed) : s'.Keyed := by
  cases h
  case other same _ _ => exact hs.congr same
  case conversationStored => exact { hs with }
  case callCreated => exact { hs with calls := forall_put hs.calls rfl }
  case callSignalled actor signal current next _ stored _ _ applied =>
    have hpreserves := signalled_preserves stored applied
    obtain ⟨hscope, hid⟩ := hs.validated stored
    refine { hs with calls := forall_put hs.calls ?_ }
    rw [hpreserves.continues.scope, hpreserves.continues.callId, hscope, hid]
  case messageStored => exact { hs with messages := forall_put hs.messages rfl }
  case messageExported => exact { hs with }
  case grantIssued => exact { hs with }
  case grantsDecayed => exact { hs with }

section ReplaceMembers

variable {key : TenantScope × GroupId × PrincipalRef}

theorem get_replaceMembers_other (hs : s.Keyed)
    (hms : ∀ m ∈ ms, m.scope = scope ∧ m.groupId = groupId)
    (hkey : ¬(key.1 = scope ∧ key.2.1 = groupId)) :
    (s.replaceMembers scope groupId ms).get key = s.groupMemberships.get key := by
  have hnew : key ∉ (ms.map fun m => (membershipKey m, m)).map Prod.fst := by
    simp only [List.map_map, List.mem_map, Function.comp_apply, not_exists, not_and]
    rintro m hm rfl
    exact hkey (hms m hm)
  rw [replaceMembers, get_putAll_of_notMem hnew]
  cases hold : s.groupMemberships.get key
  case none => exact get_retain_none hold
  case some m =>
    refine get_retain.mpr ⟨hold, ?_⟩
    obtain rfl := hs.memberships key m hold
    simp only [membershipKey, not_and] at hkey
    by_cases hscope : m.scope = scope <;> simp [hscope, hkey]

theorem get_replaceMembers_own (hs : s.Keyed)
    (hms : ∀ m ∈ ms, m.scope = scope ∧ m.groupId = groupId) (hn : (ms.map (·.member)).Nodup) :
    (s.replaceMembers scope groupId ms).get (scope, groupId, p) = some m ↔
      m ∈ ms ∧ m.member = p := by
  have hkey : ∀ m ∈ ms, membershipKey m = (scope, groupId, m.member) := fun m hm => by
    rw [membershipKey, (hms m hm).1, (hms m hm).2]
  have hkeys : (ms.map fun m => (membershipKey m, m)).map Prod.fst =
      ms.map fun m => (scope, groupId, m.member) := by
    rw [List.map_map]
    exact List.map_congr_left fun m hm => hkey m hm
  have hnodup : ((ms.map fun m => (membershipKey m, m)).map Prod.fst).Nodup := by
    rw [hkeys]
    refine List.Nodup.of_map (·.2.2) ?_
    simpa [List.map_map, Function.comp_def] using hn
  have hto : ∀ m ∈ ms, (s.replaceMembers scope groupId ms).get (scope, groupId, m.member) =
      some m := fun m hm =>
    get_putAll_of_mem hnodup (List.mem_map.mpr ⟨m, hm, by rw [hkey m hm]⟩)
  constructor
  · intro hget
    by_cases hmem : ∃ m' ∈ ms, m'.member = p
    · obtain ⟨m', hm', rfl⟩ := hmem
      obtain rfl := Option.mem_unique (hto m' hm') hget
      exact ⟨hm', rfl⟩
    · have hnew : (scope, groupId, p) ∉ (ms.map fun m => (membershipKey m, m)).map Prod.fst := by
        rw [hkeys]
        simpa using hmem
      rw [replaceMembers, get_putAll_of_notMem hnew] at hget
      obtain ⟨hold, hkept⟩ := get_retain.mp hget
      have heq := hs.memberships _ m hold
      simp only [membershipKey, Prod.mk.injEq] at heq
      simp [heq] at hkept
  · rintro ⟨hm, rfl⟩
    exact hto m hm

end ReplaceMembers

-- A change of a stored group keeps its identity, and all entries it leads to belong to it.
theorem changed_identity {actor : ScopedPrincipal} {change : GroupChange} (hs : s.Keyed)
    (stored : s.groups.get (change.scope, change.groupId) = some group)
    (applied : Ucr.applyGroupChange group (s.membersOf change.scope change.groupId) actor.scope
      actor.principal change floor = .ok transition) :
    (transition.group.scope = change.scope ∧ transition.group.groupId = change.groupId) ∧
      ∀ m ∈ transition.memberships, m.scope = change.scope ∧ m.groupId = change.groupId := by
  have happlied := applyGroupChange_applied applied
  obtain ⟨hscope, hid, -⟩ := happlied.identity
  obtain ⟨hscope', hid'⟩ := Prod.mk.inj (hs.groups _ group stored)
  refine ⟨⟨hscope.trans hscope', hid.trans hid'⟩, fun m hm => ?_⟩
  have hvalid := happlied.members.valid m hm
  exact ⟨hvalid.scope.trans (hscope.trans hscope'), hvalid.groupId.trans (hid.trans hid')⟩

theorem GroupEffect.keyed (h : s.GroupEffect s') (hs : s.Keyed) : s'.Keyed := by
  cases h
  case groupCreated creator given group membership floor creation _ _ _ _ =>
    simp only [canonicalGroupCreation, ok_iff] at creation
    obtain ⟨-, -, _, -, -, -, _, -, rfl, rfl⟩ := creation
    exact { hs with
      groups := forall_put hs.groups rfl, memberships := forall_put hs.memberships rfl }
  case groupChanged actor change group floor transition calls stored _ applied reconciled =>
    have happlied := applyGroupChange_applied applied
    obtain ⟨⟨hscope, hid⟩, hms⟩ := changed_identity hs stored applied
    refine { hs with calls := fun key next hnext => ?_, groups := ?_, memberships := ?_ }
    · cases hcall : s.calls.get key
      case none => simp [(get_rewriteM reconciled).1 hcall] at hnext
      case some call =>
        obtain ⟨_, hget, hcases⟩ := reconcileGroupCalls_get reconciled hcall
        obtain rfl := Option.mem_unique hget hnext
        have hkey := hs.calls key call hcall
        obtain ⟨-, hreconciled⟩ | ⟨-, rfl⟩ := hcases
        · have hcontinues := reconcileGroupCallMembership_continues hreconciled
          rw [hcontinues.scope, hcontinues.callId, hkey]
        · exact hkey
    · exact forall_put hs.groups (by rw [hscope, hid])
    · intro key m hm
      by_cases hown : key.1 = change.scope ∧ key.2.1 = change.groupId
      · obtain ⟨scope, groupId, p⟩ := key
        obtain ⟨rfl, rfl⟩ := hown
        obtain ⟨hmem, rfl⟩ := (get_replaceMembers_own hs hms happlied.members.nodup).mp hm
        rw [membershipKey, (hms m hmem).1, (hms m hmem).2]
      · dsimp only at hm
        rw [get_replaceMembers_other hs hms hown] at hm
        exact hs.memberships key m hm

theorem Transition.keyed (h : s.Transition s') (hs : s.Keyed) : s'.Keyed := by
  cases h
  case same h   => exact hs.congr h
  case effect h => exact h.keyed hs
  case group h  => exact h.keyed hs

theorem Transitions.keyed (h : s.Transitions s') (hs : s.Keyed) : s'.Keyed := by
  induction h
  case refl => exact hs
  case tail step ih => exact step.keyed ih

end Keyed

theorem Attainable.keyed (hs : s.Attainable) : s.Keyed :=
  Transitions.keyed hs .empty

theorem run_transitions (hs : s.Keyed) (op : StoreOp) : s.Transitions (op.run s) := by
  have hcases := run_cases hs op
  split at hcases
  case h_1 => exact .single (.same hcases.sameCore)
  case h_2 => exact hcases.transitions

theorem runs_transitions (hs : s.Attainable) (hrun : StoreRun s s') : s.Transitions s' := by
  induction hrun
  case refl => exact .refl
  case tail step ih =>
    obtain ⟨op, rfl⟩ := step
    have hkeyed := Transitions.keyed ih hs.keyed
    exact ih.trans (run_transitions hkeyed op)

-- The tables of the areas an operation does not work in stay as they are.
theorem run_keeps (hs : s.Keyed) (op : StoreOp) :
    Keeps op.area s.toAreaTables (op.run s).toAreaTables := by
  have hcases := run_cases hs op
  split at hcases
  case h_1 =>
    obtain hsame | ⟨sub, hput⟩ := hcases
    · rw [hsame]
      exact .of_eq rfl
    · rw [hput]
      exact .of_eq rfl
  case h_2 => cases op <;> exact hcases.keeps

theorem Attainable.run (hs : s.Attainable) (hrun : StoreRun s s') : s'.Attainable :=
  hs.trans (runs_transitions hs hrun)

theorem Reachable.attainable (hs : s.Reachable) : s.Attainable :=
  Attainable.run .refl hs

theorem Effects.induction {Q : MemoryState → Prop} (hs : s.Attainable)
    (effect : ∀ a b, a.Attainable → a.Effect cause b → Q a → Q b) (h : s.Effects cause s')
    (hq : Q s) : s'.Attainable ∧ Q s' := by
  induction h
  case refl => exact ⟨hs, hq⟩
  case tail step ih =>
    exact ⟨ih.1.tail (.effect cause step), effect _ _ ih.1 step ih.2⟩

-- What survives each effect an operation can have survives the operation.
theorem run_induction {Q : MemoryState → Prop} (hs : s.Attainable) (op : StoreOp)
    (same : ∀ a b, a.SameCore b → Q a → Q b)
    (effect : ∀ a b, a.Attainable → a.Effect (op.cause s) b → Q a → Q b)
    (group : ∀ a b, a.Attainable → a.GroupEffect b → Q a → Q b) (hq : Q s) : Q (op.run s) := by
  have hcases := run_cases hs.keyed op
  split at hcases
  case h_1 => exact same _ _ hcases.sameCore hq
  case h_2 =>
    cases hcases
    case of_effects h => exact (h.induction hs effect hq).2
    case of_group hbefore hgroup hafter _ _ =>
      obtain ⟨hs₁, hq₁⟩ := hbefore.induction hs effect hq
      exact (hafter.induction (hs₁.tail (.group hgroup)) effect (group _ _ hs₁ hgroup hq₁)).2

end MemoryState

end Ucr
