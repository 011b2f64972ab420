import Ucr.Lib.Unwinding
import Ucr.Store.DeviceStore

-- What happens to recovery plans, and what a tenant sees of it.

namespace Ucr

open Except Option

variable {s t : MemoryState} {scope : TenantScope} {identityId : IdentityId} {plan : RecoveryPlan}
  {planId : RecoveryPlanId}

theorem canonicalRecoveryPlan_names (h : canonicalRecoveryPlan plan = .ok plan') :
    plan'.planId = plan.planId ∧ plan'.scope = plan.scope ∧ plan'.identityId = plan.identityId := by
  simp only [canonicalRecoveryPlan, ok_iff] at h
  obtain ⟨-, -, rfl⟩ := h
  exact ⟨rfl, rfl, rfl⟩

namespace MemoryState

-- The plan becomes the one its identity is recovered by.
def activatePlan (s : MemoryState) (plan : RecoveryPlan) : MemoryState :=
  { s with
    recoveryPlans := s.recoveryPlans.put plan.planId plan
    activeRecoveryPlans := s.activeRecoveryPlans.put (plan.scope, plan.identityId) plan.planId }

def deactivatePlan (s : MemoryState) (key : ScopedId) : MemoryState :=
  { s with activeRecoveryPlans := s.activeRecoveryPlans.erase key }

-- Everything that is done to plans in the name of a scope, with the identifier that is wanted for a
-- new plan. An identifier serves once.
inductive PlanEffect (scope : TenantScope) (coined : Option RecoveryPlanId) (s : MemoryState) :
    MemoryState → Prop
  | keep : PlanEffect scope coined s s
  | activate (plan : RecoveryPlan) (own : plan.scope = scope) (named : coined = some plan.planId)
      (fresh : s.recoveryPlans.get plan.planId = none) :
    PlanEffect scope coined s (s.activatePlan plan)
  | deactivate (identityId : IdentityId) :
    PlanEffect scope coined s (s.deactivatePlan (scope, identityId))

theorem installRecoveryPlan_effect (h : s.installRecoveryPlan plan = .ok (u, s')) :
    s.PlanEffect plan.scope (some plan.planId) s' := by
  simp only [installRecoveryPlan, bind_eq_ok] at h
  obtain ⟨plan', hplan, h⟩ := h
  obtain ⟨hid, hscope, -⟩ := canonicalRecoveryPlan_names (mapError_eq_ok.mp hplan)
  split at h
  case h_1 =>
    obtain rfl := state_after_eq h
    exact .keep
  case h_2 hfresh =>
    obtain rfl := state_after_eq h
    exact .activate plan' hscope (hid ▸ rfl) hfresh

theorem rotateRecoveryPlan_effect (h : s.rotateRecoveryPlan planId plan = .ok (u, s')) :
    s.PlanEffect plan.scope (some plan.planId) s' := by
  simp only [rotateRecoveryPlan, bind_eq_ok] at h
  obtain ⟨plan', hplan, current, -, -, -, -, -, h⟩ := h
  obtain ⟨hid, hscope, -⟩ := canonicalRecoveryPlan_names (mapError_eq_ok.mp hplan)
  split at h
  case isTrue =>
    obtain rfl := state_after_eq h
    exact .keep
  case isFalse =>
    simp only [ok_iff, not_isSome_iff_eq_none] at h
    obtain ⟨-, hfresh, -, rfl⟩ := h
    exact .activate plan' hscope (hid ▸ rfl) hfresh

-- Without the expected plan in place nothing else matters.
theorem rotateRecoveryPlan_stale (hplan : canonicalRecoveryPlan plan = .ok plan')
    (h : s.activeRecoveryPlans.get (plan'.scope, plan'.identityId) ≠ some planId) :
    s.rotateRecoveryPlan planId plan = .error .conflict := by
  have hstale : rejectIf (s.activeRecoveryPlans.get (plan'.scope, plan'.identityId) ≠ some planId)
      DurableStoreError.conflict = .error .conflict := if_pos h
  simp only [rotateRecoveryPlan, hplan, Except.mapError, bind, Except.bind, hstale]
  cases s.recoveryPlans.get planId
  case none => rfl
  case some current =>
    by_cases hother : current.scope ≠ plan'.scope ∨ current.identityId ≠ plan'.identityId
    case pos => simp only [okOr, rejectIf, if_pos hother]
    case neg => simp only [okOr, rejectIf, if_neg hother]

theorem revokeRecoveryPlan_effect (h : s.revokeRecoveryPlan scope identityId planId = .ok (u, s')) :
    s.PlanEffect scope none s' := by
  unfold revokeRecoveryPlan at h
  dsimp only at h
  split at h
  case h_1 =>
    obtain rfl := state_after_eq h
    exact .deactivate identityId
  case h_2 =>
    obtain rfl := state_after_eq h
    exact .keep

end MemoryState

namespace RecoveryPlanOp

open MemoryState

-- The identifier an operation wants for a new plan.
def coined : RecoveryPlanOp → Option RecoveryPlanId
  | .install plan => some plan.planId
  | .rotate _ replacement => some replacement.planId
  | .revoke .. => none
  | .read .. => none

theorem step_effect (op : RecoveryPlanOp) : s.PlanEffect op.scope op.coined (op.step s).2 := by
  cases op
  case install => exact commit_snd_cases .keep fun _ _ => installRecoveryPlan_effect
  case rotate  => exact commit_snd_cases .keep fun _ _ => rotateRecoveryPlan_effect
  case revoke  => exact commit_snd_cases .keep fun _ _ => revokeRecoveryPlan_effect
  case read    => exact .keep

end RecoveryPlanOp

-- Two stores that look alike to a scope: they hold the same plans of it and the same of them are
-- active, and no plan of another scope has an identifier the scope will ask for.
structure PlansAlike (scope : TenantScope) (wanted : RecoveryPlanId → Prop) (s t : MemoryState) :
    Prop where
  active : ∀ identityId,
    s.activeRecoveryPlans.get (scope, identityId) = t.activeRecoveryPlans.get (scope, identityId)
  plans  : ∀ planId plan, plan.scope = scope →
    (s.recoveryPlans.get planId = some plan ↔ t.recoveryPlans.get planId = some plan)
  owned  : ∀ identityId planId, s.activeRecoveryPlans.get (scope, identityId) = some planId →
    ∃ plan, s.recoveryPlans.get planId = some plan ∧ plan.scope = scope
  left   : ∀ planId plan, wanted planId → s.recoveryPlans.get planId = some plan → plan.scope = scope
  right  : ∀ planId plan, wanted planId → t.recoveryPlans.get planId = some plan → plan.scope = scope

namespace PlansAlike

open Unwinding

variable {wanted : RecoveryPlanId → Prop}

theorem empty : PlansAlike scope wanted .empty .empty := by
  constructor <;> simp [MemoryState.empty]

variable (h : PlansAlike scope wanted s t)
include h

theorem get_wanted (hwanted : wanted planId) :
    s.recoveryPlans.get planId = t.recoveryPlans.get planId := by
  apply Option.ext
  intro plan
  constructor
  · intro hget
    exact (h.plans planId plan (h.left planId plan hwanted hget)).mp hget
  · intro hget
    exact (h.plans planId plan (h.right planId plan hwanted hget)).mpr hget

theorem get_active
    (hactive : s.activeRecoveryPlans.get (scope, identityId) = some planId) :
    s.recoveryPlans.get planId = t.recoveryPlans.get planId := by
  obtain ⟨plan, hget, hscope⟩ := h.owned identityId planId hactive
  rw [hget, (h.plans planId plan hscope).mp hget]

-- What another scope does is not seen.
theorem others (hother : other ≠ scope) (hunwanted : ∀ planId ∈ coined, ¬wanted planId)
    (heffect : s.PlanEffect other coined s') : PlansAlike scope wanted s' t := by
  cases heffect
  case keep => exact h
  case activate plan own named fresh =>
    have hkey : ∀ identityId, (scope, identityId) ≠ (plan.scope, plan.identityId) :=
      fun _ heq => hother (own ▸ (congrArg Prod.fst heq).symm)
    have hactive : ∀ identityId, (s.activatePlan plan).activeRecoveryPlans.get (scope, identityId) =
        s.activeRecoveryPlans.get (scope, identityId) :=
      fun identityId => Table.get_put_ne (hkey identityId)
    -- The identifier was free, so that no plan is lost.
    have hplans : ∀ planId plan', plan'.scope = scope →
        ((s.activatePlan plan).recoveryPlans.get planId = some plan' ↔
          s.recoveryPlans.get planId = some plan') := by
      intro planId plan' hscope
      simp only [MemoryState.activatePlan, Table.get_put]
      split
      case isTrue heq =>
        have hne : plan ≠ plan' := fun heq => hother (own ▸ heq ▸ hscope)
        simp [heq, fresh, hne]
      case isFalse => rfl
    refine ⟨fun identityId => (hactive identityId).trans (h.active identityId),
      fun planId plan' hscope => (hplans planId plan' hscope).trans (h.plans planId plan' hscope),
      fun identityId planId hget => ?_, fun planId plan' hwanted hget => ?_, h.right⟩
    · obtain ⟨plan', hget', hscope⟩ := h.owned identityId planId (hactive identityId ▸ hget)
      exact ⟨plan', (hplans planId plan' hscope).mpr hget', hscope⟩
    · have hne : planId ≠ plan.planId := fun heq => hunwanted _ named (heq ▸ hwanted)
      exact h.left planId plan' hwanted (Table.get_put_ne hne ▸ hget)
  case deactivate identityId =>
    have hactive : ∀ identityId', (s.deactivatePlan (other, identityId)).activeRecoveryPlans.get
        (scope, identityId') = s.activeRecoveryPlans.get (scope, identityId') := by
      intro identityId'
      have hne : (scope, identityId') ≠ (other, identityId) :=
        fun heq => hother (congrArg Prod.fst heq).symm
      simp [MemoryState.deactivatePlan, Table.get_erase, hne]
    refine ⟨fun identityId => (hactive identityId).trans (h.active identityId), h.plans,
      fun identityId planId hget => h.owned identityId planId (hactive identityId ▸ hget), h.left,
      h.right⟩

theorem activate (hscope : plan.scope = scope)
    (hfresh : s.recoveryPlans.get plan.planId = none) :
    PlansAlike scope wanted (s.activatePlan plan) (t.activatePlan plan) := by
  subst hscope
  refine ⟨fun identityId => ?_, fun planId plan' hscope => ?_, fun identityId planId hget => ?_, ?_, ?_⟩
  · simp only [MemoryState.activatePlan, Table.get_put, h.active]
  · simp only [MemoryState.activatePlan, Table.get_put]
    split
    case isTrue  => rfl
    case isFalse => exact h.plans planId plan' hscope
  · simp only [MemoryState.activatePlan, Table.get_put] at hget ⊢
    split at hget
    case isTrue =>
      obtain rfl := Option.some.inj hget
      exact ⟨plan, by simp, rfl⟩
    case isFalse =>
      obtain ⟨plan', hget', hscope'⟩ := h.owned identityId planId hget
      have hne : planId ≠ plan.planId := by
        rintro rfl
        simp [hfresh] at hget'
      exact ⟨plan', by simp [hne, hget'], hscope'⟩
  all_goals
    intro planId plan' hwanted hget
    simp only [MemoryState.activatePlan, Table.get_put] at hget
    split at hget
    case isTrue => exact Option.some.inj hget ▸ rfl
  · exact h.left planId plan' hwanted hget
  · exact h.right planId plan' hwanted hget

theorem deactivate : PlansAlike scope wanted (s.deactivatePlan key) (t.deactivatePlan key) := by
  refine ⟨fun identityId => ?_, h.plans, fun identityId' planId hget => ?_, h.left, h.right⟩
  · simp only [MemoryState.deactivatePlan, Table.get_erase, h.active]
  · simp only [MemoryState.deactivatePlan, Table.get_erase] at hget
    split at hget
    case isTrue  => cases hget
    case isFalse => exact h.owned identityId' planId hget

theorem install (hscope : plan.scope = scope)
    (hwanted : wanted plan.planId) : Paired (PlansAlike scope wanted)
      (s.installRecoveryPlan plan) (t.installRecoveryPlan plan) := by
  refine .bind fun plan' hplan => ?_
  obtain ⟨hid, hscope', -⟩ := canonicalRecoveryPlan_names (mapError_eq_ok.mp hplan)
  have hown : plan'.scope = scope := hscope'.trans hscope
  have hactive := h.active plan'.identityId
  rw [← hown] at hactive
  simp only [← h.get_wanted (hid ▸ hwanted), ← hactive]
  split
  case h_1 => exact .bind fun _ _ => .ok () h
  case h_2 hfresh => exact .bind fun _ _ => .ok () (h.activate hown hfresh)

theorem rotate (hscope : plan.scope = scope)
    (hwanted : wanted plan.planId) : Paired (PlansAlike scope wanted)
      (s.rotateRecoveryPlan planId plan) (t.rotateRecoveryPlan planId plan) := by
  rcases hplan : canonicalRecoveryPlan plan with e | plan'
  case error =>
    simp only [MemoryState.rotateRecoveryPlan, hplan]
    exact .error _
  obtain ⟨hid, hscope', -⟩ := canonicalRecoveryPlan_names hplan
  have hown : plan'.scope = scope := hscope'.trans hscope
  have hactive := h.active plan'.identityId
  rw [← hown] at hactive
  by_cases hcurrent : s.activeRecoveryPlans.get (plan'.scope, plan'.identityId) = some planId
  case pos =>
    simp only [MemoryState.rotateRecoveryPlan, hplan]
    refine .bind fun _ heq => ?_
    obtain rfl := Except.ok.inj heq
    simp only [← h.get_wanted (hid ▸ hwanted), ← h.get_active (hown ▸ hcurrent), ← hactive]
    refine .bind fun current _ => .bind fun _ _ => .bind fun _ _ => ?_
    split
    case isTrue => exact .bind fun _ _ => .ok () h
    case isFalse =>
      refine .bind fun _ hfresh => .ok () (h.activate hown ?_)
      simpa using hfresh
  case neg =>
    rw [MemoryState.rotateRecoveryPlan_stale hplan hcurrent,
      MemoryState.rotateRecoveryPlan_stale hplan (hactive ▸ hcurrent)]
    exact .error _

theorem revoke : Paired (PlansAlike scope wanted)
    (s.revokeRecoveryPlan scope identityId planId) (t.revokeRecoveryPlan scope identityId planId) := by
  simp only [MemoryState.revokeRecoveryPlan, ← h.active]
  cases s.activeRecoveryPlans.get (scope, identityId)
  case some => exact .bind fun _ _ => .ok () h.deactivate
  case none =>
    -- Plans of others do not count.
    have hown : ∀ u : MemoryState, (u.recoveryPlans.get planId).any (fun plan =>
        plan.scope = scope && plan.identityId = identityId) ↔
          ∃ plan, u.recoveryPlans.get planId = some plan ∧ plan.scope = scope ∧
            plan.identityId = identityId := by
      simp [any_eq_true]
    have hsame : (s.recoveryPlans.get planId).any (fun plan =>
        plan.scope = scope && plan.identityId = identityId) =
          (t.recoveryPlans.get planId).any (fun plan =>
            plan.scope = scope && plan.identityId = identityId) := by
      rw [Bool.eq_iff_iff, hown, hown]
      refine exists_congr fun plan => and_congr_left fun hplan => h.plans planId plan hplan.1
    simp only [hsame]
    exact .bind fun _ _ => .ok () h

theorem read :
    s.activeRecoveryPlan scope identityId = t.activeRecoveryPlan scope identityId := by
  simp only [MemoryState.activeRecoveryPlan, ← h.active]
  split
  case h_1 => rfl
  case h_2 hactive => rw [h.get_active hactive]

end PlansAlike

namespace RecoveryPlanOp

open Unwinding

-- The operation belongs to the scope, or leaves the identifiers alone that the scope wants.
def Apart (scope : TenantScope) (wanted : RecoveryPlanId → Prop) (op : RecoveryPlanOp) : Prop :=
  ∀ planId ∈ op.coined, op.scope = scope ↔ wanted planId

theorem unwinds {wanted : RecoveryPlanId → Prop} :
    Unwinds step (·.scope = scope) (Apart scope wanted) (PlansAlike scope wanted) where
  others {s t op} h hapart hother := by
    have hother : op.scope ≠ scope := of_decide_eq_false hother
    exact h.others hother (fun planId hid => mt (hapart planId hid).mpr hother) op.step_effect
  own {s t op} h hapart hown := by
    have hown : op.scope = scope := of_decide_eq_true hown
    cases op
    case install =>
      obtain ⟨hsame, hnext⟩ := (h.install hown ((hapart _ rfl).mp hown)).commit h
      exact ⟨congrArg RecoveryPlanAnswer.written hsame, hnext⟩
    case rotate =>
      obtain ⟨hsame, hnext⟩ := (h.rotate hown ((hapart _ rfl).mp hown)).commit h
      exact ⟨congrArg RecoveryPlanAnswer.written hsame, hnext⟩
    case revoke =>
      obtain rfl := hown
      obtain ⟨hsame, hnext⟩ := h.revoke.commit h
      exact ⟨congrArg RecoveryPlanAnswer.written hsame, hnext⟩
    case read =>
      obtain rfl := hown
      exact ⟨congrArg RecoveryPlanAnswer.read h.read, h⟩

-- What a scope is answered in a run from an empty store.
def answersFor (scope : TenantScope) (ops : List RecoveryPlanOp) : List RecoveryPlanAnswer :=
  outputs step (·.scope = scope) .empty ops

-- No two operations, one of the scope and one of another, want the same identifier for a new plan.
def Disjoint (scope : TenantScope) (ops : List RecoveryPlanOp) : Prop :=
  ∀ own ∈ ops, ∀ other ∈ ops, own.scope = scope → other.scope ≠ scope →
    ∀ planId ∈ own.coined, other.coined ≠ some planId

instance {ops : List RecoveryPlanOp} : Decidable (Disjoint scope ops) :=
  inferInstanceAs (Decidable (∀ own ∈ ops, ∀ other ∈ ops, _ → _ → _))

-- As long as the scopes choose different identifiers for their plans, what one of them is answered
-- depends on its own operations only.
theorem recovery_plans_isolated (scope : TenantScope) (ops ops' : List RecoveryPlanOp)
    (hsame : ops.filter (·.scope = scope) = ops'.filter (·.scope = scope))
    (hdisjoint : Disjoint scope ops) (hdisjoint' : Disjoint scope ops') :
    answersFor scope ops = answersFor scope ops' := by
  -- The scope wants the same identifiers in both runs.
  let wanted : RecoveryPlanId → Prop := fun planId =>
    ∃ op ∈ ops.filter (·.scope = scope), planId ∈ op.coined
  have hapart : ∀ {run : List RecoveryPlanOp}, run.filter (·.scope = scope) =
      ops.filter (·.scope = scope) → Disjoint scope run → ∀ op ∈ run, Apart scope wanted op := by
    intro run hrun hdisjoint op hop planId hid
    simp only [wanted, ← hrun, List.mem_filter, decide_eq_true_eq]
    constructor
    · exact fun hown => ⟨op, ⟨hop, hown⟩, hid⟩
    · rintro ⟨own, ⟨hmem, hown⟩, hid'⟩
      by_contra hother
      exact hdisjoint own hmem op hop hown hother planId hid' hid
  exact unwinds.outputs_eq .empty (hapart rfl hdisjoint) (hapart hsame.symm hdisjoint') hsame

end RecoveryPlanOp

namespace Scenario

def elsewhere : TenantScope := ⟨named "elsewhere", none⟩

def codePlan (scope : TenantScope) (planId : RecoveryPlanId) : RecoveryPlan where
  planId := planId
  scope := scope
  identityId := alice.principalId
  authorities := [.recoveryCode]
  historicalMessageAccess := .none
  trustModel := .userControlled
  recoveredDeviceState := .reverificationRequired

def firstPlan : RecoveryPlanId := named "plan-1"
def secondPlan : RecoveryPlanId := named "plan-2"

def tenantPlans : List RecoveryPlanOp :=
  [.install (codePlan tenant firstPlan), .read tenant alice.principalId]

end Scenario

open Scenario RecoveryPlanOp in
theorem recovery_plans_apart :
    answersFor tenant (.install (codePlan elsewhere secondPlan) :: tenantPlans) =
      [.written (.ok ()), .read (.ok (some (codePlan tenant firstPlan)))] ∧
    answersFor tenant (.install (codePlan elsewhere secondPlan) :: tenantPlans) =
      answersFor tenant tenantPlans :=
  ⟨by decide +kernel,
    recovery_plans_isolated tenant _ _ (by decide +kernel) (by decide +kernel) (by decide +kernel)⟩

-- Another tenant takes the identifier first.
open Scenario RecoveryPlanOp in
theorem recovery_plan_identifier_taken :
    (.install (codePlan elsewhere firstPlan) :: tenantPlans).filter (·.scope = tenant) =
      tenantPlans.filter (·.scope = tenant) ∧
    answersFor tenant tenantPlans =
      [.written (.ok ()), .read (.ok (some (codePlan tenant firstPlan)))] ∧
    answersFor tenant (.install (codePlan elsewhere firstPlan) :: tenantPlans) =
      [.written (.error .conflict), .read (.ok none)] := by
  decide +kernel

end Ucr
