import Ucr.Protocol.Device
import Ucr.Protocol.Theorems.AuditEncoding

-- What a recovery package is bound to says which plan it is for, whatever order the authorities of
-- the plan are listed in.

namespace Ucr

open Except Encoding Audit List

namespace RecoveryPlan

variable {plan plan' : RecoveryPlan}

-- The same plan, but for the order of its authorities.
def SameUpToOrder (plan plan' : RecoveryPlan) : Prop :=
  { plan with authorities := plan'.authorities } = plan' ∧ plan.authorities.Perm plan'.authorities

theorem sortKey_injective : Function.Injective RecoveryAuthority.sortKey := by
  intro a b h
  cases a <;> cases b <;> simp_all [RecoveryAuthority.sortKey, OpaqueId.ext_iff]

theorem encodeAuthority_injective : Function.Injective encodeAuthority := by
  have hid {id id' : OpaqueId} (h : pushField id.asWireBytes = pushField id'.asWireBytes) :
      id = id' := (selfDelimiting_id (congrArg (· ++ []) h)).1
  intro a b h
  cases a <;> cases b <;> simp_all [encodeAuthority, methodCode, RecoveryAuthority.method]
  all_goals exact hid h

theorem selfDelimiting_authority : SelfDelimiting fun a => pushField (encodeAuthority a) := by
  refine selfDelimiting_lengthPrefixed encodeAuthority_injective fun a => ?_
  have hid (id : OpaqueId) : id.asWireBytes.length ≤ 128 := id.bounded
  cases a <;> simp only [encodeAuthority, pushField, lengthPrefixed, length_cons,
    length_append, length_beBytes, length_nil] <;> grind

def sorted (plan : RecoveryPlan) : RecoveryPlan :=
  { plan with authorities := plan.authorities.sortOn (·.sortKey) }

theorem sorted_eq_iff : plan.sorted = plan'.sorted ↔ plan.SameUpToOrder plan' := by
  cases plan
  cases plan'
  simp only [sorted, SameUpToOrder, mk.injEq, sortOn_eq_iff sortKey_injective]
  tauto

theorem canonicalRecoveryPlan_eq_ok (h : validateRecoveryPlan plan = .ok ()) :
    canonicalRecoveryPlan plan = .ok plan.sorted := by
  rw [canonicalRecoveryPlan, h]
  rfl

theorem bounds_of_validateRecoveryPlan (h : validateRecoveryPlan plan = .ok u) :
    plan.sorted.authorities.length < 256 ^ 4 ∧
      plan.recoveredDeviceState = .reverificationRequired := by
  simp only [validateRecoveryPlan, ok_iff, not_lt, not_not] at h
  obtain ⟨-, -, -, hlen, -, -, -, hstate, -⟩ := h
  exact ⟨by simpa [sorted] using hlen.trans_lt (by decide), hstate⟩

-- The fields are read back one by one, and as many authorities as there are said to be.
theorem sameUpToOrder_of_aad (h : validateRecoveryPlan plan = .ok ())
    (h' : validateRecoveryPlan plan' = .ok ()) (heq : recoveryPlanAad plan = recoveryPlanAad plan') :
    plan.SameUpToOrder plan' := by
  obtain ⟨hlen, hstate⟩ := bounds_of_validateRecoveryPlan h
  obtain ⟨hlen', hstate'⟩ := bounds_of_validateRecoveryPlan h'
  simp only [recoveryPlanAad, canonicalRecoveryPlan_eq_ok h, canonicalRecoveryPlan_eq_ok h'] at heq
  replace heq := ok.inj heq
  simp only [append_assoc, append_cancel_left_eq, sortOn_map, length_map,
    length_sortOn, flatMap_map] at heq
  obtain ⟨hplan, heq⟩ := selfDelimiting_id heq
  obtain ⟨htenant, heq⟩ := selfDelimiting_id heq
  obtain ⟨hnamespace, heq⟩ := selfDelimiting_id.pushOptional heq
  obtain ⟨hidentity, heq⟩ := selfDelimiting_id heq
  obtain ⟨hcount, heq⟩ := append_inj heq (by simp)
  obtain ⟨hauthorities, heq⟩ := selfDelimiting_authority.flatMap
    (by simpa using beBytes_inj hlen hlen' hcount) heq
  have hperm := sortOn_perm.symm.trans (perm_of_sortOn_eq hauthorities)
  have hperm' := hperm.trans sortOn_perm
  obtain ⟨_, ⟨_, _⟩, _, _, access, trust, _⟩ := plan
  obtain ⟨_, ⟨_, _⟩, _, _, access', trust', _⟩ := plan'
  cases access <;> cases access' <;> cases trust <;> cases trust' <;>
    simp_all [SameUpToOrder, sorted]

end RecoveryPlan

open RecoveryPlan

theorem recovery_packages_bound_to_plan {plan plan' : RecoveryPlan}
    (h : validateRecoveryPlan plan = .ok ()) (h' : validateRecoveryPlan plan' = .ok ()) :
    ((∃ bytes, recoveryPlanAad plan = .ok bytes ∧ recoveryPlanAad plan' = .ok bytes) ↔
      plan.SameUpToOrder plan') ∧
    ((∃ c, canonicalRecoveryPlan plan = .ok c ∧ canonicalRecoveryPlan plan' = .ok c) ↔
      plan.SameUpToOrder plan') := by
  have hcanonical := canonicalRecoveryPlan_eq_ok h
  have hcanonical' := canonicalRecoveryPlan_eq_ok h'
  refine ⟨⟨?_, fun hsame => ?_⟩, ?_⟩
  · rintro ⟨bytes, hbytes, hbytes'⟩
    exact sameUpToOrder_of_aad h h' (hbytes.trans hbytes'.symm)
  · simp only [recoveryPlanAad, hcanonical, hcanonical', sorted_eq_iff.mpr hsame]
    exact ⟨_, rfl, rfl⟩
  · simpa [hcanonical, hcanonical', eq_comm] using sorted_eq_iff

def spareKeyPlan (authorities : List RecoveryAuthority) : RecoveryPlan where
  planId := Scenario.named "spare-key"
  scope := Scenario.tenant
  identityId := Scenario.alice.principalId
  authorities := authorities
  historicalMessageAccess := .none
  trustModel := .userControlled
  recoveredDeviceState := .reverificationRequired

theorem spare_key_plans_agree :
    ∃ bytes, recoveryPlanAad (spareKeyPlan [.recoveryKey, .recoveryCode]) = .ok bytes ∧
      recoveryPlanAad (spareKeyPlan [.recoveryCode, .recoveryKey]) = .ok bytes :=
  (recovery_packages_bound_to_plan (by rfl) (by rfl)).1.mpr ⟨rfl, .swap ..⟩

end Ucr
