import Ucr.Store.Theorems.RecoveryPlans

-- What the operations on devices do to the devices, to the records of their keys and to the index
-- of the keys in use.

namespace Ucr

open Except Option

variable {s s' : MemoryState} {scope : TenantScope} {deviceId : DeviceId} {keyId : KeyId}
  {activates : ScopedId → Prop}

def DeviceTables.Allows (t : DeviceTables) (key : ScopedId) : Prop :=
  ∃ device, t.devices.get key = some device ∧ device.state = .active

-- The index names the key for the device, and the record of the key agrees.
structure DeviceTables.Names (t : DeviceTables) (scope : TenantScope) (deviceId : DeviceId)
    (keyId : KeyId) (record : TrustedSigningKeyRecord) : Prop where
  index  : t.activeTrustedSigningKeys.get (scope, deviceId) = some keyId
  stored : t.trustedSigningKeys.get (scope, keyId) = some record
  active : record.state = .active
  device : record.descriptor.deviceId = deviceId

-- Where a device that is written comes from.
inductive DeviceTables.Origin (activates : ScopedId → Prop) (t : DeviceTables) (key : ScopedId) :
    DeviceDescriptor → Prop
  | added (device : DeviceDescriptor) (fresh : t.devices.get key = none)
      (own : device.deviceId = key.2) : Origin activates t key device
  | revoked (device : DeviceDescriptor) (found : t.devices.get key = some device) :
    Origin activates t key { device with state := .revoked }
  | activated (device : DeviceDescriptor) (found : t.devices.get key = some device)
      (staged : device.state = .reverificationRequired) (allowed : activates key) :
    Origin activates t key { device with state := .active }

inductive DeviceTables.Effect (activates : ScopedId → Prop) (t : DeviceTables) : DeviceTables → Prop
  | identity (identities : Table ScopedId IdentityRecord) :
    Effect activates t { t with identities := identities }
  | plan (plan : RecoveryPlan) (fresh : t.recoveryPlans.get plan.planId = none) :
    Effect activates t { t with
      recoveryPlans := t.recoveryPlans.put plan.planId plan
      activeRecoveryPlans := t.activeRecoveryPlans.put (plan.scope, plan.identityId) plan.planId }
  | noPlan (key : ScopedId) :
    Effect activates t { t with activeRecoveryPlans := t.activeRecoveryPlans.erase key }
  | device (key : ScopedId) (device : DeviceDescriptor) (origin : t.Origin activates key device)
      (access : device.state ≠ .active → t.activeTrustedSigningKeys.get key = none) :
    Effect activates t { t with devices := t.devices.put key device }
  | revoked (scope : TenantScope) (deviceId : DeviceId) (keyId : KeyId)
      (record : TrustedSigningKeyRecord) (names : t.Names scope deviceId keyId record) :
    Effect activates t { t with
      trustedSigningKeys :=
        t.trustedSigningKeys.put (scope, keyId) { record with state := .revoked }
      activeTrustedSigningKeys := t.activeTrustedSigningKeys.erase (scope, deviceId) }
  | trusted (scope : TenantScope) (descriptor : PublicKeyDescriptor)
      (valid : validateTrustedSigningKeyDescriptor descriptor = .ok ())
      (access : t.Allows (scope, descriptor.deviceId))
      (freshKey : t.trustedSigningKeys.get (scope, descriptor.keyId) = none)
      (noKey : t.activeTrustedSigningKeys.get (scope, descriptor.deviceId) = none) :
    Effect activates t { t with
      trustedSigningKeys :=
        t.trustedSigningKeys.put (scope, descriptor.keyId) ⟨scope, descriptor, .active⟩
      activeTrustedSigningKeys :=
        t.activeTrustedSigningKeys.put (scope, descriptor.deviceId) descriptor.keyId }
  | rotated (scope : TenantScope) (keyId : KeyId) (record : TrustedSigningKeyRecord)
      (descriptor : PublicKeyDescriptor)
      (valid : validateTrustedSigningKeyDescriptor descriptor = .ok ())
      (access : t.Allows (scope, descriptor.deviceId))
      (names : t.Names scope descriptor.deviceId keyId record)
      (freshKey : t.trustedSigningKeys.get (scope, descriptor.keyId) = none) :
    Effect activates t { t with
      trustedSigningKeys :=
        (t.trustedSigningKeys.put (scope, keyId) { record with state := .revoked }).put
          (scope, descriptor.keyId) ⟨scope, descriptor, .active⟩
      activeTrustedSigningKeys :=
        t.activeTrustedSigningKeys.put (scope, descriptor.deviceId) descriptor.keyId }

abbrev DeviceTables.Effects (activates : ScopedId → Prop) :=
  Relation.ReflTransGen (DeviceTables.Effect activates)

namespace MemoryState

structure WritesDevices (activates : ScopedId → Prop) (s s' : MemoryState) : Prop where
  frame   : s' = { s with toDeviceTables := s'.toDeviceTables }
  effects : DeviceTables.Effects activates s.toDeviceTables s'.toDeviceTables

theorem WritesDevices.refl (s : MemoryState) : s.WritesDevices activates s :=
  ⟨rfl, .refl⟩

theorem WritesDevices.single (h : s.toDeviceTables.Effect activates t) :
    s.WritesDevices activates { s with toDeviceTables := t } :=
  ⟨rfl, .single h⟩

theorem WritesDevices.trans (h₁ : s.WritesDevices activates s')
    (h₂ : s'.WritesDevices activates s'') : s.WritesDevices activates s'' := by
  refine ⟨?_, h₁.effects.trans h₂.effects⟩
  rw [h₂.frame, h₁.frame]

theorem WritesDevices.commit {ε α : Type} {r : Except ε (α × MemoryState)}
    (success : ∀ a s', r = .ok (a, s') → s.WritesDevices activates s') :
    s.WritesDevices activates (r.commit s).2 :=
  commit_snd_cases (.refl s) success

theorem deviceAllowsAccess_eq_true (h : s.deviceAllowsAccess scope deviceId identityId) :
    s.toDeviceTables.Allows (scope, deviceId) := by
  simp only [deviceAllowsAccess, any_eq_true, Bool.and_eq_true,
    deviceAllowsProtectedAccess, decide_eq_true_eq] at h
  obtain ⟨device, hget, hactive, -⟩ := h
  exact ⟨device, hget, hactive⟩

section Keys

theorem activeKeyRecord_names (h : s.activeKeyRecord scope deviceId keyId = .ok record)
    (hindex : s.activeTrustedSigningKeys.get (scope, deviceId) = some keyId) :
    s.toDeviceTables.Names scope deviceId keyId record := by
  simp only [activeKeyRecord, ok_iff, not_or, not_not] at h
  obtain ⟨_, hget, -, ⟨hactive, hdevice⟩, rfl⟩ := h
  exact ⟨hindex, hget, hactive, hdevice⟩

theorem revokeKey_writes (h : s.revokeKey scope deviceId keyId = .ok s')
    (hindex : s.activeTrustedSigningKeys.get (scope, deviceId) = some keyId) :
    s.WritesDevices activates s' ∧ s'.activeTrustedSigningKeys.get (scope, deviceId) = none ∧
      s'.devices = s.devices ∧ s'.activeRecoveryPlans = s.activeRecoveryPlans := by
  simp only [revokeKey, ok_iff] at h
  obtain ⟨record, hrecord, rfl⟩ := h
  exact ⟨.single (.revoked scope deviceId keyId record (activeKeyRecord_names hrecord hindex)),
    by simp [Table.get_erase], rfl, rfl⟩

-- Afterwards the device has no key, and it still has the same descriptor.
theorem revokeActiveKey_writes (h : s.revokeActiveKey scope deviceId = .ok s') :
    s.WritesDevices activates s' ∧ s'.activeTrustedSigningKeys.get (scope, deviceId) = none ∧
      s'.devices = s.devices ∧ s'.activeRecoveryPlans = s.activeRecoveryPlans := by
  unfold revokeActiveKey at h
  split at h
  case h_1 hindex => exact revokeKey_writes h hindex
  case h_2 hindex =>
    obtain rfl := pure_eq_ok.mp h
    exact ⟨.refl _, hindex, rfl, rfl⟩

end Keys

theorem putDevice_writes (horigin : s.toDeviceTables.Origin activates key device)
    (h : device.state ≠ .active → s.activeTrustedSigningKeys.get key = none) :
    s.WritesDevices activates { s with devices := s.devices.put key device } :=
  .single (.device key device horigin h)

-- A device is written after it has lost its key.
theorem revokeAndPut_writes (h : s.revokeActiveKey scope deviceId = .ok s')
    (horigin : s.toDeviceTables.Origin activates (scope, deviceId) device) :
    s.WritesDevices activates { s' with devices := s'.devices.put (scope, deviceId) device } := by
  obtain ⟨hwrites, hnoKey, hdevices, -⟩ := revokeActiveKey_writes h
  refine hwrites.trans (putDevice_writes ?_ fun _ => hnoKey)
  cases horigin
  case added fresh own => exact .added _ (hdevices ▸ fresh) own
  case revoked found => exact .revoked _ (hdevices ▸ found)
  case activated found staged allowed => exact .activated _ (hdevices ▸ found) staged allowed

theorem PlanEffect.writes (h : s.PlanEffect scope coined s') : s.WritesDevices activates s' := by
  cases h
  case keep => exact .refl s
  case activate plan _ _ fresh => exact .single (.plan plan fresh)
  case deactivate identityId => exact .single (.noPlan (scope, identityId))

section Ops

theorem enrollNewTrustedDevice_writes
    (h : s.enrollNewTrustedDevice scope device signingKey = .ok (u, s')) :
    s.WritesDevices activates s' := by
  simp only [enrollNewTrustedDevice, ok_iff, not_or, not_not] at h
  obtain ⟨-, ⟨hactive, hdevice⟩, _, hvalid, -, -, h⟩ := h
  split at h
  case h_1 =>
    simp only [ok_iff] at h
    obtain ⟨-, -, -, -, _, -, -, -, -, rfl⟩ := h
    exact .refl s
  case h_2 hnew =>
    simp only [ok_iff, not_or, not_isSome_iff_eq_none] at h
    obtain ⟨-, ⟨hfresh, hnoKey⟩, -, rfl⟩ := h
    refine (putDevice_writes (.added device hnew rfl) fun hother => absurd hactive hother).trans
      (.single ?_)
    rw [← hdevice] at hnoKey ⊢
    exact .trusted scope signingKey hvalid ⟨device, Table.get_put_self, hactive⟩ hfresh hnoKey

theorem registerDevice_writes (h : s.registerDevice scope descriptor = .ok (u, s')) :
    s.WritesDevices activates s' := by
  unfold registerDevice at h
  dsimp only at h
  split at h
  case h_1 =>
    obtain rfl := state_after_eq h
    exact .refl s
  case h_2 hnew =>
    split at h
    case isTrue hactive =>
      simp only [ok_iff, Prod.mk.injEq] at h
      obtain ⟨_, rfl, -, rfl⟩ := h
      exact putDevice_writes (.added descriptor hnew rfl)
        fun hother => absurd (of_decide_eq_true hactive) hother
    case isFalse =>
      simp only [ok_iff] at h
      obtain ⟨s₁, hrevoked, -, rfl⟩ := h
      exact revokeAndPut_writes hrevoked (.added descriptor hnew rfl)

theorem revokeDevice_writes (h : s.revokeDevice scope deviceId identityId = .ok (u, s')) :
    s.WritesDevices activates s' := by
  simp only [revokeDevice, ok_iff] at h
  obtain ⟨device, hfound, -, -, h⟩ := h
  split at h
  case isTrue =>
    obtain rfl := state_after_eq h
    exact .refl s
  case isFalse =>
    simp only [ok_iff] at h
    obtain ⟨s₁, hrevoked, -, rfl⟩ := h
    exact revokeAndPut_writes hrevoked (.revoked device hfound)

theorem activateReverifiedDevice_writes (hactivates : activates (proof.scope, proof.deviceId))
    (h : s.activateReverifiedDevice proof = .ok (u, s')) : s.WritesDevices activates s' := by
  simp only [activateReverifiedDevice, ok_iff, not_or, not_not] at h
  obtain ⟨device, hfound, -, ⟨-, hstaged⟩, -, rfl⟩ := h
  exact putDevice_writes (.activated device hfound hstaged hactivates) fun hother => absurd rfl hother

theorem provisionTrustedSigningKey_writes
    (h : s.provisionTrustedSigningKey scope descriptor = .ok (u, s')) :
    s.WritesDevices activates s' := by
  simp only [provisionTrustedSigningKey, ok_iff, not_not] at h
  obtain ⟨_, hvalid, -, haccess, h⟩ := h
  split at h
  case h_1 =>
    obtain rfl := state_after_eq h
    exact .refl s
  case h_2 hfresh =>
    simp only [ok_iff, not_isSome_iff_eq_none] at h
    obtain ⟨-, hnoKey, -, rfl⟩ := h
    exact .single (.trusted scope descriptor hvalid (deviceAllowsAccess_eq_true haccess) hfresh hnoKey)

theorem rotateTrustedSigningKey_writes
    (h : s.rotateTrustedSigningKey scope deviceId keyId replacement = .ok (u, s')) :
    s.WritesDevices activates s' := by
  simp only [rotateTrustedSigningKey, ok_iff, not_or, not_not] at h
  obtain ⟨_, hvalid, -, ⟨rfl, -⟩, -, haccess, h⟩ := h
  split at h
  case isTrue =>
    obtain rfl := state_after_eq h
    exact .refl s
  case isFalse =>
    simp only [ok_iff, not_not, not_isSome_iff_eq_none] at h
    obtain ⟨-, hindex, -, hfresh, record, hrecord, -, rfl⟩ := h
    exact .single (.rotated scope keyId record replacement hvalid
      (deviceAllowsAccess_eq_true haccess) (activeKeyRecord_names hrecord hindex) hfresh)

theorem revokeTrustedSigningKey_writes
    (h : s.revokeTrustedSigningKey scope deviceId keyId = .ok (u, s')) :
    s.WritesDevices activates s' := by
  unfold revokeTrustedSigningKey at h
  split at h
  case h_1 active hindex =>
    simp only [ok_iff, not_not] at h
    obtain ⟨-, rfl, _, hrevoked, -, rfl⟩ := h
    exact (revokeKey_writes hrevoked hindex).1
  case h_2 =>
    obtain rfl := state_after_eq h
    exact .refl s

theorem stageRecoveredDevice_writes (h : s.stageRecoveredDevice proof = .ok (u, s')) :
    s.WritesDevices activates s' := by
  simp only [stageRecoveredDevice, ok_iff] at h
  obtain ⟨-, -, -, -, h⟩ := h
  split at h
  case h_1 =>
    obtain rfl := state_after_eq h
    exact .refl s
  case h_2 hnew =>
    simp only [ok_iff] at h
    obtain ⟨s₁, hrevoked, -, rfl⟩ := h
    exact revokeAndPut_writes hrevoked (.added proof.recoveredDevice hnew rfl)

theorem persistIdentity_writes (h : s.persistIdentity identity = .ok (status, s')) :
    s.WritesDevices activates s' := by
  simp only [persistIdentity, ok_iff] at h
  obtain ⟨-, -, stored, -, h⟩ := h
  cases stored <;>
  · obtain rfl := state_eq h
    exact .single (.identity _)

theorem deviceOp_writes (op : DeviceOp) (hactivates : ∀ proof, op = .activateReverifiedDevice proof →
    activates (proof.scope, proof.deviceId)) : s.WritesDevices activates (op.run s) := by
  cases op
  case persistIdentity => exact .commit fun _ _ => persistIdentity_writes
  case enrollNewTrustedDevice => exact .commit fun _ _ => enrollNewTrustedDevice_writes
  case registerDevice => exact .commit fun _ _ => registerDevice_writes
  case revokeDevice => exact .commit fun _ _ => revokeDevice_writes
  case activateReverifiedDevice proof =>
    exact .commit fun _ _ => activateReverifiedDevice_writes (hactivates proof rfl)
  case provisionTrustedSigningKey => exact .commit fun _ _ => provisionTrustedSigningKey_writes
  case rotateTrustedSigningKey => exact .commit fun _ _ => rotateTrustedSigningKey_writes
  case revokeTrustedSigningKey => exact .commit fun _ _ => revokeTrustedSigningKey_writes
  case installRecoveryPlan => exact .commit fun _ _ h => (installRecoveryPlan_effect h).writes
  case rotateRecoveryPlan => exact .commit fun _ _ h => (rotateRecoveryPlan_effect h).writes
  case revokeRecoveryPlan => exact .commit fun _ _ h => (revokeRecoveryPlan_effect h).writes
  case stageRecoveredDevice => exact .commit fun _ _ => stageRecoveredDevice_writes

end Ops

end MemoryState

end Ucr
