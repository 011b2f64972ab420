import Ucr.Store.Theorems.Invariant

-- The keys devices sign with: a device is trusted by at most one key, only while it has access, and
-- never again by a key that was revoked.

namespace Ucr

open Except Relation Table MemoryState Option

variable {s s' : MemoryState} {t t' : DeviceTables} {scope : TenantScope} {deviceId : DeviceId}
  {keyId : KeyId} {record : TrustedSigningKeyRecord} {activates : ScopedId → Prop}

namespace DeviceTables

-- The index and the records of the keys tell the same story.
structure Trusted (t : DeviceTables) : Prop where
  index  : ∀ scope deviceId keyId, t.activeTrustedSigningKeys.get (scope, deviceId) = some keyId →
    ∃ record, t.Names scope deviceId keyId record
  active : ∀ scope keyId record, t.trustedSigningKeys.get (scope, keyId) = some record →
    record.state = .active →
      t.activeTrustedSigningKeys.get (scope, record.descriptor.deviceId) = some keyId
  valid  : ∀ key record, t.trustedSigningKeys.get key = some record →
    validateTrustedSigningKeyDescriptor record.descriptor = .ok ()
  access : ∀ key keyId, t.activeTrustedSigningKeys.get key = some keyId → t.Allows key

theorem Trusted.empty : MemoryState.empty.toDeviceTables.Trusted := by
  constructor <;> simp [MemoryState.empty]

-- Only what the tables hold matters, not the order they hold it in.
theorem Trusted.of_get (h : t.Trusted) (hdevices : ∀ key, t'.devices.get key = t.devices.get key)
    (hkeys : ∀ key, t'.trustedSigningKeys.get key = t.trustedSigningKeys.get key)
    (hindex : ∀ key, t'.activeTrustedSigningKeys.get key = t.activeTrustedSigningKeys.get key) :
    t'.Trusted where
  index scope deviceId keyId hget := by
    obtain ⟨record, names⟩ := h.index scope deviceId keyId ((hindex _).symm.trans hget)
    exact ⟨record, hget, (hkeys _).trans names.stored, names.active, names.device⟩
  active scope keyId record hget hactive :=
    (hindex _).trans (h.active scope keyId record ((hkeys _).symm.trans hget) hactive)
  valid key record hget := h.valid key record ((hkeys key).symm.trans hget)
  access key keyId hget := by
    obtain ⟨device, hdevice, hactive⟩ := h.access key keyId ((hindex key).symm.trans hget)
    exact ⟨device, (hdevices key).trans hdevice, hactive⟩

theorem Trusted.device (h : t.Trusted) {device : DeviceDescriptor}
    (haccess : device.state ≠ .active → t.activeTrustedSigningKeys.get key = none) :
    { t with devices := t.devices.put key device }.Trusted where
  index scope deviceId keyId hget := by
    obtain ⟨record, names⟩ := h.index scope deviceId keyId hget
    exact ⟨record, hget, names.stored, names.active, names.device⟩
  active := h.active
  valid  := h.valid
  access key' keyId hget := by
    by_cases hkey : key' = key
    · subst hkey
      refine ⟨device, get_put_self, ?_⟩
      by_contra hother
      exact some_ne_none _ (hget.symm.trans (haccess hother))
    · obtain ⟨device', hdevice, hactive⟩ := h.access key' keyId hget
      exact ⟨device', (get_put_ne hkey).trans hdevice, hactive⟩

theorem Trusted.revoked (h : t.Trusted) (names : t.Names scope deviceId keyId record) :
    { t with
      trustedSigningKeys :=
        t.trustedSigningKeys.put (scope, keyId) { record with state := .revoked }
      activeTrustedSigningKeys := t.activeTrustedSigningKeys.erase (scope, deviceId) }.Trusted where
  index scope' deviceId' keyId' hget := by
    simp only [get_erase] at hget
    split at hget
    case isTrue => simp at hget
    case isFalse hother =>
      obtain ⟨record', names'⟩ := h.index scope' deviceId' keyId' hget
      refine ⟨record', ?_, ?_, names'.active, names'.device⟩
      · rw [get_erase, if_neg hother]
        exact hget
      · refine (get_put_ne fun hkey => hother ?_).trans names'.stored
        obtain ⟨rfl, rfl⟩ := Prod.mk.inj hkey
        obtain rfl := mem_unique names.stored names'.stored
        rw [← names'.device, names.device]
  active scope' keyId' record' hget hactive := by
    rw [get_put] at hget
    split at hget
    case isTrue =>
      obtain rfl := Option.some.inj hget
      simp at hactive
    case isFalse hother =>
      have hindex := h.active scope' keyId' record' hget hactive
      rw [get_erase, if_neg fun hkey => hother ?_]
      · exact hindex
      · rw [hkey, names.index] at hindex
        rw [(Prod.mk.inj hkey).1, Option.some.inj hindex]
  valid := forall_put h.valid (h.valid _ record names.stored)
  access key keyId' hget := by
    simp only [get_erase] at hget
    split at hget
    case isTrue  => simp at hget
    case isFalse => exact h.access key keyId' hget

theorem Trusted.trusted (h : t.Trusted)
    (hvalid : validateTrustedSigningKeyDescriptor descriptor = .ok ())
    (haccess : t.Allows (scope, descriptor.deviceId))
    (hfresh : t.trustedSigningKeys.get (scope, descriptor.keyId) = none)
    (hnoKey : t.activeTrustedSigningKeys.get (scope, descriptor.deviceId) = none) :
    { t with
      trustedSigningKeys :=
        t.trustedSigningKeys.put (scope, descriptor.keyId) ⟨scope, descriptor, .active⟩
      activeTrustedSigningKeys := t.activeTrustedSigningKeys.put (scope, descriptor.deviceId)
        descriptor.keyId }.Trusted where
  index scope' deviceId' keyId' hget := by
    by_cases hkey : (scope', deviceId') = (scope, descriptor.deviceId)
    · obtain ⟨rfl, rfl⟩ := Prod.mk.inj hkey
      obtain rfl := mem_unique get_put_self hget
      exact ⟨_, hget, get_put_self, rfl, rfl⟩
    · obtain ⟨record, names⟩ := h.index scope' deviceId' keyId' ((get_put_ne hkey).symm.trans hget)
      refine ⟨record, hget, (get_put_ne fun heq => ?_).trans names.stored, names.active,
        names.device⟩
      exact some_ne_none _ ((heq ▸ names.stored).symm.trans hfresh)
  active scope' keyId' record hget hactive := by
    rw [get_put] at hget
    split at hget
    case isTrue heq =>
      obtain ⟨rfl, rfl⟩ := Prod.mk.inj heq
      obtain rfl := Option.some.inj hget
      exact get_put_self
    case isFalse =>
      have hindex := h.active scope' keyId' record hget hactive
      refine (get_put_ne fun heq => ?_).trans hindex
      exact some_ne_none _ ((heq ▸ hindex).symm.trans hnoKey)
  valid := forall_put h.valid hvalid
  access := forall_put h.access haccess

theorem Effect.keeps_trusted (h : t.Effect activates t') (ht : t.Trusted) : t'.Trusted := by
  cases h
  case identity | plan | noPlan => exact ht.of_get (fun _ => rfl) (fun _ => rfl) fun _ => rfl
  case device access => exact ht.device access
  case revoked names => exact ht.revoked names
  case trusted valid access freshKey noKey => exact ht.trusted valid access freshKey noKey
  case rotated scope keyId record descriptor valid access names freshKey =>
    -- The new key takes the place of the old one, as if that had been revoked before.
    have hother : (scope, descriptor.keyId) ≠ (scope, keyId) := fun heq =>
      some_ne_none _ ((heq ▸ names.stored).symm.trans freshKey)
    have hnew := (ht.revoked names).trusted valid access
      ((get_put_ne hother).trans freshKey) (by simp [get_erase])
    refine hnew.of_get (fun _ => rfl) (fun _ => rfl) fun key => ?_
    simp only [get_put, get_erase]
    split <;> rfl

theorem Effects.keeps_trusted (h : DeviceTables.Effects activates t t') (ht : t.Trusted) :
    t'.Trusted := by
  induction h
  case refl => exact ht
  case tail step ih => exact step.keeps_trusted ih

-- The record of a revoked key is never touched again.
theorem Effect.revoked_stays (h : t.Effect activates t')
    (hget : t.trustedSigningKeys.get key = some record) (hrevoked : record.state = .revoked) :
    t'.trustedSigningKeys.get key = some record := by
  have hne {key' : ScopedId} {other : Option TrustedSigningKeyRecord}
      (hother : t.trustedSigningKeys.get key' = other) (h : ∀ r ∈ other, r.state = .active) :
      key ≠ key' := by
    rintro rfl
    have hactive := h record (hother.symm.trans hget)
    rw [hrevoked] at hactive
    cases hactive
  cases h
  case identity | plan | noPlan | device => exact hget
  case revoked names =>
    exact (get_put_ne (hne names.stored (by simp [names.active]))).trans hget
  case trusted freshKey _ => exact (get_put_ne (hne freshKey (by simp))).trans hget
  case rotated names freshKey =>
    exact ((get_put_ne (hne freshKey (by simp))).trans
      (get_put_ne (hne names.stored (by simp [names.active])))).trans hget

theorem Effects.revoked_stays (h : DeviceTables.Effects activates t t')
    (hget : t.trustedSigningKeys.get key = some record) (hrevoked : record.state = .revoked) :
    t'.trustedSigningKeys.get key = some record := by
  induction h
  case refl => exact hget
  case tail step ih => exact step.revoked_stays ih hrevoked

end DeviceTables

namespace MemoryState

theorem run_devices (hs : s.Keyed) (op : StoreOp) :
    DeviceTables.Effects (fun _ => True) s.toDeviceTables (op.run s).toDeviceTables := by
  by_cases harea : op.area = some .devices
  · cases op <;> simp only [StoreOp.area, Option.some.injEq, reduceCtorEq] at harea
    case device op => exact (deviceOp_writes op fun _ _ => trivial).effects
  · rw [(run_keeps hs op).devices harea]

theorem runs_devices (hs : s.Reachable) (hrun : StoreRun s s') :
    DeviceTables.Effects (fun _ => True) s.toDeviceTables s'.toDeviceTables :=
  hs.induction hrun .refl fun _ op ht ih => ih.trans (run_devices ht.attainable.keyed op)

theorem Reachable.trusted (hs : s.Reachable) : s.toDeviceTables.Trusted :=
  (runs_devices .refl hs).keeps_trusted .empty

-- A key is resolved exactly for the device that is trusted by it.
theorem resolveActiveSigningKey_cases (hs : s.toDeviceTables.Trusted) (scope : TenantScope)
    (deviceId : DeviceId) (identityId? : Option IdentityId) (keyId : KeyId) :
    s.resolveActiveSigningKey scope deviceId identityId? keyId = .error .notTrusted ∨
      s.deviceAllowsAccess scope deviceId identityId? ∧
      ∃ record, s.toDeviceTables.Names scope deviceId keyId record ∧
        s.resolveActiveSigningKey scope deviceId identityId? keyId = .ok record.descriptor := by
  unfold resolveActiveSigningKey
  by_cases haccess : s.deviceAllowsAccess scope deviceId identityId?
  case neg => simp [haccess]
  case pos =>
    by_cases hindex : s.activeTrustedSigningKeys.get (scope, deviceId) = some keyId
    case neg => simp [haccess, hindex]
    case pos =>
      obtain ⟨record, names⟩ := hs.index _ _ _ hindex
      refine .inr ⟨haccess, record, names, ?_⟩
      have hvalid := hs.valid _ _ names.stored
      simp only [ok_iff, not_or, not_not]
      exact ⟨(), haccess, (), hindex, record, names.stored, (), ⟨names.active, names.device⟩, (),
        hvalid, rfl⟩

end MemoryState

-- In every reachable state the index names for a device exactly its active key; a device without
-- access has none and nothing is resolved for it; resolving a key never finds the tables corrupt;
-- and a revoked key is not resolved in any later state.
theorem trusted_keys_follow_their_devices (hs : s.Reachable) :
    (∀ scope deviceId keyId, s.activeTrustedSigningKeys.get (scope, deviceId) = some keyId ↔
      ∃ record, s.trustedSigningKeys.get (scope, keyId) = some record ∧ record.state = .active ∧
        record.descriptor.deviceId = deviceId) ∧
    (∀ scope keyId₁ keyId₂ record₁ record₂,
      s.trustedSigningKeys.get (scope, keyId₁) = some record₁ → record₁.state = .active →
      s.trustedSigningKeys.get (scope, keyId₂) = some record₂ → record₂.state = .active →
      record₁.descriptor.deviceId = record₂.descriptor.deviceId → keyId₁ = keyId₂) ∧
    (∀ scope deviceId,
      (∀ device, s.devices.get (scope, deviceId) = some device → device.state ≠ .active) →
      s.activeTrustedSigningKeys.get (scope, deviceId) = none ∧
      ∀ identityId? keyId,
        s.resolveActiveSigningKey scope deviceId identityId? keyId = .error .notTrusted) ∧
    (∀ scope deviceId identityId? keyId,
      s.resolveActiveSigningKey scope deviceId identityId? keyId ≠ .error .corrupt) ∧
    ∀ scope keyId record, s.trustedSigningKeys.get (scope, keyId) = some record →
      record.state = .revoked → ∀ s', StoreRun s s' → ∀ deviceId identityId?,
        s'.resolveActiveSigningKey scope deviceId identityId? keyId = .error .notTrusted := by
  have htrusted := hs.trusted
  refine ⟨fun scope deviceId keyId => ⟨fun hindex => ?_, ?_⟩, ?_, fun scope deviceId hlost => ?_,
    fun scope deviceId identityId? keyId => ?_,
    fun scope keyId record hget hrevoked s' hrun deviceId identityId? => ?_⟩
  · obtain ⟨record, names⟩ := htrusted.index _ _ _ hindex
    exact ⟨record, names.stored, names.active, names.device⟩
  · rintro ⟨record, hget, hactive, rfl⟩
    exact htrusted.active scope keyId record hget hactive
  · intro scope keyId₁ keyId₂ record₁ record₂ hget₁ hactive₁ hget₂ hactive₂ hdevice
    have hindex₁ := htrusted.active _ _ _ hget₁ hactive₁
    have hindex₂ := htrusted.active _ _ _ hget₂ hactive₂
    exact mem_unique (hdevice ▸ hindex₁) hindex₂
  · have hnoKey : s.activeTrustedSigningKeys.get (scope, deviceId) = none := by
      rw [eq_none_iff_forall_ne_some]
      intro keyId hindex
      obtain ⟨device, hdevice, hactive⟩ := htrusted.access _ _ hindex
      exact hlost device hdevice hactive
    refine ⟨hnoKey, fun identityId? keyId => ?_⟩
    obtain h | ⟨-, record, names, -⟩ := resolveActiveSigningKey_cases htrusted scope
      deviceId identityId? keyId
    · exact h
    · exact absurd (names.index.symm.trans hnoKey) (some_ne_none _)
  · obtain h | ⟨-, record, -, h⟩ := resolveActiveSigningKey_cases htrusted scope
      deviceId identityId? keyId <;> simp [h]
  · have hstays := (runs_devices hs hrun).revoked_stays hget hrevoked
    have htrusted' := MemoryState.Reachable.trusted (ReflTransGen.trans hs hrun)
    obtain h | ⟨-, record', names, -⟩ := resolveActiveSigningKey_cases htrusted'
      scope deviceId identityId? keyId
    · exact h
    · obtain rfl := mem_unique hstays names.stored
      exact absurd (hrevoked.symm.trans names.active) (by simp)

namespace Scenario

def laptop : DeviceId := named "laptop"
def aliceIdentity : IdentityId := named "alice-identity"

def laptopKey (keyId : KeyId) : PublicKeyDescriptor where
  keyId := keyId
  deviceId := laptop
  purpose := .signing
  algorithmId := signatureAlgorithmId
  algorithmVersion := algorithmVersion
  keyFormatVersion := keyFormatVersion
  publicKey := List.replicate 32 7

def firstKey : KeyId := named "laptop-first-key"
def secondKey : KeyId := named "laptop-second-key"

-- The laptop is enrolled with a first key, which is then replaced by a second one.
def laptopStore : MemoryState :=
  MemoryState.empty.runAll
    [.device (.persistIdentity ⟨tenant, aliceIdentity, .ucrNative, .selfAsserted, none⟩),
      .device (.enrollNewTrustedDevice tenant ⟨laptop, aliceIdentity, .active⟩ (laptopKey firstKey)),
      .device (.rotateTrustedSigningKey tenant laptop firstKey (laptopKey secondKey))]

end Scenario

open Scenario

-- After the rotation the second key is resolved; the first one is not, whatever happens next.
theorem rotated_key_is_gone :
    laptopStore.resolveActiveSigningKey tenant laptop none
        secondKey = .ok (laptopKey secondKey) ∧
      ∀ s', StoreRun laptopStore s' → ∀ deviceId identityId?,
        s'.resolveActiveSigningKey tenant deviceId identityId? firstKey =
          .error .notTrusted := by
  have hreachable : laptopStore.Reachable := storeRun_runAll ..
  obtain ⟨-, -, -, -, hrevoked⟩ := trusted_keys_follow_their_devices hreachable
  exact ⟨by decide +kernel, hrevoked tenant firstKey
    ⟨tenant, laptopKey firstKey, .revoked⟩ (by decide +kernel) rfl⟩

end Ucr
