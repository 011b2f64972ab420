import Ucr.Recovery.Workflow
import Ucr.Store.Theorems.TrustedKeys

-- A device is recovered only under the plan its recovery was approved for, and becomes active only
-- when it was verified once more.

namespace Ucr

open Except Interleaving MemoryState Persistent List Option Table

variable {t t' : DeviceTables} {activated : ScopedId → Prop}

section Evolution

-- Devices and plans are stored under their own identifiers.
structure DeviceTables.Keyed (t : DeviceTables) : Prop where
  devices : ∀ key device, t.devices.get key = some device → device.deviceId = key.2
  plans   : ∀ planId plan, t.recoveryPlans.get planId = some plan → plan.planId = planId

-- What becomes of the tables in a step: plans stay on record and are not active twice, devices stay
-- on record for their identities, and become active only when they are activated.
structure Evolves (activated : ScopedId → Prop) (t t' : DeviceTables) : Prop where
  plans   : ∀ planId plan, t.recoveryPlans.get planId = some plan →
    t'.recoveryPlans.get planId = some plan
  retired : ∀ key planId plan, t.recoveryPlans.get planId = some plan →
    t.activeRecoveryPlans.get key ≠ some planId → t'.activeRecoveryPlans.get key ≠ some planId
  devices : ∀ key device, t.devices.get key = some device → ∃ device',
    t'.devices.get key = some device' ∧ device'.identityId = device.identityId ∧
    (device'.state = device.state ∨ device'.state = .revoked ∨
      (device'.state = .active ∧ device.state = .reverificationRequired ∧ activated key))
  keyed   : t.Keyed → t'.Keyed

theorem Evolves.refl : Evolves activated t t :=
  ⟨fun _ _ h => h, fun _ _ _ _ h => h, fun _ device h => ⟨device, h, rfl, .inl rfl⟩, fun h => h⟩

theorem Evolves.trans (h : Evolves activated t t') (h' : Evolves activated t' t'') :
    Evolves activated t t'' where
  plans planId plan hget := h'.plans planId plan (h.plans planId plan hget)
  retired key planId plan hget hne :=
    h'.retired key planId plan (h.plans planId plan hget) (h.retired key planId plan hget hne)
  devices key device hget := by
    obtain ⟨device₁, hget₁, hidentity₁, hstate₁⟩ := h.devices key device hget
    obtain ⟨device₂, hget₂, hidentity₂, hstate₂⟩ := h'.devices key device₁ hget₁
    refine ⟨device₂, hget₂, hidentity₂.trans hidentity₁, ?_⟩
    grind
  keyed hkeyed := h'.keyed (h.keyed hkeyed)

theorem Evolves.mono {activated' : ScopedId → Prop} (h : Evolves activated t t')
    (himp : ∀ key, activated key → activated' key) : Evolves activated' t t' := by
  refine ⟨h.plans, h.retired, fun key device hget => ?_, h.keyed⟩
  obtain ⟨device', hget', hidentity, hstate⟩ := h.devices key device hget
  exact ⟨device', hget', hidentity, hstate.imp_right (·.imp_right fun h => ⟨h.1, h.2.1, himp key h.2.2⟩)⟩

theorem DeviceTables.Keyed.put (h : t.Keyed) (hown : device.deviceId = key.2) :
    { t with devices := t.devices.put key device }.Keyed :=
  ⟨forall_put h.devices hown, h.plans⟩

theorem DeviceTables.Origin.evolves (h : t.Origin activated key device) :
    Evolves activated t { t with devices := t.devices.put key device } := by
  refine ⟨fun _ _ h => h, fun _ _ _ _ h => h, fun key' found hget => ?_, fun hkeyed => hkeyed.put ?_⟩
  · by_cases heq : key' = key
    case neg => exact ⟨found, (get_put_ne heq).trans hget, rfl, .inl rfl⟩
    case pos =>
      subst heq
      refine ⟨device, get_put_self, ?_⟩
      cases h
      case added fresh own => simp [fresh] at hget
      case revoked device stored =>
        obtain rfl := mem_unique hget stored
        exact ⟨rfl, .inr (.inl rfl)⟩
      case activated device stored staged allowed =>
        obtain rfl := mem_unique hget stored
        exact ⟨rfl, .inr (.inr ⟨rfl, staged, allowed⟩)⟩
  · cases h
    case added own => exact own
    case revoked device stored | activated device stored _ _ => exact hkeyed.devices key device stored

theorem DeviceTables.Effect.evolves (h : t.Effect activated t') : Evolves activated t t' := by
  cases h
  case identity | trusted | revoked | rotated =>
    exact ⟨fun _ _ h => h, fun _ _ _ _ h => h, fun _ device h => ⟨device, h, rfl, .inl rfl⟩,
      fun h => ⟨h.devices, h.plans⟩⟩
  case device origin _ => exact origin.evolves
  case plan plan fresh =>
    have hother : ∀ planId plan', t.recoveryPlans.get planId = some plan' → planId ≠ plan.planId := by
      rintro planId plan' hget rfl
      simp [fresh] at hget
    refine ⟨fun planId plan' hget => (get_put_ne (hother planId plan' hget)).trans hget,
      fun key planId plan' hget hne => ?_, fun _ device h => ⟨device, h, rfl, .inl rfl⟩,
      fun hkeyed => ⟨hkeyed.devices, fun planId plan' hget => ?_⟩⟩
    · simp only [get_put]
      split
      case isTrue  => simpa using (hother planId plan' hget).symm
      case isFalse => exact hne
    · simp only [get_put] at hget
      split at hget
      case isTrue heq => exact Option.some.inj hget ▸ heq.symm
      case isFalse    => exact hkeyed.plans planId plan' hget
  case noPlan =>
    refine ⟨fun _ _ h => h, fun key planId plan' _ hne => ?_,
      fun _ device h => ⟨device, h, rfl, .inl rfl⟩, fun h => ⟨h.devices, h.plans⟩⟩
    simp only [get_erase]
    split
    case isTrue  => simp
    case isFalse => exact hne

theorem DeviceTables.Effects.evolves (h : DeviceTables.Effects activated t t') :
    Evolves activated t t' := by
  induction h
  case refl => exact .refl
  case tail step ih => exact ih.trans step.evolves

end Evolution

namespace Recovery

variable {c : Shared RecoveryWorld RecoveryEvent} {w : ℕ} {α : Type}
  {moments : List MemoryState} {history : History RecoveryEvent}

-- What is known of the moment an event leads to, and of the events that its program has left
-- before.
def Fits (moments : List MemoryState) (history : History RecoveryEvent) (w : ℕ) :
    RecoveryEvent → Prop
  | .planRead request plan moment => ∃ s, moments[moment]? = some s ∧
      s.activeRecoveryPlan request.scope request.identityId = .ok (some plan)
  | .approved request plan moment => moment < moments.length ∧
      ∃ asked < moment, (w, .planRead request plan asked) ∈ history
  | .staged proof moment => ∃ s request plan, moments[moment]? = some s ∧
      (∃ answered < moment, (w, .approved request plan answered) ∈ history) ∧
      validateRecoveryRequest plan request = .ok () ∧
      proof = ⟨plan.planId, plan.scope, plan.identityId, request.targetDeviceId,
        plan.recoveredDeviceState⟩ ∧
      s.activeRecoveryPlans.get (proof.scope, proof.identityId) = some proof.planId ∧
      s.devices.get (proof.scope, proof.targetDeviceId) =
        some ⟨proof.targetDeviceId, proof.identityId, .reverificationRequired⟩
  | .deviceRead scope device moment => ∃ s, moments[moment]? = some s ∧
      s.devices.get (scope, device.deviceId) = some device
  | .reverified scope device moment => moment < moments.length ∧
      ∃ asked < moment, (w, .deviceRead scope device asked) ∈ history
  | .activated proof moment => moment < moments.length ∧ ∃ answered < moment,
      (w, .reverified proof.scope ⟨proof.deviceId, proof.identityId, .reverificationRequired⟩ answered) ∈
        history

def Activates (history : History RecoveryEvent) (moment : ℕ) (key : ScopedId) : Prop :=
  ∃ w proof, (w, .activated proof moment) ∈ history ∧ key = (proof.scope, proof.deviceId)

structure Recorded (c : Shared RecoveryWorld RecoveryEvent) : Prop where
  now     : c.state.moments.getLast? = some c.state.store
  sound   : ∀ s ∈ c.state.moments, s.toDeviceTables.Trusted ∧ s.toDeviceTables.Keyed
  evolves : ∀ (k : ℕ) (s s' : MemoryState), c.state.moments[k]? = some s →
    c.state.moments[k + 1]? = some s' →
      Evolves (Activates c.history (k + 1)) s.toDeviceTables s'.toDeviceTables
  events  : ∀ w e, (w, e) ∈ c.history → Fits c.state.moments c.history w e

theorem recorded_start : Recorded ⟨.start, []⟩ where
  now     := rfl
  sound   := by
    refine forall_mem_singleton.mpr ⟨.empty, ?_⟩
    constructor <;> simp [empty]
  evolves := by simp [RecoveryWorld.start]
  events  := by simp

theorem Fits.mono (h : Fits moments history w e) (hmoments : moments <+: moments')
    (hhistory : history ⊆ history') : Fits moments' history' w e := by
  obtain ⟨more, rfl⟩ := hmoments
  have hstays : ∀ {k : ℕ} {s : MemoryState}, moments[k]? = some s → (moments ++ more)[k]? = some s :=
    fun hk => getElem?_append_left (List.getElem?_eq_some_iff.mp hk).1 ▸ hk
  have hlength : moments.length ≤ (moments ++ more).length := by simp
  cases e
  case planRead | deviceRead =>
    obtain ⟨s, hs, h⟩ := h
    exact ⟨s, hstays hs, h⟩
  case staged =>
    obtain ⟨s, request, plan, hs, ⟨answered, hlt, happroved⟩, h⟩ := h
    exact ⟨s, request, plan, hstays hs, ⟨answered, hlt, hhistory happroved⟩, h⟩
  case approved | reverified | activated =>
    obtain ⟨hlt, asked, hasked, h⟩ := h
    exact ⟨hlt.trans_le hlength, asked, hasked, hhistory h⟩

-- What has to be known of the store and the event that a step leaves.
structure Admits (c : Shared RecoveryWorld RecoveryEvent) (w : ℕ) (store : MemoryState)
    (event : Option RecoveryEvent) : Prop where
  trusted : store.toDeviceTables.Trusted
  evolves : Evolves (fun key => ∃ proof, event = some (.activated proof c.state.moments.length) ∧
    key = (proof.scope, proof.deviceId)) c.state.store.toDeviceTables store.toDeviceTables
  fits    : ∀ e ∈ event, Fits (c.state.moments ++ [store]) c.history w e

theorem Recorded.advance (h : Recorded c) (hadmits : Admits c w store event) :
    Recorded (c.advance w (c.state.moveOn store) event) := by
  have hprefix : c.state.moments <+: c.state.moments ++ [store] := prefix_append ..
  have hsub : c.history ⊆ (c.advance w (c.state.moveOn store) event).history :=
    subset_append_left ..
  have hlast : c.state.store ∈ c.state.moments := mem_of_getLast? h.now
  refine ⟨by simp [Shared.advance, RecoveryWorld.moveOn], ?_, ?_, ?_⟩
  · intro s hs
    obtain hs | rfl : s ∈ c.state.moments ∨ s = store := by
      simpa [Shared.advance, RecoveryWorld.moveOn] using hs
    · exact h.sound s hs
    · exact ⟨hadmits.trusted, hadmits.evolves.keyed (h.sound _ hlast).2⟩
  · intro k s s' hs hs'
    simp only [Shared.advance, RecoveryWorld.moveOn] at hs hs'
    have hle : k + 1 < c.state.moments.length + 1 := by
      simpa using (List.getElem?_eq_some_iff.mp hs').1
    rw [getElem?_append_left (by omega)] at hs
    obtain hlt | heq := Nat.lt_or_eq_of_le (Nat.le_of_lt_succ hle)
    · -- An older step.
      rw [getElem?_append_left hlt] at hs'
      refine (h.evolves k s s' hs hs').mono ?_
      rintro key ⟨w', proof, hmem, hkey⟩
      exact ⟨w', proof, hsub hmem, hkey⟩
    · obtain rfl : store = s' := by simpa [heq] using hs'
      obtain rfl : c.state.store = s := by
        rw [← Option.some.injEq, ← h.now, getLast?_eq_getElem?, ← hs, ← heq]
        rfl
      refine hadmits.evolves.mono ?_
      rintro key ⟨proof, rfl, hkey⟩
      exact ⟨w, proof, by simp [Shared.advance, heq], hkey⟩
  · intro w' e he
    obtain hold | ⟨hnew, rfl⟩ : (w', e) ∈ c.history ∨ e ∈ event ∧ w = w' := by
      simpa [Shared.advance] using he
    · exact (h.events w' e hold).mono hprefix hsub
    · exact (hadmits.fits e hnew).mono (prefix_refl _) hsub

variable {pre : History RecoveryEvent → Prop} {post : α × ℕ → History RecoveryEvent → Prop}
  {f : Except VerificationError Unit → MemoryState → Except CanonicalErrorCode α × MemoryState}
  {event : α → ℕ → Option RecoveryEvent}

abbrev Knows (w : ℕ) (pre : History RecoveryEvent → Prop) (p : RecoveryProg α)
    (post : α → History RecoveryEvent → Prop) : Prop :=
  Fallible.Triple Recorded recoveryWorkload.allows w pre p post

theorem knows_momentary (hpre : Stable w pre)
    (h : ∀ c answer result store, Recorded c → pre c.history →
      f answer c.state.store = (result, store) →
        (∀ a, result = .ok a → Admits c w store (event a c.state.moments.length) ∧
          post (a, c.state.moments.length)
            (c.advance w (c.state.moveOn store) (event a c.state.moments.length)).history) ∧
        ∀ e, result = .error e → Admits c w store none) :
    Knows w pre (momentary f event) post := by
  refine .atomic hpre fun c answer r world hc hpre heq _ => ?_
  rcases hstep : f answer c.state.store with ⟨result, store⟩
  obtain ⟨hok, herror⟩ := h c answer result store hc hpre hstep
  simp only [hstep, Prod.mk.injEq] at heq
  obtain ⟨rfl, rfl⟩ := heq
  rcases result with e | a
  · exact ⟨hc.advance (herror e rfl), trivial⟩
  · obtain ⟨hadmits, hpost⟩ := hok a rfl
    exact ⟨hc.advance hadmits, hpost⟩

-- Whoever only looks changes nothing.
theorem Recorded.admits_reading (h : Recorded c) {event}
    (hfits : ∀ e ∈ event, Fits (c.state.moments ++ [c.state.store]) c.history w e) :
    Admits c w c.state.store event :=
  ⟨(h.sound _ (mem_of_getLast? h.now)).1, .refl, hfits⟩

theorem Recorded.admits_nothing (h : Recorded c) : Admits c w c.state.store none :=
  h.admits_reading nofun

-- An event of the past leads to a moment of the past.
theorem Fits.lt_length (h : Fits moments history w e) : e.moment < moments.length := by
  cases e
  case planRead | deviceRead =>
    obtain ⟨s, hs, -⟩ := h
    exact (List.getElem?_eq_some_iff.mp hs).1
  case staged =>
    obtain ⟨s, _, _, hs, -⟩ := h
    exact (List.getElem?_eq_some_iff.mp hs).1
  case approved | reverified | activated => exact h.1

theorem knows_verifier {event : ℕ → RecoveryEvent} (hpre : Stable w pre)
    (h : ∀ c, Recorded c → pre c.history →
      Fits (c.state.moments ++ [c.state.store]) c.history w (event c.state.moments.length)) :
    Knows w pre (askVerifier event) fun (_, moment) history => (w, event moment) ∈ history := by
  refine knows_momentary hpre fun c answer result store hc hpre heq => ?_
  obtain ⟨rfl, rfl⟩ := Prod.mk.inj heq
  refine ⟨fun a _ => ⟨hc.admits_reading ?_, by simp [Shared.advance]⟩, fun e _ => hc.admits_nothing⟩
  intro e he
  exact Option.some.inj he ▸ h c hc hpre

def Approves (w : ℕ) (request : RecoveryRequest) (proof : RecoveryAdmissionProof)
    (history : History RecoveryEvent) : Prop :=
  ∃ plan answered, (w, .approved request plan answered) ∈ history ∧
    validateRecoveryRequest plan request = .ok () ∧
    proof = ⟨plan.planId, plan.scope, plan.identityId, request.targetDeviceId,
      plan.recoveredDeviceState⟩

instance {request : RecoveryRequest} {proof : RecoveryAdmissionProof} :
    Persistent (Approves w request proof) where
  append h more := by
    rintro ⟨plan, answered, hmem, hvalid, hproof⟩
    exact ⟨plan, answered, mem_append_left _ hmem, hvalid, hproof⟩

variable {request : RecoveryRequest}

theorem knows_authorizeRecovery :
    Knows w ⊤ (authorizeRecovery request) (Approves w request) := by
  refine .bind (Q := fun read history =>
    ∀ plan, read.1 = some plan → (w, .planRead request plan read.2) ∈ history)
    (knows_momentary stable fun c answer result store hc _ heq => ?_) ?_
  · obtain ⟨rfl, rfl⟩ := Prod.mk.inj heq
    refine ⟨fun plan? hread => ⟨hc.admits_reading ?_, ?_⟩, fun e _ => hc.admits_nothing⟩
    · intro e he
      obtain ⟨plan, rfl, rfl⟩ := map_eq_some_iff.mp he
      exact ⟨c.state.store, by simp, mapError_eq_ok.mp hread⟩
    · rintro plan rfl
      simp [Shared.advance]
  rintro ⟨plan?, asked⟩
  refine .bind (Q := fun plan history => (w, .planRead request plan asked) ∈ history)
    (.ofExcept fun plan history hplan hread => hread plan (okOr_eq_ok.mp hplan)) fun plan => ?_
  refine .bind (Q := fun _ history => validateRecoveryRequest plan request = .ok () ∧
    (w, .planRead request plan asked) ∈ history)
    (.ofExcept fun _ history hvalid hread => ⟨mapError_eq_ok.mp hvalid, hread⟩) fun _ => ?_
  refine .given fun hvalid => .bind (knows_verifier stable fun c hc hread => ?_) ?_
  · refine ⟨by simp, asked, ?_, hread⟩
    exact (hc.events w _ hread).lt_length
  · rintro ⟨_, answered⟩
    exact .pure fun history happroved => ⟨plan, answered, happroved, hvalid, rfl⟩

theorem stageRecoveredDevice_stages {s s' : MemoryState}
    (h : s.stageRecoveredDevice proof = .ok (u, s')) :
    s'.activeRecoveryPlans.get (proof.scope, proof.identityId) = some proof.planId ∧
      s'.devices.get (proof.scope, proof.targetDeviceId) =
        some ⟨proof.targetDeviceId, proof.identityId, .reverificationRequired⟩ := by
  simp only [stageRecoveredDevice, ok_iff, not_not] at h
  obtain ⟨-, hstate, -, hactive, h⟩ := h
  have hdevice : proof.recoveredDevice =
      ⟨proof.targetDeviceId, proof.identityId, .reverificationRequired⟩ := by
    simp [RecoveryAdmissionProof.recoveredDevice, hstate]
  rw [← hdevice]
  split at h
  case h_1 existing hget =>
    simp only [ok_iff, not_not] at h
    obtain ⟨-, rfl, -, rfl⟩ := h
    exact ⟨hactive, hget⟩
  case h_2 =>
    simp only [ok_iff] at h
    obtain ⟨s₁, hkeys, -, rfl⟩ := h
    obtain ⟨-, -, -, plans⟩ := @revokeActiveKey_writes _ _ _ _ (fun _ => True) hkeys
    exact ⟨plans ▸ hactive, get_put_self⟩

-- An operation on devices leaves a sound store.
theorem Recorded.admits_op (h : Recorded c) (op : DeviceOp) {event}
    (hactivates : ∀ proof, op = .activateReverifiedDevice proof →
      event = some (.activated proof c.state.moments.length))
    (hfits : ∀ e ∈ event, Fits (c.state.moments ++ [op.run c.state.store]) c.history w e) :
    Admits c w (op.run c.state.store) event := by
  refine ⟨?_, (deviceOp_writes op fun proof heq =>
    ⟨proof, hactivates proof heq, rfl⟩).effects.evolves, hfits⟩
  exact (@deviceOp_writes _ (fun _ => True) op fun _ _ => trivial).effects.keeps_trusted
    (h.sound _ (mem_of_getLast? h.now)).1

-- Staging and activating are committed with their proofs.
theorem knows_commit {op : DeviceOp} {event : ℕ → RecoveryEvent}
    {write : MemoryState → StoreResult (Unit × MemoryState)}
    (hop : ∀ s, op.run s = ((write s).commit s).2) (hpre : Stable w pre)
    (hactivates : ∀ proof moment, op = .activateReverifiedDevice proof →
      event moment = .activated proof moment)
    (h : ∀ c store, Recorded c → pre c.history → write c.state.store = .ok ((), store) →
      Fits (c.state.moments ++ [store]) c.history w (event c.state.moments.length)) :
    Knows w pre (locked (fun store => ((write store).mapError mapStageError).commit store)
      fun _ moment => some (event moment)) fun _ _ => True := by
  refine knows_momentary hpre fun c answer result store hc hpre heq => ?_
  rcases hwrite : write c.state.store with e | ⟨_, store'⟩ <;>
    simp only [hwrite, Except.mapError, Except.commit, Prod.mk.injEq] at heq <;>
    obtain ⟨rfl, rfl⟩ := heq
  · exact ⟨by simp, fun _ _ => hc.admits_nothing⟩
  · have hstore : op.run c.state.store = store' := by
      rw [hop, hwrite]
      rfl
    refine ⟨fun _ _ => ⟨hstore ▸ hc.admits_op op (fun proof heq => ?_) fun e he => ?_, trivial⟩, by simp⟩
    · rw [hactivates proof _ heq]
    · rw [hstore]
      exact Option.some.inj he ▸ h c store' hc hpre hwrite

theorem knows_stage :
    Knows w ⊤ (authorizeAndStageRecoveredDevice request) fun _ _ => True := by
  refine .bind knows_authorizeRecovery fun proof => ?_
  have hop : ∀ s, DeviceOp.run s (.stageRecoveredDevice proof) =
      ((s.stageRecoveredDevice proof).commit s).2 := fun _ => rfl
  refine .bind (knows_commit hop stable nofun ?_) fun _ => .pure fun _ _ => trivial
  rintro c store hc ⟨plan, answered, happroved, hvalid, hproof⟩ hstage
  refine ⟨store, request, plan, by simp, ⟨answered, ?_, happroved⟩, hvalid, hproof,
    stageRecoveredDevice_stages hstage⟩
  exact (hc.events w _ happroved).lt_length

def Reverifies (w : ℕ) (proof : DeviceReverificationProof) (history : History RecoveryEvent) : Prop :=
  ∃ answered, (w, .reverified proof.scope
    ⟨proof.deviceId, proof.identityId, .reverificationRequired⟩ answered) ∈ history

instance {proof : DeviceReverificationProof} : Persistent (Reverifies w proof) where
  append h more := by
    rintro ⟨answered, hmem⟩
    exact ⟨answered, mem_append_left _ hmem⟩

theorem knows_authorizeReverification :
    Knows w ⊤ (authorizeReverification scope deviceId identityId) (Reverifies w) := by
  refine .bind (Q := fun read history =>
    ∀ device, read.1 = some device → (w, .deviceRead scope device read.2) ∈ history)
    (knows_momentary stable fun c answer result store hc _ heq => ?_) ?_
  · obtain ⟨rfl, rfl⟩ := Prod.mk.inj heq
    refine ⟨fun device? hread => ⟨hc.admits_reading ?_, ?_⟩, nofun⟩
    · intro e he
      obtain ⟨device, rfl, rfl⟩ := map_eq_some_iff.mp he
      have hread := Except.ok.inj hread
      have hkeyed := (hc.sound _ (mem_of_getLast? hc.now)).2.devices _ device hread
      exact ⟨c.state.store, by simp, hkeyed ▸ hread⟩
    · rintro device rfl
      simp [Shared.advance]
  rintro ⟨device?, asked⟩
  refine .bind (Q := fun device history => (w, .deviceRead scope device asked) ∈ history)
    (.ofExcept fun device history hdevice hread => hread device (okOr_eq_ok.mp hdevice))
    fun device => ?_
  refine .bind (Q := fun _ history => device.state = .reverificationRequired ∧
    (w, .deviceRead scope device asked) ∈ history) (.ofExcept fun _ history hstaged hread => ?_)
    fun _ => ?_
  · simp only [ok_iff, not_or, not_not] at hstaged
    exact ⟨hstaged.2, hread⟩
  refine .given fun hstaged => .bind (knows_verifier stable fun c hc hread => ?_) ?_
  · exact ⟨by simp, asked, (hc.events w _ hread).lt_length, hread⟩
  · rintro ⟨_, answered⟩
    refine .pure fun history happroved => ⟨answered, ?_⟩
    rw [← hstaged]
    exact happroved

theorem knows_activate :
    Knows w ⊤ (authorizeAndActivateReverifiedDevice scope deviceId identityId) fun _ _ => True := by
  refine .bind knows_authorizeReverification fun proof => ?_
  have hop : ∀ s, DeviceOp.run s (.activateReverifiedDevice proof) =
      ((s.activateReverifiedDevice proof).commit s).2 := fun _ => rfl
  refine .bind (knows_commit hop stable ?_ ?_) fun _ => .pure fun _ _ => trivial
  · rintro proof' moment ⟨⟩
    rfl
  · rintro c store hc ⟨answered, hreverified⟩ -
    exact ⟨by simp, answered, (hc.events w _ hreverified).lt_length, hreverified⟩

theorem knows_task (task : RecoveryTask) : Knows w ⊤ task.program fun _ _ => True := by
  cases task
  case lifecycle op =>
    refine .bind (Q := fun _ _ => True)
      (knows_momentary stable fun c answer result store hc _ heq => ?_)
      fun _ => .pure fun _ _ => trivial
    obtain ⟨rfl, rfl⟩ := Prod.mk.inj heq
    refine ⟨fun _ _ => ⟨hc.admits_op op.val (fun proof heq => ?_) nofun, trivial⟩, nofun⟩
    exact absurd (heq ▸ rfl) op.property
  case recover  => exact .bind knows_stage fun _ => .pure fun _ _ => trivial
  case reverify => exact .bind knows_activate fun _ => .pure fun _ _ => trivial

theorem recoveryWorkload_sound : recoveryWorkload.Sound Recorded where
  program task w := by
    refine Prog.Triple.consequence (knows_task task) (fun _ _ => trivial) fun _ _ _ => trivial
  env _ _ _ h := h.elim

section Time

variable {i j : ℕ} {s s' : MemoryState} {plan : RecoveryPlan} {scope : TenantScope}
  {identityId : IdentityId} {key : ScopedId} {device : DeviceDescriptor}

-- What a step keeps is kept from one moment to every later one.
@[elab_as_elim]
theorem Recorded.forward (h : Recorded c) {P : ℕ → MemoryState → Prop} (hij : i ≤ j)
    (hi : c.state.moments[i]? = some s) (hj : c.state.moments[j]? = some s') (hs : P i s)
    (hstep : ∀ (k : ℕ) (s s' : MemoryState), i ≤ k → c.state.moments[k]? = some s →
      Evolves (Activates c.history (k + 1)) s.toDeviceTables s'.toDeviceTables →
      P k s → P (k + 1) s') : P j s' := by
  induction j, hij using Nat.le_induction generalizing s'
  case base => exact mem_unique hi hj ▸ hs
  case succ j hij ih =>
    have hlt : j < c.state.moments.length := by
      have := (List.getElem?_eq_some_iff.mp hj).1
      omega
    have hget := getElem?_eq_getElem hlt
    exact hstep j _ _ hij hget (h.evolves j _ s' hget hj) (ih hget)

theorem activeRecoveryPlan_eq (hs : s.toDeviceTables.Keyed) :
    s.activeRecoveryPlan scope identityId = .ok (some plan) ↔
      s.activeRecoveryPlans.get (scope, identityId) = some plan.planId ∧
        s.recoveryPlans.get plan.planId = some plan := by
  unfold activeRecoveryPlan
  split
  case h_1 hnone => simp [hnone, pure_eq_ok]
  case h_2 planId hactive =>
    simp only [map_eq_ok, ok_iff, Option.some.injEq, exists_eq_right, hactive]
    constructor
    · intro hget
      obtain rfl := hs.plans planId plan hget
      exact ⟨rfl, hget⟩
    · rintro ⟨rfl, hget⟩
      exact hget

-- A plan that is active twice was active all the time.
theorem Recorded.active_between (h : Recorded c) (hik : i ≤ k) (hkj : k ≤ j)
    (hi : c.state.moments[i]? = some s)
    (hactive : s.activeRecoveryPlan scope identityId = .ok (some plan))
    (hk : c.state.moments[k]? = some s₁) (hj : c.state.moments[j]? = some s')
    (hlater : s'.activeRecoveryPlans.get (scope, identityId) = some plan.planId) :
    s₁.activeRecoveryPlan scope identityId = .ok (some plan) := by
  have hkeyed := fun {k : ℕ} {s : MemoryState} (hk : c.state.moments[k]? = some s) =>
    (h.sound s (mem_of_getElem? hk)).2
  have hget := ((activeRecoveryPlan_eq (hkeyed hi)).mp hactive).2
  have hget₁ : s₁.recoveryPlans.get plan.planId = some plan :=
    h.forward hik hi hk hget fun _ _ _ _ _ hstep => hstep.plans _ _
  refine (activeRecoveryPlan_eq (hkeyed hk)).mpr ⟨?_, hget₁⟩
  -- Once it was not, it never is again.
  by_contra hretired
  have hend : s'.recoveryPlans.get plan.planId = some plan ∧
      s'.activeRecoveryPlans.get (scope, identityId) ≠ some plan.planId :=
    h.forward hkj hk hj ⟨hget₁, hretired⟩ fun _ _ _ _ _ hstep hs =>
      ⟨hstep.plans _ _ hs.1, hstep.retired _ _ _ hs.1 hs.2⟩
  exact hend.2 hlater

theorem Recorded.device_stays (h : Recorded c) (hij : i ≤ j)
    (hi : c.state.moments[i]? = some s) (hs : s.devices.get key = some device)
    (hj : c.state.moments[j]? = some s') :
    ∃ device', s'.devices.get key = some device' ∧ device'.identityId = device.identityId := by
  refine h.forward hij hi hj ⟨device, hs, rfl⟩ ?_
  rintro _ s s' _ _ hstep ⟨device', hget, hidentity⟩
  obtain ⟨device'', hget', hidentity', -⟩ := hstep.devices _ _ hget
  exact ⟨device'', hget', hidentity'.trans hidentity⟩

-- A device that was staged and is active was activated in the meantime.
theorem Recorded.activated_since (h : Recorded c) (hij : i ≤ j)
    (hi : c.state.moments[i]? = some s) (hs : s.devices.get key = some device)
    (hstaged : device.state = .reverificationRequired)
    (hj : c.state.moments[j]? = some s') :
    ∃ device', s'.devices.get key = some device' ∧ device'.identityId = device.identityId ∧
      (device'.state = .active → ∃ k, i < k ∧ k ≤ j ∧ Activates c.history k key ∧
        ∃ before found, c.state.moments[k - 1]? = some before ∧ before.devices.get key = some found ∧
          found.state = .reverificationRequired) := by
  refine h.forward hij hi hj ⟨device, hs, rfl, fun hactive => ?_⟩ ?_
  · exact absurd (hstaged.symm.trans hactive) nofun
  rintro j s₁ s₂ hij hget hstep ⟨device₁, hget₁, hidentity₁, hactive₁⟩
  obtain ⟨device', hget', hidentity', hstate⟩ := hstep.devices _ _ hget₁
  refine ⟨device', hget', hidentity'.trans hidentity₁, fun hactive => ?_⟩
  obtain hbefore | hrevoked | ⟨-, hbefore, hnow⟩ := hstate
  · obtain ⟨k, hik, hkj, hrest⟩ := hactive₁ (hbefore ▸ hactive)
    exact ⟨k, hik, by omega, hrest⟩
  · cases hactive.symm.trans hrevoked
  · exact ⟨j + 1, by omega, le_rfl, hnow, _, device₁, hget, hget₁, hbefore⟩

variable {proof : RecoveryAdmissionProof} {moment : ℕ}

theorem validateRecoveryRequest_names (h : validateRecoveryRequest plan request = .ok ()) :
    request.planId = plan.planId ∧ request.scope = plan.scope ∧
      request.identityId = plan.identityId := by
  simp only [validateRecoveryRequest, ok_iff, not_not] at h
  obtain ⟨-, -, -, hplan, -, hscope, -, hidentity, -⟩ := h
  exact ⟨hplan, hscope, hidentity⟩

-- The plan that was approved was in force from the moment it was looked up.
def StagedUnderPlan (c : Shared RecoveryWorld RecoveryEvent) (w : ℕ) (proof : RecoveryAdmissionProof)
    (moment : ℕ) : Prop :=
  ∃ request plan asked answered, (w, .planRead request plan asked) ∈ c.history ∧
    (w, .approved request plan answered) ∈ c.history ∧ asked < answered ∧ answered < moment ∧
    proof = ⟨request.planId, request.scope, request.identityId, request.targetDeviceId,
      plan.recoveredDeviceState⟩ ∧
    ∀ (k : ℕ) (s : MemoryState), asked ≤ k → k ≤ moment → c.state.moments[k]? = some s →
      s.activeRecoveryPlan request.scope request.identityId = .ok (some plan)

theorem Recorded.staged_under_plan (h : Recorded c)
    (hstaged : (w, .staged proof moment) ∈ c.history) : StagedUnderPlan c w proof moment := by
  obtain ⟨s, request, plan, hs, ⟨answered, hlt, happroved⟩, hvalid, hproof, hactive, -⟩ :=
    h.events w _ hstaged
  obtain ⟨hplan, hscope, hidentity⟩ := validateRecoveryRequest_names hvalid
  obtain ⟨-, asked, hasked, hread⟩ := h.events w _ happroved
  obtain ⟨s₀, hs₀, hactive₀⟩ := h.events w _ hread
  refine ⟨request, plan, asked, answered, hread, happroved, hasked, hlt, ?_, ?_⟩
  · rw [hproof, hplan, hscope, hidentity]
  · intro k s₁ hfrom hto hs₁
    rw [hproof, ← hscope, ← hidentity] at hactive
    exact h.active_between hfrom hto hs₀ hactive₀ hs₁ hs hactive

-- The device is on record for the identity and waits to be verified, without a key.
def StagedWithoutKey (s : MemoryState) (proof : RecoveryAdmissionProof) : Prop :=
  s.devices.get (proof.scope, proof.targetDeviceId) =
      some ⟨proof.targetDeviceId, proof.identityId, .reverificationRequired⟩ ∧
    s.activeTrustedSigningKeys.get (proof.scope, proof.targetDeviceId) = none

theorem Recorded.staged_without_key (h : Recorded c)
    (hstaged : (w, .staged proof moment) ∈ c.history) :
    ∃ s, c.state.moments[moment]? = some s ∧ StagedWithoutKey s proof := by
  obtain ⟨s, request, plan, hs, -, -, -, -, hdevice⟩ := h.events w _ hstaged
  refine ⟨s, hs, hdevice, eq_none_iff_forall_ne_some.mpr fun keyId hkey => ?_⟩
  -- A key in use belongs to an active device.
  obtain ⟨device, hget, hactive⟩ := (h.sound s (mem_of_getElem? hs)).1.access _ keyId hkey
  obtain rfl := mem_unique hget hdevice
  cases hactive

-- Between the two moments the device was activated in the state in which it was staged, by a
-- program that had looked it up in that state and had it verified; if it was staged for the first
-- time, after that.
def ReverifiedBetween (c : Shared RecoveryWorld RecoveryEvent) (proof : RecoveryAdmissionProof)
    (moment k : ℕ) : Prop :=
  let staged : DeviceDescriptor := ⟨proof.targetDeviceId, proof.identityId, .reverificationRequired⟩
  ∃ w asked answered activated, (w, .deviceRead proof.scope staged asked) ∈ c.history ∧
    (w, .reverified proof.scope staged answered) ∈ c.history ∧
    (w, .activated ⟨proof.scope, proof.targetDeviceId, proof.identityId⟩ activated) ∈ c.history ∧
    asked < answered ∧ answered < activated ∧ moment < activated ∧ activated ≤ k ∧
    (∃ before, c.state.moments[activated - 1]? = some before ∧
      before.devices.get (proof.scope, proof.targetDeviceId) = some staged) ∧
    ∀ before, c.state.moments[moment - 1]? = some before → 0 < moment →
      before.devices.get (proof.scope, proof.targetDeviceId) = none → moment ≤ asked

theorem Recorded.reverified_since (h : Recorded c) (hstaged : (w, .staged proof moment) ∈ c.history)
    (hk : moment ≤ k) (hs : c.state.moments[k]? = some s) :
    ∃ device, s.devices.get (proof.scope, proof.targetDeviceId) = some device ∧
      device.identityId = proof.identityId ∧
      (device.state = .active → ReverifiedBetween c proof moment k) := by
  obtain ⟨s₀, hs₀, hdevice₀, -⟩ := h.staged_without_key hstaged
  obtain ⟨device, hget, hidentity, hactivated⟩ := h.activated_since hk hs₀ hdevice₀ rfl hs
  refine ⟨device, hget, hidentity, fun hactive => ?_⟩
  obtain ⟨activated, hsince, hto, ⟨w', ⟨scope, deviceId, identityId⟩, hevent, hkey⟩, before, found,
    hbefore, hfound, hstate⟩ := hactivated hactive
  obtain ⟨rfl, rfl⟩ := Prod.mk.inj hkey
  obtain ⟨-, answered, hanswered, hverified⟩ := h.events w' _ hevent
  obtain ⟨-, asked, hasked, hread⟩ := h.events w' _ hverified
  obtain ⟨s₁, hs₁, hdevice₁⟩ := h.events w' _ hread
  -- The device has the same identity at all times.
  have hsame : ∀ {k₁ k₂ : ℕ} {s₁ s₂ : MemoryState} {d₁ d₂ : DeviceDescriptor},
      c.state.moments[k₁]? = some s₁ → c.state.moments[k₂]? = some s₂ →
      s₁.devices.get (proof.scope, proof.targetDeviceId) = some d₁ →
      s₂.devices.get (proof.scope, proof.targetDeviceId) = some d₂ →
        d₁.identityId = d₂.identityId := by
    intro k₁ k₂ s₁ s₂ d₁ d₂ hk₁ hk₂ hd₁ hd₂
    obtain hle | hle := le_total k₁ k₂
    · obtain ⟨d, hd, heq⟩ := h.device_stays hle hk₁ hd₁ hk₂
      rw [← heq, mem_unique hd hd₂]
    · obtain ⟨d, hd, heq⟩ := h.device_stays hle hk₂ hd₂ hk₁
      rw [← heq, mem_unique hd hd₁]
  obtain rfl : identityId = proof.identityId := hsame hs₁ hs₀ hdevice₁ hdevice₀
  refine ⟨w', asked, answered, activated, hread, hverified, hevent, hasked, hanswered, hsince, hto,
    ⟨before, hbefore, ?_⟩, fun earlier hearlier hpos hnone => ?_⟩
  · have hid := (h.sound before (mem_of_getElem? hbefore)).2.devices _ found hfound
    have hidentity' := hsame hbefore hs₀ hfound hdevice₀
    rw [hfound]
    cases found
    simp_all
  · by_contra hlt
    obtain ⟨d, hd, -⟩ := h.device_stays (by omega) hs₁ hdevice₁ hearlier
    simp [hnone] at hd

end Time

end Recovery

namespace Scenario

def lostLaptop : RecoveryRequest where
  planId := firstPlan
  scope := tenant
  identityId := alice.principalId
  authority := .recoveryCode
  targetDeviceId := laptop

def lostLaptopProof : RecoveryAdmissionProof :=
  ⟨firstPlan, tenant, alice.principalId, laptop, .reverificationRequired⟩

-- A plan is installed, the laptop is recovered under it, and verified once more. Both verifiers
-- approve.
def laptopReturns : Pool RecoveryWorld (Except VerificationError Unit) RecoveryEvent
    (Except CanonicalErrorCode (Option DeviceDescriptor)) :=
  recoveryWorkload.playAll (Workload.initial .start)
    [.start (.lifecycle ⟨.installRecoveryPlan (codePlan tenant firstPlan), by decide⟩),
      .start (.recover lostLaptop),
      .start (.reverify tenant laptop alice.principalId),
      .run 0 (.ok ()),
      .run 1 (.ok ()), .run 1 (.ok ()), .run 1 (.ok ()),
      .run 2 (.ok ()), .run 2 (.ok ()), .run 2 (.ok ())]

theorem laptopReturns_run : recoveryWorkload.Run (Workload.initial .start) laptopReturns :=
  (Workload.AllowsAll.of_forall fun _ _ => trivial).run

end Scenario

end Ucr
