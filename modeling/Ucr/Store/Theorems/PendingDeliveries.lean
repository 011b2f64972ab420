import Ucr.Store.Theorems.Evidence

-- The bounded scan for attempts that wait to be sent finds those that come first.

namespace Ucr

open Except List

namespace MemoryState

variable {s : MemoryState} {scope : TenantScope}

def pendingOf (s : MemoryState) (scope : TenantScope) : List DeliveryAttempt :=
  s.deliveries.values.filter fun attempt => attempt.scope = scope ∧ isPending attempt.state

theorem EvidenceSound.nodup_pendingOf (h : s.EvidenceSound) :
    ((s.pendingOf scope).map (·.deliveryId)).Nodup := by
  have hkeys : (s.deliveries.values.map DeliveryAttempt.key).Nodup :=
    Table.nodup_values fun e he => (h e.fst e.snd (Table.mem_entries_iff.mp he)).1.symm
  have hpending := hkeys.sublist (filter_sublist.map DeliveryAttempt.key :
    ((s.pendingOf scope).map DeliveryAttempt.key).Sublist _)
  have hscope : (s.pendingOf scope).map DeliveryAttempt.key =
      ((s.pendingOf scope).map (·.deliveryId)).map (Prod.mk scope) := by
    rw [map_map]
    refine map_congr_left fun attempt hmem => ?_
    have hown : attempt.scope = scope := by simp_all [pendingOf]
    simp [DeliveryAttempt.key, hown]
  exact .of_map _ (hscope ▸ hpending)

end MemoryState

open MemoryState

theorem pending_scan_is_exact {s : MemoryState} {visited : List DeliveryAttempt} {limit : ℕ}
    (hs : DeliverySteps .empty s) (hvisited : visited.Perm s.deliveries.values)
    (hpositive : 1 ≤ limit) (hlimit : limit ≤ 256) (scope : TenantScope) :
    ∃ result, pendingDeliveryAttempts visited scope limit = .ok result ∧
      result.length = min limit (s.pendingOf scope).length ∧
      result.Pairwise (·.deliveryId.value < ·.deliveryId.value) ∧
      (∀ attempt ∈ result, attempt ∈ s.pendingOf scope) ∧
      ∀ attempt ∈ s.pendingOf scope, attempt ∉ result →
        ∀ kept ∈ result, kept.deliveryId.value < attempt.deliveryId.value := by
  obtain ⟨limit, rfl⟩ := Nat.exists_eq_add_of_le' hpositive
  have hempty : empty.EvidenceSound := fun key attempt hget => by cases hget
  obtain ⟨-, hsound, -⟩ := deliverySteps_keeping .refl hempty hs
  obtain ⟨found, hperm, hsorted, hrun⟩ : ∃ found : List DeliveryAttempt,
      found.Perm (s.pendingOf scope) ∧ found.SortedOn (·.deliveryId.value) ∧
      pendingDeliveryAttempts visited scope (limit + 1) = .ok (found.take (limit + 1)) := by
    refine ⟨_, (sortOn_perm.trans (reverse_perm _)).trans (hvisited.filter _),
      sortedOn_sortOn, ?_⟩
    rw [pendingDeliveryAttempts, foldl_insertLowest, rejectIf, if_neg (by omega)]
    rfl
  have hstrict : found.Pairwise (·.deliveryId.value < ·.deliveryId.value) := by
    have hne := pairwise_map.mp ((hperm.map _).nodup_iff.mpr hsound.nodup_pendingOf)
    exact hsorted.imp₂ (fun a b hle hne => hle.lt_of_ne fun heq => hne (OpaqueId.ext heq)) hne
  refine ⟨_, hrun, by rw [length_take, hperm.length_eq], hstrict.sublist (take_sublist ..),
    fun attempt hmem => hperm.mem_iff.mp (mem_of_mem_take hmem),
    fun attempt hmem hout kept hkept => ?_⟩
  rw [← hperm.mem_iff, ← take_append_drop (limit + 1) found, mem_append] at hmem
  rw [← take_append_drop (limit + 1) found, pairwise_append] at hstrict
  exact hstrict.2.2 kept hkept attempt (hmem.resolve_left hout)

open Scenario

namespace Scenario

def queueing (deliveryId : DeliveryId) : List DeliveryCall :=
  [.create { postcardAttempt with deliveryId } { postcardEvidence .persistedLocal 1 with deliveryId },
    .transition tenant deliveryId .persisted .encrypted none,
    .transition tenant deliveryId .encrypted .queued none]

def queuedPostcards : MemoryState :=
  claimedPostcard.runCalls ([named "second", named "first", named "third"].flatMap queueing)

end Scenario

-- The postcard is queued three times, and the scan may return two.
theorem queued_postcard_is_found :
    ∃ result, pendingDeliveryAttempts queuedPostcards.deliveries.values.reverse tenant 2 = .ok result ∧
      result.length = 2 ∧ result.Pairwise (·.deliveryId.value < ·.deliveryId.value) := by
  have hsteps : DeliverySteps .empty queuedPostcards :=
    claimedPostcard_steps.trans (deliverySteps_runCalls _)
  obtain ⟨result, hrun, hlength, hsorted, -⟩ :=
    pending_scan_is_exact hsteps (List.reverse_perm _) (by decide : 1 ≤ 2) (by decide) tenant
  exact ⟨result, hrun, hlength.trans (by decide +kernel), hsorted⟩

end Ucr
