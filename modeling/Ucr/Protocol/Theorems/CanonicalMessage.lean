import Ucr.Protocol.Replication

-- A canonical message is its own canonical form, and so are the replicas that carry it.

namespace Ucr

open Except List

variable {message : MessageEnvelope}

-- The lists whose order does not matter are in the order the canonical form gives them.
structure MessageEnvelope.Ordered (message : MessageEnvelope) : Prop where
  relations : message.relations.SortedOn (·.sortKey)
  externalMappings : message.externalMappings.SortedOn (·.sortKey)
  extensions : message.extensions.SortedOn (·.name)

theorem canonicalProtocolExtensions_eq {extensions canonical}
    (h : canonicalProtocolExtensions extensions = .ok canonical) :
    canonical = extensions.sortOn (·.name) := by
  simp only [canonicalProtocolExtensions, ok_iff] at h
  obtain ⟨-, -, -, -, -, -, rfl⟩ := h
  rfl

theorem canonicalProtocolExtensions_sortOn {extensions canonical} :
    canonicalProtocolExtensions (extensions.sortOn (·.name)) = .ok canonical ↔
      canonicalProtocolExtensions extensions = .ok canonical := by
  simp only [canonicalProtocolExtensions, ok_iff, forM_eq_ok, length_sortOn, mem_sortOn, sortOn_sortOn]

-- Only the order of some lists changes.
theorem canonicalMessage_eq (h : canonicalMessage message = .ok canonical) :
    canonical = { message with
      relations := message.relations.sortOn (·.sortKey)
      externalMappings := message.externalMappings.sortOn (·.sortKey)
      extensions := message.extensions.sortOn (·.name) } := by
  simp only [canonicalMessage, ok_iff] at h
  obtain ⟨-, -, extensions, hextensions, rfl⟩ := h
  rw [canonicalProtocolExtensions_eq hextensions]

theorem canonicalMessage_ordered (h : canonicalMessage message = .ok canonical) :
    canonical.Ordered := by
  rw [canonicalMessage_eq h]
  exact ⟨sortedOn_sortOn, sortedOn_sortOn, sortedOn_sortOn⟩

theorem MessageEnvelope.Ordered.canonicalMessage_eq (hm : message.Ordered)
    (h : canonicalMessage message = .ok canonical) : canonical = message := by
  rw [Ucr.canonicalMessage_eq h, sortOn_of_sortedOn hm.relations,
    sortOn_of_sortedOn hm.externalMappings, sortOn_of_sortedOn hm.extensions]

theorem canonicalOfflineGroupMessageReplica_message {record canonical}
    (h : canonicalOfflineGroupMessageReplica record = .ok canonical) :
    canonical.message.Ordered ∧ canonical.message.deliveryState = .persisted := by
  simp only [canonicalOfflineGroupMessageReplica, ok_iff, exists_const, ne_eq, not_not] at h
  obtain ⟨message, hmessage, -, -, -, hstate, -, rfl⟩ := h
  exact ⟨canonicalMessage_ordered hmessage, hstate⟩

theorem appendMeshRecipient_message (h : appendMeshRecipient replica device = .ok extended) :
    extended.record.message.Ordered ∧ extended.record.message.deliveryState = .persisted := by
  simp only [appendMeshRecipient, canonicalMeshGroupMessageReplica, ok_iff] at h
  obtain ⟨_, ⟨record, hrecord, -, -, -, -, -, -, -, -, -, -, -, -, rfl⟩, -, -, -, -, rfl⟩ := h
  exact canonicalOfflineGroupMessageReplica_message hrecord

end Ucr
