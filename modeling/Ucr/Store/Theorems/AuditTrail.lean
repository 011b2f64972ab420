import Ucr.Lib.HashChain
import Ucr.Protocol.Theorems.AuditEncoding
import Ucr.Store.Theorems.Invariant

-- The audit trail of the store is a hash chain: its last hash determines all its records.

namespace Ucr

open Relation MemoryState

variable {s s' : MemoryState}

-- What is hashed for a sequence of records.
def auditPreimages (records : List ServiceAuditRecord) : List Bytes :=
  HashChain.preimages sha256 Audit.preimage zeroAuditHash records

namespace MemoryState

-- The records on the trail are validated, and their hashes are those of the chain they form.
structure AuditSound (s : MemoryState) : Prop where
  valid   : ∀ entry ∈ s.serviceAuditRecords, validateServiceAuditRecord entry.1 = .ok ()
  chained : HashChain.Chained sha256 Audit.preimage zeroAuditHash s.serviceAuditRecords

-- An operation adds at most one record to the trail.
theorem run_audit (hs : s.Keyed) (op : StoreOp) :
    (op.run s).serviceAuditRecords = s.serviceAuditRecords ∨
      ∃ record, validateServiceAuditRecord record = .ok () ∧ (op.run s).serviceAuditRecords =
        s.serviceAuditRecords ++ [(record, serviceAuditHash s.lastAuditHash record)] := by
  by_cases harea : op.area = some .services
  · cases op <;> simp only [StoreOp.area, Option.some.injEq, reduceCtorEq] at harea
    case service op =>
      exact (serviceOp_writes op).audit
  · exact .inl (congrArg ServiceTables.serviceAuditRecords ((run_keeps hs op).services harea))

theorem AuditSound.run (h : s.AuditSound) (hs : s.Keyed) (op : StoreOp) : (op.run s).AuditSound := by
  obtain heq | ⟨record, hvalid, heq⟩ := run_audit hs op
  · exact ⟨heq ▸ h.valid, heq ▸ h.chained⟩
  · refine ⟨heq ▸ fun entry hmem => ?_, heq ▸ h.chained.append⟩
    rcases List.mem_append.mp hmem with hold | hnew
    · exact h.valid entry hold
    · rw [List.mem_singleton.mp hnew]
      exact hvalid

theorem Reachable.auditSound (hs : s.Reachable) : s.AuditSound :=
  Reachable.induction .refl hs ⟨by simp [empty], .nil⟩ fun _ op ht ih =>
    ih.run ht.attainable.keyed op

theorem audit_isPrefix (hs : s.Reachable) (hrun : StoreRun s s') :
    s.serviceAuditRecords <+: s'.serviceAuditRecords := by
  refine hs.induction hrun List.prefix_rfl fun t op ht ih => ?_
  obtain heq | ⟨record, -, heq⟩ := run_audit ht.attainable.keyed op
  · exact heq ▸ ih
  · exact heq ▸ ih.trans (List.prefix_append ..)

end MemoryState

-- Sequences of validated records with the same last hash are the same, where the hash neither
-- collides nor gives the initial one. On the trail of the store every hash is the one of the
-- records up to it, and no record is ever changed or taken away.
theorem audit_trail_is_tamper_evident :
    (∀ first second : List ServiceAuditRecord,
      (∀ record ∈ first, validateServiceAuditRecord record = .ok ()) →
      (∀ record ∈ second, validateServiceAuditRecord record = .ok ()) →
      HashChain.CollisionFree sha256 zeroAuditHash
        (auditPreimages first ++ auditPreimages second) →
      first.foldl serviceAuditHash zeroAuditHash = second.foldl serviceAuditHash zeroAuditHash →
        first = second) ∧
      ∀ s : MemoryState, s.Reachable →
        (∀ entry ∈ s.serviceAuditRecords, validateServiceAuditRecord entry.1 = .ok ()) ∧
        (∀ earlier record hash later, s.serviceAuditRecords = earlier ++ (record, hash) :: later →
          hash = (earlier.map Prod.fst ++ [record]).foldl serviceAuditHash zeroAuditHash) ∧
        ∀ s', StoreRun s s' → s.serviceAuditRecords <+: s'.serviceAuditRecords := by
  refine ⟨fun first second hfirst hsecond hfree hhead => ?_, fun s hs => ?_⟩
  · exact HashChain.eq_of_head_eq (fun _ _ _ _ => Audit.preimage_inj) hfirst hsecond hfree hhead
  · have hsound := hs.auditSound
    exact ⟨hsound.valid, hsound.chained, fun s' => audit_isPrefix hs⟩

namespace Scenario

def pump : ScopedPrincipal := ⟨tenant, ⟨named "pump", .serviceAccount⟩⟩

-- The pump presents a credential and is admitted; a token nobody knows is not.
def pumpAdmitted : ServiceAuditRecord where
  auditId := named "pump-admitted"
  authentication := .serviceCredential (named "pump-credential")
  presentedScope := tenant
  subject := some pump
  permission := "ucr.message.send"
  resourceScope := tenant
  outcome := .authorized
  occurredAtUnixMs := ⟨5, by decide⟩
  operation := some ⟨"ucr.message.send", named "pump-report"⟩

def strangerRefused : ServiceAuditRecord where
  auditId := named "stranger-refused"
  authentication := .machineAccessToken (named "stranger-token")
  presentedScope := tenant
  subject := none
  permission := "ucr.message.read"
  resourceScope := tenant
  outcome := .authenticationFailed
  occurredAtUnixMs := ⟨6, by decide⟩
  operation := none

def auditStore : MemoryState :=
  empty.runAll [.service (.appendServiceAudit pumpAdmitted),
    .service (.appendServiceAudit strangerRefused)]

end Scenario

open Scenario

-- Both requests are on the trail, and leaving out the second one would show.
theorem refusal_cannot_be_dropped :
    auditStore.serviceAuditRecords.map Prod.fst =
        [pumpAdmitted, strangerRefused] ∧
      (∀ entry ∈ auditStore.serviceAuditRecords,
        validateServiceAuditRecord entry.1 = .ok ()) ∧
      [pumpAdmitted, strangerRefused].foldl serviceAuditHash zeroAuditHash ≠
        [pumpAdmitted].foldl serviceAuditHash zeroAuditHash := by
  obtain ⟨hequal, hstore⟩ := audit_trail_is_tamper_evident
  refine ⟨by decide +kernel, (hstore _ (storeRun_runAll _ _)).1, fun hhead => ?_⟩
  have := hequal [pumpAdmitted, strangerRefused] [pumpAdmitted]
    (by decide +kernel) (by decide +kernel) ⟨by decide +kernel, by decide +kernel⟩ hhead
  simp at this

end Ucr
