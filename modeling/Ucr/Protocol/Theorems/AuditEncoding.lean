import Ucr.Protocol.ServiceControl

-- What is hashed for an audit record can be read back: the previous hash and, of a record that was
-- validated, every field.

namespace Ucr

open Except Encoding List

namespace Audit

variable {record record' : ServiceAuditRecord}

-- Texts whose length fits the four bytes it is written in.
abbrev ShortText := { text : String // text.utf8ByteSize < 256 ^ 4 }

theorem length_utf8 : (utf8 text).length = text.utf8ByteSize :=
  rfl

theorem selfDelimiting_id : SelfDelimiting fun id : OpaqueId => hashId id.asWireBytes := by
  refine selfDelimiting_lengthPrefixed OpaqueId.asWireBytes_injective fun id => ?_
  have := id.bounded
  simp only [OpaqueId.maxLen] at this
  rw [OpaqueId.asWireBytes, length_utf8]
  omega

theorem selfDelimiting_text : SelfDelimiting fun text : ShortText => hashId (utf8 text) :=
  selfDelimiting_lengthPrefixed (utf8_injective.comp Subtype.val_injective) fun text => text.2

theorem selfDelimiting_scope : SelfDelimiting hashScope := by
  have hview : Function.Injective fun scope : TenantScope => (scope.tenantId, scope.namespaceId) := by
    rintro ⟨_, _⟩ ⟨_, _⟩ h
    simpa using h
  have hparts := (selfDelimiting_id.append selfDelimiting_id.pushOptional).comp hview
  exact hparts

-- The kind of a subject is not written.
def viewSubject (subject : ScopedPrincipal) : TenantScope × PrincipalId :=
  (subject.scope, subject.principal.principalId)

theorem selfDelimiting_subject : SelfDelimiting fun subject : TenantScope × PrincipalId =>
    hashScope subject.1 ++ hashId subject.2.asWireBytes :=
  selfDelimiting_scope.append selfDelimiting_id

theorem hashSubject_read
    (h : pushOptional hashSubject subject ++ s = pushOptional hashSubject subject' ++ t) :
    subject.map viewSubject = subject'.map viewSubject ∧ s = t := by
  have hview : ∀ subject : Option ScopedPrincipal, pushOptional hashSubject subject =
      pushOptional (fun subject : TenantScope × PrincipalId =>
        hashScope subject.1 ++ hashId subject.2.asWireBytes) (subject.map viewSubject) := by
    rintro (_ | subject) <;> rfl
  rw [hview, hview] at h
  exact selfDelimiting_subject.pushOptional h

theorem auditOutcomeCode_injective : Function.Injective auditOutcomeCode := by
  intro a b h
  cases a <;> cases b <;> simp_all [auditOutcomeCode]

theorem selfDelimiting_outcome : SelfDelimiting fun outcome : ServiceAuditOutcome =>
    [auditOutcomeCode outcome] :=
  selfDelimiting_of_length (fun _ => length_singleton)
    fun _ _ h => auditOutcomeCode_injective (singleton_inj.mp h)

theorem selfDelimiting_time : SelfDelimiting fun time : I64 =>
    beBytes 8 (time.val % 2 ^ 64).toNat := by
  refine selfDelimiting_of_length (fun _ => length_beBytes) fun a b h => Subtype.ext ?_
  have ha := a.2
  have hb := b.2
  have := beBytes_inj (by omega) (by omega) h
  simp only [maxI64] at ha hb
  omega

theorem hashOperation_read (hshort : operation.operationKind.utf8ByteSize < 256 ^ 4)
    (hshort' : operation'.operationKind.utf8ByteSize < 256 ^ 4)
    (h : hashOperation operation ++ s = hashOperation operation' ++ t) :
    operation = operation' ∧ s = t := by
  simp only [hashOperation, append_assoc] at h
  obtain ⟨hkind, h⟩ := @selfDelimiting_text ⟨_, hshort⟩ ⟨_, hshort'⟩ _ _ h
  obtain ⟨hid, h⟩ := selfDelimiting_id h
  cases operation
  cases operation'
  simp_all

-- What the layouts end with tells all fields apart from the identifiers and the operation.
theorem hashRequest_read (hshort : record.permission.utf8ByteSize < 256 ^ 4)
    (hshort' : record'.permission.utf8ByteSize < 256 ^ 4)
    (h : hashRequest record ++ s = hashRequest record' ++ t) :
    record.presentedScope = record'.presentedScope ∧
      record.subject.map viewSubject = record'.subject.map viewSubject ∧
      record.permission = record'.permission ∧ record.resourceScope = record'.resourceScope ∧
      record.outcome = record'.outcome ∧ record.occurredAtUnixMs = record'.occurredAtUnixMs ∧
      s = t := by
  simp only [hashRequest, append_assoc] at h
  obtain ⟨hpresented, h⟩ := selfDelimiting_scope h
  obtain ⟨hsubject, h⟩ := hashSubject_read h
  obtain ⟨hpermission, h⟩ := @selfDelimiting_text ⟨_, hshort⟩ ⟨_, hshort'⟩ _ _ h
  obtain ⟨hresource, h⟩ := selfDelimiting_scope h
  obtain ⟨houtcome, h⟩ := selfDelimiting_outcome h
  obtain ⟨htime, h⟩ := selfDelimiting_time h
  exact ⟨hpresented, hsubject, congrArg Subtype.val hpermission, hresource, houtcome, htime, h⟩

section Validated

-- A validated record has short texts, and its subject is a service account.
theorem permission_short (h : validateServiceAuditRecord record = .ok ()) :
    record.permission.utf8ByteSize < 256 ^ 4 := by
  simp only [validateServiceAuditRecord, ok_iff, exists_const, not_lt] at h
  have hshort := h.1
  simp only [maxServiceRequestPermissionLen] at hshort
  omega

theorem operation_short (h : validateServiceAuditRecord record = .ok ())
    (hoperation : record.operation = some operation) :
    operation.operationKind.utf8ByteSize < 256 ^ 4 := by
  simp only [validateServiceAuditRecord, hoperation, validateServiceAuditOperationRef, ok_iff,
    exists_const, not_lt] at h
  obtain ⟨-, -, -, -, _, ⟨hshort, -⟩, -⟩ := h
  simp only [maxServiceAuditOperationKindLen] at hshort
  omega

theorem subject_kind (h : validateServiceAuditRecord record = .ok ())
    (hsubject : record.subject = some subject) : subject.principal.kind = .serviceAccount := by
  have hvalid : validateAuditSubject record = .ok () := by
    simp only [validateServiceAuditRecord, ok_iff] at h
    split at h <;> simp_all
  unfold validateAuditSubject at hvalid
  split at hvalid <;> simp_all

end Validated

-- The fields that are read back, and the kind that validation fixes, make up the record. What
-- follows them is left over.
theorem request_read (hvalid : validateServiceAuditRecord record = .ok ())
    (hvalid' : validateServiceAuditRecord record' = .ok ())
    (h : hashRequest record ++ s = hashRequest record' ++ t)
    (hid : record.auditId = record'.auditId)
    (hauthentication : record.authentication = record'.authentication) :
    s = t ∧ (record.operation = record'.operation → record = record') := by
  obtain ⟨hpresented, hsubject, hpermission, hresource, houtcome, htime, hrest⟩ :=
    hashRequest_read (permission_short hvalid) (permission_short hvalid') h
  have hsubjects : record.subject = record'.subject := by
    cases hs : record.subject <;> cases hs' : record'.subject <;>
      simp only [hs, hs', Option.map_some, Option.map_none, Option.some.injEq, reduceCtorEq] at hsubject
    case none.none => rfl
    case some.some subject subject' =>
      have hkind := (subject_kind hvalid hs).trans (subject_kind hvalid' hs').symm
      obtain ⟨hscope, hprincipal⟩ := Prod.mk.inj hsubject
      obtain ⟨_, _, _⟩ := subject
      obtain ⟨_, _, _⟩ := subject'
      simp_all
  refine ⟨hrest, fun hoperation => ?_⟩
  cases record
  cases record'
  simp_all

-- The three layouts: a domain, the previous hash, and the fields of the record.
def domain (record : ServiceAuditRecord) : Bytes :=
  match record.authentication, record.operation with
  | .serviceCredential _, some _ => serviceAuditHashV2Domain
  | .serviceCredential _, none   => serviceAuditHashV1Domain
  | .machineAccessToken _, _     => serviceAuditHashV3Domain

def fields (record : ServiceAuditRecord) : Bytes :=
  match record.authentication, record.operation with
  | .serviceCredential id, some operation =>
    hashLegacyAuditFields id record ++ 1 :: hashOperation operation
  | .serviceCredential id, none => hashLegacyAuditFields id record
  | .machineAccessToken _, operation =>
    hashId record.auditId.asWireBytes ++ hashId (utf8 record.authentication.kind) ++
      hashId record.authentication.asOpaque.asWireBytes ++ hashRequest record ++
      pushOptional hashOperation operation

theorem preimage_eq : preimage previous record =
    domain record ++ (previous.bytes ++ fields record) := by
  unfold preimage domain fields
  split <;> simp_all

theorem length_domain : (domain record).length = 26 := by
  unfold domain
  split <;> decide +kernel

theorem domains_distinct : serviceAuditHashV1Domain ≠ serviceAuditHashV2Domain ∧
    serviceAuditHashV1Domain ≠ serviceAuditHashV3Domain ∧
    serviceAuditHashV2Domain ≠ serviceAuditHashV3Domain := by
  decide +kernel

theorem operations_read (hshort : ∀ o ∈ operation, o.operationKind.utf8ByteSize < 256 ^ 4)
    (hshort' : ∀ o ∈ operation', o.operationKind.utf8ByteSize < 256 ^ 4)
    (h : pushOptional hashOperation operation = pushOptional hashOperation operation') :
    operation = operation' := by
  cases operation <;> cases operation' <;> simp only [pushOptional, List.cons.injEq] at h
  case none.none => rfl
  case none.some => simp at h
  case some.none => simp at h
  case some.some operation operation' =>
    obtain ⟨rfl, -⟩ := hashOperation_read (s := []) (t := []) (hshort _ rfl) (hshort' _ rfl)
      (by simpa using h)
    rfl

theorem fields_inj (hvalid : validateServiceAuditRecord record = .ok ())
    (hvalid' : validateServiceAuditRecord record' = .ok ())
    (hdomain : domain record = domain record') (h : fields record = fields record') :
    record = record' := by
  obtain ⟨h₁₂, h₁₃, h₂₃⟩ := domains_distinct
  have hshort : ∀ o ∈ record.operation, o.operationKind.utf8ByteSize < 256 ^ 4 :=
    fun o => operation_short hvalid
  have hshort' : ∀ o ∈ record'.operation, o.operationKind.utf8ByteSize < 256 ^ 4 :=
    fun o => operation_short hvalid'
  cases hauthentication : record.authentication <;> cases hauthentication' : record'.authentication
  case serviceCredential.serviceCredential id id' =>
    cases hoperation : record.operation <;> cases hoperation' : record'.operation <;>
      simp only [domain, fields, hauthentication, hauthentication', hoperation, hoperation',
        hashLegacyAuditFields, append_assoc] at hdomain h
    case none.some => exact absurd hdomain h₁₂
    case some.none => exact absurd hdomain.symm h₁₂
    case none.none =>
      obtain ⟨hid, h⟩ := selfDelimiting_id h
      obtain ⟨rfl, hrequest⟩ := selfDelimiting_id h
      exact (request_read (s := []) (t := []) hvalid hvalid' (by simpa using hrequest) hid
        (hauthentication.trans hauthentication'.symm)).2 (hoperation.trans hoperation'.symm)
    case some.some operation operation' =>
      obtain ⟨hid, h⟩ := selfDelimiting_id h
      obtain ⟨rfl, hrequest⟩ := selfDelimiting_id h
      obtain ⟨hrest, hrecord⟩ := request_read hvalid hvalid' hrequest hid
        (hauthentication.trans hauthentication'.symm)
      rw [hoperation] at hshort
      rw [hoperation'] at hshort'
      rw [hoperation, hoperation'] at hrecord
      exact hrecord (operations_read hshort hshort' hrest)
  case serviceCredential.machineAccessToken =>
    cases hoperation : record.operation <;>
      simp only [domain, hauthentication, hauthentication', hoperation] at hdomain
    case none => exact absurd hdomain h₁₃
    case some => exact absurd hdomain h₂₃
  case machineAccessToken.serviceCredential =>
    cases hoperation' : record'.operation <;>
      simp only [domain, hauthentication, hauthentication', hoperation'] at hdomain
    case none => exact absurd hdomain.symm h₁₃
    case some => exact absurd hdomain.symm h₂₃
  case machineAccessToken.machineAccessToken id id' =>
    simp only [fields, hauthentication, hauthentication', ServiceAuthenticationRef.kind,
      ServiceAuthenticationRef.asOpaque, append_assoc] at h
    obtain ⟨hid, h⟩ := selfDelimiting_id h
    obtain ⟨rfl, hrequest⟩ := selfDelimiting_id (append_cancel_left h)
    obtain ⟨hrest, hrecord⟩ := request_read hvalid hvalid' hrequest hid
      (hauthentication.trans hauthentication'.symm)
    exact hrecord (operations_read hshort hshort' hrest)

theorem preimage_inj (hvalid : validateServiceAuditRecord record = .ok ())
    (hvalid' : validateServiceAuditRecord record' = .ok ())
    (h : preimage previous record = preimage previous' record') :
    previous = previous' ∧ record = record' := by
  rw [preimage_eq, preimage_eq] at h
  obtain ⟨hdomain, h⟩ := append_inj h (length_domain.trans length_domain.symm)
  obtain ⟨hprevious, hfields⟩ := append_inj h (previous.length_eq.trans previous'.length_eq.symm)
  refine ⟨?_, fields_inj hvalid hvalid' hdomain hfields⟩
  cases previous
  cases previous'
  simpa using hprevious

end Audit

end Ucr
