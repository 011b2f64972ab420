import Ucr.Lib.Machine
import Ucr.Lib.Protobuf
import Mathlib.Data.Prod.Lex
import Mathlib.Data.String.Basic

-- Identifiers, tenant scopes and principals: the vocabulary every other record is written in.

namespace Ucr

def OpaqueId.maxLen : ℕ := 128

-- An identifier is a non-empty UTF-8 token of at most `OpaqueId.maxLen` bytes.
@[ext]
structure OpaqueId where
  value   : String
  nonempty : value ≠ ""
  bounded : value.utf8ByteSize ≤ OpaqueId.maxLen
deriving DecidableEq

def OpaqueId.new (text : String) : Option OpaqueId :=
  if h : text ≠ "" ∧ text.utf8ByteSize ≤ OpaqueId.maxLen then some ⟨text, h.1, h.2⟩ else none

abbrev TenantId := OpaqueId
abbrev NamespaceId := OpaqueId
abbrev PrincipalId := OpaqueId
abbrev ConversationId := OpaqueId
abbrev GroupId := OpaqueId
abbrev MessageId := OpaqueId
abbrev CallId := OpaqueId
abbrev DeliveryId := OpaqueId
abbrev StoreForwardId := OpaqueId
abbrev StoreForwardLeaseId := OpaqueId
abbrev IntegrationId := OpaqueId
abbrev CommandId := OpaqueId
abbrev EventId := OpaqueId
abbrev EventSubscriptionId := OpaqueId
abbrev IntentId := OpaqueId
abbrev DeviceId := OpaqueId
abbrev SessionId := OpaqueId
abbrev EndpointId := OpaqueId
abbrev RecordingId := OpaqueId
abbrev ServiceCredentialId := OpaqueId
abbrev AuditRecordId := OpaqueId
abbrev IdentityId := OpaqueId
abbrev KeyId := OpaqueId
abbrev RecoveryPlanId := OpaqueId

def utf8 (s : String) : Bytes :=
  s.toByteArray.data.toList

def OpaqueId.asWireBytes (id : OpaqueId) : Bytes :=
  utf8 id.value

def pbOpaque (id : OpaqueId) : Bytes :=
  Protobuf.bytesField 1 id.asWireBytes

inductive PrincipalKind
  | person
  | device
  | serviceAccount
  | aiAgent
  | bot
  | organization
  | automation
  | externalPlatform
deriving DecidableEq

structure PrincipalRef where
  principalId : PrincipalId
  kind : PrincipalKind
deriving DecidableEq

structure TenantScope where
  tenantId    : TenantId
  namespaceId : Option NamespaceId
deriving DecidableEq

def pbScope (scope : TenantScope) : Bytes :=
  Protobuf.messageField 1 (pbOpaque scope.tenantId) ++
    Protobuf.optionalField 2 (scope.namespaceId.map pbOpaque)

structure ScopedPrincipal where
  scope     : TenantScope
  principal : PrincipalRef
deriving DecidableEq

structure ProtocolVersion where
  major : U32
  minor : U32
deriving DecidableEq

-- Versions are ordered by major number first.
def ProtocolVersion.key (version : ProtocolVersion) : U32 ×ₗ U32 :=
  toLex (version.major, version.minor)

def runtimeEnvelopeSchemaV1 : ProtocolVersion := ⟨1, 0⟩

inductive ConversationKind
  | direct
  | privateGroup
  | publicGroup
  | broadcast
  | community
  | room
  | topic
  | thread
  | system
deriving DecidableEq

structure ConversationRef where
  conversationId : ConversationId
  kind : ConversationKind
deriving DecidableEq

inductive DeliveryPolicy
  | bestEffort
  | durable
  | urgent
  | expiring
  | localOnly
  | directOnly
  | noRelay
  | noExternalBridge
  | privateNetworkOnly
deriving DecidableEq

inductive IpAddr
  | v4 (bits : BitVec 32)
  | v6 (bits : BitVec 128)

namespace IpAddr

def isUnspecified : IpAddr → Bool
  | v4 bits => bits = 0
  | v6 bits => bits = 0

def isMulticast : IpAddr → Bool
  | v4 bits => bits >>> 28 = 0b1110
  | v6 bits => bits >>> 120 = 0xff

def isBroadcast : IpAddr → Bool
  | v4 bits => bits = BitVec.allOnes 32
  | v6 _    => false

end IpAddr

def principalKindCode : PrincipalKind → ℕ
  | .person => 1
  | .device => 2
  | .serviceAccount => 3
  | .aiAgent => 4
  | .bot => 5
  | .organization => 6
  | .automation => 7
  | .externalPlatform => 8

def conversationKindCode : ConversationKind → ℕ
  | .direct => 1
  | .privateGroup => 2
  | .publicGroup => 3
  | .broadcast => 4
  | .community => 5
  | .room => 6
  | .topic => 7
  | .thread => 8
  | .system => 9

def deliveryPolicyCode : DeliveryPolicy → ℕ
  | .bestEffort => 1
  | .durable => 2
  | .urgent => 3
  | .expiring => 4
  | .localOnly => 5
  | .directOnly => 6
  | .noRelay => 7
  | .noExternalBridge => 8
  | .privateNetworkOnly => 9

def isGroupConversationKind : ConversationKind → Bool
  | .privateGroup | .publicGroup => true
  | _ => false

-- Participants and members are listed by identifier first and by kind second.
def PrincipalRef.sortKey (p : PrincipalRef) : String ×ₗ ℕ :=
  toLex (p.principalId.value, principalKindCode p.kind)

theorem utf8_injective : Function.Injective utf8 := by
  intro s t h
  simpa [utf8, ← String.toByteArray_inj, ByteArray.ext_iff, Array.ext_iff] using h

theorem OpaqueId.asWireBytes_injective : Function.Injective OpaqueId.asWireBytes :=
  fun _ _ h => OpaqueId.ext (utf8_injective h)

theorem principalKindCode_injective : Function.Injective principalKindCode := by
  intro a b h
  cases a <;> cases b <;> simp_all [principalKindCode]

theorem PrincipalRef.sortKey_inj {p q : PrincipalRef} : p.sortKey = q.sortKey ↔ p = q := by
  refine ⟨fun h => ?_, fun h => h ▸ rfl⟩
  obtain ⟨hid, hkind⟩ := Prod.mk.inj (toLex.injective h)
  cases p
  cases q
  simp_all [OpaqueId.ext_iff, principalKindCode_injective.eq_iff]

-- The principals and the tenant that concrete scenarios are told with.
namespace Scenario

def named (value : String) (nonempty : value ≠ "" := by decide)
    (bounded : value.utf8ByteSize ≤ OpaqueId.maxLen := by decide) : OpaqueId :=
  ⟨value, nonempty, bounded⟩

def tenant : TenantScope := ⟨named "tenant", none⟩
def alice : PrincipalRef := ⟨named "alice", .person⟩
def bob : PrincipalRef := ⟨named "bob", .person⟩
def carol : PrincipalRef := ⟨named "carol", .person⟩

end Scenario

end Ucr
