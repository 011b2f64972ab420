import Ucr.Objects.Message

-- Validation and canonical form of conversations and message envelopes.

namespace Ucr

open Except

def defaultMaxPayloadLen : ℕ := 16 * 1024 * 1024
def messageAttachmentLimit : ℕ := 128
def messageRelationLimit : ℕ := 128
def externalMessageMappingLimit : ℕ := 64
def externalMessageIdLimit : ℕ := 2048
def messageCryptoMetadataLimit : ℕ := 16 * 1024
def signatureAlgorithmId : String := "ed25519"
def algorithmVersion : U32 := 1
def signatureLen : ℕ := 64

inductive ConversationError
  | selfParent
  | missingHierarchicalParent
  | unexpectedParent
  | invalidParentKind

inductive MessageError
  | contentTooLarge
  | tooManyAttachments
  | duplicateAttachment
  | tooManyRelations
  | duplicateRelation
  | selfRelation
  | replyProjectionMismatch
  | emptyMessage
  | cryptoMetadataTooLarge
  | tooManyExternalMappings
  | emptyExternalMessageId
  | externalMessageIdTooLarge
  | duplicateExternalMapping
  | emptyOrigin
  | invalidSignature
  | invalidExtension
  | duplicateExtension
  | tooManyExtensions
  | extensionPayloadTooLarge
deriving DecidableEq

def ConversationKind.isHierarchical : ConversationKind → Bool
  | .topic | .thread => true
  | _ => false

def validateConversation (record : ConversationRecord) : Except ConversationError Unit := do
  rejectIf (record.parentConversationId = some record.conversation.conversationId) .selfParent
  let hierarchical := record.conversation.kind.isHierarchical
  rejectIf (hierarchical ∧ record.parentConversationId.isNone) .missingHierarchicalParent
  rejectIf (¬hierarchical ∧ record.parentConversationId.isSome) .unexpectedParent

def validateConversationParentKind (child parent : ConversationKind) :
    Except ConversationError Unit :=
  match child with
  | .topic => rejectIf parent.isHierarchical .invalidParentKind
  | .thread => rejectIf (parent ≠ .topic) .invalidParentKind
  | _ => throw .unexpectedParent

-- Walks the relations with those already seen and the target of the reply, if one was among them.
def validateRelations (messageId : MessageId) (seen : List MessageRelation)
    (reply : Option MessageId) : List MessageRelation → Except MessageError (Option MessageId)
  | [] => return reply
  | relation :: rest => do
    rejectIf (relation.targetMessageId = messageId) .selfRelation
    rejectIf (relation ∈ seen) .duplicateRelation
    rejectIf (relation.kind = .reply ∧ reply.isSome) .duplicateRelation
    let reply := if relation.kind = .reply then some relation.targetMessageId else reply
    validateRelations messageId (relation :: seen) reply rest

def validateExternalMappings (seen : List IntegrationId) :
    List ExternalMessageMapping → Except MessageError Unit
  | [] => return
  | mapping :: rest => do
    rejectIf mapping.externalMessageId.isEmpty .emptyExternalMessageId
    rejectIf (mapping.externalMessageId.length > externalMessageIdLimit) .externalMessageIdTooLarge
    rejectIf (mapping.integrationId ∈ seen) .duplicateExternalMapping
    validateExternalMappings (mapping.integrationId :: seen) rest

def validateOriginRef (origin : OriginRef) : Except MessageError Unit :=
  rejectIf (origin.principalId.isNone ∧ origin.endpointId.isNone ∧ origin.integrationId.isNone)
    .emptyOrigin

def validateMessageSignature (signature : MessageSignature) : Except MessageError Unit :=
  rejectIf (signature.algorithmId ≠ signatureAlgorithmId ∨
    signature.algorithmVersion ≠ algorithmVersion ∨ signature.signature.length ≠ signatureLen)
    .invalidSignature

def mapExtensionError : ExtensionError → MessageError
  | .invalidNamespace | .unsupportedCritical => .invalidExtension
  | .duplicateExtension => .duplicateExtension
  | .tooManyExtensions => .tooManyExtensions
  | .payloadTooLarge => .extensionPayloadTooLarge

def validateMessage (message : MessageEnvelope) : Except MessageError Unit := do
  rejectIf (message.content.length > defaultMaxPayloadLen) .contentTooLarge
  rejectIf (message.attachmentIds.length > messageAttachmentLimit) .tooManyAttachments
  rejectIf (¬message.attachmentIds.Nodup) .duplicateAttachment
  rejectIf (message.relations.length > messageRelationLimit) .tooManyRelations
  let reply ← validateRelations message.messageId [] none message.relations
  rejectIf (message.replyTo ≠ reply) .replyProjectionMismatch
  rejectIf (message.content.isEmpty ∧ message.attachmentIds.isEmpty ∧ message.relations.isEmpty)
    .emptyMessage
  rejectIf (message.cryptoMetadata.any (·.opaqueMetadata.length > messageCryptoMetadataLimit))
    .cryptoMetadataTooLarge
  rejectIf (message.externalMappings.length > externalMessageMappingLimit) .tooManyExternalMappings
  validateExternalMappings [] message.externalMappings
  validateOriginRef message.origin
  forM message.signature.toList validateMessageSignature
  let _ ← (canonicalProtocolExtensions message.extensions).mapError mapExtensionError

def relationRank : MessageRelationKind → ℕ
  | .reply => 1
  | .quote => 2
  | .edit => 3
  | .reaction => 4
  | .threadParent => 5
  | .forward => 6
  | .reference => 7

-- Bytes in the order the source compares them in.
def OpaqueId.wireKey (id : OpaqueId) : List ℕ :=
  id.asWireBytes.map (·.toNat)

def MessageRelation.sortKey (relation : MessageRelation) : ℕ ×ₗ List ℕ :=
  toLex (relationRank relation.kind, relation.targetMessageId.wireKey)

def ExternalMessageMapping.sortKey (mapping : ExternalMessageMapping) : List ℕ :=
  mapping.integrationId.wireKey

-- Attachment order is part of a message; the order of relations, mappings and extensions is not.
def canonicalMessage (message : MessageEnvelope) : Except MessageError MessageEnvelope := do
  validateMessage message
  let extensions ← (canonicalProtocolExtensions message.extensions).mapError mapExtensionError
  return { message with
    relations := message.relations.sortOn (·.sortKey)
    externalMappings := message.externalMappings.sortOn (·.sortKey)
    extensions := extensions }

end Ucr
