import Ucr.Protocol.Extension
import Ucr.Objects.Conference

-- The metadata an integration attaches to its conferences, and their lifecycle.

namespace Ucr

open Except

def maxConferenceMetadataEntries : ℕ := 32
def maxConferenceMetadataKeyBytes : ℕ := 255
def maxConferenceMetadataValueBytes : ℕ := 4096
def maxConferenceMetadataTotalBytes : ℕ := 32 * 1024

def validMetadataKey (key : String) : Bool :=
  let segments := key.toList.splitOn '.'
  !key.isEmpty && key.utf8ByteSize ≤ maxConferenceMetadataKeyBytes &&
    (segments.all fun segment => !segment.isEmpty && segment.all isIdentifierChar) &&
    3 ≤ segments.length

-- The entries one by one, with the bytes of those before.
def checkMetadataEntries (total : ℕ) :
    List UniversalConferenceMetadataEntry → Except ConferenceMetadataError Unit
  | [] => return
  | entry :: rest => do
    rejectIf (¬validMetadataKey entry.key) .invalidKey
    rejectIf (entry.value.length > maxConferenceMetadataValueBytes) .valueTooLarge
    let total := total + entry.key.utf8ByteSize + entry.value.length
    rejectIf (total > maxConferenceMetadataTotalBytes) .totalTooLarge
    checkMetadataEntries total rest

def canonicalConferenceMetadata (metadata : List UniversalConferenceMetadataEntry) :
    Except ConferenceMetadataError (List UniversalConferenceMetadataEntry) := do
  rejectIf (metadata.length > maxConferenceMetadataEntries) .tooManyEntries
  checkMetadataEntries 0 metadata
  let canonical := metadata.sortOn (·.key)
  rejectIf (canonical.anyAdjacent (·.key = ·.key)) .duplicateKey
  return canonical

def validUniversalConferenceTransition :
    UniversalConferenceLifecycle → UniversalConferenceLifecycle → Bool
  | .scheduled, .waiting | .scheduled, .live => true
  | .waiting, .live => true
  | .live, .ending => true
  | .ending, .ended => true
  | _, _ => false

def conferenceConsumesResourceQuota : UniversalConferenceLifecycle → Bool
  | .waiting | .live | .ending => true
  | .scheduled | .ended => false

end Ucr
