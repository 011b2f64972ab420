import Ucr.Lib.Except
import Ucr.Lib.Sort
import Ucr.Objects.Basic

-- Namespaced identifiers and protocol extensions.

namespace Ucr

open Except

def maxProtocolExtensions : ℕ := 64
def maxExtensionPayloadLen : ℕ := 1024 * 1024
def maxNamespacedIdentifierLen : ℕ := 1024

structure ProtocolExtension where
  name     : String
  critical : Bool
  payload  : Bytes
deriving DecidableEq

inductive ExtensionError
  | invalidNamespace
  | unsupportedCritical
  | tooManyExtensions
  | duplicateExtension
  | payloadTooLarge
deriving DecidableEq

def startsWith (s start : String) : Bool :=
  start.toList.isPrefixOf s.toList

def isIdentifierChar (c : Char) : Bool :=
  c.isAlphanum || c = '_' || c = '-'

def validateNamespacedIdentifier (name : String) : Except ExtensionError Unit := do
  rejectIf (name.utf8ByteSize > maxNamespacedIdentifierLen) .invalidNamespace
  let validPrefix :=
    startsWith name "ucr." || startsWith name "experimental." || startsWith name "vendor." ||
      startsWith name "organization."
  let segmentsValid :=
    (name.toList.splitOn '.').all fun segment => !segment.isEmpty && segment.all isIdentifierChar
  rejectIf (¬(validPrefix ∧ segmentsValid)) .invalidNamespace

def validateExtensionName (name : String) : Except ExtensionError Unit :=
  validateNamespacedIdentifier name

def canonicalProtocolExtensions (extensions : List ProtocolExtension) :
    Except ExtensionError (List ProtocolExtension) := do
  rejectIf (extensions.length > maxProtocolExtensions) .tooManyExtensions
  forM extensions fun extension => do
    validateExtensionName extension.name
    rejectIf (extension.payload.length > maxExtensionPayloadLen) .payloadTooLarge
  let canonical := extensions.sortOn (·.name)
  rejectIf (canonical.anyAdjacent (·.name = ·.name)) .duplicateExtension
  return canonical

end Ucr
