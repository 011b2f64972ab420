import Ucr.Lib.Stages
import Ucr.Objects.Basic

-- The provider that keeps secrets in memory: for each handle the current version and the one
-- before.

namespace Ucr

def maxSecretBytes : ℕ := 64 * 1024

inductive SecretPurpose
  | machineTokenSigning
  | joinSigning
  | webhookSigning
  | tlsCertificate
  | tlsPrivateKey
  | mediaCrypto
  | recordingAtRest
  | turnCredentials
deriving DecidableEq

structure SecretHandle where
  secretId : OpaqueId
  purpose : SecretPurpose
deriving DecidableEq

structure SecretMaterial where
  bytes    : Bytes
  nonempty : bytes ≠ []
  bounded  : bytes.length ≤ maxSecretBytes
deriving DecidableEq

structure SecretVersion where
  versionId : OpaqueId
  material : SecretMaterial
deriving DecidableEq

structure ActiveSecretSet where
  handle : SecretHandle
  current : SecretVersion
  previous : Option SecretVersion

inductive SecretProviderError
  | notFound
  | conflict

abbrev InMemorySecretProvider := SecretHandle → Option ActiveSecretSet

inductive SecretOp
  | provision (handle : SecretHandle) (version : SecretVersion)
  | rotate (handle : SecretHandle) (version : SecretVersion)

namespace InMemorySecretProvider

abbrev Result := Except SecretProviderError ActiveSecretSet × InMemorySecretProvider

variable (state : InMemorySecretProvider)

def provision (handle : SecretHandle) (version : SecretVersion) : Result :=
  match state handle with
  | some existing =>
    if existing.current = version ∧ existing.previous = none then (.ok existing, state)
    else (.error .conflict, state)
  | none => (.ok ⟨handle, version, none⟩, Function.update state handle (some ⟨handle, version, none⟩))

def rotate (handle : SecretHandle) (newVersion : SecretVersion) : Result :=
  match state handle with
  | none => (.error .notFound, state)
  | some existing =>
    if existing.current = newVersion then (.ok existing, state)
    else if existing.current.versionId = newVersion.versionId then (.error .conflict, state)
    else if existing.previous = some newVersion then (.ok existing, state)
    else if existing.previous.any (·.versionId = newVersion.versionId) then (.error .conflict, state)
    else
      let rotated : ActiveSecretSet := ⟨handle, newVersion, some existing.current⟩
      (.ok rotated, Function.update state handle (some rotated))

def run : SecretOp → Result
  | .provision handle version => state.provision handle version
  | .rotate handle version => state.rotate handle version

-- The provider after the first of a number of calls.
abbrev stage (ops : List SecretOp) (n : ℕ) : InMemorySecretProvider :=
  Stages.stage (fun state op => (run state op).2) (fun _ => none) ops n

end InMemorySecretProvider

end Ucr
