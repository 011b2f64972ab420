import Ucr.Lib.Table
import Ucr.Objects.Basic

-- What one web process keeps about its browser sessions, and what a challenge is made of. Instants
-- are counted in milliseconds.

namespace Ucr

namespace FirstParty

def maxConsumed : ℕ := 2 ^ 16
def maxUntrustedConsumed : ℕ := 1024
def maxRecoveryConsumed : ℕ := 1024
def maxSelfServiceSignups : ℕ := 256
def signupWindow : ℕ := 10 * 60 * 1000
def maxSessions : ℕ := 2 ^ 16
def maxSessionsPerIdentity : ℕ := 16
def challengeVersion : UInt8 := 1
def challengeTtl : ℕ := 90 * 1000
def sessionTtl : ℕ := 30 * 60 * 1000

inductive StatusCode
  | badRequest
  | unauthorized
  | forbidden
  | notFound
  | conflict
  | tooManyRequests
  | serviceUnavailable

-- A device, by the account it belongs to.
structure Binding where
  tenantId : String
  namespaceId : Option String
  participantId : String
  device : String
deriving DecidableEq

def opaqueId (value : String) : Except StatusCode OpaqueId :=
  if h : value ≠ "" ∧ value.utf8ByteSize ≤ 120 ∧
      value.toList.all fun c => c.isAlphanum || c ∈ ['-', '_', '.', ':', '@'] then
    .ok ⟨value, h.1, h.2.1.trans (by decide)⟩
  else
    .error .badRequest

namespace Binding

def scope (binding : Binding) : Except StatusCode TenantScope := do
  let tenantId ← opaqueId binding.tenantId
  let namespaceId ← binding.namespaceId.mapM opaqueId
  return ⟨tenantId, namespaceId⟩

def identity (binding : Binding) : Except StatusCode IdentityId :=
  opaqueId binding.participantId

def deviceId (binding : Binding) : Except StatusCode DeviceId :=
  opaqueId binding.device

def SameIdentity (b₁ b₂ : Binding) : Prop :=
  b₁.tenantId = b₂.tenantId ∧ b₁.namespaceId = b₂.namespaceId ∧ b₁.participantId = b₂.participantId

instance (b₁ b₂ : Binding) : Decidable (SameIdentity b₁ b₂) :=
  inferInstanceAs (Decidable (_ ∧ _))

end Binding

structure Session where
  token : String
  binding : Binding
  subject : ScopedPrincipal
  signerKeyId : String
  signerPublicKey : Bytes
  untilInstant : ℕ

-- The fences of devices that have been signed out lately: a generation, and until when it is kept.
structure SessionLedger where
  sessions : List Session
  loginGenerations : Table Binding (U64 × ℕ)
  nextGeneration : U64
  globalGeneration : U64

namespace SessionLedger

def empty : SessionLedger :=
  ⟨[], ∅, 0, 0⟩

variable (ledger : SessionLedger)

def generation (binding : Binding) (now : ℕ) : U64 :=
  ((ledger.loginGenerations.get binding).filter fun fence => now < fence.2).elim
    ledger.globalGeneration fun fence => max fence.1 ledger.globalGeneration

-- A live fence is never dropped: if there is no place for another one, all logins that are under
-- way are made invalid.
def revokeDevice (binding : Binding) (now : ℕ) : SessionLedger :=
  let fences := ledger.loginGenerations.retain fun fence => now < fence.2
  let next := ledger.nextGeneration.saturatingSucc
  let full : Prop := maxSessions ≤ fences.size ∧ fences.get binding = none
  { sessions := ledger.sessions.filter (·.binding ≠ binding)
    loginGenerations :=
      (if full then ∅ else fences).put binding (next, now + challengeTtl + challengeTtl)
    nextGeneration   := next
    globalGeneration := if full then next else ledger.globalGeneration }

def live (now : ℕ) : List Session :=
  ledger.sessions.filter (now < ·.untilInstant)

-- The oldest session of the same account makes place for a new one.
def roomFor (binding : Binding) (now : ℕ) : List Session :=
  let same := fun session : Session => decide (session.binding.SameIdentity binding)
  if maxSessionsPerIdentity ≤ (ledger.live now).countP same then
    (ledger.live now).eraseP same
  else
    ledger.live now

def issue (session : Session) (loginGeneration : Option U64) (now : ℕ) :
    Except StatusCode Unit × SessionLedger :=
  if loginGeneration.any (ledger.generation session.binding now ≠ ·) then
    (.error .unauthorized, ledger)
  else
    let sessions := ledger.roomFor session.binding now
    if maxSessions ≤ sessions.length then
      (.error .tooManyRequests, { ledger with sessions })
    else
      (.ok (), { ledger with sessions := sessions ++ [session] })

end SessionLedger

inductive Purpose
  | login
  | device
  | signup
  | recover
deriving DecidableEq

structure ChallengeCore where
  version : UInt8
  expiry  : U64
  random  : Bytes
deriving DecidableEq

structure ChallengeMacContext where
  purpose : Purpose
  keyId : Option String
  publicKey : Option Bytes
  loginGeneration : Option U64
deriving DecidableEq

-- Everything a challenge is bound to. The bytes that are authenticated give each part its length.
structure ChallengeMacInput where
  core    : ChallengeCore
  binding : Binding
  context : ChallengeMacContext
deriving DecidableEq

structure ChallengeId (Tag : Type) where
  core : ChallengeCore
  tag  : Tag
deriving DecidableEq

-- A challenge that has been opened, for the device it was made for.
structure Pending {Tag : Type} (mac : ChallengeMacInput → Tag) where
  id : ChallengeId Tag
  binding : Binding
  context : ChallengeMacContext
  untilInstant : ℕ
  authentic : mac ⟨id.core, binding, context⟩ = id.tag
deriving DecidableEq

def Pending.macInput {Tag : Type} {mac : ChallengeMacInput → Tag} (pending : Pending mac) :
    ChallengeMacInput :=
  ⟨pending.id.core, pending.binding, pending.context⟩

end FirstParty

end Ucr
