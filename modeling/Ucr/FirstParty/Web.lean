import Ucr.FirstParty.Ledger
import Ucr.Lib.Prog

-- The requests to one web process, with every lock they take. A request is a program; between any
-- two of its steps the others can go on. What the store, the signatures and the wall clock say
-- comes from outside. The clock that deadlines are measured with never goes back.

namespace Ucr

namespace FirstParty

open Interleaving

inductive ReplayPool
  | consumed
  | untrustedConsumed
  | recoveryConsumed
deriving DecidableEq

-- A gate is known by its number: the gate of a device can be dropped and made again.
inductive Lock
  | gate (binding : Binding) (number : ℕ)
  | protectedActions
  | sessions
  | replay (pool : ReplayPool)
  | signupAdmissions
  | store
deriving DecidableEq

-- The map of gates does not keep them alive, only the references that requests hold do.
structure WebState (Tag : Type) where
  instantMs : ℕ
  replay : ReplayPool → List (Tag × ℕ)
  signupAdmissions : List ℕ
  sessions : SessionLedger
  protectedActions : Table Binding ℕ
  references : List (ℕ × ℕ)
  created : ℕ
  held : List Lock

structure WebAnswers where
  wallMs     : Except StatusCode U64
  instantMs  : ℕ
  random     : Except StatusCode Bytes
  nonce      : Except StatusCode String
  subject    : Except StatusCode ScopedPrincipal
  trustedKey : Except StatusCode (String × Bytes)
  verified   : Except StatusCode Unit
  stored     : Except StatusCode Unit

-- What a request is turned away from: a replay list, or the list of sessions.
inductive Attempt {Tag : Type} (mac : ChallengeMacInput → Tag)
  | spend (pending : Pending mac)
  | session (binding : Binding) (presented : Option (Pending mac))
deriving DecidableEq

inductive WebEvent {Tag : Type} (mac : ChallengeMacInput → Tag)
  | locked (lock : Lock)
  | unlocked (lock : Lock)
  | gateTaken (reference : ℕ) (binding : Binding) (number : ℕ)
  | gateDropped (reference : ℕ) (binding : Binding) (number : ℕ)
  | fenceRead (generation : U64)
  | challenged (input : ChallengeMacInput)
  | vetted (pending : Pending mac) (now : ℕ)
  | spent (pending : Pending mac) (now : ℕ)
  | added (binding : Binding) (token : String) (presented : Option (Pending mac)) (now : ℕ)
  | refused (attempt : Attempt mac) (now : ℕ)
  | revoked (binding : Binding) (generation : U64) (untilInstant : ℕ)
  | admitted (binding : Binding) (token : String)
  | finished
deriving DecidableEq

namespace WebState

variable {Tag : Type} (state : WebState Tag)

def start : WebState Tag where
  instantMs := 0
  replay := fun _ => []
  signupAdmissions := []
  sessions := .empty
  protectedActions := ∅
  references := []
  created := 0
  held := []

def forget (pool : ReplayPool) (now : ℕ) : WebState Tag :=
  { state with
    replay := Function.update state.replay pool ((state.replay pool).filter (now < ·.2)) }

def remember (pool : ReplayPool) (tag : Tag) (untilInstant : ℕ) : WebState Tag :=
  { state with
    replay := Function.update state.replay pool (state.replay pool ++ [(tag, untilInstant)]) }

def vet [DecidableEq Tag] (pool : ReplayPool) (capacity : ℕ) (tag : Tag) :
    Except StatusCode Unit :=
  if (state.replay pool).any (·.1 = tag) then .error .unauthorized
  else if capacity ≤ (state.replay pool).length then .error .tooManyRequests
  else .ok ()

-- Gates that nobody refers to are dropped from the map. The new reference and the number of the
-- gate.
def upgradeGate (binding : Binding) : (ℕ × ℕ) × WebState Tag :=
  let gates := state.protectedActions.retain fun number => state.references.any (·.2 = number)
  let number := (gates.get binding).getD state.created
  ((state.created, number),
    { state with
      protectedActions := gates.put binding number
      references := (state.created, number) :: state.references
      created := state.created + 1 })

def dropGate (reference : ℕ) : WebState Tag :=
  { state with references := state.references.filter (·.1 ≠ reference) }

end WebState

abbrev Web {Tag : Type} (mac : ChallengeMacInput → Tag) (α : Type) :=
  Fallible (WebState Tag) WebAnswers (WebEvent mac) StatusCode α

namespace Web

variable {Tag α : Type} {mac : ChallengeMacInput → Tag}

section Locks

def acquire (lock : Lock) : Web mac Unit :=
  Fallible.atomic (fun _ state => (.ok (), { state with held := lock :: state.held }))
    fun _ => some (.locked lock)

def release (lock : Lock) : Web mac Unit :=
  Fallible.atomic (fun _ state => (.ok (), { state with held := state.held.erase lock }))
    fun _ => some (.unlocked lock)

-- A lock that has been taken is given back in any case.
def withLock (lock : Lock) (p : Web mac α) : Web mac α := do
  acquire lock
  let result ← Fallible.ofProg p.run
  release lock
  Fallible.ofExcept result

-- A step that reads the clock.
def clocked (f : ℕ → WebState Tag → Except StatusCode α × WebState Tag)
    (emit : α → Option (WebEvent mac)) : Web mac α :=
  Fallible.atomic
    (fun answers state =>
      f (max state.instantMs answers.instantMs)
        { state with instantMs := max state.instantMs answers.instantMs })
    fun result => result.toOption.bind emit

-- A step that reads the clock and can be refused. Both ways it leaves a trace.
def judged (f : ℕ → WebState Tag → Except StatusCode Unit × WebState Tag) (attempt : Attempt mac)
    (passed : ℕ → WebEvent mac) : Web mac ℕ := do
  let (now, verdict) ← clocked (fun now state => (.ok (now, (f now state).1), (f now state).2))
    fun (now, verdict) => some (if verdict.isOk then passed now else .refused attempt now)
  Fallible.ofExcept (verdict.map fun _ => now)

def instantNow : Web mac ℕ :=
  clocked (fun now state => (.ok now, state)) fun _ => none

def demand (f : WebAnswers → Except StatusCode α) : Web mac α :=
  Fallible.atomic (fun answers state => (f answers, state)) fun _ => none

def announce (event : WebEvent mac) : Web mac Unit :=
  Fallible.atomic (fun _ state => (.ok (), state)) fun _ => some event

def stored (f : WebAnswers → Except StatusCode α) : Web mac α :=
  withLock .store (demand f)

end Locks

def subjectFor (binding : Binding) : Web mac ScopedPrincipal := do
  let _ ← Fallible.ofExcept binding.scope
  let _ ← Fallible.ofExcept binding.identity
  let _ ← Fallible.ofExcept binding.deviceId
  stored (·.subject)

def trustedKey (binding : Binding) : Web mac (String × Bytes) := do
  let _ ← Fallible.ofExcept binding.scope
  let _ ← Fallible.ofExcept binding.deviceId
  stored (·.trustedKey)

def ensureBinding (requested : Binding) (session : Session) : Web mac Unit :=
  if requested = session.binding then return () else throw .forbidden

section Challenges

def currentLoginGeneration (binding : Binding) : Web mac U64 :=
  withLock .sessions
    (clocked (fun now state => (.ok (state.sessions.generation binding now), state))
      fun generation => some (.fenceRead generation))

def loginGeneration (purpose : Purpose) (binding : Binding) : Web mac (Option U64) :=
  if purpose = .login then do
    let generation ← currentLoginGeneration binding
    return some generation
  else
    return none

def challenge (binding : Binding) (purpose : Purpose) (keyId : Option String)
    (publicKey : Option Bytes) : Web mac (ChallengeId Tag) := do
  let generation ← loginGeneration purpose binding
  let now ← demand (·.wallMs)
  let random ← demand (·.random)
  let core := ⟨challengeVersion, now.saturatingAdd (Fin.ofNat _ challengeTtl), random.take 16⟩
  let input := ⟨core, binding, ⟨purpose, keyId, publicKey, generation⟩⟩
  announce (.challenged input)
  return ⟨core, mac input⟩

-- Opens a challenge. An identifier that cannot be decoded is none at all.
def consume [DecidableEq Tag] (binding : Binding) (id : Option (ChallengeId Tag))
    (purpose : Purpose) (key : Option (String × Bytes)) : Web mac (Pending mac) := do
  let id ← Fallible.ofExcept (id.okOr .unauthorized)
  if id.core.version ≠ challengeVersion then throw .unauthorized
  let generation ← loginGeneration purpose binding
  let context := ⟨purpose, key.map Prod.fst, key.map Prod.snd, generation⟩
  if authentic : mac ⟨id.core, binding, context⟩ = id.tag then
    let now ← demand (·.wallMs)
    if id.core.expiry ≤ now then throw .unauthorized
    let instant ← instantNow
    return ⟨id, binding, context, instant + (id.core.expiry.val - now.val), authentic⟩
  else
    throw .unauthorized

def vet [DecidableEq Tag] (pool : ReplayPool) (capacity : ℕ) (pending : Pending mac) : Web mac ℕ :=
  judged
    (fun now state =>
      ((state.forget pool now).vet pool capacity pending.id.tag, state.forget pool now))
    (.spend pending) (.vetted pending)

def remember (pool : ReplayPool) (pending : Pending mac) (now : ℕ) : Web mac Unit :=
  Fallible.atomic
    (fun _ state => (.ok (), state.remember pool pending.id.tag pending.untilInstant))
    fun _ => some (.spent pending now)

-- Neither a signup nor a recovery can exhaust the list that logins and approvals use.
def spend [DecidableEq Tag] (pending : Pending mac) : Web mac Unit :=
  let (pool, capacity) :=
    if pending.context.purpose = .signup then (.untrustedConsumed, maxUntrustedConsumed)
    else (.consumed, maxConsumed)
  withLock (.replay pool) do
    let now ← vet pool capacity pending
    remember pool pending now

-- The list stays locked while the store checks and rotates the recovery credential.
def spendVerifiedRecovery [DecidableEq Tag] (pending : Pending mac) : Web mac Unit := do
  if pending.context.purpose ≠ .recover then throw .forbidden
  withLock (.replay .recoveryConsumed) do
    let now ← vet .recoveryConsumed maxRecoveryConsumed pending
    stored (·.stored)
    remember .recoveryConsumed pending now

end Challenges

section Gates

variable (binding : Binding)

def protectedActionGate : Web mac (ℕ × ℕ) :=
  withLock .protectedActions
    (Fallible.atomic
      (fun _ state => (.ok (state.upgradeGate binding).1, (state.upgradeGate binding).2))
      fun result => result.toOption.map fun gate => .gateTaken gate.1 binding gate.2)

-- The reference to the gate is held as long as the program runs.
def holdGate (p : ℕ → Web mac α) : Web mac α := do
  let gate ← protectedActionGate binding
  let result ← Fallible.ofProg (p gate.2).run
  Fallible.atomic (fun _ state => (.ok (), state.dropGate gate.1))
    fun _ => some (.gateDropped gate.1 binding gate.2)
  Fallible.ofExcept result

def withGate (p : Web mac α) : Web mac α :=
  holdGate binding fun number => withLock (.gate binding number) p

-- Two gates are locked in the order of their devices.
def withGates (own : Binding) (target : Option Binding) (p : Web mac α) : Web mac α :=
  match target with
  | none => withGate own p
  | some target =>
    holdGate own fun ownGate =>
      holdGate target fun targetGate =>
        if target.device < own.device then
          withLock (.gate target targetGate) (withLock (.gate own ownGate) p)
        else
          withLock (.gate own ownGate) (withLock (.gate target targetGate) p)

-- Of a challenge that has been presented only the generation matters here.
def issueSession (subject : ScopedPrincipal) (signerKeyId : String)
    (signerPublicKey : Bytes) (presented : Option (Pending mac)) : Web mac Unit :=
  withGate binding do
    let token ← demand (·.nonce)
    let _ ← withLock .sessions
      (judged
        (fun now state =>
          let session := ⟨token, binding, subject, signerKeyId, signerPublicKey, now + sessionTtl⟩
          let issued :=
            state.sessions.issue session (presented.bind (·.context.loginGeneration)) now
          (issued.1, { state with sessions := issued.2 }))
        (.session binding presented) (.added binding token presented))

end Gates

section Requests

def admitSignup : Web mac Unit := do
  let now ← instantNow
  withLock .signupAdmissions
    (Fallible.atomic
      (fun _ state =>
        let admitted := state.signupAdmissions.filter (now - · < signupWindow)
        if maxSelfServiceSignups ≤ admitted.length then
          (.error .tooManyRequests, { state with signupAdmissions := admitted })
        else
          (.ok (), { state with signupAdmissions := admitted ++ [now] }))
      fun _ => none)

def signupBegin (registration : Option TenantScope) : Web mac Unit := do
  let scope ← Fallible.ofExcept (registration.okOr .serviceUnavailable)
  let participant ← demand (·.nonce)
  let device ← demand (·.nonce)
  let binding : Binding :=
    ⟨scope.tenantId.value, none, "fp-id-" ++ participant, "fp-device-" ++ device⟩
  let _ ← challenge binding .signup none none

def recoverBegin (registration : Option TenantScope) (binding : Binding) : Web mac Unit := do
  let registered ← Fallible.ofExcept (registration.okOr .serviceUnavailable)
  let scope ← Fallible.ofExcept binding.scope
  if scope ≠ registered then throw .forbidden
  let _ ← Fallible.ofExcept binding.identity
  let _ ← Fallible.ofExcept binding.deviceId
  let _ ← challenge binding .recover none none

-- What an account request sends besides the challenge.
structure AccountFinish where
  binding : Binding
  keyId : String
  publicKey : Bytes
  recoveryCode : Option Bytes

def register [DecidableEq Tag] (input : AccountFinish) (pending : Pending mac) : Web mac Unit := do
  if input.recoveryCode.isSome then throw .badRequest
  spend pending
  admitSignup
  stored (·.stored)

def recover [DecidableEq Tag] (input : AccountFinish) (pending : Pending mac) : Web mac Unit := do
  if ¬input.recoveryCode.any (·.length = 32) then throw .forbidden
  spendVerifiedRecovery pending

def accountSession (input : AccountFinish) : Web mac Unit := do
  let subject ← subjectFor input.binding
  issueSession input.binding subject input.keyId input.publicKey none

-- The account has been written: whether a session is admitted makes no difference to the answer.
def accountSessionAfterCommit (input : AccountFinish) : Web mac Unit := do
  let _ ← Fallible.ofProg (accountSession input).run

def accountFinish [DecidableEq Tag] (registration : Option TenantScope) (signup : Bool)
    (input : AccountFinish) (id : Option (ChallengeId Tag)) : Web mac Unit := do
  let registered ← Fallible.ofExcept (registration.okOr .serviceUnavailable)
  let scope ← Fallible.ofExcept input.binding.scope
  if scope ≠ registered then throw .forbidden
  let pending ← consume input.binding id (if signup then .signup else .recover) none
  let _ ← Fallible.ofExcept (opaqueId input.keyId)
  if input.publicKey.length ≠ 32 then throw .badRequest
  demand (·.verified)
  let _ ← Fallible.ofExcept input.binding.identity
  let _ ← Fallible.ofExcept input.binding.deviceId
  let _ ← demand (·.nonce)
  if signup then register input pending else recover input pending
  accountSessionAfterCommit input

def loginChallenge (binding : Binding) : Web mac Unit := do
  let _ ← Fallible.ofExcept binding.scope
  let _ ← Fallible.ofExcept binding.identity
  let _ ← Fallible.ofExcept binding.deviceId
  let _ ← challenge binding .login none none

def loginVerify [DecidableEq Tag] (binding : Binding) (id : Option (ChallengeId Tag)) :
    Web mac Unit := do
  let pending ← consume binding id .login none
  let subject ← subjectFor binding
  let key ← trustedKey binding
  demand (·.verified)
  spend pending
  issueSession binding subject key.1 key.2 (some pending)

-- The live session with this token, if the account and the key are still those it was issued for.
def authenticated (token : String) : Web mac Session := do
  let session ← withLock .sessions
    (clocked
      (fun now state =>
        let sessions := state.sessions.live now
        ((sessions.find? (·.token = token)).okOr .unauthorized,
          { state with sessions := { state.sessions with sessions } }))
      fun _ => none)
  let subject ← subjectFor session.binding
  if subject ≠ session.subject then throw .unauthorized
  let key ← trustedKey session.binding
  if key ≠ (session.signerKeyId, session.signerPublicKey) then throw .unauthorized
  return session

-- What can be asked for with a session. All that only works on the store is one case.
inductive ProtectedRequest (Tag : Type)
  | logout (binding : Binding)
  | revoke (binding : Binding) (deviceId : String)
  | challenge (binding : Binding) (keyId : String) (publicKey : Bytes)
  | approve (binding : Binding) (keyId : String) (publicKey : Bytes) (id : Option (ChallengeId Tag))
  | other (binding : Binding)

variable (auth : Session)

def logout (binding : Binding) : Web mac Unit := do
  ensureBinding binding auth
  let _ ← withLock .sessions
    (clocked
      (fun now state =>
        if state.sessions.sessions.any (·.token = auth.token) then
          let sessions := state.sessions.revokeDevice auth.binding now
          (.ok (sessions.nextGeneration, now), { state with sessions })
        else
          (.error .unauthorized, state))
      fun fence => some (.revoked auth.binding fence.1 (fence.2 + challengeTtl + challengeTtl)))

def revokeDevice (binding : Binding) (deviceId : String) : Web mac Unit := do
  ensureBinding binding auth
  let _ ← Fallible.ofExcept (opaqueId deviceId)
  stored (·.stored)
  let target := { auth.binding with device := deviceId }
  let _ ← withLock .sessions
    (clocked
      (fun now state =>
        let sessions := state.sessions.revokeDevice target now
        (.ok (sessions.nextGeneration, now), { state with sessions }))
      fun fence => some (.revoked target fence.1 (fence.2 + challengeTtl + challengeTtl)))

def deviceChallenge (binding : Binding) (keyId : String) (publicKey : Bytes) :
    Web mac Unit := do
  ensureBinding binding auth
  let _ ← Fallible.ofExcept (opaqueId keyId)
  if publicKey.length ≠ 32 then throw .badRequest
  let _ ← challenge binding .device (some keyId) (some publicKey)

def deviceApprove [DecidableEq Tag] (auth : Session) (binding : Binding) (keyId : String)
    (publicKey : Bytes) (id : Option (ChallengeId Tag)) : Web mac Unit := do
  ensureBinding binding auth
  if publicKey.length ≠ 32 then throw .badRequest
  let pending ← consume binding id .device (some (keyId, publicKey))
  let key ← trustedKey binding
  if key ≠ (keyId, publicKey) then throw .forbidden
  demand (·.verified)
  spend pending

def protectedAction [DecidableEq Tag] (auth : Session) : ProtectedRequest Tag → Web mac Unit
  | .logout binding => logout auth binding
  | .revoke binding deviceId => revokeDevice auth binding deviceId
  | .challenge binding keyId publicKey => deviceChallenge auth binding keyId publicKey
  | .approve binding keyId publicKey id => deviceApprove auth binding keyId publicKey id
  | .other binding => do
    ensureBinding binding auth
    stored (·.stored)

def checkedAction [DecidableEq Tag] (auth : Session) (request : ProtectedRequest Tag) :
    Web mac Unit := do
  let subject ← subjectFor auth.binding
  if subject ≠ auth.subject then throw .unauthorized
  let key ← trustedKey auth.binding
  if key ≠ (auth.signerKeyId, auth.signerPublicKey) then throw .unauthorized
  protectedAction auth request

def revocationTarget : ProtectedRequest Tag → Web mac (Option Binding)
  | .revoke binding deviceId => do
    ensureBinding binding auth
    let _ ← Fallible.ofExcept (opaqueId deviceId)
    return some { auth.binding with device := deviceId }
  | _ => return none

-- Finds the session once more, now behind the gate.
def revalidate : Web mac Unit :=
  withLock .sessions
    (clocked
      (fun now state =>
        if state.sessions.sessions.any fun current =>
            current.token = auth.token ∧ current.binding = auth.binding ∧
              now < current.untilInstant then
          (.ok (), state)
        else
          (.error .unauthorized, state))
      fun _ => some (.admitted auth.binding auth.token))

def dispatchPost [DecidableEq Tag] (auth : Session) (request : ProtectedRequest Tag) :
    Web mac Unit := do
  let target ← revocationTarget auth request
  withGates auth.binding (target.filter (· ≠ auth.binding)) do
    revalidate auth
    let result ← Fallible.ofProg (checkedAction auth request).run
    announce .finished
    Fallible.ofExcept result

end Requests

end Web

inductive WebRequest (Tag : Type)
  | loginChallenge (binding : Binding)
  | loginVerify (binding : Binding) (id : Option (ChallengeId Tag))
  | signupBegin
  | recoverBegin (binding : Binding)
  | accountFinish (signup : Bool) (input : Web.AccountFinish) (id : Option (ChallengeId Tag))
  | post (token : String) (request : Web.ProtectedRequest Tag)

open Web in
-- Between the two steps of a protected request its body is read, which can take any time.
def dispatch {Tag : Type} [DecidableEq Tag] (mac : ChallengeMacInput → Tag)
    (registration : Option TenantScope) : WebRequest Tag → Web mac Unit
  | .loginChallenge binding => loginChallenge binding
  | .loginVerify binding id => loginVerify binding id
  | .signupBegin => signupBegin registration
  | .recoverBegin binding => recoverBegin registration binding
  | .accountFinish signup input id => accountFinish registration signup input id
  | .post token request => do
    let auth ← authenticated token
    dispatchPost auth request

-- A lock is free or it is waited for.
def LockFree {Tag : Type} {mac : ChallengeMacInput → Tag} (state : WebState Tag) :
    WebEvent mac → Prop
  | .locked lock => lock ∉ state.held
  | _ => True

instance {Tag : Type} {mac : ChallengeMacInput → Tag} (state : WebState Tag)
    (event : WebEvent mac) : Decidable (LockFree state event) := by
  cases event <;> unfold LockFree <;> infer_instance

def webProcess {Tag : Type} [DecidableEq Tag] (mac : ChallengeMacInput → Tag)
    (registration : Option TenantScope) :
    Workload (WebState Tag) WebAnswers (WebEvent mac) (WebRequest Tag) (Except StatusCode Unit) where
  program request := (dispatch mac registration request).run
  env _ _ := False
  allows := LockFree

instance {Tag : Type} [DecidableEq Tag] {mac : ChallengeMacInput → Tag}
    {registration : Option TenantScope} (state : WebState Tag) (event : WebEvent mac) :
    Decidable ((webProcess mac registration).allows state event) :=
  inferInstanceAs (Decidable (LockFree state event))

end FirstParty

end Ucr
