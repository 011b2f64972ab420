import Ucr.Media.GroupSession
import Ucr.Media.Theorems.DirectMedia
import Ucr.Protocol.Theorems.GroupGovernance
import Ucr.Store.Theorems.TrustedKeys

-- Group media is attributed to the device that has sealed it, and none of it is opened twice.

namespace Ucr

open Except List

abbrev ScopedDevice := TenantScope × DeviceId

def GroupMediaFrameHeader.device (header : GroupMediaFrameHeader) : ScopedDevice :=
  (header.scope, header.sourceDeviceId)

def GroupMediaFrameHeader.e2eeContext (header : GroupMediaFrameHeader) : GroupMediaE2eeContext where
  scope := header.scope
  callId := header.callId
  groupId := header.groupId
  negotiationRef := header.negotiationRef
  negotiationGeneration := header.negotiationGeneration
  cryptoEpoch := header.cryptoEpoch
  cryptoStateRef := header.cryptoStateRef
  cryptoSuite := header.cryptoSuite

-- The text whose hash the source of a frame has to sign.
def EncryptedGroupMediaFrame.signedText (frame : EncryptedGroupMediaFrame) :
    Except GroupMediaE2eeProtocolError Bytes :=
  (groupMediaSigningText · frame.nonce frame.ciphertext) <$> groupMediaFrameAad frame.header

variable {Key Secret : Type} {crypto : GroupMediaCrypto Key Secret} {reads : GroupMediaReads}
  {session session' : GroupMediaE2eeSession Secret} {endpoint : GroupEndpoint Secret}
  {frame : EncryptedGroupMediaFrame} {context : GroupMediaE2eeContext} {plaintext : Bytes}
  {nonce : Option AeadNonce} {signingKeyId : KeyId} {signer : GroupMediaSigningKeyHandle}
  {payload : GroupPayload} {epochSecret : Secret}

-- The key for a frame, by the secret of the epoch it is made in.
def GroupMediaFrameHeader.trafficKey (crypto : GroupMediaCrypto Key Secret) (epochSecret : Secret)
    (header : GroupMediaFrameHeader) : Except GroupMediaE2eeProtocolError Key :=
  deriveGroupMediaTrafficKey crypto epochSecret header.e2eeContext header.source
    header.sourceDeviceId header.streamId header.mediaKind

-- Every frame that is sealed or opened carries the ciphertext of its payload, made under the
-- header, in a text short enough to be read back.
structure Carries (crypto : GroupMediaCrypto Key Secret) (epochSecret : Secret)
    (frame : EncryptedGroupMediaFrame) (plaintext : Bytes) : Prop where
  encrypts : ∃ key aad, frame.header.trafficKey crypto epochSecret = .ok key ∧
    groupMediaFrameAad frame.header = .ok aad ∧
      crypto.cipher.encrypt key frame.nonce aad plaintext = frame.ciphertext
  short    : frame.ciphertext.length ≤ maxEncryptedGroupMediaPayloadBytes

theorem Carries.eq_of_signedText (h : Carries crypto epochSecret frame plaintext)
    (h' : Carries crypto epochSecret' frame' plaintext')
    (htext : frame.signedText = .ok text) (htext' : frame'.signedText = .ok text) :
    frame.header = frame'.header ∧ frame.nonce = frame'.nonce ∧
      frame.ciphertext = frame'.ciphertext := by
  obtain ⟨-, aad, -, haad, -⟩ := h.encrypts
  obtain ⟨-, aad', -, haad', -⟩ := h'.encrypts
  have hshort := h.short
  have hshort' := h'.short
  simp only [maxEncryptedGroupMediaPayloadBytes] at hshort hshort'
  simp only [EncryptedGroupMediaFrame.signedText, haad, map_eq_ok, Except.ok.injEq,
    exists_eq_left'] at htext
  simp only [EncryptedGroupMediaFrame.signedText, haad', map_eq_ok, Except.ok.injEq,
    exists_eq_left'] at htext'
  obtain ⟨rfl, hnonce, hciphertext⟩ := groupMediaSigningText_inj (length_groupMediaFrameAad haad)
    (length_groupMediaFrameAad haad') (by omega) (by omega) (htext.trans htext'.symm)
  exact ⟨groupMediaFrameAad_inj haad haad', hnonce, hciphertext⟩

-- Under one key, a ciphertext is that of one payload.
theorem Carries.plaintext_eq (h : Carries crypto epochSecret frame plaintext)
    (h' : Carries crypto epochSecret' frame' plaintext') (hheader : frame.header = frame'.header)
    (hnonce : frame.nonce = frame'.nonce) (hciphertext : frame.ciphertext = frame'.ciphertext)
    (hkey : frame.header.trafficKey crypto epochSecret =
      frame'.header.trafficKey crypto epochSecret') : plaintext = plaintext' := by
  obtain ⟨key, aad, hmine, haad, hencrypts⟩ := h.encrypts
  obtain ⟨key', aad', hother, haad', hencrypts'⟩ := h'.encrypts
  obtain rfl : key = key' := Except.ok.inj (hmine.symm.trans (hkey.trans hother))
  obtain rfl : aad = aad' := Except.ok.inj (haad.symm.trans (hheader ▸ haad'))
  refine Aead.encrypt_injective (hencrypts.trans ?_)
  rw [hciphertext, hnonce, hencrypts']

variable {binding : Digest}

section Checks

theorem validateEncryptedGroupMediaFrame_context
    (h : validateEncryptedGroupMediaFrame context frame = .ok ()) :
    frame.header.e2eeContext = context ∧
      frame.ciphertext.length ≤ maxEncryptedGroupMediaPayloadBytes := by
  simp only [validateEncryptedGroupMediaFrame, canonicalGroupMediaE2eeContext, ok_iff, not_or,
    not_not, not_lt, exists_const] at h
  obtain ⟨_, ⟨-, -, rfl⟩, _, -, -, hshort, -, _, -, hcontext⟩ := h
  refine ⟨?_, hshort⟩
  have hsuite : frame.header.cryptoSuite = context.cryptoSuite := by
    cases frame.header.cryptoSuite
    cases context.cryptoSuite
    rfl
  cases context
  simp_all [GroupMediaFrameHeader.e2eeContext]

-- Once a header of the context is hashed to be signed, the frame passes every check.
theorem validateEncryptedGroupMediaFrame_signed
    (hcontext : canonicalGroupMediaE2eeContext frame.header.e2eeContext = .ok context)
    (hbinding : groupMediaSourceSigningBinding frame.header frame.nonce frame.ciphertext =
      .ok binding)
    (hsignature : frame.sourceSignature.algorithmId = signatureAlgorithmId ∧
      frame.sourceSignature.algorithmVersion = algorithmVersion ∧
      frame.sourceSignature.signature.length = groupMediaSignatureLen) :
    validateEncryptedGroupMediaFrame frame.header.e2eeContext frame = .ok () := by
  have hread := hbinding
  simp only [groupMediaSourceSigningBinding, ok_iff, exists_const] at hread
  obtain ⟨aad, haad, hne, hshort, -⟩ := hread
  have hsame : context = frame.header.e2eeContext := by
    simp only [canonicalGroupMediaE2eeContext, ok_iff] at hcontext
    obtain ⟨-, -, -, -, rfl⟩ := hcontext
    rfl
  simp only [validateEncryptedGroupMediaFrame, hcontext, haad, hbinding, ok_iff, Except.ok.injEq,
    exists_eq_left', exists_const]
  exact ⟨hne, hshort, by simp [hsignature], by simp [hsame, GroupMediaFrameHeader.e2eeContext]⟩

-- A device that may send or be heard: known, active, and of the participant's own identity.
structure ActiveBound (store : GroupMediaStore) (scope : TenantScope) (participant : PrincipalRef)
    (deviceId : DeviceId) (device : DeviceDescriptor) : Prop where
  known  : store.device scope deviceId = .ok (some device)
  active : device.state = .active
  bound  : (participant.kind = .device ∧ participant.principalId = deviceId) ∨
    (participant.kind ≠ .device ∧
      store.principalIdentityBinding scope participant = .ok (some device.identityId))

theorem requireActiveBoundParticipantDevice_eq_ok
    (h : store.requireActiveBoundParticipantDevice scope participant deviceId = .ok device) :
    ActiveBound store scope participant deviceId device := by
  simp only [GroupMediaStore.requireActiveBoundParticipantDevice, ok_iff, not_not] at h
  obtain ⟨_, hdevice, device', rfl, -, hactive, h⟩ := h
  split at h
  case isTrue hkind =>
    simp only [ok_iff, not_not] at h
    obtain ⟨-, hsame, rfl⟩ := h
    refine ⟨hdevice, by simpa [deviceAllowsProtectedAccess] using hactive, .inl ⟨hkind, ?_⟩⟩
    exact OpaqueId.asWireBytes_injective hsame
  case isFalse hkind =>
    simp only [ok_iff, not_not] at h
    obtain ⟨_, hbinding, identityId, rfl, -, rfl, rfl⟩ := h
    exact ⟨hdevice, by simpa [deviceAllowsProtectedAccess] using hactive, .inr ⟨hkind, hbinding⟩⟩

end Checks

variable {signed : List (Bytes × Digest)}

section Calls

open GroupMediaE2eeSession

-- The store names the key as one the device may sign with now.
def Trusts (store : GroupMediaStore) (scope : TenantScope) (deviceId : DeviceId)
    (identityId : IdentityId) (verifyingKey : Bytes) : Prop :=
  ∃ keyId descriptor,
    store.resolveActiveSigningKey scope deviceId (some identityId) keyId = .ok descriptor ∧
      descriptor.purpose = .signing ∧ descriptor.publicKey = verifyingKey

-- A session seals a payload under its own name and context, and signs with a trusted key.
structure Seals (crypto : GroupMediaCrypto Key Secret) (reads : GroupMediaReads)
    (session : GroupMediaE2eeSession Secret) (plaintext verifyingKey : Bytes)
    (frame : EncryptedGroupMediaFrame) (text : Bytes) : Prop where
  context : frame.header.e2eeContext = session.context
  device  : frame.header.sourceDeviceId = session.localDeviceId
  carries : Carries crypto session.epochSecret frame plaintext
  text    : frame.signedText = .ok text
  trusted : ∃ identityId,
    Trusts reads.source session.context.scope session.localDeviceId identityId verifyingKey

theorem signedText_of_binding
    (h : groupMediaSourceSigningBinding frame.header frame.nonce frame.ciphertext = .ok binding) :
    ∃ aad text, groupMediaFrameAad frame.header = .ok aad ∧ frame.signedText = .ok text ∧
      binding = sha256 text ∧ frame.ciphertext.length ≤ maxEncryptedGroupMediaPayloadBytes := by
  simp only [groupMediaSourceSigningBinding, ok_iff, not_lt] at h
  obtain ⟨aad, haad, -, -, -, hshort, rfl⟩ := h
  exact ⟨aad, _, haad, by simp [EncryptedGroupMediaFrame.signedText, haad], rfl, hshort⟩

theorem signGroupMediaBinding_ends :
    (signGroupMediaBinding signer binding).Ends endpoint
      (fun signature endpoint' => signature.length = groupMediaSignatureLen ∧
        endpoint' = { endpoint with signed := endpoint.signed ++ [(signer.verifyingKey, binding)] })
      (· = endpoint) := by
  unfold signGroupMediaBinding
  refine .check (fun signature _ => ?_) rfl
  refine .bind (.modify (P := fun _ e => e = _) rfl) ?_
  rintro _ _ rfl
  exact .pure ⟨signature.2, rfl⟩

-- Sealing stops before anything is signed, or hands out what was signed.
theorem sealEndpointGroupMediaPayload_ends {header epochSecret}
    (hcontext : header.e2eeContext = context) :
    (sealEndpointGroupMediaPayload crypto nonce signingKeyId signer epochSecret context header
      plaintext).Ends endpoint
      (fun frame endpoint' => frame.header = header ∧ Carries crypto epochSecret frame plaintext ∧
        ∃ text, frame.signedText = .ok text ∧
          endpoint' = { endpoint with
            signed := endpoint.signed ++ [(signer.verifyingKey, sha256 text)] })
      (· = endpoint) := by
  subst hcontext
  unfold sealEndpointGroupMediaPayload
  refine .check (fun key hkey => .check (fun aad haad => .check (fun encrypted hencrypted => .check
    (fun binding hbinding => ?_) rfl) rfl) rfl) rfl
  refine .bind signGroupMediaBinding_ends ?_
  rintro signature _ ⟨hlength, rfl⟩
  set frame : EncryptedGroupMediaFrame := ⟨header, encrypted.nonce, encrypted.bytes,
    ⟨signingKeyId, signatureAlgorithmId, algorithmVersion, signature⟩⟩
  obtain ⟨aad', text, haad', htext, rfl, hshort⟩ :=
    @signedText_of_binding frame _ (mapError_eq_ok.mp hbinding)
  obtain ⟨context, hcontext⟩ :
      ∃ context, canonicalGroupMediaE2eeContext header.e2eeContext = .ok context := by
    simp only [deriveGroupMediaTrafficKey, groupMediaContextBinding, ok_iff] at hkey
    obtain ⟨_, ⟨context, hcontext, -⟩, -⟩ := hkey
    exact ⟨context, hcontext⟩
  have hvalid : validateEncryptedGroupMediaFrame frame.header.e2eeContext frame = .ok () :=
    validateEncryptedGroupMediaFrame_signed hcontext (mapError_eq_ok.mp hbinding)
      ⟨rfl, rfl, hlength⟩
  refine .passes (mapError_eq_ok.mpr hvalid) ?_
  have hbytes := (TrafficKey.encrypt_eq_ok (mapError_eq_ok.mp hencrypted)).2
  exact .pure ⟨rfl, ⟨⟨key, aad, mapError_eq_ok.mp hkey, mapError_eq_ok.mp haad, hbytes.symm⟩, hshort⟩,
    text, htext, rfl⟩

-- What a session leaves behind when it has sealed.
def sealed (endpoint : GroupEndpoint Secret) (verifyingKey text : Bytes)
    (header : GroupMediaFrameHeader) : GroupEndpoint Secret where
  session := { endpoint.session with
    outboundSequences := endpoint.session.outboundSequences.put header.cursorKey header.sequence }
  signed  := endpoint.signed ++ [(verifyingKey, sha256 text)]

theorem sealPayloadVersioned_ends :
    (sealPayloadVersioned crypto reads nonce signingKeyId signer headerVersion payload).Ends endpoint
      (fun frame endpoint' => ∃ text,
        Seals crypto reads endpoint.session payload.plaintext signer.verifyingKey frame text ∧
          endpoint' = sealed endpoint signer.verifyingKey text frame.header)
      (· = endpoint) := by
  unfold sealPayloadVersioned
  refine .read (.check (fun _ _ => .check (fun _ _ => .check (fun device _ => .check (fun _ _ => .check
    (fun _ _ => .check (fun _ _ => .check (fun trusted htrusted => .check (fun _ _ => .check
      (fun _ hkey => ?_) rfl) rfl) rfl) rfl) rfl) rfl) rfl) rfl) rfl)
  simp only [ok_iff, not_or, not_not] at hkey
  refine .bind (sealEndpointGroupMediaPayload_ends rfl) ?_
  rintro frame _ ⟨hheader, hcarries, text, htext, rfl⟩
  refine .bind (.modify (P := fun _ e => e = _) rfl) ?_
  rintro _ _ rfl
  refine .pure ⟨text, ⟨?_, ?_, hcarries, htext, ?_⟩, ?_⟩
  · rw [hheader]
    rfl
  · rw [hheader]
    rfl
  · exact ⟨device.identityId, signingKeyId, trusted, htrusted, hkey.1, hkey.2⟩
  · rw [hheader]
    rfl

theorem sealWith_ends {entry} :
    (GroupMedia.sealWith crypto entry reads nonce signingKeyId signer payload).Ends endpoint
      (fun frame endpoint' => ∃ text,
        Seals crypto reads endpoint.session payload.plaintext signer.verifyingKey frame text ∧
          endpoint' = sealed endpoint signer.verifyingKey text frame.header)
      (· = endpoint) := by
  cases entry
  case payload     => exact sealPayloadVersioned_ends
  case withSource  => exact .check (fun _ _ => sealPayloadVersioned_ends) rfl
  case screenShare => exact sealPayloadVersioned_ends

-- A session opens a frame of its own context, signed by the device it names with a key that is
-- trusted, from a participant that device belongs to.
structure Opens (crypto : GroupMediaCrypto Key Secret) (reads : GroupMediaReads)
    (context : GroupMediaE2eeContext) (epochSecret : Secret) (signed : List (Bytes × Digest))
    (frame : EncryptedGroupMediaFrame) (plaintext : Bytes) : Prop where
  context : frame.header.e2eeContext = context
  carries : Carries crypto epochSecret frame plaintext
  source  : ∃ device verifyingKey text,
    ActiveBound reads.source frame.header.scope frame.header.source frame.header.sourceDeviceId
      device ∧
    Trusts reads.source frame.header.scope frame.header.sourceDeviceId device.identityId
      verifyingKey ∧
    frame.signedText = .ok text ∧ (verifyingKey, sha256 text) ∈ signed

theorem Opens.mono (h : Opens crypto reads context epochSecret signed frame plaintext)
    (hsub : signed ⊆ signed') : Opens crypto reads context epochSecret signed' frame plaintext := by
  obtain ⟨device, verifyingKey, text, hbound, htrusts, htext, hmem⟩ := h.source
  exact ⟨h.context, h.carries, device, verifyingKey, text, hbound, htrusts, htext, hsub hmem⟩

theorem openPayload_eq_ok
    (h : session.openPayload crypto reads signed frame = .ok (plaintext, session')) :
    Opens crypto reads session.context session.epochSecret signed frame plaintext ∧
      Cursor.Past session.inboundSequences frame.header.cursorKey frame.header.sequence ∧
      session' = { session with
        inboundSequences := session.inboundSequences.put frame.header.cursorKey
          frame.header.sequence } := by
  simp only [openPayload, ok_iff] at h
  obtain ⟨_, -, call, -, _, hvalid, _, -, _, -, _, -, _, -, _, -, device, hdevice, verifyingKey, hkey,
    _, -, _, hpast, plaintext', hopen, heq⟩ := h
  obtain ⟨rfl, rfl⟩ := Prod.mk.inj heq
  refine ⟨?_, Cursor.past_of_not_any hpast, rfl⟩
  obtain ⟨hcontext, hshort⟩ := validateEncryptedGroupMediaFrame_context hvalid
  simp only [openEndpointGroupMediaPayload, ok_iff, not_not] at hopen
  obtain ⟨_, -, _, -, binding, hbinding, _, hverified, key, hderived, aad, haad, hdecrypt⟩ := hopen
  obtain ⟨_, text, -, htext, rfl, -⟩ := signedText_of_binding hbinding
  simp only [GroupMediaStore.resolveSourceVerifyingKey, ok_iff, not_or, not_not] at hkey
  obtain ⟨trusted, htrusted, _, -, _, hpurpose, _, -, rfl⟩ := hkey
  have hscope : session.context.scope = frame.header.scope := by
    rw [← hcontext]
    rfl
  rw [hscope] at hdevice
  refine ⟨hcontext, ⟨⟨key, aad, ?_, haad, ?_⟩, hshort⟩, device, _, text,
    requireActiveBoundParticipantDevice_eq_ok hdevice, ⟨_, trusted, htrusted, hpurpose.1, rfl⟩, htext,
    SignatureScheme.mem_of_verifyMade hverified⟩
  · rwa [GroupMediaFrameHeader.trafficKey, hcontext]
  · exact Aead.decrypt_eq_some.mp (TrafficKey.decrypt_eq_ok hdecrypt)

end Calls

-- No two devices share a signing key: whatever key the store trusts for a device is its own.
def KeysOwned (owner : Bytes → ScopedDevice) (store : GroupMediaStore) : Prop :=
  ∀ scope deviceId identityId keyId descriptor,
    store.resolveActiveSigningKey scope deviceId identityId keyId = .ok descriptor →
      owner descriptor.publicKey = (scope, deviceId)

-- Who signs what it likes is corrupt.
def GroupMediaOp.Fair (owner : Bytes → ScopedDevice) (corrupt : ScopedDevice → Prop) :
    GroupMediaOp Secret → Prop
  | .openSession .. => True
  | .sealPayload _ _ reads .. => KeysOwned owner reads.source
  | .openPayload _ reads _ => KeysOwned owner reads.source
  | .sign verifyingKey _ => corrupt (owner verifyingKey)

def groupNumbering : Cursor.Numbering (OpenedPayload Secret) GroupStreamCursorKey where
  epoch _ := 0
  stream opened := opened.frame.header.cursorKey
  number opened := opened.frame.header.sequence

namespace GroupMedia

variable {media media' : GroupMedia Secret} {owner : Bytes → ScopedDevice}
  {corrupt : ScopedDevice → Prop} {op : GroupMediaOp Secret} {index : ℕ}

def openedBy (media : GroupMedia Secret) (index : ℕ) : List (OpenedPayload Secret) :=
  media.opened.filter (·.session = index)

def afterSealing (media : GroupMedia Secret) (index : ℕ) (session : GroupMediaE2eeSession Secret)
    (frame : EncryptedGroupMediaFrame) (plaintext verifyingKey text : Bytes) : GroupMedia Secret :=
  { media with
    sessions := media.sessions.set index
      (Ucr.sealed ⟨session, media.signed⟩ verifyingKey text frame.header).session
    signed   := media.signed ++ [(verifyingKey, sha256 text)]
    sent     := media.sent ++
      [⟨session.context.scope, session.localDeviceId, session.context, session.epochSecret, frame,
        plaintext⟩] }

def afterOpening (media : GroupMedia Secret) (index : ℕ) (session : GroupMediaE2eeSession Secret)
    (reads : GroupMediaReads) (frame : EncryptedGroupMediaFrame) (plaintext : Bytes) :
    GroupMedia Secret :=
  { media with
    sessions := media.sessions.set index { session with
      inboundSequences := session.inboundSequences.put frame.header.cursorKey frame.header.sequence }
    opened   := media.opened ++ [⟨index, reads, session.epochSecret, frame, plaintext⟩] }

inductive Effect (crypto : GroupMediaCrypto Key Secret) (owner : Bytes → ScopedDevice)
    (corrupt : ScopedDevice → Prop) (media : GroupMedia Secret) : GroupMedia Secret → Prop
  | nothing : Effect crypto owner corrupt media media
  | joined (session : GroupMediaE2eeSession Secret) :
      Effect crypto owner corrupt media { media with sessions := media.sessions ++ [session] }
  | sealed (index : ℕ) (session : GroupMediaE2eeSession Secret) (reads : GroupMediaReads)
      (frame : EncryptedGroupMediaFrame) (plaintext verifyingKey text : Bytes)
      (found : media.sessions[index]? = some session) (owned : KeysOwned owner reads.source)
      (seals : Seals crypto reads session plaintext verifyingKey frame text) :
      Effect crypto owner corrupt media
        (media.afterSealing index session frame plaintext verifyingKey text)
  | opened (index : ℕ) (session : GroupMediaE2eeSession Secret) (reads : GroupMediaReads)
      (frame : EncryptedGroupMediaFrame) (plaintext : Bytes)
      (found : media.sessions[index]? = some session) (owned : KeysOwned owner reads.source)
      (opens : Opens crypto reads session.context session.epochSecret media.signed frame plaintext)
      (past : Cursor.Past session.inboundSequences frame.header.cursorKey frame.header.sequence) :
      Effect crypto owner corrupt media (media.afterOpening index session reads frame plaintext)
  | signed (verifyingKey : Bytes) (binding : Digest) (allowed : corrupt (owner verifyingKey)) :
      Effect crypto owner corrupt media { media with
        signed := media.signed ++ [(verifyingKey, binding)] }

theorem step_effect (hfair : op.Fair owner corrupt) :
    Effect crypto owner corrupt media (media.step crypto op) := by
  cases op
  case openSession =>
    dsimp only [step]
    split
    case h_1 session _ => exact .joined session
    case h_2 => exact .nothing
  case sealPayload index entry reads nonce signingKeyId signer payload =>
    dsimp only [step]
    split
    case h_1 => exact .nothing
    case h_2 session hfound =>
      have hends := @sealWith_ends Key Secret crypto reads ⟨session, media.signed⟩ nonce signingKeyId
        signer payload entry
      rcases hrun : (sealWith crypto entry reads nonce signingKeyId signer payload).run
        ⟨session, media.signed⟩ with ⟨_ | frame, endpoint⟩
      case error =>
        obtain rfl := hends.error _ _ hrun
        have hsame : media.sessions.set index session = media.sessions := by
          obtain ⟨hlt, rfl⟩ := List.getElem?_eq_some_iff.mp hfound
          exact set_getElem_self hlt
        rw [hsame]
        exact .nothing
      case ok =>
        obtain ⟨text, hseals, rfl⟩ := hends.ok _ _ hrun
        exact .sealed index session reads frame _ _ text hfound hfair hseals
  case openPayload index reads frame =>
    dsimp only [step]
    split
    case h_1 => exact .nothing
    case h_2 session hfound =>
      split
      case h_1 plaintext session' hopen =>
        obtain ⟨hopens, hpast, rfl⟩ := openPayload_eq_ok hopen
        exact .opened index session reads frame plaintext hfound hfair hopens hpast
      case h_2 => exact .nothing
  case sign => exact .signed _ _ hfair

structure Attributed (crypto : GroupMediaCrypto Key Secret) (owner : Bytes → ScopedDevice)
    (corrupt : ScopedDevice → Prop) (media : GroupMedia Secret) : Prop where
  signed : ∀ entry ∈ media.signed, ¬corrupt (owner entry.1) → ∃ payload ∈ media.sent, ∃ text,
    payload.frame.header.device = owner entry.1 ∧ payload.frame.signedText = .ok text ∧
      entry.2 = sha256 text
  sent   : ∀ payload ∈ media.sent,
    Carries crypto payload.epochSecret payload.frame payload.plaintext ∧
    payload.frame.header.e2eeContext = payload.context ∧
      payload.frame.header.device = (payload.scope, payload.deviceId)
  opened : ∀ payload ∈ media.opened, KeysOwned owner payload.reads.source ∧
    ∃ session, media.sessions[payload.session]? = some session ∧
      Opens crypto payload.reads session.context payload.epochSecret media.signed payload.frame
        payload.plaintext
  tracks : ∀ index session, media.sessions[index]? = some session →
    Cursor.Tracks groupNumbering 0 session.inboundSequences (media.openedBy index)

theorem attributed_start : Attributed crypto owner corrupt (start : GroupMedia Secret) where
  signed := by simp [start]
  sent   := by simp [start]
  opened := by simp [start]
  tracks := by simp [start]

-- Sessions keep their context, and what was signed stays signed.
structure Grows (media media' : GroupMedia Secret) : Prop where
  sessions : ∀ (index : ℕ) (session : GroupMediaE2eeSession Secret),
    media.sessions[index]? = some session →
      ∃ session', media'.sessions[index]? = some session' ∧ session'.context = session.context
  signed   : media.signed ⊆ media'.signed

variable (h : Attributed crypto owner corrupt media)
include h

theorem Attributed.opened_grows (hgrows : Grows media media') {payload}
    (hpayload : payload ∈ media.opened) :
    KeysOwned owner payload.reads.source ∧
      ∃ session, media'.sessions[payload.session]? = some session ∧
        Opens crypto payload.reads session.context payload.epochSecret media'.signed payload.frame
          payload.plaintext := by
  obtain ⟨howned, session, hfound, hopens⟩ := h.opened payload hpayload
  obtain ⟨session', hfound', hcontext⟩ := hgrows.sessions _ _ hfound
  exact ⟨howned, session', hfound', hcontext ▸ hopens.mono hgrows.signed⟩

omit h in
theorem session_after_set {sessions : List (GroupMediaE2eeSession Secret)}
    (hfound : (sessions.set index session)[other]? = some session₁) :
    index = other ∧ session₁ = session ∨ index ≠ other ∧ sessions[other]? = some session₁ := by
  rw [getElem?_set] at hfound
  grind

omit h in
theorem Grows.set (hfound : media.sessions[index]? = some session)
    (hcontext : session'.context = session.context) (hsigned : media.signed ⊆ signed)
    {sent opened} : Grows media ⟨media.sessions.set index session', signed, sent, opened⟩ := by
  refine ⟨fun other session₁ hfound₁ => ?_, hsigned⟩
  have hlt := (List.getElem?_eq_some_iff.mp hfound).1
  obtain rfl | hne := eq_or_ne index other
  · refine ⟨session', getElem?_set_self hlt, ?_⟩
    rw [hcontext, Option.mem_unique hfound hfound₁]
  · exact ⟨session₁, by rw [getElem?_set_ne hne, hfound₁], rfl⟩

theorem Attributed.joins :
    Attributed crypto owner corrupt { media with sessions := media.sessions ++ [session] } := by
  have hgrows : Grows media { media with sessions := media.sessions ++ [session] } := by
    refine ⟨fun index session₁ hfound => ⟨session₁, ?_, rfl⟩, List.Subset.refl _⟩
    have hlt := (List.getElem?_eq_some_iff.mp hfound).1
    rw [getElem?_append_left hlt, hfound]
  refine ⟨h.signed, h.sent, fun payload hpayload => h.opened_grows hgrows hpayload, ?_⟩
  intro index session₁ hfound
  rw [getElem?_append] at hfound
  split at hfound
  case isTrue => exact h.tracks index session₁ hfound
  case isFalse hge =>
    -- Nothing was opened by a session that did not exist.
    have hnone : media.openedBy index = [] := by
      refine filter_eq_nil_iff.mpr fun payload hpayload heq => ?_
      obtain ⟨-, session₂, hfound₂, -⟩ := h.opened payload hpayload
      exact hge (of_decide_eq_true heq ▸ (List.getElem?_eq_some_iff.mp hfound₂).1)
    rw [openedBy] at hnone ⊢
    exact hnone ▸ .nil

theorem Attributed.seals (hfound : media.sessions[index]? = some session)
    (howned : KeysOwned owner reads.source)
    (hseals : Seals crypto reads session plaintext verifyingKey frame text) :
    Attributed crypto owner corrupt
      (media.afterSealing index session frame plaintext verifyingKey text) := by
  have hscope : frame.header.scope = session.context.scope := by
    rw [← hseals.context]
    rfl
  have hdevice : frame.header.device = (session.context.scope, session.localDeviceId) :=
    Prod.ext hscope hseals.device
  refine ⟨?_, ?_, fun payload hpayload => ?_, ?_⟩
  · intro entry hentry hhonest
    obtain hentry | rfl : entry ∈ media.signed ∨ entry = (verifyingKey, sha256 text) := by
      simpa [afterSealing] using hentry
    · obtain ⟨payload, hpayload, htext⟩ := h.signed entry hentry hhonest
      exact ⟨payload, mem_append_left _ hpayload, htext⟩
    · obtain ⟨identityId, keyId, descriptor, htrusted, -, rfl⟩ := hseals.trusted
      refine ⟨_, mem_append_right _ (mem_singleton.mpr rfl), text, ?_, hseals.text, rfl⟩
      exact hdevice.trans (howned _ _ _ _ _ htrusted).symm
  · intro payload hpayload
    obtain hpayload | rfl : payload ∈ media.sent ∨ payload = ⟨session.context.scope,
        session.localDeviceId, session.context, session.epochSecret, frame, plaintext⟩ := by
      simpa [afterSealing] using hpayload
    · exact h.sent payload hpayload
    · exact ⟨hseals.carries, hseals.context, hdevice⟩
  · refine h.opened_grows (.set hfound ?_ (subset_append_left ..)) hpayload
    rfl
  · intro other session₁ hfound₁
    obtain ⟨rfl, rfl⟩ | ⟨-, hfound₁⟩ := session_after_set hfound₁
    · exact h.tracks index session hfound
    · exact h.tracks other session₁ hfound₁

theorem Attributed.opens
    (hfound : media.sessions[index]? = some session) (howned : KeysOwned owner reads.source)
    (hopens : Opens crypto reads session.context session.epochSecret media.signed frame plaintext)
    (hpast : Cursor.Past session.inboundSequences frame.header.cursorKey frame.header.sequence) :
    Attributed crypto owner corrupt (media.afterOpening index session reads frame plaintext) := by
  refine ⟨h.signed, h.sent, ?_, ?_⟩
  · intro payload hpayload
    obtain hpayload | rfl : payload ∈ media.opened ∨
        payload = ⟨index, reads, session.epochSecret, frame, plaintext⟩ := by
      simpa [afterOpening] using hpayload
    · refine h.opened_grows (.set hfound ?_ (List.Subset.refl _)) hpayload
      rfl
    · have hlt := (List.getElem?_eq_some_iff.mp hfound).1
      exact ⟨howned, _, getElem?_set_self hlt, hopens⟩
  · intro other session₁ hfound₁
    obtain ⟨rfl, rfl⟩ | ⟨hne, hfound₁⟩ := session_after_set hfound₁
    · set opened : OpenedPayload Secret := ⟨index, reads, session.epochSecret, frame, plaintext⟩
      have hopened : (media.afterOpening index session reads frame plaintext).openedBy index =
          media.openedBy index ++ [opened] := by simp [afterOpening, openedBy, opened]
      have htake : Cursor.Tracks groupNumbering 0 _ (media.openedBy index ++ [opened]) :=
        (h.tracks index session hfound).take rfl hpast
      exact hopened ▸ htake
    · simpa [afterOpening, openedBy, hne] using h.tracks other session₁ hfound₁

theorem Attributed.effect
    (heffect : Effect crypto owner corrupt media media') : Attributed crypto owner corrupt media' := by
  cases heffect
  case nothing => exact h
  case joined => exact h.joins
  case sealed found owned seals => exact h.seals found owned seals
  case opened found owned opens past => exact h.opens found owned opens past
  case signed verifyingKey binding allowed =>
    refine ⟨?_, h.sent, fun payload hpayload => ?_, h.tracks⟩
    · intro entry hentry hhonest
      obtain hentry | rfl : entry ∈ media.signed ∨ entry = (verifyingKey, binding) := by
        simpa using hentry
      · exact h.signed entry hentry hhonest
      · exact absurd allowed hhonest
    · refine h.opened_grows ⟨?_, subset_append_left ..⟩ hpayload
      exact fun _ session hfound => ⟨session, hfound, rfl⟩

theorem Attributed.run (hfair : ∀ op ∈ ops, op.Fair owner corrupt) :
    Attributed crypto owner corrupt (media.run crypto ops) := by
  induction ops generalizing media
  case nil => exact h
  case cons op ops ih =>
    simp only [forall_mem_cons] at hfair
    exact ih (h.effect (step_effect hfair.1)) hfair.2

-- The hash tells what was sealed apart from what was opened.
def HashSeparates (media : GroupMedia Secret) : Prop :=
  ∀ payload ∈ media.sent, ∀ opened ∈ media.opened,
    sha256 <$> payload.frame.signedText = sha256 <$> opened.frame.signedText →
      payload.frame.signedText = opened.frame.signedText

instance : Decidable (HashSeparates media) :=
  inferInstanceAs (Decidable (∀ payload ∈ media.sent, ∀ opened ∈ media.opened, _ → _))

-- The key tells what was sealed apart: it is opened under the key it was sealed with only.
def KeysSeparate (crypto : GroupMediaCrypto Key Secret) (media : GroupMedia Secret) : Prop :=
  ∀ payload ∈ media.sent, ∀ opened ∈ media.opened, payload.frame.header = opened.frame.header →
    payload.frame.nonce = opened.frame.nonce → payload.frame.ciphertext = opened.frame.ciphertext →
      payload.frame.header.trafficKey crypto payload.epochSecret =
        opened.frame.header.trafficKey crypto opened.epochSecret

omit h in
-- Whoever shares the secret of the epoch has the same keys.
theorem keysSeparate_of_secret (hsecret : ∀ payload ∈ media.sent, ∀ opened ∈ media.opened,
    payload.epochSecret = opened.epochSecret) : media.KeysSeparate crypto := by
  intro payload hpayload opened hopened hheader _ _
  rw [hheader, hsecret payload hpayload opened hopened]

-- A device that keeps to the program has sealed what is opened in its name.
theorem Attributed.sealed_of_opened (hhash : media.HashSeparates)
    {opened} (hopened : opened ∈ media.opened) (hhonest : ¬corrupt opened.frame.header.device) :
    ∃ payload ∈ media.sent, (payload.scope, payload.deviceId) = opened.frame.header.device ∧
      payload.context = opened.frame.header.e2eeContext ∧
      payload.frame.header = opened.frame.header ∧ payload.frame.nonce = opened.frame.nonce ∧
      payload.frame.ciphertext = opened.frame.ciphertext ∧
      (media.KeysSeparate crypto → payload.plaintext = opened.plaintext) := by
  obtain ⟨howned, session, -, hopens⟩ := h.opened opened hopened
  obtain ⟨device, verifyingKey, text, -, ⟨keyId, descriptor, htrusted, -, rfl⟩, htext, hsigned⟩ :=
    hopens.source
  have howner : owner descriptor.publicKey = opened.frame.header.device :=
    howned _ _ _ _ _ htrusted
  obtain ⟨payload, hpayload, text', -, htext', hsame⟩ := h.signed _ hsigned (howner ▸ hhonest)
  have htexts := hhash payload hpayload opened hopened (by simpa [htext, htext'] using hsame.symm)
  obtain ⟨hcarries, hcontext, hdevice⟩ := h.sent payload hpayload
  obtain ⟨hheader, hnonce, hciphertext⟩ :=
    hcarries.eq_of_signedText hopens.carries htext' (htexts ▸ htext')
  refine ⟨payload, hpayload, ?_, ?_, hheader, hnonce, hciphertext, fun hkeys => ?_⟩
  · rw [← hdevice, hheader]
  · rw [← hcontext, hheader]
  · exact hcarries.plaintext_eq hopens.carries hheader hnonce hciphertext
      (hkeys payload hpayload opened hopened hheader hnonce hciphertext)

theorem Attributed.nodup
    (hfound : media.sessions[index]? = some session) :
    ((media.openedBy index).map (·.frame.header)).Nodup := by
  refine pairwise_map.mpr ((h.tracks index session hfound).increasing.imp ?_)
  intro a b hlt hsame
  have : a.frame.header.sequence < b.frame.header.sequence :=
    hlt rfl (congrArg GroupMediaFrameHeader.cursorKey hsame)
  exact absurd (congrArg GroupMediaFrameHeader.sequence hsame) this.ne

omit h

-- In a group call whose members may sign whatever they like in their own name, over any network:
-- what is opened was signed by the device it names, which was active, bound to the source and
-- trusted with the key at that moment. If the device keeps to the program, it has sealed this
-- ciphertext under this header in the same context, and this plaintext if ciphertexts tell keys
-- apart. Each session opens the records of a source, its device, a kind and a stream in order, and
-- no header twice.
theorem group_media_attributed (crypto : GroupMediaCrypto Key Secret)
    (owner : Bytes → ScopedDevice) (corrupt : ScopedDevice → Prop)
    (ops : List (GroupMediaOp Secret)) (hfair : ∀ op ∈ ops, op.Fair owner corrupt)
    (hhash : (start.run crypto ops).HashSeparates) :
    let media := start.run crypto ops
    (∀ opened ∈ media.opened, ∃ session, media.sessions[opened.session]? = some session ∧
      opened.frame.header.e2eeContext = session.context ∧
      (∃ device verifyingKey text,
        ActiveBound opened.reads.source opened.frame.header.scope opened.frame.header.source
          opened.frame.header.sourceDeviceId device ∧
        Trusts opened.reads.source opened.frame.header.scope opened.frame.header.sourceDeviceId
          device.identityId verifyingKey ∧
        owner verifyingKey = opened.frame.header.device ∧
        opened.frame.signedText = .ok text ∧ (verifyingKey, sha256 text) ∈ media.signed) ∧
      Carries crypto opened.epochSecret opened.frame opened.plaintext ∧
      (¬corrupt opened.frame.header.device → ∃ payload ∈ media.sent,
        (payload.scope, payload.deviceId) = opened.frame.header.device ∧
        payload.context = session.context ∧
        payload.frame.header = opened.frame.header ∧ payload.frame.nonce = opened.frame.nonce ∧
        payload.frame.ciphertext = opened.frame.ciphertext ∧
        (media.KeysSeparate crypto → payload.plaintext = opened.plaintext))) ∧
    (∀ index session, media.sessions[index]? = some session →
      (∀ key, ((media.openedBy index).filter (·.frame.header.cursorKey = key)).Pairwise
        fun a b => a.frame.header.sequence < b.frame.header.sequence) ∧
      ((media.openedBy index).map (·.frame.header)).Nodup) := by
  intro media
  have h : Attributed crypto owner corrupt media := attributed_start.run hfair
  refine ⟨fun opened hopened => ?_, fun index session hfound => ⟨fun key => ?_, h.nodup hfound⟩⟩
  · obtain ⟨howned, session, hfound, hopens⟩ := h.opened opened hopened
    refine ⟨session, hfound, hopens.context, ?_, hopens.carries, fun hhonest => ?_⟩
    · obtain ⟨device, verifyingKey, text, hbound, htrusts, htext, hsigned⟩ := hopens.source
      refine ⟨device, verifyingKey, text, hbound, htrusts, ?_, htext, hsigned⟩
      obtain ⟨keyId, descriptor, htrusted, -, rfl⟩ := htrusts
      exact howned _ _ _ _ _ htrusted
    · exact hopens.context ▸ h.sealed_of_opened hhash hopened hhonest
  · refine pairwise_filter.mpr ((h.tracks index session hfound).increasing.imp ?_)
    intro a b hlt ha hb
    simp only [decide_eq_true_eq] at ha hb
    exact hlt rfl (ha.trans hb.symm)

end GroupMedia

namespace Scenario

-- The key is the secret of the epoch.
def groupCrypto : GroupMediaCrypto Bool Bool where
  cipher := plainCipher
  expand secret _ _ := secret
  signatures := ⟨fun _ _ _ => true⟩

def sealedClub : GroupRecord :=
  { club with cryptoState := ⟨some groupMlsCapability, 4, some agreement⟩ }

-- Alice takes part in their own name, and with their laptop as a participant of its own.
def laptopItself : PrincipalRef := ⟨laptop, .device⟩

def clubTalk : CallSession :=
  { bobTakesCall talk sealedClub.conversation with
    participants :=
      [⟨alice, .accepted, 0, none⟩, ⟨laptopItself, .accepted, 0, none⟩, ⟨bob, .accepted, 0, none⟩]
    mediaNegotiationRef := some agreement
    mediaNegotiationGeneration := 1
    replicationGeneration := 2
    revision := 2 }

def clubContext : GroupMediaE2eeContext where
  scope := tenant
  callId := talk
  groupId := sealedClub.groupId
  negotiationRef := agreement
  negotiationGeneration := 1
  cryptoEpoch := 4
  cryptoStateRef := agreement
  cryptoSuite := .ucrV1

-- Alice owns the laptop. Bob's device bears Bob's own id, as Bob's identity does.
def clubStore : GroupMediaStore where
  callForParticipant _ _ _ := .ok (some clubTalk)
  groupForConversation _ _ := .ok (some sealedClub)
  groupMembershipForActiveMember _ _ _ member := .ok (some (.joined sealedClub member .member 0 0))
  device _ deviceId := .ok (some ⟨deviceId, if deviceId = laptop then aliceIdentity else deviceId,
    .active⟩)
  principalIdentityBinding _ participant :=
    .ok (some (if participant = alice then aliceIdentity else participant.principalId))
  resolveActiveSigningKey scope deviceId _ keyId :=
    if (scope, deviceId) = (tenant, laptop) then .ok (laptopKey keyId) else .error .trust

def clubReads : GroupMediaReads := ⟨.ok (), .ok (), clubStore, clubStore⟩

def laptopOwns : Bytes → ScopedDevice := fun _ => (tenant, laptop)

theorem clubStore_keysOwned : KeysOwned laptopOwns clubReads.source := by
  intro scope deviceId identityId keyId descriptor hkey
  simp only [clubReads, clubStore] at hkey
  split at hkey
  case isTrue heq => exact heq.symm
  case isFalse    => cases hkey

def groupSpoken (sequence : U64) : GroupPayload where
  mediaKind := .audio
  videoSourceKind := none
  streamId := microphone.streamId
  sequence := sequence
  mediaTimestamp := 960
  keyframe := false
  plaintext := [1, 2, 3]

def laptopSigner : GroupMediaSigningKeyHandle :=
  ⟨(laptopKey firstKey).publicKey, some ⟨List.replicate 64 1, by decide⟩⟩

def laptopSeals (session : ℕ) (sequence : U64) : GroupMediaOp Bool :=
  .sealPayload session .payload clubReads (some zeroNonce) firstKey laptopSigner
    (groupSpoken sequence)

-- The laptop seals a frame in each of its two names, the later number in Alice's. Bob also has a
-- session with the secret of another epoch.
def laptopSpeaks : List (GroupMediaOp Bool) :=
  [.openSession clubReads ⟨tenant, alice⟩ laptop clubContext true,
    .openSession clubReads ⟨tenant, laptopItself⟩ laptop clubContext true,
    .openSession clubReads ⟨tenant, bob⟩ bob.principalId clubContext true,
    .openSession clubReads ⟨tenant, bob⟩ bob.principalId clubContext false,
    laptopSeals 0 5,
    laptopSeals 1 3]

-- Bob is given every frame in both sessions, and then again in the first.
def bobListens : List (GroupMediaOp Bool) :=
  [3, 2, 2].flatMap fun session =>
    (GroupMedia.start.run groupCrypto laptopSpeaks).sent.map fun payload =>
      .openPayload session clubReads payload.frame

theorem laptopSpeaks_fair : ∀ op ∈ laptopSpeaks ++ bobListens,
    op.Fair laptopOwns fun _ => False := by
  intro op hop
  obtain hop | hop := mem_append.mp hop
  · simp only [laptopSpeaks, laptopSeals, mem_cons, not_mem_nil, or_false] at hop
    obtain rfl | rfl | rfl | rfl | rfl | rfl := hop
    · trivial
    · trivial
    · trivial
    · trivial
    · exact clubStore_keysOwned
    · exact clubStore_keysOwned
  · simp only [bobListens, mem_flatMap, mem_map] at hop
    obtain ⟨session, -, payload, -, rfl⟩ := hop
    exact clubStore_keysOwned

end Scenario

open Scenario in
theorem group_media_delivered :
    let media := GroupMedia.start.run groupCrypto (laptopSpeaks ++ bobListens)
    media.opened.map (fun opened => (opened.session, opened.plaintext)) =
        [(2, [1, 2, 3]), (2, [1, 2, 3])] ∧
      ∀ opened ∈ media.opened, ∃ payload ∈ media.sent,
        (payload.scope, payload.deviceId) = opened.frame.header.device ∧
          payload.frame.header = opened.frame.header ∧ payload.plaintext = opened.plaintext := by
  refine ⟨by decide +kernel, fun opened hopened => ?_⟩
  obtain ⟨session, -, -, -, -, hsealed⟩ := (GroupMedia.group_media_attributed groupCrypto laptopOwns
    (fun _ => False) (laptopSpeaks ++ bobListens) laptopSpeaks_fair (by decide +kernel)).1 opened
    hopened
  obtain ⟨payload, hpayload, hdevice, -, hheader, -, -, hplaintext⟩ := hsealed not_false
  refine ⟨payload, hpayload, hdevice, hheader, hplaintext ?_⟩
  exact GroupMedia.keysSeparate_of_secret (by decide +kernel)

-- The numbers of one device go back when it speaks in another name.
open Scenario in
theorem group_media_device_numbers_go_back :
    (∀ op ∈ laptopSpeaks ++ bobListens, op.Fair laptopOwns fun _ => False) ∧
      ((GroupMedia.start.run groupCrypto (laptopSpeaks ++ bobListens)).openedBy 2).map
        (fun opened => (opened.frame.header.device, opened.frame.header.mediaKind,
          opened.frame.header.streamId, opened.frame.header.sequence)) =
        [((tenant, laptop), .audio, microphone.streamId, 5),
          ((tenant, laptop), .audio, microphone.streamId, 3)] :=
  ⟨laptopSpeaks_fair, by decide +kernel⟩

end Ucr
