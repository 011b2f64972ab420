import Ucr.Lib.Cursor
import Ucr.Media.DirectSession
import Ucr.Protocol.Theorems.MediaEncoding

-- Direct media is authentic, ordered and free of replays, whatever the network does.

namespace Ucr

open Except List

variable {Key : Type} {cipher : TrafficCipher Key} {endpoint : Endpoint Key}
  {session : MediaE2eeSession Key} {frame : EncryptedMediaFrame} {streamId : OpaqueId}
  {sequence mediaTimestamp : U64} {keyframe : Bool} {payload : Bytes} {nonce : Option AeadNonce}

-- What a frame with this header and payload means to the user of the stream.
def recordOf (header : MediaE2eeFrameHeader) (payload : Bytes) : MediaRecord where
  keyEpoch := header.keyEpoch
  key := ⟨header.mediaKind, header.streamId⟩
  sequence := header.sequence
  mediaTimestamp := header.mediaTimestamp
  keyframe := header.keyframe
  payload := payload

def mediaNumbering : Cursor.Numbering MediaRecord StreamCursorKey where
  epoch  := MediaRecord.keyEpoch
  stream := MediaRecord.key
  number := MediaRecord.sequence

-- The frame carries the ciphertext of the box, made from the payload with the whole header.
structure CarriedBy (cipher : TrafficCipher Key) (frame : EncryptedMediaFrame) (payload : Bytes)
    (box : Aead.Box Key AeadNonce) : Prop where
  aad : mediaE2eeFrameAad frame.header = .ok box.aad
  nonce : frame.nonce = box.nonce
  ciphertext : frame.ciphertext = box.ciphertext
  encrypts : cipher.encrypt box.key box.nonce box.aad payload = box.ciphertext

variable {box : Aead.Box Key AeadNonce}

-- A box is carried by one frame only, and stands for one payload.
theorem CarriedBy.unique (h : CarriedBy cipher frame payload box)
    (h' : CarriedBy cipher frame' payload' box) : frame = frame' ∧ payload = payload' := by
  refine ⟨?_, Aead.encrypt_injective (h.encrypts.trans h'.encrypts.symm)⟩
  have hheader := mediaE2eeFrameAad_inj h.aad h'.aad
  have hnonce := h.nonce.trans h'.nonce.symm
  have hciphertext := h.ciphertext.trans h'.ciphertext.symm
  cases frame
  cases frame'
  simp_all

section Checks

theorem canonicalMediaE2eeContext_self (context : CanonicalMediaE2eeContext) :
    canonicalMediaE2eeContext context.toMediaE2eeContext = .ok context := by
  have hsuite : context.cryptoSuite = .ucrV1 := by cases context.cryptoSuite; rfl
  simp [canonicalMediaE2eeContext, context.participants, context.devices, context.negotiation,
    context.epoch, hsuite]

-- The device of a role is not its own peer.
theorem directRole_peer_ne {context : CanonicalMediaE2eeContext}
    (h : directRole principal deviceId context.toMediaE2eeContext = .ok role) :
    role.peer context.toMediaE2eeContext ≠ principal.principal := by
  have hne := context.participants
  unfold directRole at h
  split_ifs at h with _ hinitiator hresponder
  case pos => cases h; exact fun heq => hne (hinitiator.1.symm.trans heq.symm)
  case pos => cases h; exact fun heq => hne (heq.trans hresponder.1)

-- What a session has put into a header passes the check against its own context.
theorem validateEncryptedMediaFrame_header {nonce}
    (haad : mediaE2eeFrameAad (session.header role mediaKind streamId sequence mediaTimestamp
      keyframe) = .ok aad) (hne : bytes ≠ []) (hle : bytes.length ≤ maxEncryptedMediaPayloadBytes) :
    validateEncryptedMediaFrame session.context.toMediaE2eeContext
      ⟨session.header role mediaKind streamId sequence mediaTimestamp keyframe, nonce, bytes⟩ =
        .ok () := by
  simp only [validateEncryptedMediaFrame, canonicalMediaE2eeContext_self, ok_iff, Except.ok.injEq,
    exists_eq_left', haad, exists_const]
  exact ⟨hne, not_lt.mpr hle, by simp [MediaE2eeSession.header]⟩

end Checks

-- A session seals a record of its current epoch into a frame.
structure Sends (cipher : TrafficCipher Key) (endpoint : Endpoint Key) (record : MediaRecord)
    (frame : EncryptedMediaFrame) (box : Aead.Box Key AeadNonce) (endpoint' : Endpoint Key) :
    Prop where
  carried   : CarriedBy cipher frame record.payload box
  describes : record = recordOf frame.header record.payload
  source    : frame.header.source = endpoint.session.localPrincipal.principal
  epoch     : record.keyEpoch = endpoint.session.context.keyEpoch
  past      : Cursor.Past endpoint.session.outboundSequences record.key record.sequence
  leaves    : endpoint' = {
    session := { endpoint.session with
      outboundSequences := endpoint.session.outboundSequences.put record.key record.sequence }
    made    := endpoint.made ++ [box] }

-- A session reads a record of its current epoch from a frame that was encrypted under its key.
structure Accepts (cipher : TrafficCipher Key) (endpoint : Endpoint Key)
    (frame : EncryptedMediaFrame) (record : MediaRecord) (endpoint' : Endpoint Key) : Prop where
  carried   : ∃ box ∈ endpoint.made, CarriedBy cipher frame record.payload box
  describes : record = recordOf frame.header record.payload
  source    : frame.header.source ≠ endpoint.session.localPrincipal.principal
  epoch     : record.keyEpoch = endpoint.session.context.keyEpoch
  past      : Cursor.Past endpoint.session.inboundSequences record.key record.sequence
  leaves    : endpoint' = { endpoint with
    session := { endpoint.session with
      inboundSequences := endpoint.session.inboundSequences.put record.key record.sequence } }

section Payloads

open MediaE2eeSession

theorem encryptOutbound_ends :
    (encryptOutbound cipher nonce payload aad).Ends endpoint
      (fun encrypted endpoint' =>
        encrypted.bytes =
          cipher.encrypt endpoint.session.established.outbound encrypted.nonce aad payload ∧
        endpoint' = { endpoint with made := endpoint.made ++
          [⟨endpoint.session.established.outbound, encrypted.nonce, aad, encrypted.bytes⟩] })
      (· = endpoint) := by
  unfold encryptOutbound
  refine .read (.check (fun encrypted hencrypted => ?_) rfl)
  have hbytes := (TrafficKey.encrypt_eq_ok (mapError_eq_ok.mp hencrypted)).2
  refine .bind (.modify (P := fun _ e => e = _) rfl) ?_
  rintro _ _ rfl
  exact .pure ⟨hbytes, rfl⟩

-- Sealing fails before anything is encrypted, or hands out what it has encrypted.
theorem sealPayload_ends (hlen : payload.length ≤ maxEncodedVideoFrameBytes) :
    (sealPayload cipher nonce mediaKind streamId sequence mediaTimestamp keyframe payload).Ends
      endpoint
      (fun frame endpoint' => ∃ box, Sends cipher endpoint ⟨endpoint.session.context.keyEpoch,
        ⟨mediaKind, streamId⟩, sequence, mediaTimestamp, keyframe, payload⟩ frame box endpoint')
      (· = endpoint) := by
  unfold sealPayload
  refine .read (.check (fun _ hnext => .check (fun _ _ => .check (fun role _ => .check
    (fun aad haad => ?_) rfl) rfl) rfl) rfl)
  refine .bind encryptOutbound_ends ?_
  rintro ⟨nonce, bytes⟩ _ ⟨hbytes, rfl⟩
  -- The frame is as long as its payload and the tag, so that it passes the check it is put to.
  have hlength : bytes.length = payload.length + aeadTagLen := by
    rw [show bytes = _ from hbytes, cipher.length_encrypt]
  have hne : bytes ≠ [] := ne_nil_of_length_pos (by simp [hlength, aeadTagLen])
  have hle : bytes.length ≤ maxEncryptedMediaPayloadBytes :=
    hlength ▸ Nat.add_le_add_right hlen _
  have hvalid : validateEncryptedMediaFrame endpoint.session.context.toMediaE2eeContext
      ⟨_, nonce, bytes⟩ = .ok () :=
    validateEncryptedMediaFrame_header (mapError_eq_ok.mp haad) hne hle
  refine .passes (mapError_eq_ok.mpr hvalid) ?_
  refine .bind (.modify (P := fun _ e => e = _) rfl) ?_
  rintro _ _ rfl
  refine .pure ⟨⟨_, nonce, aad, bytes⟩, ⟨mapError_eq_ok.mp haad, rfl, rfl, hbytes.symm⟩, rfl, rfl, rfl,
    ?_, rfl⟩
  simp only [requireNextOutboundSequence, ok_iff] at hnext
  exact Cursor.past_of_not_any hnext

variable [DecidableEq Key]

-- The frame of an audio stream is never a keyframe.
theorem keyframe_eq_false {header aad} (haad : mediaE2eeFrameAad header = .ok aad)
    (hkind : header.mediaKind = .audio) : header.keyframe = false := by
  simp only [mediaE2eeFrameAad, ok_iff, exists_const, hkind, true_and] at haad
  simpa using haad.2.2.2.1

-- Opening refuses a frame without a trace, or accepts what was encrypted under its key.
theorem openPayload_ends :
    (openPayload cipher mediaKind streamId frame).Ends endpoint
      (fun payload endpoint' =>
        Accepts cipher endpoint frame (recordOf frame.header payload) endpoint' ∧
        frame.header.mediaKind = mediaKind ∧ frame.header.streamId = streamId ∧
        (mediaKind = .audio → frame.header.keyframe = false))
      (· = endpoint) := by
  unfold openPayload
  refine .read (.check (fun _ hvalid => .check (fun _ hkind => .check (fun _ hstream => .check
    (fun role hrole => .check (fun _ hdirection => .check (fun _ _ => .check (fun aad haad => .check
      (fun payload hpayload => .check (fun _ _ => .check (fun _ hpast => ?_) rfl) rfl) rfl) rfl) rfl)
        rfl) rfl) rfl) rfl) rfl)
  refine .bind (.modify (P := fun _ e => e = _) rfl) ?_
  rintro _ _ rfl
  simp only [ok_iff, not_not, not_or] at hkind hstream hdirection hpast
  subst hkind hstream
  have hmade := TrafficKey.decrypt_eq_ok (mapError_eq_ok.mp hpayload)
  rw [Aead.decryptMade_eq_some] at hmade
  refine .pure ⟨⟨⟨_, hmade.1, mapError_eq_ok.mp haad, rfl, rfl, hmade.2⟩, rfl, ?_, ?_,
    Cursor.past_of_not_any hpast, rfl⟩, rfl, rfl, keyframe_eq_false (mapError_eq_ok.mp haad)⟩
  · rw [hdirection.1]
    exact directRole_peer_ne hrole
  · have hcontext := mapError_eq_ok.mp hvalid
    simp only [validateEncryptedMediaFrame, canonicalMediaE2eeContext_self, ok_iff, not_or, not_not,
      Except.ok.injEq, exists_eq_left'] at hcontext
    obtain ⟨_, -, -, -, -, -, -, -, -, -, hepoch, -⟩ := hcontext
    exact hepoch

end Payloads

section Frames

open MediaE2eeSession DirectMedia

theorem sealAudio_ends :
    (sealAudio cipher answers nonce descriptor input).Ends endpoint
      (fun frame endpoint' => ∃ box, Sends cipher endpoint
        (audioRecord endpoint.session.context.keyEpoch input) frame box endpoint')
      (· = endpoint) := by
  unfold sealAudio
  refine .check (fun _ hvalid => .read (.check (fun _ _ => ?_) rfl)) rfl
  simp only [ok_iff, validateAudioFrameForStream, not_or, not_not, not_lt] at hvalid
  obtain ⟨-, -, -, -, -, hlen, -, -, hstream, -⟩ := hvalid
  rw [← hstream]
  exact sealPayload_ends (hlen.trans (by decide))

theorem sealVideo_ends :
    (sealVideo cipher answers nonce descriptor input).Ends endpoint
      (fun frame endpoint' => ∃ box, Sends cipher endpoint
        (videoRecord endpoint.session.context.keyEpoch input) frame box endpoint')
      (· = endpoint) := by
  unfold sealVideo
  refine .check (fun _ hvalid => .read (.check (fun _ _ => ?_) rfl)) rfl
  simp only [ok_iff, validateVideoFrameForStream, not_or, not_not, not_lt] at hvalid
  obtain ⟨-, -, -, -, -, hlen, -, -, hstream, -⟩ := hvalid
  rw [← hstream]
  exact sealPayload_ends hlen

variable [DecidableEq Key]

theorem openAudio_ends :
    (openAudio cipher answers descriptor frame).Ends endpoint
      (fun output endpoint' => Accepts cipher endpoint frame
        (audioRecord endpoint.session.context.keyEpoch output) endpoint')
      (fun endpoint' => endpoint' = endpoint ∨ ∃ record,
        Accepts cipher endpoint frame record endpoint') := by
  unfold openAudio
  refine .read (.check (fun _ _ => ?_) (.inl rfl))
  refine .bind (openPayload_ends.weaken (fun _ _ h => h) fun _ h => .inl h) ?_
  rintro payload endpoint' ⟨haccepts, hkind, hstream, hkeyframe⟩
  refine .check (fun _ _ => .pure ?_) (.inr ⟨_, haccepts⟩)
  convert haccepts using 1
  rw [audioRecord, recordOf, hkind, hkeyframe rfl, hstream, ← haccepts.epoch]
  rfl

theorem openVideo_ends :
    (openVideo cipher answers descriptor frame).Ends endpoint
      (fun output endpoint' => Accepts cipher endpoint frame
        (videoRecord endpoint.session.context.keyEpoch output) endpoint')
      (fun endpoint' => endpoint' = endpoint ∨ ∃ record,
        Accepts cipher endpoint frame record endpoint') := by
  unfold openVideo
  refine .read (.check (fun _ _ => ?_) (.inl rfl))
  refine .bind (openPayload_ends.weaken (fun _ _ h => h) fun _ h => .inl h) ?_
  rintro payload endpoint' ⟨haccepts, hkind, hstream, -⟩
  refine .check (fun _ _ => .pure ?_) (.inr ⟨_, haccepts⟩)
  convert haccepts using 1
  rw [videoRecord, recordOf, hkind, hstream, ← haccepts.epoch]
  rfl

end Frames

namespace DirectMedia

variable {media media' : DirectMedia Key} {side : Side} {call : DirectMediaCall Key}
  {record : MediaRecord} {endpoint' : Endpoint Key}

inductive Effect (cipher : TrafficCipher Key) (media : DirectMedia Key) (side : Side)
    (call : DirectMediaCall Key) : DirectMedia Key → Prop
  | nothing : Effect cipher media side call media
  | sent (record : MediaRecord) (frame : EncryptedMediaFrame) (box : Aead.Box Key AeadNonce)
      (endpoint' : Endpoint Key) (asked : call.asked = none)
      (sends : Sends cipher (media.endpoint side) record frame box endpoint') :
      Effect cipher media side call ((media.leave side endpoint').sendRecord side record (.ok frame))
  | skipped (record : MediaRecord) (frame : EncryptedMediaFrame) (endpoint' : Endpoint Key)
      (asked : call.asked = some frame)
      (accepts : Accepts cipher (media.endpoint side) frame record endpoint') :
      Effect cipher media side call (media.leave side endpoint')
  | opened (record : MediaRecord) (frame : EncryptedMediaFrame) (endpoint' : Endpoint Key)
      (asked : call.asked = some frame)
      (accepts : Accepts cipher (media.endpoint side) frame record endpoint') :
      Effect cipher media side call ((media.leave side endpoint').openRecord side (.ok record))
  | rotated (session : MediaE2eeSession Key) (asked : call.asked = none)
      (same : session.localPrincipal = (media.session side).localPrincipal)
      (later : media.epoch side < session.context.keyEpoch)
      (cleared : session.outboundSequences = ∅ ∧ session.inboundSequences = ∅) :
      Effect cipher media side call (media.leave side ⟨session, media.made⟩)

@[simp]
theorem leave_endpoint : media.leave side (media.endpoint side) = media := by
  simp [leave, endpoint]

theorem rotate_eq_ok
    (h : session.rotate answers nextContext nextSession initiatorEphemeral responderEphemeral =
      .ok session') :
    session'.localPrincipal = session.localPrincipal ∧
      session.context.keyEpoch < session'.context.keyEpoch ∧
      session'.outboundSequences = ∅ ∧ session'.inboundSequences = ∅ := by
  simp only [MediaE2eeSession.rotate, ok_iff, not_not] at h
  obtain ⟨canonical, -, -, -, epoch, hepoch, -, hnext, -, -, -, -, -, -, -, -, -, -, -, -, -, -, -, -,
    rfl⟩ := h
  exact ⟨rfl, hnext ▸ U64.lt_of_checkedSucc hepoch, rfl, rfl⟩

theorem sent_effect {m : MediaCall Key EncryptedMediaFrame} (hasked : call.asked = none)
    (h : m.Ends (media.endpoint side)
      (fun frame endpoint' => ∃ box,
        Sends cipher (media.endpoint side) record frame box endpoint')
      (· = media.endpoint side)) :
    Effect cipher media side call ((media.leave side (m.run (media.endpoint side)).2).sendRecord side
      record (m.run (media.endpoint side)).1) := by
  rcases hrun : m.run (media.endpoint side) with ⟨_ | frame, endpoint'⟩
  case error =>
    obtain rfl := h.error _ _ hrun
    rw [leave_endpoint]
    exact .nothing
  case ok =>
    obtain ⟨box, hsends⟩ := h.ok _ _ hrun
    exact .sent record frame box endpoint' hasked hsends

theorem opened_effect {α : Type} {m : MediaCall Key α} {view : α → MediaRecord}
    (hasked : call.asked = some frame)
    (h : m.Ends (media.endpoint side)
      (fun output endpoint' => Accepts cipher (media.endpoint side) frame (view output) endpoint')
      (fun endpoint' => endpoint' = media.endpoint side ∨ ∃ record,
        Accepts cipher (media.endpoint side) frame record endpoint')) :
    Effect cipher media side call ((media.leave side (m.run (media.endpoint side)).2).openRecord side
      (view <$> (m.run (media.endpoint side)).1)) := by
  rcases hrun : m.run (media.endpoint side) with ⟨_ | output, endpoint'⟩
  case error =>
    obtain rfl | ⟨record, haccepts⟩ := h.error _ _ hrun
    · rw [leave_endpoint]
      exact .nothing
    · exact .skipped record frame endpoint' hasked haccepts
  case ok => exact .opened (view output) frame endpoint' hasked (h.ok _ _ hrun)

section Invariant

-- A side has sent the box, in a frame under its own name.
def Sent (cipher : TrafficCipher Key) (media : DirectMedia Key) (box : Aead.Box Key AeadNonce) :
    Prop :=
  ∃ side record frame, (record, frame) ∈ media.sent side ∧
    CarriedBy cipher frame record.payload box ∧ record = recordOf frame.header record.payload ∧
    frame.header.source = (media.session side).localPrincipal.principal

theorem Sent.mono (h : Sent cipher media box) (hsent : ∀ side, media.sent side ⊆ media'.sent side)
    (hlocal : ∀ side, (media'.session side).localPrincipal = (media.session side).localPrincipal) :
    Sent cipher media' box := by
  obtain ⟨side, record, frame, hmem, hcarried, hrecord, hsource⟩ := h
  exact ⟨side, record, frame, hsent side hmem, hcarried, hrecord, hlocal side ▸ hsource⟩

-- The cursors of a session know what it has sent and opened.
structure Kept (epoch : U64) (outbound inbound : Table StreamCursorKey U64)
    (sent opened : List MediaRecord) : Prop where
  sent   : Cursor.Tracks mediaNumbering epoch outbound sent
  opened : Cursor.Tracks mediaNumbering epoch inbound opened

structure Authentic (cipher : TrafficCipher Key) (media : DirectMedia Key) : Prop where
  made      : ∀ box ∈ media.made, Sent cipher media box
  kept      : ∀ side, Kept (media.epoch side) (media.session side).outboundSequences
    (media.session side).inboundSequences ((media.sent side).map Prod.fst) (media.opened side)
  delivered : ∀ side, media.opened side ⊆ (media.sent side.other).map Prod.fst

theorem authentic_start : Authentic cipher (start first second) where
  made      := by simp [start]
  kept _    := ⟨.nil, .nil⟩
  delivered := by simp [start]

theorem leave_local
    (h : endpoint'.session.localPrincipal = (media.session side).localPrincipal) (other : Side) :
    ((media.leave side endpoint').session other).localPrincipal =
      (media.session other).localPrincipal := by
  obtain rfl | hne := eq_or_ne other side
  · simpa [leave] using h
  · simp [leave, hne]

theorem Side.eq_other_of_ne (h : other ≠ side) : other = side.other := by
  cases side <;> cases other <;> simp_all [Side.other]

variable (h : Authentic cipher media)
include h

-- Whatever is accepted is exactly what the other side has sent: the session's own frames name
-- another source.
theorem Authentic.accepted
    (haccepts : Accepts cipher (media.endpoint side) frame record endpoint') :
    (record, frame) ∈ media.sent side.other := by
  obtain ⟨box, hbox, hcarried⟩ := haccepts.carried
  obtain ⟨other, record', frame', hsent, hcarried', hrecord', hsource⟩ := h.made box hbox
  obtain ⟨rfl, hpayload⟩ := hcarried.unique hcarried'
  have hne : other ≠ side := by
    rintro rfl
    exact haccepts.source hsource
  have hrecord : record = record' := by rw [haccepts.describes, hrecord', hpayload]
  rw [← Side.eq_other_of_ne hne, hrecord]
  exact hsent

theorem Authentic.sends
    (hsends : Sends cipher (media.endpoint side) record frame box endpoint') :
    Authentic cipher ((media.leave side endpoint').sendRecord side record (.ok frame)) := by
  obtain ⟨hcarried, hdescribes, hsource, hepoch, hpast, rfl⟩ := hsends
  set media' := (media.leave side _).sendRecord side record (.ok frame) with hmedia'
  have hsub : ∀ other, media.sent other ⊆ media'.sent other := by
    intro other
    obtain rfl | hne := eq_or_ne other side
    · simp [hmedia', sendRecord, leave]
    · simp [hmedia', sendRecord, leave, hne]
  have hlocal : ∀ other,
      (media'.session other).localPrincipal = (media.session other).localPrincipal :=
    leave_local rfl
  refine ⟨?_, fun other => ?_, fun other => ?_⟩
  · intro box' hbox'
    obtain hbox' | rfl : box' ∈ media.made ∨ box' = box := by
      simpa [hmedia', sendRecord, leave, endpoint] using hbox'
    · exact (h.made box' hbox').mono hsub hlocal
    · refine ⟨side, record, frame, ?_, hcarried, hdescribes, ?_⟩
      · simp [hmedia', sendRecord, leave]
      · rw [hlocal, hsource]
        rfl
  · obtain rfl | hne := eq_or_ne other side
    · have htake : Cursor.Tracks mediaNumbering _ (Table.put _ record.key record.sequence) _ :=
        (h.kept other).sent.take hepoch hpast
      simpa [hmedia', sendRecord, leave, epoch, endpoint] using Kept.mk htake (h.kept other).opened
    · simpa [hmedia', sendRecord, leave, epoch, hne] using h.kept other
  · exact List.Subset.trans (h.delivered other) (map_subset _ (hsub other.other))

-- Nothing is sent or opened, and the cursors go with what was before.
theorem Authentic.leaves {session}
    (hsame : session.localPrincipal = (media.session side).localPrincipal)
    (hkept : Kept session.context.keyEpoch session.outboundSequences session.inboundSequences
      ((media.sent side).map Prod.fst) (media.opened side)) :
    Authentic cipher (media.leave side ⟨session, media.made⟩) := by
  refine ⟨fun box hbox => ?_, fun other => ?_, h.delivered⟩
  · exact (h.made box hbox).mono (fun _ => List.Subset.refl _) (leave_local hsame)
  · obtain rfl | hne := eq_or_ne other side
    · simpa [leave, epoch] using hkept
    · simpa [leave, epoch, hne] using h.kept other

theorem Authentic.skips
    (haccepts : Accepts cipher (media.endpoint side) frame record endpoint') :
    Authentic cipher (media.leave side endpoint') := by
  obtain ⟨-, -, -, -, hpast, rfl⟩ := haccepts
  exact h.leaves rfl ⟨(h.kept side).sent, (h.kept side).opened.skip hpast⟩

theorem Authentic.opens
    (haccepts : Accepts cipher (media.endpoint side) frame record endpoint') :
    Authentic cipher ((media.leave side endpoint').openRecord side (.ok record)) := by
  have hskips := h.skips haccepts
  have hsent := h.accepted haccepts
  obtain ⟨-, -, -, hepoch, hpast, rfl⟩ := haccepts
  refine ⟨hskips.made, fun other => ?_, fun other => ?_⟩
  · obtain rfl | hne := eq_or_ne other side
    · have htake : Cursor.Tracks mediaNumbering _ (Table.put _ record.key record.sequence) _ :=
        (h.kept other).opened.take hepoch hpast
      simpa [openRecord, leave, epoch, endpoint] using Kept.mk (h.kept other).sent htake
    · simpa [openRecord, leave, epoch, hne] using h.kept other
  · obtain rfl | hne := eq_or_ne other side
    · simp only [openRecord, leave, Function.update_self]
      refine append_subset.mpr ⟨h.delivered other, ?_⟩
      exact cons_subset.mpr ⟨mem_map_of_mem hsent, nil_subset _⟩
    · simpa [openRecord, leave, hne] using h.delivered other

theorem Authentic.rotates {session}
    (hsame : session.localPrincipal = (media.session side).localPrincipal)
    (hlater : media.epoch side < session.context.keyEpoch)
    (hcleared : session.outboundSequences = ∅ ∧ session.inboundSequences = ∅) :
    Authentic cipher (media.leave side ⟨session, media.made⟩) := by
  refine h.leaves hsame ?_
  rw [hcleared.1, hcleared.2]
  exact ⟨(h.kept side).sent.renew hlater, (h.kept side).opened.renew hlater⟩

theorem Authentic.effect
    (heffect : Effect cipher media side call media') : Authentic cipher media' := by
  cases heffect
  case nothing => exact h
  case sent sends => exact h.sends sends
  case skipped accepts => exact h.skips accepts
  case opened accepts => exact h.opens accepts
  case rotated same later cleared => exact h.rotates same later cleared

omit h

-- A frame the session does not accept is refused without a trace.
theorem Effect.refused (heffect : Effect cipher media side call media')
    (hasked : call.asked = some frame)
    (hrefused : ∀ record endpoint', ¬Accepts cipher (media.endpoint side) frame record endpoint') :
    media' = media := by
  cases heffect
  case nothing => rfl
  case sent asked _ | rotated asked _ _ _ => simp [asked] at hasked
  case skipped record frame' endpoint' asked accepts | opened record frame' endpoint' asked accepts =>
    obtain rfl : frame' = frame := Option.mem_unique asked hasked
    exact absurd accepts (hrefused record endpoint')

theorem Effect.epoch_le (heffect : Effect cipher media side call media') :
    media.epoch other ≤ media'.epoch other := by
  obtain rfl | hne := eq_or_ne other side
  case inr =>
    cases heffect <;> simp [sendRecord, openRecord, leave, epoch, hne]
  cases heffect
  case nothing => exact le_rfl
  case sent sends => simp [sends.leaves, sendRecord, leave, epoch, endpoint]
  case skipped accepts => simp [accepts.leaves, leave, epoch, endpoint]
  case opened accepts => simp [accepts.leaves, openRecord, leave, epoch, endpoint]
  case rotated later _ => simpa [leave, epoch] using later.le

end Invariant

variable [DecidableEq Key]

theorem call_effect : Effect cipher media side call (media.call cipher side call) := by
  cases call
  case sealAudio => exact sent_effect rfl sealAudio_ends
  case sealVideo => exact sent_effect rfl sealVideo_ends
  case openAudio => exact opened_effect rfl openAudio_ends
  case openVideo => exact opened_effect rfl openVideo_ends
  case rotate answers nextContext nextSession initiatorEphemeral responderEphemeral =>
    dsimp only [DirectMedia.call]
    split
    case h_1 session hrotate =>
      obtain ⟨hsame, hlater, hcleared⟩ := rotate_eq_ok hrotate
      exact .rotated session rfl hsame hlater hcleared
    case h_2 => exact .nothing

theorem Authentic.run (h : Authentic cipher media) : Authentic cipher (media.run cipher calls) := by
  induction calls generalizing media
  case nil => exact h
  case cons next _ ih => exact ih (h.effect call_effect)

theorem epoch_le_run : media.epoch side ≤ (media.run cipher calls).epoch side := by
  induction calls generalizing media
  case nil => exact le_rfl
  case cons next _ ih =>
    have hstep : Effect cipher media next.1 next.2 (media.call cipher next.1 next.2) := call_effect
    exact hstep.epoch_le.trans ih

theorem call_other_epoch (hasked : call.asked = some frame)
    (hepoch : frame.header.keyEpoch ≠ media.epoch side) : media.call cipher side call = media := by
  refine call_effect.refused hasked fun record endpoint' haccepts => hepoch ?_
  have hrecord := congrArg MediaRecord.keyEpoch haccepts.describes
  exact hrecord.symm.trans haccepts.epoch

theorem Authentic.call_unsent (h : Authentic cipher media) (hasked : call.asked = some frame)
    (hunsent : frame ∉ (media.sent side.other).map Prod.snd) :
    media.call cipher side call = media :=
  call_effect.refused hasked fun _ _ haccepts =>
    hunsent (mem_map_of_mem (h.accepted haccepts))

-- Between two sessions, over any sequence of calls and any frames a network may present: what is
-- opened of a stream in an epoch is, in order, part of what the peer sealed for it in that epoch,
-- none of it twice; after a rotation nothing of the epochs before it is opened; and a frame the
-- peer has not sealed changes nothing.
theorem direct_media_authentic (cipher : TrafficCipher Key) (first second : MediaE2eeSession Key)
    (calls : List (Side × DirectMediaCall Key)) :
    let media := (start first second).run cipher calls
    (∀ side epoch key,
      (mediaNumbering.part epoch key (media.opened side)).Sublist
        (mediaNumbering.part epoch key ((media.sent side.other).map Prod.fst)) ∧
      (mediaNumbering.part epoch key (media.opened side)).Pairwise fun a b => a.sequence < b.sequence) ∧
    (∀ side answers nextContext nextSession initiatorEphemeral responderEphemeral session,
      (media.session side).rotate answers nextContext nextSession initiatorEphemeral
        responderEphemeral = .ok session →
      ∀ more call frame, call.asked = some frame → frame.header.keyEpoch ≤ media.epoch side →
        let later := (media.leave side ⟨session, media.made⟩).run cipher more
        later.call cipher side call = later) ∧
    (∀ side call frame, call.asked = some frame →
      frame ∉ (media.sent side.other).map Prod.snd → media.call cipher side call = media) := by
  intro media
  have h : Authentic cipher media := authentic_start.run
  refine ⟨fun side epoch key => ⟨?_, ?_⟩, ?_, fun side call frame => h.call_unsent⟩
  · exact (h.kept side).opened.increasing.sublist (h.kept side.other).sent.increasing
      (h.delivered side)
  · exact (h.kept side).opened.increasing.part
  · intro side answers nextContext nextSession initiatorEphemeral responderEphemeral session hrotate
      more call frame hasked hle later
    refine call_other_epoch hasked (ne_of_lt ?_)
    have hrotated : media.epoch side < (media.leave side ⟨session, media.made⟩).epoch side := by
      simpa [leave, epoch] using (rotate_eq_ok hrotate).2.1
    exact hle.trans_lt (hrotated.trans_le epoch_le_run)

end DirectMedia

namespace Scenario

-- A cipher that appends the key as a tag.
def plainCipher : TrafficCipher Bool where
  encrypt key _ _ plaintext := plaintext ++ List.replicate aeadTagLen key.toUInt8
  decrypt key _ _ ciphertext :=
    let plaintext := ciphertext.take (ciphertext.length - aeadTagLen)
    if plaintext ++ List.replicate aeadTagLen key.toUInt8 = ciphertext then some plaintext else none
  decrypt_encrypt := by simp
  encrypt_decrypt := by
    intro key _ _ ciphertext plaintext h
    simp only [Option.ite_none_right_eq_some, Option.some.injEq] at h
    rw [← h.2, h.1]
  length_encrypt := by simp

def talk : CallId := named "talk"
def agreement : OpaqueId := named "agreement"

def directContext : CanonicalMediaE2eeContext where
  scope := tenant
  callId := talk
  initiator := alice
  responder := bob
  initiatorDeviceId := alice.principalId
  responderDeviceId := bob.principalId
  negotiationRef := agreement
  negotiationGeneration := 1
  keyEpoch := 1
  cryptoSuite := .ucrV1
  participants := by decide
  devices := by decide
  negotiation := by decide
  epoch := by decide

def sessionOf (principal peer : PrincipalRef) (outbound : Bool) : MediaE2eeSession Bool where
  localPrincipal := ⟨tenant, principal⟩
  localDeviceId := principal.principalId
  context := directContext
  established := ⟨⟨List.replicate 32 1, by decide⟩, outbound, !outbound, some peer.principalId⟩
  usedEphemerals := []
  outboundSequences := ∅
  inboundSequences := ∅

def allowed : MediaAuthority := ⟨.ok (), .ok (), .ok ()⟩

def microphone : AudioStreamDescriptor where
  scope := tenant
  callId := talk
  streamId := named "microphone"
  source := alice
  codec := ⟨opusAudioCodecCapability, 48000, .mono, .ms20⟩
  negotiationRef := agreement
  negotiationGeneration := 1

def spoken (sequence : U64) : EncodedAudioFrame where
  scope := tenant
  callId := talk
  streamId := microphone.streamId
  source := alice
  negotiationRef := agreement
  negotiationGeneration := 1
  sequence := sequence
  mediaTimestampSamples := 960
  payload := [1, 2, 3]

def zeroNonce : AeadNonce := ⟨List.replicate 24 0, by decide⟩

def speak : List (Side × DirectMediaCall Bool) :=
  [7, 8, 9].map fun sequence =>
    (.first, .sealAudio allowed (some zeroNonce) microphone (spoken sequence))

def quiet : DirectMedia Bool :=
  DirectMedia.start (sessionOf alice bob true) (sessionOf bob alice false)

-- The frames are presented to the peer and to their sender, then to the peer once more.
def listen : List (Side × DirectMediaCall Bool) :=
  [Side.second, .first, .second].flatMap fun side =>
    ((quiet.run plainCipher speak).sent .first).map fun entry =>
      (side, .openAudio allowed microphone entry.2)

end Scenario

open Scenario DirectMedia in
theorem direct_media_delivered :
    (quiet.run plainCipher (speak ++ listen)).opened .second =
        [7, 8, 9].map (audioRecord 1 <| spoken ·) ∧
      ∀ epoch key,
        (mediaNumbering.part epoch key
          ((quiet.run plainCipher (speak ++ listen)).opened .second)).Sublist
          (mediaNumbering.part epoch key
            (((quiet.run plainCipher (speak ++ listen)).sent (Side.other .second)).map Prod.fst)) := by
  refine ⟨by decide +kernel, fun epoch key => ?_⟩
  unfold quiet
  exact ((direct_media_authentic plainCipher _ _ (speak ++ listen)).1 .second epoch key).1

end Ucr
