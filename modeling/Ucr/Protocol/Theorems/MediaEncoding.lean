import Ucr.Protocol.Media
import Ucr.Protocol.Theorems.AuditEncoding

-- What an encrypted frame is authenticated with can be read back: every field of its header.

namespace Ucr

open Except Encoding Call List

theorem selfDelimiting_pushId : SelfDelimiting fun id : OpaqueId => pushBytes id.asWireBytes :=
  Audit.selfDelimiting_id

theorem selfDelimiting_pushScope : SelfDelimiting pushScope := by
  have heq : pushScope = Audit.hashScope := by
    funext scope
    obtain ⟨tenantId, _ | namespaceId⟩ := scope <;> rfl
  rw [heq]
  exact Audit.selfDelimiting_scope

theorem principalKindByte_injective :
    Function.Injective fun kind => UInt8.ofNat (principalKindCode kind) := by
  intro a b h
  cases a <;> cases b <;> first | rfl | (simp [principalKindCode] at h)

theorem selfDelimiting_pushPrincipal : SelfDelimiting pushPrincipal := by
  intro a b s t h
  simp only [pushPrincipal, cons_append, List.cons.injEq] at h
  obtain ⟨hkind, h⟩ := h
  obtain ⟨hid, hrest⟩ := selfDelimiting_pushId h
  refine ⟨?_, hrest⟩
  cases a
  cases b
  simp_all [principalKindByte_injective.eq_iff]

theorem selfDelimiting_u64 : SelfDelimiting fun n : U64 => beBytes 8 n :=
  selfDelimiting_of_length (fun _ => length_beBytes)
    fun a b h => Fin.ext (beBytes_inj (by omega) (by omega) h)

theorem selfDelimiting_digest : SelfDelimiting Digest.bytes := by
  refine selfDelimiting_of_length Digest.length_eq ?_
  rintro ⟨_, _⟩ ⟨_, _⟩ rfl
  rfl

theorem selfDelimiting_mediaKind : SelfDelimiting fun kind : MediaKind => [kind.code] := by
  refine selfDelimiting_of_length (fun _ => length_singleton) fun a b h => ?_
  cases a <;> cases b <;> simp_all [MediaKind.code]

theorem boolByte_injective : Function.Injective boolByte := by
  intro a b h
  cases a <;> cases b <;> simp_all [boolByte]

theorem mediaE2eeHeaderBytes_injective : Function.Injective mediaE2eeHeaderBytes := by
  intro a b h
  simp only [mediaE2eeHeaderBytes, append_assoc] at h
  obtain ⟨hscope, h⟩ := selfDelimiting_pushScope h
  obtain ⟨hcall, h⟩ := selfDelimiting_pushId h
  obtain ⟨hstream, h⟩ := selfDelimiting_pushId h
  obtain ⟨hsource, h⟩ := selfDelimiting_pushPrincipal h
  obtain ⟨hrecipient, h⟩ := selfDelimiting_pushPrincipal h
  obtain ⟨hnegotiation, h⟩ := selfDelimiting_pushId h
  obtain ⟨hgeneration, h⟩ := selfDelimiting_u64 h
  obtain ⟨hepoch, h⟩ := selfDelimiting_u64 h
  have hsuite : a.cryptoSuite = b.cryptoSuite := by cases a.cryptoSuite; cases b.cryptoSuite; rfl
  rw [hsuite] at h
  obtain ⟨hbinding, h⟩ := selfDelimiting_digest (append_cancel_left h)
  obtain ⟨hkind, h⟩ := selfDelimiting_mediaKind h
  obtain ⟨hsequence, h⟩ := selfDelimiting_u64 h
  obtain ⟨htimestamp, h⟩ := selfDelimiting_u64 h
  have hkeyframe := boolByte_injective (singleton_inj.mp h)
  cases a
  cases b
  simp_all

variable {header header' : MediaE2eeFrameHeader} {aad : Bytes}

theorem mediaE2eeFrameAad_inj (h : mediaE2eeFrameAad header = .ok aad)
    (h' : mediaE2eeFrameAad header' = .ok aad) : header = header' := by
  simp only [mediaE2eeFrameAad, ok_iff, exists_const] at h h'
  obtain ⟨-, -, -, -, h⟩ := h
  obtain ⟨-, -, -, -, h'⟩ := h'
  exact mediaE2eeHeaderBytes_injective (append_cancel_left (h.trans h'.symm))

section Group

variable {header header' : GroupMediaFrameHeader} {aad aad' : Bytes}
  {ciphertext ciphertext' : Bytes}

-- The part all versions share determines its fields and leaves the rest.
theorem groupMediaHeaderBytes_read
    (h : groupMediaHeaderBytes header ++ s = groupMediaHeaderBytes header' ++ t) :
    { header with
      headerVersion := header'.headerVersion, videoSourceKind := header'.videoSourceKind,
      sequence := header'.sequence, mediaTimestamp := header'.mediaTimestamp,
      keyframe := header'.keyframe } = header' ∧ s = t := by
  simp only [groupMediaHeaderBytes, append_assoc] at h
  obtain ⟨hscope, h⟩ := selfDelimiting_pushScope h
  obtain ⟨hcall, h⟩ := selfDelimiting_pushId h
  obtain ⟨hgroup, h⟩ := selfDelimiting_pushId h
  obtain ⟨hstream, h⟩ := selfDelimiting_pushId h
  obtain ⟨hsource, h⟩ := selfDelimiting_pushPrincipal h
  obtain ⟨hdevice, h⟩ := selfDelimiting_pushId h
  obtain ⟨hnegotiation, h⟩ := selfDelimiting_pushId h
  obtain ⟨hgeneration, h⟩ := selfDelimiting_u64 h
  obtain ⟨hepoch, h⟩ := selfDelimiting_u64 h
  obtain ⟨hstate, h⟩ := selfDelimiting_pushId h
  have hsuite : header.cryptoSuite = header'.cryptoSuite := by
    cases header.cryptoSuite
    cases header'.cryptoSuite
    rfl
  rw [hsuite] at h
  obtain ⟨hkind, h⟩ := selfDelimiting_mediaKind (append_cancel_left h)
  refine ⟨?_, h⟩
  cases header
  cases header'
  simp_all

theorem groupMediaTrailerBytes_inj
    (h : groupMediaTrailerBytes header = groupMediaTrailerBytes header') :
    header.sequence = header'.sequence ∧ header.mediaTimestamp = header'.mediaTimestamp ∧
      header.keyframe = header'.keyframe := by
  simp only [groupMediaTrailerBytes, append_assoc] at h
  obtain ⟨hsequence, h⟩ := selfDelimiting_u64 h
  obtain ⟨htimestamp, h⟩ := selfDelimiting_u64 h
  exact ⟨hsequence, htimestamp, boolByte_injective (singleton_inj.mp h)⟩

-- What the source of a frame is follows from the kind of media and, in the second version, a code.
theorem videoSourceKind_eq (h : validateMediaSourceKind header = .ok ())
    (h' : validateMediaSourceKind header' = .ok ()) (hkind : header.mediaKind = header'.mediaKind)
    (hversion : header.headerVersion = header'.headerVersion)
    (hcode : header.headerVersion = groupMediaFrameHeaderV2 →
      mediaSourceKindCode header = mediaSourceKindCode header') :
    header.videoSourceKind = header'.videoSourceKind := by
  unfold validateMediaSourceKind at h h'
  unfold mediaSourceKindCode at hcode
  rw [hkind, hversion] at h hcode
  generalize header.videoSourceKind = kind at *
  generalize header'.videoSourceKind = kind' at *
  generalize header'.mediaKind = mediaKind at *
  generalize header'.headerVersion = version at *
  split at h
  case isFalse => simp at h
  case isTrue hknown =>
    rw [if_pos hknown] at h'
    rcases mediaKind <;> rcases kind with _ | _ | _ <;> rcases kind' with _ | _ | _ <;> simp_all

theorem groupMediaFrameAad_eq_ok : groupMediaFrameAad header = .ok aad →
    validateMediaSourceKind header = .ok () ∧
      ((header.headerVersion = groupMediaFrameHeaderV1 ∧
        aad = groupMediaFrameAadV1Domain ++ (groupMediaHeaderBytes header ++
          groupMediaTrailerBytes header)) ∨
      (header.headerVersion = groupMediaFrameHeaderV2 ∧
        aad = groupMediaFrameAadV2Domain ++ (groupMediaHeaderBytes header ++
          ([mediaSourceKindCode header] ++ groupMediaTrailerBytes header)))) := by
  intro h
  simp only [groupMediaFrameAad, ok_iff, exists_const] at h
  obtain ⟨-, -, -, ⟨⟩, hsource, h⟩ := h
  refine ⟨hsource, ?_⟩
  split at h
  case isTrue hversion => exact .inl ⟨hversion, by rw [← pure_eq_ok.mp h, append_assoc]⟩
  case isFalse =>
    split at h
    case isTrue hversion => exact .inr ⟨hversion, by simp [← pure_eq_ok.mp h]⟩
    case isFalse => simp at h

theorem groupMediaDomains_distinct :
    groupMediaFrameAadV1Domain.length = groupMediaFrameAadV2Domain.length ∧
      groupMediaFrameAadV1Domain ≠ groupMediaFrameAadV2Domain := by
  decide +kernel

theorem groupMediaFrameAad_inj (h : groupMediaFrameAad header = .ok aad)
    (h' : groupMediaFrameAad header' = .ok aad) : header = header' := by
  obtain ⟨hlength, hdomains⟩ := groupMediaDomains_distinct
  obtain ⟨hsource, ⟨hversion, haad⟩ | ⟨hversion, haad⟩⟩ := groupMediaFrameAad_eq_ok h <;>
    obtain ⟨hsource', ⟨hversion', haad'⟩ | ⟨hversion', haad'⟩⟩ := groupMediaFrameAad_eq_ok h' <;>
    rw [haad] at haad'
  case inl.inr => exact absurd (append_inj haad' hlength).1 hdomains
  case inr.inl => exact absurd (append_inj haad' hlength.symm).1 hdomains.symm
  case inl.inl =>
    obtain ⟨hheader, htrailer⟩ := groupMediaHeaderBytes_read (append_cancel_left haad')
    obtain ⟨hsequence, htimestamp, hkeyframe⟩ := groupMediaTrailerBytes_inj htrailer
    have hkind : header.mediaKind = header'.mediaKind := by rw [← hheader]
    have hvideo := videoSourceKind_eq hsource hsource' hkind (hversion.trans hversion'.symm)
      fun hv2 => absurd (hversion.symm.trans hv2) (by decide)
    rw [← hheader, ← hversion.trans hversion'.symm, ← hvideo, ← hsequence, ← htimestamp, ← hkeyframe]
  case inr.inr =>
    obtain ⟨hheader, htrailer⟩ := groupMediaHeaderBytes_read (append_cancel_left haad')
    obtain ⟨hcode, htrailer⟩ := append_inj htrailer rfl
    obtain ⟨hsequence, htimestamp, hkeyframe⟩ := groupMediaTrailerBytes_inj htrailer
    have hkind : header.mediaKind = header'.mediaKind := by rw [← hheader]
    have hvideo := videoSourceKind_eq hsource hsource' hkind (hversion.trans hversion'.symm)
      fun _ => singleton_inj.mp hcode
    rw [← hheader, ← hversion.trans hversion'.symm, ← hvideo, ← hsequence, ← htimestamp, ← hkeyframe]

section Lengths

theorem length_pushId {id : OpaqueId} : (pushBytes id.asWireBytes).length ≤ 132 := by
  have := id.bounded
  simp only [OpaqueId.maxLen] at this
  simp only [pushBytes, lengthPrefixed, length_append, length_beBytes, OpaqueId.asWireBytes,
    Audit.length_utf8]
  omega

theorem length_pushScope : (pushScope scope).length ≤ 265 := by
  have htenant : (pushBytes scope.tenantId.asWireBytes).length ≤ 132 := length_pushId
  unfold pushScope
  split
  case h_1 namespaceId _ =>
    have : (pushBytes namespaceId.asWireBytes).length ≤ 132 := length_pushId
    simp only [length_append, length_cons]
    omega
  case h_2 =>
    simp only [length_append, length_singleton]
    omega

theorem length_pushPrincipal : (pushPrincipal principal).length ≤ 133 := by
  have : (pushBytes principal.principalId.asWireBytes).length ≤ 132 := length_pushId
  simp only [pushPrincipal, length_cons]
  omega

theorem length_groupMediaFrameAad (h : groupMediaFrameAad header = .ok aad) :
    aad.length < 256 ^ 8 := by
  have hscope : (pushScope header.scope).length ≤ 265 := length_pushScope
  have hcall : (pushBytes header.callId.asWireBytes).length ≤ 132 := length_pushId
  have hgroup : (pushBytes header.groupId.asWireBytes).length ≤ 132 := length_pushId
  have hstream : (pushBytes header.streamId.asWireBytes).length ≤ 132 := length_pushId
  have hsource : (pushPrincipal header.source).length ≤ 133 := length_pushPrincipal
  have hdevice : (pushBytes header.sourceDeviceId.asWireBytes).length ≤ 132 := length_pushId
  have hnegotiation : (pushBytes header.negotiationRef.asWireBytes).length ≤ 132 := length_pushId
  have hstate : (pushBytes header.cryptoStateRef.asWireBytes).length ≤ 132 := length_pushId
  have hfirst : groupMediaFrameAadV1Domain.length = 29 := by decide +kernel
  have hsecond : groupMediaFrameAadV2Domain.length = 29 := by decide +kernel
  obtain ⟨-, ⟨-, rfl⟩ | ⟨-, rfl⟩⟩ := groupMediaFrameAad_eq_ok h <;>
    simp only [groupMediaHeaderBytes, groupMediaTrailerBytes, length_append, length_beBytes,
      length_singleton, hfirst, hsecond] <;>
    omega

end Lengths

theorem groupMediaSigningText_inj (haad : aad.length < 256 ^ 8) (haad' : aad'.length < 256 ^ 8)
    (hlen : ciphertext.length < 256 ^ 8) (hlen' : ciphertext'.length < 256 ^ 8)
    (h : groupMediaSigningText aad nonce ciphertext = groupMediaSigningText aad' nonce' ciphertext') :
    aad = aad' ∧ nonce = nonce' ∧ ciphertext = ciphertext' := by
  have hread : SelfDelimiting fun text : { bytes : Bytes // bytes.length < 256 ^ 8 } =>
      lengthPrefixed 8 text.val :=
    selfDelimiting_lengthPrefixed Subtype.val_injective fun text => text.2
  simp only [groupMediaSigningText, append_assoc] at h
  have h := append_cancel_left h
  obtain ⟨htext, h⟩ := @hread ⟨aad, haad⟩ ⟨aad', haad'⟩ _ _ h
  obtain ⟨hnonce, h⟩ := append_inj h (nonce.2.trans nonce'.2.symm)
  obtain ⟨hciphertext, -⟩ := @hread ⟨ciphertext, hlen⟩ ⟨ciphertext', hlen'⟩ [] [] (by simpa using h)
  exact ⟨congrArg Subtype.val htext, Subtype.ext hnonce, congrArg Subtype.val hciphertext⟩

end Group

end Ucr
