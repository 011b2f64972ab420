import Ucr.Recording.ReadyEvent

-- The identifiers in the name of a ready event are set apart by NUL. That is enough as long as they
-- have none in them.

namespace Ucr

open Encoding Except MemoryState List String

variable {q₁ q₂ request : RecordingProviderRequest} {recording : RecordingSession}
  {event : EventEnvelope}

theorem hexDigits_injective : Function.Injective hexDigits := by
  have hdigit : ∀ a < 16, ∀ b < 16, Nat.digitChar a = Nat.digitChar b → a = b := by decide
  intro l₁ l₂ h
  induction l₁ generalizing l₂
  case nil => cases l₂ <;> simp_all [hexDigits]
  case cons a l₁ ih =>
    cases l₂
    case nil => simp [hexDigits] at h
    case cons b l₂ =>
      simp only [hexDigits, flatMap_cons, cons_append, nil_append, List.cons.injEq] at h
      obtain ⟨hhigh, hlow, hrest⟩ := h
      have ha := a.toNat_lt
      have hb := b.toNat_lt
      have hhigh := hdigit _ (by omega) _ (by omega) hhigh
      have hlow := hdigit _ (by omega) _ (by omega) hlow
      rw [ih hrest, UInt8.toNat_inj.mp (by omega : a.toNat = b.toNat)]

def nul : Char := Char.ofNat 0

theorem split_at_nul (h₁ : nul ∉ s₁) (h₂ : nul ∉ s₂) (h : s₁ ++ nul :: t₁ = s₂ ++ nul :: t₂) :
    s₁ = s₂ ∧ t₁ = t₂ := by
  induction s₁ generalizing s₂
  case nil => cases s₂ <;> simp_all
  case cons c s₁ ih => cases s₂ <;> grind

-- The tenant, the namespace and the recording are named in an alphabet.
structure WrittenIn (alphabet : Set Char) (request : RecordingProviderRequest) : Prop where
  tenant    : ∀ c ∈ request.scope.tenantId.value.toList, c ∈ alphabet
  namespaceId : ∀ id ∈ request.scope.namespaceId, ∀ c ∈ id.value.toList, c ∈ alphabet
  recording : ∀ c ∈ request.recordingId.value.toList, c ∈ alphabet

-- They are for the same stop of the same recording.
def SameStop (q₁ q₂ : RecordingProviderRequest) : Prop :=
  q₁.scope = q₂.scope ∧ q₁.recordingId = q₂.recordingId ∧ q₁.callId = q₂.callId ∧
    q₁.lifecycleRevision = q₂.lifecycleRevision

theorem sameStop_of_readyPreimage (hnul : nul ∉ alphabet) (h₁ : WrittenIn alphabet q₁)
    (h₂ : WrittenIn alphabet q₂) (h : readyPreimage label q₁ = readyPreimage label q₂) :
    SameStop q₁ q₂ := by
  obtain ⟨⟨t₁, n₁⟩, r₁, c₁, v₁⟩ := q₁
  obtain ⟨⟨t₂, n₂⟩, r₂, c₂, v₂⟩ := q₂
  have hfree {s : String} (hs : ∀ c ∈ s.toList, c ∈ alphabet) : nul ∉ s.toList :=
    fun hmem => hnul (hs _ hmem)
  have hzero : "\x00".toList = [nul] := rfl
  have hone : "\x01".toList = [Char.ofNat 1] := rfl
  obtain ⟨htext, hrevision⟩ := append_inj' h (by simp)
  have hchars := congrArg String.toList (utf8_injective htext)
  unfold readyText at hchars
  simp only [toList_append, List.append_assoc, append_cancel_left_eq, hzero, cons_append,
    nil_append, List.cons.injEq, true_and] at hchars
  obtain ⟨htenant, hscoped⟩ := split_at_nul (hfree h₁.tenant) (hfree h₂.tenant) hchars
  have hnamespace : n₁ = n₂ ∧ r₁.value.toList ++ nul :: c₁.value.toList =
      r₂.value.toList ++ nul :: c₂.value.toList := by
    cases n₁ <;> cases n₂
    case none.none => exact ⟨rfl, by simpa [hzero] using hscoped⟩
    case none.some => simp [hzero, hone, nul] at hscoped
    case some.none => simp [hzero, hone, nul] at hscoped
    case some.some n₁ n₂ =>
      simp only [Option.elim_some, toList_append, List.append_assoc, append_cancel_left_eq] at hscoped
      obtain ⟨hid, hrest⟩ :=
        split_at_nul (hfree (h₁.namespaceId n₁ rfl)) (hfree (h₂.namespaceId n₂ rfl)) hscoped
      exact ⟨congrArg some (OpaqueId.ext (toList_inj.mp hid)), hrest⟩
  obtain ⟨rfl, hrest⟩ := hnamespace
  obtain ⟨hrecording, hcall⟩ := split_at_nul (hfree h₁.recording) (hfree h₂.recording) hrest
  obtain rfl : t₁ = t₂ := OpaqueId.ext (toList_inj.mp htenant)
  exact ⟨rfl, OpaqueId.ext (toList_inj.mp hrecording), OpaqueId.ext (toList_inj.mp hcall),
    Fin.ext (beBytes_inj v₁.isLt v₂.isLt hrevision)⟩

theorem eventId_eq
    (h : recordingProviderReadyEvent recording request readyAtUnixMs recovered = .ok event) :
    derivedRecordingReadyId "event" request = .ok event.eventId := by
  simp only [recordingProviderReadyEvent, ok_iff] at h
  obtain ⟨-, -, eventId, heventId, -, -, -, -, -, -, rfl⟩ := h
  exact heventId

theorem digest_of_derivedRecordingReadyId {id : OpaqueId}
    (h₁ : derivedRecordingReadyId label q₁ = .ok id)
    (h₂ : derivedRecordingReadyId label q₂ = .ok id) :
    sha256 (readyPreimage label q₁) = sha256 (readyPreimage label q₂) := by
  simp only [derivedRecordingReadyId, ok_iff, OpaqueId.new, Option.dite_none_right_eq_some,
    Option.some.injEq] at h₁ h₂
  obtain ⟨_, rfl⟩ := h₁
  obtain ⟨_, h₂⟩ := h₂
  have hhex := ofList_inj.mp (String.append_right_inj _ |>.mp (congrArg OpaqueId.value h₂))
  exact (Digest.mk.injEq ..).mpr (hexDigits_injective hhex).symm

-- Ready events of different stops have different names, provided that their hashes do not collide.
def ReadyEventsApart (alphabet : Set Char) : Prop :=
  ∀ r₁ r₂ q₁ q₂ t₁ t₂ recovered₁ recovered₂ e₁ e₂, WrittenIn alphabet q₁ → WrittenIn alphabet q₂ →
    recordingProviderReadyEvent r₁ q₁ t₁ recovered₁ = .ok e₁ →
    recordingProviderReadyEvent r₂ q₂ t₂ recovered₂ = .ok e₂ →
    (sha256 (readyPreimage "event" q₁) = sha256 (readyPreimage "event" q₂) →
      readyPreimage "event" q₁ = readyPreimage "event" q₂) →
    (e₁.eventId = e₂.eventId ↔ SameStop q₁ q₂)

namespace Scenario

def stoppedTape (recordingId : RecordingId) (callId : CallId) : RecordingSession where
  scope := ⟨named "\x00", none⟩
  recordingId := recordingId
  callId := callId
  requestedBy := alice
  policy := ⟨false, true, 60, none⟩
  state := .stopped
  consents := []
  requestedAtUnixMs := 0
  startedAtUnixMs := some 1
  stoppedAtUnixMs := some 2
  expiresAtUnixMs := 60000
  revision := 3

def longTape : RecordingSession := stoppedTape (named "\x00\x00") (named "\x00")
def shortTape : RecordingSession := stoppedTape (named "\x00") (named "\x00\x00")

def readyEvent (tape : RecordingSession) : Except CanonicalErrorCode EventEnvelope :=
  recordingProviderReadyEvent tape (.forSession tape .stop) 5 false

end Scenario

open Scenario

theorem tapes_collide :
    readyPreimage "event" (.forSession longTape .stop) =
      readyPreimage "event" (.forSession shortTape .stop) := by
  decide +kernel

theorem ready_events_apart_iff (alphabet : Set Char) : ReadyEventsApart alphabet ↔ nul ∉ alphabet := by
  constructor
  · intro h hnul
    have hlong : (readyEvent longTape).isOk := by decide +kernel
    have hshort : (readyEvent shortTape).isOk := by decide +kernel
    have hnuls : ∀ text ∈ ["\x00", "\x00\x00"], ∀ c ∈ text.toList, c = nul := by simp [nul]
    have hin (text) (h : text ∈ ["\x00", "\x00\x00"]) : ∀ c ∈ text.toList, c ∈ alphabet :=
      fun c hc => hnuls text h c hc ▸ hnul
    rcases h₁ : readyEvent longTape with _ | e₁
    · simp [h₁, isOk, Except.toBool] at hlong
    rcases h₂ : readyEvent shortTape with _ | e₂
    · simp [h₂, isOk, Except.toBool] at hshort
    have hsame : SameStop (.forSession longTape .stop) (.forSession shortTape .stop) := by
      refine (h longTape shortTape _ _ 5 5 false false e₁ e₂ ?_ ?_ h₁ h₂ fun _ => tapes_collide).mp ?_
      · exact ⟨hin "\x00" (by simp), nofun, hin "\x00\x00" (by simp)⟩
      · exact ⟨hin "\x00" (by simp), nofun, hin "\x00" (by simp)⟩
      · have hid := eventId_eq h₂
        rw [derivedRecordingReadyId, ← tapes_collide] at hid
        exact ok.inj ((eventId_eq h₁).symm.trans hid)
    exact absurd hsame.2.1 (by decide)
  · intro hnul r₁ r₂ q₁ q₂ t₁ t₂ recovered₁ recovered₂ e₁ e₂ hin₁ hin₂ h₁ h₂ hfree
    have hid₁ := eventId_eq h₁
    have hid₂ := eventId_eq h₂
    constructor
    · intro heq
      rw [← heq] at hid₂
      exact sameStop_of_readyPreimage hnul hin₁ hin₂
        (hfree (digest_of_derivedRecordingReadyId hid₁ hid₂))
    · rintro ⟨hscope, hrecording, hcall, hrevision⟩
      have hsame : derivedRecordingReadyId "event" q₁ = derivedRecordingReadyId "event" q₂ := by
        unfold derivedRecordingReadyId readyPreimage readyText
        rw [hscope, hrecording, hcall, hrevision]
      exact ok.inj (hid₁.symm.trans (hsame.trans hid₂))

-- Once the first recording is told to be ready, the second one never is.
theorem short_tape_is_refused :
    longTape.scope = shortTape.scope ∧ longTape.recordingId ≠ shortTape.recordingId ∧
      (do
        let e₁ ← (readyEvent longTape).toOption
        let e₂ ← (readyEvent shortTape).toOption
        let (_, s) ← (empty.appendEvent e₁).toOption
        return (decide (e₁.eventId = e₂.eventId), (s.appendEvent e₂).map Prod.fst)) =
      some (true, .error .conflict) := by
  decide +kernel

end Ucr
