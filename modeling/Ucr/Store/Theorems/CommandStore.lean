import Ucr.Protocol.Theorems.CanonicalMessage
import Ucr.Store.EventStore

-- What accepting a command does to the tables of accepted commands: a command is added under a key
-- and an identifier that were free, or nothing changes.

namespace Ucr

open Except

variable {command canonical original incoming : CommandEnvelope} {receipt : CommandReceipt}
variable {key : TenantScope × String} {s s' : MemoryState}

namespace CommandEnvelope

-- The canonical form of a command: only the order of its extensions changes.
def ordered (command : CommandEnvelope) : CommandEnvelope :=
  { command with extensions := command.extensions.sortOn (·.name) }

@[simp]
theorem ordered_ordered : command.ordered.ordered = command.ordered := by
  simp [ordered]

-- What makes a repeated command the same one.
structure SameContent (original incoming : CommandEnvelope) : Prop where
  commandType : original.commandType = incoming.commandType
  payload : original.payload = incoming.payload
  schemaVersion : original.schemaVersion = incoming.schemaVersion
  extensions : original.ordered.extensions = incoming.ordered.extensions

def withKey (command : CommandEnvelope) (idempotencyKey : String) : CommandEnvelope :=
  { command with correlation := { command.correlation with idempotencyKey := some idempotencyKey } }

end CommandEnvelope

theorem validateCommand_eq_ok (h : validateCommand command = .ok ()) :
    ∃ idempotencyKey, command.correlation.idempotencyKey = some idempotencyKey ∧
      canonicalProtocolExtensions command.extensions = .ok command.ordered.extensions := by
  simp only [validateCommand, ok_iff] at h
  obtain ⟨-, -, idempotencyKey, hkey, -, -, -, -, -, -, -, -, extensions, hextensions, -⟩ := h
  obtain rfl := canonicalProtocolExtensions_eq hextensions
  exact ⟨idempotencyKey, hkey, hextensions⟩

theorem canonicalCommand_eq_ok :
    canonicalCommand command = .ok canonical ↔
      validateCommand command = .ok () ∧ canonical = command.ordered := by
  simp only [canonicalCommand, ok_iff]
  constructor
  · rintro ⟨_, hvalid, extensions, hextensions, rfl⟩
    obtain rfl := canonicalProtocolExtensions_eq hextensions
    exact ⟨hvalid, rfl⟩
  · rintro ⟨hvalid, rfl⟩
    obtain ⟨-, -, hextensions⟩ := validateCommand_eq_ok hvalid
    exact ⟨(), hvalid, _, hextensions, rfl⟩

@[simp]
theorem validateCommand_ordered :
    validateCommand command.ordered = .ok () ↔ validateCommand command = .ok () := by
  simp only [validateCommand, CommandEnvelope.ordered, bind_eq_ok, mapError_eq_ok,
    canonicalProtocolExtensions_sortOn]
  exact Iff.rfl

section Receipts

theorem compareCommandIdempotency_eq_some {id : CommandId} :
    compareCommandIdempotency original incoming = .ok (some id) ↔
      validateCommand original = .ok () ∧ validateCommand incoming = .ok () ∧
      original.scope = incoming.scope ∧
      original.correlation.idempotencyKey = incoming.correlation.idempotencyKey ∧
      original.SameContent incoming ∧ original.commandId = id := by
  simp only [compareCommandIdempotency, ok_iff, canonicalCommand_eq_ok]
  constructor
  · rintro ⟨_, ⟨horiginal, rfl⟩, _, ⟨hincoming, rfl⟩, h⟩
    split at h
    case isTrue => simp at h
    case isFalse hsame =>
      simp only [ok_iff, not_not, Option.some.injEq] at h
      obtain ⟨hscope, hkey⟩ := not_or.mp hsame
      obtain ⟨-, ⟨htype, hpayload, hversion, hextensions⟩, hid⟩ := h
      exact ⟨horiginal, hincoming, not_not.mp hscope, not_not.mp hkey,
        ⟨htype, hpayload, hversion, hextensions⟩, hid⟩
  · rintro ⟨horiginal, hincoming, hscope, hkey, hcontent, hid⟩
    refine ⟨_, ⟨horiginal, rfl⟩, _, ⟨hincoming, rfl⟩, ?_⟩
    have hsame : ¬(original.ordered.scope ≠ incoming.ordered.scope ∨
        original.ordered.correlation.idempotencyKey ≠
          incoming.ordered.correlation.idempotencyKey) :=
      not_or.mpr ⟨not_not.mpr hscope, not_not.mpr hkey⟩
    rw [if_neg hsame]
    simp only [ok_iff, not_not, Option.some.injEq]
    exact ⟨(), ⟨hcontent.commandType, hcontent.payload, hcontent.schemaVersion,
      hcontent.extensions⟩, hid⟩

theorem receiptForExisting_eq_ok :
    MemoryState.receiptForExisting original incoming = .ok receipt ↔
      (validateCommand original = .ok () ∧ validateCommand incoming = .ok () ∧
        original.scope = incoming.scope ∧
        original.correlation.idempotencyKey = incoming.correlation.idempotencyKey ∧
        original.SameContent incoming) ∧
      receipt = duplicateCommandReceipt incoming.commandId original.commandId := by
  simp only [MemoryState.receiptForExisting, ok_iff]
  constructor
  · rintro ⟨_, hrepeated, id, rfl, rfl⟩
    obtain ⟨horiginal, hincoming, hscope, hkey, hcontent, rfl⟩ :=
      compareCommandIdempotency_eq_some.mp hrepeated
    exact ⟨⟨horiginal, hincoming, hscope, hkey, hcontent⟩, rfl⟩
  · rintro ⟨⟨horiginal, hincoming, hscope, hkey, hcontent⟩, rfl⟩
    exact ⟨_, compareCommandIdempotency_eq_some.mpr
      ⟨horiginal, hincoming, hscope, hkey, hcontent, rfl⟩, _, rfl, rfl⟩

end Receipts

-- One command is added, in canonical form and under a key and an identifier that were free.
inductive CommandTables.Adds (t : CommandTables) : CommandTables → Prop
  | add (command : CommandEnvelope) (idempotencyKey : String)
      (valid : validateCommand command = .ok ()) (canonical : command.ordered = command)
      (own : command.correlation.idempotencyKey = some idempotencyKey)
      (freeKey : t.accepted.get (command.scope, idempotencyKey) = none)
      (freeId : t.acceptedById.get (command.scope, command.commandId) = none) :
    Adds t ⟨t.accepted.put (command.scope, idempotencyKey) command,
      t.acceptedById.put (command.scope, command.commandId) command⟩

abbrev CommandTables.Grows := Relation.ReflTransGen CommandTables.Adds

namespace MemoryState

structure WritesCommands (s s' : MemoryState) : Prop where
  frame : s' = { s with toCommandTables := s'.toCommandTables }
  grows : s.toCommandTables.Grows s'.toCommandTables

theorem WritesCommands.refl (s : MemoryState) : s.WritesCommands s :=
  ⟨rfl, .refl⟩

theorem WritesCommands.trans (h₁ : s.WritesCommands s') (h₂ : s'.WritesCommands s'') :
    s.WritesCommands s'' := by
  refine ⟨?_, h₁.grows.trans h₂.grows⟩
  rw [h₂.frame, h₁.frame]

structure OwnKey (key : TenantScope × String) (command : CommandEnvelope) : Prop where
  valid : validateCommand command = .ok ()
  canonical : command.ordered = command
  scope : key.1 = command.scope
  key : command.correlation.idempotencyKey = some key.2

theorem insertCommand_writes (hown : OwnKey key command) (hfreeKey : s.accepted.get key = none)
    (hfreeId : s.acceptedById.get (command.scope, command.commandId) = none) :
    s.WritesCommands (s.insertCommand key command) := by
  obtain ⟨scope, idempotencyKey⟩ := key
  obtain rfl : scope = command.scope := hown.scope
  exact ⟨rfl, .single (.add command idempotencyKey hown.valid hown.canonical hown.key hfreeKey
    hfreeId)⟩

theorem acceptCanonicalCommand_cases
    (h : s.acceptCanonicalCommand key command = .ok (receipt, s')) :
    (∃ original, s.accepted.get key = some original ∧
        receiptForExisting original command = .ok receipt ∧ s' = s) ∨
      (s.accepted.get key = none ∧
        s.acceptedById.get (command.scope, command.commandId) = none ∧
        receipt = acceptedCommandReceipt command.commandId ∧ s' = s.insertCommand key command) := by
  unfold acceptCanonicalCommand at h
  split at h
  case h_1 original horiginal =>
    simp only [ok_iff] at h
    obtain ⟨_, hreceipt, rfl, rfl⟩ := h
    exact .inl ⟨original, horiginal, hreceipt, rfl⟩
  case h_2 hfree =>
    simp only [ok_iff] at h
    obtain ⟨-, hid, rfl, rfl⟩ := h
    exact .inr ⟨hfree, by simpa using hid, rfl, rfl⟩

theorem acceptCanonicalCommand_writes (hown : OwnKey key command)
    (h : s.acceptCanonicalCommand key command = .ok (receipt, s')) : s.WritesCommands s' := by
  obtain ⟨-, -, -, rfl⟩ | ⟨hfreeKey, hfreeId, -, rfl⟩ := acceptCanonicalCommand_cases h
  · exact .refl _
  · exact insertCommand_writes hown hfreeKey hfreeId

theorem acceptCommand_eq_ok :
    s.acceptCommand command = .ok (receipt, s') ↔
      ∃ key, OwnKey key command.ordered ∧ validateCommand command = .ok () ∧
        s.acceptCanonicalCommand key command.ordered = .ok (receipt, s') := by
  simp only [acceptCommand, ok_iff, canonicalCommand_eq_ok]
  constructor
  · rintro ⟨_, ⟨hvalid, rfl⟩, idempotencyKey, hkey, h⟩
    exact ⟨(_, idempotencyKey), ⟨validateCommand_ordered.mpr hvalid, CommandEnvelope.ordered_ordered,
      rfl, hkey⟩, hvalid, h⟩
  · rintro ⟨⟨scope, idempotencyKey⟩, hown, hvalid, h⟩
    obtain rfl : scope = command.scope := hown.scope
    exact ⟨_, ⟨hvalid, rfl⟩, idempotencyKey, hown.key, h⟩

theorem acceptCommand_writes (h : s.acceptCommand command = .ok (receipt, s')) :
    s.WritesCommands s' := by
  obtain ⟨key, hown, -, h⟩ := acceptCommand_eq_ok.mp h
  exact acceptCanonicalCommand_writes hown h

section Legacy

variable {generated : Option CommandId} {reservationId : CommandId}

theorem validateCommand_legacyReservation (h : validateCommand command = .ok ())
    (reservationId : CommandId) :
    validateCommand (legacyReservation command reservationId) = .ok () := by
  simp only [validateCommand, bind_eq_ok, mapError_eq_ok, Option.okOr_eq_ok, pure_eq_ok] at h ⊢
  obtain ⟨-, -, idempotencyKey, hkey, b, hb, c, hc, -, -, e, he, hextensions⟩ := h
  have htype : validateNamespacedIdentifier legacyIdempotencyReservationCommandType = .ok () := by
    decide +kernel
  have hpayload : ¬legacyIdempotencyReservationPayload.length > maxCommandPayloadLen := by
    decide +kernel
  exact ⟨(), htype, idempotencyKey, hkey, b, hb, c, hc, (), rejectIf_eq_ok.mpr hpayload, e, he,
    hextensions⟩

theorem ordered_withKey :
    (command.ordered.withKey legacyKey).ordered = (command.withKey legacyKey).ordered :=
  (command.withKey legacyKey).ordered_ordered

variable {rawKey : TenantScope × String}

theorem legacyCommands_eq_ok :
    legacyCommands command legacyKey = .ok (rawKey, incoming, key, canonical) ↔
      ∃ idempotencyKey, validateCommand command = .ok () ∧
        validateCommand (command.withKey legacyKey) = .ok () ∧
        command.correlation.idempotencyKey = some idempotencyKey ∧
        rawKey = (command.scope, legacyKey) ∧ incoming = (command.withKey legacyKey).ordered ∧
        key = (command.scope, idempotencyKey) ∧ canonical = command.ordered := by
  simp only [legacyCommands, commandKey, ok_iff, canonicalCommand_eq_ok, Prod.mk.injEq]
  constructor
  · rintro ⟨_, ⟨hvalid, rfl⟩, _, ⟨hlegacy, rfl⟩, _, ⟨_, ⟨⟩, rfl⟩, _, ⟨idempotencyKey, hkey, rfl⟩,
      rfl, rfl, rfl, rfl⟩
    exact ⟨idempotencyKey, hvalid, validateCommand_ordered.mp hlegacy, hkey, rfl, ordered_withKey,
      rfl, rfl⟩
  · rintro ⟨idempotencyKey, hvalid, hlegacy, hkey, rfl, rfl, rfl, rfl⟩
    exact ⟨_, ⟨hvalid, rfl⟩, _, ⟨validateCommand_ordered.mpr hlegacy, rfl⟩, _, ⟨_, rfl, rfl⟩, _,
      ⟨idempotencyKey, hkey, rfl⟩, rfl, ordered_withKey, rfl, rfl⟩

-- What becomes of the key of the former format.
inductive Reserves (s : MemoryState) (rawKey : TenantScope × String) (incoming : CommandEnvelope)
    (generated : Option CommandId) : Option CommandReceipt → MemoryState → Prop
  | reserved (original : CommandEnvelope) (existing : s.accepted.get rawKey = some original)
      (reservation : isLegacyReservation original) : Reserves s rawKey incoming generated none s
  | answered (original : CommandEnvelope) (receipt : CommandReceipt)
      (existing : s.accepted.get rawKey = some original)
      (answer : receiptForExisting original incoming = .ok receipt) :
    Reserves s rawKey incoming generated (some receipt) s
  | written (reservationId : CommandId) (generation : generated = some reservationId)
      (freeKey : s.accepted.get rawKey = none)
      (freeId : s.acceptedById.get (incoming.scope, reservationId) = none) :
    Reserves s rawKey incoming generated none
      (s.insertCommand rawKey (legacyReservation incoming reservationId).ordered)

theorem reserveLegacyKey_cases
    (h : s.reserveLegacyKey rawKey incoming generated = .ok (receipt?, s')) :
    s.Reserves rawKey incoming generated receipt? s' := by
  unfold reserveLegacyKey at h
  split at h
  case h_1 original horiginal =>
    split at h
    case isTrue hreservation =>
      obtain ⟨rfl, rfl⟩ := return_eq_ok.mp h
      exact .reserved original horiginal hreservation
    case isFalse =>
      simp only [ok_iff] at h
      obtain ⟨receipt, hreceipt, rfl, rfl⟩ := h
      exact .answered original receipt horiginal hreceipt
  case h_2 hfree =>
    simp only [ok_iff, canonicalCommand_eq_ok] at h
    obtain ⟨reservationId, hgenerated, _, ⟨-, rfl⟩, -, hid, rfl, rfl⟩ := h
    exact .written reservationId hgenerated hfree (Option.not_isSome_iff_eq_none.mp hid)

theorem ownKey_legacyReservation (hown : OwnKey rawKey incoming) :
    OwnKey rawKey (legacyReservation incoming reservationId).ordered where
  valid := validateCommand_ordered.mpr (validateCommand_legacyReservation hown.valid _)
  canonical := CommandEnvelope.ordered_ordered
  scope := hown.scope
  key := hown.key

theorem Reserves.writes (h : s.Reserves rawKey incoming generated receipt? s')
    (hown : OwnKey rawKey incoming) : s.WritesCommands s' := by
  cases h
  case reserved | answered => exact .refl s
  case written freeKey freeId =>
    exact insertCommand_writes (ownKey_legacyReservation hown) freeKey freeId

theorem acceptCommandWithLegacyReservation_writes :
    s.WritesCommands (s.acceptCommandWithLegacyReservation command legacyKey generated).2 := by
  unfold acceptCommandWithLegacyReservation
  split
  case h_1 => exact .refl s
  case h_2 rawKey incoming key canonical hcommands =>
    obtain ⟨idempotencyKey, hvalid, hlegacy, hkey, rfl, rfl, rfl, rfl⟩ :=
      legacyCommands_eq_ok.mp hcommands
    have hown : OwnKey (command.scope, idempotencyKey) command.ordered :=
      ⟨validateCommand_ordered.mpr hvalid, CommandEnvelope.ordered_ordered, rfl, hkey⟩
    have hraw : OwnKey (command.scope, legacyKey) (command.withKey legacyKey).ordered :=
      ⟨validateCommand_ordered.mpr hlegacy, CommandEnvelope.ordered_ordered, rfl, rfl⟩
    split
    case h_1 => exact .refl s
    case h_2 hreserve => exact (reserveLegacyKey_cases hreserve).writes hraw
    case h_3 reserved hreserve =>
      have hreserved := (reserveLegacyKey_cases hreserve).writes hraw
      exact commit_snd_cases hreserved fun _ _ h =>
        hreserved.trans (acceptCanonicalCommand_writes hown h)

end Legacy

end MemoryState

end Ucr
