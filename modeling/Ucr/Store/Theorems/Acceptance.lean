import Ucr.Store.Theorems.Invariant

-- Commands are accepted at most once. Accepting one together with a key of the former format is not
-- atomic: the reservation of that key stays behind when the command itself is refused.

namespace Ucr

open Except Relation CommandEnvelope Option

variable {s s' : MemoryState} {t t' : CommandTables} {receipt : CommandReceipt}

namespace CommandTables

-- Every accepted command is in canonical form, under its own key.
structure Sound (t : CommandTables) : Prop where
  own : ∀ key command, t.accepted.get key = some command → MemoryState.OwnKey key command

theorem Sound.empty : MemoryState.empty.toCommandTables.Sound := by
  constructor
  simp [MemoryState.empty]

-- Nothing that was accepted is changed or removed.
structure Extends (t t' : CommandTables) : Prop where
  byKey : ∀ key command, t.accepted.get key = some command → t'.accepted.get key = some command
  byId  : ∀ key command, t.acceptedById.get key = some command →
    t'.acceptedById.get key = some command

theorem Adds.sound (h : t.Adds t') (ht : t.Sound) : t'.Sound := by
  cases h
  case add command idempotencyKey valid canonical own _ _ =>
    exact ⟨Table.forall_put ht.own ⟨valid, canonical, rfl, own⟩⟩

theorem Grows.sound (h : t.Grows t') (ht : t.Sound) : t'.Sound := by
  induction h
  case refl => exact ht
  case tail step ih => exact step.sound ih

theorem Adds.extends (h : t.Adds t') : t.Extends t' := by
  cases h
  case add freeKey freeId =>
    exact ⟨fun _ _ => Table.get_put_of_free freeKey, fun _ _ => Table.get_put_of_free freeId⟩

theorem Grows.extends (h : t.Grows t') : t.Extends t' := by
  induction h
  case refl => exact ⟨fun _ _ => id, fun _ _ => id⟩
  case tail step ih =>
    exact ⟨fun key command hget => step.extends.byKey key command (ih.byKey key command hget),
      fun key command hget => step.extends.byId key command (ih.byId key command hget)⟩

end CommandTables

namespace MemoryState

theorem run_commands (hs : s.Keyed) (op : StoreOp) :
    s.toCommandTables.Grows (op.run s).toCommandTables := by
  by_cases harea : op.area = some .commands
  · cases op <;> simp only [StoreOp.area, Option.some.injEq, reduceCtorEq] at harea
    case acceptCommand =>
      exact (commit_snd_cases (.refl s) fun _ _ h => acceptCommand_writes h).grows
    case acceptCommandWithLegacyReservation =>
      exact acceptCommandWithLegacyReservation_writes.grows
  · rw [(run_keeps hs op).commands harea]

theorem runs_commands (hs : s.Reachable) (hrun : StoreRun s s') :
    s.toCommandTables.Grows s'.toCommandTables :=
  hs.induction hrun .refl fun _ op ht ih => ih.trans (run_commands ht.attainable.keyed op)

theorem Reachable.commandsSound (hs : s.Reachable) : s.toCommandTables.Sound :=
  (runs_commands .refl hs).sound .empty

end MemoryState

-- The two ways a command can be handed to the store.
inductive CommandCall
  | accept (command : CommandEnvelope)
  | acceptWithLegacyReservation (command : CommandEnvelope) (legacyIdempotencyKey : String)
      (generated : Option CommandId)

variable {idempotencyKey : String}

namespace CommandCall

def command : CommandCall → CommandEnvelope
  | .accept command | .acceptWithLegacyReservation command .. => command

def run (s : MemoryState) : CommandCall → StoreResult CommandReceipt × MemoryState
  | .accept command => (s.acceptCommand command).commit s
  | .acceptWithLegacyReservation command legacyIdempotencyKey generated =>
    s.acceptCommandWithLegacyReservation command legacyIdempotencyKey generated

def op : CommandCall → StoreOp
  | .accept command => .acceptCommand command
  | .acceptWithLegacyReservation command legacyIdempotencyKey generated =>
    .acceptCommandWithLegacyReservation command legacyIdempotencyKey generated

theorem op_run (call : CommandCall) : call.op.run s = (call.run s).2 := by
  cases call <;> rfl

-- The keys a command is looked up under.
def keys : CommandCall → List String
  | .accept command => command.correlation.idempotencyKey.toList
  | .acceptWithLegacyReservation command legacyIdempotencyKey _ =>
    legacyIdempotencyKey :: command.correlation.idempotencyKey.toList

variable {call : CommandCall}

-- What a receipt says about the tables.
inductive Answers (s : MemoryState) (call : CommandCall) (s' : MemoryState) : CommandReceipt → Prop
  | accepted (idempotencyKey : String)
      (key : call.command.correlation.idempotencyKey = some idempotencyKey)
      (freeKey : s.accepted.get (call.command.scope, idempotencyKey) = none)
      (freeId : s.acceptedById.get (call.command.scope, call.command.commandId) = none)
      (byKey : s'.accepted.get (call.command.scope, idempotencyKey) = some call.command.ordered)
      (byId : s'.acceptedById.get (call.command.scope, call.command.commandId) =
        some call.command.ordered) :
    Answers s call s' (acceptedCommandReceipt call.command.commandId)
  | duplicate (idempotencyKey : String) (key : idempotencyKey ∈ call.keys)
      (original : CommandEnvelope)
      (stored : s'.accepted.get (call.command.scope, idempotencyKey) = some original)
      (content : original.SameContent call.command) :
    Answers s call s' (duplicateCommandReceipt call.command.commandId original.commandId)

theorem sameContent_ordered {original incoming : CommandEnvelope} :
    original.SameContent incoming.ordered ↔ original.SameContent incoming :=
  ⟨fun h => ⟨h.commandType, h.payload, h.schemaVersion, by simpa using h.extensions⟩,
    fun h => ⟨h.commandType, h.payload, h.schemaVersion, by simpa using h.extensions⟩⟩

-- The command itself, in the state the call has reached by then.
theorem answers_of_canonical {reached : MemoryState}
    (hreached : s.toCommandTables.Grows reached.toCommandTables)
    (hkey : call.command.correlation.idempotencyKey = some idempotencyKey)
    (hmem : idempotencyKey ∈ call.keys)
    (h : reached.acceptCanonicalCommand (call.command.scope, idempotencyKey) call.command.ordered =
      .ok (receipt, s')) : call.Answers s s' receipt := by
  obtain ⟨original, hstored, hreceipt, rfl⟩ | ⟨hfreeKey, hfreeId, rfl, rfl⟩ :=
    MemoryState.acceptCanonicalCommand_cases h
  · obtain ⟨⟨-, -, -, -, hcontent⟩, rfl⟩ := receiptForExisting_eq_ok.mp hreceipt
    exact .duplicate idempotencyKey hmem original hstored (sameContent_ordered.mp hcontent)
  · have hbefore := hreached.extends
    refine .accepted idempotencyKey hkey ?_ ?_ Table.get_put_self Table.get_put_self
    · rw [eq_none_iff_forall_ne_some]
      intro other hother
      exact some_ne_none _ ((hbefore.byKey _ _ hother).symm.trans hfreeKey)
    · rw [eq_none_iff_forall_ne_some]
      intro other hother
      exact some_ne_none _ ((hbefore.byId _ _ hother).symm.trans hfreeId)

theorem run_answers (h : call.run s = (.ok receipt, s')) : call.Answers s s' receipt := by
  cases call
  case accept command =>
    obtain ⟨⟨scope, idempotencyKey⟩, hown, -, h⟩ :=
      MemoryState.acceptCommand_eq_ok.mp (commit_eq_ok.mp h)
    obtain rfl : scope = command.scope := hown.scope
    have hkey : command.correlation.idempotencyKey = some idempotencyKey := hown.key
    exact answers_of_canonical .refl hkey (by simp [keys, hkey]) h
  case acceptWithLegacyReservation command legacyKey generated =>
    simp only [run, MemoryState.acceptCommandWithLegacyReservation] at h
    split at h
    case h_1 => simp at h
    case h_2 rawKey incoming key canonical hcommands =>
      obtain ⟨idempotencyKey, -, hlegacy, hkey, rfl, rfl, rfl, rfl⟩ :=
        MemoryState.legacyCommands_eq_ok.mp hcommands
      split at h
      case h_1 => simp at h
      case h_2 hreserve =>
        obtain ⟨hanswer, rfl⟩ := Prod.mk.inj h
        cases MemoryState.reserveLegacyKey_cases hreserve
        case answered original hstored hreceipt =>
          obtain ⟨⟨-, -, -, -, hcontent⟩, hdup⟩ := receiptForExisting_eq_ok.mp hreceipt
          obtain rfl := hdup.symm.trans (Except.ok.inj hanswer)
          have hcontent := sameContent_ordered.mp hcontent
          exact .duplicate legacyKey List.mem_cons_self original hstored
            ⟨hcontent.commandType, hcontent.payload, hcontent.schemaVersion, hcontent.extensions⟩
      case h_3 reserved hreserve =>
        have hwrites := (MemoryState.reserveLegacyKey_cases hreserve).writes
          ⟨validateCommand_ordered.mpr hlegacy, ordered_ordered, rfl, rfl⟩
        exact answers_of_canonical hwrites.grows hkey (by simp [keys, hkey]) (commit_eq_ok.mp h)

end CommandCall

section Legacy

variable {command : CommandEnvelope} {legacyKey : String} {reservationId : CommandId}

-- The command is refused once the reservation has been written.
def MemoryState.RefusesReserved (s : MemoryState) (command : CommandEnvelope) (legacyKey : String)
    (reservationId : CommandId) (idempotencyKey : String) : Prop :=
  if idempotencyKey = legacyKey then ¬isLegacyReservation command
  else match s.accepted.get (command.scope, idempotencyKey) with
    | some original => ¬original.SameContent command
    | none => command.commandId = reservationId ∨
      (s.acceptedById.get (command.scope, command.commandId)).isSome

-- A call that reserves the key of the former format for a command that it then refuses.
structure MemoryState.Strands (s : MemoryState) (command : CommandEnvelope) (legacyKey : String)
    (reservationId : CommandId) : Prop where
  valid : validateCommand command = .ok ()
  legacyValid : validateCommand (command.withKey legacyKey) = .ok ()
  freeKey : s.accepted.get (command.scope, legacyKey) = none
  freeId : s.acceptedById.get (command.scope, reservationId) = none
  refused : ∀ idempotencyKey, command.correlation.idempotencyKey = some idempotencyKey →
    s.RefusesReserved command legacyKey reservationId idempotencyKey

namespace MemoryState

theorem receiptForExisting_isError (horiginal : OwnKey key original)
    (hincoming : OwnKey key incoming) :
    (∃ e, receiptForExisting original incoming = .error e) ↔ ¬original.SameContent incoming := by
  constructor
  · rintro ⟨e, he⟩ hcontent
    have hok := receiptForExisting_eq_ok.mpr ⟨⟨horiginal.valid, hincoming.valid,
      horiginal.scope.symm.trans hincoming.scope, horiginal.key.trans hincoming.key.symm, hcontent⟩,
      rfl⟩
    rw [he] at hok
    simp at hok
  · intro hother
    rcases hresult : receiptForExisting original incoming with e | receipt
    · exact ⟨e, rfl⟩
    · obtain ⟨⟨-, -, -, -, hcontent⟩, -⟩ := receiptForExisting_eq_ok.mp hresult
      exact absurd hcontent hother

theorem acceptCanonicalCommand_isError (hs : s.toCommandTables.Sound) (hown : OwnKey key command) :
    (∃ e, s.acceptCanonicalCommand key command = .error e) ↔
      match s.accepted.get key with
      | some original => ¬original.SameContent command
      | none => (s.acceptedById.get (command.scope, command.commandId)).isSome := by
  rcases horiginal : s.accepted.get key with _ | original
  case none => simp [acceptCanonicalCommand, horiginal]
  case some =>
    simp only [acceptCanonicalCommand, horiginal]
    rw [← receiptForExisting_isError (hs.own _ _ horiginal) hown]
    simp

theorem sameContent_legacyReservation :
    (legacyReservation (command.withKey legacyKey).ordered reservationId).ordered.SameContent
      command ↔ isLegacyReservation command := by
  simp only [isLegacyReservation, Bool.and_eq_true, decide_eq_true_eq]
  constructor
  · intro h
    exact ⟨h.commandType.symm, h.payload.symm⟩
  · rintro ⟨htype, hpayload⟩
    refine ⟨htype.symm, hpayload.symm, rfl, ?_⟩
    simp [legacyReservation, withKey, ordered]

-- The state the reservation leads to.
def reservedState (s : MemoryState) (command : CommandEnvelope) (legacyKey : String)
    (reservationId : CommandId) : MemoryState :=
  s.insertCommand (command.scope, legacyKey)
    (legacyReservation (command.withKey legacyKey).ordered reservationId).ordered

@[simp]
theorem reservedState_accepted_self :
    (s.reservedState command legacyKey reservationId).accepted.get (command.scope, legacyKey) =
      some (legacyReservation (command.withKey legacyKey).ordered reservationId).ordered :=
  Table.get_put_self

theorem reservedState_accepted_ne (h : idempotencyKey ≠ legacyKey) :
    (s.reservedState command legacyKey reservationId).accepted.get (command.scope, idempotencyKey) =
      s.accepted.get (command.scope, idempotencyKey) :=
  Table.get_put_ne fun heq => h (Prod.mk.inj heq).2

theorem reservedState_byId {id : CommandId} :
    (s.reservedState command legacyKey reservationId).acceptedById.get (command.scope, id) =
      if id = reservationId then
        some (legacyReservation (command.withKey legacyKey).ordered reservationId).ordered
      else s.acceptedById.get (command.scope, id) := by
  simp [reservedState, insertCommand, Table.get_put, legacyReservation, withKey,
    ordered]

theorem reservedState_writes (hlegacy : validateCommand (command.withKey legacyKey) = .ok ())
    (hfreeKey : s.accepted.get (command.scope, legacyKey) = none)
    (hfreeId : s.acceptedById.get (command.scope, reservationId) = none) :
    s.WritesCommands (s.reservedState command legacyKey reservationId) := by
  have hown : OwnKey (command.scope, legacyKey) (command.withKey legacyKey).ordered :=
    ⟨validateCommand_ordered.mpr hlegacy, ordered_ordered, rfl, rfl⟩
  exact insertCommand_writes (ownKey_legacyReservation hown) hfreeKey hfreeId

theorem acceptReserved_isError
    (hs : (s.reservedState command legacyKey reservationId).toCommandTables.Sound)
    (hvalid : validateCommand command = .ok ())
    (hkey : command.correlation.idempotencyKey = some idempotencyKey) :
    (∃ e, (s.reservedState command legacyKey reservationId).acceptCanonicalCommand
        (command.scope, idempotencyKey) command.ordered = .error e) ↔
      s.RefusesReserved command legacyKey reservationId idempotencyKey := by
  have hown : OwnKey (command.scope, idempotencyKey) command.ordered :=
    ⟨validateCommand_ordered.mpr hvalid, ordered_ordered, rfl, hkey⟩
  rw [acceptCanonicalCommand_isError hs hown]
  unfold RefusesReserved
  by_cases hsame : idempotencyKey = legacyKey
  case pos =>
    subst hsame
    rw [if_pos rfl, reservedState_accepted_self]
    simp only [CommandCall.sameContent_ordered, sameContent_legacyReservation]
  case neg =>
    rw [if_neg hsame, reservedState_accepted_ne hsame]
    split
    case h_1 => rw [CommandCall.sameContent_ordered]
    case h_2 =>
      by_cases hid : command.commandId = reservationId
      · simp [reservedState_byId, ordered, hid]
      · simp [reservedState_byId, ordered, hid]

-- The reservation is written if the key and the generated identifier are free.
theorem reserveLegacyKey_free (hlegacy : validateCommand (command.withKey legacyKey) = .ok ())
    (hfreeKey : s.accepted.get (command.scope, legacyKey) = none)
    (hfreeId : s.acceptedById.get (command.scope, reservationId) = none) :
    s.reserveLegacyKey (command.scope, legacyKey) (command.withKey legacyKey).ordered
      (some reservationId) = .ok (none, s.reservedState command legacyKey reservationId) := by
  have hvalid :=
    validateCommand_legacyReservation (validateCommand_ordered.mpr hlegacy) reservationId
  simp only [reserveLegacyKey, hfreeKey, Option.okOr, bind_eq_ok, mapError_eq_ok,
    canonicalCommand_eq_ok, rejectIf_eq_ok, return_eq_ok]
  exact ⟨_, rfl, _, ⟨hvalid, rfl⟩, (), Option.not_isSome_iff_eq_none.mpr hfreeId, trivial,
    rfl⟩

theorem Strands.fails (hs : s.toCommandTables.Sound)
    (h : s.Strands command legacyKey reservationId) :
    (∃ e, (s.acceptCommandWithLegacyReservation command legacyKey (some reservationId)).1 =
        .error e) ∧
      (s.acceptCommandWithLegacyReservation command legacyKey (some reservationId)).2 =
        s.reservedState command legacyKey reservationId := by
  obtain ⟨idempotencyKey, hkey, -⟩ := validateCommand_eq_ok h.valid
  have hcommands := legacyCommands_eq_ok.mpr
    ⟨idempotencyKey, h.valid, h.legacyValid, hkey, rfl, rfl, rfl, rfl⟩
  have hwrites := reservedState_writes h.legacyValid h.freeKey h.freeId
  obtain ⟨e, he⟩ := (acceptReserved_isError (hwrites.grows.sound hs) h.valid hkey).mpr
    (h.refused idempotencyKey hkey)
  simp only [acceptCommandWithLegacyReservation, hcommands,
    reserveLegacyKey_free h.legacyValid h.freeKey h.freeId, he]
  exact ⟨⟨e, rfl⟩, rfl⟩

-- A call that fails leaves the tables alone, or a reservation behind.
theorem strands_of_error (hs : s.toCommandTables.Sound)
    (h : (s.acceptCommandWithLegacyReservation command legacyKey generated).1 = .error e) :
    (s.acceptCommandWithLegacyReservation command legacyKey generated).2 = s ∨
      ∃ reservationId, generated = some reservationId ∧
        s.Strands command legacyKey reservationId := by
  rcases hcommands : legacyCommands command legacyKey with e | ⟨rawKey, incoming, key, canonical⟩
  case error => simp [acceptCommandWithLegacyReservation, hcommands]
  case ok =>
    obtain ⟨idempotencyKey, hvalid, hlegacy, hkey, rfl, rfl, rfl, rfl⟩ :=
      legacyCommands_eq_ok.mp hcommands
    rcases hreserve : s.reserveLegacyKey (command.scope, legacyKey)
      (command.withKey legacyKey).ordered generated with e' | ⟨_ | receipt, reserved⟩ <;>
      simp only [acceptCommandWithLegacyReservation, hcommands, hreserve, reduceCtorEq] at h ⊢
    case error => exact .inl trivial
    case ok.none =>
      have hrefused := commit_fst_eq_error.mp h
      rw [hrefused]
      cases reserveLegacyKey_cases hreserve
      case reserved => exact .inl rfl
      case written reservationId hgenerated hfreeKey hfreeId =>
        have hwrites := reservedState_writes hlegacy hfreeKey hfreeId
        refine .inr ⟨reservationId, hgenerated, hvalid, hlegacy, hfreeKey, hfreeId, ?_⟩
        intro idempotencyKey' hkey'
        obtain rfl := mem_unique hkey hkey'
        exact (acceptReserved_isError (hwrites.grows.sound hs) hvalid hkey).mp ⟨e, hrefused⟩

end MemoryState

end Legacy

-- The calls that change nothing unless they succeed: those that leave no reservation behind.
def CommandCall.Settles (s : MemoryState) : CommandCall → Prop
  | .accept _ => True
  | .acceptWithLegacyReservation command legacyIdempotencyKey generated =>
    ∀ reservationId, generated = some reservationId →
      ¬s.Strands command legacyIdempotencyKey reservationId

theorem CommandCall.settles_iff (hs : s.toCommandTables.Sound) (call : CommandCall) :
    ((∃ e, (call.run s).1 = .error e) → (call.run s).2.toCommandTables = s.toCommandTables) ↔
      call.Settles s := by
  cases call
  case accept command =>
    refine iff_of_true ?_ trivial
    rintro ⟨e, he⟩
    simp only [run, commit_fst_eq_error] at he ⊢
    rw [he]
    rfl
  case acceptWithLegacyReservation command legacyKey generated =>
    constructor
    · rintro hatomic reservationId rfl hstrands
      obtain ⟨hfails, hstate⟩ := hstrands.fails hs
      have hsame := (congrArg (·.toCommandTables) hstate).symm.trans (hatomic hfails)
      have hget := congrArg (·.accepted.get (command.scope, legacyKey)) hsame
      simp [hstrands.freeKey] at hget
    · rintro hsettles ⟨e, he⟩
      obtain hsame | ⟨reservationId, hgenerated, hstrands⟩ := MemoryState.strands_of_error hs he
      · exact congrArg (·.toCommandTables) hsame
      · exact absurd hstrands (hsettles reservationId hgenerated)

-- In every reachable state: what is accepted now is not accepted again later, under its key or its
-- identifier; a duplicate names the command that is held under the key for good and has the same
-- content; and a failed call leaves the tables alone exactly if it leaves no reservation behind.
theorem commands_are_accepted_once (hs : s.Reachable) :
    (∀ (first second : CommandCall) receipt receipt' s₁ s₂ s₃,
      first.run s = (.ok receipt, s₁) → receipt.status = .accepted → StoreRun s₁ s₂ →
      second.run s₂ = (.ok receipt', s₃) → receipt'.status = .accepted →
      first.command.scope = second.command.scope →
        first.command.correlation.idempotencyKey ≠ second.command.correlation.idempotencyKey ∧
        first.command.commandId ≠ second.command.commandId) ∧
    (∀ (call : CommandCall) receipt s', call.run s = (.ok receipt, s') →
      receipt.status = .duplicate →
        ∃ key ∈ call.keys, ∃ original, s'.accepted.get (call.command.scope, key) = some original ∧
          receipt.originalCommandId = some original.commandId ∧
          original.SameContent call.command) ∧
    (∀ s', StoreRun s s' → ∀ key command, s.accepted.get key = some command →
      s'.accepted.get key = some command) ∧
    ∀ call : CommandCall,
      ((∃ e, (call.run s).1 = .error e) → (call.run s).2.toCommandTables = s.toCommandTables) ↔
        call.Settles s := by
  refine ⟨?_, fun call receipt s' hrun hstatus => ?_, fun s' hrun => ?_,
    CommandCall.settles_iff hs.commandsSound⟩
  · intro first second receipt receipt' s₁ s₂ s₃ hfirst hstatus hrun hsecond hstatus' hscope
    have hs₁ : s₁.Reachable := hs.tail ⟨first.op, by rw [first.op_run, hfirst]⟩
    have hkept := (MemoryState.runs_commands hs₁ hrun).extends
    cases CommandCall.run_answers hfirst
    case duplicate => simp [duplicateCommandReceipt] at hstatus
    case accepted key hkey _ _ hbyKey hbyId =>
      cases CommandCall.run_answers hsecond
      case duplicate => simp [duplicateCommandReceipt] at hstatus'
      case accepted key' hkey' hfreeKey hfreeId _ _ =>
        rw [← hscope] at hfreeKey hfreeId
        constructor
        · intro heq
          obtain rfl := mem_unique hkey (heq.trans hkey')
          exact some_ne_none _ ((hkept.byKey _ _ hbyKey).symm.trans hfreeKey)
        · intro heq
          rw [← heq] at hfreeId
          exact some_ne_none _ ((hkept.byId _ _ hbyId).symm.trans hfreeId)
  · cases CommandCall.run_answers hrun
    case accepted => simp [acceptedCommandReceipt] at hstatus
    case duplicate key hmem original hstored hcontent =>
      exact ⟨key, hmem, original, hstored, rfl, hcontent⟩
  · exact (MemoryState.runs_commands hs hrun).extends.byKey

namespace Scenario

def doorCommand (commandId : CommandId) (idempotencyKey : String) : CommandEnvelope where
  commandId := commandId
  scope := tenant
  commandType := "ucr.door.open"
  payload := [1]
  correlation := ⟨commandId, none, some idempotencyKey⟩
  schemaVersion := ⟨1, 0⟩
  extensions := []

def openDoor : CommandId := named "open-door"
def doorReservation : CommandId := named "door-reservation"

def doorStore : MemoryState :=
  MemoryState.empty.runAll [.acceptCommand (doorCommand openDoor "door")]

end Scenario

open Scenario

-- The identifier of the command is taken, so the call fails; the former key is reserved all the
-- same.
theorem door_keeps_a_reservation :
    doorStore.Reachable ∧
      (doorStore.acceptCommandWithLegacyReservation
        (doorCommand openDoor "door-again") "old-door"
        (some doorReservation)).1 = .error .conflict ∧
      doorStore.accepted.get (tenant, "old-door") = none ∧
      (doorStore.acceptCommandWithLegacyReservation
        (doorCommand openDoor "door-again") "old-door"
        (some doorReservation)).2.accepted.get (tenant, "old-door") ≠ none :=
  ⟨MemoryState.storeRun_runAll .., by decide +kernel, by decide +kernel, by decide +kernel⟩

-- The command that opened the door is the one its key stands for from then on, and a second command
-- with its identifier settles nothing if the former key is still free.
theorem door_command_is_kept :
    (∀ s', StoreRun doorStore s' → s'.accepted.get (tenant, "door") =
        some (doorCommand openDoor "door")) ∧
      ¬(CommandCall.acceptWithLegacyReservation
        (doorCommand openDoor "door-again") "old-door"
        (some doorReservation)).Settles doorStore := by
  have hreachable : doorStore.Reachable := MemoryState.storeRun_runAll ..
  obtain ⟨-, -, hkept, hsettles⟩ := commands_are_accepted_once hreachable
  refine ⟨fun s' hrun => hkept s' hrun _ _ (by decide +kernel), fun h => ?_⟩
  have hsame := (hsettles _).mpr h ⟨.conflict, by decide +kernel⟩
  have hget := congrArg (·.accepted.get (tenant, "old-door")) hsame
  revert hget
  decide +kernel

end Ucr
