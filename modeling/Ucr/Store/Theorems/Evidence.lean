import Ucr.Store.Theorems.Jobs

-- Every attempt has a journal that proves how far it has come.

namespace Ucr

open Except Relation MemoryState

variable {s s' : MemoryState} {key : ScopedId} {attempt : DeliveryAttempt}
  {evidence : DeliveryEvidence} {journal : List DeliveryEvidence}

def DeliveryEvidence.BoundTo (evidence : DeliveryEvidence) (attempt : DeliveryAttempt) : Prop :=
  evidence.deliveryId = attempt.deliveryId ∧ evidence.scope = attempt.scope ∧
    evidence.messageId = attempt.messageId

def ProvedBy (journal : List DeliveryEvidence) (state : DeliveryState) : Prop :=
  ∃ evidence ∈ journal, evidenceSupportsState evidence.kind state

structure Backed (attempt : DeliveryAttempt) (journal : List DeliveryEvidence) : Prop where
  first   : ∃ evidence, journal.head? = some evidence ∧ evidenceSupportsState evidence.kind .persisted
  ordered : journal.Pairwise (·.logicalOrder < ·.logicalOrder)
  bound   : ∀ evidence ∈ journal, evidence.BoundTo attempt
  proved  : proofRequired attempt.state → ProvedBy journal attempt.state

-- How far an attempt has come. The two ways to fail are as far as it gets.
def DeliveryState.stage : DeliveryState → ℕ
  | .created => 0
  | .persisted => 1
  | .encrypted => 2
  | .queued => 3
  | .routePlanned => 4
  | .inFlight => 5
  | .acknowledged => 6
  | .delivered => 7
  | .read => 8
  | .failed => 9
  | .expired => 9

-- A state is kept, or it is left for a later stage, which is not possible for a terminal one.
def Onward (before after : DeliveryState) : Prop :=
  before = after ∨ (before.stage < after.stage ∧ ¬isTerminalDeliveryState before)

theorem Onward.trans (h₁ : Onward a b) (h₂ : Onward b c) : Onward a c := by
  obtain rfl | ⟨hlt₁, hterminal⟩ := h₁
  · exact h₂
  · obtain rfl | ⟨hlt₂, -⟩ := h₂
    · exact .inr ⟨hlt₁, hterminal⟩
    · exact .inr ⟨hlt₁.trans hlt₂, hterminal⟩

theorem onward_of_canTransition (h : canTransitionDelivery before after) : Onward before after := by
  refine .inr ?_
  revert h
  cases before <;> cases after <;> decide

namespace Backed

theorem grow (h : Backed attempt journal)
    (hnew : ∀ e ∈ journal, e.logicalOrder ≠ evidence.logicalOrder)
    (hlast : ∀ last, journal.getLast? = some last → last.logicalOrder ≤ evidence.logicalOrder)
    (hbound : evidence.BoundTo attempt) : Backed attempt (journal ++ [evidence]) where
  first := by
    obtain ⟨first, hfirst, hkind⟩ := h.first
    exact ⟨first, by rw [List.head?_append, hfirst]; rfl, hkind⟩
  ordered := by
    refine List.pairwise_append.mpr ⟨h.ordered, List.pairwise_singleton _ _, ?_⟩
    intro e he e' he'
    obtain rfl := List.mem_singleton.mp he'
    -- The journal is ordered, so that it is enough to compare with its last entry.
    obtain rfl | ⟨init, last, rfl⟩ := List.eq_nil_or_concat' journal
    · cases he
    · have hle := hlast last List.getLast?_concat
      obtain hinit | hmem := List.mem_append.mp he
      · have hlt := (List.pairwise_append.mp h.ordered).2.2 e hinit last (List.mem_singleton_self _)
        exact hlt.trans_le hle
      · obtain rfl := List.mem_singleton.mp hmem
        exact lt_of_le_of_ne hle (hnew e he)
  bound := by
    intro e he
    obtain he | he := List.mem_append.mp he
    · exact h.bound e he
    · exact List.mem_singleton.mp he ▸ hbound
  proved hstate := by
    obtain ⟨e, he, hkind⟩ := h.proved hstate
    exact ⟨e, List.mem_append_left _ he, hkind⟩

theorem move (h : Backed attempt journal) (hproved : proofRequired state → ProvedBy journal state) :
    Backed { attempt with state } journal :=
  { h with proved := hproved }

end Backed

theorem validateDeliveryEvidenceBinding_eq_ok :
    validateDeliveryEvidenceBinding attempt evidence = .ok () ↔ evidence.BoundTo attempt := by
  simp [validateDeliveryEvidenceBinding, DeliveryEvidence.BoundTo]

theorem validateDeliveryEvidence_eq_ok :
    validateDeliveryEvidence attempt evidence state = .ok () ↔
      evidence.BoundTo attempt ∧ evidenceSupportsState evidence.kind state := by
  simp only [validateDeliveryEvidence, ok_iff, not_not]
  rw [← validateDeliveryEvidenceBinding_eq_ok]
  constructor
  · rintro ⟨_, h⟩
    exact h
  · exact fun h => ⟨(), h⟩

namespace MemoryState

def EvidenceSound (s : MemoryState) : Prop :=
  ∀ key attempt, s.deliveries.get key = some attempt →
    key = attempt.key ∧ ∃ journal, s.deliveryEvidence.get key = some journal ∧ Backed attempt journal

def Advances (s s' : MemoryState) : Prop :=
  ∀ key attempt journal, s.deliveries.get key = some attempt →
    s.deliveryEvidence.get key = some journal →
    ∃ attempt' more, s'.deliveries.get key = some attempt' ∧
      s'.deliveryEvidence.get key = some (journal ++ more) ∧
      attempt' = { attempt with state := attempt'.state } ∧ Onward attempt.state attempt'.state

theorem Advances.refl : s.Advances s :=
  fun _ attempt _ hget hjournal => ⟨attempt, [], hget, by rw [hjournal, List.append_nil], rfl, .inl rfl⟩

theorem Advances.trans {s₁ s₂ s₃ : MemoryState} (h₁ : s₁.Advances s₂) (h₂ : s₂.Advances s₃) :
    s₁.Advances s₃ := by
  intro key attempt journal hget hjournal
  obtain ⟨attempt₂, more₁, hget₂, hjournal₂, hsame₁, honward₁⟩ := h₁ key attempt journal hget hjournal
  obtain ⟨attempt₃, more₂, hget₃, hjournal₃, hsame₂, honward₂⟩ := h₂ key attempt₂ _ hget₂ hjournal₂
  refine ⟨attempt₃, more₁ ++ more₂, hget₃, by rw [hjournal₃, List.append_assoc], ?_,
    honward₁.trans honward₂⟩
  rw [hsame₂, hsame₁]

-- Evidence is in the journal already, or it is new there and written to its end.
theorem appendDeliveryEvidence_cases (hjournal : s.deliveryEvidence.get key = some journal)
    (h : s.appendDeliveryEvidence key evidence = .ok (status, s')) :
    (evidence ∈ journal ∧ s' = s) ∨
      ((∀ e ∈ journal, e.logicalOrder ≠ evidence.logicalOrder) ∧
        (∀ last, journal.getLast? = some last → last.logicalOrder ≤ evidence.logicalOrder) ∧
        s' = { s with deliveryEvidence := s.deliveryEvidence.put key (journal ++ [evidence]) }) := by
  simp only [appendDeliveryEvidence, hjournal, Option.getD_some] at h
  split at h
  case h_1 existing hfind =>
    simp only [ok_iff, exists_const, not_not] at h
    obtain ⟨rfl, -, rfl⟩ := h
    exact .inl ⟨List.mem_of_find?_eq_some hfind, rfl⟩
  case h_2 hfind =>
    simp only [validateDeliveryEvidenceOrder, ok_iff, exists_const] at h
    obtain ⟨horder, -, rfl⟩ := h
    refine .inr ⟨by simpa using hfind, fun last hlast => ?_, rfl⟩
    simpa [hlast] using horder

-- What every successful call does to the attempt it is about, and to its journal.
inductive Written (s : MemoryState) : MemoryState → Prop
  | same : Written s s
  | created {attempt : DeliveryAttempt} {evidence : DeliveryEvidence}
      (fresh : s.deliveries.get attempt.key = none) (state : attempt.state = .persisted)
      (valid : validateDeliveryEvidence attempt evidence .persisted = .ok ()) :
      Written s { s with
        deliveries := s.deliveries.put attempt.key attempt
        deliveryEvidence := s.deliveryEvidence.put attempt.key [evidence] }
  | journaled {key : ScopedId} {attempt : DeliveryAttempt} {journal journal' : List DeliveryEvidence}
      (stored : s.deliveries.get key = some attempt)
      (opened : s.deliveryEvidence.get key = some journal)
      (more : ∃ more, journal' = journal ++ more) (backed : Backed attempt journal') :
      Written s { s with deliveryEvidence := s.deliveryEvidence.put key journal' }
  | moved {key : ScopedId} {attempt : DeliveryAttempt} {journal : List DeliveryEvidence}
      {state : DeliveryState} (stored : s.deliveries.get key = some attempt)
      (opened : s.deliveryEvidence.get key = some journal)
      (transition : canTransitionDelivery attempt.state state)
      (proved : proofRequired state → ProvedBy journal state) :
      Written s { s with deliveries := s.deliveries.put key { attempt with state } }

def Keeping (s s' : MemoryState) : Prop :=
  s'.EvidenceSound ∧ s.Advances s'

variable (hs : s.EvidenceSound)
include hs

-- One attempt and its journal are replaced by what comes after them.
theorem Keeping.put (hkey : key = attempt.key) (hbacked : Backed attempt journal)
    (ht : ∀ k, t.get k = if k = key then some attempt else s.deliveries.get k)
    (hjs : ∀ k, js.get k = if k = key then some journal else s.deliveryEvidence.get k)
    (hbefore : ∀ before earlier, s.deliveries.get key = some before →
      s.deliveryEvidence.get key = some earlier → earlier <+: journal ∧
        attempt = { before with state := attempt.state } ∧ Onward before.state attempt.state) :
    s.Keeping { s with deliveries := t, deliveryEvidence := js } := by
  constructor
  · intro k attempt' hget
    change t.get k = _ at hget
    rw [ht] at hget
    change _ ∧ ∃ journal, js.get k = _ ∧ _
    rw [hjs]
    split at hget
    case isTrue heq =>
      cases hget
      exact ⟨heq.trans hkey, journal, if_pos heq, hbacked⟩
    case isFalse hne =>
      rw [if_neg hne]
      exact hs k attempt' hget
  · intro k before earlier hget hjournal
    change ∃ attempt' more, t.get k = _ ∧ js.get k = _ ∧ _
    rw [ht, hjs]
    split
    case isTrue heq =>
      subst heq
      obtain ⟨⟨more, rfl⟩, hsame, honward⟩ := hbefore before earlier hget hjournal
      exact ⟨attempt, more, rfl, rfl, hsame, honward⟩
    case isFalse => exact Advances.refl k before earlier hget hjournal

theorem Written.keeping (h : s.Written s') : s.Keeping s' := by
  cases h
  case same => exact ⟨hs, .refl⟩
  case created attempt evidence hfresh hstate hvalid =>
    obtain ⟨hbound, hkind⟩ := validateDeliveryEvidence_eq_ok.mp hvalid
    have hbacked : Backed attempt [evidence] := {
      first   := ⟨evidence, rfl, hkind⟩
      ordered := List.pairwise_singleton _ _
      bound   := fun e he => List.mem_singleton.mp he ▸ hbound
      proved  := fun hproof => by rw [hstate] at hproof; cases hproof }
    exact .put hs rfl hbacked (fun _ => Table.get_put) (fun _ => Table.get_put) (by simp [hfresh])
  case journaled key attempt journal journal' hstored hopened hmore hbacked =>
    obtain ⟨hkey, -⟩ := hs key attempt hstored
    refine .put hs hkey hbacked (fun k => by split <;> simp_all) (fun _ => Table.get_put) ?_
    intro before earlier hget hjournal
    obtain rfl := Option.mem_unique hopened hjournal
    obtain rfl := Option.mem_unique hstored hget
    exact ⟨hmore.imp fun _ => Eq.symm, rfl, .inl rfl⟩
  case moved key attempt journal state hstored hopened htransition hproved =>
    obtain ⟨hkey, journal', hopened', hbacked⟩ := hs key attempt hstored
    obtain rfl := Option.mem_unique hopened hopened'
    have hkey' : key = DeliveryAttempt.key { attempt with state } := hkey
    refine .put hs hkey' (hbacked.move hproved) (fun _ => Table.get_put)
      (fun k => by split <;> simp_all) ?_
    intro before earlier hget hjournal
    obtain rfl := Option.mem_unique hopened hjournal
    obtain rfl := Option.mem_unique hstored hget
    exact ⟨List.prefix_rfl, rfl, onward_of_canTransition htransition⟩

theorem writes_keeping (h : ReflTransGen Written s s') : s.Keeping s' := by
  induction h
  case refl => exact ⟨hs, .refl⟩
  case tail hstep ih =>
    obtain ⟨hsound, hadvances⟩ := hstep.keeping ih.1
    exact ⟨hsound, ih.2.trans hadvances⟩

theorem appendDeliveryEvidence_written (hstored : s.deliveries.get key = some attempt)
    (hbound : evidence.BoundTo attempt) (h : s.appendDeliveryEvidence key evidence = .ok (status, s')) :
    s.Written s' ∧ s'.deliveries = s.deliveries ∧
      ∃ journal, s'.deliveryEvidence.get key = some journal ∧ evidence ∈ journal := by
  obtain ⟨-, journal, hopened, hbacked⟩ := hs key attempt hstored
  obtain ⟨hmem, rfl⟩ | ⟨hnew, hlast, rfl⟩ := appendDeliveryEvidence_cases hopened h
  · exact ⟨.same, rfl, journal, hopened, hmem⟩
  · exact ⟨.journaled hstored hopened ⟨_, rfl⟩ (hbacked.grow hnew hlast hbound), rfl, _,
      Table.get_put_self, by simp⟩

omit hs in
theorem createDeliveryAttempt_written (h : s.createDeliveryAttempt attempt evidence = .ok (status, s')) :
    s.Written s' := by
  have hvalid : validateDeliveryEvidence attempt evidence .persisted = .ok () := by
    simp only [createDeliveryAttempt, ok_iff] at h
    obtain ⟨_, _, _, hvalid, _⟩ := h
    exact hvalid
  obtain ⟨-, rfl⟩ | ⟨-, hfresh, hstate, rfl⟩ := createDeliveryAttempt_cases h
  · exact .same
  · exact .created hfresh hstate hvalid

theorem recordDeliveryEvidence_written
    (h : s.recordDeliveryEvidence evidence = .ok (status, s')) : s.Written s' := by
  simp only [recordDeliveryEvidence, ok_iff] at h
  obtain ⟨attempt, hstored, _, hbinding, happend⟩ := h
  exact (appendDeliveryEvidence_written hs hstored
    (validateDeliveryEvidenceBinding_eq_ok.mp hbinding) happend).1

theorem transitionDelivery_written {evidence}
    (h : s.transitionDelivery scope deliveryId expected next evidence = .ok (status, s')) :
    ReflTransGen Written s s' := by
  simp only [transitionDelivery, validateDeliveryTransition, ok_iff, exists_const, not_not] at h
  obtain ⟨current, hstored, rfl, htransition, hproof, s₁, hwritten, -, rfl⟩ := h
  cases evidence
  case none =>
    obtain ⟨-, journal, hopened, -⟩ := hs _ current hstored
    cases hwritten
    exact .single (.moved hstored hopened htransition fun hrequired => absurd ⟨hrequired, rfl⟩ hproof)
  case some evidence =>
    simp only [writeTransitionEvidence, ok_iff, Prod.exists] at hwritten
    obtain ⟨_, hvalid, _, _, happend, rfl⟩ := hwritten
    obtain ⟨hbound, hkind⟩ := validateDeliveryEvidence_eq_ok.mp hvalid
    obtain ⟨hwritten, hsame, journal, hopened, hmem⟩ :=
      appendDeliveryEvidence_written hs hstored hbound happend
    exact .tail (.single hwritten) (.moved (by rw [hsame]; exact hstored) hopened htransition
      fun _ => ⟨evidence, hmem, hkind⟩)

section InPlace

omit hs in
theorem appendDeliveryEvidenceInPlace_eq (hopened : s.deliveryEvidence.get key = some journal) :
    s.appendDeliveryEvidenceInPlace key evidence = (s.appendDeliveryEvidence key evidence).commit s := by
  simp [appendDeliveryEvidenceInPlace, openJournal, hopened]

-- Where there is a journal for every attempt, a call that fails has not begun to write.
theorem transitionDeliveryInPlace_eq {evidence} :
    s.transitionDeliveryInPlace scope deliveryId expected next evidence =
      (s.transitionDelivery scope deliveryId expected next evidence).commit s := by
  have hcheck : s.transitionDelivery scope deliveryId expected next evidence = (do
      let current ← s.checkTransition (scope, deliveryId) expected next evidence
      let r ← evidence.elim (.ok (.persisted, s)) (s.appendDeliveryEvidence (scope, deliveryId))
      return (.persisted, { r.2 with
        deliveries := r.2.deliveries.put (scope, deliveryId) { current with state := next } })) := by
    cases evidence <;>
      simp only [transitionDelivery, checkTransition, writeTransitionEvidence, bind_assoc, pure_bind,
        Option.toList_none, Option.toList_some, List.forM_nil, List.forM_cons, Option.elim_none,
        Option.elim_some]
    rfl
  rw [hcheck, transitionDeliveryInPlace]
  cases h : s.checkTransition (scope, deliveryId) expected next evidence
  case error => rfl
  case ok current =>
    cases evidence
    case none => rfl
    case some evidence =>
      have hstored : s.deliveries.get (scope, deliveryId) = some current := by
        simp only [checkTransition, ok_iff] at h
        obtain ⟨_, hstored, _, _, _, _, _, _, _, _, rfl⟩ := h
        exact hstored
      obtain ⟨-, journal, hopened, -⟩ := hs _ current hstored
      simp only [Option.elim_some, appendDeliveryEvidenceInPlace_eq hopened]
      cases s.appendDeliveryEvidence (scope, deliveryId) evidence <;> rfl

theorem recordDeliveryEvidenceInPlace_eq :
    s.recordDeliveryEvidenceInPlace evidence = (s.recordDeliveryEvidence evidence).commit s := by
  have hcheck : s.recordDeliveryEvidence evidence = (do
      s.checkRecording evidence
      s.appendDeliveryEvidence (evidence.scope, evidence.deliveryId) evidence) := by
    simp [recordDeliveryEvidence, checkRecording, bind_assoc]
  rw [hcheck, recordDeliveryEvidenceInPlace]
  cases h : s.checkRecording evidence
  case error => rfl
  case ok =>
    simp only [checkRecording, ok_iff] at h
    obtain ⟨current, hstored, -⟩ := h
    obtain ⟨-, journal, hopened, -⟩ := hs _ current hstored
    exact appendDeliveryEvidenceInPlace_eq hopened

end InPlace

end MemoryState

namespace DeliveryCall

def op : DeliveryCall → DeliveryOp
  | create attempt persistedEvidence => .createDeliveryAttempt attempt persistedEvidence
  | transition scope deliveryId expectedState nextState evidence =>
    .transitionDelivery scope deliveryId expectedState nextState evidence
  | record evidence => .recordDeliveryEvidence evidence

theorem run_eq (hs : s.EvidenceSound) (call : DeliveryCall) :
    (call.run s).2 = call.op.run s ∧ ∀ e, (call.run s).1 = .error e → (call.run s).2 = s := by
  have hcommit : ∀ r : StoreResult (DurableRecordStatus × MemoryState),
      ∀ e, (r.commit s).1 = .error e → (r.commit s).2 = s := by
    rintro (_ | _) e h
    · rfl
    · cases h
  cases call
  case create => exact ⟨rfl, hcommit _⟩
  case transition =>
    rw [run, transitionDeliveryInPlace_eq hs]
    exact ⟨rfl, hcommit _⟩
  case record =>
    rw [run, recordDeliveryEvidenceInPlace_eq hs]
    exact ⟨rfl, hcommit _⟩

end DeliveryCall

namespace MemoryState

variable (hs : s.EvidenceSound)
include hs

theorem keeping_of_eq (hdeliveries : s'.deliveries = s.deliveries)
    (hjournals : s'.deliveryEvidence = s.deliveryEvidence) : s.Keeping s' := by
  constructor
  · intro key attempt hget
    rw [hjournals]
    exact hs key attempt (hdeliveries ▸ hget)
  · intro key attempt journal hget hjournal
    rw [hdeliveries, hjournals]
    exact Advances.refl key attempt journal hget hjournal

theorem keeping_commit {α : Type} {r : StoreResult (α × MemoryState)}
    (h : ∀ a s', r = .ok (a, s') → s.Keeping s') : s.Keeping (r.commit s).2 :=
  commit_snd_cases (keeping_of_eq hs rfl rfl) h

theorem deliveryOp_keeping (op : DeliveryOp) : s.Keeping (op.run s) := by
  cases op
  case persistCommunicationIntent intent =>
    refine keeping_commit hs fun _ _ h => ?_
    obtain ⟨_, rfl⟩ := persistCommunicationIntent_spec h
    exact keeping_of_eq hs rfl rfl
  case createDeliveryAttempt =>
    exact keeping_commit hs fun _ _ h => (createDeliveryAttempt_written h).keeping hs
  case transitionDelivery =>
    exact keeping_commit hs fun _ _ h => writes_keeping hs (transitionDelivery_written hs h)
  case recordDeliveryEvidence evidence =>
    exact keeping_commit hs fun _ _ h => (recordDeliveryEvidence_written hs h).keeping hs
  case persistStoreForwardJob =>
    refine keeping_commit hs fun _ _ h => ?_
    obtain ⟨-, rfl⟩ | ⟨-, -, -, -, -, -, _, -, rfl⟩ := persistStoreForwardJob_cases h <;>
      exact keeping_of_eq hs rfl rfl
  case claimStoreForwardJob =>
    refine keeping_commit hs fun _ _ h => ?_
    obtain ⟨-, rfl⟩ | ⟨_, -, -, rfl⟩ := claimStoreForwardJob_cases h <;>
      exact keeping_of_eq hs rfl rfl
  case recordStoreForwardAttempt =>
    simp only [DeliveryOp.run, recordStoreForwardAttempt]
    split <;> exact keeping_of_eq hs rfl rfl
  case rescheduleStoreForwardJob =>
    simp only [DeliveryOp.run, rescheduleStoreForwardJob]
    split <;> exact keeping_of_eq hs rfl rfl
  case completeStoreForwardJob =>
    refine keeping_commit hs fun _ _ h => ?_
    obtain ⟨_, -, rfl⟩ := completeStoreForwardJob_spec h
    exact keeping_of_eq hs rfl rfl

theorem run_keeping (hkeyed : s.Keyed) (op : StoreOp) : s.Keeping (op.run s) := by
  by_cases harea : op.area = some .deliveries
  case pos =>
    obtain ⟨op, rfl⟩ : ∃ op', op = .delivery op' := by cases op <;> first | exact ⟨_, rfl⟩ | cases harea
    exact deliveryOp_keeping hs op
  case neg =>
    have htables := (run_keeps hkeyed op).deliveries harea
    exact keeping_of_eq hs (congrArg DeliveryTables.deliveries htables)
      (congrArg DeliveryTables.deliveryEvidence htables)

end MemoryState

-- A step is one of the three calls, or any operation of the store.
def DeliveryStep (s s' : MemoryState) : Prop :=
  (∃ call : DeliveryCall, (call.run s).2 = s') ∨ ∃ op : StoreOp, op.run s = s'

abbrev DeliverySteps := ReflTransGen DeliveryStep

theorem deliverySteps_keeping (hkeyed : s.Attainable) (hs : s.EvidenceSound) (h : DeliverySteps s s') :
    s'.Attainable ∧ s.Keeping s' := by
  induction h
  case refl => exact ⟨hkeyed, hs, .refl⟩
  case tail s₁ s₂ _ hstep ih =>
    obtain ⟨hattainable, hsound, hadvances⟩ := ih
    obtain ⟨op, rfl⟩ : ∃ op : StoreOp, op.run s₁ = s₂ := by
      obtain ⟨call, rfl⟩ | hop := hstep
      · exact ⟨.delivery call.op, (call.run_eq hsound).1.symm⟩
      · exact hop
    obtain ⟨hsound', hadvances'⟩ := run_keeping hsound hattainable.keyed op
    exact ⟨hattainable.run (.single ⟨op, rfl⟩), hsound', hadvances.trans hadvances'⟩

-- From here on the attempt is there, at the stage it was at or a later one, with evidence for the
-- stage.
def StaysProved (attempt : DeliveryAttempt) (key : ScopedId) (s : MemoryState) : Prop :=
  ∃ attempt' journal, s.deliveries.get key = some attempt' ∧
    s.deliveryEvidence.get key = some journal ∧
    attempt' = { attempt with state := attempt'.state } ∧ Onward attempt.state attempt'.state ∧
    (proofRequired attempt.state → ProvedBy journal attempt.state)

theorem deliveries_are_proved (hs : DeliverySteps .empty s) :
    s.EvidenceSound ∧
      (∀ s', DeliverySteps s s' → ∀ key attempt, s.deliveries.get key = some attempt →
        StaysProved attempt key s') ∧
      ∀ (call : DeliveryCall) e, (call.run s).1 = .error e → (call.run s).2 = s := by
  have hempty : empty.EvidenceSound := fun key attempt hget => by cases hget
  obtain ⟨hattainable, hsound, -⟩ := deliverySteps_keeping .refl hempty hs
  refine ⟨hsound, fun s' hrun key attempt hget => ?_, fun call => (call.run_eq hsound).2⟩
  obtain ⟨-, journal, hopened, hbacked⟩ := hsound key attempt hget
  obtain ⟨-, -, hadvances⟩ := deliverySteps_keeping hattainable hsound hrun
  obtain ⟨attempt', more, hget', hopened', hsame, honward⟩ := hadvances key attempt journal hget hopened
  refine ⟨attempt', journal ++ more, hget', hopened', hsame, honward, fun hproof => ?_⟩
  obtain ⟨evidence, hmem, hkind⟩ := hbacked.proved hproof
  exact ⟨evidence, List.mem_append_left _ hmem, hkind⟩

def MemoryState.runCalls (s : MemoryState) (calls : List DeliveryCall) : MemoryState :=
  calls.foldl (fun s call => (call.run s).2) s

theorem deliverySteps_runCalls (calls : List DeliveryCall) : DeliverySteps s (s.runCalls calls) := by
  induction calls generalizing s
  case nil => exact .refl
  case cons call calls ih => exact .head (.inl ⟨call, rfl⟩) ih

open Scenario

namespace Scenario

theorem claimedPostcard_steps : DeliverySteps .empty claimedPostcard :=
  (storeRun_runAll .empty claimsPostcard).lift id fun _ _ h => .inr h

def postcardAttempt : DeliveryAttempt :=
  ⟨named "postcard-attempt", tenant, postcard.messageId, .persisted⟩

def postcardEvidence (kind : DeliveryEvidenceKind) (order : U64) : DeliveryEvidence :=
  ⟨postcardAttempt.deliveryId, tenant, postcard.messageId, kind, order⟩

def postcardMoves (before after : DeliveryState) (evidence : Option DeliveryEvidence) : DeliveryCall :=
  .transition tenant postcardAttempt.deliveryId before after evidence

-- The receipt is recorded before the attempt is moved, and given again when it is.
def acknowledgedPostcard : MemoryState :=
  claimedPostcard.runCalls [
    .create postcardAttempt (postcardEvidence .persistedLocal 1),
    postcardMoves .persisted .encrypted none,
    postcardMoves .encrypted .queued none,
    postcardMoves .queued .routePlanned none,
    postcardMoves .routePlanned .inFlight none,
    .record (postcardEvidence .acceptedByTransport 4),
    postcardMoves .inFlight .acknowledged (some (postcardEvidence .acceptedByTransport 4))]

end Scenario

-- The postcard is lost after it was acknowledged, and the receipt is still there.
theorem postcard_stays_acknowledged :
    let lost := acknowledgedPostcard.runCalls [postcardMoves .acknowledged .failed none]
    acknowledgedPostcard.EvidenceSound ∧
      (lost.deliveries.get postcardAttempt.key).map (·.state) = some .failed ∧
      StaysProved { postcardAttempt with state := .acknowledged } postcardAttempt.key lost := by
  obtain ⟨hsound, hstays, -⟩ :=
    deliveries_are_proved (claimedPostcard_steps.trans (deliverySteps_runCalls _))
  exact ⟨hsound, by decide +kernel,
    hstays _ (deliverySteps_runCalls _) _ _ (by decide +kernel)⟩

end Ucr
