import Ucr.Store.Theorems.AntiEntropy
import Ucr.Store.Theorems.GroupMessages

-- What the store never takes back, whatever operations follow.

namespace Ucr

open MemoryState

variable {s s' : MemoryState}

namespace MemoryState

-- Where the life of a call starts, seen from a state: as it is there, or later, at its creation.
def Begins (s : MemoryState) (key : ScopedId) (first : CallSession) : Prop :=
  s.calls.get key = some first ∨ s.calls.get key = none ∧
    ∃ given creatorScope creator, canonicalCallCreation given creatorScope creator = .ok first

theorem Transitions.calls_go_on (h : s.Transitions s') (hs : s.CallsSound) (key : ScopedId) :
    (s'.calls.get key = none → s.calls.get key = none) ∧
      ∀ next, s'.calls.get key = some next → ∃ first, s.Begins key first ∧ CallRun first next := by
  induction h
  case refl => exact ⟨id, fun next hnext => ⟨next, .inl hnext, .refl⟩⟩
  case tail hbefore step ih =>
    obtain ⟨_, hchange⟩ := step.callChange (Transitions.callsSound hbefore hs) key
    cases hchange
    case absent hnone hafter _ => exact ⟨fun _ => ih.1 hnone, by simp [hafter]⟩
    case run call next hcall hafter hsteps _ =>
      refine ⟨by simp [hafter], fun _ hnext => ?_⟩
      obtain rfl := Option.mem_unique hafter hnext
      obtain ⟨first, hbegins, hrun⟩ := ih.2 call hcall
      exact ⟨first, hbegins, hrun.trans hsteps⟩
    case created creator given session _ _ hnone hcreation hafter _ _ =>
      refine ⟨by simp [hafter], fun _ hnext => ?_⟩
      obtain rfl := Option.mem_unique hafter hnext
      exact ⟨session, .inr ⟨ih.1 hnone, given, _, _, hcreation⟩, .refl⟩

end MemoryState

-- In the store calls live by the steps of the call protocol: from one state of a run to a later one
-- none is lost, and each goes on by such steps from what it was, or from its creation.
theorem stored_calls_follow_the_protocol (before after : List StoreOp) (key : ScopedId) :
    let s := empty.runAll before
    ((s.runAll after).calls.get key = none → s.calls.get key = none) ∧
      ∀ next, (s.runAll after).calls.get key = some next →
        ∃ first, s.Begins key first ∧ CallRun first next := by
  have hs := Reachable.attainable (storeRun_runAll .empty before)
  exact (runs_transitions hs (storeRun_runAll _ after)).calls_go_on hs.callsSound key

-- Stored messages stay as they are, and what is ready to be handed to other devices are stored
-- messages, each labelled with the group of its conversation.
theorem stored_messages_are_permanent (before after : List StoreOp) :
    let s := empty.runAll before
    (∀ key message, s.messages.get key = some message →
        (s.runAll after).messages.get key = some message) ∧
      ∀ entry ∈ s.offlineGroupMessageReplicas, (s.runAll after).ReplicaSound entry.2 := by
  have hs := Reachable.attainable (storeRun_runAll .empty before)
  have h := runs_transitions hs (storeRun_runAll _ after)
  dsimp only
  generalize runAll _ after = s' at h ⊢
  refine ⟨fun _ _ => h.message_kept, fun entry hentry => ?_⟩
  induction h
  case refl => exact hs.replicasSound entry hentry
  case tail step ih => exact step.replicaSound ih

-- The journal only grows at its end, and every entry can be replicated: its event is stored, is its
-- own canonical form and has a fingerprint.
theorem journal_stays_replicable (before after : List StoreOp) :
    let s := empty.runAll before
    s.eventOrder <+: (s.runAll after).eventOrder ∧ ∀ key ∈ s.eventOrder,
      ∃ event digest, s.events.get key = some event ∧ canonicalEvent event = .ok event ∧
        eventFingerprint event = .ok digest := by
  have hs := storeRun_runAll .empty before
  refine ⟨(runs_records hs (storeRun_runAll _ after)).extends.order, fun key hkey => ?_⟩
  obtain ⟨event, digest, hevent, -, hdigest, -⟩ := Reachable.backed hs hkey
  exact ⟨event, digest, hevent, Reachable.canonical hs key event hevent, hdigest⟩

-- A group lies under its own identifiers and has a stored conversation for groups that no other
-- group has, and members have the permissions of their roles and no others.
theorem groups_stay_housed (ops : List StoreOp) :
    let s := empty.runAll ops
    (∀ key group, s.groups.get key = some group →
        (group.scope, group.groupId) = key ∧ s.Houses group.scope group.conversation) ∧
      s.OwnersUnique ∧
      ∀ key m, s.groupMemberships.get key = some m →
        membershipKey m = key ∧ m.permissions = groupPermissionsForRole m.role := by
  have hs := Reachable.attainable (storeRun_runAll .empty ops)
  obtain ⟨hhouses, hpermissions⟩ := hs.groupsSound
  exact ⟨fun key group h => ⟨hs.keyed.groups key group h, hhouses key group h⟩, hs.ownersUnique,
    fun key m h => ⟨hs.keyed.memberships key m h, hpermissions key m h⟩⟩

-- A run of operations of one area, or of operations of none, leaves the tables of the other areas
-- as they are. There are six areas, and the tables of none of them are not spoken of.
theorem areas_are_apart (before ops : List StoreOp) (area : Option StoreArea) :
    let s := empty.runAll before
    Keeps area s.toAreaTables (s.runAll (ops.filter (·.area = area))).toAreaTables := by
  intro s
  have hs : s.Reachable := storeRun_runAll .empty before
  clear_value s
  induction ops generalizing s
  case nil => exact .of_eq rfl
  case cons op ops ih =>
    by_cases harea : op.area = area <;> simp only [List.filter, harea, decide_true, decide_false]
    case pos =>
      exact (harea ▸ run_keeps hs.attainable.keyed op).trans (ih _ (hs.tail ⟨op, rfl⟩))
    case neg => exact ih s hs

end Ucr
