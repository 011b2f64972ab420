import Ucr.Conference.RuntimeState
import Ucr.Lib.Keyed
import Ucr.Sfu.Theorems.Accounting

-- Calls are told apart by bytes that are put together from their identifiers. As far as these bytes
-- differ, calls have nothing to do with each other.

namespace Ucr

open SfuClusterDirectory ConferenceRuntimeState List

-- The identifiers of a call one after the other, with a NUL between them.
def joinedIds (call : ScopedId) : String :=
  call.1.tenantId.value ++ "\x00" ++ (call.1.namespaceId.elim "" (·.value)) ++ "\x00" ++ call.2.value

variable {d : SfuClusterDirectory} {a b call : ScopedId} {key key' : Bytes} {nodeId : String}
  {policy : SfuPlacementPolicy} {nowUnixMs : ℤ} {scope : TenantScope} {callId : CallId}

theorem utf8_append : utf8 (s ++ t) = utf8 s ++ utf8 t := by
  simp [utf8]

theorem placementKey_eq : placementKey call.1 call.2 = utf8 (joinedIds call) := by
  simp only [joinedIds, utf8_append, placementKey]
  cases call.1.namespaceId <;> rfl

theorem placementKey_inj : placementKey a.1 a.2 = placementKey b.1 b.2 ↔ joinedIds a = joinedIds b := by
  rw [placementKey_eq, placementKey_eq, utf8_injective.eq_iff]

namespace SfuClusterDirectory

theorem reserveSession_placements : (d.reserveSession nodeId).2.placements = d.placements := by
  simp only [reserveSession]
  split <;> rfl

theorem releaseReservation_placements :
    (d.releaseReservation nodeId).2.placements = d.placements := by
  simp only [releaseReservation]
  grind

theorem migrateSessionPlacement_frame (h : key' ≠ key) :
    (d.migrateSessionPlacement key nodeId policy nowUnixMs).2.placements.get key' =
      d.placements.get key' := by
  simp only [migrateSessionPlacement]
  split
  case h_1 => rfl
  case h_2 => rfl
  case h_3 selected _ =>
    have hreserved := @reserveSession_placements d selected.nodeId.value
    split
    case h_1 heq => simp_all
    case h_2 d₁ heq =>
      rw [heq] at hreserved
      have hreleased := @releaseReservation_placements d₁ nodeId
      split
      case h_1 heq' => simp_all [releaseReservation_placements]
      case h_2 heq' => simp_all

theorem replaceSession_frame (h : key' ≠ key) :
    (d.replaceSession key nodeId policy nowUnixMs).2.placements.get key' =
      d.placements.get key' := by
  have hmigrated := @migrateSessionPlacement_frame d key key' nodeId policy nowUnixMs h
  simp only [replaceSession]
  split <;> simp_all

theorem placeSession_frame (h : key' ≠ placementKey scope callId) :
    (d.placeSession scope callId policy nowUnixMs).2.placements.get key' =
      d.placements.get key' := by
  simp only [placeSession]
  split
  case h_1 currentNodeId _ =>
    have hmigrated := @migrateSessionPlacement_frame d _ key' currentNodeId policy nowUnixMs h
    split
    case h_2 => exact replaceSession_frame h
    case h_1 =>
      split
      case isTrue => rfl
      case isFalse =>
        split
        case isFalse => exact replaceSession_frame h
        case isTrue  => split <;> simp_all
  case h_2 =>
    split
    case h_1 => rfl
    case h_2 selected _ =>
      have hreserved := @reserveSession_placements d selected.nodeId.value
      split <;> simp_all

theorem releaseSessionIfPresent_frame (h : key' ≠ placementKey scope callId) :
    (d.releaseSessionIfPresent scope callId).2.placements.get key' = d.placements.get key' := by
  simp only [releaseSessionIfPresent]
  split
  case h_1 => rfl
  case h_2 nodeId _ =>
    have hreleased := @releaseReservation_placements d nodeId
    split
    case isTrue  => rfl
    case isFalse => split <;> simp_all [Table.get_erase]

theorem releaseSession_frame (h : key' ≠ placementKey scope callId) :
    (d.releaseSession scope callId).2.placements.get key' = d.placements.get key' := by
  have hreleased := @releaseSessionIfPresent_frame d key' scope callId h
  simp only [releaseSession]
  split <;> simp_all

end SfuClusterDirectory

namespace ConferenceRuntimeState

-- Under each key, the first call that has it.
theorem get_foldl_insertTrackedCall {l : List ScopedId} :
    (l.foldl insertTrackedCall t).get key = (t.get key).or (l.find? (trackedCallKey · = key)) := by
  induction l generalizing t
  case nil => simp
  case cons hd tl ih =>
    rw [foldl_cons, ih, find?_cons, insertTrackedCall]
    by_cases hkey : trackedCallKey hd = key
    case pos =>
      subst hkey
      cases h : t.get (trackedCallKey hd) <;> simp [h]
    case neg =>
      split <;> simp [hkey, Table.get_put_ne (Ne.symm hkey)]

theorem mem_trackedCalls {state : ConferenceRuntimeState} :
    call ∈ state.trackedCalls ↔
      state.entries.find? (trackedCallKey · = trackedCallKey call) = some call := by
  rw [trackedCalls, mem_sortOn, Table.mem_values]
  simp only [get_foldl_insertTrackedCall, Table.get_empty, Option.none_or]
  constructor
  · rintro ⟨key, h⟩
    obtain rfl : trackedCallKey call = key := by simpa using find?_some h
    exact h
  · exact fun h => ⟨_, h⟩

end ConferenceRuntimeState

-- Nothing that is done with one of the calls touches another, and none is overlooked.
structure Isolated (calls : Set ScopedId) : Prop where
  placing   : ∀ a ∈ calls, ∀ b ∈ calls, a ≠ b → ∀ (d : SfuClusterDirectory) policy nowUnixMs,
    (d.placeSession a.1 a.2 policy nowUnixMs).2.placements.get (placementKey b.1 b.2) =
      d.placements.get (placementKey b.1 b.2)
  releasing : ∀ a ∈ calls, ∀ b ∈ calls, a ≠ b → ∀ d : SfuClusterDirectory,
    (d.releaseSession a.1 a.2).2.placements.get (placementKey b.1 b.2) =
      d.placements.get (placementKey b.1 b.2) ∧
    (d.releaseSessionIfPresent a.1 a.2).2.placements.get (placementKey b.1 b.2) =
      d.placements.get (placementKey b.1 b.2)
  tracked   : ∀ state : ConferenceRuntimeState, (∀ call ∈ state.entries, call ∈ calls) →
    ∀ call ∈ state.entries, call ∈ state.trackedCalls

theorem calls_are_isolated_iff (calls : Set ScopedId) : Isolated calls ↔ calls.InjOn joinedIds := by
  constructor
  · intro hisolated a ha b hb hjoined
    -- With an entry of either call, only the first one is listed.
    have htracked := hisolated.tracked ⟨[a, b], [], [], [], [], []⟩ (by simp [entries, ha, hb]) b
      (by simp [entries])
    rw [mem_trackedCalls] at htracked
    have hkey : trackedCallKey a = trackedCallKey b := placementKey_inj.mpr hjoined
    simpa [entries, hkey] using htracked
  · intro hinj
    have hkey (a b : ScopedId) (ha : a ∈ calls) (hb : b ∈ calls) (hne : a ≠ b) :
        placementKey b.1 b.2 ≠ placementKey a.1 a.2 :=
      fun h => hne (hinj ha hb (placementKey_inj.mp h.symm))
    constructor
    case placing =>
      exact fun a ha b hb hne d policy nowUnixMs => placeSession_frame (hkey a b ha hb hne)
    case releasing =>
      exact fun a ha b hb hne d => ⟨releaseSession_frame (hkey a b ha hb hne),
        releaseSessionIfPresent_frame (hkey a b ha hb hne)⟩
    case tracked =>
      intro state hcalls call hcall
      rw [mem_trackedCalls]
      refine (find?_eq_some_of_unique fun a ha b hb hka hkb => ?_).mpr ⟨hcall, by simp⟩
      simp only [decide_eq_true_eq] at hka hkb
      exact hinj (hcalls a ha) (hcalls b hb) (placementKey_inj.mp (hka.trans hkb.symm))

-- What ends at the first terminator can be told from what comes after it.
theorem terminated_inj {α : Type} {a : α} {x x' y y' : List α} (hx : a ∉ x) (hx' : a ∉ x')
    (h : x ++ a :: y = x' ++ a :: y') : x = x' ∧ y = y' := by
  induction x generalizing x' <;> cases x' <;> grind

-- Identifiers of tenants and namespaces without the separator cannot be confused.
theorem injOn_joinedIds : Set.InjOn joinedIds { call | '\x00' ∉ call.1.tenantId.value.toList ∧
    ∀ id ∈ call.1.namespaceId, '\x00' ∉ id.value.toList } := by
  have hjoined (call : ScopedId) : (joinedIds call).toList = call.1.tenantId.value.toList ++
      '\x00' :: ((call.1.namespaceId.elim "" (·.value)).toList ++ '\x00' :: call.2.value.toList) := by
    simp [joinedIds]
  rintro ⟨⟨tenantId, namespaceId⟩, callId⟩ ⟨htenant, hname⟩ ⟨⟨tenantId', namespaceId'⟩, callId'⟩
    ⟨htenant', hname'⟩ heq
  have hlists := congrArg String.toList heq
  rw [hjoined, hjoined] at hlists
  obtain ⟨htenants, hrest⟩ := terminated_inj htenant htenant' hlists
  obtain ⟨hnames, hcalls⟩ := terminated_inj (by cases namespaceId <;> simp_all)
    (by cases namespaceId' <;> simp_all) hrest
  obtain rfl := OpaqueId.ext (String.toList_injective htenants)
  obtain rfl := OpaqueId.ext (String.toList_injective hcalls)
  -- An absent namespace is not an empty one.
  have hname := String.toList_injective hnames
  cases namespaceId <;> cases namespaceId'
  case none.none => rfl
  case none.some => exact absurd hname.symm (OpaqueId.nonempty _)
  case some.none => exact absurd hname (OpaqueId.nonempty _)
  case some.some => rw [OpaqueId.ext hname]

-- A tenant that has another tenant's name and namespace in its own, with a NUL between them.
def snowdrop : ScopedId :=
  (⟨⟨"spring\x00winter", by decide, by decide⟩, none⟩, ⟨"bulb", by decide, by decide⟩)

def crocus : ScopedId :=
  (⟨⟨"spring", by decide, by decide⟩, some ⟨"winter", by decide, by decide⟩⟩,
    ⟨"\x00bulb", by decide, by decide⟩)

def greenhouse : SfuNodeDescriptor where
  nodeId := ⟨"greenhouse", by decide, by decide⟩
  region := "north"
  state := .healthy
  activeSessions := 0
  maxSessions := 8
  leaseExpiresAtUnixMs := 1000

def anywhere : SfuPlacementPolicy :=
  ⟨none, true⟩

-- The second call is taken for the first: it gets its place, releasing it takes the first call's
-- place away, and nobody sees that it has entries.
theorem crocus_takes_snowdrop_place :
    snowdrop ≠ crocus ∧
      let d := SfuClusterDirectory.after
        [.upsertNode greenhouse, .placeSession snowdrop.1 snowdrop.2 anywhere 0]
      (d.placements.get (placementKey snowdrop.1 snowdrop.2) = some "greenhouse" ∧
        (d.placeSession crocus.1 crocus.2 anywhere 0).1 = .ok ⟨greenhouse.nodeId, true, false⟩ ∧
        (d.releaseSession crocus.1 crocus.2).2.placements.get
          (placementKey snowdrop.1 snowdrop.2) = none) ∧
      ConferenceRuntimeState.trackedCalls ⟨[snowdrop], [crocus], [], [], [], []⟩ = [snowdrop] := by
  decide +kernel

end Ucr
