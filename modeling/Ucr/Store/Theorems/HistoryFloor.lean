import Ucr.Protocol.Theorems.GroupGovernance
import Ucr.Store.GroupStore

-- What the history floor of a joining member hides, and how an entry comes by its floor.

namespace Ucr

open Except

variable {policy : GroupHistoryPolicy} {floor : U64} {ms : List GroupMembership}
  {m m' : GroupMembership}

-- Without history the floor is above everything there is.
theorem lt_historyFloor (h : historyFloor policy orders = .ok floor)
    (hpolicy : policy = .noHistory ∨ policy = .fromJoin) (hmem : order ∈ orders) :
    order < floor := by
  have hsucc : ((orders.sortOn id).getLast?.getD 0).checkedSucc = some floor := by
    obtain rfl | rfl := hpolicy <;> simpa [historyFloor] using h
  refine lt_of_le_of_lt ?_ (U64.lt_of_checkedSucc hsucc)
  have hsorted : (orders.sortOn id).SortedOn id := List.sortedOn_sortOn
  replace hmem : order ∈ orders.sortOn id := List.mem_sortOn.mpr hmem
  cases hlast : (orders.sortOn id).getLast?
  case none => simp [List.getLast?_eq_none_iff.mp hlast] at hmem
  case some last =>
    obtain ⟨init, hinit⟩ := List.getLast?_eq_some_iff.mp hlast
    rw [hinit] at hmem hsorted
    obtain hmem | rfl := by simpa using hmem
    · exact (List.pairwise_append.mp hsorted).2.2 order hmem last (by simp)
    · exact le_rfl

-- Counting from an entry of a sorted list, less lies strictly above it than from it to the end.
theorem countP_lt_of_sorted {l : List U64} (hsorted : l.SortedOn id) (hi : i < l.length)
    (hcutoff : l.get ⟨i, hi⟩ = cutoff) : l.countP (cutoff < ·) < l.length - i := by
  have hzero : (l.take (i + 1)).countP (cutoff < ·) = 0 := by
    rw [List.countP_eq_zero]
    intro order hmem
    obtain ⟨j, hj, rfl⟩ := List.mem_iff_getElem.mp hmem
    simp only [List.length_take] at hj
    simp only [List.getElem_take, decide_eq_true_eq, not_lt, ← hcutoff]
    rcases Nat.lt_or_eq_of_le (show j ≤ i by omega) with hlt | rfl
    · exact List.pairwise_iff_getElem.mp hsorted j i (by omega) hi hlt
    · exact le_rfl
  have hrest : (l.drop (i + 1)).countP (cutoff < ·) ≤ l.length - (i + 1) :=
    List.countP_le_length.trans (by simp)
  rw [← List.take_append_drop (i + 1) l, List.countP_append, hzero, List.take_append_drop]
  omega

-- A policy that counts messages lets at most that many through.
theorem countP_historyFloor (hcount : count ≠ 0)
    (h : historyFloor (.lastNMessages count) orders = .ok floor) :
    orders.countP (floor ≤ ·) ≤ count.val := by
  have hperm : (orders.sortOn id).Perm orders := List.sortOn_perm
  have hsorted : (orders.sortOn id).SortedOn id := List.sortedOn_sortOn
  rw [← hperm.countP_eq]
  simp only [historyFloor] at h
  split at h
  case isTrue hfew => exact List.countP_le_length.trans hfew
  case isFalse hmany =>
    have hpos : 0 < count.val := Nat.pos_of_ne_zero fun h0 => hcount (Fin.ext h0)
    split at h
    case isFalse hvisible =>
      obtain rfl := pure_eq_ok.mp h
      exact not_lt.mp hvisible
    case isTrue =>
      have hi : (orders.sortOn id).length - count.val < (orders.sortOn id).length := by omega
      rw [Option.okOr_eq_ok, List.getD_eq_getElem?_getD, List.getElem?_eq_getElem hi] at h
      have habove := countP_lt_of_sorted hsorted hi rfl
      have hmono : (orders.sortOn id).countP (floor ≤ ·) ≤
          (orders.sortOn id).countP ((orders.sortOn id).get ⟨_, hi⟩ < ·) := by
        refine List.countP_mono_left fun order _ horder => ?_
        simp only [decide_eq_true_eq] at horder ⊢
        exact lt_of_lt_of_le (U64.lt_of_checkedSucc h) horder
      omega

-- Where an active entry has its floor from: the entry it had before, or a join right now.
def FloorOrigin (ms : List GroupMembership) (floor : Option U64) (policy policy' : GroupHistoryPolicy)
    (m' : GroupMembership) : Prop :=
  (∃ m ∈ ms, m.member = m'.member ∧ m.state = .active ∧
      m.historyFloorLogicalOrder = m'.historyFloorLogicalOrder) ∨
    (floor = some m'.historyFloorLogicalOrder ∧ policy' = policy ∧
      ∀ m ∈ ms, m.member = m'.member → m.state ≠ .active)

-- An update of one entry that keeps its state and its floor.
theorem floorOrigin_updateMember (hn : (ms.map (·.member)).Nodup)
    (hm' : m' ∈ updateMember ms p (·.withRole role)) :
    ∃ m ∈ ms, m.member = m'.member ∧ m.state = m'.state ∧
      m.historyFloorLogicalOrder = m'.historyFloorLogicalOrder := by
  obtain ⟨m, hm, -, rfl⟩ | ⟨hm, -⟩ := (List.mem_updateKey hn).mp hm'
  · exact ⟨m, hm, rfl, rfl, rfl⟩
  · exact ⟨m', hm, rfl, rfl, rfl⟩

theorem ChangeEffect.floorOrigin (h : ChangeEffect group ms context kind group' ms')
    (hn : (ms.map (·.member)).Nodup) (hm' : m' ∈ ms') (hactive : m'.state = .active) :
    FloorOrigin ms context.historyFloor group.historyPolicy group'.historyPolicy m' := by
  cases h
  case added member role floor _ _ _ hfloor hfresh =>
    obtain hold | rfl := by simpa using hm'
    · exact .inl ⟨m', hold, rfl, hactive, rfl⟩
    · exact .inr ⟨hfloor, rfl, fun m hm hmember => absurd hmember (hfresh m hm)⟩
  case rejoined entry role floor _ _ _ hfloor hmem hstate =>
    obtain ⟨m, hm, hmember, rfl⟩ | ⟨hm, -⟩ := (List.mem_updateKey hn).mp hm'
    · obtain rfl := List.inj_on_of_nodup_map hn hm hmem hmember
      refine .inr ⟨hfloor, rfl, fun other hother hmember' => ?_⟩
      obtain rfl := List.inj_on_of_nodup_map hn hother hm hmember'
      simp [hstate]
    · exact .inl ⟨m', hm, rfl, hactive, rfl⟩
  case removed entry _ _ _ _ _ =>
    obtain ⟨m, -, -, rfl⟩ | ⟨hm, -⟩ := (List.mem_updateKey hn).mp hm'
    · simp [GroupMembership.removed] at hactive
    · exact .inl ⟨m', hm, rfl, hactive, rfl⟩
  case roleChanged entry role _ _ _ _ _ =>
    obtain ⟨m, hm, hmember, hstate, hfloor⟩ := floorOrigin_updateMember hn hm'
    exact .inl ⟨m, hm, hmember, hstate.trans hactive, hfloor⟩
  case transferred entry ownership _ _ _ _ _ =>
    have hn' := nodup_updateMember (p := context.actor) hn (keepsMember_withRole .admin)
    obtain ⟨m₁, hm₁, hmember₁, hstate₁, hfloor₁⟩ := floorOrigin_updateMember hn' hm'
    obtain ⟨m, hm, hmember, hstate, hfloor⟩ := floorOrigin_updateMember hn hm₁
    exact .inl ⟨m, hm, hmember.trans hmember₁, hstate.trans (hstate₁.trans hactive),
      hfloor.trans hfloor₁⟩
  case reshaped => exact .inl ⟨m', hm', rfl, hactive, rfl⟩

theorem Applied.floorOrigin {floor} (h : Applied group ms actorScope actor change floor t)
    (hm' : m' ∈ t.memberships) (hactive : m'.state = .active) :
    FloorOrigin ms floor group.historyPolicy t.group.historyPolicy m' := by
  cases h with
  | intro _ _ _ _ _ _ _ members _ _ _ _ _ _ _ effect =>
    have horigin := effect.floorOrigin members.sortOn.nodup (List.mem_sortOn.mp hm') hactive
    simpa only [FloorOrigin, List.mem_sortOn, GroupRecord.sorted] using horigin

-- A group that counts messages counts at least one.
theorem historyPolicy_valid (h : canonicalGroupRecord group = .ok g)
    (hpolicy : group.historyPolicy = .lastNMessages count) : count ≠ 0 := by
  simp only [canonicalGroupRecord, validateHistoryPolicy, hpolicy, ok_iff, not_or] at h
  tauto

end Ucr
