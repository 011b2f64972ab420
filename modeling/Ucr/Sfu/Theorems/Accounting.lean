import Ucr.Sfu.Directory

-- Reservations are exactly the placements, whatever happens to the workers.

namespace Ucr

open Except Table List

namespace SfuClusterDirectory

variable {d d' : SfuClusterDirectory} {nodeId : String} {node : SfuNodeDescriptor} {key : Bytes}
  {nowUnixMs : ℤ}

structure Exact (d : SfuClusterDirectory) : Prop where
  keyed     : ∀ nodeId node, d.nodes.get nodeId = some node → node.nodeId.value = nodeId
  placed    : ∀ key nodeId, d.placements.get key = some nodeId → (d.nodes.get nodeId).isSome
  counted   : ∀ nodeId, (d.reservedSessions nodeId).val = (d.placements.keysOf nodeId).card
  endpoints : ∀ nodeId, (d.endpoints.get nodeId).isSome → (d.nodes.get nodeId).isSome
  bounded   : d.nodes.size ≤ maxSfuClusterNodes

theorem reserveSession_spec (d : SfuClusterDirectory) (nodeId : String) :
    d.reserveSession nodeId = (.error .noHealthyCapacity, d) ∨
      ∃ reservations, d.reserveSession nodeId = (.ok (), { d with reservations }) ∧
        ∀ id, ((reservations.get id).getD 0).val =
          (d.reservedSessions id).val + if id = nodeId then 1 else 0 := by
  simp only [reserveSession]
  cases hnext : (d.reservedSessions nodeId).checkedSucc
  case none => exact .inl rfl
  case some next =>
    refine .inr ⟨_, rfl, fun id => ?_⟩
    rw [get_put]
    split
    case isTrue heq => simpa [heq] using U32.checkedSucc_eq_some.mp hnext
    case isFalse    => simp [reservedSessions]

theorem releaseReservation_spec (h : 0 < (d.reservedSessions nodeId).val) :
    ∃ reservations, d.releaseReservation nodeId = (.ok (), { d with reservations }) ∧
      ∀ id, ((reservations.get id).getD 0).val + (if id = nodeId then 1 else 0) =
        (d.reservedSessions id).val := by
  simp only [releaseReservation]
  cases hreserved : d.reservations.get nodeId
  case none => simp [reservedSessions, hreserved] at h
  case some reserved =>
    have hpos : 0 < reserved.val := by simpa [reservedSessions, hreserved] using h
    have hval : (reserved - 1).val + 1 = reserved.val := by
      have := Fin.sub_val_of_le (show (1 : U32) ≤ reserved from hpos)
      simp only [this, Fin.val_one]
      omega
    have hne : reserved ≠ 0 := fun h => by simp [h] at hpos
    simp only [if_neg hne]
    split
    case isTrue hlast =>
      refine ⟨_, rfl, fun id => ?_⟩
      rw [get_erase]
      split
      case isTrue heq => simp_all [reservedSessions]
      case isFalse    => simp [reservedSessions]
    case isFalse =>
      refine ⟨_, rfl, fun id => ?_⟩
      rw [get_put]
      split
      case isTrue heq => simpa [heq, reservedSessions, hreserved] using hval
      case isFalse    => simp [reservedSessions]

theorem maxByKey_mem {α : Type} {f : α → ℕ} {l a} (h : maxByKey f l = some a) : a ∈ l := by
  suffices hfold : ∀ best, l.foldl (fun best a => if best.any (f a < f ·) then best else some a) best
      = some a → best = some a ∨ a ∈ l by
    simpa using hfold none h
  clear h
  induction l
  case nil => simp
  case cons hd tl ih =>
    intro best h
    rw [foldl_cons] at h
    grind

theorem preferRegion_fails :
    FailsOnlyWith (· = .noHealthyCapacity) (preferRegion policy candidates) := by
  intro e h
  simp only [preferRegion] at h
  grind

theorem preferRegion_subset (h : preferRegion policy candidates = .ok preferred) :
    preferred ⊆ candidates := by
  simp only [preferRegion] at h
  split at h
  case h_1 => simp_all
  case h_2 =>
    split at h
    case isTrue =>
      obtain rfl := Except.ok.inj h
      exact filter_subset_self _
    case isFalse => split at h <;> simp_all

theorem selectPlacementCandidate_fails :
    FailsOnlyWith (· = .noHealthyCapacity)
      (d.selectPlacementCandidate key policy nowUnixMs excluded) := by
  simp [selectPlacementCandidate, preferRegion_fails]

theorem selectPlacementCandidate_spec
    (h : d.selectPlacementCandidate key policy nowUnixMs excluded = .ok node) :
    node ∈ d.nodes.values ∧ d.acceptsNewSessionAt node nowUnixMs ∧
      excluded ≠ some node.nodeId.value := by
  simp only [selectPlacementCandidate, ok_iff] at h
  obtain ⟨-, -, candidates, hcandidates, hbest⟩ := h
  have hmem := preferRegion_subset hcandidates (maxByKey_mem hbest)
  simp only [mem_filter, nodesInOrder, mem_sortOn, decide_eq_true_eq] at hmem
  exact ⟨hmem.1.1, hmem.1.2, hmem.2⟩

-- What placing a call can come to. A new place is counted in the same step, and the old one, if
-- there was any, no longer is.
inductive PlaceAnswer (d : SfuClusterDirectory) (key : Bytes) (nowUnixMs : ℤ) :
    Except SfuPlacementError SfuPlacementDecision × SfuClusterDirectory → Prop
  | failed : PlaceAnswer d key nowUnixMs (.error .noHealthyCapacity, d)
  | kept {nodeId crossed} (h : d.placements.get key = some nodeId.value) :
      PlaceAnswer d key nowUnixMs (.ok ⟨nodeId, true, crossed⟩, d)
  | placed {node crossed reservations}
      (mem : d.nodes.get node.nodeId.value = some node)
      (accepts : d.acceptsNewSessionAt node nowUnixMs)
      (elsewhere : d.placements.get key ≠ some node.nodeId.value)
      (counted : ∀ id, ((reservations.get id).getD 0).val +
        (if d.placements.get key = some id then 1 else 0) =
          (d.reservedSessions id).val + if id = node.nodeId.value then 1 else 0) :
      PlaceAnswer d key nowUnixMs (.ok ⟨node.nodeId, false, crossed⟩,
        { d with reservations, placements := d.placements.put key node.nodeId.value })

variable (hd : d.Exact)
include hd

theorem Exact.get_of_mem_values (h : node ∈ d.nodes.values) :
    d.nodes.get node.nodeId.value = some node := by
  obtain ⟨id, hid⟩ := mem_values.mp h
  rwa [hd.keyed id node hid]

theorem Exact.reserved_pos (h : d.placements.get key = some nodeId) :
    0 < (d.reservedSessions nodeId).val := by
  rw [hd.counted]
  exact Finset.card_pos.mpr ⟨key, mem_keysOf.mpr h⟩

theorem migrateSessionPlacement_answer (policy : SfuPlacementPolicy) (nowUnixMs : ℤ)
    (h : d.placements.get key = some nodeId) :
    d.migrateSessionPlacement key nodeId policy nowUnixMs = (.ok none, d) ∨
      d.migrateSessionPlacement key nodeId policy nowUnixMs = (.error .noHealthyCapacity, d) ∨
      ∃ decision d', d.migrateSessionPlacement key nodeId policy nowUnixMs =
          (.ok (some decision), d') ∧ PlaceAnswer d key nowUnixMs (.ok decision, d') := by
  simp only [migrateSessionPlacement]
  cases hselected : d.selectPlacementCandidate key policy nowUnixMs (some nodeId)
  case error e =>
    obtain rfl := selectPlacementCandidate_fails e hselected
    exact .inl rfl
  case ok selected =>
    obtain ⟨hmem, haccepts, hother⟩ := selectPlacementCandidate_spec hselected
    have hne : nodeId ≠ selected.nodeId.value := fun heq => hother (congrArg some heq)
    dsimp only
    obtain hfull | ⟨reservations, hreserved, hcounts⟩ :=
      d.reserveSession_spec selected.nodeId.value
    case inl => simp [hfull]
    case inr =>
      rw [hreserved]
      have hpos : 0 < (reservedSessions { d with reservations } nodeId).val := by
        rw [reservedSessions, hcounts]
        exact Nat.add_pos_left (hd.reserved_pos h) _
      obtain ⟨_, hreleased, hrest⟩ := releaseReservation_spec hpos
      dsimp only
      rw [hreleased]
      refine .inr (.inr ⟨_, _, rfl, .placed (hd.get_of_mem_values hmem) haccepts ?_ fun id => ?_⟩)
      · rw [h]
        exact fun heq => hne (Option.some.inj heq)
      · simp only [h, Option.some.injEq, @eq_comm _ nodeId]
        exact (hrest id).trans (hcounts id)

theorem replaceSession_answer (h : d.placements.get key = some nodeId) :
    PlaceAnswer d key nowUnixMs (d.replaceSession key nodeId policy nowUnixMs) := by
  simp only [replaceSession]
  obtain h | h | ⟨decision, d', h, hanswer⟩ :=
    migrateSessionPlacement_answer hd policy nowUnixMs h
  all_goals rw [h]
  · exact .failed
  · exact .failed
  · exact hanswer

theorem placeSession_answer :
    PlaceAnswer d (placementKey scope callId) nowUnixMs
      (d.placeSession scope callId policy nowUnixMs) := by
  simp only [placeSession]
  cases hplacement : d.placements.get (placementKey scope callId)
  case none =>
    dsimp only
    cases hselected : d.selectPlacementCandidate (placementKey scope callId) policy nowUnixMs none
    case error e =>
      obtain rfl := selectPlacementCandidate_fails e hselected
      exact .failed
    case ok selected =>
      obtain ⟨hmem, haccepts, -⟩ := selectPlacementCandidate_spec hselected
      dsimp only
      obtain hfull | ⟨reservations, hreserved, hcounts⟩ :=
        d.reserveSession_spec selected.nodeId.value
      case inl =>
        rw [hfull]
        exact .failed
      case inr =>
        rw [hreserved]
        exact .placed (hd.get_of_mem_values hmem) haccepts (by simp [hplacement])
          (by simpa [hplacement] using hcounts)
  case some nodeId =>
    obtain ⟨current, hcurrent⟩ := Option.isSome_iff_exists.mp (hd.placed _ _ hplacement)
    have hkept : d.placements.get (placementKey scope callId) = some current.nodeId.value := by
      rw [hplacement, hd.keyed _ _ hcurrent]
    dsimp only
    rw [hcurrent]
    dsimp only
    split
    case isTrue  => exact .kept hkept
    case isFalse =>
      split
      case isFalse => exact replaceSession_answer hd hplacement
      case isTrue  =>
        obtain h | h | ⟨decision, d', h, hanswer⟩ :=
          migrateSessionPlacement_answer hd policy nowUnixMs hplacement
        all_goals rw [h]
        · exact .kept hkept
        · exact .failed
        · exact hanswer

theorem PlaceAnswer.exact (h : PlaceAnswer d key nowUnixMs (result, d')) : d'.Exact := by
  cases h
  case failed => exact hd
  case kept   => exact hd
  case placed node crossed reservations mem accepts elsewhere counted =>
    constructor
    case keyed     => exact hd.keyed
    case endpoints => exact hd.endpoints
    case bounded   => exact hd.bounded
    case placed    => exact forall_put hd.placed (by simp [mem])
    case counted   =>
      intro id
      have hreserved := counted id
      have hplaced := @card_keysOf_put _ _ _ d.placements key node.nodeId.value id _
      rw [hd.counted] at hreserved
      simp only [reservedSessions]
      omega

theorem releaseSessionIfPresent_answer (scope : TenantScope) (callId : CallId) :
    (d.placements.get (placementKey scope callId) = none ∧
      d.releaseSessionIfPresent scope callId = (.ok false, d)) ∨
    ∃ reservations, (d.placements.get (placementKey scope callId)).isSome ∧
      d.releaseSessionIfPresent scope callId = (.ok true, { d with
        reservations, placements := d.placements.erase (placementKey scope callId) }) ∧
      ∀ id, ((reservations.get id).getD 0).val +
        (if d.placements.get (placementKey scope callId) = some id then 1 else 0) =
          (d.reservedSessions id).val := by
  simp only [releaseSessionIfPresent]
  cases hplacement : d.placements.get (placementKey scope callId)
  case none => exact .inl ⟨rfl, rfl⟩
  case some nodeId =>
    obtain ⟨node, hnode⟩ := Option.isSome_iff_exists.mp (hd.placed _ _ hplacement)
    obtain ⟨reservations, hreleased, hcounts⟩ := releaseReservation_spec (hd.reserved_pos hplacement)
    refine .inr ⟨reservations, rfl, ?_, fun id => ?_⟩
    · simp [hnode, hreleased]
    · simpa only [Option.some.injEq, @eq_comm _ nodeId] using hcounts id

theorem releaseSessionIfPresent_exact :
    (d.releaseSessionIfPresent scope callId).2.Exact := by
  obtain ⟨-, h⟩ | ⟨reservations, -, h, hcounts⟩ := releaseSessionIfPresent_answer hd scope callId
  all_goals rw [h]
  case inl => exact hd
  case inr =>
    constructor
    case keyed     => exact hd.keyed
    case endpoints => exact hd.endpoints
    case bounded   => exact hd.bounded
    case placed    =>
      intro key nodeId h
      rw [get_erase] at h
      split at h
      case isTrue  => simp at h
      case isFalse => exact hd.placed key nodeId h
    case counted   =>
      intro id
      have hreserved := hcounts id
      have hplaced := @card_keysOf_erase _ _ _ d.placements (placementKey scope callId) id _
      rw [hd.counted] at hreserved
      simp only [reservedSessions]
      omega

theorem releaseSession_exact :
    (d.releaseSession scope callId).2.Exact := by
  have hreleased : (d.releaseSession scope callId).2 =
      (d.releaseSessionIfPresent scope callId).2 := by
    simp only [releaseSession]
    split <;> simp_all
  rw [hreleased]
  exact releaseSessionIfPresent_exact hd

omit hd in
theorem empty_exact : empty.Exact := by
  constructor <;> simp [empty, reservedSessions, keysOf, size]

theorem upsertNode_exact : (d.upsertNode node).2.Exact := by
  simp only [upsertNode]
  split
  case isTrue => exact hd
  case isFalse hvalid =>
    have hstays (id : String) (h : (d.nodes.get id).isSome) :
        ((d.nodes.put node.nodeId.value node).get id).isSome := by
      rw [get_put]
      split <;> simp_all
    constructor
    case counted   => exact hd.counted
    case placed    => exact fun key id h => hstays id (hd.placed key id h)
    case keyed     => exact forall_put hd.keyed rfl
    case endpoints =>
      intro id h
      rw [get_erase] at h
      split at h
      case isTrue  => simp at h
      case isFalse => exact hstays id (hd.endpoints id h)
    case bounded   =>
      have hbounded := hd.bounded
      rw [size_put]
      split
      case isTrue => exact hbounded
      case isFalse hnew =>
        simp only [not_or, not_and, not_le] at hvalid
        exact hvalid.2.2.2.2.2 (by simpa using hnew)

omit hd in
theorem upsertNode_registers (h : d.upsertNode node = (.ok (), d')) :
    d'.nodes.get node.nodeId.value = some node := by
  simp only [upsertNode] at h
  split at h
  case isTrue => simp at h
  case isFalse =>
    obtain ⟨-, rfl⟩ := Prod.mk.inj h
    exact get_put_self

theorem upsertNodeWithEndpoint_exact : (d.upsertNodeWithEndpoint node endpoint).2.Exact := by
  simp only [upsertNodeWithEndpoint]
  split
  case h_1 => exact hd
  case h_2 =>
    have hd' : (d.upsertNode node).2.Exact := upsertNode_exact hd
    split
    case h_1 h => rwa [h] at hd'
    case h_2 d₁ h =>
      rw [h] at hd'
      have hregistered : (d₁.nodes.get node.nodeId.value).isSome := by
        simp [upsertNode_registers h]
      refine { hd' with endpoints := fun id h => ?_ }
      rw [get_put] at h
      split at h
      case isTrue heq => exact heq ▸ hregistered
      case isFalse    => exact hd'.endpoints id h

theorem markDraining_exact {id : OpaqueId} : (d.markDraining id).2.Exact := by
  simp only [markDraining]
  split
  case h_1 => exact hd
  case h_2 node hnode =>
    have hstays (id' : String) (h : (d.nodes.get id').isSome) :
        ((d.nodes.put id.value { node with state := .draining }).get id').isSome := by
      rw [get_put]
      split <;> simp_all
    constructor
    case counted   => exact hd.counted
    case placed    => exact fun key id h => hstays id (hd.placed key id h)
    case endpoints => exact fun id h => hstays id (hd.endpoints id h)
    case bounded   => simpa [size_put, hnode] using hd.bounded
    case keyed     => exact forall_put hd.keyed (hd.keyed _ node hnode :)

-- Workers that go take with them what is placed on them.
theorem Exact.forget {gone : List String}
    (hnodes : ∀ id, d'.nodes.get id = if id ∈ gone then none else d.nodes.get id)
    (hsize : d'.nodes.size ≤ d.nodes.size)
    (hendpoints : ∀ id, d'.endpoints.get id = if id ∈ gone then none else d.endpoints.get id)
    (hreservations : ∀ id, d'.reservations.get id = if id ∈ gone then none else d.reservations.get id)
    (hplacements : d'.placements = d.placements.retain (· ∉ gone)) : d'.Exact := by
  constructor
  case bounded   => exact hsize.trans hd.bounded
  case keyed     =>
    intro id node h
    rw [hnodes] at h
    split at h
    case isTrue  => simp at h
    case isFalse => exact hd.keyed id node h
  case placed    =>
    intro key id h
    rw [hplacements, get_retain] at h
    rw [hnodes, if_neg (by simpa using h.2)]
    exact hd.placed key id h.1
  case endpoints =>
    intro id h
    rw [hendpoints] at h
    split at h
    case isTrue => simp at h
    case isFalse hremains => rw [hnodes, if_neg hremains]; exact hd.endpoints id h
  case counted   =>
    intro id
    rw [reservedSessions, hreservations, hplacements, keysOf_retain]
    by_cases hgone : id ∈ gone
    case pos => simp [hgone]
    case neg => simpa [hgone, reservedSessions] using hd.counted id

theorem removeNode_exact {id : OpaqueId} : (d.removeNode id).Exact := by
  refine @Exact.forget _ _ hd [id.value] (fun _ => ?_) size_erase_le (fun _ => ?_) (fun _ => ?_) ?_
  all_goals simp [removeNode, get_erase]

theorem pruneExpiredNodes_exact : (d.pruneExpiredNodes nowUnixMs).2.Exact := by
  simp only [pruneExpiredNodes]
  split
  case isTrue  => exact hd
  case isFalse =>
    exact hd.forget (fun _ => get_eraseAll) size_eraseAll_le (fun _ => get_eraseAll)
      (fun _ => get_eraseAll) rfl

end SfuClusterDirectory

open SfuClusterDirectory

variable {d : SfuClusterDirectory}

theorem SfuOp.apply_exact (op : SfuOp) (hd : d.Exact) : (op.apply d).Exact := by
  cases op
  case upsertNode => exact upsertNode_exact hd
  case upsertNodeWithEndpoint => exact upsertNodeWithEndpoint_exact hd
  case pruneExpiredNodes => exact pruneExpiredNodes_exact hd
  case removeNode => exact removeNode_exact hd
  case markDraining => exact markDraining_exact hd
  case placeSession => exact (placeSession_answer hd).exact hd
  case releaseSession => exact releaseSession_exact hd
  case releaseSessionIfPresent => exact releaseSessionIfPresent_exact hd

def SfuClusterDirectory.after (ops : List SfuOp) : SfuClusterDirectory :=
  ops.foldl SfuOp.apply empty

theorem after_exact (ops : List SfuOp) : (SfuClusterDirectory.after ops).Exact := by
  induction ops using reverseRecOn
  case nil => exact empty_exact
  case append_singleton ih =>
    rw [SfuClusterDirectory.after, foldl_concat]
    exact SfuOp.apply_exact _ ih

-- What a caller can rely on in a directory, whatever was done to it before.
structure SfuClusterDirectory.Dependable (d : SfuClusterDirectory) : Prop where
  -- A new place is on a worker that is healthy, has a lease and still has room after that.
  roomy    : ∀ scope callId policy nowUnixMs decision d',
    d.placeSession scope callId policy nowUnixMs = (.ok decision, d') →
    decision.retainedStickyPlacement = false ∨
      d'.placements.get (placementKey scope callId) ≠ d.placements.get (placementKey scope callId) →
    ∃ node, d'.nodes.get decision.nodeId.value = some node ∧
      d'.placements.get (placementKey scope callId) = some decision.nodeId.value ∧
      node.state = .healthy ∧ nowUnixMs < node.leaseExpiresAtUnixMs ∧
      d'.effectiveSessions node ≤ node.maxSessions.val
  -- A failure changes nothing, and is never about the books.
  failed   : ∀ scope callId policy nowUnixMs e d',
    d.placeSession scope callId policy nowUnixMs = (.error e, d') → d' = d ∧ e ≠ .invalidNode
  -- Releasing fails only if there is nothing to release.
  released : ∀ scope callId, (d.placements.get (placementKey scope callId)).isSome →
    (d.releaseSession scope callId).1 = .ok () ∧
      (d.releaseSessionIfPresent scope callId).1 = .ok true
  absent   : ∀ scope callId, d.placements.get (placementKey scope callId) = none →
    (d.releaseSessionIfPresent scope callId).1 = .ok false

theorem SfuClusterDirectory.Exact.dependable (hd : d.Exact) : d.Dependable := by
  constructor
  case roomy =>
    intro scope callId policy nowUnixMs decision d' hplaced hnew
    have hanswer : PlaceAnswer d (placementKey scope callId) nowUnixMs
        (d.placeSession scope callId policy nowUnixMs) := placeSession_answer hd
    rw [hplaced] at hanswer
    cases hanswer
    case kept => simp at hnew
    case placed node crossed reservations mem accepts elsewhere counted =>
      have hcounted := counted node.nodeId.value
      simp only [if_neg elsewhere, if_true] at hcounted
      simp only [acceptsNewSessionAt, SfuNodeDescriptor.isLiveAt, effectiveSessions, Bool.and_eq_true,
        decide_eq_true_eq] at accepts
      obtain ⟨⟨⟨⟨hlease, -⟩, hhealthy⟩, -⟩, hroom⟩ := accepts
      refine ⟨node, mem, get_put_self, hhealthy, hlease, ?_⟩
      have hroom := of_decide_eq_true hroom
      simp only [effectiveSessions, reservedSessions]
      omega
  case failed =>
    intro scope callId policy nowUnixMs e d' hfailed
    have hanswer : PlaceAnswer d (placementKey scope callId) nowUnixMs
        (d.placeSession scope callId policy nowUnixMs) := placeSession_answer hd
    rw [hfailed] at hanswer
    cases hanswer
    exact ⟨rfl, by decide⟩
  case released =>
    intro scope callId hsome
    obtain ⟨hnone, -⟩ | ⟨reservations, -, h, -⟩ := releaseSessionIfPresent_answer hd scope callId
    case inl => simp [hnone] at hsome
    case inr => simp [releaseSession, h]
  case absent =>
    intro scope callId hnone
    obtain ⟨-, h⟩ | ⟨reservations, hsome, -⟩ := releaseSessionIfPresent_answer hd scope callId
    case inl => rw [h]
    case inr => simp [hnone] at hsome

theorem sfu_capacity_is_exact (ops : List SfuOp) :
    (SfuClusterDirectory.after ops).Exact ∧ (SfuClusterDirectory.after ops).Dependable :=
  ⟨after_exact ops, (after_exact ops).dependable⟩

end Ucr
