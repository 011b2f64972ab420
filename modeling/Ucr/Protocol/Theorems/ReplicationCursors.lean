import Ucr.Protocol.Replication

-- A cursor is bound to what is hashed into it: tenant, namespace and group one after the other,
-- with nothing that tells where the namespace ends.

namespace Ucr

open Except Encoding

variable {scope scope' : TenantScope} {groupId groupId' : GroupId}

-- Sixteen bytes of a digest bind a cursor.
def digestBinding (text : Bytes) : Bytes :=
  (sha256 text).bytes.take 16

theorem cursorSequence_token {ε : Type} {e : ε}
    (hfree : digestBinding text = digestBinding text' → text = text') :
    (cursorSequence (digestBinding text') (cursorToken (digestBinding text) n)).okOr e =
      if text = text' then .ok n else .error e := by
  have hbinding : (digestBinding text).length = 16 := by simp [digestBinding, Digest.length_eq]
  have hlength : (cursorToken (digestBinding text) n).length = cursorLen := by
    simp [cursorToken, hbinding, cursorLen]
  have hvalue : beNat (beBytes 8 n) = n := beNat_beBytes n.isLt
  unfold beNat at hvalue
  rw [cursorSequence, hlength, cursorToken, List.take_left' hbinding, List.drop_left' hbinding, hvalue]
  by_cases heq : text = text'
  · simp [heq, Option.okOr]
  · simp [heq, mt hfree heq, Option.okOr]

-- What the cursors of a group are hashed from.
def cursorTexts (scope : TenantScope) (groupId : GroupId) : List Bytes :=
  [offlineGroupCursorDomain ++ cursorScopeBytes scope groupId ++ [1],
    offlineGroupCursorDomain ++ cursorScopeBytes scope groupId ++ [2],
    meshGroupCursorDomain ++ cursorScopeBytes scope groupId]

def DigestsApart (texts : List Bytes) : Prop :=
  ∀ x ∈ texts, ∀ y ∈ texts, digestBinding x = digestBinding y → x = y

-- The cursors of one group are taken for those of another only if the two are the same.
structure CursorsBound (scope scope' : TenantScope) (groupId groupId' : GroupId) : Prop where
  offline : ∀ stream stream' sequence, offlineGroupCursorSequence scope' groupId' stream'
    (offlineGroupCursor scope groupId stream sequence) =
      if (scope = scope' ∧ groupId = groupId') ∧ stream = stream' then .ok sequence
      else .error .invalidCursor
  mesh : ∀ sequence, meshGroupCursorSequence scope' groupId' (meshGroupCursor scope groupId sequence) =
    if scope = scope' ∧ groupId = groupId' then .ok sequence else .error .invalidCursor

def writtenTogether (scope : TenantScope) (groupId : GroupId) : String :=
  scope.tenantId.value ++ scope.namespaceId.elim "\x00" (fun id => "\x01" ++ id.value) ++ groupId.value

theorem cursorScopeBytes_eq : cursorScopeBytes scope groupId = utf8 (writtenTogether scope groupId) := by
  have happend (s t : String) : utf8 (s ++ t) = utf8 s ++ utf8 t := by simp [utf8]
  have hzero : utf8 "\x00" = [0] := by decide
  have hone : utf8 "\x01" = [1] := by decide
  cases hnamespace : scope.namespaceId <;>
    simp [cursorScopeBytes, writtenTogether, hnamespace, happend, hzero, hone, OpaqueId.asWireBytes]

theorem cursors_bound_iff
    (hfree : DigestsApart (cursorTexts scope groupId ++ cursorTexts scope' groupId')) :
    CursorsBound scope scope' groupId groupId' ↔
      (writtenTogether scope groupId = writtenTogether scope' groupId' →
        scope = scope' ∧ groupId = groupId') := by
  have hscope : cursorScopeBytes scope groupId = cursorScopeBytes scope' groupId' ↔
      writtenTogether scope groupId = writtenTogether scope' groupId' := by
    rw [cursorScopeBytes_eq, cursorScopeBytes_eq, utf8_injective.eq_iff]
  have hmesh (n : U64) :
      meshGroupCursorSequence scope' groupId' (meshGroupCursor scope groupId n) =
        if writtenTogether scope groupId = writtenTogether scope' groupId' then .ok n
        else .error .invalidCursor := by
    refine (cursorSequence_token (hfree _ (by simp [cursorTexts]) _ (by simp [cursorTexts]))).trans ?_
    simp [hscope]
  constructor
  · intro h heq
    have hanswer := h.mesh 0
    rw [hmesh, if_pos heq] at hanswer
    by_contra hne
    simp [hne] at hanswer
  · intro h
    have hiff := Iff.intro h fun hsame => by rw [hsame.1, hsame.2]
    refine ⟨fun stream stream' n => ?_, fun n => by simp only [hmesh, hiff]⟩
    refine (cursorSequence_token (hfree _ (by cases stream <;> simp [cursorTexts]) _
      (by cases stream' <;> simp [cursorTexts]))).trans ?_
    cases stream <;> cases stream' <;> simp [hscope, hiff]

namespace Scenario

def northern : TenantScope := ⟨tenant.tenantId, some (named "north")⟩
def northerly : TenantScope := ⟨tenant.tenantId, some (named "norther")⟩

end Scenario

open Scenario

theorem choir_cursors_are_bound : CursorsBound northern northerly (named "choir") (named "choir") :=
  (cursors_bound_iff (by unfold DigestsApart; decide +kernel)).mpr (by decide +kernel)

-- The group `erly` of one namespace and the group `ly` of another.
theorem cursors_cross_namespaces :
    northern ≠ northerly ∧
      offlineGroupCursorSequence northerly (named "ly") .messages
        (offlineGroupCursor northern (named "erly") .messages 5) = .ok 5 ∧
      meshGroupCursorSequence northerly (named "ly") (meshGroupCursor northern (named "erly") 5) =
        .ok 5 := by
  decide +kernel

end Ucr
