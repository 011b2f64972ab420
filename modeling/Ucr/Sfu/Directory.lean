import Ucr.Lib.Sort
import Ucr.Lib.Table
import Ucr.Objects.Basic

-- The directory that places calls on media workers. A call stays where it is while its worker can
-- keep it, and what is placed on a worker counts against its capacity.

namespace Ucr

def maxSfuClusterNodes : ℕ := 256
def maxSfuRegionBytes : ℕ := 64

inductive SfuNodeState
  | healthy
  | draining
  | unavailable
deriving DecidableEq

structure SfuNodeEndpoint where
  ip   : IpAddr
  port : U16

structure SfuNodeDescriptor where
  nodeId : OpaqueId
  region : String
  state : SfuNodeState
  activeSessions : U32
  maxSessions : U32
  leaseExpiresAtUnixMs : ℤ

structure SfuPlacementPolicy where
  preferredRegion : Option String
  allowCrossRegionFailover : Bool

structure SfuPlacementDecision where
  nodeId : OpaqueId
  retainedStickyPlacement : Bool
  crossedRegion : Bool
deriving DecidableEq

inductive SfuPlacementError
  | invalidNode
  | invalidEndpoint
  | endpointUnavailable
  | noHealthyCapacity
deriving DecidableEq

def SfuNodeEndpoint.validate (endpoint : SfuNodeEndpoint) : Except SfuPlacementError Unit :=
  Except.rejectIf (endpoint.port = 0 ∨ endpoint.ip.isUnspecified ∨ endpoint.ip.isMulticast ∨
    endpoint.ip.isBroadcast) .invalidEndpoint

def SfuNodeDescriptor.isLiveAt (node : SfuNodeDescriptor) (nowUnixMs : ℤ) : Bool :=
  node.leaseExpiresAtUnixMs > nowUnixMs && node.state ≠ .unavailable

def placementKey (scope : TenantScope) (callId : CallId) : Bytes :=
  scope.tenantId.asWireBytes ++ [0] ++ (scope.namespaceId.elim [] OpaqueId.asWireBytes) ++ [0] ++
    callId.asWireBytes

def placementHash (hash : UInt64) (byte : UInt8) : UInt64 :=
  (hash ^^^ byte.toUInt64) * 0x00000100000001b3

def placementScore (key nodeId : Bytes) : UInt64 :=
  let hash := key.foldl placementHash 0xcbf29ce484222325
  let hash := placementHash hash 0xff
  let hash := nodeId.foldl placementHash hash
  let hash := hash ^^^ (hash >>> 30)
  let hash := hash * 0xbf58476d1ce4e5b9
  let hash := hash ^^^ (hash >>> 27)
  let hash := hash * 0x94d049bb133111eb
  hash ^^^ (hash >>> 31)

-- Of several elements with the greatest key, the last one.
def maxByKey {α : Type} (key : α → ℕ) (l : List α) : Option α :=
  l.foldl (fun best a => if best.any (key a < key ·) then best else some a) none

structure SfuClusterDirectory where
  nodes : Table String SfuNodeDescriptor
  endpoints : Table String SfuNodeEndpoint
  placements : Table Bytes String
  reservations : Table String U32

namespace SfuClusterDirectory

def empty : SfuClusterDirectory :=
  ⟨∅, ∅, ∅, ∅⟩

variable (d : SfuClusterDirectory)

def reservedSessions (nodeId : String) : U32 :=
  (d.reservations.get nodeId).getD 0

variable (node : SfuNodeDescriptor)

def effectiveSessions : ℕ :=
  node.activeSessions.val + (d.reservedSessions node.nodeId.value).val

def acceptsNewSessionAt (nowUnixMs : ℤ) : Bool :=
  node.isLiveAt nowUnixMs && node.state = .healthy && node.maxSessions > 0 &&
    d.effectiveSessions node < node.maxSessions.val

-- Results come with the directory that is left behind, also by a failure.
def reserveSession (nodeId : String) :
    Except SfuPlacementError Unit × SfuClusterDirectory :=
  match (d.reservedSessions nodeId).checkedSucc with
  | none      => (.error .noHealthyCapacity, d)
  | some next => (.ok (), { d with reservations := d.reservations.put nodeId next })

def releaseReservation (nodeId : String) :
    Except SfuPlacementError Unit × SfuClusterDirectory :=
  match d.reservations.get nodeId with
  | none => (.error .invalidNode, d)
  | some reserved =>
    if reserved = 0 then
      (.error .invalidNode, d)
    else if reserved - 1 = 0 then
      (.ok (), { d with reservations := d.reservations.erase nodeId })
    else
      (.ok (), { d with reservations := d.reservations.put nodeId (reserved - 1) })

def upsertNode :
    Except SfuPlacementError Unit × SfuClusterDirectory :=
  if node.region = "" ∨ node.region.utf8ByteSize > maxSfuRegionBytes ∨ node.maxSessions = 0 ∨
      node.activeSessions > node.maxSessions ∨ node.leaseExpiresAtUnixMs ≤ 0 ∨
      ((d.nodes.get node.nodeId.value).isNone ∧ d.nodes.size ≥ maxSfuClusterNodes) then
    (.error .invalidNode, d)
  else
    (.ok (), { d with
      nodes     := d.nodes.put node.nodeId.value node
      endpoints := d.endpoints.erase node.nodeId.value })

def upsertNodeWithEndpoint (endpoint : SfuNodeEndpoint) :
    Except SfuPlacementError Unit × SfuClusterDirectory :=
  match endpoint.validate with
  | .error e => (.error e, d)
  | .ok ()   =>
    match d.upsertNode node with
    | (.error e, d) => (.error e, d)
    | (.ok (), d)   =>
      (.ok (), { d with endpoints := d.endpoints.put node.nodeId.value endpoint })

def expiredNodes (nowUnixMs : ℤ) : List String :=
  (d.nodes.entries.filter (·.snd.leaseExpiresAtUnixMs ≤ nowUnixMs)).map (·.fst)

def pruneExpiredNodes (nowUnixMs : ℤ) : ℕ × SfuClusterDirectory :=
  let expired := d.expiredNodes nowUnixMs
  if expired.isEmpty then
    (0, d)
  else
    (expired.length, {
      nodes := d.nodes.eraseAll expired
      endpoints := d.endpoints.eraseAll expired
      reservations := d.reservations.eraseAll expired
      placements := d.placements.retain (· ∉ expired) })

def removeNode (nodeId : OpaqueId) : SfuClusterDirectory where
  nodes := d.nodes.erase nodeId.value
  endpoints := d.endpoints.erase nodeId.value
  reservations := d.reservations.erase nodeId.value
  placements := d.placements.retain (· ≠ nodeId.value)

def markDraining (nodeId : OpaqueId) :
    Except SfuPlacementError Unit × SfuClusterDirectory :=
  match d.nodes.get nodeId.value with
  | none      => (.error .invalidNode, d)
  | some node =>
    (.ok (), { d with nodes := d.nodes.put nodeId.value { node with state := .draining } })

-- The workers in the order of their ids, as the map of them is walked.
def nodesInOrder : List SfuNodeDescriptor :=
  d.nodes.values.sortOn (·.nodeId.value)

def preferRegion (policy : SfuPlacementPolicy) (candidates : List SfuNodeDescriptor) :
    Except SfuPlacementError (List SfuNodeDescriptor) :=
  match policy.preferredRegion with
  | none => .ok candidates
  | some region =>
    if candidates.any (·.region = region) then
      .ok (candidates.filter (·.region = region))
    else if policy.allowCrossRegionFailover then
      .ok candidates
    else
      .error .noHealthyCapacity

def selectPlacementCandidate (key : Bytes) (policy : SfuPlacementPolicy)
    (nowUnixMs : ℤ) (excludedNodeId : Option String) :
    Except SfuPlacementError SfuNodeDescriptor := do
  let candidates := (d.nodesInOrder.filter (d.acceptsNewSessionAt · nowUnixMs)).filter
    (excludedNodeId ≠ some ·.nodeId.value)
  Except.rejectIf candidates.isEmpty .noHealthyCapacity
  let candidates ← preferRegion policy candidates
  (maxByKey (fun node => (placementScore key node.nodeId.asWireBytes).toNat) candidates).okOr
    .noHealthyCapacity

def crossesRegion (policy : SfuPlacementPolicy) (node : SfuNodeDescriptor) : Bool :=
  policy.preferredRegion.any (node.region ≠ ·)

def migrateSessionPlacement (key : Bytes) (currentNodeId : String)
    (policy : SfuPlacementPolicy) (nowUnixMs : ℤ) :
    Except SfuPlacementError (Option SfuPlacementDecision) × SfuClusterDirectory :=
  match d.selectPlacementCandidate key policy nowUnixMs (some currentNodeId) with
  | .error .noHealthyCapacity => (.ok none, d)
  | .error e => (.error e, d)
  | .ok selected =>
    match d.reserveSession selected.nodeId.value with
    | (.error e, d) => (.error e, d)
    | (.ok (), d)   =>
      match d.releaseReservation currentNodeId with
      | (.error e, d) => (.error e, (d.releaseReservation selected.nodeId.value).2)
      | (.ok (), d)   =>
        (.ok (some ⟨selected.nodeId, false, crossesRegion policy selected⟩),
          { d with placements := d.placements.put key selected.nodeId.value })

-- A call that cannot stay has to go somewhere else.
def replaceSession (key : Bytes) (currentNodeId : String)
    (policy : SfuPlacementPolicy) (nowUnixMs : ℤ) :
    Except SfuPlacementError SfuPlacementDecision × SfuClusterDirectory :=
  match d.migrateSessionPlacement key currentNodeId policy nowUnixMs with
  | (.error e, d) => (.error e, d)
  | (.ok (some migrated), d) => (.ok migrated, d)
  | (.ok none, d) => (.error .noHealthyCapacity, d)

def placeSession (scope : TenantScope) (callId : CallId)
    (policy : SfuPlacementPolicy) (nowUnixMs : ℤ) :
    Except SfuPlacementError SfuPlacementDecision × SfuClusterDirectory :=
  let key := placementKey scope callId
  match d.placements.get key with
  | some currentNodeId =>
    match d.nodes.get currentNodeId with
    | some current =>
      let crossed := crossesRegion policy current
      let usable := current.isLiveAt nowUnixMs && current.activeSessions ≤ current.maxSessions &&
        (!crossed || policy.allowCrossRegionFailover)
      if usable && current.state = .healthy then
        (.ok ⟨current.nodeId, true, crossed⟩, d)
      else if usable && current.state = .draining then
        match d.migrateSessionPlacement key currentNodeId policy nowUnixMs with
        | (.error e, d) => (.error e, d)
        | (.ok (some migrated), d) => (.ok migrated, d)
        | (.ok none, d) => (.ok ⟨current.nodeId, true, crossed⟩, d)
      else
        d.replaceSession key currentNodeId policy nowUnixMs
    | none => d.replaceSession key currentNodeId policy nowUnixMs
  | none =>
    match d.selectPlacementCandidate key policy nowUnixMs none with
    | .error e     => (.error e, d)
    | .ok selected =>
      match d.reserveSession selected.nodeId.value with
      | (.error e, d) => (.error e, d)
      | (.ok (), d)   =>
        (.ok ⟨selected.nodeId, false, crossesRegion policy selected⟩,
          { d with placements := d.placements.put key selected.nodeId.value })

def releaseSessionIfPresent (scope : TenantScope) (callId : CallId) :
    Except SfuPlacementError Bool × SfuClusterDirectory :=
  let key := placementKey scope callId
  match d.placements.get key with
  | none => (.ok false, d)
  | some nodeId =>
    if (d.nodes.get nodeId).isNone then
      (.error .invalidNode, d)
    else
      match d.releaseReservation nodeId with
      | (.error e, d) => (.error e, d)
      | (.ok (), d)   => (.ok true, { d with placements := d.placements.erase key })

def releaseSession (scope : TenantScope) (callId : CallId) :
    Except SfuPlacementError Unit × SfuClusterDirectory :=
  match d.releaseSessionIfPresent scope callId with
  | (.error e, d)  => (.error e, d)
  | (.ok true, d)  => (.ok (), d)
  | (.ok false, d) => (.error .invalidNode, d)

end SfuClusterDirectory

inductive SfuOp
  | upsertNode (node : SfuNodeDescriptor)
  | upsertNodeWithEndpoint (node : SfuNodeDescriptor) (endpoint : SfuNodeEndpoint)
  | pruneExpiredNodes (nowUnixMs : ℤ)
  | removeNode (nodeId : OpaqueId)
  | markDraining (nodeId : OpaqueId)
  | placeSession (scope : TenantScope) (callId : CallId) (policy : SfuPlacementPolicy) (nowUnixMs : ℤ)
  | releaseSession (scope : TenantScope) (callId : CallId)
  | releaseSessionIfPresent (scope : TenantScope) (callId : CallId)

def SfuOp.apply (d : SfuClusterDirectory) : SfuOp → SfuClusterDirectory
  | upsertNode node => (d.upsertNode node).2
  | upsertNodeWithEndpoint node endpoint => (d.upsertNodeWithEndpoint node endpoint).2
  | pruneExpiredNodes nowUnixMs => (d.pruneExpiredNodes nowUnixMs).2
  | removeNode nodeId => d.removeNode nodeId
  | markDraining nodeId => (d.markDraining nodeId).2
  | placeSession scope callId policy nowUnixMs => (d.placeSession scope callId policy nowUnixMs).2
  | releaseSession scope callId => (d.releaseSession scope callId).2
  | releaseSessionIfPresent scope callId => (d.releaseSessionIfPresent scope callId).2

end Ucr
