import Ucr.Sfu.Directory
import Ucr.Store.State

-- What a conference keeps in memory only, as far as the calls are concerned that it is about.

namespace Ucr

-- Of each entry, the call it belongs to.
structure ConferenceRuntimeState where
  subscriptions : List ScopedId
  raisedHands : List ScopedId
  reactions : List ScopedId
  chatNotifications : List ScopedId
  activeSpeakerReports : List ScopedId
  adaptiveMedia : List ScopedId

namespace ConferenceRuntimeState

variable (state : ConferenceRuntimeState)

def entries : List ScopedId :=
  state.subscriptions ++ state.raisedHands ++ state.reactions ++ state.chatNotifications ++
    state.activeSpeakerReports ++ state.adaptiveMedia

-- The same bytes as for placements.
def trackedCallKey (call : ScopedId) : Bytes :=
  placementKey call.1 call.2

-- The first call of a key stays.
def insertTrackedCall (calls : Table Bytes ScopedId) (call : ScopedId) : Table Bytes ScopedId :=
  if (calls.get (trackedCallKey call)).isSome then calls else calls.put (trackedCallKey call) call

def trackedCalls : List ScopedId :=
  (state.entries.foldl insertTrackedCall ∅).values.sortOn fun call =>
    (trackedCallKey call).map UInt8.toNat

def clearCallEphemeralState (call : ScopedId) :
    ℕ × ConferenceRuntimeState :=
  let cleared : ConferenceRuntimeState := {
    subscriptions := state.subscriptions.filter (· ≠ call)
    raisedHands := state.raisedHands.filter (· ≠ call)
    reactions := state.reactions.filter (· ≠ call)
    chatNotifications := state.chatNotifications.filter (· ≠ call)
    activeSpeakerReports := state.activeSpeakerReports.filter (· ≠ call)
    adaptiveMedia := state.adaptiveMedia.filter (· ≠ call) }
  (state.entries.length - cleared.entries.length, cleared)

end ConferenceRuntimeState

end Ucr
