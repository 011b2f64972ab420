import Ucr.Conference.Theorems.ActiveSpeaker
import Ucr.FirstParty.Theorems.Generations
import Ucr.Forward.Theorems.Sends
import Ucr.Media.Theorems.GroupMedia
import Ucr.Protocol.Theorems.RecoveryEncoding
import Ucr.Protocol.Theorems.ReplicationCursors
import Ucr.Realtime.Theorems.Attendance
import Ucr.Realtime.Theorems.Bandwidth
import Ucr.Realtime.Theorems.Fencing
import Ucr.Realtime.Theorems.Placement
import Ucr.Recording.Theorems.ReadyEvent
import Ucr.Recording.Theorems.Worker
import Ucr.Recovery.Theorems.Admission
import Ucr.Secrets.Theorems.Provider
import Ucr.Sfu.Theorems.Isolation
import Ucr.Store.Theorems.Acceptance
import Ucr.Store.Theorems.AuditTrail
import Ucr.Store.Theorems.ConferenceRoster
import Ucr.Store.Theorems.Cursors
import Ucr.Store.Theorems.HangUp
import Ucr.Store.Theorems.PendingDeliveries
import Ucr.Store.Theorems.Permanence
import Ucr.Store.Theorems.RateLimit
import Ucr.Store.Theorems.RecordingEvents
