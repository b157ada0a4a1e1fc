import Beacon.Config.Printer
import Beacon.Inbox
import Beacon.Playlist
import Beacon.Proofs.Access
import Beacon.Proofs.Addresses
import Beacon.Proofs.Adoption
import Beacon.Proofs.Announcing
import Beacon.Proofs.Armed
import Beacon.Proofs.BeaconTime
import Beacon.Proofs.BlockCipher
import Beacon.Proofs.Dwell
import Beacon.Proofs.EventLog
import Beacon.Proofs.FactoryReset
import Beacon.Proofs.FlashRuns
import Beacon.Proofs.FrameGrammar
import Beacon.Proofs.Freshness
import Beacon.Proofs.Isolation
import Beacon.Proofs.KeyWrapping
import Beacon.Proofs.Opening
import Beacon.Proofs.Ownership
import Beacon.Proofs.Payloads
import Beacon.Proofs.Pending
import Beacon.Proofs.Polling
import Beacon.Proofs.PublishedMode
import Beacon.Proofs.Readings
import Beacon.Proofs.Recompression
import Beacon.Proofs.Rejection
import Beacon.Proofs.Reports
import Beacon.Proofs.Restart
import Beacon.Proofs.Ringing
import Beacon.Proofs.ScanRoom
import Beacon.Proofs.Sharing
import Beacon.Proofs.Silencing
import Beacon.Proofs.SlotData
import Beacon.Proofs.Tampering
import Beacon.Proofs.TimerConservation
import Beacon.Proofs.Tokens
import Beacon.Proofs.Truncation
import Beacon.Proofs.Tuning
import Beacon.Proofs.Unlocking
import Beacon.Proofs.WellFormed
import Beacon.Transcript
