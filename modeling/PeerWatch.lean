import PeerWatch.Main
import PeerWatch.Metrics
import PeerWatch.Store.Tampering
import PeerWatch.CommandLine.Folder
import PeerWatch.Proofs.Records
import PeerWatch.Proofs.Calendar.DayTexts
import PeerWatch.Proofs.IdentityTexts
import PeerWatch.Proofs.IdentityReadings
import PeerWatch.Proofs.Ledgers
import PeerWatch.Proofs.Transactions
import PeerWatch.Proofs.Schedules
import PeerWatch.Proofs.Atomicity
import PeerWatch.Proofs.Seedings
import PeerWatch.Proofs.Readback
import PeerWatch.Proofs.Spans
import PeerWatch.Proofs.SlotAddresses
import PeerWatch.Proofs.Refinement
import PeerWatch.Proofs.Rosters
import PeerWatch.Proofs.Claims
import PeerWatch.Proofs.Interleavings
import PeerWatch.Proofs.Exclusion
import PeerWatch.Proofs.ClaimFrames
import PeerWatch.Proofs.Liveness
import PeerWatch.Proofs.FirstFaults
import PeerWatch.Proofs.Pipeline.Recorders
import PeerWatch.Proofs.Pipeline.Batches
import PeerWatch.Proofs.Pipeline.Loaders
import PeerWatch.Proofs.Pipeline.Systems
import PeerWatch.Proofs.Pipeline.Endings
import PeerWatch.Proofs.Pipeline.Verdicts
import PeerWatch.Proofs.Pipeline.Flows
import PeerWatch.Proofs.Pipeline.Tallies
import PeerWatch.Proofs.Pipeline.CleanStops
import PeerWatch.Proofs.Pipeline.Backpressure
import PeerWatch.Proofs.Pipeline.Answers
import PeerWatch.Proofs.Pipeline.Supervisors
import PeerWatch.Proofs.Pipeline.Progress
import PeerWatch.Proofs.Pipeline.Teardown
import PeerWatch.Proofs.Pipeline.Pools
import PeerWatch.Proofs.Pipeline.LostWorkers
import PeerWatch.Proofs.Pipeline.Deliveries
import PeerWatch.Proofs.Pipeline.Sizes
import PeerWatch.Proofs.Signals
import PeerWatch.Proofs.Attempts
import PeerWatch.Proofs.Phrases
import PeerWatch.Proofs.ExportWindows
import PeerWatch.Proofs.ExportPrefixes
import PeerWatch.Proofs.SharedFiles
import PeerWatch.Proofs.Reopenings
import PeerWatch.Proofs.BatchReports
import PeerWatch.Proofs.Replays
import PeerWatch.Proofs.DamagedRows
import PeerWatch.Proofs.SettingsFaults
import PeerWatch.Proofs.DayTimestamps
import PeerWatch.Proofs.SlotBytes
