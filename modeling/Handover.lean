import Handover.Bench
import Handover.Command
import Handover.Json.Text
import Handover.Main
import Handover.Proofs.Backoff
import Handover.Proofs.Conservation
import Handover.Proofs.Convert
import Handover.Proofs.Corridor
import Handover.Proofs.Delay
import Handover.Proofs.Finality
import Handover.Proofs.Independence
import Handover.Proofs.Lapse
import Handover.Proofs.OneShot.Replacement
import Handover.Proofs.OptimisticConcurrency
import Handover.Proofs.OutdatedReads
import Handover.Proofs.Pass.Range
import Handover.Proofs.Plan.Greatest
import Handover.Proofs.Poll
import Handover.Proofs.Queue.Service
import Handover.Proofs.Registry.Claims
import Handover.Proofs.Registry.Retention
import Handover.Proofs.Replica
import Handover.Proofs.RoundTrip
import Handover.Proofs.Settling
import Handover.Proofs.Shutdown
import Handover.Proofs.Simulation
import Handover.Proofs.Undisturbed
import Handover.Proofs.Watching
import Handover.Text.Quoted
import Handover.Workload.Format
