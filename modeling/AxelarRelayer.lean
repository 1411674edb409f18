import AxelarRelayer.Proof.RealtimeCursor
import AxelarRelayer.Proof.CatchUp
import AxelarRelayer.Proof.BatchDelivery
import AxelarRelayer.Proof.Handover
import AxelarRelayer.Proof.PayloadCost
import AxelarRelayer.Proof.TaskEvents
import AxelarRelayer.Proof.GasBound
import AxelarRelayer.Proof.GatewayTask
import AxelarRelayer.Proof.PayloadUpload
import AxelarRelayer.Proof.RecoverableErrors
import AxelarRelayer.Proof.Submissions
import AxelarRelayer.Proof.OwnKey
import AxelarRelayer.Proof.PayloadReclaim
import AxelarRelayer.Proof.Pagination
import AxelarRelayer.Proof.NewestSignature
import AxelarRelayer.Proof.TaskCursor
import AxelarRelayer.Proof.RefundOnce
import AxelarRelayer.Proof.EventForwarding
import AxelarRelayer.Proof.RevertedCost
import AxelarRelayer.Proof.KeptEstimate
import AxelarRelayer.Proof.IndexResolution
import AxelarRelayer.Proof.EventMapping
import AxelarRelayer.Proof.CostShares
import AxelarRelayer.Proof.StateFile
import AxelarRelayer.Proof.Wakeups
import AxelarRelayer.Proof.PacketSize
import AxelarRelayer.Proof.RetriedFailures
import AxelarRelayer.Proof.StreamMerge
import AxelarRelayer.Proof.Assembly
import AxelarRelayer.Proof.FullHistory
import AxelarRelayer.Task.RequestPermit
import AxelarRelayer.Proof.RequestPermits
import AxelarRelayer.Listener.SolanaListener
import AxelarRelayer.Proof.ListenerRuns
import AxelarRelayer.Proof.NothingLost
import AxelarRelayer.Proof.BatchReturns
import AxelarRelayer.Forwarder.Pipeline
import AxelarRelayer.Proof.Pipeline
import AxelarRelayer.Proof.TasksCompleted
import AxelarRelayer.Listener.MergedStream
import AxelarRelayer.Proof.MergedStream
import AxelarRelayer.Proof.SimulatedSends
import AxelarRelayer.Proof.Billing
import AxelarRelayer.Lib.Courses
import AxelarRelayer.Proof.Courses
import AxelarRelayer.Proof.Repeats
