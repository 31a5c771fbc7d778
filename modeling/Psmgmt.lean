import Psmgmt.Rdp.Bookkeeping
import Psmgmt.Rdp.Handshake
import Psmgmt.Rdp.Link
import Psmgmt.Rdp.Reconnect
import Psmgmt.Status.Election
import Psmgmt.Partition.Layout
import Psmgmt.Partition.Ranks
import Psmgmt.Partition.Answers
import Psmgmt.Partition.Pinning
import Psmgmt.Slurm.OutputRun
import Psmgmt.Slurm.BroadcastRun
import Psmgmt.Pelogue.JobRun
import Psmgmt.Slurm.EpilogueRun
import Psmgmt.Pmix.RespawnRun
import Psmgmt.Pmix.ModexRun
import Psmgmt.Slurm.Framing
import Psmgmt.Slurm.ForwardRun
import Psmgmt.Slurm.GpuBalance
import Psmgmt.Slurm.MultiProgStart
import Psmgmt.Pmix.FenceComplete
import Psmgmt.Partition.MastershipRun
import Psmgmt.Partition.MastershipRun
import Psmgmt.Slurm.EpilogueRun
import Psmgmt.Pmix.RespawnRun
import Psmgmt.Pmix.ModexRun
import Psmgmt.Pmix.ModexRun
import Psmgmt.Util.SelectorRun
import Psmgmt.Slurm.StepReservationRun
import Psmgmt.Slurm.PackInfoRun
import Psmgmt.Plugins.DependenciesRun
import Psmgmt.Serial.Destinations
import Psmgmt.Serial.PayloadSize
import Psmgmt.Rdp.Acceptance
import Psmgmt.Rdp.Notifications
import Psmgmt.Options.Replication
import Psmgmt.Hardware.Replication
import Psmgmt.Logger.InputRun
import Psmgmt.Psgw.RequestRun
import Psmgmt.Client.Table
import Psmgmt.Serial.Reading
import Psmgmt.Util.CompListReject
import Psmgmt.Partition.CreationResult
import Psmgmt.Partition.PendingRequestsRun
import Psmgmt.Partition.SlotReturn
import Psmgmt.Common.ItemPoolRun
import Psmgmt.Client.FlushGuard
import Psmgmt.Session.LocalSlots
import Psmgmt.Spawn.PendingRelease
import Psmgmt.Spawn.RequestRelay
import Psmgmt.Hardware.CloseDevs
import Psmgmt.Signal.Adoption
import Psmgmt.Pmi.PutCounts
import Psmgmt.Slurm.PinWiden
import Psmgmt.Pmix.FenceHash
import Psmgmt.Slurm.SattachReplay
import Psmgmt.Common.StrBuf
import Psmgmt.Slurm.PathSymbols
import Psmgmt.Forwarder.Stdin
import Psmgmt.Slurm.StepMemLimits
import Psmgmt.Slurm.StepSlots
import Psmgmt.Nodes.HostTable
import Psmgmt.Startup.ProcessMap
