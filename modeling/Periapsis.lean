import Periapsis.Apsis.Rollout
import Periapsis.Cgroup.Properties
import Periapsis.Config.Percent
import Periapsis.Config.Ports
import Periapsis.Downward.Tidal
import Periapsis.Foci.Ending
import Periapsis.Foci.FailureReports
import Periapsis.Foci.Frame
import Periapsis.Foci.Ready
import Periapsis.Foci.Stable
import Periapsis.Foci.StoredPhase
import Periapsis.Horizon.StatusOrder
import Periapsis.Horizon.WritePodStatus
import Periapsis.Image.Authenticity
import Periapsis.Image.InflightLayers
import Periapsis.Image.LaterEntries
import Periapsis.Image.PeerWaits
import Periapsis.Image.RoundRobin
import Periapsis.Image.UpToDate
import Periapsis.Lock.Monitor
import Periapsis.Network.Addresses
import Periapsis.Network.Constellation
import Periapsis.Network.Released
import Periapsis.Node.Convergence
import Periapsis.Node.Deletions
import Periapsis.Node.Drain
import Periapsis.Node.Eviction
import Periapsis.Node.Finished
import Periapsis.Node.FreshProbes
import Periapsis.Node.InFlight
import Periapsis.Node.Informer
import Periapsis.Node.InitContainers
import Periapsis.Node.NameIndex
import Periapsis.Node.Overcommit
import Periapsis.Node.PodStatus
import Periapsis.Node.ProbeSchedule
import Periapsis.Node.ProbeThresholds
import Periapsis.Node.Reconciler
import Periapsis.Node.RestartOnce
import Periapsis.Node.RestartPolicy
import Periapsis.Node.Snapshot
import Periapsis.Node.StatusOrigin
import Periapsis.Node.Succeeded
import Periapsis.Node.TerminalDecision
import Periapsis.Node.VolumeIndex
import Periapsis.Podutils.Retries
import Periapsis.Probescheduler.Scheduler
import Periapsis.Queue.Delays
import Periapsis.Queue.GiveUp
import Periapsis.Queue.Wakeup
import Periapsis.Systemd.Identity
import Periapsis.Systemd.Logs
import Periapsis.Systemd.UnitParsers
import Periapsis.Systemd.UnitPath
import Periapsis.Syzygy.NoLostRestart
import Periapsis.Volume.ConfigMaps
import Periapsis.Volume.Retained
