import KubeAir.Transition.Runs
import KubeAir.Core.PodManager
import KubeAir.Core.Phase
import KubeAir.Worker.RestartPolicy
import KubeAir.Manager.SyncDeletion
import KubeAir.Worker.PhaseAgreement
import KubeAir.Adapters.StatusPatch
import KubeAir.Adapters.StatusWrites
import KubeAir.Adapters.PodWatch
import KubeAir.Manager.HostPort
import KubeAir.Manager.HostPortAdmission
import KubeAir.Transition.Program
import KubeAir.Worker.Request
import KubeAir.Worker.Sandbox
import KubeAir.Worker.PodStatusUpdate
import KubeAir.Worker.Node
import KubeAir.Worker.SyncPod
import KubeAir.Worker.NodeFrame
import KubeAir.Worker.SyncFrame
import KubeAir.Worker.PassRuns
import KubeAir.Worker.KnownContainers
import KubeAir.Worker.StartOnce
import KubeAir.Worker.SyncOnce
import KubeAir.Worker.RunOnce
import KubeAir.Manager.Pipeline
import KubeAir.Worker.StatusFrame
import KubeAir.Worker.OpenPass
import KubeAir.Worker.LatePass
import KubeAir.Manager.PipelineFrame
import KubeAir.Manager.TerminalPhase
import KubeAir.Accounting.Partition
import KubeAir.Adapters.CpuManager
import KubeAir.Adapters.CpuIsolation
import KubeAir.Accounting.Ledger
import KubeAir.Adapters.MemoryManager
import KubeAir.Adapters.DeviceManager
import KubeAir.Adapters.DeviceExclusivity
import KubeAir.Adapters.ResourceManager
import KubeAir.Adapters.ResourceAtomicity
import KubeAir.Adapters.Admission
import KubeAir.Adapters.AdmissionCapacity
import KubeAir.Adapters.TaintToleration
import KubeAir.Core.PodEvents
import KubeAir.Worker.Readiness
import KubeAir.Streaming.SpdyWire
import KubeAir.Streaming.PortForward
import KubeAir.Manager.TerminalRuns
import KubeAir.Adapters.Eviction
import KubeAir.Adapters.Pressure
import KubeAir.Streaming.Authorization
import KubeAir.Adapters.TopologyManager
import KubeAir.Adapters.TopologyMerge
import KubeAir.Adapters.TopologyAlignment
import KubeAir.Paths.Lexical
import KubeAir.Transition.Coverage
import KubeAir.Worker.Volumes
import KubeAir.Worker.VolumeMounts
import KubeAir.Worker.MountConfinement
import KubeAir.Worker.VolumeConfinement
import KubeAir.Streaming.HeaderBlock
import KubeAir.Wire.Lines
import KubeAir.Wire.Numeral
import KubeAir.Adapters.LogEntry
import KubeAir.Streaming.HeaderSequence
import KubeAir.Streaming.PortForwardErrors
import KubeAir.Streaming.PortForwardWs
import KubeAir.Streaming.HeaderDecoder
import KubeAir.Streaming.HeaderStream
import KubeAir.Streaming.HeaderAgreement
import KubeAir.Worker.DeviceHoldings
import KubeAir.Worker.StatusWriters
import KubeAir.Manager.StatusCoherence
import KubeAir.Worker.LiveContainers
import KubeAir.Worker.LivePass
import KubeAir.Worker.SingleInstance
import KubeAir.Worker.InitOrder
import KubeAir.Worker.InitPass
import KubeAir.Worker.InitRuns
import KubeAir.Adapters.DeviceRestart
import KubeAir.Core.ClosedChannel
import KubeAir.Core.HostAliases
import KubeAir.Manager.HostPortAgreement
import KubeAir.Manager.Pleg
import KubeAir.Worker.SandboxCleanup
import KubeAir.Adapters.PodObject
import KubeAir.Adapters.PodSources
import KubeAir.Adapters.FileSource
import KubeAir.Adapters.UrlSource
import KubeAir.Manager.Residue
import KubeAir.Transition.Execution
import KubeAir.Worker.RefusedPass
import KubeAir.Manager.HeldPods
import KubeAir.Manager.FinishedPods
import KubeAir.Adapters.LogRotation
import KubeAir.Streaming.ContainerLogs
import KubeAir.Transition.Interleaving
import KubeAir.Adapters.Csi
import KubeAir.Adapters.CompositeVolumes
import KubeAir.Adapters.CsiRelease
import KubeAir.Adapters.VolumeRetry
import KubeAir.Paths.Disk
import KubeAir.Worker.VolumeDisk
import KubeAir.Worker.VolumeSweep
import KubeAir.Worker.VolumeProjection
import KubeAir.Worker.VolumeFetch
import KubeAir.Adapters.Quantity
import KubeAir.Adapters.QuantityPrinting
import KubeAir.Adapters.ApiQos
import KubeAir.Adapters.Cgroup
import KubeAir.Worker.PodCgroup
import KubeAir.Worker.CgroupParent
import KubeAir.Transition.Stamps
import KubeAir.Adapters.NodeConditions
import KubeAir.Manager.ConditionTimes
import KubeAir.Transition.Ranking
import KubeAir.Adapters.EvictionManager
import KubeAir.Adapters.EvictionRanking
import KubeAir.Manager.EvictionProgress
import KubeAir.Adapters.ImageGc
import KubeAir.Manager.ImageGcLoop
import KubeAir.Worker.ContainerResize
import KubeAir.Adapters.StaticManifest
import KubeAir.Transition.Streak
import KubeAir.Adapters.Prober
import KubeAir.Worker.ReadinessProbe
import KubeAir.Worker.Recovery
import KubeAir.Worker.StartOrphans
import KubeAir.Wire.Utf8
import KubeAir.Worker.EnvExpansion
import KubeAir.Wire.KeyValue
import KubeAir.Worker.FieldRef
import KubeAir.Wire.Binary64
import KubeAir.Adapters.NumaSelection
import KubeAir.Worker.DownwardApi
import KubeAir.Worker.ResourceFields
import KubeAir.Worker.ContainerEnv
import KubeAir.Worker.EnvDefinitions
import KubeAir.Worker.EnvLog
import KubeAir.Worker.ContainerSecurity
import KubeAir.Cri.SecurityContext
import KubeAir.Worker.CreatedConfig
import KubeAir.Worker.EffectiveSecurity
import KubeAir.Paths.MakeDirs
import KubeAir.Cri.Mounts
import KubeAir.Adapters.NamedPorts
import KubeAir.Wire.PercentEncoding
import KubeAir.Streaming.ExecQuery
import KubeAir.Streaming.LogLimits
import KubeAir.Wire.ImageReference
import KubeAir.Worker.RegistryHost
import KubeAir.Adapters.ImageGcPlan
import KubeAir.Worker.TerminationMessage
import KubeAir.Transition.Machine
import KubeAir.Accounting.SlidingWindow
import KubeAir.Streaming.RateLimiter
import KubeAir.Adapters.Checkpoint
import KubeAir.Wire.Ranges
import KubeAir.Adapters.CpuList
import KubeAir.Worker.SandboxDns
import KubeAir.Adapters.FsGroup
import KubeAir.Core.FlowProgress
import KubeAir.Core.FlowThreads
import KubeAir.Streaming.SpdyOutput
import KubeAir.Streaming.ExecWs
import KubeAir.Worker.ProbeSafety
import KubeAir.Wire.Base64
import KubeAir.Worker.EnvResolution
import KubeAir.Worker.GcpToken
import KubeAir.Adapters.Bootstrap
import KubeAir.Worker.HostsFile
import KubeAir.Worker.LifecycleHooks
