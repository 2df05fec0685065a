import OpticsAgent.Docker.AnsiStripping
import OpticsAgent.Docker.BuildContext
import OpticsAgent.Docker.BuildWorkspace
import OpticsAgent.Docker.Chunking
import OpticsAgent.Docker.CloneDirectories
import OpticsAgent.Docker.ComposeQueries
import OpticsAgent.Docker.ContainerInspect
import OpticsAgent.Docker.ContainerLifecycle
import OpticsAgent.Docker.ContainerListing
import OpticsAgent.Docker.ContainerQueries
import OpticsAgent.Docker.Deletion
import OpticsAgent.Docker.DeployCommand
import OpticsAgent.Docker.DeploySteps
import OpticsAgent.Docker.DockerEvents
import OpticsAgent.Docker.DockerName
import OpticsAgent.Docker.Effects
import OpticsAgent.Docker.EnvFile
import OpticsAgent.Docker.HistoryProgress
import OpticsAgent.Docker.ImageTags
import OpticsAgent.Docker.JsonRows
import OpticsAgent.Docker.LabelText
import OpticsAgent.Docker.LifecycleSteps
import OpticsAgent.Docker.Lockstep
import OpticsAgent.Docker.LogFollowers
import OpticsAgent.Docker.LogFormat
import OpticsAgent.Docker.LogLines
import OpticsAgent.Docker.LogPaging
import OpticsAgent.Docker.LogSafety
import OpticsAgent.Docker.LogStreaming
import OpticsAgent.Docker.PortMappings
import OpticsAgent.Docker.ServiceDirectory
import OpticsAgent.Docker.StatusColumn
import OpticsAgent.Ecma.Binary64
import OpticsAgent.Ecma.Coercion
import OpticsAgent.Ecma.Json
import OpticsAgent.Ecma.JsonParse
import OpticsAgent.Ecma.JsonPath
import OpticsAgent.Ecma.JsonReader
import OpticsAgent.Ecma.JsonScan
import OpticsAgent.Ecma.Number
import OpticsAgent.Ecma.NumberText
import OpticsAgent.Ecma.PlainText
import OpticsAgent.Ecma.Property
import OpticsAgent.Ecma.Split
import OpticsAgent.Ecma.StringToNumber
import OpticsAgent.Ecma.Value
import OpticsAgent.Lib.Acceptor
import OpticsAgent.Lib.Framing
import OpticsAgent.Lib.InsertionMap
import OpticsAgent.Lib.Machine
import OpticsAgent.Lib.Pipe
import OpticsAgent.Lib.Placement
import OpticsAgent.Lib.Program
import OpticsAgent.Lib.Protocol
import OpticsAgent.Node.Crypto
import OpticsAgent.Node.FileSystem
import OpticsAgent.Node.Path
import OpticsAgent.Node.Utf8RoundTrip
import OpticsAgent.Notify.NotifyService
import OpticsAgent.Notify.PendingRequest
import OpticsAgent.Service.EventOwner
import OpticsAgent.Service.ServiceLifecycle
import OpticsAgent.Terminal.SessionIsolation
import OpticsAgent.Terminal.SshTerminalService
import OpticsAgent.Tunnel.AgentIdentity
import OpticsAgent.Tunnel.Bridge
import OpticsAgent.Tunnel.CommandScope
import OpticsAgent.Tunnel.Commands
import OpticsAgent.Tunnel.DeleteOutcome
import OpticsAgent.Tunnel.DeletedService
import OpticsAgent.Tunnel.DeployOutcome
import OpticsAgent.Tunnel.DeployOutline
import OpticsAgent.Tunnel.DeployPipeline
import OpticsAgent.Tunnel.ErrorLog
import OpticsAgent.Tunnel.ImageReclaim
import OpticsAgent.Tunnel.LifecycleAgreement
import OpticsAgent.Tunnel.LineReader
import OpticsAgent.Tunnel.OlderLogs
import OpticsAgent.Tunnel.PoolAccounting
import OpticsAgent.Tunnel.PoolRefill
import OpticsAgent.Tunnel.PoolSuspension
import OpticsAgent.Tunnel.PoolTimers
import OpticsAgent.Tunnel.ReadBytes
import OpticsAgent.Tunnel.RefillRounds
import OpticsAgent.Tunnel.ReverseTunnel
import OpticsAgent.Tunnel.Segmentation
import OpticsAgent.Tunnel.SessionMarkers
import OpticsAgent.Tunnel.SignedCommands
import OpticsAgent.Tunnel.SnapshotMirror
import OpticsAgent.Tunnel.StopOutcome
import OpticsAgent.Tunnel.TaskHistory
import OpticsAgent.Update.AgentVersion
import OpticsAgent.Update.Installation
import OpticsAgent.Update.SelfUpdate
import OpticsAgent.Update.UpdateScript
import OpticsAgent.Update.UpdaterLogs
import OpticsAgent.Utility.Canonical
import OpticsAgent.Utility.Hash
import OpticsAgent.Utility.MetricRetention
import OpticsAgent.Utility.NumberSlicer
import OpticsAgent.Utility.ObjectGraph
import OpticsAgent.Utility.Performance
import OpticsAgent.Utility.Replay
import OpticsAgent.Utility.SigningText
import OpticsAgent.Utility.SocketEmitter
import OpticsAgent.Utility.SocketListener
import OpticsAgent.Utility.WireRoundTrip
