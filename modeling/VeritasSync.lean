import VeritasSync.Common.Filesystem
import VeritasSync.Common.PathUtils
import VeritasSync.Library.ThreeWay
import VeritasSync.Storage.StateManager
import VeritasSync.Storage.ScanDirectory
import VeritasSync.Sync.SyncManager
import VeritasSync.Sync.SyncHandler
import VeritasSync.Sync.TransferManager
import VeritasSync.Sync.ChunkReceipt
import VeritasSync.Sync.Assembly
import VeritasSync.Sync.DownloadTasks
import VeritasSync.Sync.BackedEntries
import VeritasSync.Sync.DownloadFrame
import VeritasSync.Sync.DownloadCrash
import VeritasSync.Sync.CrashSafety
import VeritasSync.Sync.ChunkPhases
import VeritasSync.Sync.ReceiverSafety
import VeritasSync.Sync.RecordSafety
import VeritasSync.Sync.UpdateSafety
import VeritasSync.Sync.StateSafety
import VeritasSync.Sync.UpdateDecision
import VeritasSync.Sync.Confinement
import VeritasSync.Sync.PathSafety
import VeritasSync.Sync.DecisionAgreement
import VeritasSync.Sync.DeletionSafety
import VeritasSync.Sync.FinalizeSafety
import VeritasSync.Sync.SyncSession
import VeritasSync.P2p.BroadcastManager
import VeritasSync.P2p.FloodExchange
import VeritasSync.P2p.MutualFlood
import VeritasSync.Sync.ResyncSafety
import VeritasSync.Sync.FloodTasks
import VeritasSync.Sync.FloodRequests
import VeritasSync.Sync.FloodSafety
import VeritasSync.Library.Transition
import VeritasSync.Library.Reassembly
import VeritasSync.Library.Bitmap
import VeritasSync.Sync.Upload
import VeritasSync.Sync.UploadSafety
import VeritasSync.Sync.FileRemoval
import VeritasSync.Sync.ScanSafety
import VeritasSync.Sync.FloodMirror
import VeritasSync.Library.Precedence
import VeritasSync.Storage.CommitChanges
import VeritasSync.Sync.ChangeOrder
import VeritasSync.Sync.ChangeOrderSafety
import VeritasSync.Common.Json
import VeritasSync.Common.Config
import VeritasSync.Tracker.TrackerServer
import VeritasSync.Tracker.Session
import VeritasSync.Tracker.RegistrySafety
import VeritasSync.Tracker.Membership
import VeritasSync.Tracker.GroupIsolation
import VeritasSync.Library.Framing
import VeritasSync.P2p.TrackerFrames
import VeritasSync.P2p.TrackerClient
import VeritasSync.Library.WriteQueue
import VeritasSync.P2p.WriteQueueSafety
import VeritasSync.P2p.StopSafety
import VeritasSync.P2p.KcpSession
import VeritasSync.P2p.SendSafety
import VeritasSync.Storage.CachedFileStore
import VeritasSync.Storage.CacheCoherence
import VeritasSync.Library.Regex
import VeritasSync.Common.StdRegex
import VeritasSync.Storage.FileFilter
import VeritasSync.Storage.ScanChanges
import VeritasSync.Storage.ScanAgreement
import VeritasSync.Storage.WatchedRun
import VeritasSync.Storage.EchoSafety
import VeritasSync.Storage.ScanSnapshot
import VeritasSync.Sync.CompareStates
import VeritasSync.Sync.FreshDownload
import VeritasSync.Sync.DirRemoval
import VeritasSync.Sync.ConflictCopies
import VeritasSync.Net.LanDiscovery
import VeritasSync.P2p.LanDirect
import VeritasSync.Net.TimeoutSafety
import VeritasSync.Storage.RuleOrder
import VeritasSync.Storage.GlobMeaning
import VeritasSync.Storage.ClassReading
import VeritasSync.Storage.GlobReading
import VeritasSync.Storage.GlobCompiler
import VeritasSync.Storage.ShortcutReach
import VeritasSync.Sync.UploadLoop
import VeritasSync.Sync.UploadOrder
import VeritasSync.Sync.ResumedUpload
import VeritasSync.Sync.UploadRecords
import VeritasSync.Sync.ChunkFrames
import VeritasSync.Common.Hashing
import VeritasSync.Common.PathContainment
import VeritasSync.Storage.GuardSafety
import VeritasSync.Sync.CountedEntries
import VeritasSync.Sync.ProgressCounters
import VeritasSync.Library.WrapClock
import VeritasSync.Library.Lines
import VeritasSync.P2p.KcpScheduler
import VeritasSync.Storage.RuleLoaders
import VeritasSync.Net.LanSignaling
import VeritasSync.P2p.IceConnection
import VeritasSync.Sync.BitmapRows
import VeritasSync.Sync.EmptyDirs
import VeritasSync.Library.Assignment
import VeritasSync.Common.ConfigFormat
import VeritasSync.Common.ConfigLoading
import VeritasSync.Common.ConfigRoundTrip
import VeritasSync.P2p.WebUI
import VeritasSync.Library.Settling
import VeritasSync.Storage.ChangePipeline
import VeritasSync.Storage.PipelineSafety
import VeritasSync.Library.LastWriter
import VeritasSync.Storage.PipelineReadings
import VeritasSync.Storage.PipelineAgreement
import VeritasSync.P2p.PeerConnections
import VeritasSync.P2p.ControllerCalls
import VeritasSync.P2p.ConnectionPlaces
import VeritasSync.P2p.ConnectionSafety
import VeritasSync.P2p.RegisteredPeers
import VeritasSync.P2p.TrackedNode
import VeritasSync.Tracker.Acknowledged
import VeritasSync.P2p.SignalDelivery
import VeritasSync.Sync.FileTransfer
import VeritasSync.Sync.SharedFrame
import VeritasSync.Sync.ManyTransfers
import VeritasSync.Library.Simulation
import VeritasSync.P2p.KcpMessages
import VeritasSync.P2p.RoleGate
import VeritasSync.P2p.PacketExchange
import VeritasSync.Sync.MirroredFiles
import VeritasSync.P2p.ActiveNodes
import VeritasSync.P2p.NodeChanges
import VeritasSync.P2p.NodeSafety
import VeritasSync.P2p.PageSecrets
import VeritasSync.P2p.IgnoreRules
import VeritasSync.Storage.LinkedScan
import VeritasSync.Sync.ChangeEffects
import VeritasSync.Sync.ChangeLine
