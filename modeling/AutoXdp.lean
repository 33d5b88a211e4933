import AutoXdp.AtomicProg
import AutoXdp.AtomicWord
import AutoXdp.GuardedRun
import AutoXdp.WordBytes
import AutoXdp.XdpKeys
import AutoXdp.XdpMaps
import AutoXdp.XdpRateLimit
import AutoXdp.XdpInterface
import AutoXdp.XdpConntrack
import AutoXdp.XdpParse
import AutoXdp.XdpFirewall
import AutoXdp.TcFlowTrack
import AutoXdp.WindowRateBound
import AutoXdp.CtCalls
import AutoXdp.CtFrames
import AutoXdp.HalfOpenTtl
import AutoXdp.CtExpiry
import AutoXdp.CtHeap
import AutoXdp.PromoteOnce
import AutoXdp.DefaultDeny
import AutoXdp.StateSteps
import AutoXdp.BackendState
import AutoXdp.BackendMaps
import AutoXdp.BackendReconcile
import AutoXdp.BackendFrames
import AutoXdp.ReconcileFrames
import AutoXdp.FailClosed
import AutoXdp.ClosedPortPurge
import AutoXdp.ConnCountWord
import AutoXdp.UdpGlobalLimit
import AutoXdp.UdpGlobalBound
import AutoXdp.LateReadings
import AutoXdp.RateBuckets
import AutoXdp.UdpGlobalPerSecond
import AutoXdp.PerSecondRate
import AutoXdp.SourceIsolation
import AutoXdp.NftRuleset
import AutoXdp.BogonFilter
import AutoXdp.ReconcileSteps
import AutoXdp.ReconcileEffects
import AutoXdp.AppliedMaps
import AutoXdp.Unfailed
import AutoXdp.FirstReconcile
import AutoXdp.SynAgreement
import AutoXdp.RateArming
import AutoXdp.RateLink
import AutoXdp.LpmSets
import AutoXdp.RiskMaps
import AutoXdp.RiskReplace
import AutoXdp.BlocklistReplacement
import AutoXdp.RuntimeCfgRace
import AutoXdp.RuntimeCfgKept
import AutoXdp.ProgSwap
import AutoXdp.ProgSwapAtomic
import AutoXdp.WatchLoop
import AutoXdp.CorrectiveSync
import AutoXdp.RiskSteps
import AutoXdp.KernelReaders
import AutoXdp.PolicyPort
import AutoXdp.CacheTruth
import AutoXdp.SettledMaps
import AutoXdp.FailedReads
import AutoXdp.CursorParser
import AutoXdp.MinecraftPackets
import AutoXdp.MinecraftGrammar
import AutoXdp.DeclaredLength
import AutoXdp.MinecraftHandler
import AutoXdp.MinecraftSession
import AutoXdp.PassedSession
import AutoXdp.SessionCuts
import AutoXdp.UdpDiscovery
import AutoXdp.NetlinkDump
import AutoXdp.DumpComplete
import AutoXdp.PyJson
import AutoXdp.DelimitedLines
import AutoXdp.RelayLines
import AutoXdp.LineFraming
import AutoXdp.UdpProducts
import AutoXdp.CtGc
import AutoXdp.CtGcAgreement
import AutoXdp.StaleRounds
import AutoXdp.StaleMisses
import AutoXdp.NftScript
import AutoXdp.NftSignature
import AutoXdp.ByteOrder
import AutoXdp.SourceMask
import AutoXdp.StatsAccumulator
import AutoXdp.StatsTotals
import AutoXdp.BlocklistRefresh
import AutoXdp.FailingFeed
import AutoXdp.ByteRing
import AutoXdp.RingBuffer
import AutoXdp.RingDrain
import AutoXdp.JsonDumps
import AutoXdp.RelayServer
import AutoXdp.RelayStream
import AutoXdp.PyDict
import AutoXdp.TomlValue
import AutoXdp.ConfigModule
import AutoXdp.ConfigExec
import AutoXdp.ConfigSections
import AutoXdp.ConfigApply
import AutoXdp.AdminEdits
import AutoXdp.ConfigLog
import AutoXdp.EditFrame
import AutoXdp.EditTrusted
import AutoXdp.EditAcl
import AutoXdp.EditPorts
import AutoXdp.EditMeaning
import AutoXdp.AclRules
import AutoXdp.AclRounds
import AutoXdp.ClearingWrites
import AutoXdp.LimitConvergence
import AutoXdp.PolicyResolve
import AutoXdp.PolicyLayout
import AutoXdp.PolicyDrift
