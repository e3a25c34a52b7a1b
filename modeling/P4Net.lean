import P4Net.BigEndianBytes
import P4Net.TextLiterals
import P4Net.OrderedDict
import P4Net.ControlCodec
import P4Net.P4InfoIndex
import P4Net.MatchSemantics
import P4Net.TableEntryRoundTrip
import P4Net.TransitionRuns
import P4Net.SyncClientSteps
import P4Net.SyncClientGenerations
import P4Net.SyncClientEstablished
import P4Net.PacketOutSteps
import P4Net.PacketOutLog
import P4Net.PacketOutStream
import P4Net.AsyncLock
import P4Net.AsyncClientSteps
import P4Net.AsyncClientTeardown
import P4Net.AsyncClientCancellation
import P4Net.AsyncClientOverlap
import P4Net.NetworkTopology
import P4Net.NetworkStartup
import P4Net.StartupAcquires
import P4Net.NetworkTeardown
import P4Net.TeardownRuns
import P4Net.NetworkRollback
import P4Net.ShutdownRetry
import P4Net.LifecycleSteps
import P4Net.LifecycleControl
import P4Net.LifecycleSafety
import P4Net.SelfDelimitingCodes
import P4Net.JsonStrings
import P4Net.CompilerCacheKey
import P4Net.PipelineIndex
import P4Net.CachePublication
import P4Net.CacheSafety
import P4Net.CacheProvenance
import P4Net.CompileCalls
import P4Net.CompileSafety
import P4Net.ChildProcesses
import P4Net.SwitchProcesses
import P4Net.NamedInterfaces
import P4Net.VethLifecycle
import P4Net.VethSafety
import P4Net.BuilderInvariants
import P4Net.WiringSafety
import P4Net.TopologySnapshots
import P4Net.ServicePorts
import P4Net.NetemFormats
import P4Net.LinkImpairments
import P4Net.DirectionParams
import P4Net.DurationSums
import P4Net.SwitchNumbering
import P4Net.TextJoins
import P4Net.RegexPatterns
import P4Net.IntegerLiterals
import P4Net.MacAddresses
import P4Net.AddressTexts
import P4Net.LiteralClasses
import P4Net.Ipv6Texts
import P4Net.FormattedValues
import P4Net.TextLines
import P4Net.RegisterReads
import P4Net.ClientAgreement
import P4Net.DeviceTables
import P4Net.TableClearing
import P4Net.SignalHandlers
import P4Net.SignalHandBack
import P4Net.ShellWords
import P4Net.CommandSections
import P4Net.CommandDispatch
import P4Net.MatchTexts
import P4Net.TableCommandLines
import P4Net.NameableEntries
import P4Net.ByteNormalForm
import P4Net.FieldValues
import P4Net.ControllerMetadata
import P4Net.PacketInHandlers
import P4Net.RpcErrors
import P4Net.SysctlKeys
import P4Net.ValidationRules
import P4Net.AutomaticPorts
import P4Net.MethodContracts
import P4Net.IpAddresses
import P4Net.Ipv6Readiness
import P4Net.PollingLoops
import P4Net.Bmv2Readiness
import P4Net.DurationTexts
import P4Net.ValueSets
import P4Net.MatchDenotations
import P4Net.Transcripts
import P4Net.RuleTables
import P4Net.RegisterFiles
import P4Net.DeviceEntities
import P4Net.LinuxNetwork
import P4Net.LinkDeployment
import P4Net.Deployment
import P4Net.MachineLeases
import P4Net.NetworkSessions
import P4Net.PacketInWaiters
