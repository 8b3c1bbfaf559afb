import P2PChat.ArrivedFrames
import P2PChat.AttachedClients
import P2PChat.Authentication
import P2PChat.Authenticator
import P2PChat.AuthenticatorQueue
import P2PChat.AuthenticatorRuns
import P2PChat.AuthenticatorWaits
import P2PChat.Base64
import P2PChat.Blocks
import P2PChat.Broadcast
import P2PChat.BufferRefinement
import P2PChat.ByteBuffer
import P2PChat.CEvent
import P2PChat.CallController
import P2PChat.CallLine
import P2PChat.CallRequests
import P2PChat.Checked
import P2PChat.CheckedRing
import P2PChat.ClientFrames
import P2PChat.ClientHandle
import P2PChat.ClientPackets
import P2PChat.ClientRefinement
import P2PChat.ClientRules
import P2PChat.ClientSession
import P2PChat.ClientStreams
import P2PChat.Codec
import P2PChat.CodecFacts
import P2PChat.CodecRoundTrip
import P2PChat.Conductor
import P2PChat.ConductorSteps
import P2PChat.Confidentiality
import P2PChat.Connection
import P2PChat.CrossingCalls
import P2PChat.CrossingRuns
import P2PChat.CrossingSteps
import P2PChat.Deadlocks
import P2PChat.Decimal
import P2PChat.Departures
import P2PChat.Destruction
import P2PChat.Directories
import P2PChat.DrainedBuffers
import P2PChat.Draining
import P2PChat.DroppedChunks
import P2PChat.Endianness
import P2PChat.EndpointInvariants
import P2PChat.EndpointRules
import P2PChat.EndpointSimulation
import P2PChat.EstablishedWires
import P2PChat.FailedWrites
import P2PChat.Fifo
import P2PChat.FixedOverrides
import P2PChat.FoldedValues
import P2PChat.FrameLimits
import P2PChat.Framing
import P2PChat.FramingLoop
import P2PChat.Histories
import P2PChat.HonestPings
import P2PChat.IniAccess
import P2PChat.IniEntries
import P2PChat.IniFile
import P2PChat.IniMap
import P2PChat.IniPorts
import P2PChat.IniReading
import P2PChat.IniRoundTrip
import P2PChat.IniRuns
import P2PChat.Intake
import P2PChat.IntegerParsing
import P2PChat.KeepAlives
import P2PChat.KickCauses
import P2PChat.KickDelivery
import P2PChat.Kicked
import P2PChat.KickedPackets
import P2PChat.KnownPeers
import P2PChat.Launches
import P2PChat.Leb128
import P2PChat.LinkRegistry
import P2PChat.LinkShutdown
import P2PChat.LittleEndian
import P2PChat.LockOrder
import P2PChat.LogListeners
import P2PChat.LoginAgreement
import P2PChat.LoginStreams
import P2PChat.Loop
import P2PChat.MalformedPackets
import P2PChat.Md5
import P2PChat.Md5Compression
import P2PChat.Md5Digest
import P2PChat.Md5Runs
import P2PChat.MemorySettings
import P2PChat.Messages
import P2PChat.NamedValues
import P2PChat.Network
import P2PChat.Newcomers
import P2PChat.Notices
import P2PChat.NullConnections
import P2PChat.NullSockets
import P2PChat.OpenConnections
import P2PChat.Overrides
import P2PChat.OverridesMerge
import P2PChat.Packet
import P2PChat.PacketCalls
import P2PChat.PacketEffects
import P2PChat.PacketFrame
import P2PChat.PacketHandling
import P2PChat.PacketLayouts
import P2PChat.PacketReaders
import P2PChat.PartialWrites
import P2PChat.PassiveSteps
import P2PChat.PeerConnectionClient
import P2PChat.PeerLists
import P2PChat.PendingLogins
import P2PChat.PortUpgrade
import P2PChat.PositionRoundTrip
import P2PChat.Profiles
import P2PChat.QueueRefinement
import P2PChat.QuotedSplitting
import P2PChat.Reassembly
import P2PChat.Reception
import P2PChat.RegisteredLinks
import P2PChat.RelayFidelity
import P2PChat.RelayRouting
import P2PChat.RelayedMessages
import P2PChat.Repository
import P2PChat.Rfc1321
import P2PChat.Ring
import P2PChat.RingBounds
import P2PChat.RingCalls
import P2PChat.RingContents
import P2PChat.RingCopy
import P2PChat.RingSafety
import P2PChat.RootLifecycle
import P2PChat.RootPhases
import P2PChat.RootRuns
import P2PChat.RootStops
import P2PChat.SendThreads
import P2PChat.Server
import P2PChat.ServerCalls
import P2PChat.ServerEffects
import P2PChat.ServerLimits
import P2PChat.ServerLocks
import P2PChat.ServerPackets
import P2PChat.ServerRefinement
import P2PChat.ServerRun
import P2PChat.ServerRuns
import P2PChat.ServerShutdown
import P2PChat.ServerSimulation
import P2PChat.ServerSteps
import P2PChat.ServerStreams
import P2PChat.ServerTick
import P2PChat.Services
import P2PChat.SessionMessages
import P2PChat.SessionPeers
import P2PChat.SettingsAgreement
import P2PChat.SharedContents
import P2PChat.SharedNotifications
import P2PChat.SharedQueue
import P2PChat.SharedRuns
import P2PChat.SharedWakeUps
import P2PChat.ShortWrites
import P2PChat.ShownPeers
import P2PChat.SignOut
import P2PChat.SineTable
import P2PChat.StartSettings
import P2PChat.StateAgreement
import P2PChat.StreamIdentity
import P2PChat.StreamRules
import P2PChat.StringCompression
import P2PChat.StringReplacing
import P2PChat.StringSplitting
import P2PChat.StringTrimming
import P2PChat.StringUtils
import P2PChat.Tally
import P2PChat.ThirdParty
import P2PChat.Threads
import P2PChat.TextDelivery
import P2PChat.TickRules
import P2PChat.TickTiming
import P2PChat.ToldPeers
import P2PChat.TransitionSystem
import P2PChat.TypedCodec
import P2PChat.TypedRoundTrip
import P2PChat.Unicode
import P2PChat.UniqueNames
import P2PChat.UrlDecoding
import P2PChat.Utf16Decoding
import P2PChat.Utf8Decoding
import P2PChat.VarIntDecoding
import P2PChat.WaitGraph
import P2PChat.WholeFrames
import P2PChat.WireStreams
import P2PChat.Wires
