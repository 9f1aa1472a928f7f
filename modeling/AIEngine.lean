import AIEngine.Library.Transition
import AIEngine.Library.Slots
import AIEngine.Library.PrefixTree
import AIEngine.Library.Chains
import AIEngine.Library.Walks
import AIEngine.Cache
import AIEngine.Pool.Client
import AIEngine.Pool.Ownership
import AIEngine.Pool.Exclusivity
import AIEngine.Pool.Kept
import AIEngine.Pool.Accounts
import AIEngine.Flow
import AIEngine.Tcp.States
import AIEngine.Tcp.ComputeState
import AIEngine.Tcp.Handshake
import AIEngine.FlowCache
import AIEngine.Frequency
import AIEngine.Recycling
import AIEngine.Resources.World
import AIEngine.Resources.Spec
import AIEngine.Resources.ReleaseCache
import AIEngine.Resources.HttpRelease
import AIEngine.Resources.Interning
import AIEngine.Resources.HttpRuns
import AIEngine.Library.OrderedIndex
import AIEngine.Resources.Application
import AIEngine.Resources.Attachments
import AIEngine.Resources.Ledger
import AIEngine.Resources.LedgerSteps
import AIEngine.Resources.LedgerPayload
import AIEngine.Resources.Conservation
import AIEngine.Transport.FlowManager
import AIEngine.Transport.Packets
import AIEngine.Transport.Spec
import AIEngine.Transport.Sound
import AIEngine.Transport.Outcome
import AIEngine.Transport.Expiry
import AIEngine.Transport.Survival
import AIEngine.Transport.Timers
import AIEngine.Transport.Conversations
import AIEngine.Transport.Direction
import AIEngine.Stack.FlowForwarder
import AIEngine.Stack.StackLan
import AIEngine.PacketDispatcher
import AIEngine.IPSetManager
import AIEngine.Library.Directory
import AIEngine.Library.Pcap
import AIEngine.Evidence.EvidenceManager
import AIEngine.Evidence.RoundTrip
import AIEngine.Gprs.GPRSProtocol
import AIEngine.Gprs.OwnPacket
import AIEngine.Gprs.Filing
import AIEngine.Gprs.Sessions
import AIEngine.Http.HTTPHeader
import AIEngine.Http.HTTPProtocol
import AIEngine.Http.Lines
import AIEngine.Http.Strings
import AIEngine.Http.Stock
import AIEngine.Http.Exceptions
import AIEngine.Resources.HttpHits
import AIEngine.Resources.HttpHitRuns
import AIEngine.Applications.Inspector
import AIEngine.Applications.DNSProtocol
import AIEngine.Applications.Mail
import AIEngine.Applications.SIPProtocol
import AIEngine.Applications.SSDPProtocol
import AIEngine.Applications.SSLProtocol
import AIEngine.Applications.Touches
import AIEngine.Applications.Works
import AIEngine.Applications.HttpWorks
import AIEngine.Applications.ParserWorks
import AIEngine.Applications.Engine
import AIEngine.Applications.FrequencyWorks
import AIEngine.Applications.InfoPools
import AIEngine.Applications.BanLatch
import AIEngine.Applications.EmptyUri
import AIEngine.Applications.EngineRuns
import AIEngine.Applications.NullPointers
import AIEngine.Names.DomainNameManager
import AIEngine.Names.LongestMatch
import AIEngine.Names.MatchCounts
import AIEngine.Regex.Regexs
import AIEngine.Regex.ChainRuns
import AIEngine.Regex.Payloads
import AIEngine.Regex.Printing
import AIEngine.Http.HeaderBlocks
import AIEngine.Http.LineWise
import AIEngine.Http.RequestLine
import AIEngine.Http.AttachRuns
import AIEngine.Http.Body
import AIEngine.Http.BodyRuns
import AIEngine.Http.Homes
import AIEngine.Http.RequestRuns
import AIEngine.Http.Messages
import AIEngine.Http.BodyTracking
import AIEngine.Stack.IPProtocol
import AIEngine.Stack.IPv6Protocol
import AIEngine.Stack.ExtensionHeaders
import AIEngine.Stack.ExtensionChains
import AIEngine.Applications.Reads
import AIEngine.Applications.Infos
import AIEngine.Applications.Keyed
import AIEngine.Dns.Names
import AIEngine.Dns.Answers
import AIEngine.Dns.Bounds
import AIEngine.Dns.Queries
import AIEngine.Dns.Responses
import AIEngine.Ssl.Bounds
import AIEngine.Ssl.ClientHello
import AIEngine.Ssl.Hosts
import AIEngine.Stack.MPLSProtocol
import AIEngine.Tcp.Sequences
import AIEngine.Transport.Segments
import AIEngine.Library.OnesComplement
import AIEngine.Reject.Headers
import AIEngine.Reject.Checksums
import AIEngine.Reject.ICMPChecksums
import AIEngine.Reject.RejectManager
import AIEngine.Sip.Extraction
import AIEngine.Sip.ExtractionRuns
import AIEngine.Library.Refilling
import AIEngine.Sip.ReleaseCache
import AIEngine.Sip.ReleaseRuns
import AIEngine.Transport.Resets
import AIEngine.Transport.FlowBytes
import AIEngine.Transport.Handover
import AIEngine.Stack.TransportLayers
import AIEngine.Stack.ByteCounters
import AIEngine.Stack.Padding
import AIEngine.Frequency.Algebra
import AIEngine.Frequency.Groups
import AIEngine.Frequency.PacketBuffers
import AIEngine.Learner.LearnerEngine
import AIEngine.Learner.Quality
import AIEngine.Learner.Expressions
import AIEngine.Learner.AsciiExpression
import AIEngine.Gprs.ContextBounds
import AIEngine.Snmp.SNMPProtocol
import AIEngine.Applications.MailDomains
import AIEngine.Applications.MailBrackets
import AIEngine.Applications.MailRejections
import AIEngine.Applications.Compare
import AIEngine.Applications.ImapBounds
import AIEngine.Applications.SsdpCounts
import AIEngine.Applications.Readers
import AIEngine.Library.Agreement
import AIEngine.Stack.LinkLayers
import AIEngine.Stack.NetworkStack
import AIEngine.Stack.Passages
import AIEngine.Stack.StackCounts
import AIEngine.Stack.LanTransports
import AIEngine.Stack.Balance
import AIEngine.Stack.Nesting
import AIEngine.Stack.Histories
import AIEngine.Stack.Hops
import AIEngine.Stack.Encapsulation
import AIEngine.Stack.Tunnels
import AIEngine.Library.Register
import AIEngine.Transport.Halves
import AIEngine.Transport.Books
import AIEngine.Transport.Database
import AIEngine.Transport.Progress
import AIEngine.Stack.TunnelTransports
import AIEngine.Stack.Projection
import AIEngine.Stack.Progress
import AIEngine.Stack.Completion
import AIEngine.Stack.OwnResets
import AIEngine.Stack.Evidence
import AIEngine.Stack.Marks
