import CoreVpn.Lib.Computation
import CoreVpn.Lib.Simulation
import CoreVpn.Lib.Machine
import CoreVpn.Lib.Wire
import CoreVpn.Lib.Replay
import CoreVpn.Lib.Checked
import CoreVpn.Lib.BitWindow
import CoreVpn.Lib.Leases
import CoreVpn.Lib.Draws
import CoreVpn.Lib.Tables
import CoreVpn.Lib.Text
import CoreVpn.Lib.Utf8
import CoreVpn.Lib.Search
import CoreVpn.Lib.Lines
import CoreVpn.Lib.Framing
import CoreVpn.Core.Networks
import CoreVpn.Core.AddressPools
import CoreVpn.Core.PoolFamilies
import CoreVpn.Core.PoolRuns
import CoreVpn.Core.PoolFailures
import CoreVpn.Core.PoolSearch
import CoreVpn.Core.Availability
import CoreVpn.Core.Sessions
import CoreVpn.Core.SessionCopies
import CoreVpn.Crypto.Errors
import CoreVpn.Crypto.Replay
import CoreVpn.Crypto.ReplayRuns
import CoreVpn.Crypto.Ciphers
import CoreVpn.Crypto.Decryption
import CoreVpn.Crypto.Encryption
import CoreVpn.Crypto.Nonces
import CoreVpn.Crypto.Forgery
import CoreVpn.Crypto.Keys
import CoreVpn.Crypto.Prf
import CoreVpn.Crypto.StaticKeys
import CoreVpn.Protocol.Errors
import CoreVpn.Protocol.Reliable
import CoreVpn.Protocol.Receive
import CoreVpn.Protocol.Delivery
import CoreVpn.Protocol.ReceiverBooks
import CoreVpn.Protocol.Acks
import CoreVpn.Protocol.Opcodes
import CoreVpn.Protocol.Packets
import CoreVpn.Protocol.PacketFields
import CoreVpn.Protocol.HeaderCodec
import CoreVpn.Protocol.PacketCodec
import CoreVpn.Protocol.DataChannels
import CoreVpn.Protocol.TlsRecords
import CoreVpn.Protocol.Sessions
import CoreVpn.Protocol.Sending
import CoreVpn.Protocol.Datagrams
import CoreVpn.Protocol.DataPath
import CoreVpn.Protocol.Readback
import CoreVpn.Protocol.Builders
import CoreVpn.Protocol.SenderBooks
import CoreVpn.Protocol.SessionFrames
import CoreVpn.Protocol.Traffic
import CoreVpn.Protocol.TlsAuth
import CoreVpn.Protocol.Processing
import CoreVpn.Protocol.ControlReplay
import CoreVpn.Protocol.Retransmits
import CoreVpn.Protocol.Repeats
import CoreVpn.Protocol.Isolation
import CoreVpn.Protocol.SessionRuns
import CoreVpn.Protocol.HardResets
import CoreVpn.Protocol.RecordStreams
import CoreVpn.Protocol.Reassembly
import CoreVpn.Protocol.Fragments
import CoreVpn.Protocol.Flights
import CoreVpn.Protocol.ControlMessages
import CoreVpn.Protocol.KeyMethods
import CoreVpn.Protocol.Totality
import CoreVpn.Protocol.Words
import CoreVpn.Protocol.PushReplies
import CoreVpn.Protocol.PushTexts
import CoreVpn.Protocol.TlsHandlers
import CoreVpn.Protocol.TlsConsumption
import CoreVpn.Protocol.TlsFrames
import CoreVpn.Protocol.TlsConfigs
import CoreVpn.Config.Validation
import CoreVpn.Config.Addresses
import CoreVpn.Config.ClientConfigs
import CoreVpn.Server.Events
import CoreVpn.Server.Connections
import CoreVpn.Server.KeyExchange
import CoreVpn.Server.ControlPackets
import CoreVpn.Server.Handlers
import CoreVpn.Server.HandlerFrames
import CoreVpn.Server.HandlerEffects
import CoreVpn.Server.InstalledKeys
import CoreVpn.Server.AddressLeases
import CoreVpn.Server.PlainHost
import CoreVpn.Server.Routing
import CoreVpn.Server.Accounting
import CoreVpn.Server.OAuthGate
import CoreVpn.Server.StoredConnections
import CoreVpn.Server.SessionRelations
import CoreVpn.Server.ControlAuth
import CoreVpn.Server.Renegotiation
import CoreVpn.Server.Certificates
import CoreVpn.Server.Cleanup
import CoreVpn.Client.KeyExchange
import CoreVpn.Client.MirroredKeys
import CoreVpn.Client.CipherAgreement
import CoreVpn.Client.ServerMessages
import CoreVpn.Client.UntrustedBytes
import CoreVpn.Client.Routes
import CoreVpn.Client.MessageStreams
import CoreVpn.Client.Handshake
import CoreVpn.Client.HandshakeRuns
import CoreVpn.Auth.Errors
import CoreVpn.Auth.Discovery
import CoreVpn.Auth.AuthSessions
import CoreVpn.Auth.StateIndex
import CoreVpn.Auth.RateLimits
import CoreVpn.Auth.LookupBudgets
import CoreVpn.Plugin.Tasks
import CoreVpn.Plugin.Disconnects
import CoreVpn.Cli.Ovpn
import CoreVpn.Cli.Directives
import CoreVpn.Cli.InlineBlocks
import CoreVpn.Cli.KeyTexts
import CoreVpn.Cli.GeneratedConfigs
import CoreVpn.ConnectionLog.Anonymizers
import CoreVpn.ConnectionLog.Abstractions
import CoreVpn.ConnectionLog.DailySalts
import CoreVpn.Server.EventLog
import CoreVpn.Server.SuccessEntries
import CoreVpn.Lib.Rotation
import CoreVpn.ConnectionLog.FileLoggers
import CoreVpn.ConnectionLog.LogRotation
import CoreVpn.Audit.FileSinks
import CoreVpn.Audit.Backups
import CoreVpn.Lib.Json
import CoreVpn.Lib.Numerals
import CoreVpn.Lib.Calendar
import CoreVpn.Lib.Rows
import CoreVpn.Lib.Slices
import CoreVpn.Lib.Outlines
import CoreVpn.Lib.Escapes
import CoreVpn.Lib.KeyValues
import CoreVpn.Lib.LineRecords
import CoreVpn.ConnectionLog.DatabaseLoggers
import CoreVpn.ConnectionLog.EventTexts
import CoreVpn.ConnectionLog.EventRows
import CoreVpn.ConnectionLog.Chronology
import CoreVpn.Crypto.KeyFiles
import CoreVpn.Cli.KeyAgreement
import CoreVpn.Auth.EmailDomains
import CoreVpn.Server.Redaction
import CoreVpn.Audit.AuditEvents
import CoreVpn.Audit.Formats
import CoreVpn.Audit.CefRecords
import CoreVpn.Audit.RecordLines
import CoreVpn.Audit.FailingWrites
import CoreVpn.Audit.Loggers
import CoreVpn.Lib.Blocks
import CoreVpn.Crypto.TlsPrf
import CoreVpn.Audit.Escaping
import CoreVpn.Web.FormTokens
import CoreVpn.Lib.Unwinding
import CoreVpn.Server.PeerIsolation
