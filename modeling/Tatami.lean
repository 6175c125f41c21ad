import Tatami.Lib.Checked
import Tatami.Lib.Octets
import Tatami.Lib.Utf8
import Tatami.Lib.Cursor
import Tatami.Wire.NameList
import Tatami.Wire.Primitives
import Tatami.Wire.Messages
import Tatami.Wire.KexInit
import Tatami.Wire.ExtInfo
import Tatami.Wire.Ident
import Tatami.Crypto
import Tatami.Keys.Algorithm
import Tatami.Keys.Trust
import Tatami.Keys.HostKey
import Tatami.Tcp.Ident
import Tatami.Tcp.Packet
import Tatami.Tcp.Initial
import Tatami.Tcp.Transcript
import Tatami.Tcp.Gcm
import Tatami.Tcp.Negotiate
import Tatami.Tcp.Handshake.State
import Tatami.Tcp.Handshake.Machine
import Tatami.Lib.Run
import Tatami.Tcp.Handshake.Sending
import Tatami.Tcp.Handshake.Handlers
import Tatami.Tcp.Handshake.Rounds
import Tatami.Tcp.Handshake.Basic
import Tatami.Tcp.Handshake.Runs
import Tatami.Tcp.Handshake.Verification
import Tatami.Tcp.Handshake.Output
import Tatami.Tcp.Handshake.Authentication
import Tatami.Tcp.Handshake.Contract
import Tatami.Tcp.Handshake.Sequence
import Tatami.Lib.Languages
import Tatami.Tcp.Handshake.Grammar
import Tatami.Tcp.Handshake.Total
import Tatami.Lib.Reactor
import Tatami.Tcp.Handshake.Driver
import Tatami.Tcp.Handshake.Honest
import Tatami.Tcp.Handshake.Completeness
import Tatami.Connection.Opening
import Tatami.Connection.Effects
import Tatami.Connection.Invariant
import Tatami.Connection.Handles
import Tatami.Connection.Exchange
import Tatami.Connection.Pair
import Tatami.Tcp.InitialPackets
import Tatami.Tcp.Probe
import Tatami.Tcp.Observer
import Tatami.Tcp.Handshake.Flow
import Tatami.Tcp.FlowControl
import Tatami.Lib.AesGcm
import Tatami.Lib.Sha256
import Tatami.Tcp.Handshake.Reference
import Tatami.Lib.Codec
import Tatami.Keys.BlobCodec
import Tatami.Keys.Spki
import Tatami.Quic.HostKeyVerifier
import Tatami.Tcp.Seam
import Tatami.Tcp.Handshake.Blocking
import Tatami.Tcp.PacketStream
import Tatami.Tcp.NegotiationSpec
import Tatami.Tcp.ProtectedStream
import Tatami.Connection.Numbers
import Tatami.Connection.Replies
import Tatami.Connection.Ledger
import Tatami.Tcp.IdentReference
import Tatami.Lib.Session
import Tatami.Tcp.ChunkIndependence
import Tatami.Tcp.FirstFlight
import Tatami.Tcp.Agreement
import Tatami.Lib.Format
import Tatami.Wire.Codecs
import Tatami.Wire.ExtInfoCodec
import Tatami.Wire.NameListExact
import Tatami.Wire.MpintExact
import Tatami.Keys.Verification
import Tatami.Keys.Glob
import Tatami.Keys.HashedHost
import Tatami.Keys.KnownHosts
import Tatami.Keys.KnownHostsFile
import Tatami.Keys.KnownHostsDecision
import Tatami.HostTrust
import Tatami.Keys.RsaPrivateKey
import Tatami.Keys.Pkcs1
import Tatami.Tcp.Drivers
import Tatami.Tcp.DriverReports
import Tatami.Tcp.Deadlines
import Tatami.Lib.Outbox
import Tatami.Tcp.Listener
import Tatami.Tcp.ListenerBooks
import Tatami.Tcp.ListenerSummary
import Tatami.Lib.Units
import Tatami.Report.Text
import Tatami.Lib.Calendar
import Tatami.Report.Time
