import QQChat.Lib.BigEndian
import QQChat.Wire.Bytes
import QQChat.Wire.Protocol
import QQChat.Codec.Server
import QQChat.Codec.Client
import QQChat.Codec.Requests
import QQChat.Codec.Responses
import QQChat.Codec.Frames
import QQChat.Codec.Bijection
import QQChat.Lib.Framing
import QQChat.Client.ReadLoop
import QQChat.Lib.Trace
import QQChat.Client.Reconnect
import QQChat.Server.State
import QQChat.Server.Handlers
import QQChat.Server.Step
import QQChat.Lib.Registry
import QQChat.Server.Sessions
import QQChat.Lib.Lockstep
import QQChat.Server.Simulation
import QQChat.Server.Presence
import QQChat.Server.Reader
import QQChat.Server.Stopped
import QQChat.Server.Delivery
import QQChat.Codec.Bounds
import QQChat.Codec.StringLists
import QQChat.Codec.Overlong
import QQChat.Codec.Lengths
import QQChat.Codec.OptionalTails
import QQChat.Codec.VersionTails
import QQChat.Codec.FriendList
import QQChat.Server.Stream
import QQChat.Server.Framed
import QQChat.Server.Answers
import QQChat.Lib.WriteQueue
import QQChat.Server.WriteQueue
import QQChat.Server.CachedPresence
import QQChat.Database.Connections
import QQChat.Lib.Locks
import QQChat.Client.Threads
import QQChat.Client.Deadlock
import QQChat.Client.EntryPoints
import QQChat.Client.Lifecycle
import QQChat.Client.Descriptors
import QQChat.Client.Callbacks
import QQChat.Client.Answered
import QQChat.Database.Schema
import QQChat.Database.Pool
import QQChat.Database.Dispatch
import QQChat.Database.FriendRows
import QQChat.Database.Friends
import QQChat.Database.History
import QQChat.Server.Logins
import QQChat.Server.Relays
import QQChat.System.Wires
import QQChat.System.Answers
import QQChat.System.Messages
import QQChat.Database.Authenticity
import QQChat.Database.Credentials
import QQChat.Database.Recovery
import QQChat.Lib.Lines
import QQChat.Server.Config
import QQChat.Lib.Numeral
import QQChat.Server.Startup
import QQChat.Cache.Redis
import QQChat.Cache.Manager
import QQChat.Cache.Entries
import QQChat.Server.Commands
import QQChat.Database.Accounting
import QQChat.Database.Integrity
import QQChat.Database.Directory
import QQChat.Database.Secrets
import QQChat.System.Draining
import QQChat.System.Outcomes
import QQChat.System.Authentic
import QQChat.System.Refinement
import QQChat.Cache.Served
