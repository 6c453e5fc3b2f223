import Gearsdk.Transition
import Gearsdk.OrderedMap
import Gearsdk.Message
import Gearsdk.Room
import Gearsdk.Hiredis
import Gearsdk.Roomserver
import Gearsdk.Room.Invariant
import Gearsdk.Room.Countdown
import Gearsdk.Room.Trace
import Gearsdk.Roomserver.Calls
import Gearsdk.Roomserver.Effect
import Gearsdk.Roomserver.Lifecycle
import Gearsdk.Roomserver.Lists
import Gearsdk.Roomserver.Observed
import Gearsdk.Room.Seats
import Gearsdk.Roomserver.Registry
import Gearsdk.Roomserver.Registration
import Gearsdk.Roomserver.Anchored
import Gearsdk.Roomserver.Reconnect
import Gearsdk.Roomserver.Matchmaking
import Gearsdk.Roomserver.NewConnections
import Gearsdk.Roomserver.FirstRoom
import Gearsdk.Roomserver.Counters
import Gearsdk.ReqRes
import Gearsdk.Authentication
import Gearsdk.Qh3server
import Gearsdk.Qh3server.Exchanges
import Gearsdk.Qh3server.PluginResponses
import Gearsdk.Qh3server.ParseCallbacks
import Gearsdk.Qnetwork
import Gearsdk.Qnetwork.Framing
import Gearsdk.Buffer
import Gearsdk.Qaddress
import Gearsdk.Qh3router
import Gearsdk.Qh3server.Datagrams
import Gearsdk.Qh3router.Relay
import Gearsdk.Qh3router.Routes
import Gearsdk.Qh3router.Runs
import Gearsdk.Qh3router.Affinity
import Gearsdk.Qh3router.Shutdown
import Gearsdk.Qlogfile
import Gearsdk.Qstatslogger
import Gearsdk.QstatsCrawler
import Gearsdk.Sql
import Gearsdk.Qstring.Split
import Gearsdk.Trim
import Gearsdk.ServerInfoReader
import Gearsdk.ServerInfoReader.Agreement
import Gearsdk.Qh3client
import Gearsdk.Qh3client.Helper
import Gearsdk.Qzookeeper
import Gearsdk.Qzookeeper.Runs
import Gearsdk.Qzookeeper.Convergence
import Gearsdk.Json.Text
import Gearsdk.Json.Roundtrip
import Gearsdk.Message.RoomEvents
import Gearsdk.Message.User
import Gearsdk.QstatsCrawler.Records
import Gearsdk.Qlogfile.Names
import Gearsdk.Qlogfile.Sessions
import Gearsdk.Qlogfile.Steps
import Gearsdk.Qlogfile.Segments
import Gearsdk.Qlogfile.Restarts
import Gearsdk.Qlogfile.Archives
import Gearsdk.Qthreadpool
import Gearsdk.Qthreadpool.Runs
import Gearsdk.PluginGameserver
import Gearsdk.PluginGameserver.Messages
import Gearsdk.NapiGameServer
import Gearsdk.NapiGameServer.Order
import Gearsdk.Http3Server
import Gearsdk.Http3Server.Answers
import Gearsdk.ApiUserGet
import Gearsdk.QzookeeperTs
import Gearsdk.QzookeeperTs.Convergence
import Gearsdk.Roomserver.Notifications
import Gearsdk.OutStream
import Gearsdk.Qh3server.Chunks
import Gearsdk.Qh3server.RequestBody
import Gearsdk.Qh3client.Body
import Gearsdk.Qnetwork.SendQueue
import Gearsdk.Qnetwork.Sendmessage
import Gearsdk.Qnetwork.RetryQueue
import Gearsdk.Qbuffer
import Gearsdk.Qh3router.Directory
import Gearsdk.Qh3router.Directory.Runs
import Gearsdk.Qh3router.Suffixes
import Gearsdk.Qaddress.Serialised
import Gearsdk.AddressToken
import Gearsdk.Qh3client.Checksum
import Gearsdk.Qstring.Comparisons
import Gearsdk.Qstring.Replace
import Gearsdk.ReqRes.Names
import Gearsdk.ApiUserGet.Devices
import Gearsdk.Qzookeeper.Callbacks
import Gearsdk.Qzookeeper.GetData
import Gearsdk.Serverconfig.Notifications
import Gearsdk.Timer.AsyncCancel
import Gearsdk.Timer.Runs
import Gearsdk.Http3Server.RoomConfig
import Gearsdk.Roomserver.Malformed
import Gearsdk.Batching
import Gearsdk.QstatsCrawler.Batches
import Gearsdk.Qlogfile.LogQueue
import Gearsdk.Paging
import Gearsdk.Http3Server.Scans
import Gearsdk.Crc32.Table
import Gearsdk.Gxcrc32
import Gearsdk.Qstring.Rejoining
import Gearsdk.Utf16
import Gearsdk.Userserver
import Gearsdk.Javascript
import Gearsdk.Javascript.Reading
import Gearsdk.Utf16.Spelling
import Gearsdk.Javascript.Properties
import Gearsdk.HeaderUtils
import Gearsdk.Paging.Servers
import Gearsdk.QhiredisTs
import Gearsdk.Javascript.Tasks
import Gearsdk.Userserver.Apis
import Gearsdk.Userserver.Requests
import Gearsdk.DoublyLinked
import Gearsdk.Uthash
import Gearsdk.Uthash.Chains
import Gearsdk.Uthash.Runs
import Gearsdk.Qnetworkserver
import Gearsdk.Roomserver.Frame
import Gearsdk.Qnetworkserver.Actions
import Gearsdk.Qnetworkserver.Runs
import Gearsdk.Qnetworkserver.Connections
import Gearsdk.Borders
import Gearsdk.Utstring
import Gearsdk.Blocks
import Gearsdk.Sha256
import Gearsdk.Sha256.Standard
import Gearsdk.Sha256.Pieces
import Gearsdk.CryptoHelper
import Gearsdk.QlogsCrawler
import Gearsdk.QlogsCrawler.Files
import Gearsdk.QlogsCrawler.Records
import Gearsdk.Utstring.Storage
import Gearsdk.Qh3router.Expiry
import Gearsdk.Qh3router.Fleet
import Gearsdk.Qh3router.Fleet.Runs
