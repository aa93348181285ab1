import CompNet.Lib.Path
import CompNet.Lib.Dialogue
import CompNet.Lib.Command
import CompNet.Lib.CString
import CompNet.Lib.ByteStream
import CompNet.Lib.TextFile
import CompNet.Lib.Decimal
import CompNet.Lib.Latest
import CompNet.Lib.LastMax
import CompNet.Lib.Slots
import CompNet.Lib.OnesComplement
import CompNet.Lib.Blocks
import CompNet.Lib.Sha1
import CompNet.Stcp.Mysock
import CompNet.Stcp.Reading
import CompNet.Stcp.Transport
import CompNet.Stcp.Close
import CompNet.Stcp.Stream
import CompNet.Stcp.System
import CompNet.Stcp.Window
import CompNet.Stcp.Unreliable
import CompNet.Stcp.Receive
import CompNet.Stcp.Acknowledge
import CompNet.Stcp.Send
import CompNet.Stcp.Listen
import CompNet.Stcp.Accept
import CompNet.Stcp.Shutdown
import CompNet.Stcp.Framing
import CompNet.Stcp.TcpSum
import CompNet.Stcp.Payload
import CompNet.Stcp.Prompt
import CompNet.Stcp.Effort
import CompNet.Stcp.Hosts
import CompNet.Stcp.FileTransfer
import CompNet.Proxy.Parse
import CompNet.Proxy.RequestLine
import CompNet.Proxy.AbsoluteUri
import CompNet.Proxy.Headers
import CompNet.Proxy.RoundTrip
import CompNet.Proxy.HeaderLines
import CompNet.Proxy.PrintedRequests
import CompNet.Proxy.ParseBounds
import CompNet.Proxy.Relay
import CompNet.Proxy.Forwarding
import CompNet.Proxy.Interrupts
import CompNet.Proxy.Injection
import CompNet.Proxy.HeaderStore
import CompNet.Router.Frame
import CompNet.Router.Cache
import CompNet.Router.Mappings
import CompNet.Router.Handlers
import CompNet.Router.Decisions
import CompNet.Router.Routes
import CompNet.Router.Forward
import CompNet.Router.Checksum
import CompNet.Router.TimeToLive
import CompNet.Router.Echo
import CompNet.Router.Bounds
import CompNet.Router.Emission
import CompNet.Router.Uninitialised
import CompNet.Router.Requests
import CompNet.Router.Retries
import CompNet.Router.Queue
import CompNet.Router.Refusal
import CompNet.Router.Search
import CompNet.Router.Sweep
import CompNet.Router.Threads
import CompNet.Router.LoadRt
import CompNet.Router.VnsMessages
import CompNet.Router.VnsReading
import CompNet.Router.Sha1
import CompNet.Router.Auth
import CompNet.Router.VnsServer
import CompNet.Router.Session
import CompNet.Router.MainLoop
