import WebServer.Bytes
import WebServer.Reading
import WebServer.Text.Blank
import WebServer.Text.Split
import WebServer.Text.Utf8
import WebServer.Text.Size
import WebServer.Text.Percent
import WebServer.Text.Quoted
import WebServer.Digest.Sha1
import WebServer.Digest.Base64
import WebServer.Session.Handle
import WebServer.Session.Mode
import WebServer.Clock
import WebServer.Config
import WebServer.Config.Reader
import WebServer.Outbound
import WebServer.Form
import WebServer.Form.Parameter
import WebServer.Form.Urlencoded
import WebServer.Form.Multipart
import WebServer.Http.Head
import WebServer.Http.Request
import WebServer.Http.Response
import WebServer.WebSocket.Opcode
import WebServer.WebSocket.Frame
import WebServer.WebSocket.Handshake
import WebServer.Transport
import WebServer.Transport.Lock
import WebServer.Transport.InMemory
import WebServer.Transport.Faulty
import WebServer.Session
import WebServer.Registry
import WebServer.Engine.Basic
import WebServer.Engine.Output
import WebServer.Engine.Closing
import WebServer.Engine.Idle
import WebServer.Engine.Events
import WebServer.Engine.Inbound
import WebServer.StaticFiles
import WebServer.Engine.Call
import WebServer.Server
import WebServer.Host.Connections
import WebServer.Host.Driver
import WebServer.Proofs.Http.RoundTrip
import WebServer.Proofs.WebSocket.RoundTrip
import WebServer.Proofs.Outbound.Ledger
import WebServer.Proofs.Output.Delivery
import WebServer.Proofs.Server.Coherence
import WebServer.Proofs.Server.Chunking
import WebServer.Proofs.Server.Ending
import WebServer.Proofs.Server.Notices
import WebServer.Proofs.Server.Timeouts
import WebServer.Proofs.Server.Draining
import WebServer.Proofs.Server.Pipelining
import WebServer.Proofs.Registry.Histories
import WebServer.Proofs.Server.Bounds
import WebServer.Proofs.Server.Fragmentation
import WebServer.Proofs.Host.Driver
import WebServer.Proofs.Http.Boundary
import WebServer.Proofs.Server.Room
import WebServer.Proofs.Server.Isolation
import WebServer.Proofs.Outbound.TakingBack
import WebServer.Proofs.WebSocket.Faithful
import WebServer.Proofs.Form.Damaged
import WebServer.Proofs.Form.RoundTrip
import WebServer.Proofs.Form.Urlencoded
import WebServer.Proofs.Http.Target
import WebServer.Proofs.Http.Framing
import WebServer.Proofs.Http.Relengthening
import WebServer.Proofs.Registry.Handles
import WebServer.Proofs.Server.Sending
import WebServer.Proofs.Server.Limit
import WebServer.Proofs.Server.Broadcasting
import WebServer.Proofs.Server.Serving
