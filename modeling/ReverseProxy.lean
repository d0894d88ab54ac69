import ReverseProxy.Text
import ReverseProxy.AddrParser
import ReverseProxy.NetAddr
import ReverseProxy.NetAddrText
import ReverseProxy.SocketAddrText
import ReverseProxy.Config
import ReverseProxy.Validation
import ReverseProxy.Routing
import ReverseProxy.BindAddrs
import ReverseProxy.Http
import ReverseProxy.Handler
import ReverseProxy.IdleTracking
import ReverseProxy.RateLimit
import ReverseProxy.Reload
import ReverseProxy.ReloadAtomic
import ReverseProxy.ReloadOrder
import ReverseProxy.Pattern
import ReverseProxy.RateLimitLog
import ReverseProxy.UpstreamTimeout
import ReverseProxy.HeaderRewriting
import ReverseProxy.Connections
import ReverseProxy.Drain
import ReverseProxy.ReloadConsistency
import ReverseProxy.Startup
import ReverseProxy.AdminKey
import ReverseProxy.RateLimitEviction
import ReverseProxy.AccessLog
import ReverseProxy.RateLimitPacing
import ReverseProxy.IdleRelease
import ReverseProxy.RateLimitMapped
import ReverseProxy.IdleTrace
import ReverseProxy.IdleWatchdog
import ReverseProxy.IdleInterleaving
import ReverseProxy.IdleRace
import ReverseProxy.BodyLimit
import ReverseProxy.UriParser
import ReverseProxy.UpstreamUri
import ReverseProxy.ConnectionHeader
import ReverseProxy.AcceptErrors
import ReverseProxy.StaticDrift
import ReverseProxy.Redirect
import ReverseProxy.FileSystem
import ReverseProxy.LogRotation
import ReverseProxy.Repeats
import ReverseProxy.Serving
import ReverseProxy.ServingCalls
import ReverseProxy.Shutdown
import ReverseProxy.ShutdownFlag
import ReverseProxy.SignalReload
import ReverseProxy.ValidationReport
import ReverseProxy.AdminKeyFile
import ReverseProxy.ConnectionProgress
import ReverseProxy.HandlerLog
import ReverseProxy.RateLimitMemory
import ReverseProxy.ShutdownTime
import ReverseProxy.StartupAccepted
import ReverseProxy.UpstreamGrammar
import ReverseProxy.ConnectionEnd
import ReverseProxy.SignalRotation
