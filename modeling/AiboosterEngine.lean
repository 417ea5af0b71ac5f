import AiboosterEngine.Adapters.Outbounds
import AiboosterEngine.Adapters.Transports
import AiboosterEngine.Adguard.Loadable
import AiboosterEngine.Balancer.Acceptable
import AiboosterEngine.Balancer.UrlTest
import AiboosterEngine.CacheFile.Delayed
import AiboosterEngine.CacheFile.FakeIpMetadata
import AiboosterEngine.CacheFile.Rdrc
import AiboosterEngine.Config.Endpoints
import AiboosterEngine.Config.Parser
import AiboosterEngine.Config.WarpChain
import AiboosterEngine.Core.Agreement
import AiboosterEngine.Core.Settings
import AiboosterEngine.Daemon.ConnectionEvents
import AiboosterEngine.Daemon.StartedService
import AiboosterEngine.Dns.Cached
import AiboosterEngine.Dns.Coalesce
import AiboosterEngine.Dns.Connector
import AiboosterEngine.Dns.Dhcp
import AiboosterEngine.Dns.Edns
import AiboosterEngine.Dns.Framing
import AiboosterEngine.Dns.Hosts
import AiboosterEngine.Dns.Local
import AiboosterEngine.Dns.Retries
import AiboosterEngine.Dns.Tls
import AiboosterEngine.Dns.Udp
import AiboosterEngine.FakeIp.Range
import AiboosterEngine.Group.Selector
import AiboosterEngine.GrpcLite.GunConn
import AiboosterEngine.LazyConn.EarlyWebsocket
import AiboosterEngine.Monitoring.Flags
import AiboosterEngine.Monitoring.Idle
import AiboosterEngine.Monitoring.Signal
import AiboosterEngine.Monitoring.Stage
import AiboosterEngine.Monitoring.TestNow
import AiboosterEngine.Profile.Overridable
import AiboosterEngine.Ray2sing.Tags
import AiboosterEngine.Route.Connection
import AiboosterEngine.Route.Detour
import AiboosterEngine.Route.Formula
import AiboosterEngine.Route.PreMatch
import AiboosterEngine.Route.RemoteRuleSet
import AiboosterEngine.Sniff.Reassembly
import AiboosterEngine.Srs.RoundTrip
import AiboosterEngine.TlsFragment.Conn
import AiboosterEngine.TlsFragment.ServerName
import AiboosterEngine.Traffic.Manager
import AiboosterEngine.Tunnel.Users
import AiboosterEngine.Wireguard.Warp
import AiboosterEngine.Xhttp.Complete
import AiboosterEngine.Xhttp.Reap
import AiboosterEngine.Xhttp.UploadWriter
import AiboosterEngine.Xhttp.Usage
