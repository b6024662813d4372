import PxxlEdge.Core.BestPath
import PxxlEdge.Control.ChunkedBody
import PxxlEdge.Control.DiscoveryGroups
import PxxlEdge.Control.StaleUpdates
import PxxlEdge.Control.EventStream
import PxxlEdge.Control.Quota
import PxxlEdge.Control.Blacklist
import PxxlEdge.Control.Redact
import PxxlEdge.Control.TokenVerify
import PxxlEdge.Control.DomainRequests
import PxxlEdge.Control.TokenScopes
import PxxlEdge.Control.Bootstrap
import PxxlEdge.Control.CertificateNames
import PxxlEdge.Control.Pbkdf2
import PxxlEdge.Control.Secrets
import PxxlEdge.Security.Traffic
import PxxlEdge.Security.BlockerFiles
import PxxlEdge.Security.RateLimit
import PxxlEdge.LoadBalancer.Rendezvous
import PxxlEdge.LoadBalancer.Accounting
import PxxlEdge.Proxy.PathTraversal
import PxxlEdge.Proxy.HostSpelling
import PxxlEdge.Proxy.StatsSnapshot
import PxxlEdge.Proxy.Compression
import PxxlEdge.Proxy.Mediation
import PxxlEdge.Proxy.TrafficAccount
import PxxlEdge.Proxy.EdgeHeaders
import PxxlEdge.Proxy.ClientAddress
import PxxlEdge.Proxy.HostHeader
import PxxlEdge.Proxy.Retry
import PxxlEdge.Proxy.MiddlewareCost
import PxxlEdge.Proxy.SelectionCost
import PxxlEdge.Proxy.RecoveryTimers
import PxxlEdge.Proxy.InFlight
import PxxlEdge.Proxy.DomainRate
import PxxlEdge.Proxy.DigestHeader
import PxxlEdge.Proxy.StickySessions
import PxxlEdge.Proxy.UpstreamUri
import PxxlEdge.Proxy.Redirects
import PxxlEdge.Proxy.ErrorPage
import PxxlEdge.Analytics.Spool
import PxxlEdge.Analytics.QueryCache
import PxxlEdge.Analytics.ClickhouseText
import PxxlEdge.Tls.Reloader
import PxxlEdge.Database.Reload
import PxxlEdge.Database.StartupPacket
