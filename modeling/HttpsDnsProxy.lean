import HttpsDnsProxy.AddrListing
import HttpsDnsProxy.AddrLists
import HttpsDnsProxy.Bodies
import HttpsDnsProxy.Bootstrap
import HttpsDnsProxy.Bytes
import HttpsDnsProxy.CStrings
import HttpsDnsProxy.CircularBuffers
import HttpsDnsProxy.CommandLine
import HttpsDnsProxy.Connections
import HttpsDnsProxy.Countdowns
import HttpsDnsProxy.Counting
import HttpsDnsProxy.Credentials
import HttpsDnsProxy.CurlDebug
import HttpsDnsProxy.DnsPoller
import HttpsDnsProxy.DnsServer
import HttpsDnsProxy.DnsServerTcp
import HttpsDnsProxy.Fetches
import HttpsDnsProxy.Frames
import HttpsDnsProxy.HttpsClient
import HttpsDnsProxy.IoEvents
import HttpsDnsProxy.Lifecycle
import HttpsDnsProxy.LinkedLists
import HttpsDnsProxy.LogJournal
import HttpsDnsProxy.Logging
import HttpsDnsProxy.Main
import HttpsDnsProxy.Memory
import HttpsDnsProxy.Monitors
import HttpsDnsProxy.Munin
import HttpsDnsProxy.Pinning
import HttpsDnsProxy.PollTimes
import HttpsDnsProxy.PolledProxy
import HttpsDnsProxy.Polling
import HttpsDnsProxy.Processes
import HttpsDnsProxy.ProxyRuns
import HttpsDnsProxy.Recovery
import HttpsDnsProxy.Reentry
import HttpsDnsProxy.Relay
import HttpsDnsProxy.Requests
import HttpsDnsProxy.ResetTimer
import HttpsDnsProxy.ResetTimes
import HttpsDnsProxy.ResolverUrl
import HttpsDnsProxy.RingBuffer
import HttpsDnsProxy.Routing
import HttpsDnsProxy.Runs
import HttpsDnsProxy.SendPacing
import HttpsDnsProxy.Shutdown
import HttpsDnsProxy.SlotTable
import HttpsDnsProxy.Startup
import HttpsDnsProxy.Stat
import HttpsDnsProxy.Statistics
import HttpsDnsProxy.Strtoul
import HttpsDnsProxy.TcpAccept
import HttpsDnsProxy.TcpComplete
import HttpsDnsProxy.TcpDelivery
import HttpsDnsProxy.TcpFraming
import HttpsDnsProxy.TcpIdle
import HttpsDnsProxy.TcpInput
import HttpsDnsProxy.TcpLoop
import HttpsDnsProxy.TcpOutput
import HttpsDnsProxy.TcpProxied
import HttpsDnsProxy.TcpRead
import HttpsDnsProxy.TcpRespond
import HttpsDnsProxy.TcpRuns
import HttpsDnsProxy.TcpSegments
import HttpsDnsProxy.TcpSessions
import HttpsDnsProxy.TcpSplit
import HttpsDnsProxy.TcpTable
import HttpsDnsProxy.Timers
import HttpsDnsProxy.UdpFit
import HttpsDnsProxy.UdpSize
import HttpsDnsProxy.UdpTruncation
