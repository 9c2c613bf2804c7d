import Redog.ClientHello
import Redog.FakeIp
import Redog.Core
import Redog.Socks5
import Redog.BufReader
import Redog.HttpParse
import Redog.Listener
import Redog.HttpListener
import Redog.Rules
import Redog.Tunnel
import Redog.Config
import Redog.Main
import Redog.FrontEnds
import Redog.Reload
import Redog.DomainTrie
import Redog.Startup
import Redog.Statistics
import Redog.Relays
import Redog.Adapters
import Redog.Api
import Redog.Polling
import Redog.UrlTest
import Redog.Selectors
import Redog.FakeIpRange
import Redog.FakeIpStable
import Redog.FakeIpLookups
import Redog.DomainCase
import Redog.HttpSniffer
import Redog.SniffedName
import Redog.HostPort
import Redog.HostSplitters
import Redog.GlobalMode
import Redog.RulePrinting
import Redog.Accounting
import Redog.PartialRequest
import Redog.FakeIpCycle
import Redog.Snapshots
import Redog.NatTable
import Redog.NatCleanup
import Redog.ShellWords
import Redog.SystemProxy
import Redog.Base64
import Redog.ShareUri
import Redog.ShareUriJs
import Redog.NodeList
import Redog.Channel
import Redog.Dispatch
import Redog.Segments
import Redog.MixedListener
import Redog.Client
import Redog.SubscriptionImport
import Redog.NodeStore
import Redog.Daemon
import Redog.Views
import Redog.ClashYaml
import Redog.AddressParse
import Redog.Outbound
import Redog.ProxySwitches
import Redog.SubscriptionText
