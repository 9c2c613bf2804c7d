import Redog.DestinationNetworks
import Redog.HttpListener

/-!
# One destination through two protocols

The same address and port can be asked for by SOCKS5 in binary form and by HTTP CONNECT in
text. Both front ends report the text as the host, but only SOCKS5 also reports the address
as `dst_ip`. Destination networks read nothing else, so through HTTP they match nothing, and
routing goes on to the rules behind them.

## Main results

* `socks5_metadata`, `http_metadata`: the metadata of the two front ends.
* `sameAdapter_iff`: the front ends agree exactly when no destination network makes the
  difference.
-/

namespace Redog

open Rust

/-- The metadata of a SOCKS5 request for an address. -/
def addressMetadata (peerAddr : SocketAddr) (ip : IpAddr) (port : UInt16) : Metadata where
  network := .tcp
  inboundType := .socks5
  srcAddr := peerAddr
  dstIp := some ip
  dstPort := port
  host := some ip.display

/-- What SOCKS5 reports for a CONNECT request that carries an address. -/
theorem socks5_metadata (ip : IpAddr) (port : UInt16) (peerAddr : SocketAddr)
    {methods : List UInt8} (hlen : methods.length ≤ 255) (rsv : UInt8) {payload : List UInt8}
    {s : Socket}
    (hs : s.unread = greeting methods ++ requestBytes .connect rsv (.ip ⟨ip, port⟩) ++ payload) :
    ∃ conn t, handleSocks5 peerAddr s = .ok conn t ∧
      conn.metadata = addressMetadata peerAddr ip port := by
  obtain ⟨t, ht, -⟩ := dialogue_serverHandshake.complete (a := (Command.connect, .ip ⟨ip, port⟩))
    ⟨methods, rsv, rfl, hlen, trivial, rfl⟩ hs
  rw [handleSocks5, acceptSocks5_eq, ht]
  exact ⟨_, t, rfl, rfl⟩

/-- What HTTP reports for a CONNECT request with the address as its target: no address. -/
theorem http_metadata (ip : IpAddr) (port : UInt16) (peerAddr : SocketAddr)
    (head : ConnectHead) (htarget : head.target = authority ip port) (hall : head.Decodes)
    {payload : List UInt8} {s : Socket} (hs : s.unread = head.bytes ++ payload) :
    ∃ conn, handleHttp s peerAddr = .ok conn ∧
      conn.metadata = { addressMetadata peerAddr ip port with
        inboundType := .httpConnect
        dstIp := none } := by
  have hparsed := head.authority
  rw [htarget, parseHostPort_authority] at hparsed
  obtain ⟨hhost, hport⟩ := Prod.mk.inj (Except.ok.inj hparsed)
  obtain ⟨r, hread, ⟨-, lines, r', hr', -⟩ | ⟨hnot, -⟩⟩ := head.read hs
  · rw [handleHttp_connect head hread, hr', ← hhost, ← hport]
    exact ⟨_, rfl, rfl⟩
  · exact absurd hall hnot

/-! ### Routing -/

section

variable [Crates] {A : Type} [ProxyAdapter A]

/-- **When the protocol does not matter.** A SOCKS5 CONNECT request that carries an address
and an HTTP CONNECT request with its text as the target are accepted, and routed to the same
adapter exactly when no destination network makes the difference. -/
theorem sameAdapter_iff (rules : List Rule) (proxies : ProxyMap A) (ip : IpAddr)
    (port : UInt16) (peerAddr : SocketAddr) {methods : List UInt8}
    (hlen : methods.length ≤ 255) (rsv : UInt8) {payload : List UInt8} {s : Socket}
    (hs : s.unread = greeting methods ++ requestBytes .connect rsv (.ip ⟨ip, port⟩) ++ payload)
    (head : ConnectHead) (htarget : head.target = authority ip port) (hall : head.Decodes)
    {payload' : List UInt8} {s' : Socket} (hs' : s'.unread = head.bytes ++ payload') :
    ∃ conn t conn', handleSocks5 peerAddr s = .ok conn t ∧ handleHttp s' peerAddr = .ok conn' ∧
      ((ruleMatch rules proxies conn.metadata).adapter =
          (ruleMatch rules proxies conn'.metadata).adapter ↔
        NetworksAgree rules proxies (addressMetadata peerAddr ip port)) := by
  obtain ⟨conn, t, hconn, hmetadata⟩ := socks5_metadata ip port peerAddr hlen rsv hs
  obtain ⟨conn', hconn', hmetadata'⟩ := http_metadata ip port peerAddr head htarget hall hs'
  refine ⟨conn, t, conn', hconn, hconn', ?_⟩
  rw [hmetadata, hmetadata']
  exact adapter_eraseDstIp_iff rules proxies _ _

end

/-- A CONNECT request for `10.0.0.1:80`, which names the address in its request line. -/
def addressHead : ConnectHead where
  requestLine := "CONNECT 10.0.0.1:80 HTTP/1.1\r\n"
  headers := []
  blank := utf8 "\r\n"
  isLine_requestLine := by decide
  isLine_headers := fun _ h => absurd h List.not_mem_nil
  not_blank_headers := fun _ h => absurd h List.not_mem_nil
  isLine_blank := isLine_crlf
  blank_blank := blank_crlf
  method := "CONNECT"
  target := "10.0.0.1:80"
  version := "HTTP/1.1"
  more := []
  host := "10.0.0.1"
  port := 80
  words := by decide +kernel
  isConnect := eqIgnoreAsciiCase_self "CONNECT"
  authority := by decide +kernel

/-- The same request in SOCKS5, with the address as four bytes. -/
def addressRequest : List UInt8 :=
  greeting [NO_AUTH] ++ requestBytes .connect 0 (.ip ⟨.v4 (.new 10 0 0 1), 80⟩)

/-- The two requests under rules that reject the network of their address and let everything else
go out directly. -/
theorem sameAdapter_iff_networks :
    letI := ipv4Crates
    ∃ conn t conn', handleSocks5 ⟨.v4 (.new 10 0 0 9), 50000⟩ (.ofBytes (addressRequest ++ [])) =
        .ok conn t ∧
      handleHttp (.ofBytes (addressHead.bytes ++ [])) ⟨.v4 (.new 10 0 0 9), 50000⟩ = .ok conn' ∧
      ((ruleMatch networkRules mainProxies conn.metadata).adapter =
          (ruleMatch networkRules mainProxies conn'.metadata).adapter ↔
        NetworksAgree networkRules mainProxies
          (addressMetadata ⟨.v4 (.new 10 0 0 9), 50000⟩ (.v4 (.new 10 0 0 1)) 80)) := by
  let _ := ipv4Crates
  have hlen : [NO_AUTH].length ≤ 255 := by decide
  exact sameAdapter_iff networkRules mainProxies (.v4 (.new 10 0 0 1)) 80 _ hlen 0
    (Socket.unread_ofBytes _) addressHead (by decide +kernel)
    (fun _ h => absurd h List.not_mem_nil) (Socket.unread_ofBytes _)

/-- A configuration that rejects a private network and sends everything else out directly. -/
def networkConfig : Config where
  rules := ["IP-CIDR,10.0.0.0/8,REJECT", "MATCH,DIRECT"]

/-- The adapter an accepted connection is routed to. -/
def routed [Crates] (config : Config) (conn : Option InboundConnection) : Option Outbound :=
  conn.map fun conn => ((mainTunnel config).matchAdapter conn.metadata).adapter

/-- An address of the network is rejected over SOCKS5 and goes out directly over HTTP. -/
theorem network_bypassed :
    letI := ipv4Crates
    addressHead.target = authority (.v4 (.new 10 0 0 1)) 80 ∧
      routed networkConfig
          (match handleSocks5 ⟨.v4 (.new 10 0 0 9), 50000⟩ (.ofBytes addressRequest) with
            | .ok conn _ => some conn
            | .error _ _ => none) = some .reject ∧
      routed networkConfig
          (handleHttp (.ofBytes addressHead.bytes) ⟨.v4 (.new 10 0 0 9), 50000⟩).toOption =
        some .direct := by
  let _ := ipv4Crates
  refine ⟨?_, ?_, ?_⟩
  · decide +kernel
  · decide +kernel
  · decide +kernel

end Redog
