import Redog.Adapters
import Redog.AddressParse
import Redog.MixedListener

/-!
# Outbound connections

Where the built-in adapters connect to. `Direct` takes the address the client has given, and
has the system look up the name when there is none; `Reject` connects to nothing.

A name is looked up together with the port, as one text with a colon between them. The lookup
takes that text for a socket address when it is one, and cuts it again otherwise.

## Main results

* `lookupHost_destination`: a name keeps its port, whatever it looks like.
* `connected_target`: what a client of the mixed listener is connected to is what it asked for.
-/

namespace Redog

open Rust Rust.BufReader

/-! ### Requests -/

/-- What the first word behind the method names. -/
def requestTarget (method target : String) : Except Error (String × UInt16) :=
  if eqIgnoreAsciiCase method "CONNECT" then parseHostPort target 443
  else extractHostFromTarget target 80

/-- The bytes ask for a connection: they start with a SOCKS5 handshake for CONNECT, or, when
their first one is not the version of SOCKS5, with a request line. -/
inductive Asks (bytes : List UInt8) : Address → Prop
  | socks5 {methods rest : List UInt8} {rsv : UInt8} {target : Address}
      (hlen : methods.length ≤ 255) (hfits : target.Encodable)
      (hbytes : bytes = greeting methods ++ requestBytes .connect rsv target ++ rest) :
      Asks bytes target
  | http {line rest : List UInt8} {text method target version : String} {more : List String}
      {host : String} {port : UInt16} (hfirst : bytes.headD 0 ≠ 0x05)
      (hbytes : bytes = line ++ rest)
      (hline : (∃ l, line = l ++ [0x0A] ∧ 0x0A ∉ l) ∨ 0x0A ∉ line ∧ rest = [])
      (htext : fromUtf8 line = some text)
      (hwords : splitWhitespace (trim text) = method :: target :: version :: more)
      (htarget : requestTarget method target = .ok (host, port)) :
      Asks bytes (.domain host port)

/-- A line that has been read is at the front of the stream. -/
theorem exists_of_readLine {s : Socket} {text : String} {r : BufReader}
    (h : readLine (.new s) = .ok text r) :
    ∃ line, s.unread = line ++ r.unread ∧ fromUtf8 line = some text ∧
      ((∃ l, line = l ++ [0x0A] ∧ 0x0A ∉ l) ∨ 0x0A ∉ line ∧ r.unread = []) := by
  have hspec := readUntil_spec 0x0A (.new s)
  rw [readLine] at h
  generalize readUntil 0x0A (.new s) = res at h hspec
  cases res with
  | error e r' => cases h
  | ok line r' =>
      obtain ⟨hunread, -, hended⟩ := hspec
      cases htext : fromUtf8 line with
      | none =>
          simp only [htext] at h
          cases h
      | some text' =>
          simp only [htext] at h
          obtain ⟨rfl, rfl⟩ := EStateM.Result.ok.inj h
          exact ⟨line, hunread, htext, hended.imp_right fun hend => ⟨hend.1, hend.2.1⟩⟩

/-- The HTTP handler behind the request line: the target is read, then the header lines, and then
the connection is handed on. -/
theorem exists_of_target {target : Except Error (String × UInt16)}
    {inbound : String × UInt16 → BufReader → InboundConnection} {r r' : BufReader}
    {conn : InboundConnection}
    (h : (EStateM.bind (MonadExcept.ofExcept target) fun hostPort =>
      EStateM.bind (EStateM.adaptExcept Error.io readHeaders) fun _ =>
        EStateM.bind get fun r => pure (inbound hostPort r)) r = .ok conn r') :
    ∃ hostPort r'', target = .ok hostPort ∧ conn = inbound hostPort r'' := by
  cases target with
  | error e => cases h
  | ok hostPort =>
      cases hheaders : readHeaders r with
      | error e r'' =>
          simp only [EStateM.bind, EStateM.adaptExcept, MonadExcept.ofExcept, pure, EStateM.pure,
            hheaders] at h
          cases h
      | ok lines r'' =>
          simp only [EStateM.bind, EStateM.adaptExcept, MonadExcept.ofExcept, pure, EStateM.pure,
            hheaders] at h
          exact ⟨hostPort, r'', rfl, (EStateM.Result.ok.inj h).1.symm⟩

/-- What the HTTP handler hands on comes from the request line: the host and the port are those of
its target. -/
theorem exists_of_handleHttp {s : Socket} {peerAddr : SocketAddr} {conn : InboundConnection}
    (h : handleHttp s peerAddr = .ok conn) :
    ∃ text r method target version more host port, readLine (.new s) = .ok text r ∧
      splitWhitespace (trim text) = method :: target :: version :: more ∧
      requestTarget method target = .ok (host, port) ∧ conn.metadata.dstIp = none ∧
      conn.metadata.host = some host ∧ conn.metadata.dstPort = port := by
  rw [handleHttp, own] at h
  cases hread : readLine (.new s) with
  | error e r =>
      simp only [bind, EStateM.bind, liftM, monadLift, MonadLift.monadLift, EStateM.adaptExcept,
        hread] at h
      cases h
  | ok text r =>
      simp only [bind, EStateM.bind, liftM, monadLift, MonadLift.monadLift, EStateM.adaptExcept,
        hread] at h
      rcases hwords : splitWhitespace (trim text) with
        - | ⟨method, - | ⟨target, - | ⟨version, more⟩⟩⟩
      · rw [hwords] at h
        cases h
      · rw [hwords] at h
        cases h
      · rw [hwords] at h
        cases h
      · rw [hwords] at h
        refine ⟨text, r, method, target, version, more, ?_⟩
        by_cases hconnect : eqIgnoreAsciiCase method "CONNECT"
        · simp only [if_pos hconnect] at h
          split at h
          · rename_i hres
            obtain rfl := Except.ok.inj h
            obtain ⟨⟨host, port⟩, r', htarget, rfl⟩ := exists_of_target hres
            exact ⟨host, port, rfl, hwords, (if_pos hconnect).trans htarget, rfl, rfl, rfl⟩
          · cases h
        · simp only [if_neg hconnect] at h
          split at h
          · rename_i hres
            obtain rfl := Except.ok.inj h
            obtain ⟨⟨host, port⟩, r', htarget, rfl⟩ := exists_of_target hres
            exact ⟨host, port, rfl, hwords, (if_neg hconnect).trans htarget, rfl, rfl, rfl⟩
          · cases h

/-- A SOCKS5 handshake for CONNECT has been read from a stream that starts with one. -/
theorem asks_of_acceptSocks5 {peerAddr : SocketAddr} {s t : Socket} {conn : InboundConnection}
    (h : acceptSocks5 peerAddr s = .ok conn t) :
    ∃ target, Asks s.unread target ∧ conn.metadata.dstIp = target.ip? ∧
      conn.metadata.host = some target.host ∧ conn.metadata.dstPort = target.port := by
  rw [acceptSocks5_eq] at h
  rcases serverHandshake_cases s with
    ⟨cmd, target, methods, rsv, t', hs, hlen, hfits, hunread, -⟩ | ⟨e, t', hs, -⟩
  · simp only [hs] at h
    split_ifs at h with hcmd
    obtain ⟨rfl, rfl⟩ := EStateM.Result.ok.inj h
    rw [not_ne_iff.mp hcmd] at hunread
    exact ⟨target, .socks5 hlen hfits hunread, rfl, rfl, rfl⟩
  · rw [hs] at h
    cases h

/-- What the SOCKS5 handler accepts, the mixed listener accepts. -/
theorem handleMixedConnection_of_acceptSocks5 {peerAddr : SocketAddr} {s t : Socket}
    {conn : InboundConnection} (h : acceptSocks5 peerAddr s = .ok conn t) :
    handleMixedConnection s peerAddr = .ok conn := by
  have hfive := headD_of_acceptSocks5 h
  rw [handleMixedConnection]
  rcases peek_cases s with ⟨e, hnil, -, -⟩ | ⟨-, peeked, hs, hhead⟩
  · rw [hnil] at hfive
    cases hfive
  · simp only [hs, hhead, if_pos hfive, handleSocks5, h]

/-- The request of a client that is handed on is at the front of its stream. -/
theorem asks_of_handleMixedConnection {s : Socket} {peerAddr : SocketAddr}
    {conn : InboundConnection} (h : handleMixedConnection s peerAddr = .ok conn) :
    ∃ target, Asks s.unread target ∧ conn.metadata.dstIp = target.ip? ∧
      conn.metadata.host = some target.host ∧ conn.metadata.dstPort = target.port := by
  rw [handleMixedConnection] at h
  rcases peek_cases s with ⟨e, -, -, hs⟩ | ⟨-, peeked, hs, hhead⟩
  · rw [hs] at h
    cases h
  · simp only [hs, hhead] at h
    split_ifs at h with hfive
    · cases hsocks : acceptSocks5 peerAddr s with
      | ok conn' t =>
          rw [handleSocks5, hsocks] at h
          obtain rfl := Except.ok.inj h
          exact asks_of_acceptSocks5 hsocks
      | error e t =>
          rw [handleSocks5, hsocks] at h
          cases h
    · obtain ⟨text, r, method, target, version, more, host, port, hread, hwords, htarget, hip,
        hhost, hport⟩ := exists_of_handleHttp h
      obtain ⟨line, hunread, htext, hline⟩ := exists_of_readLine hread
      exact ⟨.domain host port, .http hfive hunread hline htext hwords htarget, hip, hhost, hport⟩

/-! ### Adapters -/

/-- The network, and what the system knows of names. -/
class Sockets where
  /-- `getaddrinfo` -/
  getaddrinfo : String → Except IoError (List IpAddr)
  /-- `TcpStream::connect`, and `set_nodelay` on the stream -/
  connect : SocketAddr → Except IoError Unit

/-- `TrackedStream` of a socket, which is told by its peer. -/
structure TrackedStream where
  inner : SocketAddr
  chains : List String

/-- `Metadata::remote_addr`: the address with the port, where the listener has been given an
address. -/
def Metadata.remoteAddr (metadata : Metadata) : Option SocketAddr :=
  metadata.dstIp.map fun ip => ⟨ip, metadata.dstPort⟩

variable [Sockets]

/-- `tokio::net::lookup_host`: a text that is an address stands for itself, any other is cut at its
last colon, and the system resolves the host. -/
def lookupHost (s : String) : Except IoError (List SocketAddr) :=
  match SocketAddr.parse s with
  | some addr => .ok [addr]
  | none =>
      match rfind ':' s.toList with
      | none => .error ⟨.other, "invalid socket address"⟩
      | some colon =>
          match parseU16 (.ofList (s.toList.drop (colon + 1))) with
          | .error _ => .error ⟨.other, "invalid port value"⟩
          | .ok port =>
              (Sockets.getaddrinfo (.ofList (s.toList.take colon))).map fun ips =>
                ips.map fun ip => ⟨ip, port⟩

/-- `resolve_addr`: the address of the metadata, or else the first one the host resolves to. -/
def resolveAddr (metadata : Metadata) : Except Error SocketAddr :=
  match metadata.remoteAddr with
  | some addr => .ok addr
  | none =>
      match metadata.host with
      | some host =>
          match lookupHost (host ++ ":" ++ Nat.repr metadata.dstPort.toNat) with
          | .error e => .error (.io e)
          | .ok (addr :: _) => .ok addr
          | .ok [] => .error (.dnsResolution ("no addresses for " ++ host))
      | none => .error (.invalidAddress "no host or IP in metadata")

/-- `connect_stream` of `Direct`: a connection to the resolved address. Each of the two steps may
fail with an error of its own. -/
def Direct.connectStream (metadata : Metadata) : Except Error TrackedStream :=
  match resolveAddr metadata with
  | .error e => .error e
  | .ok addr =>
      match Sockets.connect addr with
      | .error e => .error (.io e)
      | .ok () => .ok ⟨addr, ["DIRECT"]⟩

/-- `connect_stream` of `Reject`: the connection is reported as closed, and nothing is ever
opened. -/
def Reject.connectStream (_metadata : Metadata) : Except Error TrackedStream :=
  .error .connectionClosed

/-- What a call through groups ends at. -/
def Adapter.dial : Adapter → Metadata → Except Error TrackedStream
  | .direct => Direct.connectStream
  | _ => Reject.connectStream

/-! ### Lookups -/

/-- The addresses of a name, with a port. The name can be an address itself. -/
inductive Resolves (name : String) (port : UInt16) : SocketAddr → Prop
  | literal {addr : SocketAddr} (hport : addr.port = port)
      (hparse : SocketAddr.parse (name ++ ":" ++ Nat.repr port.toNat) = some addr) :
      Resolves name port addr
  | lookup {ip : IpAddr} {ips : List IpAddr}
      (hparse : SocketAddr.parse (name ++ ":" ++ Nat.repr port.toNat) = none)
      (hips : Sockets.getaddrinfo name = .ok (ip :: ips)) : Resolves name port ⟨ip, port⟩

/-- The text of a name and a port is cut where it was joined. -/
theorem lookupHost_of_parse_eq_none {name : String} {port : UInt16}
    (hparse : SocketAddr.parse (name ++ ":" ++ Nat.repr port.toNat) = none) :
    lookupHost (name ++ ":" ++ Nat.repr port.toNat) =
      (Sockets.getaddrinfo name).map fun ips => ips.map fun ip => ⟨ip, port⟩ := by
  obtain ⟨hcolon, htake, hdrop⟩ := rfind_cut (toList_append_port name port)
    (colon_notMem fun c => isSome_toDigits)
  have hport : parseU16 (.ofList (Nat.toDigits 10 port.toNat)) = .ok port := by
    rw [← Nat.repr_eq_ofList_toDigits]
    exact parseU16_repr port
  simp only [lookupHost, hparse, hcolon, htake, hdrop, hport, String.ofList_toList]

/-- Whatever the name, the port is the one it was joined with. -/
theorem lookupHost_destination {name : String} {port : UInt16} {addr : SocketAddr}
    {addrs : List SocketAddr}
    (h : lookupHost (name ++ ":" ++ Nat.repr port.toNat) = .ok (addr :: addrs)) :
    Resolves name port addr := by
  cases hparse : SocketAddr.parse (name ++ ":" ++ Nat.repr port.toNat) with
  | some literal =>
      rw [lookupHost, hparse] at h
      obtain ⟨rfl, -⟩ := List.cons.inj (Except.ok.inj h)
      exact .literal (SocketAddr.port_of_parse hparse) hparse
  | none =>
      rw [lookupHost_of_parse_eq_none hparse] at h
      cases hips : Sockets.getaddrinfo name with
      | error e =>
          rw [hips] at h
          cases h
      | ok ips =>
          rw [hips] at h
          cases ips with
          | nil => cases Except.ok.inj h
          | cons ip ips =>
              obtain ⟨rfl, -⟩ := List.cons.inj (Except.ok.inj h)
              exact .lookup hparse hips

/-- An IPv4 address is not looked up. -/
theorem Resolves.eq_v4 {ip : Ipv4Addr} {port : UInt16} {addr : SocketAddr}
    (h : Resolves ip.display port addr) : addr = ⟨.v4 ip, port⟩ := by
  have hparse := SocketAddr.parse_v4 ip port
  cases h with
  | literal _ hliteral => exact Option.some.inj (hliteral.symm.trans hparse)
  | lookup hnone _ => cases hnone.symm.trans hparse

/-- The address is where the client wants to go. -/
def Reaches : Address → SocketAddr → Prop
  | .ip target, addr => addr = target
  | .domain name port, addr => Resolves name port addr

/-- With an address in the metadata nothing is looked up. -/
theorem resolveAddr_ip {metadata : Metadata} {ip : IpAddr} (h : metadata.dstIp = some ip) :
    resolveAddr metadata = .ok ⟨ip, metadata.dstPort⟩ := by
  rw [resolveAddr, Metadata.remoteAddr, h]
  rfl

/-- Without an address in the metadata the host is looked up, with the port of the metadata. -/
theorem resolves_of_resolveAddr {metadata : Metadata} {host : String} {addr : SocketAddr}
    (hip : metadata.dstIp = none) (hhost : metadata.host = some host)
    (h : resolveAddr metadata = .ok addr) : Resolves host metadata.dstPort addr := by
  rw [resolveAddr, Metadata.remoteAddr, hip, hhost] at h
  simp only [Option.map_none] at h
  split at h
  · cases h
  · rename_i addrs hlookup
    obtain rfl := Except.ok.inj h
    exact lookupHost_destination hlookup
  · cases h

/-- Only `Direct` connects, to the address it has found. -/
theorem resolveAddr_of_connectStream {cells : Cells} {proxy : Adapter} {metadata : Metadata}
    {stream : TrackedStream}
    (h : Adapter.connectStream Adapter.dial cells proxy metadata = some (.ok stream)) :
    resolveAddr metadata = .ok stream.inner ∧ Sockets.connect stream.inner = .ok () := by
  obtain ⟨outbound, -, hdial⟩ := Option.map_eq_some_iff.mp h
  cases outbound with
  | direct =>
      rw [Adapter.dial, Direct.connectStream] at hdial
      split at hdial
      · cases hdial
      · rename_i addr hresolve
        split at hdial
        · cases hdial
        · rename_i hconnect
          obtain rfl := Except.ok.inj hdial
          exact ⟨hresolve, hconnect⟩
  | reject | selector | urlTest => cases hdial

/-- **What a client is connected to is what it asked for.** Whatever the rules, the mode and the
choices of groups, and however the network cuts what the client sends: the address is the one in
its request, or one that the system knows for the name in it, with the port in it. An IPv4 address
that is written out as a name is not looked up. -/
theorem connected_target [Crates] {s : Socket} {peerAddr : SocketAddr} {conn : InboundConnection}
    (haccept : handleMixedConnection s peerAddr = .ok conn) {tunnel : Tunnel Adapter}
    {cells : Cells} {stream : TrackedStream}
    (hstream : Adapter.connectStream Adapter.dial cells
      (tunnel.matchAdapter conn.metadata).adapter conn.metadata = some (.ok stream)) :
    Sockets.connect stream.inner = .ok () ∧
      ∃ target, Asks s.unread target ∧ Reaches target stream.inner ∧
        ∀ ip port, target = .domain (Ipv4Addr.display ip) port →
          stream.inner = ⟨.v4 ip, port⟩ := by
  obtain ⟨target, hasks, hip, hhost, hport⟩ := asks_of_handleMixedConnection haccept
  obtain ⟨hresolve, hconnect⟩ := resolveAddr_of_connectStream hstream
  refine ⟨hconnect, target, hasks, ?_⟩
  cases target with
  | ip addr =>
      rw [resolveAddr_ip hip, hport] at hresolve
      exact ⟨(Except.ok.inj hresolve).symm, fun ip port h => by cases h⟩
  | domain name port =>
      have hresolves := resolves_of_resolveAddr hip hhost hresolve
      rw [hport] at hresolves
      refine ⟨hresolves, fun ip port' h => ?_⟩
      obtain ⟨rfl, rfl⟩ := Address.domain.inj h
      exact hresolves.eq_v4

/-- A client that asks for a name. -/
def localhostClient : Socket :=
  .ofBytes (greeting [NO_AUTH] ++ requestBytes .connect 0 (.domain "localhost" 80))

/-- A system that knows one name, and that can connect to every address. -/
@[reducible] def localhostSockets : Sockets where
  getaddrinfo name :=
    if name = "localhost" then .ok [.v4 (.new 127 0 0 1)]
    else .error ⟨.other, "failed to lookup address information"⟩
  connect _ := .ok ()

omit [Sockets] in
/-- A SOCKS5 client asks for a name, which is looked up and connected to. -/
theorem connected_target_localhost :
    letI := localhostSockets
    Sockets.connect ⟨.v4 (.new 127 0 0 1), 80⟩ = .ok () ∧
      ∃ target, Asks localhostClient.unread target ∧
        Reaches target ⟨.v4 (.new 127 0 0 1), 80⟩ ∧
        ∀ ip port, target = .domain (Ipv4Addr.display ip) port →
          (⟨.v4 (.new 127 0 0 1), 80⟩ : SocketAddr) = ⟨.v4 ip, port⟩ := by
  let _ := localhostSockets
  let _ := ipv4Crates
  have hfits : (utf8 "localhost").length ≤ 255 := by decide +kernel
  have hshake : Handshake localhostClient.unread ([SOCKS5_VERSION, NO_AUTH] ++ successReply)
      (.connect, .domain "localhost" 80) := by
    rw [localhostClient, Socket.unread_ofBytes]
    exact ⟨[NO_AUTH], 0, rfl, by decide, hfits, rfl⟩
  obtain ⟨t, ht, -, -⟩ := dialogue_serverHandshake.complete hshake (List.append_nil _).symm
  have hsocks := acceptSocks5_eq ⟨.v4 (.new 10 0 0 1), 50000⟩ localhostClient
  rw [ht] at hsocks
  have haccept := handleMixedConnection_of_acceptSocks5 hsocks
  let proxies : ProxyMap Adapter := (∅ : ProxyMap Adapter).insert "DIRECT" .direct
  let metadata : Metadata :=
    { Metadata.new .tcp .socks5 with
      srcAddr := ⟨.v4 (.new 10 0 0 1), 50000⟩
      host := some "localhost"
      dstPort := 80 }
  have hstream : Adapter.connectStream Adapter.dial (fun _ => 0)
      ((Tunnel.new proxies []).matchAdapter metadata).adapter metadata =
        some (.ok ⟨⟨.v4 (.new 127 0 0 1), 80⟩, ["DIRECT"]⟩) := by
    have hparse : SocketAddr.parse ("localhost" ++ ":" ++ Nat.repr (80 : UInt16).toNat) = none := by
      decide +kernel
    have hlookup := lookupHost_of_parse_eq_none hparse
    show some (Direct.connectStream metadata) = _
    rw [Direct.connectStream, resolveAddr]
    simp only [metadata, Metadata.remoteAddr, Metadata.new, Option.map_none, hlookup]
    rfl
  exact connected_target haccept hstream

end Redog
