import Redog.BufReader
import Redog.HttpParse
import Redog.Socks5

/-!
# The listeners

What a listener does with an accepted socket: the handlers of the SOCKS5, the HTTP and the
mixed listener, up to the connection they hand to the tunnel. The SOCKS5 and the mixed
listener have a copy each of the SOCKS5 handler, and the HTTP and the mixed listener of the
HTTP handler.

A handler owns its socket. As a program it keeps the state of the socket also when it
fails, since what it has written by then reached the client.

## Main results

* `sentSuccess_iff_ok`: the SOCKS5 handlers report success exactly to the clients they
  accept, unless the request is a complete one for another command than CONNECT.
* `serverHandshake_lockstep`: when the server answers a client.
-/

namespace Redog

open Rust

/-- `redog_listener::InboundConnection`: what a handler sends to the tunnel, the stream of the
client and what it asked for. -/
structure InboundConnection where
  stream : Socket
  metadata : Metadata

/-! ### SOCKS5 -/

/-- `Command` as `{:?}` prints it, which the error for a command that is not supported quotes. -/
def Command.debug : Command → String
  | .connect => "Connect"
  | .bind => "Bind"
  | .udpAssociate => "UdpAssociate"

/-- The body of both SOCKS5 handlers: the handshake, then the check of the command, and then the
metadata of the request. -/
def acceptSocks5 (peerAddr : SocketAddr) : EStateM Error Socket InboundConnection := do
  let request ← serverHandshake
  if request.1 ≠ .connect then
    throw (.protocol ("unsupported SOCKS5 command: " ++ request.1.debug))
  else do
    let stream ← get
    return {
      stream := stream
      metadata := { Metadata.new .tcp .socks5 with
        srcAddr := peerAddr
        host := some request.2.host
        dstPort := request.2.port
        dstIp := request.2.ip? } }

/-- `handle_socks_connection` of the SOCKS5 listener, which has nothing but the common body. -/
def handleSocksConnection (peerAddr : SocketAddr) : EStateM Error Socket InboundConnection :=
  acceptSocks5 peerAddr

/-- `handle_socks5` of the mixed listener, which has nothing but the common body. -/
def handleSocks5 (peerAddr : SocketAddr) : EStateM Error Socket InboundConnection :=
  acceptSocks5 peerAddr

/-! ### HTTP -/

/-- The loop over the header lines, up to a blank line or the end of the stream. The lines
read are returned, the last one included. -/
def headerLoop (r : BufReader) : EStateM.Result IoError BufReader (List String) :=
  match _hline : r.readLine with
  | .error e r' => .error e r'
  | .ok line r' =>
      if trim line = "" then .ok [line] r'
      else
        match headerLoop r' with
        | .ok lines r'' => .ok (line :: lines) r''
        | .error e r'' => .error e r''
termination_by r.unread.length
decreasing_by
  rename_i hne
  exact BufReader.length_unread_lt_of_readLine _hline (fun h => hne (by rw [h]; rfl))

/-- The loop over the headers of a request, as the HTTP listener runs it. -/
def readHeaders : EStateM IoError BufReader (List String) := headerLoop

/-- `?` on an I/O error of a reader. -/
instance : MonadLift (EStateM IoError BufReader) (EStateM Error BufReader) where
  monadLift := EStateM.adaptExcept .io

/-- The answer to a CONNECT request, sent before anything is connected. -/
def connectionEstablished : List UInt8 :=
  utf8 "HTTP/1.1 200 Connection Established\r\n\r\n"

/-- The connection of an HTTP handler: its metadata have a host and a port, and never an address. -/
def httpInbound (stream : Socket) (inboundType : InboundType) (peerAddr : SocketAddr)
    (host : String) (port : UInt16) : InboundConnection where
  stream := stream
  metadata := { Metadata.new .tcp inboundType with
    srcAddr := peerAddr
    host := some host
    dstPort := port }

/-- `handle_http` of the mixed listener: it reads the head of the request, and hands on the bare
stream behind it. -/
def handleHttp (stream : Socket) (peerAddr : SocketAddr) : Except Error InboundConnection :=
  BufReader.own stream do
    let requestLine ← BufReader.readLine
    match splitWhitespace (trim requestLine) with
    | method :: target :: _ :: _ =>
        if eqIgnoreAsciiCase method "CONNECT" then do
          let (host, port) ← MonadExcept.ofExcept (parseHostPort target 443)
          let _ ← readHeaders
          let stream := (← get).intoInner.send connectionEstablished
          return httpInbound stream .httpConnect peerAddr host port
        else do
          let (host, port) ← MonadExcept.ofExcept (extractHostFromTarget target 80)
          let _ ← readHeaders
          let stream := (← get).intoInner
          return httpInbound stream .http peerAddr host port
    | _ => throw (.protocol "invalid HTTP request")

/-- `handle_http_connection` of the HTTP listener. The head of a plain request is copied
into `headers`, which nothing reads. -/
def handleHttpConnection (stream : Socket) (peerAddr : SocketAddr) :
    Except Error InboundConnection :=
  BufReader.own stream do
    let requestLine ← BufReader.readLine
    match splitWhitespace (trim requestLine) with
    | method :: target :: _ :: _ =>
        if eqIgnoreAsciiCase method "CONNECT" then do
          let (host, port) ← MonadExcept.ofExcept (parseHostPort target 443)
          let _ ← readHeaders
          let stream := (← get).intoInner.send connectionEstablished
          return httpInbound stream .httpConnect peerAddr host port
        else do
          let (host, port) ← MonadExcept.ofExcept (extractHostFromTarget target 80)
          let lines ← readHeaders
          let _headers := lines.foldl (· ++ ·) requestLine
          let stream := (← get).intoInner
          return httpInbound stream .http peerAddr host port
    | _ => throw (.protocol "invalid HTTP request")

/-- The copy of the head is all that tells the two HTTP handlers apart. -/
theorem handleHttpConnection_eq : handleHttpConnection = handleHttp := by
  funext stream peerAddr
  simp only [handleHttpConnection, handleHttp]

/-! ### Success replies and accepted connections -/

/-- The socket a program leaves behind, also when it fails. -/
def endState {ε σ α : Type} : EStateM.Result ε σ α → σ
  | .ok _ s => s
  | .error _ s => s

/-- The success reply is among the bytes written between the two states. -/
def SentSuccess (s s' : Socket) : Prop :=
  ∃ sent, s'.written = s.written ++ sent ∧ successReply <:+: sent

/-- The stream starts with a complete handshake for another command than CONNECT. -/
def OtherCommand (bytes : List UInt8) : Prop :=
  ∃ methods cmd rsv addr rest, cmd ≠ Command.connect ∧ methods.length ≤ 255 ∧
    addr.Encodable ∧ bytes = greeting methods ++ requestBytes cmd rsv addr ++ rest

/-- A client that has been sent only method selections and failures has been sent no success. -/
theorem not_successReply_infix {sent : List UInt8} (h : Unanswered sent) :
    ¬ successReply <:+: sent := by
  intro hinfix
  have hlen := hinfix.length_le
  rcases h with rfl | rfl <;> exact absurd hlen (by decide)

/-- Accepting a connection is the handshake, and then the check of the command that was asked
for. -/
theorem acceptSocks5_eq (peerAddr : SocketAddr) (s : Socket) :
    acceptSocks5 peerAddr s =
      match serverHandshake s with
      | .error e t => .error e t
      | .ok request t =>
          if request.1 ≠ .connect then
            .error (.protocol ("unsupported SOCKS5 command: " ++ request.1.debug)) t
          else .ok {
            stream := t
            metadata := { Metadata.new .tcp .socks5 with
              srcAddr := peerAddr
              host := some request.2.host
              dstPort := request.2.port
              dstIp := request.2.ip? } } t := by
  rw [acceptSocks5]
  simp only [bind, EStateM.bind]
  cases serverHandshake s with
  | error e t => rfl
  | ok request t =>
      by_cases h : request.1 ≠ .connect
      · simp only [if_pos h]
        rfl
      · simp only [if_neg h]
        rfl

/-- A handshake ends in one way: the stream is a complete one, with both answers sent, or
it is not and the success reply is not sent. -/
theorem serverHandshake_cases (s : Socket) :
    (∃ cmd addr methods rsv t, serverHandshake s = .ok (cmd, addr) t ∧
      methods.length ≤ 255 ∧ addr.Encodable ∧
      s.unread = greeting methods ++ requestBytes cmd rsv addr ++ t.unread ∧
      SentSuccess s t) ∨
    ∃ e t, serverHandshake s = .error e t ∧ ¬ SentSuccess s t := by
  cases hs : serverHandshake s with
  | ok request t =>
      obtain ⟨_, sent, ⟨methods, rsv, rfl, hlen, hfits, rfl⟩, hunread, hwritten⟩ :=
        dialogue_serverHandshake.sound hs
      exact .inl ⟨request.1, request.2, methods, rsv, t, rfl, hlen, hfits, hunread,
        _, hwritten, (List.suffix_append _ _).isInfix⟩
  | error e t =>
      refine .inr ⟨e, t, rfl, ?_⟩
      rintro ⟨sent, hsent, hinfix⟩
      obtain ⟨sent', hunanswered, hwritten⟩ := dialogue_serverHandshake.failed hs
      obtain rfl := List.append_cancel_left (hsent.symm.trans hwritten)
      exact not_successReply_infix hunanswered hinfix

/-- On a complete handshake for another command the handshake succeeds all the same. -/
theorem serverHandshake_otherCommand {s : Socket} (h : OtherCommand s.unread) :
    ∃ cmd addr t, serverHandshake s = .ok (cmd, addr) t ∧ cmd ≠ .connect := by
  obtain ⟨methods, cmd, rsv, addr, rest, hcmd, hlen, hfits, hs⟩ := h
  obtain ⟨t, ht, -⟩ :=
    dialogue_serverHandshake.complete (a := (cmd, addr)) ⟨methods, rsv, rfl, hlen, hfits, rfl⟩ hs
  exact ⟨cmd, addr, t, ht, hcmd⟩

/-- **When success means accepted.** Each SOCKS5 handler sends the success reply exactly
when it returns a connection, on every stream but those that start with a complete
handshake for another command than CONNECT: there the reply is sent and the connection
dropped. -/
theorem sentSuccess_iff_ok (handler : SocketAddr → EStateM Error Socket InboundConnection)
    (hhandler : handler ∈ [handleSocksConnection, handleSocks5]) (peerAddr : SocketAddr)
    (s : Socket) :
    (SentSuccess s (endState (handler peerAddr s)) ↔
        ∃ conn t, handler peerAddr s = .ok conn t) ↔
      ¬ OtherCommand s.unread := by
  have hbody : handler peerAddr s = acceptSocks5 peerAddr s := by
    rcases List.mem_pair.mp hhandler with rfl | rfl <;> rfl
  rw [hbody, acceptSocks5_eq]
  rcases serverHandshake_cases s with
    ⟨cmd, addr, methods, rsv, t, hs, hlen, hfits, hunread, hsent⟩ | ⟨e, t, hs, hsent⟩
  · rw [hs]
    by_cases hcmd : cmd = .connect
    · simp only [hcmd, ne_eq, not_true, if_false]
      refine iff_of_true (iff_of_true hsent ⟨_, t, rfl⟩) fun hother => ?_
      obtain ⟨cmd', addr', t', hs', hcmd'⟩ := serverHandshake_otherCommand hother
      rw [hs] at hs'
      cases hs'
      exact hcmd' hcmd
    · simp only [if_pos hcmd]
      refine iff_of_false (fun h => ?_) fun h => h ⟨methods, cmd, rsv, addr, _, hcmd, hlen,
        hfits, hunread⟩
      obtain ⟨conn, t', hconn⟩ := h.mp hsent
      cases hconn
  · rw [hs]
    refine iff_of_true (iff_of_false hsent fun ⟨_, _, h⟩ => nomatch h) fun hother => ?_
    obtain ⟨cmd', addr', t', hs', -⟩ := serverHandshake_otherCommand hother
    rw [hs] at hs'
    cases hs'

/-- A client without authentication that asks for a command on `127.0.0.1:80`. -/
def client (cmd : Command) : Socket :=
  .ofBytes (greeting [NO_AUTH] ++ requestBytes cmd 0 (.ip ⟨.v4 (.new 127 0 0 1), 80⟩))

/-- A client that asks for the one command that is supported. -/
theorem sentSuccess_iff_ok_client :
    (SentSuccess (client .connect)
        (endState (handleSocks5 ⟨.v4 (.new 10 0 0 1), 50000⟩ (client .connect))) ↔
      ∃ conn t, handleSocks5 ⟨.v4 (.new 10 0 0 1), 50000⟩ (client .connect) = .ok conn t) ↔
      ¬ OtherCommand (client .connect).unread :=
  sentSuccess_iff_ok handleSocks5 (List.mem_cons_of_mem _ List.mem_cons_self) _ _

/-- A client that asks for BIND is told success and dropped. -/
theorem handleSocksConnection_bind :
    SentSuccess (client .bind)
        (endState (handleSocksConnection ⟨.v4 (.new 10 0 0 1), 50000⟩ (client .bind))) ∧
      ¬ ∃ conn t, handleSocksConnection ⟨.v4 (.new 10 0 0 1), 50000⟩ (client .bind) =
        .ok conn t := by
  have hshake : Handshake (client .bind).unread ([SOCKS5_VERSION, NO_AUTH] ++ successReply)
      (.bind, .ip ⟨.v4 (.new 127 0 0 1), 80⟩) := by
    rw [client, Socket.unread_ofBytes]
    exact ⟨[NO_AUTH], 0, rfl, by decide, trivial, rfl⟩
  obtain ⟨t, ht, -, hwritten⟩ :=
    dialogue_serverHandshake.complete hshake (List.append_nil _).symm
  rw [handleSocksConnection, acceptSocks5_eq, ht]
  exact ⟨⟨_, hwritten, (List.suffix_append _ _).isInfix⟩, fun ⟨_, _, h⟩ => nomatch h⟩

/-! ### When the server answers -/

/-- What the server has sent after so many bytes of a client. -/
def answered (greeting request bytes : ℕ) : List UInt8 :=
  if bytes < greeting then []
  else if bytes < greeting + request then [SOCKS5_VERSION, NO_AUTH]
  else [SOCKS5_VERSION, NO_AUTH] ++ successReply

/-- A client that has sent its greeting and a part of the rest. -/
theorem endState_readRequest (cmd : Command) (rsv : UInt8) {addr : Address}
    (hfits : addr.Encodable) {payload : List UInt8} {t : Socket}
    (ht : t.unread <+: requestBytes cmd rsv addr ++ payload) :
    (endState ((do
        let request ← readRequest
        writeAll successReply
        return request : EStateM Error Socket (Command × Address)) t)).written =
      t.written ++ if t.unread.length < (requestBytes cmd rsv addr).length then []
        else successReply := by
  simp only [bind, EStateM.bind]
  split_ifs with hlt
  · have hpart : t.unread <+: requestBytes cmd rsv addr :=
      List.prefix_of_prefix_length_le ht (List.prefix_append _ _) hlt.le
    have hne : t.unread ≠ requestBytes cmd rsv addr := fun h => hlt.ne (congrArg List.length h)
    obtain ⟨e, t', ht', sent, rfl, hsent⟩ :=
      reads_readRequest.truncated (a := (cmd, addr)) ⟨⟨rsv, rfl, hfits⟩, rfl⟩ hpart hne
    rw [ht']
    exact hsent
  · obtain ⟨rest, hrest⟩ := List.prefix_of_prefix_length_le (List.prefix_append _ payload) ht
      (Nat.le_of_not_lt hlt)
    obtain ⟨t', ht', -, hwritten⟩ :=
      reads_readRequest.complete (a := (cmd, addr)) ⟨⟨rsv, rfl, hfits⟩, rfl⟩ hrest.symm
    rw [ht']
    rw [List.append_nil] at hwritten
    exact congrArg (· ++ successReply) hwritten

/-- **The server answers in step.** After any number of bytes of a greeting, a request and
what follows them, and however they are cut, the server has sent nothing while the greeting is
incomplete, the choice of the method while the request is, and the success reply then. So a
client that waits for an answer before it goes on is never left waiting. -/
theorem serverHandshake_lockstep {methods : List UInt8} (hlen : methods.length ≤ 255)
    (cmd : Command) (rsv : UInt8) {addr : Address} (hfits : addr.Encodable)
    (payload : List UInt8) (s : Socket)
    (hs : s.unread <+: greeting methods ++ (requestBytes cmd rsv addr ++ payload)) :
    (endState (serverHandshake s)).written =
      s.written ++ answered (greeting methods).length (requestBytes cmd rsv addr).length
        s.unread.length := by
  have hgreeting : ∃ m, greeting methods = greeting m ∧ m.length ≤ 255 ∧
      [SOCKS5_VERSION, NO_AUTH] = [SOCKS5_VERSION, NO_AUTH] := ⟨methods, rfl, hlen, rfl⟩
  by_cases hlt : s.unread.length < (greeting methods).length
  · have hpart : s.unread <+: greeting methods :=
      List.prefix_of_prefix_length_le hs (List.prefix_append _ _) hlt.le
    have hne : s.unread ≠ greeting methods := fun h => hlt.ne (congrArg List.length h)
    obtain ⟨e, s', hs', sent, rfl, hsent⟩ :=
      dialogue_negotiateMethod.truncated (a := ()) hgreeting hpart hne
    rw [answered, if_pos hlt, ← hsent, serverHandshake]
    simp only [bind, EStateM.bind, hs']
    rfl
  · obtain ⟨rest, hrest⟩ := List.prefix_of_prefix_length_le (List.prefix_append _ _) hs
      (Nat.le_of_not_lt hlt)
    obtain ⟨t, ht, hunread, hwritten⟩ :=
      dialogue_negotiateMethod.complete (a := ()) hgreeting hrest.symm
    have hpart : t.unread <+: requestBytes cmd rsv addr ++ payload := by
      rw [hunread]
      exact (List.prefix_append_right_inj _).mp (hrest ▸ hs)
    have hend := endState_readRequest cmd rsv hfits hpart
    have hrun : serverHandshake s = (do
        let request ← readRequest
        writeAll successReply
        return request : EStateM Error Socket (Command × Address)) t := by
      rw [serverHandshake]
      simp only [bind, EStateM.bind, ht]
    have hcount : s.unread.length = (greeting methods).length + t.unread.length := by
      rw [← hrest, List.length_append, hunread]
    rw [hrun, hend, hwritten, answered, if_neg hlt, hcount, List.append_assoc]
    simp only [Nat.add_lt_add_iff_left]
    split_ifs
    · rw [List.append_nil]
    · rfl

/-- A client that has sent its greeting and the first byte of its request. -/
theorem serverHandshake_lockstep_greeted :
    (endState (serverHandshake (.ofBytes (greeting [NO_AUTH] ++ [SOCKS5_VERSION])))).written =
      [] ++ answered (greeting [NO_AUTH]).length
        (requestBytes .connect 0 (.ip ⟨.v4 (.new 127 0 0 1), 80⟩)).length
        (Socket.ofBytes (greeting [NO_AUTH] ++ [SOCKS5_VERSION])).unread.length := by
  have hlen : [NO_AUTH].length ≤ 255 := by decide
  have hfits : (Address.ip ⟨.v4 (.new 127 0 0 1), 80⟩).Encodable := trivial
  refine serverHandshake_lockstep hlen .connect 0 hfits [] _ ?_
  rw [Socket.unread_ofBytes]
  decide +kernel

end Redog
