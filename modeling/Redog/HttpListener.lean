import Redog.Listener

/-!
# What the HTTP handlers give back

A proxy request is a request line, header lines and a blank line; what follows is the
payload of a tunnel or the body of a request. The handlers read the head through a buffered
reader and hand the bare socket to the tunnel, so two things can be missing from it: the
bytes behind the head that arrived together with its end, and the head itself.

For CONNECT the head is meant for the proxy and only the first can be lost. For any other
method the head is part of what the server must see, and it is never given back.

## Main results

* `connect_payload_iff`: the tunnel is handed exactly the payload when, and only when, one
  of the reads ended at the end of the head.
* `plain_not_forwarded`: the tunnel is never handed a plain request.
-/

namespace Redog

open Rust BufReader

/-! ### Request heads -/

/-- The line reads as whitespace, which ends the headers. -/
def Blank (bytes : List UInt8) : Prop :=
  ∃ text, fromUtf8 bytes = some text ∧ trim text = ""

instance (bytes : List UInt8) : Decidable (Blank bytes) :=
  decidable_of_iff ((fromUtf8 bytes).map trim = some "") Option.map_eq_some_iff

/-- A request line in UTF-8, header lines that are not blank, and a blank line. -/
structure RequestHead where
  requestLine : String
  headers : List (List UInt8)
  blank : List UInt8
  isLine_requestLine : IsLine (utf8 requestLine)
  isLine_headers : ∀ header ∈ headers, IsLine header
  not_blank_headers : ∀ header ∈ headers, ¬ Blank header
  isLine_blank : IsLine blank
  blank_blank : Blank blank

namespace RequestHead

/-- The bytes of the head: the request line, the headers, and the blank line. -/
def bytes (head : RequestHead) : List UInt8 :=
  utf8 head.requestLine ++ (head.headers.flatten ++ head.blank)

/-- Every header line is UTF-8, without which the handler gives up on the request. -/
def Decodes (head : RequestHead) : Prop :=
  ∀ header ∈ head.headers, (fromUtf8 header).isSome

end RequestHead

/-- A well-formed CONNECT request: at least three words, the first of them CONNECT, the
second a host and a port. -/
structure ConnectHead extends RequestHead where
  method : String
  target : String
  version : String
  more : List String
  host : String
  port : UInt16
  words : splitWhitespace (trim requestLine) = method :: target :: version :: more
  isConnect : eqIgnoreAsciiCase method "CONNECT" = true
  authority : parseHostPort target 443 = .ok (host, port)

/-- A well-formed request of a method other than CONNECT, whose target gives a host and a port. -/
structure PlainHead extends RequestHead where
  method : String
  target : String
  version : String
  more : List String
  host : String
  port : UInt16
  words : splitWhitespace (trim requestLine) = method :: target :: version :: more
  notConnect : eqIgnoreAsciiCase method "CONNECT" = false
  authority : extractHostFromTarget target 80 = .ok (host, port)

/-- The line that ends most heads is a line of its own, of nothing but its two end characters. -/
theorem isLine_crlf : IsLine (utf8 "\r\n") := by decide

/-- A line of a carriage return and a line feed is blank, so it ends a head. -/
theorem blank_crlf : Blank (utf8 "\r\n") := by decide +kernel

/-! ### Reading the head -/

/-- At a blank line the loop over the headers stops, with all that follows still unread. -/
theorem headerLoop_blank {r : BufReader} {blank rest : List UInt8} (hline : IsLine blank)
    (hblank : Blank blank) (h : r.unread = blank ++ rest) :
    ∃ lines r', headerLoop r = .ok lines r' ∧ r'.unread = rest ∧
      ∀ s, Tracks s r → Tracks s r' := by
  obtain ⟨text, htext, htrim⟩ := hblank
  obtain ⟨r', hread, hrest, htracks⟩ := readLine_ok hline htext h
  refine ⟨[text], r', ?_, hrest, htracks⟩
  rw [headerLoop, hread]
  simp only [if_pos htrim]

/-- A line that is not blank is passed over. -/
theorem headerLoop_header {r : BufReader} {header rest : List UInt8} {text : String}
    (hline : IsLine header) (hblank : ¬ Blank header) (htext : fromUtf8 header = some text)
    (h : r.unread = header ++ rest) :
    ∃ r', r'.unread = rest ∧ (∀ s, Tracks s r → Tracks s r') ∧
      headerLoop r = match headerLoop r' with
        | .ok lines r'' => .ok (text :: lines) r''
        | .error e r'' => .error e r'' := by
  obtain ⟨r', hread, hrest, htracks⟩ := readLine_ok hline htext h
  refine ⟨r', hrest, htracks, ?_⟩
  rw [headerLoop, hread]
  refine (if_neg fun htrim => hblank ⟨text, htext, htrim⟩).trans ?_
  cases headerLoop r' <;> rfl

/-- The loop reads the header lines and the blank line, and fails when one of them is not
UTF-8. -/
theorem headerLoop_head {headers : List (List UInt8)} {blank rest : List UInt8}
    (hheaders : ∀ header ∈ headers, IsLine header)
    (hnot : ∀ header ∈ headers, ¬ Blank header) (hline : IsLine blank)
    (hblank : Blank blank) {r : BufReader} (h : r.unread = headers.flatten ++ (blank ++ rest)) :
    ((∀ header ∈ headers, (fromUtf8 header).isSome) ∧
      ∃ lines r', headerLoop r = .ok lines r' ∧ r'.unread = rest ∧
        ∀ s, Tracks s r → Tracks s r') ∨
    ((¬ ∀ header ∈ headers, (fromUtf8 header).isSome) ∧
      ∃ e r', headerLoop r = .error e r') := by
  induction headers generalizing r with
  | nil =>
      exact .inl ⟨fun _ h => absurd h List.not_mem_nil, headerLoop_blank hline hblank h⟩
  | cons header headers ih =>
      rw [List.flatten_cons, List.append_assoc] at h
      have hheader := hheaders header List.mem_cons_self
      cases htext : fromUtf8 header with
      | none =>
          obtain ⟨e, r', herr⟩ := readLine_error hheader htext h
          refine .inr ⟨fun hall => ?_, e, r', ?_⟩
          · have := hall header List.mem_cons_self
            rw [htext] at this
            cases this
          · rw [headerLoop, herr]
      | some text =>
          obtain ⟨r', hrest, htracks, hloop⟩ :=
            headerLoop_header hheader (hnot header List.mem_cons_self) htext h
          have hstep : (∀ other ∈ header :: headers, (fromUtf8 other).isSome) ↔
              ∀ other ∈ headers, (fromUtf8 other).isSome := by
            simp [htext]
          rw [hstep, hloop]
          rcases ih (fun o ho => hheaders o (List.mem_cons_of_mem _ ho))
            (fun o ho => hnot o (List.mem_cons_of_mem _ ho)) hrest with
            ⟨hall, lines, r'', hr'', hrest'', htracks''⟩ | ⟨hall, e, r'', hr''⟩
          · rw [hr'']
            exact .inl ⟨hall, _, r'', rfl, hrest'', fun s hs => htracks'' s (htracks s hs)⟩
          · rw [hr'']
            exact .inr ⟨hall, e, r'', rfl⟩

/-- Reading the head of a request: the request line is read, and then either all of the
rest, or an undecodable header line is met. -/
theorem RequestHead.read (head : RequestHead) {s : Socket} {payload : List UInt8}
    (hs : s.unread = head.bytes ++ payload) :
    ∃ r, readLine (.new s) = .ok head.requestLine r ∧
      ((head.Decodes ∧ ∃ lines r', readHeaders r = .ok lines r' ∧ r'.unread = payload ∧
          Tracks s r') ∨
        ¬ head.Decodes ∧ ∃ e r', readHeaders r = .error e r') := by
  rw [bytes, List.append_assoc, List.append_assoc] at hs
  obtain ⟨r, hread, hrest, htracks⟩ :=
    readLine_ok (r := .new s) head.isLine_requestLine (fromUtf8_utf8 _) hs
  refine ⟨r, hread, ?_⟩
  rcases headerLoop_head head.isLine_headers head.not_blank_headers head.isLine_blank
    head.blank_blank hrest with ⟨hall, lines, r', hr', hrest', htracks'⟩ | ⟨hall, hr'⟩
  · exact .inl ⟨hall, lines, r', hr', hrest', htracks' s (htracks s (tracks_new s))⟩
  · exact .inr ⟨hall, hr'⟩

/-- The two handlers are one: they differ in nothing that a client or the tunnel can see. -/
theorem eq_handleHttp {handler : Socket → SocketAddr → Except Error InboundConnection}
    (h : handler ∈ [handleHttpConnection, handleHttp]) : handler = handleHttp := by
  rw [handleHttpConnection_eq] at h
  simpa using h

/-- A request that is refused gives no connection. -/
theorem error_not_ok {e : Error} :
    ¬ ∃ conn, (.error e : Except Error InboundConnection) = .ok conn := by
  rintro ⟨_, h⟩
  cases h

/-! ### CONNECT -/

/-- The CONNECT branch: after the head it answers on the socket of the reader. -/
theorem handleHttp_connect (head : ConnectHead) {s : Socket} {r : BufReader}
    (hread : readLine (.new s) = .ok head.requestLine r) (peerAddr : SocketAddr) :
    handleHttp s peerAddr =
      match readHeaders r with
      | .ok _ r' => .ok (httpInbound (r'.intoInner.send connectionEstablished) .httpConnect
          peerAddr head.host head.port)
      | .error e _ => .error (.io e) := by
  rw [handleHttp, own]
  simp only [bind, EStateM.bind, liftM, monadLift, MonadLift.monadLift, EStateM.adaptExcept,
    hread, head.words]
  rw [if_pos head.isConnect, head.authority]
  simp only [MonadExcept.ofExcept, pure, EStateM.pure, EStateM.bind, EStateM.adaptExcept]
  cases readHeaders r <;> rfl

/-- **When no early byte is lost.** On a CONNECT request with a payload behind it, both HTTP
handlers return a connection exactly when the header lines are UTF-8, and its stream yields
the payload exactly when, after some number of reads of a whole buffer, the payload is what
is left: when one of the reads ended at the end of the head. -/
theorem connect_payload_iff (handler : Socket → SocketAddr → Except Error InboundConnection)
    (hhandler : handler ∈ [handleHttpConnection, handleHttp]) (head : ConnectHead)
    (payload : List UInt8) {s : Socket} (hs : s.unread = head.bytes ++ payload)
    (peerAddr : SocketAddr) :
    ((∃ conn, handler s peerAddr = .ok conn) ↔ head.Decodes) ∧
      ∀ conn, handler s peerAddr = .ok conn →
        (conn.stream.unread = payload ↔ ∃ k, (drain k s).unread = payload) := by
  obtain ⟨r, hread, hheaders⟩ := head.read hs
  rw [eq_handleHttp hhandler, handleHttp_connect head hread]
  rcases hheaders with ⟨hall, lines, r', hr', hrest, htracks⟩ | ⟨hall, e, r', hr'⟩
  · rw [hr']
    refine ⟨iff_of_true ⟨_, rfl⟩ hall, fun conn hconn => ?_⟩
    obtain rfl := Except.ok.inj hconn
    have hiff := htracks.unread_inner_eq_iff
    rw [hrest] at hiff
    exact hiff
  · rw [hr']
    exact ⟨iff_of_false error_not_ok hall, fun conn h => absurd ⟨conn, h⟩ error_not_ok⟩

/-- A CONNECT request with one header line. -/
def connectExample : ConnectHead where
  requestLine := "CONNECT example.com:443 HTTP/1.1\r\n"
  headers := [utf8 "Host: example.com:443\r\n"]
  blank := utf8 "\r\n"
  isLine_requestLine := by decide
  isLine_headers := by decide
  not_blank_headers := by decide +kernel
  isLine_blank := isLine_crlf
  blank_blank := blank_crlf
  method := "CONNECT"
  target := "example.com:443"
  version := "HTTP/1.1"
  more := []
  host := "example.com"
  port := 443
  words := by decide +kernel
  isConnect := eqIgnoreAsciiCase_self "CONNECT"
  authority := by decide +kernel

/-- A CONNECT request with the first bytes of a TLS record right behind its head. -/
theorem connect_payload_iff_example :
    ((∃ conn, handleHttp (.ofBytes (connectExample.bytes ++ [0x16, 0x03, 0x01]))
        ⟨.v4 (.new 10 0 0 1), 50000⟩ = .ok conn) ↔ connectExample.Decodes) ∧
      ∀ conn, handleHttp (.ofBytes (connectExample.bytes ++ [0x16, 0x03, 0x01]))
          ⟨.v4 (.new 10 0 0 1), 50000⟩ = .ok conn →
        (conn.stream.unread = [0x16, 0x03, 0x01] ↔
          ∃ k, (drain k (.ofBytes (connectExample.bytes ++ [0x16, 0x03, 0x01]))).unread =
            [0x16, 0x03, 0x01]) :=
  connect_payload_iff handleHttp (List.mem_cons_of_mem _ List.mem_cons_self) connectExample
    [0x16, 0x03, 0x01] (Socket.unread_ofBytes _) _

/-- What the stream of the connection yields. -/
def delivered (result : Except Error InboundConnection) : Option (List UInt8) :=
  result.toOption.map fun conn => conn.stream.unread

/-- A payload in the same piece as the head is lost: the stream yields nothing. -/
theorem handleHttpConnection_payload_lost :
    (Socket.ofBytes (connectExample.bytes ++ [0x16, 0x03, 0x01])).unread =
        connectExample.bytes ++ [0x16, 0x03, 0x01] ∧
      delivered (handleHttpConnection (.ofBytes (connectExample.bytes ++ [0x16, 0x03, 0x01]))
          ⟨.v4 (.new 10 0 0 1), 50000⟩) = some [] ∧
      delivered (handleHttpConnection (.ofBytes (connectExample.bytes ++ [0x16, 0x03, 0x01]))
          ⟨.v4 (.new 10 0 0 1), 50000⟩) ≠ some [0x16, 0x03, 0x01] := by
  have hlost : delivered (handleHttpConnection
      (.ofBytes (connectExample.bytes ++ [0x16, 0x03, 0x01]))
      ⟨.v4 (.new 10 0 0 1), 50000⟩) = some [] := by
    decide +kernel
  refine ⟨Socket.unread_ofBytes _, hlost, ?_⟩
  rw [hlost]
  decide

/-! ### Plain requests -/

/-- The plain branch: after the head it hands over the socket of the reader. -/
theorem handleHttp_plain (head : PlainHead) {s : Socket} {r : BufReader}
    (hread : readLine (.new s) = .ok head.requestLine r) (peerAddr : SocketAddr) :
    handleHttp s peerAddr =
      match readHeaders r with
      | .ok _ r' => .ok (httpInbound r'.intoInner .http peerAddr head.host head.port)
      | .error e _ => .error (.io e) := by
  have hmethod : ¬ eqIgnoreAsciiCase head.method "CONNECT" = true := by
    rw [head.notConnect]
    exact Bool.false_ne_true
  rw [handleHttp, own]
  simp only [bind, EStateM.bind, liftM, monadLift, MonadLift.monadLift, EStateM.adaptExcept,
    hread, head.words]
  rw [if_neg hmethod, head.authority]
  simp only [MonadExcept.ofExcept, pure, EStateM.pure, EStateM.bind, EStateM.adaptExcept]
  cases readHeaders r <;> rfl

/-- **A plain request is never forwarded.** Both HTTP handlers return a connection exactly
when the header lines are UTF-8, and what its stream yields never contains the request,
whatever the request line is rewritten to: the head has been consumed. -/
theorem plain_not_forwarded (handler : Socket → SocketAddr → Except Error InboundConnection)
    (hhandler : handler ∈ [handleHttpConnection, handleHttp]) (head : PlainHead)
    (body : List UInt8) {s : Socket} (hs : s.unread = head.bytes ++ body)
    (peerAddr : SocketAddr) :
    ((∃ conn, handler s peerAddr = .ok conn) ↔ head.Decodes) ∧
      ¬ ∃ conn line, handler s peerAddr = .ok conn ∧
        (line ++ (head.headers.flatten ++ head.blank) ++ body).Sublist conn.stream.unread := by
  obtain ⟨r, hread, hheaders⟩ := head.read hs
  rw [eq_handleHttp hhandler, handleHttp_plain head hread]
  rcases hheaders with ⟨hall, lines, r', hr', hrest, -⟩ | ⟨hall, e, r', hr'⟩
  · rw [hr']
    refine ⟨iff_of_true ⟨_, rfl⟩ hall, ?_⟩
    rintro ⟨conn, line, hconn, hsub⟩
    obtain rfl := Except.ok.inj hconn
    -- Only bytes of the body are left, and the blank line is missing from them.
    have hleft : r'.inner.unread.length ≤ body.length := by
      rw [← hrest, BufReader.unread, List.length_append]
      omega
    obtain ⟨l, hblank, -⟩ := head.isLine_blank
    have hlen := hsub.length_le
    simp only [httpInbound, intoInner, List.length_append, hblank, List.length_singleton] at hlen
    omega
  · rw [hr']
    refine ⟨iff_of_false error_not_ok hall, ?_⟩
    rintro ⟨conn, _, h, -⟩
    exact error_not_ok ⟨conn, h⟩

/-- A GET request with one header line. -/
def getExample : PlainHead where
  requestLine := "GET http://example.com/ HTTP/1.1\r\n"
  headers := [utf8 "Host: example.com\r\n"]
  blank := utf8 "\r\n"
  isLine_requestLine := by decide
  isLine_headers := by decide
  not_blank_headers := by decide +kernel
  isLine_blank := isLine_crlf
  blank_blank := blank_crlf
  method := "GET"
  target := "http://example.com/"
  version := "HTTP/1.1"
  more := []
  host := "example.com"
  port := 80
  words := by decide +kernel
  notConnect := by decide +kernel
  authority := by decide +kernel

/-- A plain request without a body, the shortest there is: the connection is handed on, and its
stream has nothing left of the request. -/
theorem plain_not_forwarded_example :
    ((∃ conn, handleHttpConnection (.ofBytes (getExample.bytes ++ []))
        ⟨.v4 (.new 10 0 0 1), 50000⟩ = .ok conn) ↔ getExample.Decodes) ∧
      ¬ ∃ conn line, handleHttpConnection (.ofBytes (getExample.bytes ++ []))
          ⟨.v4 (.new 10 0 0 1), 50000⟩ = .ok conn ∧
        (line ++ (getExample.headers.flatten ++ getExample.blank) ++ []).Sublist
          conn.stream.unread :=
  plain_not_forwarded handleHttpConnection List.mem_cons_self getExample []
    (Socket.unread_ofBytes _) _

/-- The connection of a GET request yields nothing of it. -/
theorem handleHttpConnection_get_lost :
    (Socket.ofBytes getExample.bytes).unread = getExample.bytes ∧ getExample.bytes ≠ [] ∧
      delivered (handleHttpConnection (.ofBytes getExample.bytes)
        ⟨.v4 (.new 10 0 0 1), 50000⟩) = some [] := by
  refine ⟨Socket.unread_ofBytes _, ?_, ?_⟩
  · decide
  · decide +kernel

end Redog
