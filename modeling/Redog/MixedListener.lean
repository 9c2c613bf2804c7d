import Redog.HttpListener
import Redog.Listener
import Redog.Segments

/-!
# The mixed listener

The mixed listener serves SOCKS5 and HTTP clients on one port. It looks at the first byte of
a connection without taking it from the stream, and hands the connection to its SOCKS5
handler when that byte is the version of SOCKS5, and to its HTTP handler when it is another
one or when there is none.

## Main results

* `handle_segments`: what the listeners make of a client does not depend on how the network
  cuts its bytes.
* `handleMixedConnection_eq_ok_iff`: whom the mixed listener serves.
-/

namespace Redog

open Rust Rust.BufReader

/-- `TcpStream::peek` into a buffer of `cap` bytes: what a read would deliver stays in the
stream. -/
def peek (cap : ℕ) : EStateM IoError Socket {bytes : List UInt8 // bytes.length ≤ cap} :=
  fun s =>
    match read cap s with
    | .ok bytes _ => .ok bytes s
    | .error e _ => .error e s

/-- `handle_mixed_connection`. The buffer for the first byte is zero before the peek. -/
def handleMixedConnection (stream : Socket) (peerAddr : SocketAddr) :
    Except Error InboundConnection :=
  match peek 1 stream with
  | .error e _ => .error (.io e)
  | .ok peeked stream =>
      if peeked.1.headD 0 = 0x05 then
        match handleSocks5 peerAddr stream with
        | .ok conn _ => .ok conn
        | .error e _ => .error e
      else handleHttp stream peerAddr

/-- A peek sees the first byte that is still to be read. -/
theorem peek_cases (s : Socket) :
    (∃ e, s.unread = [] ∧ s.fault = some e ∧ peek 1 s = .error e s) ∨
      (s.unread ≠ [] ∨ s.fault = none) ∧
        ∃ peeked, peek 1 s = .ok peeked s ∧ peeked.1.headD 0 = s.unread.headD 0 := by
  rw [peek]
  rcases read_ends Nat.one_pos s with
    ⟨hnil, ⟨hfault, hread⟩ | ⟨e, hfault, hread⟩⟩ | ⟨bytes, t, hread, hne, hunread, -, -⟩
  · rw [hread, hnil]
    exact .inr ⟨.inr hfault, _, rfl, rfl⟩
  · rw [hread]
    exact .inl ⟨e, hnil, hfault, rfl⟩
  · obtain ⟨b, rest, hbytes⟩ := List.exists_cons_of_ne_nil hne
    rw [hread, hunread, hbytes]
    refine .inr ⟨.inl (List.cons_ne_nil _ _), bytes, rfl, ?_⟩
    rw [hbytes]
    rfl

/-! ### Independence of the segments -/

/-- A program on the socket agrees with itself also when its errors are converted. -/
theorem agree_lift {α β : Type} {V : α → β → Prop} {m : EStateM IoError Socket α}
    {m' : EStateM IoError Socket β} (h : Agree SameStream V m m') :
    Agree SameStream V (liftM m : EStateM Error Socket α) (liftM m') :=
  h.adaptExcept Error.io

/-- A program on a buffered reader agrees with itself also when its errors are converted. -/
theorem agree_lift_reader {α β : Type} {V : α → β → Prop} {m : EStateM IoError BufReader α}
    {m' : EStateM IoError BufReader β} (h : Agree SameUnread V m m') :
    Agree SameUnread V (liftM m : EStateM Error BufReader α) (liftM m') :=
  h.adaptExcept Error.io

/-- Reading one byte does not depend on where the chunks end. -/
theorem agree_readU8 : Agree SameStream Eq readU8 readU8 :=
  (agree_lift (agree_readExact 1)).bind_eq fun _ => .pure rfl

/-- Reading two bytes does not depend on where the chunks end. -/
theorem agree_readU16 : Agree SameStream Eq readU16 readU16 :=
  (agree_lift (agree_readExact 2)).bind_eq fun _ => .pure rfl

/-- Reading an address, of any of the three types, does not depend on where the chunks end. -/
theorem agree_readAddress (atyp : UInt8) :
    Agree SameStream Eq (readAddress atyp) (readAddress atyp) := by
  rw [readAddress]
  split_ifs
  · exact (agree_lift (agree_readExact 4)).bind_eq fun _ => agree_readU16.bind_eq fun _ => .pure rfl
  · exact agree_readU8.bind_eq fun len => (agree_lift (agree_readExact len.toNat)).bind_eq
      fun _ => (Agree.ofExcept _).bind_eq fun _ => agree_readU16.bind_eq fun _ => .pure rfl
  · exact (agree_lift (agree_readExact 16)).bind_eq
      fun _ => agree_readU16.bind_eq fun _ => .pure rfl
  · exact .throw _

/-- Choosing a method does not depend on where the chunks end. -/
theorem agree_negotiateMethod : Agree SameStream Eq negotiateMethod negotiateMethod := by
  refine agree_readU8.bind_eq fun ver => ?_
  split_ifs
  · exact .throw _
  · exact agree_readU8.bind_eq fun nmethods =>
      (agree_lift (agree_readExact nmethods.toNat)).bind_eq fun _ =>
        agree_lift (agree_writeAll _)

/-- Reading the request does not depend on where the chunks end. -/
theorem agree_readRequest : Agree SameStream Eq readRequest readRequest := by
  refine (agree_lift (agree_readExact 4)).bind_eq fun header => ?_
  split_ifs
  · exact .throw _
  · exact (Agree.ofExcept _).bind_eq fun _ =>
      (agree_readAddress _).bind_eq fun _ => .pure rfl

/-- The whole handshake does not depend on where the chunks end. -/
theorem agree_serverHandshake : Agree SameStream Eq serverHandshake serverHandshake :=
  agree_negotiateMethod.bind_eq fun _ => agree_readRequest.bind_eq fun _ =>
    (agree_lift (agree_writeAll _)).bind_eq fun _ => .pure rfl

/-- The connections are alike for the tunnel and for both ends of the stream. -/
def InboundConnection.Same (conn conn' : InboundConnection) : Prop :=
  conn.metadata = conn'.metadata ∧ SameStream conn.stream conn'.stream

/-- Neither does what is accepted over SOCKS5, up to the chunks that are left in the socket. -/
theorem agree_acceptSocks5 (peerAddr : SocketAddr) :
    Agree SameStream InboundConnection.Same (acceptSocks5 peerAddr) (acceptSocks5 peerAddr) := by
  refine agree_serverHandshake.bind_eq fun request => ?_
  split_ifs
  · exact .throw _
  · exact Agree.get.bind fun _ _ hstream => .pure ⟨rfl, hstream⟩

/-- Reading the headers of a request does not depend on where the chunks end. -/
theorem agree_headerLoop : Agree SameUnread Eq headerLoop headerLoop := by
  intro r t h
  -- On the bytes still to be read; a line that is not blank takes some of them.
  induction hn : r.unread.length using Nat.strong_induction_on generalizing r t with
  | _ n ih =>
  have hres := agree_readLine h
  rw [headerLoop.eq_def r, headerLoop.eq_def t]
  cases hr : readLine r with
  | error e r' =>
      cases ht : readLine t with
      | error e' t' =>
          rw [hr, ht] at hres
          cases hres with
          | error hR => exact .error hR
      | ok line' t' =>
          rw [hr, ht] at hres
          cases hres
  | ok line r' =>
      cases ht : readLine t with
      | error e' t' =>
          rw [hr, ht] at hres
          cases hres
      | ok line' t' =>
          rw [hr, ht] at hres
          cases hres with
          | ok hV hR =>
              subst hV
              by_cases hblank : trim line = ""
              · simp only [if_pos hblank]
                exact .ok rfl hR
              · simp only [if_neg hblank]
                have hless : r'.unread.length < n := hn ▸
                  length_unread_lt_of_readLine hr fun hempty => hblank (by rw [hempty]; rfl)
                have hrest := ih _ hless hR rfl
                generalize headerLoop r' = res at hrest
                generalize headerLoop t' = res' at hrest
                cases hrest with
                | ok hV hR => exact .ok (congrArg (line :: ·) hV) hR
                | error hR => exact .error hR

/-- The connections are alike for the tunnel, and the same has been written to the client. -/
def InboundConnection.SameAnswer (conn conn' : InboundConnection) : Prop :=
  conn.metadata = conn'.metadata ∧ conn.stream.written = conn'.stream.written

/-- What a handler makes of a client: where it wants to go and what it has been answered. -/
def outcome (result : Except Error InboundConnection) : Except Error (Metadata × List UInt8) :=
  result.map fun conn => (conn.metadata, conn.stream.written)

/-- What an HTTP client is told, and what is asked for, does not depend on where the chunks end. -/
theorem outcome_handleHttp {s t : Socket} (h : SameStream s t) (peerAddr : SocketAddr) :
    outcome (handleHttp s peerAddr) = outcome (handleHttp t peerAddr) := by
  have hagree : (∃ conn conn', handleHttp s peerAddr = .ok conn ∧
      handleHttp t peerAddr = .ok conn' ∧ conn.SameAnswer conn') ∨
      ∃ e, handleHttp s peerAddr = .error e ∧ handleHttp t peerAddr = .error e := by
    refine agree_own ((agree_lift_reader agree_readLine).bind_eq fun requestLine => ?_) h
    split
    · split_ifs
      · refine (Agree.ofExcept _).bind_eq fun hostPort => ?_
        refine (agree_lift_reader agree_headerLoop).bind_eq fun _ => ?_
        exact Agree.get.bind fun r r' hr =>
          .pure ⟨rfl, congrArg (· ++ connectionEstablished) hr.written⟩
      · refine (Agree.ofExcept _).bind_eq fun hostPort => ?_
        refine (agree_lift_reader agree_headerLoop).bind_eq fun _ => ?_
        exact Agree.get.bind fun r r' hr => .pure ⟨rfl, hr.written⟩
    · exact .throw _
  rcases hagree with ⟨conn, conn', hs, ht, hmetadata, hwritten⟩ | ⟨e, hs, ht⟩
  · rw [hs, ht, outcome, outcome, Except.map, Except.map, hmetadata, hwritten]
  · rw [hs, ht]

/-- Neither does what a client of the mixed listener gets, whichever protocol it speaks. -/
theorem outcome_handleMixedConnection {s t : Socket} (h : SameStream s t)
    (peerAddr : SocketAddr) :
    outcome (handleMixedConnection s peerAddr) = outcome (handleMixedConnection t peerAddr) := by
  rcases peek_cases s with ⟨e, hnil, hfault, hs⟩ | ⟨hends, peeked, hs, hhead⟩
  · rcases peek_cases t with ⟨e', -, hfault', ht⟩ | ⟨hends', -⟩
    · rw [← h.fault, hfault] at hfault'
      obtain rfl := Option.some.inj hfault'
      rw [handleMixedConnection, handleMixedConnection, hs, ht]
    · rw [← h.unread, ← h.fault, hnil, hfault] at hends'
      simp at hends'
  · rcases peek_cases t with ⟨e', hnil', hfault', -⟩ | ⟨-, peeked', ht, hhead'⟩
    · rw [h.unread, h.fault, hnil', hfault'] at hends
      simp at hends
    · rw [handleMixedConnection, handleMixedConnection, hs, ht]
      simp only [hhead, hhead', h.unread]
      split_ifs
      · have hsocks := agree_acceptSocks5 peerAddr h
        simp only [handleSocks5]
        generalize acceptSocks5 peerAddr s = res at hsocks
        generalize acceptSocks5 peerAddr t = res' at hsocks
        cases hsocks with
        | ok hV _ => simp only [outcome, Except.map, hV.1, hV.2.written]
        | error _ => rfl
      · exact outcome_handleHttp h peerAddr

/-- **The cuts of the network do not matter.** When the same bytes reach a listener in other
segments, the SOCKS5 listener accepts or refuses the client in the same way, sends it the same
and leaves the same in the stream; and the HTTP and the mixed listener accept or refuse it in
the same way and send it the same. -/
theorem handle_segments {s t : Socket} (h : SameStream s t) (peerAddr : SocketAddr) :
    AgreeOn SameStream InboundConnection.Same (handleSocksConnection peerAddr s)
        (handleSocksConnection peerAddr t) ∧
      outcome (handleHttpConnection s peerAddr) = outcome (handleHttpConnection t peerAddr) ∧
      outcome (handleMixedConnection s peerAddr) = outcome (handleMixedConnection t peerAddr) := by
  refine ⟨agree_acceptSocks5 peerAddr h, ?_, outcome_handleMixedConnection h peerAddr⟩
  rw [handleHttpConnection_eq]
  exact outcome_handleHttp h peerAddr

/-- A client of the SOCKS5 listener whose greeting and request come in one segment each. -/
def clientInTwo : Socket where
  incoming := [⟨greeting [NO_AUTH], List.cons_ne_nil _ _⟩,
    ⟨requestBytes .connect 0 (.ip ⟨.v4 (.new 127 0 0 1), 80⟩), List.cons_ne_nil _ _⟩]

/-- A SOCKS5 client whose greeting and request arrive together or one after the other. -/
theorem handle_segments_client :
    AgreeOn SameStream InboundConnection.Same
        (handleSocksConnection ⟨.v4 (.new 10 0 0 1), 50000⟩ (client .connect))
        (handleSocksConnection ⟨.v4 (.new 10 0 0 1), 50000⟩ clientInTwo) ∧
      outcome (handleHttpConnection (client .connect) ⟨.v4 (.new 10 0 0 1), 50000⟩) =
        outcome (handleHttpConnection clientInTwo ⟨.v4 (.new 10 0 0 1), 50000⟩) ∧
      outcome (handleMixedConnection (client .connect) ⟨.v4 (.new 10 0 0 1), 50000⟩) =
        outcome (handleMixedConnection clientInTwo ⟨.v4 (.new 10 0 0 1), 50000⟩) :=
  have hsame : SameStream (client .connect) clientInTwo := ⟨by decide +kernel, rfl, rfl⟩
  handle_segments hsame _

/-! ### Whom the listeners serve -/

/-- A stream the SOCKS5 handler accepts starts with the version of SOCKS5. -/
theorem headD_of_acceptSocks5 {peerAddr : SocketAddr} {s t : Socket} {conn : InboundConnection}
    (h : acceptSocks5 peerAddr s = .ok conn t) : s.unread.headD 0 = 0x05 := by
  rw [acceptSocks5_eq] at h
  rcases serverHandshake_cases s with ⟨cmd, addr, methods, rsv, t', -, -, -, hunread, -⟩ |
    ⟨e, t', hs, -⟩
  · rw [hunread]
    rfl
  · rw [hs] at h
    cases h

/-- On a stream that breaks before its first byte no line can be read. -/
theorem error_of_fault {s : Socket} {e : IoError} (hnil : s.unread = [])
    (hfault : s.fault = some e) (peerAddr : SocketAddr) :
    ¬ ∃ conn, handleHttp s peerAddr = .ok conn := by
  have hread : ∃ r, readLine (.new s) = .error e r := by
    have hspec := readUntil_spec 0x0A (.new s)
    simp only [readLine]
    generalize readUntil 0x0A (.new s) = res at hspec
    cases res with
    | ok line r =>
        obtain ⟨hunread, -, hended⟩ := hspec
        have hline : line ++ r.unread = [] := hunread.symm.trans hnil
        rcases hended with ⟨l, rfl, -⟩ | ⟨-, -, hnone⟩
        · simp at hline
        · cases hfault.symm.trans hnone
    | error e' r =>
        obtain ⟨-, -, -, hfault'⟩ := hspec
        obtain rfl := Option.some.inj (hfault.symm.trans hfault')
        exact ⟨r, rfl⟩
  obtain ⟨r, hread⟩ := hread
  rw [handleHttp, own]
  simp only [bind, EStateM.bind, liftM, monadLift, MonadLift.monadLift, EStateM.adaptExcept,
    hread]
  exact error_not_ok

/-- **Whom the mixed listener serves.** It hands on a connection exactly when the SOCKS5
listener hands on the same one for this stream, or the HTTP listener does and the stream does
not start with the version of SOCKS5. -/
theorem handleMixedConnection_eq_ok_iff (s : Socket) (peerAddr : SocketAddr)
    (conn : InboundConnection) :
    handleMixedConnection s peerAddr = .ok conn ↔
      (∃ t, handleSocksConnection peerAddr s = .ok conn t) ∨
        s.unread.headD 0 ≠ 0x05 ∧ handleHttpConnection s peerAddr = .ok conn := by
  rw [handleHttpConnection_eq]
  rcases peek_cases s with ⟨e, hnil, hfault, hs⟩ | ⟨-, peeked, hs, hhead⟩
  · rw [handleMixedConnection, hs]
    constructor
    · intro h
      cases h
    · rintro (⟨t, ht⟩ | ⟨-, hok⟩)
      · have hfive := headD_of_acceptSocks5 ht
        rw [hnil] at hfive
        cases hfive
      · exact absurd ⟨conn, hok⟩ (error_of_fault hnil hfault peerAddr)
  · rw [handleMixedConnection, hs]
    simp only [hhead]
    split_ifs with hfive
    · rw [or_iff_left fun h => h.1 hfive, handleSocks5, handleSocksConnection]
      cases acceptSocks5 peerAddr s with
      | ok conn' t =>
          constructor
          · intro h
            obtain rfl := Except.ok.inj h
            exact ⟨t, rfl⟩
          · rintro ⟨t', h⟩
            cases h
            rfl
      | error e t =>
          constructor
          · intro h
            cases h
          · rintro ⟨t', h⟩
            cases h
    · rw [or_iff_right, and_iff_right hfive]
      rintro ⟨t, ht⟩
      exact hfive (headD_of_acceptSocks5 ht)

end Redog
