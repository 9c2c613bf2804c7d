import Redog.Checked
import Redog.Core

/-!
# The SOCKS5 codec

The server side of the SOCKS5 handshake: the greeting with the offered methods, the answer
choosing no authentication, the request, and the success reply. The codec accepts every
command; what to do with it is left to the listener.

The bytes of a complete handshake are the grammar `Handshake`. `serverHandshake` is the
dialogue of that grammar, so its behaviour on every input, complete or truncated and however
it is cut into reads, follows from the library's rules.

## Main results

* `reads_readAddress`: `read_address` accepts exactly the encodings of addresses that fit.
* `readAddress_encodeAddress_iff`: an encoded address reads back exactly when it fits.
* `encodeAddress_readAddress`: an address is encoded as it was read.
* `dialogue_serverHandshake`: the handshake as a dialogue.
* `serverHandshake_request`: it consumes exactly the handshake, and fails on every
  truncation before the success reply.
-/

namespace Redog

open Rust

/-- The version of the protocol, which every message of the client and of the server starts with. -/
def SOCKS5_VERSION : UInt8 := 0x05

/-- The method without authentication, the only one the server chooses. -/
def NO_AUTH : UInt8 := 0x00

/-- `socks5::Command`: what a client can ask for. The handlers serve the first of the three only. -/
inductive Command
  | connect | bind | udpAssociate
deriving DecidableEq, Repr

/-- `Command::try_from`: the command with this code, or an error that names the code. -/
def Command.tryFrom (v : UInt8) : Except Error Command :=
  if v = 0x01 then .ok .connect
  else if v = 0x02 then .ok .bind
  else if v = 0x03 then .ok .udpAssociate
  else .error (.protocol ("unknown SOCKS5 command: " ++ toString v))

/-- The discriminant of a command, its byte on the wire. -/
def Command.code : Command → UInt8
  | .connect => 0x01
  | .bind => 0x02
  | .udpAssociate => 0x03

/-- `socks5::Address`: the destination of a request, given by its address or by its name. -/
inductive Address
  | ip (addr : SocketAddr)
  | domain (name : String) (port : UInt16)
deriving DecidableEq

/-- `Address::host`: the destination as a text, without its port. -/
def Address.host : Address → String
  | .ip addr => addr.ip.display
  | .domain name _ => name

/-- `Address::port`: the port, which both kinds of destination have. -/
def Address.port : Address → UInt16
  | .ip addr => addr.port
  | .domain _ port => port

/-- `Address::ip`: the address, unless the destination is given by its name. -/
def Address.ip? : Address → Option IpAddr
  | .ip addr => some addr.ip
  | .domain _ _ => none

/-! ### Reading and writing -/

/-- `read_u8`: the next byte of the socket. -/
def readU8 : EStateM Error Socket UInt8 := do
  let buf ← readExact 1
  return buf.get 0

/-- `u16::from_be_bytes`: the number whose high byte comes first. -/
def u16FromBeBytes (buf : List.Vector UInt8 2) : UInt16 :=
  UInt16.ofNat (be16 (buf.get 0) (buf.get 1))

/-- `read_u16`: the next two bytes of the socket as a number, the high byte first. -/
def readU16 : EStateM Error Socket UInt16 := do
  let buf ← readExact 2
  return u16FromBeBytes buf

/-- `BufMut::put_u16`: the number as two bytes, the high byte first. -/
def putU16 (n : UInt16) : List UInt8 :=
  be16Bytes n.toNat

/-- `String::from_utf8` with the error as `read_address` reports it. -/
def domainFromUtf8 (buf : List UInt8) : Except Error String :=
  match fromUtf8 buf with
  | some domain => .ok domain
  | none => .error (.protocol ("invalid domain: " ++ utf8ErrorText buf))

/-- `read_address`: the address and the port that follow a type. The length of a name is its first
byte. -/
def readAddress (atyp : UInt8) : EStateM Error Socket Address :=
  if atyp = 0x01 then do
    let octets ← readExact 4
    let port ← readU16
    return .ip ⟨.v4 ⟨octets⟩, port⟩
  else if atyp = 0x03 then do
    let len ← readU8
    let buf ← readExact len.toNat
    let domain ← MonadExcept.ofExcept (domainFromUtf8 buf.toList)
    let port ← readU16
    return .domain domain port
  else if atyp = 0x04 then do
    let octets ← readExact 16
    let port ← readU16
    return .ip ⟨.v6 ⟨octets⟩, port⟩
  else throw (.protocol ("unsupported SOCKS5 address type: " ++ toString atyp))

/-- `encode_address`. The length of a domain is cast to a byte. -/
def encodeAddress : Address → List UInt8
  | .ip ⟨.v4 ip, port⟩ => 0x01 :: (ip.octets.toList ++ putU16 port)
  | .ip ⟨.v6 ip, port⟩ => 0x04 :: (ip.octets.toList ++ putU16 port)
  | .domain domain port =>
      0x03 :: UInt8.ofNat (utf8 domain).length :: (utf8 domain ++ putU16 port)

/-- The reply `05 00 00 01` with a zero bind address. -/
def successReply : List UInt8 :=
  [SOCKS5_VERSION, 0x00, 0x00, 0x01, 0, 0, 0, 0, 0, 0]

/-- Steps 1 and 2 of `server_handshake`: the offered methods are read and ignored, and no
authentication is chosen. -/
def negotiateMethod : EStateM Error Socket Unit := do
  let ver ← readU8
  if ver ≠ SOCKS5_VERSION then
    throw (.protocol ("unsupported SOCKS version: " ++ toString ver))
  else do
    let nmethods ← readU8
    let _ ← readExact nmethods.toNat
    writeAll [SOCKS5_VERSION, NO_AUTH]

/-- Steps 3 and 4 of `server_handshake`: the connect request. -/
def readRequest : EStateM Error Socket (Command × Address) := do
  let header ← readExact 4
  if header.get 0 ≠ SOCKS5_VERSION then
    throw (.protocol "invalid SOCKS5 request version")
  else do
    let cmd ← MonadExcept.ofExcept (Command.tryFrom (header.get 1))
    let addr ← readAddress (header.get 3)
    return (cmd, addr)

/-- `server_handshake`: the method is agreed on, the request is read, and success is reported before
anybody has looked at the command. -/
def serverHandshake : EStateM Error Socket (Command × Address) := do
  negotiateMethod
  let request ← readRequest
  writeAll successReply
  return request

/-! ### Addresses on the wire -/

/-- The address fits its encoding: the length of a domain is a byte. -/
def Address.Encodable : Address → Prop
  | .ip _ => True
  | .domain name _ => (utf8 name).length ≤ 255

/-- Two bytes are the encoding of the number they are read as. -/
theorem toList_eq_putU16_iff (buf : List.Vector UInt8 2) (n : UInt16) :
    buf.toList = putU16 n ↔ u16FromBeBytes buf = n := by
  obtain ⟨hi, lo, hbuf⟩ := List.length_eq_two.mp buf.2
  obtain rfl : buf = ⟨[hi, lo], rfl⟩ := Subtype.ext hbuf
  show [hi, lo] = be16Bytes n.toNat ↔ UInt16.ofNat (be16 hi lo) = n
  constructor
  · intro h
    obtain ⟨rfl, rfl⟩ : hi = UInt8.ofNat (n.toNat / 256) ∧
        lo = UInt8.ofNat (n.toNat % 256) := by simpa [be16Bytes] using h
    rw [be16_be16Bytes n.toNat_lt, UInt16.ofNat_toNat]
  · rintro rfl
    rw [UInt16.toNat_ofNat', Nat.mod_eq_of_lt (be16_lt hi lo), be16Bytes_be16]

/-- A domain name is read exactly from its UTF-8 bytes; any other bytes are an error. -/
theorem domainFromUtf8_eq_ok_iff {buf : List UInt8} {name : String} :
    domainFromUtf8 buf = .ok name ↔ buf = utf8 name := by
  rw [← fromUtf8_eq_some_iff, domainFromUtf8]
  cases fromUtf8 buf with
  | none => simp
  | some name' => simp

/-- Reading a byte consumes that byte and returns it. -/
theorem reads_readU8 : Reads readU8 (fun c b => c = [b]) := by
  refine ((reads_lift (reads_readExact 1)).map (·.get 0)).congr fun c b => ?_
  constructor
  · rintro ⟨buf, rfl, rfl⟩
    rw [List.Vector.get_zero, List.Vector.toList_singleton]
  · rintro rfl
    exact ⟨⟨[b], rfl⟩, rfl, rfl⟩

/-- Reading a `u16` consumes its two bytes, the high one first. -/
theorem reads_readU16 : Reads readU16 (fun c n => c = putU16 n) := by
  refine ((reads_lift (reads_readExact 2)).map u16FromBeBytes).congr fun c n => ?_
  constructor
  · rintro ⟨buf, rfl, rfl⟩
    exact (toList_eq_putU16_iff buf _).mpr rfl
  · rintro rfl
    exact ⟨⟨putU16 n, rfl⟩, rfl, ((toList_eq_putU16_iff _ n).mp rfl).symm⟩

/-- An address in binary form is its octets and the port. -/
theorem reads_ipAddress {n : ℕ} (ofOctets : List.Vector UInt8 n → IpAddr) :
    Reads (do
        let octets ← readExact n
        let port ← readU16
        return .ip ⟨ofOctets octets, port⟩ : EStateM Error Socket Address)
      (fun c addr => ∃ octets port, c = octets.toList ++ putU16 port ∧
        addr = .ip ⟨ofOctets octets, port⟩) := by
  refine ((reads_lift (reads_readExact n)).bind fun octets =>
    reads_readU16.map fun port => Address.ip ⟨ofOctets octets, port⟩).congr fun c addr => ?_
  constructor
  · rintro ⟨octets, _, _, rfl, ⟨port, rfl, rfl⟩, rfl⟩
    exact ⟨octets, port, rfl, rfl⟩
  · rintro ⟨octets, port, rfl, rfl⟩
    exact ⟨octets, _, _, rfl, ⟨port, rfl, rfl⟩, rfl⟩

/-- `read_address` accepts exactly what `encode_address` writes after the address type, for
the addresses whose encoding can be read back. -/
theorem reads_readAddress (atyp : UInt8) :
    Reads (readAddress atyp)
      (fun c addr => encodeAddress addr = atyp :: c ∧ addr.Encodable) := by
  rw [readAddress]
  split_ifs with h1 h3 h4
  · subst h1
    refine (reads_ipAddress fun octets => .v4 ⟨octets⟩).congr fun c addr => ?_
    constructor
    · rintro ⟨octets, port, rfl, rfl⟩
      exact ⟨rfl, trivial⟩
    · rintro ⟨henc, -⟩
      rcases addr with ⟨⟨⟨⟨octets⟩⟩ | ip, port⟩⟩ | ⟨name, port⟩
      · obtain rfl := (List.cons.inj henc).2
        exact ⟨octets, port, rfl, rfl⟩
      · exact absurd (List.cons.inj henc).1 (by decide)
      · exact absurd (List.cons.inj henc).1 (by decide)
  · subst h3
    refine (reads_readU8.bind fun len => (reads_lift (reads_readExact len.toNat)).bind
      fun buf => (Reads.ofExcept (domainFromUtf8 buf.toList)).bind fun name =>
        reads_readU16.map fun port => Address.domain name port).congr fun c addr => ?_
    constructor
    · rintro ⟨len, _, _, rfl, ⟨buf, _, _, rfl, ⟨name, _, _, ⟨rfl, hname⟩,
        ⟨port, rfl, rfl⟩, rfl⟩, rfl⟩, rfl⟩
      rw [domainFromUtf8_eq_ok_iff] at hname
      have hlen : (utf8 name).length = len.toNat := by rw [← hname, buf.toList_length]
      refine ⟨?_, ?_⟩
      · rw [encodeAddress, hlen, UInt8.ofNat_toNat, hname]
        rfl
      · have := len.toNat_lt
        show (utf8 name).length ≤ 255
        omega
    · rintro ⟨henc, hfits⟩
      rcases addr with ⟨⟨⟨⟨octets⟩⟩ | ip, port⟩⟩ | ⟨name, port⟩
      · exact absurd (List.cons.inj henc).1 (by decide)
      · exact absurd (List.cons.inj henc).1 (by decide)
      · obtain rfl := (List.cons.inj henc).2
        have hlen : (utf8 name).length = (UInt8.ofNat (utf8 name).length).toNat := by
          have hfits : (utf8 name).length ≤ 255 := hfits
          rw [UInt8.toNat_ofNat', Nat.mod_eq_of_lt (by omega)]
        exact ⟨_, _, _, rfl, ⟨⟨utf8 name, hlen⟩, _, _, rfl, ⟨name, [], _,
          ⟨rfl, domainFromUtf8_eq_ok_iff.mpr rfl⟩, ⟨port, rfl, rfl⟩, rfl⟩, rfl⟩, rfl⟩
  · subst h4
    refine (reads_ipAddress fun octets => .v6 ⟨octets⟩).congr fun c addr => ?_
    constructor
    · rintro ⟨octets, port, rfl, rfl⟩
      exact ⟨rfl, trivial⟩
    · rintro ⟨henc, -⟩
      rcases addr with ⟨⟨ip | ⟨⟨octets⟩⟩, port⟩⟩ | ⟨name, port⟩
      · exact absurd (List.cons.inj henc).1 (by decide)
      · obtain rfl := (List.cons.inj henc).2
        exact ⟨octets, port, rfl, rfl⟩
      · exact absurd (List.cons.inj henc).1 (by decide)
  · refine (Reads.throw _).congr fun c addr => ⟨False.elim, ?_⟩
    rintro ⟨henc, -⟩
    rcases addr with ⟨⟨ip | ip, port⟩⟩ | ⟨name, port⟩
    · exact h1 (List.cons.inj henc).1.symm
    · exact h4 (List.cons.inj henc).1.symm
    · exact h3 (List.cons.inj henc).1.symm

/-- An encoded address is never empty, since it starts with the byte of its type. -/
theorem encodeAddress_ne_nil (addr : Address) : encodeAddress addr ≠ [] := by
  rcases addr with ⟨⟨ip | ip, port⟩⟩ | ⟨name, port⟩ <;> exact List.cons_ne_nil _ _

/-- **What is encoded reads back** when it fits: on the bytes `encode_address` writes behind
the address type, with any others behind them, `read_address` returns the address and
leaves the others, exactly when the address fits its encoding. -/
theorem readAddress_encodeAddress_iff (addr : Address) (tail : List UInt8) (atyp : UInt8)
    (s : Socket) (hs : encodeAddress addr ++ tail = atyp :: s.unread) :
    (∃ t, readAddress atyp s = .ok addr t ∧ t.unread = tail) ↔ addr.Encodable := by
  constructor
  · rintro ⟨t, hread, -⟩
    obtain ⟨_, _, ⟨⟨-, hfits⟩, -⟩, -⟩ := (reads_readAddress atyp).sound hread
    exact hfits
  · intro hfits
    obtain ⟨b, rest, henc⟩ := List.exists_cons_of_ne_nil (encodeAddress_ne_nil addr)
    rw [henc, List.cons_append] at hs
    obtain ⟨rfl, hunread⟩ := List.cons.inj hs
    obtain ⟨t, hread, hrest, -⟩ := (reads_readAddress b).complete ⟨⟨henc, hfits⟩, rfl⟩
      hunread.symm
    exact ⟨t, hread, hrest⟩

/-- The address `example.com:443` with a byte behind it. -/
theorem readAddress_encodeAddress_sample :
    (∃ t, readAddress 0x03 (.ofBytes ((encodeAddress (.domain "example.com" 443)).tail ++
        [0x16])) = .ok (.domain "example.com" 443) t ∧ t.unread = [0x16]) ↔
      (Address.domain "example.com" 443).Encodable := by
  refine readAddress_encodeAddress_iff _ _ _ _ ?_
  rw [Socket.unread_ofBytes]
  rfl

/-- A domain of 256 bytes. -/
def longDomain : String := .ofList (List.replicate 256 'a')

/-- The length of a domain of 256 bytes is written as 0: what is read back is an empty
domain with the first two letters as the port, and the other letters stay unread. -/
theorem readAddress_longDomain :
    ∃ s : Socket, encodeAddress (.domain longDomain 80) = 0x03 :: s.unread ∧
      (∃ t, readAddress 0x03 s = .ok (.domain "" 0x6161) t) ∧
      ¬ ∃ t, readAddress 0x03 s = .ok (.domain longDomain 80) t := by
  have hunread := Socket.unread_ofBytes (encodeAddress (.domain longDomain 80)).tail
  have hstart : (encodeAddress (.domain longDomain 80)).tail =
      [0x00, 0x61, 0x61] ++ (encodeAddress (.domain longDomain 80)).drop 4 := by
    decide +kernel
  have hempty : encodeAddress (.domain "" 0x6161) = 0x03 :: [0x00, 0x61, 0x61] := by
    decide +kernel
  refine ⟨_, by rw [hunread]; rfl, ?_, ?_⟩
  · obtain ⟨t, hread, -⟩ := (reads_readAddress 0x03).complete
      ⟨⟨hempty, Nat.zero_le _⟩, rfl⟩ (hunread.trans hstart)
    exact ⟨t, hread⟩
  · rintro ⟨t, hread⟩
    obtain ⟨_, _, ⟨⟨-, hfits⟩, -⟩, -⟩ := (reads_readAddress 0x03).sound hread
    have hlen : (utf8 longDomain).length = 256 := by decide +kernel
    have hfits : (utf8 longDomain).length ≤ 255 := hfits
    omega

/-- **Addresses have one wire form.** The address `read_address` returns is encoded as the
address type and the bytes it was read from: with what was left unread behind it, the
encoding is what arrived. -/
theorem encodeAddress_readAddress {atyp : UInt8} {s t : Socket} {addr : Address}
    (h : readAddress atyp s = .ok addr t) :
    encodeAddress addr ++ t.unread = atyp :: s.unread := by
  obtain ⟨consumed, _, ⟨⟨henc, -⟩, -⟩, hunread, -⟩ := (reads_readAddress atyp).sound h
  rw [henc, hunread, List.cons_append]

/-- The address `example.com:443` with a byte behind it. -/
theorem encodeAddress_readAddress_sample :
    ∃ t, readAddress 0x03 (.ofBytes ((encodeAddress (.domain "example.com" 443)).tail ++
        [0x16])) = .ok (.domain "example.com" 443) t ∧
      encodeAddress (.domain "example.com" 443) ++ t.unread =
        0x03 :: (Socket.ofBytes ((encodeAddress (.domain "example.com" 443)).tail ++
          [0x16])).unread := by
  have henc : encodeAddress (.domain "example.com" 443) =
      0x03 :: (encodeAddress (.domain "example.com" 443)).tail := rfl
  have hfits : (Address.domain "example.com" 443).Encodable := by
    show (utf8 "example.com").length ≤ 255
    decide
  obtain ⟨t, hread, -⟩ := (reads_readAddress 0x03).complete ⟨⟨henc, hfits⟩, rfl⟩
    (Socket.unread_ofBytes _)
  exact ⟨t, hread, encodeAddress_readAddress hread⟩

/-! ### The handshake -/

/-- A greeting that offers the methods. -/
def greeting (methods : List UInt8) : List UInt8 :=
  SOCKS5_VERSION :: UInt8.ofNat methods.length :: methods

/-- A request for a command and an address, with its reserved byte. -/
def requestBytes (cmd : Command) (rsv : UInt8) (addr : Address) : List UInt8 :=
  SOCKS5_VERSION :: cmd.code :: rsv :: encodeAddress addr

/-- A complete handshake, with what the server answers. -/
def Handshake (c w : List UInt8) (request : Command × Address) : Prop :=
  ∃ methods rsv, c = greeting methods ++ requestBytes request.1 rsv request.2 ∧
    methods.length ≤ 255 ∧ request.2.Encodable ∧
    w = [SOCKS5_VERSION, NO_AUTH] ++ successReply

/-- What a failed handshake has sent: nothing, or the choice of the method. -/
def Unanswered (w : List UInt8) : Prop :=
  w = [] ∨ w = [SOCKS5_VERSION, NO_AUTH]

/-- The negotiation consumes a greeting with any list of methods and answers it; a failed one has
sent nothing. -/
theorem dialogue_negotiateMethod :
    Dialogue negotiateMethod
      (fun c w _ => ∃ methods, c = greeting methods ∧ methods.length ≤ 255 ∧
        w = [SOCKS5_VERSION, NO_AUTH]) Silent := by
  refine (reads_readU8.bind_dialogue (fun ver =>
    (reads_readU8.bind_dialogue (fun nmethods =>
      (reads_lift (reads_readExact nmethods.toNat)).bind_dialogue (fun _ =>
        (dialogue_lift_writeAll [SOCKS5_VERSION, NO_AUTH]).weaken fun _ h => h.elim)
        silent_nil) silent_nil).guard silent_nil _) silent_nil).congr
    (fun c w _ => ?_) (fun _ h => h)
  constructor
  · rintro ⟨ver, _, _, rfl, ⟨hver, nmethods, _, _, rfl, ⟨methods, _, _, rfl, ⟨rfl, rfl⟩, rfl⟩,
      rfl⟩, rfl⟩
    obtain rfl := not_not.mp hver
    have hlt := nmethods.toNat_lt
    refine ⟨methods.toList, ?_, ?_, rfl⟩
    · rw [greeting, methods.toList_length, UInt8.ofNat_toNat, List.append_nil]
      rfl
    · rw [methods.toList_length]
      omega
  · rintro ⟨methods, rfl, hlen, rfl⟩
    have hcast : methods.length = (UInt8.ofNat methods.length).toNat := by
      rw [UInt8.toNat_ofNat', Nat.mod_eq_of_lt (by omega)]
    exact ⟨SOCKS5_VERSION, _, _, rfl, ⟨not_not.mpr rfl, _, _, _, rfl, ⟨⟨methods, hcast⟩, _, _,
      rfl, ⟨rfl, rfl⟩, (List.append_nil _).symm⟩, rfl⟩, rfl⟩

/-- A command is recognised from its own code and from no other byte. -/
theorem Command.tryFrom_eq_ok_iff {b : UInt8} {cmd : Command} :
    Command.tryFrom b = .ok cmd ↔ b = cmd.code := by
  constructor
  · intro h
    rw [Command.tryFrom] at h
    split_ifs at h with h1 h2 h3
    · obtain rfl := Except.ok.inj h
      exact h1
    · obtain rfl := Except.ok.inj h
      exact h2
    · obtain rfl := Except.ok.inj h
      exact h3
  · rintro rfl
    cases cmd <;> rfl

/-- The request that is read is the command and the address whose bytes were consumed, with any
reserved byte. -/
theorem reads_readRequest :
    Reads readRequest (fun c request => ∃ rsv, c = requestBytes request.1 rsv request.2 ∧
      request.2.Encodable) := by
  refine ((reads_lift (reads_readExact 4)).bind fun header =>
    ((Reads.ofExcept (Command.tryFrom (header.get 1))).bind fun cmd =>
      (reads_readAddress (header.get 3)).map fun addr => (cmd, addr)).guard _).congr
    fun c request => ?_
  constructor
  · rintro ⟨header, _, _, rfl, ⟨hver, cmd, _, body, ⟨rfl, hcmd⟩, ⟨addr, ⟨henc, hfits⟩, rfl⟩,
      rfl⟩, rfl⟩
    obtain ⟨ver, header, rfl⟩ := header.exists_eq_cons
    obtain ⟨b, header, rfl⟩ := header.exists_eq_cons
    obtain ⟨rsv, header, rfl⟩ := header.exists_eq_cons
    obtain ⟨atyp, header, rfl⟩ := header.exists_eq_cons
    obtain rfl := header.eq_nil
    obtain rfl : ver = SOCKS5_VERSION := not_not.mp hver
    obtain rfl : b = cmd.code := Command.tryFrom_eq_ok_iff.mp hcmd
    refine ⟨rsv, ?_, hfits⟩
    rw [requestBytes, henc]
    rfl
  · rintro ⟨rsv, rfl, hfits⟩
    obtain ⟨atyp, body, henc⟩ := List.exists_cons_of_ne_nil (encodeAddress_ne_nil request.2)
    refine ⟨⟨[SOCKS5_VERSION, request.1.code, rsv, atyp], rfl⟩, _, body, rfl,
      ⟨not_not.mpr rfl, request.1, [], body, ⟨rfl, Command.tryFrom_eq_ok_iff.mpr rfl⟩,
        ⟨request.2, ⟨henc, hfits⟩, rfl⟩, rfl⟩, ?_⟩
    rw [requestBytes, henc]
    rfl

/-- The handshake is the dialogue of its grammar; a failure comes before the success
reply. -/
theorem dialogue_serverHandshake : Dialogue serverHandshake Handshake Unanswered := by
  refine (dialogue_negotiateMethod.bind fun _ => reads_readRequest.bind_dialogue
    (fun request => ((dialogue_lift_writeAll successReply).write_bind (.pure request)).weaken
      ?_) silent_nil).congr (fun c w request => ?_) fun w => ?_
  · rintro w ⟨_, h, -⟩
    exact h.elim
  · constructor
    · rintro ⟨_, _, _, _, _, ⟨methods, rfl, hlen, rfl⟩, ⟨request, _, _, ⟨rsv, rfl, hfits⟩,
        ⟨_, ⟨rfl, rfl, rfl⟩, rfl⟩, rfl⟩, rfl, rfl⟩
      rw [List.append_nil, List.append_nil]
      exact ⟨methods, rsv, rfl, hlen, hfits, rfl⟩
    · rintro ⟨methods, rsv, rfl, hlen, hfits, rfl⟩
      exact ⟨(), _, _, _, _, ⟨methods, rfl, hlen, rfl⟩, ⟨request, _, [], ⟨rsv, rfl, hfits⟩,
        ⟨[], ⟨rfl, rfl, rfl⟩, rfl⟩, (List.append_nil _).symm⟩, rfl, rfl⟩
  · rintro (rfl | ⟨_, _, _, _, ⟨methods, -, -, rfl⟩, rfl, rfl⟩)
    · exact .inl rfl
    · exact .inr rfl

/-- **The handshake is exact.** On a greeting and a request for a command and an address,
`server_handshake` returns both, has sent the method choice and the success reply, and
leaves what follows unread; on every truncation it fails without having sent the success
reply. The offered methods are arbitrary, since the server never looks at them. -/
theorem serverHandshake_request {methods : List UInt8} (hlen : methods.length ≤ 255)
    (cmd : Command) (rsv : UInt8) {addr : Address} (hfits : addr.Encodable) (s : Socket) :
    (∀ payload, s.unread = greeting methods ++ requestBytes cmd rsv addr ++ payload →
      ∃ s', serverHandshake s = .ok (cmd, addr) s' ∧ s'.unread = payload ∧
        s'.written = s.written ++ ([SOCKS5_VERSION, NO_AUTH] ++ successReply)) ∧
    (s.unread <+: greeting methods ++ requestBytes cmd rsv addr →
      s.unread ≠ greeting methods ++ requestBytes cmd rsv addr →
      ∃ e s', serverHandshake s = .error e s' ∧ ∃ sent, Unanswered sent ∧
        s'.written = s.written ++ sent) := by
  have hshake : Handshake (greeting methods ++ requestBytes cmd rsv addr)
      ([SOCKS5_VERSION, NO_AUTH] ++ successReply) (cmd, addr) :=
    ⟨methods, rsv, rfl, hlen, hfits, rfl⟩
  exact ⟨fun payload hs => dialogue_serverHandshake.complete hshake hs,
    fun hpart hne => dialogue_serverHandshake.truncated hshake hpart hne⟩

/-- A CONNECT to `example.com:443` with two bytes behind it, and cut after the greeting. -/
theorem serverHandshake_request_sample :
    (∃ s', serverHandshake (.ofBytes (greeting [NO_AUTH, 0x02] ++
          requestBytes .connect 0 (.domain "example.com" 443) ++ [0x16, 0x03])) =
        .ok (.connect, .domain "example.com" 443) s' ∧ s'.unread = [0x16, 0x03] ∧
        s'.written = [] ++ ([SOCKS5_VERSION, NO_AUTH] ++ successReply)) ∧
    ∃ e s', serverHandshake (.ofBytes (greeting [NO_AUTH, 0x02])) = .error e s' ∧
      ∃ sent, Unanswered sent ∧ s'.written = [] ++ sent := by
  have hfits : (Address.domain "example.com" 443).Encodable := by
    show (utf8 "example.com").length ≤ 255
    decide
  have hlen : [NO_AUTH, 0x02].length ≤ 255 := by decide
  refine ⟨(serverHandshake_request hlen .connect 0 hfits _).1 [0x16, 0x03] ?_,
    (serverHandshake_request hlen .connect 0 hfits _).2 ?_ ?_⟩
  · exact Socket.unread_ofBytes _
  · rw [Socket.unread_ofBytes]
    exact List.prefix_append _ _
  · rw [Socket.unread_ofBytes]
    decide

end Redog
