import Redog.Net
import Redog.Socket

/-!
# Core types

The data every part of the proxy shares: errors, the metadata of a connection, and the
outbound adapters it can be sent to. Fields of the metadata that no modelled component
reads are left out.
-/

namespace Redog

open Rust

/-- `redog_core::Error`: the errors every crate of the program reports, most of them with a
message. -/
inductive Error
  | io (e : IoError)
  | dnsResolution (message : String)
  | proxyHandshake (message : String)
  | ruleMatch (message : String)
  | config (message : String)
  | connectionClosed
  | timeout
  | invalidAddress (message : String)
  | protocol (message : String)
  | other (message : String)
deriving DecidableEq, Repr

/-- `?` on an I/O error wraps it in `Error::Io`. -/
instance : MonadLift (EStateM IoError Socket) (EStateM Error Socket) where
  monadLift := EStateM.adaptExcept .io

variable {α : Type}

/-- What a reader takes off the socket does not change when its errors are converted. -/
theorem reads_lift {m : EStateM IoError Socket α} {R : List UInt8 → α → Prop}
    (h : Reads m R) : Reads (liftM m : EStateM Error Socket α) R :=
  Dialogue.adaptExcept h Error.io

/-- Writing bytes takes nothing off the socket, sends the bytes and does not fail, also when errors
are converted. -/
theorem dialogue_lift_writeAll (bytes : List UInt8) :
    Dialogue (liftM (writeAll bytes) : EStateM Error Socket Unit)
      (fun c w _ => c = [] ∧ w = bytes) (fun _ => False) :=
  (dialogue_writeAll bytes).adaptExcept Error.io

/-- `redog_core::Network`: whether a connection is a stream or a flow of datagrams. -/
inductive Network
  | tcp | udp
deriving DecidableEq, Repr

/-- `impl Display for Network`: the text of the network in the list of connections. -/
def Network.display : Network → String
  | .tcp => "tcp"
  | .udp => "udp"

/-- `redog_core::InboundType`: how a connection came in. The handlers only make `Http`,
`HttpConnect` and `Socks5`. -/
inductive InboundType
  | http | httpConnect | socks4 | socks5 | redir | tproxy | tun | mixed | inner
deriving DecidableEq, Repr

/-- `impl Display for InboundType`: the text of the inbound in the list of connections. -/
def InboundType.display : InboundType → String
  | .http => "HTTP"
  | .httpConnect => "HTTP Connect"
  | .socks4 => "SOCKS4"
  | .socks5 => "SOCKS5"
  | .redir => "Redir"
  | .tproxy => "TProxy"
  | .tun => "TUN"
  | .mixed => "Mixed"
  | .inner => "Inner"

/-- `redog_core::Metadata`, the fields that routing reads: where a connection comes from, and where
it is to go. -/
structure Metadata where
  network : Network
  inboundType : InboundType
  srcAddr : SocketAddr
  dstIp : Option IpAddr
  dstPort : UInt16
  host : Option String
deriving DecidableEq

/-- `Metadata::new`: a record with no destination in it yet, which the handlers then fill. -/
def Metadata.new (network : Network) (inboundType : InboundType) : Metadata where
  network := network
  inboundType := inboundType
  srcAddr := ⟨.v4 (.new 0 0 0 0), 0⟩
  dstIp := none
  dstPort := 0
  host := none

/-- `Metadata::remote_host`: the name before the address, and the empty text without either. -/
def Metadata.remoteHost (metadata : Metadata) : String :=
  match metadata.host, metadata.dstIp with
  | some host, _ => host
  | none, some ip => ip.display
  | none, none => ""

/-- `Metadata::destination`: the host with the port behind it, as the tunnel reports and logs it. -/
def Metadata.destination (metadata : Metadata) : String :=
  metadata.remoteHost ++ ":" ++ Nat.repr metadata.dstPort.toNat

end Redog
