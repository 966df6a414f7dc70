import Hopr.Library.Text

/-! Patterns that select session targets.

A pattern is written in one string, `<protocol>:<host>:<port>`; the protocol is up
to the first colon and the port behind the last one. The host in between is tried
as a wildcard, a block, a bracketed address, an address, and is a name at last.
Only names are normalised: they lose one root dot and become lower case.

Addresses, blocks, protocols and service ids are read and displayed outside of the
repository (`NetworkTypes`). -/
namespace Hopr.SessionServerForwarder
open Library

/-- Network types, and how they are read and displayed; what is not read has an error that is
displayed. -/
structure NetworkTypes where
  IpAddr : Type
  IpNet : Type
  IpProtocol : Type
  ServiceId : Type
  SocketAddr : Type
  ip_addr_eq : DecidableEq IpAddr
  ip_net_eq : DecidableEq IpNet
  ip_protocol_eq : DecidableEq IpProtocol
  service_id_eq : DecidableEq ServiceId
  socket_addr_eq : DecidableEq SocketAddr
  TCP : IpProtocol
  UDP : IpProtocol
  is_v6 : IpAddr → Bool
  contains : IpNet → IpAddr → Bool
  ip : SocketAddr → IpAddr
  port : SocketAddr → UInt16
  parse_ip_addr : Text → Except Text IpAddr
  display_ip_addr : IpAddr → Text
  parse_ip_net : Text → Except Text IpNet
  display_ip_net : IpNet → Text
  parse_ip_protocol : Text → Except Text IpProtocol
  display_ip_protocol : IpProtocol → Text
  parse_service_id : Text → Except Text ServiceId
  display_service_id : ServiceId → Text

attribute [instance] NetworkTypes.ip_addr_eq NetworkTypes.ip_net_eq NetworkTypes.ip_protocol_eq
  NetworkTypes.service_id_eq NetworkTypes.socket_addr_eq

/-- An address and a port, or a name and a port. -/
inductive IpOrHost (T : NetworkTypes) where
  | Dns (name : Text) (port : UInt16)
  | Ip (addr : T.SocketAddr)
deriving DecidableEq

def IpOrHost.port {T : NetworkTypes} : IpOrHost T → UInt16
  | .Dns _ port => port
  | .Ip addr => T.port addr

def IpOrHost.is_dns {T : NetworkTypes} : IpOrHost T → Bool
  | .Dns _ _ => true
  | .Ip _ => false

/-! ### Patterns -/

structure InvalidTargetPattern where
  pattern : Text
  reason : Text
deriving DecidableEq

inductive ProtocolPattern (T : NetworkTypes) where
  | Any
  | Only (protocol : T.IpProtocol)
deriving DecidableEq

inductive HostPattern (T : NetworkTypes) where
  | Any
  /-- One name, compared regardless of ASCII case. -/
  | Name (name : Text)
  /-- The strict subdomains of a name. -/
  | Subdomain (suffix : Text)
  | Address (addr : T.IpAddr)
  | Network (net : T.IpNet)
deriving DecidableEq

inductive PortPattern where
  | Any
  | Exact (port : UInt16)
deriving DecidableEq

inductive TargetPattern (T : NetworkTypes) where
  | Any
  | Service (id : Option T.ServiceId)
  | Stream (protocol : ProtocolPattern T) (host : HostPattern T) (port : PortPattern)
deriving DecidableEq

/-! ### Names -/

/-- Without one trailing root dot. -/
def without_root_dot (name : Text) : Text := (name.strip_suffix ['.']).getD name

/-- Bytes of other characters than these are none of them either. -/
def is_dns_charset (name : Text) : Bool :=
  name.all fun c => c.isAlphanum || c == '-' || c == '.' || c == '_'

def dns_name (pattern name : Text) : Except InvalidTargetPattern Text :=
  let name := without_root_dot name
  if name.isEmpty then
    .error ⟨pattern, "empty host name".toList⟩
  else if !is_dns_charset name then
    .error ⟨pattern, '\'' :: name ++ "' is not a DNS name; a wildcard label is written '*.'".toList⟩
  else
    .ok name.to_ascii_lowercase

/-! ### Reading -/

section Reading
variable {T : NetworkTypes}

def parse_protocol (pattern : Text) (protocol : Text) : Except InvalidTargetPattern (ProtocolPattern T) :=
  if protocol = ['*'] then .ok .Any
  else
    match T.parse_ip_protocol protocol with
    | .ok protocol => .ok (.Only protocol)
    | .error _ =>
      .error ⟨pattern, "unknown protocol '".toList ++ protocol ++
        "', expected 'tcp', 'udp', 'service' or '*'".toList⟩

def parse_port (pattern : Text) (port : Text) : Except InvalidTargetPattern PortPattern :=
  if port = ['*'] then .ok .Any
  else
    match port.parse_unsigned UInt16.size with
    | .ok port => .ok (.Exact (.ofNat port))
    | .error e => .error ⟨pattern, "port: ".toList ++ e⟩

def parse_host (pattern : Text) (host : Text) : Except InvalidTargetPattern (HostPattern T) :=
  if host = ['*'] then .ok .Any
  else
    match Text.strip_prefix host ['*', '.'] with
    | some suffix => (dns_name pattern suffix).map .Subdomain
    | none =>
      if host.contains '/' then
        match T.parse_ip_net host with
        | .ok net => .ok (.Network net)
        | .error e => .error ⟨pattern, "network: ".toList ++ e⟩
      else
        match (Text.strip_prefix host ['[']).bind fun h => h.strip_suffix [']'] with
        | some literal =>
          match T.parse_ip_addr literal with
          | .ok addr => .ok (.Address addr)
          | .error e => .error ⟨pattern, "address: ".toList ++ e⟩
        | none =>
          match T.parse_ip_addr host with
          | .ok addr => .ok (.Address addr)
          | .error _ => (dns_name pattern host).map .Name

def TargetPattern.from_str (s : Text) : Except InvalidTargetPattern (TargetPattern T) :=
  let pattern := s.trim
  if pattern = ['*'] then .ok .Any
  else
    match pattern.split_once ':' with
    | none => .error ⟨pattern, "expected '<protocol>:<host>:<port>' or '*'".toList⟩
    | some (protocol, rest) =>
      if protocol.eq_ignore_ascii_case "service".toList then
        if rest = ['*'] then .ok (.Service none)
        else
          match T.parse_service_id rest with
          | .ok id => .ok (.Service (some id))
          | .error e => .error ⟨pattern, "service id: ".toList ++ e⟩
      else do
        let protocol ← parse_protocol pattern protocol
        match rest.rsplit_once ':' with
        | none => .error ⟨pattern, "missing ':<port>'".toList⟩
        | some (host, port) =>
          let port ← parse_port pattern port
          let host ← parse_host pattern host
          return .Stream protocol host port

end Reading

/-! ### Displaying -/

section Displaying
variable {T : NetworkTypes}

def ProtocolPattern.display : ProtocolPattern T → Text
  | .Any => ['*']
  | .Only protocol => T.display_ip_protocol protocol

def HostPattern.display : HostPattern T → Text
  | .Any => ['*']
  | .Name name => name
  | .Subdomain suffix => '*' :: '.' :: suffix
  | .Address addr =>
    if T.is_v6 addr then '[' :: T.display_ip_addr addr ++ [']'] else T.display_ip_addr addr
  | .Network net => T.display_ip_net net

def PortPattern.display : PortPattern → Text
  | .Any => ['*']
  | .Exact port => Text.display_unsigned port.toNat

def TargetPattern.display : TargetPattern T → Text
  | .Any => ['*']
  | .Service none => "service:*".toList
  | .Service (some id) => "service:".toList ++ T.display_service_id id
  | .Stream protocol host port => protocol.display ++ ':' :: (host.display ++ ':' :: port.display)

end Displaying

/-! ### Matching -/

/-- A session target whose host is opened. -/
inductive UnsealedTarget (T : NetworkTypes) where
  | Stream (protocol : T.IpProtocol) (host : IpOrHost T)
  | Service (id : T.ServiceId)

section Matching
variable {T : NetworkTypes}

def checked_sub (a b : Nat) : Option Nat := if b ≤ a then some (a - b) else none

def ProtocolPattern.matches : ProtocolPattern T → T.IpProtocol → Bool
  | .Any, _ => true
  | .Only wanted, protocol => wanted = protocol

def PortPattern.matches : PortPattern → UInt16 → Bool
  | .Any, _ => true
  | .Exact wanted, port => wanted = port

/-- `none` where a position is indexed that is not there, or that is inside of a character. -/
def HostPattern.matches : HostPattern T → IpOrHost T → Option Bool
  | .Any, _ => some true
  | .Name wanted, .Dns name _ => some (wanted.eq_ignore_ascii_case (without_root_dot name))
  | .Subdomain suffix, .Dns name _ =>
    let name := without_root_dot name
    match (checked_sub name.len suffix.len).bind fun split => checked_sub split 1 with
    | none => some false
    | some dot => do
      let byte ← name.as_bytes[dot]?
      if byte = UInt8.ofNat '.'.toNat
      then
        let rest ← name.slice_from (dot + 1)
        return suffix.eq_ignore_ascii_case rest
      else return false
  | .Address wanted, .Ip addr => some (wanted = T.ip addr)
  | .Network net, .Ip addr => some (T.contains net (T.ip addr))
  | .Name _, .Ip _ | .Subdomain _, .Ip _ | .Address _, .Dns _ _ | .Network _, .Dns _ _ => some false

def TargetPattern.matches : TargetPattern T → UnsealedTarget T → Option Bool
  | .Any, _ => some true
  | .Service none, .Service _ => some true
  | .Service (some wanted), .Service id => some (wanted = id)
  | .Service _, _ | .Stream _ _ _, .Service _ => some false
  | .Stream protocol host port, .Stream target_protocol target_host =>
    if protocol.matches target_protocol && port.matches target_host.port
    then host.matches target_host
    else some false

end Matching

/-! ### IPv4

Network types with no addresses but IPv4. -/

namespace Ipv4

structure IpAddr where
  a : UInt8
  b : UInt8
  c : UInt8
  d : UInt8
deriving DecidableEq

structure IpNet where
  addr : IpAddr
  len : Fin 33
deriving DecidableEq

inductive IpProtocol where
  | TCP
  | UDP
deriving DecidableEq

/-- Numbers have neither a sign nor leading zeros. -/
def parse_number (bound : Nat) (s : Text) : Option Nat :=
  match s.parse_unsigned bound with
  | .ok n => if Text.display_unsigned n = s then some n else none
  | .error _ => none

def display_addr (addr : IpAddr) : Text :=
  Text.display_unsigned addr.a.toNat ++ '.' :: (Text.display_unsigned addr.b.toNat ++
    '.' :: (Text.display_unsigned addr.c.toNat ++ '.' :: Text.display_unsigned addr.d.toNat))

def read_addr (s : Text) : Option IpAddr := do
  let (a, s) ← s.split_once '.'
  let (b, s) ← s.split_once '.'
  let (c, d) ← s.split_once '.'
  return ⟨.ofNat (← parse_number 256 a), .ofNat (← parse_number 256 b), .ofNat (← parse_number 256 c),
    .ofNat (← parse_number 256 d)⟩

def display_net (net : IpNet) : Text := display_addr net.addr ++ '/' :: Text.display_unsigned net.len.val

def read_net (s : Text) : Option IpNet := do
  let (addr, len) ← s.split_once '/'
  let addr ← read_addr addr
  let len ← parse_number 33 len
  return ⟨addr, Fin.ofNat 33 len⟩

def IpAddr.toNat (addr : IpAddr) : Nat :=
  ((addr.a.toNat * 256 + addr.b.toNat) * 256 + addr.c.toNat) * 256 + addr.d.toNat

def display_protocol : IpProtocol → Text
  | .TCP => "tcp".toList
  | .UDP => "udp".toList

def parse_protocol (s : Text) : Except Text IpProtocol :=
  if s.eq_ignore_ascii_case "tcp".toList then .ok .TCP
  else if s.eq_ignore_ascii_case "udp".toList then .ok .UDP
  else .error "unknown protocol".toList

def or_invalid {α : Type} : Option α → Except Text α
  | some a => .ok a
  | none => .error "invalid IP address syntax".toList

def types : NetworkTypes where
  IpAddr := IpAddr
  IpNet := IpNet
  IpProtocol := IpProtocol
  ServiceId := UInt32
  SocketAddr := IpAddr × UInt16
  ip_addr_eq := inferInstance
  ip_net_eq := inferInstance
  ip_protocol_eq := inferInstance
  service_id_eq := inferInstance
  socket_addr_eq := inferInstance
  TCP := .TCP
  UDP := .UDP
  is_v6 _ := false
  contains net addr := addr.toNat >>> (32 - net.len.val) = net.addr.toNat >>> (32 - net.len.val)
  ip := Prod.fst
  port := Prod.snd
  parse_ip_addr s := or_invalid (read_addr s)
  display_ip_addr := display_addr
  parse_ip_net s := or_invalid (read_net s)
  display_ip_net := display_net
  parse_ip_protocol := parse_protocol
  display_ip_protocol := display_protocol
  parse_service_id s := (s.parse_unsigned UInt32.size).map UInt32.ofNat
  display_service_id id := Text.display_unsigned id.toNat

end Ipv4

end Hopr.SessionServerForwarder
