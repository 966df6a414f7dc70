import Hopr.SessionServerForwarder.Admission

/-! Mapped addresses.

An IPv4 address `a` may be given as the IPv6 address `::ffff:a`, which is the same
host where sockets take both. Addresses are compared, and looked up in blocks, as
they are given: a rule for one of the two does not match the other (`matches_ip`).
So the first rule that matches is the same for both if and only if no rule with an
address or a block decides (`mapped_spelling_iff`). -/
namespace Hopr.SessionServerForwarder
open Library

/-- IPv4 addresses and what they are mapped to; a block has a family, and none of the other. -/
structure DualStack (T : NetworkTypes) where
  Ipv4Addr : Type
  V4 : Ipv4Addr → T.IpAddr
  /-- `::ffff:a` -/
  to_ipv6_mapped : Ipv4Addr → T.IpAddr
  net_is_v6 : T.IpNet → Bool
  is_v6_V4 : ∀ a, T.is_v6 (V4 a) = false
  is_v6_mapped : ∀ a, T.is_v6 (to_ipv6_mapped a) = true
  contains_family : ∀ net addr, T.contains net addr = true → net_is_v6 net = T.is_v6 addr

section Mapped
variable {T : NetworkTypes}

/-- The pattern selects the protocol and the port, and any host. -/
def TargetPattern.any_host (protocol : T.IpProtocol) (port : UInt16) : TargetPattern T → Bool
  | .Any => true
  | .Stream wanted .Any wanted_port => wanted.matches protocol && wanted_port.matches port
  | _ => false

/-- The pattern is for one spelling of the address, or a block with one of them. -/
def HostPattern.pins (S : DualStack T) (a : S.Ipv4Addr) : HostPattern T → Bool
  | .Address addr => addr = S.V4 a || addr = S.to_ipv6_mapped a
  | .Network net => T.contains net (S.V4 a) || T.contains net (S.to_ipv6_mapped a)
  | _ => false

def TargetPattern.pins (S : DualStack T) (protocol : T.IpProtocol) (port : UInt16) (a : S.Ipv4Addr) :
    TargetPattern T → Bool
  | .Stream wanted host wanted_port => wanted.matches protocol && wanted_port.matches port && host.pins S a
  | _ => false

/-- The first rule for the protocol and the port that is for any host or pins the address, if there is one,
is for any host. -/
def Unpinned (S : DualStack T) (rules : List (SessionAdmissionRule T)) (protocol : T.IpProtocol) (port : UInt16)
    (a : S.Ipv4Addr) : Prop :=
  ∀ rule, rules.find? (fun rule => rule.target.any_host protocol port || rule.target.pins S protocol port a) =
    some rule → rule.target.any_host protocol port = true

/-! ### One pattern -/

variable {S : DualStack T} {protocol : T.IpProtocol} {port : UInt16} {a : S.Ipv4Addr} {addr addr' : T.SocketAddr}

theorem V4_ne_mapped (a b : S.Ipv4Addr) : S.V4 a ≠ S.to_ipv6_mapped b := by
  intro h
  have hfamily := (S.is_v6_V4 a).symm.trans ((congrArg T.is_v6 h).trans (S.is_v6_mapped b))
  cases hfamily

/-- No block has both spellings. -/
theorem not_contains_both (net : T.IpNet) (a : S.Ipv4Addr) :
    ¬ (T.contains net (S.V4 a) = true ∧ T.contains net (S.to_ipv6_mapped a) = true) := by
  intro ⟨h, h'⟩
  have hfamily := (S.contains_family net _ h).symm.trans (S.contains_family net _ h')
  rw [S.is_v6_V4, S.is_v6_mapped] at hfamily
  cases hfamily

/-- A pattern that pins the address matches one of its spellings, and not the other. -/
theorem pins_matches (host : HostPattern T) (hip : T.ip addr = S.V4 a) (hip' : T.ip addr' = S.to_ipv6_mapped a)
    (hpins : host.pins S a = true) :
    ∃ b, host.matches (.Ip addr) = some b ∧ host.matches (.Ip addr') = some !b := by
  cases host with
  | Address wanted =>
    simp only [HostPattern.pins, Bool.or_eq_true, decide_eq_true_eq] at hpins
    refine ⟨wanted = S.V4 a, by simp [HostPattern.matches, hip], ?_⟩
    obtain rfl | rfl := hpins
    · simp [HostPattern.matches, hip', V4_ne_mapped]
    · simp [HostPattern.matches, hip', (V4_ne_mapped a a).symm]
  | Network net =>
    have hapart := not_contains_both net a
    simp only [HostPattern.pins, Bool.or_eq_true] at hpins
    refine ⟨T.contains net (S.V4 a), by simp [HostPattern.matches, hip], ?_⟩
    cases h : T.contains net (S.V4 a) <;> cases h' : T.contains net (S.to_ipv6_mapped a) <;>
      simp_all [HostPattern.matches]
  | _ => cases hpins

theorem not_pins_matches (host : HostPattern T) (hip : T.ip addr = S.V4 a)
    (hip' : T.ip addr' = S.to_ipv6_mapped a) (hhost : host ≠ .Any) (hpins : host.pins S a = false) :
    host.matches (.Ip addr) = some false ∧ host.matches (.Ip addr') = some false := by
  cases host with
  | Any => exact absurd rfl hhost
  | Name name => exact ⟨rfl, rfl⟩
  | Subdomain suffix => exact ⟨rfl, rfl⟩
  | Address wanted =>
    simp only [HostPattern.pins, Bool.or_eq_false_iff, decide_eq_false_iff_not] at hpins
    simp [HostPattern.matches, hip, hip', hpins]
  | Network net =>
    simp only [HostPattern.pins, Bool.or_eq_false_iff] at hpins
    simp [HostPattern.matches, hip, hip', hpins]

/-- What a pattern makes of the two spellings: both match for any host, one of the two if the pattern pins
the address, and none otherwise. -/
inductive Spellings (S : DualStack T) (p : TargetPattern T) (protocol : T.IpProtocol) (port : UInt16)
    (a : S.Ipv4Addr) : Option Bool → Option Bool → Prop where
  | both (hany : p.any_host protocol port = true) : Spellings S p protocol port a (some true) (some true)
  | one (hany : p.any_host protocol port = false) (hpins : p.pins S protocol port a = true) (b : Bool) :
    Spellings S p protocol port a (some b) (some !b)
  | neither (hany : p.any_host protocol port = false) (hpins : p.pins S protocol port a = false) :
    Spellings S p protocol port a (some false) (some false)

theorem matches_ip (p : TargetPattern T) (hip : T.ip addr = S.V4 a) (hip' : T.ip addr' = S.to_ipv6_mapped a)
    (hport : T.port addr = port) (hport' : T.port addr' = port) :
    Spellings S p protocol port a (p.matches (.Stream protocol (.Ip addr)))
      (p.matches (.Stream protocol (.Ip addr'))) := by
  cases p with
  | Any => exact .both rfl
  | Service id => cases id <;> exact .neither rfl rfl
  | Stream wanted host wanted_port =>
    simp only [TargetPattern.matches, IpOrHost.port, hport, hport']
    by_cases hselects : (wanted.matches protocol && wanted_port.matches port) = true
    · rw [if_pos hselects, if_pos hselects]
      by_cases hhost : host = .Any
      · rw [hhost]
        exact .both hselects
      · have hany : (TargetPattern.Stream wanted host wanted_port).any_host protocol port = false := by
          cases host with
          | Any => exact absurd rfl hhost
          | _ => rfl
        have hpins_eq : (TargetPattern.Stream wanted host wanted_port).pins S protocol port a = host.pins S a := by
          simp only [TargetPattern.pins, hselects, Bool.true_and]
        cases hpins : host.pins S a with
        | true =>
          obtain ⟨b, hb, hb'⟩ := pins_matches host hip hip' hpins
          rw [hb, hb']
          exact .one hany (hpins_eq.trans hpins) b
        | false =>
          obtain ⟨hfalse, hfalse'⟩ := not_pins_matches host hip hip' hhost hpins
          rw [hfalse, hfalse']
          exact .neither hany (hpins_eq.trans hpins)
    · rw [if_neg hselects, if_neg hselects]
      rw [Bool.not_eq_true] at hselects
      refine .neither ?_ ?_
      · cases host with
        | Any => exact hselects
        | _ => rfl
      · simp only [TargetPattern.pins, hselects, Bool.false_and]

/-! ### A list of rules -/

theorem find_rule_matches {rules : List (SessionAdmissionRule T)} {target : UnsealedTarget T}
    {rule : SessionAdmissionRule T} (h : find_rule rules target = some (some rule)) :
    rule.target.matches target = some true := by
  induction rules with
  | nil => cases h
  | cons first rest ih =>
    rw [find_rule] at h
    obtain ⟨b, hb, hfound⟩ := Option.bind_eq_some_iff.mp h
    cases b with
    | true =>
      cases hfound
      exact hb
    | false => exact ih hfound

theorem find_rule_iff (rules : List (SessionAdmissionRule T)) (hip : T.ip addr = S.V4 a)
    (hip' : T.ip addr' = S.to_ipv6_mapped a) (hport : T.port addr = port) (hport' : T.port addr' = port) :
    find_rule rules (.Stream protocol (.Ip addr)) = find_rule rules (.Stream protocol (.Ip addr')) ↔
      Unpinned S rules protocol port a := by
  induction rules with
  | nil => exact iff_of_true rfl fun _ hnone => nomatch hnone
  | cons rule rest ih =>
    have hspellings : Spellings S rule.target protocol port a _ _ := matches_ip rule.target hip hip' hport hport'
    rw [find_rule, find_rule, Unpinned, List.find?_cons]
    generalize hm : rule.target.matches (.Stream protocol (.Ip addr)) = m at hspellings ⊢
    generalize hm' : rule.target.matches (.Stream protocol (.Ip addr')) = m' at hspellings ⊢
    cases hspellings with
    | both hany =>
      refine iff_of_true rfl ?_
      intro found hfound
      rw [hany, Bool.true_or] at hfound
      cases hfound
      exact hany
    | one hany hpins b =>
      -- The rule is found for one spelling; for the other it does not match, and is not found later.
      refine iff_of_false ?_ ?_
      · intro heq
        cases b with
        | true =>
          have hfound : find_rule rest (.Stream protocol (.Ip addr')) = some (some rule) := heq.symm
          have hmatches := find_rule_matches hfound
          rw [hm'] at hmatches
          cases hmatches
        | false =>
          have hfound : find_rule rest (.Stream protocol (.Ip addr)) = some (some rule) := heq
          have hmatches := find_rule_matches hfound
          rw [hm] at hmatches
          cases hmatches
      · intro hunpinned
        have hfirst := hunpinned rule (by rw [hpins, Bool.or_true])
        rw [hany] at hfirst
        cases hfirst
    | neither hany hpins =>
      rw [hany, hpins]
      exact ih

end Mapped

/-- However the rules were read: an IPv4 address and the address that it is mapped to get the same first rule,
and so the same decision, if and only if the first rule for the protocol and the port that is for any host or
pins the address, if there is one, is for any host. -/
theorem mapped_spelling_iff {T : NetworkTypes} {H D : Type} [SessionAdmissionDecision D] {S : DualStack T}
    (rules : List (SessionAdmissionRule T)) (protocol : T.IpProtocol) {port : UInt16} {a : S.Ipv4Addr}
    {addr addr' : T.SocketAddr} (hip : T.ip addr = S.V4 a) (hip' : T.ip addr' = S.to_ipv6_mapped a)
    (hport : T.port addr = port) (hport' : T.port addr' = port) :
    (find_rule rules (.Stream protocol (.Ip addr)) = find_rule rules (.Stream protocol (.Ip addr')) ∧
      ∀ (spawn_error : Option Text) (unsealed : H → Except Text (IpOrHost T)) (target target' : SessionTarget T H),
        UnsealedTarget.new unsealed target = .ok (.Stream protocol (.Ip addr)) →
        UnsealedTarget.new unsealed target' = .ok (.Stream protocol (.Ip addr')) →
        (admits rules spawn_error unsealed target : Option (Except ForwarderError D)) =
          admits rules spawn_error unsealed target') ↔
    Unpinned S rules protocol port a := by
  have hrule : find_rule rules (.Stream protocol (.Ip addr)) = find_rule rules (.Stream protocol (.Ip addr')) ↔
      Unpinned S rules protocol port a := find_rule_iff rules hip hip' hport hport'
  constructor
  · intro ⟨hsame, _⟩
    exact hrule.mp hsame
  · intro hunpinned
    have hsame := hrule.mpr hunpinned
    refine ⟨hsame, ?_⟩
    intro spawn_error unsealed target target' htarget htarget'
    unfold admits
    rw [htarget, htarget']
    dsimp only
    rw [hsame]

/-! ### Both families

Of the IPv6 addresses the mapped ones are read. -/

namespace Ip

inductive IpAddr where
  | V4 (addr : Ipv4.IpAddr)
  | V6 (bits : BitVec 128)
deriving DecidableEq

inductive IpNet where
  | V4 (net : Ipv4.IpNet)
  | V6 (addr : BitVec 128) (len : Fin 129)
deriving DecidableEq

def to_ipv6_mapped (addr : Ipv4.IpAddr) : IpAddr := .V6 (BitVec.ofNat 128 (0xffff00000000 + addr.toNat))

def read_addr (s : Text) : Option IpAddr :=
  match Text.strip_prefix s "::ffff:".toList with
  | some mapped => (Ipv4.read_addr mapped).map to_ipv6_mapped
  | none => (Ipv4.read_addr s).map .V4

def display_bits (bits : BitVec 128) : Text :=
  List.intercalate [':'] ([7, 6, 5, 4, 3, 2, 1, 0].map fun i => Nat.toDigits 16 (bits.toNat / 65536 ^ i % 65536))

def display_addr : IpAddr → Text
  | .V4 addr => Ipv4.display_addr addr
  | .V6 bits => display_bits bits

def display_net : IpNet → Text
  | .V4 net => Ipv4.display_net net
  | .V6 addr len => display_bits addr ++ '/' :: Text.display_unsigned len.val

def contains : IpNet → IpAddr → Bool
  | .V4 net, .V4 addr => Ipv4.types.contains net addr
  | .V6 net len, .V6 bits => bits >>> (128 - len.val) = net >>> (128 - len.val)
  | _, _ => false

def types : NetworkTypes where
  IpAddr := IpAddr
  IpNet := IpNet
  IpProtocol := Ipv4.IpProtocol
  ServiceId := UInt32
  SocketAddr := IpAddr × UInt16
  ip_addr_eq := inferInstance
  ip_net_eq := inferInstance
  ip_protocol_eq := inferInstance
  service_id_eq := inferInstance
  socket_addr_eq := inferInstance
  TCP := .TCP
  UDP := .UDP
  is_v6
    | .V4 _ => false
    | .V6 _ => true
  contains := contains
  ip := Prod.fst
  port := Prod.snd
  parse_ip_addr s := Ipv4.or_invalid (read_addr s)
  display_ip_addr := display_addr
  parse_ip_net s := Ipv4.or_invalid ((Ipv4.read_net s).map .V4)
  display_ip_net := display_net
  parse_ip_protocol := Ipv4.parse_protocol
  display_ip_protocol := Ipv4.display_protocol
  parse_service_id := Ipv4.types.parse_service_id
  display_service_id := Ipv4.types.display_service_id

def dual_stack : DualStack types where
  Ipv4Addr := Ipv4.IpAddr
  V4 := .V4
  to_ipv6_mapped := to_ipv6_mapped
  net_is_v6
    | .V4 _ => false
    | .V6 _ _ => true
  is_v6_V4 _ := rfl
  is_v6_mapped _ := rfl
  contains_family net addr h := by
    cases net <;> cases addr
    · rfl
    · cases h
    · cases h
    · rfl

end Ip

/-- A rule for any host decides before one for the address. -/
theorem mapped_spelling_any_host :
    find_rule [⟨.Stream (.Only Ip.types.TCP) .Any (.Exact 443), some true, none, none⟩,
        ⟨.Stream (.Only Ip.types.TCP) (.Address (Ip.IpAddr.V4 ⟨10, 0, 0, 1⟩)) .Any, none, none, none⟩]
      (.Stream Ip.types.TCP (.Ip (.V4 ⟨10, 0, 0, 1⟩, 443))) =
    find_rule [⟨.Stream (.Only Ip.types.TCP) .Any (.Exact 443), some true, none, none⟩,
        ⟨.Stream (.Only Ip.types.TCP) (.Address (Ip.IpAddr.V4 ⟨10, 0, 0, 1⟩)) .Any, none, none, none⟩]
      (.Stream Ip.types.TCP (.Ip (Ip.to_ipv6_mapped ⟨10, 0, 0, 1⟩, 443))) := by
  refine ((@mapped_spelling_iff Ip.types Unit (Option Bool × Option (UInt64 × UInt64)) _ Ip.dual_stack _ _ 443
    ⟨10, 0, 0, 1⟩ (Ip.IpAddr.V4 ⟨10, 0, 0, 1⟩, 443) (Ip.to_ipv6_mapped ⟨10, 0, 0, 1⟩, 443) rfl rfl rfl rfl).mpr ?_).1
  intro rule hrule
  cases hrule
  rfl

/-- A rule that demands payment for an address is evaded by the address that it is mapped to. -/
theorem mapped_address_evades :
    TargetPattern.from_str "tcp:10.0.0.1:443".toList =
      .ok (.Stream (.Only Ip.types.TCP) (.Address (Ip.IpAddr.V4 ⟨10, 0, 0, 1⟩)) (.Exact 443)) ∧
    (admits [⟨.Stream (.Only Ip.types.TCP) (.Address (Ip.IpAddr.V4 ⟨10, 0, 0, 1⟩)) (.Exact 443), some true, none, none⟩]
      none (fun addr => .ok (.Ip (addr, 443))) (.TcpStream (Ip.IpAddr.V4 ⟨10, 0, 0, 1⟩)) :
        Option (Except ForwarderError (Option Bool × Option (UInt64 × UInt64)))) = some (.ok (some true, none)) ∧
    (admits [⟨.Stream (.Only Ip.types.TCP) (.Address (Ip.IpAddr.V4 ⟨10, 0, 0, 1⟩)) (.Exact 443), some true, none, none⟩]
      none (fun addr => .ok (.Ip (addr, 443))) (.TcpStream (Ip.to_ipv6_mapped ⟨10, 0, 0, 1⟩)) :
        Option (Except ForwarderError (Option Bool × Option (UInt64 × UInt64)))) = some (.ok (none, none)) :=
  ⟨rfl, rfl, rfl⟩

end Hopr.SessionServerForwarder
