import Hopr.SessionServerForwarder.Admission
import Hopr.SessionServerForwarder.AllowList

/-! Where sessions are forwarded to.

The target of a session is unsealed, its name is resolved, and what it leads to is held
against the target allow list before anything is connected: the first address for UDP,
all of them for TCP, where they are then tried in order, and again a number of times.
So nothing is ever contacted that the allow list does not allow, and a session is
refused for policy exactly when its target could be unsealed and resolved and is not
allowed (`forwarded`).

How addresses are tried and how tries are repeated is the libraries' (`Tcp`); what is
documented of it is granted (`LawfulTcp`). -/
namespace Hopr.SessionServerForwarder.Forwarding
open Library

/-- What `process` reads of the configuration. -/
structure Config (T : NetworkTypes) extends SessionIpForwardingConfig T where
  max_tcp_target_retries : UInt32

/-- How targets and addresses are displayed. -/
structure Display (T : NetworkTypes) where
  ip_or_host : IpOrHost T → Text
  addr : T.SocketAddr → Text
  addrs : List T.SocketAddr → Text

/-- What comes from outside while a session is processed. -/
structure Outside (T : NetworkTypes) (H : Type) where
  /-- The error of the task that unseals, if it has one. -/
  spawn_error : Option Text
  unsealed : H → Except Text (IpOrHost T)
  /-- The lookup of the target. -/
  resolve : IpOrHost T → Except Text (List T.SocketAddr)
  /-- The later lookups of the names of the allow list. -/
  resolve_listed : IpOrHost T → Except Text (List T.SocketAddr)
  build_error : Option Text
  /-- The error of a try to connect to an address, if it has one. -/
  connect : Nat → T.SocketAddr → Option Text
  nodelay_error : Option Text

inductive Served (T : NetworkTypes) where
  | Udp (counterparty : T.SocketAddr)
  | Tcp (counterparty : T.SocketAddr)
  | Loopback

/-- What becomes of a session, and whom it made the node contact on the way. -/
structure Outcome (T : NetworkTypes) where
  contacted : List T.SocketAddr
  result : Except ForwarderError (Served T)

/-- `TcpStream::connect`, given which addresses do not connect, and `Retry::start`, which repeats what it is
given. Both tell what was contacted and which address connected. -/
structure Tcp (A : Type) where
  connect : (A → Option Text) → List A → List A × Except Text A
  start : (Nat → List A × Except Text A) → Nat → List A × Except Text A

structure LawfulTcp {A : Type} (tcp : Tcp A) : Prop where
  /-- The addresses are tried in order, until one connects. -/
  connect_tried : ∀ attempt addrs, (tcp.connect attempt addrs).1 <+: addrs
  connect_ok : ∀ attempt addrs,
    (∃ addr, (tcp.connect attempt addrs).2 = .ok addr) ↔ ∃ addr ∈ addrs, attempt addr = none
  /-- It is done once, and again for each delay until it succeeds. -/
  start_tries : ∀ action delays, ∃ tries ≤ delays,
    tcp.start action delays = ((List.range (tries + 1)).flatMap fun k => (action k).1, (action tries).2) ∧
    (∀ k < tries, ∀ addr, (action k).2 ≠ .ok addr) ∧ ((∀ addr, (action tries).2 ≠ .ok addr) → tries = delays)

section Process
variable {T : NetworkTypes} {H : Type}

def general (s : Text) : ForwarderError := .General s

def denied (s : Text) : ForwarderError := .Denied s

/-- The host is unsealed on another thread. -/
def unsealed_target (outside : Outside T H) (host : H) : Except ForwarderError (IpOrHost T) :=
  match outside.spawn_error with
  | some e => .error (general ("failed to spawn unseal task: ".toList ++ e))
  | none =>
    match outside.unsealed host with
    | .error e => .error (general ("cannot unseal target: ".toList ++ e))
    | .ok target => .ok target

def resolved_targets (display : Display T) (outside : Outside T H) (target : IpOrHost T) :
    Except ForwarderError (List T.SocketAddr) :=
  match outside.resolve target with
  | .error e => .error (general ("failed to resolve DNS name ".toList ++ display.ip_or_host target ++ ": ".toList ++ e))
  | .ok addrs => .ok addrs

def process_udp (display : Display T) (cfg : Config T) (outside : Outside T H) (host : H) :
    List T.SocketAddr × Except ForwarderError (Served T) :=
  match unsealed_target outside host with
  | .error e => ([], .error e)
  | .ok target =>
    match resolved_targets display outside target with
    | .error e => ([], .error e)
    | .ok [] => ([], .error (general ("failed to resolve DNS name ".toList ++ display.ip_or_host target)))
    | .ok (addr :: _) =>
      if !is_allowed cfg.toSessionIpForwardingConfig target [addr] outside.resolve_listed then
        ([], .error (denied (display.addr addr ++ " is not allowed by the target allow list".toList)))
      else
        match outside.build_error with
        | some e => ([], .error (general ("could not bridge the incoming session to ".toList ++
            display.ip_or_host target ++ ": ".toList ++ e)))
        | none => ([addr], .ok (.Udp addr))

def process_tcp (tcp : Tcp T.SocketAddr) (display : Display T) (cfg : Config T) (outside : Outside T H) (host : H) :
    List T.SocketAddr × Except ForwarderError (Served T) :=
  match unsealed_target outside host with
  | .error e => ([], .error e)
  | .ok target =>
    match resolved_targets display outside target with
    | .error e => ([], .error e)
    | .ok addrs =>
      if !is_allowed cfg.toSessionIpForwardingConfig target addrs outside.resolve_listed then
        ([], .error (denied ("not all of ".toList ++ display.addrs addrs ++
          " are allowed by the target allow list".toList)))
      else
        match tcp.start (fun k => tcp.connect (outside.connect k) addrs) cfg.max_tcp_target_retries.toNat with
        | (tried, .error e) => (tried, .error (general ("could not bridge the incoming session to ".toList ++
            display.ip_or_host target ++ ": ".toList ++ e)))
        | (tried, .ok addr) =>
          match outside.nodelay_error with
          | some e => (tried, .error (general (
              "could not set the TCP_NODELAY option for the bridged session to ".toList ++
              display.ip_or_host target ++ ": ".toList ++ e)))
          | none => (tried, .ok (.Tcp addr))

def process (tcp : Tcp T.SocketAddr) (display : Display T) (service_id_loopback : T.ServiceId) (cfg : Config T)
    (outside : Outside T H) : SessionTarget T H → Outcome T
  | .UdpStream host => let (contacted, result) := process_udp display cfg outside host; ⟨contacted, result⟩
  | .TcpStream host => let (contacted, result) := process_tcp tcp display cfg outside host; ⟨contacted, result⟩
  | .ExitNode id =>
    if id = service_id_loopback then ⟨[], .ok .Loopback⟩
    else ⟨[], .error (.General "server does not support internal session processing".toList)⟩

/-! ### Connecting -/

/-- All tries contact the addresses only, and the last connects if any does. -/
theorem start_spec {tcp : Tcp T.SocketAddr} (htcp : LawfulTcp tcp) (attempt : Nat → T.SocketAddr → Option Text)
    (addrs : List T.SocketAddr) (delays : Nat) :
    (∀ addr ∈ (tcp.start (fun k => tcp.connect (attempt k) addrs) delays).1, addr ∈ addrs) ∧
      (tcp.start (fun k => tcp.connect (attempt k) addrs) delays).1.length ≤ (delays + 1) * addrs.length ∧
      ((∃ k ≤ delays, ∃ addr ∈ addrs, attempt k addr = none) ↔
        ∃ addr, (tcp.start (fun k => tcp.connect (attempt k) addrs) delays).2 = .ok addr) := by
  obtain ⟨tries, hle, hstart, hfailed, hlast⟩ :=
    htcp.start_tries (fun k => tcp.connect (attempt k) addrs) delays
  rw [hstart]
  refine ⟨?_, ?_, ?_, ?_⟩
  · intro addr haddr
    obtain ⟨k, _, hmem⟩ := List.mem_flatMap.mp haddr
    exact (htcp.connect_tried (attempt k) addrs).subset hmem
  · have htried : ∀ n, ((List.range n).flatMap fun k => (tcp.connect (attempt k) addrs).1).length ≤
        n * addrs.length := by
      intro n
      induction n with
      | zero => exact Nat.zero_le _
      | succ n ih =>
        rw [List.range_succ, List.flatMap_append, List.length_append, List.flatMap_singleton, Nat.succ_mul]
        exact Nat.add_le_add ih (htcp.connect_tried (attempt n) addrs).length_le
    exact Nat.le_trans (htried _) (Nat.mul_le_mul_right _ (Nat.succ_le_succ hle))
  · intro ⟨k, hk, hconnects⟩
    obtain ⟨addr, hok⟩ := (htcp.connect_ok (attempt k) addrs).mpr hconnects
    by_contra hnone
    have htries := hlast fun addr hok => hnone ⟨addr, hok⟩
    rcases Nat.lt_or_eq_of_le (htries ▸ hk) with hlt | heq
    · exact hfailed k hlt addr hok
    · exact hnone ⟨addr, heq ▸ hok⟩
  · intro hok
    exact ⟨tries, hle, (htcp.connect_ok (attempt tries) addrs).mp hok⟩

/-! ### What a session leads to -/

/-- The target and the addresses that are held against the allow list, if it comes to that. -/
def sought (outside : Outside T H) : SessionTarget T H → Option (IpOrHost T × List T.SocketAddr)
  | .TcpStream host =>
    match outside.spawn_error, outside.unsealed host with
    | none, .ok target => (outside.resolve target).toOption.map (target, ·)
    | _, _ => none
  | .UdpStream host =>
    match outside.spawn_error, outside.unsealed host with
    | none, .ok target => (outside.resolve target).toOption.bind fun addrs => addrs.head?.map (target, [·])
    | _, _ => none
  | .ExitNode _ => none

/-- What comes of a session whose target is or is not found, and is or is not allowed. -/
inductive Processed (cfg : Config T) (outside : Outside T H) (target : SessionTarget T H) : Outcome T → Prop
  | unsought (result : Except ForwarderError (Served T)) : sought outside target = none →
      (∀ reason, result ≠ .error (.Denied reason)) →
      (∀ host, target = .TcpStream host → ∀ served, result ≠ .ok served) →
      Processed cfg outside target ⟨[], result⟩
  | refused (t : IpOrHost T) (addrs : List T.SocketAddr) (reason : Text) : sought outside target = some (t, addrs) →
      is_allowed cfg.toSessionIpForwardingConfig t addrs outside.resolve_listed = false →
      Processed cfg outside target ⟨[], .error (.Denied reason)⟩
  | forwarded (t : IpOrHost T) (addrs contacted : List T.SocketAddr) (result : Except ForwarderError (Served T)) :
      sought outside target = some (t, addrs) →
      is_allowed cfg.toSessionIpForwardingConfig t addrs outside.resolve_listed = true →
      (∀ addr ∈ contacted, addr ∈ addrs) →
      contacted.length ≤ (cfg.max_tcp_target_retries.toNat + 1) * addrs.length →
      (∀ reason, result ≠ .error (.Denied reason)) →
      (∀ host, target = .TcpStream host → ((∃ served, result = .ok served) ↔ outside.nodelay_error = none ∧
        ∃ k ≤ cfg.max_tcp_target_retries.toNat, ∃ addr ∈ addrs, outside.connect k addr = none)) →
      Processed cfg outside target ⟨contacted, result⟩

variable {tcp : Tcp T.SocketAddr} (display : Display T) (cfg : Config T) (outside : Outside T H)

theorem processed_udp (host : H) : Processed cfg outside (.UdpStream host)
    ⟨(process_udp display cfg outside host).1, (process_udp display cfg outside host).2⟩ := by
  cases hspawn : outside.spawn_error with
  | some e =>
    simp only [process_udp, unsealed_target, hspawn]
    exact .unsought _ (by simp [sought, hspawn]) (by simp [general]) (by simp)
  | none =>
    cases hunseal : outside.unsealed host with
    | error e =>
      simp only [process_udp, unsealed_target, hspawn, hunseal]
      exact .unsought _ (by simp [sought, hspawn, hunseal]) (by simp [general]) (by simp)
    | ok t =>
      cases hresolve : outside.resolve t with
      | error e =>
        simp only [process_udp, unsealed_target, resolved_targets, hspawn, hunseal, hresolve]
        exact .unsought _ (by simp [sought, hspawn, hunseal, hresolve, Except.toOption]) (by simp [general]) (by simp)
      | ok addrs =>
        cases addrs with
        | nil =>
          simp only [process_udp, unsealed_target, resolved_targets, hspawn, hunseal, hresolve]
          exact .unsought _ (by simp [sought, hspawn, hunseal, hresolve, Except.toOption]) (by simp [general]) (by simp)
        | cons addr rest =>
          have hsought : sought outside (.UdpStream host) = some (t, [addr]) := by
            simp [sought, hspawn, hunseal, hresolve, Except.toOption]
          simp only [process_udp, unsealed_target, resolved_targets, hspawn, hunseal, hresolve]
          cases hallowed : is_allowed cfg.toSessionIpForwardingConfig t [addr] outside.resolve_listed with
          | false => exact .refused t [addr] _ hsought hallowed
          | true =>
            rw [Bool.not_true, if_neg Bool.false_ne_true]
            cases outside.build_error with
            | some e => exact .forwarded t [addr] [] _ hsought hallowed (by simp) (by simp) (by simp [general]) (by simp)
            | none => exact .forwarded t [addr] [addr] _ hsought hallowed (by simp) (by simp) (by simp) (by simp)

theorem processed_tcp (htcp : LawfulTcp tcp) (host : H) : Processed cfg outside (.TcpStream host)
    ⟨(process_tcp tcp display cfg outside host).1, (process_tcp tcp display cfg outside host).2⟩ := by
  cases hspawn : outside.spawn_error with
  | some e =>
    simp only [process_tcp, unsealed_target, hspawn]
    exact .unsought _ (by simp [sought, hspawn]) (by simp [general]) (by simp)
  | none =>
    cases hunseal : outside.unsealed host with
    | error e =>
      simp only [process_tcp, unsealed_target, hspawn, hunseal]
      exact .unsought _ (by simp [sought, hspawn, hunseal]) (by simp [general]) (by simp)
    | ok t =>
      cases hresolve : outside.resolve t with
      | error e =>
        simp only [process_tcp, unsealed_target, resolved_targets, hspawn, hunseal, hresolve]
        exact .unsought _ (by simp [sought, hspawn, hunseal, hresolve, Except.toOption]) (by simp [general]) (by simp)
      | ok addrs =>
        have hsought : sought outside (.TcpStream host) = some (t, addrs) := by
          simp [sought, hspawn, hunseal, hresolve, Except.toOption]
        simp only [process_tcp, unsealed_target, resolved_targets, hspawn, hunseal, hresolve]
        cases hallowed : is_allowed cfg.toSessionIpForwardingConfig t addrs outside.resolve_listed with
        | false => exact .refused t addrs _ hsought hallowed
        | true =>
          rw [Bool.not_true, if_neg Bool.false_ne_true]
          obtain ⟨hmem, hlength, hconnects⟩ :=
            start_spec htcp outside.connect addrs cfg.max_tcp_target_retries.toNat
          cases hstart : tcp.start (fun k => tcp.connect (outside.connect k) addrs)
              cfg.max_tcp_target_retries.toNat with
          | mk tried result =>
            rw [hstart] at hmem hlength hconnects
            cases result with
            | error e =>
              refine .forwarded t addrs tried _ hsought hallowed hmem hlength (by simp [general]) fun _ _ => ?_
              simp [hconnects]
            | ok addr =>
              cases hnodelay : outside.nodelay_error with
              | some e =>
                refine .forwarded t addrs tried _ hsought hallowed hmem hlength (by simp [general]) fun _ _ => ?_
                simp [hnodelay]
              | none =>
                refine .forwarded t addrs tried _ hsought hallowed hmem hlength (by simp) fun _ _ => ?_
                simp [hnodelay, hconnects]

theorem processed (htcp : LawfulTcp tcp) (service_id_loopback : T.ServiceId) (target : SessionTarget T H) :
    Processed cfg outside target (process tcp display service_id_loopback cfg outside target) := by
  cases target with
  | TcpStream host => exact processed_tcp display cfg outside htcp host
  | UdpStream host => exact processed_udp display cfg outside host
  | ExitNode id =>
    simp only [process]
    split
    · exact .unsought _ rfl (by simp) (by simp)
    · exact .unsought _ rfl (by simp) (by simp)

variable {cfg outside}

/-- Whatever is contacted is an address of the target that the allow list allows, so often at most; a session is
refused for policy if and only if its target is found and not allowed; and a TCP target is bridged if and only if it
is found and allowed, one of its addresses connects in one of the tries, and the socket takes the option. The addresses
of a listed name have the port they were looked up with. -/
theorem forwarded (htcp : LawfulTcp tcp) (service_id_loopback : T.ServiceId) (target : SessionTarget T H)
    (hports : ∀ name port, .Dns name port ∈ cfg.target_allow_list →
      ∀ addr ∈ answer outside.resolve_listed (.Dns name port), T.port addr = port) :
    let outcome := process tcp display service_id_loopback cfg outside target
    (∀ addr ∈ outcome.contacted, ∃ t addrs, sought outside target = some (t, addrs) ∧ addr ∈ addrs ∧
      outcome.contacted.length ≤ (cfg.max_tcp_target_retries.toNat + 1) * addrs.length ∧
      (cfg.use_target_allow_list = false ∨ NameListed cfg.target_allow_list t ∨
        AddressListed cfg.target_allow_list outside.resolve_listed addr)) ∧
    ((∃ reason, outcome.result = .error (.Denied reason)) ↔ ∃ t addrs, sought outside target = some (t, addrs) ∧
      ¬PlainlyAllowed cfg.toSessionIpForwardingConfig t addrs outside.resolve_listed) ∧
    ∀ host, target = .TcpStream host → ((∃ served, outcome.result = .ok served) ↔
      ∃ t addrs, sought outside target = some (t, addrs) ∧
        PlainlyAllowed cfg.toSessionIpForwardingConfig t addrs outside.resolve_listed ∧
        outside.nodelay_error = none ∧
        ∃ k ≤ cfg.max_tcp_target_retries.toNat, ∃ addr ∈ addrs, outside.connect k addr = none) := by
  have hallowed_iff := fun t addrs => @is_allowed_iff T cfg.toSessionIpForwardingConfig t addrs _ hports
  have hprocessed := processed display cfg outside htcp service_id_loopback target
  generalize process tcp display service_id_loopback cfg outside target = outcome at hprocessed
  dsimp only
  cases hprocessed with
  | unsought result hsought hdenied hserved =>
    refine ⟨(fun _ hmem => nomatch hmem), iff_of_false (fun h => hdenied h.choose h.choose_spec) ?_, ?_⟩
    · simp [hsought]
    · intro host hhost
      refine iff_of_false (fun h => hserved host hhost h.choose h.choose_spec) ?_
      simp [hsought]
  | refused t addrs reason hsought hrefused =>
    have hnot : ¬PlainlyAllowed cfg.toSessionIpForwardingConfig t addrs outside.resolve_listed := by
      rw [← hallowed_iff, hrefused]
      exact Bool.false_ne_true
    refine ⟨(fun _ hmem => nomatch hmem), iff_of_true ⟨reason, rfl⟩ ⟨t, addrs, hsought, hnot⟩, fun host hhost => ?_⟩
    refine iff_of_false (fun h => nomatch h.choose_spec) ?_
    rintro ⟨t', addrs', hsought', hallowed, _⟩
    cases hsought.symm.trans hsought'
    exact hnot hallowed
  | forwarded t addrs contacted result hsought hallowed hmem hlength hdenied hserved =>
    have hplain := (hallowed_iff t addrs).mp hallowed
    refine ⟨fun addr haddr => ?_, iff_of_false (fun h => hdenied h.choose h.choose_spec) ?_, fun host hhost => ?_⟩
    · refine ⟨t, addrs, hsought, hmem addr haddr, hlength, ?_⟩
      exact hplain.imp_right (Or.imp_right fun h => h addr (hmem addr haddr))
    · rintro ⟨t', addrs', hsought', hnot⟩
      cases hsought.symm.trans hsought'
      exact hnot hplain
    · rw [hserved host hhost]
      constructor
      · rintro ⟨hnodelay, hconnects⟩
        exact ⟨t, addrs, hsought, hplain, hnodelay, hconnects⟩
      · rintro ⟨t', addrs', hsought', _, hnodelay, hconnects⟩
        cases hsought.symm.trans hsought'
        exact ⟨hnodelay, hconnects⟩

end Process

section Concrete

section Try
variable {A : Type}

def Tcp.connect_in_order (attempt : A → Option Text) (last : Text) : List A → List A × Except Text A
  | [] => ([], .error last)
  | addr :: rest =>
    match attempt addr with
    | none => ([addr], .ok addr)
    | some e =>
      let (tried, result) := connect_in_order attempt e rest
      (addr :: tried, result)

def Tcp.start_at (action : Nat → List A × Except Text A) (tries : Nat) : Nat → List A × Except Text A
  | 0 => action tries
  | delays + 1 =>
    match action tries with
    | (tried, .ok addr) => (tried, .ok addr)
    | (tried, .error _) =>
      let (more, result) := start_at action (tries + 1) delays
      (tried ++ more, result)

def Tcp.in_order (A : Type) : Tcp A :=
  ⟨fun attempt addrs => connect_in_order attempt "could not resolve to any address".toList addrs,
    fun action delays => start_at action 0 delays⟩

theorem connect_in_order_spec (attempt : A → Option Text) (last : Text) (addrs : List A) :
    (Tcp.connect_in_order attempt last addrs).1 <+: addrs ∧
      ((∃ addr, (Tcp.connect_in_order attempt last addrs).2 = .ok addr) ↔ ∃ addr ∈ addrs, attempt addr = none) := by
  induction addrs generalizing last with
  | nil => simp [Tcp.connect_in_order]
  | cons addr rest ih =>
    cases haddr : attempt addr with
    | none =>
      simp only [Tcp.connect_in_order, haddr]
      exact ⟨⟨rest, rfl⟩, fun _ => ⟨addr, List.mem_cons_self, haddr⟩, fun _ => ⟨addr, rfl⟩⟩
    | some e =>
      obtain ⟨htried, hiff⟩ := ih e
      simp only [Tcp.connect_in_order, haddr]
      refine ⟨List.cons_prefix_cons.mpr ⟨rfl, htried⟩, hiff.trans ?_⟩
      simp [haddr]

theorem start_at_spec (action : Nat → List A × Except Text A) (first delays : Nat) : ∃ tries ≤ delays,
    Tcp.start_at action first delays =
      ((List.range' first (tries + 1)).flatMap fun k => (action k).1, (action (first + tries)).2) ∧
    (∀ k < tries, ∀ addr, (action (first + k)).2 ≠ .ok addr) ∧
    ((∀ addr, (action (first + tries)).2 ≠ .ok addr) → tries = delays) := by
  induction delays generalizing first with
  | zero =>
    refine ⟨0, Nat.le_refl 0, ?_, fun _ hk => absurd hk (Nat.not_lt_zero _), fun _ => rfl⟩
    simp [Tcp.start_at]
  | succ delays ih =>
    cases haction : action first with
    | mk tried result =>
      cases result with
      | ok addr =>
        refine ⟨0, Nat.zero_le _, ?_, fun _ hk => absurd hk (Nat.not_lt_zero _), fun hnone => ?_⟩
        · simp [Tcp.start_at, haction]
        · exact absurd (by rw [Nat.add_zero, haction]) (hnone addr)
      | error e =>
        obtain ⟨tries, hle, hstart, hfailed, hlast⟩ := ih (first + 1)
        have hnext : ∀ k, first + 1 + k = first + (k + 1) := fun k => by omega
        refine ⟨tries + 1, Nat.succ_le_succ hle, ?_, ?_, ?_⟩
        · rw [Tcp.start_at, haction]
          dsimp only
          rw [hstart, List.range'_succ (s := first) (n := tries + 1), List.flatMap_cons, haction, hnext]
        · intro k hk addr
          cases k with
          | zero => rw [Nat.add_zero, haction]; exact fun h => nomatch h
          | succ k =>
            rw [← hnext]
            exact hfailed k (Nat.lt_of_succ_lt_succ hk) addr
        · intro hnone
          rw [← hnext] at hnone
          rw [hlast hnone]

theorem Tcp.lawful_in_order (A : Type) : LawfulTcp (Tcp.in_order A) := by
  constructor
  case connect_tried => exact fun attempt addrs => (connect_in_order_spec attempt _ addrs).1
  case connect_ok => exact fun attempt addrs => (connect_in_order_spec attempt _ addrs).2
  case start_tries =>
    intro action delays
    obtain ⟨tries, hle, hstart, hfailed, hlast⟩ := start_at_spec action 0 delays
    simp only [Nat.zero_add] at hstart hfailed hlast
    exact ⟨tries, hle, List.range_eq_range' ▸ hstart, hfailed, hlast⟩

end Try

def display : Display Ipv4.types := ⟨fun _ => "target".toList, fun _ => "address".toList, fun _ => "addresses".toList⟩

/-- The first of two addresses connects in the second try. -/
theorem forwarded_retried :
    let cfg : Config Ipv4.types := ⟨⟨true, [.Dns "gnosisvpnserver".toList 8000, .Ip (⟨172, 30, 0, 3⟩, 8000)]⟩, 1⟩
    let addrs : List (Ipv4.IpAddr × UInt16) := [(⟨172, 30, 0, 2⟩, 8000), (⟨172, 30, 0, 3⟩, 8000)]
    let outside : Outside Ipv4.types Text := ⟨none, fun host => .ok (.Dns host 8000), fun _ => .ok addrs,
      gnosisvpnserver, none, fun k _ => if k = 0 then some "refused".toList else none, none⟩
    let outcome := process (Tcp.in_order _) display (0 : UInt32) cfg outside (.TcpStream "pool.internal".toList)
    outcome.contacted = [(⟨172, 30, 0, 2⟩, 8000), (⟨172, 30, 0, 3⟩, 8000), (⟨172, 30, 0, 2⟩, 8000)] ∧
      ∃ served, outcome.result = .ok served := by
  intro cfg addrs outside outcome
  refine ⟨rfl, ((forwarded display (Tcp.lawful_in_order _) (0 : UInt32) (.TcpStream "pool.internal".toList)
    ?_).2.2 _ rfl).mpr ?_⟩
  · intro name port _ addr haddr
    by_cases hname : name = "gnosisvpnserver".toList
    · simp only [outside, answer, gnosisvpnserver, if_pos hname] at haddr
      cases List.mem_singleton.mp haddr
      rfl
    · simp only [outside, answer, gnosisvpnserver, if_neg hname] at haddr
      cases haddr
  · refine ⟨.Dns "pool.internal".toList 8000, addrs, rfl, .inr (.inr ?_), rfl, 1, Nat.le_refl _, _,
      List.mem_cons_self, rfl⟩
    intro addr haddr
    rcases List.mem_cons.mp haddr with rfl | haddr
    · exact .inr ⟨"gnosisvpnserver".toList, 8000, by decide, List.mem_singleton.mpr rfl⟩
    · rw [List.mem_singleton.mp haddr]
      exact .inl (by decide)

end Concrete

end Hopr.SessionServerForwarder.Forwarding
