import Hopr.SessionServerForwarder.TargetPattern

/-! The target allow list.

A target is allowed by a listed name on its port, or if all its addresses are
listed, literally or as what a listed name leads to. Names are looked up only if
literal entries do not settle the matter, and only those on the port of one of the
addresses. The verdict is that of the plain check, which looks all names up
(`is_allowed_iff`), for a resolver that answers with the port it was asked for. -/
namespace Hopr.SessionServerForwarder
open Library

structure SessionIpForwardingConfig (T : NetworkTypes) where
  use_target_allow_list : Bool
  /-- The entries of the set, in the order in which it is iterated. -/
  target_allow_list : List (IpOrHost T)

section AllowList
variable {T : NetworkTypes}

/-- The entry is a name on that port, up to ASCII case and a root dot. -/
def lists_name (name : Text) (port : UInt16) : IpOrHost T → Bool
  | .Dns listed listed_port =>
    listed_port = port && (without_root_dot listed).eq_ignore_ascii_case (without_root_dot name)
  | .Ip _ => false

/-- A name that does not resolve contributes nothing. -/
def answer (resolve : IpOrHost T → Except Text (List T.SocketAddr)) (entry : IpOrHost T) : List T.SocketAddr :=
  match resolve entry with
  | .ok addrs => addrs
  | .error _ => []

/-- What the names lead to that could account for one of the wanted addresses. -/
def resolve_listed_names (list : List (IpOrHost T)) (wanted : List T.SocketAddr)
    (resolve : IpOrHost T → Except Text (List T.SocketAddr)) : List T.SocketAddr :=
  (list.filter fun entry => entry.is_dns && wanted.any fun addr => T.port addr = entry.port).flatMap
    (answer resolve)

def is_allowed (cfg : SessionIpForwardingConfig T) (target : IpOrHost T) (resolved : List T.SocketAddr)
    (resolve : IpOrHost T → Except Text (List T.SocketAddr)) : Bool :=
  let list := cfg.target_allow_list
  let is_listed addr := list.contains (.Ip addr)
  let named :=
    match target with
    | .Dns name port => (list.find? (lists_name name port)).isSome
    | .Ip _ => false
  if !cfg.use_target_allow_list then true
  else if named then true
  else
    let by_name := if resolved.all is_listed then [] else resolve_listed_names list resolved resolve
    resolved.all fun addr => is_listed addr || by_name.contains addr

/-! ### The plain check -/

/-- The target is a name that is listed on its port. -/
def NameListed (list : List (IpOrHost T)) : IpOrHost T → Prop
  | .Dns name port => ∃ listed, .Dns listed port ∈ list ∧
      (without_root_dot listed).eq_ignore_ascii_case (without_root_dot name) = true
  | .Ip _ => False

/-- The address is listed, or what a listed name leads to. -/
def AddressListed (list : List (IpOrHost T)) (resolve : IpOrHost T → Except Text (List T.SocketAddr))
    (addr : T.SocketAddr) : Prop :=
  .Ip addr ∈ list ∨ ∃ name port, .Dns name port ∈ list ∧ addr ∈ answer resolve (.Dns name port)

/-- The list is off, or the name is listed, or every address is. -/
def PlainlyAllowed (cfg : SessionIpForwardingConfig T) (target : IpOrHost T) (resolved : List T.SocketAddr)
    (resolve : IpOrHost T → Except Text (List T.SocketAddr)) : Prop :=
  cfg.use_target_allow_list = false ∨ NameListed cfg.target_allow_list target ∨
    ∀ addr ∈ resolved, AddressListed cfg.target_allow_list resolve addr

section Plain
variable {list : List (IpOrHost T)} {resolve : IpOrHost T → Except Text (List T.SocketAddr)}
  {resolved : List T.SocketAddr}

theorem name_listed_iff (target : IpOrHost T) :
    (match target with
      | .Dns name port => (list.find? (lists_name name port)).isSome
      | .Ip _ => false) = true ↔ NameListed list target := by
  cases target with
  | Ip addr => exact iff_of_false Bool.false_ne_true id
  | Dns name port =>
    dsimp only
    rw [List.find?_isSome]
    constructor
    · intro ⟨entry, hentry, hlists⟩
      cases entry with
      | Ip addr => cases hlists
      | Dns listed listed_port =>
        simp only [lists_name, Bool.and_eq_true, decide_eq_true_eq] at hlists
        obtain ⟨rfl, heq⟩ := hlists
        exact ⟨listed, hentry, heq⟩
    · intro ⟨listed, hentry, heq⟩
      exact ⟨_, hentry, by simp [lists_name, heq]⟩

/-- Names on other ports do not account for an address. -/
theorem mem_resolve_iff (hports : ∀ name port, .Dns name port ∈ list →
      ∀ addr ∈ answer resolve (.Dns name port), T.port addr = port) {addr : T.SocketAddr}
    (hmem : addr ∈ resolved) : addr ∈ resolve_listed_names list resolved resolve ↔
      ∃ name port, .Dns name port ∈ list ∧ addr ∈ answer resolve (.Dns name port) := by
  simp only [resolve_listed_names, List.mem_flatMap, List.mem_filter, Bool.and_eq_true, List.any_eq_true,
    decide_eq_true_eq]
  constructor
  · intro ⟨entry, ⟨hentry, hdns, _⟩, haddr⟩
    cases entry with
    | Ip _ => cases hdns
    | Dns name port => exact ⟨name, port, hentry, haddr⟩
  · intro ⟨name, port, hentry, haddr⟩
    exact ⟨_, ⟨hentry, rfl, addr, hmem, hports name port hentry addr haddr⟩, haddr⟩

/-- Addresses that are all listed literally need no lookup. -/
theorem all_listed_iff (hports : ∀ name port, .Dns name port ∈ list →
      ∀ addr ∈ answer resolve (.Dns name port), T.port addr = port) :
    (resolved.all fun addr => list.contains (.Ip addr) ||
        (if (resolved.all fun addr => list.contains (.Ip addr)) then []
          else resolve_listed_names list resolved resolve).contains addr) = true ↔
      ∀ addr ∈ resolved, AddressListed list resolve addr := by
  split
  · next hall =>
    have hlisted : ∀ addr ∈ resolved, .Ip addr ∈ list := by simpa using hall
    apply iff_of_true
    · apply List.all_eq_true.mpr
      intro addr haddr
      simp [hlisted addr haddr]
    · intro addr haddr
      exact Or.inl (hlisted addr haddr)
  · rw [List.all_eq_true]
    apply forall₂_congr
    intro addr haddr
    rw [Bool.or_eq_true, List.contains_iff_mem, List.contains_iff_mem, mem_resolve_iff hports haddr]
    rfl

end Plain

/-- The lazy check has the verdict of the plain one. -/
theorem is_allowed_iff {cfg : SessionIpForwardingConfig T} (target : IpOrHost T) (resolved : List T.SocketAddr)
    {resolve : IpOrHost T → Except Text (List T.SocketAddr)}
    (hports : ∀ name port, .Dns name port ∈ cfg.target_allow_list →
      ∀ addr ∈ answer resolve (.Dns name port), T.port addr = port) :
    is_allowed cfg target resolved resolve = true ↔ PlainlyAllowed cfg target resolved resolve := by
  unfold is_allowed PlainlyAllowed
  cases cfg.use_target_allow_list with
  | false => simp
  | true =>
    rw [← all_listed_iff hports, ← name_listed_iff]
    cases target with
    | Ip addr => simp
    | Dns name port => simp

end AllowList

/-- One name leads to an address, on the port it is asked for; no other name resolves. -/
def gnosisvpnserver : IpOrHost Ipv4.types → Except Text (List (Ipv4.IpAddr × UInt16))
  | .Dns name port =>
    if name = "gnosisvpnserver".toList then .ok [(⟨172, 30, 0, 2⟩, port)]
    else .error "no such host".toList
  | .Ip addr => .ok [addr]

/-- The address of a listed name is allowed, although another listed name does not resolve. -/
theorem is_allowed_skipped :
    is_allowed (T := Ipv4.types)
      ⟨true, [.Dns "gone.example".toList 8000, .Dns "gnosisvpnserver".toList 8000]⟩
      (.Dns "pool.internal".toList 8000) [(⟨172, 30, 0, 2⟩, 8000)] gnosisvpnserver = true := by
  apply (is_allowed_iff (T := Ipv4.types) (.Dns "pool.internal".toList 8000) [(⟨172, 30, 0, 2⟩, 8000)] ?_).mpr
  · apply Or.inr
    apply Or.inr
    intro addr haddr
    rw [List.mem_singleton.mp haddr]
    exact Or.inr ⟨"gnosisvpnserver".toList, 8000, by decide, List.mem_singleton.mpr rfl⟩
  · intro name port _ addr haddr
    by_cases hname : name = "gnosisvpnserver".toList
    · simp only [answer, gnosisvpnserver, if_pos hname] at haddr
      cases List.mem_singleton.mp haddr
      rfl
    · simp only [answer, gnosisvpnserver, if_neg hname] at haddr
      cases haddr

end Hopr.SessionServerForwarder
