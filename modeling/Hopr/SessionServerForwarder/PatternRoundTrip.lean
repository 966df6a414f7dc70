import Hopr.SessionServerForwarder.TargetPattern

/-! When a pattern survives printing.

All parts of a pattern but names are read back as they are displayed. A name is
normalised again: one that ends in a root dot after the first is gone loses that
one, too, and one that is an address without its root dot becomes an address. The
other names are read back (`round_trip_iff`). -/
namespace Hopr.SessionServerForwarder
open Library

/-- Network types are displayed in the usual characters and read back. -/
structure NetworkTypes.Lawful (T : NetworkTypes) : Prop where
  read_ip_addr : ∀ addr, T.parse_ip_addr (T.display_ip_addr addr) = .ok addr
  ip_addr_chars : ∀ addr, ∀ c ∈ T.display_ip_addr addr, c.isAlphanum = true ∨ c = '.' ∨ c = ':'
  read_ip_net : ∀ net, T.parse_ip_net (T.display_ip_net net) = .ok net
  ip_net_chars : ∀ net, ∀ c ∈ T.display_ip_net net, c.isAlphanum = true ∨ c = '.' ∨ c = ':' ∨ c = '/'
  ip_net_slash : ∀ net, '/' ∈ T.display_ip_net net
  read_ip_protocol : ∀ protocol, T.parse_ip_protocol (T.display_ip_protocol protocol) = .ok protocol
  ip_protocol_chars : ∀ protocol, ∀ c ∈ T.display_ip_protocol protocol, c.isAlphanum = true
  ip_protocol_service : ∀ protocol,
    (T.display_ip_protocol protocol).eq_ignore_ascii_case "service".toList = false
  read_service_id : ∀ id, T.parse_service_id (T.display_service_id id) = .ok id
  service_id_chars : ∀ id, ∀ c ∈ T.display_service_id id, c.isAlphanum = true

/-! ### What is read as a name -/

/-- The text that is read as the host. -/
def host_of (s : Text) : Option Text :=
  (s.trim.split_once ':').bind fun (protocol, rest) =>
    if protocol.eq_ignore_ascii_case "service".toList then none
    else (rest.rsplit_once ':').map Prod.fst

/-- A name is settled if no root dot is left behind the one that is dropped. -/
def SettledName (name : Text) : Prop := (without_root_dot name).getLast? ≠ some '.'

/-- If the host is read as a name, the name is settled, and no address. -/
def SettledHost (T : NetworkTypes) (host : Text) : Prop :=
  match Text.strip_prefix host ['*', '.'] with
  | some suffix => SettledName suffix
  | none =>
    host = ['*'] ∨ '/' ∈ host ∨ ((Text.strip_prefix host ['[']).bind fun h => h.strip_suffix [']']).isSome = true ∨
      (∃ addr, T.parse_ip_addr host = .ok addr) ∨
      (SettledName host ∧ ∀ addr, T.parse_ip_addr (without_root_dot host).to_ascii_lowercase ≠ .ok addr)

def Settled (T : NetworkTypes) (s : Text) : Prop := ∀ host ∈ host_of s, SettledHost T host

/-! ### Names -/

/-- Names as they are compared. -/
structure Normal (name : Text) : Prop where
  ne_nil : name ≠ []
  charset : is_dns_charset name = true
  lowercase : name.to_ascii_lowercase = name

section Names
variable {name n pattern pattern' : Text}

theorem charset_iff : is_dns_charset name = true ↔
    ∀ c ∈ name, c.isAlphanum = true ∨ c = '-' ∨ c = '.' ∨ c = '_' := by
  simp [is_dns_charset, or_assoc]

theorem without_root_dot_cases (name : Text) :
    (name = without_root_dot name ++ ['.']) ∨ (without_root_dot name = name ∧ name.getLast? ≠ some '.') := by
  unfold without_root_dot
  cases hstrip : name.strip_suffix ['.'] with
  | some base => exact .inl (Text.strip_suffix_eq_some.mp hstrip)
  | none =>
    refine .inr ⟨rfl, fun hlast => ?_⟩
    obtain ⟨base, rfl⟩ := List.getLast?_eq_some_iff.mp hlast
    rw [Text.strip_suffix_eq_some.mpr rfl] at hstrip
    cases hstrip

theorem without_root_dot_eq (h : name.getLast? ≠ some '.') : without_root_dot name = name := by
  obtain hdot | ⟨hsame, _⟩ := without_root_dot_cases name
  · rw [hdot] at h
    simp at h
  · exact hsame

theorem normal_lowercase (hne : name ≠ []) (hcharset : is_dns_charset name = true) :
    Normal name.to_ascii_lowercase := by
  refine ⟨by simpa [Text.to_ascii_lowercase] using hne, ?_, Text.lowercase_lowercase⟩
  rw [charset_iff] at hcharset ⊢
  intro c hc
  obtain ⟨d, hd, rfl⟩ := List.mem_map.mp hc
  obtain halnum | rfl | rfl | rfl := hcharset d hd
  · exact .inl (Text.isAlphanum_toLower halnum)
  · decide
  · decide
  · decide

theorem of_dns_name (h : dns_name pattern name = .ok n) :
    n = (without_root_dot name).to_ascii_lowercase ∧ Normal n := by
  unfold dns_name at h
  dsimp only at h
  split at h
  · cases h
  · next hne =>
    split at h
    · cases h
    · next hcharset =>
      cases h
      refine ⟨rfl, normal_lowercase (fun hnil => hne (by rw [hnil]; rfl)) ?_⟩
      simpa using hcharset

/-- A name that is normal is read as it is, if it does not end in a root dot. -/
theorem dns_name_iff (h : Normal n) (pattern : Text) : dns_name pattern n = .ok n ↔ n.getLast? ≠ some '.' := by
  constructor
  · intro hread hlast
    obtain hdot | ⟨_, hnot⟩ := without_root_dot_cases n
    · have hlen := congrArg List.length (of_dns_name hread).1
      have hlonger := congrArg List.length hdot
      simp [Text.to_ascii_lowercase] at hlen hlonger
      omega
    · exact hnot hlast
  · intro hlast
    unfold dns_name
    rw [without_root_dot_eq hlast]
    simp [h.ne_nil, h.charset, h.lowercase]

theorem not_mem_of_normal {c : Char} (h : Normal n)
    (hc : (c.isAlphanum || c == '-' || c == '.' || c == '_') = false) : c ∉ n := by
  intro hmem
  have hall := List.all_eq_true.mp h.charset c hmem
  rw [hc] at hall
  cases hall

end Names

/-! ### Hosts -/

/-- The name of the pattern is as names are compared. -/
def HostPattern.Normalised {T : NetworkTypes} : HostPattern T → Prop
  | .Name n | .Subdomain n => Normal n
  | .Any | .Address _ | .Network _ => True

/-- The name is read as it is displayed. -/
def HostPattern.Readable {T : NetworkTypes} : HostPattern T → Prop
  | .Name n => n.getLast? ≠ some '.' ∧ ∀ addr, T.parse_ip_addr n ≠ .ok addr
  | .Subdomain n => n.getLast? ≠ some '.'
  | .Any | .Address _ | .Network _ => True

section Hosts
variable {T : NetworkTypes} {pattern h₀ n : Text} {host : HostPattern T}

/-- A host without the signs of the other kinds is an address or a name. -/
theorem parse_host_plain (hstar : '*' ∉ h₀) (hslash : '/' ∉ h₀) (hbracket : '[' ∉ h₀) :
    (parse_host pattern h₀ : Except _ (HostPattern T)) =
      match T.parse_ip_addr h₀ with
      | .ok addr => .ok (.Address addr)
      | .error _ => (dns_name pattern h₀).map .Name := by
  have hany : h₀ ≠ ['*'] := fun heq => hstar (heq ▸ List.mem_cons_self)
  unfold parse_host
  rw [if_neg hany, Text.strip_prefix_of_not_mem hstar, Text.strip_prefix_of_not_mem hbracket]
  cases T.parse_ip_addr h₀ <;> simp [hslash]

theorem parse_host_name_iff (h : Normal n) :
    parse_host pattern n = .ok (.Name n : HostPattern T) ↔ (HostPattern.Name n : HostPattern T).Readable := by
  rw [parse_host_plain (not_mem_of_normal h (by decide)) (not_mem_of_normal h (by decide))
    (not_mem_of_normal h (by decide))]
  have hread := dns_name_iff h pattern
  show _ ↔ n.getLast? ≠ some '.' ∧ ∀ addr, T.parse_ip_addr n ≠ .ok addr
  rw [← hread]
  cases T.parse_ip_addr n with
  | ok addr => simp
  | error e => cases dns_name pattern n <;> simp [Except.map]

theorem parse_host_subdomain_iff (h : Normal n) :
    parse_host pattern ('*' :: '.' :: n) = .ok (.Subdomain n : HostPattern T) ↔ n.getLast? ≠ some '.' := by
  rw [← dns_name_iff h pattern]
  have hstrip : Text.strip_prefix ('*' :: '.' :: n) ['*', '.'] = some n := Text.strip_prefix_eq_some.mpr rfl
  unfold parse_host
  rw [if_neg (by simp), hstrip]
  dsimp only
  cases dns_name pattern n <;> simp [Except.map]

theorem parse_host_address (hT : T.Lawful) (addr : T.IpAddr) :
    parse_host pattern (HostPattern.Address addr).display = .ok (.Address addr : HostPattern T) := by
  have hnot : ∀ c, (c.isAlphanum || c == '.' || c == ':') = false → c ∉ T.display_ip_addr addr := by
    intro c hc hmem
    have hchar := hT.ip_addr_chars addr c hmem
    simp_all
  show parse_host pattern (if T.is_v6 addr then '[' :: T.display_ip_addr addr ++ [']'] else
    T.display_ip_addr addr) = _
  cases T.is_v6 addr with
  | false =>
    show parse_host pattern (T.display_ip_addr addr) = _
    rw [parse_host_plain (hnot _ (by decide)) (hnot _ (by decide)) (hnot _ (by decide)), hT.read_ip_addr]
  | true =>
    have hslash : ¬('[' :: T.display_ip_addr addr ++ [']']).contains '/' = true := by
      rw [List.contains_iff_mem]
      simp [hnot '/' (by decide)]
    have hbracket : Text.strip_prefix ('[' :: T.display_ip_addr addr ++ [']']) ['['] =
        some (T.display_ip_addr addr ++ [']']) := Text.strip_prefix_eq_some.mpr rfl
    have hsuffix : Text.strip_suffix (T.display_ip_addr addr ++ [']']) [']'] = some (T.display_ip_addr addr) :=
      Text.strip_suffix_eq_some.mpr rfl
    have hstar : Text.strip_prefix ('[' :: T.display_ip_addr addr ++ [']']) ['*', '.'] = none := rfl
    show parse_host pattern ('[' :: T.display_ip_addr addr ++ [']']) = _
    unfold parse_host
    rw [if_neg (by simp), hstar]
    dsimp only
    rw [if_neg hslash, hbracket, Option.bind_some, hsuffix]
    dsimp only
    rw [hT.read_ip_addr]

theorem parse_host_network (hT : T.Lawful) (net : T.IpNet) :
    parse_host pattern (T.display_ip_net net) = .ok (.Network net : HostPattern T) := by
  have hstar : '*' ∉ T.display_ip_net net := by
    intro hmem
    have hchar := hT.ip_net_chars net '*' hmem
    revert hchar
    decide
  have hany : T.display_ip_net net ≠ ['*'] := fun heq => hstar (heq ▸ List.mem_cons_self)
  unfold parse_host
  rw [if_neg hany, Text.strip_prefix_of_not_mem hstar]
  simp [hT.ip_net_slash net, hT.read_ip_net]

/-- A host is read back if it is readable. -/
theorem parse_host_iff (hT : T.Lawful) (h : host.Normalised) (pattern : Text) :
    parse_host pattern host.display = .ok host ↔ host.Readable := by
  cases host with
  | Any => exact ⟨fun _ => trivial, fun _ => rfl⟩
  | Name n => exact parse_host_name_iff h
  | Subdomain n => exact parse_host_subdomain_iff h
  | Address addr => exact ⟨fun _ => trivial, fun _ => parse_host_address hT addr⟩
  | Network net => exact ⟨fun _ => trivial, fun _ => parse_host_network hT net⟩

theorem settledHost_subdomain {suffix : Text} (h : Text.strip_prefix h₀ ['*', '.'] = some suffix) :
    SettledHost T h₀ = SettledName suffix := by
  unfold SettledHost
  rw [h]

theorem settledHost_other (h : Text.strip_prefix h₀ ['*', '.'] = none) : SettledHost T h₀ =
    (h₀ = ['*'] ∨ '/' ∈ h₀ ∨ ((Text.strip_prefix h₀ ['[']).bind fun h => h.strip_suffix [']']).isSome = true ∨
      (∃ addr, T.parse_ip_addr h₀ = .ok addr) ∨
      (SettledName h₀ ∧ ∀ addr, T.parse_ip_addr (without_root_dot h₀).to_ascii_lowercase ≠ .ok addr)) := by
  unfold SettledHost
  rw [h]

/-- The name in a host that was read is normal, and the host is readable if the text was settled. -/
theorem of_parse_host (h : parse_host pattern h₀ = .ok host) :
    host.Normalised ∧ (host.Readable ↔ SettledHost T h₀) := by
  unfold parse_host at h
  split at h
  · next hany =>
    cases h
    refine ⟨trivial, iff_of_true trivial ?_⟩
    rw [hany]
    exact Or.inl rfl
  · next hany =>
    split at h
    · next suffix hstrip =>
      rw [settledHost_subdomain hstrip]
      cases hname : dns_name pattern suffix with
      | error e => rw [hname] at h; cases h
      | ok n =>
        rw [hname] at h
        cases h
        obtain ⟨rfl, hnormal⟩ := of_dns_name hname
        exact ⟨hnormal, not_congr (Text.getLast?_lowercase (by decide))⟩
    · next hstrip =>
      rw [settledHost_other hstrip]
      split at h
      · next hslash =>
        have hmem : '/' ∈ h₀ := List.contains_iff_mem.mp hslash
        split at h <;> cases h
        exact ⟨trivial, iff_of_true trivial (.inr (.inl hmem))⟩
      · next hslash =>
        split at h
        · next literal hbracket =>
          split at h <;> cases h
          refine ⟨trivial, iff_of_true trivial (.inr (.inr (.inl ?_)))⟩
          rw [hbracket]
          rfl
        · next hbracket =>
          split at h
          · next addr haddr =>
            cases h
            exact ⟨trivial, iff_of_true trivial (.inr (.inr (.inr (.inl ⟨addr, haddr⟩))))⟩
          · next e haddr =>
            cases hname : dns_name pattern h₀ with
            | error e => rw [hname] at h; cases h
            | ok n =>
              rw [hname] at h
              cases h
              obtain ⟨rfl, hnormal⟩ := of_dns_name hname
              refine ⟨hnormal, ?_⟩
              have hlast : (without_root_dot h₀).to_ascii_lowercase.getLast? ≠ some '.' ↔ SettledName h₀ :=
                not_congr (Text.getLast?_lowercase (by decide))
              have hslash' : '/' ∉ h₀ := fun hmem => hslash (List.contains_iff_mem.mpr hmem)
              simp [HostPattern.Readable, hlast, hany, hslash', hbracket, haddr]

/-- Nothing that is displayed for a host is white space. -/
theorem host_chars (hT : T.Lawful) (h : host.Normalised) : ∀ c ∈ host.display, Text.is_whitespace c = false := by
  have hname : ∀ n, Normal n → ∀ c ∈ n, Text.is_whitespace c = false := by
    intro n hn c hc
    obtain halnum | rfl | rfl | rfl := charset_iff.mp hn.charset c hc
    · exact Text.not_whitespace_of_isAlphanum halnum
    all_goals rfl
  cases host with
  | Any => simp [HostPattern.display, Text.is_whitespace]
  | Name n => exact hname n h
  | Subdomain n =>
    intro c hc
    simp only [HostPattern.display, List.mem_cons] at hc
    obtain rfl | rfl | hc := hc
    · rfl
    · rfl
    · exact hname n h c hc
  | Address addr =>
    have haddr : ∀ c ∈ T.display_ip_addr addr, Text.is_whitespace c = false := by
      intro c hc
      obtain halnum | rfl | rfl := hT.ip_addr_chars addr c hc
      · exact Text.not_whitespace_of_isAlphanum halnum
      all_goals rfl
    simp only [HostPattern.display]
    split
    · intro c hc
      simp only [List.cons_append, List.mem_cons, List.mem_append, List.not_mem_nil, or_false] at hc
      obtain rfl | hc | rfl := hc
      · rfl
      · exact haddr c hc
      · rfl
    · exact haddr
  | Network net =>
    intro c hc
    obtain halnum | rfl | rfl | rfl := hT.ip_net_chars net c hc
    · exact Text.not_whitespace_of_isAlphanum halnum
    all_goals rfl

end Hosts

/-! ### Patterns -/

section Patterns
variable {T : NetworkTypes} {s pattern : Text} {p : TargetPattern T}

theorem protocol_chars (hT : T.Lawful) (protocol : ProtocolPattern T) :
    ∀ c ∈ protocol.display, Text.is_whitespace c = false ∧ c ≠ ':' := by
  cases protocol with
  | Any => simp [ProtocolPattern.display, Text.is_whitespace]
  | Only protocol =>
    intro c hc
    have halnum := hT.ip_protocol_chars protocol c hc
    refine ⟨Text.not_whitespace_of_isAlphanum halnum, ?_⟩
    rintro rfl
    cases halnum

theorem port_chars (port : PortPattern) : ∀ c ∈ port.display, Text.is_whitespace c = false ∧ c ≠ ':' := by
  cases port with
  | Any => simp [PortPattern.display, Text.is_whitespace]
  | Exact port =>
    intro c hc
    have hdigit := Text.isDigit_of_mem_display hc
    refine ⟨Text.not_whitespace_of_isAlphanum (by simp [Char.isAlphanum, hdigit]), ?_⟩
    rintro rfl
    cases hdigit

theorem parse_protocol_display (hT : T.Lawful) (protocol : ProtocolPattern T) :
    parse_protocol pattern protocol.display = .ok protocol := by
  cases protocol with
  | Any => rfl
  | Only protocol =>
    have hany : T.display_ip_protocol protocol ≠ ['*'] := by
      intro heq
      have halnum := hT.ip_protocol_chars protocol '*' (heq ▸ List.mem_cons_self)
      cases halnum
    simp only [ProtocolPattern.display, parse_protocol, if_neg hany, hT.read_ip_protocol]

theorem parse_port_display (port : PortPattern) : parse_port pattern port.display = .ok port := by
  cases port with
  | Any => rfl
  | Exact port =>
    have hany : Text.display_unsigned port.toNat ≠ ['*'] := by
      intro heq
      have hdigit := Text.isDigit_of_mem_display (heq ▸ List.mem_cons_self : '*' ∈ Text.display_unsigned port.toNat)
      cases hdigit
    simp [PortPattern.display, parse_port, hany, Text.parse_display_unsigned port.toNat_lt]

theorem protocol_not_service (hT : T.Lawful) (protocol : ProtocolPattern T) :
    ¬protocol.display.eq_ignore_ascii_case "service".toList = true := by
  cases protocol with
  | Any =>
    show ¬Text.eq_ignore_ascii_case ['*'] "service".toList = true
    decide
  | Only protocol => exact Bool.eq_false_iff.mp (hT.ip_protocol_service protocol)

/-- What is between the first and the last colon is read as the host. -/
theorem from_str_append {a h b : Text} (hchars : ∀ c ∈ a ++ ':' :: (h ++ ':' :: b), Text.is_whitespace c = false)
    (ha : ':' ∉ a) (hb : ':' ∉ b) (hservice : ¬a.eq_ignore_ascii_case "service".toList = true) :
    ∃ pattern, (TargetPattern.from_str (a ++ ':' :: (h ++ ':' :: b)) : Except _ (TargetPattern T)) = (do
      let protocol ← parse_protocol pattern a
      let port ← parse_port pattern b
      let host ← parse_host pattern h
      return .Stream protocol host port) := by
  have hany : a ++ ':' :: (h ++ ':' :: b) ≠ ['*'] := by
    intro heq
    have hcolon : ':' ∈ a ++ ':' :: (h ++ ':' :: b) := by simp
    rw [heq] at hcolon
    revert hcolon
    decide
  refine ⟨a ++ ':' :: (h ++ ':' :: b), ?_⟩
  unfold TargetPattern.from_str
  rw [Text.trim_eq_self hchars]
  dsimp only
  rw [if_neg hany, Text.split_once_append ha]
  dsimp only
  rw [if_neg hservice, Text.rsplit_once_append hb]

/-- Of a stream, the host is read again. -/
theorem from_str_stream (hT : T.Lawful) (protocol : ProtocolPattern T) {host : HostPattern T}
    (port : PortPattern) (h : host.Normalised) : ∃ pattern,
    TargetPattern.from_str (TargetPattern.Stream protocol host port).display =
      (parse_host pattern host.display).map fun host => TargetPattern.Stream protocol host port := by
  have hprotocol := protocol_chars hT protocol
  have hport := port_chars port
  have hchars : ∀ c ∈ protocol.display ++ ':' :: (host.display ++ ':' :: port.display),
      Text.is_whitespace c = false := by
    intro c hc
    simp only [List.mem_append, List.mem_cons] at hc
    obtain hc | rfl | hc | rfl | hc := hc
    · exact (hprotocol c hc).1
    · rfl
    · exact host_chars hT h c hc
    · rfl
    · exact (hport c hc).1
  obtain ⟨pattern, hread⟩ := from_str_append (T := T) hchars (fun hmem => (hprotocol _ hmem).2 rfl)
    (fun hmem => (hport _ hmem).2 rfl) (protocol_not_service hT protocol)
  refine ⟨pattern, hread.trans ?_⟩
  rw [parse_protocol_display hT, parse_port_display]
  cases parse_host (T := T) pattern host.display <;> rfl

theorem from_str_service (hT : T.Lawful) (id : Option T.ServiceId) :
    TargetPattern.from_str (TargetPattern.Service id).display = .ok (.Service id) := by
  cases id with
  | none => rfl
  | some id =>
    have hchars : ∀ c ∈ "service".toList ++ ':' :: T.display_service_id id, Text.is_whitespace c = false := by
      intro c hc
      obtain hc | hc := List.mem_append.mp hc
      · have hservice : "service".toList.all Char.isAlphanum = true := rfl
        exact Text.not_whitespace_of_isAlphanum (List.all_eq_true.mp hservice c hc)
      · obtain rfl | hc := List.mem_cons.mp hc
        · rfl
        · exact Text.not_whitespace_of_isAlphanum (hT.service_id_chars id c hc)
    have hany : T.display_service_id id ≠ ['*'] := by
      intro heq
      have halnum := hT.service_id_chars id '*' (heq ▸ List.mem_cons_self)
      cases halnum
    show TargetPattern.from_str ("service".toList ++ ':' :: T.display_service_id id) = _
    unfold TargetPattern.from_str
    rw [Text.trim_eq_self hchars]
    dsimp only
    rw [if_neg (by simp), Text.split_once_append (by decide)]
    dsimp only
    rw [if_pos (by decide), if_neg hany, hT.read_service_id]

/-- The host text of a stream was read as its host; the other patterns have none. -/
theorem of_from_str (h : TargetPattern.from_str s = .ok p) :
    (host_of s = none ∧ (p = .Any ∨ ∃ id, p = .Service id)) ∨
      ∃ protocol host port h₀, p = .Stream protocol host port ∧ host_of s = some h₀ ∧
        parse_host s.trim h₀ = .ok host := by
  unfold TargetPattern.from_str at h
  unfold host_of
  dsimp only at h
  split at h
  · next hany =>
    cases h
    left
    rw [hany]
    exact ⟨rfl, .inl rfl⟩
  · split at h
    · cases h
    · next protocol rest hsplit =>
      rw [hsplit]
      split at h
      · next hservice =>
        left
        refine ⟨if_pos hservice, .inr ?_⟩
        split at h
        · cases h
          exact ⟨none, rfl⟩
        · split at h <;> cases h
          exact ⟨_, rfl⟩
      · next hservice =>
        right
        rw [Option.bind_some]
        dsimp only
        rw [if_neg hservice]
        cases hprotocol : parse_protocol (T := T) s.trim protocol with
        | error e => rw [hprotocol] at h; cases h
        | ok protocol =>
          rw [hprotocol] at h
          cases hrsplit : rest.rsplit_once ':' with
          | none => rw [hrsplit] at h; cases h
          | some parts =>
            obtain ⟨h₀, port⟩ := parts
            rw [hrsplit] at h
            cases hport : parse_port s.trim port with
            | error e => simp only [hport] at h; cases h
            | ok port =>
              cases hhost : parse_host (T := T) s.trim h₀ with
              | error e => simp only [hport, hhost] at h; cases h
              | ok host =>
                simp only [hport, hhost] at h
                cases h
                exact ⟨_, host, _, h₀, rfl, rfl, hhost⟩

end Patterns

/-- A pattern that was read is displayed as itself, if and only if its text is settled. -/
theorem round_trip_iff {T : NetworkTypes} (hT : T.Lawful) {s : Text} {p : TargetPattern T}
    (h : TargetPattern.from_str s = .ok p) :
    TargetPattern.from_str p.display = .ok p ↔ Settled T s := by
  obtain ⟨hnone, hp⟩ | ⟨protocol, host, port, h₀, rfl, hsome, hhost⟩ := of_from_str h
  · have hsettled : Settled T s := by
      intro h₀ hsome
      rw [hnone] at hsome
      cases hsome
    refine iff_of_true ?_ hsettled
    obtain rfl | ⟨id, rfl⟩ := hp
    · rfl
    · exact from_str_service hT id
  · obtain ⟨hnormal, hreadable⟩ := of_parse_host hhost
    obtain ⟨pattern, hread⟩ := from_str_stream hT protocol port hnormal
    have hsettled : Settled T s ↔ SettledHost T h₀ := by
      unfold Settled
      rw [hsome]
      exact ⟨fun hall => hall h₀ rfl, fun hh₀ h hh => Option.some.inj hh ▸ hh₀⟩
    rw [hread, hsettled, ← hreadable, ← parse_host_iff hT hnormal pattern]
    cases parse_host (T := T) pattern host.display <;> simp [Except.map]

/-! ### IPv4 -/

namespace Ipv4

theorem parse_number_display {bound n : Nat} (h : n < bound) :
    parse_number bound (Text.display_unsigned n) = some n := by
  simp [parse_number, Text.parse_display_unsigned h]

theorem not_digit_mem {c : Char} {n : Nat} (hc : c.isDigit = false) : c ∉ Text.display_unsigned n := by
  intro hmem
  rw [Text.isDigit_of_mem_display hmem] at hc
  cases hc

theorem read_display_addr (addr : IpAddr) : read_addr (display_addr addr) = some addr := by
  have hdot : ∀ n, '.' ∉ Text.display_unsigned n := fun n => not_digit_mem (by decide)
  have hnumber : ∀ n : UInt8, parse_number 256 (Text.display_unsigned n.toNat) = some n.toNat :=
    fun n => parse_number_display n.toNat_lt
  simp [read_addr, display_addr, Text.split_once_append, hdot, hnumber]

theorem mem_display_addr {addr : IpAddr} {c : Char} (h : c ∈ display_addr addr) : c.isDigit = true ∨ c = '.' := by
  simp only [display_addr, List.mem_append, List.mem_cons] at h
  obtain h | rfl | h | rfl | h | rfl | h := h
  · exact .inl (Text.isDigit_of_mem_display h)
  · exact .inr rfl
  · exact .inl (Text.isDigit_of_mem_display h)
  · exact .inr rfl
  · exact .inl (Text.isDigit_of_mem_display h)
  · exact .inr rfl
  · exact .inl (Text.isDigit_of_mem_display h)

theorem read_display_net (net : IpNet) : read_net (display_net net) = some net := by
  have hslash : '/' ∉ display_addr net.addr := by
    intro hmem
    have hchar := mem_display_addr hmem
    revert hchar
    decide
  simp [read_net, display_net, Text.split_once_append hslash, read_display_addr,
    parse_number_display net.len.isLt]

theorem isAlphanum_of_isDigit {c : Char} (h : c.isDigit = true) : c.isAlphanum = true := by
  simp [Char.isAlphanum, h]

theorem lawful : types.Lawful where
  read_ip_addr addr := congrArg or_invalid (read_display_addr addr)
  ip_addr_chars addr c hc := by
    obtain hdigit | hdot := mem_display_addr hc
    · exact .inl (isAlphanum_of_isDigit hdigit)
    · exact .inr (.inl hdot)
  read_ip_net net := congrArg or_invalid (read_display_net net)
  ip_net_chars net c hc := by
    obtain hc | hc := List.mem_append.mp hc
    · obtain hdigit | hdot := mem_display_addr hc
      · exact .inl (isAlphanum_of_isDigit hdigit)
      · exact .inr (.inl hdot)
    · obtain hslash | hc := List.mem_cons.mp hc
      · exact .inr (.inr (.inr hslash))
      · exact .inl (isAlphanum_of_isDigit (Text.isDigit_of_mem_display hc))
  ip_net_slash net := List.mem_append_right _ List.mem_cons_self
  read_ip_protocol protocol := by cases protocol <;> rfl
  ip_protocol_chars protocol c hc := by
    have hall : (display_protocol protocol).all Char.isAlphanum = true := by cases protocol <;> rfl
    exact List.all_eq_true.mp hall c hc
  ip_protocol_service protocol := by cases protocol <;> rfl
  read_service_id id := by
    show (Text.parse_unsigned UInt32.size (Text.display_unsigned id.toNat)).map UInt32.ofNat = _
    rw [Text.parse_display_unsigned id.toNat_lt]
    exact congrArg Except.ok UInt32.ofNat_toNat
  service_id_chars id c hc := isAlphanum_of_isDigit (Text.isDigit_of_mem_display hc)

end Ipv4

/-- A fully qualified name in capitals is displayed as it is compared, and read back so. -/
theorem round_trip_name :
    TargetPattern.from_str (TargetPattern.Stream (.Only Ipv4.types.TCP) (.Name "a.example".toList)
      (.Exact 443)).display =
      .ok (.Stream (.Only Ipv4.types.TCP) (.Name "a.example".toList) (.Exact 443)) := by
  have hread : TargetPattern.from_str " TCP:A.Example.:443".toList =
      .ok (.Stream (.Only Ipv4.types.TCP) (.Name "a.example".toList) (.Exact 443)) := rfl
  refine (round_trip_iff Ipv4.lawful hread).mpr ?_
  intro host hhost
  obtain rfl : "A.Example.".toList = host := Option.some.inj hhost
  have hsettled : (without_root_dot "A.Example.".toList).getLast? ≠ some '.' := by decide
  exact .inr (.inr (.inr (.inr ⟨hsettled, fun addr haddr => by cases haddr⟩)))

/-- The name that an address with a root dot is read as is read back as the address. -/
theorem name_becomes_address :
    TargetPattern.from_str "tcp:1.2.3.4.:443".toList =
      .ok (.Stream (.Only Ipv4.types.TCP) (.Name "1.2.3.4".toList) (.Exact 443)) ∧
    TargetPattern.from_str (TargetPattern.Stream (.Only Ipv4.types.TCP) (.Name "1.2.3.4".toList)
      (.Exact 443)).display =
      .ok (.Stream (.Only Ipv4.types.TCP) (.Address (⟨1, 2, 3, 4⟩ : Ipv4.IpAddr)) (.Exact 443)) :=
  ⟨rfl, rfl⟩

end Hopr.SessionServerForwarder
