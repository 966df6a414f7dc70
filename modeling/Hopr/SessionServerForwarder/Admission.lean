import Hopr.SessionServerForwarder.PatternRoundTrip

/-! Admission rules.

The first rule that matches the unsealed target says on which terms its session is
admitted. A name matches regardless of its ASCII case and of one root dot, so the
peer cannot choose between rules by how it spells the name (`spelling`); and the
bytes of a name are indexed and sliced where there is a character, whatever the
name is (`matches_isSome`). -/
namespace Hopr.SessionServerForwarder
open Library

structure SessionAdmissionRule (T : NetworkTypes) where
  target : TargetPattern T
  enforce_pix : Option Bool
  quota_range_min : Option UInt64
  quota_range_max : Option UInt64

/-- Decisions, as far as rules make them. -/
class SessionAdmissionDecision (D : Type) where
  default : D
  with_enforce_pix : D → Bool → D
  with_pix_quota_range : D → UInt64 × UInt64 → D

inductive ForwarderError where
  | General (reason : Text)
  | Denied (reason : Text)

/-- A session target whose host is sealed. -/
inductive SessionTarget (T : NetworkTypes) (H : Type) where
  | TcpStream (host : H)
  | UdpStream (host : H)
  | ExitNode (id : T.ServiceId)

section Admit
variable {T : NetworkTypes} {H D : Type}

def UnsealedTarget.new (unsealed : H → Except Text (IpOrHost T)) : SessionTarget T H → Except Text (UnsealedTarget T)
  | .TcpStream host => (unsealed host).map (.Stream T.TCP)
  | .UdpStream host => (unsealed host).map (.Stream T.UDP)
  | .ExitNode id => .ok (.Service id)

/-- The first rule that matches; `none` if matching panics. -/
def find_rule : List (SessionAdmissionRule T) → UnsealedTarget T → Option (Option (SessionAdmissionRule T))
  | [], _ => some none
  | rule :: rest, target => do
    if ← rule.target.matches target then return some rule
    else find_rule rest target

open SessionAdmissionDecision in
/-- The terms of a rule. -/
def SessionAdmissionRule.decision [SessionAdmissionDecision D] (rule : SessionAdmissionRule T) : D :=
  let decision : D := default
  let decision :=
    match rule.enforce_pix with
    | some enforce_pix => with_enforce_pix decision enforce_pix
    | none => decision
  -- A bound that is not set does not narrow its end.
  if rule.quota_range_min.isSome || rule.quota_range_max.isSome
  then with_pix_quota_range decision
    (rule.quota_range_min.getD 0, rule.quota_range_max.getD (.ofNat (UInt64.size - 1)))
  else decision

/-- What is decided for a target; `spawn_error` is the error of the task that unseals it, if it has one. -/
def admits [SessionAdmissionDecision D] (rules : List (SessionAdmissionRule T)) (spawn_error : Option Text)
    (unsealed : H → Except Text (IpOrHost T)) (target : SessionTarget T H) : Option (Except ForwarderError D) :=
  if rules.isEmpty then some (.ok SessionAdmissionDecision.default)
  else
    match spawn_error with
    | some e => some (.error (.General ("failed to spawn unseal task: ".toList ++ e)))
    | none =>
      match UnsealedTarget.new unsealed target with
      | .error e => some (.error (.Denied ("cannot unseal target: ".toList ++ e)))
      | .ok target => do
        match ← find_rule rules target with
        | none => return .ok SessionAdmissionDecision.default
        | some rule => return .ok rule.decision

end Admit

/-! ### Subdomains -/

section Matches
variable {T : NetworkTypes} {suffix : Text}

theorem checked_sub_sub (a b : Nat) : ((checked_sub a b).bind fun split => checked_sub split 1) =
    if b + 1 ≤ a then some (a - b - 1) else none := by
  unfold checked_sub
  by_cases hb : b ≤ a
  · rw [if_pos hb, Option.bind_some]
    by_cases hlt : b + 1 ≤ a
    · rw [if_pos hlt, if_pos (by omega)]
    · rw [if_neg hlt, if_neg (by omega)]
  · rw [if_neg hb, if_neg (by omega)]
    rfl

/-- A subdomain has a dot before the suffix; nothing is indexed or sliced where there is no character. -/
theorem subdomain_matches (suffix name : Text) (port : UInt16) :
    ∃ b, (HostPattern.Subdomain suffix : HostPattern T).matches (.Dns name port) = some b ∧
      (b = true ↔ ∃ p t : Text, without_root_dot name = p ++ '.' :: t ∧
        t.to_ascii_lowercase = suffix.to_ascii_lowercase) := by
  simp only [HostPattern.matches, checked_sub_sub]
  generalize without_root_dot name = name
  have hdot : '.'.utf8Size = 1 := rfl
  have hlen : ∀ {p t : Text}, name = p ++ '.' :: t → t.to_ascii_lowercase = suffix.to_ascii_lowercase →
      name.len = p.len + 1 + suffix.len := by
    intro p t hname ht
    have ht' : t.len = suffix.len := by rw [← Text.len_lowercase, ht, Text.len_lowercase]
    rw [hname, Text.len_append, Text.len_cons, ht', hdot]
    omega
  by_cases hshort : suffix.len + 1 ≤ name.len
  · rw [if_pos hshort]
    have hbyte : name.len - suffix.len - 1 < name.as_bytes.length := by
      rw [Text.length_as_bytes]
      omega
    dsimp only
    rw [List.getElem?_eq_getElem hbyte, Option.bind_eq_bind, Option.bind_some]
    split
    · next hisdot =>
      -- The byte is a character, so the rest begins where one does.
      have hget := (List.getElem?_eq_getElem hbyte).trans (congrArg some hisdot)
      obtain ⟨p, t, rfl, hp⟩ := Text.of_as_bytes (by decide) hget
      have hslice : Text.slice_from (p ++ '.' :: t) (Text.len (p ++ '.' :: t) - suffix.len - 1 + 1) = some t := by
        rw [← hp]
        have hprefix : p ++ '.' :: t = (p ++ ['.']) ++ t := by simp
        have hplen : p.len + 1 = Text.len (p ++ ['.']) := by simp [Text.len_append, hdot]
        rw [hplen, hprefix]
        exact Text.slice_from_append
      rw [hslice]
      refine ⟨_, rfl, ?_⟩
      rw [Text.eq_ignore_ascii_case_iff]
      constructor
      · intro heq
        exact ⟨p, t, rfl, heq.symm⟩
      · intro ⟨p', t', hname, ht⟩
        have hsame : Text.len p = Text.len p' := by
          have := hlen hname ht
          omega
        have htail : Text.slice_from (p ++ '.' :: t) (Text.len p) = Text.slice_from (p' ++ '.' :: t') (Text.len p') := by
          rw [hname, hsame]
        rw [Text.slice_from_append, Text.slice_from_append] at htail
        cases htail
        exact ht.symm
    · next hnodot =>
      refine ⟨false, rfl, iff_of_false Bool.false_ne_true ?_⟩
      intro ⟨p, t, hname, ht⟩
      have hp : name.len - suffix.len - 1 = p.len := by
        have := hlen hname ht
        omega
      have hget := Text.as_bytes_getElem (s := p) (t := t) (c := '.') (by decide)
      rw [← hname, ← hp, List.getElem?_eq_getElem hbyte] at hget
      exact hnodot (Option.some.inj hget)
  · rw [if_neg hshort]
    refine ⟨false, rfl, iff_of_false Bool.false_ne_true ?_⟩
    intro ⟨p, t, hname, ht⟩
    have := hlen hname ht
    omega

/-- The suffix is one that was read; then names are compared in lower case. -/
theorem subdomain_matches_iff (hsuffix : suffix.to_ascii_lowercase = suffix) (name : Text) (port : UInt16) :
    (HostPattern.Subdomain suffix : HostPattern T).matches (.Dns name port) = some true ↔
      ∃ p, (without_root_dot name).to_ascii_lowercase = p ++ '.' :: suffix := by
  obtain ⟨b, hb, hiff⟩ := subdomain_matches (T := T) suffix name port
  rw [hb, Option.some.injEq, hiff, hsuffix]
  constructor
  · intro ⟨p, t, hname, ht⟩
    refine ⟨p.to_ascii_lowercase, ?_⟩
    rw [hname, Text.lowercase_append, ← ht]
    rfl
  · intro ⟨p, hname⟩
    obtain ⟨a, rest, hsplit, _, hrest⟩ := List.map_eq_append_iff.mp hname
    obtain ⟨c, t, rfl, hc, ht⟩ := List.map_eq_cons_iff.mp hrest
    rw [(Text.toLower_eq_iff rfl).mp hc] at hsplit
    exact ⟨a, t, hsplit, ht⟩

theorem host_matches_isSome (pattern : HostPattern T) (host : IpOrHost T) : (pattern.matches host).isSome = true := by
  cases host with
  | Ip addr => cases pattern <;> rfl
  | Dns name port =>
    cases pattern with
    | Subdomain suffix =>
      obtain ⟨b, hb, _⟩ := subdomain_matches (T := T) suffix name port
      rw [hb]
      rfl
    | _ => rfl

/-- Matching does not panic, whatever the target is. -/
theorem matches_isSome (p : TargetPattern T) (target : UnsealedTarget T) : (p.matches target).isSome = true := by
  cases p with
  | Any => rfl
  | Service id => cases id <;> cases target <;> rfl
  | Stream protocol host port =>
    cases target with
    | Service id => rfl
    | Stream target_protocol target_host =>
      simp only [TargetPattern.matches]
      split
      · exact host_matches_isSome host target_host
      · rfl

end Matches

/-! ### Spellings of a name -/

/-- Two names, not ending in a dot, that are equal up to ASCII case, each with a root dot or without. -/
structure SameName (n n' : Text) : Prop where
  spelled : ∃ base base' : Text, base.getLast? ≠ some '.' ∧ base'.getLast? ≠ some '.' ∧
    base.eq_ignore_ascii_case base' = true ∧ (n = base ∨ n = base ++ ['.']) ∧ (n' = base' ∨ n' = base' ++ ['.'])

section Spelling
variable {T : NetworkTypes} {n n' : Text} {protocol : T.IpProtocol} {port : UInt16}

theorem without_root_dot_of_spelled {base : Text} (h : base.getLast? ≠ some '.') (hn : n = base ∨ n = base ++ ['.']) :
    without_root_dot n = base := by
  obtain rfl | rfl := hn
  · exact without_root_dot_eq h
  · unfold without_root_dot
    rw [show Text.strip_suffix (base ++ ['.']) ['.'] = some base from Text.strip_suffix_eq_some.mpr rfl]
    rfl

theorem SameName.lowercase (h : SameName n n') :
    (without_root_dot n).to_ascii_lowercase = (without_root_dot n').to_ascii_lowercase := by
  obtain ⟨base, base', hbase, hbase', heq, hn, hn'⟩ := h
  rw [without_root_dot_of_spelled hbase hn, without_root_dot_of_spelled hbase' hn']
  exact Text.eq_ignore_ascii_case_iff.mp heq

theorem host_matches_congr {pattern : HostPattern T} (hpattern : pattern.Normalised) (h : SameName n n') :
    pattern.matches (.Dns n port) = pattern.matches (.Dns n' port) := by
  cases pattern with
  | Name wanted =>
    simp only [HostPattern.matches, Text.eq_ignore_ascii_case, h.lowercase]
  | Subdomain suffix =>
    obtain ⟨b, hb, _⟩ := subdomain_matches (T := T) suffix n port
    obtain ⟨b', hb', _⟩ := subdomain_matches (T := T) suffix n' port
    have hiff := subdomain_matches_iff (T := T) hpattern.lowercase n port
    have hiff' := subdomain_matches_iff (T := T) hpattern.lowercase n' port
    rw [hb, hb', Option.some.injEq, Bool.eq_iff_iff]
    rw [hb, Option.some.injEq] at hiff
    rw [hb', Option.some.injEq] at hiff'
    rw [hiff, hiff', h.lowercase]
  | _ => rfl

theorem matches_congr {p : TargetPattern T} {s : Text} (hp : TargetPattern.from_str s = .ok p) (h : SameName n n') :
    p.matches (.Stream protocol (.Dns n port)) = p.matches (.Stream protocol (.Dns n' port)) := by
  obtain ⟨_, rfl | ⟨id, rfl⟩⟩ | ⟨wanted, host, wanted_port, h₀, rfl, _, hhost⟩ := of_from_str hp
  · rfl
  · cases id <;> rfl
  · simp only [TargetPattern.matches, IpOrHost.port]
    rw [host_matches_congr (of_parse_host hhost).1 h]
    rfl

theorem find_rule_congr {rules : List (SessionAdmissionRule T)}
    (hrules : ∀ rule ∈ rules, ∃ s, TargetPattern.from_str s = .ok rule.target) (h : SameName n n') :
    find_rule rules (.Stream protocol (.Dns n port)) = find_rule rules (.Stream protocol (.Dns n' port)) := by
  induction rules with
  | nil => rfl
  | cons rule rest ih =>
    obtain ⟨s, hs⟩ := hrules rule List.mem_cons_self
    simp only [find_rule]
    rw [matches_congr hs h, ih fun r hr => hrules r (List.mem_cons_of_mem rule hr)]

end Spelling

/-- The first rule that matches is the same however the name is spelled, so the decision is; a wildcard
matches exactly the names with something before its suffix and a dot; and matching never panics. -/
theorem spelling {T : NetworkTypes} {H D : Type} [SessionAdmissionDecision D]
    {rules : List (SessionAdmissionRule T)}
    (hrules : ∀ rule ∈ rules, ∃ s, TargetPattern.from_str s = .ok rule.target) {n n' : Text}
    (h : SameName n n') (protocol : T.IpProtocol) (port : UInt16) :
    find_rule rules (.Stream protocol (.Dns n port)) = find_rule rules (.Stream protocol (.Dns n' port)) ∧
    (∀ (spawn_error : Option Text) (unsealed : H → Except Text (IpOrHost T)) (target target' : SessionTarget T H),
      UnsealedTarget.new unsealed target = .ok (.Stream protocol (.Dns n port)) →
      UnsealedTarget.new unsealed target' = .ok (.Stream protocol (.Dns n' port)) →
      (admits rules spawn_error unsealed target : Option (Except ForwarderError D)) =
        admits rules spawn_error unsealed target') ∧
    (∀ (pattern s : Text) (host : HostPattern T), parse_host pattern ('*' :: '.' :: s) = .ok host →
      host = .Subdomain (without_root_dot s).to_ascii_lowercase ∧
      (host.matches (.Dns n port) = some true ↔
        ∃ p, (without_root_dot n).to_ascii_lowercase = p ++ '.' :: (without_root_dot s).to_ascii_lowercase)) ∧
    ∀ (p : TargetPattern T) (target : UnsealedTarget T), (p.matches target).isSome = true := by
  have hrule : find_rule rules (.Stream protocol (.Dns n port)) = find_rule rules (.Stream protocol (.Dns n' port)) :=
    find_rule_congr hrules h
  refine ⟨hrule, ?_, ?_, matches_isSome⟩
  · intro spawn_error unsealed target target' htarget htarget'
    unfold admits
    rw [htarget, htarget']
    dsimp only
    rw [hrule]
  · intro pattern s host hhost
    have hstrip : Text.strip_prefix ('*' :: '.' :: s) ['*', '.'] = some s := Text.strip_prefix_eq_some.mpr rfl
    unfold parse_host at hhost
    rw [if_neg (by simp), hstrip] at hhost
    cases hname : dns_name pattern s with
    | error e => simp only [hname] at hhost; cases hhost
    | ok suffix =>
      simp only [hname] at hhost
      cases hhost
      obtain ⟨rfl, hnormal⟩ := of_dns_name hname
      exact ⟨rfl, subdomain_matches_iff hnormal.lowercase n port⟩

instance : SessionAdmissionDecision (Option Bool × Option (UInt64 × UInt64)) where
  default := (none, none)
  with_enforce_pix d enforce := (some enforce, d.2)
  with_pix_quota_range d range := (d.1, some range)

/-- A rule for subdomains is not evaded by capitals and a root dot. -/
theorem spelling_subdomain :
    (admits [⟨.Stream (.Only Ipv4.types.TCP) (.Subdomain "example.com".toList) (.Exact 443), some true, none, some 9⟩]
      none (fun name => .ok (.Dns name 443)) (.TcpStream "A.Example.COM.".toList) :
        Option (Except ForwarderError (Option Bool × Option (UInt64 × UInt64)))) =
    admits [⟨.Stream (.Only Ipv4.types.TCP) (.Subdomain "example.com".toList) (.Exact 443), some true, none, some 9⟩]
      none (fun name => .ok (.Dns name 443)) (.TcpStream "a.example.com".toList) := by
  refine (spelling ?_ ⟨"A.Example.COM".toList, "a.example.com".toList, by decide, by decide, by decide,
    .inr rfl, .inl rfl⟩ Ipv4.types.TCP 443).2.1 none _ _ _ rfl rfl
  intro rule hrule
  rw [List.mem_singleton.mp hrule]
  exact ⟨"tcp:*.Example.com:443".toList, rfl⟩

end Hopr.SessionServerForwarder
