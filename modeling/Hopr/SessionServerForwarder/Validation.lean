import Mathlib.Data.Char
import Mathlib.Data.List.Lex
import Mathlib.Data.List.Sort
import Hopr.SessionServerForwarder.Admission
import Hopr.SessionServerForwarder.AllowList
import Hopr.SessionServerForwarder.Forwarding

/-! Validation of the configuration.

A configuration is accepted if TCP targets are retried, no rule has crossed quota bounds
and each name on the allow list is one that a host can have. The names that are refused
match no target that is named like a host; one configuration has one report, in whatever
order its set is iterated; and under an accepted one no session is admitted on an empty
range of quotas (`accepted`). -/
namespace Hopr.SessionServerForwarder.Validation
open Library

structure ValidationError where
  code : Text
  message : Option Text
deriving DecidableEq

/-- The fields that are validated. -/
structure Config (T : NetworkTypes) extends Forwarding.Config T where
  session_admission_rules : List (SessionAdmissionRule T)

inductive Field where
  | target_allow_list
  | max_tcp_target_retries
  | session_admission_rules (index : Nat)
deriving DecidableEq

/-- Why no host has the name, if none can. -/
def dns_entry_problem (name : Text) : Option Text :=
  let name := without_root_dot name
  if name.isEmpty then some "empty host name".toList
  else if !is_dns_charset name then some "not a DNS name".toList
  else if (name.splitOn '.').any List.isEmpty then some "empty label".toList
  else if (name.splitOn '.').getLast?.any fun label => label.all Char.isDigit then
    some "last label is numeric, like a mistyped IPv4 address".toList
  else none

section Validate
variable {T : NetworkTypes}

def entry_problem (display : IpOrHost T → Text) : IpOrHost T → Option Text
  | .Dns name port => (dns_entry_problem name).map fun problem =>
      '\'' :: (display (.Dns name port) ++ "' (".toList ++ problem ++ [')'])
  | .Ip _ => none

/-- The report is sorted, as the list comes in the order in which its set is iterated. -/
def validate_target_allow_list (display : IpOrHost T → Text) (list : List (IpOrHost T)) : Except ValidationError Unit :=
  let unusable := list.filterMap (entry_problem display)
  if unusable.isEmpty then .ok ()
  else
    .error ⟨"unusable allow list entry".toList,
      some ("no host name can match ".toList ++ ", ".toList.intercalate (unusable.mergeSort fun a b => a ≤ b))⟩

def validate_admission_rule_quota (rule : SessionAdmissionRule T) : Except ValidationError Unit :=
  match rule.quota_range_min, rule.quota_range_max with
  | some min, some max =>
    if max < min then
      .error ⟨"empty quota range".toList, some ("rule for '".toList ++ rule.target.display ++
        "' has quota_range_min ".toList ++ Text.display_unsigned min.toNat ++ " above quota_range_max ".toList ++
        Text.display_unsigned max.toNat ++ ", which admits nothing".toList)⟩
    else .ok ()
  | _, _ => .ok ()

/-- The errors of a field that is validated on its own. -/
def errors (field : Field) : Except ValidationError Unit → List (Field × ValidationError)
  | .ok () => []
  | .error e => [(field, e)]

def validate (display : IpOrHost T → Text) (cfg : Config T) : List (Field × ValidationError) :=
  errors .target_allow_list (validate_target_allow_list display cfg.target_allow_list) ++
  (if cfg.max_tcp_target_retries < 1 then [(.max_tcp_target_retries, ⟨"range".toList, none⟩)] else []) ++
  cfg.session_admission_rules.zipIdx.flatMap fun (rule, index) =>
    errors (.session_admission_rules index) (validate_admission_rule_quota rule)

end Validate

/-! ### Names of hosts -/

/-- Letters, digits, hyphens and underscores, and some of them. -/
structure Label (label : Text) : Prop where
  nonempty : label ≠ []
  chars : ∀ c ∈ label, c.isAlphanum = true ∨ c = '-' ∨ c = '_'

/-- Labels with dots in between, the last of them not a number, and perhaps the root dot. -/
def HostName (name : Text) : Prop :=
  ∃ labels last, (∀ label ∈ labels ++ [last], Label label) ∧ (∃ c ∈ last, c.isDigit = false) ∧
    without_root_dot name = ['.'].intercalate (labels ++ [last])

theorem label_iff {label : Text} (hdot : '.' ∉ label) :
    Label label ↔ label.isEmpty = false ∧ is_dns_charset label = true := by
  have hchars : is_dns_charset label = true ↔ ∀ c ∈ label, c.isAlphanum = true ∨ c = '-' ∨ c = '_' := by
    rw [is_dns_charset, List.all_eq_true]
    refine forall₂_congr fun c hc => ?_
    have hne : c ≠ '.' := fun heq => hdot (heq ▸ hc)
    simp [hne, or_assoc]
  rw [hchars]
  refine ⟨fun h => ⟨by simpa using h.nonempty, h.chars⟩, fun h => ⟨by simpa using h.1, h.2⟩⟩

theorem Label.no_dot {label : Text} (h : Label label) : '.' ∉ label := by
  intro hmem
  rcases h.chars _ hmem with halphanum | heq | heq
  · exact absurd halphanum (by decide)
  · exact absurd heq (by decide)
  · exact absurd heq (by decide)

/-- The characters of the labels are all there are, but for the dots. -/
theorem charset_intercalate (labels : List Text) :
    is_dns_charset (['.'].intercalate labels) = true ↔ ∀ label ∈ labels, is_dns_charset label = true := by
  induction labels with
  | nil => simp [is_dns_charset]
  | cons label rest ih =>
    cases rest with
    | nil => simp
    | cons next rest =>
      have happend : ∀ a b : Text, is_dns_charset (a ++ b) = (is_dns_charset a && is_dns_charset b) :=
        fun a b => List.all_append
      rw [List.intercalate_cons_of_ne_nil (by simp), happend, happend, List.forall_mem_cons, ← ih]
      simp [is_dns_charset]

theorem no_dot_of_mem_split {name label : Text} (h : label ∈ name.splitOn '.') : '.' ∉ label := by
  induction name generalizing label with
  | nil =>
    rw [List.splitOn_nil, List.mem_singleton] at h
    simp [h]
  | cons c rest ih =>
    obtain ⟨first, more, hsplit⟩ := List.exists_cons_of_ne_nil (List.splitOn_ne_nil '.' rest)
    rw [List.splitOn_cons_eq_if_modifyHead, hsplit] at h
    split at h
    · cases List.mem_cons.mp h with
      | inl heq => simp [heq]
      | inr hmem => exact ih (hsplit ▸ hmem)
    · next hc =>
      rw [beq_iff_eq] at hc
      cases List.mem_cons.mp h with
      | inl heq =>
        have hfirst := ih (hsplit ▸ List.mem_cons_self)
        simp [heq, Ne.symm hc, hfirst]
      | inr hmem => exact ih (hsplit ▸ List.mem_cons_of_mem _ hmem)

/-- A name is accepted if and only if it can be the name of a host. -/
theorem host_name_iff (name : Text) : HostName name ↔ dns_entry_problem name = none := by
  constructor
  · rintro ⟨labels, last, hlabels, hlast, hname⟩
    have hsplit : (['.'].intercalate (labels ++ [last])).splitOn '.' = labels ++ [last] :=
      List.splitOn_intercalate '.' (fun label hmem => (hlabels label hmem).no_dot) (by simp)
    have hchecks : ∀ label ∈ labels ++ [last], label.isEmpty = false ∧ is_dns_charset label = true :=
      fun label hmem => (label_iff (hlabels label hmem).no_dot).mp (hlabels label hmem)
    have hcharset := (charset_intercalate (labels ++ [last])).mpr fun label hmem => (hchecks label hmem).2
    have hempty : (['.'].intercalate (labels ++ [last])).isEmpty = false := by
      cases hall : ['.'].intercalate (labels ++ [last]) with
      | nil =>
        -- An empty name is one empty label.
        rw [hall, List.splitOn_nil] at hsplit
        have hmem : [] ∈ labels ++ [last] := hsplit ▸ List.mem_singleton_self _
        exact absurd (hchecks _ hmem).1 (by simp)
      | cons => rfl
    have hnone : (labels ++ [last]).any List.isEmpty = false := by
      rw [List.any_eq_false]
      exact fun label hmem => by simp [(hchecks label hmem).1]
    have hnumber : last.all Char.isDigit = false := by
      rw [List.all_eq_false]
      exact hlast.imp fun c hc => ⟨hc.1, by simp [hc.2]⟩
    simp [dns_entry_problem, hname, hempty, hcharset, hsplit, hnone, hnumber]
  · intro hnone
    simp only [dns_entry_problem] at hnone
    split at hnone
    · cases hnone
    split at hnone
    · cases hnone
    next hcharset =>
    split at hnone
    · cases hnone
    next hempty =>
    split at hnone
    · cases hnone
    next hnumber =>
    have hne := List.splitOn_ne_nil '.' (without_root_dot name)
    have hback : ['.'].intercalate ((without_root_dot name).splitOn '.') = without_root_dot name :=
      List.intercalate_splitOn '.'
    have hdots : ∀ label ∈ (without_root_dot name).splitOn '.', '.' ∉ label := fun _ => no_dot_of_mem_split
    generalize (without_root_dot name).splitOn '.' = labels at *
    rw [Bool.not_eq_true', Bool.not_eq_false, ← hback, charset_intercalate] at hcharset
    rw [List.any_eq_true, not_exists] at hempty
    obtain ⟨last, hlast⟩ : ∃ last, labels.getLast? = some last :=
      ⟨labels.getLast hne, List.getLast?_eq_some_getLast hne⟩
    obtain ⟨before, rfl⟩ := List.getLast?_eq_some_iff.mp hlast
    rw [hlast, Option.any_some, List.all_eq_true, not_forall] at hnumber
    obtain ⟨c, hc⟩ := hnumber
    rw [Classical.not_imp, Bool.not_eq_true] at hc
    refine ⟨before, last, fun label hmem => ?_, ⟨c, hc⟩, hback.symm⟩
    refine (label_iff (hdots label hmem)).mpr ⟨?_, hcharset label hmem⟩
    exact Bool.eq_false_iff.mpr fun h => hempty label ⟨hmem, h⟩

/-! ### Spellings -/

theorem not_digit_of_alpha {c : Char} (h : c.isAlpha = true) : c.isDigit = false := by
  rw [Bool.eq_false_iff]
  intro hdigit
  simp only [Char.isAlpha, Char.isUpper, Char.isLower, Bool.or_eq_true, Bool.and_eq_true, decide_eq_true_eq,
    UInt32.le_iff_toNat_le, ge_iff_le] at h
  rw [Char.isDigit_iff_toNat] at hdigit
  change (65 ≤ c.toNat ∧ c.toNat ≤ 90) ∨ (97 ≤ c.toNat ∧ c.toNat ≤ 122) at h
  change 48 ≤ c.toNat ∧ c.toNat ≤ 57 at hdigit
  omega

theorem isDigit_toLower (c : Char) : c.toLower.isDigit = c.isDigit := by
  cases halpha : c.isAlpha with
  | true => rw [not_digit_of_alpha halpha, not_digit_of_alpha ((Char.isAlpha_toLower_eq_isAlpha c).trans halpha)]
  | false =>
    have hupper : ¬c.isUpper = true := by
      intro hupper
      simp [Char.isAlpha, hupper] at halpha
    rw [Char.toLower_eq_of_not_isUpper hupper]

theorem charset_toLower (c : Char) : (c.toLower.isAlphanum || c.toLower == '-' || c.toLower == '.' || c.toLower == '_') =
    (c.isAlphanum || c == '-' || c == '.' || c == '_') := by
  have hsame : ∀ d : Char, d.isAlpha = false → (c.toLower == d) = (c == d) := by
    intro d hd
    rw [Bool.eq_iff_iff, beq_iff_eq, beq_iff_eq, Text.toLower_eq_iff hd]
  rw [hsame '-' rfl, hsame '.' rfl, hsame '_' rfl, Char.isAlphanum, Char.isAlpha_toLower_eq_isAlpha, isDigit_toLower,
    Char.isAlphanum]

theorem split_lowercase (name : Text) :
    List.splitOn '.' name.to_ascii_lowercase = (name.splitOn '.').map Text.to_ascii_lowercase := by
  induction name with
  | nil => rfl
  | cons c rest ih =>
    obtain ⟨first, more, hsplit⟩ := List.exists_cons_of_ne_nil (List.splitOn_ne_nil '.' rest)
    have hdot : (c.toLower == '.') = (c == '.') := by
      rw [Bool.eq_iff_iff, beq_iff_eq, beq_iff_eq, Text.toLower_eq_iff rfl]
    replace ih : List.splitOn '.' (rest.map Char.toLower) = _ := ih
    simp only [Text.to_ascii_lowercase, List.map_cons, List.splitOn_cons_eq_if_modifyHead, hdot, ih, hsplit]
    split <;> rfl

/-- Whether a name is accepted does not depend on its case. -/
theorem problem_of_lowercase {name name' : Text}
    (h : (without_root_dot name).to_ascii_lowercase = (without_root_dot name').to_ascii_lowercase) :
    dns_entry_problem name = dns_entry_problem name' := by
  have hempty : ∀ s : Text, s.isEmpty = s.to_ascii_lowercase.isEmpty := fun s => by simp [Text.to_ascii_lowercase]
  have hcharset : ∀ s : Text, is_dns_charset s = is_dns_charset s.to_ascii_lowercase := by
    intro s
    simp only [is_dns_charset, Text.to_ascii_lowercase, List.all_map]
    exact congrArg (s.all ·) (funext fun c => (charset_toLower c).symm)
  have hlabels : ∀ s : Text, (s.splitOn '.').any List.isEmpty =
      (List.splitOn '.' s.to_ascii_lowercase).any List.isEmpty := by
    intro s
    rw [split_lowercase, List.any_map]
    exact congrArg ((s.splitOn '.').any ·) (funext hempty)
  have hlast : ∀ s : Text, ((s.splitOn '.').getLast?.any fun label => label.all Char.isDigit) =
      (List.splitOn '.' s.to_ascii_lowercase).getLast?.any fun label => label.all Char.isDigit := by
    intro s
    rw [split_lowercase, List.getLast?_map, Option.any_map]
    refine congrArg ((s.splitOn '.').getLast?.any ·) (funext fun label => ?_)
    simp [Text.to_ascii_lowercase, List.all_map, Function.comp_def, isDigit_toLower]
  simp only [dns_entry_problem]
  rw [hempty (without_root_dot name), hcharset (without_root_dot name), hlabels (without_root_dot name),
    hlast (without_root_dot name), h, ← hempty, ← hcharset, ← hlabels, ← hlast]

/-! ### What is accepted -/

section Accepted
variable {T : NetworkTypes}

/-- TCP targets are retried, bounds are not crossed, and names are names of hosts. -/
structure Sound (cfg : Config T) : Prop where
  retries : 1 ≤ cfg.max_tcp_target_retries
  rules : ∀ rule ∈ cfg.session_admission_rules, ∀ min max, rule.quota_range_min = some min →
    rule.quota_range_max = some max → min ≤ max
  names : ∀ name port, .Dns name port ∈ cfg.target_allow_list → HostName name

theorem errors_eq_nil {field : Field} {result : Except ValidationError Unit} :
    errors field result = [] ↔ result = .ok () := by
  cases result with
  | ok => simp [errors]
  | error e => simp [errors]

theorem quota_accepted_iff (rule : SessionAdmissionRule T) : validate_admission_rule_quota rule = .ok () ↔
    ∀ min max, rule.quota_range_min = some min → rule.quota_range_max = some max → min ≤ max := by
  unfold validate_admission_rule_quota
  split
  · next min max hmin hmax =>
    simp only [hmin, hmax, Option.some.injEq]
    by_cases hcrossed : max < min
    · rw [if_pos hcrossed]
      exact iff_of_false nofun fun h => UInt64.not_le.mpr hcrossed (h min max rfl rfl)
    · rw [if_neg hcrossed]
      exact iff_of_true rfl fun _ _ hmin hmax => hmin ▸ hmax ▸ UInt64.not_lt.mp hcrossed
  · next hunset =>
    exact iff_of_true rfl fun min max hmin hmax => absurd hmax (hunset min max hmin)

theorem entry_problem_eq_none {display : IpOrHost T → Text} {name : Text} {port : UInt16} :
    entry_problem display (.Dns name port) = none ↔ HostName name := by
  rw [entry_problem, Option.map_eq_none_iff, host_name_iff]

theorem list_accepted_iff (display : IpOrHost T → Text) (list : List (IpOrHost T)) :
    validate_target_allow_list display list = .ok () ↔ ∀ name port, .Dns name port ∈ list → HostName name := by
  have hnone : (list.filterMap (entry_problem display)).isEmpty = true ↔
      ∀ name port, .Dns name port ∈ list → HostName name := by
    rw [List.isEmpty_iff, List.filterMap_eq_nil_iff]
    constructor
    · exact fun h name port hmem => entry_problem_eq_none.mp (h _ hmem)
    · intro h entry hmem
      cases entry with
      | Dns name port => exact entry_problem_eq_none.mpr (h name port hmem)
      | Ip addr => rfl
  rw [← hnone]
  simp only [validate_target_allow_list]
  split
  · next hempty => exact iff_of_true rfl hempty
  · next hsome => exact iff_of_false nofun hsome

/-- One set has one report. -/
theorem report_of_perm (display : IpOrHost T → Text) {list list' : List (IpOrHost T)} (h : list.Perm list') :
    validate_target_allow_list display list = validate_target_allow_list display list' := by
  have hunusable : (list.filterMap (entry_problem display)).Perm (list'.filterMap (entry_problem display)) :=
    h.filterMap _
  have hsorted : ∀ texts : List Text, (texts.mergeSort fun a b => a ≤ b).Pairwise (· ≤ ·) := by
    intro texts
    have hpairwise : (texts.mergeSort fun a b => decide (a ≤ b)).Pairwise fun a b => decide (a ≤ b) = true :=
      List.pairwise_mergeSort
        (fun a b c hab hbc => decide_eq_true ((of_decide_eq_true hab).trans (of_decide_eq_true hbc)))
        (fun a b => by simpa using le_total a b) texts
    exact hpairwise.imp of_decide_eq_true
  have hsame : ((list.filterMap (entry_problem display)).mergeSort fun a b => a ≤ b) =
      (list'.filterMap (entry_problem display)).mergeSort fun a b => a ≤ b := by
    refine List.Perm.eq_of_pairwise' (hsorted _) (hsorted _) ?_
    exact (List.mergeSort_perm _ _).trans (hunusable.trans (List.mergeSort_perm _ _).symm)
  have hempty : (list.filterMap (entry_problem display)).isEmpty =
      (list'.filterMap (entry_problem display)).isEmpty := by
    rw [Bool.eq_iff_iff, List.isEmpty_iff, List.isEmpty_iff]
    exact ⟨fun heq => (heq ▸ hunusable).nil_eq.symm, fun heq => (heq ▸ hunusable).eq_nil⟩
  simp only [validate_target_allow_list, hsame, hempty]

/-- A name that is refused matches no name of a host. -/
theorem not_listed_of_problem {name host : Text} (hproblem : dns_entry_problem name ≠ none) (hhost : HostName host)
    (port listed_port : UInt16) : lists_name host port (.Dns name listed_port : IpOrHost T) = false := by
  rw [lists_name, Bool.and_eq_false_iff]
  right
  rw [Bool.eq_false_iff]
  intro hsame
  rw [Text.eq_ignore_ascii_case_iff] at hsame
  exact hproblem ((problem_of_lowercase hsame).trans ((host_name_iff host).mp hhost))

theorem find_rule_mem {rules : List (SessionAdmissionRule T)} {target : UnsealedTarget T}
    {rule : SessionAdmissionRule T} (h : find_rule rules target = some (some rule)) : rule ∈ rules := by
  induction rules with
  | nil => cases h
  | cons first rest ih =>
    rw [find_rule, Option.bind_eq_bind, Option.bind_eq_some_iff] at h
    obtain ⟨matched, _, h⟩ := h
    split at h
    · cases h
      exact List.mem_cons_self
    · exact List.mem_cons_of_mem _ (ih h)

/-- The decisions that are made of what a decision offers, none of them on an empty range. -/
inductive Decided {D : Type} [SessionAdmissionDecision D] : D → Prop where
  | default : Decided SessionAdmissionDecision.default
  | with_enforce_pix {decision : D} (h : Decided decision) (enforce_pix : Bool) :
      Decided (SessionAdmissionDecision.with_enforce_pix decision enforce_pix)
  | with_pix_quota_range {decision : D} (h : Decided decision) {range : UInt64 × UInt64} (hrange : range.1 ≤ range.2) :
      Decided (SessionAdmissionDecision.with_pix_quota_range decision range)

theorem decided_of_rule {D : Type} [SessionAdmissionDecision D] {rule : SessionAdmissionRule T}
    (hrule : ∀ min max, rule.quota_range_min = some min → rule.quota_range_max = some max → min ≤ max) :
    Decided (rule.decision : D) := by
  have hbounds : rule.quota_range_min.getD 0 ≤ rule.quota_range_max.getD (.ofNat (UInt64.size - 1)) := by
    cases hmin : rule.quota_range_min with
    | none => exact UInt64.zero_le
    | some min =>
      cases hmax : rule.quota_range_max with
      | none => exact UInt64.le_iff_toNat_le.mpr (Nat.le_sub_one_of_lt min.toNat_lt)
      | some max => exact hrule min max hmin hmax
  have hrange : ∀ decision : D, Decided decision →
      Decided (if rule.quota_range_min.isSome || rule.quota_range_max.isSome
        then SessionAdmissionDecision.with_pix_quota_range decision
          (rule.quota_range_min.getD 0, rule.quota_range_max.getD (.ofNat (UInt64.size - 1)))
        else decision) := by
    intro decision h
    split
    · exact h.with_pix_quota_range hbounds
    · exact h
  cases henforce : rule.enforce_pix with
  | none =>
    simp only [SessionAdmissionRule.decision, henforce]
    exact hrange _ .default
  | some enforce_pix =>
    simp only [SessionAdmissionRule.decision, henforce]
    exact hrange _ (.with_enforce_pix .default enforce_pix)

/-- A configuration is accepted if and only if it is sound; its report does not depend on the order of the set; a
name that is refused matches no name of a host; and under an accepted one nothing is decided on an empty range. -/
theorem accepted (display : IpOrHost T → Text) (cfg : Config T) :
    (validate display cfg = [] ↔ Sound cfg) ∧
    (∀ list, list.Perm cfg.target_allow_list →
      validate_target_allow_list display list = validate_target_allow_list display cfg.target_allow_list) ∧
    (∀ name listed_port host port, dns_entry_problem name ≠ none → HostName host →
      lists_name host port (.Dns name listed_port : IpOrHost T) = false) ∧
    (validate display cfg = [] → ∀ {H D : Type} [SessionAdmissionDecision D] (spawn_error : Option Text)
      (unsealed : H → Except Text (IpOrHost T)) (target : SessionTarget T H) (decision : D),
      admits cfg.session_admission_rules spawn_error unsealed target = some (.ok decision) → Decided decision) := by
  have hsound : validate display cfg = [] ↔ Sound cfg := by
    have hretries : (if cfg.max_tcp_target_retries < 1 then
        [(Field.max_tcp_target_retries, (⟨"range".toList, none⟩ : ValidationError))] else []) = [] ↔
          1 ≤ cfg.max_tcp_target_retries := by
      by_cases hnever : cfg.max_tcp_target_retries < 1
      · rw [if_pos hnever]
        exact iff_of_false nofun (UInt32.not_le.mpr hnever)
      · rw [if_neg hnever]
        exact iff_of_true rfl (UInt32.not_lt.mp hnever)
    have hrules : (cfg.session_admission_rules.zipIdx.flatMap fun (rule, index) =>
        errors (.session_admission_rules index) (validate_admission_rule_quota rule)) = [] ↔
          ∀ rule ∈ cfg.session_admission_rules, ∀ min max, rule.quota_range_min = some min →
            rule.quota_range_max = some max → min ≤ max := by
      rw [List.flatMap_eq_nil_iff]
      constructor
      · intro h rule hrule
        obtain ⟨index, hindex⟩ := List.mem_iff_getElem?.mp hrule
        exact (quota_accepted_iff rule).mp (errors_eq_nil.mp (h _ (List.mk_mem_zipIdx_iff_getElem?.mpr hindex)))
      · intro h entry hentry
        exact errors_eq_nil.mpr ((quota_accepted_iff entry.1).mpr (h entry.1 (List.fst_mem_of_mem_zipIdx hentry)))
    rw [validate, List.append_eq_nil_iff, List.append_eq_nil_iff, errors_eq_nil, list_accepted_iff, hretries, hrules]
    exact ⟨fun ⟨⟨hnames, hretries⟩, hrules⟩ => ⟨hretries, hrules, hnames⟩,
      fun ⟨hretries, hrules, hnames⟩ => ⟨⟨hnames, hretries⟩, hrules⟩⟩
  refine ⟨hsound, fun _ hperm => report_of_perm display hperm, ?_, ?_⟩
  · exact fun name listed_port host port hproblem hhost => not_listed_of_problem hproblem hhost port listed_port
  · intro haccepted H D _ spawn_error unsealed target decision hadmits
    have hrules := (hsound.mp haccepted).rules
    simp only [admits] at hadmits
    split at hadmits
    · cases hadmits
      exact .default
    split at hadmits
    · cases hadmits
    split at hadmits
    · cases hadmits
    · rw [Option.bind_eq_bind, Option.bind_eq_some_iff] at hadmits
      obtain ⟨found, hfound, hadmits⟩ := hadmits
      cases found with
      | none =>
        cases hadmits
        exact .default
      | some rule =>
        cases hadmits
        exact decided_of_rule (hrules rule (find_rule_mem hfound))

end Accepted

/-- An address without its last number is a name that no host has. -/
example : dns_entry_problem "172.30.0".toList = some "last label is numeric, like a mistyped IPv4 address".toList ∧
    dns_entry_problem "gnosisvpnserver.".toList = none := by decide

end Hopr.SessionServerForwarder.Validation
