import Hopr.Connector.Sequencer
import Hopr.Library.Text

/-! The chain info, and the times computed with it.

`model_to_chain_info` converts what the server says of the chain, field by
field; the first field that is not read is named in the error. Finality and
block time are read as numbers of 32 and 64 bits and raised to one at least.

Three times are computed from them, with a product of 32 bits that wraps or
panics (as the program is built) and products of durations that panic. What the
server says may be out of their range although it is converted:
`times_computed_iff` is the exact condition for all three to be computed. -/
namespace Hopr.Connector.ChainValues
open Library

/-! ### Durations -/

def Duration.from_secs (secs : Nat) : Duration := secs * 10 ^ 9

/-- As many seconds as 64 bits count, and 999999999 nanoseconds. -/
def Duration.MAX : Duration := Duration.from_secs UInt64.size - 1

/-- The product with a scalar; `none` where it panics. -/
def Duration.mul (d : Duration) (n : UInt32) : Option Duration :=
  if d * n.toNat ≤ Duration.MAX then some (d * n.toNat) else none

/-- The product; where it overflows it panics if the program is built with overflow checks, and wraps if not. -/
def u32_mul (overflow_checks : Bool) (a b : UInt32) : Option UInt32 :=
  if overflow_checks && UInt32.size ≤ a.toNat * b.toNat then none else some (a * b)

/-! ### Conversion -/

inductive ConnectorError where
  | TypeConversion (message : Text)
deriving DecidableEq

/-- What is read outside of the repository; what is not read has an error that is displayed. -/
structure ChainTypes where
  HoprBalance : Type
  WinningProbability : Type
  Hash : Type
  ContractAddresses : Type
  /-- JSON. -/
  Value : Type
  F64 : Type
  balance_from_str : Text → Except Text HoprBalance
  hash_from_hex : Text → Except Text Hash
  win_prob_try_from_f64 : F64 → Except Text WinningProbability
  value_from_str : Text → Except Text Value
  as_object : Value → Option (List (Text × Value))
  object : List (Text × Value) → Value
  string : Text → Value
  /-- The zero address, as displayed. -/
  default_address : Text
  addresses_from_value : Value → Except Text ContractAddresses
  default_max_fee_per_gas : Nat
  default_max_priority_fee_per_gas : Nat

/-- What the server says of the chain; large numbers are texts. -/
structure BlokliChainInfo (F64 : Type) where
  channel_closure_grace_period : Text
  ledger_dst : Option Text
  safe_registry_dst : Option Text
  channel_dst : Option Text
  key_binding_fee : Text
  max_fee_per_gas : Option Text
  max_priority_fee_per_gas : Option Text
  chain_id : Int32
  network : Text
  contract_addresses : Text
  min_ticket_winning_probability : F64
  ticket_price : Text
  finality : Text
  expected_block_time : Text

structure DomainSeparators (T : ChainTypes) where
  ledger : T.Hash
  safe_registry : T.Hash
  channel : T.Hash

structure ChainInfo (T : ChainTypes) where
  chain_id : UInt64
  hopr_network_name : Text
  contract_addresses : T.ContractAddresses

structure ParsedChainInfo (T : ChainTypes) where
  channel_closure_grace_period : Duration
  domain_separators : DomainSeparators T
  key_binding_fee : T.HoprBalance
  max_fee_per_gas : Nat
  max_priority_fee_per_gas : Nat
  info : ChainInfo T
  ticket_win_prob : T.WinningProbability
  ticket_price : T.HoprBalance
  finality : UInt32
  expected_block_time : Duration

section Conversion
variable (T : ChainTypes)

/-- An error is displayed behind what is not read. -/
def type_conversion {α : Type} (what : String) : Except Text α → Except ConnectorError α
  | .ok a => .ok a
  | .error e => .error (.TypeConversion (what.toList ++ e))

/-- Deployments from before the service registry have the zero address for it. -/
def parse_contract_addresses (raw : Text) : Except ConnectorError T.ContractAddresses := do
  let addresses ← type_conversion "invalid contract addresses JSON: " (T.value_from_str raw)
  match T.as_object addresses with
  | none => .error (.TypeConversion "invalid contract addresses JSON: expected an object".toList)
  | some object =>
    let key := "service_registry".toList
    let object :=
      if object.any (·.1 = key) then object else object ++ [(key, T.string T.default_address)]
    type_conversion "invalid contract addresses JSON: " (T.addresses_from_value (T.object object))

def domain_separator (missing invalid : String) : Option Text → Except ConnectorError T.Hash
  | none => .error (.TypeConversion missing.toList)
  | some v => type_conversion invalid (T.hash_from_hex v)

def parse_fee (raw : Option Text) (default : Nat) : Nat :=
  (raw.bind fun raw => (raw.parse_unsigned (2 ^ 128)).toOption).getD default

def model_to_chain_info (model : BlokliChainInfo T.F64) : Except ConnectorError (ParsedChainInfo T) := do
  let channel_closure_grace_period ← type_conversion "invalid channel grace period: "
    (model.channel_closure_grace_period.parse_unsigned UInt64.size)
  let ledger ← domain_separator T "missing ledger dst" "invalid ledger dst: " model.ledger_dst
  let safe_registry ← domain_separator T "missing safe registry dst" "invalid safe registry dst: "
    model.safe_registry_dst
  let channel ← domain_separator T "missing channel dst" "invalid channel dst: " model.channel_dst
  let key_binding_fee ← type_conversion "invalid key binding fee: " (T.balance_from_str model.key_binding_fee)
  let max_fee_per_gas := parse_fee model.max_fee_per_gas T.default_max_fee_per_gas
  let max_priority_fee_per_gas :=
    min (parse_fee model.max_priority_fee_per_gas T.default_max_priority_fee_per_gas)
      (parse_fee model.max_fee_per_gas T.default_max_fee_per_gas)
  let contract_addresses ← parse_contract_addresses T model.contract_addresses
  let ticket_win_prob ← type_conversion "invalid winning probability info: "
    (T.win_prob_try_from_f64 model.min_ticket_winning_probability)
  let ticket_price ← type_conversion "invalid ticket price: " (T.balance_from_str model.ticket_price)
  let finality ← type_conversion "failed to parse finality: " (model.finality.parse_unsigned UInt32.size)
  let expected_block_time ← type_conversion "failed to parse expected block time: "
    (model.expected_block_time.parse_unsigned UInt64.size)
  return {
    channel_closure_grace_period := Duration.from_secs channel_closure_grace_period
    domain_separators := ⟨ledger, safe_registry, channel⟩
    key_binding_fee := key_binding_fee
    max_fee_per_gas := max_fee_per_gas
    max_priority_fee_per_gas := max_priority_fee_per_gas
    info := ⟨model.chain_id.toInt64.toUInt64, model.network, contract_addresses⟩
    ticket_win_prob := ticket_win_prob
    ticket_price := ticket_price
    finality := max (.ofNat finality) 1
    expected_block_time := max (Duration.from_secs expected_block_time) (Duration.from_secs 1) }

end Conversion

/-! ### Times -/

section Times
variable {T : ChainTypes}

def MIN_TX_CONFIRM_TIMEOUT : Duration := Duration.from_secs 1

/-- For how long `send_tx` has the confirmation of a transaction waited for. -/
def tx_timeout (overflow_checks : Bool) (tx_timeout_multiplier : UInt32) (custom_tx_multiplier : Option UInt32)
    (chain_info : ParsedChainInfo T) : Option Duration := do
  let blocks ← u32_mul overflow_checks (max (custom_tx_multiplier.getD tx_timeout_multiplier) 1) chain_info.finality
  let tx_timeout ← Duration.mul chain_info.expected_block_time blocks
  return max tx_timeout MIN_TX_CONFIRM_TIMEOUT

/-- Of the connector, from its cached chain info. -/
def typical_resolution_time (chain_info : ParsedChainInfo T) : Option Duration :=
  Duration.mul chain_info.expected_block_time chain_info.finality

/-- Of the reader, from what the server says. -/
def reader_typical_resolution_time (model : BlokliChainInfo T.F64) : Except ConnectorError (Option Duration) := do
  let info ← model_to_chain_info T model
  return Duration.mul info.expected_block_time info.finality

end Times

/-! ### When the times are computed -/

section Products
variable {overflow_checks : Bool} {a b : UInt32} {d : Duration} {n : UInt32}

theorem mul_of_le (h : d * n.toNat ≤ Duration.MAX) : Duration.mul d n = some (d * n.toNat) := if_pos h

theorem le_of_mul {t : Duration} (h : Duration.mul d n = some t) : t = d * n.toNat ∧ d * n.toNat ≤ Duration.MAX := by
  unfold Duration.mul at h
  split at h
  · next hle => exact ⟨(Option.some.inj h).symm, hle⟩
  · cases h

theorem u32_mul_of_lt (h : a.toNat * b.toNat < UInt32.size) :
    u32_mul overflow_checks a b = some (a * b) ∧ (a * b).toNat = a.toNat * b.toNat := by
  have hfits : ¬ (overflow_checks && decide (UInt32.size ≤ a.toNat * b.toNat)) = true := by
    simp [Nat.not_le.mpr h]
  exact ⟨if_neg hfits, by rw [UInt32.toNat_mul]; exact Nat.mod_eq_of_lt h⟩

/-- What is computed although it overflows is less than the product. -/
theorem lt_of_u32_mul {c : UInt32} (h : u32_mul overflow_checks a b = some c)
    (hover : UInt32.size ≤ a.toNat * b.toNat) : c.toNat < a.toNat * b.toNat := by
  unfold u32_mul at h
  split at h
  · cases h
  · cases h
    exact Nat.lt_of_lt_of_le (UInt32.toNat_lt _) hover

end Products

section Exact
variable {T : ChainTypes} {overflow_checks : Bool} {tx_timeout_multiplier : UInt32}
  {custom_tx_multiplier : Option UInt32} {chain_info : ParsedChainInfo T}

theorem one_le_max_one (a : UInt32) : 1 ≤ (max a 1).toNat ∧ (max a 1).toNat = max a.toNat 1 := by
  have hmax : max a 1 = if a ≤ 1 then 1 else a := rfl
  rw [hmax]
  split
  · next h =>
    have hle : a.toNat ≤ 1 := UInt32.le_iff_toNat_le.mp h
    exact ⟨Nat.le_refl 1, (Nat.max_eq_right hle).symm⟩
  · next h =>
    have hlt : 1 ≤ a.toNat := by
      rw [UInt32.le_iff_toNat_le] at h
      exact Nat.le_of_lt (Nat.lt_of_not_le h)
    exact ⟨hlt, (Nat.max_eq_left hlt).symm⟩

/-- A product that wraps is too small to be made up for. -/
theorem tx_timeout_iff (hblock : Duration.from_secs 1 ≤ chain_info.expected_block_time)
    (hfinality : 1 ≤ chain_info.finality.toNat) :
    let multiplier := max (custom_tx_multiplier.getD tx_timeout_multiplier) 1
    tx_timeout overflow_checks tx_timeout_multiplier custom_tx_multiplier chain_info =
        some (chain_info.expected_block_time * (multiplier.toNat * chain_info.finality.toNat)) ↔
      multiplier.toNat * chain_info.finality.toNat < UInt32.size ∧
      chain_info.expected_block_time * (multiplier.toNat * chain_info.finality.toNat) ≤ Duration.MAX := by
  intro multiplier
  have hmultiplier : 1 ≤ multiplier.toNat := (one_le_max_one _).1
  have hblocks : 1 ≤ multiplier.toNat * chain_info.finality.toNat := Nat.mul_pos hmultiplier hfinality
  have hmin : MIN_TX_CONFIRM_TIMEOUT ≤
      chain_info.expected_block_time * (multiplier.toNat * chain_info.finality.toNat) :=
    Nat.le_trans hblock (Nat.le_mul_of_pos_right _ hblocks)
  have hpositive : 0 < chain_info.expected_block_time := Nat.lt_of_lt_of_le (by decide) hblock
  constructor
  · intro h
    obtain ⟨blocks, hmul, hrest⟩ := Option.bind_eq_some_iff.mp h
    obtain ⟨timeout, htimeout, hreturn⟩ := Option.bind_eq_some_iff.mp hrest
    obtain ⟨rfl, hle⟩ := le_of_mul htimeout
    have hmax : max (chain_info.expected_block_time * blocks.toNat) MIN_TX_CONFIRM_TIMEOUT =
        chain_info.expected_block_time * (multiplier.toNat * chain_info.finality.toNat) := Option.some.inj hreturn
    have hlt : multiplier.toNat * chain_info.finality.toNat < UInt32.size := by
      by_contra hover
      have hless := Nat.mul_lt_mul_of_pos_left (lt_of_u32_mul hmul (Nat.le_of_not_lt hover)) hpositive
      have hlarge : Duration.from_secs 1 * UInt32.size ≤
          chain_info.expected_block_time * (multiplier.toNat * chain_info.finality.toNat) :=
        Nat.mul_le_mul hblock (Nat.le_of_not_lt hover)
      have hmore : MIN_TX_CONFIRM_TIMEOUT < Duration.from_secs 1 * UInt32.size := by decide
      obtain hsmall | hlarger := Nat.le_total (chain_info.expected_block_time * blocks.toNat) MIN_TX_CONFIRM_TIMEOUT
      · rw [Nat.max_eq_right hsmall] at hmax
        rw [← hmax] at hlarge
        exact Nat.not_le.mpr hmore hlarge
      · rw [Nat.max_eq_left hlarger] at hmax
        exact Nat.ne_of_lt hless hmax
    obtain ⟨hproduct, hexact⟩ := @u32_mul_of_lt overflow_checks _ _ hlt
    rw [hproduct] at hmul
    cases hmul
    rw [hexact] at hle
    exact ⟨hlt, hle⟩
  · intro ⟨hlt, hle⟩
    obtain ⟨hproduct, hexact⟩ := @u32_mul_of_lt overflow_checks _ _ hlt
    rw [← hexact] at hle
    unfold tx_timeout
    rw [hproduct, Option.bind_eq_bind, Option.bind_some, mul_of_le hle, Option.bind_eq_bind, Option.bind_some,
      hexact]
    exact congrArg some (Nat.max_eq_left hmin)

end Exact

theorem secs_le_iff {secs n : Nat} : Duration.from_secs secs * n ≤ Duration.MAX ↔ secs * n < UInt64.size := by
  have hsecs : Duration.from_secs secs * n = secs * n * 10 ^ 9 := Nat.mul_right_comm secs (10 ^ 9) n
  have hle : ∀ p : Nat, p * 10 ^ 9 ≤ UInt64.size * 10 ^ 9 - 1 ↔ p < UInt64.size := by
    intro p
    simp only [UInt64.size]
    omega
  rw [hsecs]
  exact hle (secs * n)

/-! ### What is converted -/

section Converted
variable {T : ChainTypes} {model : BlokliChainInfo T.F64} {chain_info : ParsedChainInfo T}

theorem bind_eq_ok {α β : Type} {x : Except ConnectorError α} {f : α → Except ConnectorError β} {b : β}
    (h : (x >>= f) = .ok b) : ∃ a, x = .ok a ∧ f a = .ok b := by
  cases x with
  | error e => cases h
  | ok a => exact ⟨a, rfl, h⟩

theorem of_type_conversion {α : Type} {what : String} {x : Except Text α} {a : α}
    (h : type_conversion what x = .ok a) : x = .ok a := by
  cases x with
  | error e => cases h
  | ok b => cases h; rfl

/-- Any number that is read is converted. -/
theorem of_model_to_chain_info (h : model_to_chain_info T model = .ok chain_info) :
    ∃ finality secs, model.finality.parse_unsigned UInt32.size = .ok finality ∧
      model.expected_block_time.parse_unsigned UInt64.size = .ok secs ∧
      chain_info.finality.toNat = max finality 1 ∧
      chain_info.expected_block_time = Duration.from_secs (max secs 1) := by
  unfold model_to_chain_info at h
  obtain ⟨_, _, h⟩ := bind_eq_ok h
  obtain ⟨_, _, h⟩ := bind_eq_ok h
  obtain ⟨_, _, h⟩ := bind_eq_ok h
  obtain ⟨_, _, h⟩ := bind_eq_ok h
  obtain ⟨_, _, h⟩ := bind_eq_ok h
  obtain ⟨_, _, h⟩ := bind_eq_ok h
  obtain ⟨_, _, h⟩ := bind_eq_ok h
  obtain ⟨_, _, h⟩ := bind_eq_ok h
  obtain ⟨finality, hfinality, h⟩ := bind_eq_ok h
  obtain ⟨secs, hsecs, h⟩ := bind_eq_ok h
  cases h
  have hread := of_type_conversion hfinality
  refine ⟨finality, secs, hread, of_type_conversion hsecs, ?_, ?_⟩
  · have hlt : finality < UInt32.size := Text.parse_unsigned_lt (by decide) hread
    show (max (UInt32.ofNat finality) 1).toNat = _
    rw [(one_le_max_one _).2, UInt32.toNat_ofNat_of_lt' hlt]
  · show max (Duration.from_secs secs) (Duration.from_secs 1) = _
    exact Nat.mul_max_mul_right secs 1 (10 ^ 9)

end Converted

/-- Of chain info that is converted the three times are computed, each as the product it is meant to be, if
and only if the numbers in the payload and the multiplier, raised to one each, have a product below `2 ^ 32`
(without the block time) and below `2 ^ 64` (with it); however the program is built. -/
theorem times_computed_iff {T : ChainTypes} {model : BlokliChainInfo T.F64} {chain_info : ParsedChainInfo T}
    (h : model_to_chain_info T model = .ok chain_info) (overflow_checks : Bool) (tx_timeout_multiplier : UInt32)
    (custom_tx_multiplier : Option UInt32) :
    let multiplier := max (custom_tx_multiplier.getD tx_timeout_multiplier) 1
    (tx_timeout overflow_checks tx_timeout_multiplier custom_tx_multiplier chain_info =
        some (chain_info.expected_block_time * (multiplier.toNat * chain_info.finality.toNat)) ∧
      typical_resolution_time chain_info = some (chain_info.expected_block_time * chain_info.finality.toNat) ∧
      reader_typical_resolution_time model =
        .ok (some (chain_info.expected_block_time * chain_info.finality.toNat))) ↔
    ∃ finality secs, model.finality.parse_unsigned UInt32.size = .ok finality ∧
      model.expected_block_time.parse_unsigned UInt64.size = .ok secs ∧
      multiplier.toNat * max finality 1 < UInt32.size ∧
      max secs 1 * (multiplier.toNat * max finality 1) < UInt64.size := by
  intro multiplier
  obtain ⟨finality, secs, hfinality, hsecs, hblocks, htime⟩ := of_model_to_chain_info h
  have hone : 1 ≤ chain_info.finality.toNat := by
    rw [hblocks]
    exact Nat.le_max_right finality 1
  have hblock : Duration.from_secs 1 ≤ chain_info.expected_block_time := by
    rw [htime]
    exact Nat.mul_le_mul_right (10 ^ 9) (Nat.le_max_right secs 1)
  have hreader : reader_typical_resolution_time model = .ok (typical_resolution_time chain_info) := by
    unfold reader_typical_resolution_time
    rw [h]
    rfl
  have htimeout : tx_timeout overflow_checks tx_timeout_multiplier custom_tx_multiplier chain_info =
        some (chain_info.expected_block_time * (multiplier.toNat * chain_info.finality.toNat)) ↔
      multiplier.toNat * chain_info.finality.toNat < UInt32.size ∧
      chain_info.expected_block_time * (multiplier.toNat * chain_info.finality.toNat) ≤ Duration.MAX :=
    tx_timeout_iff hblock hone
  rw [hreader, htimeout]
  constructor
  · intro ⟨⟨hlt, hle⟩, _, _⟩
    rw [hblocks] at hlt
    rw [hblocks, htime, secs_le_iff] at hle
    exact ⟨finality, secs, hfinality, hsecs, hlt, hle⟩
  · intro ⟨finality', secs', hfinality', hsecs', hlt, hle⟩
    rw [hfinality] at hfinality'
    cases hfinality'
    rw [hsecs] at hsecs'
    cases hsecs'
    rw [← hblocks] at hlt
    rw [← hblocks, ← secs_le_iff, ← htime] at hle
    have hmultiplier : 1 ≤ multiplier.toNat := (one_le_max_one _).1
    have hsmaller : chain_info.expected_block_time * chain_info.finality.toNat ≤ Duration.MAX :=
      Nat.le_trans (Nat.mul_le_mul_left _ (Nat.le_mul_of_pos_left _ hmultiplier)) hle
    have htypical : typical_resolution_time chain_info =
        some (chain_info.expected_block_time * chain_info.finality.toNat) := mul_of_le hsmaller
    exact ⟨⟨hlt, hle⟩, htypical, congrArg Except.ok htypical⟩

/-! ### Plain payloads

Balances are whole numbers of tokens, and the addresses a JSON object of strings. -/

namespace Plain

inductive Value where
  | string (s : Text)
  | object (members : List (Text × Text))

def hex (length : Nat) (s : Text) : Except Text Text :=
  match Text.strip_prefix s ['0', 'x'] with
  | some digits =>
    if digits.length = length && digits.all fun c => c.isDigit || 'a' ≤ c && c ≤ 'f'
    then .ok digits
    else .error "invalid input".toList
  | none => .error "invalid input".toList

def balance (s : Text) : Except Text Nat :=
  match s.strip_suffix " wxHOPR".toList with
  | some amount => (amount.parse_unsigned (2 ^ 128)).map (· * 10 ^ 18)
  | none => .error "invalid input".toList

def quoted (s : Text) : Option Text := (Text.strip_prefix s ['"']).bind (Text.strip_suffix · ['"'])

def read_object (s : Text) : Option (List (Text × Text)) := do
  let inner ← (Text.strip_prefix s ['\x7b']).bind (Text.strip_suffix · ['\x7d'])
  (inner.splitOn ',').mapM fun (m : Text) => do
    let (name, value) ← m.split_once ':'
    return (← quoted name, ← quoted value)

def contracts : List String :=
  ["announcements", "channels", "module_implementation", "node_safe_migration", "node_safe_registry",
    "node_stake_factory", "service_registry", "ticket_price_oracle", "token", "winning_probability_oracle",
    "xhopr_token"]

def types : ChainTypes where
  HoprBalance := Nat
  WinningProbability := Nat
  Hash := Text
  ContractAddresses := List Text
  Value := Value
  F64 := Nat
  balance_from_str := balance
  hash_from_hex := hex 64
  win_prob_try_from_f64 p := if p ≤ 1 then .ok (p * (2 ^ 56 - 1)) else .error "invalid input".toList
  value_from_str s := match read_object s with
    | some members => .ok (.object members)
    | none => .error "expected value at line 1 column 1".toList
  as_object
    | .object members => some (members.map fun m => (m.1, .string m.2))
    | .string _ => none
  object members := .object (members.filterMap fun m => match m.2 with
    | .string s => some (m.1, s)
    | .object _ => none)
  string := .string
  default_address := '0' :: 'x' :: List.replicate 40 '0'
  addresses_from_value
    | .object members => contracts.mapM fun name => match members.lookup name.toList with
      | some address => hex 40 address
      | none => .error ("missing field ".toList ++ name.toList)
    | .string _ => .error "invalid type".toList
  default_max_fee_per_gas := 3 * 10 ^ 9
  default_max_priority_fee_per_gas := 10 ^ 8

/-- All addresses are zero; the service registry has none. -/
def payload (finality expected_block_time : String) : BlokliChainInfo Nat where
  channel_closure_grace_period := "300".toList
  ledger_dst := some ('0' :: 'x' :: List.replicate 64 '0')
  safe_registry_dst := some ('0' :: 'x' :: List.replicate 64 '0')
  channel_dst := some ('0' :: 'x' :: List.replicate 64 '0')
  key_binding_fee := "1 wxHOPR".toList
  max_fee_per_gas := none
  max_priority_fee_per_gas := some "2000000000".toList
  chain_id := 100
  network := "piz-palu-staging".toList
  contract_addresses := '\x7b' :: (List.intercalate [','] ((contracts.filter (· ≠ "service_registry")).map fun name =>
    '"' :: name.toList ++ ['"', ':', '"', '0', 'x'] ++ List.replicate 40 '0' ++ ['"'])) ++ ['\x7d']
  min_ticket_winning_probability := 1
  ticket_price := "1 wxHOPR".toList
  finality := finality.toList
  expected_block_time := expected_block_time.toList

end Plain

/-- With finality 3 and blocks of 5 seconds the times are computed. -/
theorem times_computed_payload : ∃ chain_info,
    model_to_chain_info Plain.types (Plain.payload "3" "5") = .ok chain_info ∧
    tx_timeout true 2 none chain_info =
      some (chain_info.expected_block_time * ((max 2 1 : UInt32).toNat * chain_info.finality.toNat)) := by
  have hok : (model_to_chain_info Plain.types (Plain.payload "3" "5")).isOk = true := by decide +kernel
  cases h : model_to_chain_info Plain.types (Plain.payload "3" "5") with
  | error e =>
    rw [h] at hok
    cases hok
  | ok chain_info =>
    have htimes := times_computed_iff h true 2 none
    exact ⟨chain_info, rfl, (htimes.mpr ⟨3, 5, rfl, rfl, by decide, by decide⟩).1⟩

/-- Payloads that are converted: blocks that take as many seconds as 64 bits count are too long for each of
the products, and with as many blocks as 32 bits count the timeout panics or is half of what it should be. -/
theorem converted_times_overflow :
    (model_to_chain_info Plain.types (Plain.payload "2" "18446744073709551615")).toOption.map (fun chain_info =>
      (tx_timeout true 2 none chain_info, tx_timeout false 2 none chain_info,
        typical_resolution_time chain_info)) = some (none, none, none) ∧
    (@reader_typical_resolution_time Plain.types (Plain.payload "2" "18446744073709551615")).toOption = some none ∧
    (model_to_chain_info Plain.types (Plain.payload "4294967295" "5")).toOption.map (fun chain_info =>
      (tx_timeout true 2 none chain_info, tx_timeout false 2 none chain_info,
        chain_info.expected_block_time * (2 * chain_info.finality.toNat))) =
      some (none, some (Duration.from_secs 21474836470), Duration.from_secs 42949672950) := by
  decide +kernel

end Hopr.Connector.ChainValues
