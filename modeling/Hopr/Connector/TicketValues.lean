import Hopr.Connector.ChainValues
import Hopr.Library.Cache
import Hopr.Library.Machine

/-! The ticket parameters in force.

The ticket price and the minimum winning probability are kept twice:
`ticket_values` has the pair alone, and the cache has it within the chain info.
An update is taken into `ticket_values` first, then into the cache if there is an
entry; how the entry differs from the update makes the events, and where there is
no entry the update is announced as a change from nothing.

The cache is emptied at any time, and filled from the chain by whoever asks next.
What the client sends, what the chain shows and how loads turn out is the
environment's. After an update both stores agree, in any run (`stores_agree`). Its
events are right if and only if the entry differs from the update as the pair in
force does, or there is none and that happens to look the same
(`announces_iff`). -/
namespace Hopr.Connector.TicketValues
open Library ChainValues

/-- Winning probabilities, compared up to a tolerance. -/
class WinningProbability (W : Type) where
  /-- Tickets always win. -/
  default : W
  approx_eq : W → W → Bool
  approx_cmp : W → W → Ordering

open WinningProbability (approx_eq approx_cmp)

/-- As if the tolerance made classes of probabilities. -/
class LawfulWinningProbability (W : Type) [WinningProbability W] : Prop where
  equivalence : Equivalence fun a b : W => approx_eq a b = true
  cmp_eq_iff (a b : W) : approx_cmp a b = .eq ↔ approx_eq a b = true
  cmp_congr (a a' b b' : W) : approx_eq a a' = true → approx_eq b b' = true → approx_cmp a b = approx_cmp a' b'

/-! ### Updates -/

abbrev TicketParams (T : ChainTypes) := T.HoprBalance × T.WinningProbability

inductive SubscribedEventType (T : ChainTypes) where
  | WinningProbability (new : T.WinningProbability) (old : Option T.WinningProbability)
  | TicketPrice (new : T.HoprBalance) (old : Option T.HoprBalance)

inductive ChainEvent (T : ChainTypes) where
  | TicketPriceChanged (price : T.HoprBalance)
  | WinningProbabilityIncreased (win_prob : T.WinningProbability)
  | WinningProbabilityDecreased (win_prob : T.WinningProbability)

section Update
variable {T : ChainTypes} [WinningProbability T.WinningProbability]

def broadcast : SubscribedEventType T → List (ChainEvent T)
  | .WinningProbability new old =>
    match approx_cmp new (old.getD WinningProbability.default) with
    | .lt => [.WinningProbabilityDecreased new]
    | .gt => [.WinningProbabilityIncreased new]
    | .eq => []
  | .TicketPrice new _ => [.TicketPriceChanged new]

variable [DecidableEq T.HoprBalance]

/-- What becomes of `ticket_values`. -/
def update_ticket_values (ticket_values : Option (T.WinningProbability × T.HoprBalance)) :
    TicketParams T → Option (T.WinningProbability × T.HoprBalance)
  | (new_ticket_price, new_win_prob) =>
    match ticket_values with
    | some (current_win_prob, current_ticket_price) =>
      if current_ticket_price ≠ new_ticket_price ∧ !approx_eq current_win_prob new_win_prob
      then some (new_win_prob, new_ticket_price)
      else if current_ticket_price ≠ new_ticket_price then some (current_win_prob, new_ticket_price)
      else if !approx_eq current_win_prob new_win_prob then some (new_win_prob, current_ticket_price)
      else ticket_values
    | none => none

/-- The events of an update, and the entry that is put for the cached one, if one is. -/
def update_chain_info (cached_entry : Option (ParsedChainInfo T)) :
    TicketParams T → List (SubscribedEventType T) × Option (ParsedChainInfo T)
  | (new_ticket_price, new_win_prob) =>
    match cached_entry with
    | some chain_info =>
      let price_differs := chain_info.ticket_price ≠ new_ticket_price
      let win_prob_differs := !approx_eq chain_info.ticket_win_prob new_win_prob
      let events :=
        (if price_differs then [.TicketPrice new_ticket_price (some chain_info.ticket_price)] else []) ++
        (if win_prob_differs then [.WinningProbability new_win_prob (some chain_info.ticket_win_prob)] else [])
      let chain_info := {chain_info with
        ticket_price := if price_differs then new_ticket_price else chain_info.ticket_price
        ticket_win_prob := if win_prob_differs then new_win_prob else chain_info.ticket_win_prob}
      (events, if events.isEmpty then none else some chain_info)
    | none => ([.TicketPrice new_ticket_price none, .WinningProbability new_win_prob none], none)

end Update

/-! ### Runs -/

def CHAIN_INFO_CACHE_KEY : UInt32 := 0

structure State (T : ChainTypes) where
  /-- What the chain shows. -/
  chain : ParsedChainInfo T
  /-- The updates that are sent and not received, the oldest first. -/
  sent : List (TicketParams T)
  ticket_values : Option (T.WinningProbability × T.HoprBalance)
  values : Cache UInt32 (ParsedChainInfo T)
  /-- The update that is in `ticket_values` and not in the cache yet. -/
  received : Option (TicketParams T)
  /-- The last update, or what was read when the connector connected. -/
  in_force : TicketParams T
  /-- What was broadcast. -/
  events : List (ChainEvent T)

inductive Action (T : ChainTypes) where
  /-- The chain shows other values, and an update is sent. -/
  | publish (info : ParsedChainInfo T)
  | receive
  | apply
  /-- A step of a query of the chain info, or an eviction. -/
  | query (action : Cache.Action UInt32)
  /-- Queries fail, or nobody waits for them anymore. -/
  | query_failed
  | invalidate_caches

namespace State
variable {T : ChainTypes}

/-- The connector has connected, and read `info`. -/
def connected (info chain : ParsedChainInfo T) (sent : List (TicketParams T))
    (values : Cache UInt32 (ParsedChainInfo T)) : State T :=
  ⟨chain, sent, some (info.ticket_win_prob, info.ticket_price), values, none,
    (info.ticket_price, info.ticket_win_prob), []⟩

def cached (s : State T) : Option (ParsedChainInfo T) := s.values.entries CHAIN_INFO_CACHE_KEY

/-- What is put into the cache, if something is. -/
def put (values : Cache UInt32 (ParsedChainInfo T)) :
    Option (ParsedChainInfo T) → Cache UInt32 (ParsedChainInfo T)
  | some chain_info => values.insert CHAIN_INFO_CACHE_KEY chain_info
  | none => values

def step [DecidableEq T.HoprBalance] [WinningProbability T.WinningProbability] (s : State T) :
    Action T → Option (State T)
  | .publish info =>
    some {s with chain := info, sent := s.sent ++ [(info.ticket_price, info.ticket_win_prob)]}
  | .receive =>
    match s.received, s.sent with
    | none, params :: sent =>
      let ticket_values := update_ticket_values s.ticket_values params
      some {s with sent, ticket_values, received := some params}
    | _, _ => none
  | .apply =>
    match s.received with
    | some params =>
      let (events, entry) := update_chain_info s.cached params
      -- A broadcast reads nothing but its event, and is taken together with what makes it.
      some {s with
        values := put s.values entry
        received := none
        in_force := params
        events := s.events ++ events.flatMap broadcast }
    | none => none
  | .query action => (s.values.act (fun _ => s.chain) action).map fun values => {s with values}
  | .query_failed => some {s with values := {s.values with loading := fun _ => none}}
  | .invalidate_caches => some {s with values := {s.values with entries := fun _ => none}}

end State

def machine (T : ChainTypes) [DecidableEq T.HoprBalance] [WinningProbability T.WinningProbability] :
    Machine (State T) (Action T) where
  step := State.step

/-! ### What an update should do -/

section Spec
variable {T : ChainTypes} [WinningProbability T.WinningProbability]

/-- The store has the pair, the winning probability up to the tolerance. -/
def Holds (params : TicketParams T) (price : T.HoprBalance) (win_prob : T.WinningProbability) : Prop :=
  price = params.1 ∧ approx_eq win_prob params.2 = true

/-- The events tell the change from one pair to another. -/
structure Announced (events : List (ChainEvent T)) (old new : TicketParams T) : Prop where
  once : events.Nodup
  price : ∀ price, .TicketPriceChanged price ∈ events ↔ price = new.1 ∧ old.1 ≠ new.1
  increased : ∀ win_prob, .WinningProbabilityIncreased win_prob ∈ events ↔
    win_prob = new.2 ∧ approx_cmp new.2 old.2 = .gt
  decreased : ∀ win_prob, .WinningProbabilityDecreased win_prob ∈ events ↔
    win_prob = new.2 ∧ approx_cmp new.2 old.2 = .lt

/-- Both stores have the update, and the events that were broadcast for it tell the change from the pair
that was in force. -/
structure Agrees (s s' : State T) (params : TicketParams T) : Prop where
  ticket_values : ∃ win_prob price, s'.ticket_values = some (win_prob, price) ∧ Holds params price win_prob
  cached : ∀ info, s'.cached = some info → Holds params info.ticket_price info.ticket_win_prob
  announced : ∃ events, s'.events = s.events ++ events ∧ Announced events s.in_force params

/-- How an entry of the cache, or its absence, makes an update look, is how the pair in force does. -/
def Stands (old new : TicketParams T) : Option (ParsedChainInfo T) → Prop
  | some info =>
    (info.ticket_price ≠ new.1 ↔ old.1 ≠ new.1) ∧ approx_cmp new.2 info.ticket_win_prob = approx_cmp new.2 old.2
  | none => old.1 ≠ new.1 ∧ approx_cmp new.2 WinningProbability.default = approx_cmp new.2 old.2

/-- The step that ends an update ends it as it should be. -/
def EndsRight [DecidableEq T.HoprBalance] (s : State T) (a : Action T) : Prop :=
  ∀ params s', a = .apply → s.received = some params → s.step a = some s' → Agrees s s' params

/-- When an update gets to the cache, what is there stands to it as the pair in force. -/
def Tracks (s : State T) (a : Action T) : Prop :=
  ∀ params, a = .apply → s.received = some params → Stands s.in_force params s.cached

end Spec

/-! ### One update -/

section Update
variable {T : ChainTypes}

theorem put_entries (values : Cache UInt32 (ParsedChainInfo T)) (entry : Option (ParsedChainInfo T)) :
    (State.put values entry).entries CHAIN_INFO_CACHE_KEY = entry.or (values.entries CHAIN_INFO_CACHE_KEY) := by
  cases entry with
  | none => rfl
  | some info => simp [State.put, Cache.insert]

variable [WinningProbability T.WinningProbability]

/-- The events for a change to `new`: of the price, and from `base` of the winning probability. -/
def change {T : ChainTypes} [WinningProbability T.WinningProbability] (price_differs : Bool)
    (base : T.WinningProbability) (new : TicketParams T) : List (ChainEvent T) :=
  (if price_differs then [.TicketPriceChanged new.1] else []) ++
  match approx_cmp new.2 base with
  | .lt => [.WinningProbabilityDecreased new.2]
  | .gt => [.WinningProbabilityIncreased new.2]
  | .eq => []

theorem announced_change_iff (price_differs : Bool) (base : T.WinningProbability) (old new : TicketParams T) :
    Announced (change price_differs base new) old new ↔
      (price_differs = true ↔ old.1 ≠ new.1) ∧ approx_cmp new.2 base = approx_cmp new.2 old.2 := by
  have hprice : ∀ price, .TicketPriceChanged price ∈ change price_differs base new ↔
      price = new.1 ∧ price_differs = true := by
    intro price
    unfold change
    cases price_differs <;> cases approx_cmp new.2 base <;> simp
  have hincreased : ∀ w, .WinningProbabilityIncreased w ∈ change price_differs base new ↔
      w = new.2 ∧ approx_cmp new.2 base = .gt := by
    intro w
    unfold change
    cases price_differs <;> cases approx_cmp new.2 base <;> simp
  have hdecreased : ∀ w, .WinningProbabilityDecreased w ∈ change price_differs base new ↔
      w = new.2 ∧ approx_cmp new.2 base = .lt := by
    intro w
    unfold change
    cases price_differs <;> cases approx_cmp new.2 base <;> simp
  have honce : (change price_differs base new).Nodup := by
    unfold change
    cases price_differs <;> cases approx_cmp new.2 base <;> simp
  constructor
  · intro h
    have hp := (hprice new.1).symm.trans (h.price new.1)
    have hi := (hincreased new.2).symm.trans (h.increased new.2)
    have hd := (hdecreased new.2).symm.trans (h.decreased new.2)
    simp only [true_and] at hp hi hd
    refine ⟨hp, ?_⟩
    cases hbase : approx_cmp new.2 base <;> cases hold : approx_cmp new.2 old.2 <;> simp [hbase, hold] at hi hd ⊢
  · intro ⟨hp, hcmp⟩
    refine ⟨honce, ?_, ?_, ?_⟩
    · intro price
      rw [hprice, hp]
    · intro w
      rw [hincreased, hcmp]
    · intro w
      rw [hdecreased, hcmp]

/-- A pair that is cached, in force up to the tolerance, stands to any update as the one in force. -/
theorem stands_of_holds [LawfulWinningProbability T.WinningProbability] {info : ParsedChainInfo T}
    {old : TicketParams T} (new : TicketParams T)
    (h : Holds old info.ticket_price info.ticket_win_prob) : Stands old new (some info) := by
  obtain ⟨hprice, hclose⟩ := h
  refine ⟨by rw [hprice], ?_⟩
  exact LawfulWinningProbability.cmp_congr _ _ _ _ (LawfulWinningProbability.equivalence.refl _) hclose

variable [DecidableEq T.HoprBalance]

theorem update_chain_info_some (info : ParsedChainInfo T) (params : TicketParams T) :
    (update_chain_info (some info) params).1 =
      (if info.ticket_price ≠ params.1 then [.TicketPrice params.1 (some info.ticket_price)] else []) ++
      (if !approx_eq info.ticket_win_prob params.2
        then [.WinningProbability params.2 (some info.ticket_win_prob)] else []) := rfl

theorem broadcast_none (params : TicketParams T) :
    (update_chain_info none params).1.flatMap broadcast = change true WinningProbability.default params := by
  simp [update_chain_info, broadcast, change]

variable [LawfulWinningProbability T.WinningProbability]

theorem update_ticket_values_holds {ticket_values : Option (T.WinningProbability × T.HoprBalance)}
    (h : ticket_values.isSome = true) (params : TicketParams T) :
    ∃ win_prob price, update_ticket_values ticket_values params = some (win_prob, price) ∧
      Holds params price win_prob := by
  obtain ⟨⟨win_prob, price⟩, rfl⟩ := Option.isSome_iff_exists.mp h
  obtain ⟨new_price, new_win_prob⟩ := params
  have hrefl : approx_eq new_win_prob new_win_prob = true := LawfulWinningProbability.equivalence.refl new_win_prob
  unfold update_ticket_values
  by_cases hprice : price = new_price
  · cases hclose : approx_eq win_prob new_win_prob with
    | true => exact ⟨win_prob, price, by simp [hprice, hclose], hprice, hclose⟩
    | false => exact ⟨new_win_prob, price, by simp [hprice, hclose], hprice, hrefl⟩
  · cases hclose : approx_eq win_prob new_win_prob with
    | true => exact ⟨win_prob, new_price, by simp [hprice, hclose], rfl, hclose⟩
    | false => exact ⟨new_win_prob, new_price, by simp [hprice, hclose], rfl, hrefl⟩

/-- An entry that is not put holds the update already. -/
theorem update_chain_info_holds (info : ParsedChainInfo T) (params : TicketParams T) :
    Holds params ((update_chain_info (some info) params).2.getD info).ticket_price
      ((update_chain_info (some info) params).2.getD info).ticket_win_prob := by
  obtain ⟨new_price, new_win_prob⟩ := params
  have hrefl : approx_eq new_win_prob new_win_prob = true := LawfulWinningProbability.equivalence.refl new_win_prob
  by_cases hprice : info.ticket_price = new_price
  · cases hclose : approx_eq info.ticket_win_prob new_win_prob <;>
      simp [update_chain_info, Holds, hprice, hclose, hrefl]
  · cases hclose : approx_eq info.ticket_win_prob new_win_prob <;>
      simp [update_chain_info, Holds, hprice, hclose, hrefl]

/-- A probability that is not announced because it is close would not be broadcast either. -/
theorem broadcast_some (info : ParsedChainInfo T) (params : TicketParams T) :
    (update_chain_info (some info) params).1.flatMap broadcast =
      change (info.ticket_price ≠ params.1) info.ticket_win_prob params := by
  rw [update_chain_info_some, List.flatMap_append]
  unfold change
  congr 1
  · by_cases hprice : info.ticket_price = params.1 <;> simp [hprice, broadcast]
  · cases hclose : approx_eq info.ticket_win_prob params.2 with
    | false => simp [broadcast]
    | true =>
      have hcmp : approx_cmp params.2 info.ticket_win_prob = .eq :=
        (LawfulWinningProbability.cmp_eq_iff _ _).mpr (LawfulWinningProbability.equivalence.symm hclose)
      simp [hcmp]

/-- The announcement is right just when what is cached stands to the update as the pair in force. -/
theorem announced_iff (cached : Option (ParsedChainInfo T)) (old new : TicketParams T) :
    Announced ((update_chain_info cached new).1.flatMap broadcast) old new ↔ Stands old new cached := by
  cases cached with
  | none =>
    rw [broadcast_none, announced_change_iff]
    simp [Stands]
  | some info =>
    rw [broadcast_some, announced_change_iff]
    simp [Stands]

end Update

/-! ### Steps -/

section Steps
variable {T : ChainTypes} [WinningProbability T.WinningProbability] {s s' : State T} {params : TicketParams T}

/-- There are ticket values, and they hold an update that is received. -/
structure Received (s : State T) : Prop where
  present : s.ticket_values.isSome = true
  holds : ∀ params, s.received = some params →
    ∃ win_prob price, s.ticket_values = some (win_prob, price) ∧ Holds params price win_prob

theorem received_connected (info chain : ParsedChainInfo T) (sent : List (TicketParams T))
    (values : Cache UInt32 (ParsedChainInfo T)) : Received (State.connected info chain sent values) :=
  ⟨rfl, fun _ h => nomatch h⟩

variable [DecidableEq T.HoprBalance]

theorem Received.step [LawfulWinningProbability T.WinningProbability] {a : Action T} (h : Received s)
    (hstep : s.step a = some s') : Received s' := by
  cases a with
  | publish info =>
    cases hstep
    exact ⟨h.present, h.holds⟩
  | receive =>
    simp only [State.step] at hstep
    split at hstep
    · next params sent _ _ =>
      cases hstep
      obtain ⟨win_prob, price, hvalues, hholds⟩ := update_ticket_values_holds h.present params
      refine ⟨by simp [hvalues], ?_⟩
      intro _ hparams
      cases hparams
      exact ⟨win_prob, price, hvalues, hholds⟩
    · cases hstep
  | apply =>
    simp only [State.step] at hstep
    split at hstep
    · cases hstep
      exact ⟨h.present, fun _ hnone => nomatch hnone⟩
    · cases hstep
  | query action =>
    obtain ⟨values, _, rfl⟩ := Option.map_eq_some_iff.mp hstep
    exact ⟨h.present, h.holds⟩
  | query_failed =>
    cases hstep
    exact ⟨h.present, h.holds⟩
  | invalidate_caches =>
    cases hstep
    exact ⟨h.present, h.holds⟩

theorem apply_eq (hparams : s.received = some params) : s.step .apply = some
    {s with
      values := State.put s.values (update_chain_info s.cached params).2
      received := none
      in_force := params
      events := s.events ++ (update_chain_info s.cached params).1.flatMap broadcast} := by
  simp [State.step, hparams]

variable [LawfulWinningProbability T.WinningProbability]

/-- An entry that the cache has after an update holds the update. -/
theorem cached_holds {info : ParsedChainInfo T} (hparams : s.received = some params)
    (hstep : s.step .apply = some s') (hcached : s'.cached = some info) :
    Holds params info.ticket_price info.ticket_win_prob := by
  rw [apply_eq hparams] at hstep
  cases hstep
  rw [State.cached, put_entries] at hcached
  cases hbefore : s.cached with
  | none =>
    rw [hbefore, show s.values.entries CHAIN_INFO_CACHE_KEY = none from hbefore] at hcached
    cases hcached
  | some old =>
    rw [hbefore, show s.values.entries CHAIN_INFO_CACHE_KEY = some old from hbefore] at hcached
    obtain rfl : (update_chain_info (some old) params).2.getD old = info := by
      rw [Option.or_some] at hcached
      exact Option.some.inj hcached
    exact update_chain_info_holds old params

/-- After an update both stores have it, whatever happened to the cache in between. -/
theorem stores_agree (h : Received s) (hparams : s.received = some params) (hstep : s.step .apply = some s') :
    (∃ win_prob price, s'.ticket_values = some (win_prob, price) ∧ Holds params price win_prob) ∧
    ∀ info, s'.cached = some info → Holds params info.ticket_price info.ticket_win_prob := by
  refine ⟨?_, fun info hcached => cached_holds hparams hstep hcached⟩
  rw [apply_eq hparams] at hstep
  cases hstep
  exact h.holds params hparams

theorem ends_right_iff (h : Received s) (a : Action T) : EndsRight s a ↔ Tracks s a := by
  constructor
  · rintro hends params rfl hparams
    obtain ⟨events, hevents, hannounced⟩ := (hends params _ rfl hparams (apply_eq hparams)).announced
    rw [← List.append_cancel_left hevents] at hannounced
    exact (announced_iff s.cached s.in_force params).mp hannounced
  · rintro htracks params s' rfl hparams hstep
    obtain ⟨hvalues, hcached⟩ := stores_agree h hparams hstep
    refine ⟨hvalues, hcached, ?_⟩
    rw [apply_eq hparams] at hstep
    cases hstep
    exact ⟨_, rfl, (announced_iff s.cached s.in_force params).mpr (htracks params rfl hparams)⟩

end Steps

/-! ### Runs -/

section Runs
variable {T : ChainTypes} [DecidableEq T.HoprBalance] [WinningProbability T.WinningProbability]
  [LawfulWinningProbability T.WinningProbability]

/-- In every run after the connector connected: each update is in both stores when it is done, and what was
broadcast for it is right, if and only if for each update the cached pair stands to it as the pair in force
does, or none is cached, the price changes, and the default winning probability stands to the new one as
that in force does. -/
theorem announces_iff (info chain : ParsedChainInfo T) (sent : List (TicketParams T))
    (values : Cache UInt32 (ParsedChainInfo T)) (actions : List (Action T)) :
    (machine T).Meets EndsRight (State.connected info chain sent values) actions ↔
      (machine T).Meets Tracks (State.connected info chain sent values) actions :=
  Machine.meets_iff_of_invariant (I := Received) (fun _ a h => ends_right_iff h a)
    (fun _ _ _ _ h hstep => h.step hstep) (received_connected info chain sent values)

end Runs

/-! ### Runs that leave the entry alone -/

section Undisturbed
variable {T : ChainTypes}

/-- Nothing but updates changes the entry of the chain info. -/
def Undisturbed (_ : State T) : Action T → Prop
  | .query (.finish _) | .query (.evict _) | .invalidate_caches => False
  | _ => True

variable [WinningProbability T.WinningProbability]

/-- The pair in force is cached. -/
def Kept (s : State T) : Prop := ∃ info, s.cached = some info ∧ Holds s.in_force info.ticket_price info.ticket_win_prob

theorem Kept.of_entries {s s' : State T} (h : Kept s)
    (hentries : s'.values.entries = s.values.entries) (hforce : s'.in_force = s.in_force) : Kept s' := by
  obtain ⟨info, hinfo, hholds⟩ := h
  exact ⟨info, (congrFun hentries _).trans hinfo, hforce ▸ hholds⟩

variable [DecidableEq T.HoprBalance] [LawfulWinningProbability T.WinningProbability]

/-- An update comes into force with its entry. -/
theorem Kept.apply {s s' : State T} (h : Kept s) (hstep : s.step .apply = some s') : Kept s' := by
  obtain ⟨old, hold, _⟩ := h
  cases hparams : s.received with
  | none => simp [State.step, hparams] at hstep
  | some params =>
    have heq := Option.some.inj ((apply_eq hparams).symm.trans hstep)
    have hentry : s'.cached = some ((update_chain_info s.cached params).2.getD old) := by
      rw [← heq]
      show (State.put s.values _).entries CHAIN_INFO_CACHE_KEY = _
      rw [put_entries, show s.values.entries CHAIN_INFO_CACHE_KEY = some old from hold, Option.or_some]
    have hforce : s'.in_force = params := by rw [← heq]
    refine ⟨_, hentry, ?_⟩
    rw [hforce]
    exact cached_holds hparams hstep hentry

theorem Kept.step {s s' : State T} {a : Action T} (ha : Undisturbed s a) (h : Kept s) (hstep : s.step a = some s') :
    Kept s' := by
  cases a with
  | publish info =>
    cases hstep
    exact h
  | receive =>
    simp only [State.step] at hstep
    split at hstep
    · cases hstep
      exact h
    · cases hstep
  | apply => exact h.apply hstep
  | query action =>
    obtain ⟨values, hact, rfl⟩ := Option.map_eq_some_iff.mp hstep
    refine h.of_entries (Cache.entries_act hact ?_ ?_) rfl
    · rintro k rfl
      exact ha
    · rintro k rfl
      exact ha
  | query_failed =>
    cases hstep
    exact h
  | invalidate_caches => exact ha.elim

/-- While nothing but updates changes the entry, every update ends as it should. -/
theorem ends_right_undisturbed {info : ParsedChainInfo T} (chain : ParsedChainInfo T)
    (sent : List (TicketParams T)) {values : Cache UInt32 (ParsedChainInfo T)} {actions : List (Action T)}
    (hcached : values.entries CHAIN_INFO_CACHE_KEY = some info)
    (h : (machine T).Meets Undisturbed (State.connected info chain sent values) actions) :
    (machine T).Meets EndsRight (State.connected info chain sent values) actions := by
  have hstart : Kept (State.connected info chain sent values) :=
    ⟨info, hcached, rfl, LawfulWinningProbability.equivalence.refl _⟩
  refine h.of_invariant (I := fun s => Received s ∧ Kept s) ?_ ?_ ⟨received_connected info chain sent values, hstart⟩
  · intro s a s' ha ⟨hreceived, hkept⟩ hstep
    exact ⟨hreceived.step hstep, hkept.step ha hstep⟩
  · intro s a _ ⟨hreceived, cached, hentry, hholds⟩
    refine (ends_right_iff hreceived a).mpr ?_
    intro params _ _
    rw [hentry]
    exact stands_of_holds params hholds

end Undisturbed

/-! ### Plain parameters

Winning probabilities are numbers of 56 bits, and no two of them close. -/

instance : DecidableEq Plain.types.HoprBalance := inferInstanceAs (DecidableEq Nat)

instance : WinningProbability Plain.types.WinningProbability where
  default := ((2 ^ 56 - 1 : Nat))
  approx_eq (a b : Nat) := a = b
  approx_cmp (a b : Nat) := compare a b

instance : LawfulWinningProbability Plain.types.WinningProbability where
  equivalence :=
    { refl := fun (a : Nat) => decide_eq_true (rfl : a = a)
      symm := fun {a b : Nat} h => decide_eq_true (of_decide_eq_true h : a = b).symm
      trans := fun {a b c : Nat} h h' => decide_eq_true ((of_decide_eq_true h : a = b).trans (of_decide_eq_true h')) }
  cmp_eq_iff (a b : Nat) := by
    show compare a b = .eq ↔ decide (a = b) = true
    rw [Nat.compare_eq_eq, decide_eq_true_eq]
  cmp_congr (a a' b b' : Nat) h h' := by
    obtain rfl : a = a' := of_decide_eq_true h
    obtain rfl : b = b' := of_decide_eq_true h'
    rfl

/-- Chain info with the pair, and finality after three blocks of five seconds. -/
def plain_info (price win_prob : Nat) : ParsedChainInfo Plain.types where
  channel_closure_grace_period := Duration.from_secs 300
  domain_separators := ⟨List.replicate 64 '0', List.replicate 64 '0', List.replicate 64 '0'⟩
  key_binding_fee := (10 ^ 16 : Nat)
  max_fee_per_gas := 3 * 10 ^ 9
  max_priority_fee_per_gas := 10 ^ 8
  info := ⟨100, "piz-palu-staging".toList, []⟩
  ticket_win_prob := win_prob
  ticket_price := price
  finality := 3
  expected_block_time := Duration.from_secs 5

/-- A tenth of the tickets win. -/
def start : State Plain.types :=
  State.connected (plain_info 10 7205759403792793) (plain_info 10 7205759403792793) []
    (Cache.empty.insert CHAIN_INFO_CACHE_KEY (plain_info 10 7205759403792793))

/-- The entry is there when the probability goes up to a half. -/
theorem announces_increase :
    (machine Plain.types).Meets EndsRight start [.publish (plain_info 10 (2 ^ 55)), .receive, .apply] := by
  refine (announces_iff _ _ _ _ _).mpr ⟨fun _ h => (nomatch h), fun s hs => ?_⟩
  cases hs
  refine ⟨fun _ h => (nomatch h), fun s hs => ?_⟩
  cases hs
  refine ⟨?_, fun _ _ => trivial⟩
  intro params _ hparams
  cases hparams
  exact ⟨Iff.rfl, rfl⟩

/-- The caches are invalidated before the same update: then the price, which is the one in force, is announced
as changed, and the probability, which goes up, as decreased. -/
theorem increase_announced_as_decrease :
    (∃ s', (machine Plain.types).run start
      [.invalidate_caches, .publish (plain_info 10 (2 ^ 55)), .receive, .apply] = some s' ∧
      s'.events = [.TicketPriceChanged (10 : Nat), .WinningProbabilityDecreased ((2 ^ 55 : Nat))]) ∧
    ¬ (machine Plain.types).Meets EndsRight start
      [.invalidate_caches, .publish (plain_info 10 (2 ^ 55)), .receive, .apply] := by
  refine ⟨⟨_, rfl, rfl⟩, ?_⟩
  rintro ⟨_, h⟩
  obtain ⟨_, h⟩ := h _ rfl
  obtain ⟨_, h⟩ := h _ rfl
  obtain ⟨hends, _⟩ := h _ rfl
  obtain ⟨events, hevents, hannounced⟩ := (hends _ _ rfl rfl rfl).announced
  cases hevents
  exact ((hannounced.price (10 : Nat)).mp List.mem_cons_self).2 rfl

end Hopr.Connector.TicketValues
