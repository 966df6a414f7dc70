import Hopr.Connector.RegistryAspects

/-! The follower has the registry.

Whatever the follower was answered, followed by what is on its way to it, is the registry
(`followed`), however the connector had read it before and whenever it polls its
subscriptions. The one thing that is never told is the registration of an entry that is
taken for a replay. -/
namespace Hopr.Connector.ServiceRegistry
open Library Services

/-! ### Which steps are as documented -/

/-- The registration of an entry would be taken for a replay when it is polled. -/
def State.taken_for_replay (s : State) (entry : ServiceEntry) : Bool :=
  match s.services with
  | some items => ((kept poll_services s.replayed_services items).consumes (.Registered entry)).1
  | none => false

/-- Service types stay registered and are registered once, what is replayed is registered, and no entry is
registered that is taken for a replay. -/
def Documented (s : State) : Action → Prop
  | .change (.TypeRegistered service_type _) => s.registry.owners service_type = none
  | .change (.Registered entry) => s.taken_for_replay entry = false
  | .read _ service_types => ∀ service_type ∈ service_types, s.registry.owners service_type ≠ none
  | .subscribe_services replay => ∀ entry ∈ replay,
    s.registry.entries (entry.service_type, entry.node) = some entry
  | .subscribe_service_types replay => ∀ x ∈ replay, s.registry.owners x.1 = some (some x.2)
  | _ => True

instance (s : State) (a : Action) : Decidable (Documented s a) := by
  unfold Documented
  split <;> infer_instance

/-- What the connector keeps is of the registry, and what the subscriptions have of their own kind. -/
structure Consistent (s : State) : Prop where
  services_source : ∀ event ∈ s.services.getD [], source event = .services
  service_types_source : ∀ event ∈ s.service_types.getD [], source event = .service_types
  service_types : ∀ service_type ∈ s.replayed_service_types.set, s.registry.owners service_type ≠ none
  config : ∀ items, s.configs = some items → kept poll_config s.previous items = some s.registry.config
  unread : s.configs = none → s.previous = none

/-! ### Polls -/

theorem poll_services_cases (replayed : ReplayedServices) (event : ServiceEvent) :
    (poll_services replayed event).2 = if (replayed.consumes event).1 then [] else [event] := by
  unfold poll_services
  split
  · next h => rw [h]; rfl
  · next h => rw [h]; rfl

theorem poll_service_types_cases (replayed : ReplayedServiceTypes) (event : ServiceEvent) :
    (poll_service_types replayed event).2 = (if (replayed.consumes event).1 then [] else [event]) ∧
      (poll_service_types replayed event).1 = (replayed.consumes event).2 := by
  unfold poll_service_types
  split
  · next h => rw [h]; exact ⟨rfl, rfl⟩
  · next h => rw [h]; exact ⟨rfl, rfl⟩

/-- No service type is expected that was not. -/
theorem poll_service_types_subset {replayed : ReplayedServiceTypes} {event : ServiceEvent} {service_type : ServiceType}
    (h : service_type ∈ (poll_service_types replayed event).1.set) : service_type ∈ replayed.set := by
  rw [(poll_service_types_cases replayed event).2] at h
  cases event with
  | TypeRegistered registered owner => exact Finset.mem_of_mem_erase h
  | _ => exact h

/-- The events bring the configuration up to date. -/
theorem follow_config (registry : Registry) (config : ServiceRegistryConfig) :
    registry.follow (service_registry_config_to_events config (some registry.config)) = {registry with config} := by
  obtain ⟨entries, owners, fee, pointer⟩ := registry
  obtain ⟨fee', pointer'⟩ := config
  unfold service_registry_config_to_events
  by_cases hfee : fee = fee'
  · subst hfee
    by_cases hpointer : pointer = pointer'
    · subst hpointer
      simp [Registry.follow]
    · simp [Registry.follow, Registry.apply, hpointer]
  · by_cases hpointer : pointer = pointer'
    · subst hpointer
      simp [Registry.follow, Registry.apply, hfee]
    · simp [Registry.follow, Registry.apply, hfee, hpointer]

theorem source_config {config : ServiceRegistryConfig} {previous : Option ServiceRegistryConfig} :
    ∀ event ∈ service_registry_config_to_events config previous, source event = .service_registry_config := by
  intro event hmem
  unfold service_registry_config_to_events at hmem
  rcases List.mem_append.mp hmem with hfee | hpointer
  · split at hfee
    · rw [List.mem_singleton.mp hfee]
      rfl
    · cases hfee
  · split at hpointer
    · rw [List.mem_singleton.mp hpointer]
      rfl
    · cases hpointer

/-! ### Steps -/

section Steps
variable {s s' : State}

theorem moves_change_service {event : ServiceEvent} (hsource : source event = .services)
    (hdocumented : Documented s (.change event)) :
    Moves s {s with registry := s.registry.apply event, services := s.services.map (· ++ [event])} := by
  refine .changed .services [event] rfl (fun e he => List.mem_singleton.mp he ▸ hsource) ?_ ?_ ?_ rfl rfl
  · cases hitems : s.services with
    | none => simp [State.unpolled, State.subscribed, hitems]
    | some items =>
      have hpasses : ((kept poll_services s.replayed_services items).consumes event).1 = false := by
        cases event with
        | Registered entry =>
          have htaken : s.taken_for_replay entry = false := hdocumented
          rw [State.taken_for_replay, hitems] at htaken
          exact htaken
        | _ => rfl
      simp only [State.unpolled, State.subscribed, hitems, Option.map_some, Option.getD_some, Option.isSome_some,
        if_true, scanned_concat, poll_services_cases, hpasses, Bool.false_eq_true, if_false]
  · intro src hother
    cases src with
    | services => exact absurd rfl hother
    | service_types | service_registry_config => rfl
  · funext src
    cases src with
    | services => exact Option.isSome_map
    | service_types | service_registry_config => rfl

theorem moves_change_service_type {event : ServiceEvent} (h : Consistent s)
    (hsource : source event = .service_types) (hdocumented : Documented s (.change event)) :
    Moves s {s with
      registry := s.registry.apply event
      service_types := s.service_types.map (· ++ [event])} := by
  refine .changed .service_types [event] rfl (fun e he => List.mem_singleton.mp he ▸ hsource) ?_ ?_ ?_ rfl rfl
  · cases hitems : s.service_types with
    | none => simp [State.unpolled, State.subscribed, hitems]
    | some items =>
      have hpasses : ((kept poll_service_types s.replayed_service_types items).consumes event).1 = false := by
        cases event with
        | TypeRegistered service_type owner =>
          -- A service type that is expected is registered already.
          refine decide_eq_false fun hmem => ?_
          have hread := kept_invariant poll_service_types
            (I := fun replayed => service_type ∈ replayed.set → service_type ∈ s.replayed_service_types.set)
            (fun _ _ hsub hmem => hsub (poll_service_types_subset hmem)) id items hmem
          exact h.service_types service_type hread hdocumented
        | _ => rfl
      simp only [State.unpolled, State.subscribed, hitems, Option.map_some, Option.getD_some, Option.isSome_some,
        if_true, scanned_concat, (poll_service_types_cases _ _).1, hpasses, Bool.false_eq_true, if_false]
  · intro src hother
    cases src with
    | service_types => exact absurd rfl hother
    | services | service_registry_config => rfl
  · funext src
    cases src with
    | service_types => exact Option.isSome_map
    | services | service_registry_config => rfl

theorem moves_change_config (h : Consistent s) (config : ServiceRegistryConfig) :
    Moves s {s with registry := {s.registry with config}, configs := s.configs.map (· ++ [config])} := by
  refine .changed .service_registry_config (service_registry_config_to_events config (some s.registry.config))
    (follow_config s.registry config).symm source_config ?_ ?_ ?_ rfl rfl
  · cases hitems : s.configs with
    | none => simp [State.unpolled, State.subscribed, hitems]
    | some items =>
      have hlast := h.config items hitems
      simp only [State.unpolled, State.subscribed, hitems, Option.map_some, Option.getD_some, Option.isSome_some,
        if_true, scanned_concat, hlast, poll_config, Option.isNone_some, Bool.false_eq_true, if_false]
  · intro src hother
    cases src with
    | service_registry_config => exact absurd rfl hother
    | services | service_types => rfl
  · funext src
    cases src with
    | service_registry_config => exact Option.isSome_map
    | services | service_types => rfl

/-- What is replayed is so. -/
theorem moves_subscribe_services {replay : List ServiceEntry} (hearly : s.services = none)
    (hdocumented : Documented s (.subscribe_services replay)) :
    Moves s {s with services := some (replay.map .Registered)} := by
  refine .made .services rfl (by rw [State.subscribed, hearly]; rfl) ?_ ?_ rfl rfl
  · intro event hmem
    obtain ⟨_, item, hitem, hevent⟩ := mem_scanned _ hmem
    rw [poll_services_cases] at hevent
    split at hevent
    · cases hevent
    · rw [List.mem_singleton.mp hevent]
      obtain ⟨entry, hentry, rfl⟩ := List.mem_map.mp hitem
      have hrow : Function.update s.registry.entries (entry.service_type, entry.node) (some entry) =
          s.registry.entries := by
        rw [← hdocumented entry hentry, Function.update_eq_self]
      simp only [Registry.apply, hrow]
  · intro src hother
    cases src with
    | services => exact absurd rfl hother
    | service_types | service_registry_config => rfl

theorem moves_subscribe_service_types {replay : List (ServiceType × Address)} (hearly : s.service_types = none)
    (hdocumented : Documented s (.subscribe_service_types replay)) :
    Moves s {s with
      service_types := some (replay.map fun (service_type, owner) => .TypeRegistered service_type owner)} := by
  refine .made .service_types rfl (by rw [State.subscribed, hearly]; rfl) ?_ ?_ rfl rfl
  · intro event hmem
    obtain ⟨_, item, hitem, hevent⟩ := mem_scanned _ hmem
    rw [(poll_service_types_cases _ _).1] at hevent
    split at hevent
    · cases hevent
    · rw [List.mem_singleton.mp hevent]
      obtain ⟨⟨service_type, owner⟩, hx, rfl⟩ := List.mem_map.mp hitem
      have hrow : Function.update s.registry.owners service_type (some (some owner)) = s.registry.owners := by
        rw [← hdocumented _ hx, Function.update_eq_self]
      simp only [Registry.apply, hrow]
  · intro src hother
    cases src with
    | service_types => exact absurd rfl hother
    | services | service_registry_config => rfl

theorem moves_subscribe_config (h : Consistent s) (hearly : s.configs = none) :
    Moves s {s with configs := some [s.registry.config]} := by
  refine .made .service_registry_config rfl (by rw [State.subscribed, hearly]; rfl) ?_ ?_ rfl rfl
  · intro event hmem
    -- The initial configuration makes no event.
    simp only [State.unpolled, h.unread hearly, Option.getD_some, scanned, poll_config, Option.isNone_none,
      if_true, List.append_nil, List.not_mem_nil] at hmem
  · intro src hother
    cases src with
    | service_registry_config => exact absurd rfl hother
    | services | service_types => rfl

theorem poll_services_sub {replayed : ReplayedServices} {event : ServiceEvent} :
    ∀ e ∈ (poll_services replayed event).2, e = event := by
  intro e he
  rw [poll_services_cases] at he
  split at he
  · cases he
  · exact List.mem_singleton.mp he

theorem poll_service_types_sub {replayed : ReplayedServiceTypes} {event : ServiceEvent} :
    ∀ e ∈ (poll_service_types replayed event).2, e = event := by
  intro e he
  rw [(poll_service_types_cases replayed event).1] at he
  split at he
  · cases he
  · exact List.mem_singleton.mp he

theorem moves_poll (h : Consistent s) {src : Source} (hpoll : s.poll src = some s') : Moves s s' := by
  cases src with
  | services =>
    simp only [State.poll] at hpoll
    split at hpoll
    · next event rest hitems =>
      cases hpoll
      refine .polled .services (poll_services s.replayed_services event).2 rfl ?_ ?_ ?_ ?_ rfl rfl
      · intro e he
        rw [poll_services_sub e he]
        exact h.services_source event (by rw [hitems]; exact List.mem_cons_self)
      · simp only [State.unpolled, State.broadcast, hitems, Option.getD_some, scanned]
      · intro src hother
        cases src with
        | services => exact absurd rfl hother
        | service_types | service_registry_config => rfl
      · funext src
        cases src with
        | services => rw [State.subscribed, State.subscribed, hitems]; rfl
        | service_types | service_registry_config => rfl
    · cases hpoll
  | service_types =>
    simp only [State.poll] at hpoll
    split at hpoll
    · next event rest hitems =>
      cases hpoll
      refine .polled .service_types (poll_service_types s.replayed_service_types event).2 rfl ?_ ?_ ?_ ?_ rfl rfl
      · intro e he
        rw [poll_service_types_sub e he]
        exact h.service_types_source event (by rw [hitems]; exact List.mem_cons_self)
      · simp only [State.unpolled, State.broadcast, hitems, Option.getD_some, scanned]
      · intro src hother
        cases src with
        | service_types => exact absurd rfl hother
        | services | service_registry_config => rfl
      · funext src
        cases src with
        | service_types => rw [State.subscribed, State.subscribed, hitems]; rfl
        | services | service_registry_config => rfl
    · cases hpoll
  | service_registry_config =>
    simp only [State.poll] at hpoll
    split at hpoll
    · next config rest hitems =>
      cases hpoll
      refine .polled .service_registry_config (poll_config s.previous config).2 rfl ?_ ?_ ?_ ?_ rfl rfl
      · intro e he
        simp only [poll_config] at he
        split at he
        · cases he
        · exact source_config e he
      · simp only [State.unpolled, State.broadcast, hitems, Option.getD_some, scanned]
      · intro src hother
        cases src with
        | service_registry_config => exact absurd rfl hother
        | services | service_types => rfl
      · funext src
        cases src with
        | service_registry_config => rw [State.subscribed, State.subscribed, hitems]; rfl
        | services | service_types => rfl
    · cases hpoll

theorem moves_of_step {a : Action} (h : Consistent s) (hdocumented : Documented s a)
    (hstep : machine.step s a = some s') : Moves s s' := by
  cases a with
  | change event =>
    simp only [machine, State.change] at hstep
    split at hstep
    · next hsource =>
      cases hstep
      exact moves_change_service hsource hdocumented
    · next hsource =>
      cases hstep
      exact moves_change_service_type h hsource hdocumented
    · cases hstep
  | change_config config =>
    cases hstep
    exact moves_change_config h config
  | read entries service_types =>
    simp only [machine] at hstep
    split at hstep
    · next hearly =>
      cases hstep
      rw [Bool.and_eq_true, Option.isNone_iff_eq_none, Option.isNone_iff_eq_none] at hearly
      refine .changed .services [] rfl (fun _ hmem => nomatch hmem) ?_ ?_ rfl rfl rfl
      · simp only [State.unpolled, hearly.1, Option.getD_none, scanned_nil, ite_self, List.append_nil]
      · intro src hother
        cases src with
        | services => exact absurd rfl hother
        | service_types => simp only [State.unpolled, hearly.2, Option.getD_none, scanned_nil]
        | service_registry_config => rfl
    · cases hstep
  | subscribe_services replay =>
    simp only [machine] at hstep
    split at hstep
    · next hearly =>
      cases hstep
      exact moves_subscribe_services (Option.isNone_iff_eq_none.mp hearly) hdocumented
    · cases hstep
  | subscribe_service_types replay =>
    simp only [machine] at hstep
    split at hstep
    · next hearly =>
      cases hstep
      exact moves_subscribe_service_types (Option.isNone_iff_eq_none.mp hearly) hdocumented
    · cases hstep
  | subscribe_config =>
    simp only [machine] at hstep
    split at hstep
    · next hearly =>
      cases hstep
      exact moves_subscribe_config h (Option.isNone_iff_eq_none.mp hearly)
    · cases hstep
  | poll src => exact moves_poll h hstep
  | subscribe =>
    simp only [machine] at hstep
    split at hstep
    · next hall =>
      cases hstep
      simp only [Bool.and_eq_true] at hall
      refine .followed ?_ (Option.isNone_iff_eq_none.mp hall.2) rfl
      intro src
      cases src with
      | services => exact hall.1.1.1
      | service_types => exact hall.1.1.2
      | service_registry_config => exact hall.1.2
    · cases hstep
  | query =>
    simp only [machine] at hstep
    split at hstep
    · next hsome =>
      cases hstep
      exact .queried (Option.isSome_iff_ne_none.mp hsome) rfl
    · cases hstep
  | apply =>
    simp only [machine] at hstep
    split at hstep
    · next event rest view hinbox hview =>
      cases hstep
      exact .applied event rest view hinbox hview rfl
    · cases hstep

/-! ### What the connector keeps -/

/-- A service type stays registered. -/
theorem owners_apply {registry : Registry} {service_type : ServiceType} (event : ServiceEvent)
    (h : registry.owners service_type ≠ none) : (registry.apply event).owners service_type ≠ none := by
  cases event with
  | TypeRegistered registered owner | TypeOwnerChanged registered owner =>
    simp only [Registry.apply, Function.update_apply]
    split
    · exact Option.some_ne_none _
    · exact h
  | _ => exact h

theorem config_apply (registry : Registry) {event : ServiceEvent} (hsource : source event ≠ .service_registry_config) :
    (registry.apply event).config = registry.config := by
  cases event with
  | TypeRegistrationFeeChanged | RegistryPointerChanged => exact absurd rfl hsource
  | _ => rfl

theorem mem_sent {sent : Option (List ServiceEvent)} {event e : ServiceEvent}
    (hmem : e ∈ (sent.map (· ++ [event])).getD []) : e ∈ sent.getD [] ∨ e = event := by
  cases sent with
  | none => cases hmem
  | some items => exact (List.mem_append.mp hmem).imp_right List.mem_singleton.mp

theorem consistent_poll (h : Consistent s) {src : Source} (hpoll : s.poll src = some s') : Consistent s' := by
  cases src with
  | services =>
    simp only [State.poll] at hpoll
    split at hpoll
    · next event rest hitems =>
      cases hpoll
      refine ⟨fun e he => h.services_source e ?_, h.service_types_source, h.service_types, h.config, h.unread⟩
      rw [hitems]
      exact List.mem_cons_of_mem _ he
    · cases hpoll
  | service_types =>
    simp only [State.poll] at hpoll
    split at hpoll
    · next event rest hitems =>
      cases hpoll
      refine ⟨h.services_source, fun e he => h.service_types_source e ?_,
        fun t ht => h.service_types t (poll_service_types_subset ht), h.config, h.unread⟩
      rw [hitems]
      exact List.mem_cons_of_mem _ he
    · cases hpoll
  | service_registry_config =>
    simp only [State.poll] at hpoll
    split at hpoll
    · next config rest hitems =>
      cases hpoll
      refine ⟨h.services_source, h.service_types_source, h.service_types, ?_, fun hnone => nomatch hnone⟩
      intro items heq
      cases heq
      exact h.config (config :: rest) hitems
    · cases hpoll

theorem consistent_step {a : Action} (h : Consistent s) (hdocumented : Documented s a)
    (hstep : machine.step s a = some s') : Consistent s' := by
  cases a with
  | change event =>
    simp only [machine, State.change] at hstep
    split at hstep
    · next hsource =>
      cases hstep
      have hconfig := config_apply s.registry (by rw [hsource]; decide : source event ≠ .service_registry_config)
      refine ⟨fun e he => ?_, h.service_types_source, fun t ht => owners_apply event (h.service_types t ht), ?_,
        h.unread⟩
      · rcases mem_sent he with hold | rfl
        · exact h.services_source e hold
        · exact hsource
      · intro items hitems
        exact (h.config items hitems).trans (congrArg some hconfig.symm)
    · next hsource =>
      cases hstep
      have hconfig := config_apply s.registry (by rw [hsource]; decide : source event ≠ .service_registry_config)
      refine ⟨h.services_source, fun e he => ?_, fun t ht => owners_apply event (h.service_types t ht), ?_,
        h.unread⟩
      · rcases mem_sent he with hold | rfl
        · exact h.service_types_source e hold
        · exact hsource
      · intro items hitems
        exact (h.config items hitems).trans (congrArg some hconfig.symm)
    · cases hstep
  | change_config config =>
    cases hstep
    refine ⟨h.services_source, h.service_types_source, h.service_types, ?_, ?_⟩
    · intro items hitems
      obtain ⟨items, _, rfl⟩ := Option.map_eq_some_iff.mp hitems
      rw [kept, List.foldl_append]
      rfl
    · intro hnone
      exact h.unread (Option.map_eq_none_iff.mp hnone)
  | read entries service_types =>
    simp only [machine] at hstep
    split at hstep
    · cases hstep
      refine ⟨h.services_source, h.service_types_source, fun t ht => ?_, h.config, h.unread⟩
      exact hdocumented t (List.mem_toFinset.mp ht)
    · cases hstep
  | subscribe_services replay =>
    simp only [machine] at hstep
    split at hstep
    · cases hstep
      refine ⟨fun e he => ?_, h.service_types_source, h.service_types, h.config, h.unread⟩
      obtain ⟨entry, _, rfl⟩ := List.mem_map.mp he
      rfl
    · cases hstep
  | subscribe_service_types replay =>
    simp only [machine] at hstep
    split at hstep
    · cases hstep
      refine ⟨h.services_source, fun e he => ?_, h.service_types, h.config, h.unread⟩
      obtain ⟨x, _, rfl⟩ := List.mem_map.mp he
      rfl
    · cases hstep
  | subscribe_config =>
    simp only [machine] at hstep
    split at hstep
    · cases hstep
      refine ⟨h.services_source, h.service_types_source, h.service_types, ?_, fun hnone => nomatch hnone⟩
      intro items hitems
      cases hitems
      rfl
    · cases hstep
  | poll src => exact consistent_poll h hstep
  | subscribe | query =>
    simp only [machine] at hstep
    split at hstep
    · cases hstep
      exact ⟨h.services_source, h.service_types_source, h.service_types, h.config, h.unread⟩
    · cases hstep
  | apply =>
    simp only [machine] at hstep
    split at hstep
    · cases hstep
      exact ⟨h.services_source, h.service_types_source, h.service_types, h.config, h.unread⟩
    · cases hstep

end Steps

/-! ### Runs -/

theorem consistent_new (registry : Registry) : Consistent (.new registry) :=
  ⟨fun _ hmem => (nomatch hmem), fun _ hmem => (nomatch hmem), fun _ hmem => (nomatch hmem),
    fun _ hitems => (nomatch hitems), fun _ => rfl⟩

theorem told_new {B : Type} (A : Aspect B) (registry : Registry) : Told A (.new registry) := by
  refine told_early rfl rfl ?_
  rw [State.unpolled_early (by cases A.source <;> rfl)]
  rfl

/-- What is on its way to the follower, from all subscriptions. -/
def State.on_its_way (s : State) : List ServiceEvent :=
  s.inbox.getD [] ++ s.unpolled .services ++ s.unpolled .service_types ++ s.unpolled .service_registry_config

/-- An aspect is told of by one subscription only. -/
theorem latest_on_its_way {B : Type} (A : Aspect B) {s : State}
    (hsources : ∀ src, ∀ event ∈ s.unpolled src, source event = src) (b : B) :
    latest A.tells b s.on_its_way = latest A.tells b (s.pending A.source) := by
  have hsilent : ∀ src, src ≠ A.source → ∀ event ∈ s.unpolled src, A.tells event = none :=
    fun src hother => A.silent_of_sources (hsources src) hother
  unfold State.on_its_way State.pending
  cases hsource : A.source with
  | services =>
    rw [hsource] at hsilent
    rw [latest_append, latest_none (hsilent .service_registry_config (by decide)), latest_append,
      latest_none (hsilent .service_types (by decide))]
  | service_types =>
    rw [hsource] at hsilent
    rw [latest_append, latest_none (hsilent .service_registry_config (by decide)),
      latest_silent (hsilent .services (by decide))]
  | service_registry_config =>
    rw [hsource] at hsilent
    rw [List.append_assoc, List.append_assoc, ← List.append_assoc, latest_silent (hsilent .services (by decide)),
      ← List.append_assoc, latest_silent (hsilent .service_types (by decide))]

theorem unpolled_sources {s : State} (h : Consistent s) (src : Source) :
    ∀ event ∈ s.unpolled src, source event = src := by
  intro event hmem
  cases src with
  | services =>
    obtain ⟨_, item, hitem, hevent⟩ := mem_scanned _ hmem
    exact poll_services_sub event hevent ▸ h.services_source item hitem
  | service_types =>
    obtain ⟨_, item, hitem, hevent⟩ := mem_scanned _ hmem
    exact poll_service_types_sub event hevent ▸ h.service_types_source item hitem
  | service_registry_config =>
    obtain ⟨_, item, _, hevent⟩ := mem_scanned _ hmem
    simp only [poll_config] at hevent
    split at hevent
    · cases hevent
    · exact source_config event hevent

/-- **Whoever has subscribed to the connector before it queried the registry has the registry, once it has applied
what is on its way**, whatever the connector had read and dropped, unless an entry was registered that was taken for
a replay. -/
theorem followed {registry : Registry} {as : List Action} {s : State} {view : Registry}
    (hdocumented : machine.Meets Documented (.new registry) as) (hrun : machine.run (.new registry) as = some s)
    (hview : s.view = some view) : view.follow s.on_its_way = s.registry := by
  have hconsistent : Consistent s :=
    machine.run_invariant (I := Consistent) (fun _ _ _ hd h hstep => consistent_step h hd hstep) hdocumented hrun
      (consistent_new registry)
  apply registry_ext
  intro B A
  have htold : Consistent s ∧ Told A s :=
    machine.run_invariant (I := fun s => Consistent s ∧ Told A s)
      (fun _ _ _ hd h hstep => ⟨consistent_step h.1 hd hstep, told_moves h.2 (moves_of_step h.1 hd hstep)⟩)
      hdocumented hrun ⟨consistent_new registry, told_new A registry⟩
  rw [A.follow, latest_on_its_way A (unpolled_sources hconsistent)]
  exact htold.2.view view hview

/-- A node with its service of type 1. -/
def service (node : UInt8) (at_ : Int) : ServiceEntry := ⟨⟨[1]⟩, ⟨[node]⟩, ⟨[node]⟩, ⟨[]⟩, at_, at_⟩

/-- A registration that was read is replayed, another one is broadcast, and the configuration changes. -/
def registrations : List Action :=
  [.change (.Registered (service 2 10)), .read [service 2 10] [], .subscribe_services [service 2 10],
    .subscribe_service_types [], .subscribe_config, .subscribe, .poll .services,
    .change (.Registered (service 3 20)), .poll .services, .query, .change_config ⟨2, ⟨[9]⟩⟩, .apply]

theorem followed_registrations : ∃ s view, machine.run (.new ⟨fun _ => none, fun _ => none, 1, ⟨[9]⟩⟩)
    registrations = some s ∧ s.view = some view ∧ view.follow s.on_its_way = s.registry := by
  have hends : (machine.run (.new ⟨fun _ => none, fun _ => none, 1, ⟨[9]⟩⟩) registrations).any
      (fun s => decide (s.view.isSome = true)) = true := by
    decide +kernel
  obtain ⟨s, hrun, hsome⟩ := machine.exists_run hends
  obtain ⟨view, hview⟩ := Option.isSome_iff_exists.mp hsome
  exact ⟨s, view, hrun, hview, followed (by decide +kernel) hrun hview⟩

end Hopr.Connector.ServiceRegistry
