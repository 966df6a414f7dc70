import Hopr.Connector.Services
import Hopr.Library.Machine
import Hopr.Library.Scan

/-! Who follows the service registry.

The registry changes, and Blokli tells the changes to those that have subscribed; a
subscription begins with what is registered when it is made. The connector reads the
registry, subscribes to its entries, to its service types and to its configuration,
drops what was read before, and broadcasts the rest. Whoever subscribes to the connector
once it is connected may query the registry and apply what is broadcast to what it was
answered.

What Blokli sends can be converted here, and the broadcast overflows for nobody. Of a
service type the owner is followed. -/
namespace Hopr.Connector.ServiceRegistry
open Library Services

/-! ### The registry -/

structure ServiceRegistryConfig where
  type_registration_fee : HoprBalance
  node_safe_registry : Address
deriving DecidableEq

structure Registry where
  entries : ServiceType × Address → Option ServiceEntry
  /-- The owners of the registered service types; an abandoned one has none. -/
  owners : ServiceType → Option (Option Address)
  config : ServiceRegistryConfig

/-- What an event says of the registry, done to it. -/
def Registry.apply (registry : Registry) : ServiceEvent → Registry
  | .Registered entry | .Updated entry =>
    {registry with entries := Function.update registry.entries (entry.service_type, entry.node) (some entry)}
  | .Deregistered service_type node =>
    {registry with entries := Function.update registry.entries (service_type, node) none}
  | .TypeRegistered service_type owner =>
    {registry with owners := Function.update registry.owners service_type (some (some owner))}
  | .TypeOwnerChanged service_type owner =>
    {registry with owners := Function.update registry.owners service_type (some owner)}
  | .TypeRegistrationFeeChanged fee =>
    {registry with config := {registry.config with type_registration_fee := fee}}
  | .RegistryPointerChanged pointer =>
    {registry with config := {registry.config with node_safe_registry := pointer}}
  | .TypeRequirementChanged _ _ | .TypeRegistrationBurnChanged _ _ | .TypeUpdateBurnChanged _ _ => registry

/-- One event after the other. -/
def Registry.follow (registry : Registry) (events : List ServiceEvent) : Registry :=
  events.foldl Registry.apply registry

/-! ### Subscriptions -/

inductive Source where
  | services
  | service_types
  | service_registry_config
deriving DecidableEq

/-- The subscription that an event comes from. -/
def source : ServiceEvent → Source
  | .Registered _ | .Updated _ | .Deregistered _ _ => .services
  | .TypeRegistrationFeeChanged _ | .RegistryPointerChanged _ => .service_registry_config
  | _ => .service_types

/-- `try_filter` of the entries. -/
def poll_services (replayed : ReplayedServices) (event : ServiceEvent) : ReplayedServices × List ServiceEvent :=
  match replayed.consumes event with
  | (true, replayed) => (replayed, [])
  | (false, replayed) => (replayed, [event])

/-- `try_filter` of the service types. -/
def poll_service_types (replayed : ReplayedServiceTypes) (event : ServiceEvent) :
    ReplayedServiceTypes × List ServiceEvent :=
  match replayed.consumes event with
  | (true, replayed) => (replayed, [])
  | (false, replayed) => (replayed, [event])

/-- What differs from the previous configuration, or all of it. -/
def service_registry_config_to_events (current : ServiceRegistryConfig) (previous : Option ServiceRegistryConfig) :
    List ServiceEvent :=
  (if previous.all fun old => old.type_registration_fee ≠ current.type_registration_fee
    then [.TypeRegistrationFeeChanged current.type_registration_fee] else []) ++
  if previous.all fun old => old.node_safe_registry ≠ current.node_safe_registry
    then [.RegistryPointerChanged current.node_safe_registry] else []

/-- `scan` of the configurations, where the initial one is not told. -/
def poll_config (previous : Option ServiceRegistryConfig) (current : ServiceRegistryConfig) :
    Option ServiceRegistryConfig × List ServiceEvent :=
  (some current, if previous.isNone then [] else service_registry_config_to_events current previous)

/-! ### The connector and who follows it -/

structure State where
  registry : Registry
  replayed_services : ReplayedServices
  replayed_service_types : ReplayedServiceTypes
  previous : Option ServiceRegistryConfig
  /-- What the subscriptions were not polled for, once they are made. -/
  services : Option (List ServiceEvent)
  service_types : Option (List ServiceEvent)
  configs : Option (List ServiceRegistryConfig)
  /-- What was broadcast to the follower and not applied, once it has subscribed. -/
  inbox : Option (List ServiceEvent)
  /-- The registry as the follower has it, once it has queried it. -/
  view : Option Registry

inductive Action where
  | change (event : ServiceEvent)
  | change_config (config : ServiceRegistryConfig)
  /-- The connector has read the registry in time. -/
  | read (entries : List ServiceEntry) (service_types : List ServiceType)
  | subscribe_services (replay : List ServiceEntry)
  /-- A service type that was abandoned is replayed without an owner, and makes no event. -/
  | subscribe_service_types (replay : List (ServiceType × Address))
  | subscribe_config
  | poll (source : Source)
  /-- The follower subscribes to the connector, which is connected. -/
  | subscribe
  | query
  | apply

namespace State

def new (registry : Registry) : State :=
  ⟨registry, .from_iter [], .from_iter [], none, none, none, none, none, none⟩

def subscribed (s : State) : Source → Bool
  | .services => s.services.isSome
  | .service_types => s.service_types.isSome
  | .service_registry_config => s.configs.isSome

/-- What will come of what a subscription was not polled for. -/
def unpolled (s : State) : Source → List ServiceEvent
  | .services => scanned poll_services s.replayed_services (s.services.getD [])
  | .service_types => scanned poll_service_types s.replayed_service_types (s.service_types.getD [])
  | .service_registry_config => scanned poll_config s.previous (s.configs.getD [])

def broadcast (s : State) (events : List ServiceEvent) : State := {s with inbox := s.inbox.map (· ++ events)}

def poll (s : State) : Source → Option State
  | .services =>
    match s.services with
    | some (event :: rest) =>
      let (replayed, events) := poll_services s.replayed_services event
      some ({s with replayed_services := replayed, services := some rest}.broadcast events)
    | _ => none
  | .service_types =>
    match s.service_types with
    | some (event :: rest) =>
      let (replayed, events) := poll_service_types s.replayed_service_types event
      some ({s with replayed_service_types := replayed, service_types := some rest}.broadcast events)
    | _ => none
  | .service_registry_config =>
    match s.configs with
    | some (config :: rest) =>
      let (previous, events) := poll_config s.previous config
      some ({s with previous, configs := some rest}.broadcast events)
    | _ => none

def change (s : State) (event : ServiceEvent) : Option State :=
  match source event with
  | .services => some {s with registry := s.registry.apply event, services := s.services.map (· ++ [event])}
  | .service_types =>
    some {s with registry := s.registry.apply event, service_types := s.service_types.map (· ++ [event])}
  | .service_registry_config => none

end State

def machine : Machine State Action where
  step s
    | .change event => s.change event
    | .change_config config =>
      some {s with registry := {s.registry with config}, configs := s.configs.map (· ++ [config])}
    | .read entries service_types =>
      if s.services.isNone && s.service_types.isNone
      then some {s with
        replayed_services := .from_iter entries
        replayed_service_types := .from_iter service_types}
      else none
    | .subscribe_services replay =>
      if s.services.isNone then some {s with services := some (replay.map .Registered)} else none
    | .subscribe_service_types replay =>
      if s.service_types.isNone
      then some {s with
        service_types := some (replay.map fun (service_type, owner) => .TypeRegistered service_type owner)}
      else none
    | .subscribe_config => if s.configs.isNone then some {s with configs := some [s.registry.config]} else none
    | .poll source => s.poll source
    | .subscribe =>
      if s.services.isSome && s.service_types.isSome && s.configs.isSome && s.inbox.isNone
      then some {s with inbox := some []} else none
    | .query => if s.inbox.isSome then some {s with view := some s.registry} else none
    | .apply =>
      match s.inbox, s.view with
      | some (event :: rest), some view => some {s with inbox := some rest, view := some (view.apply event)}
      | _, _ => none

end Hopr.Connector.ServiceRegistry
