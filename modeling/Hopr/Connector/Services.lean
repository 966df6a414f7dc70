import Hopr.Connector.Sequencer
import Hopr.Library.Once

/-! Replayed registrations.

Subscriptions to the service registry replay what is registered already. The
connector reads the registry before it subscribes, and drops each registration
that was read once: an entry by the whole of it, a service type by its identity.

`replays_dropped` says what remains of any sequence of events, whatever was
read: everything but the first registration of each entry that was read last for
its service type and node, and the first of each service type that was read. -/
namespace Hopr.Connector.Services
open Library

structure ServiceType where
  bytes : List UInt8
deriving DecidableEq

structure ServiceMetadata where
  bytes : List UInt8
deriving DecidableEq

abbrev HoprBalance := Nat

/-- Nanoseconds from the Unix epoch. -/
abbrev SystemTime := Int

structure ServiceEntry where
  service_type : ServiceType
  node : Address
  safe : Address
  metadata : ServiceMetadata
  registered_at : SystemTime
  updated_at : SystemTime
deriving DecidableEq

inductive ServiceEvent where
  | Registered (entry : ServiceEntry)
  | Updated (entry : ServiceEntry)
  | Deregistered (service_type : ServiceType) (node : Address)
  | TypeRegistered (service_type : ServiceType) (owner : Address)
  | TypeOwnerChanged (service_type : ServiceType) (owner : Option Address)
  | TypeRequirementChanged (service_type : ServiceType) (requirement : Option Address)
  | TypeRegistrationBurnChanged (service_type : ServiceType) (burn : HoprBalance)
  | TypeUpdateBurnChanged (service_type : ServiceType) (burn : HoprBalance)
  | TypeRegistrationFeeChanged (fee : HoprBalance)
  | RegistryPointerChanged (pointer : Address)
deriving DecidableEq

/-! ### Entries -/

/-- The entries that are going to be replayed. -/
structure ReplayedServices where
  map : ServiceType × Address → Option ServiceEntry

namespace ReplayedServices

/-- Of the entries with the same key the last one is kept. -/
def from_iter (entries : List ServiceEntry) : ReplayedServices :=
  ⟨entries.foldl (fun map entry => Function.update map (entry.service_type, entry.node) (some entry)) fun _ => none⟩

/-- Whether the event is a replay, and the entries that remain. -/
def consumes (replayed : ReplayedServices) : ServiceEvent → Bool × ReplayedServices
  | .Registered entry =>
    let key := (entry.service_type, entry.node)
    if (replayed.map key).any (· = entry) then (true, ⟨Function.update replayed.map key none⟩)
    else (false, replayed)
  | _ => (false, replayed)

end ReplayedServices

/-! ### Service types -/

/-- The service types that are going to be replayed. -/
structure ReplayedServiceTypes where
  set : Finset ServiceType

namespace ReplayedServiceTypes

def from_iter (service_types : List ServiceType) : ReplayedServiceTypes := ⟨service_types.toFinset⟩

/-- Whether the event is a replay, and the service types that remain. -/
def consumes (replayed : ReplayedServiceTypes) : ServiceEvent → Bool × ReplayedServiceTypes
  | .TypeRegistered service_type _ =>
    (decide (service_type ∈ replayed.set), ⟨replayed.set.erase service_type⟩)
  | _ => (false, replayed)

end ReplayedServiceTypes

/-! ### As filters -/

def registered : ServiceEvent → Option ServiceEntry
  | .Registered entry => some entry
  | _ => none

def type_registered : ServiceEvent → Option ServiceType
  | .TypeRegistered service_type _ => some service_type
  | _ => none

namespace ReplayedServices

def expects (replayed : ReplayedServices) (entry : ServiceEntry) : Bool :=
  replayed.map (entry.service_type, entry.node) = some entry

theorem consumes_registered (replayed : ReplayedServices) (entry : ServiceEntry) :
    replayed.consumes (.Registered entry) =
      if replayed.expects entry
      then (true, ⟨Function.update replayed.map (entry.service_type, entry.node) none⟩)
      else (false, replayed) := by
  have hany : (replayed.map (entry.service_type, entry.node)).any (· = entry) = replayed.expects entry := by
    unfold expects
    cases replayed.map (entry.service_type, entry.node) <;> simp
  rw [consumes, hany]

end ReplayedServices

def services : Once ReplayedServices ServiceEvent ServiceEntry where
  consumes := ReplayedServices.consumes
  token := registered
  expects := ReplayedServices.expects
  consumes_iff := by
    intro replayed event
    cases event with
    | Registered entry =>
      rw [ReplayedServices.consumes_registered]
      cases h : replayed.expects entry <;> simp [registered, h]
    | _ => rfl
  expects_iff := by
    intro replayed event e
    cases event with
    | Registered entry =>
      rw [ReplayedServices.consumes_registered]
      cases h : replayed.expects entry with
      | false =>
        have hne : replayed.expects e = true → entry ≠ e := by
          rintro he rfl
          rw [h] at he
          cases he
        simpa [registered] using hne
      | true =>
        have hentry : replayed.map (entry.service_type, entry.node) = some entry := of_decide_eq_true h
        by_cases hkey : (e.service_type, e.node) = (entry.service_type, entry.node)
        · -- No other entry is expected under the key.
          simp [registered, ReplayedServices.expects, hkey, hentry]
        · have hne : entry ≠ e := by
            rintro rfl
            exact hkey rfl
          simp [registered, ReplayedServices.expects, Function.update_of_ne hkey, hne]
    | _ => simp [ReplayedServices.consumes, registered]

def ReplayedServiceTypes.expects (replayed : ReplayedServiceTypes) (service_type : ServiceType) : Bool :=
  service_type ∈ replayed.set

def service_types : Once ReplayedServiceTypes ServiceEvent ServiceType where
  consumes := ReplayedServiceTypes.consumes
  token := type_registered
  expects := ReplayedServiceTypes.expects
  consumes_iff := by
    intro replayed event
    cases event <;> rfl
  expects_iff := by
    intro replayed event service_type
    cases event with
    | TypeRegistered registered owner =>
      simp only [ReplayedServiceTypes.consumes, ReplayedServiceTypes.expects, type_registered, Finset.mem_erase,
        decide_eq_true_eq, ne_eq, Option.some.injEq]
      rw [and_comm, eq_comm]
    | _ => simp [ReplayedServiceTypes.consumes, type_registered]

/-! ### What was read -/

/-- The entry of a service type and node that was read last. -/
def last_entry (entries : List ServiceEntry) (service_type : ServiceType) (node : Address) : Option ServiceEntry :=
  (entries.filter fun entry => entry.service_type = service_type && entry.node = node).getLast?

theorem from_iter_map (entries : List ServiceEntry) (service_type : ServiceType) (node : Address) :
    (ReplayedServices.from_iter entries).map (service_type, node) = last_entry entries service_type node := by
  unfold ReplayedServices.from_iter last_entry
  induction entries using List.reverseRecOn with
  | nil => rfl
  | append_singleton entries entry ih =>
    rw [List.foldl_append, List.filter_append]
    by_cases hkey : entry.service_type = service_type ∧ entry.node = node
    · simp [hkey]
    · have hne : (service_type, node) ≠ (entry.service_type, entry.node) := by
        rintro ⟨rfl, rfl⟩
        exact hkey ⟨rfl, rfl⟩
      simpa [hkey, Function.update_of_ne hne] using ih

/-- The event is the first registration of an entry that was read last. -/
def replays_entry (entries : List ServiceEntry) (before : List ServiceEvent) : ServiceEvent → Bool
  | .Registered entry =>
    last_entry entries entry.service_type entry.node = some entry && .Registered entry ∉ before
  | _ => false

/-- The event is the first registration of a service type that was read. -/
def replays_type (service_types : List ServiceType) (before : List ServiceEvent) : ServiceEvent → Bool
  | .TypeRegistered service_type _ =>
    service_type ∈ service_types && !before.any (type_registered · = some service_type)
  | _ => false

theorem dropped_services (entries : List ServiceEntry) (before : List ServiceEvent) (event : ServiceEvent) :
    services.dropped (.from_iter entries) before event = replays_entry entries before event := by
  cases event with
  | Registered entry =>
    have hany : (before.any fun e => registered e = some entry) = decide (.Registered entry ∈ before) := by
      rw [Bool.eq_iff_iff, List.any_eq_true, decide_eq_true_eq]
      constructor
      · intro ⟨e, hmem, he⟩
        cases e with
        | Registered e =>
          obtain rfl : e = entry := by simpa [registered] using he
          exact hmem
        | _ => simp [registered] at he
      · intro hmem
        exact ⟨_, hmem, by simp [registered]⟩
    show (decide ((ReplayedServices.from_iter entries).map (entry.service_type, entry.node) = some entry) &&
      !(before.any fun e => registered e = some entry)) = _
    rw [from_iter_map, hany]
    simp [replays_entry]
  | _ => rfl

theorem dropped_service_types (types : List ServiceType) (before : List ServiceEvent) (event : ServiceEvent) :
    service_types.dropped (.from_iter types) before event = replays_type types before event := by
  cases event with
  | TypeRegistered service_type owner =>
    show (decide (service_type ∈ types.toFinset) && _) = (decide (service_type ∈ types) && _)
    congr 1
    exact decide_eq_decide.mpr List.mem_toFinset
  | _ => rfl

/-! ### What is delivered -/

/-- The events of a subscription that pass, where the entries were read before. -/
def without_replayed_services (entries : List ServiceEntry) (events : List ServiceEvent) : List ServiceEvent :=
  services.passed (.from_iter entries) events

/-- The events of a subscription that pass, where the service types were read before. -/
def without_replayed_service_types (types : List ServiceType) (events : List ServiceEvent) : List ServiceEvent :=
  service_types.passed (.from_iter types) events

/-- Neither the registration of an entry that was read last nor that of a service type that was read. -/
def never_replayed (entries : List ServiceEntry) (types : List ServiceType) : ServiceEvent → Bool
  | .Registered entry => last_entry entries entry.service_type entry.node ≠ some entry
  | .TypeRegistered service_type _ => service_type ∉ types
  | _ => true

theorem not_replays_of_never {entries : List ServiceEntry} {types : List ServiceType} {event : ServiceEvent}
    (h : never_replayed entries types event = true) (before : List ServiceEvent) :
    (!(replays_entry entries before event || replays_type types before event)) = true := by
  cases event with
  | Registered entry =>
    have hlast : last_entry entries entry.service_type entry.node ≠ some entry := of_decide_eq_true h
    simp [replays_entry, replays_type, hlast]
  | TypeRegistered service_type owner =>
    have hnot : service_type ∉ types := of_decide_eq_true h
    simp [replays_entry, replays_type, hnot]
  | _ => rfl

theorem tokens_apart (event : ServiceEvent) : services.token event = none ∨ service_types.token event = none := by
  cases event with
  | Registered entry => exact .inr rfl
  | _ => exact .inl rfl

/-- Whatever was read, and whatever the subscriptions send: exactly the first registration of each entry
that was read last for its service type and node is missing, and the first of each service type that was
read. Other events all pass, registrations of another entry than the one that was read last among them. -/
theorem replays_dropped (entries : List ServiceEntry) (types : List ServiceType) (events : List ServiceEvent) :
    without_replayed_services entries events = keep (fun before event => !replays_entry entries before event) events ∧
    without_replayed_service_types types events = keep (fun before event => !replays_type types before event) events ∧
    without_replayed_service_types types (without_replayed_services entries events) =
      keep (fun before event => !(replays_entry entries before event || replays_type types before event)) events ∧
    (without_replayed_service_types types (without_replayed_services entries events)).filter
      (never_replayed entries types) = events.filter (never_replayed entries types) := by
  have hboth : without_replayed_service_types types (without_replayed_services entries events) =
      keep (fun before event => !(replays_entry entries before event || replays_type types before event)) events := by
    unfold without_replayed_service_types without_replayed_services
    rw [services.passed_both service_types tokens_apart, Once.passed_eq_keep]
    apply keep_congr
    intro before event _
    rw [Once.dropped_both, dropped_services, dropped_service_types]
  refine ⟨?_, ?_, hboth, ?_⟩
  · refine (services.passed_eq_keep _ events).trans (keep_congr ?_)
    intro before event _
    rw [dropped_services]
  · refine (service_types.passed_eq_keep _ events).trans (keep_congr ?_)
    intro before event _
    rw [dropped_service_types]
  · rw [hboth]
    exact filter_keep _ fun before event h => not_replays_of_never h before

/-- The entry is read twice, and replayed as it was read last; the same registration again is delivered. -/
example :
    let entry (n : UInt8) (at_ : Int) : ServiceEntry := ⟨⟨[1]⟩, ⟨[2]⟩, ⟨[3]⟩, ⟨[n]⟩, at_, at_⟩
    without_replayed_services [entry 0 10, entry 1 20]
      [.Registered (entry 0 10), .Registered (entry 1 20), .Deregistered ⟨[1]⟩ ⟨[2]⟩, .Registered (entry 1 20)] =
      [.Registered (entry 0 10), .Deregistered ⟨[1]⟩ ⟨[2]⟩, .Registered (entry 1 20)] := by
  decide

end Hopr.Connector.Services
