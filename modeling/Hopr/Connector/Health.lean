import Mathlib.Logic.Function.Basic
import Hopr.Library.Machine

/-! The health of the chain connection.

One cell holds the health. `connect` stores in it what becomes of an attempt,
and the background task of each attempt updates it, in a loop of one load and
compare-exchanges (`Update`), when it checks its subscriptions, when one of them
ends, and once at its own end. Nothing keeps the tasks of attempts apart: that
of a failed attempt may still have its last update to make during the next one.

When tasks run, what the client reports and how attempts turn out is the
environment's. -/
namespace Hopr.Connector.Health
open Library

inductive ChainHealthState where
  | Ready
  | WaitingForConnection
  | Connecting
  | SubscriptionEnded
  | SyncTimedOut
  | ServerNotHealthy
  | ConnectionFailed
  | Dropped
  | SubscriptionDegraded
deriving DecidableEq

namespace ChainHealthState

/-- Tasks may change the health. -/
def watched : ChainHealthState → Bool
  | .Connecting | .Ready | .SubscriptionDegraded => true
  | _ => false

/-- The health was stored for an attempt that failed, or when the connector was dropped. -/
def final : ChainHealthState → Bool
  | .SyncTimedOut | .ServerNotHealthy | .ConnectionFailed | .Dropped => true
  | _ => false

end ChainHealthState

/-! ### Updates from subscriptions -/

inductive SubscriptionStatus where
  | Connecting
  | Healthy
  | Degraded
  | Recovered
  | Untracked
  | Stalled
  | Rejected
  | Ended
deriving DecidableEq

def subscription_is_failing : SubscriptionStatus → Bool
  | .Stalled | .Rejected | .Ended => true
  | _ => false

def chain_health_after_check (current : ChainHealthState) (any_failing any_ended : Bool) :
    Option ChainHealthState :=
  let next : Option ChainHealthState := match current with
    | .Connecting => if any_ended then some .SubscriptionEnded else none
    | .Ready | .SubscriptionDegraded =>
      some (if any_ended then .SubscriptionEnded else if any_failing then .SubscriptionDegraded else .Ready)
    | _ => none
  next.filter (· ≠ current)

theorem watched_of_check {current next : ChainHealthState} {any_failing any_ended : Bool}
    (h : chain_health_after_check current any_failing any_ended = some next) : current.watched = true := by
  cases current <;> simp [chain_health_after_check] at h <;> rfl

/-- The end of a subscription is not overlooked where the health is watched. -/
theorem check_ended {current : ChainHealthState} (any_failing : Bool) (h : current.watched = true) :
    chain_health_after_check current any_failing true = some .SubscriptionEnded := by
  cases current <;> first | rfl | cases h

theorem check_cases {current next : ChainHealthState} {any_failing any_ended : Bool}
    (h : chain_health_after_check current any_failing any_ended = some next) :
    (next = .SubscriptionEnded ∧ any_ended = true) ∨
      (next.watched = true ∧ any_ended = false ∧ current ≠ .Connecting) := by
  cases any_ended with
  | true => exact .inl ⟨Option.some.inj (h.symm.trans (check_ended any_failing (watched_of_check h))), rfl⟩
  | false =>
    cases current <;> cases any_failing <;> simp [chain_health_after_check, Option.filter] at h <;>
      exact .inr ⟨h ▸ rfl, rfl, by decide⟩

/-- Where a task is in `set_subscription_health`; `current` is what it read last. -/
structure Update where
  any_failing : Bool
  any_ended : Bool
  current : Option ChainHealthState
deriving DecidableEq

/-- One access to the cell, and where the task is then unless it is done. -/
def Update.step (health : ChainHealthState) (u : Update) : ChainHealthState × Option Update :=
  match u.current with
  | none => (health, some {u with current := some health})
  | some current =>
    match chain_health_after_check current u.any_failing u.any_ended with
    | none => (health, none)
    | some next =>
      if health = current then (next, none) else (health, some {u with current := some health})

/-! ### Tasks -/

inductive Subscription where
  | accounts
  | graph
  | ticket_params
  | services
  | service_types
  | service_registry_config
deriving DecidableEq

def Subscription.all : List Subscription :=
  [.accounts, .graph, .ticket_params, .services, .service_types, .service_registry_config]

inductive TaskPhase where
  | unspawned
  | subscribing
  | running
  | ended
deriving DecidableEq

/-- The background task of an attempt and its subscriptions. -/
structure Task where
  phase : TaskPhase := .unspawned
  /-- What the client's health handles tell. -/
  statuses : Subscription → SubscriptionStatus := fun _ => .Connecting
  /-- The streams that have ended. -/
  closed : Subscription → Bool := fun _ => false
  aborted : Bool := false
  /-- The accounts and channels that are waited for have been received. -/
  ready : Bool := false
  update : Option Update := none
  /-- It has been reported, up to the end of an update, that a subscription ended. -/
  reported : Bool := false

/-- A subscription has ended, or all were aborted. -/
def Task.over (t : Task) : Bool :=
  t.aborted || Subscription.all.any t.closed || Subscription.all.any fun sub => t.statuses sub = .Ended

/-- `update_chain_health` begins. -/
def Task.check_health (t : Task) : Task :=
  let any_failing := Subscription.all.any fun sub => subscription_is_failing (t.statuses sub)
  let any_ended := Subscription.all.any fun sub => t.statuses sub = .Ended
  {t with update := some ⟨any_failing, any_ended, none⟩}

/-- `with_subscription_end` reports that a stream has ended. -/
def Task.report_end (t : Task) : Task :=
  {t with update := some ⟨false, true, none⟩}

/-! ### The connector -/

inductive ConnectorError where
  | ServerNotHealthy
  | ConnectionTimeout
  | Other
deriving DecidableEq

/-- What is stored when `do_connect` fails. -/
def health_of_error : ConnectorError → ChainHealthState
  | .ServerNotHealthy => .ServerNotHealthy
  | .ConnectionTimeout => .SyncTimedOut
  | .Other => .ConnectionFailed

/-- Where the connector is in `connect`. -/
inductive Phase where
  | idle
  /-- No task has been spawned yet. -/
  | connecting
  /-- The task is to say that the connection is ready. -/
  | waiting
  /-- The attempt has failed, and the health is to be stored. -/
  | failing (error : ConnectorError)
  /-- The abort handle is kept. -/
  | connected
  | dropped
deriving DecidableEq

structure HoprBlockchainConnector where
  health : ChainHealthState
  /-- The number of the latest attempt. -/
  attempt : Nat
  phase : Phase
  /-- The attempt whose abort handle is kept. -/
  connection_handle : Option Nat
  tasks : Nat → Task

namespace HoprBlockchainConnector

def new : HoprBlockchainConnector where
  health := .WaitingForConnection
  attempt := 0
  phase := .idle
  connection_handle := none
  tasks _ := {}

/-- The task of the latest attempt. -/
def latest (s : HoprBlockchainConnector) : Task := s.tasks s.attempt

def set_task (i : Nat) (t : Task) (s : HoprBlockchainConnector) : HoprBlockchainConnector :=
  {s with tasks := Function.update s.tasks i t}

/-- `check_connection_state` -/
def is_connected (s : HoprBlockchainConnector) : Bool :=
  s.connection_handle.any fun i => !(s.tasks i).aborted

def abort (i : Nat) (s : HoprBlockchainConnector) : HoprBlockchainConnector :=
  s.set_task i {s.tasks i with aborted := true}

end HoprBlockchainConnector

inductive Action where
  | connect
  | spawn
  /-- The attempt fails, before or after its task is spawned. -/
  | fail (error : ConnectorError)
  | store_failure
  | ready
  /-- `Connecting` is exchanged for `Ready`. -/
  | set_ready
  /-- The future of `connect` is dropped. -/
  | cancel
  | drop
  /-- The drop comes to the abort handle. -/
  | drop_handle
  /-- The client reports on a subscription of an attempt. -/
  | client (i : Nat) (sub : Subscription) (status : SubscriptionStatus)
  /-- A stream of an attempt ends. -/
  | close (i : Nat) (sub : Subscription)
  | subscribe (i : Nat) (ok : Bool)
  | synced (i : Nat)
  | check (i : Nat)
  | report (i : Nat) (sub : Subscription)
  /-- The task goes on to its last update. -/
  | finish (i : Nat)
  /-- The task accesses the cell. -/
  | update (i : Nat)
deriving DecidableEq

/-- An action of a task. -/
def Action.of_task : Action → Bool
  | .subscribe .. | .synced .. | .check .. | .report .. | .finish .. | .update .. => true
  | _ => false

namespace HoprBlockchainConnector

/-- The task can take its next action, having no update underway. -/
def free (s : HoprBlockchainConnector) (i : Nat) : Bool :=
  (s.tasks i).phase = .running && (s.tasks i).update.isNone

def step (s : HoprBlockchainConnector) : Action → Option HoprBlockchainConnector
  | .connect =>
    if s.phase ≠ .idle then none
    else if s.is_connected then some s
    else some {s with
      health := .Connecting
      attempt := s.attempt + 1
      phase := .connecting
      tasks := Function.update s.tasks (s.attempt + 1) {} }
  | .spawn =>
    if s.phase = .connecting
    then some (set_task s.attempt {s.latest with phase := .subscribing} {s with phase := .waiting})
    else none
  | .fail error =>
    match s.phase with
    | .connecting => some {s with phase := .failing error}
    | .waiting => some (abort s.attempt {s with phase := .failing error})
    | _ => none
  | .store_failure =>
    match s.phase with
    | .failing error => some {s with health := health_of_error error, phase := .idle}
    | _ => none
  | .ready =>
    if s.phase = .waiting && s.latest.ready
    then some {s with phase := .connected, connection_handle := some s.attempt} else none
  | .set_ready =>
    if s.phase = .connected
    then some {s with phase := .idle, health := if s.health = .Connecting then .Ready else s.health}
    else none
  | .cancel =>
    match s.phase with
    | .connecting | .waiting => some {s with phase := .idle}
    | _ => none
  | .drop => if s.phase = .idle then some {s with health := .Dropped, phase := .dropped} else none
  | .drop_handle =>
    match s.phase, s.connection_handle with
    | .dropped, some i => some (abort i {s with connection_handle := none})
    | _, _ => none
  | .client i sub status =>
    -- The end of a subscription is final.
    if (s.tasks i).statuses sub = .Ended then none
    else some (s.set_task i {s.tasks i with statuses := Function.update (s.tasks i).statuses sub status})
  | .close i sub =>
    some (s.set_task i {s.tasks i with closed := Function.update (s.tasks i).closed sub true})
  | .subscribe i ok =>
    if (s.tasks i).phase = .subscribing
    then some (s.set_task i {s.tasks i with phase := if ok then .running else .ended})
    else none
  | .synced i => if s.free i then some (s.set_task i {s.tasks i with ready := true}) else none
  | .check i => if s.free i then some (s.set_task i (s.tasks i).check_health) else none
  | .report i sub =>
    if s.free i && (s.tasks i).closed sub then some (s.set_task i (s.tasks i).report_end) else none
  | .finish i =>
    if s.free i && ((s.tasks i).aborted || Subscription.all.all (s.tasks i).closed)
    then some (s.set_task i {(s.tasks i).report_end with phase := .ended})
    else none
  | .update i =>
    match (s.tasks i).update with
    | none => none
    | some u =>
      let (health, update) := u.step s.health
      let reported := (s.tasks i).reported || (u.any_ended && update.isNone)
      some {set_task i {s.tasks i with update, reported} s with health}

end HoprBlockchainConnector

def machine : Machine HoprBlockchainConnector Action where
  step := HoprBlockchainConnector.step

end Hopr.Connector.Health
