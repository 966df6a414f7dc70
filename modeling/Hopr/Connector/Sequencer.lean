import Mathlib.Algebra.GroupWithZero.Nat
import Mathlib.Data.Finset.Erase
import Mathlib.Data.Finset.Insert
import Mathlib.Data.List.Basic
import Mathlib.Logic.Function.Basic
import Hopr.Library.Machine

/-! The transaction sequencer.

The queue takes one transaction at a time. For each it reads the pending count
of the signer from the chain, brings the signer's cached nonce up to it (or down
to it, once it stayed ahead of an unchanging count for the tolerance), signs and
submits. The outcome says whether the nonce was consumed: then the cached nonce
goes up by one, wrapping; if that is unknown the cached nonce is dropped.

The pending counts, the clock, what the client answers and what the caches
forget are the environment's. `log` keeps what was signed, how it was judged and
which cached nonces were forgotten, the latest first. -/
namespace Hopr.Connector
open Library

structure Address where
  bytes : List UInt8
deriving DecidableEq

/-- Nanoseconds. -/
abbrev Duration := Nat

abbrev Instant := Nat

/-! ### Errors -/

/-- The kinds of errors of the client, as far as they are told apart. -/
inductive ErrorKind where
  | HoprActionRejected (operation reason : String)
  | HoprActionThrottled (retry_after : Duration)
  | BlokliError (kind code : String)
  | Other
deriving DecidableEq

inductive ConnectorError where
  | ClientError (kind : ErrorKind)
  | CacheError (inner : ConnectorError)
  | Other
deriving DecidableEq

namespace ConnectorError

/-- The kind of the client's error, looking through cached errors. -/
def client_error_kind : ConnectorError → Option ErrorKind
  | ClientError kind => some kind
  | CacheError inner => inner.client_error_kind
  | Other => none

def as_hopr_action_rejection (error : ConnectorError) : Option (String × String) :=
  match error.client_error_kind with
  | some (.HoprActionRejected operation reason) => some (operation, reason)
  | _ => none

/-- Five seconds, for an overload without a delay of its own. -/
def BLOKLI_OVERLOADED_RETRY_AFTER : Duration := 5 * 10 ^ 9

def retry_after (error : ConnectorError) : Option Duration :=
  match error.client_error_kind with
  | some (.HoprActionThrottled retry_after) => some retry_after
  | some (.BlokliError kind _) =>
    if kind = "overloaded" then some BLOKLI_OVERLOADED_RETRY_AFTER else none
  | _ => none

def is_refused_before_broadcast (error : ConnectorError) : Bool :=
  error.as_hopr_action_rejection.isSome || error.retry_after.isSome ||
    match error.client_error_kind with
    | some (.BlokliError kind _) => kind = "contract not allowed" || kind = "function not allowed"
    | _ => false

def rpc_rejection_code (error : ConnectorError) : Option String :=
  match error.client_error_kind with
  | some (.BlokliError kind code) => if kind = "rpc error" then some code else none
  | _ => none

end ConnectorError

/-! ### Nonces -/

/-- The pending count the local nonce of a signer is ahead of, and since when. -/
abbrev Gaps := Address → Option (UInt64 × Instant)

/-- How long the local nonce has stayed ahead of the same pending count, if it is ahead. -/
def nonce_gap_age (now : Instant) (gaps : Gaps) (signer : Address) (local_nonce pending : UInt64) :
    Option Duration × Gaps :=
  if local_nonce ≤ pending then (none, Function.update gaps signer none) else
    match gaps signer with
    | some (gap_pending, since) =>
      if gap_pending = pending then (some (now - since), gaps)
      else (some 0, Function.update gaps signer (some (pending, now)))
    | none => (some 0, Function.update gaps signer (some (pending, now)))

/-- The nonce to sign with, the local nonce and the gaps after, and whether a gap was resynced. -/
structure Synced where
  nonce : UInt64
  local_nonce : UInt64
  gaps : Gaps
  resynced : Bool

def sync_nonce (now : Instant) (prev_nonce : UInt64) (gaps : Gaps) (signer : Address)
    (pending : UInt64) (tolerance : Duration) : Synced :=
  let (gap_age, gaps) := nonce_gap_age now gaps signer prev_nonce pending
  let resynced := gap_age.any fun age => tolerance ≤ age
  let local_nonce := if resynced then pending else prev_nonce
  { nonce := max local_nonce pending
    local_nonce := max local_nonce pending
    gaps := if resynced then Function.update gaps signer none else gaps
    resynced := resynced }

/-- The outer error: the transaction never reached the client. The inner: the client's outcome. -/
abbrev Submission (TxId : Type) := Except ConnectorError (Except ConnectorError TxId)

/-- Whether the nonce is used up; `none` when the outcome does not tell. -/
def nonce_consumed {TxId : Type} (submission : Submission TxId) (deduplicated : Bool) :
    Option Bool :=
  match submission with
  | .error _ => some false
  | .ok (.ok _) => some !deduplicated
  | .ok (.error error) =>
    if error.is_refused_before_broadcast then some false else
      match error.rpc_rejection_code with
      | some code =>
        if code = "NONCE_TOO_LOW" || code = "REPLACEMENT_UNDERPRICED" then some true
        else if code = "FEE_TOO_LOW" || code = "INSUFFICIENT_FUNDS" then some false
        else none
      | none => none

section Queue
variable {TxId : Type} [DecidableEq TxId]

/-- The caches of the queue. -/
structure Caches (TxId : Type) where
  current_nonce : Address → Option UInt64
  nonce_gaps : Gaps
  issued_tx_ids : Finset TxId

/-- Whether the id is new, and the ids after. -/
def record_issued_tx_id (issued : Finset TxId) (tx_id : TxId) : Bool × Finset TxId :=
  if tx_id ∈ issued then (false, issued) else (true, insert tx_id issued)

/-- Whether the client answered with an id it had issued before, and the ids after. -/
def deduplicated (submission : Submission TxId) (issued : Finset TxId) : Bool × Finset TxId :=
  match submission with
  | .ok (.ok tx_id) =>
    let (fresh, issued) := record_issued_tx_id issued tx_id
    (!fresh, issued)
  | _ => (false, issued)

/-- What an outcome does to the caches, and how it was judged. -/
def settle (signer : Address) (submission : Submission TxId) (c : Caches TxId) :
    Option Bool × Caches TxId :=
  let (dedup, issued) := deduplicated submission c.issued_tx_ids
  let consumed := nonce_consumed submission dedup
  let current_nonce :=
    match consumed with
    | some true =>
      Function.update c.current_nonce signer (some ((c.current_nonce signer).getD 0 + 1))
    | some false => c.current_nonce
    | none => Function.update c.current_nonce signer none
  (consumed, {c with current_nonce := current_nonce, issued_tx_ids := issued})

/-! ### Runs -/

inductive Event where
  /-- A nonce was determined: from the pending count and the local nonce before. -/
  | signed (signer : Address) (pending local_nonce nonce : UInt64) (resynced : Bool)
  /-- A transaction was judged. -/
  | finished (signer : Address) (consumed : Option Bool)
  /-- The cached nonce expired or was evicted. -/
  | forgotten (signer : Address)
deriving DecidableEq

def Event.signer : Event → Address
  | signed signer _ _ _ _ => signer
  | finished signer _ => signer
  | forgotten signer => signer

structure State (TxId : Type) where
  caches : Caches TxId
  /-- The signer and the nonce of the transaction the queue is at. -/
  flight : Option (Address × UInt64)
  log : List Event

inductive Action (TxId : Type) where
  /-- The pending count was read and the nonce determined. -/
  | sign (signer : Address) (pending : UInt64) (now : Instant)
  /-- The next transaction failed before the pending count was read. -/
  | fail (signer : Address) (error : ConnectorError)
  /-- The transaction the queue is at ended: at signing or with the client's outcome. -/
  | finish (submission : Submission TxId)
  | forget_nonce (signer : Address)
  | forget_gap (signer : Address)
  | forget_tx_id (tx_id : TxId)

def start (TxId : Type) : State TxId := ⟨⟨fun _ => none, fun _ => none, ∅⟩, none, []⟩

def step (tolerance : Duration) (s : State TxId) : Action TxId → Option (State TxId)
  | .sign signer pending now =>
    if s.flight.isSome then none else
      let local_nonce := (s.caches.current_nonce signer).getD 0
      let synced := sync_nonce now local_nonce s.caches.nonce_gaps signer pending tolerance
      some {
        caches := {s.caches with
          current_nonce :=
            Function.update s.caches.current_nonce signer (some synced.local_nonce)
          nonce_gaps := synced.gaps}
        flight := some (signer, synced.nonce)
        log := .signed signer pending local_nonce synced.nonce synced.resynced :: s.log }
  | .fail signer error =>
    if s.flight.isSome then none else
      let (consumed, caches) := settle signer (.error error) s.caches
      some {s with caches := caches, log := .finished signer consumed :: s.log}
  | .finish submission =>
    s.flight.map fun (signer, _) =>
      let (consumed, caches) := settle signer submission s.caches
      ⟨caches, none, .finished signer consumed :: s.log⟩
  | .forget_nonce signer =>
    some {s with
      caches := {s.caches with
        current_nonce := Function.update s.caches.current_nonce signer none}
      log := .forgotten signer :: s.log}
  | .forget_gap signer =>
    some {s with
      caches := {s.caches with
        nonce_gaps := Function.update s.caches.nonce_gaps signer none}}
  | .forget_tx_id tx_id =>
    some {s with
      caches := {s.caches with
        issued_tx_ids := s.caches.issued_tx_ids.erase tx_id}}

def machine (TxId : Type) [DecidableEq TxId] (tolerance : Duration) :
    Machine (State TxId) (Action TxId) := ⟨step tolerance⟩

end Queue

end Hopr.Connector
