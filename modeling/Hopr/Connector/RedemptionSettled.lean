import Hopr.Connector.TicketRedemption
import Hopr.Library.Checks

/-! What a stream of redemptions takes from its queue.

However the client, the sequencer and the backend of the queue fail, the tickets leave the
queue in order, and only those of low value, those whose redemption was confirmed
(`Redeemed`), and those that can never be redeemed (`Refused`). A ticket whose redemption
failed for another reason is still queued, before those behind it (`redemptions_settled`). -/
namespace Hopr.TicketManager.RedeemStream
open Library TicketQueue QueueWithStats

/-! ### Any number of polls -/

section Taken
variable {Q ε : Type} [TicketQueue Q ε]

/-- How a stream has ended so far before the tickets in `rest`; `Postponed` are those whose redemption
could not be processed, with the error. -/
inductive Stops {ε : Type} (Postponed : RedeemableTicket → String → Prop) (rest : List RedeemableTicket) :
    Option (Except (TicketManagerError (BackendError ε)) Unit) → Prop
  | polled : Stops Postponed rest none
  | emptied (h : rest = []) : Stops Postponed rest (some (.ok ()))
  | store_error : Stops Postponed rest (some (.error (.StoreError .Unavailable)))
  /-- The ticket is the first that is left. -/
  | processing_error {t : RedeemableTicket} {rest' : List RedeemableTicket} {error : String}
      (hrest : rest = t :: rest') (h : Postponed t error) :
      Stops Postponed rest (some (.error (.RedeemError error)))

theorem Stops.imp {ε : Type} {P P' : RedeemableTicket → String → Prop} {rest : List RedeemableTicket}
    {ended : Option (Except (TicketManagerError (BackendError ε)) Unit)} (h : Stops P rest ended)
    (himp : ∀ t error, P t error → P' t error) : Stops P' rest ended := by
  cases h with
  | polled => exact .polled
  | emptied h => exact .emptied h
  | store_error => exact .store_error
  | processing_error hrest h => exact .processing_error hrest (himp _ _ h)

/-- The chain could not process the ticket, having been asked about others. -/
def Unprocessed (chain : ChainClient) (min : HoprBalance) (asked : List RedeemableTicket) (t : RedeemableTicket)
    (error : String) : Prop :=
  min ≤ t.verified_ticket.amount ∧ ∃ ticket, chain asked t = .ProcessingError ticket error

/-- Some polls of a stream took the tickets in `front`. The items are their results, but that
of the last is missing if the stream failed after the ticket had been popped. -/
structure Taken (chain : ChainClient) (min : HoprBalance) (s : Redeeming (Faulty Q))
    (p : Polled (Faulty Q) (BackendError ε)) (front rest : List RedeemableTicket)
    (results : List RedemptionResult) : Prop where
  queued : tickets s.channel.queue = front ++ rest
  left : tickets p.state.channel.queue = rest
  yielded : Yields chain min s.asked front results
  items : p.items <+: results
  missing : results.length ≤ p.items.length + 1
  stats : Grown s.channel.stats p.state.channel.stats p.items
  stops : Stops (Unprocessed chain min (s.asked ++ front.filter fun t => min ≤ t.verified_ticket.amount)) rest p.ended

variable {chain : ChainClient} {min : HoprBalance} {s : Redeeming (Faulty Q)} {t : RedeemableTicket}
  {rest : List RedeemableTicket}

/-- Nothing was taken. -/
theorem Taken.nothing {p : Polled (Faulty Q) (BackendError ε)} {l : List RedeemableTicket}
    (hqueued : tickets s.channel.queue = l) (hleft : tickets p.state.channel.queue = l)
    (hstats : p.state.channel.stats = s.channel.stats) (hitems : p.items = [])
    (hstops : Stops (Unprocessed chain min s.asked) l p.ended) : Taken chain min s p [] l [] := by
  refine ⟨hqueued, hleft, .nil, ?_, Nat.zero_le _, ?_, ?_⟩
  · rw [hitems]
  · rw [hitems, hstats]
    exact grown_nil _
  · rw [List.filter_nil, List.append_nil]
    exact hstops

theorem asked_cons (min : HoprBalance) (asked front : List RedeemableTicket) (t : RedeemableTicket) :
    asking min asked t ++ front.filter (fun t => min ≤ t.verified_ticket.amount) =
      asked ++ (t :: front).filter fun t => min ≤ t.verified_ticket.amount := by
  unfold asking
  by_cases hmin : min ≤ t.verified_ticket.amount <;> simp [hmin]

/-- The head got its result, and then some were taken. -/
theorem Taken.next (hchain : chain.Reports) {front rest' : List RedeemableTicket}
    {results : List RedemptionResult} {c : QueueWithStats (Faulty Q)} {result : RedemptionResult}
    {p : Polled (Faulty Q) (BackendError ε)} (hq : tickets s.channel.queue = t :: rest)
    (hattempt : redeem_attempt (ε := BackendError ε) min t (chain s.asked t) = .ok result)
    (hcalled : Called s.channel c rest 4)
    (h : Taken chain min ⟨{c with stats := c.stats.account result}, asking min s.asked t⟩ p front rest' results) :
    Taken chain min s {p with items := result :: p.items} (t :: front) rest' (result :: results) := by
  have hqueued : rest = front ++ rest' := hcalled.tickets.symm.trans h.queued
  refine ⟨?_, h.left, h.yielded.cons hchain hattempt, ?_, Nat.succ_le_succ h.missing, ?_, ?_⟩
  · rw [hq, hqueued]
    rfl
  · exact List.cons_prefix_cons.mpr ⟨rfl, h.items⟩
  · have hstats := h.stats
    rw [hcalled.stats] at hstats
    exact hstats.cons
  · rw [← asked_cons]
    exact h.stops

variable [TotalTicketQueue Q]

/-- **Whatever fails, some polls of a stream take tickets from the front of the queue, each with the
result the chain decides.** -/
theorem poll_taken (hchain : chain.Reports) (n : Nat) :
    ∃ front rest results, Taken chain min s (poll chain min n s) front rest results := by
  induction n generalizing s with
  | zero => exact ⟨[], _, [], .nothing rfl rfl rfl rfl .polled⟩
  | succ n ih =>
    cases hq : tickets s.channel.queue with
    | nil =>
      obtain ⟨c, hcalled, hrun⟩ := end_run chain min hq
      refine ⟨[], [], [], ?_⟩
      cases hfault : s.channel.queue.queue.faults 0 with
      | true =>
        simp only [hfault, if_true] at hrun
        simp only [poll, hrun]
        exact .nothing hq hcalled.tickets hcalled.stats rfl .store_error
      | false =>
        simp only [hfault, Bool.false_eq_true, if_false] at hrun
        simp only [poll, hrun]
        exact .nothing hq hcalled.tickets hcalled.stats rfl (.emptied rfl)
    | cons t rest =>
      have hturn := turn_run chain min hq
      generalize hrun : (redeem_next chain min).run s = r at hturn
      cases hturn with
      | failed hi hfault hcalled hasked =>
        simp only [poll, hrun]
        exact ⟨[], t :: rest, [], .nothing hq hcalled.tickets hcalled.stats rfl .store_error⟩
      | processing hclear hattempt hcalled hasked =>
        obtain ⟨hmin, ticket, error, hanswer, rfl⟩ := redeem_attempt_error hattempt
        simp only [poll, hrun]
        exact ⟨[], t :: rest, [], .nothing hq hcalled.tickets hcalled.stats rfl
          (.processing_error rfl ⟨hmin, ticket, hanswer⟩)⟩
      | @unread result s' hfault hattempt hcalled =>
        -- popped without an item
        simp only [poll, hrun]
        refine ⟨[t], rest, [result], hq, hcalled.tickets, Yields.nil.cons hchain hattempt, List.nil_prefix,
          Nat.le_refl 1, ?_, .store_error⟩
        rw [hcalled.stats]
        exact grown_nil _
      | @next result c hclear hattempt hcalled =>
        obtain ⟨front, rest', results, h⟩ := ih (s := ⟨{c with stats := c.stats.account result}, asking min s.asked t⟩)
        simp only [poll, hrun]
        exact ⟨t :: front, rest', result :: results, h.next hchain hq hattempt hcalled⟩

end Taken

end Hopr.TicketManager.RedeemStream

namespace Hopr.Connector.TicketRedemption
open Library TicketManager TicketQueue RedeemStream

/-! ### What came of a transaction -/

/-- The transaction was submitted, and did what it should. -/
structure Confirmed (answers : Answers) : Prop where
  chain_info : answers.chain_info = .ok ()
  enqueued : answers.enqueued = true
  submitted : answers.submitted = some (.ok ())
  tracked : ∃ tx, answers.tracked = .ok tx ∧ (∀ e ∈ tx.safe_execution, e.success = true) ∧ tx.receipt.isSome

/-- The reasons for which a transaction that was taken makes its ticket be rejected. -/
inductive Failed (answers : Answers) : String → Prop
  /-- It was executed, and the safe's own call failed. -/
  | reverted {tx : Transaction} {revert_reason : Option String} (hsubmitted : answers.submitted = some (.ok ()))
      (htracked : answers.tracked = .ok tx) (h : tx.safe_execution = some ⟨false, revert_reason⟩) :
      Failed answers ("inner transaction rejected: " ++ revert_reason.getD "n/a")
  /-- It was refused as contradicting the state of the chain. -/
  | refused {e : ConnectorError} {operation reason : String}
      (herror : answers.submitted = some (.error e) ∨ answers.submitted = some (.ok ()) ∧ answers.tracked = .error e)
      (h : e.as_hopr_action_rejection = some (operation, reason)) :
      Failed answers ("blokli rejected the " ++ operation ++ " action: " ++ reason)

/-- The error as a reason for rejecting the ticket, if it is one. -/
def RedemptionError.rejection : RedemptionError → Option String
  | .InnerTxFailed reason => some ("inner transaction rejected: " ++ reason)
  | e => e.as_hopr_action_rejection.map fun (operation, reason) =>
      "blokli rejected the " ++ operation ++ " action: " ++ reason

theorem rejection_of {e : ConnectorError} {reason : String} (h : (RedemptionError.Of e).rejection = some reason) :
    ∃ operation cause, e.as_hopr_action_rejection = some (operation, cause) ∧
      reason = "blokli rejected the " ++ operation ++ " action: " ++ cause := by
  obtain ⟨⟨operation, cause⟩, hrejection, rfl⟩ := Option.map_eq_some_iff.mp h
  exact ⟨operation, cause, hrejection, rfl⟩

theorem confirm_ensures (answers : Answers) :
    Ensures (confirm answers) (fun _ => answers.submitted = some (.ok ()) ∧ ∃ tx, answers.tracked = .ok tx ∧
        (∀ e ∈ tx.safe_execution, e.success = true) ∧ tx.receipt.isSome) fun e =>
      ∀ reason, e.rejection = some reason → Failed answers reason := by
  unfold confirm
  split
  · exact nofun
  · next e hsubmitted =>
    intro reason hreason
    obtain ⟨operation, cause, hrejection, rfl⟩ := rejection_of hreason
    exact .refused (Or.inl hsubmitted) hrejection
  · next hsubmitted =>
    refine ensures_bind (P := fun tx => answers.tracked = .ok tx) (ensures_mapError (fun _ h => h) ?_) ?_
    · intro e htracked reason hreason
      obtain ⟨operation, cause, hrejection, rfl⟩ := rejection_of hreason
      exact .refused (Or.inr ⟨hsubmitted, htracked⟩) hrejection
    intro tx htracked
    split
    · next revert_reason hreverted =>
      intro reason hreason
      cases hreason
      exact .reverted hsubmitted htracked hreverted
    · next hexecuted =>
      split
      · next receipt hreceipt =>
        refine ⟨hsubmitted, tx, htracked, ?_, by rw [hreceipt]; rfl⟩
        intro ⟨success, revert_reason⟩ he
        cases success with
        | true => rfl
        | false => exact (hexecuted revert_reason he).elim
      · exact nofun

theorem rejection_of_action {e : RedemptionError} {operation reason : String}
    (h : e.as_hopr_action_rejection = some (operation, reason)) :
    e.rejection = some ("blokli rejected the " ++ operation ++ " action: " ++ reason) := by
  cases e with
  | Of e => exact congrArg (Option.map _) h
  | _ => cases h

theorem send_tx_ensures (answers : Answers) :
    Ensures (send_tx answers) (fun sent => answers.chain_info = .ok () ∧ answers.enqueued = true ∧
      sent = confirm answers) fun _ => True := by
  unfold send_tx
  refine ensures_bind (P := fun _ => answers.chain_info = .ok ())
    (ensures_mapError (fun _ h => h) fun _ _ => trivial) ?_
  intro _ hchain_info
  apply ensures_check (fun _ => trivial)
  intro henqueued
  exact ⟨hchain_info, Bool.of_not_eq_false henqueued, rfl⟩

/-! ### What decides a redemption -/

section Redeem
variable [Chain]
open Chain

/-- The channel is as the ticket needs it. -/
structure Redeemable (channel : BlokliChannel) (ticket : RedeemableTicket) : Prop where
  not_closed : channel.status ≠ .Closed
  epoch : channel.epoch.toUInt32 = ticket.verified_ticket.channel_epoch
  index : ∃ channel_index, Text.parse_unsigned (2 ^ 64) channel.ticket_index = .ok channel_index ∧
    channel_index ≤ ticket.verified_ticket.index.toNat
  stake : ∃ channel_stake, parse_balance channel.balance = .ok channel_stake ∧
    ticket.verified_ticket.amount ≤ channel_stake

/-- The channel rules the ticket out, with the error. -/
inductive RuledOut (channel : BlokliChannel) (ticket : RedeemableTicket) : RedemptionError → Prop
  | closed (h : channel.status = .Closed) : RuledOut channel ticket (.ChannelClosed ticket.ticket.channel_id)
  | epoch (h : channel.epoch.toUInt32 ≠ ticket.verified_ticket.channel_epoch) : RuledOut channel ticket .InvalidTicket
  | index {channel_index : Nat} (hparse : Text.parse_unsigned (2 ^ 64) channel.ticket_index = .ok channel_index)
      (h : ticket.verified_ticket.index.toNat < channel_index) : RuledOut channel ticket .InvalidTicket
  | stake {channel_stake : HoprBalance} (hparse : parse_balance channel.balance = .ok channel_stake)
      (h : channel_stake < ticket.verified_ticket.amount) : RuledOut channel ticket .InvalidTicket

/-- The errors of the preparation for which a ticket is rejected. -/
def RedemptionError.final : RedemptionError → Bool
  | InvalidTicket => true
  | ChannelDoesNotExist _ => true
  | ChannelClosed _ => true
  | _ => false

theorem check_channel_ensures (channel : BlokliChannel) (ticket : RedeemableTicket) :
    Ensures (check_channel channel ticket) (fun _ => Redeemable channel ticket) fun e =>
      e.final = true → RuledOut channel ticket e := by
  unfold check_channel
  apply ensures_check (fun h _ => .closed h)
  intro hclosed
  apply ensures_check (fun h _ => .epoch h)
  intro hepoch
  refine ensures_bind (ensures_mapError (fun _ h => h) nofun) ?_
  intro channel_index hindex
  apply ensures_check (fun h _ => .index hindex h)
  intro hpassed
  refine ensures_bind (ensures_mapError (fun _ h => h) nofun) ?_
  intro channel_stake hstake
  apply ensures_last (fun h _ => .stake hstake h)
  intro hlow
  exact ⟨hclosed, not_not.mp hepoch, ⟨_, hindex, Nat.le_of_not_lt hpassed⟩, _, hstake, Nat.le_of_not_lt hlow⟩

/-- What the preparation of a redemption makes sure of. -/
structure Prepared (me : Address) (answers : Answers) (ticket : RedeemableTicket) : Prop where
  connected : answers.connected = true
  own : generate_channel_id (verified_issuer ticket.ticket) me = ticket.ticket.channel_id
  channel : ∃ channel rest, answers.channels = .ok (channel :: rest) ∧ Redeemable channel ticket
  payload : answers.payload = .ok ()

/-- The ticket cannot be redeemed by the node, as far as the channels say. -/
inductive Unredeemable (me : Address) (answers : Answers) (ticket : RedeemableTicket) : RedemptionError → Prop
  | foreign (h : generate_channel_id (verified_issuer ticket.ticket) me ≠ ticket.ticket.channel_id) :
      Unredeemable me answers ticket .InvalidTicket
  | missing (h : answers.channels = .ok []) :
      Unredeemable me answers ticket (.ChannelDoesNotExist ticket.ticket.channel_id)
  | ruled_out {channel : BlokliChannel} {rest : List BlokliChannel} {e : RedemptionError}
      (hchannels : answers.channels = .ok (channel :: rest)) (h : RuledOut channel ticket e) :
      Unredeemable me answers ticket e

theorem prepare_ensures (me : Address) (answers : Answers) (ticket : RedeemableTicket) :
    Ensures (prepare_ticket_redeem_payload me answers ticket) (fun _ => Prepared me answers ticket) fun e =>
      e.final = true → Unredeemable me answers ticket e := by
  unfold prepare_ticket_redeem_payload
  refine ensures_check nofun ?_
  intro hconnected
  apply ensures_check (fun h _ => .foreign h)
  intro hown
  refine ensures_bind (ensures_mapError (fun _ h => h) nofun) ?_
  intro channels hchannels
  cases channels with
  | nil => exact fun _ => .missing hchannels
  | cons channel rest =>
    apply ensures_bind ((check_channel_ensures channel ticket).imp (fun _ h => h) fun e h hfinal =>
      .ruled_out hchannels (h hfinal))
    intro _ hredeemable
    refine ensures_mapError ?_ nofun
    intro _ hpayload
    exact ⟨Bool.of_not_eq_false hconnected, not_not.mp hown, ⟨channel, rest, hchannels, hredeemable⟩, hpayload⟩

/-- The redemption of the ticket was confirmed. -/
structure Redeemed (me : Address) (answers : Answers) (ticket : RedeemableTicket) : Prop where
  prepared : Prepared me answers ticket
  confirmed : Confirmed answers

/-- The ticket can never be redeemed, for the reason. -/
inductive Refused (me : Address) (answers : Answers) (ticket : RedeemableTicket) : String → Prop
  | unredeemable {e : RedemptionError} (h : Unredeemable me answers ticket e) : Refused me answers ticket e.to_string
  | failed {reason : String} (hprepared : Prepared me answers ticket) (h : Failed answers reason) :
      Refused me answers ticket reason

/-- What is answered to a redemption says what came of it. -/
theorem redeem_ticket_cases (me : Address) (answers : Answers) (ticket : RedeemableTicket) :
    (redeem_ticket me answers ticket = .Ok ticket.ticket ∧ Redeemed me answers ticket) ∨
    (∃ reason, redeem_ticket me answers ticket = .Rejected ticket.ticket reason ∧ Refused me answers ticket reason) ∨
      ∃ error, redeem_ticket me answers ticket = .ProcessingError ticket.ticket error := by
  unfold redeem_ticket
  have hprepare := prepare_ensures me answers ticket
  split
  · next hprepared =>
    have hprepared := hprepare.of_ok hprepared
    have hsend := send_tx_ensures answers
    have hconfirm := confirm_ensures answers
    split
    · exact Or.inr (Or.inr ⟨_, rfl⟩)
    · next receipt hsent =>
      obtain ⟨hchain_info, henqueued, hsent⟩ := hsend.of_ok hsent
      obtain ⟨hsubmitted, htracked⟩ := hconfirm.of_ok hsent.symm
      exact Or.inl ⟨rfl, hprepared, hchain_info, henqueued, hsubmitted, htracked⟩
    · next reason hsent =>
      obtain ⟨_, _, hsent⟩ := hsend.of_ok hsent
      exact Or.inr (Or.inl ⟨_, rfl, .failed hprepared (hconfirm.of_error hsent.symm _ rfl)⟩)
    · next hsent =>
      obtain ⟨_, _, hsent⟩ := hsend.of_ok hsent
      split
      · next hrejection =>
        have hfailed := hconfirm.of_error hsent.symm _ (rejection_of_action hrejection)
        exact Or.inr (Or.inl ⟨_, rfl, .failed hprepared hfailed⟩)
      · exact Or.inr (Or.inr ⟨_, rfl⟩)
  · next herror => exact Or.inr (Or.inl ⟨_, rfl, .unredeemable (hprepare.of_error herror rfl)⟩)
  · next herror => exact Or.inr (Or.inl ⟨_, rfl, .unredeemable (hprepare.of_error herror rfl)⟩)
  · next herror => exact Or.inr (Or.inl ⟨_, rfl, .unredeemable (hprepare.of_error herror rfl)⟩)
  · exact Or.inr (Or.inr ⟨_, rfl⟩)

end Redeem

/-! ### The stream -/

section Stream
variable [Chain] {Q ε : Type} [TicketQueue Q ε]

/-- The connector as the client of a stream, given what is answered to one redemption after the other. -/
def client (me : Address) (answers : Nat → Answers) : ChainClient :=
  fun asked ticket => redeem_ticket me (answers asked.length) ticket

/-- Tickets that leave a queue with their results, some redemptions having been tried before. -/
inductive Settled (me : Address) (answers : Nat → Answers) (min : HoprBalance) :
    Nat → List RedeemableTicket → List RedemptionResult → Prop
  | nil {k : Nat} : Settled me answers min k [] []
  | too_low {k : Nat} {t : RedeemableTicket} {l : List RedeemableTicket} {results : List RedemptionResult}
      (hlow : t.verified_ticket.amount < min) (hrest : Settled me answers min k l results) :
      Settled me answers min k (t :: l) (.ValueTooLow t.ticket :: results)
  | redeemed {k : Nat} {t : RedeemableTicket} {l : List RedeemableTicket} {results : List RedemptionResult}
      (hmin : min ≤ t.verified_ticket.amount) (h : Redeemed me (answers k) t)
      (hrest : Settled me answers min (k + 1) l results) :
      Settled me answers min k (t :: l) (.Redeemed t.ticket :: results)
  | refused {k : Nat} {t : RedeemableTicket} {l : List RedeemableTicket} {results : List RedemptionResult}
      {reason : String} (hmin : min ≤ t.verified_ticket.amount) (h : Refused me (answers k) t reason)
      (hrest : Settled me answers min (k + 1) l results) :
      Settled me answers min k (t :: l) (.RejectedOnChain t.ticket reason :: results)

/-- The redemption of the ticket failed in a way that may be another one next time. -/
def Postponed (me : Address) (min : HoprBalance) (answers : Answers) (t : RedeemableTicket) (error : String) : Prop :=
  min ≤ t.verified_ticket.amount ∧ redeem_ticket me answers t = .ProcessingError t.ticket error

/-- Some polls of a stream took the tickets in `front` and left those in `rest`. -/
structure Settling (me : Address) (answers : Nat → Answers) (min : HoprBalance) (s : Redeeming (Faulty Q))
    (p : Polled (Faulty Q) (BackendError ε)) (front rest : List RedeemableTicket)
    (results : List RedemptionResult) : Prop where
  queued : tickets s.channel.queue = front ++ rest
  left : tickets p.state.channel.queue = rest
  settled : Settled me answers min s.asked.length front results
  /-- The items are the results, but that of the last ticket may be missing. -/
  items : p.items <+: results
  missing : results.length ≤ p.items.length + 1
  stats : Grown s.channel.stats p.state.channel.stats p.items
  stops : Stops (Postponed me min
    (answers (s.asked.length + (front.filter fun t => min ≤ t.verified_ticket.amount).length))) rest p.ended

variable {me : Address} {answers : Nat → Answers} {min : HoprBalance}

theorem client_reports : (client me answers).Reports := by
  intro asked t
  obtain ⟨h, _⟩ | ⟨_, h, _⟩ | ⟨_, h⟩ := redeem_ticket_cases me (answers asked.length) t <;>
    simp only [client, h, ChainResult.ticket]

/-- What a stream yields are the results of redemptions. -/
theorem settled_of_yields {asked l : List RedeemableTicket} {results : List RedemptionResult}
    (h : Yields (client me answers) min asked l results) : Settled me answers min asked.length l results := by
  induction h with
  | nil => exact .nil
  | too_low hlow _ ih => exact .too_low hlow ih
  | @redeemed asked t l items hmin hchain _ ih =>
    rw [List.length_append] at ih
    obtain ⟨_, h⟩ | ⟨_, h, _⟩ | ⟨_, h⟩ := redeem_ticket_cases me (answers asked.length) t
    · exact .redeemed hmin h ih
    · cases h.symm.trans hchain
    · cases h.symm.trans hchain
  | @rejected asked t l items reason hmin hchain _ ih =>
    rw [List.length_append] at ih
    obtain ⟨h, _⟩ | ⟨_, h, hrefused⟩ | ⟨_, h⟩ := redeem_ticket_cases me (answers asked.length) t
    · cases h.symm.trans hchain
    · cases h.symm.trans hchain
      exact .refused hmin hrefused ih
    · cases h.symm.trans hchain

variable [TotalTicketQueue Q]

/-- **Whatever the client, the sequencer and the backend do, tickets leave the queue in order, and only
those of low value, those whose redemption was confirmed and those that can never be redeemed.** -/
theorem redemptions_settled (me : Address) (answers : Nat → Answers) (min : HoprBalance) (n : Nat)
    (s : Redeeming (Faulty Q)) :
    ∃ front rest results, Settling me answers min s (poll (client me answers) min n s) front rest results := by
  have htaken : ∃ front rest results,
      Taken (client me answers) min s (poll (client me answers) min n s) front rest results :=
    poll_taken client_reports n
  obtain ⟨front, rest, results, h⟩ := htaken
  refine ⟨front, rest, results, h.queued, h.left, settled_of_yields h.yielded, h.items, h.missing, h.stats,
    h.stops.imp ?_⟩
  intro t error hunprocessed
  obtain ⟨hmin, ticket, hanswer⟩ := hunprocessed
  rw [client, List.length_append] at hanswer
  refine ⟨hmin, ?_⟩
  generalize answers _ = answered at hanswer ⊢
  obtain ⟨h, _⟩ | ⟨_, h, _⟩ | ⟨_, h⟩ := redeem_ticket_cases me answered t
  · cases h.symm.trans hanswer
  · cases h.symm.trans hanswer
  · cases h.symm.trans hanswer
    exact h

end Stream

section Memory

/-- Balances in wei, and channels named by the addresses of their ends. -/
@[reducible] def Chain.plain : Chain where
  verified_issuer t := ⟨t.body⟩
  generate_channel_id a b := ⟨a.bytes ++ b.bytes⟩
  parse_balance s := ((Text.parse_unsigned (2 ^ 96) (s.takeWhile Char.isDigit)).mapError String.ofList).map .ofNat
  show_channel_id _ := "0x01"
  show_error _ := "client error"

/-- The channel has the status, and every transaction succeeds. -/
def Answers.of_status (status : BlokliChannelStatus) : Answers where
  connected := true
  channels := .ok [⟨status, 1, "3".toList, "100 wei wxHOPR".toList⟩]
  payload := .ok ()
  chain_info := .ok ()
  enqueued := true
  submitted := some (.ok ())
  tracked := .ok ⟨none, some []⟩

/-- The channel is closed after the first redemption, and after the second the client fails. -/
def closing : Nat → Answers
  | 0 => .of_status .Open
  | 1 => .of_status .Closed
  | _ => {Answers.of_status .Closed with channels := .error .Other}

/-- One ticket is redeemed, one is of low value, one is rejected, and one is left. -/
theorem redemptions_settled_until_failure :
    let s := filled [.of 1 1 3 10, .of 1 1 4 5, .of 1 1 5 20, .of 1 1 6 30] fun _ => false
    let p := @poll _ _ _ (@client Chain.plain ⟨[1]⟩ closing) (.ofNat 10) 5 s
    p.items = [.Redeemed (RedeemableTicket.of 1 1 3 10).ticket, .ValueTooLow (RedeemableTicket.of 1 1 4 5).ticket,
        .RejectedOnChain (RedeemableTicket.of 1 1 5 20).ticket "channel 0x01 is closed"] ∧
      p.ended = some (.error (.RedeemError "client error")) ∧
      tickets p.state.channel.queue = [.of 1 1 6 30] ∧
      ∃ front rest results, @Settling Chain.plain _ _ _ ⟨[1]⟩ closing (.ofNat 10) s p front rest results := by
  intro s p
  exact ⟨by decide +kernel, by decide +kernel, by decide +kernel,
    @redemptions_settled Chain.plain _ _ _ _ ⟨[1]⟩ closing (.ofNat 10) 5 s⟩

end Memory

end Hopr.Connector.TicketRedemption
