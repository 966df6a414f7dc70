import Hopr.Connector.Sequencer

/-! Nonces are used in order.

After a transaction consumed its nonce `n` and nothing but refused, failed and
deduplicated transactions of the signer followed (`Since`), the cached nonce is
above `n`, and it is the successor of `n` if the pending counts read since did
not exceed it. So the next nonce signed is above `n` (`nonces_in_order`). That
needs the cached nonce to live from the signing on and `n` not to be the last
number of 64 bits; without either the nonce is signed again (`nonce_reused`). -/
namespace Hopr.Connector.NonceOrder
open Library

/-- The log ends within a transaction of the signer that was signed with nonce `n`. -/
inductive Flying (a : Address) (n : UInt64) : List Event → Prop where
  | signed {pending local_nonce : UInt64} {resynced : Bool} {log : List Event} :
    Flying a n (.signed a pending local_nonce n resynced :: log)
  | other {e : Event} {log : List Event} : Flying a n log → e.signer ≠ a → Flying a n (e :: log)

/-- The log ends after a transaction of the signer that consumed nonce `n`: since then no other
consumed one, no outcome was unknown, no gap was resynced and the cached nonce was not forgotten.
`exact`: no pending count read since exceeded the local nonce. -/
inductive Since (a : Address) (n : UInt64) : Bool → List Event → Prop where
  | consumed {log : List Event} : Flying a n log → Since a n true (.finished a (some true) :: log)
  | refused {exact : Bool} {log : List Event} :
    Since a n exact log → Since a n exact (.finished a (some false) :: log)
  | signed {exact : Bool} {pending local_nonce nonce : UInt64} {log : List Event} :
    Since a n exact log →
    Since a n (exact && pending ≤ local_nonce) (.signed a pending local_nonce nonce false :: log)
  | other {exact : Bool} {e : Event} {log : List Event} :
    Since a n exact log → e.signer ≠ a → Since a n exact (e :: log)

/-! ### One transaction -/

theorem le_max_right (a b : UInt64) : b ≤ max a b := by
  unfold max instMaxUInt64 maxOfLe
  grind

theorem le_max_left (a b : UInt64) : a ≤ max a b := by
  unfold max instMaxUInt64 maxOfLe
  grind

theorem max_eq_left {a b : UInt64} (h : b ≤ a) : max a b = a := by
  unfold max instMaxUInt64 maxOfLe
  grind

/-- What the nonce that was determined is: at least the pending count and, unless a gap was
resynced, at least the local nonce. -/
theorem sync_nonce_spec (now : Instant) (local_nonce : UInt64) (gaps : Gaps) (signer : Address)
    (pending : UInt64) (tolerance : Duration) :
    let synced := sync_nonce now local_nonce gaps signer pending tolerance
    synced.local_nonce = synced.nonce ∧ pending ≤ synced.nonce ∧
      (synced.resynced = false → synced.nonce = max local_nonce pending) := by
  refine ⟨rfl, le_max_right _ _, fun hresynced => ?_⟩
  unfold sync_nonce at hresynced ⊢
  dsimp only at hresynced ⊢
  rw [hresynced]
  rfl

section Settle
variable {TxId : Type} [DecidableEq TxId] {c : Caches TxId} {submission : Submission TxId}

theorem settle_other {a signer : Address} (hne : signer ≠ a) :
    (settle signer submission c).2.current_nonce a = c.current_nonce a := by
  unfold settle
  dsimp only
  cases nonce_consumed submission (deduplicated submission c.issued_tx_ids).1 with
  | none => exact Function.update_of_ne hne.symm _ _
  | some consumed =>
    cases consumed with
    | true => exact Function.update_of_ne hne.symm _ _
    | false => rfl

theorem settle_consumed {a : Address} (h : (settle a submission c).1 = some true) :
    (settle a submission c).2.current_nonce a = some ((c.current_nonce a).getD 0 + 1) := by
  unfold settle at h ⊢
  dsimp only at h ⊢
  rw [h]
  exact Function.update_self _ _ _

theorem settle_refused {a : Address} (h : (settle a submission c).1 = some false) :
    (settle a submission c).2.current_nonce = c.current_nonce := by
  unfold settle at h ⊢
  dsimp only at h ⊢
  rw [h]

end Settle

/-! ### The invariant -/

section Runs
variable {TxId : Type} {tolerance : Duration} {s s' : State TxId}

/-- What the log says about the cached nonces. -/
structure Ordered (s : State TxId) : Prop where
  flying : ∀ a n, Flying a n s.log →
    s.caches.current_nonce a = some n ∧ s.flight = some (a, n)
  since : ∀ a n exact, n.toNat + 1 < 2 ^ 64 → Since a n exact s.log →
    ∃ l, s.caches.current_nonce a = some l ∧ n < l ∧ (exact = true → l = n + 1)
  covered : ∀ a pending local_nonce nonce resynced,
    .signed a pending local_nonce nonce resynced ∈ s.log → pending ≤ nonce
  used : ∀ a n exact log pending local_nonce nonce, n.toNat + 1 < 2 ^ 64 → Since a n exact log →
    .signed a pending local_nonce nonce false :: log <:+ s.log →
    n < nonce ∧ (exact = true → pending ≤ local_nonce → nonce = n + 1)

theorem ordered_start : Ordered (start TxId) := by
  refine ⟨?_, ?_, nofun, ?_⟩
  · intro a n h
    cases h
  · intro a n exact _ h
    cases h
  · intro a n exact log pending local_nonce nonce _ _ hsuffix
    cases List.suffix_nil.mp hsuffix

/-- An event of one signer leaves the others alone. -/
theorem Ordered.logged (h : Ordered s) {e : Event} (hlog : s'.log = e :: s.log)
    (hother : ∀ a, e.signer ≠ a →
      s'.caches.current_nonce a = s.caches.current_nonce a ∧
        ∀ n, s.flight = some (a, n) → s'.flight = some (a, n))
    (hflying : ∀ n, Flying e.signer n (e :: s.log) →
      s'.caches.current_nonce e.signer = some n ∧ s'.flight = some (e.signer, n))
    (hsince : ∀ n exact, n.toNat + 1 < 2 ^ 64 → Since e.signer n exact (e :: s.log) →
      ∃ l, s'.caches.current_nonce e.signer = some l ∧ n < l ∧ (exact = true → l = n + 1))
    (hsigned : ∀ a pending local_nonce nonce resynced,
      e = .signed a pending local_nonce nonce resynced →
      local_nonce = (s.caches.current_nonce a).getD 0 ∧ pending ≤ nonce ∧
        (resynced = false → nonce = max local_nonce pending)) : Ordered s' := by
  constructor
  · intro a n hflight
    rw [hlog] at hflight
    by_cases hne : e.signer = a
    · subst hne
      exact hflying n hflight
    · cases hflight with
      | signed => exact absurd rfl hne
      | other hflight _ =>
        obtain ⟨hnonce, hat⟩ := h.flying a n hflight
        exact ⟨(hother a hne).1.trans hnonce, (hother a hne).2 n hat⟩
  · intro a n exact hn hs
    rw [hlog] at hs
    by_cases hne : e.signer = a
    · subst hne
      exact hsince n exact hn hs
    · cases hs with
      | consumed _ => exact absurd rfl hne
      | refused _ => exact absurd rfl hne
      | signed _ => exact absurd rfl hne
      | other hs _ =>
        rw [(hother a hne).1]
        exact h.since a n exact hn hs
  · intro a pending local_nonce nonce resynced hmem
    rw [hlog] at hmem
    rcases List.mem_cons.mp hmem with heq | hmem
    · exact (hsigned a pending local_nonce nonce resynced heq.symm).2.1
    · exact h.covered a pending local_nonce nonce resynced hmem
  · intro a n exact log pending local_nonce nonce hn hs hsuffix
    rw [hlog] at hsuffix
    rcases List.suffix_cons_iff.mp hsuffix with heq | hsuffix
    · obtain ⟨rfl, rfl⟩ := List.cons.inj heq
      obtain ⟨hlocal, _, hmax⟩ := hsigned a pending local_nonce nonce false rfl
      obtain ⟨l, hl, hlt, hexact⟩ := h.since a n exact hn hs
      have hmax := hmax rfl
      have hl : local_nonce = l := by rw [hlocal, hl]; rfl
      subst hl
      refine ⟨?_, fun he hle => ?_⟩
      · rw [hmax]
        exact UInt64.lt_of_lt_of_le hlt (le_max_left _ _)
      · rw [hmax, max_eq_left hle]
        exact hexact he
    · exact h.used a n exact log pending local_nonce nonce hn hs hsuffix

variable [DecidableEq TxId]

/-- An outcome raises the cached nonce of a transaction that consumed it. -/
theorem Ordered.settled (h : Ordered s) (signer : Address) (submission : Submission TxId)
    (hflight : ∀ a n, signer ≠ a → s.flight = some (a, n) → s'.flight = some (a, n))
    (hcaches : s'.caches = (settle signer submission s.caches).2)
    (hlog : s'.log = .finished signer (settle signer submission s.caches).1 :: s.log) :
    Ordered s' := by
  refine h.logged hlog (fun a hne => ⟨?_, fun n => hflight a n hne⟩) ?_ ?_ nofun
  · rw [hcaches]
    exact settle_other hne
  · intro n hflight
    cases hflight with
    | other _ hne => exact absurd rfl hne
  · intro n exact hn hs
    generalize hconsumed : (settle signer submission s.caches).1 = consumed at hs
    rw [hcaches]
    cases hs with
    | consumed hfly =>
      have hnonce := settle_consumed hconsumed
      rw [(h.flying signer n hfly).1] at hnonce
      refine ⟨n + 1, hnonce, ?_, fun _ => rfl⟩
      rw [UInt64.lt_iff_toNat_lt, UInt64.toNat_add, UInt64.toNat_one, Nat.mod_eq_of_lt hn]
      exact Nat.lt_succ_self _
    | refused hs =>
      rw [settle_refused hconsumed]
      exact h.since signer n exact hn hs
    | other _ hne => exact absurd rfl hne

/-- **Every step keeps the nonces in order.** -/
theorem ordered_step {a : Action TxId} (h : Ordered s) (hstep : step tolerance s a = some s') :
    Ordered s' := by
  cases a with
  | forget_gap signer =>
    cases hstep
    exact ⟨h.flying, h.since, h.covered, h.used⟩
  | forget_tx_id tx_id =>
    cases hstep
    exact ⟨h.flying, h.since, h.covered, h.used⟩
  | forget_nonce signer =>
    cases hstep
    refine h.logged rfl (fun a hne => ⟨Function.update_of_ne (Ne.symm hne) _ _, fun _ => id⟩) ?_ ?_ nofun
    · intro n hflight
      cases hflight with
      | other _ hne => exact absurd rfl hne
    · intro n exact _ hs
      cases hs with
      | other _ hne => exact absurd rfl hne
  | sign signer pending now =>
    simp only [step] at hstep
    split_ifs at hstep with hidle
    cases hstep
    have hspec := sync_nonce_spec now ((s.caches.current_nonce signer).getD 0) s.caches.nonce_gaps
      signer pending tolerance
    generalize sync_nonce now ((s.caches.current_nonce signer).getD 0) s.caches.nonce_gaps
      signer pending tolerance = synced at hspec ⊢
    obtain ⟨nonce, local_nonce, gaps, resynced⟩ := synced
    obtain ⟨hlocal, hcover, hmax⟩ := hspec
    obtain rfl : local_nonce = nonce := hlocal
    refine h.logged rfl (fun a hne => ⟨Function.update_of_ne (Ne.symm hne) _ _, ?_⟩) ?_ ?_ ?_
    · intro n hflight
      rw [hflight] at hidle
      exact absurd rfl hidle
    · intro n hflight
      cases hflight with
      | signed =>
        exact ⟨Function.update_self _ _ _, rfl⟩
      | other _ hne => exact absurd rfl hne
    · intro n exact hn hs
      cases hs with
      | other _ hne => exact absurd rfl hne
      | signed hs =>
        obtain ⟨l, hl, hlt, hexact⟩ := h.since signer n _ hn hs
        have hmax : local_nonce = max ((s.caches.current_nonce signer).getD 0) pending := hmax rfl
        rw [hl] at hmax
        refine ⟨local_nonce, Function.update_self _ _ _, ?_, fun he => ?_⟩
        · rw [hmax]
          exact UInt64.lt_of_lt_of_le hlt (le_max_left _ _)
        · obtain ⟨he, hle⟩ := Bool.and_eq_true_iff.mp he
          rw [hl] at hle
          rw [hmax, max_eq_left (of_decide_eq_true hle)]
          exact hexact he
    · intro a p l n r heq
      cases heq
      exact ⟨rfl, hcover, hmax⟩
  | fail signer error =>
    simp only [step] at hstep
    split_ifs at hstep with hidle
    cases hstep
    have hnoflight : s.flight = none := by simpa using hidle
    refine h.settled signer (.error error) (fun a n _ hat => ?_) rfl rfl
    rw [hnoflight] at hat
    cases hat
  | finish submission =>
    simp only [step, Option.map_eq_some_iff] at hstep
    obtain ⟨⟨signer, nonce⟩, hflight, rfl⟩ := hstep
    refine h.settled signer submission (fun a n hne hat => ?_) rfl rfl
    rw [hflight] at hat
    cases hat
    exact absurd rfl hne

/-- **Nonces are signed in order in every run.** A nonce is at least the pending count read for it.
A nonce signed after the signer consumed `n`, without a resync or anything that interrupts in
between, is above `n`, and is its successor if the pending counts read did not exceed the local
nonce; `n` is not the last number of 64 bits. -/
theorem nonces_in_order {as : List (Action TxId)} {s : State TxId}
    (hrun : (machine TxId tolerance).run (start TxId) as = some s) :
    (∀ a pending local_nonce nonce resynced,
      .signed a pending local_nonce nonce resynced ∈ s.log → pending ≤ nonce) ∧
    ∀ a n exact log pending local_nonce nonce, n.toNat < 2 ^ 64 - 1 → Since a n exact log →
      .signed a pending local_nonce nonce false :: log <:+ s.log →
      n < nonce ∧ (exact = true → pending ≤ local_nonce → nonce = n + 1) := by
  have h : Ordered s := (machine TxId tolerance).run_invariant_of_step
    (fun _ _ _ h hstep => ordered_step h hstep) hrun ordered_start
  refine ⟨h.covered, fun a n exact log pending local_nonce nonce hn => ?_⟩
  exact h.used a n exact log pending local_nonce nonce (by omega)

end Runs

/-- Seven is consumed, a refusal follows, and eight is signed though the chain still counts six. -/
theorem nonces_in_order_refused :
    let as : List (Action Nat) :=
      [.sign ⟨[1]⟩ 7 0, .finish (.ok (.ok 70)), .sign ⟨[1]⟩ 6 1,
        .finish (.ok (.error (.ClientError (.BlokliError "rpc error" "FEE_TOO_LOW")))),
        .sign ⟨[1]⟩ 6 2]
    ∃ s : State Nat, (machine Nat 1000).run (start Nat) as = some s ∧
      s.flight = some (⟨[1]⟩, 8) ∧ (7 : UInt64) < 8 := by
  intro as
  obtain ⟨s, hrun, hflight, hlog⟩ : ∃ s : State Nat,
      (machine Nat 1000).run (start Nat) as = some s ∧ s.flight = some (⟨[1]⟩, 8) ∧
        s.log = [.signed ⟨[1]⟩ 6 8 8 false, .finished ⟨[1]⟩ (some false),
          .signed ⟨[1]⟩ 6 8 8 false, .finished ⟨[1]⟩ (some true), .signed ⟨[1]⟩ 7 0 7 false] :=
    (machine _ _).exists_run (by decide +kernel)
  have hsince : Since ⟨[1]⟩ 7 (true && decide ((6 : UInt64) ≤ 8))
      [.finished ⟨[1]⟩ (some false), .signed ⟨[1]⟩ 6 8 8 false, .finished ⟨[1]⟩ (some true),
        .signed ⟨[1]⟩ 7 0 7 false] := .refused (.signed (.consumed .signed))
  refine ⟨s, hrun, hflight, ?_⟩
  exact ((nonces_in_order hrun).2 ⟨[1]⟩ 7 _ _ 6 8 8 (by decide) hsince
    (hlog ▸ List.suffix_refl _)).1

/-- **A nonce is signed again** when it was the last number of 64 bits, after which the cached nonce
wraps to zero, and when the cached nonce was evicted before the outcome was known, after which it
counts from zero: both times the chain's pending count has not moved. -/
theorem nonce_reused :
    (∃ s : State Nat, (machine Nat 1000).run (start Nat)
      [.sign ⟨[1]⟩ 18446744073709551615 0, .finish (.ok (.ok 70)),
        .sign ⟨[1]⟩ 18446744073709551615 1, .finish (.ok (.ok 71))] = some s ∧
      s.log = [.finished ⟨[1]⟩ (some true),
        .signed ⟨[1]⟩ 18446744073709551615 0 18446744073709551615 false,
        .finished ⟨[1]⟩ (some true),
        .signed ⟨[1]⟩ 18446744073709551615 0 18446744073709551615 false]) ∧
    ∃ s : State Nat, (machine Nat 1000).run (start Nat)
      [.sign ⟨[1]⟩ 10 0, .forget_nonce ⟨[1]⟩, .finish (.ok (.ok 70)), .sign ⟨[1]⟩ 10 1,
        .finish (.ok (.ok 71))] = some s ∧
      s.log = [.finished ⟨[1]⟩ (some true), .signed ⟨[1]⟩ 10 1 10 false,
        .finished ⟨[1]⟩ (some true), .forgotten ⟨[1]⟩, .signed ⟨[1]⟩ 10 0 10 false] :=
  ⟨(machine _ _).exists_run (by decide +kernel), (machine _ _).exists_run (by decide +kernel)⟩

end Hopr.Connector.NonceOrder
