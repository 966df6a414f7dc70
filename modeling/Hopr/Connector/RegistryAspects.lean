import Hopr.Connector.ServiceRegistry
import Hopr.Library.Latest

/-! What is told about the registry.

What is told about one aspect of the registry comes from one subscription, and the last
that is told decides. A step changes what is on its way to the follower in one of few
ways (`Moves`), and with each of them the last that is told of an aspect stays so
(`told_moves`). -/
namespace Hopr.Connector.ServiceRegistry
open Library Services

/-! ### Aspects -/

/-- Something about the registry, and what events tell of it. -/
structure Aspect (B : Type) where
  of : Registry → B
  tells : ServiceEvent → Option B
  source : Source
  apply : ∀ registry event, of (registry.apply event) = (tells event).getD (of registry)
  silent : ∀ event, ServiceRegistry.source event ≠ source → tells event = none

namespace Aspect

def entry (key : ServiceType × Address) : Aspect (Option ServiceEntry) where
  of registry := registry.entries key
  tells
    | .Registered entry | .Updated entry =>
      if key = (entry.service_type, entry.node) then some (some entry) else none
    | .Deregistered service_type node => if key = (service_type, node) then some none else none
    | _ => none
  source := .services
  apply registry event := by
    cases event with
    | Registered entry | Updated entry =>
      simp only [Registry.apply, Function.update_apply]
      split <;> rfl
    | Deregistered service_type node =>
      simp only [Registry.apply, Function.update_apply]
      split <;> rfl
    | _ => rfl
  silent event hother := by
    cases event with
    | Registered | Updated | Deregistered => exact absurd rfl hother
    | _ => rfl

def owner (service_type : ServiceType) : Aspect (Option (Option Address)) where
  of registry := registry.owners service_type
  tells
    | .TypeRegistered registered owner => if service_type = registered then some (some (some owner)) else none
    | .TypeOwnerChanged changed owner => if service_type = changed then some (some owner) else none
    | _ => none
  source := .service_types
  apply registry event := by
    cases event with
    | TypeRegistered registered owner | TypeOwnerChanged registered owner =>
      simp only [Registry.apply, Function.update_apply]
      split <;> rfl
    | _ => rfl
  silent event hother := by
    cases event with
    | TypeRegistered | TypeOwnerChanged => exact absurd rfl hother
    | _ => rfl

def fee : Aspect HoprBalance where
  of registry := registry.config.type_registration_fee
  tells
    | .TypeRegistrationFeeChanged fee => some fee
    | _ => none
  source := .service_registry_config
  apply registry event := by cases event <;> rfl
  silent event hother := by
    cases event with
    | TypeRegistrationFeeChanged => exact absurd rfl hother
    | _ => rfl

def pointer : Aspect Address where
  of registry := registry.config.node_safe_registry
  tells
    | .RegistryPointerChanged pointer => some pointer
    | _ => none
  source := .service_registry_config
  apply registry event := by cases event <;> rfl
  silent event hother := by
    cases event with
    | RegistryPointerChanged => exact absurd rfl hother
    | _ => rfl

variable {B : Type} (A : Aspect B)

theorem follow (registry : Registry) (events : List ServiceEvent) :
    A.of (registry.follow events) = latest A.tells (A.of registry) events := by
  induction events generalizing registry with
  | nil => rfl
  | cons event rest ih =>
    rw [latest_cons, ← A.apply]
    exact ih _

theorem silent_of_sources {src : Source} {events : List ServiceEvent}
    (h : ∀ event ∈ events, ServiceRegistry.source event = src) (hother : src ≠ A.source) :
    ∀ event ∈ events, A.tells event = none :=
  fun event hmem => A.silent event (h event hmem ▸ hother)

end Aspect

/-- Registries are the same if all their aspects are. -/
theorem registry_ext {r r' : Registry} (h : ∀ (B : Type) (A : Aspect B), A.of r = A.of r') : r = r' := by
  obtain ⟨entries, owners, fee, pointer⟩ := r
  obtain ⟨entries', owners', fee', pointer'⟩ := r'
  obtain rfl : entries = entries' := funext fun key => h _ (.entry key)
  obtain rfl : owners = owners' := funext fun service_type => h _ (.owner service_type)
  obtain rfl : fee = fee' := h _ .fee
  obtain rfl : pointer = pointer' := h _ .pointer
  rfl

/-! ### What a step does -/

/-- What a step does to what is on its way to the follower. -/
inductive Moves (s s' : State) : Prop
  /-- The registry changes, and the subscription tells so. -/
  | changed (src : Source) (events : List ServiceEvent) (hregistry : s'.registry = s.registry.follow events)
      (hsource : ∀ event ∈ events, source event = src)
      (hown : s'.unpolled src = s.unpolled src ++ if s.subscribed src then events else [])
      (hother : ∀ src', src' ≠ src → s'.unpolled src' = s.unpolled src')
      (hsubscribed : s'.subscribed = s.subscribed) (hinbox : s'.inbox = s.inbox) (hview : s'.view = s.view)
  /-- A subscription is made, and what it replays is so. -/
  | made (src : Source) (hregistry : s'.registry = s.registry) (hearly : s.subscribed src = false)
      (hso : ∀ event ∈ s'.unpolled src, s.registry.apply event = s.registry)
      (hother : ∀ src', src' ≠ src → s'.unpolled src' = s.unpolled src')
      (hinbox : s'.inbox = s.inbox) (hview : s'.view = s.view)
  | polled (src : Source) (events : List ServiceEvent) (hregistry : s'.registry = s.registry)
      (hsource : ∀ event ∈ events, source event = src) (hown : s.unpolled src = events ++ s'.unpolled src)
      (hother : ∀ src', src' ≠ src → s'.unpolled src' = s.unpolled src')
      (hsubscribed : s'.subscribed = s.subscribed) (hinbox : s'.inbox = s.inbox.map (· ++ events))
      (hview : s'.view = s.view)
  | followed (hall : ∀ src, s.subscribed src = true) (hnone : s.inbox = none) (heq : s' = {s with inbox := some []})
  | queried (hsome : s.inbox ≠ none) (heq : s' = {s with view := some s.registry})
  | applied (event : ServiceEvent) (rest : List ServiceEvent) (view : Registry) (hinbox : s.inbox = some (event :: rest))
      (hview : s.view = some view) (heq : s' = {s with inbox := some rest, view := some (view.apply event)})

/-! ### What is on its way -/

namespace State

/-- What was broadcast to the follower and what will be, as far as it comes from a subscription. -/
def pending (s : State) (src : Source) : List ServiceEvent := s.inbox.getD [] ++ s.unpolled src

theorem unpolled_early {s : State} {src : Source} (h : s.subscribed src = false) : s.unpolled src = [] := by
  cases src with
  | services | service_types | service_registry_config =>
    have hnone := Option.isSome_eq_false_iff.mp h
    rw [Option.isNone_iff_eq_none] at hnone
    rw [unpolled, hnone]
    rfl

end State

/-- What is told last of an aspect is so, and whoever applies it has it. -/
structure Told {B : Type} (A : Aspect B) (s : State) : Prop where
  late : s.inbox ≠ none → ∀ src, s.subscribed src = true
  unseen : s.inbox = none → s.view = none
  registry : latest A.tells (A.of s.registry) (s.pending A.source) = A.of s.registry
  view : ∀ view, s.view = some view → latest A.tells (A.of view) (s.pending A.source) = A.of s.registry

theorem follow_same {registry : Registry} {events : List ServiceEvent}
    (h : ∀ event ∈ events, registry.apply event = registry) : registry.follow events = registry := by
  induction events with
  | nil => rfl
  | cons event rest ih =>
    show (registry.apply event).follow rest = registry
    rw [h event List.mem_cons_self]
    exact ih fun e he => h e (List.mem_cons_of_mem _ he)

section Told
variable {B : Type} {A : Aspect B} {s s' : State}

theorem Told.early (h : Told A s) {src : Source} (hearly : s.subscribed src = false) :
    s.inbox = none ∧ s.view = none := by
  have hnone : s.inbox = none := by
    by_contra hsome
    rw [h.late hsome src] at hearly
    cases hearly
  exact ⟨hnone, h.unseen hnone⟩

/-- Nothing is on its way to a follower that is not there. -/
theorem told_early {s : State} (hinbox : s.inbox = none) (hview : s.view = none)
    (hso : latest A.tells (A.of s.registry) (s.unpolled A.source) = A.of s.registry) : Told A s := by
  have hpending : s.pending A.source = s.unpolled A.source := by
    rw [State.pending, hinbox]
    rfl
  refine ⟨fun hsome => absurd hinbox hsome, fun _ => hview, by rw [hpending]; exact hso, fun view hsome => ?_⟩
  rw [hview] at hsome
  cases hsome

theorem told_moves (h : Told A s) (hmoves : Moves s s') : Told A s' := by
  cases hmoves with
  | changed src events hregistry hsource hown hother hsubscribed hinbox hview =>
    have hof : A.of s'.registry = latest A.tells (A.of s.registry) events := by rw [hregistry, A.follow]
    by_cases hsrc : src = A.source
    · subst hsrc
      by_cases hlate : s.subscribed A.source = true
      · rw [if_pos hlate] at hown
        have hpending : s'.pending A.source = s.pending A.source ++ events := by
          rw [State.pending, State.pending, hinbox, hown, List.append_assoc]
        refine ⟨?_, ?_, ?_, ?_⟩
        · rw [hinbox, hsubscribed]
          exact h.late
        · rw [hinbox, hview]
          exact h.unseen
        · rw [hpending, hof]
          exact latest_further h.registry
        · intro view hseen
          rw [hview] at hseen
          rw [hpending, hof, latest_append, h.view view hseen]
      · rw [Bool.not_eq_true] at hlate
        obtain ⟨hnone, hunseen⟩ := h.early hlate
        refine told_early (hinbox.trans hnone) (hview.trans hunseen) ?_
        rw [hown, hlate, State.unpolled_early hlate]
        rfl
    · have hsame : A.of s'.registry = A.of s.registry := by
        rw [hof, latest_none (A.silent_of_sources hsource hsrc)]
      have hpending : s'.pending A.source = s.pending A.source := by
        rw [State.pending, State.pending, hinbox, hother A.source (Ne.symm hsrc)]
      refine ⟨?_, ?_, ?_, ?_⟩
      · rw [hinbox, hsubscribed]
        exact h.late
      · rw [hinbox, hview]
        exact h.unseen
      · rw [hpending, hsame]
        exact h.registry
      · intro view hseen
        rw [hpending, hsame]
        exact h.view view (hview ▸ hseen)
  | made src hregistry hearly hso hother hinbox hview =>
    obtain ⟨hnone, hunseen⟩ := h.early hearly
    refine told_early (hinbox.trans hnone) (hview.trans hunseen) ?_
    rw [hregistry]
    by_cases hsrc : src = A.source
    · subst hsrc
      rw [← A.follow, follow_same hso]
    · have hpending : s.pending A.source = s.unpolled A.source := by
        rw [State.pending, hnone]
        rfl
      rw [hother A.source (Ne.symm hsrc), ← hpending]
      exact h.registry
  | polled src events hregistry hsource hown hother hsubscribed hinbox hview =>
    cases hib : s.inbox with
    | none =>
      rw [hib] at hinbox
      refine told_early hinbox (hview.trans (h.unseen hib)) ?_
      have hold := h.registry
      rw [State.pending, hib] at hold
      rw [hregistry]
      by_cases hsrc : src = A.source
      · subst hsrc
        rw [hown] at hold
        exact latest_later hold
      · rw [hother A.source (Ne.symm hsrc)]
        exact hold
    | some inbox =>
      rw [hib] at hinbox
      have hlatest : ∀ b, latest A.tells b (s'.pending A.source) = latest A.tells b (s.pending A.source) := by
        intro b
        rw [State.pending, State.pending, hinbox, hib]
        show latest A.tells b (inbox ++ events ++ s'.unpolled A.source) =
          latest A.tells b (inbox ++ s.unpolled A.source)
        by_cases hsrc : src = A.source
        · subst hsrc
          rw [hown, List.append_assoc]
        · rw [hother A.source (Ne.symm hsrc), latest_silent (A.silent_of_sources hsource hsrc)]
      refine ⟨?_, ?_, ?_, ?_⟩
      · intro _
        rw [hsubscribed]
        exact h.late (by rw [hib]; exact Option.some_ne_none _)
      · intro hnone
        rw [hinbox] at hnone
        cases hnone
      · rw [hlatest, hregistry]
        exact h.registry
      · intro view hseen
        rw [hlatest, hregistry]
        exact h.view view (hview ▸ hseen)
  | followed hall hnone heq =>
    subst heq
    have hpending : s.pending A.source = s.unpolled A.source := by
      rw [State.pending, hnone]
      rfl
    refine ⟨fun _ => hall, fun hn => (nomatch hn), ?_, ?_⟩
    · have hold := h.registry
      rw [hpending] at hold
      exact hold
    · intro view hseen
      rw [show s.view = none from h.unseen hnone] at hseen
      cases hseen
  | queried hsome heq =>
    subst heq
    refine ⟨h.late, fun hnone => absurd hnone hsome, h.registry, fun view hseen => ?_⟩
    cases hseen
    exact h.registry
  | applied event rest view hinbox hview heq =>
    subst heq
    have hpending : s.pending A.source = [event] ++ (rest ++ s.unpolled A.source) := by
      rw [State.pending, hinbox]
      rfl
    refine ⟨fun _ => h.late (by rw [hinbox]; exact Option.some_ne_none _), fun hn => (nomatch hn), ?_, ?_⟩
    · have hold := h.registry
      rw [hpending] at hold
      exact latest_later hold
    · intro view' hseen
      cases hseen
      have hold := h.view view hview
      rw [hpending, List.singleton_append, latest_cons, ← A.apply] at hold
      exact hold

end Told

end Hopr.Connector.ServiceRegistry
