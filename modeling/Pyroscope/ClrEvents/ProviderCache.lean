import Mathlib.Data.Fintype.Basic
import Pyroscope.Lib.Transition

/-!
# The cache of event providers

`EventPipeEventsManager` caches what the name of a provider says, under its address, which may come
to belong to another one.
-/

namespace Pyroscope.ClrEvents

open Transition Function Option

inductive DotnetEventsProvider where
  | unknown | clr | http | sockets | nameResolution | netSecurity
  deriving DecidableEq

/-- `TryResolveProvider`, for a lookup of the name which succeeds. -/
def resolveProvider (providerName : String) : DotnetEventsProvider :=
  if providerName = "Microsoft-Windows-DotNETRuntime" then .clr
  else if providerName = "System.Net.Http" then .http
  else if providerName = "System.Net.Sockets" then .sockets
  else if providerName = "System.Net.NameResolution" then .nameResolution
  else if providerName = "System.Net.Security" then .netSecurity
  else .unknown

/-- An event which is being delivered, with what `TryGetEventInfo` says of its metadata. -/
structure Delivery (Address : Type) where
  provider : Address
  emitter : String
  isReadable : Bool
  missed : Bool

/-- What becomes of an event: the parser gets it, or the provider is unknown. -/
inductive Outcome where
  | dispatched (provider : DotnetEventsProvider)
  | dropped (lookupFailed : Bool)
  deriving DecidableEq

structure ProviderCache (Address Thread : Type) where
  alive : Address → Option String
  providers : Address → Option DotnetEventsProvider
  handling : Thread → Option (Delivery Address)
  handled : List (String × Outcome)

inductive ProviderEvent (Address Thread : Type) where
  /-- A provider is created, possibly at the address of one which has been deleted. -/
  | onProviderCreated (provider : Address) (name : String) (lookupSucceeds : Bool)
  | parseEvent (thread : Thread) (provider : Address) (isReadable : Bool)
  /-- The two locked sections of `GetProvider`. -/
  | findShared (thread : Thread)
  | findExclusive (thread : Thread) (lookupSucceeds : Bool)

namespace ProviderCache

variable {Address Thread : Type} [DecidableEq Address] [DecidableEq Thread]

def initial : ProviderCache Address Thread := ⟨fun _ => none, fun _ => none, fun _ => none, []⟩

/-- `ParseEvent` behind `GetProvider`. -/
def finish (thread : Thread) (delivery : Delivery Address) (provider : DotnetEventsProvider)
    (lookupFailed : Bool) (cache : ProviderCache Address Thread) : ProviderCache Address Thread :=
  { cache with
    handling := update cache.handling thread none
    handled := (delivery.emitter,
      if provider = .unknown then .dropped lookupFailed
      else if delivery.isReadable then .dispatched provider else .dropped false) ::
        cache.handled }

def store (provider : Address) (resolved : DotnetEventsProvider)
    (cache : ProviderCache Address Thread) : ProviderCache Address Thread :=
  { cache with providers := update cache.providers provider (some resolved) }

def next (cache : ProviderCache Address Thread) :
    ProviderEvent Address Thread → Option (ProviderCache Address Thread)
  | .onProviderCreated provider name lookupSucceeds =>
    let cache := { cache with alive := update cache.alive provider (some name) }
    some (if lookupSucceeds then cache.store provider (resolveProvider name) else cache)
  | .parseEvent thread provider isReadable => do
    let name ← cache.alive provider
    if cache.handling thread = none then
      some { cache with
        handling := update cache.handling thread (some ⟨provider, name, isReadable, false⟩) }
    else none
  | .findShared thread => do
    let delivery ← cache.handling thread
    if delivery.missed then none
    else
      match cache.providers delivery.provider with
      | some provider => some (cache.finish thread delivery provider false)
      | none =>
        some { cache with
          handling :=
            update cache.handling thread (some { delivery with missed := true }) }
  | .findExclusive thread lookupSucceeds => do
    let delivery ← cache.handling thread
    if delivery.missed = false then none
    else
      match cache.providers delivery.provider with
      | some provider => some (cache.finish thread delivery provider false)
      | none =>
        if lookupSucceeds then do
          let resolved := resolveProvider (← cache.alive delivery.provider)
          some ((cache.store delivery.provider resolved).finish thread delivery resolved false)
        else some (cache.finish thread delivery .unknown true)

def system : System (ProviderCache Address Thread) (ProviderEvent Address Thread) :=
  .ofFunction initial next

end ProviderCache

/-- The event has gone to the parser of its provider, or its provider is not tracked or could not be
looked up. -/
def Outcome.Right (emitter : String) : Outcome → Prop
  | .dispatched provider => provider = resolveProvider emitter
  | .dropped lookupFailed => lookupFailed = true ∨ resolveProvider emitter = .unknown

namespace ProviderCache

variable {Address Thread : Type} {cache after : ProviderCache Address Thread} {thread : Thread}
variable {delivery : Delivery Address} {provider : Address} {resolved : DotnetEventsProvider}

/-- A provider is created where no event of an earlier one is being delivered, and its name can be
looked up if there is an entry under its address; the metadata of an event can be read. -/
def Orderly (cache : ProviderCache Address Thread) : ProviderEvent Address Thread → Prop
  | .onProviderCreated provider _ lookupSucceeds =>
    (∀ thread, ∀ delivery ∈ cache.handling thread, delivery.provider ≠ provider) ∧
      (lookupSucceeds = true ∨ cache.providers provider = none)
  | .parseEvent _ _ isReadable => isReadable = true
  | .findShared _ | .findExclusive .. => True

/-- Entries and deliveries are about the provider which is alive, and all events went right. -/
structure Fresh (cache : ProviderCache Address Thread) : Prop where
  cached : ∀ provider resolved, cache.providers provider = some resolved →
    ∃ name, cache.alive provider = some name ∧ resolved = resolveProvider name
  emitted : ∀ thread, ∀ delivery ∈ cache.handling thread,
    cache.alive delivery.provider = some delivery.emitter ∧ delivery.isReadable = true
  right : ∀ event ∈ cache.handled, event.2.Right event.1

theorem Fresh.of_cached (fresh : cache.Fresh) (isHandled : cache.handling thread = some delivery)
    (found : cache.providers delivery.provider = some resolved) :
    resolved = resolveProvider delivery.emitter := by
  rcases fresh.cached _ _ found with ⟨name, isAlive, same⟩
  rw [(fresh.emitted thread delivery isHandled).1] at isAlive
  cases isAlive
  exact same

instance [Fintype Thread] [DecidableEq Address] (cache : ProviderCache Address Thread) :
    ∀ event, Decidable (cache.Orderly event)
  | .onProviderCreated .. => inferInstanceAs (Decidable (_ ∧ _))
  | .parseEvent _ _ isReadable => inferInstanceAs (Decidable (isReadable = true))
  | .findShared .. | .findExclusive .. => .isTrue trivial

theorem Fresh.create [DecidableEq Address] (fresh : cache.Fresh) (name : String)
    (entry : Option DotnetEventsProvider)
    (noDelivery : ∀ thread, ∀ delivery ∈ cache.handling thread, delivery.provider ≠ provider)
    (resolves : ∀ resolved ∈ entry, resolved = resolveProvider name) :
    ({ cache with
      alive := update cache.alive provider (some name)
      providers := update cache.providers provider entry }).Fresh := by
  refine ⟨?_, ?_, fresh.right⟩
  · intro other resolved found
    dsimp only at found ⊢
    by_cases same : other = provider
    · subst same
      rw [update_self] at found ⊢
      exact ⟨name, rfl, resolves resolved found⟩
    · rw [update_of_ne same] at found ⊢
      exact fresh.cached other resolved found
  · intro thread delivery isHandled
    dsimp only at isHandled ⊢
    rw [update_of_ne (noDelivery thread delivery isHandled)]
    exact fresh.emitted thread delivery isHandled

theorem Fresh.store [DecidableEq Address] {name : String} (fresh : cache.Fresh)
    (isAlive : cache.alive provider = some name) :
    (cache.store provider (resolveProvider name)).Fresh := by
  refine ⟨(forall_update_iff _ fun other entry => ∀ resolved, entry = some resolved →
    ∃ name, cache.alive other = some name ∧ resolved = resolveProvider name).mpr ⟨?_, ?_⟩,
    fresh.emitted, fresh.right⟩
  · intro resolved found
    exact ⟨name, isAlive, (some.inj found).symm⟩
  · exact fun other _ => fresh.cached other

variable [DecidableEq Thread]

theorem Fresh.handle {handling : Option (Delivery Address)} (fresh : cache.Fresh) (thread : Thread)
    (emitted : ∀ delivery ∈ handling,
      cache.alive delivery.provider = some delivery.emitter ∧ delivery.isReadable = true) :
    ({ cache with handling := update cache.handling thread handling }).Fresh := by
  refine ⟨fresh.cached, ?_, fresh.right⟩
  refine (forall_update_iff _ fun _ (handling : Option (Delivery Address)) =>
    ∀ delivery ∈ handling, cache.alive delivery.provider = some delivery.emitter ∧
      delivery.isReadable = true).mpr ?_
  exact ⟨emitted, fun other _ => fresh.emitted other⟩

theorem Fresh.finish {lookupFailed : Bool} (fresh : cache.Fresh)
    (isHandled : cache.handling thread = some delivery)
    (right : lookupFailed = true ∧ resolved = .unknown ∨
      resolved = resolveProvider delivery.emitter) :
    (cache.finish thread delivery resolved lookupFailed).Fresh := by
  rcases fresh.handle thread (show ∀ delivery ∈ none, _ by simp) with ⟨cached, emitted, _⟩
  refine ⟨cached, emitted, ?_⟩
  intro event mem
  rcases List.mem_cons.mp mem with rfl | mem
  · rw [if_pos (fresh.emitted thread delivery isHandled).2]
    dsimp only
    split
    · rcases right with ⟨failed, _⟩ | same
      · exact .inl failed
      · rename_i isUnknown
        exact .inr (same.symm.trans isUnknown)
    · rcases right with ⟨_, isUnknown⟩ | same
      · contradiction
      · exact same
  · exact fresh.right event mem

variable [DecidableEq Address]

theorem Fresh.next {event : ProviderEvent Address Thread} (fresh : cache.Fresh)
    (orderly : cache.Orderly event) (taken : cache.next event = some after) : after.Fresh := by
  cases event with
  | onProviderCreated provider name lookupSucceeds =>
    rcases orderly with ⟨noDelivery, lookup⟩
    cases lookupSucceeds with
    | true =>
      cases taken
      exact fresh.create name (some (resolveProvider name)) noDelivery (by simp)
    | false =>
      have kept : update cache.providers provider none = cache.providers :=
        update_eq_self_iff.mpr (lookup.resolve_left Bool.false_ne_true).symm
      have created := fresh.create name none noDelivery (by simp)
      rw [kept] at created
      cases taken
      exact created
  | parseEvent thread provider isReadable =>
    simp only [ProviderCache.next, bind_eq_bind, bind_eq_some_iff,
      ite_none_right_eq_some, some.injEq] at taken
    rcases taken with ⟨name, isAlive, _, rfl⟩
    refine fresh.handle thread ?_
    rintro delivery ⟨⟩
    exact ⟨isAlive, orderly⟩
  | findShared thread =>
    simp only [ProviderCache.next, bind_eq_bind, bind_eq_some_iff] at taken
    rcases taken with ⟨delivery, isHandled, taken⟩
    split at taken
    · cases taken
    split at taken <;> cases taken
    · rename_i resolved found
      exact fresh.finish isHandled (.inr (fresh.of_cached isHandled found))
    · refine fresh.handle thread ?_
      rintro _ ⟨⟩
      exact fresh.emitted thread delivery isHandled
  | findExclusive thread lookupSucceeds =>
    simp only [ProviderCache.next, bind_eq_bind, bind_eq_some_iff] at taken
    rcases taken with ⟨delivery, isHandled, taken⟩
    split at taken
    · cases taken
    split at taken
    · rename_i resolved found
      cases taken
      exact fresh.finish isHandled (.inr (fresh.of_cached isHandled found))
    split at taken
    · have isAlive := (fresh.emitted thread delivery isHandled).1
      rw [isAlive] at taken
      cases taken
      exact (fresh.store isAlive).finish isHandled (.inr rfl)
    · cases taken
      exact fresh.finish isHandled (.inl ⟨rfl, rfl⟩)

/-- In every interleaving of orderly creations and deliveries each event goes to the parser of its
provider, and an event of a tracked provider is dropped only if the lookup failed for that event. -/
theorem events_reach_their_parsers {events : List (ProviderEvent Address Thread)}
    (run : (system.restrict Orderly).Run initial events cache) :
    ∀ event ∈ cache.handled, event.2.Right event.1 := by
  have fresh : cache.Fresh := by
    refine run.invariant Fresh ?_ ?_
    · exact ⟨nofun, nofun, nofun⟩
    · rintro before event after fresh ⟨orderly, taken⟩
      exact fresh.next orderly taken
  exact fresh.right

/-- The lookup for the first event fails; later the address comes to belong to the runtime's
provider. -/
def reusedAddress : List (ProviderEvent Unit Bool) :=
  [.onProviderCreated () "System.Net.Http" false, .parseEvent true () true,
    .parseEvent false () true, .findShared true, .findShared false, .findExclusive true false,
    .findExclusive false true, .onProviderCreated () "Microsoft-Windows-DotNETRuntime" true,
    .parseEvent true () true, .findShared true]

theorem reused_address_right :
    ∃ cache, (system.restrict Orderly).Run initial reusedAddress cache ∧
      cache.handled = [("Microsoft-Windows-DotNETRuntime", .dispatched .clr),
        ("System.Net.Http", .dispatched .http), ("System.Net.Http", .dropped true)] ∧
      ∀ event ∈ cache.handled, event.2.Right event.1 := by
  have run : (system.restrict Orderly).Run initial reusedAddress _ :=
    System.run_restrict_of_exec rfl (by decide)
  exact ⟨_, run, by decide, events_reach_their_parsers run⟩

/-- The lookup fails when the runtime's provider comes to the address of another one. -/
theorem stale_entry_used :
    (System.exec next (initial : ProviderCache Unit Unit)
      [.onProviderCreated () "System.Net.Http" true,
        .onProviderCreated () "Microsoft-Windows-DotNETRuntime" false, .parseEvent () () true,
        .findShared ()]).map handled =
      some [("Microsoft-Windows-DotNETRuntime", .dispatched .http)] := by
  decide

end ProviderCache

end Pyroscope.ClrEvents
