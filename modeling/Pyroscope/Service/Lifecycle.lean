import Pyroscope.Lib.Transition

/-!
# Starting and stopping a service

Any number of threads call `Start` and `Stop`. One step is one access to `_currentState` or the
return of a callee.
-/

namespace Pyroscope.Service

open Transition Function Option List

inductive ServiceState where
  | init
  | starting
  | started
  | stopping
  | stopped
  deriving DecidableEq

/-- The final states which `StopWithState` accepts. -/
inductive Final where
  | stopped
  | init
  deriving DecidableEq

def Final.ofState : ServiceState → Option Final
  | .stopped => some .stopped
  | .init => some .init
  | .starting | .started | .stopping => none

def Final.state : Final → ServiceState
  | .stopped => .stopped
  | .init => .init

inductive Place where
  | outside
  | starts
  | startImpl
  | startReturned (result : Bool)
  | stops (final : Final)
  | stopImpl (final : Final)
  | stopReturned (final : Final) (result : Bool)
  deriving DecidableEq

inductive Returned where
  | start (result : Bool)
  | stop (final : Final) (result : Bool)
  deriving DecidableEq

structure ServiceBase (Thread : Type) where
  currentState : ServiceState
  place : Thread → Place
  history : List Returned

inductive Event (Thread : Type) where
  | start (thread : Thread)
  | stopWithState (thread : Thread) (stoppedState : ServiceState)
  | exchange (thread : Thread)
  | implReturns (thread : Thread) (result : Bool)
  | store (thread : Thread)
  deriving DecidableEq

variable {Thread : Type}

namespace ServiceBase

def initial : ServiceBase Thread := ⟨.init, fun _ => .outside, []⟩

variable [DecidableEq Thread]

def goto (service : ServiceBase Thread) (thread : Thread) (place : Place) : ServiceBase Thread :=
  { service with place := update service.place thread place }

/-- `compare_exchange_strong`: the caller leaves if the state is not the expected one. -/
def exchange (service : ServiceBase Thread) (thread : Thread) (expected desired : ServiceState)
    (place : Place) : ServiceBase Thread :=
  if service.currentState = expected then
    { service.goto thread place with currentState := desired }
  else service.goto thread .outside

/-- One step of a call to `Start` or `Stop`. -/
def next (service : ServiceBase Thread) : Event Thread → Option (ServiceBase Thread)
  | .start thread =>
    if service.place thread = .outside then some (service.goto thread .starts) else none
  | .stopWithState thread stoppedState =>
    if service.place thread = .outside then
      match Final.ofState stoppedState with
      | none => some service
      | some final => some (service.goto thread (.stops final))
    else none
  | .exchange thread =>
    match service.place thread with
    | .starts => some (service.exchange thread .init .starting .startImpl)
    | .stops final => some (service.exchange thread .started .stopping (.stopImpl final))
    | _ => none
  | .implReturns thread result =>
    match service.place thread with
    | .startImpl =>
      some { service.goto thread (.startReturned result) with
        history := .start result :: service.history }
    | .stopImpl final =>
      some { service.goto thread (.stopReturned final result) with
        history := .stop final result :: service.history }
    | _ => none
  | .store thread =>
    match service.place thread with
    | .startReturned result =>
      some { service.goto thread .outside with
        currentState := if result then .started else .init }
    | .stopReturned final result =>
      some { service.goto thread .outside with
        currentState := if result then final.state else .started }
    | _ => none

end ServiceBase

def system (Thread : Type) [DecidableEq Thread] : System (ServiceBase Thread) (Event Thread) :=
  .ofFunction .initial ServiceBase.next

/-- `StartImpl` has succeeded, and `StopImpl` has not succeeded since. -/
def IsUp : List Returned → Prop
  | [] => False
  | .start true :: _ => True
  | .stop _ true :: _ => False
  | .start false :: rest | .stop _ false :: rest => IsUp rest

/-- A stop has succeeded. -/
def IsOver (history : List Returned) : Prop := .stop .stopped true ∈ history

def ServiceState.Fits (history : List Returned) : ServiceState → Prop
  | .init => ¬IsOver history
  | .started => ¬IsOver history ∧ IsUp history
  | .stopped => True
  | .starting | .stopping => False

namespace Place

/-- The state while a thread is here, if the thread is about to change it. -/
def holds : Place → Option ServiceState
  | .startImpl | .startReturned _ => some .starting
  | .stopImpl _ | .stopReturned _ _ => some .stopping
  | .outside | .starts | .stops _ => none

/-- The history fits the state which has been left, or the one which comes next. -/
def Fits (history : List Returned) : Place → Prop
  | .startImpl => ServiceState.init.Fits history
  | .startReturned result => ServiceState.Fits history (if result then .started else .init)
  | .stopImpl _ => ServiceState.started.Fits history
  | .stopReturned final result =>
    ServiceState.Fits history (if result then final.state else .started)
  | .outside | .starts | .stops _ => True

def isImpl : Place → Bool
  | .startImpl | .stopImpl _ => true
  | .outside | .starts | .startReturned _ | .stops _ | .stopReturned _ _ => false

variable {place : Place}

theorem changing_of_holds {state : ServiceState} (holds : place.holds = some state) :
    state = .starting ∨ state = .stopping := by
  cases place <;> simp_all [Place.holds]

theorem holds_of_isImpl (isImpl : place.isImpl = true) : ∃ state, place.holds = some state := by
  cases place with
  | startImpl | stopImpl final => exact ⟨_, rfl⟩
  | outside | starts | startReturned result | stops final | stopReturned final result =>
    cases isImpl

end Place

/-- At most one thread is about to change the state, and it is at a place which fits the history. -/
inductive Sound (service : ServiceBase Thread) : Prop where
  | rests (free : ∀ thread, (service.place thread).holds = none)
      (fits : service.currentState.Fits service.history)
  | held (owner : Thread) (holds : (service.place owner).holds = some service.currentState)
      (free : ∀ other, other ≠ owner → (service.place other).holds = none)
      (fits : (service.place owner).Fits service.history)

namespace Sound

variable {service after : ServiceBase Thread} {thread : Thread} {place : Place}

section

variable (sound : Sound service)
include sound

theorem rests_of_ne (notStarting : service.currentState ≠ .starting)
    (notStopping : service.currentState ≠ .stopping) :
    (∀ thread, (service.place thread).holds = none) ∧
      service.currentState.Fits service.history := by
  rcases sound with ⟨free, fits⟩ | ⟨owner, holds, -, -⟩
  · exact ⟨free, fits⟩
  · rcases Place.changing_of_holds holds with starting | stopping
    · exact absurd starting notStarting
    · exact absurd stopping notStopping

theorem held_of_holds {state : ServiceState} (here : service.place thread = place)
    (holds : place.holds = some state) :
    service.currentState = state ∧ (∀ other, other ≠ thread → (service.place other).holds = none) ∧
      place.Fits service.history := by
  subst here
  rcases sound with ⟨free, -⟩ | ⟨owner, isOwner, free, fits⟩
  · cases holds.symm.trans (free thread)
  · have same : thread = owner := by
      by_contra different
      cases holds.symm.trans (free thread different)
    subst same
    exact ⟨some.inj (isOwner.symm.trans holds), free, fits⟩

end

variable [DecidableEq Thread]

theorem goto {earlier : Place} (sound : Sound service) (here : service.place thread = earlier)
    (before : earlier.holds = none) (now : place.holds = none) :
    Sound (service.goto thread place) := by
  rcases sound with ⟨free, fits⟩ | ⟨owner, holds, free, fits⟩
  · refine .rests ?_ fits
    apply (forall_update_iff service.place fun _ place => place.holds = none).mpr
    exact ⟨now, fun other _ => free other⟩
  · have different : owner ≠ thread := by
      rintro rfl
      rw [here, before] at holds
      cases holds
    have kept : (service.goto thread place).place owner = service.place owner :=
      update_of_ne different ..
    refine .held owner (kept ▸ holds) ?_ (kept ▸ fits)
    apply (forall_update_iff service.place fun other place =>
      other ≠ owner → place.holds = none).mpr
    exact ⟨fun _ => now, fun other _ => free other⟩

section Owner

variable {state : ServiceState} {history : List Returned}
  (others : ∀ other, other ≠ thread → (service.place other).holds = none)
include others

theorem hold (holds : place.holds = some state) (fits : place.Fits history) :
    Sound ⟨state, update service.place thread place, history⟩ := by
  refine .held thread (by simpa using holds) ?_ (by simpa using fits)
  intro other different
  exact (congrArg Place.holds (update_of_ne different ..)).trans (others other different)

theorem release (fits : state.Fits history) :
    Sound ⟨state, update service.place thread .outside, history⟩ := by
  refine .rests ?_ fits
  apply (forall_update_iff service.place fun _ place => place.holds = none).mpr
  exact ⟨rfl, others⟩

end Owner

theorem exchange {earlier : Place} {expected desired : ServiceState} (sound : Sound service)
    (here : service.place thread = earlier) (before : earlier.holds = none)
    (holds : place.holds = some desired)
    (rests : expected ≠ .starting ∧ expected ≠ .stopping)
    (fits : expected.Fits service.history → place.Fits service.history) :
    Sound (service.exchange thread expected desired place) := by
  rw [ServiceBase.exchange]
  split
  case isTrue same =>
    rcases sound.rests_of_ne (same ▸ rests.1) (same ▸ rests.2) with ⟨free, stateFits⟩
    exact hold (fun other _ => free other) holds (fits (same ▸ stateFits))
  case isFalse => exact sound.goto here before rfl

theorem step {event : Event Thread} (sound : Sound service)
    (taken : service.next event = some after) : Sound after := by
  cases event with
  | start thread =>
    rcases ite_none_right_eq_some.mp taken with ⟨outside, ⟨⟩⟩
    exact sound.goto outside rfl rfl
  | stopWithState thread stoppedState =>
    rcases ite_none_right_eq_some.mp taken with ⟨outside, accepted⟩
    split at accepted <;> cases accepted
    · exact sound
    · exact sound.goto outside rfl rfl
  | exchange thread =>
    simp only [ServiceBase.next] at taken
    split at taken <;> cases taken
    next here => exact sound.exchange here rfl rfl (by decide) id
    next here => exact sound.exchange here rfl rfl (by decide) id
  | implReturns thread result =>
    simp only [ServiceBase.next] at taken
    split at taken <;> cases taken
    next here =>
      rcases sound.held_of_holds here rfl with ⟨state, others, fits⟩
      have notOver : ¬IsOver (.start result :: service.history) :=
        not_mem_cons_of_ne_of_not_mem (by simp) fits
      refine hold others (congrArg some state.symm) ?_
      cases result
      · exact notOver
      · exact ⟨notOver, trivial⟩
    next final here =>
      rcases sound.held_of_holds here rfl with ⟨state, others, fits⟩
      refine hold others (congrArg some state.symm) ?_
      cases result with
      | false =>
        have notOver : ¬IsOver (.stop final false :: service.history) :=
          not_mem_cons_of_ne_of_not_mem (by simp) fits.1
        exact ⟨notOver, fits.2⟩
      | true =>
        cases final with
        | stopped => trivial
        | init => exact not_mem_cons_of_ne_of_not_mem (by decide) fits.1
  | store thread =>
    simp only [ServiceBase.next] at taken
    split at taken <;> cases taken
    next result here =>
      rcases sound.held_of_holds here rfl with ⟨-, others, fits⟩
      exact release others fits
    next final result here =>
      rcases sound.held_of_holds here rfl with ⟨-, others, fits⟩
      exact release others fits

end Sound

theorem sound_of_run [DecidableEq Thread] {events : List (Event Thread)}
    {service : ServiceBase Thread} (run : (system Thread).Run .initial events service) :
    Sound service := by
  refine run.invariant Sound ?_ ?_
  · exact .rests (fun _ => rfl) not_mem_nil
  · exact fun service event after sound taken => sound.step taken

/-- At most one of `StartImpl` and `StopImpl` runs at a time, and each in its turn. -/
theorem implementations_in_turn (Thread : Type) [DecidableEq Thread] (events : List (Event Thread))
    (service : ServiceBase Thread) (run : (system Thread).Run .initial events service) :
    (∀ thread other, (service.place thread).isImpl = true → (service.place other).isImpl = true →
      thread = other) ∧
    (∀ thread final, service.place thread = .stopImpl final → IsUp service.history) ∧
    ∀ thread, service.place thread = .startImpl → ¬IsOver service.history := by
  have sound := sound_of_run run
  refine ⟨?_, ?_, ?_⟩
  · intro thread other isImpl otherImpl
    rcases Place.holds_of_isImpl isImpl with ⟨state, holds⟩
    rcases Place.holds_of_isImpl otherImpl with ⟨otherState, otherHolds⟩
    by_contra different
    have free := (sound.held_of_holds rfl holds).2.1 other (Ne.symm different)
    cases otherHolds.symm.trans free
  · intro thread final here
    exact (sound.held_of_holds here rfl).2.2.2
  · intro thread here
    exact (sound.held_of_holds here rfl).2.2

/-- A service which is started by one of two threads and stopped by the other. -/
theorem stopped_in_turn : ∃ service : ServiceBase Bool,
    (system Bool).Run .initial [.start true, .start false, .exchange true, .exchange false,
      .implReturns true true, .stopWithState false .stopped, .store true, .exchange false] service ∧
    service.place false = .stopImpl .stopped ∧ IsUp service.history := by
  refine System.exists_run_of_exec rfl ?_
  intro run
  exact ⟨rfl, (implementations_in_turn Bool _ _ run).2.1 false .stopped rfl⟩

end Pyroscope.Service
