import Mathlib.Algebra.BigOperators.Group.Finset.Piecewise
import Mathlib.Algebra.Order.BigOperators.Group.Finset
import Pyroscope.Lib.Transition

/-!
# Shutdown of the CPU profiler

`StopImpl` looks once or twice at the counter of the handlers at work. A handler uses the profiler
before it raises the counter, and the ring buffer after it has lowered it.
-/

namespace Pyroscope.CpuProfiler

open Transition

inductive HandlerPc where
  | idle
  | entered
  | loaded
  | counted
  | permitted
  | refused
  | reserved
  | walked (discard : Bool)
  /-- The counter has been lowered, but the reservation is still held. -/
  | lowered (discard : Bool)
  deriving DecidableEq

inductive StopPc where
  | idle
  | clearing
  | ignoring
  | removing
  | reading
  | sleeping
  | returned (success : Bool)
  deriving DecidableEq

structure State (Thread : Type) where
  instanceSet : Bool
  /-- The signal is ignored, so that no handler starts. -/
  signalIgnored : Bool
  nbThreadsInSignalHandler : Nat
  handlers : Thread → HandlerPc
  stop : StopPc

inductive DiscardReason where
  | unknownThread
  | failedAcquiringLock
  | insideWrappedFunction
  | inSegvHandler
  deriving DecidableEq

structure Context where
  knownThread : Bool
  lockAcquired : Bool
  insideWrappedFunction : Bool
  sigsegvBlocked : Bool
  deriving DecidableEq

inductive HandlerStep where
  | enter
  | loadInstance
  | increment
  | check (context : Context)
  | getRawSample (reserved : Bool)
  | unwind (count : Nat)
  | decrement
  /-- The destructor of the holder commits or discards the reservation. -/
  | release
  deriving DecidableEq

inductive StopStep where
  | begin
  | clearInstance
  | ignoreSignal (succeeds : Bool)
  | removeTimers
  | readCounter
  | readCounterAgain
  deriving DecidableEq

inductive Event (Thread : Type) where
  | handler (thread : Thread) (step : HandlerStep)
  | stop (step : StopStep)
  deriving DecidableEq

/-- The checks at the start of `Collect`, `CanCollect` included. -/
def Context.discardReason (context : Context) : Option DiscardReason :=
  if !context.knownThread then some .unknownThread
  else if !context.lockAcquired then some .failedAcquiringLock
  else if context.insideWrappedFunction then some .insideWrappedFunction
  else if context.sigsegvBlocked then some .inSegvHandler
  else none

def HandlerStep.accesses : HandlerStep → Bool
  | .enter | .loadInstance => false
  | _ => true

namespace State

variable {Thread : Type} [DecidableEq Thread]

def initial : State Thread where
  instanceSet := true
  signalIgnored := false
  nbThreadsInSignalHandler := 0
  handlers _ := .idle
  stop := .idle

variable (state : State Thread)

def handlerStep (thread : Thread) (step : HandlerStep) :
    Option (State Thread) :=
  let goto (state : State Thread) (pc : HandlerPc) : State Thread :=
    { state with handlers := Function.update state.handlers thread pc }
  let lower (state : State Thread) : State Thread :=
    { state with nbThreadsInSignalHandler := state.nbThreadsInSignalHandler - 1 }
  match step, state.handlers thread with
  | .enter, .idle => if state.signalIgnored then none else some (goto state .entered)
  | .loadInstance, .entered => some (goto state (if state.instanceSet then .loaded else .idle))
  | .increment, .loaded =>
    some (goto { state with
      nbThreadsInSignalHandler := state.nbThreadsInSignalHandler + 1 } .counted)
  | .check context, .counted =>
    some (goto state (if context.discardReason = none then .permitted else .refused))
  | .getRawSample reserved, .permitted =>
    some (goto state (if reserved then .reserved else .refused))
  | .unwind count, .reserved => some (goto state (.walked (count = 0)))
  | .decrement, .refused => some (goto (lower state) .idle)
  | .decrement, .walked discard => some (goto (lower state) (.lowered discard))
  | .release, .lowered _ => some (goto state .idle)
  | _, _ => none

/-- `StopImpl`, which may be called again after it has failed. -/
def stopStep (step : StopStep) : Option (State Thread) :=
  match step, state.stop with
  | .begin, .idle | .begin, .returned false => some { state with stop := .clearing }
  | .clearInstance, .clearing => some { state with instanceSet := false, stop := .ignoring }
  | .ignoreSignal succeeds, .ignoring =>
    some { state with signalIgnored := state.signalIgnored || succeeds, stop := .removing }
  | .removeTimers, .removing => some { state with stop := .reading }
  | .readCounter, .reading =>
    some { state with
      stop := if state.nbThreadsInSignalHandler ≠ 0 then .sleeping else .returned true }
  | .readCounterAgain, .sleeping =>
    some { state with
      stop := .returned (state.nbThreadsInSignalHandler = 0) }
  | _, _ => none

def next : Event Thread → Option (State Thread)
  | .handler thread step => state.handlerStep thread step
  | .stop step => state.stopStep step

end State

def system (Thread : Type) [DecidableEq Thread] : System (State Thread) (Event Thread) :=
  .ofFunction .initial State.next

/-! ## When no handler is at work any more -/

open Finset Function

namespace HandlerPc

def contribution : HandlerPc → Nat
  | .counted | .permitted | .refused | .reserved | .walked _ => 1
  | .idle | .entered | .loaded | .lowered _ => 0

def unprotected : HandlerPc → Bool
  | .loaded | .lowered _ => true
  | _ => false

def outside : HandlerPc → Bool
  | .idle | .entered => true
  | _ => false

theorem outside_of_uncounted {pc : HandlerPc} (uncounted : pc.contribution = 0)
    (protects : pc.unprotected = false) : pc.outside = true := by
  cases pc <;> simp_all [contribution, unprotected, outside]

end HandlerPc

def StopPc.cleared : StopPc → Bool
  | .idle | .clearing => false
  | _ => true

variable {Thread : Type}

/-- When the counter is found to be zero, no handler is at a point where it says nothing. -/
def Drained (state : State Thread) : Event Thread → Prop
  | .stop .readCounter | .stop .readCounterAgain =>
    state.nbThreadsInSignalHandler = 0 → ∀ thread, (state.handlers thread).unprotected = false
  | _ => True

/-- The counter is that of the threads inside of the handler. -/
structure Counted [Fintype Thread] (state : State Thread) : Prop where
  counter : state.nbThreadsInSignalHandler = ∑ thread, (state.handlers thread).contribution
  cleared : state.stop.cleared = true → state.instanceSet = false
  stopped : state.stop = .returned true → ∀ thread, (state.handlers thread).outside = true

section Counting

variable [Fintype Thread] {state later : State Thread}

theorem counted_initial : Counted (.initial : State Thread) := by
  refine ⟨?_, nofun, nofun⟩
  simp [State.initial, HandlerPc.contribution]

theorem Counted.outside (counted : Counted state) (zero : state.nbThreadsInSignalHandler = 0)
    (drained : ∀ thread, (state.handlers thread).unprotected = false) (thread : Thread) :
    (state.handlers thread).outside = true := by
  have sum := counted.counter.symm.trans zero
  have none := sum_eq_zero_iff.mp sum thread (mem_univ thread)
  exact HandlerPc.outside_of_uncounted none (drained thread)

theorem Counted.stopStep {step : StopStep} (counted : Counted state)
    (drained : Drained state (.stop step)) (taken : state.stopStep step = some later) :
    Counted later := by
  unfold State.stopStep at taken
  split at taken
  case h_1 | h_2 =>
    cases taken
    exact ⟨counted.counter, nofun, nofun⟩
  case h_3 =>
    cases taken
    exact ⟨counted.counter, fun _ => rfl, nofun⟩
  case h_4 stop | h_5 stop =>
    cases taken
    exact ⟨counted.counter, fun _ => counted.cleared (by rw [stop]; rfl), nofun⟩
  case h_6 stop =>
    cases taken
    refine ⟨counted.counter, fun _ => counted.cleared (by rw [stop]; rfl), ?_⟩
    intro returned
    by_cases zero : state.nbThreadsInSignalHandler = 0
    · exact counted.outside zero (drained zero)
    · simp [zero] at returned
  case h_7 stop =>
    cases taken
    refine ⟨counted.counter, fun _ => counted.cleared (by rw [stop]; rfl), ?_⟩
    intro returned
    have zero : state.nbThreadsInSignalHandler = 0 := by simpa using returned
    exact counted.outside zero (drained zero)
  case h_8 => cases taken

end Counting

variable [DecidableEq Thread] {state : State Thread}

section Steps

variable {state later : State Thread} {thread : Thread} {step : HandlerStep}

/-- What a step of a signal handler changes. -/
structure HandlerMoves (state later : State Thread) (thread : Thread) (pc : HandlerPc) : Prop where
  handlers : later.handlers = update state.handlers thread pc
  stop : later.stop = state.stop
  instanceSet : later.instanceSet = state.instanceSet
  counter : (state.handlers thread).contribution ≤ state.nbThreadsInSignalHandler →
    later.nbThreadsInSignalHandler + (state.handlers thread).contribution =
      state.nbThreadsInSignalHandler + pc.contribution
  outside : state.instanceSet = false → (state.handlers thread).outside = true → pc.outside = true

theorem handlerMoves_of_handlerStep (taken : state.handlerStep thread step = some later) :
    ∃ pc, HandlerMoves state later thread pc := by
  refine ⟨later.handlers thread, ?_⟩
  unfold State.handlerStep at taken
  dsimp only at taken
  split at taken
  all_goals (try split at taken)
  all_goals cases taken
  all_goals constructor
  all_goals simp_all [HandlerPc.contribution, HandlerPc.outside]

variable [Fintype Thread]

theorem sum_contribution_update (handlers : Thread → HandlerPc) (thread : Thread) (pc : HandlerPc) :
    ∑ other, (update handlers thread pc other).contribution +
        (handlers thread).contribution =
      ∑ other, (handlers other).contribution + pc.contribution := by
  have pointwise : (fun other => (update handlers thread pc other).contribution) =
      update (fun other => (handlers other).contribution) thread pc.contribution := by
    funext other
    exact apply_update (fun _ => HandlerPc.contribution) handlers thread pc other
  have split := sum_eq_add_sum_sdiff_singleton_of_mem (mem_univ thread)
    fun other => (handlers other).contribution
  rw [pointwise, sum_update_of_mem (mem_univ thread), split]
  omega

theorem Counted.handlerStep (counted : Counted state)
    (taken : state.handlerStep thread step = some later) : Counted later := by
  rcases handlerMoves_of_handlerStep taken with ⟨pc, moves⟩
  refine ⟨?_, ?_, ?_⟩
  · have total := sum_contribution_update state.handlers thread pc
    have atMost : (state.handlers thread).contribution ≤ state.nbThreadsInSignalHandler := by
      rw [counted.counter]
      exact single_le_sum_of_canonicallyOrdered
        (f := fun other => (state.handlers other).contribution) (mem_univ thread)
    have moved := moves.counter atMost
    rw [counted.counter] at moved
    rw [moves.handlers]
    omega
  · rw [moves.stop, moves.instanceSet]
    exact counted.cleared
  · intro returned other
    rw [moves.stop] at returned
    have before := counted.stopped returned
    rw [moves.handlers]
    by_cases same : other = thread
    · subst other
      rw [update_self]
      apply moves.outside _ (before thread)
      exact counted.cleared (by rw [returned]; rfl)
    · rw [update_of_ne same]
      exact before other

end Steps

theorem handlerStep_eq_none (outside : (state.handlers thread).outside = true)
    (accesses : step.accesses = true) :
    state.handlerStep thread step = none := by
  have unused : state.handlers thread = .idle ∨ state.handlers thread = .entered := by
    cases pc : state.handlers thread <;> simp_all [HandlerPc.outside]
  rcases unused with pc | pc <;> cases step <;> simp_all [State.handlerStep, HandlerStep.accesses]

theorem access_of_unprotected (unprotected : (state.handlers thread).unprotected = true) :
    ∃ step later, step.accesses = true ∧ state.next (.handler thread step) = some later := by
  cases pc : state.handlers thread <;> simp only [pc, HandlerPc.unprotected] at unprotected
  case loaded => exact ⟨.increment, _, rfl, by simp [State.next, State.handlerStep, pc]; rfl⟩
  case lowered discard =>
    exact ⟨.release, _, rfl, by simp [State.next, State.handlerStep, pc]; rfl⟩
  all_goals cases unprotected

/-- Once `StopImpl` has succeeded, nothing is used any more. -/
theorem no_access_after_stop [Fintype Thread] {events : List (Event Thread)} {state : State Thread}
    (run : ((system Thread).restrict Drained).Run .initial events state)
    (returned : state.stop = .returned true) (thread : Thread) {step : HandlerStep}
    (accesses : step.accesses = true) : state.next (.handler thread step) = none := by
  have counted : Counted state := by
    refine run.invariant Counted ?_ ?_
    · exact counted_initial
    · rintro state event later counted ⟨drained, taken⟩
      cases event with
      | handler thread step => exact counted.handlerStep taken
      | stop step => exact counted.stopStep drained taken
  exact handlerStep_eq_none (counted.stopped returned thread) accesses

def beginStop (Thread : Type) : List (Event Thread) :=
  [.stop .begin, .stop .clearInstance, .stop (.ignoreSignal true), .stop .removeTimers,
    .stop .readCounter]

def takeSample {Thread : Type} (thread : Thread) : List (Event Thread) :=
  [.handler thread (.check ⟨true, true, false, false⟩), .handler thread (.getRawSample true),
    .handler thread (.unwind 5), .handler thread .decrement]

def enterHandler {Thread : Type} (thread : Thread) : List (Event Thread) :=
  [.handler thread .enter, .handler thread .loadInstance]

theorem no_access_after_pause : ∃ state,
    (system (Fin 1)).Run .initial
      (enterHandler 0 ++ .handler 0 .increment :: (beginStop (Fin 1) ++ (takeSample 0 ++
        [.handler 0 .release, .stop .readCounterAgain]))) state ∧
    state.stop = .returned true ∧
    ∀ step : HandlerStep, step.accesses = true → state.next (.handler 0 step) = none := by
  have meets : System.MeetsAlong State.next Drained (.initial : State (Fin 1))
      (enterHandler 0 ++ .handler 0 .increment :: (beginStop (Fin 1) ++ (takeSample 0 ++
        [.handler 0 .release, .stop .readCounterAgain]))) := by
    repeat' constructor
    · nofun
    · intro _ thread
      cases Subsingleton.elim thread 0
      rfl
  exact ⟨_, System.run_of_exec rfl, rfl, fun step accesses =>
    no_access_after_stop (System.run_restrict_of_exec rfl meets) rfl 0 accesses⟩

/-- `StopImpl` succeeds although one handler is about to raise the counter and another one to commit
its sample. -/
theorem access_after_stop : ∃ state,
    (system (Fin 2)).Run .initial
      (enterHandler 0 ++ (enterHandler 1 ++ .handler 1 .increment :: (takeSample 1 ++
        beginStop (Fin 2)))) state ∧
    state.stop = .returned true ∧
    (∃ later, (system (Fin 2)).step state (.handler 0 .increment) later) ∧
    ∃ later, (system (Fin 2)).step state (.handler 1 .release) later :=
  ⟨_, System.run_of_exec rfl, rfl, ⟨_, rfl⟩, ⟨_, rfl⟩⟩

end Pyroscope.CpuProfiler
