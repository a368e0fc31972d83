import Pyroscope.Signals.Collector

/-!
# When a collection may report success

The error code is stored after the handler has released the mutex, and the wait has no predicate.
-/

namespace Pyroscope.Signals

open Transition Collector Function

def recordWalk (walks : List (Thread × Int)) : CollectorEvent → List (Thread × Int)
  | .sampler (.begin _) => []
  | .handler thread (.collectCallStack errorCode) => walks ++ [(thread, errorCode)]
  | _ => walks

def walksOf (events : List CollectorEvent) : List (Thread × Int) :=
  events.foldl recordWalk []

/-- Each reported success rests on a stack walk of the target during the collection. -/
def Justified (events : List CollectorEvent) : Prop :=
  ∀ before target after, events = before ++ .sampler (.finish target .sOk) :: after →
    (target, 0) ∈ walksOf before

def HandlerPc.completing : HandlerPc → Bool
  | .walked _ | .unlocked _ | .stored => true
  | _ => false

def Orderly (state : Collector) : CollectorEvent → Prop
  | .sampler (.begin _) => ∀ thread handler, state.handlers thread = some handler →
      handler.pc.completing = false
  | .sampler (.wake timedOut _) => timedOut = true ∨ state.notified = true
  | _ => True

namespace SamplerPc

def reports (pc : SamplerPc) (target : Thread) : Prop :=
  pc = .leaving target .sOk ∨ pc = .unlocking target .sOk ∨ pc = .collected target .sOk

def trusts (notified : Bool) : SamplerPc → Bool
  | .waiting _ => notified
  | .woken _ timedOut => !timedOut
  | .aborted _ | .reading _ => true
  | _ => false

end SamplerPc

/-- An error code is stored for the sampling thread. -/
def Answered (state : Collector) : Prop :=
  (∃ thread handler, state.handlers thread = some handler ∧ handler.pc = .stored) ∨
    state.sampler.trusts state.notified = true

/-- Error codes on their way to the sampling thread belong to the collection in progress. -/
structure Fresh (walks : List (Thread × Int)) (state : Collector) : Prop where
  walked : ∀ target, state.sampler.target = some target →
    ∀ thread handler errorCode, state.handlers thread = some handler →
      handler.pc = .walked errorCode ∨ handler.pc = .unlocked errorCode →
        thread = target ∧ (target, errorCode) ∈ walks
  answered : ∀ target, state.sampler.target = some target → Answered state →
    state.lastStackWalkErrorCode = 0 → (target, 0) ∈ walks
  reported : ∀ target, state.sampler.reports target → (target, 0) ∈ walks

section SamplerSteps

variable {state next : Collector} {step : SamplerStep} {walks : List (Thread × Int)}
  {target : Thread}

theorem target_samplerStep (taken : state.samplerStep step = some next)
    (notBegin : ∀ target, step ≠ .begin target) (targeted : next.sampler.target = some target) :
    state.sampler.target = some target := by
  cases step <;> simp only [samplerStep] at taken <;> repeat' split at taken
  all_goals cases taken
  all_goals simp_all [SamplerPc.target]

/-- Without spurious wake-ups nothing but a stored error code comes to be trusted. -/
theorem trusts_samplerStep (taken : state.samplerStep step = some next)
    (orderly : Orderly state (.sampler step)) :
    next.lastStackWalkErrorCode ≠ 0 ∨
      next.lastStackWalkErrorCode = state.lastStackWalkErrorCode ∧
        (next.sampler.trusts next.notified = true →
          state.sampler.trusts state.notified = true) := by
  cases step <;> simp only [samplerStep] at taken <;> repeat' split at taken
  all_goals cases taken
  all_goals simp_all [SamplerPc.trusts, addPending, Orderly, eAbort, eFail]
  case h_1.isTrue.refl =>
    exact .inr fun early => orderly.resolve_left (by simp [early])

theorem reports_samplerStep (taken : state.samplerStep step = some next)
    (reports : next.sampler.reports target) :
    state.sampler.reports target ∨
      state.sampler = .reading target ∧ state.lastStackWalkErrorCode = 0 := by
  cases step <;> simp only [samplerStep] at taken <;> repeat' split at taken
  all_goals cases taken
  all_goals simp_all [SamplerPc.reports]

theorem fresh_begin (orderly : Orderly state (.sampler (.begin target)))
    (taken : state.samplerStep (.begin target) = some next) : Fresh [] next := by
  have same := handlers_samplerStep taken
  simp only [samplerStep] at taken
  split at taken <;> cases taken
  refine ⟨?_, ?_, ?_⟩
  · intro _ _ thread handler errorCode found pc
    have quiet := orderly thread handler found
    rcases pc with pc | pc <;> simp [pc, HandlerPc.completing] at quiet
  · rintro _ _ (⟨thread, handler, found, pc⟩ | trusts)
    · have quiet := orderly thread handler found
      simp [pc, HandlerPc.completing] at quiet
    · cases trusts
  · rintro _ (pc | pc | pc) <;> cases pc

theorem Fresh.samplerStep (fresh : Fresh walks state) (orderly : Orderly state (.sampler step))
    (notBegin : ∀ target, step ≠ .begin target) (taken : state.samplerStep step = some next) :
    Fresh walks next := by
  have same := handlers_samplerStep taken
  refine ⟨?_, ?_, ?_⟩
  · intro target targeted thread handler errorCode found
    rw [same] at found
    exact fresh.walked target (target_samplerStep taken notBegin targeted) thread handler errorCode
      found
  · intro target targeted answered success
    have earlier := target_samplerStep taken notBegin targeted
    rcases trusts_samplerStep taken orderly with failed | ⟨code, trusts⟩
    · exact absurd success failed
    · refine fresh.answered target earlier ?_ (code.symm.trans success)
      rw [Answered, same] at answered
      exact answered.imp_right trusts
  · intro target reports
    rcases reports_samplerStep taken reports with earlier | ⟨reading, success⟩
    · exact fresh.reported target earlier
    · refine fresh.answered target ?_ (.inr ?_) success
      · rw [reading]
        rfl
      · rw [reading]
        rfl

end SamplerSteps

section HandlerSteps

variable {state next : Collector} {thread : Thread} {step : HandlerStep}

/-- How the error code of a walk is handed on. -/
structure CodeMoves (state next : Collector) (thread : Thread) (step : HandlerStep) : Prop where
  walked : ∀ origin errorCode, next.handlers thread = some ⟨origin, .walked errorCode⟩ →
    step = .collectCallStack errorCode ∧ state.handlers thread = some ⟨origin, .collecting⟩
  unlocked : ∀ origin errorCode, next.handlers thread = some ⟨origin, .unlocked errorCode⟩ →
    state.handlers thread = some ⟨origin, .walked errorCode⟩
  stored : (next.lastStackWalkErrorCode = state.lastStackWalkErrorCode ∧
      ∀ origin, next.handlers thread ≠ some ⟨origin, .stored⟩) ∨
    ∃ origin, state.handlers thread = some ⟨origin, .unlocked next.lastStackWalkErrorCode⟩
  notified : next.notified = state.notified ∨
    ∃ origin, state.handlers thread = some ⟨origin, .stored⟩

theorem codeMoves_of_handlerStep (taken : state.handlerStep thread step = some next) :
    CodeMoves state next thread step := by
  unfold handlerStep at taken
  split at taken
  · cases taken
  · rename_i origin pc found
    dsimp only at taken
    split at taken
    all_goals (try split at taken)
    all_goals cases taken
    all_goals constructor
    all_goals simp_all [setHandler]

theorem subset_recordWalk : walks ⊆ recordWalk walks (.handler thread step) := by
  cases step <;> simp [recordWalk]

theorem Fresh.handlerStep (fresh : Fresh walks state) (exclusive : Exclusive state)
    (taken : state.handlerStep thread step = some next) :
    Fresh (recordWalk walks (.handler thread step)) next := by
  have codes := codeMoves_of_handlerStep taken
  rcases handlerMoves_of_handlerStep taken with ⟨before, after, moves⟩
  have elsewhere {other : Thread} (different : other ≠ thread) :
      next.handlers other = state.handlers other := by
    rw [moves.moved, update_of_ne different]
  refine ⟨?_, ?_, ?_⟩
  · intro target targeted other handler errorCode found pc
    rw [moves.sampler] at targeted
    by_cases same : other = thread
    · subst other
      rcases handler with ⟨origin, pc'⟩
      rcases pc with rfl | rfl
      · rcases codes.walked origin errorCode found with ⟨rfl, collecting⟩
        have own := exclusive.accepted thread _ collecting rfl
        cases targeted.symm.trans own
        exact ⟨rfl, by simp [recordWalk]⟩
      · have earlier := fresh.walked target targeted thread _ errorCode
          (codes.unlocked origin errorCode found) (.inl rfl)
        exact ⟨earlier.1, subset_recordWalk earlier.2⟩
    · rw [elsewhere same] at found
      have earlier := fresh.walked target targeted other handler errorCode found pc
      exact ⟨earlier.1, subset_recordWalk earlier.2⟩
  · intro target targeted answered success
    rw [moves.sampler] at targeted
    apply subset_recordWalk
    rcases codes.stored with ⟨code, notStored⟩ | ⟨origin, unlocked⟩
    · refine fresh.answered target targeted ?_ (code.symm.trans success)
      rcases answered with ⟨other, handler, found, pc⟩ | trusts
      · have different : other ≠ thread := by
          rintro rfl
          rcases handler with ⟨origin, pc'⟩
          cases pc
          exact notStored origin found
        exact .inl ⟨other, handler, (elsewhere different).symm.trans found, pc⟩
      · rcases codes.notified with same | ⟨origin, stored⟩
        · rw [moves.sampler, same] at trusts
          exact .inr trusts
        · exact .inl ⟨thread, _, stored, rfl⟩
    · rw [success] at unlocked
      exact (fresh.walked target targeted thread _ 0 unlocked (.inr rfl)).2
  · intro target reports
    rw [moves.sampler] at reports
    exact subset_recordWalk (fresh.reported target reports)

end HandlerSteps

theorem Fresh.next {state next : Collector} {event : CollectorEvent} (fresh : Fresh walks state)
    (exclusive : Exclusive state) (orderly : Orderly state event)
    (taken : state.next event = some next) : Fresh (recordWalk walks event) next := by
  cases event with
  | sampler step =>
    by_cases begins : ∃ target, step = .begin target
    · rcases begins with ⟨target, rfl⟩
      exact fresh_begin orderly taken
    · have notBegin : ∀ target, step ≠ .begin target := fun target eq => begins ⟨target, eq⟩
      have same : recordWalk walks (.sampler step) = walks := by
        cases step <;> first | rfl | exact absurd rfl (notBegin _)
      rw [same]
      exact fresh.samplerStep orderly notBegin taken
  | handler thread step => exact fresh.handlerStep exclusive taken
  | send thread origin =>
    simp only [Collector.next] at taken
    split at taken <;> cases taken
    exact ⟨fresh.walked, fresh.answered, fresh.reported⟩
  | discard thread =>
    cases taken
    exact ⟨fresh.walked, fresh.answered, fresh.reported⟩
  | deliver thread =>
    simp only [Collector.next] at taken
    split at taken
    case h_2 => cases taken
    rename_i origin _ idle
    cases taken
    have earlier {other : Thread} {handler : Handler}
        (found : update state.handlers thread (some ⟨origin, .entered⟩) other =
          some handler) (moved : handler.pc ≠ .entered) :
        state.handlers other = some handler := by
      by_cases same : other = thread
      · subst other
        rw [update_self] at found
        cases found
        exact absurd rfl moved
      · rwa [update_of_ne same] at found
    refine ⟨?_, ?_, fresh.reported⟩
    · intro target targeted other handler errorCode found pc
      refine fresh.walked target targeted other handler errorCode (earlier found ?_) pc
      rcases pc with pc | pc <;> simp [pc]
    · intro target targeted answered
      apply fresh.answered target targeted
      rcases answered with ⟨other, handler, found, pc⟩ | trusts
      · exact .inl ⟨other, handler, earlier found (by simp [pc]), pc⟩
      · exact .inr trusts

theorem fresh_initial : Fresh [] .initial := by
  refine ⟨nofun, nofun, ?_⟩
  rintro _ (pc | pc | pc) <;> exact nomatch pc

/-- In orderly runs a success is only reported for a stack which has just been walked. -/
theorem success_justified {events : List CollectorEvent} {state : Collector}
    (run : (collectorSystem.restrict Orderly).Run .initial events state) : Justified events := by
  intro before target after split
  refine run.each_step (fun events state => Fresh (walksOf events) state ∧ Exclusive state)
    (fun before event => event = .sampler (.finish target .sOk) → (target, 0) ∈ walksOf before)
    ?_ ?_ ?_ split rfl
  · exact ⟨fresh_initial, exclusive_initial⟩
  · rintro events state event next ⟨fresh, exclusive⟩ ⟨orderly, taken⟩
    refine ⟨?_, exclusive.next taken⟩
    rw [walksOf, List.foldl_append]
    exact fresh.next exclusive orderly taken
  · rintro events state _ next ⟨fresh, _⟩ ⟨_, taken⟩ rfl
    apply fresh.reported
    simp only [collectorSystem, System.ofFunction, Collector.next, Collector.samplerStep] at taken
    split at taken
    · rename_i collected
      exact .inr (.inr collected)
    · cases taken

def finishCollection (target : Thread) : List CollectorEvent :=
  [.sampler .relock, .sampler .readErrorCode, .sampler .unpublish, .sampler .unlock,
    .sampler (.finish target .sOk)]

def handleSignal (target : Thread) : List CollectorEvent :=
  [.deliver target, .handler target .loadInstance, .handler target .lock,
    .handler target .reloadInstance, .handler target .readMemoryArea, .handler target .mark,
    .handler target (.canCollect false), .handler target (.collectCallStack 0),
    .handler target .unlock, .handler target .storeErrorCode, .handler target .notify]

theorem success_justified_in_time : Justified (startCollection 1 ++ (handleSignal 1 ++
    .sampler (.wake false false) :: finishCollection 1)) := by
  refine success_justified (System.run_restrict_of_exec rfl ?_)
  repeat' first | exact .inr rfl | constructor | nofun

/-- A spurious wake-up makes the collection report the initial error code as its success. -/
theorem spurious_success : ∃ state,
    collectorSystem.Run .initial
      (startCollection 1 ++ .sampler (.wake false true) :: finishCollection 1) state ∧
    ¬ Justified (startCollection 1 ++ .sampler (.wake false true) :: finishCollection 1) := by
  refine ⟨_, System.run_of_exec rfl, ?_⟩
  intro justified
  have walked := justified (startCollection 1 ++ [.sampler (.wake false true), .sampler .relock,
    .sampler .readErrorCode, .sampler .unpublish, .sampler .unlock]) 1 [] rfl
  exact nomatch walked

end Pyroscope.Signals
