import Pyroscope.Lib.Transition

/-!
# Signal-based stack collection

While a handler holds the mutex and has seen the collector, the sampling thread cannot leave its
wait.
-/

namespace Pyroscope.Signals

open Transition Function

abbrev Thread := Nat

inductive Origin where
  | profiler
  | sameProcess
  | otherProcess
  deriving DecidableEq

inductive HResult where
  | sOk
  | eFail
  deriving DecidableEq

def eAbort : Int := -2147467260

def eFail : Int := -2147467259

/-- Where the sampling thread is in `CollectStackSample`, and the thread it targets. -/
inductive SamplerPc where
  | idle
  | selected (target : Thread)
  | targeted (target : Thread)
  | acquiring (target : Thread)
  | locked (target : Thread)
  | published (target : Thread)
  | sent (target : Thread)
  | waiting (target : Thread)
  /-- Still inside of `wait_for`, which has to take the mutex again. -/
  | woken (target : Thread) (timedOut : Bool)
  | expired (target : Thread)
  | aborted (target : Thread)
  | reading (target : Thread)
  | leaving (target : Thread) (hr : HResult)
  | unlocking (target : Thread) (hr : HResult)
  | collected (target : Thread) (hr : HResult)
  deriving DecidableEq

inductive HandlerPc where
  | entered
  | locking
  | locked
  | interrupting
  /-- About to write to the memory area which it has read. -/
  | marking
  | checking
  | collecting
  | walked (errorCode : Int)
  | unlocked (errorCode : Int)
  | stored
  | refused
  | returning (success : Bool)
  /-- The original handler runs on behalf of the application. -/
  | chained
  deriving DecidableEq

structure Handler where
  origin : Origin
  pc : HandlerPc
  deriving DecidableEq

inductive Owner where
  | sampler
  | handler (thread : Thread)
  deriving DecidableEq

structure Collector where
  mutex : Option Owner
  instanceSet : Bool
  currentThread : Option Thread
  lastStackWalkErrorCode : Int
  stackWalkFinished : Bool
  notified : Bool
  sampler : SamplerPc
  /-- The handler which a thread executes; the signal is blocked meanwhile. -/
  handlers : Thread → Option Handler
  /-- Pending signals are not queued: the first one stays. -/
  pending : Thread → Option Origin

inductive SamplerStep where
  | select (target : Thread)
  /-- `AllowStackWalk` refuses the thread. -/
  | skip
  | begin (target : Thread)
  | findHandler (inPlace : Bool)
  | lock
  | publish
  | sendSignal (ok : Bool)
  | wait
  /-- The wait ends because of a notification, of a time-out or without any reason. -/
  | wake (timedOut spurious : Bool)
  | relock
  | abort
  | checkSignalHandler (restored : Bool)
  | readErrorCode
  | unpublish
  | unlock
  | finish (target : Thread) (hr : HResult)
  deriving DecidableEq

inductive HandlerStep where
  | loadInstance
  | lock
  | reloadInstance
  | readMemoryArea
  | mark
  | canCollect (inSigSegvHandler : Bool)
  | collectCallStack (errorCode : Int)
  | unlock
  | storeErrorCode
  | notify
  | release
  | exit
  | exitOriginal
  deriving DecidableEq

inductive CollectorEvent where
  | sampler (step : SamplerStep)
  | handler (thread : Thread) (step : HandlerStep)
  | send (thread : Thread) (origin : Origin)
  /-- A pending signal ends in a handler which has replaced that of the profiler. -/
  | discard (thread : Thread)
  | deliver (thread : Thread)
  deriving DecidableEq

namespace Collector

def initial : Collector where
  mutex := none
  instanceSet := false
  currentThread := none
  lastStackWalkErrorCode := 0
  stackWalkFinished := false
  notified := false
  sampler := .idle
  handlers _ := none
  pending _ := none

variable (state : Collector)

def addPending (thread : Thread) (origin : Origin) : Collector :=
  { state with
    pending := update state.pending thread (state.pending thread <|> some origin) }

def samplerStep : SamplerStep → Option Collector
  | .select target =>
    if state.sampler = .idle then some { state with sampler := .selected target } else none
  | .skip =>
    match state.sampler with
    | .selected _ => some { state with sampler := .idle }
    | _ => none
  | .begin target =>
    if state.sampler = .selected target then
      some { state with sampler := .targeted target, currentThread := some target }
    else none
  | .findHandler inPlace =>
    match state.sampler with
    | .targeted target =>
      if inPlace then some { state with sampler := .acquiring target }
      else some { state with sampler := .collected target .eFail }
    | _ => none
  | .lock =>
    match state.sampler, state.mutex with
    | .acquiring target, none =>
      some { state with sampler := .locked target, mutex := some .sampler }
    | _, _ => none
  | .publish =>
    match state.sampler with
    | .locked target =>
      some { state with
        sampler := .published target, instanceSet := true, stackWalkFinished := false }
    | _ => none
  | .sendSignal ok =>
    match state.sampler with
    | .published target =>
      if ok then some { state.addPending target .profiler with sampler := .sent target }
      else some { state with sampler := .leaving target .eFail }
    | _ => none
  | .wait =>
    match state.sampler with
    | .sent target =>
      some { state with sampler := .waiting target, mutex := none, notified := false }
    | _ => none
  | .wake timedOut spurious =>
    match state.sampler with
    | .waiting target =>
      if timedOut || spurious || state.notified then
        some { state with sampler := .woken target timedOut }
      else none
    | _ => none
  | .relock =>
    match state.sampler, state.mutex with
    | .woken target timedOut, none =>
      some { state with
        sampler := if timedOut then .expired target else .reading target
        mutex := some .sampler }
    | _, _ => none
  | .abort =>
    match state.sampler with
    | .expired target =>
      some { state with sampler := .aborted target, lastStackWalkErrorCode := eAbort }
    | _ => none
  | .checkSignalHandler restored =>
    match state.sampler with
    | .aborted target =>
      if restored then some { state with sampler := .reading target }
      else
        some { state with
          sampler := .leaving target .eFail, lastStackWalkErrorCode := Signals.eFail }
    | _ => none
  | .readErrorCode =>
    match state.sampler with
    | .reading target =>
      some { state with
        sampler := .leaving target (if state.lastStackWalkErrorCode = 0 then .sOk else .eFail) }
    | _ => none
  | .unpublish =>
    match state.sampler with
    | .leaving target hr =>
      some { state with sampler := .unlocking target hr, instanceSet := false }
    | _ => none
  | .unlock =>
    match state.sampler with
    | .unlocking target hr => some { state with sampler := .collected target hr, mutex := none }
    | _ => none
  | .finish target hr =>
    if state.sampler = .collected target hr then
      some { state with sampler := .idle, currentThread := none }
    else none

def setHandler (thread : Thread) (handler : Option Handler) : Collector :=
  { state with handlers := update state.handlers thread handler }

def canCollect (thread : Thread) (origin : Origin) (inSigSegvHandler : Bool) :
    Bool :=
  if inSigSegvHandler then false
  else
    match state.currentThread with
    | none => false
    | some target => if target ≠ thread then false else origin ≠ .otherProcess

/-- `CollectStackSampleSignalHandler` and its caller `SignalHandler`, on one thread. -/
def handlerStep (thread : Thread) (step : HandlerStep) : Option Collector :=
  match state.handlers thread with
  | none => none
  | some ⟨origin, pc⟩ =>
    let goto (state : Collector) (pc : HandlerPc) := state.setHandler thread (some ⟨origin, pc⟩)
    match step, pc with
    | .loadInstance, .entered =>
      some (goto state (if state.instanceSet then .locking else .returning false))
    | .lock, .locking =>
      if state.mutex = none then
        some (goto { state with mutex := some (.handler thread) } .locked)
      else none
    | .reloadInstance, .locked =>
      some (goto state (if state.instanceSet then .interrupting else .refused))
    | .readMemoryArea, .interrupting => some (goto state .marking)
    | .mark, .marking => some (goto state .checking)
    | .canCollect inSigSegvHandler, .checking =>
      some (goto state
        (if state.canCollect thread origin inSigSegvHandler then .collecting else .refused))
    | .collectCallStack errorCode, .collecting => some (goto state (.walked errorCode))
    | .unlock, .walked errorCode => some (goto { state with mutex := none } (.unlocked errorCode))
    | .storeErrorCode, .unlocked errorCode =>
      some (goto { state with lastStackWalkErrorCode := errorCode } .stored)
    | .notify, .stored =>
      -- `notify_one` is lost unless the sampling thread is waiting right now.
      let notified := match state.sampler with
        | .waiting _ => true
        | _ => state.notified
      some (goto { state with stackWalkFinished := true, notified := notified } (.returning true))
    | .release, .refused => some (goto { state with mutex := none } (.returning false))
    | .exit, .returning success =>
      some (if success then state.setHandler thread none else goto state .chained)
    | .exitOriginal, .chained => some (state.setHandler thread none)
    | _, _ => none

def next : CollectorEvent → Option Collector
  | .sampler step => state.samplerStep step
  | .handler thread step => state.handlerStep thread step
  | .send thread origin =>
    if origin = .profiler then none else some (state.addPending thread origin)
  | .discard thread => some { state with pending := update state.pending thread none }
  | .deliver thread =>
    match state.pending thread, state.handlers thread with
    | some origin, none =>
      some { state.setHandler thread (some ⟨origin, .entered⟩) with
        pending := update state.pending thread none }
    | _, _ => none

end Collector

def collectorSystem : System Collector CollectorEvent :=
  .ofFunction .initial Collector.next

def startCollection (target : Thread) : List CollectorEvent :=
  [.sampler (.select target), .sampler (.begin target), .sampler (.findHandler true),
    .sampler .lock, .sampler .publish, .sampler (.sendSignal true), .sampler .wait]

/-! ## What the mutex protects -/

open Bool

namespace SamplerPc

def target : SamplerPc → Option Thread
  | .idle | .selected _ => none
  | .targeted target | .acquiring target | .locked target | .published target | .sent target
  | .waiting target | .woken target _ | .expired target | .aborted target | .reading target
  | .leaving target _ | .unlocking target _ | .collected target _ => some target

def ownsMutex : SamplerPc → Bool
  | .locked _ | .published _ | .sent _ | .expired _ | .aborted _ | .reading _ | .leaving _ _
  | .unlocking _ _ => true
  | _ => false

def publishes : SamplerPc → Bool
  | .published _ | .sent _ | .waiting _ | .woken _ _ | .expired _ | .aborted _ | .reading _
  | .leaving _ _ => true
  | _ => false

end SamplerPc

namespace HandlerPc

def ownsMutex : HandlerPc → Bool
  | .locked | .interrupting | .marking | .checking | .collecting | .walked _ | .refused => true
  | _ => false

def observes : HandlerPc → Bool
  | .interrupting | .marking | .checking | .collecting | .walked _ => true
  | _ => false

def accepted : HandlerPc → Bool
  | .collecting | .walked _ => true
  | _ => false

theorem ownsMutex_of_observes {pc : HandlerPc} (observes : pc.observes = true) :
    pc.ownsMutex = true := by
  cases pc <;> first | rfl | exact nomatch observes

theorem observes_of_accepted {pc : HandlerPc} (accepted : pc.accepted = true) :
    pc.observes = true := by
  cases pc <;> first | rfl | exact nomatch accepted

end HandlerPc

/-- The shared fields which the sampling thread alone writes say where it is. -/
structure SamplerFields (state : Collector) : Prop where
  current : state.currentThread = state.sampler.target
  published : state.instanceSet = state.sampler.publishes
  mutex : state.mutex = some .sampler ↔ state.sampler.ownsMutex = true

/-- The target alone walks its stack, while the collector is published. -/
structure Exclusive (state : Collector) : Prop extends SamplerFields state where
  handlerMutex : ∀ thread, state.mutex = some (.handler thread) ↔
    ∃ handler, state.handlers thread = some handler ∧ handler.pc.ownsMutex = true
  observed : ∀ thread handler, state.handlers thread = some handler →
    handler.pc.observes = true → state.sampler.publishes = true
  accepted : ∀ thread handler, state.handlers thread = some handler →
    handler.pc.accepted = true → state.sampler.target = some thread

section SamplerSteps

variable {state next : Collector} {step : SamplerStep}

/-- What a step of the sampling thread changes. -/
structure SamplerMoves (state next : Collector) : Prop where
  handlers : next.handlers = state.handlers
  current : state.currentThread = state.sampler.target → next.currentThread = next.sampler.target
  published : state.instanceSet = state.sampler.publishes →
    next.instanceSet = next.sampler.publishes
  /-- The sampling thread takes a free mutex, gives up its own, or leaves it alone. -/
  mutex : (state.mutex = none ∧ next.mutex = some .sampler ∧ next.sampler.ownsMutex = true) ∨
    (next.mutex = none ∧ state.sampler.ownsMutex = true ∧ next.sampler.ownsMutex = false) ∨
    (next.mutex = state.mutex ∧ next.sampler.ownsMutex = state.sampler.ownsMutex)
  /-- A published collector without the mutex is waiting, and can only be woken up. -/
  stays : state.sampler.ownsMutex = false → state.sampler.publishes = true →
    next.sampler.publishes = true ∧ next.sampler.target = state.sampler.target

theorem SamplerMoves.quiet {before after : SamplerPc} (here : state.sampler = before)
    (sampler : next.sampler = after) (handlers : next.handlers = state.handlers)
    (current : next.currentThread = state.currentThread)
    (published : next.instanceSet = state.instanceSet) (mutex : next.mutex = state.mutex)
    (target : after.target = before.target) (publishes : after.publishes = before.publishes)
    (ownsMutex : after.ownsMutex = before.ownsMutex) : SamplerMoves state next where
  handlers := handlers
  current same := by rw [current, same, here, sampler, target]
  published same := by rw [published, same, here, sampler, publishes]
  mutex := .inr (.inr ⟨mutex, by rw [here, sampler, ownsMutex]⟩)
  stays _ visible := by
    rw [here] at visible ⊢
    rw [sampler, target, publishes]
    exact ⟨visible, rfl⟩

theorem samplerMoves_of_samplerStep (taken : state.samplerStep step = some next) :
    SamplerMoves state next := by
  cases step <;> simp only [Collector.samplerStep] at taken
  case select | skip | abort | readErrorCode =>
    split at taken <;> cases taken
    next here => exact .quiet here rfl rfl rfl rfl rfl rfl rfl rfl
  case begin | finish =>
    split at taken <;> cases taken
    next here =>
      refine ⟨rfl, fun _ => rfl, ?_, ?_, ?_⟩ <;> rw [here]
      · exact id
      · exact .inr (.inr ⟨rfl, rfl⟩)
      · exact fun _ visible => absurd visible false_ne_true
  case findHandler | sendSignal | checkSignalHandler =>
    split at taken
    next here =>
      split at taken <;> cases taken
      · exact .quiet here rfl rfl rfl rfl rfl rfl rfl rfl
      · exact .quiet here rfl rfl rfl rfl rfl rfl rfl rfl
    next => cases taken
  case lock =>
    split at taken <;> cases taken
    next here free =>
      refine ⟨rfl, ?_, ?_, .inl ⟨free, rfl, rfl⟩, ?_⟩ <;> rw [here]
      · exact id
      · exact id
      · exact fun _ visible => absurd visible false_ne_true
  case publish =>
    split at taken <;> cases taken
    next here =>
      refine ⟨rfl, ?_, fun _ => rfl, ?_, ?_⟩ <;> rw [here]
      · exact id
      · exact .inr (.inr ⟨rfl, rfl⟩)
      · exact fun _ visible => absurd visible false_ne_true
  case wait =>
    split at taken <;> cases taken
    next here =>
      refine ⟨rfl, ?_, ?_, .inr (.inl ⟨rfl, ?_, rfl⟩), ?_⟩ <;> rw [here]
      · exact id
      · exact id
      · rfl
      · exact fun outside => absurd outside.symm false_ne_true
  case wake timedOut spurious =>
    split at taken
    next here =>
      split at taken <;> cases taken
      exact .quiet here rfl rfl rfl rfl rfl rfl rfl rfl
    next => cases taken
  case relock =>
    split at taken <;> cases taken
    next timedOut here free =>
      cases timedOut <;> refine ⟨rfl, ?_, ?_, .inl ⟨free, rfl, rfl⟩, ?_⟩ <;> rw [here]
      · exact id
      · exact id
      · exact fun _ _ => ⟨rfl, rfl⟩
      · exact id
      · exact id
      · exact fun _ _ => ⟨rfl, rfl⟩
  case unpublish =>
    split at taken <;> cases taken
    next here =>
      refine ⟨rfl, ?_, fun _ => rfl, ?_, ?_⟩ <;> rw [here]
      · exact id
      · exact .inr (.inr ⟨rfl, rfl⟩)
      · exact fun outside => absurd outside.symm false_ne_true
  case unlock =>
    split at taken <;> cases taken
    next here =>
      refine ⟨rfl, ?_, ?_, .inr (.inl ⟨rfl, ?_, rfl⟩), ?_⟩ <;> rw [here]
      · exact id
      · exact id
      · rfl
      · exact fun _ visible => absurd visible false_ne_true

theorem handlers_samplerStep (taken : state.samplerStep step = some next) :
    next.handlers = state.handlers :=
  (samplerMoves_of_samplerStep taken).handlers

section

variable (fields : SamplerFields state) (taken : state.samplerStep step = some next)
include fields taken

theorem SamplerFields.samplerStep : SamplerFields next := by
  have moves := samplerMoves_of_samplerStep taken
  refine ⟨moves.current fields.current, moves.published fields.published, ?_⟩
  rcases moves.mutex with ⟨-, held, owns⟩ | ⟨free, -, owns⟩ | ⟨same, owns⟩
  · exact iff_of_true held owns
  · rw [free, owns]
    exact iff_of_false (by simp) false_ne_true
  · rw [same, owns]
    exact fields.mutex

theorem SamplerFields.handlerMutex_samplerStep (thread : Thread) :
    next.mutex = some (.handler thread) ↔ state.mutex = some (.handler thread) := by
  rcases (samplerMoves_of_samplerStep taken).mutex with
    ⟨free, held, -⟩ | ⟨free, owned, -⟩ | ⟨same, -⟩
  · rw [free, held]
    exact iff_of_false (by simp) (by simp)
  · rw [free, fields.mutex.mpr owned]
    exact iff_of_false (by simp) (by simp)
  · rw [same]

theorem SamplerFields.publishes_samplerStep {thread : Thread}
    (held : state.mutex = some (.handler thread)) (published : state.sampler.publishes = true) :
    next.sampler.publishes = true ∧ next.sampler.target = state.sampler.target := by
  apply (samplerMoves_of_samplerStep taken).stays _ published
  rw [← not_eq_true, ← fields.mutex, held]
  simp

end

theorem Exclusive.samplerStep (exclusive : Exclusive state)
    (taken : state.samplerStep step = some next) : Exclusive next where
  toSamplerFields := exclusive.toSamplerFields.samplerStep taken
  handlerMutex thread := by
    rw [exclusive.handlerMutex_samplerStep taken, handlers_samplerStep taken]
    exact exclusive.handlerMutex thread
  observed thread handler found observes := by
    rw [handlers_samplerStep taken] at found
    have held := (exclusive.handlerMutex thread).mpr
      ⟨handler, found, HandlerPc.ownsMutex_of_observes observes⟩
    have published := exclusive.observed thread handler found observes
    exact (exclusive.publishes_samplerStep taken held published).1
  accepted thread handler found accepted := by
    rw [handlers_samplerStep taken] at found
    have observes := HandlerPc.observes_of_accepted accepted
    have held := (exclusive.handlerMutex thread).mpr
      ⟨handler, found, HandlerPc.ownsMutex_of_observes observes⟩
    have published := exclusive.observed thread handler found observes
    exact (exclusive.publishes_samplerStep taken held published).2.trans
      (exclusive.accepted thread handler found accepted)

end SamplerSteps

section HandlerSteps

variable {state next : Collector} {thread : Thread} {step : HandlerStep}

/-- What a step of a handler changes. -/
structure HandlerMoves (state next : Collector) (thread : Thread) (before : Handler)
    (after : Option Handler) : Prop where
  found : state.handlers thread = some before
  moved : next.handlers = update state.handlers thread after
  sampler : next.sampler = state.sampler
  instanceSet : next.instanceSet = state.instanceSet
  currentThread : next.currentThread = state.currentThread
  /-- The handler takes a free mutex, gives up its own, or leaves it alone. -/
  mutex : (state.mutex = none ∧ next.mutex = some (.handler thread) ∧
        before.pc.ownsMutex = false ∧ ∃ handler ∈ after, handler.pc.ownsMutex = true) ∨
      (next.mutex = none ∧ before.pc.ownsMutex = true ∧
        ∃ handler ∈ after, handler.pc.ownsMutex = false) ∨
      (next.mutex = state.mutex ∧
        (before.pc.ownsMutex = true ↔ ∃ handler ∈ after, handler.pc.ownsMutex = true))
  observes : ∀ handler ∈ after, handler.pc.observes = true →
    before.pc.observes = true ∨ state.instanceSet = true
  accepted : ∀ handler ∈ after, handler.pc.accepted = true →
    before.pc.accepted = true ∨ state.currentThread = some thread

theorem currentThread_of_canCollect {origin : Origin} {inSigSegvHandler : Bool}
    (allowed : state.canCollect thread origin inSigSegvHandler = true) :
    state.currentThread = some thread := by
  unfold Collector.canCollect at allowed
  split at allowed
  · exact nomatch allowed
  split at allowed
  · exact nomatch allowed
  · split at allowed
    · exact nomatch allowed
    · simp_all

section Moves

variable {origin : Origin} {before after : HandlerPc}

theorem HandlerMoves.goto (found : state.handlers thread = some ⟨origin, before⟩)
    (moved : next.handlers = update state.handlers thread (some ⟨origin, after⟩))
    (sampler : next.sampler = state.sampler) (instanceSet : next.instanceSet = state.instanceSet)
    (currentThread : next.currentThread = state.currentThread)
    (mutex : (state.mutex = none ∧ next.mutex = some (.handler thread) ∧
        before.ownsMutex = false ∧ after.ownsMutex = true) ∨
      (next.mutex = none ∧ before.ownsMutex = true ∧ after.ownsMutex = false) ∨
      (next.mutex = state.mutex ∧ before.ownsMutex = after.ownsMutex))
    (observes : after.observes = true → before.observes = true ∨ state.instanceSet = true)
    (accepted : after.accepted = true →
      before.accepted = true ∨ state.currentThread = some thread) :
    HandlerMoves state next thread ⟨origin, before⟩ (some ⟨origin, after⟩) := by
  refine ⟨found, moved, sampler, instanceSet, currentThread, ?_, ?_, ?_⟩
  · rcases mutex with ⟨free, held, out, owns⟩ | ⟨free, owns, out⟩ | ⟨same, owns⟩
    · exact .inl ⟨free, held, out, _, rfl, owns⟩
    · exact .inr (.inl ⟨free, owns, _, rfl, out⟩)
    · refine .inr (.inr ⟨same, ?_⟩)
      simp [owns]
  · rintro _ ⟨⟩
    exact observes
  · rintro _ ⟨⟩
    exact accepted

theorem HandlerMoves.leave (found : state.handlers thread = some ⟨origin, before⟩)
    (outside : before.ownsMutex = false) :
    HandlerMoves state (state.setHandler thread none) thread ⟨origin, before⟩ none := by
  refine ⟨found, rfl, rfl, rfl, rfl, .inr (.inr ⟨rfl, ?_⟩), ?_, ?_⟩
  · simp [outside]
  · rintro _ ⟨⟩
  · rintro _ ⟨⟩

end Moves

theorem handlerMoves_of_handlerStep (taken : state.handlerStep thread step = some next) :
    ∃ before after, HandlerMoves state next thread before after := by
  unfold Collector.handlerStep at taken
  split at taken
  · cases taken
  · rename_i origin pc found
    have never {demand : Prop} (seen : false = true) : demand := absurd seen false_ne_true
    split at taken
    · cases taken
      refine ⟨_, _, .goto found rfl rfl rfl rfl (.inr (.inr ⟨rfl, ?_⟩)) ?_ ?_⟩ <;> split
      · rfl
      · rfl
      · exact never
      · exact never
      · exact never
      · exact never
    -- `lock`
    · split at taken <;> cases taken
      rename_i free
      exact ⟨_, _, .goto found rfl rfl rfl rfl (.inl ⟨free, rfl, rfl, rfl⟩) never never⟩
    -- `reloadInstance`: the handler has the mutex when it sees the collector.
    · cases taken
      refine ⟨_, _, .goto found rfl rfl rfl rfl (.inr (.inr ⟨rfl, ?_⟩)) ?_ ?_⟩ <;> split
      · rfl
      · rfl
      · rename_i published
        exact fun _ => .inr published
      · exact never
      · exact never
      · exact never
    · cases taken
      exact ⟨_, _, .goto found rfl rfl rfl rfl (.inr (.inr ⟨rfl, rfl⟩)) .inl never⟩
    · cases taken
      exact ⟨_, _, .goto found rfl rfl rfl rfl (.inr (.inr ⟨rfl, rfl⟩)) .inl never⟩
    -- `canCollect` looks at the target of the collection.
    · cases taken
      refine ⟨_, _, .goto found rfl rfl rfl rfl (.inr (.inr ⟨rfl, ?_⟩)) (fun _ => .inl rfl) ?_⟩ <;>
        split
      · rfl
      · rfl
      · rename_i allowed
        exact fun _ => .inr (currentThread_of_canCollect allowed)
      · exact never
    · cases taken
      exact ⟨_, _, .goto found rfl rfl rfl rfl (.inr (.inr ⟨rfl, rfl⟩)) .inl .inl⟩
    · cases taken
      exact ⟨_, _, .goto found rfl rfl rfl rfl (.inr (.inl ⟨rfl, rfl, rfl⟩)) never never⟩
    · cases taken
      exact ⟨_, _, .goto found rfl rfl rfl rfl (.inr (.inr ⟨rfl, rfl⟩)) never never⟩
    · cases taken
      exact ⟨_, _, .goto found rfl rfl rfl rfl (.inr (.inr ⟨rfl, rfl⟩)) never never⟩
    · cases taken
      exact ⟨_, _, .goto found rfl rfl rfl rfl (.inr (.inl ⟨rfl, rfl, rfl⟩)) never never⟩
    · cases taken
      split
      · exact ⟨_, _, .leave found rfl⟩
      · exact ⟨_, _, .goto found rfl rfl rfl rfl (.inr (.inr ⟨rfl, rfl⟩)) never never⟩
    · cases taken
      exact ⟨_, _, .leave found rfl⟩
    · cases taken

theorem Exclusive.handlerStep (exclusive : Exclusive state)
    (taken : state.handlerStep thread step = some next) : Exclusive next := by
  rcases handlerMoves_of_handlerStep taken with ⟨before, after, moves⟩
  have elsewhere {other : Thread} (different : other ≠ thread) :
      next.handlers other = state.handlers other := by
    rw [moves.moved, update_of_ne different]
  have here : next.handlers thread = after := by
    rw [moves.moved, update_self]
  have owned := exclusive.handlerMutex
  refine ⟨⟨?_, ?_, ?_⟩, ?_, ?_, ?_⟩
  · rw [moves.currentThread, moves.sampler]
    exact exclusive.current
  · rw [moves.instanceSet, moves.sampler]
    exact exclusive.published
  · rw [moves.sampler, ← exclusive.mutex]
    rcases moves.mutex with ⟨free, taken, _⟩ | ⟨free, owns, _⟩ | ⟨same, _⟩
    · simp [free, taken]
    · have := (owned thread).mpr ⟨before, moves.found, owns⟩
      simp [free, this]
    · rw [same]
  · intro other
    by_cases same : other = thread
    · subst other
      rw [here]
      rcases moves.mutex with
        ⟨_, taken, _, handler, found, owns⟩ | ⟨free, _, handler, found, owns⟩ | ⟨same, iff⟩
      · simpa [taken] using ⟨handler, found, owns⟩
      · simp only [free, reduceCtorEq, false_iff]
        rintro ⟨other, foundOther, ownsOther⟩
        cases found.symm.trans foundOther
        exact absurd (owns.symm.trans ownsOther) false_ne_true
      · rw [same, owned, moves.found]
        simpa using iff
    · rw [elsewhere same, ← owned other]
      rcases moves.mutex with ⟨free, taken, _⟩ | ⟨free, owns, _⟩ | ⟨unchanged, _⟩
      · simp [free, taken, Ne.symm same]
      · have := (owned thread).mpr ⟨before, moves.found, owns⟩
        simp [free, this, Ne.symm same]
      · rw [unchanged]
  · intro other handler found observes
    rw [moves.sampler]
    by_cases same : other = thread
    · subst other
      rcases moves.observes handler (here.symm.trans found) observes with earlier | instanceSet
      · exact exclusive.observed _ before moves.found earlier
      · exact exclusive.published.symm.trans instanceSet
    · exact exclusive.observed other handler ((elsewhere same).symm.trans found) observes
  · intro other handler found accepted
    rw [moves.sampler]
    by_cases same : other = thread
    · subst other
      rcases moves.accepted handler (here.symm.trans found) accepted with earlier | current
      · exact exclusive.accepted _ before moves.found earlier
      · exact exclusive.current.symm.trans current
    · exact exclusive.accepted other handler ((elsewhere same).symm.trans found) accepted

end HandlerSteps

theorem Exclusive.next {state next : Collector} {event : CollectorEvent}
    (exclusive : Exclusive state) (taken : state.next event = some next) : Exclusive next := by
  cases event with
  | sampler step => exact exclusive.samplerStep taken
  | handler thread step => exact exclusive.handlerStep taken
  | send thread origin =>
    simp only [Collector.next] at taken
    split at taken <;> cases taken
    exact ⟨⟨exclusive.current, exclusive.published, exclusive.mutex⟩, exclusive.handlerMutex,
      exclusive.observed, exclusive.accepted⟩
  | discard thread =>
    cases taken
    exact ⟨⟨exclusive.current, exclusive.published, exclusive.mutex⟩, exclusive.handlerMutex,
      exclusive.observed, exclusive.accepted⟩
  | deliver thread =>
    simp only [Collector.next] at taken
    split at taken
    case h_2 => cases taken
    rename_i origin _ idle
    cases taken
    -- The new handler has not done anything yet.
    have fresh {other : Thread} {handler : Handler}
        (found : update state.handlers thread (some ⟨origin, .entered⟩) other = some handler) :
        state.handlers other = some handler ∨ handler.pc = .entered := by
      by_cases same : other = thread
      · subst other
        rw [update_self] at found
        cases found
        exact .inr rfl
      · rw [update_of_ne same] at found
        exact .inl found
    refine ⟨⟨exclusive.current, exclusive.published, exclusive.mutex⟩, ?_, ?_, ?_⟩
    · intro other
      refine (exclusive.handlerMutex other).trans ?_
      constructor
      · rintro ⟨handler, found, owns⟩
        have different : other ≠ thread := by
          rintro rfl
          exact nomatch idle.symm.trans found
        exact ⟨handler, (update_of_ne different ..).trans found, owns⟩
      · rintro ⟨handler, found, owns⟩
        rcases fresh found with earlier | entered
        · exact ⟨handler, earlier, owns⟩
        · rw [entered] at owns
          exact nomatch owns
    · intro other handler found observes
      rcases fresh found with earlier | entered
      · exact exclusive.observed other handler earlier observes
      · rw [entered] at observes
        exact nomatch observes
    · intro other handler found accepted
      rcases fresh found with earlier | entered
      · exact exclusive.accepted other handler earlier accepted
      · rw [entered] at accepted
        exact nomatch accepted

theorem exclusive_initial : Exclusive .initial := by
  refine ⟨⟨rfl, rfl, ?_⟩, ?_, nofun, nofun⟩
  · simp [Collector.initial, SamplerPc.ownsMutex]
  · simp [Collector.initial]

end Pyroscope.Signals
