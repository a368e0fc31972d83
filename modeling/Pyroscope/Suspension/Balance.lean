import Pyroscope.Lib.Transition

/-!
# Suspending threads on 64-bit Windows

If a collection takes too long, the watcher resumes its target, and the sampling thread resumes it
once more. Each method runs under `_watcherActivityLock`, as one step.
-/

namespace Pyroscope.Suspension

open Transition Function

abbrev Thread := Nat

/-- The deadlocks of a thread in the aggregation period it was last checked in. -/
structure ThreadInfo where
  deadlockInPeriodCount : Nat
  deadlockDetectionPeriod : Nat

structure Manager where
  targetThread : Option Thread
  isTargetThreadSuspended : Bool
  collectionStartNs : Int
  deadlockInterventionInProgress : Nat
  userTime : Nat
  kernelTime : Nat
  currentPeriod : Nat
  currentPeriodStartNs : Int
  deadlocksInPeriod : Nat

inductive SamplerPc where
  | idle
  | allowed (target : Thread)
  | suspending (target : Thread)
  | undoing (target : Thread)
  | suspended (target : Thread)
  | announced (target : Thread)
  | collecting (target : Thread)
  | collected (target : Thread)
  | ended (target : Thread)
  | finishing (target : Thread)
  deriving DecidableEq

structure State where
  suspendCount : Thread → Nat
  /-- The suspend counts which the other parties alone would have left. -/
  otherSuspendCount : Thread → Nat
  threads : Thread → ThreadInfo
  manager : Manager
  sampler : SamplerPc
  suspendCalls : Nat
  resumeCalls : Nat
  interventions : Nat

inductive Event where
  | allowStackWalk (target : Thread) (hasHandle isDestroyed : Bool)
  | suspendThread (ok : Bool)
  | ensureThreadIsSuspended (ok : Bool)
  | undoSuspension
  | notifyThreadState
  | notifyCollectionStart (now : Int) (userTime kernelTime : Nat)
  | collectStackSample
  | notifyCollectionEnd
  | resumeTargetThread
  | notifyIterationFinished
  | watcherLoopIteration (now : Int) (userTime kernelTime : Nat)
  | otherSuspends (thread : Thread)
  | otherResumes (thread : Thread)
  deriving DecidableEq

def deadlocksPerThreadThreshold : Nat := 5

def totalDeadlocksThreshold : Nat := 12

def collectionDurationThresholdNs : Int := 500000000

/-- The aggregation period is shorter in debug builds. -/
def statsAggregationPeriodNs (ndebug : Bool) : Int :=
  if ndebug then 30000000000 else 10000000000

def shouldCollectThread (threadDeadlockCount globalDeadlockCount : Nat) : Bool :=
  threadDeadlockCount ≤ deadlocksPerThreadThreshold && globalDeadlockCount ≤ totalDeadlocksThreshold

def ThreadInfo.getOrResetDeadlocksCount (info : ThreadInfo) (period : Nat) : ThreadInfo :=
  if info.deadlockDetectionPeriod ≠ period then ⟨0, period⟩ else info

def ThreadInfo.incDeadlocksCount (info : ThreadInfo) : ThreadInfo :=
  { info with deadlockInPeriodCount := info.deadlockInPeriodCount + 1 }

namespace Manager

def initial : Manager := ⟨none, false, 0, 0, 0, 0, 0, 0, 0⟩

variable (manager : Manager)

/-- What `AllowStackWalk` stores when it returns true. -/
def allow (target : Thread) : Manager :=
  { manager with targetThread := some target, isTargetThreadSuspended := false }

def notifyThreadState (isTargetThreadSuspended : Bool) : Manager :=
  { manager with isTargetThreadSuspended := isTargetThreadSuspended }

def notifyCollectionStart (now : Int) (userTime kernelTime : Nat) : Manager :=
  { manager with collectionStartNs := now, userTime := userTime, kernelTime := kernelTime }

def notifyCollectionEnd : Manager :=
  { manager with
    collectionStartNs := 0
    userTime := 0
    kernelTime := 0
    deadlockInterventionInProgress := 0 }

def notifyIterationFinished : Manager :=
  { manager with targetThread := none, collectionStartNs := 0, isTargetThreadSuspended := false }

def isPeriodOver (ndebug : Bool) (now : Int) : Bool :=
  manager.currentPeriodStartNs = 0 ||
    now - manager.currentPeriodStartNs > statsAggregationPeriodNs ndebug

def startNewStatsAggregationPeriod (now : Int) : Manager :=
  { manager with
    currentPeriod := manager.currentPeriod + 1
    currentPeriodStartNs := now
    deadlocksInPeriod := 0 }

def hasMadeProgress (userTime kernelTime : Nat) : Bool :=
  userTime ≠ manager.userTime || kernelTime ≠ manager.kernelTime

end Manager

namespace State

def initial : State where
  suspendCount _ := 0
  otherSuspendCount _ := 0
  threads _ := ⟨0, 0⟩
  manager := .initial
  sampler := .idle
  suspendCalls := 0
  resumeCalls := 0
  interventions := 0

variable (state : State)

/-- `GetUpdateIsThreadSafeForStackSampleCollection`: the answer and the updated thread. -/
def getUpdateIsThreadSafe (thread : Thread) : Bool × State :=
  let info := (state.threads thread).getOrResetDeadlocksCount state.manager.currentPeriod
  (shouldCollectThread info.deadlockInPeriodCount state.manager.deadlocksInPeriod,
    { state with threads := update state.threads thread info })

def resumeThread (thread : Thread) : State :=
  { state with
    suspendCount := update state.suspendCount thread (state.suspendCount thread - 1)
    resumeCalls := state.resumeCalls + 1 }

def resumeTargetThreadIfRequired (thread : Thread)
    (isTargetThreadSuspended : Bool) : State :=
  if !isTargetThreadSuspended then state else state.resumeThread thread

def allowStackWalk (target : Thread) (isDestroyed : Bool) : State :=
  let (isThreadSafe, state) := state.getUpdateIsThreadSafe target
  if !isThreadSafe then state
  else if isDestroyed then state
  else
    { state with
      manager := state.manager.allow target
      sampler := .allowed target
      suspendCalls := 0
      resumeCalls := 0
      interventions := 0 }

def updatePeriod (ndebug : Bool) (state : State) (now : Int) : State :=
  if state.manager.isPeriodOver ndebug now then
    { state with manager := state.manager.startNewStatsAggregationPeriod now }
  else state

def performDeadlockIntervention (target : Thread) : State :=
  let state := { state with
    manager := { state.manager with deadlockInterventionInProgress := 1 }
    interventions := state.interventions + 1 }
  let state := (state.getUpdateIsThreadSafe target).2
  let state := { state with
    threads := update state.threads target (state.threads target).incDeadlocksCount
    manager := { state.manager with deadlocksInPeriod := state.manager.deadlocksInPeriod + 1 } }
  let state := (state.getUpdateIsThreadSafe target).2
  state.resumeTargetThreadIfRequired target state.manager.isTargetThreadSuspended

def isDeadlock (now : Int) (userTime kernelTime : Nat) : Bool :=
  state.manager.collectionStartNs ≠ 0 && state.manager.deadlockInterventionInProgress = 0 &&
    now - state.manager.collectionStartNs > collectionDurationThresholdNs &&
    !state.manager.hasMadeProgress userTime kernelTime

/-- The rest of `WatcherLoopIteration`. -/
def watch (now : Int) (userTime kernelTime : Nat) : State :=
  if state.manager.collectionStartNs = 0 then state
  else if state.manager.deadlockInterventionInProgress ≥ 1 then
    if state.manager.deadlockInterventionInProgress = 1 then
      { state with manager := { state.manager with deadlockInterventionInProgress := 2 } }
    else state
  else if now - state.manager.collectionStartNs ≤ collectionDurationThresholdNs then state
  else if state.manager.hasMadeProgress userTime kernelTime then
    { state with manager := { state.manager with userTime := userTime, kernelTime := kernelTime } }
  else
    match state.manager.targetThread with
    | none => state
    | some target => state.performDeadlockIntervention target

def watcherLoopIteration (ndebug : Bool) (state : State) (now : Int) (userTime kernelTime : Nat) :
    State :=
  (state.updatePeriod ndebug now).watch now userTime kernelTime

def next (ndebug : Bool) (state : State) : Event → Option State
  | .allowStackWalk target hasHandle isDestroyed =>
    if state.sampler = .idle then
      if hasHandle then some (state.allowStackWalk target isDestroyed) else some state
    else none
  | .suspendThread ok =>
    match state.sampler with
    | .allowed target =>
      if ok then
        some { state with
          suspendCount :=
            update state.suspendCount target (state.suspendCount target + 1)
          suspendCalls := state.suspendCalls + 1
          sampler := .suspending target }
      else some { state with sampler := .finishing target }
    | _ => none
  | .ensureThreadIsSuspended ok =>
    match state.sampler with
    | .suspending target =>
      some { state with sampler := if ok then .suspended target else .undoing target }
    | _ => none
  | .undoSuspension =>
    match state.sampler with
    | .undoing target => some { state.resumeThread target with sampler := .finishing target }
    | _ => none
  | .notifyThreadState =>
    match state.sampler with
    | .suspended target =>
      some { state with
        manager := state.manager.notifyThreadState true
        sampler := .announced target }
    | _ => none
  | .notifyCollectionStart now userTime kernelTime =>
    match state.sampler with
    | .announced target =>
      some { state with
        manager := state.manager.notifyCollectionStart now userTime kernelTime
        sampler := .collecting target }
    | _ => none
  | .collectStackSample =>
    match state.sampler with
    | .collecting target => some { state with sampler := .collected target }
    | _ => none
  | .notifyCollectionEnd =>
    match state.sampler with
    | .collected target =>
      some { state with
        manager := state.manager.notifyCollectionEnd
        sampler := .ended target }
    | _ => none
  | .resumeTargetThread =>
    match state.sampler with
    | .ended target =>
      -- The sampling thread goes by its own variable, which says that it has suspended it.
      some { state.resumeTargetThreadIfRequired target true with sampler := .finishing target }
    | _ => none
  | .notifyIterationFinished =>
    match state.sampler with
    | .finishing _ =>
      some { state with
        manager := state.manager.notifyIterationFinished
        sampler := .idle }
    | _ => none
  | .watcherLoopIteration now userTime kernelTime =>
    some (state.watcherLoopIteration ndebug now userTime kernelTime)
  | .otherSuspends thread =>
    some { state with
      suspendCount := update state.suspendCount thread (state.suspendCount thread + 1)
      otherSuspendCount :=
        update state.otherSuspendCount thread (state.otherSuspendCount thread + 1) }
  | .otherResumes thread =>
    if state.otherSuspendCount thread = 0 then none
    else
      some { state with
        suspendCount := update state.suspendCount thread (state.suspendCount thread - 1)
        otherSuspendCount :=
          update state.otherSuspendCount thread (state.otherSuspendCount thread - 1) }

end State

def system (ndebug : Bool) : System State Event :=
  .ofFunction .initial (State.next ndebug)

/-! ## The balance of suspensions and resumptions -/

open State

namespace SamplerPc

def target : SamplerPc → Option Thread
  | .idle => none
  | .allowed target | .suspending target | .undoing target | .suspended target | .announced target
  | .collecting target | .collected target | .ended target | .finishing target => some target

def owes : SamplerPc → Nat
  | .suspending _ | .undoing _ | .suspended _ | .announced _ | .collecting _ | .collected _
  | .ended _ => 1
  | .idle | .allowed _ | .finishing _ => 0

def owesTo (pc : SamplerPc) (thread : Thread) : Nat :=
  if pc.target = some thread then pc.owes else 0

def collects : SamplerPc → Bool
  | .collecting _ | .collected _ => true
  | _ => false

def announces : SamplerPc → Bool
  | .announced _ | .collecting _ | .collected _ | .ended _ => true
  | _ => false

end SamplerPc

structure Ledger where
  suspendCount : Thread → Nat
  otherSuspendCount : Thread → Nat
  sampler : SamplerPc
  suspendCalls : Nat
  resumeCalls : Nat
  interventions : Nat
  targetThread : Option Thread
  isTargetThreadSuspended : Bool
  collectionStartNs : Int

def State.ledger (state : State) : Ledger where
  suspendCount := state.suspendCount
  otherSuspendCount := state.otherSuspendCount
  sampler := state.sampler
  suspendCalls := state.suspendCalls
  resumeCalls := state.resumeCalls
  interventions := state.interventions
  targetThread := state.manager.targetThread
  isTargetThreadSuspended := state.manager.isTargetThreadSuspended
  collectionStartNs := state.manager.collectionStartNs

def Ledger.intervene (ledger : Ledger) (target : Thread) : Ledger :=
  { ledger with
    suspendCount := update ledger.suspendCount target (ledger.suspendCount target - 1)
    resumeCalls := ledger.resumeCalls + 1
    interventions := ledger.interventions + 1 }

section Watcher

variable {state : State} {ndebug : Bool} {now : Int} {userTime kernelTime : Nat} {target : Thread}

theorem ledger_updatePeriod (ndebug : Bool) (state : State) (now : Int) :
    (state.updatePeriod ndebug now).ledger = state.ledger := by
  unfold updatePeriod
  split <;> rfl

theorem isDeadlock_updatePeriod (ndebug : Bool) (state : State) (now : Int)
    (userTime kernelTime : Nat) :
    (state.updatePeriod ndebug now).isDeadlock now userTime kernelTime =
      state.isDeadlock now userTime kernelTime := by
  unfold updatePeriod
  split <;> rfl

theorem isDeadlock_iff : state.isDeadlock now userTime kernelTime = true ↔
    ¬ state.manager.collectionStartNs = 0 ∧ ¬ state.manager.deadlockInterventionInProgress ≥ 1 ∧
      ¬ now - state.manager.collectionStartNs ≤ collectionDurationThresholdNs ∧
        ¬ state.manager.hasMadeProgress userTime kernelTime = true := by
  simp only [isDeadlock, Bool.and_eq_true, decide_eq_true_eq, Bool.not_eq_true', ne_eq,
    Bool.not_eq_true, and_assoc, ge_iff_le, Nat.not_le, Nat.lt_one_iff, Int.not_le, gt_iff_lt]

theorem ledger_watcherLoopIteration (ndebug : Bool)
    (alive : state.isDeadlock now userTime kernelTime = false) :
    (state.watcherLoopIteration ndebug now userTime kernelTime).ledger = state.ledger := by
  rw [← isDeadlock_updatePeriod ndebug] at alive
  rw [← ledger_updatePeriod ndebug state now]
  unfold watcherLoopIteration watch
  generalize state.updatePeriod ndebug now = later at *
  dsimp only
  split
  · rfl
  rename_i started
  split
  · split <;> rfl
  rename_i first
  split
  · rfl
  rename_i slow
  split
  · rfl
  rename_i stuck
  have deadlock := isDeadlock_iff.mpr ⟨started, first, slow, stuck⟩
  exact absurd (alive.symm.trans deadlock) Bool.false_ne_true

theorem ledger_watcherLoopIteration_of_deadlock (ndebug : Bool)
    (deadlock : state.isDeadlock now userTime kernelTime = true)
    (targeted : state.manager.targetThread = some target)
    (suspended : state.manager.isTargetThreadSuspended = true) :
    (state.watcherLoopIteration ndebug now userTime kernelTime).ledger =
      state.ledger.intervene target := by
  have same := ledger_updatePeriod ndebug state now
  rw [← isDeadlock_updatePeriod ndebug] at deadlock
  rw [← same]
  unfold watcherLoopIteration watch
  generalize state.updatePeriod ndebug now = later at *
  have targetedLater : later.manager.targetThread = some target :=
    (congrArg Ledger.targetThread same).trans targeted
  have suspendedLater : later.manager.isTargetThreadSuspended = true :=
    (congrArg Ledger.isTargetThreadSuspended same).trans suspended
  rcases isDeadlock_iff.mp deadlock with ⟨started, first, slow, stuck⟩
  rw [if_neg started, if_neg first, if_neg slow, if_neg stuck, targetedLater]
  simp [performDeadlockIntervention, getUpdateIsThreadSafe, resumeThread,
    resumeTargetThreadIfRequired, suspendedLater, ledger, Ledger.intervene]

end Watcher

/-- The books of the collection in progress, and what the watcher knows about it. -/
structure Books (ledger : Ledger) : Prop where
  target : ledger.targetThread = ledger.sampler.target
  started : ledger.collectionStartNs ≠ 0 → ledger.sampler.collects = true
  announced : ledger.sampler.announces = true → ledger.isTargetThreadSuspended = true
  calls : ledger.resumeCalls + ledger.sampler.owes = ledger.suspendCalls + ledger.interventions

theorem books_initial : Books initial.ledger :=
  ⟨rfl, fun started => absurd rfl started, nofun, rfl⟩

theorem Books.intervene {ledger : Ledger} (books : Books ledger) (target : Thread) :
    Books (ledger.intervene target) where
  target := books.target
  started := books.started
  announced := books.announced
  calls := by
    have := books.calls
    simp only [Ledger.intervene]
    omega

section Steps

variable {state after : State} {ndebug : Bool} {event : Event}

theorem ledger_allowStackWalk (state : State) (target : Thread) (isDestroyed : Bool) :
    (state.allowStackWalk target isDestroyed).ledger = state.ledger ∨
      (state.allowStackWalk target isDestroyed).ledger =
        { state.ledger with
          targetThread := some target
          isTargetThreadSuspended := false
          sampler := .allowed target
          suspendCalls := 0
          resumeCalls := 0
          interventions := 0 } := by
  unfold allowStackWalk
  dsimp only [getUpdateIsThreadSafe]
  split
  · exact .inl rfl
  split
  · exact .inl rfl
  · exact .inr rfl

/-- The watcher intervenes only in a collection whose target it knows to be suspended. -/
theorem Books.of_deadlock (books : Books state.ledger) {now : Int} {userTime kernelTime : Nat}
    (deadlock : state.isDeadlock now userTime kernelTime = true) :
    ∃ target, state.manager.targetThread = some target ∧
      state.manager.isTargetThreadSuspended = true := by
  have collects := books.started (isDeadlock_iff.mp deadlock).1
  have target := books.target
  have announced := books.announced
  change state.sampler.collects = true at collects
  change state.manager.targetThread = state.sampler.target at target
  change state.sampler.announces = true → state.manager.isTargetThreadSuspended = true at announced
  cases pc : state.sampler with
  | collecting thread | collected thread =>
    rw [pc] at target announced
    exact ⟨thread, target, announced rfl⟩
  | idle | allowed _ | suspending _ | undoing _ | suspended _ | announced _ | ended _
  | finishing _ =>
    rw [pc] at collects
    exact nomatch collects

theorem Books.next (books : Books state.ledger) (taken : state.next ndebug event = some after) :
    Books after.ledger := by
  cases event with
  | watcherLoopIteration now userTime kernelTime =>
    cases taken
    cases deadlock : state.isDeadlock now userTime kernelTime with
    | true =>
      rcases books.of_deadlock deadlock with ⟨target, targeted, suspended⟩
      rw [ledger_watcherLoopIteration_of_deadlock ndebug deadlock targeted suspended]
      exact books.intervene target
    | false =>
      rw [ledger_watcherLoopIteration ndebug deadlock]
      exact books
  | allowStackWalk target hasHandle isDestroyed =>
    simp only [next] at taken
    split at taken
    case isFalse => cases taken
    rename_i idle
    split at taken <;> cases taken
    · rcases ledger_allowStackWalk state target isDestroyed with same | opened
      · rw [same]
        exact books
      · rw [opened]
        have notStarted : state.manager.collectionStartNs = 0 := by
          by_contra started
          have collects : state.sampler.collects = true := books.started started
          rw [idle] at collects
          exact nomatch collects
        exact ⟨rfl, fun started => absurd notStarted started, nofun, rfl⟩
    · exact books
  | otherSuspends thread =>
    cases taken
    exact { books with }
  | otherResumes thread =>
    simp only [next] at taken
    split at taken <;> cases taken
    exact { books with }
  | suspendThread _ | ensureThreadIsSuspended _ | undoSuspension | notifyThreadState
  | notifyCollectionStart _ _ _ | collectStackSample | notifyCollectionEnd | resumeTargetThread
  | notifyIterationFinished =>
    rcases books with ⟨target, started, announced, calls⟩
    simp only [next] at taken
    split at taken <;> try split at taken
    all_goals cases taken
    all_goals constructor
    all_goals simp_all [ledger, SamplerPc.target, SamplerPc.owes, SamplerPc.collects,
      SamplerPc.announces, resumeThread, resumeTargetThreadIfRequired, Manager.notifyThreadState,
      Manager.notifyCollectionStart, Manager.notifyCollectionEnd, Manager.notifyIterationFinished,
      Nat.add_right_comm]

/-- The profiler adds to a suspend count what it has yet to resume. -/
def Counted (ledger : Ledger) : Prop :=
  ∀ thread,
    ledger.suspendCount thread = ledger.otherSuspendCount thread + ledger.sampler.owesTo thread

def NoDeadlock (state : State) : Event → Prop
  | .watcherLoopIteration now userTime kernelTime =>
    state.isDeadlock now userTime kernelTime = false
  | _ => True

theorem Counted.move {ledger later : Ledger} (counted : Counted ledger)
    (others : later.otherSuspendCount = ledger.otherSuspendCount)
    (before : ledger.sampler.target = some target)
    (behind : later.sampler.target = some target ∨ later.sampler.owes = 0)
    (elsewhere : ∀ thread, thread ≠ target → later.suspendCount thread = ledger.suspendCount thread)
    (here : later.suspendCount target + ledger.sampler.owes =
      ledger.suspendCount target + later.sampler.owes) : Counted later := by
  intro thread
  have count := counted thread
  unfold SamplerPc.owesTo at count ⊢
  rw [before] at count
  rw [others]
  by_cases same : thread = target
  · subst thread
    rw [if_pos rfl] at count
    rcases behind with behind | nothing
    · rw [if_pos behind]
      omega
    · rw [nothing, ite_self]
      omega
  · have different : ¬ some target = some thread := fun eq => same (Option.some.inj eq).symm
    rw [if_neg different] at count
    rw [elsewhere thread same, count]
    rcases behind with behind | nothing
    · rw [behind, if_neg different]
    · rw [nothing, ite_self]

theorem Counted.next (counted : Counted state.ledger) (noDeadlock : NoDeadlock state event)
    (taken : state.next ndebug event = some after) : Counted after.ledger := by
  cases event with
  | watcherLoopIteration now userTime kernelTime =>
    cases taken
    rw [ledger_watcherLoopIteration ndebug noDeadlock]
    exact counted
  | allowStackWalk target hasHandle isDestroyed =>
    simp only [next] at taken
    split at taken
    case isFalse => cases taken
    rename_i idle
    split at taken <;> cases taken
    · rcases ledger_allowStackWalk state target isDestroyed with same | opened
      · rw [same]
        exact counted
      · rw [opened]
        intro thread
        have before := counted thread
        simp only [ledger, idle, SamplerPc.owesTo, SamplerPc.owes, ite_self] at before ⊢
        exact before
    · exact counted
  | otherSuspends thread =>
    cases taken
    intro other
    have before := counted other
    simp only [ledger, update_apply] at before ⊢
    split
    · subst other
      omega
    · exact before
  | otherResumes thread =>
    simp only [next] at taken
    split at taken <;> cases taken
    intro other
    have before := counted other
    simp only [ledger, update_apply] at before ⊢
    split
    · subst other
      omega
    · exact before
  | suspendThread ok =>
    simp only [next] at taken
    split at taken
    case h_2 => cases taken
    rename_i target pc
    split at taken <;> cases taken
    · refine counted.move rfl (congrArg SamplerPc.target pc) (.inl rfl) ?_ ?_
      · exact fun thread different => update_of_ne different ..
      · simp [ledger, pc, SamplerPc.owes]
    · refine counted.move rfl (congrArg SamplerPc.target pc) (.inl rfl) (fun _ _ => rfl) ?_
      simp [ledger, pc, SamplerPc.owes]
  | undoSuspension | resumeTargetThread =>
    simp only [next] at taken
    split at taken
    case h_2 => cases taken
    rename_i target pc
    cases taken
    have count := counted target
    refine counted.move rfl (congrArg SamplerPc.target pc) (.inl rfl) ?_ ?_
    · exact fun thread different => update_of_ne different ..
    · simp [ledger, resumeThread, resumeTargetThreadIfRequired, pc,
        SamplerPc.owesTo, SamplerPc.owes, SamplerPc.target] at count ⊢
      omega
  | ensureThreadIsSuspended ok =>
    simp only [next] at taken
    split at taken
    case h_2 => cases taken
    rename_i target pc
    cases taken
    refine counted.move rfl (congrArg SamplerPc.target pc) (.inl ?_) (fun _ _ => rfl) ?_
    · cases ok <;> rfl
    · cases ok <;> simp [ledger, pc, SamplerPc.owes]
  | notifyThreadState | notifyCollectionStart _ _ _ | collectStackSample | notifyCollectionEnd
  | notifyIterationFinished =>
    simp only [next] at taken
    split at taken
    case h_2 => cases taken
    rename_i target pc
    cases taken
    refine counted.move rfl (congrArg SamplerPc.target pc) ?_ (fun _ _ => rfl) ?_
    · simp [ledger, SamplerPc.target, SamplerPc.owes]
    · simp [ledger, pc, SamplerPc.owes]

theorem interventions_next (untouched : state.interventions = 0)
    (noDeadlock : NoDeadlock state event) (taken : state.next ndebug event = some after) :
    after.interventions = 0 := by
  cases event with
  | watcherLoopIteration now userTime kernelTime =>
    cases taken
    have same := ledger_watcherLoopIteration ndebug noDeadlock
    exact (congrArg Ledger.interventions same).trans untouched
  | allowStackWalk target hasHandle isDestroyed =>
    simp only [next] at taken
    split at taken <;> try split at taken
    all_goals cases taken
    · rcases ledger_allowStackWalk state target isDestroyed with same | opened
      · exact (congrArg Ledger.interventions same).trans untouched
      · exact congrArg Ledger.interventions opened
    · exact untouched
  | otherSuspends _ | otherResumes _ | suspendThread _ | ensureThreadIsSuspended _ | undoSuspension
  | notifyThreadState | notifyCollectionStart _ _ _ | collectStackSample | notifyCollectionEnd
  | resumeTargetThread | notifyIterationFinished =>
    simp only [next] at taken
    repeat' split at taken
    all_goals cases taken
    all_goals exact untouched

end Steps

/-- No collection is in progress. -/
def Ended (state : State) : Prop :=
  state.sampler = .idle ∨ ∃ target, state.sampler = .finishing target

theorem owes_of_ended {state : State} (ended : Ended state) : state.sampler.owes = 0 := by
  rcases ended with pc | ⟨target, pc⟩ <;> rw [pc] <;> rfl

/-- Each intervention costs the target one resumption too many. -/
theorem resumeCalls_of_run {ndebug : Bool} {events : List Event} {state : State}
    (run : (system ndebug).Run .initial events state) (ended : Ended state) :
    state.resumeCalls = state.suspendCalls + state.interventions := by
  have books : Books state.ledger :=
    run.invariant (fun state => Books state.ledger) books_initial
      fun _ _ _ books taken => books.next taken
  have calls : state.resumeCalls + state.sampler.owes = state.suspendCalls + state.interventions :=
    books.calls
  rw [owes_of_ended ended] at calls
  exact calls

/-- An ended collection has resumed its target exactly as often as it has suspended it. -/
def Balanced (state : State) : Prop :=
  Ended state → state.resumeCalls = state.suspendCalls ∧
    ∀ thread, state.suspendCount thread = state.otherSuspendCount thread

theorem balanced_of_run {ndebug : Bool} {events : List Event} {state : State}
    (run : ((system ndebug).restrict NoDeadlock).Run .initial events state) : Balanced state := by
  intro ended
  have settled : Counted state.ledger ∧ state.interventions = 0 := by
    refine run.invariant (fun state => Counted state.ledger ∧ state.interventions = 0) ?_ ?_
    · exact ⟨fun _ => rfl, rfl⟩
    · rintro state event next ⟨counted, untouched⟩ ⟨noDeadlock, taken⟩
      exact ⟨counted.next noDeadlock taken, interventions_next untouched noDeadlock taken⟩
  constructor
  · rw [resumeCalls_of_run run.of_restrict ended, settled.2, Nat.add_zero]
  · intro thread
    have count := settled.1 thread
    have nothing : state.ledger.sampler.owesTo thread = 0 := by
      change state.sampler.owesTo thread = 0
      rw [SamplerPc.owesTo, owes_of_ended ended, ite_self]
    rw [nothing] at count
    exact count

def watchedCollection (target : Thread) (now : Int) : List Event :=
  [.allowStackWalk target true false, .suspendThread true, .ensureThreadIsSuspended true,
    .notifyThreadState, .notifyCollectionStart 1 0 0, .watcherLoopIteration now 0 0,
    .collectStackSample, .notifyCollectionEnd, .resumeTargetThread, .notifyIterationFinished]

theorem balanced_in_time : ∃ state,
    (system true).Run .initial (.otherSuspends 1 :: watchedCollection 1 2) state ∧
      Balanced state := by
  refine System.exists_run_of_restricted_exec NoDeadlock rfl (by repeat' constructor) ?_
  exact balanced_of_run

/-- After an intervention, the thread runs although another party has suspended it. -/
theorem resumed_twice : ∃ state,
    (system true).Run .initial (.otherSuspends 1 :: watchedCollection 1 600000000) state ∧
      state.sampler = .idle ∧ state.suspendCalls = 1 ∧ state.resumeCalls = 2 ∧
        state.otherSuspendCount 1 = 1 ∧ state.suspendCount 1 = 0 := by
  refine ⟨_, System.run_of_exec rfl, ?_⟩
  decide

end Pyroscope.Suspension
