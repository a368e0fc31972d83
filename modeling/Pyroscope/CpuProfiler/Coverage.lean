import Mathlib.Data.List.Nodup
import Pyroscope.Lib.Transition

/-!
# Start of the CPU profiler

`Start` creates the timers of the listed threads, and later threads create their own. Only one which
looks at the service between the enumeration and the transition to `Started` has none.
-/

namespace Pyroscope.CpuProfiler

open Transition

inductive CallbackPc where
  | absent
  /-- `ThreadCreated` has put the thread into the list. -/
  | created
  | assigning
  | registering
  | checkingState
  | readingTimer
  | creatingTimer
  | storingTimer
  | registered
  | live
  /-- `UnregisterThread` is called, by `ThreadDestroyed` if the thread is out of the list. -/
  | unregistering (destroyed : Bool)
  | exchangingTimer (destroyed : Bool)
  | deletingTimer (destroyed : Bool)
  | unregistered (destroyed : Bool)
  | finished
  | destroyed
  deriving DecidableEq

def CallbackPc.holdsLock : CallbackPc → Bool
  | checkingState | readingTimer | creatingTimer | storingTimer | registered => true
  | exchangingTimer _ | deletingTimer _ | unregistered _ => true
  | _ => false

def CallbackPc.inProgress : CallbackPc → Bool
  | absent | created | live | finished | destroyed => false
  | _ => true

structure ManagedThread where
  pc : CallbackPc
  inList : Bool
  osThreadId : Nat
  hasTimerId : Bool
  /-- How many timers of the profiler the system has for the thread. -/
  timers : Nat
  deriving DecidableEq

inductive CallbackStep where
  | create
  | assign
  | setThreadOsInfo (osThreadId : Nat)
  | advance (succeeds : Bool)
  | finishRoutine
  | destroy
  deriving DecidableEq

namespace ManagedThread

def initial : ManagedThread := ⟨.absent, false, 0, false, 0⟩

def registerThreadImpl (succeeds : Bool) (thread : ManagedThread) : ManagedThread :=
  if thread.hasTimerId then thread
  else if succeeds then { thread with hasTimerId := true, timers := thread.timers + 1 }
  else thread

def enumerate (succeeds : Bool) (thread : ManagedThread) : ManagedThread :=
  if thread.inList ∧ thread.osThreadId ≠ 0 then thread.registerThreadImpl succeeds else thread

def advance (isStarted succeeds : Bool) (thread : ManagedThread) : Option ManagedThread :=
  match thread.pc with
  | .registering => some { thread with pc := .checkingState }
  | .checkingState => some { thread with pc := if isStarted then .readingTimer else .registered }
  | .readingTimer =>
    some { thread with pc := if thread.hasTimerId then .registered else .creatingTimer }
  | .creatingTimer =>
    if succeeds then some { thread with pc := .storingTimer, timers := thread.timers + 1 }
    else some { thread with pc := .registered }
  | .storingTimer => some { thread with pc := .registered, hasTimerId := true }
  | .registered => some { thread with pc := .live }
  | .unregistering destroyed => some { thread with pc := .exchangingTimer destroyed }
  | .exchangingTimer destroyed =>
    some { thread with
      hasTimerId := false
      pc := if thread.hasTimerId then .deletingTimer destroyed else .unregistered destroyed }
  | .deletingTimer destroyed =>
    some { thread with pc := .unregistered destroyed, timers := thread.timers - 1 }
  | .unregistered destroyed =>
    some { thread with pc := if destroyed then .destroyed else .finished }
  | _ => none

def callback (isStarted : Bool) (thread : ManagedThread) : CallbackStep → Option ManagedThread
  | .create =>
    if thread.pc = .absent then some { thread with pc := .created, inList := true } else none
  | .assign =>
    if thread.pc = .absent ∨ thread.pc = .created ∨ thread.pc = .live then
      some { thread with pc := .assigning, inList := true }
    else none
  | .setThreadOsInfo osThreadId =>
    if thread.pc = .assigning ∧ osThreadId ≠ 0 then
      some { thread with pc := .registering, osThreadId }
    else none
  | .advance succeeds => thread.advance isStarted succeeds
  | .finishRoutine =>
    if thread.pc = .live then some { thread with pc := .unregistering false } else none
  | .destroy =>
    if thread.pc = .created ∨ thread.pc = .live ∨ thread.pc = .finished then
      some { thread with pc := .unregistering true, inList := false }
    else none

end ManagedThread

/-- Where `Start` is; the service is in the state `Started` only at the end. -/
inductive StartPc where
  | init
  | starting
  | locking
  | enumerating
  | unlocking
  | finishing
  | started
  deriving DecidableEq

def StartPc.holdsLock : StartPc → Bool
  | enumerating | unlocking => true
  | _ => false

def StartPc.enumerated : StartPc → Bool
  | unlocking | finishing | started => true
  | _ => false

structure Coverage (Thread : Type) where
  start : StartPc
  threads : Thread → ManagedThread
  readers : List Thread

inductive StartStep (Thread : Type) where
  | begin
  | registerHandler (registered : Bool)
  | lock
  | forEach (succeeds : Thread → Bool)
  | unlock
  | setStarted

inductive CoverageEvent (Thread : Type) where
  | start (step : StartStep Thread)
  | callback (thread : Thread) (step : CallbackStep)

namespace Coverage

variable {Thread : Type} [DecidableEq Thread]

def initial : Coverage Thread := ⟨.init, fun _ => .initial, []⟩

variable (state : Coverage Thread)

/-- `ServiceBase::Start` and `StartImpl`; without the handler it fails and can be tried again. -/
def startStep (step : StartStep Thread) : Option (Coverage Thread) :=
  match step, state.start with
  | .begin, .init => some { state with start := .starting }
  | .registerHandler registered, .starting =>
    some { state with start := if registered then .locking else .init }
  | .lock, .locking =>
    if state.readers = [] then some { state with start := .enumerating } else none
  | .forEach succeeds, .enumerating =>
    some { state with
      start := .unlocking
      threads := fun thread => (state.threads thread).enumerate (succeeds thread) }
  | .unlock, .unlocking => some { state with start := .finishing }
  | .setStarted, .finishing => some { state with start := .started }
  | _, _ => none

def moveLock (thread : Thread) (before after : CallbackPc) :
    Option (List Thread) :=
  match before.holdsLock, after.holdsLock with
  | false, true => if state.start.holdsLock then none else some (thread :: state.readers)
  | true, false => some (state.readers.erase thread)
  | _, _ => some state.readers

def callbackStep (thread : Thread) (step : CallbackStep) :
    Option (Coverage Thread) :=
  ((state.threads thread).callback (state.start = .started) step).bind fun after =>
    (state.moveLock thread (state.threads thread).pc after.pc).map fun readers =>
      { state with threads := Function.update state.threads thread after, readers }

def next : CoverageEvent Thread → Option (Coverage Thread)
  | .start step => state.startStep step
  | .callback thread step => state.callbackStep thread step

/--
Every thread of the list which has an OS id and has not finished owns one timer, and no
destroyed thread owns any.
-/
def Complete : Prop :=
  ∀ thread,
    ((state.threads thread).inList = true → (state.threads thread).osThreadId ≠ 0 →
      (state.threads thread).pc ≠ .finished → (state.threads thread).timers = 1) ∧
    ((state.threads thread).pc = .destroyed → (state.threads thread).timers = 0)

/-- No callback is in progress. -/
def Settled : Prop :=
  ∀ thread, (state.threads thread).pc.inProgress = false

/--
`RegisterThread` does not look at the state between the enumeration and the transition
to `Started`, unless the thread was enumerated. The system does not refuse timers.
-/
def InTime : CoverageEvent Thread → Prop
  | .callback thread (.advance succeeds) =>
    ((state.threads thread).pc = .checkingState → state.start = .finishing →
      (state.threads thread).hasTimerId = true) ∧
    ((state.threads thread).pc = .creatingTimer → succeeds = true)
  | .start (.forEach succeeds) => ∀ thread, succeeds thread = true
  | _ => True

end Coverage

def coverageSystem (Thread : Type) [DecidableEq Thread] :
    System (Coverage Thread) (CoverageEvent Thread) :=
  .ofFunction .initial Coverage.next

/-! ## Every managed thread has its timer -/

open ManagedThread Option Function

namespace CallbackPc

@[simp]
def withoutTimerId : CallbackPc → Bool
  | absent | creatingTimer | storingTimer | deletingTimer _ | unregistered _ | destroyed => true
  | _ => false

@[simp]
def outOfList : CallbackPc → Bool
  | absent | unregistering true | exchangingTimer true | deletingTimer true => true
  | unregistered true | destroyed => true
  | _ => false

@[simp]
def listed : CallbackPc → Bool
  | created | assigning | registering | checkingState | readingTimer | creatingTimer => true
  | storingTimer | registered | live => true
  | _ => false

@[simp]
def assigned : CallbackPc → Bool
  | registering | checkingState | readingTimer | creatingTimer | storingTimer => true
  | registered | live => true
  | _ => false

@[simp]
def unassigned : CallbackPc → Bool
  | absent | created => true
  | _ => false

@[simp]
def covered : CallbackPc → Bool
  | registered | live => true
  | _ => false

@[simp]
def looseTimers : CallbackPc → Nat
  | storingTimer | deletingTimer _ => 1
  | _ => 0

theorem outOfList_of_withoutTimerId {pc : CallbackPc} (without : pc.withoutTimerId = true)
    (unlocked : pc.holdsLock = false) : pc.outOfList = true := by
  cases pc <;> simp_all [holdsLock]

theorem listed_and_assigned_of_covered {pc : CallbackPc} (covered : pc.covered = true) :
    pc.listed = true ∧ pc.assigned = true := by
  cases pc <;> simp_all

end CallbackPc

/-- How the timers of a thread belong to the position of its code. -/
structure ManagedThread.Sound (enumerated : Bool) (thread : ManagedThread) : Prop where
  timers : thread.timers = (if thread.hasTimerId then 1 else 0) + thread.pc.looseTimers
  withoutTimerId : thread.pc.withoutTimerId = true → thread.hasTimerId = false
  outOfList : thread.pc.outOfList = true → thread.inList = false
  listed : thread.pc.listed = true → thread.inList = true
  assigned : thread.pc.assigned = true → thread.osThreadId ≠ 0
  unassigned : thread.pc.unassigned = true → thread.osThreadId = 0
  covered : enumerated = true → thread.pc.covered = true → thread.hasTimerId = true

namespace ManagedThread

variable {thread later : ManagedThread} {enumerated isStarted succeeds : Bool}

theorem Sound.initial : ManagedThread.initial.Sound false := by
  constructor <;> simp [ManagedThread.initial, CallbackPc.looseTimers, CallbackPc.assigned]

theorem unasked {demand : Prop} (asked : false = true) : demand :=
  absurd asked Bool.false_ne_true

section

variable (sound : thread.Sound enumerated)
  (inTime : thread.pc = .checkingState → enumerated = true → isStarted = false →
    thread.hasTimerId = true) {step : CallbackStep}
include sound inTime

theorem Sound.advance (granted : thread.pc = .creatingTimer → succeeds = true)
    (taken : thread.advance isStarted succeeds = some later) : later.Sound enumerated := by
  rcases sound with ⟨timers, withoutTimerId, outOfList, listed, assigned, unassigned, covered⟩
  rcases thread with ⟨pc, inList, osThreadId, hasTimerId, count⟩
  cases pc with
  | registering =>
    cases taken
    exact ⟨timers, unasked, unasked, fun _ => listed rfl, fun _ => assigned rfl, unasked,
      fun _ => unasked⟩
  | checkingState =>
    cases taken
    cases isStarted with
    | false =>
      exact ⟨timers, unasked, unasked, fun _ => listed rfl, fun _ => assigned rfl, unasked,
        fun after _ => inTime rfl after rfl⟩
    | true =>
      exact ⟨timers, unasked, unasked, fun _ => listed rfl, fun _ => assigned rfl, unasked,
        fun _ => unasked⟩
  | readingTimer =>
    cases taken
    cases hasTimerId with
    | false =>
      exact ⟨timers, fun _ => rfl, unasked, fun _ => listed rfl, fun _ => assigned rfl,
        unasked, fun _ => unasked⟩
    | true =>
      exact ⟨timers, unasked, unasked, fun _ => listed rfl, fun _ => assigned rfl, unasked,
        fun _ _ => rfl⟩
  | creatingTimer =>
    simp only [granted rfl, advance, if_true, Option.some.injEq] at taken
    subst later
    exact ⟨congrArg (· + 1) timers, fun _ => withoutTimerId rfl, unasked, fun _ => listed rfl,
      fun _ => assigned rfl, unasked, fun _ => unasked⟩
  | storingTimer =>
    cases taken
    cases withoutTimerId rfl
    exact ⟨timers, unasked, unasked, fun _ => listed rfl, fun _ => assigned rfl, unasked,
      fun _ _ => rfl⟩
  | registered =>
    cases taken
    exact ⟨timers, unasked, unasked, fun _ => listed rfl, fun _ => assigned rfl, unasked,
      fun after _ => covered after rfl⟩
  | unregistering destroyed =>
    cases taken
    cases destroyed <;>
      exact ⟨timers, unasked, outOfList, unasked, unasked, unasked, fun _ => unasked⟩
  | exchangingTimer destroyed =>
    cases taken
    cases destroyed <;> cases hasTimerId <;>
      exact ⟨timers, fun _ => rfl, outOfList, unasked, unasked, unasked, fun _ => unasked⟩
  | deletingTimer destroyed =>
    cases taken
    cases destroyed <;>
      exact ⟨congrArg (· - 1) timers, fun _ => withoutTimerId rfl, outOfList, unasked, unasked,
        unasked, fun _ => unasked⟩
  | unregistered destroyed =>
    cases taken
    cases destroyed with
    | false => exact ⟨timers, unasked, unasked, unasked, unasked, unasked, fun _ => unasked⟩
    | true => exact ⟨timers, fun _ => withoutTimerId rfl, fun _ => outOfList rfl, unasked,
        unasked, unasked, fun _ => unasked⟩
  | absent | created | assigning | live | finished | destroyed => cases taken

theorem Sound.callback
    (granted : ∀ succeeds, step = .advance succeeds → thread.pc = .creatingTimer → succeeds = true)
    (taken : thread.callback isStarted step = some later) : later.Sound enumerated := by
  rcases sound with ⟨timers, withoutTimerId, outOfList, listed, assigned, unassigned, covered⟩
  rcases thread with ⟨pc, inList, osThreadId, hasTimerId, count⟩
  cases step with
  | advance succeeds =>
    have sound := Sound.mk timers withoutTimerId outOfList listed assigned unassigned covered
    exact sound.advance inTime (granted succeeds rfl) taken
  | create =>
    rcases ite_none_right_eq_some.mp taken with ⟨rfl, ⟨⟩⟩
    exact ⟨timers, unasked, unasked, fun _ => rfl, unasked, fun _ => unassigned rfl,
      fun _ => unasked⟩
  | assign =>
    simp only [callback, ite_none_right_eq_some] at taken
    rcases taken with ⟨rfl | rfl | rfl, same⟩ <;> cases same <;>
      exact ⟨timers, unasked, unasked, fun _ => rfl, unasked, unasked, fun _ => unasked⟩
  | setThreadOsInfo osThreadId =>
    rcases ite_none_right_eq_some.mp taken with ⟨⟨rfl, isId⟩, ⟨⟩⟩
    exact ⟨timers, unasked, unasked, fun _ => listed rfl, fun _ => isId, unasked,
      fun _ => unasked⟩
  | finishRoutine =>
    rcases ite_none_right_eq_some.mp taken with ⟨rfl, ⟨⟩⟩
    exact ⟨timers, unasked, unasked, unasked, unasked, unasked, fun _ => unasked⟩
  | destroy =>
    simp only [callback, ite_none_right_eq_some] at taken
    rcases taken with ⟨rfl | rfl | rfl, same⟩ <;> cases same <;>
      exact ⟨timers, unasked, fun _ => rfl, unasked, unasked, unasked, fun _ => unasked⟩

end

theorem Sound.enumerate (sound : thread.Sound enumerated) (unlocked : thread.pc.holdsLock = false) :
    (thread.enumerate true).Sound true := by
  simp only [ManagedThread.enumerate, ManagedThread.registerThreadImpl]
  split
  case isTrue reached =>
    split
    case isTrue already =>
      exact ⟨sound.timers, sound.withoutTimerId, sound.outOfList, sound.listed, sound.assigned,
        sound.unassigned, fun _ _ => already⟩
    case isFalse missing =>
      refine ⟨?_, ?_, sound.outOfList, sound.listed, sound.assigned, sound.unassigned,
        fun _ _ => rfl⟩
      · have timers := sound.timers
        simp only [missing] at timers
        simp [timers, Nat.add_comm]
      · -- The thread would be in the middle of its registration, or not in the list.
        intro without
        have notListed := sound.outOfList (CallbackPc.outOfList_of_withoutTimerId without unlocked)
        rw [reached.1] at notListed
        cases notListed
  case isFalse passedOver =>
    refine ⟨sound.timers, sound.withoutTimerId, sound.outOfList, sound.listed, sound.assigned,
      sound.unassigned, ?_⟩
    intro _ covered
    have places := CallbackPc.listed_and_assigned_of_covered covered
    exact absurd ⟨sound.listed places.1, sound.assigned places.2⟩ passedOver

theorem pc_enumerate (succeeds : Bool) (thread : ManagedThread) :
    (thread.enumerate succeeds).pc = thread.pc := by
  simp only [enumerate, registerThreadImpl]
  split
  · split
    · rfl
    · split <;> rfl
  · rfl

end ManagedThread

namespace Coverage

variable {Thread : Type} {state later : Coverage Thread} {thread : Thread}

/-- The register lock is shared by the threads which are at such a place, or held by `Start`. -/
structure Locked (state : Coverage Thread) : Prop where
  nodup : state.readers.Nodup
  mem_iff : ∀ thread, thread ∈ state.readers ↔ (state.threads thread).pc.holdsLock = true
  exclusive : state.start.holdsLock = true → state.readers = []

structure Sound (state : Coverage Thread) : Prop where
  locked : state.Locked
  threads : ∀ thread, (state.threads thread).Sound state.start.enumerated

theorem Sound.initial : (Coverage.initial : Coverage Thread).Sound := by
  refine ⟨⟨List.nodup_nil, ?_, fun _ => rfl⟩, fun _ => .initial⟩
  intro thread
  simp [Coverage.initial, ManagedThread.initial, CallbackPc.holdsLock]

theorem Sound.goto (sound : state.Sound) {pc : StartPc}
    (unlocked : pc.holdsLock = true → state.readers = [])
    (same : pc.enumerated = state.start.enumerated) : Sound { state with start := pc } := by
  refine ⟨⟨sound.locked.nodup, sound.locked.mem_iff, unlocked⟩, ?_⟩
  intro thread
  rw [same]
  exact sound.threads thread

theorem Sound.live_of_settled (sound : state.Sound) (settled : state.Settled)
    (inList : (state.threads thread).inList = true)
    (assigned : (state.threads thread).osThreadId ≠ 0)
    (unfinished : (state.threads thread).pc ≠ .finished) : (state.threads thread).pc = .live := by
  have outOfList := (sound.threads thread).outOfList
  have unassigned := (sound.threads thread).unassigned
  have idle := settled thread
  cases atPc : (state.threads thread).pc <;> simp_all [CallbackPc.inProgress]

theorem Sound.complete (sound : state.Sound) (started : state.start = .started)
    (settled : state.Settled) : state.Complete := by
  intro thread
  have timers := (sound.threads thread).timers
  constructor
  · intro inList assigned unfinished
    have live := sound.live_of_settled settled inList assigned unfinished
    have has := (sound.threads thread).covered (by simp [started, StartPc.enumerated])
      (by simp [live])
    simpa [has, live] using timers
  · intro destroyed
    have hasNot := (sound.threads thread).withoutTimerId (by simp [destroyed])
    simpa [hasNot, destroyed] using timers

theorem Sound.startStep {step : StartStep Thread} (sound : state.Sound)
    (inTime : state.InTime (.start step)) (taken : state.startStep step = some later) :
    later.Sound := by
  simp only [Coverage.startStep] at taken
  split at taken
  case h_1 atPc | h_5 atPc | h_6 atPc =>
    cases taken
    exact sound.goto (by simp [StartPc.holdsLock]) (by simp [atPc, StartPc.enumerated])
  case h_2 registered atPc =>
    cases taken
    cases registered
    · exact sound.goto (by simp [StartPc.holdsLock]) (by simp [atPc, StartPc.enumerated])
    · exact sound.goto (by simp [StartPc.holdsLock]) (by simp [atPc, StartPc.enumerated])
  case h_3 atPc =>
    split at taken <;> cases taken
    rename_i nobody
    exact sound.goto (fun _ => nobody) (by simp [atPc, StartPc.enumerated])
  case h_4 succeeds atPc =>
    cases taken
    have nobody : state.readers = [] := sound.locked.exclusive (by simp [atPc, StartPc.holdsLock])
    refine ⟨⟨sound.locked.nodup, ?_, fun _ => nobody⟩, ?_⟩
    · intro thread
      rw [pc_enumerate]
      exact sound.locked.mem_iff thread
    · intro thread
      have unlocked : (state.threads thread).pc.holdsLock = false := by
        have outside := mt (sound.locked.mem_iff thread).mpr (by simp [nobody])
        simpa using outside
      simp only [inTime thread]
      exact (sound.threads thread).enumerate unlocked
  case h_7 => cases taken

variable [DecidableEq Thread]

theorem Locked.moveLock (locked : state.Locked) {after : ManagedThread} {readers : List Thread}
    (moved : state.moveLock thread (state.threads thread).pc after.pc = some readers) :
    Locked { state with threads := update state.threads thread after, readers } := by
  -- Whether the thread is among the readers afterwards decides the membership of all.
  have members {readers : List Thread}
      (itself : thread ∈ readers ↔ after.pc.holdsLock = true)
      (others : ∀ other, other ≠ thread → (other ∈ readers ↔ other ∈ state.readers))
      (other : Thread) : other ∈ readers ↔
        (update state.threads thread after other).pc.holdsLock = true := by
    by_cases same : other = thread
    · subst same
      rw [update_self]
      exact itself
    · rw [update_of_ne same, others other same]
      exact locked.mem_iff other
  have itself := locked.mem_iff thread
  simp only [Coverage.moveLock] at moved
  cases before : (state.threads thread).pc.holdsLock <;> cases holds : after.pc.holdsLock <;>
    simp only [before, holds] at moved itself
  case false.true =>
    split at moved <;> cases moved
    rename_i unlocked
    refine ⟨List.nodup_cons.mpr ⟨by simpa using itself, locked.nodup⟩, ?_, ?_⟩
    · exact members (by simp [holds]) (by simp +contextual)
    · intro held
      exact absurd held unlocked
  case true.false =>
    cases moved
    refine ⟨locked.nodup.erase thread, ?_, ?_⟩
    · apply members
      · simp [locked.nodup.mem_erase_iff, holds]
      · intro other different
        simp [locked.nodup.mem_erase_iff, different]
    · intro held
      simp [locked.exclusive held]
  case false.false | true.true =>
    cases moved
    exact ⟨locked.nodup, members (by simpa [holds] using itself) (by simp), locked.exclusive⟩

theorem Sound.callbackStep (sound : state.Sound) (inTime : state.InTime (.callback thread step))
    (taken : state.callbackStep thread step = some later) : later.Sound := by
  simp only [Coverage.callbackStep, bind_eq_some_iff, map_eq_some_iff] at taken
  rcases taken with ⟨after, stepped, readers, moved, rfl⟩
  refine ⟨sound.locked.moveLock moved, ?_⟩
  intro other
  by_cases same : other = thread
  case neg =>
    simp only [update_of_ne same]
    exact sound.threads other
  subst same
  simp only [update_self]
  cases step with
  | advance succeeds =>
    apply (sound.threads other).callback ?_ ?_ stepped
    · -- The thread has the lock, so `StartImpl` has given it back after the enumeration.
      intro checks enumerated notStarted
      apply inTime.1 checks
      have holds : other ∈ state.readers := by simp [sound.locked.mem_iff, checks,
        CallbackPc.holdsLock]
      cases atPc : state.start with
      | finishing => rfl
      | unlocking =>
        have nobody := sound.locked.exclusive (by simp [atPc, StartPc.holdsLock])
        simp [nobody] at holds
      | started => simp [atPc] at notStarted
      | init | starting | locking | enumerating => simp [atPc, StartPc.enumerated] at enumerated
    · intro answer same creates
      cases same
      exact inTime.2 creates
  | create | assign | setThreadOsInfo | finishRoutine | destroy =>
    apply (sound.threads other).callback ?_ (by simp) stepped
    intro checks
    simp [callback, checks] at stepped

end Coverage

theorem live_threads_covered {Thread : Type} [DecidableEq Thread]
    {events : List (CoverageEvent Thread)} {state : Coverage Thread}
    (run : ((coverageSystem Thread).restrict Coverage.InTime).Run .initial events state)
    (started : state.start = .started) (settled : state.Settled) : state.Complete := by
  have sound : state.Sound := by
    refine run.invariant Coverage.Sound .initial ?_
    rintro state event later sound ⟨inTime, taken⟩
    cases event with
    | start step => exact sound.startStep inTime taken
    | callback thread step => exact sound.callbackStep inTime taken
  exact sound.complete started settled

section Runs

def advances (thread : Nat) (count : Nat) : List (CoverageEvent Nat) :=
  List.replicate count (.callback thread (.advance true))

def assigns (thread : Nat) : List (CoverageEvent Nat) :=
  [.callback thread .assign, .callback thread (.setThreadOsInfo 7)]

def enumerates : List (CoverageEvent Nat) :=
  [.start .begin, .start (.registerHandler true), .start .lock, .start (.forEach fun _ => true),
    .start .unlock]

def betweenEvents : List (CoverageEvent Nat) :=
  enumerates ++ assigns 0 ++ advances 0 3 ++ [.start .setStarted]

theorem thread_left_out :
    ∃ state, (coverageSystem Nat).Run .initial betweenEvents state ∧
      state.start = .started ∧ state.Settled ∧ (state.threads 0).pc = .live ∧
      (state.threads 0).timers = 0 ∧ ¬state.Complete := by
  refine ⟨_, System.run_of_exec rfl, rfl, ?_, rfl, rfl, ?_⟩
  · intro thread
    cases thread with
    | zero => rfl
    | succ thread => rfl
  · intro complete
    have one := (complete 0).1 rfl (by decide) (by decide)
    cases one

def afterEvents : List (CoverageEvent Nat) :=
  enumerates ++ [.start .setStarted] ++ assigns 0 ++ advances 0 6

theorem thread_after_start_covered :
    ∃ state, ((coverageSystem Nat).restrict Coverage.InTime).Run .initial afterEvents state ∧
      state.start = .started ∧ (state.threads 0).pc = .live ∧ state.Settled ∧
      state.Complete := by
  have meets : System.MeetsAlong Coverage.next Coverage.InTime .initial afterEvents := by
    refine ⟨trivial, trivial, trivial, fun _ => rfl, trivial, trivial, trivial, trivial,
      ?_, ?_, ?_, ?_, ?_, ?_, trivial⟩
    all_goals refine ⟨?_, fun _ => rfl⟩
    all_goals intro _ finishing
    all_goals cases finishing
  have settled : ∀ state, System.exec Coverage.next .initial afterEvents = some state →
      state.Settled := by
    intro state same
    cases same
    intro thread
    cases thread with
    | zero => rfl
    | succ thread => rfl
  exact ⟨_, System.run_restrict_of_exec rfl meets, rfl, rfl, settled _ rfl,
    live_threads_covered (System.run_restrict_of_exec rfl meets) rfl (settled _ rfl)⟩

end Runs

end Pyroscope.CpuProfiler
