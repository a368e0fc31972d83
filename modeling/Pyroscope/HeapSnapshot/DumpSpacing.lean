import Mathlib.Data.List.Chain
import Pyroscope.HeapSnapshot.DumpSessions

/-!
# The time between heap dumps

A decision is right if it does not fall between the changes of the fields it reads, and no request
is taken during it.
-/

namespace Pyroscope.HeapSnapshot

open Transition List Option Bool

namespace Dump

/-- The later dump was started when the interval had passed since the end and the cleanup of the
earlier one. -/
def SpacedBy (interval : Nat) (later earlier : Dump) : Prop :=
  ∃ ended cleaned, earlier.ended = some ended ∧ earlier.cleaned = some cleaned ∧
    ended + interval ≤ later.started ∧ cleaned + interval ≤ later.started

def times (dump : Dump) : List Nat := dump.ended.toList ++ dump.cleaned.toList

def IsClosed (dump : Dump) : Prop := dump.ended.isSome ∧ dump.cleaned.isSome

theorem IsClosed.spacedBy {later earlier : Dump} {interval : Nat} (closed : earlier.IsClosed)
    (passed : ∀ time ∈ earlier.times, time + interval ≤ later.started) :
    later.SpacedBy interval earlier := by
  rcases isSome_iff_exists.mp closed.1 with ⟨ended, isEnded⟩
  rcases isSome_iff_exists.mp closed.2 with ⟨cleaned, isCleaned⟩
  refine ⟨ended, cleaned, isEnded, isCleaned, passed ended ?_, passed cleaned ?_⟩
  · simp [times, isEnded]
  · simp [times, isCleaned]

end Dump

namespace DumpSessions

def CallbackPc.decides : CallbackPc → Bool
  | .deciding | .sessionSeen | .noStart | .noCleanup | .timed _ | .granting => true
  | .idle | .startSeen _ | .ended _ | .matching _ | .matched | .leaving | .timing | .cooling
  | .signalling => false

/-- The decision has found no session. -/
def CallbackPc.passes : CallbackPc → Bool
  | .sessionSeen | .noStart | .noCleanup | .timed _ | .granting => true
  | _ => false

/-- The decision has found no cleanup to be due. -/
def CallbackPc.checked : CallbackPc → Bool
  | .noCleanup | .timed _ | .granting => true
  | _ => false

def CallbackPc.ends : CallbackPc → Bool
  | .matching _ | .matched | .leaving | .timing | .cooling | .signalling => true
  | _ => false

/-- The end of a dump is no longer in progress. -/
def CallbackPc.left : CallbackPc → Bool
  | .timing | .cooling | .signalling => true
  | _ => false

/-- The end of a dump has been noted, and its cleanup has not been asked for. -/
def CallbackPc.closes : CallbackPc → Bool
  | .cooling | .signalling => true
  | _ => false

/-- A request has been taken, and its session is not known yet. -/
def LoopPc.starts : LoopPc → Bool
  | .requested | .resetting | .calling => true
  | .idle | .cleanupSeen | .stopping | .closed | .noCleanup | .startSeen => false

def LoopPc.cleans : LoopPc → Bool
  | .cleanupSeen | .stopping | .closed => true
  | _ => false

/-- A request has been seen, and no session has been asked for. -/
def LoopPc.accepts : LoopPc → Bool
  | .startSeen | .requested | .resetting => true
  | _ => false

/-- The places of the thread while a dump is in progress. -/
def LoopPc.rests : LoopPc → Bool
  | .idle | .noCleanup | .calling => true
  | _ => false

section

variable {callback : CallbackPc}

theorem CallbackPc.decides_of_passes (passes : callback.passes = true) :
    callback.decides = true := by
  cases callback <;> first | rfl | cases passes

theorem CallbackPc.passes_of_checked (checked : callback.checked = true) :
    callback.passes = true := by
  cases callback <;> first | rfl | cases checked

theorem CallbackPc.ends_of_left (left : callback.left = true) : callback.ends = true := by
  cases callback <;> first | rfl | cases left

theorem CallbackPc.left_of_closes (closes : callback.closes = true) : callback.left = true := by
  cases callback <;> first | rfl | cases closes

theorem LoopPc.not_accepts_of_rests {loop : LoopPc} (rests : loop.rests = true) :
    loop.accepts ≠ true := by
  cases loop <;> cases rests <;> nofun

end

/-- No decision falls between the taking of a request and the return of the session, or between
the closing of a session and the update of the cooldown; and no request is taken during one. -/
def Apart (state : State) : Event → Prop
  | .callbackStep =>
    state.callback.decides = true → state.loop.starts = false ∧ state.loop ≠ .closed
  | .loopStep => state.loop = .startSeen → state.callback.decides = false
  | _ => True

instance (state : State) : ∀ event, Decidable (Apart state event)
  | .callbackStep => inferInstanceAs (Decidable (_ → _ ∧ _))
  | .loopStep => inferInstanceAs (Decidable (_ → _))
  | .time _ | .loopThrows | .sessionStarted _ | .sessionFailed
  | .onGarbageCollectionStart .. | .onGarbageCollectionEnd .. => inferInstanceAs (Decidable True)

def HeadClosed (dumps : List Dump) : Prop := ∀ dump ∈ dumps.head?, dump.IsClosed

def HeadEnded (dumps : List Dump) : Prop := ∀ dump ∈ dumps.head?, dump.ended.isSome

/-- When dumps have ended or were cleaned up. -/
def timesOf (dumps : List Dump) : List Nat := dumps.flatMap Dump.times

/-- The last dump is closed, and the cooldown behind it is over. -/
def Passed (interval : Nat) (dumps : List Dump) (now : Nat) : Prop :=
  HeadClosed dumps ∧ ∀ time ∈ timesOf dumps, time + interval ≤ now

inductive Taken (state : State) : Event → State → Prop
  | time {elapsed : Nat} :
      Taken state (.time elapsed) { state with clock := state.clock + elapsed }
  | cleanupSeen (here : state.loop = .idle) (due : state.shouldCleanupHeapDumpSession = true) :
      Taken state .loopStep { state with loop := .cleanupSeen }
  | noCleanup (here : state.loop = .idle) (none : state.shouldCleanupHeapDumpSession = false) :
      Taken state .loopStep { state with loop := .noCleanup }
  | cleanupTaken (here : state.loop = .cleanupSeen) :
      Taken state .loopStep { state with shouldCleanupHeapDumpSession := false, loop := .stopping }
  | stopped (here : state.loop = .stopping) :
      Taken state .loopStep { state with session := 0, loop := .closed }
  | cleaned (here : state.loop = .closed) :
      Taken state .loopStep
        { state with
          snapshotCooldown := state.snapshotCooldown.onCleanupDone state.clock
          dumps := state.cleanDump
          loop := .idle }
  | startSeen (here : state.loop = .noCleanup) (due : state.shouldStartHeapDump = true) :
      Taken state .loopStep { state with loop := .startSeen }
  | noStart (here : state.loop = .noCleanup) (none : state.shouldStartHeapDump = false) :
      Taken state .loopStep { state with loop := .idle }
  | requestTaken (here : state.loop = .startSeen) :
      Taken state .loopStep { state with shouldStartHeapDump := false, loop := .requested }
  | refused (here : state.loop = .requested) (inUse : state.session ≠ 0) :
      Taken state .loopStep { state with loop := .idle }
  | accepted (here : state.loop = .requested) (free : state.session = 0) :
      Taken state .loopStep { state with loop := .resetting }
  | called (here : state.loop = .resetting) :
      Taken state .loopStep
        { state with
          isHeapDumpInProgress := true
          dumps := ⟨state.clock, none, none⟩ :: state.dumps
          loop := .calling }
  | thrown (here : state.loop = .resetting) :
      Taken state .loopThrows { state with loop := .idle }
  | started {session : Nat} (here : state.loop = .calling) (number : session ≠ 0) :
      Taken state (.sessionStarted session) { state with session := session, loop := .idle }
  | failed (here : state.loop = .calling) :
      Taken state .sessionFailed
        { state with
          session := 0
          isHeapDumpInProgress := false
          dumps := state.dumps.tail
          loop := .idle }
  | collectionStarted {number generation : Nat} {isInduced isNonConcurrent : Bool}
      {callback : CallbackPc} (here : state.callback = .idle)
      (follows : callback = .idle ∨ callback = .startSeen number) :
      Taken state (.onGarbageCollectionStart number generation isInduced isNonConcurrent)
        { state with callback := callback }
  | collectionEnded {number memPressure : Nat} (here : state.callback = .idle) :
      Taken state (.onGarbageCollectionEnd number memPressure)
        { state with memPressure := memPressure, callback := .ended number }
  | numbered {number : Nat} {induced : Option Nat} (here : state.callback = .startSeen number) :
      Taken state .callbackStep { state with inducedGCNumber := induced, callback := .idle }
  | progressSeen {number : Nat} (here : state.callback = .ended number)
      (inProgress : state.isHeapDumpInProgress = true) :
      Taken state .callbackStep { state with callback := .matching number }
  | noProgress {number : Nat} (here : state.callback = .ended number)
      (none : state.isHeapDumpInProgress = false) :
      Taken state .callbackStep { state with callback := .deciding }
  | compared {number : Nat} {callback : CallbackPc} (here : state.callback = .matching number)
      (follows : callback = .idle ∨ callback = .matched) :
      Taken state .callbackStep { state with callback := callback }
  | forgotten (here : state.callback = .matched) :
      Taken state .callbackStep { state with inducedGCNumber := none, callback := .leaving }
  | left (here : state.callback = .leaving) :
      Taken state .callbackStep { state with isHeapDumpInProgress := false, callback := .timing }
  | ended (here : state.callback = .timing) :
      Taken state .callbackStep
        { state with lastTimestamp := state.clock, dumps := state.endDump, callback := .cooling }
  | cooled (here : state.callback = .cooling) :
      Taken state .callbackStep
        { state with
          snapshotCooldown := state.snapshotCooldown.onDumpEnd state.lastTimestamp
          callback := .signalling }
  | signalled (here : state.callback = .signalling) :
      Taken state .callbackStep
        { state with shouldCleanupHeapDumpSession := true, callback := .idle }
  | sessionSeen (here : state.callback = .deciding) (free : state.session = 0) :
      Taken state .callbackStep { state with callback := .sessionSeen }
  | decisionStart (here : state.callback = .sessionSeen)
      (none : state.shouldStartHeapDump = false) :
      Taken state .callbackStep { state with callback := .noStart }
  | decisionCleanup (here : state.callback = .noStart)
      (none : state.shouldCleanupHeapDumpSession = false) :
      Taken state .callbackStep { state with callback := .noCleanup }
  | decisionTime (here : state.callback = .noCleanup) :
      Taken state .callbackStep { state with callback := .timed state.clock }
  | rejected {lastTimestamp : Nat} (here : state.callback.decides = true) :
      Taken state .callbackStep { state with lastTimestamp := lastTimestamp, callback := .idle }
  | allowed {now lastTimestamp : Nat} (here : state.callback = .timed now)
      (isAllowed : state.snapshotCooldown.isAllowed now = true) :
      Taken state .callbackStep { state with lastTimestamp := lastTimestamp, callback := .granting }
  | granted (here : state.callback = .granting) :
      Taken state .callbackStep { state with shouldStartHeapDump := true, callback := .idle }

variable {config : Configuration} {interval : Nat} {state next : State} {event : Event}

theorem taken_of_loopStep (taken : state.loopStep = some next) : Taken state .loopStep next := by
  simp only [State.loopStep] at taken
  split at taken <;> cases taken
  case h_1 here =>
    by_cases due : state.shouldCleanupHeapDumpSession = true
    · rw [if_pos due]
      exact .cleanupSeen here due
    · rw [if_neg due]
      exact .noCleanup here ((not_eq_true _).mp due)
  case h_2 here => exact .cleanupTaken here
  case h_3 here => exact .stopped here
  case h_4 here => exact .cleaned here
  case h_5 here =>
    by_cases due : state.shouldStartHeapDump = true
    · rw [if_pos due]
      exact .startSeen here due
    · rw [if_neg due]
      exact .noStart here ((not_eq_true _).mp due)
  case h_6 here => exact .requestTaken here
  case h_7 here =>
    by_cases inUse : state.session ≠ 0
    · rw [if_pos inUse]
      exact .refused here inUse
    · rw [if_neg inUse]
      exact .accepted here (not_not.mp inUse)
  case h_8 here => exact .called here

theorem taken_of_decide {now : Nat} (here : state.callback = .timed now) :
    Taken state .callbackStep (state.decide config now) := by
  have decides : state.callback.decides = true := by
    rw [here]
    rfl
  simp only [State.decide]
  split
  · exact .rejected decides
  case isFalse notRefused =>
  have isAllowed : state.snapshotCooldown.isAllowed now = true := by simpa using notRefused
  split
  · exact .rejected decides
  split
  · cases config.delayFirstSnapshot with
    | true => exact .rejected decides
    | false => exact .allowed here isAllowed
  split
  · exact .rejected decides
  · exact .allowed here isAllowed

theorem taken_of_callbackStep (taken : state.callbackStep config = some next) :
    Taken state .callbackStep next := by
  simp only [State.callbackStep] at taken
  split at taken <;> cases taken
  case h_2 number here => exact .numbered here
  case h_3 number here =>
    by_cases inProgress : state.isHeapDumpInProgress = true
    · rw [if_pos inProgress]
      exact .progressSeen here inProgress
    · rw [if_neg inProgress]
      exact .noProgress here ((not_eq_true _).mp inProgress)
  case h_4 number here =>
    apply Taken.compared here
    split
    · exact .inr rfl
    · exact .inl rfl
  case h_5 here => exact .forgotten here
  case h_6 here => exact .left here
  case h_7 here => exact .ended here
  case h_8 here => exact .cooled here
  case h_9 here => exact .signalled here
  case h_10 here =>
    by_cases inUse : state.session ≠ 0
    · rw [if_pos inUse]
      exact .rejected (by rw [here]; rfl)
    · rw [if_neg inUse]
      exact .sessionSeen here (not_not.mp inUse)
  case h_11 here =>
    by_cases due : state.shouldStartHeapDump = true
    · rw [if_pos due]
      exact .rejected (by rw [here]; rfl)
    · rw [if_neg due]
      exact .decisionStart here ((not_eq_true _).mp due)
  case h_12 here =>
    by_cases due : state.shouldCleanupHeapDumpSession = true
    · rw [if_pos due]
      exact .rejected (by rw [here]; rfl)
    · rw [if_neg due]
      exact .decisionCleanup here ((not_eq_true _).mp due)
  case h_13 here => exact .decisionTime here
  case h_14 now here => exact taken_of_decide here
  case h_15 here => exact .granted here

theorem taken_of_step (taken : state.step config event = some next) :
    Taken state event next := by
  cases event with
  | time elapsed =>
    cases taken
    exact .time
  | loopStep => exact taken_of_loopStep taken
  | loopThrows =>
    rcases ite_none_right_eq_some.mp taken with ⟨here, ⟨⟩⟩
    exact .thrown here
  | sessionStarted session =>
    rcases ite_none_right_eq_some.mp taken with ⟨⟨here, number⟩, ⟨⟩⟩
    exact .started here number
  | sessionFailed =>
    rcases ite_none_right_eq_some.mp taken with ⟨here, ⟨⟩⟩
    exact .failed here
  | onGarbageCollectionStart number generation isInduced isNonConcurrent =>
    rcases ite_none_right_eq_some.mp taken with ⟨here, ⟨⟩⟩
    apply Taken.collectionStarted here
    split
    · exact .inr rfl
    · exact .inl rfl
  | onGarbageCollectionEnd number memPressure =>
    rcases ite_none_right_eq_some.mp taken with ⟨here, ⟨⟩⟩
    exact .collectionEnded here
  | callbackStep => exact taken_of_callbackStep taken

/-- While a dump is in progress, none is asked for. -/
structure Guarded (state : State) : Prop where
  dumping : state.isHeapDumpInProgress = true ∨ state.callback.ends = true →
    state.shouldStartHeapDump ≠ true ∧ state.shouldCleanupHeapDumpSession ≠ true ∧
      state.callback.passes ≠ true ∧ state.loop.rests = true
  left : state.callback.left = true → state.isHeapDumpInProgress = false
  /-- A request which is taken is the only one. -/
  starting : state.loop.starts = true →
    state.shouldStartHeapDump ≠ true ∧ state.callback.passes ≠ true
  resting : state.session = 0 → state.loop ≠ .calling → state.isHeapDumpInProgress = false
  passing : state.callback.passes = true → state.session = 0
  free : state.loop = .resetting → state.session = 0
  unclean : state.shouldCleanupHeapDumpSession = true →
    state.shouldStartHeapDump ≠ true ∧ state.callback.checked ≠ true ∧ state.loop.accepts ≠ true

namespace Guarded

section Moves

variable {memPressure lastTimestamp : Nat} {induced : Option Nat} {cooldown : SnapshotCooldown}
variable {dumps : List Dump} {callback : CallbackPc} {loop : LoopPc}

theorem ofCallback (guarded : Guarded state)
    (ending : callback.ends = true → state.isHeapDumpInProgress = true ∨ state.callback.ends = true)
    (left : callback.left = true → state.isHeapDumpInProgress = false)
    (passing : callback.passes = true → state.callback.passes = true)
    (checked : state.shouldCleanupHeapDumpSession = true → callback.checked ≠ true) :
    Guarded { state with
      memPressure := memPressure
      lastTimestamp := lastTimestamp
      inducedGCNumber := induced
      snapshotCooldown := cooldown
      dumps := dumps
      callback := callback } where
  dumping active := by
    rcases guarded.dumping (active.elim .inl ending) with ⟨noStart, noCleanup, noPass, rests⟩
    exact ⟨noStart, noCleanup, fun passes => noPass (passing passes), rests⟩
  left := left
  starting starts := by
    rcases guarded.starting starts with ⟨noStart, noPass⟩
    exact ⟨noStart, fun passes => noPass (passing passes)⟩
  resting := guarded.resting
  passing passes := guarded.passing (passing passes)
  free := guarded.free
  unclean due := ⟨(guarded.unclean due).1, checked due, (guarded.unclean due).2.2⟩

theorem calm (guarded : Guarded state) (noEnd : callback.ends ≠ true)
    (noPass : callback.passes ≠ true) :
    Guarded { state with
      memPressure := memPressure
      lastTimestamp := lastTimestamp
      inducedGCNumber := induced
      callback := callback } := by
  refine guarded.ofCallback ?_ ?_ ?_ ?_
  · exact fun ends => absurd ends noEnd
  · exact fun left => absurd (CallbackPc.ends_of_left left) noEnd
  · exact fun passes => absurd passes noPass
  · exact fun _ checked => noPass (CallbackPc.passes_of_checked checked)

theorem ofLoop (guarded : Guarded state)
    (rests : state.isHeapDumpInProgress = true ∨ state.callback.ends = true → loop.rests = true)
    (starts : loop.starts = true → state.loop.starts = true)
    (notCalling : state.loop ≠ .calling) (free : loop = .resetting → state.session = 0)
    (clean : state.shouldCleanupHeapDumpSession = true → loop.accepts ≠ true) :
    Guarded { state with snapshotCooldown := cooldown, dumps := dumps, loop := loop } where
  dumping active := by
    rcases guarded.dumping active with ⟨noStart, noCleanup, noPass, _⟩
    exact ⟨noStart, noCleanup, noPass, rests active⟩
  left := guarded.left
  starting starting := guarded.starting (starts starting)
  resting unused _ := guarded.resting unused notCalling
  passing := guarded.passing
  free := free
  unclean due := ⟨(guarded.unclean due).1, (guarded.unclean due).2.1, clean due⟩

end Moves

variable (guarded : Guarded state) {dumps : List Dump}
include guarded

theorem not_dumping (elsewhere : state.loop.rests = false) :
    ¬ (state.isHeapDumpInProgress = true ∨ state.callback.ends = true) :=
  fun active => absurd (guarded.dumping active).2.2.2 (by simp [elsewhere])

theorem returned {session : Nat} {inProgress : Bool} (here : state.loop = .calling)
    (lessActive : inProgress = true → state.isHeapDumpInProgress = true)
    (known : session = 0 → inProgress = false) :
    Guarded { state with
      session := session
      isHeapDumpInProgress := inProgress
      dumps := dumps
      loop := .idle } where
  dumping active := by
    rcases guarded.dumping (active.imp_left lessActive) with ⟨noStart, noCleanup, noPass, _⟩
    exact ⟨noStart, noCleanup, noPass, rfl⟩
  left ending := by
    have noDump := guarded.left ending
    exact eq_false_iff.mpr fun isActive => eq_false_iff.mp noDump (lessActive isActive)
  starting := nofun
  resting unused _ := known unused
  passing passes := absurd passes (guarded.starting (by rw [here]; rfl)).2
  free := nofun
  unclean due := ⟨(guarded.unclean due).1, (guarded.unclean due).2.1, nofun⟩

theorem left_dump (here : state.callback = .leaving) :
    Guarded { state with isHeapDumpInProgress := false, callback := .timing } := by
  rcases guarded.dumping (.inr (by rw [here]; rfl)) with ⟨noStart, noCleanup, _, rests⟩
  exact ⟨fun _ => ⟨noStart, noCleanup, nofun, rests⟩, fun _ => rfl, fun _ => ⟨noStart, nofun⟩,
    fun _ _ => rfl, nofun, guarded.free, fun due => absurd due noCleanup⟩

theorem signalled (here : state.callback = .signalling) :
    Guarded { state with shouldCleanupHeapDumpSession := true, callback := .idle } := by
  have noDump := guarded.left (by rw [here]; rfl)
  rcases guarded.dumping (.inr (by rw [here]; rfl)) with ⟨noStart, _, _, rests⟩
  refine ⟨?_, nofun, fun _ => ⟨noStart, nofun⟩, guarded.resting, nofun, guarded.free,
    fun _ => ⟨noStart, nofun, LoopPc.not_accepts_of_rests rests⟩⟩
  rintro (inProgress | ends)
  · exact absurd inProgress (eq_false_iff.mp noDump)
  · cases ends

theorem sessionSeen (free : state.session = 0) (apart : state.loop.starts = false) :
    Guarded { state with callback := .sessionSeen } := by
  have noDump : state.isHeapDumpInProgress = false := by
    refine guarded.resting free ?_
    intro isCalling
    cases apart.symm.trans (congrArg LoopPc.starts isCalling)
  refine ⟨?_, nofun, ?_, guarded.resting, fun _ => free, guarded.free, ?_⟩
  · rintro (inProgress | ends)
    · exact absurd inProgress (eq_false_iff.mp noDump)
    · cases ends
  · exact fun starts => absurd starts (eq_false_iff.mp apart)
  · exact fun due => ⟨(guarded.unclean due).1, nofun, (guarded.unclean due).2.2⟩

theorem granted (here : state.callback = .granting) :
    Guarded { state with shouldStartHeapDump := true, callback := .idle } := by
  have passes : state.callback.passes = true := congrArg CallbackPc.passes here
  have checked : state.callback.checked = true := congrArg CallbackPc.checked here
  refine ⟨?_, nofun, ?_, guarded.resting, nofun, guarded.free, ?_⟩
  · rintro (inProgress | ends)
    · exact absurd passes (guarded.dumping (.inl inProgress)).2.2.1
    · cases ends
  · exact fun starts => absurd passes (guarded.starting starts).2
  · exact fun due => absurd checked (guarded.unclean due).2.1

theorem step (apart : Apart state event) (taken : Taken state event next) : Guarded next := by
  cases taken with
  | time => exact { guarded with }
  | cleanupSeen here due =>
    refine guarded.ofLoop ?_ nofun (by rw [here]; nofun) nofun (fun _ => nofun)
    exact fun active => absurd due (guarded.dumping active).2.1
  | noCleanup here none | cleaned here | noStart here none | refused here inUse | thrown here =>
    exact guarded.ofLoop (fun _ => rfl) nofun (by rw [here]; nofun) nofun (fun _ => nofun)
  | cleanupTaken here =>
    have noDump := guarded.not_dumping (by rw [here]; rfl)
    exact ⟨fun active => absurd active noDump, guarded.left, nofun,
      fun unused _ => guarded.resting unused (by rw [here]; nofun), guarded.passing, nofun, nofun⟩
  | stopped here =>
    have noDump := guarded.not_dumping (by rw [here]; rfl)
    refine ⟨fun active => absurd active noDump, guarded.left, nofun, ?_, fun _ => rfl, nofun, ?_⟩
    · exact fun _ _ => eq_false_iff.mpr fun inProgress => noDump (.inl inProgress)
    · exact fun due => ⟨(guarded.unclean due).1, (guarded.unclean due).2.1, nofun⟩
  | startSeen here due =>
    refine guarded.ofLoop ?_ nofun (by rw [here]; nofun) nofun ?_
    · exact fun active => absurd due (guarded.dumping active).1
    · exact fun unclean => absurd due (guarded.unclean unclean).1
  | requestTaken here =>
    have noDump := guarded.not_dumping (by rw [here]; rfl)
    refine ⟨fun active => absurd active noDump, guarded.left, fun _ => ⟨nofun, ?_⟩,
      fun unused _ => guarded.resting unused (by rw [here]; nofun), guarded.passing, nofun, ?_⟩
    · exact fun passes => eq_false_iff.mp (apart here) (CallbackPc.decides_of_passes passes)
    · exact fun due => absurd (congrArg LoopPc.accepts here) (guarded.unclean due).2.2
  | accepted here free =>
    refine guarded.ofLoop ?_ (fun _ => by rw [here]; rfl) (by rw [here]; nofun) (fun _ => free) ?_
    · exact fun active => absurd active (guarded.not_dumping (by rw [here]; rfl))
    · exact fun due => absurd (congrArg LoopPc.accepts here) (guarded.unclean due).2.2
  | called here =>
    have noDump := guarded.not_dumping (by rw [here]; rfl)
    have starting := guarded.starting (by rw [here]; rfl)
    have clean : state.shouldCleanupHeapDumpSession ≠ true :=
      fun due => (guarded.unclean due).2.2 (congrArg LoopPc.accepts here)
    refine ⟨?_, ?_, fun _ => starting, fun _ notCalling => absurd rfl notCalling,
      guarded.passing, nofun, fun due => absurd due clean⟩
    · exact fun _ => ⟨starting.1, clean, starting.2, rfl⟩
    · exact fun left => absurd (.inr (CallbackPc.ends_of_left left)) noDump
  | started here number => exact guarded.returned here id (fun unused => absurd unused number)
  | failed here => exact guarded.returned here nofun (fun _ => rfl)
  | collectionStarted here follows =>
    rcases follows with rfl | rfl <;> exact guarded.calm nofun nofun
  | collectionEnded here | numbered here | noProgress here none | rejected here =>
    exact guarded.calm nofun nofun
  | progressSeen here inProgress =>
    exact guarded.ofCallback (fun _ => .inl inProgress) nofun nofun (fun _ => nofun)
  | compared here follows =>
    rcases follows with rfl | rfl
    · exact guarded.calm nofun nofun
    · exact guarded.ofCallback (fun _ => .inr (by rw [here]; rfl)) nofun nofun (fun _ => nofun)
  | forgotten here =>
    exact guarded.ofCallback (fun _ => .inr (by rw [here]; rfl)) nofun nofun (fun _ => nofun)
  | left here => exact guarded.left_dump here
  | ended here | cooled here =>
    exact guarded.ofCallback (fun _ => .inr (by rw [here]; rfl))
      (fun _ => guarded.left (by rw [here]; rfl)) nofun (fun _ => nofun)
  | signalled here => exact guarded.signalled here
  | sessionSeen here free => exact guarded.sessionSeen free (apart (by rw [here]; rfl)).1
  | decisionStart here none =>
    exact guarded.ofCallback nofun nofun (fun _ => by rw [here]; rfl) (fun _ => nofun)
  | decisionCleanup here none =>
    exact guarded.ofCallback nofun nofun (fun _ => by rw [here]; rfl)
      (fun due => absurd due (eq_false_iff.mp none))
  | decisionTime here | allowed here isAllowed =>
    exact guarded.ofCallback nofun nofun (fun _ => by rw [here]; rfl)
      (fun due => absurd (by rw [here]; rfl) (guarded.unclean due).2.1)
  | granted here => exact guarded.granted here

theorem callback_ne {callback : CallbackPc} (elsewhere : state.loop.rests = false)
    (ends : callback.ends = true) : state.callback ≠ callback := by
  rintro rfl
  exact guarded.not_dumping elsewhere (.inr ends)

theorem not_pending {loop : LoopPc} (starts : state.loop.starts = true)
    (elsewhere : loop.accepts ≠ true) :
    ¬ (state.shouldStartHeapDump = true ∨ state.callback = .granting ∨ loop.accepts = true) := by
  rcases guarded.starting starts with ⟨noRequest, noPass⟩
  rintro (due | granting | accepts)
  · exact noRequest due
  · exact noPass (congrArg CallbackPc.passes granting)
  · exact elsewhere accepts

end Guarded

theorem headClosed_endDump (closed : HeadClosed state.dumps) : HeadClosed state.endDump := by
  rw [State.endDump]
  split
  case h_1 => exact fun _ mem => absurd mem (by simp)
  case h_2 dump rest shape =>
    rw [shape] at closed
    rintro _ ⟨rfl⟩
    exact ⟨by simp, (closed dump rfl).2⟩

theorem headClosed_cleanDump (ended : HeadEnded state.dumps) : HeadClosed state.cleanDump := by
  rw [State.cleanDump]
  split
  case h_1 => exact fun _ mem => absurd mem (by simp)
  case h_2 dump rest shape =>
    rw [shape] at ended
    rintro _ ⟨rfl⟩
    exact ⟨ended dump rfl, by simp⟩

theorem headEnded_endDump (state : State) : HeadEnded state.endDump := by
  rw [State.endDump]
  split
  case h_1 => exact fun _ mem => absurd mem (by simp)
  case h_2 dump rest shape =>
    rintro _ ⟨rfl⟩
    simp

theorem tail_endDump (state : State) : state.endDump.tail = state.dumps.tail := by
  rw [State.endDump]
  split
  case h_1 shape => rw [shape]
  case h_2 shape => rw [shape, tail_cons, tail_cons]

theorem headEnded_of_headClosed (closed : HeadClosed dumps) :
    HeadEnded dumps := fun dump mem => (closed dump mem).1

/-- Where the last dump is known to be closed. -/
structure Settled (state : State) : Prop where
  resting : state.session = 0 → state.loop ≠ .closed → state.loop ≠ .calling →
    HeadClosed state.dumps
  passing : state.callback.passes = true → HeadClosed state.dumps
  calling : state.loop = .calling → HeadClosed state.dumps.tail
  cleaning : state.shouldCleanupHeapDumpSession = true ∨ state.loop.cleans = true ∨
    state.callback.closes = true → HeadEnded state.dumps

namespace Settled

section Moves

variable {memPressure lastTimestamp session : Nat} {induced : Option Nat}
variable {cooldown : SnapshotCooldown} {callback : CallbackPc} {loop : LoopPc}
variable {inProgress start cleanup : Bool}

theorem ofLoop (settled : Settled state)
    (resting : session = 0 → loop ≠ .closed → state.session = 0)
    (notClosed : state.loop ≠ .closed) (notCalling : state.loop ≠ .calling)
    (noCall : loop ≠ .calling)
    (cleaning : cleanup = true ∨ loop.cleans = true → HeadEnded state.dumps) :
    Settled { state with
      session := session
      shouldStartHeapDump := start
      shouldCleanupHeapDumpSession := cleanup
      loop := loop } where
  resting unused elsewhere _ := settled.resting (resting unused elsewhere) notClosed notCalling
  passing := settled.passing
  calling isCalling := absurd isCalling noCall
  cleaning cause := by
    rcases cause with due | cleans | closes
    · exact cleaning (.inl due)
    · exact cleaning (.inr cleans)
    · exact settled.cleaning (.inr (.inr closes))

theorem ofCallback (settled : Settled state)
    (passing : callback.passes = true → state.callback.passes = true)
    (cleaning : cleanup = true ∨ callback.closes = true → HeadEnded state.dumps) :
    Settled { state with
      memPressure := memPressure
      lastTimestamp := lastTimestamp
      inducedGCNumber := induced
      snapshotCooldown := cooldown
      isHeapDumpInProgress := inProgress
      shouldStartHeapDump := start
      shouldCleanupHeapDumpSession := cleanup
      callback := callback } where
  resting := settled.resting
  passing passes := settled.passing (passing passes)
  calling := settled.calling
  cleaning cause := by
    rcases cause with due | cleans | closes
    · exact cleaning (.inl due)
    · exact settled.cleaning (.inr (.inl cleans))
    · exact cleaning (.inr closes)

theorem ofDecision (settled : Settled state)
    (passing : callback.passes = true → state.callback.passes = true)
    (noClose : callback.closes ≠ true) :
    Settled { state with
      memPressure := memPressure
      lastTimestamp := lastTimestamp
      inducedGCNumber := induced
      isHeapDumpInProgress := inProgress
      shouldStartHeapDump := start
      callback := callback } := by
  refine settled.ofCallback passing ?_
  rintro (due | closes)
  · exact settled.cleaning (.inl due)
  · exact absurd closes noClose

end Moves

theorem step (settled : Settled state) (guarded : Guarded state) (apart : Apart state event)
    (taken : Taken state event next) : Settled next := by
  cases taken with
  | time => exact { settled with }
  | cleanupSeen here due =>
    exact settled.ofLoop (fun unused _ => unused) (by rw [here]; nofun) (by rw [here]; nofun)
      nofun (fun _ => settled.cleaning (.inl due))
  | cleanupTaken here =>
    exact settled.ofLoop (fun unused _ => unused) (by rw [here]; nofun) (by rw [here]; nofun)
      nofun (fun _ => settled.cleaning (.inr (.inl (by rw [here]; rfl))))
  | stopped here =>
    exact settled.ofLoop (fun _ elsewhere => absurd rfl elsewhere) (by rw [here]; nofun)
      (by rw [here]; nofun) nofun (fun _ => settled.cleaning (.inr (.inl (by rw [here]; rfl))))
  | cleaned here =>
    have closed := headClosed_cleanDump (settled.cleaning (.inr (.inl (by rw [here]; rfl))))
    exact ⟨fun _ _ _ => closed, fun _ => closed, nofun, fun _ => headEnded_of_headClosed closed⟩
  | called here =>
    have closed := settled.resting (guarded.free here) (by rw [here]; nofun) (by rw [here]; nofun)
    have noPass := (guarded.starting (by rw [here]; rfl)).2
    refine ⟨fun _ _ wrong => absurd rfl wrong, fun passes => absurd passes noPass,
      fun _ => closed, ?_⟩
    rintro (due | cleans | closes)
    · exact absurd (congrArg LoopPc.accepts here) (guarded.unclean due).2.2
    · cases cleans
    · have ends := CallbackPc.ends_of_left (CallbackPc.left_of_closes closes)
      exact absurd (.inr ends) (guarded.not_dumping (by rw [here]; rfl))
  | noCleanup here _ | startSeen here _ | noStart here _ | requestTaken here | refused here _
  | accepted here _ | thrown here =>
    refine settled.ofLoop (fun unused _ => unused) (by rw [here]; nofun) (by rw [here]; nofun)
      nofun ?_
    rintro (due | cleans)
    · exact settled.cleaning (.inl due)
    · cases cleans
  | started here number =>
    have noPass := (guarded.starting (by rw [here]; rfl)).2
    refine ⟨fun wrong => absurd wrong number, fun passes => absurd passes noPass, nofun, ?_⟩
    rintro (due | cleans | closes)
    · exact settled.cleaning (.inl due)
    · cases cleans
    · exact settled.cleaning (.inr (.inr closes))
  | failed here =>
    have closed := settled.calling here
    exact ⟨fun _ _ _ => closed, fun _ => closed, nofun, fun _ => headEnded_of_headClosed closed⟩
  | ended here =>
    refine ⟨?_, nofun, ?_, fun _ => headEnded_endDump state⟩
    · intro free notClosed notCalling
      exact headClosed_endDump (settled.resting free notClosed notCalling)
    · exact fun isCalling => (tail_endDump state).symm ▸ settled.calling isCalling
  | sessionSeen here free =>
    have outside := apart (by rw [here]; rfl)
    have notCalling : state.loop ≠ .calling := by
      intro isCalling
      cases outside.1.symm.trans (congrArg LoopPc.starts isCalling)
    have closed := settled.resting free outside.2 notCalling
    exact ⟨settled.resting, fun _ => closed, settled.calling,
      fun _ => headEnded_of_headClosed closed⟩
  | cooled here | signalled here =>
    exact settled.ofCallback nofun (fun _ => settled.cleaning (.inr (.inr (by rw [here]; rfl))))
  | compared here follows | collectionStarted here follows =>
    rcases follows with rfl | rfl <;> exact settled.ofDecision nofun nofun
  | decisionStart here _ | decisionCleanup here _ | decisionTime here | allowed here _ =>
    exact settled.ofDecision (fun _ => by rw [here]; rfl) nofun
  | collectionEnded _ | numbered _ | progressSeen _ _ | noProgress _ _ | forgotten _ | left _
  | rejected _ | granted _ => exact settled.ofDecision nofun nofun

end Settled

/-- Nothing but the latest dump has changed, by something that happens now. -/
structure Touched (state : State) (dumps : List Dump) : Prop where
  times : ∀ time ∈ timesOf dumps, time = state.clock ∨ time ∈ timesOf state.dumps
  spaced : ∀ interval, state.dumps.IsChain (Dump.SpacedBy interval) →
    dumps.IsChain (Dump.SpacedBy interval)

theorem Touched.bound {dumps : List Dump} (touched : Touched state dumps) {bound : Nat → Prop}
    (now : bound state.clock) (before : ∀ time ∈ timesOf state.dumps, bound time) :
    ∀ time ∈ timesOf dumps, bound time := by
  intro time mem
  rcases touched.times time mem with rfl | earlier
  · exact now
  · exact before time earlier

theorem touched_cons {dump touched : Dump} {rest : List Dump} (shape : state.dumps = dump :: rest)
    (started : touched.started = dump.started)
    (times : ∀ time ∈ touched.times, time = state.clock ∨ time ∈ dump.times) :
    Touched state (touched :: rest) := by
  constructor
  · intro time mem
    rw [shape]
    rcases mem_append.mp mem with here | behind
    · exact (times time here).imp_right (mem_append_left _)
    · exact .inr (mem_append_right _ behind)
  · intro interval chain
    rw [shape, isChain_cons] at chain
    rw [isChain_cons]
    refine ⟨?_, chain.2⟩
    intro earlier mem
    have spaced := chain.1 earlier mem
    rw [Dump.SpacedBy, ← started] at spaced
    exact spaced

theorem touched_endDump (state : State) : Touched state state.endDump := by
  rw [State.endDump]
  split
  case h_1 => exact ⟨nofun, fun _ _ => .nil⟩
  case h_2 dump rest shape =>
    refine touched_cons shape ?_ ?_
    · rfl
    intro time mem
    cases isEnded : dump.ended <;> simp_all [Dump.times]

theorem touched_cleanDump (state : State) : Touched state state.cleanDump := by
  rw [State.cleanDump]
  split
  case h_1 => exact ⟨nofun, fun _ _ => .nil⟩
  case h_2 dump rest shape =>
    refine touched_cons shape ?_ ?_
    · rfl
    intro time mem
    cases isCleaned : dump.cleaned <;> simp_all [Dump.times]
    tauto

theorem cleanDump_of_headClosed (closed : HeadClosed state.dumps) :
    state.cleanDump = state.dumps := by
  rw [State.cleanDump]
  split
  case h_1 shape => exact shape.symm
  case h_2 dump rest shape =>
    rw [shape] at closed ⊢
    rcases isSome_iff_exists.mp (closed dump rfl).2 with ⟨cleaned, isCleaned⟩
    rw [isCleaned, some_or, ← isCleaned]

/-- A dump is asked for only behind the cooldown of the dumps before it. -/
structure Timely (interval : Nat) (state : State) : Prop where
  configured : state.snapshotCooldown.interval = interval
  pending : state.shouldStartHeapDump = true ∨ state.callback = .granting ∨
    state.loop.accepts = true → Passed interval state.dumps state.clock
  timed : ∀ now, state.callback = .timed now → now ≤ state.clock
  happened : ∀ time ∈ timesOf state.dumps, time ≤ state.clock
  cooling : state.callback = .cooling → ∀ time ∈ timesOf state.dumps, time ≤ state.lastTimestamp
  cooled : state.callback ≠ .cooling →
    ∀ time ∈ timesOf state.dumps, time + interval ≤ state.snapshotCooldown.nextAllowed
  spaced : state.dumps.IsChain (Dump.SpacedBy interval)

theorem mem_timesOf_tail {dumps : List Dump} {time : Nat} (mem : time ∈ timesOf dumps.tail) :
    time ∈ timesOf dumps := by
  cases dumps with
  | nil => exact mem
  | cons dump rest => exact mem_append_right _ mem

namespace Timely

section

variable (timely : Timely interval state)
include timely

theorem cleaned (guarded : Guarded state) (here : state.loop = .closed) :
    Timely interval
      { state with
        snapshotCooldown := state.snapshotCooldown.onCleanupDone state.clock
        dumps := state.cleanDump
        loop := .idle } := by
  rcases timely with ⟨configured, pending, timed, happened, cooling, cooled, spaced⟩
  have notCooling : state.callback ≠ .cooling := guarded.callback_ne (by rw [here]; rfl) rfl
  have touched := touched_cleanDump state
  refine ⟨configured, ?_, timed, touched.bound (Nat.le_refl _) happened,
    fun isCooling => absurd isCooling notCooling, ?_, touched.spaced interval spaced⟩
  · intro cause
    have passed := pending (cause.imp_right (Or.imp_right nofun))
    simp only [cleanDump_of_headClosed passed.1]
    exact passed
  · intro _
    simp only [SnapshotCooldown.onCleanupDone, configured]
    refine touched.bound (Nat.le_max_right ..) fun time mem => ?_
    exact (cooled notCooling time mem).trans (Nat.le_max_left ..)

theorem called (guarded : Guarded state) (here : state.loop = .resetting) :
    Timely interval
      { state with
        isHeapDumpInProgress := true
        dumps := ⟨state.clock, none, none⟩ :: state.dumps
        loop := .calling } := by
  rcases timely with ⟨configured, pending, timed, happened, cooling, cooled, spaced⟩
  have passed := pending (.inr (.inr (by rw [here]; rfl)))
  have notCooling : state.callback ≠ .cooling := guarded.callback_ne (by rw [here]; rfl) rfl
  refine ⟨configured, ?_, timed, happened, fun isCooling => absurd isCooling notCooling,
    fun _ => cooled notCooling, ?_⟩
  · exact fun cause => absurd cause (guarded.not_pending (by rw [here]; rfl) nofun)
  · rw [isChain_cons]
    refine ⟨?_, spaced⟩
    intro earlier mem
    refine (passed.1 earlier mem).spacedBy fun time inTimes => passed.2 time ?_
    exact mem_flatMap.mpr ⟨earlier, mem_of_mem_head? mem, inTimes⟩

theorem ended (guarded : Guarded state) (here : state.callback = .timing) :
    Timely interval
      { state with
        lastTimestamp := state.clock
        dumps := state.endDump
        callback := .cooling } := by
  rcases timely with ⟨configured, pending, timed, happened, cooling, cooled, spaced⟩
  have touched := touched_endDump state
  have happenedNow : ∀ time ∈ timesOf state.endDump, time ≤ state.clock :=
    touched.bound (Nat.le_refl _) happened
  rcases guarded.dumping (.inr (by rw [here]; rfl)) with ⟨noRequest, _, _, rests⟩
  refine ⟨configured, ?_, nofun, happenedNow, fun _ => happenedNow, fun wrong => absurd rfl wrong,
    touched.spaced interval spaced⟩
  rintro (due | granting | accepts)
  · exact absurd due noRequest
  · cases granting
  · exact absurd accepts (LoopPc.not_accepts_of_rests rests)

theorem allowed {now lastTimestamp : Nat} (settled : Settled state)
    (here : state.callback = .timed now) (isAllowed : state.snapshotCooldown.isAllowed now = true) :
    Timely interval { state with lastTimestamp := lastTimestamp, callback := .granting } := by
  rcases timely with ⟨configured, pending, timed, happened, cooling, cooled, spaced⟩
  have allCooled := cooled (by simp [here])
  have closed := settled.passing (by rw [here]; rfl)
  have reached : state.snapshotCooldown.nextAllowed ≤ state.clock := by
    simp only [SnapshotCooldown.isAllowed, Bool.or_eq_true, decide_eq_true_eq] at isAllowed
    have := timed now here
    omega
  exact ⟨configured, fun _ => ⟨closed, fun time mem => (allCooled time mem).trans reached⟩, nofun,
    happened, nofun, fun _ => allCooled, spaced⟩

theorem elapsed (elapsed : Nat) :
    Timely interval { state with clock := state.clock + elapsed } := by
  rcases timely with ⟨configured, pending, timed, happened, cooling, cooled, spaced⟩
  have later : state.clock ≤ state.clock + elapsed := Nat.le_add_right ..
  refine ⟨configured, ?_, fun now isTimed => (timed now isTimed).trans later,
    fun time mem => (happened time mem).trans later, cooling, cooled, spaced⟩
  intro cause
  rcases pending cause with ⟨closed, passed⟩
  exact ⟨closed, fun time mem => (passed time mem).trans later⟩

theorem failed (guarded : Guarded state) (here : state.loop = .calling) :
    Timely interval
      { state with
        session := 0
        isHeapDumpInProgress := false
        dumps := state.dumps.tail
        loop := .idle } := by
  rcases timely with ⟨configured, pending, timed, happened, cooling, cooled, spaced⟩
  refine ⟨configured, ?_, timed, ?_, ?_, ?_, spaced.tail⟩
  · exact fun cause => absurd cause (guarded.not_pending (by rw [here]; rfl) nofun)
  · exact fun time mem => happened time (mem_timesOf_tail mem)
  · exact fun isCooling time mem => cooling isCooling time (mem_timesOf_tail mem)
  · exact fun notCooling time mem => cooled notCooling time (mem_timesOf_tail mem)

end

section Moves

variable {memPressure lastTimestamp session : Nat} {induced : Option Nat}
variable {callback : CallbackPc} {loop : LoopPc} {inProgress start cleanup : Bool}

theorem ofLoop (timely : Timely interval state)
    (pending : start = true ∨ loop.accepts = true → Passed interval state.dumps state.clock) :
    Timely interval
      { state with
        session := session
        shouldStartHeapDump := start
        shouldCleanupHeapDumpSession := cleanup
        loop := loop } := by
  refine { timely with pending := ?_ }
  rintro (due | granting | place)
  · exact pending (.inl due)
  · exact timely.pending (.inr (.inl granting))
  · exact pending (.inr place)

theorem ofCallback (timely : Timely interval state)
    (pending : start = true ∨ callback = .granting → Passed interval state.dumps state.clock)
    (timed : ∀ now, callback = .timed now → now ≤ state.clock)
    (notCooling : callback ≠ .cooling) (wasNotCooling : state.callback ≠ .cooling) :
    Timely interval
      { state with
        memPressure := memPressure
        lastTimestamp := lastTimestamp
        inducedGCNumber := induced
        isHeapDumpInProgress := inProgress
        shouldStartHeapDump := start
        shouldCleanupHeapDumpSession := cleanup
        callback := callback } := by
  refine { timely with
    pending := ?_
    timed
    cooling := fun isCooling => absurd isCooling notCooling
    cooled := fun _ => timely.cooled wasNotCooling }
  rintro (due | granting | place)
  · exact pending (.inl due)
  · exact pending (.inr granting)
  · exact timely.pending (.inr (.inr place))

theorem calm (timely : Timely interval state) (notGranting : callback ≠ .granting)
    (notTimed : ∀ now, callback ≠ .timed now) (notCooling : callback ≠ .cooling)
    (wasNotCooling : state.callback ≠ .cooling) :
    Timely interval
      { state with
        memPressure := memPressure
        lastTimestamp := lastTimestamp
        inducedGCNumber := induced
        isHeapDumpInProgress := inProgress
        shouldCleanupHeapDumpSession := cleanup
        callback := callback } := by
  refine timely.ofCallback ?_ (fun now isTimed => absurd isTimed (notTimed now)) notCooling
    wasNotCooling
  rintro (due | granting)
  · exact timely.pending (.inl due)
  · exact absurd granting notGranting

end Moves

theorem step (timely : Timely interval state) (settled : Settled state) (guarded : Guarded state)
    (taken : Taken state event next) : Timely interval next := by
  cases taken with
  | time => exact timely.elapsed _
  | cleaned here => exact timely.cleaned guarded here
  | called here => exact timely.called guarded here
  | startSeen here due => exact timely.ofLoop (fun _ => timely.pending (.inl due))
  | requestTaken here | accepted here _ | thrown here =>
    exact timely.ofLoop (fun _ => timely.pending (.inr (.inr (by rw [here]; rfl))))
  | failed here => exact timely.failed guarded here
  | cleanupSeen _ _ | noCleanup _ _ | cleanupTaken _ | stopped _ | noStart _ _ | refused _ _
  | started _ _ =>
    refine timely.ofLoop ?_
    rintro (due | accepts)
    · exact timely.pending (.inl due)
    · cases accepts
  | ended here => exact timely.ended guarded here
  | allowed here isAllowed => exact timely.allowed settled here isAllowed
  | cooled here =>
    refine ⟨timely.configured, fun cause => timely.pending (by simpa [here] using cause), nofun,
      timely.happened, nofun, ?_, timely.spaced⟩
    intro _ time mem
    simp only [SnapshotCooldown.onDumpEnd, timely.configured]
    exact Nat.add_le_add_right (timely.cooling here time mem) interval
  | rejected here =>
    refine timely.calm nofun nofun nofun ?_
    intro isCooling
    cases here.symm.trans (congrArg CallbackPc.decides isCooling)
  | compared here follows | collectionStarted here follows =>
    rcases follows with rfl | rfl <;> exact timely.calm nofun nofun nofun (by rw [here]; nofun)
  | decisionTime here =>
    refine timely.ofCallback ?_ ?_ nofun (by rw [here]; nofun)
    · rintro (due | granting)
      · exact timely.pending (.inl due)
      · cases granting
    · intro now isTimed
      cases isTimed
      exact Nat.le_refl _
  | granted here =>
    exact timely.ofCallback (fun _ => timely.pending (.inr (.inl here))) nofun nofun
      (by rw [here]; nofun)
  | collectionEnded here | numbered here | progressSeen here _ | noProgress here _
  | forgotten here | left here | signalled here | sessionSeen here _ | decisionStart here _
  | decisionCleanup here _ =>
    exact timely.calm nofun nofun nofun (by rw [here]; nofun)

end Timely

theorem guarded_initial : Guarded (State.initial config) := by
  constructor <;> simp [State.initial, CallbackPc.ends, CallbackPc.passes, LoopPc.starts]

theorem settled_initial : Settled (State.initial config) := by
  constructor <;> simp [State.initial, CallbackPc.passes, LoopPc.cleans, HeadClosed, HeadEnded]

theorem timely_initial : Timely config.heapDumpInterval (State.initial config) := by
  constructor <;> simp [State.initial, LoopPc.accepts, timesOf]

/-- In every run in which decisions and the sections of the thread stay apart, dumps are started
only when the interval has passed since the end and the cleanup of the one before. -/
theorem dumps_are_spaced (config : Configuration) (events : List Event) (state : State)
    (run : ((system config).restrict Apart).Run (system config).init events state) :
    state.sessions.IsChain (Dump.SpacedBy config.heapDumpInterval) := by
  have invariant : Guarded state ∧ Settled state ∧ Timely config.heapDumpInterval state := by
    refine run.invariant (fun state => Guarded state ∧ Settled state ∧
      Timely config.heapDumpInterval state) ?_ ?_
    · exact ⟨guarded_initial, settled_initial, timely_initial⟩
    · rintro state event next ⟨guarded, settled, timely⟩ ⟨apart, step⟩
      have taken := taken_of_step step
      exact ⟨guarded.step apart taken, settled.step guarded apart taken,
        timely.step settled guarded taken⟩
  rw [State.sessions]
  split
  · exact invariant.2.2.spaced.tail
  · exact invariant.2.2.spaced

def asking (number : Nat) : List Event :=
  .onGarbageCollectionEnd number 0 :: replicate 7 .callbackStep

def dumping (number : Nat) : List Event :=
  .onGarbageCollectionStart number 2 true true :: .callbackStep ::
    .onGarbageCollectionEnd number 0 :: replicate 7 .callbackStep

def cleaningUp : List Event := replicate 4 .loopStep

def firstDump : List Event :=
  .time 1 :: asking 1 ++ replicate 5 .loopStep ++ .sessionStarted 1 :: dumping 2 ++
    cleaningUp ++ .time 10 :: asking 3

def everyTen : Configuration := ⟨10, 0, false⟩

theorem second_dump_spaced : ∃ state,
    (system everyTen).Run (system everyTen).init
      (firstDump ++ replicate 5 .loopStep ++ [.sessionStarted 2]) state ∧
      state.sessions.IsChain (Dump.SpacedBy 10) := by
  apply System.exists_run_of_restricted_exec Apart rfl (by decide +kernel)
  exact dumps_are_spaced everyTen _ _

/-- A decision between the taking of the second request and its session asks for a third dump,
which is started as soon as the second one has been cleaned up. -/
def thirdDump : List Event :=
  firstDump ++ replicate 3 .loopStep ++ asking 4 ++ replicate 2 .loopStep ++
    .sessionStarted 2 :: dumping 5 ++ cleaningUp ++ replicate 5 .loopStep ++
    [.sessionStarted 3]

theorem third_dump_too_soon : ∃ state,
    (system everyTen).Run (system everyTen).init thirdDump state ∧
      state.sessions = [⟨11, none, none⟩, ⟨11, some 11, some 11⟩, ⟨1, some 1, some 1⟩] ∧
      ¬ state.sessions.IsChain (Dump.SpacedBy 10) := by
  have sessions : (System.exec (State.step everyTen) (State.initial everyTen) thirdDump).map
      State.sessions = some [⟨11, none, none⟩, ⟨11, some 11, some 11⟩, ⟨1, some 1, some 1⟩] := by
    decide +kernel
  rcases map_eq_some_iff.mp sessions with ⟨state, replay, isSessions⟩
  refine ⟨state, System.run_of_exec replay, isSessions, ?_⟩
  rw [isSessions, isChain_cons_cons]
  rintro ⟨⟨ended, cleaned, isEnded, _, tooSoon, _⟩, _⟩
  cases isEnded
  exact absurd tooSoon (by decide)

end DumpSessions

end Pyroscope.HeapSnapshot
