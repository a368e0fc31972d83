import Pyroscope.Lib.NativeWord
import Pyroscope.Lib.Transition

/-!
# Span contexts and the span processor

The ids of an activity are stored in a structure of the thread. `IsRootSpan` looks at the remote
parent of the parent, so a child of a root with a remote parent counts as a root too.
-/

namespace Pyroscope.Tracing

open NativeWord Option

structure ActivityIds where
  spanId : Vector UInt8 8
  traceId : Vector UInt8 16
  deriving DecidableEq

structure SpanContext where
  localRootSpanId : Nat
  traceIdHi : Nat
  traceIdLo : Nat
  deriving DecidableEq

def SpanContext.zero : SpanContext := ⟨0, 0, 0⟩

/-- `ConvertSpanId`: both ids are copied over native words, whose values are read. -/
def convertSpanId (order : ByteOrder) (ids : ActivityIds) : SpanContext where
  localRootSpanId := ofBytes order ids.spanId.toList
  traceIdHi := ofBytes order (ids.traceId.toList.take 8)
  traceIdLo := ofBytes order (ids.traceId.toList.drop 8)

/-- The words of the context lie in memory as the bytes of the ids. -/
structure SpanContext.Names (order : ByteOrder) (context : SpanContext) (ids : ActivityIds) :
    Prop where
  spanId : toBytes order 8 context.localRootSpanId = ids.spanId.toList
  traceId : toBytes order 8 context.traceIdHi ++ toBytes order 8 context.traceIdLo =
    ids.traceId.toList

theorem convertSpanId_names (order : ByteOrder) (ids : ActivityIds) :
    (convertSpanId order ids).Names order ids := by
  constructor
  · exact toBytes_ofBytes order _ (by simp)
  · have high : toBytes order 8 (ofBytes order (ids.traceId.toList.take 8)) =
        ids.traceId.toList.take 8 := toBytes_ofBytes order _ (by simp)
    have low : toBytes order 8 (ofBytes order (ids.traceId.toList.drop 8)) =
        ids.traceId.toList.drop 8 := toBytes_ofBytes order _ (by simp)
    simp only [convertSpanId, high, low, List.take_append_drop]

structure Environment where
  isProfilerReady : Bool
  aborted : Bool
  disposed : Bool
  /-- What `GetTraceContextNativePointer` returns unless it throws. -/
  nativePointer : Option Nat
  deriving DecidableEq

/-- The tracker as one thread sees it; `traceContextPtr` is empty until its value is created. -/
structure ContextTracker where
  traceContextPtr : Option Nat
  /-- The context last written to the profiler, whose structure starts as zero. -/
  written : SpanContext
  deriving DecidableEq

namespace ContextTracker

def initial : ContextTracker := ⟨none, .zero⟩

variable (environment : Environment)

/-- `EnsureIsInitialized`. Behind a disposed `_traceContextPtr` the handler of the exception throws
as well, and nothing has changed. -/
def ensureIsInitialized (tracker : ContextTracker) :
    Bool × ContextTracker :=
  if environment.aborted || environment.disposed then (false, tracker)
  else
    match tracker.traceContextPtr with
    | some _ => (true, tracker)
    | none =>
      match environment.nativePointer with
      | none => (false, { tracker with traceContextPtr := some 0 })
      | some pointer => (true, { tracker with traceContextPtr := some pointer })

def writeToNative (context : SpanContext) (tracker : ContextTracker) :
    ContextTracker :=
  if environment.isProfilerReady then
    match tracker.ensureIsInitialized environment with
    | (false, tracker) => tracker
    | (true, tracker) =>
      -- `Value` of a `ThreadLocal` without a factory is zero until it is created.
      if tracker.traceContextPtr.getD 0 = 0 then tracker
      else { tracker with written := context }
  else tracker

def set (localRootSpanId traceIdHi traceIdLo : Nat)
    (tracker : ContextTracker) : ContextTracker :=
  tracker.writeToNative environment ⟨localRootSpanId, traceIdHi, traceIdLo⟩

/-- The engine is ready, the thread is not being aborted, and its structure has an address. -/
structure Reaches (environment : Environment) (tracker : ContextTracker) : Prop where
  ready : environment.isProfilerReady = true
  running : environment.aborted = false
  usable : environment.disposed = false
  address : ∃ pointer, tracker.traceContextPtr.or environment.nativePointer = some pointer ∧
    pointer ≠ 0

theorem written_set {environment : Environment} {tracker : ContextTracker}
    (reaches : tracker.Reaches environment) (context : SpanContext) :
    (tracker.set environment context.localRootSpanId context.traceIdHi context.traceIdLo).written =
      context := by
  rcases reaches with ⟨ready, running, usable, pointer, address, valid⟩
  simp only [set, writeToNative, ready, ensureIsInitialized, running, usable, Bool.or_self]
  rcases tracker with ⟨cached, written⟩
  cases cached with
  | none =>
    simp only [none_or] at address
    simp [address, valid]
  | some cached =>
    simp only [some_or, some.injEq] at address
    simp [address, valid]

end ContextTracker

/-! ## The span processor -/

open Transition List

/-- An activity; only one without a parent in the process can have a remote parent. -/
inductive Activity where
  | localRoot (ids : ActivityIds) (remoteParent : Bool)
  | child (ids : ActivityIds) (parent : Activity)
  deriving DecidableEq

namespace Activity

def ids : Activity → ActivityIds
  | localRoot ids _ => ids
  | child ids _ => ids

def parent : Activity → Option Activity
  | localRoot _ _ => none
  | child _ parent => some parent

def hasRemoteParent : Activity → Bool
  | localRoot _ remoteParent => remoteParent
  | child _ _ => false

end Activity

def isRootSpan (activity : Activity) : Bool :=
  match activity.parent with
  | none => true
  | some parent => parent.hasRemoteParent

def onStart (order : ByteOrder) (environment : Environment) (activity : Activity)
    (tracker : ContextTracker) : ContextTracker :=
  if isRootSpan activity then
    let context := convertSpanId order activity.ids
    tracker.set environment context.localRootSpanId context.traceIdHi context.traceIdLo
  else tracker

def onEnd (environment : Environment) (activity : Activity) (tracker : ContextTracker) :
    ContextTracker :=
  if isRootSpan activity then tracker.set environment 0 0 0 else tracker

structure TracedThread where
  activities : List Activity
  tracker : ContextTracker
  deriving DecidableEq

inductive ActivityEvent where
  | start (activity : Activity) (environment : Environment)
  | stop (environment : Environment)
  deriving DecidableEq

namespace TracedThread

def initial : TracedThread := ⟨[], .initial⟩

/-- The parent of an activity, if it has one, is open when the activity starts. -/
def parentOpen (thread : TracedThread) (activity : Activity) : Bool :=
  match activity.parent with
  | none => true
  | some parent => parent ∈ thread.activities

def next (order : ByteOrder) (thread : TracedThread) : ActivityEvent → Option TracedThread
  | .start activity environment =>
    if thread.parentOpen activity then
      some ⟨activity :: thread.activities, onStart order environment activity thread.tracker⟩
    else none
  | .stop environment =>
    match thread.activities with
    | [] => none
    | activity :: rest => some ⟨rest, onEnd environment activity thread.tracker⟩

/-- The profiler's structure names every open local root, and is zero if there is none. -/
structure FollowsRoots (order : ByteOrder) (thread : TracedThread) : Prop where
  inside : ∀ activity ∈ thread.activities, activity.parent = none →
    thread.tracker.written.Names order activity.ids
  outside : (∀ activity ∈ thread.activities, activity.parent ≠ none) →
    thread.tracker.written = .zero

/--
A local root starts outside all others, no other activity starts under a parent
with a remote parent, and what is said about a local root reaches the profiler.
-/
def Plain (thread : TracedThread) : ActivityEvent → Prop
  | .start activity environment =>
    match activity.parent with
    | none => (∀ other ∈ thread.activities, other.parent ≠ none) ∧
        thread.tracker.Reaches environment
    | some parent => parent.hasRemoteParent = false
  | .stop environment =>
    ∀ activity, thread.activities.head? = some activity → activity.parent = none →
      thread.tracker.Reaches environment

end TracedThread

def tracedSystem (order : ByteOrder) : System TracedThread ActivityEvent :=
  .ofFunction .initial (TracedThread.next order)

section Roots

theorem isRootSpan_eq_false_iff (activity : Activity) :
    isRootSpan activity = false ↔
      ∃ parent, activity.parent = some parent ∧ parent.hasRemoteParent = false := by
  unfold isRootSpan
  cases activity.parent with
  | none => simp
  | some parent => simp

theorem isRootSpan_of_parent_eq_none {activity : Activity} (root : activity.parent = none) :
    isRootSpan activity = true := by
  simp [isRootSpan, root]

end Roots

/-- Where the activities of a plain thread stand: one local root below all others. -/
inductive Nesting (order : ByteOrder) (thread : TracedThread) : Prop where
  | outside (empty : thread.activities = []) (zero : thread.tracker.written = .zero)
  | inside (inner : List Activity) (root : Activity)
      (split : thread.activities = inner ++ [root]) (isRoot : root.parent = none)
      (plain : ∀ activity ∈ inner, activity.parent ≠ none ∧ isRootSpan activity = false)
      (named : thread.tracker.written = convertSpanId order root.ids)

namespace Nesting

variable {order : ByteOrder} {thread later : TracedThread} {activity : Activity}
  {environment : Environment}

theorem followsRoots (nesting : Nesting order thread) : thread.FollowsRoots order := by
  cases nesting with
  | outside empty zero =>
    constructor
    · intro activity isOpen
      simp [empty] at isOpen
    · intro _
      exact zero
  | inside inner root split isRoot plain named =>
    constructor
    · intro activity isOpen noParent
      rw [split, mem_append, mem_singleton] at isOpen
      rcases isOpen with isInner | rfl
      · exact absurd noParent (plain activity isInner).1
      · rw [named]
        exact convertSpanId_names order activity.ids
    · intro noRoot
      exact absurd isRoot (noRoot root (by simp [split]))

theorem start (nesting : Nesting order thread)
    (plain : thread.Plain (.start activity environment))
    (taken : thread.next order (.start activity environment) = some later) :
    Nesting order later := by
  simp only [TracedThread.next] at taken
  split at taken
  case isFalse => cases taken
  rename_i parentOpen
  cases taken
  simp only [TracedThread.Plain] at plain
  cases hasParent : activity.parent with
  | none =>
    -- A local root finds no activity open: the outermost one would be a local root.
    simp only [hasParent] at plain
    rcases plain with ⟨alone, reaches⟩
    cases nesting with
    | outside empty zero =>
      refine .inside [] activity (by simp [empty]) hasParent (by simp) ?_
      simp only [onStart, isRootSpan_of_parent_eq_none hasParent]
      exact ContextTracker.written_set reaches (convertSpanId order activity.ids)
    | inside inner root split isRoot _ _ =>
      exact absurd isRoot (alone root (by simp [split]))
  | some parent =>
    simp only [hasParent] at plain
    have skipped : isRootSpan activity = false :=
      (isRootSpan_eq_false_iff activity).mpr ⟨parent, hasParent, plain⟩
    cases nesting with
    | outside empty _ =>
      simp [TracedThread.parentOpen, hasParent, empty] at parentOpen
    | inside inner root split isRoot others named =>
      refine .inside (activity :: inner) root (by simp [split]) isRoot ?_ ?_
      · intro other isInner
        rcases mem_cons.mp isInner with rfl | isInner
        · exact ⟨by simp [hasParent], skipped⟩
        · exact others other isInner
      · simp only [onStart, skipped]
        exact named

theorem stop (nesting : Nesting order thread) (plain : thread.Plain (.stop environment))
    (taken : thread.next order (.stop environment) = some later) : Nesting order later := by
  cases nesting with
  | outside empty _ => simp [TracedThread.next, empty] at taken
  | inside inner root split isRoot others named =>
    cases inner with
    | nil =>
      have reaches := plain root (by simp [split]) isRoot
      simp only [TracedThread.next, split, nil_append, Option.some.injEq] at taken
      subst later
      refine .outside rfl ?_
      simp only [onEnd, isRootSpan_of_parent_eq_none isRoot]
      exact ContextTracker.written_set reaches .zero
    | cons activity inner =>
      simp only [TracedThread.next, split, cons_append, Option.some.injEq] at taken
      subst later
      refine .inside inner root rfl isRoot ?_ ?_
      · intro other isInner
        exact others other (mem_cons_of_mem _ isInner)
      · simp only [onEnd, (others activity (mem_cons_self ..)).2]
        exact named

end Nesting

theorem context_follows_roots {order : ByteOrder} {events : List ActivityEvent}
    {thread : TracedThread}
    (run : ((tracedSystem order).restrict TracedThread.Plain).Run .initial events thread) :
    thread.FollowsRoots order := by
  apply Nesting.followsRoots
  refine run.invariant (Nesting order) (.outside rfl rfl) ?_
  rintro state event later nesting ⟨plain, taken⟩
  cases event with
  | start activity environment => exact nesting.start plain taken
  | stop environment => exact nesting.stop plain taken

section Runs

def ready : Environment := ⟨true, false, false, some 64⟩

def sampleIds (byte : UInt8) : ActivityIds := ⟨.replicate 8 byte, .replicate 16 byte⟩

def nestedPair (remoteParent : Bool) : List ActivityEvent :=
  let outer := Activity.localRoot (sampleIds 1) remoteParent
  [.start outer ready, .start (.child (sampleIds 2) outer) ready, .stop ready]

theorem nested_pair_followed :
    ∃ thread, ((tracedSystem .littleEndian).restrict TracedThread.Plain).Run .initial
        (nestedPair false) thread ∧
      thread.activities = [.localRoot (sampleIds 1) false] ∧
      thread.FollowsRoots .littleEndian := by
  have reaches : ContextTracker.initial.Reaches ready := ⟨rfl, rfl, rfl, 64, rfl, by decide⟩
  have meets : System.MeetsAlong (TracedThread.next .littleEndian) TracedThread.Plain .initial
      (nestedPair false) := by
    refine ⟨⟨by simp [TracedThread.initial], reaches⟩, rfl, ?_, trivial⟩
    intro activity innermost noParent
    cases innermost
    cases noParent
  exact ⟨_, System.run_restrict_of_exec rfl meets, rfl,
    context_follows_roots (System.run_restrict_of_exec rfl meets)⟩

/-- The child of a local root with a remote parent takes its place, and then clears it. -/
theorem root_context_lost :
    ∃ inside after : TracedThread,
      (tracedSystem .littleEndian).Run .initial ((nestedPair true).take 2) inside ∧
      (tracedSystem .littleEndian).Run .initial (nestedPair true) after ∧
      .localRoot (sampleIds 1) true ∈ inside.activities ∧
      inside.tracker.written.Names .littleEndian (sampleIds 2) ∧
      .localRoot (sampleIds 1) true ∈ after.activities ∧
      after.tracker.written = .zero ∧
      ¬inside.FollowsRoots .littleEndian ∧ ¬after.FollowsRoots .littleEndian := by
  refine ⟨_, _, System.run_of_exec rfl, System.run_of_exec rfl, by decide,
    convertSpanId_names .littleEndian (sampleIds 2), by decide, rfl, ?_, ?_⟩
  · intro follows
    have named := (follows.inside (.localRoot (sampleIds 1) true) (by decide) rfl).spanId
    revert named
    decide
  · intro follows
    have named := (follows.inside (.localRoot (sampleIds 1) true) (by decide) rfl).spanId
    revert named
    decide

end Runs

end Pyroscope.Tracing
