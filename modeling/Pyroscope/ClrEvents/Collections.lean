import Pyroscope.ClrEvents.Parser
import Pyroscope.Lib.Transition

/-!
# Garbage collections

The end of a collection is notified with what its start has said, the time since then and the sum of
its suspensions.
-/

namespace Pyroscope.ClrEvents

open Transition List

def nonConcurrentGC : Nat := 0

def backgroundGC : Nat := 1

def compaction : Nat := 2

def noCollection : UInt32 := 0xFFFFFFFF

structure GCDetails where
  number : UInt32
  generation : Nat
  reason : Nat
  type : Nat
  isCompacting : Bool
  pauseDuration : Nanoseconds
  startTimestamp : Nanoseconds
  gen2Size : Nat
  lohSize : Nat
  pohSize : Nat
  memPressure : Nat
  hasGlobalHeapHistoryBeenReceived : Bool
  hasHeapStatsBeenReceived : Bool
deriving DecidableEq

inductive GCNotice where
  | onGarbageCollectionStart (timestamp : Nanoseconds) (number : UInt32)
      (generation reason type : Nat)
  | onSuspension (timestamp : Nanoseconds) (number : UInt32) (generation : Nat)
      (duration : Nanoseconds)
  | onGarbageCollectionEnd (number : UInt32) (generation reason type : Nat) (isCompacting : Bool)
      (pauseDuration totalDuration endTimestamp : Nanoseconds)
      (gen2Size lohSize pohSize memPressure : Nat)
deriving DecidableEq

namespace GCDetails

def reset : GCDetails := ⟨noCollection, 0, 0, 0, false, 0, 0, 0, 0, 0, 0, false, false⟩

def initializeGC (timestamp : Nanoseconds) (payload : GCStartPayload) : GCDetails :=
  ⟨.ofNat payload.count, payload.depth, payload.reason, payload.type, false, 0, timestamp, 0, 0, 0,
    0, false, false⟩

def endNotice (gc : GCDetails) (timestamp : Nanoseconds) : GCNotice :=
  .onGarbageCollectionEnd gc.number gc.generation gc.reason gc.type gc.isCompacting gc.pauseDuration
    (timestamp - gc.startTimestamp) timestamp gc.gen2Size gc.lohSize gc.pohSize gc.memPressure

end GCDetails

/-- The records of the collections, with the notices, the newest first. -/
structure Collections where
  suspensionStart : Nanoseconds
  currentBGC : GCDetails
  gcInProgress : GCDetails
  notices : List GCNotice

namespace Collections

variable (state : Collections)

def initial (suspensionStart : Nanoseconds) : Collections := ⟨suspensionStart, .reset, .reset, []⟩

def getCurrentGC : GCDetails :=
  if state.gcInProgress.number ≠ noCollection then state.gcInProgress else state.currentBGC

def setCurrentGC (gc : GCDetails) : Collections :=
  if state.gcInProgress.number ≠ noCollection then { state with gcInProgress := gc }
  else { state with currentBGC := gc }

def notify (notice : GCNotice) : Collections := { state with notices := notice :: state.notices }

def finish (gc : GCDetails) (timestamp : Nanoseconds) : Collections :=
  (state.setCurrentGC .reset).notify (gc.endNotice timestamp)

def onGCStart (timestamp : Nanoseconds) (payload : GCStartPayload) : Collections :=
  let state := state.notify (.onGarbageCollectionStart timestamp (.ofNat payload.count)
    payload.depth payload.reason payload.type)
  if payload.depth = 2 ∧ payload.type = backgroundGC then
    { state with currentBGC := .initializeGC timestamp payload }
  else { state with gcInProgress := .initializeGC timestamp payload }

def onGCSuspendEEBegin (timestamp : Nanoseconds) : Collections :=
  { state with suspensionStart := timestamp }

def onGCRestartEEEnd (timestamp : Nanoseconds) : Collections :=
  let gc := state.getCurrentGC
  if gc.number = noCollection then { state with suspensionStart := 0 }
  else
    let suspended := state.suspensionStart ≠ 0
    let suspensionDuration := if suspended then timestamp - state.suspensionStart else 0
    let state :=
      if suspended then
        { state with suspensionStart := 0 }.notify
          (.onSuspension timestamp gc.number gc.generation suspensionDuration)
      else state
    let gc := { gc with pauseDuration := gc.pauseDuration + suspensionDuration }
    if gc.generation < 2 ∨ gc.type = nonConcurrentGC then state.finish gc timestamp
    else state.setCurrentGC gc

def onGCHeapStats (timestamp : Nanoseconds) (gen2Size lohSize pohSize : Nat) : Collections :=
  let gc := { state.getCurrentGC with hasHeapStatsBeenReceived := true }
  if gc.number = noCollection then state.setCurrentGC gc
  else
    let gc := { gc with gen2Size := gen2Size, lohSize := lohSize, pohSize := pohSize }
    if gc.hasGlobalHeapHistoryBeenReceived ∧ gc.generation = 2 ∧ gc.type = backgroundGC then
      state.finish gc timestamp
    else state.setCurrentGC gc

def onGCGlobalHeapHistory (timestamp : Nanoseconds) (payload : GCGlobalHeapPayload) : Collections :=
  let gc := state.getCurrentGC
  if gc.number = noCollection then state
  else
    let gc :=
      { gc with
        hasGlobalHeapHistoryBeenReceived := true
        memPressure := payload.memPressure
        isCompacting := payload.globalMechanisms &&& compaction = compaction }
    if gc.hasHeapStatsBeenReceived ∧ gc.generation = 2 ∧ gc.type = backgroundGC then
      state.finish gc timestamp
    else state.setCurrentGC gc

/-- The handlers of the events; some do nothing, and the others are not about collections. -/
def next (state : Collections) : Notice → Option Collections
  | .onGCTriggered | .onGCEnd _ => some state
  | .onGCStart timestamp payload => some (state.onGCStart timestamp payload)
  | .onGCSuspendEEBegin timestamp => some (state.onGCSuspendEEBegin timestamp)
  | .onGCRestartEEEnd timestamp => some (state.onGCRestartEEEnd timestamp)
  | .onGCHeapStats timestamp gen2Size lohSize pohSize =>
    some (state.onGCHeapStats timestamp gen2Size lohSize pohSize)
  | .onGCGlobalHeapHistory timestamp payload => some (state.onGCGlobalHeapHistory timestamp payload)
  | _ => none

end Collections

def collectionSystem (suspensionStart : Nanoseconds) : System Collections Notice :=
  .ofFunction (.initial suspensionStart) Collections.next

/-! ## What the listeners can rely on -/

namespace Notice

/-- The time which the handler of an event is given. -/
def time : Notice → Option Nanoseconds
  | .onWaitStart timestamp _ | .onWaitStop timestamp | .onGCStart timestamp _
  | .onGCSuspendEEBegin timestamp | .onGCRestartEEEnd timestamp | .onGCHeapStats timestamp ..
  | .onGCGlobalHeapHistory timestamp _ => some timestamp
  | .onAllocation _ | .onAllocationSampled _ | .onContention _ | .setBlockingThread _
  | .onGCTriggered | .onGCEnd _ => none

/-- The number of the collection which an event starts. -/
def startedNumber : Notice → Option UInt32
  | .onGCStart _ payload => some (.ofNat payload.count)
  | _ => none

end Notice

namespace GCNotice

def number : GCNotice → UInt32
  | .onGarbageCollectionStart _ number _ _ _ => number
  | .onSuspension _ number _ _ => number
  | .onGarbageCollectionEnd number .. => number

/-- What a start has said, with the suspensions since then and whether the end has been notified. -/
structure Account where
  startTimestamp : Nanoseconds
  generation : Nat
  reason : Nat
  type : Nat
  pauseDuration : Nanoseconds
  ended : Bool

/-- The account of the last start among the notices of one number. -/
def account : List GCNotice → Option Account
  | [] => none
  | .onGarbageCollectionStart timestamp _ generation reason type :: _ =>
    some ⟨timestamp, generation, reason, type, 0, false⟩
  | .onSuspension _ _ _ duration :: earlier =>
    (account earlier).map fun account =>
      { account with pauseDuration := account.pauseDuration + duration }
  | .onGarbageCollectionEnd .. :: earlier =>
    (account earlier).map fun account => { account with ended := true }

def told (number : UInt32) (notices : List GCNotice) : Option Account :=
  account (notices.filter (·.number = number))

/-- The end is the first one of a collection which an event before has started, with what that event
says, the time since then and the sum of the suspensions since then. -/
def Accounted (events : List Notice) (event : Notice) (earlier : List GCNotice) : GCNotice → Prop
  | .onGarbageCollectionEnd number generation reason type _ pauseDuration totalDuration
      endTimestamp .. =>
      ∃ startTimestamp count, .ofNat count = number ∧
        .onGCStart startTimestamp ⟨count, generation, reason, type⟩ ∈ events ∧
        event.time = some endTimestamp ∧ totalDuration = endTimestamp - startTimestamp ∧
        told number earlier = some ⟨startTimestamp, generation, reason, type, pauseDuration, false⟩
  | .onGarbageCollectionStart .. | .onSuspension .. => True

def AllAccounted (events : List Notice) (event : Notice) (notices : List GCNotice) :
    List GCNotice → Prop
  | [] => True
  | notice :: added =>
    notice.Accounted events event (added ++ notices) ∧ AllAccounted events event notices added

variable {number : UInt32} {notice : GCNotice} {notices added : List GCNotice} {total : Account}

theorem told_append_other (others : ∀ notice ∈ added, notice.number ≠ number) :
    told number (added ++ notices) = told number notices := by
  have none : added.filter (·.number = number) = [] :=
    filter_eq_nil_iff.mpr fun notice isAdded => by simpa using others notice isAdded
  rw [told, told, filter_append, none, nil_append]

theorem told_cons_self : told notice.number (notice :: notices) =
    account (notice :: notices.filter (·.number = notice.number)) := by
  simp [told]

theorem told_suspension (isTold : told number notices = some total)
    {timestamp duration : Nanoseconds} {generation : Nat} :
    told number (.onSuspension timestamp number generation duration :: notices) =
      some { total with pauseDuration := total.pauseDuration + duration } :=
  told_cons_self.trans (congrArg (Option.map _) isTold)

end GCNotice

open GCNotice

namespace GCDetails

variable {gc : GCDetails} {events : List Notice} {notices : List GCNotice}

/-- A collection in progress has been started by an event, and what is known of it is what has been
told of it. -/
def Tracked (gc : GCDetails) (events : List Notice) (notices : List GCNotice) : Prop :=
  gc.number ≠ noCollection →
    (∃ count, .ofNat count = gc.number ∧
      .onGCStart gc.startTimestamp ⟨count, gc.generation, gc.reason, gc.type⟩ ∈ events) ∧
    told gc.number notices =
      some ⟨gc.startTimestamp, gc.generation, gc.reason, gc.type, gc.pauseDuration, false⟩

theorem Tracked.later (tracked : gc.Tracked events notices) (event : Notice) :
    gc.Tracked (events ++ [event]) notices := by
  intro used
  rcases tracked used with ⟨⟨count, isNumber, started⟩, isTold⟩
  exact ⟨⟨count, isNumber, mem_append_left _ started⟩, isTold⟩

theorem Tracked.number_mem (tracked : gc.Tracked events notices) (used : gc.number ≠ noCollection) :
    gc.number ∈ events.filterMap Notice.startedNumber := by
  rcases tracked used with ⟨⟨count, isNumber, started⟩, -⟩
  exact mem_filterMap.mpr ⟨_, started, congrArg some isNumber⟩

theorem tracked_reset : GCDetails.reset.Tracked events notices := absurd rfl

end GCDetails

namespace Collections

variable {events : List Notice} {event : Notice} {state after : Collections} {gc : GCDetails}
  {timestamp : Nanoseconds}

/-- What is kept of each open collection is what its events told. -/
structure Sound (events : List Notice) (state : Collections) : Prop where
  background : state.currentBGC.Tracked events state.notices
  inProgress : state.gcInProgress.Tracked events state.notices
  apart : state.currentBGC.number = state.gcInProgress.number →
    state.gcInProgress.number = noCollection

/-- The notices which an event adds are accounted for. -/
def Accounts (events : List Notice) (event : Notice) (state after : Collections) : Prop :=
  ∃ added, after.notices = added ++ state.notices ∧
    AllAccounted events event state.notices added

/-- Nothing but notices about the current collection is added. -/
structure Tells (events : List Notice) (event : Notice) (state after : Collections) : Prop where
  background : after.currentBGC = state.currentBGC
  inProgress : after.gcInProgress = state.gcInProgress
  notices : ∃ added, after.notices = added ++ state.notices ∧
    AllAccounted events event state.notices added ∧
    ∀ notice ∈ added, notice.number = state.getCurrentGC.number

namespace Tells

theorem refl : Tells events event state state :=
  ⟨rfl, rfl, [], rfl, trivial, by simp⟩

theorem notify (tells : Tells events event state after) {notice : GCNotice}
    (about : notice.number = state.getCurrentGC.number)
    (accounted : notice.Accounted events event after.notices) :
    Tells events event state (after.notify notice) := by
  rcases tells with ⟨background, inProgress, added, isAdded, allAccounted, aboutAdded⟩
  rw [isAdded] at accounted
  refine ⟨background, inProgress, notice :: added, ?_, ⟨accounted, allAccounted⟩, ?_⟩
  · rw [Collections.notify, isAdded, cons_append]
  · exact forall_mem_cons.mpr ⟨about, aboutAdded⟩

end Tells

theorem notices_setCurrentGC : (state.setCurrentGC gc).notices = state.notices := by
  rw [setCurrentGC]
  split <;> rfl

namespace Sound

variable (sound : state.Sound events)
include sound

theorem later (event : Notice) : state.Sound (events ++ [event]) :=
  ⟨sound.background.later event, sound.inProgress.later event, sound.apart⟩

theorem getCurrentGC : state.getCurrentGC.Tracked events state.notices := by
  rw [Collections.getCurrentGC]
  split
  · exact sound.inProgress
  · exact sound.background

theorem setCurrentGC (tells : Tells events event state after)
    (tracked : gc.Tracked events after.notices)
    (same : gc.number = state.getCurrentGC.number ∨ gc.number = noCollection) :
    (after.setCurrentGC gc).Sound (events ++ [event]) ∧
      Accounts events event state (after.setCurrentGC gc) := by
  rcases sound.later event with ⟨background, inProgress, apart⟩
  rcases tells with ⟨isBackground, isInProgress, added, isAdded, allAccounted, about⟩
  refine ⟨?_, added, notices_setCurrentGC.trans isAdded, allAccounted⟩
  rw [Collections.setCurrentGC, isInProgress]
  rw [Collections.getCurrentGC] at about same
  split
  case isTrue isUsed =>
    rw [if_pos isUsed] at about same
    refine ⟨fun used => ?_, tracked.later event, fun equal => ?_⟩
    · have other (notice : GCNotice) (isNew : notice ∈ added) :
          notice.number ≠ state.currentBGC.number := fun equal =>
        isUsed (apart (equal.symm.trans (about notice isNew)))
      rw [isBackground] at used ⊢
      rw [isAdded, told_append_other other]
      exact background used
    · rcases same with same | none
      · exact absurd (apart (isBackground ▸ equal.trans same)) isUsed
      · exact none
  case isFalse unused =>
    have none : state.gcInProgress.number = noCollection := not_not.mp unused
    exact ⟨tracked.later event, fun used => absurd none used, fun _ => none⟩

theorem finish (tells : Tells events event state after) (tracked : gc.Tracked events after.notices)
    (same : gc.number = state.getCurrentGC.number) (used : gc.number ≠ noCollection)
    (isTime : event.time = some timestamp) :
    (after.finish gc timestamp).Sound (events ++ [event]) ∧
      Accounts events event state (after.finish gc timestamp) := by
  have commute : after.finish gc timestamp =
      (after.notify (gc.endNotice timestamp)).setCurrentGC .reset := by
    rw [Collections.finish, Collections.setCurrentGC, Collections.setCurrentGC]
    split_ifs with first second second
    · rfl
    · exact absurd first second
    · exact absurd second first
    · rfl
  rcases tracked used with ⟨⟨count, isNumber, started⟩, isTold⟩
  rw [commute]
  refine sound.setCurrentGC (tells.notify same ?_) GCDetails.tracked_reset (.inr rfl)
  exact ⟨gc.startTimestamp, count, isNumber, started, isTime, rfl, isTold⟩

theorem onGCStart {payload : GCStartPayload}
    (fresh : .ofNat payload.count ∉ events.filterMap Notice.startedNumber) :
    (state.onGCStart timestamp payload).Sound (events ++ [.onGCStart timestamp payload]) ∧
      Accounts events (.onGCStart timestamp payload) state (state.onGCStart timestamp payload) := by
  let notice : GCNotice := .onGarbageCollectionStart timestamp (.ofNat payload.count) payload.depth
    payload.reason payload.type
  have new : (GCDetails.initializeGC timestamp payload).Tracked
      (events ++ [.onGCStart timestamp payload]) (notice :: state.notices) :=
    fun _ => ⟨⟨payload.count, rfl, by simp [GCDetails.initializeGC]⟩, told_cons_self⟩
  have other {gc : GCDetails} (tracked : gc.Tracked events state.notices)
      (used : gc.number ≠ noCollection) : notice.number ≠ gc.number := by
    intro same
    have isNumber : .ofNat payload.count = gc.number := same
    exact fresh (isNumber ▸ tracked.number_mem used)
  have kept {gc : GCDetails} (tracked : gc.Tracked events state.notices) :
      gc.Tracked (events ++ [.onGCStart timestamp payload]) (notice :: state.notices) := by
    intro used
    rcases tracked.later (.onGCStart timestamp payload) used with ⟨started, isTold⟩
    have others : ∀ added ∈ [notice], added.number ≠ gc.number :=
      forall_mem_singleton.mpr (other tracked used)
    exact ⟨started, (told_append_other others).trans isTold⟩
  rcases sound with ⟨background, inProgress, apart⟩
  simp only [Collections.onGCStart]
  split
  · refine ⟨⟨new, kept inProgress, fun equal => ?_⟩, [notice], rfl, trivial, trivial⟩
    by_contra used
    exact other inProgress used equal
  · refine ⟨⟨kept background, new, fun equal => ?_⟩, [notice], rfl, trivial, trivial⟩
    by_contra used
    exact other background (fun none => used (equal.symm.trans none)) equal.symm

theorem onGCRestartEEEnd (isTime : event.time = some timestamp) :
    (state.onGCRestartEEEnd timestamp).Sound (events ++ [event]) ∧
      Accounts events event state (state.onGCRestartEEEnd timestamp) := by
  simp only [Collections.onGCRestartEEEnd]
  split
  case isTrue =>
    rcases sound.later event with ⟨background, inProgress, apart⟩
    exact ⟨⟨background, inProgress, apart⟩, [], rfl, trivial⟩
  case isFalse used =>
    have tracked := sound.getCurrentGC
    by_cases missed : state.suspensionStart = 0
    · simp only [missed, ne_eq, not_true, if_false, add_zero]
      split
      · exact sound.finish .refl tracked rfl used isTime
      · exact sound.setCurrentGC .refl tracked (.inl rfl)
    · have tells : Tells events event state { state with suspensionStart := 0 } :=
        ⟨rfl, rfl, [], rfl, trivial, by simp⟩
      rcases tracked used with ⟨started, isTold⟩
      split
      · refine sound.finish (tells.notify rfl trivial) (fun _ => ⟨started, ?_⟩) rfl used isTime
        exact told_suspension isTold
      · refine sound.setCurrentGC (tells.notify rfl trivial) (fun _ => ⟨started, ?_⟩) (.inl rfl)
        exact told_suspension isTold

theorem onGCHeapStats (isTime : event.time = some timestamp) (gen2Size lohSize pohSize : Nat) :
    (state.onGCHeapStats timestamp gen2Size lohSize pohSize).Sound (events ++ [event]) ∧
      Accounts events event state (state.onGCHeapStats timestamp gen2Size lohSize pohSize) := by
  have tracked := sound.getCurrentGC
  simp only [Collections.onGCHeapStats]
  split
  case isTrue => exact sound.setCurrentGC .refl tracked (.inl rfl)
  case isFalse used =>
    split
    · exact sound.finish .refl tracked rfl used isTime
    · exact sound.setCurrentGC .refl tracked (.inl rfl)

theorem onGCGlobalHeapHistory (isTime : event.time = some timestamp)
    (payload : GCGlobalHeapPayload) :
    (state.onGCGlobalHeapHistory timestamp payload).Sound (events ++ [event]) ∧
      Accounts events event state (state.onGCGlobalHeapHistory timestamp payload) := by
  have tracked := sound.getCurrentGC
  simp only [Collections.onGCGlobalHeapHistory]
  split
  case isTrue => exact ⟨sound.later event, [], rfl, trivial⟩
  case isFalse used =>
    split
    · exact sound.finish .refl tracked rfl used isTime
    · exact sound.setCurrentGC .refl tracked (.inl rfl)

/-- One event keeps the records sound, and what it notifies is accounted for. -/
theorem next (different : ((events ++ [event]).filterMap Notice.startedNumber).Nodup)
    (taken : state.next event = some after) :
    after.Sound (events ++ [event]) ∧ Accounts events event state after := by
  rw [filterMap_append, nodup_append] at different
  rcases different with ⟨-, -, disjoint⟩
  cases event <;> cases taken
  case onGCTriggered.refl => exact ⟨sound.later _, [], rfl, trivial⟩
  case onGCEnd.refl => exact ⟨sound.later _, [], rfl, trivial⟩
  case onGCStart.refl => exact sound.onGCStart fun old => disjoint _ old _ (.head _) rfl
  case onGCSuspendEEBegin.refl timestamp =>
    rcases sound.later (.onGCSuspendEEBegin timestamp) with ⟨background, inProgress, apart⟩
    exact ⟨⟨background, inProgress, apart⟩, [], rfl, trivial⟩
  case onGCRestartEEEnd.refl => exact sound.onGCRestartEEEnd rfl
  case onGCHeapStats.refl => exact sound.onGCHeapStats rfl _ _ _
  case onGCGlobalHeapHistory.refl => exact sound.onGCGlobalHeapHistory rfl _

end Sound

end Collections

/-- Every end which an event of a run notifies belongs to a start among the events before, with what
that says, with the time since then and with the sum of the suspensions since then, and it is the
only one of that start. -/
theorem collections_accounted (suspensionStart : Nanoseconds) (events : List Notice)
    (event : Notice) (state after : Collections)
    (different : ((events ++ [event]).filterMap Notice.startedNumber).Nodup)
    (run : (collectionSystem suspensionStart).Run (collectionSystem suspensionStart).init events
      state)
    (taken : (collectionSystem suspensionStart).step state event after) :
    ∃ added, after.notices = added ++ state.notices ∧
      AllAccounted events event state.notices added := by
  have sound : (events.filterMap Notice.startedNumber).Nodup → state.Sound events := by
    refine run.history_invariant (fun events state =>
      (events.filterMap Notice.startedNumber).Nodup → state.Sound events) ?_ ?_
    · exact fun _ => ⟨GCDetails.tracked_reset, GCDetails.tracked_reset, fun _ => rfl⟩
    · intro events state event next sound taken different
      refine ((sound ?_).next different taken).1
      exact different.sublist ((sublist_append_left _ _).filterMap _)
  refine ((sound ?_).next different taken).2
  exact different.sublist ((sublist_append_left _ _).filterMap _)

def foregroundInside : List Notice :=
  [.onGCStart 10 ⟨1, 2, 0, 1⟩, .onGCSuspendEEBegin 20, .onGCRestartEEEnd 25, .onGCSuspendEEBegin 30,
    .onGCStart 31 ⟨2, 0, 0, 2⟩, .onGCRestartEEEnd 37, .onGCHeapStats 40 5 6 7]

/-- A foreground collection inside a background one, each with a suspension. -/
theorem foreground_inside_background : ∃ state,
    (collectionSystem 0).Run (collectionSystem 0).init foregroundInside state ∧ ∃ after,
      (collectionSystem 0).step state (.onGCGlobalHeapHistory 50 ⟨2, 8⟩) after ∧
      after.notices.head? = some (.onGarbageCollectionEnd 1 2 0 1 true 5 40 50 5 6 7 8) ∧
      ∃ added, after.notices = added ++ state.notices ∧
        AllAccounted foregroundInside (.onGCGlobalHeapHistory 50 ⟨2, 8⟩) state.notices added := by
  refine System.exists_run_of_exec rfl fun run => ?_
  refine ⟨_, rfl, by decide +kernel, ?_⟩
  exact collections_accounted 0 _ _ _ _ (by decide +kernel) run rfl

end Pyroscope.ClrEvents
