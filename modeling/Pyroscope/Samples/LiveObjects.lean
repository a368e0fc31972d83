import Mathlib.Data.List.Induction
import Pyroscope.Lib.Transition
import Pyroscope.Samples.Basic

/-!
# Live objects and the collector's cached sample

The kept cells are intact as long as no raw sample is collected while the cached sample is one of
them.
-/

namespace Pyroscope.Samples

open Transition

structure RawAllocationSample where
  timestamp : Int
  appDomainId : Nat
  traceContext : TraceContext
  tags : List (String × String)
  stack : List Nat
  allocationClass : String
  allocationSize : Int
  address : Nat

namespace RawAllocationSample

def onTransform (raw : RawAllocationSample) (valueOffsets : List Nat) (sample : Sample) :
    Mutation :=
  let counted := sample.addValue 1 (valueOffsets.getD 0 0)
  match counted.exception with
  | some text => ⟨counted.sample, some text⟩
  | none =>
    if valueOffsets.length = 2 then
      let sized := counted.sample.addValue raw.allocationSize (valueOffsets.getD 1 0)
      match sized.exception with
      | some text => ⟨sized.sample, some text⟩
      | none => ⟨sized.sample.setLeafFrame raw.allocationClass, none⟩
    else ⟨counted.sample.setLeafFrame raw.allocationClass, none⟩

def toRawSample (raw : RawAllocationSample) : RawSample where
  timestamp := raw.timestamp
  appDomainId := raw.appDomainId
  traceContext := raw.traceContext
  tags := raw.tags
  stack := raw.stack
  onTransform := raw.onTransform

end RawAllocationSample

/-- The parts of the profiler around the collector. The offsets of live objects are their own. -/
structure Configuration where
  stores : Stores
  valuesCount : Nat
  countOffset : Nat
  sizeOffset : Nat
  heapHandleLimit : Nat
  liveUpscaleWeight : Nat → Option (Int → Int)
  computeUpscaleWeight : Nat → Nat → Option (Int → Int)
  poissonUpscaleProviders : List UpscalingPoissonInfo
  separate : ∀ info ∈ poissonUpscaleProviders, info.sumOffset ∉ [countOffset, sizeOffset]

namespace Configuration

def valueOffsets (config : Configuration) : List Nat :=
  [config.countOffset, config.sizeOffset]

def buildLiveSample (config : Configuration) (raw : RawAllocationSample) : Mutation :=
  let transformed := transform config.stores raw.toRawSample config.valueOffsets
    (Sample.create config.valuesCount raw.timestamp "")
  let objectSize := if 0 < raw.allocationSize then raw.allocationSize.toNat else 1
  match transformed.exception, config.liveUpscaleWeight objectSize with
  | some text, _ => ⟨transformed.sample, some text⟩
  | none, none => ⟨transformed.sample.setLeafFrame raw.allocationClass, none⟩
  | none, some scale =>
    let scaled := scaleValues scale config.valueOffsets transformed.sample
    match scaled.exception with
    | some text => ⟨scaled.sample, some text⟩
    | none => ⟨scaled.sample.setLeafFrame raw.allocationClass, none⟩

end Configuration

/-- `sample` is the cell which the shared pointer of the source points to. -/
structure LiveObjectInfo where
  sample : Nat
  address : Nat
  weakHandle : Nat
  timestamp : Int
  gcCount : Nat
  deriving DecidableEq

structure State where
  heap : Nat → Sample
  next : Nat
  cachedSample : Nat
  exported : List Sample
  monitoredObjects : List LiveObjectInfo

inductive Event where
  | collect (valueOffsets : List Nat) (rawSamples : List RawSample)
  | collectCpu (sample : Option Sample)
  | exportSamples
  | onAllocation (shouldSample : Bool) (handle : Option Nat) (raw : RawAllocationSample)
  | onGarbageCollectionEnd (isAlive : Nat → Bool)

namespace State

def initial (valuesCount : Nat) : State where
  heap := fun _ => Sample.create valuesCount 0 ""
  next := 1
  cachedSample := 0
  exported := []
  monitoredObjects := []

def write (state : State) (cell : Nat) (sample : Sample) : State :=
  { state with heap := fun other => if other = cell then sample else state.heap other }

def addCachedSample (config : Configuration) (state : State) : State × Bool :=
  let sample := state.heap state.cachedSample
  if sample.callstack.isEmpty then (state, false)
  else
    let scaled := upscale config.computeUpscaleWeight
      config.poissonUpscaleProviders sample
    let state := state.write state.cachedSample scaled.sample
    match scaled.exception with
    | some _ => (state, true)
    | none => ({ state with exported := state.exported ++ [scaled.sample] }, false)

/-- `CollectSamples` over raw samples; each is transformed into the cached sample. -/
def collectRawSamples (config : Configuration) (valueOffsets : List Nat) :
    List RawSample → State → State
  | [], state => state
  | raw :: rest, state =>
    let transformed := transform config.stores raw valueOffsets
      (state.heap state.cachedSample)
    let state := state.write state.cachedSample transformed.sample
    match transformed.exception, state.addCachedSample config with
    | some _, _ => state
    | none, (state, true) => state
    | none, (state, false) => collectRawSamples config valueOffsets rest state

def collectStoredSamples (config : Configuration) : List Nat → State → State
  | [], state => state
  | cell :: rest, state =>
    match { state with cachedSample := cell }.addCachedSample config with
    | (state, true) => state
    | (state, false) => collectStoredSamples config rest state

def collectCpuSample (config : Configuration) (sample : Option Sample) (state : State) :
    State :=
  match sample with
  | none => state
  | some sample =>
    collectStoredSamples config [state.next]
      { state.write state.next sample with next := state.next + 1 }

def onAllocation (config : Configuration) (shouldSample : Bool) (handle : Option Nat)
    (raw : RawAllocationSample) (state : State) : State :=
  if !shouldSample then state
  else if state.monitoredObjects.length < config.heapHandleLimit then
    match handle, config.buildLiveSample raw with
    | none, _ => state
    | some _, ⟨_, some _⟩ => state
    | some handle, ⟨sample, none⟩ =>
      { state.write state.next sample with
        next := state.next + 1
        monitoredObjects := state.monitoredObjects ++
          [⟨state.next, raw.address, handle, raw.timestamp, 0⟩] }
  else state

def onGarbageCollectionEnd (isAlive : Nat → Bool) (state : State) : State :=
  { state with
    monitoredObjects := (state.monitoredObjects.filter fun info => isAlive info.weakHandle).map
      fun info => { info with gcCount := info.gcCount + 1 } }

def step (config : Configuration) (state : State) : Event → State
  | .collect valueOffsets rawSamples =>
    state.collectRawSamples config valueOffsets rawSamples
  | .collectCpu sample => state.collectCpuSample config sample
  | .exportSamples =>
    state.collectStoredSamples config (state.monitoredObjects.map (·.sample))
  | .onAllocation shouldSample handle raw =>
    state.onAllocation config shouldSample handle raw
  | .onGarbageCollectionEnd isAlive => state.onGarbageCollectionEnd isAlive

end State

def system (config : Configuration) : System State Event :=
  .ofFunction (.initial config.valuesCount) fun state event =>
    some (state.step config event)

/-! ## What a live object's sample is exposed to -/

open State List

/-- How an event changes the live objects, each with its handle and the sample built for it. -/
def track (config : Configuration) (live : List (Nat × Sample)) :
    Event → List (Nat × Sample)
  | .onAllocation shouldSample handle raw =>
    if !shouldSample then live
    else if live.length < config.heapHandleLimit then
      match handle, config.buildLiveSample raw with
      | none, _ => live
      | some _, ⟨_, some _⟩ => live
      | some handle, ⟨sample, none⟩ => live ++ [(handle, sample)]
    else live
  | .onGarbageCollectionEnd isAlive => live.filter fun entry => isAlive entry.1
  | _ => live

def liveObjects (config : Configuration) (events : List Event) : List (Nat × Sample) :=
  events.foldl (track config) []

/-- Each live object still has the sample of its allocation. -/
def Intact (config : Configuration) (events : List Event) (state : State) : Prop :=
  (state.monitoredObjects.map fun info => (info.weakHandle, state.heap info.sample)) =
    liveObjects config events

def owed (live : List (Nat × Sample)) : List Sample :=
  (live.map Prod.snd).filter fun sample => !sample.callstack.isEmpty

def CachedSampleFree (state : State) : Event → Prop
  | .collect _ (_ :: _) => state.cachedSample ∉ state.monitoredObjects.map (·.sample)
  | _ => True

section Frame

variable {config : Configuration} {state : State}

/-- Nothing but the cached cell has changed. -/
structure Untouched (state after : State) : Prop where
  next : after.next = state.next
  cachedSample : after.cachedSample = state.cachedSample
  monitoredObjects : after.monitoredObjects = state.monitoredObjects
  heap : ∀ cell, cell ≠ state.cachedSample → after.heap cell = state.heap cell

theorem Untouched.refl (state : State) : Untouched state state :=
  ⟨rfl, rfl, rfl, fun _ _ => rfl⟩

theorem Untouched.trans {middle after : State} (first : Untouched state middle)
    (second : Untouched middle after) : Untouched state after where
  next := second.next.trans first.next
  cachedSample := second.cachedSample.trans first.cachedSample
  monitoredObjects := second.monitoredObjects.trans first.monitoredObjects
  heap := by
    intro cell distinct
    exact (second.heap cell (by rwa [first.cachedSample])).trans (first.heap cell distinct)

theorem untouched_write (state : State) (sample : Sample) :
    Untouched state (state.write state.cachedSample sample) where
  next := rfl
  cachedSample := rfl
  monitoredObjects := rfl
  heap := by
    intro cell distinct
    simp [write, distinct]

theorem untouched_addCachedSample (config : Configuration) (state : State) :
    Untouched state (state.addCachedSample config).1 := by
  unfold addCachedSample
  dsimp only
  split
  · exact .refl state
  · split
    · exact untouched_write state _
    · exact (untouched_write state _).trans ⟨rfl, rfl, rfl, fun _ _ => rfl⟩

theorem untouched_collectRawSamples (config : Configuration) (valueOffsets : List Nat)
    (rawSamples : List RawSample) (state : State) :
    Untouched state (state.collectRawSamples config valueOffsets rawSamples) := by
  induction rawSamples generalizing state with
  | nil => exact .refl state
  | cons raw rest ih =>
    have written := untouched_write state (transform config.stores raw
      valueOffsets (state.heap state.cachedSample)).sample
    have added := written.trans (untouched_addCachedSample config _)
    unfold collectRawSamples
    dsimp only
    split
    · exact written
    · rename_i threw
      rw [threw] at added
      exact added
    · rename_i kept
      rw [kept] at added
      exact added.trans (ih _)

end Frame

section Built

variable {offsets : List Nat} {sample : Sample} {valueOffsets : List Nat}

theorem zeroOutside_reset (sample : Sample) : ZeroOutside offsets sample.reset := by
  intro index _
  simp only [Sample.reset, getD_eq_getElem?_getD, getElem?_map]
  cases sample.values[index]? <;> rfl

theorem values_addLabels (tags : List (String × String)) (sample : Sample) :
    (tags.foldl (fun sample tag => sample.addLabel (tag.1, .string tag.2)) sample).values =
      sample.values := by
  induction tags generalizing sample with
  | nil => rfl
  | cons tag rest ih => exact ih _

theorem values_setStack (stores : Stores) (stack : List Nat) (sample : Sample) :
    (setStack stores stack sample).values = sample.values := by
  induction stack generalizing sample with
  | nil => rfl
  | cons instructionPointer rest ih =>
    refine (ih _).trans ?_
    dsimp only
    split <;> rfl

theorem ZeroOutside.onTransform (zero : ZeroOutside offsets sample) (raw : RawAllocationSample)
    (count : valueOffsets.getD 0 0 ∈ offsets) (size : valueOffsets.getD 1 0 ∈ offsets) :
    ZeroOutside offsets (raw.onTransform valueOffsets sample).sample := by
  have counted := zero.addValue count 1
  have sized := counted.addValue size raw.allocationSize
  unfold RawAllocationSample.onTransform
  dsimp only
  split
  · exact counted
  · split
    · split
      · exact sized
      · exact sized.of_values_eq rfl
    · exact counted.of_values_eq rfl

theorem ZeroOutside.scaleValues (zero : ZeroOutside offsets sample) (scale : Int → Int)
    {indices : List Nat} (inside : ∀ index ∈ indices, index ∈ offsets) :
    ZeroOutside offsets (scaleValues scale indices sample).sample := by
  induction indices generalizing sample with
  | nil => exact zero
  | cons index rest ih =>
    have scaled := zero.addValue (inside index (mem_cons_self ..))
      (scale (sample.values.getD index 0))
    unfold Samples.scaleValues
    dsimp only
    split
    · exact scaled
    · exact ih scaled fun other mem => inside other (mem_cons_of_mem _ mem)

theorem zeroOutside_buildLiveSample (config : Configuration) (raw : RawAllocationSample) :
    ZeroOutside config.valueOffsets (config.buildLiveSample raw).sample := by
  have transformed : ZeroOutside config.valueOffsets (transform config.stores
      raw.toRawSample config.valueOffsets
        (Sample.create config.valuesCount raw.timestamp "")).sample := by
    apply ZeroOutside.onTransform
    · apply (zeroOutside_reset _).of_values_eq
      rw [values_setStack, values_addLabels]
    · simp [Configuration.valueOffsets]
    · simp [Configuration.valueOffsets]
  unfold Configuration.buildLiveSample
  dsimp only
  split
  · exact transformed
  · exact transformed.of_values_eq rfl
  · rename_i scale _ _
    have scaled := transformed.scaleValues scale fun index inside => inside
    split
    · exact scaled
    · exact scaled.of_values_eq rfl

end Built

section Export

variable {config : Configuration} {state : State} {cells : List Nat}

private theorem write_self (state : State) (cell : Nat) :
    state.write cell (state.heap cell) = state := by
  have same : (fun other => if other = cell then state.heap cell else state.heap other) =
      state.heap := by
    funext other
    split
    · rename_i isCell
      rw [isCell]
    · rfl
  simp only [write, same]

theorem addCachedSample_eq {cell : Nat}
    (zero : ZeroOutside config.valueOffsets (state.heap cell)) :
    { state with cachedSample := cell }.addCachedSample config =
      ({ state with
          cachedSample := cell
          exported := state.exported ++
            [state.heap cell].filter fun sample => !sample.callstack.isEmpty }, false) := by
  have kept : upscale config.computeUpscaleWeight config.poissonUpscaleProviders
      (state.heap cell) = ⟨state.heap cell, none⟩ :=
    upscale_eq_self zero config.computeUpscaleWeight config.separate
  simp only [addCachedSample]
  split
  · rename_i empty
    simp [empty]
  · rename_i notEmpty
    have unchanged := write_self { state with cachedSample := cell } cell
    simp only [kept]
    rw [unchanged]
    simp [notEmpty]

theorem collectStoredSamples_eq
    (zero : ∀ cell ∈ cells, ZeroOutside config.valueOffsets (state.heap cell)) :
    state.collectStoredSamples config cells =
      { state with
        cachedSample := cells.getLast?.getD state.cachedSample
        exported := state.exported ++
          (cells.map state.heap).filter fun sample => !sample.callstack.isEmpty } := by
  induction cells generalizing state with
  | nil => simp [collectStoredSamples]
  | cons cell rest ih =>
    have first := addCachedSample_eq (zero cell (mem_cons_self ..))
    simp only [collectStoredSamples, first]
    apply (ih ?_).trans
    · have last : rest.getLast?.getD cell = (cell :: rest).getLast?.getD state.cachedSample := by
        simp [getLast?_cons]
      have added : state.exported ++ ([state.heap cell].filter fun sample =>
            !sample.callstack.isEmpty) ++ ((rest.map state.heap).filter fun sample =>
            !sample.callstack.isEmpty) =
          state.exported ++ (((cell :: rest).map state.heap).filter fun sample =>
            !sample.callstack.isEmpty) := by
        rw [append_assoc, ← filter_append]
        rfl
      simp only [last, added]
    · exact fun other mem => zero other (mem_cons_of_mem _ mem)

end Export

@[simp]
theorem liveObjects_snoc (config : Configuration) (events : List Event) (event : Event) :
    liveObjects config (events ++ [event]) =
      track config (liveObjects config events) event := by
  simp [liveObjects]

theorem zeroOutside_track {config : Configuration} {live : List (Nat × Sample)}
    (zero : ∀ entry ∈ live, ZeroOutside config.valueOffsets entry.2) (event : Event) :
    ∀ entry ∈ track config live event, ZeroOutside config.valueOffsets entry.2 := by
  cases event with
  | onAllocation shouldSample handle raw =>
    have built := zeroOutside_buildLiveSample config raw
    unfold track
    dsimp only
    split
    · exact zero
    split
    · split
      · exact zero
      · exact zero
      · rename_i sample isBuilt
        intro entry mem
        rcases mem_append.mp mem with old | new
        · exact zero entry old
        · rw [mem_singleton.mp new]
          rw [isBuilt] at built
          exact built
    · exact zero
  | onGarbageCollectionEnd isAlive =>
    intro entry mem
    exact zero entry (mem_of_mem_filter mem)
  | collect valueOffsets rawSamples => exact zero
  | collectCpu sample => exact zero
  | exportSamples => exact zero

theorem zeroOutside_liveObjects (config : Configuration) (events : List Event) :
    ∀ entry ∈ liveObjects config events, ZeroOutside config.valueOffsets entry.2 := by
  induction events using reverseRecOn with
  | nil => simp [liveObjects]
  | append_singleton events event ih =>
    rw [liveObjects_snoc]
    exact zeroOutside_track ih event

/-- The heap refines the live objects, and all pointers lead to allocated cells. -/
structure Consistent (config : Configuration) (events : List Event) (state : State) :
    Prop where
  intact : Intact config events state
  cached_lt : state.cachedSample < state.next
  kept_lt : ∀ info ∈ state.monitoredObjects, info.sample < state.next

namespace Consistent

variable {config : Configuration} {events : List Event} {state : State}

section

variable (consistent : Consistent config events state)
include consistent

theorem zeroOutside :
    ∀ cell ∈ state.monitoredObjects.map (·.sample),
      ZeroOutside config.valueOffsets (state.heap cell) := by
  intro cell mem
  rcases mem_map.mp mem with ⟨info, monitored, rfl⟩
  apply zeroOutside_liveObjects config events (info.weakHandle, state.heap info.sample)
  rw [← consistent.intact]
  exact mem_map_of_mem monitored

theorem map_heap_eq :
    (state.monitoredObjects.map (·.sample)).map state.heap =
      (liveObjects config events).map Prod.snd := by
  rw [← consistent.intact]
  simp

theorem of_untouched {event : Event} {next : State}
    (sameLive : track config (liveObjects config events) event =
      liveObjects config events)
    (sameMonitored : next.monitoredObjects = state.monitoredObjects)
    (kept : ∀ info ∈ state.monitoredObjects, next.heap info.sample = state.heap info.sample)
    (larger : state.next ≤ next.next) (cached_lt : next.cachedSample < next.next) :
    Consistent config (events ++ [event]) next where
  intact := by
    unfold Intact
    rw [liveObjects_snoc, sameLive, ← consistent.intact, sameMonitored]
    apply map_congr_left
    intro info mem
    rw [kept info mem]
  cached_lt := cached_lt
  kept_lt := by
    intro info mem
    rw [sameMonitored] at mem
    exact Nat.lt_of_lt_of_le (consistent.kept_lt info mem) larger

end

theorem initial (config : Configuration) :
    Consistent config [] (State.initial config.valuesCount) :=
  ⟨rfl, Nat.zero_lt_one, by simp [State.initial]⟩

section

variable (consistent : Consistent config events state)
include consistent

theorem collect {rawSamples : List RawSample}
    (free : CachedSampleFree state (.collect valueOffsets rawSamples)) :
    Consistent config (events ++ [.collect valueOffsets rawSamples])
      (state.collectRawSamples config valueOffsets rawSamples) := by
  have untouched := untouched_collectRawSamples config valueOffsets rawSamples state
  have bound : (state.collectRawSamples config valueOffsets rawSamples).cachedSample <
      (state.collectRawSamples config valueOffsets rawSamples).next := by
    rw [untouched.cachedSample, untouched.next]
    exact consistent.cached_lt
  apply consistent.of_untouched rfl untouched.monitoredObjects _ (Nat.le_of_eq untouched.next.symm)
    bound
  intro info mem
  cases rawSamples with
  | nil => rfl
  | cons raw rest =>
    apply untouched.heap
    intro same
    apply free
    rw [← same]
    exact mem_map_of_mem mem

theorem collectCpu (sample : Option Sample) :
    Consistent config (events ++ [.collectCpu sample])
      (state.collectCpuSample config sample) := by
  cases sample with
  | none =>
    exact consistent.of_untouched rfl rfl (fun _ _ => rfl) (Nat.le_refl _) consistent.cached_lt
  | some sample =>
    have bound := consistent.kept_lt
    have added := untouched_addCachedSample config
      { state.write state.next sample with
        next := state.next + 1
        cachedSample := state.next }
    have result : ∀ info ∈ state.monitoredObjects,
        (state.write state.next sample).heap info.sample = state.heap info.sample := by
      intro info mem
      have distinct := Nat.ne_of_lt (bound info mem)
      simp [write, distinct]
    have collected : Untouched
        { state.write state.next sample with
          next := state.next + 1
          cachedSample := state.next }
        (state.collectCpuSample config (some sample)) := by
      simp only [collectCpuSample, collectStoredSamples]
      split
      · rename_i threw
        rw [threw] at added
        exact added
      · rename_i kept
        rw [kept] at added
        exact added
    refine consistent.of_untouched rfl collected.monitoredObjects ?_ ?_ ?_
    · intro info mem
      exact (collected.heap info.sample (Nat.ne_of_lt (bound info mem))).trans (result info mem)
    · rw [collected.next]
      exact Nat.le_succ _
    · rw [collected.next, collected.cachedSample]
      exact Nat.lt_succ_self _

theorem exportSamples :
    Consistent config (events ++ [.exportSamples])
      (state.collectStoredSamples config (state.monitoredObjects.map (·.sample))) := by
  rw [collectStoredSamples_eq consistent.zeroOutside]
  refine consistent.of_untouched rfl rfl (fun _ _ => rfl) (Nat.le_refl _) ?_
  cases last : (state.monitoredObjects.map (·.sample)).getLast? with
  | none => exact consistent.cached_lt
  | some cell =>
    rcases mem_map.mp (mem_of_getLast? last) with ⟨info, mem, rfl⟩
    exact consistent.kept_lt info mem

theorem onAllocation (shouldSample : Bool) (handle : Option Nat) (raw : RawAllocationSample) :
    Consistent config (events ++ [.onAllocation shouldSample handle raw])
      (state.onAllocation config shouldSample handle raw) := by
  have sameLength : (liveObjects config events).length = state.monitoredObjects.length := by
    rw [← consistent.intact, length_map]
  have unchanged : track config (liveObjects config events)
        (.onAllocation shouldSample handle raw) = liveObjects config events →
      Consistent config (events ++ [.onAllocation shouldSample handle raw]) state :=
    fun same => consistent.of_untouched same rfl (fun _ _ => rfl) (Nat.le_refl _)
      consistent.cached_lt
  unfold State.onAllocation
  split
  · rename_i skipped
    exact unchanged (by simp [track, skipped])
  rename_i sampled
  split
  · rename_i room
    split
    · exact unchanged (by simp [track])
    · rename_i built
      exact unchanged (by simp [track, built])
    · rename_i handle sample built
      have added : track config (liveObjects config events)
          (.onAllocation shouldSample (some handle) raw) =
          liveObjects config events ++ [(handle, sample)] := by
        simp only [track, if_neg sampled, sameLength, if_pos room, built]
      have kept : ∀ info ∈ state.monitoredObjects,
          (state.write state.next sample).heap info.sample = state.heap info.sample := by
        intro info mem
        have distinct := Nat.ne_of_lt (consistent.kept_lt info mem)
        simp [State.write, distinct]
      refine ⟨?_, Nat.lt_succ_of_lt consistent.cached_lt, ?_⟩
      · unfold Intact
        rw [liveObjects_snoc, added, ← consistent.intact, map_append]
        congr 1
        · apply map_congr_left
          intro info mem
          exact congrArg (Prod.mk info.weakHandle) (kept info mem)
        · simp [State.write]
      · intro info mem
        rcases mem_append.mp mem with old | new
        · exact Nat.lt_succ_of_lt (consistent.kept_lt info old)
        · rw [mem_singleton.mp new]
          exact Nat.lt_succ_self _
  · rename_i full
    exact unchanged (by simp only [track, sameLength, if_neg sampled, if_neg full])

theorem onGarbageCollectionEnd (isAlive : Nat → Bool) :
    Consistent config (events ++ [.onGarbageCollectionEnd isAlive])
      (state.onGarbageCollectionEnd isAlive) := by
  refine ⟨?_, consistent.cached_lt, ?_⟩
  · unfold Intact
    rw [liveObjects_snoc, ← consistent.intact]
    simp only [track, State.onGarbageCollectionEnd, map_map, filter_map]
    rfl
  · intro info mem
    rcases mem_map.mp mem with ⟨old, kept, rfl⟩
    exact consistent.kept_lt old (mem_of_mem_filter kept)

theorem step {event : Event} (free : CachedSampleFree state event) :
    Consistent config (events ++ [event]) (state.step config event) := by
  cases event with
  | collect valueOffsets rawSamples => exact consistent.collect free
  | collectCpu sample => exact consistent.collectCpu sample
  | exportSamples => exact consistent.exportSamples
  | onAllocation shouldSample handle raw => exact consistent.onAllocation shouldSample handle raw
  | onGarbageCollectionEnd isAlive => exact consistent.onGarbageCollectionEnd isAlive

end

theorem of_run
    (run : ((system config).restrict CachedSampleFree).Run (system config).init
      events state) :
    Consistent config events state := by
  apply System.Run.history_invariant (Consistent config) (initial config) _ run
  rintro events state event next consistent ⟨free, taken⟩
  cases taken
  exact consistent.step free

end Consistent

/--
As long as no raw sample is collected into the cell of a live object, every live
object keeps the sample built for it, and an export at any moment hands exactly
these samples to the exporter.
-/
theorem live_samples_intact (config : Configuration) {events : List Event} {state : State}
    (run : ((system config).restrict CachedSampleFree).Run (system config).init
      events state) :
    Intact config events state ∧
      (state.step config .exportSamples).exported =
        state.exported ++ owed (liveObjects config events) := by
  have consistent := Consistent.of_run run
  refine ⟨consistent.intact, ?_⟩
  simp only [step]
  rw [collectStoredSamples_eq consistent.zeroOutside, consistent.map_heap_eq, owed]

def twoProviders : Configuration where
  valuesCount := 16
  stores := ⟨fun _ => none, fun instructionPointer => some ⟨"app", "main", "", instructionPointer⟩⟩
  countOffset := 2
  sizeOffset := 3
  heapHandleLimit := 100
  liveUpscaleWeight := fun _ => none
  computeUpscaleWeight := fun _ _ => none
  poissonUpscaleProviders := [⟨[0, 1], 102400, 1⟩]
  separate := by simp

def oneAllocation : Event :=
  .onAllocation true (some 11) ⟨7, 0, ⟨0, 0, 0⟩, [], [5], "System.String", 64, 4096⟩

def oneWallTimeSample : Event :=
  .collect [4] [⟨9, 0, ⟨0, 0, 0⟩, [], [6], fun offsets sample =>
    sample.addValue 1000 (offsets.getD 0 0)⟩]

theorem live_samples_intact_before_export :
    let state := ((initial 16).step twoProviders oneAllocation).step twoProviders oneWallTimeSample
    Intact twoProviders [oneAllocation, oneWallTimeSample] state ∧
      (state.step twoProviders .exportSamples).exported = state.exported ++
        owed (liveObjects twoProviders [oneAllocation, oneWallTimeSample]) :=
  live_samples_intact twoProviders
    (.cons ⟨trivial, rfl⟩ (.single ⟨by
      change 0 ∉ [1]
      decide, rfl⟩))

/-- A wall time sample collected after an export replaces the sample of the live object. -/
theorem live_sample_overwritten :
    ∃ state, (system twoProviders).Run (initial 16)
        [oneAllocation, .exportSamples, oneWallTimeSample] state ∧
      state.cachedSample ∈ state.monitoredObjects.map (·.sample) ∧
      ¬ Intact twoProviders [oneAllocation, .exportSamples, oneWallTimeSample] state := by
  refine ⟨(((initial 16).step twoProviders oneAllocation).step twoProviders
    .exportSamples).step twoProviders oneWallTimeSample,
    .cons rfl (.cons rfl (.single rfl)), by decide, ?_⟩
  intro intact
  have timestamps := congrArg (map fun entry : Nat × Sample => entry.2.timestamp) intact
  revert timestamps
  decide

end Pyroscope.Samples
