import Pyroscope.Labels.Scopes
import Pyroscope.Samples.LiveObjects

/-!
# From the tags of a thread to the labels of its samples

A raw sample holds a copy of the values of the thread's tags, except for allocation ticks, and for
the sampler loop when CI visibility is enabled.
-/

namespace Pyroscope.Samples

open Labels Transition Function

structure Walk where
  /-- The frames, unless the walk is given up before it looks at the thread. -/
  frames : Option (List Nat)
  tracingContext : TraceContext
  timestamp : Int
  appDomainId : Nat

structure Snapshot where
  callstack : List Nat
  traceContext : TraceContext
  tags : Nat → Option String

def Snapshot.reset : Snapshot := ⟨[], ⟨0, 0, 0⟩, fun _ => none⟩

/-- `ciVisibility` says whether that mode is enabled with a span id. -/
def tryApplyTraceContextData (ciVisibility : Bool) (tags : Tags) (walk : Walk)
    (snapshot : Snapshot) : Snapshot :=
  if ciVisibility then snapshot
  else { snapshot with tags := tags.values, traceContext := walk.tracingContext }

def collectStackSample (ciVisibility : Bool) (tags : Tags) (walk : Walk) : Snapshot :=
  match walk.frames with
  | none => .reset
  | some frames =>
    { tryApplyTraceContextData ciVisibility tags walk .reset with callstack := frames }

structure CollectedSample where
  raw : RawSample
  tags : Nat → Option String

/-- The calls of `AddValue` by which `OnTransform` sets the values of a sample. -/
def addValues : List (Int × Nat) → Sample → Mutation
  | [], sample => ⟨sample, none⟩
  | entry :: rest, sample =>
    let added := sample.addValue entry.1 entry.2
    match added.exception with
    | some text => ⟨added.sample, some text⟩
    | none => addValues rest added.sample

inductive ProfilingType where
  | wallTime
  | cpuTime
  deriving DecidableEq

def ProfilingType.onTransform (duration : Int) (valueOffsets : List Nat) :
    ProfilingType → Sample → Mutation
  | wallTime => addValues [(duration, valueOffsets.getD 0 0)]
  | cpuTime => addValues [(duration, valueOffsets.getD 0 0), (1, valueOffsets.getD 1 0)]

def persistStackSnapshotResults (profilingType : ProfilingType) (duration : Int) (walk : Walk)
    (snapshot : Snapshot) : Option CollectedSample :=
  if snapshot.callstack = [] then none
  else
    some {
      raw :=
        { timestamp := walk.timestamp
          appDomainId := walk.appDomainId
          traceContext := snapshot.traceContext
          tags := []
          stack := snapshot.callstack
          onTransform := fun valueOffsets => profilingType.onTransform duration valueOffsets }
      tags := snapshot.tags }

def collectOnTimer (tags : Tags) (samplingInterval : Int) (walk : Walk) : Option CollectedSample :=
  match walk.frames with
  | none => none
  | some [] => none
  | some frames =>
    some {
      raw :=
        { timestamp := walk.timestamp
          appDomainId := walk.appDomainId
          traceContext := walk.tracingContext
          tags := []
          stack := frames
          onTransform := fun valueOffsets =>
            ProfilingType.cpuTime.onTransform samplingInterval valueOffsets }
      tags := tags.values }

structure Allocation where
  isSampled : Bool
  /-- Empty unless types are added as leaves. -/
  allocationClass : String
  objectSize : Int
  address : Nat

/-- What the two handlers of allocation events put into a raw sample alike. -/
def Allocation.toRawSample (allocation : Allocation) (walk : Walk) (snapshot : Snapshot) :
    RawSample :=
  RawAllocationSample.toRawSample
    { timestamp := walk.timestamp
      appDomainId := walk.appDomainId
      traceContext := snapshot.traceContext
      tags := []
      stack := snapshot.callstack
      allocationClass := allocation.allocationClass
      allocationSize := allocation.objectSize
      address := allocation.address }

/-- The check which makes a handler give up after a failed walk, and count it. -/
def reportsFailure (failureCount : Nat) (snapshot : Snapshot) : Bool :=
  snapshot.callstack = [] ∧ failureCount % 100 = 0

def onAllocation (failureCount : Nat) (allocation : Allocation) (walk : Walk)
    (snapshot : Snapshot) : Option CollectedSample :=
  if !allocation.isSampled ∨ reportsFailure failureCount snapshot then none
  else some ⟨allocation.toRawSample walk snapshot, fun _ => none⟩

def onAllocationSampled (failureCount : Nat) (tags : Tags) (allocation : Allocation) (walk : Walk)
    (snapshot : Snapshot) : Option CollectedSample :=
  if !allocation.isSampled ∨ reportsFailure failureCount snapshot then none
  else some ⟨allocation.toRawSample walk snapshot, tags.values⟩

def addContentionSample (isSampled : Bool) (tags : Tags) (contentionDuration : Int) (walk : Walk)
    (snapshot : Snapshot) : Option CollectedSample :=
  if !isSampled ∨ snapshot.callstack = [] then none
  else
    some {
      raw :=
        { timestamp := walk.timestamp
          appDomainId := walk.appDomainId
          traceContext := snapshot.traceContext
          tags := []
          stack := snapshot.callstack
          onTransform := fun valueOffsets => addValues
            [(1, valueOffsets.getD 0 0), (contentionDuration, valueOffsets.getD 1 0)] }
      tags := tags.values }

def onExceptionThrown (failureCount : Nat) (isSampled : Bool) (tags : Tags) (walk : Walk)
    (snapshot : Snapshot) : Option CollectedSample :=
  if !isSampled ∨ reportsFailure failureCount snapshot then none
  else
    some {
      raw :=
        { timestamp := walk.timestamp
          appDomainId := walk.appDomainId
          traceContext := snapshot.traceContext
          tags := []
          stack := snapshot.callstack
          onTransform := fun valueOffsets => addValues [(1, valueOffsets.getD 0 0)] }
      tags := tags.values }

inductive Provider where
  | wallTime
  | cpuTime
  | allocations
  | contention
  | exceptions
  deriving DecidableEq

inductive FailureSite where
  | allocation
  | allocationSampled
  | exceptionThrown
  deriving DecidableEq

inductive Occurrence where
  | sampled (profilingType : ProfilingType) (duration : Int)
  | timer (samplingInterval : Int)
  | allocationTick (allocation : Allocation)
  | allocationSampled (allocation : Allocation)
  | contention (isSampled : Bool) (duration : Int)
  | exceptionThrown (isSampled : Bool)

namespace Occurrence

def provider : Occurrence → Provider
  | sampled .wallTime _ => .wallTime
  | sampled .cpuTime _ => .cpuTime
  | timer _ => .cpuTime
  | allocationTick _ => .allocations
  | allocationSampled _ => .allocations
  | contention _ _ => .contention
  | exceptionThrown _ => .exceptions

/-- Where a failed walk is counted; the samplers drop it before the stack is walked. -/
def failureSite : Occurrence → Option FailureSite
  | allocationTick allocation => if allocation.isSampled then some .allocation else none
  | allocationSampled allocation => if allocation.isSampled then some .allocationSampled else none
  | exceptionThrown isSampled => if isSampled then some .exceptionThrown else none
  | _ => none

def record (ciVisibility : Bool) (failureCount : FailureSite → Nat) (tags : Tags) (walk : Walk)
    (occurrence : Occurrence) : Option CollectedSample :=
  let snapshot := collectStackSample ciVisibility tags walk
  match occurrence with
  | sampled profilingType duration =>
    persistStackSnapshotResults profilingType duration walk snapshot
  | timer samplingInterval => collectOnTimer tags samplingInterval walk
  | allocationTick allocation =>
    onAllocation (failureCount .allocation) allocation walk snapshot
  | allocationSampled allocation =>
    onAllocationSampled (failureCount .allocationSampled) tags allocation walk snapshot
  | contention isSampled duration => addContentionSample isSampled tags duration walk snapshot
  | exceptionThrown isSampled =>
    onExceptionThrown (failureCount .exceptionThrown) isSampled tags walk snapshot

def countFailure (ciVisibility : Bool) (failureCount : FailureSite → Nat) (tags : Tags)
    (walk : Walk) (occurrence : Occurrence) : FailureSite → Nat :=
  match occurrence.failureSite with
  | none => failureCount
  | some site =>
    if reportsFailure (failureCount site) (collectStackSample ciVisibility tags walk) then
      update failureCount site (failureCount site + 1)
    else failureCount

end Occurrence

/-- A collected sample with the tags in force when its stack was collected. -/
structure QueuedSample where
  collected : CollectedSample
  inForce : String → Option String

/-- The argument of `Transform`: `GetAll` is called there. -/
def QueuedSample.toRawSample (keys : List String) (queued : QueuedSample) : RawSample :=
  { queued.collected.raw with tags := Tags.getAll keys queued.collected.tags }

structure ProducedSample where
  sample : Sample
  inForce : String → Option String

/-- The profiler as far as one thread is concerned; `inForce` is what its tags stand for. -/
structure Recording where
  tags : Tags
  inForce : String → Option String
  failureCount : FailureSite → Nat
  queues : Provider → List QueuedSample
  cachedSample : Sample
  samples : List ProducedSample

structure RecordingConfiguration where
  valuesCount : Nat
  ciVisibility : Bool
  stores : Stores
  valueOffsets : Provider → List Nat
  /-- The offsets of the live objects profiler, which listens to allocations if it is enabled. -/
  listener : Option (List Nat)

inductive RecordingEvent where
  | setDynamicTag (key value : String)
  | clearDynamicTags
  | occur (occurrence : Occurrence) (walk : Walk)
  | getSamples (provider : Provider)

namespace Recording

def initial (valuesCount : Nat) : Recording where
  tags := .empty
  inForce _ := none
  failureCount _ := 0
  queues _ := []
  cachedSample := .create valuesCount 0 ""
  samples := []

/-- The enumeration of raw samples; an exception ends it. -/
def transformAll (stores : Stores) (valueOffsets : List Nat) (keys : List String) :
    List QueuedSample → Sample → List ProducedSample × Sample
  | [], cached => ([], cached)
  | queued :: rest, cached =>
    let transformed := transform stores (queued.toRawSample keys) valueOffsets cached
    match transformed.exception with
    | some _ => ([], transformed.sample)
    | none =>
      let others := transformAll stores valueOffsets keys rest transformed.sample
      (⟨transformed.sample, queued.inForce⟩ :: others.1, others.2)

def listen (config : RecordingConfiguration) (keys : List String) (provider : Provider)
    (queued : QueuedSample) : List ProducedSample :=
  match provider, config.listener with
  | .allocations, some valueOffsets =>
    let raw := queued.toRawSample keys
    let transformed := transform config.stores raw valueOffsets
      (.create config.valuesCount raw.timestamp "")
    match transformed.exception with
    | some _ => []
    | none => [⟨transformed.sample, queued.inForce⟩]
  | _, _ => []

def step (config : RecordingConfiguration) (recording : Recording) :
    RecordingEvent → Recording
  | .setDynamicTag key value =>
    { recording with
      tags := recording.tags.set key value
      inForce := update recording.inForce key (some value) }
  | .clearDynamicTags =>
    { recording with tags := recording.tags.clearAll, inForce := fun _ => none }
  | .occur occurrence walk =>
    let counted := { recording with
      failureCount := occurrence.countFailure config.ciVisibility
        recording.failureCount recording.tags walk }
    match occurrence.record config.ciVisibility recording.failureCount recording.tags
        walk with
    | none => counted
    | some collected =>
      let queued := ⟨collected, recording.inForce⟩
      let provider := occurrence.provider
      { counted with
        queues := update recording.queues provider (recording.queues provider ++ [queued])
        samples := recording.samples ++ listen config recording.tags.keys provider queued }
  | .getSamples provider =>
    let transformed := transformAll config.stores (config.valueOffsets provider)
      recording.tags.keys (recording.queues provider) recording.cachedSample
    { recording with
      queues := update recording.queues provider []
      cachedSample := transformed.2
      samples := recording.samples ++ transformed.1 }

end Recording

def recordingSystem (config : RecordingConfiguration) : System Recording RecordingEvent :=
  .ofFunction (.initial config.valuesCount) fun recording event =>
    some (recording.step config event)

/-! ## Samples carry the tags of their thread -/

open Recording List

structure Carries (labels : List (String × LabelValue)) (inForce : String → Option String) :
    Prop where
  nodup : (labels.map Prod.fst).Nodup
  exact : ∀ key label, (key, label) ∈ labels ↔
    ∃ value, label = .string value ∧ inForce key = some value

/-- The events whose handlers do not take the tags of the thread along. -/
def Occurrence.leavesTagsOut (ciVisibility : Bool) : Occurrence → Bool
  | sampled _ _ => ciVisibility
  | allocationTick _ => true
  | _ => false

/-- Such an event finds no tags in force, and the keys of all tags are among the allowed ones. -/
def Recording.Keeps (config : RecordingConfiguration) (allowed : List String)
    (recording : Recording) : RecordingEvent → Prop
  | .setDynamicTag key _ => key ∈ allowed
  | .occur occurrence _ =>
    occurrence.leavesTagsOut config.ciVisibility = true → ∀ key, recording.inForce key = none
  | _ => True

/-- The values stand for the tags, under the keys of the process. -/
structure Represents (keys : List String) (values : Nat → Option String)
    (inForce : String → Option String) : Prop where
  bounded : ∀ index, values index ≠ none → index < keys.length
  exact : ∀ index key, keys[index]? = some key → values index = inForce key
  known : ∀ key, inForce key ≠ none → key ∈ keys

namespace Represents

variable {keys : List String} {values : Nat → Option String} {inForce : String → Option String}
  {tags : Tags} {key value : String}

theorem clear (keys : List String) : Represents keys (fun _ => none) fun _ => none := by
  constructor
  · intro index present
    exact absurd rfl present
  · intro index key _
    rfl
  · intro key present
    exact absurd rfl present

theorem append (represents : Represents keys values inForce) (new : key ∉ keys) :
    Represents (keys ++ [key]) values inForce := by
  constructor
  · intro index present
    have inside := represents.bounded index present
    rw [length_append]
    omega
  · intro index other atIndex
    by_cases inside : index < keys.length
    · rw [getElem?_append_left inside] at atIndex
      exact represents.exact index other atIndex
    · have noValue : values index = none := by
        by_contra present
        exact inside (represents.bounded index present)
      rw [getElem?_append_right (by omega)] at atIndex
      have same : other = key := by
        have isLast := mem_of_getElem? atIndex
        simpa using isLast
      subst same
      by_contra different
      apply new
      apply represents.known
      intro absent
      exact different (noValue.trans absent.symm)
  · intro other present
    exact mem_append_left _ (represents.known other present)

theorem registerKey (represents : Represents tags.keys values inForce) (key : String) :
    Represents (tags.registerKey key).keys values inForce := by
  by_cases isKey : key ∈ tags.keys
  · simpa [Tags.registerKey, isKey] using represents
  · rcases Tags.keys_registerKey tags key with ⟨same, _⟩ | extended
    · rw [same]
      exact represents
    · rw [extended]
      exact represents.append isKey

theorem setValue (represents : Represents tags.keys tags.values inForce)
    (registered : key ∈ tags.keys) (value : String) :
    Represents (tags.setValue key value).keys (tags.setValue key value).values
      (update inForce key (some value)) := by
  constructor
  · intro index present
    by_cases same : index = tags.keys.idxOf key
    · rw [same]
      exact idxOf_lt_length_of_mem registered
    · apply represents.bounded
      simpa [Tags.setValue, update_of_ne same] using present
  · intro index name atIndex
    rw [Tags.keys_setValue] at atIndex
    by_cases same : name = key
    · subst same
      have place : tags.keys.idxOf name = index := by
        rcases List.getElem?_eq_some_iff.mp atIndex with ⟨inside, rfl⟩
        exact tags.distinct.idxOf_getElem index inside
      simp [Tags.setValue, place]
    · have apart : index ≠ tags.keys.idxOf key := by
        rintro rfl
        rw [getElem?_idxOf registered, Option.some.injEq] at atIndex
        exact same atIndex.symm
      simp only [Tags.setValue, update_of_ne apart, update_of_ne same]
      exact represents.exact index name atIndex
  · intro name present
    by_cases same : name = key
    · rw [same]
      exact registered
    · apply represents.known
      simpa [same] using present

theorem set (represents : Represents tags.keys tags.values inForce)
    (registered : key ∈ (tags.registerKey key).keys) (value : String) :
    Represents (tags.set key value).keys (tags.set key value).values
      (update inForce key (some value)) := by
  have before : Represents (tags.registerKey key).keys (tags.registerKey key).values inForce := by
    rw [Tags.values_registerKey]
    exact represents.registerKey key
  simp only [Tags.set, if_pos registered]
  exact before.setValue registered value

theorem mem_getAll (represents : Represents keys values inForce) :
    (key, value) ∈ Tags.getAll keys values ↔ inForce key = some value := by
  simp only [Tags.getAll, mem_filterMap, Option.map_eq_some_iff, Prod.mk.injEq, Prod.exists]
  constructor
  · rintro ⟨name, index, isEntry, found, present, rfl, rfl⟩
    have atIndex := mem_zipIdx_iff_getElem?.mp isEntry
    rw [← represents.exact index name atIndex]
    exact present
  · intro inForceKey
    have isKey := represents.known key (by simp [inForceKey])
    rcases getElem?_of_mem isKey with ⟨index, atIndex⟩
    refine ⟨key, index, mem_zipIdx_iff_getElem?.mpr atIndex, value, ?_, rfl, rfl⟩
    rw [represents.exact index key atIndex]
    exact inForceKey

end Represents

section Transformation

theorem keys_getAll_sublist (keys : List String) (values : Nat → Option String) :
    ((Tags.getAll keys values).map Prod.fst).Sublist keys := by
  have entries : ∀ entries : List (String × Nat),
      ((entries.filterMap fun entry =>
        (values entry.2).map fun value => (entry.1, value)).map Prod.fst).Sublist
        (entries.map Prod.fst) := by
    intro entries
    induction entries with
    | nil => simp
    | cons entry rest ih =>
      cases present : values entry.2 with
      | none => simpa [present] using ih.cons entry.1
      | some value => simpa [present] using ih
  simpa [Tags.getAll] using entries keys.zipIdx

theorem carries_getAll {keys : List String} {values : Nat → Option String}
    {inForce : String → Option String} (represents : Represents keys values inForce)
    (distinct : keys.Nodup) :
    Carries ((Tags.getAll keys values).map fun tag => (tag.1, .string tag.2)) inForce := by
  constructor
  · rw [map_map]
    exact (keys_getAll_sublist keys values).nodup distinct
  · intro key label
    simp only [mem_map, Prod.mk.injEq, Prod.exists]
    constructor
    · rintro ⟨name, value, isTag, rfl, rfl⟩
      exact ⟨value, rfl, represents.mem_getAll.mp isTag⟩
    · rintro ⟨value, rfl, inForceKey⟩
      exact ⟨key, value, represents.mem_getAll.mpr inForceKey, rfl, rfl⟩

/-- `OnTransform` sets values and the leaf frame only. -/
def KeepsLabels (raw : RawSample) : Prop :=
  ∀ valueOffsets sample, (raw.onTransform valueOffsets sample).sample.allLabels = sample.allLabels

theorem allLabels_addValue (sample : Sample) (value : Int) (index : Nat) :
    (sample.addValue value index).sample.allLabels = sample.allLabels := by
  unfold Sample.addValue
  split <;> rfl

theorem allLabels_addValues (entries : List (Int × Nat)) (sample : Sample) :
    (addValues entries sample).sample.allLabels = sample.allLabels := by
  induction entries generalizing sample with
  | nil => rfl
  | cons entry rest ih =>
    simp only [addValues]
    split
    · exact allLabels_addValue sample entry.1 entry.2
    · rw [ih]
      exact allLabels_addValue sample entry.1 entry.2

theorem allLabels_onTransform (profilingType : ProfilingType) (duration : Int)
    (valueOffsets : List Nat) (sample : Sample) :
    (profilingType.onTransform duration valueOffsets sample).sample.allLabels =
      sample.allLabels := by
  cases profilingType <;> exact allLabels_addValues _ sample

theorem keepsLabels_allocation (raw : RawAllocationSample) : KeepsLabels raw.toRawSample := by
  intro valueOffsets sample
  simp only [RawAllocationSample.toRawSample, RawAllocationSample.onTransform]
  split
  · exact allLabels_addValue sample _ _
  · split
    · split
      · rw [allLabels_addValue, allLabels_addValue]
      · simp only [Sample.setLeafFrame, allLabels_addValue]
    · simp only [Sample.setLeafFrame, allLabels_addValue]

theorem allLabels_setStack (stores : Stores) (stack : List Nat) (sample : Sample) :
    (setStack stores stack sample).allLabels = sample.allLabels := by
  unfold setStack
  induction stack generalizing sample with
  | nil => rfl
  | cons instructionPointer rest ih =>
    rw [foldl_cons, ih]
    split <;> rfl

theorem allLabels_foldl_addLabel (tags : List (String × String)) (sample : Sample) :
    (tags.foldl (fun sample tag => sample.addLabel (tag.1, .string tag.2)) sample).allLabels =
      sample.allLabels ++ tags.map fun tag => (tag.1, .string tag.2) := by
  induction tags generalizing sample with
  | nil => simp
  | cons tag rest ih =>
    rw [foldl_cons, ih]
    simp [Sample.addLabel]

theorem allLabels_transform (stores : Stores) {raw : RawSample} (keeps : KeepsLabels raw)
    (valueOffsets : List Nat) (sample : Sample) :
    (transform stores raw valueOffsets sample).sample.allLabels =
      raw.tags.map fun tag => (tag.1, .string tag.2) := by
  simp only [transform, keeps valueOffsets, allLabels_setStack, allLabels_foldl_addLabel]
  rfl

end Transformation

section Recording

variable {config : RecordingConfiguration} {allowed keys : List String}
  {recording : Recording} {ciVisibility : Bool} {failureCount : FailureSite → Nat} {tags : Tags}
  {walk : Walk} {occurrence : Occurrence} {collected : CollectedSample} {queued : QueuedSample}
  {key : String}

/-- The collector fills the snapshot before it walks the stack, except for CI visibility. -/
theorem tags_collectStackSample
    (walked : (collectStackSample ciVisibility tags walk).callstack ≠ []) :
    (collectStackSample ciVisibility tags walk).tags =
      if ciVisibility then fun _ => none else tags.values := by
  unfold collectStackSample at walked ⊢
  cases found : walk.frames with
  | none => simp [found, Snapshot.reset] at walked
  | some frames => cases ciVisibility <;> rfl

/-- The sample has the tags of its thread and keeps its labels. -/
structure Recorded (ciVisibility : Bool) (tags : Tags) (occurrence : Occurrence)
    (collected : CollectedSample) : Prop where
  tags : collected.tags =
    if occurrence.leavesTagsOut ciVisibility then fun _ => none else tags.values
  keepsLabels : KeepsLabels collected.raw

theorem recorded_of_record
    (recorded : occurrence.record ciVisibility failureCount tags walk = some collected) :
    Recorded ciVisibility tags occurrence collected := by
  cases occurrence with
  | sampled profilingType duration =>
    simp only [Occurrence.record, persistStackSnapshotResults] at recorded
    split at recorded <;> cases recorded
    rename_i walked
    exact ⟨tags_collectStackSample walked,
      fun _ sample => allLabels_onTransform profilingType duration _ sample⟩
  | timer samplingInterval =>
    simp only [Occurrence.record, collectOnTimer] at recorded
    split at recorded <;> cases recorded
    exact ⟨rfl, fun _ sample => allLabels_onTransform .cpuTime samplingInterval _ sample⟩
  | allocationTick allocation =>
    simp only [Occurrence.record, onAllocation] at recorded
    split at recorded <;> cases recorded
    exact ⟨rfl, keepsLabels_allocation _⟩
  | allocationSampled allocation =>
    simp only [Occurrence.record, onAllocationSampled] at recorded
    split at recorded <;> cases recorded
    exact ⟨rfl, keepsLabels_allocation _⟩
  | contention isSampled duration =>
    simp only [Occurrence.record, addContentionSample] at recorded
    split at recorded <;> cases recorded
    exact ⟨rfl, fun _ sample => allLabels_addValues _ sample⟩
  | exceptionThrown isSampled =>
    simp only [Occurrence.record, onExceptionThrown] at recorded
    split at recorded <;> cases recorded
    exact ⟨rfl, fun _ sample => allLabels_addValues _ sample⟩

/-- A sample in a queue which will carry the tags it was collected with. -/
structure QueuedSample.Faithful (keys : List String) (queued : QueuedSample) : Prop where
  represents : Represents keys queued.collected.tags queued.inForce
  keepsLabels : KeepsLabels queued.collected.raw

theorem QueuedSample.Faithful.carries (faithful : queued.Faithful keys) (distinct : keys.Nodup)
    (stores : Stores) (valueOffsets : List Nat) (sample : Sample) :
    Carries (transform stores (queued.toRawSample keys) valueOffsets sample).sample.allLabels
      queued.inForce := by
  have keeps : KeepsLabels (queued.toRawSample keys) := faithful.keepsLabels
  rw [allLabels_transform stores keeps]
  exact carries_getAll faithful.represents distinct

theorem carries_transformAll {queue : List QueuedSample}
    (faithful : ∀ queued ∈ queue, queued.Faithful keys) (distinct : keys.Nodup)
    (stores : Stores) (valueOffsets : List Nat) (cached : Sample) :
    ∀ produced ∈ (transformAll stores valueOffsets keys queue cached).1,
      Carries produced.sample.allLabels produced.inForce := by
  induction queue generalizing cached with
  | nil => simp [transformAll]
  | cons queued rest ih =>
    have first := faithful queued (mem_cons_self ..)
    have others := fun other isOther => faithful other (mem_cons_of_mem _ isOther)
    intro produced isProduced
    simp only [transformAll] at isProduced
    split at isProduced
    · simp at isProduced
    · rcases mem_cons.mp isProduced with rfl | later
      · exact first.carries distinct stores valueOffsets cached
      · exact ih others _ produced later

theorem carries_listen (faithful : queued.Faithful keys) (distinct : keys.Nodup)
    (config : RecordingConfiguration) (provider : Provider) :
    ∀ produced ∈ Recording.listen config keys provider queued,
      Carries produced.sample.allLabels produced.inForce := by
  intro produced isProduced
  simp only [Recording.listen] at isProduced
  split at isProduced
  · split at isProduced
    · simp at isProduced
    · rw [mem_singleton.mp isProduced]
      exact faithful.carries distinct _ _ _
  · simp at isProduced

/-- The thread, the queues and the samples agree on what the tags are. -/
structure Tracks (allowed : List String) (recording : Recording) : Prop where
  thread : Represents recording.tags.keys recording.tags.values recording.inForce
  keys : recording.tags.keys ⊆ allowed
  queued : ∀ provider, ∀ queued ∈ recording.queues provider, queued.Faithful recording.tags.keys
  produced : ∀ produced ∈ recording.samples, Carries produced.sample.allLabels produced.inForce

theorem mem_keys_registerKey (fits : allowed.length ≤ kMaxNumTags) (among : tags.keys ⊆ allowed)
    (isAllowed : key ∈ allowed) :
    key ∈ (tags.registerKey key).keys := by
  rcases Tags.keys_registerKey tags key with ⟨same, isKey | full⟩ | extended
  · rw [same]
    exact isKey
  · by_contra missing
    rw [same] at missing
    have distinct : (key :: tags.keys).Nodup := nodup_cons.mpr ⟨missing, tags.distinct⟩
    have inAllowed : key :: tags.keys ⊆ allowed := cons_subset.mpr ⟨isAllowed, among⟩
    have longer := distinct.length_le_of_subset inAllowed
    simp only [Tags.Full, length_cons] at full longer
    omega
  · rw [extended]
    simp

theorem keys_registerKey_subset (among : tags.keys ⊆ allowed) (isAllowed : key ∈ allowed) :
    (tags.registerKey key).keys ⊆ allowed := by
  rcases Tags.keys_registerKey tags key with ⟨same, _⟩ | extended
  · rw [same]
    exact among
  · rw [extended]
    exact append_subset.mpr ⟨among, by simpa using isAllowed⟩

namespace Tracks

theorem initial (valuesCount : Nat) : Tracks allowed (.initial valuesCount) :=
  ⟨.clear _, nil_subset _, by simp [Recording.initial], by simp [Recording.initial]⟩

variable (tracks : Tracks allowed recording)
include tracks

theorem setDynamicTag (fits : allowed.length ≤ kMaxNumTags) (isAllowed : key ∈ allowed)
    (value : String) :
    Tracks allowed (recording.step config (.setDynamicTag key value)) := by
  constructor
  · exact tracks.thread.set (mem_keys_registerKey fits tracks.keys isAllowed) value
  · simpa [step] using keys_registerKey_subset tracks.keys isAllowed
  · intro provider queued waits
    have faithful := tracks.queued provider queued waits
    refine ⟨?_, faithful.keepsLabels⟩
    simpa [step] using faithful.represents.registerKey key
  · exact tracks.produced

theorem clearDynamicTags : Tracks allowed (recording.step config .clearDynamicTags) :=
  ⟨.clear _, tracks.keys, tracks.queued, tracks.produced⟩

theorem occur (keeps : recording.Keeps config allowed (.occur occurrence walk)) :
    Tracks allowed (recording.step config (.occur occurrence walk)) := by
  simp only [step]
  split
  case h_1 => exact ⟨tracks.thread, tracks.keys, tracks.queued, tracks.produced⟩
  case h_2 collected isRecorded =>
    have recorded := recorded_of_record isRecorded
    have faithful : QueuedSample.Faithful recording.tags.keys ⟨collected, recording.inForce⟩ := by
      refine ⟨?_, recorded.keepsLabels⟩
      simp only [recorded.tags]
      split
      case isTrue leftOut =>
        -- The copy is empty, and so are the tags.
        have empty : recording.inForce = fun _ => none := funext (keeps leftOut)
        rw [empty]
        exact .clear _
      case isFalse => exact tracks.thread
    constructor
    · exact tracks.thread
    · exact tracks.keys
    · intro provider queued waits
      by_cases same : provider = occurrence.provider
      · subst same
        simp only [update_self, mem_append, mem_singleton] at waits
        rcases waits with before | rfl
        · exact tracks.queued _ queued before
        · exact faithful
      · simp only [update_of_ne same] at waits
        exact tracks.queued provider queued waits
    · intro produced isProduced
      rcases mem_append.mp isProduced with before | heard
      · exact tracks.produced produced before
      · exact carries_listen faithful recording.tags.distinct config _ produced heard

theorem getSamples (provider : Provider) :
    Tracks allowed (recording.step config (.getSamples provider)) := by
  constructor
  · exact tracks.thread
  · exact tracks.keys
  · intro other queued waits
    by_cases same : other = provider
    · simp [step, same] at waits
    · simp only [step, update_of_ne same] at waits
      exact tracks.queued other queued waits
  · intro produced isProduced
    rcases mem_append.mp isProduced with before | transformed
    · exact tracks.produced produced before
    · exact carries_transformAll (tracks.queued provider) recording.tags.distinct _ _ _
        produced transformed

end Tracks

theorem samples_carry_tags (fits : allowed.length ≤ kMaxNumTags) {events : List RecordingEvent}
    (run : ((recordingSystem config).restrict
      (Recording.Keeps config allowed)).Run (recordingSystem config).init events
        recording) :
    ∀ produced ∈ recording.samples, Carries produced.sample.allLabels produced.inForce := by
  have tracks : Tracks allowed recording := by
    refine run.invariant (Tracks allowed) (.initial _) ?_
    rintro state event later tracks ⟨keeps, taken⟩
    cases taken
    cases event with
    | setDynamicTag key value => exact tracks.setDynamicTag fits keeps value
    | clearDynamicTags => exact tracks.clearDynamicTags
    | occur occurrence walk => exact tracks.occur keeps
    | getSamples provider => exact tracks.getSamples provider
  exact tracks.produced

end Recording

section Runs

def plainConfiguration : RecordingConfiguration where
  valuesCount := 16
  ciVisibility := false
  stores := ⟨fun _ => none, fun _ => none⟩
  valueOffsets _ := [0, 1]
  listener := none

def taggedEvents (occurrence : Occurrence) : List RecordingEvent :=
  [.setDynamicTag "vehicle" "bike", .occur occurrence ⟨some [64], ⟨0, 0, 0⟩, 1, 1⟩,
    .clearDynamicTags, .getSamples occurrence.provider]

theorem contention_sample_tagged :
    ∃ recording, ((recordingSystem plainConfiguration).restrict
        (Recording.Keeps plainConfiguration ["vehicle"])).Run (.initial 16)
        (taggedEvents (.contention true 5)) recording ∧
      (recording.samples.map fun produced => produced.sample.allLabels) =
        [[("vehicle", .string "bike")]] ∧
      ∀ produced ∈ recording.samples, Carries produced.sample.allLabels produced.inForce := by
  have meets : System.MeetsAlong
      (fun recording event => some (recording.step plainConfiguration event))
      (Recording.Keeps plainConfiguration ["vehicle"]) (.initial 16)
      (taggedEvents (.contention true 5)) := by
    refine ⟨mem_singleton.mpr rfl, ?_, trivial, trivial, trivial⟩
    intro leftOut
    cases leftOut
  exact ⟨_, System.run_restrict_of_exec rfl meets, rfl,
    samples_carry_tags (by decide) (System.run_restrict_of_exec rfl meets)⟩

/-- The sample of an allocation tick has no label although a tag is in force. -/
theorem allocation_tick_untagged :
    ∃ recording produced, (recordingSystem plainConfiguration).Run (.initial 16)
        (taggedEvents (.allocationTick ⟨true, "", 24, 4096⟩)) recording ∧
      produced ∈ recording.samples ∧ produced.inForce "vehicle" = some "bike" ∧
      produced.sample.allLabels = [] ∧ ¬Carries produced.sample.allLabels produced.inForce := by
  refine ⟨_, _, System.run_of_exec rfl, mem_cons_self .., rfl, rfl, ?_⟩
  intro carries
  have isLabel := (carries.exact "vehicle" (.string "bike")).mpr ⟨"bike", rfl, rfl⟩
  cases isLabel

end Runs

end Pyroscope.Samples
