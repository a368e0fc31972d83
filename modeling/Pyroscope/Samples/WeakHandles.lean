import Pyroscope.Samples.LiveObjects

/-!
# Handles of live objects

A handle is destroyed at the end of a collection which finds its object gone. Handles are numbered
by their creation.
-/

namespace Pyroscope.Samples.LiveObjectsProvider

open Transition List

inductive HandleCall where
  | createHandle (handle : Nat)
  | getObjectIDFromHandle (handle : Nat) (isAlive : Bool)
  | destroyHandle (handle : Nat)
  deriving DecidableEq

def HandleCall.handle : HandleCall → Nat
  | .createHandle handle => handle
  | .getObjectIDFromHandle handle _ => handle
  | .destroyHandle handle => handle

structure LiveObjectInfo (Sample : Type) where
  sample : Sample
  weakHandle : Nat
  gcCount : Nat

structure Provider (Sample : Type) where
  monitoredObjects : List (LiveObjectInfo Sample)
  created : Nat
  calls : List HandleCall

/-- An allocation with the answer of the sampler, or the end of a collection with the objects still
alive. -/
inductive Event (RawSample : Type) where
  | onAllocation (shouldSample isCreated : Bool) (rawSample : RawSample)
  | onGarbageCollectionEnd (isAlive : Nat → Bool)

variable {RawSample Sample : Type}

namespace Provider

def initial : Provider Sample := ⟨[], 0, []⟩

def onAllocation (heapHandleLimit : Nat) (transform : RawSample → Sample)
    (shouldSample isCreated : Bool) (rawSample : RawSample) (provider : Provider Sample) :
    Provider Sample :=
  if !shouldSample then provider
  else if provider.monitoredObjects.length < heapHandleLimit then
    if isCreated then
      { monitoredObjects := provider.monitoredObjects ++
          [⟨transform rawSample, provider.created, 0⟩]
        created := provider.created + 1
        calls := provider.calls ++ [.createHandle provider.created] }
    else provider
  else provider

/-- The predicate of `remove_if`, for the objects from one of them on: the calls which it makes, and
the objects which stay. -/
def removeIf (isAlive : Nat → Bool) :
    List (LiveObjectInfo Sample) → List HandleCall × List (LiveObjectInfo Sample)
  | [] => ([], [])
  | info :: rest =>
    let (calls, kept) := removeIf isAlive rest
    if isAlive info.weakHandle then
      (.getObjectIDFromHandle info.weakHandle true :: calls,
        { info with gcCount := info.gcCount + 1 } :: kept)
    else
      (.getObjectIDFromHandle info.weakHandle false :: .destroyHandle info.weakHandle :: calls,
        kept)

def onGarbageCollectionEnd (isAlive : Nat → Bool) (provider : Provider Sample) : Provider Sample :=
  { provider with
    monitoredObjects := (removeIf isAlive provider.monitoredObjects).2
    calls := provider.calls ++ (removeIf isAlive provider.monitoredObjects).1 }

def getSamples (provider : Provider Sample) : List Sample :=
  provider.monitoredObjects.foldl (fun samples info => samples ++ [info.sample]) []

def next (heapHandleLimit : Nat) (transform : RawSample → Sample) (provider : Provider Sample) :
    Event RawSample → Option (Provider Sample)
  | .onAllocation shouldSample isCreated rawSample =>
    some (provider.onAllocation heapHandleLimit transform shouldSample isCreated rawSample)
  | .onGarbageCollectionEnd isAlive => some (provider.onGarbageCollectionEnd isAlive)

def handles (infos : List (LiveObjectInfo Sample)) : List Nat := infos.map (·.weakHandle)

end Provider

open LiveObjectsProvider.Provider

def system (heapHandleLimit : Nat) (transform : RawSample → Sample) :
    System (Provider Sample) (Event RawSample) :=
  .ofFunction initial (next heapHandleLimit transform)

/-- What the ends of collections say about the object of a handle. -/
def verdicts (handle : Nat) (events : List (Event RawSample)) : List Bool :=
  events.filterMap fun
    | .onGarbageCollectionEnd isAlive => some (isAlive handle)
    | .onAllocation .. => none

/-- The calls which a handle should see, after its creation. -/
def life (handle : Nat) : List Bool → List HandleCall
  | [] => []
  | true :: rest => .getObjectIDFromHandle handle true :: life handle rest
  | false :: _ => [.getObjectIDFromHandle handle false, .destroyHandle handle]

def callsOn (handle : Nat) (calls : List HandleCall) : List HandleCall :=
  calls.filter (·.handle == handle)

theorem life_append (handle : Nat) (earlier : List Bool) (isAlive : Bool) :
    life handle (earlier ++ [isAlive]) = life handle earlier ++
      if false ∈ earlier then [] else life handle [isAlive] := by
  induction earlier with
  | nil => rfl
  | cons verdict rest ih => cases verdict <;> simp [life, ih]

theorem removeIf_eq (isAlive : Nat → Bool) (infos : List (LiveObjectInfo Sample)) :
    handles (removeIf isAlive infos).2 = (handles infos).filter isAlive ∧
      (removeIf isAlive infos).1 = (handles infos).flatMap fun handle =>
        life handle [isAlive handle] := by
  induction infos with
  | nil => exact ⟨rfl, rfl⟩
  | cons info rest ih =>
    rw [handles, handles] at ih ⊢
    rw [removeIf, map_cons, flatMap_cons, ← ih.2]
    cases alive : isAlive info.weakHandle with
    | true => exact ⟨by simp [alive, ih.1], rfl⟩
    | false => exact ⟨by simp [alive, ih.1], rfl⟩

theorem callsOn_life (handle other : Nat) (isAlive : Bool) :
    callsOn handle (life other [isAlive]) =
      if handle = other then life other [isAlive] else [] := by
  cases isAlive <;> by_cases same : handle = other <;>
    simp [callsOn, life, HandleCall.handle, same, Ne.symm]

theorem callsOn_flatMap (handle : Nat) (isAlive : Nat → Bool) {others : List Nat}
    (distinct : others.Nodup) :
    callsOn handle (others.flatMap fun other => life other [isAlive other]) =
      if handle ∈ others then life handle [isAlive handle] else [] := by
  induction others with
  | nil => rfl
  | cons other rest ih =>
    rw [nodup_cons] at distinct
    rw [flatMap_cons, callsOn, filter_append]
    change callsOn _ _ ++ callsOn _ _ = _
    rw [callsOn_life, ih distinct.2]
    by_cases same : handle = other
    · subst same
      simp [distinct.1]
    · simp [same]

/-- The handle has been created at an allocation, when there were as many before, has seen the calls
which it should since then, and is monitored until its object is found dead. -/
def Followed (heapHandleLimit : Nat) (transform : RawSample → Sample)
    (events : List (Event RawSample)) (provider : Provider Sample) (handle : Nat) : Prop :=
  ∃ before earlier rawSample after,
    events = before ++ .onAllocation true true rawSample :: after ∧
      (system heapHandleLimit transform).Run initial before earlier ∧ earlier.created = handle ∧
      callsOn handle provider.calls = .createHandle handle :: life handle (verdicts handle after) ∧
      (handle ∈ handles provider.monitoredObjects ↔ false ∉ verdicts handle after)

/-- Each handle is followed from its creation to its destruction. -/
structure Sound (heapHandleLimit : Nat) (transform : RawSample → Sample)
    (events : List (Event RawSample)) (provider : Provider Sample) : Prop where
  limited : provider.monitoredObjects.length ≤ heapHandleLimit
  distinct : (handles provider.monitoredObjects).Nodup
  known : ∀ handle ∈ handles provider.monitoredObjects, handle < provider.created
  unused : ∀ handle, provider.created ≤ handle → callsOn handle provider.calls = []
  followed : ∀ handle < provider.created,
    Followed heapHandleLimit transform events provider handle

variable {heapHandleLimit : Nat} {transform : RawSample → Sample}
  {events : List (Event RawSample)} {provider : Provider Sample}

section

variable (sound : Sound heapHandleLimit transform events provider)
include sound

theorem Sound.unchanged (shouldSample isCreated : Bool) (rawSample : RawSample) :
    Sound heapHandleLimit transform (events ++ [.onAllocation shouldSample isCreated rawSample])
      provider where
  limited := sound.limited
  distinct := sound.distinct
  known := sound.known
  unused := sound.unused
  followed handle created := by
    rcases sound.followed handle created with
      ⟨before, earlier, first, after, rfl, isReached, isNumber, calls, monitored⟩
    have same : verdicts handle (after ++ [.onAllocation shouldSample isCreated rawSample]) =
        verdicts handle after := by
      simp [verdicts]
    refine ⟨before, earlier, first, after ++ [.onAllocation shouldSample isCreated rawSample], ?_,
      isReached, isNumber, ?_, ?_⟩
    · simp
    · rw [same, calls]
    · rw [same, monitored]

theorem Sound.create (run : (system heapHandleLimit transform).Run initial events provider)
    (room : provider.monitoredObjects.length < heapHandleLimit) (rawSample : RawSample) :
    Sound heapHandleLimit transform (events ++ [.onAllocation true true rawSample])
      { monitoredObjects := provider.monitoredObjects ++
          [⟨transform rawSample, provider.created, 0⟩]
        created := provider.created + 1
        calls := provider.calls ++ [.createHandle provider.created] } := by
  have shape : handles (provider.monitoredObjects ++
      [⟨transform rawSample, provider.created, 0⟩]) =
      handles provider.monitoredObjects ++ [provider.created] := map_append
  have onNew (handle : Nat) : callsOn handle (provider.calls ++ [.createHandle provider.created]) =
      callsOn handle provider.calls ++
        if handle = provider.created then [.createHandle provider.created] else [] := by
    rw [callsOn, filter_append]
    by_cases same : handle = provider.created
    · simp [callsOn, HandleCall.handle, same]
    · simp [callsOn, HandleCall.handle, same, Ne.symm same]
  refine ⟨?_, ?_, ?_, ?_, ?_⟩
  · simpa using Nat.succ_le_of_lt room
  · rw [shape, nodup_append]
    refine ⟨sound.distinct, by simp, ?_⟩
    intro handle mem other isNew
    rw [mem_singleton.mp isNew]
    exact Nat.ne_of_lt (sound.known handle mem)
  · intro handle mem
    rw [shape, mem_append, mem_singleton] at mem
    rcases mem with mem | rfl
    · exact Nat.lt_succ_of_lt (sound.known handle mem)
    · exact Nat.lt_succ_self _
  · intro handle later
    rw [onNew, sound.unused handle (Nat.le_of_succ_le later), if_neg (Nat.ne_of_gt later)]
    rfl
  · intro handle created
    rw [Followed, shape, onNew, mem_append, mem_singleton]
    rcases Nat.lt_succ_iff_lt_or_eq.mp created with older | rfl
    · rw [if_neg (Nat.ne_of_lt older), append_nil, or_iff_left (Nat.ne_of_lt older)]
      exact (sound.unchanged true true rawSample).followed handle older
    · refine ⟨events, provider, rawSample, [], rfl, run, rfl, ?_, ?_⟩
      · rw [sound.unused _ (Nat.le_refl _), if_pos rfl]
        rfl
      · simp [verdicts]

theorem Sound.collect (isAlive : Nat → Bool) :
    Sound heapHandleLimit transform (events ++ [.onGarbageCollectionEnd isAlive])
      (provider.onGarbageCollectionEnd isAlive) := by
  rcases removeIf_eq isAlive provider.monitoredObjects with ⟨kept, made⟩
  have onEach (handle : Nat) : callsOn handle (provider.onGarbageCollectionEnd isAlive).calls =
      callsOn handle provider.calls ++
        if handle ∈ handles provider.monitoredObjects then life handle [isAlive handle]
        else [] := by
    rw [onGarbageCollectionEnd, made, callsOn, filter_append]
    exact congrArg _ (callsOn_flatMap handle isAlive sound.distinct)
  refine ⟨?_, ?_, ?_, ?_, ?_⟩
  · have fewer := congrArg List.length kept
    rw [handles, handles, length_map] at fewer
    rw [onGarbageCollectionEnd, fewer]
    refine Nat.le_trans (length_filter_le ..) ?_
    rw [length_map]
    exact sound.limited
  · rw [onGarbageCollectionEnd, kept]
    exact sound.distinct.filter _
  · intro handle mem
    rw [onGarbageCollectionEnd, kept] at mem
    exact sound.known handle (mem_of_mem_filter mem)
  · intro handle later
    rw [onEach, sound.unused handle later, if_neg]
    · rfl
    · exact fun mem => Nat.not_le_of_lt (sound.known handle mem) later
  · intro handle created
    rcases sound.followed handle created with
      ⟨before, earlier, first, after, rfl, isReached, isNumber, calls, monitored⟩
    have answered : verdicts handle (after ++ [.onGarbageCollectionEnd isAlive]) =
        verdicts handle after ++ [isAlive handle] := by
      simp [verdicts]
    refine ⟨before, earlier, first, after ++ [.onGarbageCollectionEnd isAlive], ?_, isReached,
      isNumber, ?_, ?_⟩
    · simp
    · rw [onEach, calls, answered, life_append, cons_append]
      simp only [monitored, ite_not]
    · rw [onGarbageCollectionEnd, kept, mem_filter, answered, monitored]
      simp

end

/-- The limit holds, each handle sees the calls which it should, the others none, and each monitored
object gives one sample. -/
theorem handles_follow_objects (heapHandleLimit : Nat) (transform : RawSample → Sample)
    (events : List (Event RawSample)) (provider : Provider Sample)
    (run : (system heapHandleLimit transform).Run initial events provider) :
    provider.monitoredObjects.length ≤ heapHandleLimit ∧
      (∀ handle < provider.created, Followed heapHandleLimit transform events provider handle) ∧
      (∀ handle, provider.created ≤ handle → callsOn handle provider.calls = []) ∧
      provider.getSamples = provider.monitoredObjects.map (·.sample) := by
  have both : (system heapHandleLimit transform).Run initial events provider ∧
      Sound heapHandleLimit transform events provider := by
    refine run.history_invariant (fun events provider =>
      (system heapHandleLimit transform).Run initial events provider ∧
        Sound heapHandleLimit transform events provider) ?_ ?_
    · exact ⟨.nil _, Nat.zero_le _, .nil, nofun, fun _ _ => rfl, nofun⟩
    · intro events provider event next ⟨reached, sound⟩ taken
      refine ⟨reached.snoc taken, ?_⟩
      cases event with
      | onAllocation shouldSample isCreated rawSample =>
        cases taken
        by_cases room : provider.monitoredObjects.length < heapHandleLimit
        · rw [Provider.onAllocation, if_pos room]
          cases shouldSample <;> cases isCreated
          case true.true => exact sound.create reached room rawSample
          all_goals exact sound.unchanged ..
        · rw [Provider.onAllocation, if_neg room, ite_self]
          exact sound.unchanged ..
      | onGarbageCollectionEnd isAlive =>
        cases taken
        exact sound.collect isAlive
  rcases both with ⟨-, sound⟩
  refine ⟨sound.limited, sound.followed, sound.unused, ?_⟩
  rw [getSamples, ← flatMap_eq_foldl, map_eq_flatMap]

def threeAllocations : List (Event Nat) :=
  [.onAllocation true true 5, .onAllocation true true 6, .onAllocation true true 7,
    .onGarbageCollectionEnd (· == 0)]

/-- The second object is found dead, and the third is over the limit. -/
theorem two_handles_followed : ∃ provider : Provider Nat,
    (system 2 id).Run initial threeAllocations provider ∧
      provider.getSamples = [5] ∧ provider.created = 2 ∧
      callsOn 1 provider.calls =
        [.createHandle 1, .getObjectIDFromHandle 1 false, .destroyHandle 1] ∧
      provider.monitoredObjects.length ≤ 2 ∧
      (∀ handle < provider.created, Followed 2 id threeAllocations provider handle) ∧
      (∀ handle, provider.created ≤ handle → callsOn handle provider.calls = []) ∧
      provider.getSamples = provider.monitoredObjects.map (·.sample) := by
  have run : (system 2 id).Run initial threeAllocations _ := System.run_of_exec rfl
  exact ⟨_, run, rfl, rfl, rfl, handles_follow_objects 2 id threeAllocations _ run⟩

/-! ## The objects which the collector exports -/

section Collector

open Samples.State

variable {config : Configuration} {names : Nat → Nat} {state : State}
  {provider : Provider Nat}

theorem monitoredObjects_collectStoredSamples (cells : List Nat) (state : State) :
    (state.collectStoredSamples config cells).monitoredObjects = state.monitoredObjects := by
  induction cells generalizing state with
  | nil => rfl
  | cons cell rest ih =>
    have added := untouched_addCachedSample config { state with cachedSample := cell }
    rw [collectStoredSamples]
    split
    · rename_i threw
      rw [threw] at added
      exact added.monitoredObjects
    · rename_i kept
      rw [kept] at added
      exact (ih _).trans added.monitoredObjects

/-- What both models keep of an object; `names` gives the runtime's handle for each number. -/
def kept (names : Nat → Nat) (infos : List (LiveObjectInfo Nat)) : List (Nat × Nat × Nat) :=
  infos.map fun info => (info.sample, names info.weakHandle, info.gcCount)

/-- The provider monitors the same objects as the collector, with the cells of their samples. -/
structure Mirrors (names : Nat → Nat) (state : State) (provider : Provider Nat) : Prop where
  known : ∀ handle ∈ handles provider.monitoredObjects, handle < provider.created
  same : (state.monitoredObjects.map fun info => (info.sample, info.weakHandle, info.gcCount)) =
    kept names provider.monitoredObjects

theorem removeIf_snd (isAlive : Nat → Bool) (infos : List (LiveObjectInfo Sample)) :
    (removeIf isAlive infos).2 = (infos.filter fun info => isAlive info.weakHandle).map fun info =>
      { info with gcCount := info.gcCount + 1 } := by
  induction infos with
  | nil => rfl
  | cons info rest ih => cases alive : isAlive info.weakHandle <;> simp [removeIf, alive, ih]

theorem Mirrors.onAllocation (mirrors : Mirrors names state provider) (shouldSample : Bool)
    (handle : Option Nat) (raw : RawAllocationSample)
    (built : (config.buildLiveSample raw).exception = none) :
    ∃ names, Mirrors names (state.onAllocation config shouldSample handle raw)
      (provider.onAllocation config.heapHandleLimit id shouldSample handle.isSome
        state.next) := by
  have sameLength := congrArg List.length mirrors.same
  rw [kept, length_map, length_map] at sameLength
  rw [State.onAllocation.eq_def, Provider.onAllocation, sameLength]
  cases shouldSample with
  | false => exact ⟨names, mirrors⟩
  | true =>
    by_cases room : provider.monitoredObjects.length < config.heapHandleLimit
    swap
    · rw [if_neg room, if_neg room]
      exact ⟨names, mirrors⟩
    rw [if_pos room, if_pos room]
    rcases isBuilt : config.buildLiveSample raw with ⟨sample, exception⟩
    rw [isBuilt] at built
    subst built
    cases handle with
    | none => exact ⟨names, mirrors⟩
    | some handle =>
      refine ⟨Function.update names provider.created handle, ?_, ?_⟩
      · intro other mem
        change other ∈ handles (provider.monitoredObjects ++ _) at mem
        rw [handles, map_append, mem_append] at mem
        rcases mem with old | new
        · exact Nat.lt_succ_of_lt (mirrors.known other old)
        · rw [mem_singleton.mp new]
          exact Nat.lt_succ_self _
      · have older : kept (Function.update names provider.created handle)
            provider.monitoredObjects = kept names provider.monitoredObjects := by
          refine map_congr_left fun info isKept => ?_
          have isOlder := mirrors.known info.weakHandle (mem_map_of_mem isKept)
          rw [Function.update_of_ne (Nat.ne_of_lt isOlder)]
        change map _ (state.monitoredObjects ++ _) = kept _ (provider.monitoredObjects ++ _)
        rw [kept, map_append, map_append, mirrors.same, ← older, kept]
        simp

theorem Mirrors.onGarbageCollectionEnd (mirrors : Mirrors names state provider)
    (isAlive : Nat → Bool) :
    Mirrors names (state.onGarbageCollectionEnd isAlive)
      (provider.onGarbageCollectionEnd (isAlive ∘ names)) := by
  rw [State.onGarbageCollectionEnd, Provider.onGarbageCollectionEnd, removeIf_snd]
  refine ⟨?_, ?_⟩
  · intro handle mem
    rw [handles, map_map] at mem
    exact mirrors.known handle ((filter_sublist.map _).subset mem)
  · have same := congrArg (fun objects => (objects.filter fun object => isAlive object.2.1).map
      fun object => (object.1, object.2.1, object.2.2 + 1)) mirrors.same
    simpa [kept, filter_map, Function.comp_def] using same

/-- Along every run of the collector, the provider monitors the same objects. -/
theorem run_mirrored (built : ∀ raw, (config.buildLiveSample raw).exception = none)
    {events : List Samples.Event}
    (run : (Samples.system config).Run (Samples.system config).init events state) :
    ∃ names calls provider, (system config.heapHandleLimit id).Run initial calls provider ∧
      Mirrors names state provider := by
  refine run.invariant (fun state => ∃ names calls provider,
    (system config.heapHandleLimit id).Run initial calls provider ∧
      Mirrors names state provider) ?_ ?_
  · exact ⟨id, [], initial, .nil _, nofun, rfl⟩
  · rintro state event _ ⟨names, calls, provider, reached, mirrors⟩ ⟨⟩
    have unchanged {after : State} (same : after.monitoredObjects = state.monitoredObjects) :
        Mirrors names after provider :=
      ⟨mirrors.known, same ▸ mirrors.same⟩
    cases event with
    | collect valueOffsets rawSamples =>
      refine ⟨names, calls, provider, reached, unchanged ?_⟩
      exact (untouched_collectRawSamples ..).monitoredObjects
    | collectCpu sample =>
      refine ⟨names, calls, provider, reached, unchanged ?_⟩
      cases sample with
      | none => rfl
      | some sample => exact monitoredObjects_collectStoredSamples _ _
    | exportSamples =>
      refine ⟨names, calls, provider, reached, unchanged ?_⟩
      exact monitoredObjects_collectStoredSamples _ _
    | onAllocation shouldSample handle raw =>
      rcases mirrors.onAllocation shouldSample handle raw (built raw) with ⟨names, after⟩
      refine ⟨names, calls ++ [.onAllocation shouldSample handle.isSome state.next], _, ?_, after⟩
      exact reached.snoc rfl
    | onGarbageCollectionEnd isAlive =>
      refine ⟨names, calls ++ [.onGarbageCollectionEnd (isAlive ∘ names)], _, ?_,
        mirrors.onGarbageCollectionEnd isAlive⟩
      exact reached.snoc rfl

end Collector

end Pyroscope.Samples.LiveObjectsProvider
