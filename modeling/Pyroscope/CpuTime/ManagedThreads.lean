import Mathlib.Algebra.Order.Group.Int
import Mathlib.Algebra.Ring.Int.Defs
import Mathlib.Data.List.Chain
import Pyroscope.Lib.Transition

/-!
# CPU samples of managed threads

The duration of a CPU sample is cut where the sample would begin before the end of the last one.
-/

namespace Pyroscope.CpuTime

open Transition Function

inductive Platform where
  | linux
  | windows64
  | windows32
deriving DecidableEq

/-- What the operating system says of a thread. Windows has another API for the CPU time alone. -/
inductive ThreadQuery where
  | known (isRunning : Bool)
  | fallback
  | failed

def ThreadQuery.isRunning (consumed : Int) : ThreadQuery → Bool × Int × Bool
  | .known isRunning => (isRunning, consumed, false)
  | .fallback => (false, consumed, true)
  | .failed => (false, 0, true)

structure CpuSample where
  timestamp : Int
  duration : Int
deriving DecidableEq

/-- What is known of a thread, with all its samples, newest first, and the durations since its last
reset. -/
structure ManagedThread where
  cpuConsumption : Int
  timestamp : Int
  samples : List CpuSample
  sinceReset : List Int
  base : Int

namespace ManagedThread

def initial : ManagedThread := ⟨0, 0, [], [], 0⟩

/-- The consumption since the last sample, without what would overlap it. -/
def sampleDuration (cpuForSample lastCpuTimestamp thisSampleTimestamp : Int) : Int :=
  if lastCpuTimestamp + cpuForSample * 1000000 > thisSampleTimestamp then
    (thisSampleTimestamp - lastCpuTimestamp - 1000).tdiv 1000000
  else cpuForSample

/-- Where Windows cannot tell, a thread runs if it has consumed something. -/
def runs (platform : Platform) (lastConsumption currentConsumption : Int)
    (isRunning failure : Bool) : Bool :=
  match platform with
  | .linux => isRunning
  | .windows64 => if failure then lastConsumption < currentConsumption else isRunning
  | .windows32 => lastConsumption < currentConsumption

def visit (platform : Platform) (thread : ManagedThread) (consumed now : Int)
    (query : ThreadQuery) : ManagedThread × Bool :=
  let lastConsumption := thread.cpuConsumption
  let (isRunning, currentConsumption, failure) := query.isRunning consumed
  let cpuForSample := currentConsumption - lastConsumption
  if runs platform lastConsumption currentConsumption isRunning failure ∧ cpuForSample > 0 then
    let duration := sampleDuration cpuForSample thread.timestamp now
    ({ thread with
        cpuConsumption := currentConsumption
        timestamp := now
        samples := ⟨now, duration⟩ :: thread.samples
        sinceReset := duration :: thread.sinceReset }, true)
  else (thread, false)

def reset (thread : ManagedThread) (consumed t1 : Int) (query : ThreadQuery) : ManagedThread :=
  let (_, currentConsumption, failure) := query.isRunning consumed
  if failure then thread
  else
    { thread with
      cpuConsumption := currentConsumption
      timestamp := t1
      sinceReset := []
      base := currentConsumption }

end ManagedThread

inductive SamplerPhase where
  | sleeping
  | resetting (t1 : Int)
  | iterating (visits sampledThreads : Nat)

variable {Thread : Type} [DecidableEq Thread]

/-- The threads of the list, with the milliseconds they have really consumed, and the clock. -/
structure CpuSampler (Thread : Type) where
  threads : Thread → ManagedThread
  consumed : Thread → Int
  clock : Int
  phase : SamplerPhase

inductive CpuEvent (Thread : Type) where
  | elapse (nanoseconds : Nat)
  | consume (thread : Thread) (milliseconds : Nat)
  | resetThreadsCpuConsumption
  | resetThread (thread : Thread) (query : ThreadQuery)
  | cpuProfilingIteration (managedThreadsCount : Nat)
  | visit (thread : Thread) (query : ThreadQuery)
  | sleep

structure CpuConfiguration where
  platform : Platform
  cpuThreadsThreshold : Nat
  nbCores : Nat

namespace CpuSampler

def initial : CpuSampler Thread := ⟨fun _ => .initial, fun _ => 0, 0, .sleeping⟩

def setThread (state : CpuSampler Thread) (thread : Thread) (value : ManagedThread) :
    CpuSampler Thread :=
  { state with threads := update state.threads thread value }

def next (config : CpuConfiguration) (state : CpuSampler Thread) :
    CpuEvent Thread → Option (CpuSampler Thread)
  | .elapse nanoseconds => some { state with clock := state.clock + nanoseconds }
  | .consume thread milliseconds =>
    some { state with
      consumed := update state.consumed thread (state.consumed thread + milliseconds) }
  | .resetThreadsCpuConsumption => some { state with phase := .resetting state.clock }
  | .resetThread thread query =>
    match state.phase with
    | .resetting t1 =>
      some (state.setThread thread ((state.threads thread).reset (state.consumed thread) t1 query))
    | _ => none
  | .cpuProfilingIteration managedThreadsCount =>
    some { state with
      phase := .iterating (min managedThreadsCount config.cpuThreadsThreshold) 0 }
  | .visit thread query =>
    match state.phase with
    | .iterating (visits + 1) sampledThreads =>
      let (visited, sampled) := (state.threads thread).visit config.platform
        (state.consumed thread) state.clock query
      let sampledThreads := if sampled then sampledThreads + 1 else sampledThreads
      -- no more threads are sampled than there are cores
      let visits := if sampled ∧ sampledThreads ≥ config.nbCores then 0 else visits
      some { state.setThread thread visited with phase := .iterating visits sampledThreads }
    | _ => none
  | .sleep => some { state with phase := .sleeping }

end CpuSampler

def cpuSystem (Thread : Type) [DecidableEq Thread] (config : CpuConfiguration) :
    System (CpuSampler Thread) (CpuEvent Thread) :=
  .ofFunction .initial (CpuSampler.next config)

namespace ManagedThread

theorem sampleDuration_bounds {cpuForSample last now : Int} (consumed : 0 < cpuForSample)
    (ordered : last ≤ now) :
    0 ≤ sampleDuration cpuForSample last now ∧
      last + sampleDuration cpuForSample last now * 1000000 ≤ now ∧
      sampleDuration cpuForSample last now ≤ cpuForSample := by
  rw [sampleDuration]
  split
  case isTrue overlapping =>
    rcases le_or_gt 0 (now - last - 1000) with later | early
    · rw [Int.tdiv_eq_ediv_of_nonneg later]
      omega
    · -- less than the microsecond is cut to no milliseconds at all
      have cut : (now - last - 1000).tdiv 1000000 = 0 := by
        rw [← Int.neg_neg (now - last - 1000), Int.neg_tdiv,
          Int.tdiv_eq_zero_of_lt (by omega) (by omega), Int.neg_zero]
      omega
  case isFalse apart => omega

/-- The samples do not overlap. -/
def After (later earlier : CpuSample) : Prop :=
  earlier.timestamp + later.duration * 1000000 ≤ later.timestamp

/-- The durations since the last reset fit into the consumption. -/
structure Sound (thread : ManagedThread) (consumed clock : Int) : Prop where
  consumption : 0 ≤ thread.cpuConsumption ∧ thread.cpuConsumption ≤ consumed
  timestamp : thread.timestamp ≤ clock
  newest : ∀ sample ∈ thread.samples.head?, sample.timestamp ≤ thread.timestamp
  apart : thread.samples.IsChain After
  nonneg : ∀ sample ∈ thread.samples, 0 ≤ sample.duration
  total : thread.sinceReset.sum ≤ thread.cpuConsumption - thread.base

namespace Sound

variable {thread : ManagedThread} {consumed clock : Int}

section

variable (sound : thread.Sound consumed clock)
include sound

theorem mono {more later : Int} (grown : consumed ≤ more) (elapsed : clock ≤ later) :
    thread.Sound more later where
  consumption := ⟨sound.consumption.1, sound.consumption.2.trans grown⟩
  timestamp := sound.timestamp.trans elapsed
  newest := sound.newest
  apart := sound.apart
  nonneg := sound.nonneg
  total := sound.total

theorem sampled {current : Int} (known : current ≤ consumed)
    (grown : current - thread.cpuConsumption > 0) :
    Sound
      { thread with
        cpuConsumption := current
        timestamp := clock
        samples := ⟨clock, sampleDuration (current - thread.cpuConsumption) thread.timestamp clock⟩
          :: thread.samples
        sinceReset := sampleDuration (current - thread.cpuConsumption) thread.timestamp clock
          :: thread.sinceReset }
      consumed clock := by
  rcases sound with ⟨consumption, timestamp, newest, apart, nonneg, total⟩
  rcases sampleDuration_bounds grown timestamp with ⟨positive, after, bounded⟩
  constructor <;> dsimp only
  case consumption => omega
  case timestamp => exact le_rfl
  case newest =>
    rintro sample ⟨⟩
    exact le_rfl
  case apart =>
    refine List.isChain_cons.mpr ⟨fun earlier isHead => ?_, apart⟩
    have ordered := newest earlier isHead
    simp only [After]
    omega
  case nonneg => exact List.forall_mem_cons.mpr ⟨positive, nonneg⟩
  case total =>
    rw [List.sum_cons]
    omega

theorem visit (platform : Platform) (query : ThreadQuery) :
    (thread.visit platform consumed clock query).1.Sound consumed clock := by
  have nonneg : 0 ≤ consumed := sound.consumption.1.trans sound.consumption.2
  have known : (query.isRunning consumed).2.1 ≤ consumed := by
    cases query <;> simp [ThreadQuery.isRunning, nonneg]
  simp only [ManagedThread.visit]
  split
  case isTrue sampled => exact sound.sampled known sampled.2
  case isFalse => exact sound

theorem reset {t1 : Int} (started : t1 ≤ clock)
    (before : ∀ sample ∈ thread.samples.head?, sample.timestamp ≤ t1) (query : ThreadQuery) :
    (thread.reset consumed t1 query).Sound consumed clock := by
  have nonneg : 0 ≤ consumed := sound.consumption.1.trans sound.consumption.2
  cases query with
  | known isRunning =>
    exact ⟨⟨nonneg, le_rfl⟩, started, before, sound.apart, sound.nonneg,
      by simp [ManagedThread.reset, ThreadQuery.isRunning]⟩
  | fallback => exact sound
  | failed => exact sound

end

theorem initial : ManagedThread.initial.Sound 0 0 :=
  ⟨⟨le_rfl, le_rfl⟩, le_rfl, by simp [ManagedThread.initial], .nil, by simp [ManagedThread.initial],
    le_rfl⟩

end Sound

@[simp]
theorem samples_reset (thread : ManagedThread) (consumed t1 : Int) (query : ThreadQuery) :
    (thread.reset consumed t1 query).samples = thread.samples := by
  cases query <;> rfl

end ManagedThread

/-- While the threads are reset, all their samples are older than the timestamp which they get. -/
structure CpuSampler.Sound (state : CpuSampler Thread) : Prop where
  threads : ∀ thread, (state.threads thread).Sound (state.consumed thread) state.clock
  resetting : ∀ t1, state.phase = .resetting t1 → t1 ≤ state.clock ∧
    ∀ thread, ∀ sample ∈ (state.threads thread).samples.head?, sample.timestamp ≤ t1

theorem CpuSampler.Sound.next {config : CpuConfiguration} {state next : CpuSampler Thread}
    (sound : state.Sound) (event : CpuEvent Thread)
    (taken : state.next config event = some next) : next.Sound := by
  rcases sound with ⟨threads, resetting⟩
  cases event with
  | elapse nanoseconds =>
    cases taken
    have elapsed : state.clock ≤ state.clock + nanoseconds := by omega
    exact ⟨fun thread => (threads thread).mono le_rfl elapsed, fun t1 isPhase =>
      ⟨(resetting t1 isPhase).1.trans elapsed, (resetting t1 isPhase).2⟩⟩
  | consume thread milliseconds =>
    cases taken
    refine ⟨fun other => (threads other).mono ?_ le_rfl, resetting⟩
    dsimp only
    rw [update_apply]
    split
    case isTrue same =>
      subst same
      omega
    case isFalse => exact le_rfl
  | resetThreadsCpuConsumption =>
    cases taken
    refine ⟨threads, ?_⟩
    rintro t1 ⟨⟩
    exact ⟨le_rfl, fun thread sample isHead =>
      ((threads thread).newest sample isHead).trans (threads thread).timestamp⟩
  | resetThread thread query =>
    simp only [CpuSampler.next] at taken
    split at taken
    case h_1 t1 isPhase =>
      cases taken
      rcases resetting t1 isPhase with ⟨started, before⟩
      constructor
      case threads =>
        refine (forall_update_iff _ fun other (value : ManagedThread) =>
          value.Sound (state.consumed other) state.clock).mpr ⟨?_, fun other _ => threads other⟩
        exact (threads thread).reset started (before thread) query
      case resetting =>
        intro t2 isPhase2
        cases isPhase.symm.trans isPhase2
        refine ⟨started, (forall_update_iff _ fun _ (value : ManagedThread) =>
          ∀ sample ∈ value.samples.head?, sample.timestamp ≤ t1).mpr
            ⟨?_, fun other _ => before other⟩⟩
        rw [ManagedThread.samples_reset]
        exact before thread
    case h_2 => cases taken
  | cpuProfilingIteration managedThreadsCount | sleep =>
    cases taken
    exact ⟨threads, fun _ isPhase => by cases isPhase⟩
  | visit thread query =>
    simp only [CpuSampler.next] at taken
    split at taken
    case h_1 =>
      cases taken
      refine ⟨(forall_update_iff _ fun other (value : ManagedThread) =>
        value.Sound (state.consumed other) state.clock).mpr ⟨?_, fun other _ => threads other⟩,
        fun _ isPhase => by cases isPhase⟩
      exact (threads thread).visit _ query
    case h_2 => cases taken

/-- The samples of a thread do not overlap, and since the last reset they do not add up to more than
the thread has consumed. -/
theorem cpu_samples_apart (config : CpuConfiguration) (events : List (CpuEvent Thread))
    (state : CpuSampler Thread)
    (run : (cpuSystem Thread config).Run .initial events state) (thread : Thread) :
    (∀ sample ∈ (state.threads thread).samples, 0 ≤ sample.duration) ∧
      (state.threads thread).samples.IsChain (fun later earlier =>
        earlier.timestamp + later.duration * 1000000 ≤ later.timestamp) ∧
      (state.threads thread).sinceReset.sum ≤
        state.consumed thread - (state.threads thread).base := by
  have sound : state.Sound := by
    refine run.invariant CpuSampler.Sound ⟨fun thread => ?_, fun _ isPhase => by cases isPhase⟩ ?_
    · exact ManagedThread.Sound.initial
    · intro state event next holds taken
      exact holds.next event taken
  rcases sound.threads thread with ⟨consumption, _, _, apart, nonneg, total⟩
  exact ⟨nonneg, apart, by omega⟩

/-- The second of two samples is cut. -/
theorem overlap_is_cut : ∃ state,
    (cpuSystem Nat ⟨.linux, 64, 1⟩).Run .initial
      [.elapse 5000000, .cpuProfilingIteration 1, .consume 0 3, .visit 0 (.known true),
        .elapse 3500000, .consume 0 4, .cpuProfilingIteration 1, .visit 0 (.known true)] state ∧
      (state.threads 0).samples = [⟨8500000, 3⟩, ⟨5000000, 3⟩] ∧
      (state.threads 0).samples.IsChain (fun later earlier =>
        earlier.timestamp + later.duration * 1000000 ≤ later.timestamp) := by
  refine System.exists_run_of_exec rfl ?_
  intro run
  exact ⟨by decide, (cpu_samples_apart _ _ _ run 0).2.1⟩

end Pyroscope.CpuTime
