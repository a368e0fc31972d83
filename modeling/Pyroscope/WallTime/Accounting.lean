import Mathlib.Algebra.BigOperators.Group.List.Basic
import Mathlib.Algebra.Ring.Int.Defs
import Pyroscope.Lib.Transition

/-!
# Wall time sampling

Threads are charged with the time since their last sample of either kind. After a restart that is
the whole pause.
-/

namespace Pyroscope.WallTime

open Transition

abbrev Thread := Nat

structure Configuration where
  samplingPeriod : Int
  walltimeThreadsThreshold : Int
  codeHotspotsThreadsThreshold : Int
  samplingPeriod_nonneg : 0 ≤ samplingPeriod

inductive RoundKind where
  | walltime
  | codeHotspot
  deriving DecidableEq

/-- A thread which `LoopNext` offers, and what the loop finds out about it. -/
structure Pick where
  thread : Thread
  canBeInterrupted : Bool
  hasTraceContext : Bool
  timestamp : Int
  collected : Bool
  /-- The value of `_shutdownRequested` at the end of the loop body. -/
  shutdownRequested : Bool
  deriving DecidableEq

structure Round where
  kind : RoundKind
  sampledThreadsCount : Int
  firstThread : Option Thread
  count : Int
  deriving DecidableEq

structure Sample where
  timestamp : Int
  duration : Int
  deriving DecidableEq

structure State where
  clock : Int
  running : Option Int
  periods : List (Int × Int)
  round : Option Round
  lastSampleTimestamp : Thread → Int
  samples : Thread → List Sample

inductive Event where
  | start (now : Int)
  | stop (now : Int)
  | beginRound (kind : RoundKind) (managedThreadsCount : Int)
  | pick (offered : Option Pick)
  deriving DecidableEq

def computeWallTime (config : Configuration) (currentTimestamp prevTimestamp : Int) : Int :=
  if prevTimestamp = 0 then config.samplingPeriod
  else if prevTimestamp > 0 then max 0 (currentTimestamp - prevTimestamp)
  else config.samplingPeriod

def mustSkip (kind : RoundKind) (pick : Pick) : Bool :=
  match kind with
  | .walltime => !pick.canBeInterrupted || pick.hasTraceContext
  | .codeHotspot => !pick.canBeInterrupted || !pick.hasTraceContext

namespace State

def initial (now : Int) : State where
  clock := now
  running := none
  periods := []
  round := none
  lastSampleTimestamp _ := 0
  samples _ := []

def sample (config : Configuration) (state : State) (pick : Pick) : State :=
  let prevTimestamp := state.lastSampleTimestamp pick.thread
  let duration := computeWallTime config pick.timestamp prevTimestamp
  { state with
    clock := pick.timestamp
    lastSampleTimestamp := Function.update state.lastSampleTimestamp pick.thread pick.timestamp
    samples :=
      if pick.collected then
        Function.update state.samples pick.thread
          (state.samples pick.thread ++ [⟨pick.timestamp, duration⟩])
      else state.samples }

def continueRound (state : State) (round : Round) (shutdownRequested : Bool) : State :=
  { state with
    round :=
      if round.count < round.sampledThreadsCount ∧ !shutdownRequested then some round else none }

/-- The body of the loop of `WalltimeProfilingIteration` and of `CodeHotspotIteration`. -/
def pick (config : Configuration) (state : State) (round : Round) :
    Option Pick → Option State
  | none => some { state with round := none }
  | some pick =>
    if round.firstThread = some pick.thread then some { state with round := none }
    else
      let round := { round with firstThread := round.firstThread <|> some pick.thread }
      if mustSkip round.kind pick then some (state.continueRound round pick.shutdownRequested)
      else if pick.timestamp < state.clock then none
      else
        some ((state.sample config pick).continueRound
          { round with count := round.count + 1 } pick.shutdownRequested)

def next (config : Configuration) (state : State) : Event → Option State
  | .start now =>
    if state.running = none ∧ state.clock ≤ now then
      some { state with clock := now, running := some now }
    else none
  | .stop now =>
    -- `StopImpl` joins the loop, which finishes its round first.
    match state.running, state.round with
    | some start, none =>
      if state.clock ≤ now then
        some { state with
          clock := now, running := none, periods := state.periods ++ [(start, now)] }
      else none
    | _, _ => none
  | .beginRound kind managedThreadsCount =>
    match state.running, state.round with
    | some _, none =>
      let threshold := match kind with
        | .walltime => config.walltimeThreadsThreshold
        | .codeHotspot => config.codeHotspotsThreadsThreshold
      some { state with round := some ⟨kind, min managedThreadsCount threshold, none, 0⟩ }
    | _, _ => none
  | .pick offered =>
    match state.round with
    | some round => state.pick config round offered
    | none => none

end State

def system (config : Configuration) (now : Int) : System State Event :=
  .ofFunction (.initial now) (State.next config)

/-! ## Accounting for wall time -/

open List

namespace State

def pastTime (state : State) : Int :=
  (state.periods.map fun period => period.2 - period.1).sum

def runningTime (state : State) : Int :=
  state.pastTime +
    match state.running with
    | none => 0
    | some start => state.clock - start

def charges (state : State) (thread : Thread) : Int :=
  ((state.samples thread).map Sample.duration).sum

end State

/-- An interval lies in a period during which the sampler was running. -/
def Within (state : State) (first last : Int) : Prop :=
  (∃ period ∈ state.periods, period.1 ≤ first ∧ last ≤ period.2) ∨
    ∃ start, state.running = some start ∧ start ≤ first ∧ last ≤ state.clock

/-- The samples of a thread account for its time as they should. -/
structure Accounted (config : Configuration) (state : State) (thread : Thread) : Prop where
  nonneg : ∀ sample ∈ state.samples thread, 0 ≤ sample.duration
  disjoint : (state.samples thread).Pairwise fun earlier later =>
    earlier.timestamp ≤ later.timestamp - later.duration
  within : ∀ sample ∈ (state.samples thread).tail,
    Within state (sample.timestamp - sample.duration) sample.timestamp
  total : state.charges thread ≤ state.runningTime + config.samplingPeriod

/-- The last sample of a thread has been taken since the loop was started. -/
def Recent (state : State) (thread : Thread) : Prop :=
  ∃ start, state.running = some start ∧ start ≤ state.lastSampleTimestamp thread

/-- The thread is sampled in this round. -/
def Samples (state : State) (pick : Pick) : Prop :=
  ∃ round, state.round = some round ∧ round.firstThread ≠ some pick.thread ∧
    mustSkip round.kind pick = false

/--
A thread from which a sample is collected has never been sampled before or has been since
the loop was started, and the clock does not read as if it had not.
-/
def Continuous (state : State) : Event → Prop
  | .pick (some pick) => Samples state pick → 0 < pick.timestamp ∧
      (pick.collected = true → state.lastSampleTimestamp pick.thread = 0 ∨ Recent state pick.thread)
  | _ => True

/-- The running time since the last sample of a thread, which has not been charged yet. -/
def State.uncharged (state : State) (thread : Thread) : Int :=
  match state.running with
  | none => 0
  | some start =>
    if start ≤ state.lastSampleTimestamp thread ∧ state.lastSampleTimestamp thread ≠ 0 then
      state.clock - state.lastSampleTimestamp thread
    else 0

structure Clocked (state : State) : Prop where
  past : 0 ≤ state.pastTime
  started : ∀ start, state.running = some start → start ≤ state.clock

/-- The durations of a thread lie apart and within the running time. -/
structure Charged (config : Configuration) (state : State) (thread : Thread) : Prop where
  nonneg : ∀ sample ∈ state.samples thread, 0 ≤ sample.duration
  disjoint : (state.samples thread).Pairwise fun earlier later =>
    earlier.timestamp ≤ later.timestamp - later.duration
  within : ∀ sample ∈ (state.samples thread).tail,
    Within state (sample.timestamp - sample.duration) sample.timestamp
  unsampled : state.lastSampleTimestamp thread = 0 → state.samples thread = []
  positive : 0 ≤ state.lastSampleTimestamp thread
  read : state.lastSampleTimestamp thread ≠ 0 → state.lastSampleTimestamp thread ≤ state.clock
  latest : ∀ sample ∈ state.samples thread, sample.timestamp ≤ state.lastSampleTimestamp thread
  credit : state.charges thread + state.uncharged thread ≤
    state.runningTime + config.samplingPeriod

section Facts

variable {config : Configuration} {state later : State} {thread : Thread}

theorem Charged.uncharged_nonneg (charged : Charged config state thread) :
    0 ≤ state.uncharged thread := by
  unfold State.uncharged
  split
  · exact Int.le_refl 0
  · split
    · rename_i recent
      have := charged.read recent.2
      omega
    · exact Int.le_refl 0

theorem Charged.accounted (charged : Charged config state thread) :
    Accounted config state thread where
  nonneg := charged.nonneg
  disjoint := charged.disjoint
  within := charged.within
  total := by
    have := charged.credit
    have := charged.uncharged_nonneg
    omega

theorem charged_initial (config : Configuration) (now : Int) (thread : Thread) :
    Charged config (.initial now) thread where
  nonneg := nofun
  disjoint := List.Pairwise.nil
  within := nofun
  unsampled _ := rfl
  positive := Int.le_refl 0
  read sampled := absurd rfl sampled
  latest := nofun
  credit := by simpa [State.charges, State.uncharged, State.runningTime, State.pastTime,
    State.initial] using config.samplingPeriod_nonneg

theorem Charged.pass (charged : Charged config state thread)
    (samples : later.samples thread = state.samples thread)
    (last : later.lastSampleTimestamp thread = state.lastSampleTimestamp thread)
    (clock : state.clock ≤ later.clock)
    (within : ∀ first last, Within state first last → Within later first last)
    (credit : state.runningTime + (later.uncharged thread - state.uncharged thread) ≤
      later.runningTime) : Charged config later thread where
  nonneg := by
    rw [samples]
    exact charged.nonneg
  disjoint := by
    rw [samples]
    exact charged.disjoint
  within sample mem := by
    rw [samples] at mem
    exact within _ _ (charged.within sample mem)
  unsampled := by
    rw [samples, last]
    exact charged.unsampled
  positive := by
    rw [last]
    exact charged.positive
  read sampled := by
    rw [last] at sampled ⊢
    exact Int.le_trans (charged.read sampled) clock
  latest := by
    rw [samples, last]
    exact charged.latest
  credit := by
    have before := charged.credit
    have same : later.charges thread = state.charges thread := by
      rw [State.charges, samples, State.charges]
    omega

end Facts

section Steps

variable {config : Configuration} {state : State} {thread : Thread} {now : Int}

theorem Within.pass {later : State} {first last : Int} (within : Within state first last)
    (periods : state.periods ⊆ later.periods)
    (running : ∀ start, state.running = some start → later.running = some start ∧
      state.clock ≤ later.clock ∨ ∃ stop, (start, stop) ∈ later.periods ∧ state.clock ≤ stop) :
    Within later first last := by
  rcases within with ⟨period, mem, bounds⟩ | ⟨start, isRunning, bounds⟩
  · exact .inl ⟨period, periods mem, bounds⟩
  · rcases running start isRunning with ⟨still, clock⟩ | ⟨stop, mem, clock⟩
    · exact .inr ⟨start, still, bounds.1, Int.le_trans bounds.2 clock⟩
    · exact .inl ⟨(start, stop), mem, bounds.1, Int.le_trans bounds.2 clock⟩

section

variable (charged : Charged config state thread) {pick : Pick}
include charged

theorem Charged.start (stopped : state.running = none) (forward : state.clock ≤ now) :
    Charged config { state with clock := now, running := some now } thread := by
  refine charged.pass rfl rfl forward ?_ ?_
  · intro first last within
    exact within.pass (List.Subset.refl _) fun start running => nomatch stopped.symm.trans running
  · have read := charged.read
    simp only [State.runningTime, State.pastTime, State.uncharged, stopped]
    split
    · rename_i recent
      omega
    · omega

theorem Charged.stop {start : Int} (running : state.running = some start)
    (forward : state.clock ≤ now) :
    Charged config { state with
      clock := now, running := none, periods := state.periods ++ [(start, now)] } thread := by
  refine charged.pass rfl rfl forward ?_ ?_
  · intro first last within
    apply within.pass (subset_append_left _ _)
    intro other isRunning
    cases running.symm.trans isRunning
    exact .inr ⟨now, by simp, forward⟩
  · have uncharged := charged.uncharged_nonneg
    have stopped : State.uncharged { state with
        clock := now, running := none,
        periods := state.periods ++ [(start, now)] } thread = 0 := rfl
    simp only [State.runningTime, State.pastTime, running, map_append, sum_append,
      map_cons, map_nil, sum_cons, sum_nil]
    omega

theorem Charged.sample_other (other : thread ≠ pick.thread)
    (forward : state.clock ≤ pick.timestamp) :
    Charged config (state.sample config pick) thread := by
  have samples : (state.sample config pick).samples thread = state.samples thread := by
    simp only [State.sample]
    split
    · exact Function.update_of_ne other ..
    · rfl
  have last : (state.sample config pick).lastSampleTimestamp thread =
      state.lastSampleTimestamp thread :=
    Function.update_of_ne other ..
  refine charged.pass samples last forward ?_ ?_
  · intro first last within
    exact within.pass (List.Subset.refl _) fun start running => .inl ⟨running, forward⟩
  · simp only [State.runningTime, State.pastTime, State.uncharged, last]
    simp only [State.sample]
    split
    · omega
    · split <;> omega

end

theorem runningTime_sample_le (config : Configuration)
    (forward : state.clock ≤ pick.timestamp) :
    state.runningTime ≤ (state.sample config pick).runningTime := by
  simp only [State.runningTime, State.pastTime, State.sample]
  split <;> omega

theorem Clocked.runningTime_nonneg (clocked : Clocked state) : 0 ≤ state.runningTime := by
  have past := clocked.past
  unfold State.runningTime
  split
  · omega
  · rename_i start running
    have := clocked.started start running
    omega

theorem lastSampleTimestamp_sample (config : Configuration) (state : State) (pick : Pick) :
    (state.sample config pick).lastSampleTimestamp pick.thread = pick.timestamp :=
  Function.update_self ..

theorem uncharged_sample (config : Configuration) (state : State) (pick : Pick) :
    (state.sample config pick).uncharged pick.thread = 0 := by
  have last := lastSampleTimestamp_sample config state pick
  simp only [State.uncharged, last]
  simp only [State.sample]
  split
  · rfl
  · split <;> omega

section

variable {pick : Pick} (charged : Charged config state pick.thread)
include charged

theorem Charged.sample_failed (forward : state.clock ≤ pick.timestamp)
    (positive : 0 < pick.timestamp) (failed : pick.collected = false) :
    Charged config (state.sample config pick) pick.thread := by
  have samples : (state.sample config pick).samples = state.samples := by
    simp [State.sample, failed]
  have last := lastSampleTimestamp_sample config state pick
  have uncharged := uncharged_sample config state pick
  refine ⟨?_, ?_, ?_, ?_, ?_, ?_, ?_, ?_⟩
  · rw [samples]
    exact charged.nonneg
  · rw [samples]
    exact charged.disjoint
  · rw [samples]
    intro sample mem
    exact (charged.within sample mem).pass (List.Subset.refl _) fun start running =>
      .inl ⟨running, forward⟩
  · omega
  · omega
  · intro _
    exact Int.le_of_eq last
  · rw [samples, last]
    intro sample mem
    have sampled : state.lastSampleTimestamp pick.thread ≠ 0 := by
      intro unsampled
      rw [charged.unsampled unsampled] at mem
      exact nomatch mem
    have := charged.latest sample mem
    have := charged.read sampled
    omega
  · have before := charged.credit
    have owed := charged.uncharged_nonneg
    have longer := runningTime_sample_le config forward
    rw [uncharged, State.charges, samples]
    rw [State.charges] at before
    omega

theorem Charged.add {duration : Int} (positive : 0 < pick.timestamp)
    (forward : state.clock ≤ pick.timestamp) (collected : pick.collected = true)
    (duration_eq : computeWallTime config pick.timestamp
      (state.lastSampleTimestamp pick.thread) = duration) (nonneg : 0 ≤ duration)
    (disjoint : ∀ sample ∈ state.samples pick.thread, sample.timestamp ≤ pick.timestamp - duration)
    (within : state.samples pick.thread ≠ [] →
      Within (state.sample config pick) (pick.timestamp - duration) pick.timestamp)
    (credit : state.charges pick.thread + duration ≤
      (state.sample config pick).runningTime + config.samplingPeriod) :
    Charged config (state.sample config pick) pick.thread := by
  have samples : (state.sample config pick).samples pick.thread =
      state.samples pick.thread ++ [⟨pick.timestamp, duration⟩] := by
    simp [State.sample, collected, duration_eq]
  have last := lastSampleTimestamp_sample config state pick
  have uncharged := uncharged_sample config state pick
  refine ⟨?_, ?_, ?_, ?_, ?_, ?_, ?_, ?_⟩
  · rw [samples]
    intro sample mem
    rcases mem_append.mp mem with old | new
    · exact charged.nonneg sample old
    · rw [mem_singleton.mp new]
      exact nonneg
  · rw [samples]
    refine pairwise_append.mpr ⟨charged.disjoint, pairwise_singleton _ _, ?_⟩
    intro sample mem other new
    rw [mem_singleton.mp new]
    exact disjoint sample mem
  · rw [samples]
    intro sample mem
    by_cases empty : state.samples pick.thread = []
    · rw [empty] at mem
      exact nomatch mem
    · rw [tail_append_of_ne_nil empty] at mem
      rcases mem_append.mp mem with old | new
      · exact (charged.within sample old).pass (List.Subset.refl _) fun start running =>
          .inl ⟨running, forward⟩
      · rw [mem_singleton.mp new]
        exact within empty
  · omega
  · omega
  · intro _
    exact Int.le_of_eq last
  · rw [samples, last]
    intro sample mem
    rcases mem_append.mp mem with old | new
    · have := disjoint sample old
      omega
    · cases mem_singleton.mp new
      exact Int.le_refl _
  · have sum : (state.sample config pick).charges pick.thread =
        state.charges pick.thread + duration := by
      simp [State.charges, samples]
    omega

theorem Charged.sample_collected (clocked : Clocked state) (forward : state.clock ≤ pick.timestamp)
    (positive : 0 < pick.timestamp) (collected : pick.collected = true)
    (continuous : state.lastSampleTimestamp pick.thread = 0 ∨ Recent state pick.thread) :
    Charged config (state.sample config pick) pick.thread := by
  by_cases unsampled : state.lastSampleTimestamp pick.thread = 0
  · have none := charged.unsampled unsampled
    refine charged.add positive forward collected (by simp [computeWallTime, unsampled])
      config.samplingPeriod_nonneg (by simp [none]) (fun some => absurd none some) ?_
    have longer := runningTime_sample_le config forward
    have running := clocked.runningTime_nonneg
    simp only [State.charges, none, map_nil, sum_nil]
    omega
  · rcases continuous.resolve_left unsampled with ⟨start, running, recent⟩
    have atLeast := charged.positive
    have read := charged.read unsampled
    have duration : computeWallTime config pick.timestamp
        (state.lastSampleTimestamp pick.thread) =
        pick.timestamp - state.lastSampleTimestamp pick.thread := by
      unfold computeWallTime
      rw [if_neg unsampled, if_pos (by omega)]
      omega
    refine charged.add positive forward collected duration (by omega) ?_ ?_ ?_
    · intro sample mem
      have := charged.latest sample mem
      omega
    · exact fun _ => .inr ⟨start, running, by omega, Int.le_refl _⟩
    · have credit := charged.credit
      simp only [State.uncharged, running, recent, unsampled, ne_eq, not_false_eq_true, and_self,
        if_true, State.runningTime] at credit
      simp only [State.runningTime, State.pastTime, State.sample, running] at credit ⊢
      omega

end

def Consistent (config : Configuration) (state : State) : Prop :=
  Clocked state ∧ ∀ thread, Charged config state thread

section

variable (consistent : Consistent config state)
include consistent

theorem Consistent.continueRound (round : Option Round) :
    Consistent config { state with round := round } :=
  ⟨⟨consistent.1.past, consistent.1.started⟩, fun thread => { consistent.2 thread with }⟩

theorem Consistent.sample (forward : state.clock ≤ pick.timestamp) (positive : 0 < pick.timestamp)
    (continuous : pick.collected = true →
      state.lastSampleTimestamp pick.thread = 0 ∨ Recent state pick.thread) :
    Consistent config (state.sample config pick) := by
  refine ⟨⟨consistent.1.past, fun start running => ?_⟩, fun thread => ?_⟩
  · exact Int.le_trans (consistent.1.started start running) forward
  · by_cases same : thread = pick.thread
    · subst thread
      cases collected : pick.collected with
      | false => exact (consistent.2 pick.thread).sample_failed forward positive collected
      | true =>
        exact (consistent.2 pick.thread).sample_collected consistent.1 forward positive collected
          (continuous collected)
    · exact (consistent.2 thread).sample_other same forward

theorem Consistent.next {event : Event} {later : State} (continuous : Continuous state event)
    (taken : state.next config event = some later) :
    Consistent config later := by
  cases event with
  | start now =>
    simp only [State.next] at taken
    split at taken <;> cases taken
    rename_i startable
    refine ⟨⟨consistent.1.past, ?_⟩, fun thread => ?_⟩
    · rintro start ⟨⟩
      exact Int.le_refl _
    · exact (consistent.2 thread).start startable.1 startable.2
  | stop now =>
    simp only [State.next] at taken
    split at taken
    case h_2 => cases taken
    rename_i start running idle
    split at taken <;> cases taken
    rename_i forward
    refine ⟨⟨?_, nofun⟩, fun thread => (consistent.2 thread).stop running forward⟩
    have past := consistent.1.past
    have started := consistent.1.started start running
    simp only [State.pastTime, map_append, sum_append, map_cons, map_nil,
      sum_cons, sum_nil] at past ⊢
    omega
  | beginRound kind managedThreadsCount =>
    simp only [State.next] at taken
    split at taken <;> cases taken
    exact consistent.continueRound _
  | pick offered =>
    simp only [State.next] at taken
    split at taken
    case h_2 => cases taken
    rename_i round inRound
    cases offered with
    | none =>
      cases taken
      exact consistent.continueRound _
    | some pick =>
      simp only [State.pick] at taken
      split at taken
      · cases taken
        exact consistent.continueRound _
      rename_i notFirst
      split at taken
      · cases taken
        exact consistent.continueRound _
      rename_i notSkipped
      split at taken <;> cases taken
      rename_i forward
      have conditions := continuous ⟨round, inRound, notFirst, by simpa using notSkipped⟩
      have sampled := consistent.sample (Int.not_lt.mp forward) conditions.1 conditions.2
      exact sampled.continueRound _

end

end Steps

/-- The wall time of every thread is accounted for as long as no pause is charged. -/
theorem wall_time_accounted {config : Configuration} {now : Int} {events : List Event}
    {state : State}
    (run : ((system config now).restrict Continuous).Run (.initial now) events state)
    (thread : Thread) : Accounted config state thread := by
  have consistent : Consistent config state := by
    refine run.invariant (Consistent config) ?_ ?_
    · exact ⟨⟨Int.le_refl 0, nofun⟩, charged_initial config now⟩
    · rintro state event next consistent ⟨continuous, taken⟩
      exact consistent.next continuous taken
  exact (consistent.2 thread).accounted

def tenMilliseconds : Configuration := ⟨10, 5, 5, by decide⟩

def sampleAt (timestamp : Int) : List Event :=
  [.beginRound .walltime 1, .pick (some ⟨1, true, false, timestamp, true, false⟩)]

theorem wall_time_accounted_while_running : ∃ state,
    (system tenMilliseconds 100).Run (.initial 100)
      (.start 100 :: (sampleAt 110 ++ sampleAt 125 ++ [.stop 130])) state ∧
    state.samples 1 = [⟨110, 10⟩, ⟨125, 15⟩] ∧ Accounted tenMilliseconds state 1 := by
  have meets : System.MeetsAlong (State.next tenMilliseconds) Continuous (.initial 100)
      (.start 100 :: (sampleAt 110 ++ sampleAt 125 ++ [.stop 130])) := by
    refine ⟨trivial, trivial, fun _ => ⟨by decide, fun _ => .inl rfl⟩, trivial, fun _ => ?_,
      trivial, trivial⟩
    exact ⟨by decide, fun _ => .inr ⟨100, rfl, by decide⟩⟩
  exact ⟨_, System.run_of_exec rfl, rfl,
    wall_time_accounted (System.run_restrict_of_exec rfl meets) 1⟩

/-- The pause between a stop and the next start is charged to the thread. -/
theorem pause_charged : ∃ state,
    (system tenMilliseconds 100).Run (.initial 100)
      (.start 100 :: (sampleAt 110 ++ [.stop 120, .start 1000] ++ sampleAt 1010)) state ∧
    state.samples 1 = [⟨110, 10⟩, ⟨1010, 900⟩] ∧ ¬ Accounted tenMilliseconds state 1 := by
  refine ⟨_, System.run_of_exec rfl, rfl, fun accounted => ?_⟩
  exact absurd accounted.total (by decide)

end Pyroscope.WallTime
