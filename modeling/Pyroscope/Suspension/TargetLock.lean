import Pyroscope.Suspension.Balance

/-!
# The lock of the sampled thread

`AllowStackWalk` takes the lock. The guard which releases it is constructed behind
`PrepareForNextCollection`, which may throw.
-/

namespace Pyroscope.Suspension.TargetLock

open Transition Function

inductive Owner where
  | sampler
  | other
  deriving DecidableEq

inductive Pc where
  | idle
  | allowed (target : Thread)
  | prepared (target : Thread)
  | suspended (target : Thread) (isTargetThreadSuspended : Bool)
  | announced (target : Thread)
  | collecting (target : Thread)
  /-- About to call `NotifyCollectionEnd`, with an exception under way or not. -/
  | leaving (target : Thread) (throws : Bool)
  | collected (target : Thread)
  | finishing (target : Thread)
  deriving DecidableEq

/-- What happens to the locks of threads in the calls to the manager. -/
inductive Call where
  /-- `AllowStackWalk` has returned true; so many interventions were made for the thread in the
  current period. -/
  | allowed (target : Thread) (interventions : Nat)
  | refused (target : Thread)
  | released (target : Thread)
  deriving DecidableEq

/-- The manager with the locks of the threads; `calls` has the latest call first. The counts are
of the interventions in the current collection, and for each thread in the current period. -/
structure State extends Manager where
  locks : Thread → Option Owner
  threads : Thread → ThreadInfo
  sampler : Pc
  calls : List Call
  interventions : Nat
  periodInterventions : Thread → Nat

inductive Event where
  | allowStackWalk (target : Thread) (hasHandle isDestroyed throws : Bool)
  | prepareForNextCollection (throws : Bool)
  /-- Nothing is returned if the thread cannot be suspended, or the collector throws. -/
  | suspendTargetThread (isTargetThreadSuspended : Option Bool)
  | notifyThreadState
  | notifyCollectionStart (now : Int) (userTime kernelTime : Nat)
  | collectStackSample (throws : Bool)
  | notifyCollectionEnd
  /-- The thread is resumed, or the collector throws. -/
  | resumeTargetThread
  | notifyIterationFinished
  /-- Where the times of the sampling thread are not read, they count as unchanged. -/
  | watcherLoopIteration (now : Int) (userTime kernelTime : Nat)
  | otherAcquires (thread : Thread)
  | otherReleases (thread : Thread)
  deriving DecidableEq

namespace State

def initial : State where
  toManager := .initial
  locks _ := none
  threads _ := ⟨0, 0⟩
  sampler := .idle
  calls := []
  interventions := 0
  periodInterventions _ := 0

variable (state : State)

def updatedThread (thread : Thread) : ThreadInfo :=
  (state.threads thread).getOrResetDeadlocksCount state.currentPeriod

def isThreadSafe (thread : Thread) : Bool :=
  shouldCollectThread (state.updatedThread thread).deadlockInPeriodCount state.deadlocksInPeriod

/-- The answer differs from the one of the last period; only then something is logged. -/
def isStatusChanged (thread : Thread) : Bool :=
  shouldCollectThread (state.threads thread).deadlockInPeriodCount state.deadlocksInPeriod !=
    state.isThreadSafe thread

def setThread (thread : Thread) (info : ThreadInfo) : State :=
  { state with threads := update state.threads thread info }

def refuse (target : Thread) : State :=
  { state with calls := .refused target :: state.calls }

/-- `AllowStackWalk`, which waits for the lock of the thread. -/
def allowStackWalk (target : Thread) (isDestroyed throws : Bool) : Option State :=
  let updated := state.setThread target (state.updatedThread target)
  if state.isStatusChanged target ∧ throws then some (updated.refuse target)
  else if !state.isThreadSafe target then some (updated.refuse target)
  else if state.locks target ≠ none then none
  else if isDestroyed then some (updated.refuse target)
  else
    some { updated with
      toManager := state.toManager.allow target
      locks := update state.locks target (some .sampler)
      sampler := .allowed target
      calls := .allowed target (state.periodInterventions target) :: state.calls
      interventions := 0 }

def updatePeriod (ndebug : Bool) (state : State) (now : Int) : State :=
  if state.isPeriodOver ndebug now then
    { state with
      toManager := state.startNewStatsAggregationPeriod now
      periodInterventions := fun _ => 0 }
  else state

/-- `PerformDeadlockIntervention`, whose second update of the thread has no effect in the same
period. -/
def performDeadlockIntervention (target : Thread) : State :=
  { state.setThread target (state.updatedThread target).incDeadlocksCount with
    deadlockInterventionInProgress := 1
    deadlocksInPeriod := state.deadlocksInPeriod + 1
    interventions := state.interventions + 1
    periodInterventions :=
      update state.periodInterventions target (state.periodInterventions target + 1) }

/-- The rest of `WatcherLoopIteration`; without a target the process would crash. -/
def watch (now : Int) (userTime kernelTime : Nat) : Option State :=
  if state.collectionStartNs = 0 then some state
  else
    match state.targetThread with
    | none => none
    | some target =>
      if state.deadlockInterventionInProgress ≥ 1 then
        if state.deadlockInterventionInProgress = 1 then
          some { state with deadlockInterventionInProgress := 2 }
        else some state
      else if now - state.collectionStartNs ≤ collectionDurationThresholdNs then some state
      else if state.hasMadeProgress userTime kernelTime then
        some { state with userTime := userTime, kernelTime := kernelTime }
      else some (state.performDeadlockIntervention target)

/-- `NotifyIterationFinished`; without a target the process would crash. -/
def notifyIterationFinished : Option State :=
  state.targetThread.map fun target =>
    { state with
      toManager := state.toManager.notifyIterationFinished
      locks := update state.locks target none
      sampler := .idle
      calls := .released target :: state.calls }

def next (ndebug : Bool) (state : State) : Event → Option State
  | .allowStackWalk target hasHandle isDestroyed throws =>
    if state.sampler = .idle then
      if hasHandle then state.allowStackWalk target isDestroyed throws else some state
    else none
  | .prepareForNextCollection throws =>
    match state.sampler with
    | .allowed target =>
      -- The scope guard is constructed only behind this call.
      some { state with sampler := if throws then .idle else .prepared target }
    | _ => none
  | .suspendTargetThread isTargetThreadSuspended =>
    match state.sampler with
    | .prepared target =>
      some { state with
        sampler := (isTargetThreadSuspended.map (.suspended target)).getD (.finishing target) }
    | _ => none
  | .notifyThreadState =>
    match state.sampler with
    | .suspended target isTargetThreadSuspended =>
      some { state with
        toManager := state.notifyThreadState isTargetThreadSuspended
        sampler := .announced target }
    | _ => none
  | .notifyCollectionStart now userTime kernelTime =>
    match state.sampler with
    | .announced target =>
      some { state with
        toManager := state.notifyCollectionStart now userTime kernelTime
        sampler := .collecting target }
    | _ => none
  | .collectStackSample throws =>
    match state.sampler with
    | .collecting target => some { state with sampler := .leaving target throws }
    | _ => none
  | .notifyCollectionEnd =>
    match state.sampler with
    | .leaving target throws =>
      some { state with
        toManager := state.notifyCollectionEnd
        sampler := if throws then .finishing target else .collected target }
    | _ => none
  | .resumeTargetThread =>
    match state.sampler with
    | .collected target => some { state with sampler := .finishing target }
    | _ => none
  | .notifyIterationFinished =>
    match state.sampler with
    | .finishing _ => state.notifyIterationFinished
    | _ => none
  | .watcherLoopIteration now userTime kernelTime =>
    (state.updatePeriod ndebug now).watch now userTime kernelTime
  | .otherAcquires thread =>
    if state.locks thread = none then
      some { state with locks := update state.locks thread (some .other) }
    else none
  | .otherReleases thread =>
    if state.locks thread = some .other then
      some { state with locks := update state.locks thread none }
    else none

end State

def system (ndebug : Bool) : System State Event :=
  .ofFunction .initial (State.next ndebug)

/-! ## The balance of the lock -/

open Option

namespace Pc

def target : Pc → Option Thread
  | .idle => none
  | .allowed target | .prepared target | .suspended target _ | .announced target
  | .collecting target | .leaving target _ | .collected target | .finishing target => some target

def collects : Pc → Bool
  | .collecting _ | .leaving _ _ => true
  | .idle | .allowed _ | .prepared _ | .suspended _ _ | .announced _ | .collected _
  | .finishing _ => false

def precedes : Pc → Bool
  | .allowed _ | .prepared _ | .suspended _ _ | .announced _ => true
  | .idle | .collecting _ | .leaving _ _ | .collected _ | .finishing _ => false

theorem precedes_of_collects {pc : Pc} (collects : pc.collects = true) : pc.precedes = false := by
  cases pc <;> first | rfl | cases collects

end Pc

namespace Call

def allows : Call → Option Thread
  | .allowed target _ => some target
  | .refused _ | .released _ => none

def releases : Call → Option Thread
  | .released target => some target
  | .allowed _ _ | .refused _ => none

end Call

def owed (calls : List Call) : Option Thread := calls.head?.bind Call.allows

/-- Behind every `AllowStackWalk` which has returned true the next call releases the lock of that
thread, and no other call releases a lock. -/
def Balanced : List Call → Prop
  | [] => True
  | call :: earlier => call.releases = owed earlier ∧ Balanced earlier

namespace State

variable {state next : State} {ndebug : Bool}

/-- What `AllowStackWalk` leaves behind when it returns true. -/
def allow (state : State) (target : Thread) : State :=
  { state.setThread target (state.updatedThread target) with
    toManager := state.toManager.allow target
    locks := update state.locks target (some .sampler)
    sampler := .allowed target
    calls := .allowed target (state.periodInterventions target) :: state.calls
    interventions := 0 }

theorem allowStackWalk_cases (taken : state.allowStackWalk target isDestroyed throws = some next) :
    next = (state.setThread target (state.updatedThread target)).refuse target ∨
      state.isThreadSafe target = true ∧ next = state.allow target := by
  simp only [allowStackWalk] at taken
  split at taken
  · exact .inl (some.inj taken).symm
  split at taken
  · exact .inl (some.inj taken).symm
  rename_i safe
  split at taken
  · cases taken
  split at taken
  · exact .inl (some.inj taken).symm
  · exact .inr ⟨by simpa using safe, (some.inj taken).symm⟩

/-- The target is locked while it is sampled; interventions are counted. -/
structure Sound (state : State) : Prop where
  held : ∀ target, state.sampler.target = some target →
    state.targetThread = some target ∧ state.locks target = some .sampler
  timed : state.collectionStartNs ≠ 0 → state.sampler.collects = true
  quiet : state.sampler.collects = false → state.deadlockInterventionInProgress = 0
  untouched : state.sampler.precedes = true ∨
    state.sampler.collects = true ∧ state.deadlockInterventionInProgress = 0 →
      state.interventions = 0
  once : state.interventions ≤ 1
  periods : ∀ thread, (state.threads thread).deadlockDetectionPeriod ≤ state.currentPeriod
  counted : ∀ thread,
    state.periodInterventions thread = (state.updatedThread thread).deadlockInPeriodCount
  permitted : ∀ target count, .allowed target count ∈ state.calls →
    count ≤ deadlocksPerThreadThreshold

theorem sound_initial : Sound initial where
  held := nofun
  timed notZero := absurd rfl notZero
  quiet _ := rfl
  untouched _ := rfl
  once := Nat.zero_le _
  periods _ := Nat.le_refl _
  counted _ := rfl
  permitted := nofun

theorem updatedThread_setThread (state : State) (thread other : Thread) :
    (state.setThread thread (state.updatedThread thread)).updatedThread other =
      state.updatedThread other := by
  by_cases same : other = thread
  · subst same
    simp only [updatedThread, setThread, update_self, ThreadInfo.getOrResetDeadlocksCount]
    grind
  · simp only [updatedThread, setThread, update_of_ne same]

theorem counted_setThread (sound : Sound state) (thread other : Thread) :
    state.periodInterventions other =
      ((state.setThread thread (state.updatedThread thread)).updatedThread
        other).deadlockInPeriodCount := by
  rw [updatedThread_setThread]
  exact sound.counted other

theorem period_setThread (sound : Sound state) (thread other : Thread) :
    ((state.setThread thread (state.updatedThread thread)).threads other).deadlockDetectionPeriod ≤
      state.currentPeriod := by
  by_cases same : other = thread
  · subst same
    simp only [updatedThread, setThread, update_self, ThreadInfo.getOrResetDeadlocksCount]
    grind
  · simp only [setThread, update_of_ne same]
    exact sound.periods other

namespace Sound

variable (sound : Sound state) {target : Thread} {isDestroyed throws : Bool}
  {userTime kernelTime : Nat} {now : Int}
include sound

theorem moved {sampler : Pc} {isTargetThreadSuspended : Bool}
    (sameTarget : ∀ target, sampler.target = some target → state.sampler.target = some target)
    (sameCollects : sampler.collects = state.sampler.collects)
    (precedes : sampler.precedes = true → state.sampler.precedes = true) :
    Sound { state with
      toManager := state.notifyThreadState isTargetThreadSuspended
      sampler := sampler } :=
  { sound with
    held target isTarget := sound.held target (sameTarget target isTarget)
    timed notZero := sameCollects.trans (sound.timed notZero)
    quiet collects := sound.quiet (sameCollects.symm.trans collects)
    untouched early := by
      apply sound.untouched
      rcases early with before | ⟨collects, noIntervention⟩
      · exact .inl (precedes before)
      · exact .inr ⟨sameCollects.symm.trans collects, noIntervention⟩ }

theorem notifyCollectionStart (here : state.sampler = .announced target) :
    Sound { state with
      toManager := state.toManager.notifyCollectionStart now userTime kernelTime
      sampler := .collecting target } :=
  { sound with
    held other isTarget := sound.held other (by rw [here]; exact isTarget)
    timed _ := rfl
    quiet := nofun
    untouched _ := sound.untouched (.inl (by rw [here]; rfl)) }

theorem notifyCollectionEnd {sampler : Pc} (sameTarget : sampler.target = state.sampler.target)
    (ends : sampler.collects = false) (behind : sampler.precedes = false) :
    Sound { state with
      toManager := state.toManager.notifyCollectionEnd
      sampler := sampler } :=
  { sound with
    held target isTarget := sound.held target (sameTarget.symm.trans isTarget)
    timed notZero := absurd rfl notZero
    quiet _ := rfl
    untouched early := by
      rcases early with before | ⟨collects, _⟩
      · cases behind.symm.trans before
      · cases ends.symm.trans collects }

theorem permitted_cons {call : Call} (other : call.allows = none) (target : Thread) (count : Nat)
    (isCall : .allowed target count ∈ call :: state.calls) :
    count ≤ deadlocksPerThreadThreshold := by
  rcases List.mem_cons.mp isCall with isFirst | before
  · rw [← isFirst] at other
    cases other
  · exact sound.permitted target count before

theorem finished (here : state.sampler = .finishing target) :
    Sound { state with
      toManager := state.toManager.notifyIterationFinished
      locks := update state.locks target none
      sampler := .idle
      calls := .released target :: state.calls } :=
  { sound with
    held := nofun
    timed notZero := absurd rfl notZero
    quiet _ := sound.quiet (by rw [here]; rfl)
    untouched := nofun
    permitted := sound.permitted_cons rfl }

theorem refused (target : Thread) :
    Sound ((state.setThread target (state.updatedThread target)).refuse target) :=
  { sound with
    periods := period_setThread sound target
    counted := counted_setThread sound target
    permitted := sound.permitted_cons rfl }

theorem allowed (here : state.sampler = .idle) (safe : state.isThreadSafe target = true) :
    Sound (state.allow target) where
  held other isTarget := by
    cases isTarget
    exact ⟨rfl, update_self _ _ _⟩
  timed notZero := by
    have collects := sound.timed notZero
    rw [here] at collects
    cases collects
  quiet _ := sound.quiet (by rw [here]; rfl)
  untouched _ := rfl
  once := Nat.zero_le _
  periods := period_setThread sound target
  counted := counted_setThread sound target
  permitted other count isCall := by
    rcases List.mem_cons.mp isCall with isAllowed | before
    · cases isAllowed
      rw [isThreadSafe, shouldCollectThread, Bool.and_eq_true, decide_eq_true_eq] at safe
      rw [sound.counted target]
      exact safe.1
    · exact sound.permitted other count before

theorem updatePeriod (now : Int) : Sound (state.updatePeriod ndebug now) := by
  rw [State.updatePeriod]
  split
  · refine ⟨sound.held, sound.timed, sound.quiet, sound.untouched, sound.once, ?_, ?_,
      sound.permitted⟩
    · intro thread
      exact Nat.le_succ_of_le (sound.periods thread)
    · intro thread
      have older := sound.periods thread
      have reset : (state.threads thread).deadlockDetectionPeriod ≠ state.currentPeriod + 1 := by
        omega
      simp only [updatedThread, ThreadInfo.getOrResetDeadlocksCount,
        Manager.startNewStatsAggregationPeriod, ne_eq, reset, not_false_eq_true, if_true]
  · exact sound

theorem performDeadlockIntervention (target : Thread) (collects : state.collectionStartNs ≠ 0)
    (first : state.deadlockInterventionInProgress = 0) :
    Sound (state.performDeadlockIntervention target) where
  held := sound.held
  timed := sound.timed
  quiet noCollection := by
    cases (sound.timed collects).symm.trans noCollection
  untouched early := by
    rcases early with before | ⟨_, none⟩
    · have behind := Pc.precedes_of_collects (sound.timed collects)
      cases behind.symm.trans before
    · cases none
  once := by
    have none := sound.untouched (.inr ⟨sound.timed collects, first⟩)
    simp only [State.performDeadlockIntervention, none, Nat.le_refl]
  periods thread := by
    by_cases same : thread = target
    · subst same
      have current := period_setThread sound thread thread
      simp only [setThread, update_self] at current
      simp only [State.performDeadlockIntervention, setThread, update_self]
      exact current
    · simp only [State.performDeadlockIntervention, setThread, update_of_ne same]
      exact sound.periods thread
  counted thread := by
    have before := sound.counted thread
    by_cases same : thread = target
    · subst same
      simp only [State.performDeadlockIntervention, setThread, update_self,
        updatedThread, ThreadInfo.getOrResetDeadlocksCount, ThreadInfo.incDeadlocksCount] at *
      grind
    · simp only [State.performDeadlockIntervention, setThread, update_of_ne same,
        updatedThread] at *
      exact before
  permitted := sound.permitted

theorem watch (taken : state.watch now userTime kernelTime = some next) : Sound next := by
  rw [State.watch] at taken
  split at taken
  · cases taken
    exact sound
  · rename_i collects
    split at taken
    · cases taken
    · split at taken
      · split at taken
        · cases taken
          refine ⟨sound.held, sound.timed, ?_, ?_, sound.once, sound.periods, sound.counted,
            sound.permitted⟩
          · intro noCollection
            cases (sound.timed collects).symm.trans noCollection
          · intro early
            rcases early with before | ⟨_, none⟩
            · exact sound.untouched (.inl before)
            · cases none
        · cases taken
          exact sound
      · rename_i target _ first
        split at taken
        · cases taken
          exact sound
        · split at taken
          · cases taken
            exact { sound with }
          · cases taken
            exact sound.performDeadlockIntervention target collects (by omega)

theorem otherMoves {thread : Thread} {owner : Option Owner}
    (notHeld : state.locks thread ≠ some .sampler) :
    Sound { state with locks := update state.locks thread owner } :=
  { sound with
    held target isTarget := by
      rcases sound.held target isTarget with ⟨isSet, isHeld⟩
      have another : target ≠ thread := by
        rintro rfl
        exact notHeld isHeld
      exact ⟨isSet, (update_of_ne another _ _).trans isHeld⟩ }

theorem step {event : Event} (taken : state.next ndebug event = some next) : Sound next := by
  cases event with
  | allowStackWalk target hasHandle isDestroyed throws =>
    rw [State.next, ite_none_right_eq_some] at taken
    rcases taken with ⟨here, taken⟩
    split at taken
    · rcases allowStackWalk_cases taken with rfl | ⟨safe, rfl⟩
      · exact sound.refused target
      · exact sound.allowed here safe
    · cases taken
      exact sound
  | prepareForNextCollection throws =>
    simp only [State.next] at taken
    split at taken <;> cases taken
    next target here =>
      cases throws <;>
        exact sound.moved (by rw [here]; first | exact fun _ => id | exact nofun)
          (by rw [here]; rfl) (by rw [here]; first | exact id | exact nofun)
  | suspendTargetThread isTargetThreadSuspended =>
    simp only [State.next] at taken
    split at taken <;> cases taken
    next target here =>
      cases isTargetThreadSuspended <;>
        exact sound.moved (by rw [here]; exact fun _ => id) (by rw [here]; rfl)
          (by rw [here]; exact fun _ => rfl)
  | notifyThreadState =>
    simp only [State.next] at taken
    split at taken <;> cases taken
    next target _ here =>
      exact sound.moved (by rw [here]; exact fun _ => id) (by rw [here]; rfl)
        (by rw [here]; exact id)
  | notifyCollectionStart now userTime kernelTime =>
    simp only [State.next] at taken
    split at taken <;> cases taken
    next target here =>
      exact sound.notifyCollectionStart here
  | collectStackSample throws | resumeTargetThread =>
    simp only [State.next] at taken
    split at taken <;> cases taken
    next target here =>
      exact sound.moved (by rw [here]; exact fun _ => id) (by rw [here]; rfl)
        (by rw [here]; exact id)
  | notifyCollectionEnd =>
    simp only [State.next] at taken
    split at taken <;> cases taken
    next target throws here =>
      cases throws <;> exact sound.notifyCollectionEnd (by rw [here]; rfl) rfl rfl
  | notifyIterationFinished =>
    simp only [State.next] at taken
    split at taken
    · rename_i target here
      have isTarget := (sound.held target (by rw [here]; rfl)).1
      rw [State.notifyIterationFinished, isTarget] at taken
      cases taken
      exact sound.finished here
    · cases taken
  | watcherLoopIteration now userTime kernelTime =>
    exact (sound.updatePeriod now).watch taken
  | otherAcquires thread =>
    rcases ite_none_right_eq_some.mp taken with ⟨free, ⟨⟩⟩
    exact sound.otherMoves (by rw [free]; nofun)
  | otherReleases thread =>
    rcases ite_none_right_eq_some.mp taken with ⟨isOther, ⟨⟩⟩
    exact sound.otherMoves (by rw [isOther]; nofun)

end Sound

theorem calls_updatePeriod (now : Int) : (state.updatePeriod ndebug now).calls = state.calls := by
  rw [updatePeriod]
  split <;> rfl

theorem sampler_updatePeriod (now : Int) :
    (state.updatePeriod ndebug now).sampler = state.sampler := by
  rw [updatePeriod]
  split <;> rfl

theorem kept_of_watch (taken : state.watch now userTime kernelTime = some next) :
    next.calls = state.calls ∧ next.sampler = state.sampler := by
  rw [watch] at taken
  repeat' split at taken
  all_goals
    cases taken
    try exact ⟨rfl, rfl⟩

def Prepares (_ : State) (event : Event) : Prop := event ≠ .prepareForNextCollection true

instance (state : State) (event : Event) : Decidable (Prepares state event) :=
  inferInstanceAs (Decidable (event ≠ _))

/-- The lock which is still to be released is that of the thread which is being sampled. -/
structure Settled (state : State) : Prop where
  balanced : Balanced state.calls
  owes : owed state.calls = state.sampler.target

namespace Settled

theorem moved (settled : Settled state) (sameCalls : next.calls = state.calls)
    (sameTarget : next.sampler.target = state.sampler.target) : Settled next where
  balanced := by
    rw [sameCalls]
    exact settled.balanced
  owes := by
    rw [sameCalls, sameTarget]
    exact settled.owes

theorem called (settled : Settled state) {call : Call} (calls : next.calls = call :: state.calls)
    (releases : call.releases = state.sampler.target) (allows : call.allows = next.sampler.target) :
    Settled next where
  balanced := by
    rw [calls]
    exact ⟨releases.trans settled.owes.symm, settled.balanced⟩
  owes := by
    rw [calls]
    exact allows

theorem step (settled : Settled state) (sound : Sound state) {event : Event}
    (prepares : Prepares state event) (taken : state.next ndebug event = some next) :
    Settled next := by
  cases event with
  | allowStackWalk target hasHandle isDestroyed throws =>
    rw [State.next, ite_none_right_eq_some] at taken
    rcases taken with ⟨here, taken⟩
    split at taken
    · rcases allowStackWalk_cases taken with rfl | ⟨-, rfl⟩
      · exact settled.called rfl (by rw [here]; rfl) (here ▸ rfl)
      · exact settled.called rfl (by rw [here]; rfl) rfl
    · cases taken
      exact settled
  | prepareForNextCollection throws =>
    simp only [State.next] at taken
    split at taken <;> cases taken
    next target here =>
      cases throws with
      | true => exact absurd rfl prepares
      | false => exact settled.moved rfl (by rw [here]; rfl)
  | suspendTargetThread isTargetThreadSuspended =>
    simp only [State.next] at taken
    split at taken <;> cases taken
    next target here =>
      cases isTargetThreadSuspended <;> exact settled.moved rfl (by rw [here]; rfl)
  | notifyCollectionEnd =>
    simp only [State.next] at taken
    split at taken <;> cases taken
    next target throws here =>
      cases throws <;> exact settled.moved rfl (by rw [here]; rfl)
  | notifyThreadState | notifyCollectionStart now userTime kernelTime | collectStackSample throws
  | resumeTargetThread =>
    simp only [State.next] at taken
    split at taken <;> cases taken
    next here =>
      exact settled.moved rfl (by rw [here]; rfl)
  | notifyIterationFinished =>
    simp only [State.next] at taken
    split at taken
    · rename_i target here
      have isTarget := (sound.held target (by rw [here]; rfl)).1
      rw [State.notifyIterationFinished, isTarget] at taken
      cases taken
      exact settled.called rfl (by rw [here]; rfl) rfl
    · cases taken
  | watcherLoopIteration now userTime kernelTime =>
    have kept := kept_of_watch taken
    rw [calls_updatePeriod, sampler_updatePeriod] at kept
    exact settled.moved kept.1 (congrArg Pc.target kept.2)
  | otherAcquires thread | otherReleases thread =>
    rcases ite_none_right_eq_some.mp taken with ⟨_, ⟨⟩⟩
    exact settled.moved rfl rfl

end Settled

/-- If `PrepareForNextCollection` does not throw, every walk which is allowed ends with the release
of its lock before the next one, whatever else throws. The start time of a collection is set only
while the target is locked; there is one intervention in a collection at most; and a thread with
too many interventions in the current period is not walked. -/
theorem target_lock_is_balanced (ndebug : Bool) (events : List Event) (state : State)
    (run : ((system ndebug).restrict Prepares).Run (system ndebug).init events state) :
    Balanced state.calls ∧
      (state.collectionStartNs ≠ 0 →
        ∃ target, state.targetThread = some target ∧ state.locks target = some .sampler) ∧
      state.interventions ≤ 1 ∧
      ∀ target count, .allowed target count ∈ state.calls →
        count ≤ deadlocksPerThreadThreshold := by
  have invariant : Sound state ∧ Settled state := by
    refine run.invariant (fun state => Sound state ∧ Settled state) ?_ ?_
    · exact ⟨sound_initial, trivial, rfl⟩
    · rintro state event next ⟨sound, settled⟩ ⟨prepares, taken⟩
      exact ⟨sound.step taken, settled.step sound prepares taken⟩
  rcases invariant with ⟨sound, settled⟩
  refine ⟨settled.balanced, ?_, sound.once, sound.permitted⟩
  intro notZero
  have collects := sound.timed notZero
  cases here : state.sampler with
  | collecting target | leaving target throws =>
    exact ⟨target, sound.held target (by rw [here]; rfl)⟩
  | _ =>
    rw [here] at collects
    cases collects

/-!
### Two threads in a row
-/

def sampling : List Event :=
  [.allowStackWalk 3 true false false, .prepareForNextCollection false,
    .suspendTargetThread (some true), .notifyThreadState, .notifyCollectionStart 1 5 5,
    .watcherLoopIteration 600000000 5 5, .watcherLoopIteration 700000000 5 5,
    .collectStackSample true, .notifyCollectionEnd, .notifyIterationFinished,
    .allowStackWalk 4 true false false]

theorem interrupted_sampling_is_balanced : ∃ state,
    (system true).Run (system true).init sampling state ∧
      state.calls = [.allowed 4 0, .released 3, .allowed 3 0] ∧ Balanced state.calls := by
  refine System.exists_run_of_restricted_exec Prepares rfl (by decide +kernel) ?_
  intro run
  exact ⟨rfl, (target_lock_is_balanced true _ _ run).1⟩

/-- The lock of the first thread is still held when the second one is sampled. -/
theorem failed_preparation_keeps_lock : ∃ state,
    (system true).Run (system true).init
      [.allowStackWalk 3 true false false, .prepareForNextCollection true,
        .allowStackWalk 4 true false false] state ∧
      state.calls = [.allowed 4 0, .allowed 3 0] ∧ state.locks 3 = some .sampler ∧
      ¬ Balanced state.calls := by
  refine ⟨_, System.run_of_exec rfl, rfl, rfl, ?_⟩
  rintro ⟨releases, _⟩
  cases releases

end State

end Pyroscope.Suspension.TargetLock
