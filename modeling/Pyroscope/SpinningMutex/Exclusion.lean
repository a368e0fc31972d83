import Mathlib.Algebra.Ring.Int.Defs
import Pyroscope.Lib.Population
import Pyroscope.Lib.Transition

/-!
# The spinning reader-writer lock

One step is one access to a word of 32 bits. A reader which has found `_waitingWriters` at zero may
still join after a writer has started to wait.
-/

namespace Pyroscope.SpinningMutex

open Transition

def int32 (value : Int) : Int := Int.bmod value (2 ^ 32)

def kFree : Int := 0

def kExclusive : Int := -1

def kMaxActiveSpin : Nat := 4000

inductive Call where
  | tryLock
  /-- `lock` without and `try_lock_for` with a timeout. -/
  | blocking (timeout : Option Int)
  deriving DecidableEq

/-- `time_point::max()` is `none`: the clock does not get there. -/
def timeoutTime (now : Int) (timeout : Option Int) : Option Int :=
  timeout.map fun duration => now + duration

/-- The end of one round of a slow path: the number of rounds so far, unless it is too late. -/
def spin (now : Int) (spincount : Nat) (deadline : Option Int) : Option Nat :=
  if spincount < kMaxActiveSpin then
    some (spincount + 1)
  else if deadline.any fun time => decide (time ≤ now) then
    none
  else
    some spincount

/-- The shared lock is attempted by `try_lock_shared`, or in a round of
`try_lock_shared_until_slow`. -/
inductive Attempt where
  | fast (call : Call)
  | slow (spincount : Nat) (deadline : Option Int)
  deriving DecidableEq

/-- Where a thread is; `outside` of every call unless it is said otherwise. -/
inductive Place where
  | outside
  | trying (call : Call)
  | registering (timeout : Option Int)
  | spinning (spincount : Nat) (deadline : Option Int)
  | unregistering (acquired : Bool)
  | holdingExclusive
  | yielding (attempt : Attempt)
  | loading (attempt : Attempt)
  | joining (attempt : Attempt) (expected : Int) (noWriter : kFree ≤ expected)
  | holdingShared
  deriving DecidableEq

def Call.refused : Call → Place
  | .tryLock => .outside
  | .blocking timeout => .registering timeout

/-- No reader may join: a writer waits or holds the lock. -/
def Attempt.refused (now : Int) : Attempt → Place
  | .fast .tryLock => .outside
  | .fast (.blocking timeout) => .yielding (.slow 0 (timeoutTime now timeout))
  | .slow spincount deadline =>
    match spin now spincount deadline with
    | some spincount => .yielding (.slow spincount deadline)
    | none => .outside

def Attempt.expecting (now expected : Int) (attempt : Attempt) : Place :=
  if noWriter : kFree ≤ expected then .joining attempt expected noWriter else attempt.refused now

def refusedSlow (now : Int) (spincount : Nat) (deadline : Option Int) : Place :=
  match spin now spincount deadline with
  | some spincount => .spinning spincount deadline
  | none => .unregistering false

structure Mutex (Thread : Type) where
  state : Int
  waitingWriters : Int
  threads : Thread → Place

inductive Event (Thread : Type) where
  | lock (thread : Thread)
  | tryLock (thread : Thread)
  | tryLockFor (thread : Thread) (timeout : Int)
  | lockShared (thread : Thread)
  | tryLockShared (thread : Thread)
  | tryLockSharedFor (thread : Thread) (timeout : Int)
  | unlock (thread : Thread)
  | unlockShared (thread : Thread)
  /-- The next access of a thread inside of a call, with what the clock reads. -/
  | step (thread : Thread) (now : Int) (spurious : Bool)

namespace Mutex

variable {Thread : Type} [DecidableEq Thread]

def initial : Mutex Thread := ⟨kFree, 0, fun _ => .outside⟩

variable (mutex : Mutex Thread)

def put (thread : Thread) (place : Place) : Mutex Thread :=
  { mutex with threads := Function.update mutex.threads thread place }

def call (thread : Thread) (place : Place) : Option (Mutex Thread) :=
  if mutex.threads thread = .outside then some (mutex.put thread place) else none

def unlock (thread : Thread) : Option (Mutex Thread) :=
  if mutex.threads thread = .holdingExclusive then
    some { mutex.put thread .outside with state := kFree }
  else
    none

def unlockShared (thread : Thread) : Option (Mutex Thread) :=
  if mutex.threads thread = .holdingShared then
    some { mutex.put thread .outside with state := int32 (mutex.state - 1) }
  else
    none

def access (thread : Thread) (now : Int) (spurious : Bool) :
    Option (Mutex Thread) :=
  match mutex.threads thread with
  | .outside | .holdingExclusive | .holdingShared => none
  | .trying call =>
    if mutex.state = kFree then
      some { mutex.put thread .holdingExclusive with state := kExclusive }
    else
      some (mutex.put thread call.refused)
  | .registering timeout =>
    some { mutex.put thread (.spinning 0 (timeoutTime now timeout)) with
      waitingWriters := int32 (mutex.waitingWriters + 1) }
  | .spinning spincount deadline =>
    if mutex.state = kFree ∧ spurious = false then
      some { mutex.put thread (.unregistering true) with state := kExclusive }
    else
      some (mutex.put thread (refusedSlow now spincount deadline))
  | .unregistering acquired =>
    some { mutex.put thread (if acquired then .holdingExclusive else .outside) with
      waitingWriters := int32 (mutex.waitingWriters - 1) }
  | .yielding attempt =>
    if mutex.waitingWriters = 0 then
      some (mutex.put thread (.loading attempt))
    else
      some (mutex.put thread (attempt.refused now))
  | .loading attempt => some (mutex.put thread (attempt.expecting now mutex.state))
  | .joining attempt expected _ =>
    if mutex.state = expected ∧ spurious = false then
      some { mutex.put thread .holdingShared with state := int32 (expected + 1) }
    else
      -- A failed exchange leaves the value it has found in `expected`.
      some (mutex.put thread (attempt.expecting now mutex.state))

def step (mutex : Mutex Thread) : Event Thread → Option (Mutex Thread)
  | .lock thread => mutex.call thread (.trying (.blocking none))
  | .tryLock thread => mutex.call thread (.trying .tryLock)
  | .tryLockFor thread timeout => mutex.call thread (.trying (.blocking (some timeout)))
  | .lockShared thread => mutex.call thread (.yielding (.fast (.blocking none)))
  | .tryLockShared thread => mutex.call thread (.yielding (.fast .tryLock))
  | .tryLockSharedFor thread timeout =>
    mutex.call thread (.yielding (.fast (.blocking (some timeout))))
  | .unlock thread => mutex.unlock thread
  | .unlockShared thread => mutex.unlockShared thread
  | .step thread now spurious => mutex.access thread now spurious

end Mutex

def system (Thread : Type) [DecidableEq Thread] : System (Mutex Thread) (Event Thread) :=
  .ofFunction Mutex.initial Mutex.step

/-! ## What the words of the lock count -/

open Population Place Option

structure Role where
  writes : Bool
  reads : Bool
  waits : Bool

def Place.role : Place → Role
  | .spinning _ _ => ⟨false, false, true⟩
  | .unregistering acquired => ⟨acquired, false, true⟩
  | .holdingExclusive => ⟨true, false, false⟩
  | .holdingShared => ⟨false, true, false⟩
  | .outside | .trying _ | .registering _ | .yielding _ | .loading _ | .joining _ _ _ =>
    ⟨false, false, false⟩

/-- The thread has been let in by `_waitingWriters`, or has got the shared lock. -/
def Place.joins : Place → Bool
  | .loading _ | .joining _ _ _ | .holdingShared => true
  | .outside | .trying _ | .registering _ | .spinning _ _ | .unregistering _
  | .holdingExclusive | .yielding _ => false

theorem Call.role_refused (call : Call) : call.refused.role = ⟨false, false, false⟩ := by
  cases call <;> rfl

theorem Call.joins_refused (call : Call) : call.refused.joins = false := by
  cases call <;> rfl

theorem role_refusedSlow (now : Int) (spincount : Nat) (deadline : Option Int) :
    (refusedSlow now spincount deadline).role = ⟨false, false, true⟩ := by
  rw [refusedSlow]
  split <;> rfl

theorem joins_refusedSlow (now : Int) (spincount : Nat) (deadline : Option Int) :
    (refusedSlow now spincount deadline).joins = false := by
  rw [refusedSlow]
  split <;> rfl

namespace Attempt

variable (now : Int) (attempt : Attempt)

theorem refused_eq :
    attempt.refused now = .outside ∨ ∃ later, attempt.refused now = .yielding later := by
  cases attempt with
  | fast call =>
    cases call with
    | tryLock => exact .inl rfl
    | blocking timeout => exact .inr ⟨_, rfl⟩
  | slow spincount deadline =>
    rw [refused]
    split
    · exact .inr ⟨_, rfl⟩
    · exact .inl rfl

theorem role_refused : (attempt.refused now).role = ⟨false, false, false⟩ := by
  rcases attempt.refused_eq now with isOutside | ⟨later, isLater⟩
  · rw [isOutside]
    rfl
  · rw [isLater]
    rfl

theorem joins_refused : (attempt.refused now).joins = false := by
  rcases attempt.refused_eq now with isOutside | ⟨later, isLater⟩
  · rw [isOutside]
    rfl
  · rw [isLater]
    rfl

theorem role_expecting (expected : Int) :
    (attempt.expecting now expected).role = ⟨false, false, false⟩ := by
  rw [expecting]
  split
  · rfl
  · exact attempt.role_refused now

end Attempt

namespace Mutex

variable {Thread : Type} [DecidableEq Thread]
variable {mutex next : Mutex Thread} {thread : Thread} {place : Place} {mover thread : Thread}
  {event : Event Thread} {spurious : Bool}

/-- What a step does to the words and to the role of a thread. -/
inductive Effect (mutex : Mutex Thread) : Mutex Thread → Prop
  | moved {thread : Thread} {place : Place} (same : place.role = (mutex.threads thread).role) :
      Effect mutex (mutex.put thread place)
  | acquired {thread : Thread} {place : Place} {waits : Bool} (free : mutex.state = kFree)
      (before : (mutex.threads thread).role = ⟨false, false, waits⟩)
      (after : place.role = ⟨true, false, waits⟩) :
      Effect mutex { mutex.put thread place with state := kExclusive }
  | registered {thread : Thread} {place : Place}
      (before : (mutex.threads thread).role = ⟨false, false, false⟩)
      (after : place.role = ⟨false, false, true⟩) :
      Effect mutex { mutex.put thread place with
        waitingWriters := int32 (mutex.waitingWriters + 1) }
  | unregistered {thread : Thread} {place : Place} {writes : Bool}
      (before : (mutex.threads thread).role = ⟨writes, false, true⟩)
      (after : place.role = ⟨writes, false, false⟩) :
      Effect mutex { mutex.put thread place with
        waitingWriters := int32 (mutex.waitingWriters - 1) }
  | joined {thread : Thread} {place : Place} (noWriter : kFree ≤ mutex.state)
      (before : (mutex.threads thread).role = ⟨false, false, false⟩)
      (after : place.role = ⟨false, true, false⟩) :
      Effect mutex { mutex.put thread place with state := int32 (mutex.state + 1) }
  | unlocked {thread : Thread} {place : Place}
      (before : (mutex.threads thread).role = ⟨true, false, false⟩)
      (after : place.role = ⟨false, false, false⟩) :
      Effect mutex { mutex.put thread place with state := kFree }
  | unlockedShared {thread : Thread} {place : Place}
      (before : (mutex.threads thread).role = ⟨false, true, false⟩)
      (after : place.role = ⟨false, false, false⟩) :
      Effect mutex { mutex.put thread place with state := int32 (mutex.state - 1) }

theorem effect_of_call (entered : place.role = ⟨false, false, false⟩)
    (taken : mutex.call thread place = some next) : Effect mutex next := by
  rcases ite_none_right_eq_some.mp taken with ⟨isOutside, ⟨⟩⟩
  apply Effect.moved
  rw [entered, isOutside, role]

theorem effect_of_unlock (taken : mutex.unlock thread = some next) : Effect mutex next := by
  rcases ite_none_right_eq_some.mp taken with ⟨holds, ⟨⟩⟩
  refine .unlocked ?_ rfl
  rw [holds, role]

theorem effect_of_unlockShared (taken : mutex.unlockShared thread = some next) :
    Effect mutex next := by
  rcases ite_none_right_eq_some.mp taken with ⟨holds, ⟨⟩⟩
  refine .unlockedShared ?_ rfl
  rw [holds, role]

theorem effect_of_access {now : Int} (taken : mutex.access thread now spurious = some next) :
    Effect mutex next := by
  rw [access] at taken
  split at taken
  · cases taken
  · cases taken
  · cases taken
  case h_4 call here =>
    split at taken
    · rename_i free
      cases taken
      refine .acquired free ?_ rfl
      rw [here, role]
    · cases taken
      apply Effect.moved
      rw [here, call.role_refused, role]
  case h_5 timeout here =>
    cases taken
    refine .registered ?_ rfl
    rw [here, role]
  case h_6 spincount deadline here =>
    split at taken
    · rename_i free
      cases taken
      refine .acquired free.1 ?_ rfl
      rw [here, role]
    · cases taken
      apply Effect.moved
      rw [here, role_refusedSlow, role]
  case h_7 acquired here =>
    cases taken
    apply Effect.unregistered
    · rw [here, role]
    · cases acquired <;> rfl
  case h_8 attempt here =>
    split at taken
    · cases taken
      apply Effect.moved
      rw [here, role, role]
    · cases taken
      apply Effect.moved
      rw [here, attempt.role_refused, role]
  case h_9 attempt here =>
    cases taken
    apply Effect.moved
    rw [here, attempt.role_expecting, role]
  case h_10 attempt expected noWriter here =>
    split at taken
    · rename_i found
      cases taken
      rw [← found.1] at noWriter ⊢
      refine .joined noWriter ?_ rfl
      rw [here, role]
    · cases taken
      apply Effect.moved
      rw [here, attempt.role_expecting, role]

theorem effect_of_step (taken : mutex.step event = some next) : Effect mutex next := by
  cases event with
  | lock thread | tryLock thread | tryLockFor thread timeout | lockShared thread
  | tryLockShared thread | tryLockSharedFor thread timeout => exact effect_of_call rfl taken
  | unlock thread => exact effect_of_unlock taken
  | unlockShared thread => exact effect_of_unlockShared taken
  | step thread now spurious => exact effect_of_access taken

section Counting

variable [Fintype Thread]

def writers (mutex : Mutex Thread) : Nat :=
  population (fun place => place.role.writes) mutex.threads

def readers (mutex : Mutex Thread) : Nat :=
  population (fun place => place.role.reads) mutex.threads

def waiting (mutex : Mutex Thread) : Nat :=
  population (fun place => place.role.waits) mutex.threads

theorem int32_of_lt {value : Int} (lower : -2 ^ 31 ≤ value) (upper : value < 2 ^ 31) :
    int32 value = value := by
  rw [int32, Int.bmod_def]
  omega

/-- The words stand for so many writers, readers and waiting writers. -/
structure Counts (state waitingWriters : Int) (writers readers waiting : Nat) : Prop where
  state : writers = 0 ∧ state = readers ∨ writers = 1 ∧ readers = 0 ∧ state = kExclusive
  waitingWriters : waitingWriters = waiting

/-- The word counts the owners and the waiting writers. -/
def Sound (mutex : Mutex Thread) : Prop :=
  Counts mutex.state mutex.waitingWriters mutex.writers mutex.readers mutex.waiting

omit [DecidableEq Thread] in
theorem sound_initial : Sound (initial : Mutex Thread) := by
  have nobody {kind : Place → Bool} (no : kind .outside = false) :
      population kind (initial : Mutex Thread).threads = 0 := by
    apply population_eq_zero
    intro thread
    exact no
  rw [Sound, writers, readers, waiting, nobody rfl, nobody rfl, nobody rfl]
  exact ⟨.inl ⟨rfl, rfl⟩, rfl⟩

theorem sound_put {before after : Role} {state waitingWriters : Int}
    (isBefore : (mutex.threads thread).role = before) (isAfter : place.role = after)
    (counts : ∀ writers readers waiting,
      writers + before.writes.toNat = mutex.writers + after.writes.toNat →
      readers + before.reads.toNat = mutex.readers + after.reads.toNat →
      waiting + before.waits.toNat = mutex.waiting + after.waits.toNat →
      readers ≤ Fintype.card Thread → waiting ≤ Fintype.card Thread →
      Counts state waitingWriters writers readers waiting) :
    Sound ⟨state, waitingWriters, (mutex.put thread place).threads⟩ := by
  subst isBefore isAfter
  exact counts _ _ _ (population_update thread place) (population_update thread place)
    (population_update thread place) population_le_card population_le_card

theorem Sound.step (sound : Sound mutex) (few : Fintype.card Thread < 2 ^ 31)
    (effect : Effect mutex next) : Sound next := by
  rcases sound with ⟨state, waitingWriters⟩
  cases effect with
  | moved same =>
    refine sound_put rfl same ?_
    intro writers readers waiting sameWriters sameReaders sameWaiting _ _
    rw [Nat.add_right_cancel sameWriters, Nat.add_right_cancel sameReaders,
      Nat.add_right_cancel sameWaiting]
    exact ⟨state, waitingWriters⟩
  | acquired free before after =>
    refine sound_put before after ?_
    intro writers readers waiting moreWriters sameReaders sameWaiting _ _
    simp only [Bool.toNat_true, Bool.toNat_false, kFree, kExclusive] at *
    refine ⟨.inr ⟨?_, ?_, rfl⟩, waitingWriters.trans ?_⟩
    · omega
    · omega
    · omega
  | registered before after =>
    refine sound_put before after ?_
    intro writers readers waiting sameWriters sameReaders moreWaiting _ fewWaiting
    simp only [Bool.toNat_true, Bool.toNat_false] at sameWriters sameReaders moreWaiting
    subst sameWriters sameReaders
    refine ⟨state, ?_⟩
    rw [int32_of_lt] <;> omega
  | unregistered before after =>
    refine sound_put before after ?_
    intro writers readers waiting sameWriters sameReaders lessWaiting _ fewWaiting
    simp only [Bool.toNat_true, Bool.toNat_false] at sameWriters sameReaders lessWaiting
    rw [Nat.add_right_cancel sameWriters, Nat.add_right_cancel sameReaders]
    refine ⟨state, ?_⟩
    rw [int32_of_lt] <;> omega
  | joined noWriter before after =>
    refine sound_put before after ?_
    intro writers readers waiting sameWriters moreReaders sameWaiting fewReaders _
    simp only [Bool.toNat_true, Bool.toNat_false, kFree, kExclusive] at *
    refine ⟨.inl ⟨?_, ?_⟩, waitingWriters.trans ?_⟩
    · omega
    · rw [int32_of_lt] <;> omega
    · omega
  | unlocked before after =>
    refine sound_put before after ?_
    intro writers readers waiting lessWriters sameReaders sameWaiting _ _
    simp only [Bool.toNat_true, Bool.toNat_false, kFree, kExclusive] at *
    refine ⟨.inl ⟨?_, ?_⟩, waitingWriters.trans ?_⟩
    · omega
    · omega
    · omega
  | unlockedShared before after =>
    refine sound_put before after ?_
    intro writers readers waiting sameWriters lessReaders sameWaiting fewReaders _
    simp only [Bool.toNat_true, Bool.toNat_false, kExclusive] at *
    refine ⟨.inl ⟨?_, ?_⟩, waitingWriters.trans ?_⟩
    · omega
    · rw [int32_of_lt] <;> omega
    · omega

end Counting

def WriterWaits (mutex : Mutex Thread) (_ : Event Thread) : Prop := mutex.waitingWriters ≠ 0

theorem joins_put (joins : ((mutex.put mover place).threads thread).joins = true)
    (kept : place.joins = false ∨ (mutex.threads mover).joins = true) :
    (mutex.threads thread).joins = true := by
  by_cases isMover : thread = mover
  · subst isMover
    simp only [put, Function.update_self] at joins
    rcases kept with no | before
    · cases no.symm.trans joins
    · exact before
  · simpa only [put, Function.update_of_ne isMover] using joins

theorem joins_of_access {now : Int} (waits : mutex.waitingWriters ≠ 0)
    (taken : mutex.access mover now spurious = some next)
    (joins : (next.threads thread).joins = true) : (mutex.threads thread).joins = true := by
  rw [access] at taken
  split at taken
  · cases taken
  · cases taken
  · cases taken
  case h_4 call here =>
    split at taken
    · cases taken
      exact joins_put joins (.inl rfl)
    · cases taken
      exact joins_put joins (.inl call.joins_refused)
  case h_5 timeout here =>
    cases taken
    exact joins_put joins (.inl rfl)
  case h_6 spincount deadline here =>
    split at taken
    · cases taken
      exact joins_put joins (.inl rfl)
    · cases taken
      exact joins_put joins (.inl (joins_refusedSlow now spincount deadline))
  case h_7 acquired here =>
    cases taken
    refine joins_put joins (.inl ?_)
    cases acquired <;> rfl
  case h_8 attempt here =>
    rw [if_neg waits] at taken
    cases taken
    exact joins_put joins (.inl (attempt.joins_refused now))
  case h_9 attempt here =>
    cases taken
    refine joins_put joins (.inr ?_)
    rw [here, Place.joins]
  case h_10 attempt expected noWriter here =>
    split at taken
    all_goals
      cases taken
      refine joins_put joins (.inr ?_)
      rw [here, Place.joins]

theorem joins_of_call (entered : place.joins = false) (taken : mutex.call mover place = some next)
    (joins : (next.threads thread).joins = true) :
    (mutex.threads thread).joins = true := by
  rcases ite_none_right_eq_some.mp taken with ⟨_, ⟨⟩⟩
  exact joins_put joins (.inl entered)

theorem joins_of_step (waits : WriterWaits mutex event) (taken : mutex.step event = some next)
    (joins : (next.threads thread).joins = true) :
    (mutex.threads thread).joins = true := by
  cases event with
  | lock mover | tryLock mover | tryLockFor mover timeout | lockShared mover
  | tryLockShared mover | tryLockSharedFor mover timeout => exact joins_of_call rfl taken joins
  | unlock mover =>
    rcases ite_none_right_eq_some.mp taken with ⟨_, ⟨⟩⟩
    exact joins_put joins (.inl rfl)
  | unlockShared mover =>
    rcases ite_none_right_eq_some.mp taken with ⟨_, ⟨⟩⟩
    exact joins_put joins (.inl rfl)
  | step mover now spurious => exact joins_of_access waits taken joins

theorem joins_of_run {events : List (Event Thread)}
    (run : ((system Thread).restrict WriterWaits).Run mutex events next)
    (joins : (next.threads thread).joins = true) : (mutex.threads thread).joins = true := by
  induction run with
  | nil => exact joins
  | snoc run taken ih => exact ih (joins_of_step taken.1 taken.2 joins)

/-- With fewer than 2^31 threads the words count the threads which hold the lock or wait for it,
and a reader which comes while a writer waits does not get the lock before no writer waits. -/
theorem words_count_threads [Fintype Thread] (few : Fintype.card Thread < 2 ^ 31)
    (events : List (Event Thread)) (mutex : Mutex Thread)
    (run : (system Thread).Run (system Thread).init events mutex) :
    (mutex.state = kExclusive ↔ mutex.writers = 1 ∧ mutex.readers = 0) ∧
      (∀ count : Nat, 0 < count →
        (mutex.state = count ↔ mutex.readers = count ∧ mutex.writers = 0)) ∧
      mutex.waitingWriters = mutex.waiting ∧
      (mutex.waitingWriters ≠ 0 → ∀ thread, mutex.threads thread = .outside →
        ∀ laterEvents later,
          ((system Thread).restrict WriterWaits).Run mutex laterEvents later →
          later.threads thread ≠ .holdingShared) := by
  have sound : Sound mutex := by
    refine run.invariant Sound sound_initial ?_
    intro mutex event next sound taken
    exact sound.step few (effect_of_step taken)
  rcases sound with ⟨state, waitingWriters⟩
  simp only [kExclusive] at *
  refine ⟨?_, ?_, waitingWriters, ?_⟩
  · omega
  · intro count positive
    omega
  · intro _ thread isOutside laterEvents later laterRun holds
    have joins : (later.threads thread).joins = true := by
      rw [holds, joins]
    have joined := joins_of_run laterRun joins
    rw [isOutside] at joined
    cases joined

def twoWriters : List (Event (Fin 2)) :=
  [.lock 0, .step 0 0 false, .lock 1, .step 1 0 false, .step 1 0 false, .step 1 0 false]

theorem second_writer_waits : ∃ mutex,
    (system (Fin 2)).Run (system (Fin 2)).init twoWriters mutex ∧ mutex.waitingWriters = 1 ∧
      mutex.waiting = 1 ∧ mutex.writers = 1 ∧ mutex.readers = 0 := by
  have run : (system (Fin 2)).Run (system (Fin 2)).init twoWriters _ := System.run_of_exec rfl
  rcases words_count_threads (by decide) _ _ run with ⟨exclusive, _, waiting, _⟩
  exact ⟨_, run, rfl, Int.ofNat.inj waiting.symm, exclusive.mp rfl⟩

def joining (thread : Thread) : List (Event Thread) :=
  .tryLockShared thread :: List.replicate 3 (.step thread 0 false)

theorem run_joining (mutex : Mutex Thread) (thread : Thread)
    (isOutside : mutex.threads thread = .outside) (noneWaits : mutex.waitingWriters = 0)
    (noWriter : kFree ≤ mutex.state) :
    (system Thread).Run mutex (joining thread)
      { mutex.put thread .holdingShared with state := int32 (mutex.state + 1) } := by
  apply System.run_of_exec
  simp [joining, List.replicate, System.exec, step, call, isOutside, access, put, noneWaits,
    Attempt.expecting, noWriter]

def crowd (count size : Nat) : Mutex (Fin count) :=
  ⟨int32 size, 0, fun thread => if thread.val < size then .holdingShared else .outside⟩

theorem run_crowd (count size : Nat) (enough : size ≤ count) (few : size ≤ 2 ^ 31) :
    ∃ events, (system (Fin count)).Run (system (Fin count)).init events (crowd count size) := by
  induction size with
  | zero =>
    refine ⟨[], ?_⟩
    have empty : crowd count 0 = (system (Fin count)).init := by
      simp [crowd, system, System.ofFunction, initial, int32, kFree]
    exact .nil _
  | succ size ih =>
    rcases ih (by omega) (by omega) with ⟨events, run⟩
    have fits : int32 size = size := int32_of_lt (by omega) (by omega)
    have joins := run_joining (crowd count size) ⟨size, enough⟩ (by simp [crowd]) rfl
      (by simp [crowd, fits, kFree])
    have grown : { (crowd count size).put ⟨size, enough⟩ .holdingShared with
        state := int32 ((crowd count size).state + 1) } = crowd count (size + 1) := by
      simp only [crowd, put, fits, Int.natCast_add, Int.natCast_one, Mutex.mk.injEq, true_and]
      funext thread
      by_cases isLast : thread = ⟨size, enough⟩
      · subst isLast
        simp
      · have other : thread.val ≠ size := fun same => isLast (Fin.ext same)
        rw [Function.update_of_ne isLast]
        simp only [show thread.val < size ↔ thread.val < size + 1 by omega]
    rw [grown] at joins
    exact ⟨_, run.append joins⟩

theorem readers_crowd (count : Nat) : (crowd count count).readers = count := by
  rw [readers, population_eq_card, Fintype.card_fin]
  intro thread
  simp [crowd, role]

theorem writers_crowd (count size : Nat) : (crowd count size).writers = 0 := by
  apply population_eq_zero
  intro thread
  simp only [crowd]
  split <;> rfl

theorem state_crowd (count : Nat) (tooMany : count = 2 ^ 31) :
    (crowd count count).state = -2 ^ 31 := by
  simp only [crowd, int32, Int.bmod_def]
  omega

/-- The word cannot count 2^31 readers. -/
theorem too_many_readers : ∃ events mutex,
    (system (Fin (2 ^ 31))).Run (system (Fin (2 ^ 31))).init events mutex ∧
      mutex.readers = 2 ^ 31 ∧ mutex.writers = 0 ∧ mutex.state = -2 ^ 31 ∧
      ¬ (mutex.state = (2 ^ 31 : Nat) ↔ mutex.readers = 2 ^ 31 ∧ mutex.writers = 0) := by
  rcases run_crowd (2 ^ 31) (2 ^ 31) (Nat.le_refl _) (Nat.le_refl _) with ⟨events, run⟩
  have readers := readers_crowd (2 ^ 31)
  have writers := writers_crowd (2 ^ 31) (2 ^ 31)
  have state := state_crowd (2 ^ 31) rfl
  refine ⟨events, _, run, readers, writers, state, ?_⟩
  intro counts
  omega

end Mutex

end Pyroscope.SpinningMutex
