import Pyroscope.Lib.Transition

/-!
# The cache of loaded libraries

A copy which is out of date is due to be taken again, except behind a notification before
`s_instance` is assigned.
-/

namespace Pyroscope.LibrariesCache

open Transition Function

structure LinkMap (Library : Type) where
  libraries : List Library
  number : Nat
  deriving DecidableEq

inductive WorkerPc (Library : Type) where
  | notStarted
  | starting
  | looping
  | waiting
  | blocked
  | woken
  | updating
  /-- About to swap `_librariesInfo` and `_newCache`. -/
  | updated (newCache : LinkMap Library)
  | published
  | stopping
  | ended
  deriving DecidableEq

inductive ServicePc where
  | created
  | awaiting
  | populated
  | started
  | stopping
  | notifying
  | joining
  | stopped
  deriving DecidableEq

/-- Where a thread is behind a load or unload, of which it remembers the number. -/
inductive LoaderPc where
  | idle
  | loaded (number : Nat)
  /-- Inside of `NotifyCacheUpdate`, about to read `s_instance`. -/
  | notifying (number : Nat)
  | setting (number : Nat)
  deriving DecidableEq

structure Cache (Thread Library : Type) where
  linkMap : LinkMap Library
  hook : Bool
  instanceSet : Bool
  /-- `_isSet` of `_event` -/
  event : Bool
  /-- `_isSet` of the start event, and whether the worker still has its pointer to it -/
  startEvent : Bool
  startEventHeld : Bool
  stopRequested : Bool
  librariesInfo : Option (LinkMap Library)
  worker : WorkerPc Library
  service : ServicePc
  loaders : Thread → LoaderPc
  /-- The last load or unload for which the hook has been called and has returned. -/
  notified : Nat

inductive Event (Thread Library : Type) where
  /-- The real `dlopen` or `dlclose` returns, with other libraries loaded than before. -/
  | load (thread : Thread) (libraries : List Library)
  | loaderStep (thread : Thread)
  | workerStep
  /-- `pthread_cond_timedwait` returns `ETIMEDOUT` in the worker. -/
  | waitTimeout
  | start
  | serviceStep
  | startTimeout
  | stop

namespace Cache

variable {Thread Library : Type} [DecidableEq Thread]

def initial (libraries : List Library) : Cache Thread Library where
  linkMap := ⟨libraries, 0⟩
  hook := false
  instanceSet := false
  event := true
  startEvent := false
  startEventHeld := true
  stopRequested := false
  librariesInfo := none
  worker := .notStarted
  service := .created
  loaders := fun _ => .idle
  notified := 0

variable (cache : Cache Thread Library)

def load (thread : Thread) (libraries : List Library) :
    Option (Cache Thread Library) :=
  if cache.loaders thread = .idle then
    some { cache with
      linkMap := ⟨libraries, cache.linkMap.number + 1⟩
      loaders := update cache.loaders thread (.loaded (cache.linkMap.number + 1)) }
  else
    none

/-- `__dd_notify_libraries_cache_update` and `NotifyCacheUpdate`. -/
def loaderStep (thread : Thread) : Option (Cache Thread Library) :=
  match cache.loaders thread with
  | .idle => none
  | .loaded number =>
    some { cache with
      loaders := update cache.loaders thread (if cache.hook then .notifying number else .idle) }
  | .notifying number =>
    if cache.instanceSet then
      some { cache with loaders := update cache.loaders thread (.setting number) }
    else
      some { cache with
        loaders := update cache.loaders thread .idle
        notified := max cache.notified number }
  | .setting number =>
    some { cache with
      event := true
      loaders := update cache.loaders thread .idle
      notified := max cache.notified number }

/-- `Work`, where `wrapped` tells whether the wrapper library is there. -/
def workerStep (wrapped : Bool) (cache : Cache Thread Library) : Option (Cache Thread Library) :=
  match cache.worker with
  | .notStarted | .ended => none
  | .starting => some { cache with hook := wrapped, worker := .looping }
  | .looping =>
    some { cache with worker := if cache.stopRequested then .stopping else .waiting }
  | .waiting =>
    if cache.event then
      some { cache with event := false, worker := .woken }
    else
      some { cache with worker := .blocked }
  | .blocked =>
    if cache.event then some { cache with event := false, worker := .woken } else none
  | .woken => some { cache with worker := if cache.stopRequested then .stopping else .updating }
  | .updating => some { cache with worker := .updated cache.linkMap }
  | .updated newCache => some { cache with librariesInfo := some newCache, worker := .published }
  | .published =>
    some { cache with
      startEvent := cache.startEvent || cache.startEventHeld
      startEventHeld := false
      worker := .looping }
  | .stopping => some { cache with hook := false, worker := .ended }

def waitTimeout (wrapped : Bool) (cache : Cache Thread Library) : Option (Cache Thread Library) :=
  match cache.worker, wrapped with
  | .blocked, false => some { cache with event := false, worker := .woken }
  | _, _ => none

def start : Option (Cache Thread Library) :=
  if cache.service = .created then
    some { cache with worker := .starting, service := .awaiting }
  else
    none

def serviceStep : Option (Cache Thread Library) :=
  match cache.service with
  | .created | .started | .stopped => none
  | .awaiting =>
    if cache.startEvent then
      some { cache with startEvent := false, service := .populated }
    else
      none
  | .populated => some { cache with instanceSet := true, service := .started }
  | .stopping => some { cache with stopRequested := true, service := .notifying }
  | .notifying => some { cache with event := true, service := .joining }
  | .joining =>
    match cache.worker with
    | .ended => some { cache with service := .stopped }
    | _ => none

def startTimeout : Option (Cache Thread Library) :=
  if cache.service = .awaiting then
    some { cache with
      startEvent := false
      service := if cache.startEvent then .populated else .stopping }
  else
    none

def stop : Option (Cache Thread Library) :=
  if cache.service = .started then
    some { cache with instanceSet := false, service := .stopping }
  else
    none

def step (wrapped : Bool) (cache : Cache Thread Library) :
    Event Thread Library → Option (Cache Thread Library)
  | .load thread libraries => cache.load thread libraries
  | .loaderStep thread => cache.loaderStep thread
  | .workerStep => cache.workerStep wrapped
  | .waitTimeout => cache.waitTimeout wrapped
  | .start => cache.start
  | .serviceStep => cache.serviceStep
  | .startTimeout => cache.startTimeout
  | .stop => cache.stop

end Cache

def system (Thread : Type) [DecidableEq Thread] {Library : Type} (wrapped : Bool)
    (libraries : List Library) : System (Cache Thread Library) (Event Thread Library) :=
  .ofFunction (Cache.initial libraries) (Cache.step wrapped)

/-! ## The cache is not left behind -/

open Option List

variable {Thread Library : Type}

def LoaderPc.number : LoaderPc → Nat
  | .idle => 0
  | .loaded number | .notifying number | .setting number => number

def LoaderPc.isNotifying : LoaderPc → Bool
  | .notifying _ => true
  | .idle | .loaded _ | .setting _ => false

namespace WorkerPc

def newCache : WorkerPc Library → Option (LinkMap Library)
  | .updated newCache => some newCache
  | .notStarted | .starting | .looping | .waiting | .blocked | .woken | .updating | .published
  | .stopping | .ended => none

/-- The worker takes a copy, or ends, before it blocks. -/
def isDue : WorkerPc Library → Bool
  | .woken | .updating | .stopping | .ended => true
  | .notStarted | .starting | .looping | .waiting | .blocked | .updated _ | .published => false

end WorkerPc

namespace Cache

variable {cache next : Cache Thread Library} {wrapped : Bool}

def newest (cache : Cache Thread Library) : Option (LinkMap Library) :=
  cache.worker.newCache.or cache.librariesInfo

/-- `NotifyCacheUpdate` finds the cache, unless no copy has been taken yet. -/
def Heard (cache : Cache Thread Library) : Event Thread Library → Prop
  | .loaderStep thread =>
    (cache.loaders thread).isNotifying = true →
      cache.instanceSet = true ∨ cache.newest.isNone = true
  | _ => True

instance (cache : Cache Thread Library) : ∀ event, Decidable (Heard cache event)
  | .loaderStep _ => inferInstanceAs (Decidable (_ → _ ∨ _))
  | .load _ _ | .workerStep | .waitTimeout | .start | .serviceStep | .startTimeout | .stop =>
    inferInstanceAs (Decidable True)

/-- The newest copy is up to date, or the worker is about to copy. -/
structure Fresh (cache : Cache Thread Library) : Prop where
  created : cache.service = .created → cache.worker = .notStarted
  notified : cache.notified ≤ cache.linkMap.number
  loaders : ∀ thread, (cache.loaders thread).number ≤ cache.linkMap.number
  newest : ∀ copy ∈ cache.newest, copy.number ≤ cache.linkMap.number ∧
    (copy.number = cache.linkMap.number → copy = cache.linkMap)
  covered : (cache.event = true ∨ cache.worker.isDue = true) ∨
    ∃ copy ∈ cache.newest, cache.notified ≤ copy.number

namespace Fresh

theorem of_initial (libraries : List Library) :
    Fresh (initial libraries : Cache Thread Library) where
  created _ := rfl
  notified := Nat.le_refl _
  loaders _ := Nat.le_refl _
  newest := nofun
  covered := .inl (.inl rfl)

theorem newest_eq (noCopy : cache.worker.newCache = none) : cache.newest = cache.librariesInfo := by
  rw [Cache.newest, noCopy, none_or]

section Worker

variable {place : WorkerPc Library} {hook startEvent startEventHeld : Bool}

section

variable (fresh : Fresh cache) (isRunning : cache.worker ≠ .notStarted)
include fresh isRunning

theorem not_created : cache.service ≠ .created :=
  fun isCreated => isRunning (fresh.created isCreated)

theorem moved (noCopy : cache.worker.newCache = none) (stillNoCopy : place.newCache = none)
    (stillDue : cache.worker.isDue = true → place.isDue = true) :
    Fresh { cache with
      hook := hook
      startEvent := startEvent
      startEventHeld := startEventHeld
      worker := place } := by
  have newest : ∀ copy ∈ cache.librariesInfo, copy.number ≤ cache.linkMap.number ∧
      (copy.number = cache.linkMap.number → copy = cache.linkMap) := by
    rw [← newest_eq noCopy]
    exact fresh.newest
  refine ⟨?_, fresh.notified, fresh.loaders, ?_, ?_⟩
  · exact fun isCreated => absurd isCreated (fresh.not_created isRunning)
  · rw [newest_eq stillNoCopy]
    exact newest
  · rw [newest_eq stillNoCopy]
    have covered := fresh.covered
    rw [newest_eq noCopy] at covered
    rcases covered with (isSet | due) | behind
    · exact .inl (.inl isSet)
    · exact .inl (.inr (stillDue due))
    · exact .inr behind

theorem woken (noCopy : cache.worker.newCache = none) :
    Fresh { cache with event := false, worker := .woken } := by
  refine ⟨?_, fresh.notified, fresh.loaders, ?_, .inl (.inr rfl)⟩
  · exact fun isCreated => absurd isCreated (fresh.not_created isRunning)
  · have newest := fresh.newest
    rw [newest_eq noCopy] at newest
    exact newest

end

theorem workerStep (fresh : Fresh cache) (taken : cache.workerStep wrapped = some next) :
    Fresh next := by
  rw [Cache.workerStep] at taken
  split at taken
  case h_1 | h_2 => cases taken
  case h_3 here | h_10 here =>
    cases taken
    exact fresh.moved (by rw [here]; nofun) (by rw [here]; rfl) rfl (by rw [here]; nofun)
  case h_4 here =>
    cases taken
    refine fresh.moved (by rw [here]; nofun) (by rw [here]; rfl) ?_ (by rw [here]; nofun)
    split <;> rfl
  case h_5 here =>
    split at taken
    · cases taken
      exact fresh.woken (by rw [here]; nofun) (by rw [here]; rfl)
    · cases taken
      exact fresh.moved (by rw [here]; nofun) (by rw [here]; rfl) rfl (by rw [here]; nofun)
  case h_6 here =>
    split at taken
    · cases taken
      exact fresh.woken (by rw [here]; nofun) (by rw [here]; rfl)
    · cases taken
  case h_7 here =>
    cases taken
    refine fresh.moved (by rw [here]; nofun) (by rw [here]; rfl) ?_ ?_
    · split <;> rfl
    · intro _
      split <;> rfl
  case h_8 here =>
    cases taken
    refine ⟨?_, fresh.notified, fresh.loaders, ?_, ?_⟩
    · exact fun isCreated => absurd isCreated (fresh.not_created (by rw [here]; nofun))
    · intro copy isCopy
      cases isCopy
      exact ⟨Nat.le_refl _, fun _ => rfl⟩
    · exact .inr ⟨cache.linkMap, rfl, fresh.notified⟩
  case h_9 newCache here =>
    cases taken
    have isNewest : cache.newest = some newCache := by
      rw [Cache.newest, here, WorkerPc.newCache, some_or]
    have newest := fresh.newest
    have covered := fresh.covered
    rw [isNewest] at newest covered
    rw [here] at covered
    exact ⟨fun isCreated => absurd isCreated (fresh.not_created (by rw [here]; nofun)),
      fresh.notified, fresh.loaders, newest, covered⟩
  case h_11 here =>
    cases taken
    exact fresh.moved (by rw [here]; nofun) (by rw [here]; rfl) rfl (fun _ => rfl)

theorem waitTimeout (fresh : Fresh cache) (taken : cache.waitTimeout wrapped = some next) :
    Fresh next := by
  simp only [Cache.waitTimeout] at taken
  split at taken
  · rename_i here
    cases taken
    exact fresh.woken (by rw [here]; nofun) (by rw [here]; rfl)
  · cases taken

end Worker

section

variable (fresh : Fresh cache)
include fresh

theorem start (taken : cache.start = some next) : Fresh next := by
  rcases ite_none_right_eq_some.mp taken with ⟨isCreated, ⟨⟩⟩
  have here := fresh.created isCreated
  have newest := fresh.newest
  have covered := fresh.covered
  rw [newest_eq (by rw [here]; rfl)] at newest covered
  rw [here] at covered
  exact ⟨nofun, fresh.notified, fresh.loaders, newest, covered⟩

theorem serviceStep (taken : cache.serviceStep = some next) : Fresh next := by
  rw [Cache.serviceStep] at taken
  split at taken
  case h_1 | h_2 | h_3 => cases taken
  case h_4 =>
    rcases ite_none_right_eq_some.mp taken with ⟨_, ⟨⟩⟩
    exact ⟨nofun, fresh.notified, fresh.loaders, fresh.newest, fresh.covered⟩
  case h_5 | h_6 =>
    cases taken
    exact ⟨nofun, fresh.notified, fresh.loaders, fresh.newest, fresh.covered⟩
  case h_7 =>
    cases taken
    exact ⟨nofun, fresh.notified, fresh.loaders, fresh.newest, .inl (.inl rfl)⟩
  case h_8 =>
    split at taken
    · cases taken
      exact ⟨nofun, fresh.notified, fresh.loaders, fresh.newest, fresh.covered⟩
    · cases taken

theorem startTimeout (taken : cache.startTimeout = some next) : Fresh next := by
  rcases ite_none_right_eq_some.mp taken with ⟨_, ⟨⟩⟩
  refine ⟨?_, fresh.notified, fresh.loaders, fresh.newest, fresh.covered⟩
  cases cache.startEvent <;> nofun

theorem stop (taken : cache.stop = some next) : Fresh next := by
  rcases ite_none_right_eq_some.mp taken with ⟨_, ⟨⟩⟩
  exact ⟨nofun, fresh.notified, fresh.loaders, fresh.newest, fresh.covered⟩

theorem covered_of_blocked (blocked : cache.worker = .blocked) (unset : cache.event = false) :
    ∃ copy, cache.librariesInfo = some copy ∧ cache.notified ≤ copy.number := by
  have covered := fresh.covered
  rw [newest_eq (by rw [blocked]; rfl), blocked, unset] at covered
  rcases covered with (isSet | due) | behind
  · cases isSet
  · cases due
  · exact behind

end

variable [DecidableEq Thread] {libraries : List Library} {thread : Thread}

theorem number_update (fresh : Fresh cache) {mover : Thread} {place : LoaderPc}
    (kept : place.number ≤ cache.linkMap.number) (thread : Thread) :
    (update cache.loaders mover place thread).number ≤ cache.linkMap.number := by
  by_cases isMover : thread = mover
  · subst isMover
    rw [update_self]
    exact kept
  · rw [update_of_ne isMover]
    exact fresh.loaders thread

theorem load (fresh : Fresh cache) (taken : cache.load thread libraries = some next) :
    Fresh next := by
  rcases ite_none_right_eq_some.mp taken with ⟨_, ⟨⟩⟩
  refine ⟨fresh.created, Nat.le_succ_of_le fresh.notified, ?_, ?_, fresh.covered⟩
  · intro other
    by_cases isMover : other = thread
    · subst isMover
      simp only [update_self, LoaderPc.number, Nat.le_refl]
    · simp only [update_of_ne isMover]
      exact Nat.le_succ_of_le (fresh.loaders other)
  · intro copy isCopy
    have older := (fresh.newest copy isCopy).1
    refine ⟨Nat.le_succ_of_le older, ?_⟩
    intro current
    have newer : copy.number = cache.linkMap.number + 1 := current
    omega

theorem loaderStep (fresh : Fresh cache) (heard : Heard cache (.loaderStep thread))
    (taken : cache.loaderStep thread = some next) : Fresh next := by
  have known := fresh.loaders thread
  rw [Cache.loaderStep] at taken
  split at taken
  case h_1 => cases taken
  case h_2 number here =>
    cases taken
    rw [here] at known
    refine ⟨fresh.created, fresh.notified, ?_, fresh.newest, fresh.covered⟩
    apply fresh.number_update
    split
    · exact known
    · exact Nat.zero_le _
  case h_3 number here =>
    rw [here] at known
    split at taken
    · cases taken
      exact ⟨fresh.created, fresh.notified, fresh.number_update known, fresh.newest, fresh.covered⟩
    · rename_i noInstance
      cases taken
      refine ⟨fresh.created, Nat.max_le.mpr ⟨fresh.notified, known⟩,
        fresh.number_update (Nat.zero_le _), fresh.newest, ?_⟩
      -- The notification is dropped: the first copy is still to be taken.
      have noCopy := (heard (by rw [here]; rfl)).resolve_left noInstance
      rcases fresh.covered with due | ⟨copy, isCopy, _⟩
      · exact .inl due
      · rw [isNone_iff_eq_none.mp noCopy] at isCopy
        cases isCopy
  case h_4 number here =>
    cases taken
    rw [here] at known
    exact ⟨fresh.created, Nat.max_le.mpr ⟨fresh.notified, known⟩,
      fresh.number_update (Nat.zero_le _), fresh.newest, .inl (.inl rfl)⟩

theorem step (fresh : Fresh cache) {event : Event Thread Library} (heard : Heard cache event)
    (taken : cache.step wrapped event = some next) : Fresh next := by
  cases event with
  | load thread libraries => exact fresh.load taken
  | loaderStep thread => exact fresh.loaderStep heard taken
  | workerStep => exact fresh.workerStep taken
  | waitTimeout => exact fresh.waitTimeout taken
  | start => exact fresh.start taken
  | serviceStep => exact fresh.serviceStep taken
  | startTimeout => exact fresh.startTimeout taken
  | stop => exact fresh.stop taken

end Fresh

variable [DecidableEq Thread] {events : List (Event Thread Library)}

theorem fresh_of_run (run : ((system Thread wrapped libraries).restrict Heard).Run
      (system Thread wrapped libraries).init events cache) : Fresh cache := by
  refine run.invariant Fresh (.of_initial libraries) ?_
  intro cache event next fresh taken
  exact fresh.step taken.1 taken.2

/-- While the worker is blocked and its event is not set, the published copy has been taken after
the last load or unload for which the hook was called. -/
theorem blocked_worker_has_fresh_copy (wrapped : Bool) (libraries : List Library)
    (events : List (Event Thread Library)) (cache : Cache Thread Library)
    (run : ((system Thread wrapped libraries).restrict Heard).Run
      (system Thread wrapped libraries).init events cache)
    (blocked : cache.worker = .blocked) (unset : cache.event = false) :
    ∃ copy, cache.librariesInfo = some copy ∧ cache.notified ≤ copy.number :=
  (fresh_of_run run).covered_of_blocked blocked unset

/-- If moreover every load and unload has been announced, the copy shows what is loaded. -/
theorem blocked_worker_shows_libraries (run : ((system Thread wrapped libraries).restrict Heard).Run
      (system Thread wrapped libraries).init events cache) (blocked : cache.worker = .blocked)
    (unset : cache.event = false) (announced : cache.notified = cache.linkMap.number) :
    cache.librariesInfo = some cache.linkMap := by
  have fresh := fresh_of_run run
  have newest := fresh.newest
  rw [Fresh.newest_eq (by rw [blocked]; rfl)] at newest
  rcases fresh.covered_of_blocked blocked unset with ⟨copy, isCopy, later⟩
  rcases newest copy isCopy with ⟨earlier, current⟩
  rw [isCopy, current (by omega)]

/-!
### A load before and after the start
-/

def starting : List (Event Nat Nat) := .start :: replicate 9 .workerStep

def loading (steps : Nat) : List (Event Nat Nat) :=
  .load 7 [1, 2] :: replicate steps (.loaderStep 7)

theorem load_after_start_is_shown : ∃ cache,
    (system Nat true [1]).Run (system Nat true [1]).init
      (starting ++ replicate 2 .serviceStep ++ loading 3 ++ replicate 7 .workerStep)
      cache ∧
      cache.notified = 1 ∧
      ∃ copy, cache.librariesInfo = some copy ∧ cache.notified ≤ copy.number := by
  refine System.exists_run_of_restricted_exec Heard rfl (by decide +kernel) ?_
  intro run
  exact ⟨rfl, blocked_worker_has_fresh_copy true [1] _ _ run rfl rfl⟩

theorem loaded_library_is_shown : ∃ cache,
    (system Nat true [1]).Run (system Nat true [1]).init
      (starting ++ replicate 2 .serviceStep ++ loading 3 ++ replicate 7 .workerStep)
      cache ∧
    cache.linkMap.libraries = [1, 2] ∧ cache.librariesInfo = some cache.linkMap := by
  refine System.exists_run_of_restricted_exec Heard rfl (by decide +kernel) ?_
  intro run
  exact ⟨rfl, blocked_worker_shows_libraries run rfl rfl rfl⟩

/-- The library is loaded when the first copy has been published but `s_instance` is not set yet:
the service starts with a copy which lacks it, and the worker waits. -/
theorem load_during_start_is_lost : ∃ cache,
    (system Nat true [1]).Run (system Nat true [1]).init
      (starting ++ loading 2 ++ replicate 2 .serviceStep) cache ∧
      cache.service = .started ∧ cache.worker = .blocked ∧ cache.event = false ∧
      cache.hook = true ∧ cache.notified = 1 ∧ cache.librariesInfo = some ⟨[1], 0⟩ := by
  exact ⟨_, System.run_of_exec rfl, rfl, rfl, rfl, rfl, rfl, rfl⟩

end Cache

end Pyroscope.LibrariesCache
