import Mathlib.Algebra.Group.Nat.Defs
import Pyroscope.Network.Requests
import Pyroscope.Samples.Providers

/-!
# Stack walks without frames

One test of a handler both limits its log and drops the event. Other threads may run before it
stores its counter.
-/

namespace Pyroscope.Samples

open Labels Transition Function

namespace FailedWalks

inductive WalkSite where
  | allocation
  | allocationSampled
  | allocationFromEtw
  | exceptionThrown
  | requestStart
  deriving DecidableEq

def WalkSite.period : WalkSite → Nat
  | allocation => 100
  | allocationSampled => 100
  | allocationFromEtw => 1000
  | exceptionThrown => 100
  | requestStart => 100

structure EtwAllocation where
  timestamp : Int
  appDomainId : Nat
  stack : List Nat
  capacity : Nat
  allocationClass : String
  allocationSize : Int
  address : Nat
  /-- Neither subsampling nor its limit drops the event. -/
  isSampled : Bool

/-- The handler of the events from ETW, which looks at the stack before it samples. -/
def onAllocationFromEtw (failureCount : Nat) (allocation : EtwAllocation) :
    Option CollectedSample :=
  if allocation.stack = [] ∧ failureCount % 1000 = 0 then none
  else if !allocation.isSampled then none
  else
    some {
      raw := RawAllocationSample.toRawSample
        { timestamp := allocation.timestamp
          appDomainId := allocation.appDomainId
          traceContext := ⟨0, 0, 0⟩
          tags := []
          stack := allocation.stack.take allocation.capacity
          allocationClass := allocation.allocationClass
          allocationSize := allocation.allocationSize
          address := allocation.address }
      tags := fun _ => none }

structure Capture where
  appDomainId : Nat
  traceContext : TraceContext
  startCallStack : List Nat

structure Requester where
  hasThreadInfo : Bool
  hasTraceContext : Bool

def Requester.isWalked (requester : Requester) (forceHttpSampling : Bool) : Bool :=
  requester.hasThreadInfo && (forceHttpSampling || requester.hasTraceContext)

def captureThreadInfo (failureCount : Nat) (forceHttpSampling : Bool) (requester : Requester)
    (walk : Walk) (snapshot : Snapshot) : Option Capture :=
  if !requester.isWalked forceHttpSampling ∨ reportsFailure failureCount snapshot then none
  else some ⟨walk.appDomainId, snapshot.traceContext, snapshot.callstack⟩

structure Kept (α : Type) where
  value : α
  frames : Nat

structure PendingRequest where
  info : Network.NetworkRequestInfo
  capture : Capture

structure NetworkSample where
  raw : Network.RawNetworkSample
  capture : Capture

/-- Where a thread is, in the handler of an event which it drops. -/
inductive Place where
  | outside
  | failed (site : WalkSite)
  | loaded (site : WalkSite) (failureCount : Nat)
  deriving DecidableEq

structure Providers (Thread Activity : Type) where
  failureCount : WalkSite → Nat
  threads : Thread → Place
  requestsLock : Option Thread
  allocations : List (Kept CollectedSample)
  listened : List (Kept CollectedSample)
  exceptions : List (Kept CollectedSample)
  requests : Activity → Option (Kept PendingRequest)
  network : List (Kept NetworkSample)
  /-- The numbers of frames of all the requests which were kept. -/
  captured : List Nat

structure Configuration where
  ciVisibility : Bool
  hasListener : Bool
  network : Network.Configuration

/-- An event, with the tags of its thread where they matter. -/
inductive Occurrence (Activity : Type) where
  | allocationTick (hasThreadInfo : Bool) (allocation : Allocation) (tags : Tags) (walk : Walk)
  | allocationSampled (hasThreadInfo : Bool) (allocation : Allocation) (tags : Tags) (walk : Walk)
  | allocationFromEtw (allocation : EtwAllocation)
  /-- `isSampled` unless the handler returns earlier or the sampler drops the event. -/
  | exceptionThrown (isSampled hasThreadInfo : Bool) (tags : Tags) (walk : Walk)
  | requestStart (activity : Activity) (url : String) (timestamp : Int) (requester : Requester)
      (tags : Tags) (walk : Walk)
  | report (activity : Activity) (timestamp : Int) (reported : Network.Report)
  | requestStop (activity : Activity) (timestamp : Int) (statusCode : Nat)

inductive Event (Thread Activity : Type) where
  | occur (thread : Thread) (occurrence : Occurrence Activity)
  | loadFailureCount (thread : Thread)
  | storeFailureCount (thread : Thread)

namespace Occurrence

variable {Activity : Type}

def isRequest : Occurrence Activity → Bool
  | allocationTick _ _ _ _ => false
  | allocationSampled _ _ _ _ => false
  | allocationFromEtw _ => false
  | exceptionThrown _ _ _ _ => false
  | requestStart _ _ _ _ _ _ => true
  | report _ _ _ => true
  | requestStop _ _ _ => true

end Occurrence

namespace Providers

variable {Thread Activity α : Type} [DecidableEq Thread] [DecidableEq Activity]

def initial : Providers Thread Activity where
  failureCount _ := 0
  threads _ := .outside
  requestsLock := none
  allocations := []
  listened := []
  exceptions := []
  requests _ := none
  network := []
  captured := []

variable (providers : Providers Thread Activity)

/-- The test of a handler: the walk has failed, and it is time for a line of the log. -/
def reports (site : WalkSite) (frames : Nat) : Bool :=
  frames = 0 ∧ providers.failureCount site % site.period = 0

def fail (thread : Thread) (site : WalkSite) :
    Providers Thread Activity :=
  { providers with
    threads := update providers.threads thread (.failed site)
    requestsLock := if site = .requestStart then some thread else providers.requestsLock }

/-- The end of a handler, which has made its test if it has `reached` it. -/
def settle (thread : Thread) (site : WalkSite)
    (reached : Bool) (frames : Nat) (recorded : Option α)
    (keep : Kept α → Providers Thread Activity) : Providers Thread Activity :=
  if reached ∧ providers.reports site frames then providers.fail thread site
  else
    match recorded with
    | none => providers
    | some value => keep ⟨value, frames⟩

variable (config : Configuration)

def addAllocation (providers : Providers Thread Activity)
    (kept : Kept CollectedSample) : Providers Thread Activity :=
  { providers with
    listened :=
      if config.hasListener then providers.listened ++ [kept] else providers.listened
    allocations := providers.allocations ++ [kept] }

def addException (kept : Kept CollectedSample) :
    Providers Thread Activity :=
  { providers with exceptions := providers.exceptions ++ [kept] }

def put (activity : Activity)
    (request : Option (Kept PendingRequest)) : Providers Thread Activity :=
  { providers with requests := update providers.requests activity request }

def keepRequest (activity : Activity) (url : String)
    (timestamp : Int) (kept : Kept Capture) : Providers Thread Activity :=
  { providers.put activity (some ⟨⟨.new url timestamp, kept.value⟩, kept.frames⟩) with
    captured := providers.captured ++ [kept.frames] }

/-- `OnRequestStart`: an earlier request with the same activity is erased. -/
def onRequestStart (providers : Providers Thread Activity)
    (thread : Thread) (activity : Activity) (url : String) (timestamp : Int)
    (requester : Requester) (walk : Walk) (snapshot : Snapshot) : Providers Thread Activity :=
  let forced := config.network.forceHttpSampling
  let erased := providers.put activity none
  erased.settle thread .requestStart (requester.isWalked forced) snapshot.callstack.length
    (captureThreadInfo (providers.failureCount .requestStart) forced requester walk snapshot)
    (erased.keepRequest activity url timestamp)

def onReport (activity : Activity) (timestamp : Int)
    (reported : Network.Report) : Providers Thread Activity :=
  match providers.requests activity with
  | none => providers
  | some kept =>
    providers.put activity
      (some { kept with value := { kept.value with
        info := kept.value.info.handle timestamp reported } })

def onRequestStop (config : Configuration) (providers : Providers Thread Activity)
    (activity : Activity) (timestamp : Int) (statusCode : Nat) : Providers Thread Activity :=
  match providers.requests activity with
  | none => providers
  | some kept =>
    let erased := providers.put activity none
    match kept.value.info.onRequestStop config.network timestamp statusCode with
    | none => erased
    | some raw =>
      { erased with network := providers.network ++ [⟨⟨raw, kept.value.capture⟩, kept.frames⟩] }

def handle (providers : Providers Thread Activity)
    (thread : Thread) : Occurrence Activity → Providers Thread Activity
  | .allocationTick hasThreadInfo allocation tags walk =>
    let snapshot := collectStackSample config.ciVisibility tags walk
    if hasThreadInfo then
      providers.settle thread .allocation allocation.isSampled snapshot.callstack.length
        (onAllocation (providers.failureCount .allocation) allocation walk snapshot)
        (providers.addAllocation config)
    else providers
  | .allocationSampled hasThreadInfo allocation tags walk =>
    let snapshot := collectStackSample config.ciVisibility tags walk
    if hasThreadInfo then
      providers.settle thread .allocationSampled allocation.isSampled snapshot.callstack.length
        (onAllocationSampled (providers.failureCount .allocationSampled) tags allocation walk
          snapshot)
        (providers.addAllocation config)
    else providers
  | .allocationFromEtw allocation =>
    providers.settle thread .allocationFromEtw true allocation.stack.length
      (onAllocationFromEtw (providers.failureCount .allocationFromEtw) allocation)
      (providers.addAllocation config)
  | .exceptionThrown isSampled hasThreadInfo tags walk =>
    let snapshot := collectStackSample config.ciVisibility tags walk
    if hasThreadInfo then
      providers.settle thread .exceptionThrown isSampled snapshot.callstack.length
        (onExceptionThrown (providers.failureCount .exceptionThrown) isSampled tags walk snapshot)
        providers.addException
    else providers
  | .requestStart activity url timestamp requester tags walk =>
    providers.onRequestStart config thread activity url timestamp requester walk
      (collectStackSample config.ciVisibility tags walk)
  | .report activity timestamp reported => providers.onReport activity timestamp reported
  | .requestStop activity timestamp statusCode =>
    providers.onRequestStop config activity timestamp statusCode

def next (providers : Providers Thread Activity) :
    Event Thread Activity → Option (Providers Thread Activity)
  | .occur thread occurrence =>
    if providers.threads thread = .outside ∧
        (occurrence.isRequest → providers.requestsLock.isNone) then
      some (providers.handle config thread occurrence)
    else none
  | .loadFailureCount thread =>
    match providers.threads thread with
    | .failed site =>
      some { providers with
        threads := update providers.threads thread (.loaded site (providers.failureCount site)) }
    | .outside | .loaded _ _ => none
  | .storeFailureCount thread =>
    match providers.threads thread with
    | .loaded site failureCount =>
      some { providers with
        failureCount := update providers.failureCount site ((failureCount + 1) % 2 ^ 64)
        threads := update providers.threads thread .outside
        requestsLock := if site = .requestStart then none else providers.requestsLock }
    | .outside | .failed _ => none

def system (Thread Activity : Type) [DecidableEq Thread] [DecidableEq Activity]
    (config : Configuration) : System (Providers Thread Activity) (Event Thread Activity) :=
  .ofFunction .initial (next config)

end Providers

end FailedWalks


end Pyroscope.Samples

namespace Pyroscope.Samples.FailedWalks

/-! ## Which failed walks are dropped -/

open Transition List Function Option

variable {Thread Activity α : Type}

/-- A stack walk whose event is kept unless its handler takes the walk for a failed one. -/
structure Walked where
  site : WalkSite
  frames : Nat
  deriving DecidableEq

def Occurrence.walked (config : Configuration) : Occurrence Activity → Option Walked
  | allocationTick hasThreadInfo allocation tags walk =>
    if hasThreadInfo ∧ allocation.isSampled then
      some ⟨.allocation, (collectStackSample config.ciVisibility tags walk).callstack.length⟩
    else none
  | allocationSampled hasThreadInfo allocation tags walk =>
    if hasThreadInfo ∧ allocation.isSampled then
      some ⟨.allocationSampled,
        (collectStackSample config.ciVisibility tags walk).callstack.length⟩
    else none
  | allocationFromEtw allocation =>
    if allocation.isSampled then some ⟨.allocationFromEtw, allocation.stack.length⟩ else none
  | exceptionThrown isSampled hasThreadInfo tags walk =>
    if hasThreadInfo ∧ isSampled then
      some ⟨.exceptionThrown,
        (collectStackSample config.ciVisibility tags walk).callstack.length⟩
    else none
  | requestStart _ _ _ requester tags walk =>
    if requester.isWalked config.network.forceHttpSampling then
      some ⟨.requestStart,
        (collectStackSample config.ciVisibility tags walk).callstack.length⟩
    else none
  | report _ _ _ => none
  | requestStop _ _ _ => none

namespace Providers

/-- No event whose walk had no frames was added, handed on or kept as a request in progress. -/
structure Dropped (providers : Providers Thread Activity) : Prop where
  allocations : ∀ kept ∈ providers.allocations, kept.frames ≠ 0
  listened : ∀ kept ∈ providers.listened, kept.frames ≠ 0
  exceptions : ∀ kept ∈ providers.exceptions, kept.frames ≠ 0
  network : ∀ kept ∈ providers.network, kept.frames ≠ 0
  requests : ∀ activity kept, providers.requests activity = some kept → kept.frames ≠ 0
  captured : ∀ frames ∈ providers.captured, frames ≠ 0

/-- The counter says that the failed walk of an event is one to be reported. -/
def Caught (config : Configuration) (providers : Providers Thread Activity) :
    Event Thread Activity → Prop
  | .occur _ occurrence => ∀ walked ∈ occurrence.walked config,
      walked.frames = 0 → providers.failureCount walked.site % walked.site.period = 0
  | .loadFailureCount _ => True
  | .storeFailureCount _ => True

instance (config : Configuration) (providers : Providers Thread Activity) :
    ∀ event, Decidable (providers.Caught config event)
  | .occur _ occurrence =>
    inferInstanceAs (Decidable (∀ walked ∈ occurrence.walked config, _ → _))
  | .loadFailureCount _ => isTrue trivial
  | .storeFailureCount _ => isTrue trivial

variable {config : Configuration} {providers after : Providers Thread Activity}
  {thread : Thread} {site : WalkSite} {frames : Nat} {keep : Kept α → Providers Thread Activity}
  {recorded : Option α} {snapshot : Snapshot} {failureCount : Nat}

/-- The frames of a request were captured. -/
def Consistent (providers : Providers Thread Activity) : Prop :=
  ∀ activity kept, providers.requests activity = some kept → kept.frames ∈ providers.captured

theorem reports_iff : providers.reports site frames = true ↔
    frames = 0 ∧ providers.failureCount site % site.period = 0 := by
  rw [reports, decide_eq_true_iff]

theorem reportsFailure_iff :
    reportsFailure failureCount snapshot = true ↔
      snapshot.callstack.length = 0 ∧ failureCount % 100 = 0 := by
  rw [reportsFailure, decide_eq_true_iff, length_eq_zero_iff]

/-- The same but for the requests in progress, which are among those that were kept. -/
@[mk_iff]
structure Clean (providers : Providers Thread Activity) : Prop where
  allocations : ∀ kept ∈ providers.allocations, kept.frames ≠ 0
  listened : ∀ kept ∈ providers.listened, kept.frames ≠ 0
  exceptions : ∀ kept ∈ providers.exceptions, kept.frames ≠ 0
  network : ∀ kept ∈ providers.network, kept.frames ≠ 0
  captured : ∀ frames ∈ providers.captured, frames ≠ 0

theorem Consistent.dropped_iff (consistent : providers.Consistent) :
    providers.Dropped ↔ providers.Clean := by
  constructor
  · exact fun dropped => ⟨dropped.1, dropped.2, dropped.3, dropped.4, dropped.6⟩
  · intro clean
    refine ⟨clean.1, clean.2, clean.3, clean.4, ?_, clean.5⟩
    exact fun activity kept pending => clean.captured _ (consistent activity kept pending)

theorem clean_addAllocation (kept : Kept CollectedSample) :
    (providers.addAllocation config kept).Clean ↔ providers.Clean ∧ kept.frames ≠ 0 := by
  simp only [clean_iff, addAllocation, forall_mem_append, forall_mem_singleton]
  split
  · simp only [forall_mem_append, forall_mem_singleton]
    tauto
  · tauto

theorem clean_addException (kept : Kept CollectedSample) :
    (providers.addException kept).Clean ↔ providers.Clean ∧ kept.frames ≠ 0 := by
  simp only [clean_iff, addException, forall_mem_append, forall_mem_singleton]
  tauto

theorem clean_fail [DecidableEq Thread] :
    (providers.fail thread site).Clean ↔ providers.Clean := by
  simp only [clean_iff, fail]

/-- What a handler keeps has the frames of its walk, and it keeps what is wanted unless its test
drops it. -/
theorem clean_settle [DecidableEq Thread] {reached wanted : Bool}
    (kept : ∀ kept, (keep kept).Clean ↔ providers.Clean ∧ kept.frames ≠ 0)
    (isWanted : recorded.isSome = true ↔
      wanted = true ∧ ¬ (frames = 0 ∧ providers.failureCount site % site.period = 0)) :
    (providers.settle thread site reached frames recorded keep).Clean ↔
      providers.Clean ∧ (wanted = true → frames = 0 →
        providers.failureCount site % site.period = 0) := by
  unfold settle
  split
  case isTrue dropped =>
    rw [clean_fail, and_iff_left fun _ _ => (reports_iff.mp dropped.2).2]
  case isFalse =>
    cases recorded with
    | none =>
      have caught : wanted = true → frames = 0 → providers.failureCount site % site.period = 0 := by
        intro want noFrames
        by_contra elsewhere
        exact absurd (isWanted.mpr ⟨want, fun both => elsewhere both.2⟩) (by simp)
      rw [and_iff_left caught]
    | some value =>
      rcases isWanted.mp rfl with ⟨want, elsewhere⟩
      rw [kept]
      constructor
      · exact fun holds => ⟨holds.1, fun _ noFrames => absurd noFrames holds.2⟩
      · exact fun holds =>
          ⟨holds.1, fun noFrames => elsewhere ⟨noFrames, holds.2 want noFrames⟩⟩

theorem Consistent.settle [DecidableEq Thread] {reached : Bool} (consistent : providers.Consistent)
    (kept : ∀ kept, (keep kept).Consistent) :
    (providers.settle thread site reached frames recorded keep).Consistent := by
  unfold Providers.settle
  split
  · exact consistent
  · split
    · exact consistent
    · exact kept _

theorem consistent_initial : (initial : Providers Thread Activity).Consistent :=
  fun _ _ pending => absurd pending.symm (some_ne_none _)

section Steps

variable [DecidableEq Activity]

theorem clean_put (activity : Activity) (request : Option (Kept PendingRequest)) :
    (providers.put activity request).Clean ↔ providers.Clean := by
  simp only [clean_iff, put]

theorem clean_keepRequest (activity : Activity) (url : String) (timestamp : Int)
    (kept : Kept Capture) :
    (providers.keepRequest activity url timestamp kept).Clean ↔
      providers.Clean ∧ kept.frames ≠ 0 := by
  simp only [clean_iff, keepRequest, put, forall_mem_append, forall_mem_singleton]
  tauto

theorem clean_report (activity : Activity) (timestamp : Int) (reported : Network.Report) :
    (providers.onReport activity timestamp reported).Clean ↔ providers.Clean := by
  unfold onReport
  split
  · rfl
  · exact clean_put _ _

section

variable (consistent : providers.Consistent) (activity : Activity)
include consistent activity

theorem clean_requestStop (timestamp : Int) (statusCode : Nat) :
    (providers.onRequestStop config activity timestamp statusCode).Clean ↔
      providers.Clean := by
  unfold onRequestStop
  split
  case h_1 => rfl
  case h_2 kept pending =>
    split
    case h_1 => exact clean_put _ _
    case h_2 raw _ =>
      have listed : providers.Clean → kept.frames ≠ 0 :=
        fun clean => clean.captured _ (consistent activity kept pending)
      simp only [clean_iff, put, forall_mem_append, forall_mem_singleton] at listed ⊢
      tauto

theorem Consistent.put {request : Option (Kept PendingRequest)}
    (listed : ∀ kept, request = some kept → kept.frames ∈ providers.captured) :
    (providers.put activity request).Consistent := by
  intro other kept pending
  simp only [Providers.put, update_apply] at pending
  split at pending
  · exact listed kept pending
  · exact consistent other kept pending

theorem Consistent.keepRequest (url : String) (timestamp : Int) (kept : Kept Capture) :
    (providers.keepRequest activity url timestamp kept).Consistent := by
  intro other request pending
  simp only [Providers.keepRequest, Providers.put, update_apply] at pending
  split at pending
  · cases pending
    exact mem_append_right _ (mem_singleton_self _)
  · exact mem_append_left _ (consistent other request pending)

end

variable [DecidableEq Thread] {event : Event Thread Activity}

theorem wanted_iff {wanted : Bool} (records : recorded.isSome = true ↔
      wanted = true ∧ ¬ reportsFailure failureCount snapshot = true) :
    recorded.isSome = true ↔ wanted = true ∧
      ¬ (snapshot.callstack.length = 0 ∧ failureCount % 100 = 0) := by
  rw [records, reportsFailure_iff]

theorem isSome_guarded {value : α} {wanted failed : Bool} :
    (if !wanted ∨ failed then none else some value).isSome = true ↔
      wanted = true ∧ ¬ failed = true := by
  cases wanted <;> cases failed <;> simp

theorem clean_handle (consistent : providers.Consistent) (occurrence : Occurrence Activity) :
    (providers.handle config thread occurrence).Clean ↔
      providers.Clean ∧ providers.Caught config (.occur thread occurrence) := by
  cases occurrence with
  | allocationTick hasThreadInfo allocation tags walk
  | allocationSampled hasThreadInfo allocation tags walk =>
    simp only [handle, Caught, Occurrence.walked]
    cases hasThreadInfo with
    | false => simp
    | true =>
      rw [if_pos rfl, clean_settle clean_addAllocation (wanted_iff isSome_guarded)]
      simp [WalkSite.period]
  | allocationFromEtw allocation =>
    have records : (onAllocationFromEtw (providers.failureCount .allocationFromEtw)
        allocation).isSome = true ↔ allocation.isSampled = true ∧
          ¬ (allocation.stack.length = 0 ∧
            providers.failureCount .allocationFromEtw % 1000 = 0) := by
      unfold onAllocationFromEtw
      split
      case isTrue failed => simp [failed]
      case isFalse passed =>
        cases allocation.isSampled <;> simp [passed]
    simp only [handle, Caught, Occurrence.walked]
    rw [clean_settle clean_addAllocation records]
    simp [WalkSite.period]
  | exceptionThrown isSampled hasThreadInfo tags walk =>
    simp only [handle, Caught, Occurrence.walked]
    cases hasThreadInfo with
    | false => simp
    | true =>
      rw [if_pos rfl, clean_settle clean_addException (wanted_iff isSome_guarded)]
      simp [WalkSite.period]
  | requestStart activity url timestamp requester tags walk =>
    have keeps : ∀ kept, ((providers.put activity none).keepRequest activity url timestamp
        kept).Clean ↔ (providers.put activity none).Clean ∧ kept.frames ≠ 0 :=
      clean_keepRequest activity url timestamp
    simp only [handle, onRequestStart, Caught, Occurrence.walked]
    rw [clean_settle keeps (wanted_iff isSome_guarded), clean_put]
    simp [WalkSite.period, put]
  | report activity timestamp reported =>
    simp only [handle, Caught, Occurrence.walked]
    rw [clean_report]
    simp
  | requestStop activity timestamp statusCode =>
    simp only [handle, Caught, Occurrence.walked]
    rw [clean_requestStop consistent]
    simp

namespace Consistent

theorem handle (consistent : providers.Consistent) (occurrence : Occurrence Activity) :
    (providers.handle config thread occurrence).Consistent := by
  have nothing : ∀ kept : Kept PendingRequest, none = some kept →
      kept.frames ∈ providers.captured :=
    fun _ absent => absurd absent.symm (some_ne_none _)
  cases occurrence with
  | allocationTick hasThreadInfo allocation tags walk
  | allocationSampled hasThreadInfo allocation tags walk
  | exceptionThrown isSampled hasThreadInfo tags walk =>
    simp only [Providers.handle]
    split
    · exact consistent.settle fun _ => consistent
    · exact consistent
  | allocationFromEtw allocation => exact consistent.settle fun _ => consistent
  | requestStart activity url timestamp requester tags walk =>
    have erased := consistent.put activity nothing
    exact erased.settle (erased.keepRequest activity url timestamp)
  | report activity timestamp reported =>
    simp only [Providers.handle]
    unfold onReport
    split
    case h_1 => exact consistent
    case h_2 kept pending =>
      apply consistent.put
      intro changed same
      cases same
      exact consistent activity kept pending
  | requestStop activity timestamp statusCode =>
    have erased := consistent.put activity nothing
    simp only [Providers.handle]
    unfold onRequestStop
    split
    · exact consistent
    · split
      · exact erased
      · exact erased

end Consistent

theorem clean_step (consistent : providers.Consistent)
    (taken : providers.next config event = some after) :
    after.Consistent ∧ (after.Clean ↔ providers.Clean ∧ providers.Caught config event) := by
  cases event with
  | occur thread occurrence =>
    rcases ite_none_right_eq_some.mp taken with ⟨_, ⟨⟩⟩
    exact ⟨consistent.handle occurrence, clean_handle consistent occurrence⟩
  | loadFailureCount thread | storeFailureCount thread =>
    simp only [next] at taken
    split at taken
    case h_1 =>
      cases taken
      refine ⟨consistent, ?_⟩
      simp only [clean_iff, Caught, and_true]
    all_goals cases taken

/-- Failed walks are dropped exactly in the runs where each of them meets a counter which is a
multiple of the period. -/
theorem dropped_iff_caught (config : Configuration) {events : List (Event Thread Activity)}
    (run : (system Thread Activity config).Run initial events providers) :
    providers.Dropped ↔
      ((system Thread Activity config).restrict (Caught config)).Run initial events
        providers := by
  have consistent : providers.Consistent := by
    refine run.invariant Consistent consistent_initial ?_
    exact fun before event after holds taken => (clean_step holds taken).1
  rw [consistent.dropped_iff]
  refine System.Run.restrict_iff Consistent Clean consistent_initial ?_ ?_ run
  · have nothing : ∀ {β : Type} {property : β → Prop}, ∀ value ∈ ([] : List β), property value :=
      fun _ mem => absurd mem not_mem_nil
    exact ⟨nothing, nothing, nothing, nothing, nothing⟩
  · exact fun before event after holds taken => clean_step holds taken

end Steps

/-!
### A counter which is stuck
-/

def Settled (site : WalkSite) (providers : Providers Thread Activity) : Prop :=
  ∀ thread, providers.threads thread ≠ .failed site ∧
    ∀ failureCount, providers.threads thread ≠ .loaded site failureCount

theorem Settled.move [DecidableEq Thread] {place : Place} (settled : providers.Settled site)
    (moved : after.threads = update providers.threads thread place)
    (elsewhere : place ≠ .failed site ∧ ∀ failureCount, place ≠ .loaded site failureCount) :
    after.Settled site := by
  intro other
  rw [moved]
  by_cases isThread : other = thread
  · rw [isThread, update_self]
    exact elsewhere
  · rw [update_of_ne isThread]
    exact settled other

/-- A handler counts nothing itself, and a thread goes on to count what its handler reports. -/
structure Counts [DecidableEq Thread] (providers after : Providers Thread Activity)
    (thread : Thread) : Prop where
  failureCount : after.failureCount = providers.failureCount
  threads : after.threads = providers.threads ∨
    ∃ site, providers.failureCount site % site.period = 0 ∧
      after.threads = update providers.threads thread (.failed site)

theorem counts_settle [DecidableEq Thread] {reached : Bool}
    (kept : ∀ kept, providers.Counts (keep kept) thread) :
    providers.Counts (providers.settle thread site reached frames recorded keep) thread := by
  unfold settle
  split
  case isTrue dropped =>
    exact ⟨rfl, Or.inr ⟨site, (reports_iff.mp dropped.2).2, rfl⟩⟩
  case isFalse =>
    split
    · exact ⟨rfl, Or.inl rfl⟩
    · exact kept _

section Steps

variable [DecidableEq Activity] [DecidableEq Thread]

theorem counts_handle (occurrence : Occurrence Activity) :
    providers.Counts (providers.handle config thread occurrence) thread := by
  have same : providers.Counts providers thread := ⟨rfl, Or.inl rfl⟩
  cases occurrence with
  | allocationTick hasThreadInfo allocation tags walk
  | allocationSampled hasThreadInfo allocation tags walk
  | exceptionThrown isSampled hasThreadInfo tags walk =>
    simp only [handle]
    split
    · exact counts_settle fun _ => ⟨rfl, Or.inl rfl⟩
    · exact same
  | allocationFromEtw allocation => exact counts_settle fun _ => ⟨rfl, Or.inl rfl⟩
  | requestStart activity url timestamp requester tags walk =>
    have erased : (providers.put activity none).Counts
        (providers.onRequestStart config thread activity url timestamp requester walk
          (collectStackSample config.ciVisibility tags walk)) thread :=
      counts_settle fun _ => ⟨rfl, Or.inl rfl⟩
    exact ⟨erased.failureCount, erased.threads⟩
  | report activity timestamp reported =>
    simp only [handle]
    unfold onReport
    split <;> exact ⟨rfl, Or.inl rfl⟩
  | requestStop activity timestamp statusCode =>
    simp only [handle]
    unfold onRequestStop
    split
    · exact same
    · split <;> exact ⟨rfl, Or.inl rfl⟩

theorem stuck_step (settled : providers.Settled site)
    (beyond : providers.failureCount site % site.period ≠ 0)
    (taken : providers.next config event = some after) :
    after.Settled site ∧ after.failureCount site = providers.failureCount site := by
  cases event with
  | occur thread occurrence =>
    rcases ite_none_right_eq_some.mp taken with ⟨_, ⟨⟩⟩
    have counts := @counts_handle _ _ config providers thread _ _ occurrence
    refine ⟨?_, congrFun counts.failureCount site⟩
    rcases counts.threads with same | ⟨failing, reported, moved⟩
    · intro other
      rw [same]
      exact settled other
    · have different : failing ≠ site := by
        intro equal
        rw [equal] at reported
        exact beyond reported
      exact settled.move moved (by simp [different])
  | loadFailureCount thread =>
    simp only [next] at taken
    split at taken
    case h_1 failing place =>
      cases taken
      have different : failing ≠ site := by
        intro equal
        exact (settled thread).1 (equal ▸ place)
      exact ⟨settled.move rfl (by simp [different]), rfl⟩
    all_goals cases taken
  | storeFailureCount thread =>
    simp only [next] at taken
    split at taken
    case h_1 failing failureCount place =>
      cases taken
      have different : failing ≠ site := by
        intro equal
        exact (settled thread).2 failureCount (equal ▸ place)
      exact ⟨settled.move rfl (by simp), update_of_ne (Ne.symm different) _ _⟩
    all_goals cases taken

/-- A counter which is no multiple of its period stays as it is for ever. -/
theorem failureCount_stuck {first last : Providers Thread Activity}
    {events : List (Event Thread Activity)} (settled : first.Settled site)
    (beyond : first.failureCount site % site.period ≠ 0)
    (run : (system Thread Activity config).Run first events last) :
    last.Settled site ∧ last.failureCount site = first.failureCount site := by
  induction run with
  | nil => exact ⟨settled, rfl⟩
  | snoc run taken ih =>
    rcases ih with ⟨stillSettled, same⟩
    rcases stuck_step stillSettled (same ▸ beyond) taken with ⟨left, unchanged⟩
    exact ⟨left, unchanged.trans same⟩

end Steps

def sampleConfiguration : Configuration := ⟨false, true, ⟨true, 0⟩⟩

def failedWalk : Walk := ⟨some [], ⟨0, 0, 0⟩, 0, 0⟩

/-- The walk of the second exception fails too, and the counter still says one. -/
theorem second_failure_not_counted : ∃ last : Providers Nat Nat,
    (system Nat Nat sampleConfiguration).Run { initial with failureCount := fun _ => 1 }
      [.occur 2 (.exceptionThrown true true .empty failedWalk)] last ∧
    last.Settled .exceptionThrown ∧ last.failureCount .exceptionThrown = 1 :=
  System.exists_run_of_exec rfl fun run => failureCount_stuck (fun _ => by simp [initial])
    (by decide) run

def sampledAllocation : Allocation := ⟨true, "", 24, 0x1000⟩

def firstFailures : List (Event Nat Nat) :=
  [.occur 1 (.allocationTick true sampledAllocation .empty failedWalk), .loadFailureCount 1,
    .occur 2 (.exceptionThrown true true .empty failedWalk), .storeFailureCount 1,
    .loadFailureCount 2, .storeFailureCount 2,
    .occur 1 (.requestStart 5 "" 0 ⟨true, true⟩ .empty failedWalk), .loadFailureCount 1,
    .storeFailureCount 1,
    .occur 1 (.allocationTick true sampledAllocation .empty
      { failedWalk with frames := some [3, 4] }),
    .occur 2 (.requestStart 6 "" 0 ⟨true, true⟩ .empty { failedWalk with frames := some [3] })]

theorem first_failures_dropped : ∃ providers : Providers Nat Nat,
    (system Nat Nat sampleConfiguration).Run initial firstFailures providers ∧
      providers.Dropped ∧ providers.allocations.map Kept.frames = [2] ∧
      providers.listened.map Kept.frames = [2] ∧ providers.captured = [1] ∧
      providers.failureCount .allocation = 1 := by
  refine System.exists_run_of_restricted_exec (Caught sampleConfiguration) rfl (by decide +kernel)
    ?_
  intro run
  have dropped := dropped_iff_caught sampleConfiguration run.of_restrict
  exact ⟨dropped.mpr run, rfl, rfl, rfl, rfl⟩

/-- The second failed walk of each handler is kept. -/
theorem second_failures_kept : ∃ providers : Providers Nat Nat,
    (system Nat Nat sampleConfiguration).Run initial
      (firstFailures ++
        [.occur 1 (.allocationTick true sampledAllocation .empty failedWalk),
          .occur 2 (.exceptionThrown true true .empty failedWalk),
          .occur 1 (.requestStart 7 "" 0 ⟨true, true⟩ .empty failedWalk),
          .occur 1 (.requestStart 8 "" 0 ⟨true, true⟩ .empty failedWalk),
          .occur 1 (.requestStop 8 10 200)]) providers ∧
      providers.allocations.map Kept.frames = [2, 0] ∧
      providers.listened.map Kept.frames = [2, 0] ∧
      providers.exceptions.map Kept.frames = [0] ∧
      (providers.requests 7).map Kept.frames = some 0 ∧
      providers.network.map Kept.frames = [0] :=
  ⟨_, System.run_of_exec rfl, rfl, rfl, rfl, rfl, rfl⟩

end Providers

end Pyroscope.Samples.FailedWalks
