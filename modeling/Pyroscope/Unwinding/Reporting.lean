import Mathlib.Algebra.Group.Nat.Defs
import Mathlib.Algebra.Ring.Int.Defs

/-!
# The hybrid unwinder

Both handlers only look whether the unwinder has returned zero, while it returns a negative number
for an error.
-/

namespace Pyroscope.Unwinding

def word (value : Nat) : Nat := value % 2 ^ 64

def maxFrames : Nat := 1024

structure Callstack where
  capacity : Nat
  capacity_le : capacity ≤ maxFrames
  written : List Nat
  count : Nat
  deriving DecidableEq

namespace Callstack

def empty (capacity : Nat) (capacity_le : capacity ≤ maxFrames) : Callstack :=
  ⟨capacity, capacity_le, [], 0⟩

/-- `none` stands for the answer that the buffer is full. -/
def add (callstack : Callstack) (ip : Nat) : Option Callstack :=
  if callstack.count ≥ callstack.capacity then none
  else some { callstack with written := callstack.written ++ [ip], count := callstack.count + 1 }

def setCount (callstack : Callstack) (count : Nat) : Callstack := { callstack with count := count }

end Callstack

structure CursorFrame where
  ipResult : Int
  ip : Nat
  fpResult : Int
  fp : Nat
  /-- `unw_step`, and whether it has fallen back to the link register. -/
  stepResult : Int
  fallbackLr : Bool
  deriving DecidableEq

structure Machine where
  memory : Nat → Nat
  isManaged : Nat → Option Bool
  cursor : Nat → CursorFrame
  stackBase : Nat
  stackEnd : Nat
  ordered : stackBase ≤ stackEnd
  stackEnd_lt : stackEnd < 2 ^ 64

namespace Machine

def read (machine : Machine) (address : Nat) : Nat := word (machine.memory address)

def minPlausibleNativeIp : Nat := 0x4000

def fakeUnknownIP : Nat := 0

def unknownFrameTypeIP : Nat := 3

def maxConsecutiveNativeFrames : Nat := 8

/-- `UnwindNativeFrames`: the position at which managed code is reached, and the callstack, whose
room bounds the loop. -/
def unwindNativeFrames (machine : Machine) : Nat → Nat → Callstack → Option Nat × Callstack
  | 0, _, callstack => (none, callstack)
  | fuel + 1, position, callstack =>
    let frame := machine.cursor position
    if frame.ipResult ≠ 0 ∨ frame.ip = 0 then (none, callstack)
    else if frame.ip < minPlausibleNativeIp then (none, callstack)
    else
      match machine.isManaged frame.ip with
      | some true => (some position, callstack)
      | none => (none, (callstack.add unknownFrameTypeIP).getD callstack)
      | some false =>
        match callstack.add frame.ip with
        | none => (none, callstack)
        | some callstack =>
          if frame.stepResult ≤ 0 ∨ frame.fallbackLr then (none, callstack)
          else machine.unwindNativeFrames fuel (position + 1) callstack

end Machine

def isValidFp (fp prevFp stackBase stackEnd : Nat) : Bool :=
  if fp = 0 then false
  else if fp % 8 ≠ 0 then false
  -- Ensure the full frame record [fp, fp+16) lies within the stack.
  else if fp < stackBase ∨ word (fp + 2 * 8) > stackEnd then false
  -- Stack grows down on arm64: FP chain must grow toward higher addresses.
  else if prevFp ≠ 0 ∧ fp ≤ prevFp then false
  else true

structure Walk where
  active : Bool
  fp : Nat
  consecutiveNativeFrames : Nat
  callstack : Callstack
  frames : List Nat
  reads : List Nat
  deriving DecidableEq

namespace Walk

def stop (walk : Walk) : Walk := { walk with active := false }

def countNative (walk : Walk) : Walk :=
  { walk with
    consecutiveNativeFrames := walk.consecutiveNativeFrames + 1
    active := walk.consecutiveNativeFrames + 1 ≤ Machine.maxConsecutiveNativeFrames }

def addFrame (machine : Machine) (walk : Walk) (ip : Nat) : Walk :=
  match machine.isManaged ip with
  | some true =>
    match walk.callstack.add ip with
    | none => walk.stop
    | some callstack => { walk with callstack := callstack, consecutiveNativeFrames := 0 }
  | some false => walk.countNative
  -- In case we were unable to identify, we assume it's a managed frame
  | none =>
    match walk.callstack.add Machine.fakeUnknownIP with
    | none => walk.stop
    | some callstack => { walk with callstack := callstack }.countNative

def follow (machine : Machine) (walk : Walk) : Walk :=
  let fp := machine.read walk.fp
  { walk with
    fp := fp
    active := isValidFp fp walk.fp machine.stackBase machine.stackEnd
    reads := walk.reads ++ [walk.fp] }

def iterate (machine : Machine) (walk : Walk) : Walk :=
  let address := word (walk.fp + 8)
  let ip := machine.read address
  let walk := { walk with frames := walk.frames ++ [walk.fp], reads := walk.reads ++ [address] }
  -- Most of the time, ip == 0  means end of calls
  if ip = 0 then walk.stop
  else
    let walk := walk.addFrame machine ip
    if walk.active then walk.follow machine else walk

def run (machine : Machine) : Nat → Walk → Walk
  | 0, walk => walk
  | fuel + 1, walk => if walk.active then (walk.iterate machine).run machine fuel else walk

end Walk

namespace Machine

def enter (machine : Machine) (frame : CursorFrame) (callstack : Callstack) : Walk :=
  let fp := word frame.fp
  let outside : Walk := ⟨false, fp, 0, callstack, [], []⟩
  if frame.ipResult ≠ 0 ∨ frame.ip = 0 then outside
  else
    match callstack.add frame.ip with
    | none => outside
    | some callstack =>
      if frame.fpResult ≠ 0 ∨ !isValidFp fp 0 machine.stackBase machine.stackEnd then
        { outside with callstack := callstack }
      else { outside with callstack := callstack, active := true }

/-- Nine passes in a row add a frame, so the room in the callstack bounds the loop. -/
def unwindManagedFrames (machine : Machine) (frame : CursorFrame) (callstack : Callstack) :
    Callstack :=
  ((machine.enter frame callstack).run machine (9 * (callstack.capacity + 1))).callstack

/-- `Unwind`, for given results of the library functions. Without a context that of the caller is
taken. -/
def unwind (machine : Machine) (hasContext : Bool) (getcontext initLocal2 : Int)
    (callstack : Callstack) : Int × Callstack :=
  if machine.stackBase = 0 ∨ machine.stackEnd = 0 then (0, callstack)
  else if !hasContext ∧ getcontext ≠ 0 then (-1, callstack)
  else if initLocal2 ≠ 0 then (-1, callstack)
  else
    match machine.unwindNativeFrames (callstack.capacity + 1) 0 callstack with
    | (none, callstack) => (callstack.count, callstack)
    | (some position, callstack) =>
      let callstack := machine.unwindManagedFrames (machine.cursor position) callstack
      (callstack.count, callstack)

end Machine

/-! ## Reporting a stack -/

namespace Callstack

variable {callstack after : Callstack} {ip : Nat}

/-- The count is the number of frames which have been written, and there is room for them. -/
structure Filled (callstack : Callstack) : Prop where
  count : callstack.count = callstack.written.length
  room : callstack.count ≤ callstack.capacity

theorem filled_empty {capacity : Nat} {capacity_le : capacity ≤ maxFrames} :
    (empty capacity capacity_le).Filled :=
  ⟨rfl, Nat.zero_le _⟩

theorem Filled.add (filled : callstack.Filled) (added : callstack.add ip = some after) :
    after.Filled ∧ after.capacity = callstack.capacity ∧ after.count = callstack.count + 1 := by
  rcases Option.ite_none_left_eq_some.mp added with ⟨room, ⟨⟩⟩
  refine ⟨⟨?_, ?_⟩, rfl, rfl⟩
  · simp [filled.count]
  · simp only
    omega

end Callstack

namespace Machine

variable {machine : Machine} {callstack : Callstack} {fuel position : Nat}

theorem filled_unwindNativeFrames (filled : callstack.Filled) :
    (machine.unwindNativeFrames fuel position callstack).2.Filled := by
  induction fuel generalizing position callstack with
  | zero => exact filled
  | succ fuel ih =>
    simp only [unwindNativeFrames]
    split
    · exact filled
    · split
      · exact filled
      · split
        · exact filled
        · cases added : callstack.add unknownFrameTypeIP with
          | none => exact filled
          | some after => exact (filled.add added).1
        · split
          · exact filled
          next added =>
            split
            · exact (filled.add added).1
            · exact ih (filled.add added).1

end Machine

namespace Walk

variable {machine : Machine} {walk : Walk} {fuel ip : Nat}

/-- How many passes are left: nine for every free place, less the native frames in a row. -/
def passes (walk : Walk) : Nat :=
  9 * (walk.callstack.capacity - walk.callstack.count) + (8 - walk.consecutiveNativeFrames)

/-- The walk goes on with fewer passes to make. -/
def Shorter (before after : Walk) : Prop :=
  after.callstack.Filled ∧ (after.active = true →
    after.consecutiveNativeFrames ≤ 8 ∧ after.passes < before.passes)

section

variable (filled : walk.callstack.Filled) (few : walk.consecutiveNativeFrames ≤ 8)
include filled few

theorem shorter_countNative : walk.Shorter walk.countNative := by
  refine ⟨filled, ?_⟩
  intro active
  have more : walk.consecutiveNativeFrames + 1 ≤ 8 := by
    simpa [countNative, Machine.maxConsecutiveNativeFrames] using active
  simp only [countNative, passes]
  omega

theorem shorter_addFrame : walk.Shorter (walk.addFrame machine ip) := by
  simp only [addFrame]
  split
  · split
    · exact ⟨filled, fun active => absurd active Bool.false_ne_true⟩
    next added =>
      rcases filled.add added with ⟨filledAfter, capacity, count⟩
      have room := filledAfter.room
      refine ⟨filledAfter, fun _ => ⟨Nat.zero_le _, ?_⟩⟩
      simp only [passes, capacity, count] at room ⊢
      omega
  · exact shorter_countNative filled few
  · split
    · exact ⟨filled, fun active => absurd active Bool.false_ne_true⟩
    next after added =>
      rcases filled.add added with ⟨filledAfter, capacity, count⟩
      rcases @shorter_countNative { walk with callstack := after } filledAfter few with
        ⟨filledCounted, shorter⟩
      refine ⟨filledCounted, fun active => ⟨(shorter active).1, ?_⟩⟩
      refine Nat.lt_of_lt_of_le (shorter active).2 ?_
      simp only [passes, capacity, count]
      omega

theorem shorter_iterate : walk.Shorter (walk.iterate machine) := by
  have added := fun ip => @shorter_addFrame machine
    { walk with
      frames := walk.frames ++ [walk.fp], reads := walk.reads ++ [word (walk.fp + 8)] }
    ip filled few
  simp only [iterate]
  split
  · exact ⟨filled, fun active => absurd active Bool.false_ne_true⟩
  · split
    next active => exact ⟨(added _).1, fun _ => (added _).2 active⟩
    · exact added _

end

theorem run_of_inactive (inactive : walk.active = false) : walk.run machine fuel = walk := by
  cases fuel with
  | zero => rfl
  | succ fuel => rw [run, if_neg (by simp [inactive])]

theorem run_inactive (filled : walk.callstack.Filled) (few : walk.consecutiveNativeFrames ≤ 8)
    (enough : walk.passes < fuel) :
    (walk.run machine fuel).active = false ∧ (walk.run machine fuel).callstack.Filled := by
  induction fuel generalizing walk with
  | zero => exact absurd enough (Nat.not_lt_zero _)
  | succ fuel ih =>
    rw [run]
    split
    · rcases shorter_iterate filled few with ⟨filledAfter, shorter⟩
      cases active : (walk.iterate machine).active with
      | true =>
        rcases shorter active with ⟨fewAfter, less⟩
        exact ih filledAfter fewAfter (by omega)
      | false =>
        rw [run_of_inactive active]
        exact ⟨active, filledAfter⟩
    next inactive => exact ⟨Bool.eq_false_iff.mpr inactive, filled⟩

end Walk

namespace Machine

variable {machine : Machine} {frame : CursorFrame} {callstack : Callstack} {hasContext : Bool}
  {getcontext initLocal2 : Int}

theorem enter_filled (filled : callstack.Filled) :
    (machine.enter frame callstack).callstack.Filled ∧
      (machine.enter frame callstack).callstack.capacity = callstack.capacity ∧
      (machine.enter frame callstack).consecutiveNativeFrames = 0 := by
  simp only [enter]
  split
  · exact ⟨filled, rfl, rfl⟩
  · split
    · exact ⟨filled, rfl, rfl⟩
    next added =>
      rcases filled.add added with ⟨filledAfter, capacity, -⟩
      split <;> exact ⟨filledAfter, capacity, rfl⟩

theorem filled_unwindManagedFrames (filled : callstack.Filled) :
    (machine.unwindManagedFrames frame callstack).Filled := by
  rcases @enter_filled machine frame callstack filled with ⟨entered, capacity, native⟩
  apply (Walk.run_inactive entered (by omega) _).2
  simp only [Walk.passes, native, capacity]
  omega

def FailsToInitialise (machine : Machine) (hasContext : Bool) (getcontext initLocal2 : Int) :
    Prop :=
  machine.stackBase ≠ 0 ∧ machine.stackEnd ≠ 0 ∧
    (hasContext = false ∧ getcontext ≠ 0 ∨ initLocal2 ≠ 0)

theorem unwind_cases (filled : callstack.Filled) (empty : callstack.count = 0) :
    machine.FailsToInitialise hasContext getcontext initLocal2 ∧
        machine.unwind hasContext getcontext initLocal2 callstack = (-1, callstack) ∨
      ¬machine.FailsToInitialise hasContext getcontext initLocal2 ∧
        ∃ after : Callstack, after.Filled ∧
          machine.unwind hasContext getcontext initLocal2 callstack =
            ((after.count : Int), after) := by
  simp only [unwind, FailsToInitialise]
  split
  case isTrue unknown =>
    exact .inr ⟨fun fails => unknown.elim fails.1 fails.2.1, callstack, filled, by rw [empty]; rfl⟩
  case isFalse known =>
    have bounds : machine.stackBase ≠ 0 ∧ machine.stackEnd ≠ 0 := not_or.mp known
    split
    case isTrue failed => exact .inl ⟨⟨bounds.1, bounds.2, .inl (by simpa using failed)⟩, rfl⟩
    case isFalse given =>
      split
      case isTrue failed => exact .inl ⟨⟨bounds.1, bounds.2, .inr failed⟩, rfl⟩
      case isFalse initialised =>
        refine .inr ⟨?_, ?_⟩
        · rintro ⟨-, -, withoutContext | failed⟩
          · exact given (by simpa using withoutContext)
          · exact initialised failed
        · have native :=
            @filled_unwindNativeFrames machine callstack (callstack.capacity + 1) 0 filled
          split
          next result =>
            rw [result] at native
            exact ⟨_, native, rfl⟩
          next result =>
            rw [result] at native
            exact ⟨_, filled_unwindManagedFrames native, rfl⟩

end Machine

/-! ## The two unwinders -/

inductive Unwinder where
  | hybrid (machine : Machine) (getcontext initLocal2 : Int)
  | backtrace2 (nbFrames : Int) (frames : List Nat)

namespace Unwinder

variable {unwinder : Unwinder} {hasContext : Bool} {callstack : Callstack}

def unwind (hasContext : Bool) (callstack : Callstack) : Unwinder → Int × Callstack
  | .hybrid machine getcontext initLocal2 =>
    machine.unwind hasContext getcontext initLocal2 callstack
  | .backtrace2 nbFrames frames =>
    -- `SetCount` takes an unsigned number.
    (nbFrames, { callstack with written := frames }.setCount (nbFrames % 2 ^ 64).toNat)

/-- `unw_backtrace2` keeps to the buffer and returns the number of frames or an error. -/
def Documented (capacity : Nat) : Unwinder → Prop
  | .hybrid .. => True
  | .backtrace2 nbFrames frames =>
    frames.length ≤ capacity ∧ (nbFrames < 0 ∨ nbFrames = frames.length)

/-- libunwind cannot be initialised, or reports an error of its own. -/
def Fails (hasContext : Bool) : Unwinder → Prop
  | .hybrid machine getcontext initLocal2 =>
    machine.FailsToInitialise hasContext getcontext initLocal2
  | .backtrace2 nbFrames _ => nbFrames < 0

/-- The frames of a callstack which was counted lie in its buffer. -/
def Fits (callstack : Callstack) : Prop :=
  callstack.count ≤ callstack.written.length ∧ callstack.count ≤ callstack.capacity

/-- An unwinder fails with a negative number, or returns the count of a callstack in order. -/
theorem unwind_cases (filled : callstack.Filled) (empty : callstack.count = 0)
    (documented : unwinder.Documented callstack.capacity) :
    unwinder.Fails hasContext ∧ (unwinder.unwind hasContext callstack).1 < 0 ∨
      ¬unwinder.Fails hasContext ∧ Fits (unwinder.unwind hasContext callstack).2 ∧
        (unwinder.unwind hasContext callstack).1 =
          (unwinder.unwind hasContext callstack).2.count := by
  cases unwinder with
  | hybrid machine getcontext initLocal2 =>
    rcases @Machine.unwind_cases machine callstack hasContext getcontext initLocal2 filled
      empty with ⟨fails, result⟩ | ⟨works, after, filledAfter, result⟩
    · refine .inl ⟨fails, ?_⟩
      simp only [unwind, result]
      decide
    · refine .inr ⟨works, ?_⟩
      simp only [unwind, result]
      exact ⟨⟨Nat.le_of_eq filledAfter.count, filledAfter.room⟩, trivial⟩
  | backtrace2 nbFrames frames =>
    rcases documented with ⟨room, error | number⟩
    · exact .inl ⟨error, error⟩
    · have few := callstack.capacity_le
      have count : (nbFrames % 2 ^ 64).toNat = frames.length := by
        rw [maxFrames] at few
        omega
      refine .inr ⟨?_, ?_⟩
      · intro error
        have negative : nbFrames < 0 := error
        omega
      · simp only [unwind, Callstack.setCount, count]
        exact ⟨⟨Nat.le_refl _, room⟩, number⟩

end Unwinder

/-! ## The two handlers -/

def sOk : Int := 0

def eAbort : Int := 0x80004004 - 2 ^ 32

def eFail : Int := 0x80004005 - 2 ^ 32

theorem eAbort_ne_sOk : eAbort ≠ sOk := by decide

theorem eFail_ne_sOk : eFail ≠ sOk := by decide

def collectStack (unwinder : Unwinder) (hasContext : Bool) (callstack : Callstack) :
    Int × Callstack :=
  let (count, callstack) := unwinder.unwind hasContext callstack
  if count = 0 then (eFail, callstack) else (sOk, callstack)

/-- `throws` says that an exception is thrown before the stack is collected. -/
def collectCallStackCurrentThread (unwinder : Unwinder) (hasContext insideWrappedFunctions throws :
    Bool) (callstack : Callstack) : Int × Callstack :=
  if insideWrappedFunctions then (eAbort, callstack)
  else if throws then (eAbort, callstack)
  else collectStack unwinder hasContext callstack

def collectionResult (errorCode : Int) : Int := if errorCode = 0 then sOk else eFail

structure CpuHandler where
  hasThreadInfo : Bool
  isLockAcquired : Bool
  canCollect : Bool
  hasRawSample : Bool
  deriving DecidableEq

/-- `TimerCreateCpuProfiler::Collect`: the callstack of the sample which is committed. -/
def CpuHandler.collect (handler : CpuHandler) (unwinder : Unwinder) (hasContext : Bool)
    (callstack : Callstack) : Option Callstack :=
  if !handler.hasThreadInfo then none
  else if !handler.isLockAcquired then none
  else if !handler.canCollect then none
  else if !handler.hasRawSample then none
  else
    let (count, callstack) := unwinder.unwind hasContext callstack
    if count = 0 then none else some callstack

def CpuHandler.unwinds (handler : CpuHandler) : Bool :=
  handler.hasThreadInfo && handler.isLockAcquired && handler.canCollect && handler.hasRawSample

variable {unwinder : Unwinder} {hasContext insideWrappedFunctions throws : Bool}
  {handler : CpuHandler} {callstack : Callstack} {capacity : Nat}
  {capacity_le : capacity ≤ maxFrames}

/--
A collection succeeds only if the unwinder returned no error and stored a frame, and what it has
stored lies in the buffer.
-/
def WallTimeInOrder (unwinder : Unwinder) (hasContext insideWrappedFunctions throws : Bool)
    (callstack : Callstack) : Prop :=
  let collection :=
    collectCallStackCurrentThread unwinder hasContext insideWrappedFunctions throws callstack
  (collectionResult collection.1 = sOk →
    0 ≤ (unwinder.unwind hasContext callstack).1 ∧ 1 ≤ collection.2.count) ∧
  Unwinder.Fits collection.2

/-- The same for a sample which is committed to the ring buffer. -/
def CpuInOrder (unwinder : Unwinder) (hasContext : Bool) (handler : CpuHandler)
    (callstack : Callstack) : Prop :=
  ∀ committed, handler.collect unwinder hasContext callstack = some committed →
    0 ≤ (unwinder.unwind hasContext callstack).1 ∧ 1 ≤ committed.count ∧ Unwinder.Fits committed

theorem collectionResult_eq_sOk {errorCode : Int} :
    collectionResult errorCode = sOk ↔ errorCode = sOk := by
  simp only [collectionResult]
  split
  case isTrue success => exact ⟨fun _ => success, fun _ => rfl⟩
  case isFalse failure =>
    exact ⟨fun same => absurd same eFail_ne_sOk, fun same => absurd same failure⟩

theorem wallTimeInOrder_of_early (filled : callstack.Filled)
    (early : insideWrappedFunctions = true ∨ throws = true) :
    WallTimeInOrder unwinder hasContext insideWrappedFunctions throws callstack := by
  have result : collectCallStackCurrentThread unwinder hasContext insideWrappedFunctions throws
      callstack = (eAbort, callstack) := by
    rcases early with rfl | rfl
    · rfl
    · cases insideWrappedFunctions <;> rfl
  rw [WallTimeInOrder, result]
  refine ⟨?_, Nat.le_of_eq filled.count, filled.room⟩
  intro success
  exact absurd (collectionResult_eq_sOk.mp success) eAbort_ne_sOk

theorem wallTimeInOrder_iff (filled : callstack.Filled) (empty : callstack.count = 0)
    (documented : unwinder.Documented callstack.capacity) :
    WallTimeInOrder unwinder hasContext insideWrappedFunctions throws callstack ↔
      insideWrappedFunctions = true ∨ throws = true ∨ ¬unwinder.Fails hasContext := by
  by_cases early : insideWrappedFunctions = true ∨ throws = true
  · exact iff_of_true (wallTimeInOrder_of_early filled early) (or_assoc.mp (.inl early))
  · have collects : collectCallStackCurrentThread unwinder hasContext insideWrappedFunctions throws
        callstack = collectStack unwinder hasContext callstack := by
      rcases not_or.mp early with ⟨outside, quiet⟩
      rw [collectCallStackCurrentThread, if_neg outside, if_neg quiet]
    rw [WallTimeInOrder, collects, ← or_assoc, or_iff_right early]
    simp only [collectionResult_eq_sOk, collectStack]
    rcases @Unwinder.unwind_cases unwinder hasContext callstack filled empty documented with
      ⟨fails, negative⟩ | ⟨works, fits, count⟩
    · refine iff_of_false ?_ (not_not.mpr fails)
      rintro ⟨success, -⟩
      rw [if_neg (by omega)] at success
      exact absurd (success rfl).1 (Int.not_le.mpr negative)
    · refine iff_of_true ⟨?_, ?_⟩ works
      · split
        case isTrue zero => exact fun success => absurd success eFail_ne_sOk
        case isFalse some =>
          have positive : 1 ≤ (unwinder.unwind hasContext callstack).2.count := by omega
          exact fun _ => ⟨by omega, positive⟩
      · split <;> exact fits

theorem CpuHandler.collect_eq :
    handler.collect unwinder hasContext callstack =
      if handler.unwinds ∧ (unwinder.unwind hasContext callstack).1 ≠ 0 then
        some (unwinder.unwind hasContext callstack).2
      else none := by
  rcases handler with ⟨_ | _, _ | _, _ | _, _ | _⟩
  all_goals simp [CpuHandler.collect, CpuHandler.unwinds]

theorem cpuInOrder_iff (filled : callstack.Filled) (empty : callstack.count = 0)
    (documented : unwinder.Documented callstack.capacity) :
    CpuInOrder unwinder hasContext handler callstack ↔
      handler.unwinds = false ∨ ¬unwinder.Fails hasContext := by
  simp only [CpuInOrder, CpuHandler.collect_eq, Option.ite_none_right_eq_some, Option.some.injEq]
  rcases @Unwinder.unwind_cases unwinder hasContext callstack filled empty documented with
    ⟨fails, negative⟩ | ⟨works, fits, count⟩
  · rw [or_iff_left (not_not.mpr fails)]
    constructor
    · intro inOrder
      by_contra unwinds
      have error := (inOrder _ ⟨⟨by simpa using unwinds, by omega⟩, rfl⟩).1
      omega
    · rintro early committed ⟨⟨unwinds, -⟩, -⟩
      rw [early] at unwinds
      exact absurd unwinds Bool.false_ne_true
  · refine iff_of_true ?_ (.inr works)
    rintro committed ⟨⟨-, some⟩, rfl⟩
    exact ⟨by omega, by omega, fits⟩

/--
Either handler reports stacks in order if and only if it does not get to the unwinder or the
unwinder does not fail.
-/
theorem reports_in_order_iff (documented : unwinder.Documented capacity) :
    (WallTimeInOrder unwinder hasContext insideWrappedFunctions throws
        (.empty capacity capacity_le) ↔
      insideWrappedFunctions = true ∨ throws = true ∨ ¬unwinder.Fails hasContext) ∧
    (CpuInOrder unwinder hasContext handler (.empty capacity capacity_le) ↔
      handler.unwinds = false ∨ ¬unwinder.Fails hasContext) :=
  ⟨wallTimeInOrder_iff Callstack.filled_empty rfl documented,
    cpuInOrder_iff Callstack.filled_empty rfl documented⟩

theorem two_frames_in_order :
    (Unwinder.backtrace2 2 [1, 2]).Documented 4 ∧
      WallTimeInOrder (.backtrace2 2 [1, 2]) true false false (.empty 4 (by decide)) ∧
      (collectCallStackCurrentThread (.backtrace2 2 [1, 2]) true false false
        (.empty 4 (by decide))).2.count = 2 ∧
      CpuInOrder (.backtrace2 2 [1, 2]) true ⟨true, true, true, true⟩ (.empty 4 (by decide)) ∧
      ((CpuHandler.mk true true true true).collect (.backtrace2 2 [1, 2]) true
        (.empty 4 (by decide))).map (·.count) = some 2 := by
  have documented : (Unwinder.backtrace2 2 [1, 2]).Documented 4 := ⟨by decide, .inr rfl⟩
  have inOrder := @reports_in_order_iff (.backtrace2 2 [1, 2]) true false false
    ⟨true, true, true, true⟩ 4 (by decide) documented
  have works : ¬(Unwinder.backtrace2 2 [1, 2]).Fails true := fun fails =>
    absurd (show (2 : Int) < 0 from fails) (by decide)
  exact ⟨documented, inOrder.1.mpr (.inr (.inr works)), by decide, inOrder.2.mpr (.inr works),
    by decide⟩

def uninitialised : Unwinder :=
  .hybrid ⟨fun _ => 0, fun _ => none, fun _ => ⟨0, 0, 0, 0, 0, false⟩, 0x4000, 0x6000, by decide,
    by decide⟩ 0 (-1)

/-- The unwinder returns -1: the collection succeeds and the sample is committed, without frames. -/
theorem error_is_reported_as_stack :
    (uninitialised.unwind true (.empty 4 (by decide))).1 = -1 ∧
    collectionResult (collectCallStackCurrentThread uninitialised true false false
      (.empty 4 (by decide))).1 = sOk ∧
    (collectCallStackCurrentThread uninitialised true false false
      (.empty 4 (by decide))).2.count = 0 ∧
    (CpuHandler.mk true true true true).collect uninitialised true (.empty 4 (by decide)) =
      some (.empty 4 (by decide)) :=
  ⟨rfl, rfl, rfl, rfl⟩

end Pyroscope.Unwinding
