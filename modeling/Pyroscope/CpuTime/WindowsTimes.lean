import Mathlib.Algebra.Group.Nat.Defs

/-!
# CPU time of Windows threads

`GetTotalMilliseconds` takes a duration as a date after January 1st 1601, and adds up the day of the
month and the time of day.
-/

namespace Pyroscope.CpuTime

/-!
### The calendar
-/

structure Date where
  year : Nat
  month : Nat
  day : Nat
  deriving DecidableEq

namespace Date

def isLeapYear (year : Nat) : Bool := year % 4 == 0 && (year % 100 != 0 || year % 400 == 0)

def daysInMonth (year month : Nat) : Nat :=
  if month = 2 then if isLeapYear year then 29 else 28
  else if month = 4 ∨ month = 6 ∨ month = 9 ∨ month = 11 then 30
  else 31

def next (date : Date) : Date :=
  if date.day < daysInMonth date.year date.month then { date with day := date.day + 1 }
  else if date.month < 12 then ⟨date.year, date.month + 1, 1⟩
  else ⟨date.year + 1, 1, 1⟩

def after : Nat → Date
  | 0 => ⟨1601, 1, 1⟩
  | days + 1 => (after days).next

theorem daysInMonth_le (year month : Nat) : daysInMonth year month ≤ 31 := by
  unfold daysInMonth
  split
  · split <;> decide
  · split <;> decide

theorem day_bounds (days : Nat) : 1 ≤ (after days).day ∧ (after days).day ≤ 31 := by
  induction days with
  | zero => decide
  | succ days ih =>
    have bound := daysInMonth_le (after days).year (after days).month
    simp only [after, next]
    split
    · dsimp only
      omega
    · split <;> dsimp only <;> omega

theorem after_of_january {days : Nat} (january : days < 31) : after days = ⟨1601, 1, days + 1⟩ := by
  induction days with
  | zero => rfl
  | succ days ih =>
    rw [after, ih (by omega), next, if_pos (by simpa [daysInMonth] using january)]

/-- The day of the month tells how many days have passed in the first month only. -/
theorem day_after_iff (days : Nat) : (after days).day - 1 = days ↔ days < 31 := by
  constructor
  · have bounds := day_bounds days
    omega
  · intro january
    rw [after_of_january january, Nat.add_sub_cancel]

end Date

/-!
### Times of a thread
-/

structure SystemTime where
  wYear : Nat
  wMonth : Nat
  wDay : Nat
  wHour : Nat
  wMinute : Nat
  wSecond : Nat
  wMilliseconds : Nat

def SystemTime.ofDate (date : Date) (milliseconds : Nat) : SystemTime where
  wYear := date.year
  wMonth := date.month
  wDay := date.day
  wHour := milliseconds / 3600000 % 24
  wMinute := milliseconds / 60000 % 60
  wSecond := milliseconds / 1000 % 60
  wMilliseconds := milliseconds % 1000

structure FileTime where
  dwLowDateTime : BitVec 32
  dwHighDateTime : BitVec 32

def msInSecond : Nat := 1000
def msInMinute : Nat := 60 * 1000
def msInHour : Nat := 60 * 60 * 1000
def msInDay : Nat := 24 * 60 * 60 * 1000

/-- The fields have 16 bits, so the sum does not overflow. -/
def SystemTime.getTotalMilliseconds (time : SystemTime) : Nat :=
  let total := time.wMilliseconds
  let total := if time.wSecond ≠ 0 then total + time.wSecond * msInSecond else total
  let total := if time.wMinute ≠ 0 then total + time.wMinute * msInMinute else total
  let total := if time.wHour ≠ 0 then total + time.wHour * msInHour else total
  if time.wDay ≠ 0 then total + (time.wDay - 1) * msInDay else total

namespace FileTime

def ticks (fileTime : FileTime) : Nat :=
  fileTime.dwHighDateTime.toNat * 2 ^ 32 + fileTime.dwLowDateTime.toNat

def ofTicks (ticks : Nat) : FileTime := ⟨BitVec.ofNat 32 ticks, BitVec.ofNat 32 (ticks / 2 ^ 32)⟩

theorem ticks_ofTicks {ticks : Nat} (small : ticks < 2 ^ 63) : (ofTicks ticks).ticks = ticks := by
  simp only [FileTime.ticks, ofTicks, BitVec.toNat_ofNat]
  omega

/-- `FileTimeToSystemTime`, which fails for the times from `2 ^ 63` on. -/
def fileTimeToSystemTime (fileTime : FileTime) : Option SystemTime :=
  if fileTime.ticks < 2 ^ 63 then
    some (.ofDate (Date.after (fileTime.ticks / 10000 / 86400000)) (fileTime.ticks / 10000))
  else none

def getTotalMilliseconds (uninitialized : SystemTime) (fileTime : FileTime) : Nat :=
  (fileTime.fileTimeToSystemTime.getD uninitialized).getTotalMilliseconds

end FileTime

structure ThreadTimes where
  kernelTime : FileTime
  userTime : FileTime

inductive ThreadState where
  | initialized | ready | running | standby | terminated | waiting | transition | deferredReady

def ThreadState.value : ThreadState → BitVec 32
  | initialized => 0
  | ready => 1
  | running => 2
  | standby => 3
  | terminated => 4
  | waiting => 5
  | transition => 6
  | deferredReady => 7

structure SystemThreadInformation extends ThreadTimes where
  threadState : BitVec 32

def isRunningState (threadState : BitVec 32) : Bool :=
  ThreadState.running.value == threadState || ThreadState.deferredReady.value == threadState ||
    ThreadState.standby.value == threadState

variable (uninitialized : SystemTime)

/-- `GetThreadCpuTime`, given what `GetThreadTimes` answers unless it fails. -/
def getThreadCpuTime : Option ThreadTimes → Nat
  | some times => times.userTime.getTotalMilliseconds uninitialized +
      times.kernelTime.getTotalMilliseconds uninitialized
  | none => 0

def isRunning (isResolved : Bool) (information : Option SystemThreadInformation)
    (threadTimes : Option ThreadTimes) : Bool × Nat × Bool :=
  if isResolved = false then (false, 0, true)
  else
    match information with
    | none => (false, getThreadCpuTime uninitialized threadTimes, true)
    | some sti =>
      (isRunningState sti.threadState, sti.userTime.getTotalMilliseconds uninitialized +
        sti.kernelTime.getTotalMilliseconds uninitialized, false)

/-- What the two functions report of a thread which has these times, if they get to know them. -/
inductive Reported (times : ThreadTimes) : Nat → Prop
  | getThreadCpuTime : Reported times (getThreadCpuTime uninitialized (some times))
  | isRunning {threadState : BitVec 32} {threadTimes : Option ThreadTimes} :
      Reported times (isRunning uninitialized true (some ⟨times, threadState⟩) threadTimes).2.1
  | isRunningFailed : Reported times (isRunning uninitialized true none (some times)).2.1

def ticksInJanuary : Nat := 31 * 864000000000

theorem add_unless_zero (total field factor : Nat) :
    (if field ≠ 0 then total + field * factor else total) = total + field * factor := by
  split
  · rfl
  case isFalse zero => rw [Decidable.not_not.mp zero, Nat.zero_mul, Nat.add_zero]

theorem SystemTime.getTotalMilliseconds_eq (time : SystemTime) :
    time.getTotalMilliseconds = time.wMilliseconds + time.wSecond * 1000 + time.wMinute * 60000 +
      time.wHour * 3600000 + (time.wDay - 1) * 86400000 := by
  simp only [getTotalMilliseconds, add_unless_zero, msInSecond, msInMinute, msInHour, msInDay]
  split <;> omega

/-- The time of day is exact, and of the date only the day of the month counts. -/
theorem SystemTime.getTotalMilliseconds_ofDate (date : Date) (milliseconds : Nat) :
    (SystemTime.ofDate date milliseconds).getTotalMilliseconds =
      milliseconds % 86400000 + (date.day - 1) * 86400000 := by
  rw [getTotalMilliseconds_eq, ofDate]
  dsimp only
  omega

theorem FileTime.getTotalMilliseconds_eq_iff (fileTime : FileTime)
    (small : fileTime.ticks < 2 ^ 63) :
    fileTime.getTotalMilliseconds uninitialized = fileTime.ticks / 10000 ↔
      fileTime.ticks < ticksInJanuary := by
  have dayExact := Date.day_after_iff (fileTime.ticks / 10000 / 86400000)
  rw [getTotalMilliseconds, fileTimeToSystemTime, if_pos small, Option.getD_some,
    SystemTime.getTotalMilliseconds_ofDate, ticksInJanuary]
  generalize (Date.after (fileTime.ticks / 10000 / 86400000)).day = day at dayExact ⊢
  omega

variable {uninitialized}

theorem Reported.eq {times : ThreadTimes} {value : Nat}
    (reported : Reported uninitialized times value) :
    value = times.userTime.getTotalMilliseconds uninitialized +
      times.kernelTime.getTotalMilliseconds uninitialized := by
  cases reported <;> rfl

/-- A duration is converted exactly if it is shorter than 31 days, and below that the reported CPU
time never decreases. -/
theorem total_milliseconds_exact_iff (uninitialized : SystemTime) :
    (∀ ticks < 2 ^ 63, (FileTime.ofTicks ticks).getTotalMilliseconds uninitialized = ticks / 10000 ↔
      ticks < ticksInJanuary) ∧
    ∀ (earlier later : ThreadTimes) (before after : Nat),
      earlier.userTime.ticks ≤ later.userTime.ticks →
      earlier.kernelTime.ticks ≤ later.kernelTime.ticks →
      later.userTime.ticks < ticksInJanuary → later.kernelTime.ticks < ticksInJanuary →
      Reported uninitialized earlier before → Reported uninitialized later after →
      before ≤ after := by
  refine ⟨?_, ?_⟩
  · intro ticks small
    have exact_iff := (FileTime.ofTicks ticks).getTotalMilliseconds_eq_iff uninitialized
    rw [FileTime.ticks_ofTicks small] at exact_iff
    exact exact_iff small
  · intro earlier later before after userLater kernelLater userShort kernelShort reported reported'
    have convert : ∀ fileTime : FileTime, fileTime.ticks < ticksInJanuary →
        fileTime.getTotalMilliseconds uninitialized = fileTime.ticks / 10000 := by
      intro fileTime short
      have small : fileTime.ticks < 2 ^ 63 := Nat.lt_trans short (by decide)
      exact (fileTime.getTotalMilliseconds_eq_iff uninitialized small).mpr short
    rw [reported.eq, reported'.eq, convert _ userShort, convert _ kernelShort,
      convert _ (Nat.lt_of_le_of_lt userLater userShort),
      convert _ (Nat.lt_of_le_of_lt kernelLater kernelShort)]
    exact Nat.add_le_add (Nat.div_le_div_right userLater) (Nat.div_le_div_right kernelLater)

def zeroTime : SystemTime := ⟨0, 0, 0, 0, 0, 0, 0⟩

theorem hour_converted :
    (FileTime.ofTicks 36000000000).getTotalMilliseconds zeroTime = 3600000 ∧
    getThreadCpuTime zeroTime (some ⟨.ofTicks 0, .ofTicks 36000000000⟩) ≤
      (isRunning zeroTime true none (some ⟨.ofTicks 0, .ofTicks 36000000001⟩)).2.1 := by
  rcases total_milliseconds_exact_iff zeroTime with ⟨exact_iff, monotone⟩
  refine ⟨(exact_iff 36000000000 (by decide)).mpr (by decide), ?_⟩
  exact monotone _ _ _ _ (by decide) (by decide) (by decide) (by decide) .getThreadCpuTime
    .isRunningFailed

/-- The last tick of 31 days takes all the user time of the thread away. -/
theorem month_of_cpu_time_dropped :
    (FileTime.ofTicks 26784000000000).getTotalMilliseconds zeroTime ≠ 26784000000000 / 10000 ∧
    getThreadCpuTime zeroTime (some ⟨.ofTicks 0, .ofTicks 26783999999999⟩) = 2678399999 ∧
    getThreadCpuTime zeroTime (some ⟨.ofTicks 0, .ofTicks 26784000000000⟩) = 0 := by
  decide +kernel

end Pyroscope.CpuTime
