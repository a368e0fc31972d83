import Pyroscope.ThreadList.Indexes

/-!
# The extremes of the number of threads

A thread which comes by `RegisterThread` does not raise the highest number. The model remembers all
numbers.
-/

namespace Pyroscope.ThreadList

open Transition List

structure CountedList where
  list : ManagedThreadList
  highCount : Nat
  lowCount : Nat
  highWindow : List Nat
  lowWindow : List Nat
  /-- `RegisterThread` has added a thread since the highest number was asked for. -/
  hasRegistered : Bool

namespace CountedList

def initial : CountedList := ⟨.empty, 0, 0, [0], [0], false⟩

def size (counted : CountedList) : Nat := counted.list.threads.length

def observe (counted : CountedList) (list : ManagedThreadList) : CountedList :=
  { counted with
    list := list
    highWindow := list.threads.length :: counted.highWindow
    lowWindow := list.threads.length :: counted.lowWindow }

def raise (counted : CountedList) : CountedList :=
  { counted with
    highCount :=
      if counted.highCount ≤ counted.size then counted.list.count else counted.highCount }

def lower (counted : CountedList) : CountedList :=
  { counted with
    lowCount := if counted.lowCount = 0 then counted.list.count else counted.lowCount - 1 }

def getOrCreate (counted : CountedList) (clrThreadId : Nat) : CountedList :=
  let after := counted.observe (counted.list.getOrCreate clrThreadId).2
  if (counted.list.findByClrId clrThreadId).isNone then after.raise else after

def registerThread (counted : CountedList) (info : Info) : CountedList :=
  let (inserted, list) := counted.list.registerThread info
  { counted.observe list with hasRegistered := counted.hasRegistered || inserted }

def unregisterThread (counted : CountedList) (clrThreadId : Nat) : CountedList :=
  let (removed, list) := counted.list.unregisterThread clrThreadId
  if removed.isSome then (counted.observe list).lower else counted.observe list

def getHighCountAndReset (counted : CountedList) : Nat × CountedList :=
  (counted.highCount,
    { counted with
      highCount := counted.list.count
      highWindow := [counted.size]
      hasRegistered := false })

def getLowCountAndReset (counted : CountedList) : Nat × CountedList :=
  (if counted.lowCount = 0 then counted.list.count else counted.lowCount,
    { counted with lowCount := counted.list.count, lowWindow := [counted.size] })

inductive Event where
  | makeInfo (info : ManagedThreadInfo)
  | getOrCreate (clrThreadId : Nat)
  | registerThread (info : Info)
  | unregisterThread (clrThreadId : Nat)
  | getHighCountAndReset
  | getLowCountAndReset

def next (counted : CountedList) : Event → Option CountedList
  | .makeInfo info => some (counted.observe (counted.list.makeInfo info))
  | .getOrCreate clrThreadId => some (counted.getOrCreate clrThreadId)
  | .registerThread info =>
    if info < counted.list.made then some (counted.registerThread info) else none
  | .unregisterThread clrThreadId => some (counted.unregisterThread clrThreadId)
  | .getHighCountAndReset => some counted.getHighCountAndReset.2
  | .getLowCountAndReset => some counted.getLowCountAndReset.2

def system : System CountedList Event := .ofFunction initial next

/-- No number of the window is smaller than the one before it, once one was larger. -/
def Valley : List Nat → Prop
  | newer :: older :: rest =>
    (newer < older → (older :: rest).IsChain (· ≤ ·)) ∧ Valley (older :: rest)
  | _ => True

abbrev Few (window : List Nat) : Prop := ∀ count ∈ window, count < 2 ^ 32

/-- The counts are the extremes over their windows. -/
structure Sound (counted : CountedList) : Prop where
  high : counted.hasRegistered = false → Few counted.highWindow →
    counted.highWindow.max? = some counted.highCount ∧ counted.size ≤ counted.highCount
  newest : ∃ rest, counted.lowWindow = counted.size :: rest
  low : Valley counted.lowWindow → Few counted.lowWindow → 0 ∉ counted.lowWindow →
    counted.lowWindow.min? = some counted.lowCount ∧ counted.lowCount ≤ counted.size ∧
      (counted.lowWindow.IsChain (· ≤ ·) → counted.lowCount = counted.size)

variable {counted : CountedList} {list : ManagedThreadList}

theorem Few.of_cons {count : Nat} {window : List Nat} (few : Few (count :: window)) :
    Few window := fun other mem => few other (mem_cons_of_mem _ mem)

section

variable (sound : counted.Sound)
include sound

theorem Sound.high_observe (shrunk : list.threads.length ≤ counted.size)
    (unregistered : counted.hasRegistered = false) (few : Few (counted.observe list).highWindow) :
    (counted.observe list).highWindow.max? = some counted.highCount ∧
      list.threads.length ≤ counted.highCount := by
  rcases sound.high unregistered few.of_cons with ⟨highest, above⟩
  refine ⟨?_, shrunk.trans above⟩
  rw [observe, max?_cons, highest]
  exact congrArg some (Nat.max_eq_right (shrunk.trans above))

theorem Sound.high_raise (unregistered : counted.hasRegistered = false)
    (few : Few (counted.observe list).highWindow) :
    (counted.observe list).highWindow.max? = some (counted.observe list).raise.highCount ∧
      list.threads.length ≤ (counted.observe list).raise.highCount := by
  have isCount : list.count = list.threads.length := Nat.mod_eq_of_lt (few _ mem_cons_self)
  have highest := (sound.high unregistered few.of_cons).1
  have raised : (counted.observe list).raise.highCount =
      max counted.highCount list.threads.length := by
    simp only [raise, observe, size, isCount, Nat.max_def]
  rw [raised]
  refine ⟨?_, Nat.le_max_right ..⟩
  rw [observe, max?_cons, highest]
  exact congrArg some (Nat.max_comm ..)

theorem Sound.low_observe (grown : counted.size ≤ list.threads.length)
    (valley : Valley (counted.observe list).lowWindow) (few : Few (counted.observe list).lowWindow)
    (used : 0 ∉ (counted.observe list).lowWindow) :
    (counted.observe list).lowWindow.min? = some counted.lowCount ∧
      counted.lowCount ≤ list.threads.length ∧
      ((counted.observe list).lowWindow.IsChain (· ≤ ·) →
        counted.lowCount = list.threads.length) := by
  rcases sound.newest with ⟨rest, shape⟩
  simp only [observe, shape, Valley] at valley
  rcases sound.low (shape ▸ valley.2) few.of_cons (fun mem => used (mem_cons_of_mem _ mem))
    with ⟨lowest, below, fallen⟩
  refine ⟨?_, below.trans grown, ?_⟩
  · rw [observe, min?_cons, lowest]
    exact congrArg some (Nat.min_eq_right (below.trans grown))
  · intro chain
    simp only [observe, shape, isChain_cons_cons] at chain
    exact (fallen (shape ▸ chain.2)).trans (grown.antisymm chain.1)

theorem Sound.low_lower (shrunk : counted.size = list.threads.length + 1)
    (valley : Valley (counted.observe list).lowWindow) (few : Few (counted.observe list).lowWindow)
    (used : 0 ∉ (counted.observe list).lowWindow) :
    (counted.observe list).lowWindow.min? = some list.threads.length ∧
      (counted.observe list).lower.lowCount = list.threads.length := by
  rcases sound.newest with ⟨rest, shape⟩
  simp only [observe, shape, Valley] at valley
  rcases sound.low (shape ▸ valley.2) few.of_cons (fun mem => used (mem_cons_of_mem _ mem))
    with ⟨lowest, _, fallen⟩
  -- There was no rise before, so the lowest number is the last one.
  have last := fallen (shape ▸ valley.1 (by omega))
  constructor
  · rw [observe, min?_cons, lowest]
    exact congrArg some (Nat.min_eq_left (by omega))
  · rw [lower, observe]
    dsimp only
    rw [if_neg (by omega)]
    omega

theorem Sound.kept (same : list.threads.length = counted.size) : (counted.observe list).Sound :=
  ⟨sound.high_observe same.le, ⟨_, rfl⟩, sound.low_observe same.ge⟩

theorem Sound.getOrCreate (clrThreadId : Nat) : (counted.getOrCreate clrThreadId).Sound := by
  rw [CountedList.getOrCreate]
  rcases counted.list.getOrCreate_cases clrThreadId with ⟨info, found, same⟩ | ⟨unknown, added⟩
  · rw [found, same]
    exact sound.kept rfl
  · rw [unknown, added]
    have grown : counted.size ≤ (counted.list.threads ++ [counted.list.made]).length := by
      simp [size]
    exact ⟨sound.high_raise, ⟨_, rfl⟩, sound.low_observe grown⟩

theorem Sound.registerThread (info : Info) : (counted.registerThread info).Sound := by
  rw [CountedList.registerThread, ManagedThreadList.registerThread]
  cases counted.list.lookupByClrThreadId (counted.list.clrThreadId info) with
  | some other =>
    dsimp only
    rw [Bool.or_false]
    exact sound.kept rfl
  | none =>
    have grown : counted.size ≤ (counted.list.threads ++ [info]).length := by simp [size]
    refine ⟨fun unregistered => ?_, ⟨_, rfl⟩, sound.low_observe grown⟩
    cases (Bool.or_true _).symm.trans unregistered

theorem Sound.unregisterThread (clrThreadId : Nat) :
    (counted.unregisterThread clrThreadId).Sound := by
  rw [CountedList.unregisterThread]
  rcases counted.list.unregisterThread_cases clrThreadId with
    same | ⟨before, info, after, shape, _, removed⟩
  · rw [same]
    exact sound.kept rfl
  · rw [removed]
    have shrunk : counted.size = (before ++ after).length + 1 := by
      rw [size, shape, length_append, length_append]
      rfl
    refine ⟨sound.high_observe (Nat.le.intro shrunk.symm), ⟨_, rfl⟩, ?_⟩
    intro valley few used
    rcases sound.low_lower shrunk valley few used with ⟨lowest, isLowest⟩
    exact ⟨isLowest ▸ lowest, isLowest.le, fun _ => isLowest⟩

theorem Sound.step {event : Event} {after : CountedList} (taken : counted.next event = some after) :
    after.Sound := by
  cases event with
  | makeInfo info =>
    cases taken
    exact sound.kept rfl
  | getOrCreate clrThreadId =>
    cases taken
    exact sound.getOrCreate clrThreadId
  | registerThread info =>
    rcases Option.ite_none_right_eq_some.mp taken with ⟨_, ⟨⟩⟩
    exact sound.registerThread info
  | unregisterThread clrThreadId =>
    cases taken
    exact sound.unregisterThread clrThreadId
  | getHighCountAndReset =>
    cases taken
    refine ⟨fun _ few => ?_, sound.newest, sound.low⟩
    have isCount : counted.size = counted.list.count :=
      (Nat.mod_eq_of_lt (few _ mem_cons_self)).symm
    exact ⟨congrArg some isCount, isCount.le⟩
  | getLowCountAndReset =>
    cases taken
    refine ⟨sound.high, ⟨[], rfl⟩, fun _ few _ => ?_⟩
    have isCount : counted.size = counted.list.count :=
      (Nat.mod_eq_of_lt (few _ mem_cons_self)).symm
    exact ⟨congrArg some isCount, isCount.ge, fun _ => isCount.symm⟩

end

/-- The highest number is right unless a thread has come by `RegisterThread`, and the lowest one
unless it is zero or a removal has followed an addition, since they were last asked for. -/
theorem extremes_of_run {events : List Event} {state : CountedList}
    (run : system.Run initial events state) :
    (state.hasRegistered = false → Few state.highWindow →
      state.highWindow.max? = some state.getHighCountAndReset.1) ∧
    (Valley state.lowWindow → Few state.lowWindow → 0 ∉ state.lowWindow →
      state.lowWindow.min? = some state.getLowCountAndReset.1) := by
  have sound : state.Sound := by
    refine run.invariant Sound ?_ (fun _ _ _ sound taken => sound.step taken)
    exact ⟨fun _ _ => ⟨rfl, Nat.le_refl _⟩, ⟨[], rfl⟩,
      fun _ _ used => absurd mem_cons_self used⟩
  refine ⟨fun unregistered few => (sound.high unregistered few).1, ?_⟩
  intro valley few used
  have lowest := (sound.low valley few used).1
  rw [getLowCountAndReset, if_neg, lowest]
  rintro isZero
  exact used (isZero ▸ min?_mem lowest)

def valleyEvents : List Event :=
  [.getOrCreate 1, .getOrCreate 2, .getLowCountAndReset, .unregisterThread 1, .getOrCreate 3,
    .getOrCreate 4]

theorem valley_extremes : ∃ state, system.Run initial valleyEvents state ∧
    state.highWindow.max? = some state.getHighCountAndReset.1 ∧
    state.lowWindow.min? = some state.getLowCountAndReset.1 := by
  have run : system.Run initial valleyEvents _ := System.run_of_exec rfl
  have valley : Valley [3, 2, 1, 2] := by
    simp [Valley]
  exact ⟨_, run, (extremes_of_run run).1 rfl (by decide),
    (extremes_of_run run).2 valley (by decide) (by decide)⟩

/-- A thread which is registered is not seen in the highest number. A thread which comes and goes
lowers the lowest number. -/
theorem extremes_missed :
    (∃ state, system.Run initial [.makeInfo (.make 1), .registerThread 0] state ∧
      state.highWindow = [1, 0, 0] ∧ state.getHighCountAndReset.1 = 0) ∧
    ∃ state, system.Run initial [.getOrCreate 1, .getOrCreate 2, .getLowCountAndReset,
      .getOrCreate 3, .unregisterThread 3] state ∧
      state.lowWindow = [2, 3, 2] ∧ state.getLowCountAndReset.1 = 1 :=
  ⟨⟨_, System.run_of_exec rfl, rfl, rfl⟩, _, System.run_of_exec rfl, rfl, rfl⟩

end CountedList

end Pyroscope.ThreadList
