import Mathlib.Data.Finset.Basic
import Pyroscope.AdaptiveSampler.Counts
import Pyroscope.Lib.KeyedList

/-!
# Sampling by group

The first event of a group in a window may be kept in any case. `GetGroups` reports less than the
calls of `Sample` when it resets a group without a sampled event.
-/

namespace Pyroscope.GroupSampler

open Transition (System)
open AdaptiveSampler (int64)

/-!
## The adaptive sampler
-/

structure WindowCounts where
  testCount : Int
  sampleCount : Int
deriving DecidableEq

namespace WindowCounts

def reset : WindowCounts := ⟨0, 0⟩

def addTest (counts : WindowCounts) : WindowCounts :=
  { counts with testCount := int64 (counts.testCount + 1) }

/-- `AddSample(limit)`, whose last compare-and-exchange is one access to the count. -/
def addSample (limit : Int) (counts : WindowCounts) : Bool × WindowCounts :=
  let newValue := AdaptiveSampler.Counts.newValue limit counts.sampleCount
  (decide (newValue < limit), { counts with sampleCount := newValue })

def keepSample (counts : WindowCounts) : WindowCounts :=
  { counts with sampleCount := int64 (counts.sampleCount + 1) }

end WindowCounts

structure Sampler where
  countsSlots : Bool → WindowCounts
  countsRef : Bool
  samplesBudget : Int

namespace Sampler

def create (samplesBudget : Int) : Sampler := ⟨fun _ => .reset, false, samplesBudget⟩

def put (sampler : Sampler) (slot : Bool) (counts : WindowCounts) : Sampler :=
  { sampler with countsSlots := Function.update sampler.countsSlots slot counts }

/-- `Sample` with the counts it has loaded; `lucky` if the random number is below the
probability. -/
def sample (slot lucky : Bool) (sampler : Sampler) : Bool × Sampler :=
  let tested := (sampler.countsSlots slot).addTest
  if lucky then
    let (sampled, counts) := tested.addSample sampler.samplesBudget
    (sampled, sampler.put slot counts)
  else (false, sampler.put slot tested)

def keep (slot : Bool) (sampler : Sampler) : Bool × Sampler :=
  (true, sampler.put slot (sampler.countsSlots slot).addTest.keepSample)

end Sampler

/-!
## The groups
-/

structure GroupInfo where
  realCount : UInt64
  sampledCount : UInt64
  realValue : UInt64
  sampledValue : UInt64
deriving DecidableEq

namespace GroupInfo

def zero : GroupInfo := ⟨0, 0, 0, 0⟩

def addReal (value : UInt64) (info : GroupInfo) : GroupInfo :=
  { info with realCount := info.realCount + 1, realValue := info.realValue + value }

def addSampled (value : UInt64) (info : GroupInfo) : GroupInfo :=
  { info with sampledCount := info.sampledCount + 1, sampledValue := info.sampledValue + value }

end GroupInfo

structure UpscaleGroupInfo (Group : Type) extends GroupInfo where
  group : Group
deriving DecidableEq

abbrev Groups (Group : Type) : Type := List (Group × GroupInfo)

namespace Groups

variable {Group : Type} [DecidableEq Group]

def modify (group : Group) (change : GroupInfo → GroupInfo) (groups : Groups Group) :
    Groups Group :=
  KeyedList.modify Prod.fst group (fun entry => (entry.1, change entry.2)) groups

def addInGroup (group : Group) (value : UInt64) (groups : Groups Group) : Groups Group :=
  if (KeyedList.find Prod.fst group groups).isSome then groups.modify group (.addReal value)
  else groups ++ [(group, ⟨1, 0, value, 0⟩)]

def getGroups (groups : Groups Group) : List (UpscaleGroupInfo Group) × Groups Group :=
  (groups.filterMap fun entry =>
      if 0 < entry.2.sampledCount then some ⟨entry.2, entry.1⟩ else none,
    groups.map fun entry => (entry.1, .zero))

end Groups

structure Call (Group : Type) where
  group : Group
  value : UInt64
  /-- The group is new in this window and at least one event of it is to be kept. -/
  forced : Bool
  /-- The group has not been called in this window before. -/
  first : Bool
  slot : Bool
deriving DecidableEq

/-- How a call ended: with an answer of the adaptive sampler, if it was asked. -/
structure Outcome (Group : Type) where
  group : Group
  first : Bool
  answer : Option Bool
deriving DecidableEq

/-- Where the timer is in `RollWindow`. -/
inductive TimerPlace where
  | waiting
  /-- The other counts are in use, and those of the window before are in the given slot. -/
  | swapped (slot : Bool)
  | budgeted (slot : Bool)
  | rolled
deriving DecidableEq

structure Round (Group : Type) where
  calls : List (Group × UInt64)
  reported : List (UpscaleGroupInfo Group)
deriving DecidableEq

/-- The sampler, with the groups called in this window, the calls and how they ended since the last
`GetGroups`, and what was reported before. -/
structure State (Group : Type) where
  groups : Groups Group
  knownGroups : Finset Group
  sampler : Sampler
  holder : Option (Call Group)
  timer : TimerPlace
  window : List Group
  recent : List (Group × UInt64)
  outcomes : List (Outcome Group)
  rounds : List (Round Group)

inductive Event (Group : Type) where
  | sample (group : Group) (value : UInt64)
  | answer (lucky : Bool)
  | swapCounts
  | storeBudget (samplesBudget : Int)
  | resetCounts
  | onRollWindow
  | getGroups
deriving DecidableEq

namespace State

variable {Group : Type} [DecidableEq Group]

def create (Group : Type) (samplesBudget : Int) : State Group where
  groups := []
  knownGroups := ∅
  sampler := .create samplesBudget
  holder := none
  timer := .waiting
  window := []
  recent := []
  outcomes := []
  rounds := []

def finish (state : State Group) (call : Call Group) (asked : Bool) (answer : Bool × Sampler) :
    State Group :=
  { state with
    groups :=
      if answer.1 then state.groups.modify call.group (.addSampled call.value) else state.groups
    sampler := answer.2
    holder := none
    outcomes := state.outcomes ++
      [⟨call.group, call.first, if asked then some answer.1 else none⟩] }

def next (keepAtLeastOne : Bool) (state : State Group) : Event Group → Option (State Group)
  | .sample group value =>
    if state.holder.isNone then
      some { state with
        groups := state.groups.addInGroup group value
        knownGroups := insert group state.knownGroups
        holder := some
          { group := group
            value := value
            forced := decide (group ∉ state.knownGroups) && keepAtLeastOne
            first := decide (group ∉ state.window)
            slot := state.sampler.countsRef }
        window := state.window ++ [group]
        recent := state.recent ++ [(group, value)] }
    else none
  | .answer lucky =>
    state.holder.map fun call =>
      if call.forced then state.finish call false (state.sampler.keep call.slot)
      else state.finish call true (state.sampler.sample call.slot lucky)
  | .swapCounts =>
    if state.timer = .waiting then
      some { state with
        sampler := { state.sampler with countsRef := !state.sampler.countsRef }
        timer := .swapped state.sampler.countsRef }
    else none
  | .storeBudget samplesBudget =>
    match state.timer with
    | .swapped slot =>
      some { state with
        sampler := { state.sampler with samplesBudget := samplesBudget }
        timer := .budgeted slot }
    | .waiting | .budgeted _ | .rolled => none
  | .resetCounts =>
    match state.timer with
    | .budgeted slot =>
      some { state with sampler := state.sampler.put slot .reset, timer := .rolled }
    | .waiting | .swapped _ | .rolled => none
  | .onRollWindow =>
    if state.timer = .rolled ∧ state.holder.isNone then
      some { state with knownGroups := ∅, timer := .waiting, window := [] }
    else none
  | .getGroups =>
    if state.holder.isNone then
      some { state with
        groups := state.groups.getGroups.2
        recent := []
        outcomes := []
        rounds := state.rounds ++ [⟨state.recent, state.groups.getGroups.1⟩] }
    else none

def system (Group : Type) [DecidableEq Group] (samplesBudget : Int) (keepAtLeastOne : Bool) :
    System (State Group) (Event Group) :=
  .ofFunction (create Group samplesBudget) (next keepAtLeastOne)

end State

/-! ## What the groups account for -/

open Option List Round KeyedList Prod
open KeyedList (total)

inductive Measure where
  | count
  | value
deriving DecidableEq

namespace Measure

def amount : Measure → UInt64 → Nat
  | .count, _ => 1
  | .value, called => called.toNat

def real : Measure → GroupInfo → UInt64
  | .count, info => info.realCount
  | .value, info => info.realValue

theorem real_zero (measure : Measure) : (measure.real .zero).toNat = 0 := by
  cases measure <;> rfl

theorem real_addReal (measure : Measure) (value : UInt64) (info : GroupInfo) :
    (measure.real (info.addReal value)).toNat =
      ((measure.real info).toNat + measure.amount value) % 2 ^ 64 := by
  cases measure with
  | count => exact UInt64.toNat_add info.realCount 1
  | value => exact UInt64.toNat_add info.realValue value

theorem real_addSampled (measure : Measure) (value : UInt64) (info : GroupInfo) :
    measure.real (info.addSampled value) = measure.real info := by
  cases measure <;> rfl

end Measure

namespace Round

variable {Group : Type} [DecidableEq Group] {calls : List (Group × UInt64)}

def called (measure : Measure) (group : Group) (calls : List (Group × UInt64)) : Nat :=
  total fst (fun call => measure.amount call.2) group calls

def reportedOf (measure : Measure) (group : Group) (reported : List (UpscaleGroupInfo Group)) :
    Nat :=
  total UpscaleGroupInfo.group (fun info => (measure.real info.toGroupInfo).toNat) group reported

theorem called_append (measure : Measure) (group other : Group) (value : UInt64)
    (calls : List (Group × UInt64)) :
    called measure other (calls ++ [(group, value)]) =
      called measure other calls + if group = other then measure.amount value else 0 := by
  rw [called, total_append, total_singleton, called]

theorem one_le_called {group : Group} {value : UInt64} (mem : (group, value) ∈ calls) :
    1 ≤ called .count group calls := by
  rcases append_of_mem mem with ⟨before, after, rfl⟩
  rw [called, total_append, ← singleton_append, total_append, total_singleton, if_pos rfl]
  simp only [Measure.amount]
  omega

theorem called_eq_zero {group : Group} (never : ∀ call ∈ calls, call.1 ≠ group)
    (measure : Measure) : called measure group calls = 0 := by
  apply total_eq_zero
  intro mem
  rcases mem_map.mp mem with ⟨call, isCall, same⟩
  exact never call isCall same

end Round

namespace Groups

variable {Group : Type} [DecidableEq Group] {groups : Groups Group} {group other : Group}

def info (groups : Groups Group) (group : Group) : GroupInfo :=
  ((find fst group groups).map snd).getD .zero

theorem find_modify (change : GroupInfo → GroupInfo) :
    KeyedList.find fst other (groups.modify group change) =
      if other = group then
        (KeyedList.find fst other groups).map fun entry => (entry.1, change entry.2)
      else KeyedList.find fst other groups := by
  have kept : ∀ entry : Group × GroupInfo, entry.1 = group →
      (entry.1, change entry.2).1 = group := fun _ same => same
  exact KeyedList.find_modify kept

theorem info_modify (present : (find fst group groups).isSome)
    (change : GroupInfo → GroupInfo) :
    (groups.modify group change).info other =
      if other = group then change (groups.info group) else groups.info other := by
  rw [info, find_modify]
  split
  case isTrue same =>
    rcases isSome_iff_exists.mp present with ⟨entry, found⟩
    simp [same, info, found]
  case isFalse => rfl

theorem info_addInGroup (value : UInt64) :
    (groups.addInGroup group value).info other =
      if other = group then (groups.info group).addReal value else groups.info other := by
  rw [addInGroup]
  split
  case isTrue present => exact info_modify present _
  case isFalse absent =>
    have nowhere : find fst group groups = none := by simpa using absent
    have found := @find_append_singleton _ _ _ fst other
      (group, (⟨1, 0, value, 0⟩ : GroupInfo)) groups nowhere
    rw [info, found]
    split
    case isTrue => simp [info, nowhere, GroupInfo.zero, GroupInfo.addReal]
    case isFalse => rfl

theorem keys_modify (change : GroupInfo → GroupInfo) :
    (groups.modify group change).map fst = groups.map fst :=
  map_key_modify fun _ same => same

theorem nodup_addInGroup (distinct : (groups.map fst).Nodup) (value : UInt64) :
    ((groups.addInGroup group value).map fst).Nodup := by
  rw [addInGroup]
  split
  case isTrue =>
    rw [keys_modify]
    exact distinct
  case isFalse absent =>
    have missing : group ∉ groups.map fst :=
      not_mem_of_find (by simpa using absent)
    rw [map_append, nodup_append]
    refine ⟨distinct, nodup_singleton _, ?_⟩
    intro first mem second isNew same
    rw [map_singleton, mem_singleton] at isNew
    rw [same, isNew] at mem
    exact missing mem

theorem isSome_find_addInGroup (value : UInt64) :
    (find fst group (groups.addInGroup group value)).isSome := by
  rw [addInGroup]
  split
  case isTrue present =>
    rw [find_modify, if_pos rfl, isSome_map]
    exact present
  case isFalse absent =>
    have nowhere : find fst group groups = none := by simpa using absent
    have found := @find_append_singleton _ _ _ fst group
      (group, (⟨1, 0, value, 0⟩ : GroupInfo)) groups nowhere
    rw [found, if_pos rfl, isSome_some]

theorem info_getGroups : groups.getGroups.2.info group = .zero := by
  rw [info, getGroups, find, List.find?_map]
  cases groups.find? ((fun entry : Group × GroupInfo => entry.1 == group) ∘
    fun entry => (entry.1, GroupInfo.zero)) with
  | none => rfl
  | some entry => rfl

theorem info_of_mem {entry : Group × GroupInfo} (distinct : (groups.map fst).Nodup)
    (mem : entry ∈ groups) : groups.info entry.1 = entry.2 := by
  rw [info, find_of_mem distinct mem]
  rfl

theorem mem_reported {reported : UpscaleGroupInfo Group}
    (distinct : (groups.map fst).Nodup) :
    reported ∈ groups.getGroups.1 ↔
      reported.toGroupInfo = groups.info reported.group ∧ 0 < reported.sampledCount := by
  simp only [getGroups, mem_filterMap, ite_none_right_eq_some, Option.some.injEq]
  constructor
  · rintro ⟨entry, mem, sampled, rfl⟩
    exact ⟨(info_of_mem distinct mem).symm, sampled⟩
  · rintro ⟨same, sampled⟩
    cases found : find fst reported.group groups with
    | none =>
      rw [same, info, found] at sampled
      exact absurd sampled (UInt64.lt_irrefl 0)
    | some entry =>
      have there : entry.1 = reported.group := key_of_find found
      have info : entry.2 = reported.toGroupInfo := by
        rw [same, Groups.info, found]
        rfl
      refine ⟨entry, mem_of_find?_eq_some found, ?_, ?_⟩
      · rw [info]
        exact sampled
      · rw [info, there]

/-- A group is reported with its counts if one of its events was sampled, and not otherwise. -/
theorem reportedOf_getGroups (distinct : (groups.map fst).Nodup) (measure : Measure) :
    reportedOf measure group groups.getGroups.1 =
      if 0 < (groups.info group).sampledCount then (measure.real (groups.info group)).toNat
      else 0 := by
  have contributes : reportedOf measure group groups.getGroups.1 =
      total fst (fun entry : Group × GroupInfo =>
        if 0 < entry.2.sampledCount then (measure.real entry.2).toNat else 0) group groups := by
    clear distinct
    induction groups with
    | nil => rfl
    | cons entry rest ih =>
      rw [← singleton_append, total_append, total_singleton, ← ih]
      by_cases sampled : 0 < entry.2.sampledCount
      · have split : getGroups ([entry] ++ rest) = (⟨entry.2, entry.1⟩ :: (getGroups rest).1,
            (entry.1, GroupInfo.zero) :: (getGroups rest).2) := by
          simp [getGroups, sampled]
        rw [split, if_pos sampled, reportedOf, ← singleton_append, total_append, total_singleton]
        rfl
      · have split : getGroups ([entry] ++ rest) = ((getGroups rest).1,
            (entry.1, GroupInfo.zero) :: (getGroups rest).2) := by
          simp [getGroups, sampled]
        rw [split, if_neg sampled, ite_self, Nat.zero_add]
  rw [contributes, total_eq_find distinct, info]
  cases find fst group groups with
  | none => rfl
  | some entry => rfl

end Groups

/-!
## What holds of every round
-/

variable {Group : Type} [DecidableEq Group] {measure : Measure} {group : Group}
  {keepAtLeastOne : Bool}

def reportedTotal (measure : Measure) (group : Group) (rounds : List (Round Group)) : Nat :=
  (rounds.map fun round => reportedOf measure group round.reported).sum

def calledTotal (measure : Measure) (group : Group) (rounds : List (Round Group)) : Nat :=
  (rounds.map fun round => called measure group round.calls).sum

/-- The reports add up to the calls and name every group. -/
@[mk_iff]
structure Accounted (keepAtLeastOne : Bool) (rounds : List (Round Group)) : Prop where
  totals : ∀ measure group, reportedTotal measure group rounds = calledTotal measure group rounds
  sampled : ∀ round ∈ rounds, ∀ info ∈ round.reported, info.sampledCount ≤ info.realCount
  kept : keepAtLeastOne = true → ∀ round ∈ rounds, ∀ call ∈ round.calls,
    ∃ info ∈ round.reported, info.group = call.1 ∧ 0 < info.sampledCount

theorem accounted_append {rounds : List (Round Group)} {round : Round Group}
    (bounded : ∀ measure group,
      reportedTotal measure group rounds ≤ calledTotal measure group rounds)
    (roundBounded : ∀ measure group,
      reportedTotal measure group [round] ≤ calledTotal measure group [round]) :
    Accounted keepAtLeastOne (rounds ++ [round]) ↔
      Accounted keepAtLeastOne rounds ∧ Accounted keepAtLeastOne [round] := by
  -- Neither part reports more than was called, so neither makes up for the other.
  have totals : ∀ measure group, reportedTotal measure group (rounds ++ [round]) =
      calledTotal measure group (rounds ++ [round]) ↔
        reportedTotal measure group rounds = calledTotal measure group rounds ∧
          reportedTotal measure group [round] = calledTotal measure group [round] := by
    intro measure group
    have first := bounded measure group
    have second := roundBounded measure group
    simp only [reportedTotal, calledTotal, map_append, sum_append] at first second ⊢
    omega
  simp only [accounted_iff, totals, forall_and, forall_mem_append]
  tauto

/-- The call is the first one of its group in a window and so is kept, or the adaptive sampler wants
it. -/
def Outcome.Kept (keepAtLeastOne : Bool) (outcome : Outcome Group) : Prop :=
  outcome.first = true ∧ keepAtLeastOne = true ∨ outcome.answer = some true

instance (outcome : Outcome Group) : Decidable (outcome.Kept keepAtLeastOne) :=
  inferInstanceAs (Decidable (_ ∨ _))

def keptOf (keepAtLeastOne : Bool) (group : Group) (outcomes : List (Outcome Group)) : Nat :=
  outcomes.countP fun outcome => outcome.group = group ∧ outcome.Kept keepAtLeastOne

theorem keptOf_append (keepAtLeastOne : Bool) (group : Group) (outcomes : List (Outcome Group))
    (outcome : Outcome Group) :
    keptOf keepAtLeastOne group (outcomes ++ [outcome]) = keptOf keepAtLeastOne group outcomes +
      if outcome.group = group ∧ outcome.Kept keepAtLeastOne then 1 else 0 := by
  simp [keptOf, countP_append, countP_singleton]

namespace State

variable {state after : State Group}

/-- The counts of the groups are those of the calls since the last `GetGroups`, as far as 64 bits
go. The call which holds the mutex has not ended yet. -/
structure Consistent (keepAtLeastOne : Bool) (state : State Group) : Prop where
  distinct : (state.groups.map fst).Nodup
  known : ∀ group, group ∈ state.knownGroups ↔ group ∈ state.window
  held : ∀ call, state.holder = some call →
    (find fst call.group state.groups).isSome ∧ call.forced = (call.first && keepAtLeastOne)
  real : ∀ measure group, (measure.real (state.groups.info group)).toNat =
    called measure group state.recent % 2 ^ 64
  ended : ∀ group, (keptOf keepAtLeastOne group state.outcomes +
    if state.holder.any (·.group = group) then 1 else 0) ≤ called .count group state.recent
  sampled : ∀ group, (state.groups.info group).sampledCount.toNat =
    keptOf keepAtLeastOne group state.outcomes % 2 ^ 64
  bounded : ∀ measure group,
    reportedTotal measure group state.rounds ≤ calledTotal measure group state.rounds

/-- Every group which was called since the last `GetGroups` has had a call since then which was the
first in its window and so is kept, or which the adaptive sampler wanted; and the numbers of the
calls and the sums of their values fit 64 bits. -/
def Representative (keepAtLeastOne : Bool) (state : State Group) : Event Group → Prop
  | .getGroups => ∀ call ∈ state.recent,
      (∃ outcome ∈ state.outcomes, outcome.group = call.1 ∧ outcome.Kept keepAtLeastOne) ∧
      called .count call.1 state.recent < 2 ^ 64 ∧
      called .value call.1 state.recent < 2 ^ 64
  | .sample _ _ => True
  | .answer _ => True
  | .swapCounts => True
  | .storeBudget _ => True
  | .resetCounts => True
  | .onRollWindow => True

instance (state : State Group) : ∀ event, Decidable (state.Representative keepAtLeastOne event)
  | .getGroups => inferInstanceAs (Decidable (∀ call ∈ state.recent, _))
  | .sample _ _ => isTrue trivial
  | .answer _ => isTrue trivial
  | .swapCounts => isTrue trivial
  | .storeBudget _ => isTrue trivial
  | .resetCounts => isTrue trivial
  | .onRollWindow => isTrue trivial

namespace Consistent

theorem create (keepAtLeastOne : Bool) (samplesBudget : Int) :
    (create Group samplesBudget).Consistent keepAtLeastOne where
  distinct := nodup_nil
  known _ := by simp [State.create]
  held _ holds := absurd holds.symm (some_ne_none _)
  real measure _ := measure.real_zero
  ended _ := Nat.le_refl 0
  sampled _ := rfl
  bounded _ _ := Nat.le_refl 0

theorem sample {value : UInt64} (consistent : state.Consistent keepAtLeastOne)
    (taken : state.next keepAtLeastOne (.sample group value) = some after) :
    after.Consistent keepAtLeastOne ∧ after.rounds = state.rounds := by
  rcases ite_none_right_eq_some.mp taken with ⟨free, ⟨⟩⟩
  refine ⟨⟨?_, ?_, ?_, ?_, ?_, ?_, consistent.bounded⟩, rfl⟩
  · exact Groups.nodup_addInGroup consistent.distinct value
  · intro other
    simp [consistent.known, or_comm]
  · intro call isCall
    cases isCall
    simp [Groups.isSome_find_addInGroup value, consistent.known]
  · intro measure other
    rw [Groups.info_addInGroup, called_append]
    by_cases same : other = group
    · rw [if_pos same, if_pos same.symm, measure.real_addReal, consistent.real, same,
        Nat.mod_add_mod]
    · rw [if_neg same, if_neg (Ne.symm same), consistent.real, Nat.add_zero]
  · intro other
    have atMost := consistent.ended other
    rw [called_append]
    simp only [any_some, decide_eq_true_eq, Measure.amount]
    split <;> omega
  · intro other
    rw [← consistent.sampled other, Groups.info_addInGroup]
    split
    case isTrue same => rw [same]; rfl
    case isFalse => rfl

theorem finish {call : Call Group} (consistent : state.Consistent keepAtLeastOne)
    (isHolder : state.holder = some call) {asked : Bool} {answer : Bool × Sampler}
    (isKept : answer.1 = true ↔ Outcome.Kept keepAtLeastOne
      ⟨call.group, call.first, if asked then some answer.1 else none⟩) :
    (state.finish call asked answer).Consistent keepAtLeastOne := by
  have present := (consistent.held call isHolder).1
  refine ⟨?_, consistent.known, fun _ holds => absurd holds.symm (some_ne_none _), ?_, ?_, ?_,
    consistent.bounded⟩
  · simp only [State.finish]
    split
    · rw [Groups.keys_modify]
      exact consistent.distinct
    · exact consistent.distinct
  · intro measure other
    simp only [State.finish]
    rw [← consistent.real measure other]
    split
    · rw [Groups.info_modify present]
      split
      case isTrue same => rw [measure.real_addSampled, same]
      case isFalse => rfl
    · rfl
  · intro other
    have atMost := consistent.ended other
    rw [isHolder, any_some] at atMost
    simp only [decide_eq_true_eq] at atMost
    simp only [State.finish, keptOf_append, ← isKept, any_none, Bool.false_eq_true, if_false,
      Nat.add_zero]
    by_cases same : call.group = other
    · rw [if_pos same] at atMost
      split <;> omega
    · rw [if_neg same] at atMost
      rw [if_neg fun both => same both.1]
      omega
  · intro other
    simp only [State.finish, keptOf_append, ← isKept]
    rw [Nat.add_mod, ← consistent.sampled other]
    by_cases kept : answer.1 = true
    · rw [if_pos kept, Groups.info_modify present]
      by_cases same : other = call.group
      · rw [if_pos same, if_pos ⟨same.symm, kept⟩, same]
        simp only [GroupInfo.addSampled]
        rw [UInt64.toNat_add]
        rfl
      · rw [if_neg same, if_neg fun both => same both.1.symm]
        simp
    · rw [if_neg kept, if_neg fun both => kept both.2]
      simp

theorem reportedTotal_round (consistent : state.Consistent keepAtLeastOne) (measure : Measure)
    (group : Group) :
    reportedTotal measure group [⟨state.recent, state.groups.getGroups.1⟩] =
      if 0 < (state.groups.info group).sampledCount then
        called measure group state.recent % 2 ^ 64
      else 0 := by
  rw [← consistent.real measure group, ← Groups.reportedOf_getGroups consistent.distinct measure]
  simp [reportedTotal]

theorem calledTotal_round (measure : Measure) (group : Group)
    (reported : List (UpscaleGroupInfo Group)) :
    calledTotal measure group [⟨state.recent, reported⟩] = called measure group state.recent := by
  simp [calledTotal]

variable (consistent : state.Consistent keepAtLeastOne)
include consistent

theorem round_bounded (measure : Measure) (group : Group) :
    reportedTotal measure group [⟨state.recent, state.groups.getGroups.1⟩] ≤
      calledTotal measure group [⟨state.recent, state.groups.getGroups.1⟩] := by
  rw [consistent.reportedTotal_round, calledTotal_round]
  split
  · exact Nat.mod_le _ _
  · exact Nat.zero_le _

theorem kept_of_sampled (represented : 0 < (state.groups.info group).sampledCount) :
    ∃ outcome ∈ state.outcomes, outcome.group = group ∧ outcome.Kept keepAtLeastOne := by
  have positive : 0 < (state.groups.info group).sampledCount.toNat :=
    UInt64.lt_iff_toNat_lt.mp represented
  rw [consistent.sampled] at positive
  have some : 0 < keptOf keepAtLeastOne group state.outcomes :=
    Nat.pos_of_ne_zero fun none => by simp [none] at positive
  simpa [keptOf, countP_pos_iff] using some

theorem sampled_of_kept {outcome : Outcome Group} (isOutcome : outcome ∈ state.outcomes)
    (kept : outcome.Kept keepAtLeastOne)
    (fits : called .count outcome.group state.recent < 2 ^ 64) :
    0 < (state.groups.info outcome.group).sampledCount := by
  have some : 0 < keptOf keepAtLeastOne outcome.group state.outcomes :=
    countP_pos_iff.mpr ⟨outcome, isOutcome, by simp [kept]⟩
  have atMost := consistent.ended outcome.group
  rw [UInt64.lt_iff_toNat_lt, consistent.sampled, Nat.mod_eq_of_lt (by omega)]
  exact some

theorem called_of_sampled (represented : 0 < (state.groups.info group).sampledCount) :
    ∃ call ∈ state.recent, call.1 = group := by
  by_contra never
  have nothing : called .count group state.recent = 0 := by
    apply called_eq_zero
    exact fun call isCall same => never ⟨call, isCall, same⟩
  have atMost := consistent.ended group
  have unsampled : keptOf keepAtLeastOne group state.outcomes = 0 := by omega
  have positive : 0 < (state.groups.info group).sampledCount.toNat :=
    UInt64.lt_iff_toNat_lt.mp represented
  rw [consistent.sampled, unsampled] at positive
  cases positive

theorem accounted_round :
    Accounted keepAtLeastOne [⟨state.recent, state.groups.getGroups.1⟩] ↔
      state.Representative keepAtLeastOne .getGroups := by
  constructor
  · rintro ⟨totals, _, _⟩ call isCall
    have count := totals .count call.1
    have value := totals .value call.1
    rw [consistent.reportedTotal_round, calledTotal_round] at count value
    have positive := Round.one_le_called isCall
    split at count
    case isTrue represented =>
      rw [if_pos represented] at value
      exact ⟨consistent.kept_of_sampled represented, by omega, by omega⟩
    case isFalse => omega
  · intro representative
    have isSampled : ∀ call ∈ state.recent, 0 < (state.groups.info call.1).sampledCount := by
      intro call isCall
      rcases representative call isCall with ⟨⟨outcome, isOutcome, same, kept⟩, fits, -⟩
      rw [← same] at fits ⊢
      exact consistent.sampled_of_kept isOutcome kept fits
    refine ⟨?_, ?_, ?_⟩
    · intro measure group
      rw [consistent.reportedTotal_round, calledTotal_round]
      by_cases called : ∃ call ∈ state.recent, call.1 = group
      · rcases called with ⟨call, isCall, rfl⟩
        rcases representative call isCall with ⟨-, count, value⟩
        rw [if_pos (isSampled call isCall)]
        cases measure with
        | count => exact Nat.mod_eq_of_lt count
        | value => exact Nat.mod_eq_of_lt value
      · have nothing : Round.called measure group state.recent = 0 := by
          apply Round.called_eq_zero
          exact fun call isCall same => called ⟨call, isCall, same⟩
        rw [nothing, Nat.zero_mod, ite_self]
    · intro round isRound info isInfo
      rw [mem_singleton] at isRound
      subst isRound
      rcases (Groups.mem_reported consistent.distinct).mp isInfo with ⟨same, represented⟩
      rw [same] at represented ⊢
      rcases consistent.called_of_sampled represented with ⟨call, isCall, isGroup⟩
      have atMost := consistent.ended info.group
      have counted := consistent.sampled info.group
      have real := consistent.real .count info.group
      have fits := (representative call isCall).2.1
      rw [isGroup] at fits
      rw [Nat.mod_eq_of_lt fits] at real
      rw [Nat.mod_eq_of_lt (by omega)] at counted
      rw [UInt64.le_iff_toNat_le, counted]
      exact Nat.le_trans (Nat.le_trans (Nat.le_add_right _ _) atMost) (Nat.le_of_eq real.symm)
    · intro _ round isRound call isCall
      rw [mem_singleton] at isRound
      subst isRound
      have represented := isSampled call isCall
      exact ⟨⟨state.groups.info call.1, call.1⟩,
        (Groups.mem_reported consistent.distinct).mpr ⟨rfl, represented⟩, rfl, represented⟩

theorem getGroups (taken : state.next keepAtLeastOne .getGroups = some after) :
    after.Consistent keepAtLeastOne ∧ (Accounted keepAtLeastOne after.rounds ↔
      Accounted keepAtLeastOne state.rounds ∧
        state.Representative keepAtLeastOne .getGroups) := by
  rcases ite_none_right_eq_some.mp taken with ⟨free, ⟨⟩⟩
  refine ⟨⟨?_, consistent.known, ?_, ?_, ?_, ?_, ?_⟩, ?_⟩
  · have keys : state.groups.getGroups.2.map fst = state.groups.map fst := by
      simp [Groups.getGroups]
    rw [keys]
    exact consistent.distinct
  · intro call isCall
    rw [isCall] at free
    exact absurd free (by simp)
  · intro measure group
    rw [Groups.info_getGroups]
    exact measure.real_zero
  · intro group
    rw [isNone_iff_eq_none.mp free]
    exact Nat.zero_le _
  · intro group
    rw [Groups.info_getGroups]
    rfl
  · intro measure group
    have before := consistent.bounded measure group
    have last := consistent.round_bounded measure group
    simp only [reportedTotal, calledTotal, map_append, sum_append] at before last ⊢
    exact Nat.add_le_add before last
  · rw [accounted_append consistent.bounded consistent.round_bounded, consistent.accounted_round]

theorem elsewhere (sampler : Sampler) (timer : TimerPlace) :
    Consistent keepAtLeastOne { state with sampler := sampler, timer := timer } :=
  ⟨consistent.distinct, consistent.known, consistent.held, consistent.real, consistent.ended,
    consistent.sampled, consistent.bounded⟩

theorem step {event : Event Group} (taken : state.next keepAtLeastOne event = some after) :
    after.Consistent keepAtLeastOne ∧ (Accounted keepAtLeastOne after.rounds ↔
      Accounted keepAtLeastOne state.rounds ∧ state.Representative keepAtLeastOne event) := by
  cases event with
  | sample group value =>
    rcases consistent.sample taken with ⟨left, same⟩
    rw [same]
    exact ⟨left, (and_iff_left trivial).symm⟩
  | answer lucky =>
    rcases map_eq_some_iff.mp taken with ⟨call, isHolder, rfl⟩
    have isForced := (consistent.held call isHolder).2
    split
    case isTrue forced =>
      have both : call.first = true ∧ keepAtLeastOne = true := by simpa [forced] using isForced
      refine ⟨consistent.finish isHolder ?_, (and_iff_left trivial).symm⟩
      simp [Sampler.keep, Outcome.Kept, both]
    case isFalse unforced =>
      have notBoth : ¬ (call.first = true ∧ keepAtLeastOne = true) := by
        simpa [isForced] using unforced
      refine ⟨consistent.finish isHolder ?_, (and_iff_left trivial).symm⟩
      simp [Outcome.Kept, notBoth]
  | swapCounts =>
    rcases ite_none_right_eq_some.mp taken with ⟨_, ⟨⟩⟩
    exact ⟨consistent.elsewhere _ _, (and_iff_left trivial).symm⟩
  | onRollWindow =>
    rcases ite_none_right_eq_some.mp taken with ⟨_, ⟨⟩⟩
    exact ⟨⟨consistent.distinct, by simp, consistent.held, consistent.real, consistent.ended,
      consistent.sampled, consistent.bounded⟩, (and_iff_left trivial).symm⟩
  | storeBudget samplesBudget | resetCounts =>
    simp only [next] at taken
    split at taken
    case h_1 =>
      cases taken
      exact ⟨consistent.elsewhere _ _, (and_iff_left trivial).symm⟩
    all_goals cases taken
  | getGroups => exact consistent.getGroups taken

end Consistent

/-- The groups account for every call exactly in the runs where each `GetGroups` comes after a call
of every group called since the one before which is new in its window or wanted by the sampler. -/
theorem accounted_iff_representative (samplesBudget : Int) (keepAtLeastOne : Bool)
    {events : List (Event Group)}
    (run : (system Group samplesBudget keepAtLeastOne).Run (create Group samplesBudget) events
      state) :
    Accounted keepAtLeastOne state.rounds ↔
      ((system Group samplesBudget keepAtLeastOne).restrict
        (Representative keepAtLeastOne)).Run (create Group samplesBudget) events state := by
  refine System.Run.restrict_iff (Consistent keepAtLeastOne)
    (fun state => Accounted keepAtLeastOne state.rounds)
    (Consistent.create keepAtLeastOne samplesBudget) ?_ ?_ run
  · exact ⟨fun _ _ => rfl, fun _ mem => absurd mem not_mem_nil,
      fun _ _ mem => absurd mem not_mem_nil⟩
  · intro state event after consistent taken
    exact consistent.step taken

/-- Two groups in two windows, of which one ends while the adaptive sampler decides. -/
theorem two_windows_accounted : ∃ state : State Nat,
    (system Nat 3 true).Run (create Nat 3)
      [.sample 1 5, .answer false, .sample 2 7, .swapCounts, .answer false, .sample 1 2,
        .storeBudget 0, .answer true, .getGroups, .resetCounts, .onRollWindow, .sample 1 4,
        .answer true, .sample 1 9, .answer true, .getGroups] state ∧
    Accounted true state.rounds ∧
    state.rounds.map reported = [[⟨⟨2, 1, 7, 5⟩, 1⟩, ⟨⟨1, 1, 7, 7⟩, 2⟩], [⟨⟨2, 1, 13, 4⟩, 1⟩]] := by
  refine System.exists_run_of_restricted_exec (Representative true) rfl (by decide +kernel) ?_
  intro run
  exact ⟨(accounted_iff_representative 3 true run.of_restrict).mpr run, by decide +kernel⟩

/-- At least one event of each group is to be kept. The second event of a group comes after
`GetGroups` in the same window: it is not sampled, it is not reported, and its count and its value
are gone. -/
theorem known_group_lost : ∃ state : State Nat,
    (system Nat 0 true).Run (create Nat 0)
      [.sample 1 5, .answer true, .getGroups, .sample 1 7, .answer true, .getGroups] state ∧
    state.recent = [] ∧
    state.rounds.map calls = [[(1, 5)], [(1, 7)]] ∧
    state.rounds.map reported = [[⟨⟨1, 1, 5, 5⟩, 1⟩], []] ∧
    state.groups.info 1 = .zero ∧
    reportedTotal .count 1 state.rounds = 1 ∧ calledTotal .count 1 state.rounds = 2 ∧
    reportedTotal .value 1 state.rounds = 5 ∧ calledTotal .value 1 state.rounds = 12 := by
  refine ⟨_, System.run_of_exec rfl, ?_, ?_, ?_, ?_, ?_, ?_, ?_, ?_⟩
  all_goals decide +kernel

/-- A group is reported with all its calls, as far as 64 bits go, or not at all. -/
def ReportsWhole (round : Round Group) : Prop := ∀ group,
  (∀ measure, reportedOf measure group round.reported = called measure group round.calls % 2 ^ 64) ∨
    ∀ measure, reportedOf measure group round.reported = 0

theorem rounds_next {event : Event Group} (taken : state.next keepAtLeastOne event = some after) :
    after.rounds = state.rounds ∨
      after.rounds = state.rounds ++ [⟨state.recent, state.groups.getGroups.1⟩] := by
  cases event with
  | getGroups =>
    rcases ite_none_right_eq_some.mp taken with ⟨-, ⟨⟩⟩
    exact .inr rfl
  | sample group value | swapCounts | onRollWindow =>
    rcases ite_none_right_eq_some.mp taken with ⟨-, ⟨⟩⟩
    exact .inl rfl
  | answer lucky =>
    rcases map_eq_some_iff.mp taken with ⟨call, -, rfl⟩
    split <;> exact .inl rfl
  | storeBudget samplesBudget | resetCounts =>
    simp only [next] at taken
    split at taken <;> cases taken
    exact .inl rfl

theorem groups_reported_whole (samplesBudget : Int) (keepAtLeastOne : Bool)
    {events : List (Event Group)}
    (run : (system Group samplesBudget keepAtLeastOne).Run (create Group samplesBudget) events
      state) :
    ∀ round ∈ state.rounds, ReportsWhole round := by
  have both : state.Consistent keepAtLeastOne ∧ ∀ round ∈ state.rounds, ReportsWhole round := by
    apply run.invariant
      (fun state => state.Consistent keepAtLeastOne ∧ ∀ round ∈ state.rounds, ReportsWhole round)
      ⟨.create keepAtLeastOne samplesBudget, forall_mem_nil _⟩
    rintro state event after ⟨consistent, whole⟩ taken
    refine ⟨(consistent.step taken).1, ?_⟩
    rcases rounds_next taken with same | added
    · rw [same]
      exact whole
    · rw [added, forall_mem_append, forall_mem_singleton]
      refine ⟨whole, ?_⟩
      intro group
      simp only [Groups.reportedOf_getGroups consistent.distinct, consistent.real]
      by_cases represented : 0 < (state.groups.info group).sampledCount
      · exact .inl fun measure => if_pos represented
      · exact .inr fun measure => if_neg represented
  exact both.2

theorem known_group_left_out : ∃ state : State Nat,
    (system Nat 0 true).Run (create Nat 0)
      [.sample 1 5, .answer true, .getGroups, .sample 1 7, .answer true, .getGroups] state ∧
    ∀ round ∈ state.rounds, ReportsWhole round :=
  System.exists_run_of_exec rfl (groups_reported_whole 0 true)

end State

end Pyroscope.GroupSampler
