import Pyroscope.ThreadList.Iterators
import Pyroscope.WallTime.Accounting

/-!
# Rounds of the sampler over the list

While the first thread stays where it is, every call brings the iterator closer to it.
-/

namespace Pyroscope.ThreadList

open Transition Carousel ManagedThreadList List Option
open WallTime (RoundKind)

structure Sampler where
  list : ManagedThreadList
  round : Option WallTime.Round
  /-- The threads collected by the round, or by the last one when none is going on. -/
  collected : List Info
  calls : Nat
  size : Nat
  registrations : Nat

namespace Sampler

def initial : Sampler where
  list := .empty
  round := none
  collected := []
  calls := 0
  size := 0
  registrations := 0

inductive Event where
  | change (event : ManagedThreadList.Event)
  /-- The threads counted by a code hotspot round are those of another list. -/
  | beginRound (kind : RoundKind) (otherCount : Nat) (threadsThreshold : Int)
  | iterate (canBeInterrupted hasTraceContext : Bool)
  deriving DecidableEq

/-- `Count()` is unsigned and is kept in a signed variable. -/
def managedThreadsCount (sampler : Sampler) (otherCount : Nat) : RoundKind → Int
  | .walltime => (sampler.list.count : Int).bmod (2 ^ 32)
  | .codeHotspot => (otherCount : Int).bmod (2 ^ 32)

def beginRound (sampler : Sampler) (kind : RoundKind) (otherCount : Nat)
    (threadsThreshold : Int) : Sampler :=
  let sampledThreadsCount := min (sampler.managedThreadsCount otherCount kind) threadsThreshold
  { sampler with
    round := some ⟨kind, sampledThreadsCount, none, 0⟩
    collected := []
    calls := 0
    size := sampler.list.threads.length
    registrations := 0 }

def continueRound (sampler : Sampler) (round : WallTime.Round) : Sampler :=
  { sampler with round := if round.count < round.sampledThreadsCount then some round else none }

/-- The loop body after `LoopNext` has returned a thread which is not the first one. -/
def visit (sampler : Sampler) (round : WallTime.Round) (target : Info)
    (canBeInterrupted hasTraceContext : Bool) : Sampler :=
  let round := { round with firstThread := round.firstThread <|> some target }
  if WallTime.mustSkip round.kind ⟨target, canBeInterrupted, hasTraceContext, 0, true, false⟩ then
    sampler.continueRound round
  else
    { sampler with collected := sampler.collected ++ [target] }.continueRound
      { round with count := round.count + 1 }

def iterate (iterator : Nat) (sampler : Sampler) (round : WallTime.Round)
    (canBeInterrupted hasTraceContext : Bool) : Sampler :=
  let (targetThread, list) := sampler.list.loopNext iterator
  let sampler := { sampler with list := list, calls := sampler.calls + 1 }
  match targetThread with
  | none => { sampler with round := none }
  | some target =>
    if round.firstThread = some target then { sampler with round := none }
    else sampler.visit round target canBeInterrupted hasTraceContext

def changed (sampler : Sampler) (list : ManagedThreadList) : Sampler :=
  { sampler with
    list := list
    registrations :=
      if sampler.round = none then sampler.registrations
      else sampler.registrations + (list.threads.length - sampler.list.threads.length) }

def next (iterator : Nat) (sampler : Sampler) : Event → Option Sampler
  | .change event =>
    if event = .loopNext iterator then none else (sampler.list.next event).map sampler.changed
  | .beginRound kind otherCount threadsThreshold =>
    if sampler.round = none then some (sampler.beginRound kind otherCount threadsThreshold)
    else none
  | .iterate canBeInterrupted hasTraceContext =>
    sampler.round.map (sampler.iterate iterator · canBeInterrupted hasTraceContext)

def system (iterator : Nat) : System Sampler Event := .ofFunction initial (next iterator)

end Sampler

namespace ManagedThreadList

variable {list after : ManagedThreadList} {iterator pos calls total : Nat} {info first : Info}
  {data : ManagedThreadInfo} {clrThreadId osThreadId : Nat} {osThreadHandle : Int}
  {left right collected : List Info} {start : Option Info} {event : Event}

/-! ## The way to the first thread -/

/-- How far a round is: the threads between the iterator and its first thread have not been
collected. -/
inductive Going (iterator : Nat) (list : ManagedThreadList) (collected : List Info)
    (calls total : Nat) : Option Info → Prop where
  | start (nothing : collected = []) (uncalled : calls = 0)
      (size : list.threads.length ≤ total) : Going iterator list collected calls total none
  | round {first pos bound : Nat} (found : list.iterators[iterator]? = some pos)
      (ahead : Ahead (list.order pos) first collected bound)
      (valid : list.hasValidHandle first = true) (short : calls + bound ≤ total) :
      Going iterator list collected calls total (some first)

namespace Going

variable (going : Going iterator list collected calls total start)
include going

theorem calls_le : calls ≤ total := by
  cases going with
  | start nothing uncalled size => omega
  | round found ahead valid short => omega

theorem mono {more : Nat} (grown : total ≤ more) :
    Going iterator list collected calls more start := by
  cases going with
  | start nothing uncalled size => exact .start nothing uncalled (size.trans grown)
  | round found ahead valid short => exact .round found ahead valid (short.trans grown)

theorem mem (member : first ∈ start) : first ∈ list.threads := by
  cases going with
  | start nothing uncalled size => exact absurd member nofun
  | round found ahead valid short =>
    cases member
    exact mem_threads_of_mem_order ahead.mem

theorem unseen (threads : after.threads = list.threads)
    (kept : ∀ pos, list.iterators[iterator]? = some pos → after.iterators[iterator]? = some pos)
    (valid : ∀ first ∈ start, first ∈ list.threads → list.hasValidHandle first = true →
      after.hasValidHandle first = true) : Going iterator after collected calls total start := by
  cases going with
  | start nothing uncalled size => exact .start nothing uncalled (threads ▸ size)
  | @round first pos bound found ahead validFirst short =>
    have same : after.order pos = list.order pos := by rw [order, order, window, window, threads]
    have member := mem_threads_of_mem_order ahead.mem
    exact .round (kept pos found) (same ▸ ahead) (valid first rfl member validFirst) short

theorem makeInfo (registered : list.Registered) :
    Going iterator (list.makeInfo data) collected calls total start := by
  refine going.unseen ?_ ?_ ?_
  · rfl
  · exact fun _ found => found
  · intro first _ member valid
    rwa [hasValidHandle, registered.infos_makeInfo member]

theorem add (positioned : list.Positioned) (few : (list.add info).Few) (fresh : info ∉ collected) :
    Going iterator (list.add info) collected calls (total + 1) start := by
  have size : (list.add info).threads.length = list.threads.length + 1 := by
    simp [ManagedThreadList.add]
  cases going with
  | start nothing uncalled bound => exact .start nothing uncalled (by omega)
  | @round first pos bound found ahead valid short =>
    have fewBefore : list.Few := by
      have bound : (list.add info).threads.length ≤ 2 ^ 32 := few
      rw [Few]
      omega
    have nonempty : list.threads ≠ [] :=
      ne_nil_of_mem (mem_threads_of_mem_order ahead.mem)
    have inside : pos ≤ list.threads.length :=
      ((positioned.inside found nonempty).trans_le (length_take_le' _ _)).le
    rw [fewBefore.order_eq, rotate_eq_drop_append_take inside] at ahead
    refine .round found ?_ valid (by omega : calls + (bound + 1) ≤ total + 1)
    rw [few.order_eq]
    change Ahead ((list.threads ++ [info]).rotate pos) first collected (bound + 1)
    rw [rotate_append_singleton inside]
    exact ahead.insert fresh

theorem erase (positioned : list.Positioned) (few : list.Few)
    (threads : list.threads = left ++ info :: right) (another : ∀ first ∈ start, info ≠ first) :
    Going iterator ((list.erase left info right).updateIterators left.length) collected calls
      total start := by
  cases going with
  | start nothing uncalled size =>
    refine .start nothing uncalled ?_
    rw [threads, length_append, length_cons] at size
    simp only [updateIterators, erase, length_append]
    omega
  | @round first pos bound found ahead valid short =>
    rcases order_updateIterators few positioned threads found with
      ⟨moved, before, behind, foundAfter, orderBefore, orderAfter⟩
    rw [orderBefore] at ahead
    refine .round foundAfter ?_ valid short
    rw [orderAfter]
    exact ahead.erase (another first rfl)

theorem getOrCreate (registered : list.Registered) (positioned : list.Positioned)
    (room : list.threads.length < 2 ^ 32) (made : ∀ info ∈ collected, info < list.made) :
    Going iterator (list.getOrCreate clrThreadId).2 collected calls
      (total + ((list.getOrCreate clrThreadId).2.threads.length - list.threads.length)) start := by
  rcases getOrCreate_cases list clrThreadId with ⟨info, -, result⟩ | ⟨-, result⟩
  · rw [result, Nat.sub_self, Nat.add_zero]
    exact going
  · have size : ((list.makeInfo (.make clrThreadId)).add list.made).threads.length =
        list.threads.length + 1 := by
      simp [ManagedThreadList.add, ManagedThreadList.makeInfo]
    rw [result, size, Nat.add_sub_cancel_left]
    refine (going.makeInfo registered).add positioned ?_ ?_
    · rw [Few, size]
      exact room
    · exact fun member => absurd (made _ member) (Nat.lt_irrefl _)

theorem setOsInfo
    (handle : ∀ first ∈ start, first = info →
      ((list.infos first).setOsInfo osThreadId osThreadHandle).hasValidHandle = true) :
    Going iterator (list.setOsInfo info osThreadId osThreadHandle) collected calls total start := by
  refine going.unseen ?_ ?_ ?_
  · rfl
  · exact fun _ found => found
  · intro first member _ valid
    simp only [hasValidHandle, ManagedThreadList.setOsInfo]
    by_cases same : first = info
    · subst first
      rw [Function.update_self]
      exact handle info member rfl
    · rwa [Function.update_of_ne same]

end Going

/--
The first thread of a round stays and keeps a valid handle, and no thread comes back after it has
been collected.
-/
def Stable (list : ManagedThreadList) (collected : List Info) (start : Option Info) :
    Event → Prop
  | .unregisterThread clrThreadId => ∀ first ∈ start, list.clrThreadId first ≠ clrThreadId
  | .registerThread info => info ∉ collected
  | .setThreadOsInfo clrThreadId osThreadId osThreadHandle =>
    ∀ first ∈ start, list.clrThreadId first = clrThreadId →
      ((list.infos first).setOsInfo osThreadId osThreadHandle).hasValidHandle = true
  | .makeInfo _ | .getOrCreate _ | .createIterator | .loopNext _ => True

theorem clrThreadId_eq_of_getOrCreate (registered : list.Registered)
    (target : info = (list.getOrCreate clrThreadId).1) (member : info ∈ list.threads) :
    list.clrThreadId info = clrThreadId := by
  rcases getOrCreate_cases list clrThreadId with ⟨other, found, result⟩ | ⟨-, result⟩
  · rw [registered.findByClrId_eq, registered.lookup] at found
    rw [target, result]
    exact found.2
  · rw [result] at target
    exact absurd target (registered.info_ne_made member)

section

variable (going : Going iterator list collected calls total start)
include going

theorem Going.setThreadOsInfo (registered : list.Registered) (positioned : list.Positioned)
    (room : list.threads.length < 2 ^ 32) (made : ∀ info ∈ collected, info < list.made)
    (handle : ∀ first ∈ start, list.clrThreadId first = clrThreadId →
      ((list.infos first).setOsInfo osThreadId osThreadHandle).hasValidHandle = true) :
    Going iterator (list.setThreadOsInfo clrThreadId osThreadId osThreadHandle) collected calls
      (total + ((list.getOrCreate clrThreadId).2.threads.length - list.threads.length)) start := by
  refine (going.getOrCreate registered positioned room made).setOsInfo ?_
  intro first member target
  have registeredFirst := going.mem member
  exact handle first member (clrThreadId_eq_of_getOrCreate registered target registeredFirst)

theorem Going.registerThread (positioned : list.Positioned) (room : list.threads.length < 2 ^ 32)
    (fresh : info ∉ collected) :
    Going iterator (list.registerThread info).2 collected calls
      (total + ((list.registerThread info).2.threads.length - list.threads.length)) start := by
  rcases registerThread_cases list info with same | ⟨-, added⟩
  · rw [same, Nat.sub_self, Nat.add_zero]
    exact going
  · have size : (list.add info).threads.length = list.threads.length + 1 := by
      simp [ManagedThreadList.add]
    rw [added, size, Nat.add_sub_cancel_left]
    refine going.add positioned ?_ fresh
    rw [Few, size]
    exact room

theorem Going.unregisterThread (positioned : list.Positioned) (few : list.Few)
    (another : ∀ first ∈ start, list.clrThreadId first ≠ clrThreadId) :
    Going iterator (list.unregisterThread clrThreadId).2 collected calls total start := by
  rcases unregisterThread_cases list clrThreadId with
    same | ⟨left, info, right, threads, key, removed⟩
  · rwa [same]
  · rw [removed, Nat.mod_eq_of_lt (few.length_left threads)]
    apply going.erase positioned few threads
    rintro first member rfl
    exact another info member key

theorem Going.change (registered : list.Registered) (positioned : list.Positioned)
    (room : list.threads.length < 2 ^ 32) (made : ∀ info ∈ collected, info < list.made)
    (stable : list.Stable collected start event) (elsewhere : event ≠ .loopNext iterator)
    (taken : list.next event = some after) :
    Going iterator after collected calls
      (total + (after.threads.length - list.threads.length)) start := by
  cases event with
  | makeInfo data =>
    cases taken
    exact (going.makeInfo registered).mono (Nat.le_add_right _ _)
  | getOrCreate clrThreadId =>
    cases taken
    exact going.getOrCreate registered positioned room made
  | registerThread info =>
    rcases ite_none_right_eq_some.mp taken with ⟨-, ⟨⟩⟩
    exact going.registerThread positioned room stable
  | setThreadOsInfo clrThreadId osThreadId osThreadHandle =>
    cases taken
    exact going.setThreadOsInfo registered positioned room made stable
  | unregisterThread clrThreadId =>
    cases taken
    exact (going.unregisterThread positioned room.le stable).mono (Nat.le_add_right _ _)
  | createIterator =>
    cases taken
    refine (going.unseen ?_ ?_ ?_).mono (Nat.le_add_right _ _)
    · rfl
    · intro pos found
      rw [← found]
      exact List.getElem?_append_left (List.getElem?_eq_some_iff.mp found).1
    · exact fun _ _ _ valid => valid
  | loopNext other =>
    cases taken
    have different : other ≠ iterator := fun same => elsewhere (same ▸ rfl)
    rcases loopNext_eq list other with ⟨iterators, moved⟩
    refine (going.unseen ?_ ?_ ?_).mono (Nat.le_add_right _ _)
    · rw [moved]
    · intro pos found
      rw [getElem_iterators_loopNext positioned different, found]
    · rw [moved]
      exact fun _ _ _ valid => valid

end

/-! ## One pass through the loop -/

theorem Registered.nodup_order (registered : list.Registered) : (list.order pos).Nodup :=
  nodup_rotate.mpr (registered.distinct.sublist (take_sublist _ _))

theorem Going.avoid_fewer (going : Going iterator list (collected ++ [info]) calls total start) :
    Going iterator list collected calls total start := by
  cases going with
  | start nothing uncalled size => simp at nothing
  | round found ahead valid short => exact .round found ahead.avoid_fewer valid short

theorem Going.loopNext (going : Going iterator list collected calls total start)
    (registered : list.Registered) (positioned : list.Positioned) (few : list.Few)
    (answer : (list.loopNext iterator).1 = some info) :
    start = some info ∨ info ∉ collected ∧ info ∈ list.threads ∧
      Going iterator (list.loopNext iterator).2 (collected ++ [info]) (calls + 1) total
        (start <|> some info) := by
  rcases loopNext_cases positioned iterator with
    same | ⟨pos, moved, found, inside, -, result, next⟩
  · rw [same] at answer
    exact absurd answer nofun
  · rw [answer] at next
    have foundAfter : (list.loopNext iterator).2.iterators[iterator]? = some moved := by
      rw [result]
      exact List.getElem?_set_self (List.getElem?_eq_some_iff.mp found).1
    have member := mem_threads_of_mem_order next.mem
    have turned : (list.loopNext iterator).2.order moved = list.order moved := by
      rw [result]
      rfl
    have kept : (list.loopNext iterator).2.hasValidHandle = list.hasValidHandle := by
      rw [result]
      rfl
    cases going with
    | start nothing uncalled size =>
      right
      subst collected
      have length : (list.order pos).length = list.threads.length := by
        rw [few.order_eq, length_rotate]
      have some := length_pos_of_mem member
      refine ⟨not_mem_nil, member, .round foundAfter ?_ ?_
        (by omega : calls + 1 + ((list.order pos).length - 1) ≤ total)⟩
      · rw [turned]
        exact next.ahead registered.nodup_order
      · rw [kept]
        exact next.accepted
    | @round first pos' bound found' ahead valid short =>
      rw [found, some.injEq] at found'
      subst pos'
      rcases ahead.next registered.nodup_order valid next with
        rfl | ⟨fresh, more, aheadAfter⟩
      · exact .inl rfl
      · refine .inr ⟨fresh, member, .round foundAfter ?_ ?_
          (by omega : calls + 1 + (bound - 1) ≤ total)⟩
        · rw [turned]
          exact aheadAfter
        · rw [kept]
          exact valid

end ManagedThreadList

namespace Sampler

variable {iterator : Nat} {sampler after : Sampler} {round : WallTime.Round} {target : Info}
  {canBeInterrupted hasTraceContext : Bool} {events : List Event} {event : Event}

open ManagedThreadList (Going)

/-! ## Whole rounds -/

/-- No thread is collected twice in a round. -/
structure Sound (iterator : Nat) (sampler : Sampler) : Prop where
  registered : sampler.list.Registered
  positioned : sampler.list.Positioned
  few : sampler.list.Few
  distinct : sampler.collected.Nodup
  made : ∀ info ∈ sampler.collected, info < sampler.list.made
  calls : sampler.calls ≤ sampler.size + sampler.registrations + 1
  going : ∀ round, sampler.round = some round →
    Going iterator sampler.list sampler.collected sampler.calls
      (sampler.size + sampler.registrations) round.firstThread

theorem Sound.initial : Sound iterator .initial where
  registered := .empty
  positioned _ member := absurd member not_mem_nil
  few := Nat.zero_le _
  distinct := nodup_nil
  made _ member := absurd member not_mem_nil
  calls := Nat.zero_le _
  going _ none := absurd none nofun

def first (sampler : Sampler) : Option Info := sampler.round.bind (·.firstThread)

/--
Positions reach every thread, the first thread of a round stays and keeps a valid handle, and no
thread comes back in the round in which it has been collected.
-/
def Stable (sampler : Sampler) : Event → Prop
  | .change event =>
    sampler.list.threads.length < 2 ^ 32 ∧
      (sampler.round ≠ none → sampler.list.Stable sampler.collected sampler.first event)
  | .beginRound .. | .iterate .. => True

theorem Sound.beginRound (sound : Sound iterator sampler) (kind : RoundKind) (otherCount : Nat)
    (threadsThreshold : Int) :
    Sound iterator (sampler.beginRound kind otherCount threadsThreshold) where
  registered := sound.registered
  positioned := sound.positioned
  few := sound.few
  distinct := nodup_nil
  made _ member := absurd member not_mem_nil
  calls := Nat.zero_le _
  going round begun := by
    cases begun
    exact .start rfl rfl le_rfl

theorem Sound.change {list : ManagedThreadList} {event : ManagedThreadList.Event}
    (sound : Sound iterator sampler) (stable : sampler.Stable (.change event))
    (elsewhere : event ≠ .loopNext iterator) (taken : sampler.list.next event = some list) :
    Sound iterator (sampler.changed list) where
  registered := sound.registered.step taken
  positioned := sound.positioned.step taken
  few := (grown_of_next taken).size.trans stable.1
  distinct := sound.distinct
  made info member := (sound.made info member).trans_le (grown_of_next taken).made
  calls := by
    have bound := sound.calls
    simp only [changed]
    split <;> omega
  going round running := by
    have here : sampler.round = some round := running
    have unfinished : sampler.round ≠ none := by simp [here]
    have going := (sound.going round here).change sound.registered sound.positioned stable.1
      sound.made (by simpa [first, here] using stable.2 unfinished) elsewhere taken
    simpa only [changed, if_neg unfinished, Nat.add_assoc] using going

def called (iterator : Nat) (sampler : Sampler) : Sampler :=
  { sampler with list := (sampler.list.loopNext iterator).2, calls := sampler.calls + 1 }

theorem Sound.finish (sound : Sound iterator sampler) (running : sampler.round = some round) :
    Sound iterator { sampler.called iterator with round := none } := by
  have bound := (sound.going round running).calls_le
  rcases loopNext_eq sampler.list iterator with ⟨iterators, moved⟩
  refine ⟨?_, sound.positioned.loopNext iterator, ?_, sound.distinct, ?_, ?_, nofun⟩
  · simp only [called, moved]
    exact sound.registered.withIterators iterators
  · simp only [called, moved]
    exact sound.few
  · simp only [called, moved]
    exact sound.made
  · exact Nat.succ_le_succ bound

theorem Sound.continueRound {collected : List Info}
    (finished : Sound iterator { sampler with round := none, collected := collected })
    (going : Going iterator sampler.list collected sampler.calls
      (sampler.size + sampler.registrations) round.firstThread) :
    Sound iterator ({ sampler with collected := collected }.continueRound round) where
  registered := finished.registered
  positioned := finished.positioned
  few := finished.few
  distinct := finished.distinct
  made := finished.made
  calls := finished.calls
  going other running := by
    simp only [Sampler.continueRound, ite_none_right_eq_some, some.injEq] at running
    rw [← running.2]
    exact going

theorem Sound.visit (sound : Sound iterator sampler) (running : sampler.round = some round)
    (answer : (sampler.list.loopNext iterator).1 = some target)
    (another : round.firstThread ≠ some target) :
    Sound iterator
      ((sampler.called iterator).visit round target canBeInterrupted hasTraceContext) := by
  have finished := sound.finish running
  rcases (sound.going round running).loopNext sound.registered sound.positioned sound.few
    answer with same | ⟨fresh, member, going⟩
  · exact absurd same another
  · simp only [Sampler.visit]
    split
    case isTrue skipped => exact .continueRound finished going.avoid_fewer
    case isFalse =>
      refine .continueRound ⟨finished.registered, finished.positioned, finished.few, ?_, ?_,
        finished.calls, nofun⟩ going
      · exact sound.distinct.append (nodup_singleton target) (by simpa using fresh)
      · intro info known
        rcases mem_append.mp known with old | new
        · exact finished.made info old
        · rw [mem_singleton.mp new]
          rcases loopNext_eq sampler.list iterator with ⟨iterators, moved⟩
          simp only [called, moved]
          exact sound.registered.made target member

theorem Sound.iterate (sound : Sound iterator sampler) (running : sampler.round = some round) :
    Sound iterator (sampler.iterate iterator round canBeInterrupted hasTraceContext) := by
  simp only [Sampler.iterate]
  cases answer : (sampler.list.loopNext iterator).1 with
  | none => exact sound.finish running
  | some target =>
    simp only
    split
    case isTrue again => exact sound.finish running
    case isFalse another => exact sound.visit running answer another

theorem Sound.step (sound : Sound iterator sampler) (stable : sampler.Stable event)
    (taken : (system iterator).step sampler event after) : Sound iterator after := by
  have result : sampler.next iterator event = some after := taken
  cases event with
  | change event =>
    simp only [next, ite_none_left_eq_some, map_eq_some_iff] at result
    rcases result with ⟨elsewhere, list, changed, rfl⟩
    exact sound.change stable elsewhere changed
  | beginRound kind otherCount threadsThreshold =>
    rcases ite_none_right_eq_some.mp result with ⟨-, ⟨⟩⟩
    exact sound.beginRound kind otherCount threadsThreshold
  | iterate canBeInterrupted hasTraceContext =>
    simp only [next, map_eq_some_iff] at result
    rcases result with ⟨round, running, rfl⟩
    exact sound.iterate running

theorem sound_of_run (run : ((system iterator).restrict Stable).Run .initial events sampler) :
    Sound iterator sampler := by
  refine run.invariant (Sound iterator) .initial ?_
  rintro sampler event after sound ⟨stable, taken⟩
  exact sound.step stable taken

/--
A round calls `LoopNext` at most once for every thread there was at its start or has been added
since, and once more to end; while it goes on the next call can be made. It collects no thread
twice.
-/
theorem rounds_end (run : ((system iterator).restrict Stable).Run .initial events sampler) :
    sampler.collected.Nodup ∧ sampler.calls ≤ sampler.size + sampler.registrations + 1 ∧
      (sampler.round ≠ none → sampler.calls ≤ sampler.size + sampler.registrations ∧
        ∀ canBeInterrupted hasTraceContext, ∃ after,
          (system iterator).step sampler (.iterate canBeInterrupted hasTraceContext) after) := by
  have sound := sound_of_run run
  refine ⟨sound.distinct, sound.calls, ?_⟩
  intro unfinished
  rcases ne_none_iff_exists'.mp unfinished with ⟨round, running⟩
  refine ⟨(sound.going round running).calls_le, ?_⟩
  intro canBeInterrupted hasTraceContext
  refine ⟨sampler.iterate iterator round canBeInterrupted hasTraceContext, ?_⟩
  change sampler.next iterator _ = some _
  simp only [next, running, map_some]

instance (list : ManagedThreadList) (collected : List Info) (start : Option Info) :
    ∀ event, Decidable (list.Stable collected start event)
  | .unregisterThread _ => inferInstanceAs (Decidable (∀ first ∈ start, _ ≠ _))
  | .registerThread _ => inferInstanceAs (Decidable (_ ∉ _))
  | .setThreadOsInfo .. => inferInstanceAs (Decidable (∀ first ∈ start, _ → _ = _))
  | .makeInfo _ | .getOrCreate _ | .createIterator | .loopNext _ =>
    inferInstanceAs (Decidable True)

instance (sampler : Sampler) : ∀ event, Decidable (sampler.Stable event)
  | .change _ => inferInstanceAs (Decidable (_ ∧ (_ → _)))
  | .beginRound .. | .iterate .. => inferInstanceAs (Decidable True)

def threeThreads : List Event :=
  [.change .createIterator, .change (.setThreadOsInfo 1 1 1), .change (.setThreadOsInfo 2 2 2),
    .change (.setThreadOsInfo 3 3 3)]

theorem round_collects_each_once : ∃ sampler,
    (system 0).Run .initial (threeThreads ++ [.beginRound .walltime 0 5, .iterate true true,
      .iterate true false, .change (.unregisterThread 2), .iterate true false,
      .iterate true false]) sampler ∧
    sampler.collected = [1, 2] ∧ sampler.calls = 4 ∧ sampler.collected.Nodup := by
  refine System.exists_run_of_restricted_exec Stable rfl (by decide +kernel) ?_
  intro run
  exact ⟨rfl, rfl, (rounds_end run).1⟩

/-- The first thread leaves. The others are skipped for ever, or one of them is collected twice. -/
theorem round_without_first_thread :
    (∃ sampler after,
      (system 0).Run .initial (threeThreads ++ [.beginRound .walltime 0 5, .iterate true true,
        .change (.unregisterThread 1)]) sampler ∧
      (system 0).Run sampler [.iterate true true, .iterate true true] after ∧
      after.list = sampler.list ∧ after.round = sampler.round ∧ after.round.isSome = true) ∧
    ∃ sampler,
      (system 0).Run .initial (threeThreads ++ [.beginRound .walltime 0 5, .iterate true true,
        .change (.unregisterThread 1), .iterate true false, .iterate true false,
        .iterate true false]) sampler ∧
      sampler.collected = [1, 2, 1] := by
  constructor
  · refine ⟨_, _, System.run_of_exec rfl, System.run_of_exec rfl, ?_, ?_, ?_⟩
    · rfl
    · decide +kernel
    · rfl
  · exact ⟨_, System.run_of_exec rfl, rfl⟩

end Sampler

end Pyroscope.ThreadList
