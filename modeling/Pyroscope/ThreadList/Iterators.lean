import Pyroscope.ThreadList.Indexes

/-!
# Iterators over a changing list

The loop stops at the first thread with a valid handle, or when it is back where it has started, so
the thread which comes up last is never returned.
-/

namespace Pyroscope.ThreadList.ManagedThreadList

section

open Carousel Transition List

variable {list : ManagedThreadList} {iterator pos startPos size distance fuel : Nat}
  {passed rest : List Info}

def window (list : ManagedThreadList) : List Info := list.threads.take (2 ^ 32)

/-- The threads in the order in which they come up for an iterator at a position. -/
def order (list : ManagedThreadList) (pos : Nat) : List Info := list.window.rotate pos

theorem length_window : list.window.length = min (2 ^ 32) list.threads.length :=
  length_take

theorem following_eq (inside : pos < list.window.length) :
    following list.threads.length pos = (pos + 1) % list.window.length := by
  rw [length_window] at inside ⊢
  rw [following]
  rcases Nat.lt_or_ge (2 ^ 32) list.threads.length with large | small
  · rw [Nat.min_eq_left large.le] at inside ⊢
    exact Nat.mod_eq_of_lt ((Nat.mod_lt _ (by decide)).trans large)
  · rw [Nat.min_eq_right small] at inside ⊢
    rcases Nat.lt_or_ge (pos + 1) (2 ^ 32) with fits | wraps
    · rw [Nat.mod_eq_of_lt fits]
    · have full : pos + 1 = 2 ^ 32 := by omega
      have whole : list.threads.length = pos + 1 := by omega
      rw [whole, full, Nat.mod_self, Nat.zero_mod]

theorem getElem_threads (inside : pos < list.window.length) :
    list.threads[pos]? = list.window[pos]? := by
  rw [length_window] at inside
  exact (getElem?_take_of_lt (by omega)).symm

theorem back_iff (inside : startPos < size) (within : distance < size) :
    startPos = (startPos + distance + 1) % size ↔ distance + 1 = size := by
  rcases Nat.lt_or_ge (startPos + distance + 1) size with below | above
  · rw [Nat.mod_eq_of_lt below]
    omega
  · rw [Nat.mod_eq_sub_mod above, Nat.mod_eq_of_lt (by omega)]
    omega

theorem scan_spec (inside : startPos < list.window.length)
    (split : list.order startPos = passed ++ rest) (more : rest ≠ [])
    (invalid : ∀ other ∈ passed, list.hasValidHandle other = false)
    (enough : rest.length ≤ fuel) :
    ∃ skipped info left, list.order startPos = skipped ++ info :: left ∧
      (∀ other ∈ skipped, list.hasValidHandle other = false) ∧
      (list.hasValidHandle info = true ∨ left = []) ∧
      list.scan startPos fuel ((startPos + passed.length) % list.window.length) =
        some (info, (startPos + skipped.length + 1) % list.window.length) := by
  induction rest generalizing passed fuel with
  | nil => exact absurd rfl more
  | cons info rest ih =>
    obtain ⟨fuel, rfl⟩ : ∃ less, fuel = less + 1 := ⟨fuel - 1, by simp at enough; omega⟩
    have size : passed.length + rest.length + 1 = list.window.length := by
      have length := congrArg length split
      simp only [order, length_rotate, length_append, length_cons] at length
      omega
    have position : (startPos + passed.length) % list.window.length < list.window.length :=
      Nat.mod_lt _ (by omega)
    have here : list.threads[(startPos + passed.length) % list.window.length]? = some info := by
      rw [getElem_threads position, Nat.add_comm, ← getElem?_rotate (by omega)]
      change (list.order startPos)[passed.length]? = some info
      simp [split]
    have behind : following list.threads.length
        ((startPos + passed.length) % list.window.length) =
          (startPos + passed.length + 1) % list.window.length := by
      rw [following_eq position, Nat.mod_add_mod]
    simp only [scan, here, Option.bind_some, behind]
    split
    case isTrue again =>
      have more : rest ≠ [] := by
        rintro rfl
        exact again.1 ((back_iff inside (by omega)).mpr (by simpa using size))
      have invalidHere : list.hasValidHandle info = false := by simpa using again.2
      have splitNext : list.order startPos = (passed ++ [info]) ++ rest := by simpa using split
      have invalidNext : ∀ other ∈ passed ++ [info], list.hasValidHandle other = false := by
        simpa [or_imp, forall_and, invalidHere] using invalid
      simpa [Nat.add_assoc] using ih splitNext more invalidNext (Nat.le_of_succ_le_succ enough)
    case isFalse done =>
      refine ⟨passed, info, rest, split, invalid, ?_, rfl⟩
      by_cases valid : list.hasValidHandle info = true
      · exact .inl valid
      · right
        have back : startPos = (startPos + passed.length + 1) % list.window.length := by
          by_contra away
          exact done ⟨away, by simpa using valid⟩
        have last := (back_iff inside (by omega)).mp back
        exact eq_nil_of_length_eq_zero (by omega)

theorem loopNext_spec (found : list.iterators[iterator]? = some pos)
    (inside : pos < list.window.length) :
    ∃ moved, moved < list.window.length ∧
      (list.loopNext iterator).2 = { list with iterators := list.iterators.set iterator moved } ∧
      Next list.hasValidHandle (list.order pos) (list.loopNext iterator).1 (list.order moved) := by
  have size : list.threads.length ≠ 0 := by
    rw [length_window] at inside
    omega
  have most : list.window.length ≤ list.threads.length := length_take_le' _ _
  have length : (list.order pos).length = list.window.length := length_rotate ..
  have start : list.order pos ≠ [] := by
    intro none
    rw [none, length_nil] at length
    omega
  rcases scan_spec inside (nil_append _).symm start (by simp) (length.le.trans most) with
    ⟨skipped, info, left, split, invalid, stop, scanned⟩
  have total : skipped.length + left.length + 1 = list.window.length := by
    have := congrArg List.length split
    simp only [length, length_append, length_cons] at this
    omega
  rw [length_nil, Nat.add_zero, Nat.mod_eq_of_lt inside] at scanned
  have back := back_iff inside (show skipped.length < list.window.length by omega)
  have turned : list.order ((pos + skipped.length + 1) % list.window.length) =
      left ++ (skipped ++ [info]) := by
    have whole : list.order pos = (skipped ++ [info]) ++ left := by simpa using split
    have count : skipped.length + 1 = (skipped ++ [info]).length := by simp
    rw [order, rotate_mod, Nat.add_assoc, ← rotate_rotate]
    change (list.order pos).rotate _ = _
    rw [whole, count, rotate_append_length_eq]
  refine ⟨(pos + skipped.length + 1) % list.window.length, Nat.mod_lt _ (by omega), ?_, ?_⟩
  · simp only [loopNext, if_neg size, found, scanned]
    split <;> rfl
  · rw [turned]
    simp only [loopNext, if_neg size, found, scanned, back]
    split
    case isTrue last =>
      have none : left = [] := eq_nil_of_length_eq_zero (by omega)
      subst left
      rw [split, nil_append]
      exact .missed invalid
    case isFalse notLast =>
      have more : left ≠ [] := by
        rintro rfl
        exact notLast (by simpa using total)
      rw [split]
      exact .found invalid (stop.resolve_right more) more

/-- The thread which comes up last is never returned. -/
theorem loopNext_eq_find (found : list.iterators[iterator]? = some pos)
    (inside : pos < list.window.length) :
    (list.loopNext iterator).1 = (list.order pos).dropLast.find? list.hasValidHandle := by
  rcases loopNext_spec found inside with ⟨moved, -, -, next⟩
  exact next.answer_eq

theorem mem_threads_of_mem_order {info : Info} (member : info ∈ list.order pos) :
    info ∈ list.threads :=
  mem_of_mem_take (mem_rotate.mp member)

/-- A call returns a thread with a valid handle if there is one, and nothing only otherwise. -/
def ReturnsValid (list : ManagedThreadList) (iterator : Nat) : Prop :=
  ((∃ info ∈ list.threads, list.hasValidHandle info = true) →
    ∃ info ∈ list.threads, list.hasValidHandle info = true ∧
      (list.loopNext iterator).1 = some info) ∧
  ((list.loopNext iterator).1 = none → ∀ info ∈ list.threads, list.hasValidHandle info = false)

theorem returnsValid_iff (found : list.iterators[iterator]? = some pos)
    (inside : pos < list.threads.length) (word : pos < 2 ^ 32) :
    list.ReturnsValid iterator ↔
      (∀ info ∈ list.threads, list.hasValidHandle info = false) ∨
        ∃ info ∈ (list.order pos).dropLast, list.hasValidHandle info = true := by
  have within : pos < list.window.length := by
    rw [length_window]
    omega
  have answer := loopNext_eq_find found within
  constructor
  · rintro ⟨returned, -⟩
    by_cases some : ∃ info ∈ list.threads, list.hasValidHandle info = true
    · rcases returned some with ⟨info, -, valid, result⟩
      rw [answer] at result
      exact .inr ⟨info, mem_of_find?_eq_some result, valid⟩
    · left
      simpa using some
  · rintro (none | ⟨info, member, valid⟩)
    · refine ⟨?_, fun _ => none⟩
      rintro ⟨info, member, valid⟩
      simp [none info member] at valid
    · cases result : (list.loopNext iterator).1 with
      | none =>
        rw [answer, find?_eq_none] at result
        exact absurd valid (result info member)
      | some next =>
        rw [answer] at result
        have registered := mem_threads_of_mem_order
          (mem_of_mem_dropLast (mem_of_find?_eq_some result))
        refine ⟨fun _ => ⟨next, registered, find?_some result, ?_⟩, ?_⟩
        · rw [answer, result]
        · rw [answer, result]
          nofun

/-- The thread at the iterator has no handle, and the one behind it is returned. -/
theorem thread_behind_iterator_returned :
    ∃ list, system.Run .empty
        [.createIterator, .setThreadOsInfo 1 1 1, .getOrCreate 2, .setThreadOsInfo 3 3 3,
          .loopNext 0] list ∧
      list.iterators = [1] ∧ list.threads = [0, 1, 2] ∧ list.hasValidHandle 1 = false ∧
      (list.loopNext 0).1 = some 2 ∧ list.ReturnsValid 0 :=
  ⟨_, System.run_of_exec rfl, rfl, rfl, rfl, rfl,
    (returnsValid_iff rfl (by decide) (by decide)).mpr (.inr ⟨2, by decide, rfl⟩)⟩

/-- The only thread has a valid handle. -/
theorem only_thread_not_returned :
    ∃ list, system.Run .empty [.createIterator, .setThreadOsInfo 1 1 1] list ∧
      list.iterators = [0] ∧ list.threads = [0] ∧ list.hasValidHandle 0 = true ∧
      (list.loopNext 0).1 = none :=
  ⟨_, System.run_of_exec rfl, rfl, rfl, rfl, rfl⟩

end

/-! ## Runs of calls -/

open Carousel Transition List Option

variable {list after : ManagedThreadList} {iterator other pos clrThreadId : Nat} {info : Info}
  {left right calls : List Nat} {events : List Event} {event : Event}

/-! ## Positions -/

/-- Every iterator is at the position of a thread, or at the start of an empty list. -/
def Positioned (list : ManagedThreadList) : Prop :=
  ∀ pos ∈ list.iterators, pos < max 1 (min (2 ^ 32) list.threads.length)

theorem Positioned.inside (positioned : list.Positioned)
    (found : list.iterators[iterator]? = some pos) (some : list.threads ≠ []) :
    pos < list.window.length := by
  have bound := positioned pos (mem_of_getElem? found)
  have size := length_pos_of_ne_nil some
  rw [length_window]
  omega

theorem Positioned.grow (positioned : list.Positioned)
    (iterators : after.iterators = list.iterators)
    (threads : list.threads.length ≤ after.threads.length) : after.Positioned := by
  intro pos member
  rw [iterators] at member
  have bound := positioned pos member
  omega

theorem updateIterator_lt (removalPos size : Nat) (bound : pos < 2 ^ 32) :
    updateIterator removalPos size pos < max 1 (min (2 ^ 32) size) := by
  simp only [updateIterator]
  split <;> split <;> omega

theorem Positioned.updateIterators (positioned : list.Positioned)
    (iterators : after.iterators = list.iterators) (removalPos : Nat) :
    (after.updateIterators removalPos).Positioned := by
  intro pos member
  simp only [ManagedThreadList.updateIterators, iterators, List.mem_map] at member
  rcases member with ⟨old, member, rfl⟩
  have bound := positioned old member
  exact updateIterator_lt _ _ (by omega)

theorem loopNext_cases (positioned : list.Positioned) (iterator : Nat) :
    list.loopNext iterator = (none, list) ∨
    ∃ pos moved, list.iterators[iterator]? = some pos ∧ pos < list.window.length ∧
      moved < list.window.length ∧
      (list.loopNext iterator).2 = { list with iterators := list.iterators.set iterator moved } ∧
      Next list.hasValidHandle (list.order pos) (list.loopNext iterator).1 (list.order moved) := by
  by_cases size : list.threads = []
  · simp [loopNext, size]
  · cases found : list.iterators[iterator]? with
    | none =>
      simp [loopNext, found, size]
    | some pos =>
      right
      have inside := positioned.inside found size
      rcases loopNext_spec found inside with ⟨moved, within, result, next⟩
      exact ⟨pos, moved, rfl, inside, within, result, next⟩

theorem Positioned.loopNext (positioned : list.Positioned) (iterator : Nat) :
    (list.loopNext iterator).2.Positioned := by
  rcases loopNext_cases positioned iterator with
    same | ⟨pos, moved, found, inside, within, result, next⟩
  · rw [same]
    exact positioned
  · rw [result]
    intro pos member
    rcases mem_or_eq_of_mem_set member with old | rfl
    · exact positioned pos old
    · rw [length_window] at within
      exact Nat.lt_of_lt_of_le within (Nat.le_max_right _ _)

theorem getOrCreate_iterators : (list.getOrCreate clrThreadId).2.iterators = list.iterators := by
  rcases getOrCreate_cases list clrThreadId with ⟨info, -, result⟩ | ⟨-, result⟩
  · rw [result]
  · rw [result]
    rfl

theorem getOrCreate_length :
    list.threads.length ≤ (list.getOrCreate clrThreadId).2.threads.length ∧
      (list.getOrCreate clrThreadId).2.threads.length ≤ list.threads.length + 1 := by
  rcases getOrCreate_cases list clrThreadId with ⟨info, -, result⟩ | ⟨-, result⟩ <;> rw [result]
  · simp
  · simp [add, makeInfo]

theorem Positioned.step (positioned : list.Positioned) (taken : system.step list event after) :
    after.Positioned := by
  have result : list.next event = some after := taken
  cases event with
  | makeInfo info =>
    cases result
    exact positioned
  | getOrCreate clrThreadId | setThreadOsInfo clrThreadId osThreadId osThreadHandle =>
    cases result
    exact positioned.grow getOrCreate_iterators getOrCreate_length.1
  | registerThread info =>
    rcases ite_none_right_eq_some.mp result with ⟨-, ⟨⟩⟩
    rcases registerThread_cases list info with same | ⟨-, added⟩
    · rwa [same]
    · rw [added]
      exact positioned.grow rfl (by simp [add])
  | unregisterThread clrThreadId =>
    cases result
    rcases unregisterThread_cases list clrThreadId with
      same | ⟨before, info, behind, -, -, removed⟩
    · rwa [same]
    · rw [removed]
      have unmoved : (list.erase before info behind).iterators = list.iterators := rfl
      exact positioned.updateIterators unmoved _
  | createIterator =>
    cases result
    intro pos member
    rcases mem_append.mp member with old | new
    · exact positioned pos old
    · cases mem_singleton.mp new
      exact Nat.lt_of_lt_of_le Nat.zero_lt_one (Nat.le_max_left _ _)
  | loopNext iterator =>
    cases result
    exact positioned.loopNext iterator

theorem positioned_of_run (run : system.Run .empty events list) : list.Positioned :=
  run.invariant Positioned (fun _ member => absurd member not_mem_nil)
    fun _ _ _ => Positioned.step

/-! ## Removals -/

def Few (list : ManagedThreadList) : Prop := list.threads.length ≤ 2 ^ 32

theorem Few.order_eq (few : list.Few) : list.order pos = list.threads.rotate pos := by
  rw [order, window, take_of_length_le few]

theorem rotate_updateIterator (inside : pos < (left ++ info :: right).length) :
    ∃ before behind, (left ++ info :: right).rotate pos = before ++ info :: behind ∧
      (left ++ right).rotate (updateIterator left.length (left ++ right).length pos) =
        before ++ behind := by
  rw [length_append, length_cons] at inside
  rw [length_append]
  rcases Nat.lt_or_ge left.length pos with earlier | later
  · obtain ⟨distance, rfl⟩ := Nat.exists_eq_add_of_lt earlier
    have within : distance < right.length := by omega
    have moved : updateIterator left.length (left.length + right.length)
        (left.length + distance + 1) = left.length + distance := by
      simp only [updateIterator]
      split <;> split <;> omega
    rw [moved]
    exact rotate_erase_before within.le
  · rcases Nat.lt_or_ge pos (left.length + right.length) with within | past
    · have unmoved : updateIterator left.length (left.length + right.length) pos = pos := by
        simp only [updateIterator]
        split <;> split <;> omega
      rw [unmoved]
      exact rotate_erase_behind later
    · -- The iterator stood at the last thread and that one goes.
      have reset : updateIterator left.length (left.length + right.length) pos = 0 := by
        simp only [updateIterator, if_neg (Nat.not_lt.mpr later), if_pos past]
      have whole : pos = (left ++ right).length := by
        rw [length_append]
        omega
      rw [reset, rotate_zero, ← rotate_length (l := left ++ right), ← whole]
      exact rotate_erase_behind later

/--
The removal of a thread takes it out of the order of every iterator, and an iterator which would
not have returned that thread returns the same as without the removal.
-/
def Undisturbed (list : ManagedThreadList) (clrThreadId : Nat) : Prop :=
  ∀ removed after, list.unregisterThread clrThreadId = (some removed, after) →
    ∀ iterator pos, list.iterators[iterator]? = some pos →
      (∃ moved before behind, after.iterators[iterator]? = some moved ∧
        list.threads.rotate pos = before ++ removed :: behind ∧
        after.threads.rotate moved = before ++ behind) ∧
      ((list.loopNext iterator).1 ≠ some removed →
        (after.loopNext iterator).1 = (list.loopNext iterator).1)

/--
If the removed thread comes up last for an iterator, then the thread before it is not the only
one which the iterator could return.
-/
def Spare (list : ManagedThreadList) (clrThreadId : Nat) : Prop :=
  ∀ pos ∈ list.iterators,
    (∃ last ∈ (list.threads.rotate pos).getLast?, list.clrThreadId last = clrThreadId) →
      (list.threads.rotate pos).dropLast.dropLast.any list.hasValidHandle =
        (list.threads.rotate pos).dropLast.any list.hasValidHandle

theorem Few.length_left (few : list.Few) (threads : list.threads = left ++ info :: right) :
    left.length < 2 ^ 32 := by
  have bound : list.threads.length ≤ 2 ^ 32 := few
  rw [threads, length_append, length_cons] at bound
  omega

theorem Few.erase (few : list.Few) (threads : list.threads = left ++ info :: right) :
    ((list.erase left info right).updateIterators left.length).Few := by
  have bound : list.threads.length ≤ 2 ^ 32 := few
  simp only [threads, length_append, length_cons] at bound
  simp only [Few, ManagedThreadList.erase, updateIterators, length_append]
  omega

theorem order_updateIterators (few : list.Few) (positioned : list.Positioned)
    (threads : list.threads = left ++ info :: right)
    (found : list.iterators[iterator]? = some pos) :
    ∃ moved before behind,
      ((list.erase left info right).updateIterators left.length).iterators[iterator]? = some moved ∧
      list.order pos = before ++ info :: behind ∧
      ((list.erase left info right).updateIterators left.length).order moved =
        before ++ behind := by
  have within : pos < (left ++ info :: right).length := by
    rw [← threads]
    exact Nat.lt_of_lt_of_le (positioned.inside found (by simp [threads])) (length_take_le' _ _)
  rcases rotate_updateIterator within with ⟨before, behind, orderBefore, orderAfter⟩
  refine ⟨updateIterator left.length (left ++ right).length pos, before, behind, ?_, ?_, ?_⟩
  · simp only [updateIterators, erase, getElem?_map, found, map_some]
  · rw [few.order_eq, threads, orderBefore]
  · rw [(few.erase threads).order_eq]
    exact orderAfter

theorem loopNext_of_nil (empty : list.threads = []) : (list.loopNext iterator).1 = none := by
  simp [loopNext, empty]

theorem loopNext_updateIterators (few : list.Few) (positioned : list.Positioned)
    (threads : list.threads = left ++ info :: right)
    (found : list.iterators[iterator]? = some pos)
    (another : (list.loopNext iterator).1 ≠ some info)
    (spare : (∃ last ∈ (list.order pos).getLast?, last = info) →
      (list.order pos).dropLast.dropLast.any list.hasValidHandle =
        (list.order pos).dropLast.any list.hasValidHandle) :
    (((list.erase left info right).updateIterators left.length).loopNext iterator).1 =
      (list.loopNext iterator).1 := by
  have inside := positioned.inside found (by simp [threads])
  have positionedAfter : ((list.erase left info right).updateIterators left.length).Positioned := by
    have unmoved : (list.erase left info right).iterators = list.iterators := rfl
    exact positioned.updateIterators unmoved _
  rcases order_updateIterators few positioned threads found with
    ⟨moved, before, behind, foundAfter, orderBefore, orderAfter⟩
  rcases loopNext_spec found inside with ⟨turned, -, -, next⟩
  rw [orderBefore] at next spare
  by_cases empty : left ++ right = []
  · have length : (before ++ info :: behind).length = 1 := by
      rw [← orderBefore, few.order_eq, length_rotate, threads]
      rcases append_eq_nil_iff.mp empty with ⟨rfl, rfl⟩
      rfl
    have alone : before = [] ∧ behind = [] := by
      rw [length_append, length_cons] at length
      exact ⟨eq_nil_of_length_eq_zero (by omega), eq_nil_of_length_eq_zero (by omega)⟩
    rw [next.answer_eq, alone.1, alone.2]
    exact loopNext_of_nil empty
  · rcases loopNext_spec foundAfter (positionedAfter.inside foundAfter empty) with
      ⟨turnedAfter, -, -, nextAfter⟩
    rw [orderAfter] at nextAfter
    refine next.answer_erase nextAfter another ?_
    rintro rfl
    simpa using spare ⟨info, by simp, rfl⟩

theorem undisturbed_of_spare (few : list.Few) (positioned : list.Positioned)
    (spare : list.Spare clrThreadId) : list.Undisturbed clrThreadId := by
  intro removed after unregistered iterator pos found
  rcases unregisterThread_cases list clrThreadId with
    same | ⟨left, info, right, threads, key, result⟩
  · rw [same] at unregistered
    cases unregistered
  · rw [result, Nat.mod_eq_of_lt (few.length_left threads)] at unregistered
    cases unregistered
    constructor
    · rcases order_updateIterators few positioned threads found with
        ⟨moved, before, behind, foundAfter, orderBefore, orderAfter⟩
      rw [few.order_eq] at orderBefore
      rw [(few.erase threads).order_eq] at orderAfter
      exact ⟨moved, before, behind, foundAfter, orderBefore, orderAfter⟩
    · intro another
      apply loopNext_updateIterators few positioned threads found another
      rintro ⟨last, member, rfl⟩
      rw [few.order_eq] at member ⊢
      exact spare pos (mem_of_getElem? found) ⟨last, member, key⟩

/-! ## Rounds -/

def answers (list : ManagedThreadList) (iterator : Nat) : List Nat → List (Option Info)
  | [] => []
  | called :: calls =>
    let (answer, list) := list.loopNext called
    if called = iterator then answer :: list.answers iterator calls
    else list.answers iterator calls

structure Steady (list : ManagedThreadList) : Prop where
  positioned : list.Positioned
  few : list.Few
  two : 2 ≤ list.threads.length
  valid : ∀ info ∈ list.threads, list.hasValidHandle info = true

theorem Steady.loopNext (steady : list.Steady) (iterator : Nat) :
    (list.loopNext iterator).2.Steady := by
  have positioned := steady.positioned.loopNext iterator
  rcases loopNext_cases steady.positioned iterator with
    same | ⟨pos, moved, -, -, -, result, -⟩
  · rwa [same]
  · rw [result] at positioned ⊢
    exact ⟨positioned, steady.few, steady.two, steady.valid⟩

theorem Steady.loopNext_eq (steady : list.Steady) (found : list.iterators[iterator]? = some pos) :
    ∃ moved first rest, (list.loopNext iterator).1 = some first ∧
      (list.loopNext iterator).2 = { list with iterators := list.iterators.set iterator moved } ∧
      list.order pos = first :: rest ∧ list.order moved = rest ++ [first] := by
  have two := steady.two
  have nonempty : list.threads ≠ [] := ne_nil_of_length_pos (by omega)
  have length : (list.order pos).length = list.threads.length := by
    rw [steady.few.order_eq, length_rotate]
  have valid : ∀ info ∈ list.order pos, list.hasValidHandle info = true := fun info member =>
    steady.valid info (mem_threads_of_mem_order member)
  rcases loopNext_spec found (steady.positioned.inside found nonempty) with
    ⟨moved, -, result, next⟩
  generalize list.order pos = before, (list.loopNext iterator).1 = answer,
    turned : list.order moved = behind at next length valid
  cases next with
  | @found passed rest item invalid accepted more =>
    cases passed with
    | nil => exact ⟨moved, item, rest, rfl, result, rfl, turned⟩
    | cons other passed => simp [invalid other (by simp)] at valid
  | @missed passed last invalid =>
    cases passed with
    | nil =>
      simp only [nil_append, length_singleton] at length
      omega
    | cons other passed => simp [invalid other (by simp)] at valid

theorem getElem_iterators_loopNext (positioned : list.Positioned) (different : other ≠ iterator) :
    (list.loopNext other).2.iterators[iterator]? = list.iterators[iterator]? := by
  rcases loopNext_cases positioned other with same | ⟨pos, moved, -, -, -, result, -⟩
  · rw [same]
  · rw [result]
    exact getElem?_set_ne different

theorem order_loopNext (positioned : list.Positioned) :
    (list.loopNext iterator).2.order pos = list.order pos := by
  rcases loopNext_cases positioned iterator with same | ⟨pos, moved, -, -, -, result, -⟩
  · rw [same]
  · rw [result]
    rfl

theorem Steady.answers_eq (steady : list.Steady) (found : list.iterators[iterator]? = some pos)
    (bound : calls.count iterator ≤ list.threads.length) :
    list.answers iterator calls = ((list.order pos).take (calls.count iterator)).map some := by
  induction calls generalizing list pos with
  | nil => rfl
  | cons called calls ih =>
    have after := steady.loopNext called
    have threads : (list.loopNext called).2.threads = list.threads := by
      rcases loopNext_cases steady.positioned called with same | ⟨_, _, -, -, -, result, -⟩
      · rw [same]
      · rw [result]
    simp only [answers]
    by_cases same : called = iterator
    · subst called
      rcases steady.loopNext_eq found with ⟨moved, first, rest, answer, result, before, behind⟩
      have size : rest.length + 1 = list.threads.length := by
        rw [← length_cons, ← before, steady.few.order_eq, length_rotate]
      have foundAfter : (list.loopNext iterator).2.iterators[iterator]? = some moved := by
        rw [result]
        exact List.getElem?_set_self (List.getElem?_eq_some_iff.mp found).1
      rw [count_cons_self] at bound ⊢
      rw [if_pos rfl, answer, ih after foundAfter (by rw [threads]; omega),
        order_loopNext steady.positioned, before, behind, take_succ_cons,
        take_append_of_le_length (by omega), map_cons]
    · rw [count_cons_of_ne same] at bound ⊢
      rw [if_neg same, ih after _ (by rw [threads]; exact bound), order_loopNext steady.positioned]
      rw [getElem_iterators_loopNext steady.positioned same, found]

/-- As many calls as there are threads return every thread once. -/
def GoesRound (list : ManagedThreadList) : Prop :=
  2 ≤ list.threads.length → (∀ info ∈ list.threads, list.hasValidHandle info = true) →
    ∀ iterator < list.iterators.length, ∀ calls : List Nat,
      calls.count iterator = list.threads.length →
        (list.answers iterator calls).Perm (list.threads.map some)

theorem goesRound (positioned : list.Positioned) (few : list.Few) : list.GoesRound := by
  intro two valid iterator known calls count
  have steady : list.Steady := ⟨positioned, few, two, valid⟩
  rw [steady.answers_eq (getElem?_eq_getElem known) count.le, count, few.order_eq,
    take_of_length_le (by rw [length_rotate])]
  exact (rotate_perm _ _).map some

/-! ## Whole runs -/

instance (list : ManagedThreadList) (clrThreadId : Nat) : Decidable (list.Spare clrThreadId) :=
  inferInstanceAs (Decidable (∀ pos ∈ list.iterators, _ → _ = _))

/-- Positions reach every thread, and a removal leaves iterators something to return. -/
def Calm (list : ManagedThreadList) : Event → Prop
  | .unregisterThread clrThreadId =>
    list.threads.length < 2 ^ 32 ∧ list.Spare clrThreadId
  | .makeInfo _ | .getOrCreate _ | .registerThread _ | .setThreadOsInfo .. | .createIterator
  | .loopNext _ => list.threads.length < 2 ^ 32

instance (list : ManagedThreadList) : ∀ event, Decidable (list.Calm event)
  | .unregisterThread _ => inferInstanceAs (Decidable (_ ∧ _))
  | .makeInfo _ | .getOrCreate _ | .registerThread _ | .setThreadOsInfo .. | .createIterator
  | .loopNext _ => inferInstanceAs (Decidable (_ < _))

theorem Calm.length_lt (calm : list.Calm event) : list.threads.length < 2 ^ 32 := by
  cases event with
  | unregisterThread clrThreadId => exact calm.1
  | _ => exact calm

/-- No step forgets an object, and none adds more than one thread to the list. -/
structure Grown (list after : ManagedThreadList) : Prop where
  made : list.made ≤ after.made
  size : after.threads.length ≤ list.threads.length + 1

theorem Grown.same (made : after.made = list.made) (threads : after.threads = list.threads) :
    Grown list after :=
  ⟨made.ge, threads ▸ Nat.le_succ _⟩

theorem grown_getOrCreate (list : ManagedThreadList) (clrThreadId : Nat) :
    Grown list (list.getOrCreate clrThreadId).2 := by
  refine ⟨?_, getOrCreate_length.2⟩
  rcases getOrCreate_cases list clrThreadId with ⟨info, -, result⟩ | ⟨-, result⟩
  · rw [result]
  · rw [result]
    exact Nat.le_succ _

theorem grown_of_next (taken : list.next event = some after) : Grown list after := by
  cases event with
  | makeInfo info =>
    cases taken
    exact ⟨Nat.le_succ _, Nat.le_succ _⟩
  | getOrCreate clrThreadId =>
    cases taken
    exact grown_getOrCreate list clrThreadId
  | registerThread info =>
    rcases ite_none_right_eq_some.mp taken with ⟨-, ⟨⟩⟩
    rcases registerThread_cases list info with same | ⟨-, added⟩
    · rw [same]
      exact .same rfl rfl
    · rw [added]
      exact ⟨le_rfl, by simp [add]⟩
  | setThreadOsInfo clrThreadId osThreadId osThreadHandle =>
    cases taken
    -- Only the entry of the thread is written after it has been found or created.
    rcases grown_getOrCreate list clrThreadId with ⟨made, size⟩
    exact ⟨made, size⟩
  | unregisterThread clrThreadId =>
    cases taken
    rcases unregisterThread_cases list clrThreadId with
      same | ⟨before, info, behind, threads, -, removed⟩
    · rw [same]
      exact .same rfl rfl
    · rw [removed]
      refine ⟨le_rfl, ?_⟩
      simp only [erase, updateIterators, threads, length_append, length_cons]
      omega
  | createIterator =>
    cases taken
    exact .same rfl rfl
  | loopNext iterator =>
    cases taken
    rcases loopNext_eq list iterator with ⟨iterators, moved⟩
    rw [moved]
    exact .same rfl rfl

theorem few_of_calm (run : (system.restrict Calm).Run .empty events list) : list.Few := by
  refine run.invariant Few (Nat.zero_le _) ?_
  rintro list event after - ⟨calm, taken⟩
  exact (grown_of_next taken).size.trans calm.length_lt

theorem iterators_keep_their_place (run : (system.restrict Calm).Run .empty events list) :
    (∀ pos ∈ list.iterators, pos < list.threads.length ∨ list.threads = [] ∧ pos = 0) ∧
    (∀ clrThreadId, list.Calm (.unregisterThread clrThreadId) → list.Undisturbed clrThreadId) ∧
    list.GoesRound := by
  have positioned := positioned_of_run run.of_restrict
  have few := few_of_calm run
  refine ⟨?_, ?_, goesRound positioned few⟩
  · intro pos member
    have bound := positioned pos member
    rcases eq_nil_or_concat list.threads with none | ⟨front, last, threads⟩
    · right
      rw [none, length_nil] at bound
      exact ⟨none, by omega⟩
    · rw [threads, length_concat] at bound ⊢
      omega
  · intro clrThreadId calm
    exact undisturbed_of_spare few positioned calm.2

theorem removal_keeps_place :
    ∃ list, system.Run .empty [.createIterator, .setThreadOsInfo 1 1 1, .setThreadOsInfo 2 2 2,
        .setThreadOsInfo 3 3 3, .loopNext 0] list ∧
      list.iterators = [1] ∧ list.threads = [0, 1, 2] ∧ list.Undisturbed 3 ∧ list.GoesRound := by
  refine System.exists_run_of_restricted_exec Calm rfl (by decide +kernel) ?_
  intro run
  rcases iterators_keep_their_place run with ⟨-, undisturbed, round⟩
  exact ⟨rfl, rfl, undisturbed 3 (by decide +kernel), round⟩

/-- The second of two threads goes, and the first one, which was to come next, does not come. -/
theorem removal_hides_next_thread :
    ∃ list, system.Run .empty
        [.createIterator, .setThreadOsInfo 1 1 1, .setThreadOsInfo 2 2 2] list ∧
      (list.loopNext 0).1 = some 0 ∧ (list.unregisterThread 2).1 = some 1 ∧
      (list.unregisterThread 2).2.threads = [0] ∧
      ((list.unregisterThread 2).2.loopNext 0).1 = none :=
  ⟨_, System.run_of_exec rfl, rfl, rfl, rfl, rfl⟩

end Pyroscope.ThreadList.ManagedThreadList
