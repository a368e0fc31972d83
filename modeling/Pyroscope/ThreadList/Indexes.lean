import Mathlib.Algebra.Group.Nat.Defs
import Pyroscope.Lib.Carousel
import Pyroscope.Lib.Transition

/-!
# The list of managed threads

A sampler goes round the vector of threads with an iterator, which a removal has to move. The index
by the identifier of the operating system does not follow the vector.
-/

namespace Pyroscope.ThreadList

open Transition Function List

/-- A reference to a thread object: objects are numbered in the order in which they are made. -/
abbrev Info := Nat

structure ManagedThreadInfo where
  clrThreadId : Nat
  osThreadId : Nat
  osThreadHandle : Int
  deriving DecidableEq

namespace ManagedThreadInfo

def nullHandle : Int := 0

def invalidHandleValue : Int := -1

def make (clrThreadId : Nat) : ManagedThreadInfo where
  clrThreadId := clrThreadId
  osThreadId := 0
  osThreadHandle := nullHandle

def setOsInfo (info : ManagedThreadInfo) (osThreadId : Nat) (osThreadHandle : Int) :
    ManagedThreadInfo :=
  { info with osThreadId := osThreadId, osThreadHandle := osThreadHandle }

def hasValidHandle (info : ManagedThreadInfo) : Bool :=
  info.osThreadHandle ≠ nullHandle ∧ info.osThreadHandle ≠ invalidHandleValue

end ManagedThreadInfo

structure ManagedThreadList where
  infos : Info → ManagedThreadInfo
  made : Nat
  threads : List Info
  lookupByClrThreadId : Nat → Option Info
  lookupByOsThreadId : Nat → Option Info
  iterators : List Nat

namespace ManagedThreadList

def empty : ManagedThreadList where
  infos _ := .make 0
  made := 0
  threads := []
  lookupByClrThreadId _ := none
  lookupByOsThreadId _ := none
  iterators := []

def clrThreadId (list : ManagedThreadList) (info : Info) : Nat := (list.infos info).clrThreadId

def osThreadId (list : ManagedThreadList) (info : Info) : Nat := (list.infos info).osThreadId

def hasValidHandle (list : ManagedThreadList) (info : Info) : Bool :=
  (list.infos info).hasValidHandle

def count (list : ManagedThreadList) : Nat := list.threads.length % 2 ^ 32

def findByClrId (list : ManagedThreadList) (clrThreadId : Nat) : Option Info :=
  if list.threads.isEmpty then none else list.lookupByClrThreadId clrThreadId

def tryGetThreadInfo (list : ManagedThreadList) (osThreadId : Nat) : Option Info :=
  if list.threads.isEmpty then none else list.lookupByOsThreadId osThreadId

def makeInfo (list : ManagedThreadList) (info : ManagedThreadInfo) : ManagedThreadList :=
  { list with infos := update list.infos list.made info, made := list.made + 1 }

def add (list : ManagedThreadList) (info : Info) : ManagedThreadList :=
  { list with
    threads := list.threads ++ [info]
    lookupByClrThreadId :=
      update list.lookupByClrThreadId (list.clrThreadId info) (some info) }

def getOrCreate (list : ManagedThreadList) (clrThreadId : Nat) : Info × ManagedThreadList :=
  match list.findByClrId clrThreadId with
  | some info => (info, list)
  | none => (list.made, (list.makeInfo (.make clrThreadId)).add list.made)

def registerThread (list : ManagedThreadList) (info : Info) : Bool × ManagedThreadList :=
  match list.lookupByClrThreadId (list.clrThreadId info) with
  | some _ => (false, list)
  | none => (true, list.add info)

def setOsInfo (list : ManagedThreadList) (info : Info) (osThreadId : Nat) (osThreadHandle : Int) :
    ManagedThreadList :=
  { list with
    infos := update list.infos info ((list.infos info).setOsInfo osThreadId osThreadHandle)
    lookupByOsThreadId := update list.lookupByOsThreadId osThreadId (some info) }

def setThreadOsInfo (list : ManagedThreadList) (clrThreadId osThreadId : Nat)
    (osThreadHandle : Int) : ManagedThreadList :=
  let (info, list) := list.getOrCreate clrThreadId
  list.setOsInfo info osThreadId osThreadHandle

/-- The new position of an iterator after a removal, which leaves `size` threads. -/
def updateIterator (removalPos size pos : Nat) : Nat :=
  let pos := if removalPos < pos then pos - 1 else pos
  -- reset iterator if needed
  if pos ≥ size then 0 else pos

def updateIterators (list : ManagedThreadList) (removalPos : Nat) : ManagedThreadList :=
  { list with iterators := list.iterators.map (updateIterator removalPos list.threads.length) }

/-- Remove a thread, which stands between `before` and `after`, from the vector and the indexes. -/
def erase (list : ManagedThreadList) (before : List Info) (info : Info) (after : List Info) :
    ManagedThreadList :=
  { list with
    threads := before ++ after
    lookupByClrThreadId := update list.lookupByClrThreadId (list.clrThreadId info) none
    lookupByOsThreadId := update list.lookupByOsThreadId (list.osThreadId info) none }

def unregisterThread (list : ManagedThreadList) (clrThreadId : Nat) :
    Option Info × ManagedThreadList :=
  match list.threads.span (list.clrThreadId · ≠ clrThreadId) with
  | (_, []) => (none, list)
  | (before, info :: after) =>
    (some info, (list.erase before info after).updateIterators (before.length % 2 ^ 32))

def createIterator (list : ManagedThreadList) : Nat × ManagedThreadList :=
  (list.iterators.length % 2 ^ 32, { list with iterators := list.iterators ++ [0] })

def following (size pos : Nat) : Nat := (pos + 1) % 2 ^ 32 % size

/-- The loop of `LoopNext`: the last thread it has read and the position behind it. -/
def scan (list : ManagedThreadList) (startPos : Nat) : Nat → Nat → Option (Info × Nat)
  | 0, _ => none
  | fuel + 1, pos =>
    -- No thread can be read at a position outside of the vector.
    (list.threads[pos]?).bind fun info =>
      let pos := following list.threads.length pos
      if startPos ≠ pos ∧ !list.hasValidHandle info then list.scan startPos fuel pos
      else some (info, pos)

def loopNext (list : ManagedThreadList) (iterator : Nat) : Option Info × ManagedThreadList :=
  if list.threads.length = 0 then (none, list)
  else
    match list.iterators[iterator]? with
    | none => (none, list)
    | some startPos =>
      match list.scan startPos list.threads.length startPos with
      | none => (none, list)
      | some (info, pos) =>
        let moved := { list with iterators := list.iterators.set iterator pos }
        if startPos = pos then (none, moved) else (some info, moved)

inductive Event where
  | makeInfo (info : ManagedThreadInfo)
  | getOrCreate (clrThreadId : Nat)
  | registerThread (info : Info)
  | setThreadOsInfo (clrThreadId osThreadId : Nat) (osThreadHandle : Int)
  | unregisterThread (clrThreadId : Nat)
  | createIterator
  | loopNext (iterator : Nat)
  deriving DecidableEq

def next (list : ManagedThreadList) : Event → Option ManagedThreadList
  | .makeInfo info => some (list.makeInfo info)
  | .getOrCreate clrThreadId => some (list.getOrCreate clrThreadId).2
  | .registerThread info => if info < list.made then some (list.registerThread info).2 else none
  | .setThreadOsInfo clrThreadId osThreadId osThreadHandle =>
    some (list.setThreadOsInfo clrThreadId osThreadId osThreadHandle)
  | .unregisterThread clrThreadId => some (list.unregisterThread clrThreadId).2
  | .createIterator => some list.createIterator.2
  | .loopNext iterator => some (list.loopNext iterator).2

def system : System ManagedThreadList Event := .ofFunction .empty next

variable {list : ManagedThreadList}

theorem getOrCreate_cases (list : ManagedThreadList) (clrThreadId : Nat) :
    (∃ info, list.findByClrId clrThreadId = some info ∧
      list.getOrCreate clrThreadId = (info, list)) ∨
    list.findByClrId clrThreadId = none ∧
      list.getOrCreate clrThreadId =
        (list.made, (list.makeInfo (.make clrThreadId)).add list.made) := by
  simp only [getOrCreate]
  cases list.findByClrId clrThreadId with
  | some info => exact .inl ⟨info, rfl, rfl⟩
  | none => exact .inr ⟨rfl, rfl⟩

theorem registerThread_cases (list : ManagedThreadList) (info : Info) :
    (list.registerThread info).2 = list ∨
    list.lookupByClrThreadId (list.clrThreadId info) = none ∧
      (list.registerThread info).2 = list.add info := by
  simp only [registerThread]
  cases list.lookupByClrThreadId (list.clrThreadId info) with
  | some other => exact .inl rfl
  | none => exact .inr ⟨rfl, rfl⟩

theorem loopNext_eq (list : ManagedThreadList) (iterator : Nat) :
    ∃ iterators, (list.loopNext iterator).2 = { list with iterators := iterators } := by
  simp only [loopNext]
  repeat' split
  · exact ⟨list.iterators, rfl⟩
  · exact ⟨list.iterators, rfl⟩
  · exact ⟨list.iterators, rfl⟩
  · exact ⟨_, rfl⟩
  · exact ⟨_, rfl⟩

theorem unregisterThread_cases (list : ManagedThreadList) (clrThreadId : Nat) :
    list.unregisterThread clrThreadId = (none, list) ∨
    ∃ before info after, list.threads = before ++ info :: after ∧
      list.clrThreadId info = clrThreadId ∧
      list.unregisterThread clrThreadId =
        (some info, (list.erase before info after).updateIterators (before.length % 2 ^ 32)) := by
  simp only [unregisterThread]
  cases split : list.threads.span (list.clrThreadId · ≠ clrThreadId) with
  | mk before rest =>
    cases rest with
    | nil => exact .inl rfl
    | cons info after =>
      right
      rw [span_eq_takeWhile_dropWhile, Prod.mk.injEq] at split
      refine ⟨before, info, after, ?_, ?_, rfl⟩
      · rw [← split.1, ← split.2, takeWhile_append_dropWhile]
      · have stopped := head_dropWhile_not (list.clrThreadId · ≠ clrThreadId)
          (l := list.threads) (by rw [split.2]; nofun)
        simp only [split.2, head_cons] at stopped
        simpa using stopped

end ManagedThreadList


end Pyroscope.ThreadList

namespace Pyroscope.ThreadList.ManagedThreadList

/-! ## The vector and its two indexes -/

open Transition Function List Option

variable {list after : ManagedThreadList} {info other : Info} {data : ManagedThreadInfo}
  {clrThreadId osThreadId iterator removalPos : Nat} {osThreadHandle : Int}
  {left right : List Info} {events : List Event} {event : Event}

/-! ## The index by the runtime's identifier -/

/-- The index by CLR id finds the registered threads. -/
structure Registered (list : ManagedThreadList) : Prop where
  lookup : ∀ clrThreadId info, list.lookupByClrThreadId clrThreadId = some info ↔
    info ∈ list.threads ∧ list.clrThreadId info = clrThreadId
  made : ∀ info ∈ list.threads, info < list.made
  distinct : list.threads.Nodup

namespace Registered

theorem empty : ManagedThreadList.empty.Registered where
  lookup _ _ := by simp [ManagedThreadList.empty]
  made _ member := absurd member not_mem_nil
  distinct := nodup_nil

section

variable (registered : list.Registered)
include registered

theorem findByClrId_eq : list.findByClrId clrThreadId = list.lookupByClrThreadId clrThreadId := by
  simp only [findByClrId, List.isEmpty_iff]
  split
  case isTrue none =>
    symm
    rw [eq_none_iff_forall_ne_some]
    intro info found
    have member := ((registered.lookup _ _).mp found).1
    rw [none] at member
    exact absurd member List.not_mem_nil
  case isFalse => rfl

theorem notMem_of_lookup (free : list.lookupByClrThreadId (list.clrThreadId info) = none) :
    info ∉ list.threads := by
  intro member
  rw [(registered.lookup _ _).mpr ⟨member, rfl⟩] at free
  exact absurd free (some_ne_none _)

theorem info_ne_made (member : info ∈ list.threads) : info ≠ list.made :=
  (registered.made info member).ne

theorem infos_makeInfo (member : info ∈ list.threads) :
    (list.makeInfo data).infos info = list.infos info :=
  update_of_ne (registered.info_ne_made member) _ _

theorem makeInfo : (list.makeInfo data).Registered where
  lookup clrThreadId info := by
    refine (registered.lookup clrThreadId info).trans ?_
    apply and_congr_right
    intro member
    rw [ManagedThreadList.clrThreadId, ManagedThreadList.clrThreadId,
      registered.infos_makeInfo member]
  made info member := Nat.lt_succ_of_lt (registered.made info member)
  distinct := registered.distinct

theorem add (made : info < list.made)
    (free : list.lookupByClrThreadId (list.clrThreadId info) = none) :
    (list.add info).Registered where
  lookup clrThreadId other := by
    change update _ _ _ _ = _ ↔ other ∈ list.threads ++ [info] ∧
      list.clrThreadId other = clrThreadId
    rw [mem_append, mem_singleton]
    by_cases same : clrThreadId = list.clrThreadId info
    · subst clrThreadId
      rw [update_self, some.injEq]
      constructor
      · rintro rfl
        exact ⟨.inr rfl, rfl⟩
      · rintro ⟨member | rfl, same⟩
        · rw [← same] at free
          exact absurd member (registered.notMem_of_lookup free)
        · rfl
    · rw [update_of_ne same, registered.lookup]
      constructor
      · rintro ⟨member, key⟩
        exact ⟨.inl member, key⟩
      · rintro ⟨member | rfl, key⟩
        · exact ⟨member, key⟩
        · exact absurd key.symm same
  made other member := by
    rcases mem_append.mp member with old | new
    · exact registered.made other old
    · rw [mem_singleton.mp new]
      exact made
  distinct := by
    refine registered.distinct.append (nodup_singleton info) ?_
    rw [disjoint_singleton]
    exact registered.notMem_of_lookup free

theorem mem_others (threads : list.threads = left ++ info :: right) :
    other ∈ left ++ right ↔ other ∈ list.threads ∧ other ≠ info := by
  have distinct := registered.distinct
  rw [threads] at distinct ⊢
  have absent := (nodup_middle.mp distinct).notMem
  rw [mem_append, mem_append, mem_cons]
  rw [mem_append] at absent
  constructor
  · intro member
    refine ⟨by tauto, ?_⟩
    rintro rfl
    exact absent member
  · tauto

theorem erase (threads : list.threads = left ++ info :: right) :
    (list.erase left info right).Registered := by
  have distinct := registered.distinct
  rw [threads] at distinct
  refine ⟨?_, ?_, (nodup_middle.mp distinct).of_cons⟩
  · intro clrThreadId other
    change update _ _ _ _ = _ ↔ other ∈ left ++ right ∧ list.clrThreadId other = clrThreadId
    rw [registered.mem_others threads]
    by_cases same : clrThreadId = list.clrThreadId info
    · subst clrThreadId
      rw [update_self]
      constructor
      · nofun
      · rintro ⟨⟨member, different⟩, key⟩
        have found := (registered.lookup _ _).mpr ⟨member, key⟩
        rw [(registered.lookup _ _).mpr ⟨by simp [threads], rfl⟩, some.injEq] at found
        exact absurd found.symm different
    · rw [update_of_ne same, registered.lookup]
      constructor
      · rintro ⟨member, key⟩
        refine ⟨⟨member, ?_⟩, key⟩
        rintro rfl
        exact same key.symm
      · rintro ⟨⟨member, -⟩, key⟩
        exact ⟨member, key⟩
  · intro other member
    exact registered.made other ((registered.mem_others threads).mp member).1

theorem getOrCreate : (list.getOrCreate clrThreadId).2.Registered := by
  rcases getOrCreate_cases list clrThreadId with ⟨info, -, result⟩ | ⟨missing, result⟩
  · rwa [result]
  · rw [result]
    apply registered.makeInfo.add (Nat.lt_succ_self _)
    rw [registered.findByClrId_eq] at missing
    simpa [ManagedThreadList.clrThreadId, ManagedThreadList.makeInfo, ManagedThreadInfo.make]
      using missing

theorem mem_getOrCreate :
    (list.getOrCreate clrThreadId).1 ∈ (list.getOrCreate clrThreadId).2.threads := by
  rcases getOrCreate_cases list clrThreadId with ⟨info, found, result⟩ | ⟨missing, result⟩
  · rw [result]
    rw [registered.findByClrId_eq, registered.lookup] at found
    exact found.1
  · rw [result]
    simp [ManagedThreadList.add]

end

theorem clrThreadId_setOsInfo :
    (list.setOsInfo info osThreadId osThreadHandle).clrThreadId other = list.clrThreadId other := by
  simp only [ManagedThreadList.clrThreadId, ManagedThreadList.setOsInfo]
  by_cases same : other = info
  · rw [same, update_self]
    rfl
  · rw [update_of_ne same]

theorem setOsInfo (registered : list.Registered) :
    (list.setOsInfo info osThreadId osThreadHandle).Registered where
  lookup clrThreadId other := by
    rw [clrThreadId_setOsInfo]
    exact registered.lookup clrThreadId other
  made := registered.made
  distinct := registered.distinct

theorem withIterators (registered : list.Registered) (iterators : List Nat) :
    { list with iterators := iterators }.Registered :=
  ⟨registered.lookup, registered.made, registered.distinct⟩

theorem unregisterThread (registered : list.Registered) :
    (list.unregisterThread clrThreadId).2.Registered := by
  rcases unregisterThread_cases list clrThreadId with
    same | ⟨left, info, right, threads, -, removed⟩
  · rwa [same]
  · rw [removed]
    exact (registered.erase threads).withIterators _

theorem step (registered : list.Registered) (taken : system.step list event after) :
    after.Registered := by
  have result : list.next event = some after := taken
  cases event with
  | makeInfo data =>
    cases result
    exact registered.makeInfo
  | getOrCreate clrThreadId =>
    cases result
    exact registered.getOrCreate
  | registerThread info =>
    rcases ite_none_right_eq_some.mp result with ⟨made, ⟨⟩⟩
    rcases registerThread_cases list info with same | ⟨free, added⟩
    · rwa [same]
    · rw [added]
      exact registered.add made free
  | setThreadOsInfo clrThreadId osThreadId osThreadHandle =>
    cases result
    exact registered.getOrCreate.setOsInfo
  | unregisterThread clrThreadId =>
    cases result
    exact registered.unregisterThread
  | createIterator =>
    cases result
    exact registered.withIterators _
  | loopNext iterator =>
    cases result
    rcases loopNext_eq list iterator with ⟨iterators, moved⟩
    rw [moved]
    exact registered.withIterators iterators

end Registered

theorem registered_of_run (run : system.Run .empty events list) : list.Registered :=
  run.invariant Registered .empty fun _ _ _ => Registered.step

/-! ## The index by the identifier of the operating system -/

/-- The index by OS id finds the registered threads. -/
structure OsIndexed (list : ManagedThreadList) : Prop where
  sound : ∀ osThreadId info, osThreadId ≠ 0 → list.lookupByOsThreadId osThreadId = some info →
    info ∈ list.threads ∧ list.osThreadId info = osThreadId
  complete : ∀ info ∈ list.threads, list.osThreadId info ≠ 0 →
    list.lookupByOsThreadId (list.osThreadId info) ≠ none

namespace OsIndexed

theorem empty : ManagedThreadList.empty.OsIndexed where
  sound _ _ _ found := absurd found nofun
  complete _ member := absurd member not_mem_nil

theorem makeInfo (registered : list.Registered) (indexed : list.OsIndexed) :
    (list.makeInfo data).OsIndexed where
  sound osThreadId info known found := by
    rcases indexed.sound osThreadId info known found with ⟨member, key⟩
    refine ⟨member, ?_⟩
    rwa [ManagedThreadList.osThreadId, registered.infos_makeInfo member]
  complete info member := by
    rw [ManagedThreadList.osThreadId, registered.infos_makeInfo member]
    exact indexed.complete info member

theorem add (indexed : list.OsIndexed) (unknown : list.osThreadId info = 0) :
    (list.add info).OsIndexed where
  sound osThreadId other known found := by
    rcases indexed.sound osThreadId other known found with ⟨member, key⟩
    exact ⟨mem_append_left _ member, key⟩
  complete other member known := by
    rcases mem_append.mp member with old | new
    · exact indexed.complete other old known
    · rw [mem_singleton.mp new] at known
      exact absurd unknown known

theorem getOrCreate (registered : list.Registered) (indexed : list.OsIndexed) :
    (list.getOrCreate clrThreadId).2.OsIndexed := by
  rcases getOrCreate_cases list clrThreadId with ⟨info, -, result⟩ | ⟨-, result⟩
  · rwa [result]
  · rw [result]
    apply (indexed.makeInfo registered).add
    simp [ManagedThreadList.osThreadId, ManagedThreadList.makeInfo, ManagedThreadInfo.make]

theorem osThreadId_setOsInfo_self :
    (list.setOsInfo info osThreadId osThreadHandle).osThreadId info = osThreadId := by
  simp [ManagedThreadList.osThreadId, ManagedThreadList.setOsInfo, ManagedThreadInfo.setOsInfo]

theorem osThreadId_setOsInfo_of_ne (different : other ≠ info) :
    (list.setOsInfo info osThreadId osThreadHandle).osThreadId other = list.osThreadId other := by
  simp [ManagedThreadList.osThreadId, ManagedThreadList.setOsInfo, different]

theorem setOsInfo (indexed : list.OsIndexed) (member : info ∈ list.threads)
    (first : list.osThreadId info = 0 ∨ list.osThreadId info = osThreadId) :
    (list.setOsInfo info osThreadId osThreadHandle).OsIndexed where
  sound wanted other known found := by
    change update _ _ _ _ = _ at found
    by_cases same : wanted = osThreadId
    · subst wanted
      rw [update_self, some.injEq] at found
      subst other
      exact ⟨member, osThreadId_setOsInfo_self⟩
    · rw [update_of_ne same] at found
      rcases indexed.sound wanted other known found with ⟨registered, key⟩
      have different : other ≠ info := by
        rintro rfl
        rcases first with unknown | again
        · exact known (key.symm.trans unknown)
        · exact same (key.symm.trans again)
      exact ⟨registered, (osThreadId_setOsInfo_of_ne different).trans key⟩
  complete other registered known := by
    change update _ _ _ _ ≠ _
    by_cases same : (list.setOsInfo info osThreadId osThreadHandle).osThreadId other = osThreadId
    · rw [same, update_self]
      nofun
    · rw [update_of_ne same]
      have different : other ≠ info := by
        rintro rfl
        exact same osThreadId_setOsInfo_self
      rw [osThreadId_setOsInfo_of_ne different] at known ⊢
      exact indexed.complete other registered known

theorem setThreadOsInfo (registered : list.Registered) (indexed : list.OsIndexed)
    (first : ∀ info ∈ list.threads, list.clrThreadId info = clrThreadId →
      list.osThreadId info = 0 ∨ list.osThreadId info = osThreadId) :
    (list.setThreadOsInfo clrThreadId osThreadId osThreadHandle).OsIndexed := by
  apply (indexed.getOrCreate registered).setOsInfo registered.mem_getOrCreate
  rcases getOrCreate_cases list clrThreadId with ⟨info, found, result⟩ | ⟨-, result⟩
  · rw [registered.findByClrId_eq, registered.lookup] at found
    rw [result]
    exact first info found.1 found.2
  · left
    rw [result]
    simp [ManagedThreadList.osThreadId, ManagedThreadList.makeInfo, ManagedThreadList.add,
      ManagedThreadInfo.make]

theorem erase (registered : list.Registered) (indexed : list.OsIndexed)
    (threads : list.threads = left ++ info :: right)
    (own : ∀ other ∈ list.threads, other ≠ info → list.osThreadId other = list.osThreadId info →
      list.osThreadId info = 0) : (list.erase left info right).OsIndexed where
  sound wanted other known found := by
    change update _ _ _ _ = _ at found
    by_cases same : wanted = list.osThreadId info
    · rw [same, update_self] at found
      exact absurd found nofun
    · rw [update_of_ne same] at found
      rcases indexed.sound wanted other known found with ⟨member, key⟩
      have different : other ≠ info := by
        rintro rfl
        exact same key.symm
      exact ⟨(registered.mem_others threads).mpr ⟨member, different⟩, key⟩
  complete other member known := by
    rcases (registered.mem_others threads).mp member with ⟨old, different⟩
    have unlike : list.osThreadId other ≠ list.osThreadId info := by
      intro same
      exact known (same.trans (own other old different same))
    change update _ _ _ _ ≠ _
    have kept : (list.erase left info right).osThreadId other = list.osThreadId other := rfl
    rw [kept, update_of_ne unlike]
    exact indexed.complete other old known

theorem withIterators (indexed : list.OsIndexed) (iterators : List Nat) :
    { list with iterators := iterators }.OsIndexed :=
  ⟨indexed.sound, indexed.complete⟩

end OsIndexed

def GivenOnce (list : ManagedThreadList) : Event → Prop
  | .setThreadOsInfo clrThreadId osThreadId _ =>
    ∀ info ∈ list.threads, list.clrThreadId info = clrThreadId →
      list.osThreadId info = 0 ∨ list.osThreadId info = osThreadId
  | .registerThread info =>
    list.lookupByClrThreadId (list.clrThreadId info) = none → list.osThreadId info = 0
  | .unregisterThread clrThreadId =>
    ∀ info ∈ list.threads, list.clrThreadId info = clrThreadId →
      ∀ other ∈ list.threads, other ≠ info → list.osThreadId other = list.osThreadId info →
        list.osThreadId info = 0
  | .makeInfo _ | .getOrCreate _ | .createIterator | .loopNext _ => True

instance (list : ManagedThreadList) : ∀ event, Decidable (list.GivenOnce event)
  | .setThreadOsInfo .. => inferInstanceAs (Decidable (∀ info ∈ list.threads, _ → _ ∨ _))
  | .registerThread _ => inferInstanceAs (Decidable (_ = _ → _ = _))
  | .unregisterThread _ =>
    inferInstanceAs (Decidable (∀ info ∈ list.threads, _ → ∀ other ∈ list.threads, _ → _ → _))
  | .makeInfo _ | .getOrCreate _ | .createIterator | .loopNext _ =>
    inferInstanceAs (Decidable True)

theorem OsIndexed.step (registered : list.Registered) (indexed : list.OsIndexed)
    (once : list.GivenOnce event) (taken : system.step list event after) : after.OsIndexed := by
  have result : list.next event = some after := taken
  cases event with
  | makeInfo data =>
    cases result
    exact indexed.makeInfo registered
  | getOrCreate clrThreadId =>
    cases result
    exact indexed.getOrCreate registered
  | registerThread info =>
    rcases ite_none_right_eq_some.mp result with ⟨-, ⟨⟩⟩
    rcases registerThread_cases list info with same | ⟨free, added⟩
    · rwa [same]
    · rw [added]
      exact indexed.add (once free)
  | setThreadOsInfo clrThreadId osThreadId osThreadHandle =>
    cases result
    exact indexed.setThreadOsInfo registered once
  | unregisterThread clrThreadId =>
    cases result
    rcases unregisterThread_cases list clrThreadId with
      same | ⟨left, info, right, threads, key, removed⟩
    · rwa [same]
    · rw [removed]
      have member : info ∈ list.threads := by simp [threads]
      exact (indexed.erase registered threads (once info member key)).withIterators _
  | createIterator =>
    cases result
    exact indexed.withIterators _
  | loopNext iterator =>
    cases result
    rcases loopNext_eq list iterator with ⟨iterators, moved⟩
    rw [moved]
    exact indexed.withIterators iterators

theorem osIndexed_of_run (run : (system.restrict GivenOnce).Run .empty events list) :
    list.OsIndexed := by
  have both : list.Registered ∧ list.OsIndexed := by
    refine run.invariant (fun list => list.Registered ∧ list.OsIndexed) ⟨.empty, .empty⟩ ?_
    rintro list event after ⟨registered, indexed⟩ ⟨once, taken⟩
    exact ⟨registered.step taken, indexed.step registered once taken⟩
  exact both.2

/-- The index by the runtime's identifier finds exactly the registered threads. -/
def AgreesByClrThreadId (list : ManagedThreadList) : Prop :=
  ∀ clrThreadId info, list.findByClrId clrThreadId = some info ↔
    info ∈ list.threads ∧ list.clrThreadId info = clrThreadId

/-- A thread is found by the identifier which it has, and nothing is found otherwise. -/
def AgreesByOsThreadId (list : ManagedThreadList) : Prop :=
  ∀ osThreadId, osThreadId ≠ 0 →
    (∃ info, list.tryGetThreadInfo osThreadId = some info ∧ info ∈ list.threads ∧
      list.osThreadId info = osThreadId) ∨
    list.tryGetThreadInfo osThreadId = none ∧
      ∀ info ∈ list.threads, list.osThreadId info ≠ osThreadId

theorem Registered.agreesByClrThreadId (registered : list.Registered) :
    list.AgreesByClrThreadId := by
  intro clrThreadId info
  rw [registered.findByClrId_eq]
  exact registered.lookup clrThreadId info

theorem OsIndexed.agreesByOsThreadId (indexed : list.OsIndexed) : list.AgreesByOsThreadId := by
  intro osThreadId known
  by_cases empty : list.threads = []
  · right
    simp [tryGetThreadInfo, empty]
  · have unguarded : list.tryGetThreadInfo osThreadId = list.lookupByOsThreadId osThreadId := by
      simp [tryGetThreadInfo, empty]
    rw [unguarded]
    cases found : list.lookupByOsThreadId osThreadId with
    | some info => exact .inl ⟨info, rfl, indexed.sound osThreadId info known found⟩
    | none =>
      refine .inr ⟨rfl, ?_⟩
      rintro info member rfl
      exact indexed.complete info member known found

theorem indexes_agree (run : (system.restrict GivenOnce).Run .empty events list) :
    list.AgreesByClrThreadId ∧ list.AgreesByOsThreadId :=
  ⟨(registered_of_run run.of_restrict).agreesByClrThreadId,
    (osIndexed_of_run run).agreesByOsThreadId⟩

theorem reused_id_is_found :
    ∃ list, system.Run .empty [.setThreadOsInfo 1 7 1, .getOrCreate 2, .unregisterThread 1,
        .setThreadOsInfo 2 7 2] list ∧
      list.tryGetThreadInfo 7 = some 1 ∧ list.AgreesByClrThreadId ∧ list.AgreesByOsThreadId := by
  refine System.exists_run_of_restricted_exec GivenOnce rfl (by decide +kernel) ?_
  intro run
  exact ⟨rfl, indexes_agree run⟩

/--
A thread is found by an identifier which it had before, and a thread whose identifier was taken
over from one which left later is not found.
-/
theorem old_id_is_found :
    (∃ list, system.Run .empty [.setThreadOsInfo 1 7 1, .setThreadOsInfo 1 8 1] list ∧
      list.threads = [0] ∧ list.osThreadId 0 = 8 ∧ list.tryGetThreadInfo 7 = some 0) ∧
    ∃ list, system.Run .empty
        [.setThreadOsInfo 1 7 1, .setThreadOsInfo 2 7 2, .unregisterThread 1] list ∧
      list.threads = [1] ∧ list.osThreadId 1 = 7 ∧ list.tryGetThreadInfo 7 = none :=
  ⟨⟨_, System.run_of_exec rfl, rfl, rfl, rfl⟩, ⟨_, System.run_of_exec rfl, rfl, rfl, rfl⟩⟩

end Pyroscope.ThreadList.ManagedThreadList
