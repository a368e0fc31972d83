import Mathlib.Algebra.Group.Nat.Defs
import Pyroscope.Lib.SortedTable
import Pyroscope.Lib.Transition

/-!
# Module code ranges of the managed code cache

The sections of precompiled modules are kept sorted, and unloading only flags them. A lookup asks
only the last range which starts at or before the address.
-/

namespace Pyroscope.CodeCache

section

open Transition

structure ModuleCodeRange where
  startAddress : Nat
  endAddress : Nat
  isRemoved : Bool
  deriving DecidableEq

namespace ModuleCodeRange

def contains (range : ModuleCodeRange) (ip : Nat) : Bool :=
  range.startAddress ≤ ip && ip ≤ range.endAddress

def sameBounds (range other : ModuleCodeRange) : Bool :=
  range.startAddress == other.startAddress && range.endAddress == other.endAddress

end ModuleCodeRange

structure SectionHeader where
  characteristics : Nat
  virtualAddress : Nat
  virtualSize : Nat
  deriving DecidableEq

/-- What `GetModuleInfo2` reports about a module, and the headers at its load address. -/
structure ModuleImage where
  moduleFlags : Nat
  baseLoadAddress : Nat
  dosMagic : Nat
  ntSignature : Nat
  sections : List SectionHeader
  deriving DecidableEq

def corPrfModuleNgen : Nat := 0x2

def imageDosSignature : Nat := 0x5A4D

def imageNtSignature : Nat := 0x00004550

def imageScnMemExecute : Nat := 0x20000000

/-- `GetModuleCodeRanges`; `none` stands for a failed `GetModuleInfo2`. -/
def getModuleCodeRanges : Option ModuleImage → List ModuleCodeRange
  | none => []
  | some image =>
    if image.moduleFlags &&& corPrfModuleNgen ≠ corPrfModuleNgen then []
    else if image.dosMagic ≠ imageDosSignature then []
    else if image.ntSignature ≠ imageNtSignature then []
    else
      image.sections.filterMap fun header =>
        if header.characteristics &&& imageScnMemExecute ≠ 0 then
          let codeStart := (image.baseLoadAddress + header.virtualAddress) % 2 ^ 64
          let codeEnd := (codeStart + header.virtualSize + (2 ^ 64 - 1)) % 2 ^ 64
          some ⟨codeStart, codeEnd, false⟩
        else none

/-- `FindRange`: the last range which starts at or before the value is the only candidate. -/
def findRange (container : List ModuleCodeRange) (value : Nat) : Option ModuleCodeRange :=
  match (container.takeWhile fun range => range.startAddress ≤ value).getLast? with
  | none => none
  | some range => if range.contains value then some range else none

def isCodeInR2RModule (ownsLock : Bool) (modulesCodeRanges : List ModuleCodeRange) (ip : Nat) :
    Option Bool :=
  if !ownsLock then none
  else
    match findRange modulesCodeRanges ip with
    | none => some false
    | some range => if range.isRemoved then some false else some (range.contains ip)

/-- Insertion at `std::upper_bound`: behind every range which does not start later. -/
def insertRange (range : ModuleCodeRange) : List ModuleCodeRange → List ModuleCodeRange
  | [] => [range]
  | other :: rest =>
    if range.startAddress < other.startAddress then range :: other :: rest
    else other :: insertRange range rest

def addModuleRangesToCache (moduleCodeRanges modulesCodeRanges : List ModuleCodeRange) :
    List ModuleCodeRange :=
  moduleCodeRanges.foldl (fun recorded range => insertRange range recorded) modulesCodeRanges

def addModule (image : Option ModuleImage) (modulesCodeRanges : List ModuleCodeRange) :
    List ModuleCodeRange :=
  let moduleCodeRanges := getModuleCodeRanges image
  if moduleCodeRanges.isEmpty then modulesCodeRanges
  else addModuleRangesToCache moduleCodeRanges modulesCodeRanges

def flagFirst (range : ModuleCodeRange) : List ModuleCodeRange → List ModuleCodeRange
  | [] => []
  | other :: rest =>
    if other.sameBounds range then { other with isRemoved := true } :: rest
    else other :: flagFirst range rest

def removeModule (image : Option ModuleImage) (modulesCodeRanges : List ModuleCodeRange) :
    List ModuleCodeRange :=
  let moduleCodeRanges := getModuleCodeRanges image
  if moduleCodeRanges.isEmpty then modulesCodeRanges
  else moduleCodeRanges.foldl (fun recorded range => flagFirst range recorded) modulesCodeRanges

inductive Call where
  | addModule (moduleId : Nat) (image : Option ModuleImage)
  | removeModule (moduleId : Nat) (image : Option ModuleImage)

namespace Call

def moduleId : Call → Nat
  | .addModule moduleId _ => moduleId
  | .removeModule moduleId _ => moduleId

def ranges : Call → List ModuleCodeRange
  | .addModule _ image => getModuleCodeRanges image
  | .removeModule _ image => getModuleCodeRanges image

end Call

/-- The modules which have been added and not removed since, with their code ranges. -/
abbrev Loaded := List (Nat × List ModuleCodeRange)

variable (loaded : Loaded)

def Loaded.after : Call → Loaded
  | .addModule moduleId image =>
    (moduleId, getModuleCodeRanges image) :: loaded.filter fun entry => entry.1 != moduleId
  | .removeModule moduleId _ => loaded.filter fun entry => entry.1 != moduleId

/-- The address lies in a range of a loaded module. -/
def Covers (ip : Nat) : Prop :=
  ∃ entry ∈ loaded, ∃ range ∈ entry.2, range.contains ip = true

/-- A call which the runtime can make: the ranges of different modules are disjoint. -/
def Admissible (call : Call) : Prop :=
  ∀ entry ∈ loaded, entry.1 ≠ call.moduleId → ∀ range ∈ entry.2,
    ∀ other ∈ call.ranges, ∀ ip, ¬ (range.contains ip = true ∧ other.contains ip = true)

/-- The call reads the ranges of a loaded module as they were when it was added. The runtime does
not promise this: the identifier of an unloaded module is no longer valid. -/
def Stable (call : Call) : Prop :=
  ∀ entry ∈ loaded, entry.1 = call.moduleId → entry.2 = call.ranges

structure State where
  modulesCodeRanges : List ModuleCodeRange
  loaded : Loaded

def step (state : State) (call : Call) : State where
  modulesCodeRanges :=
    match call with
    | .addModule _ image => addModule image state.modulesCodeRanges
    | .removeModule _ image => removeModule image state.modulesCodeRanges
  loaded := state.loaded.after call

def system : System State Call where
  init := ⟨[], []⟩
  step state call next := Admissible state.loaded call ∧ next = step state call

/-- Code is found exactly in the loaded modules. -/
def Exact (state : State) : Prop :=
  ∀ ip, isCodeInR2RModule true state.modulesCodeRanges ip = some true ↔ Covers state.loaded ip

end

/-! ## When the module lookup is exact -/

open Transition ModuleCodeRange Prod

/-- Nothing recorded starts inside the new range, which starts inside no live one. -/
structure FitsIn (range : ModuleCodeRange) (recorded : List ModuleCodeRange) : Prop where
  nothingInside : ∀ other ∈ recorded,
    ¬ (range.startAddress < other.startAddress ∧ other.startAddress ≤ range.endAddress)
  outside : ∀ other ∈ recorded, other.isRemoved = false → other.contains range.startAddress = false

def Fit : List ModuleCodeRange → List ModuleCodeRange → Prop
  | [], _ => True
  | range :: rest, recorded => FitsIn range recorded ∧ Fit rest (insertRange range recorded)

/--
A module is added where no recorded range is in the way, and a loaded module is
removed only if no flagged range has the bounds of one of its ranges.
-/
def Clear (state : State) : Call → Prop
  | .addModule _ image => Fit (getModuleCodeRanges image) state.modulesCodeRanges
  | .removeModule moduleId image => moduleId ∈ state.loaded.map fst →
      ∀ range ∈ getModuleCodeRanges image, range.startAddress ≤ range.endAddress →
        ∀ other ∈ state.modulesCodeRanges, other.sameBounds range = true → other.isRemoved = false

/-- Calls under which the lookup stays exact. -/
structure Undisturbed (state : State) (call : Call) : Prop where
  stable : Stable state.loaded call
  clear : Clear state call

/-- The order on which the search relies. -/
def Follows (first second : ModuleCodeRange) : Prop :=
  first.startAddress ≤ second.startAddress ∧
    (first.isRemoved = false → first.startAddress ≤ first.endAddress →
      first.endAddress < second.startAddress)

def Live (loaded : Loaded) (first last : Nat) : Prop :=
  ∃ entry ∈ loaded, ∃ range ∈ entry.2, range.startAddress = first ∧ range.endAddress = last

/-- The ranges not marked as removed are the live ones. -/
structure Tracks (recorded : List ModuleCodeRange) (live : Nat → Nat → Prop) : Prop where
  ordered : recorded.Pairwise Follows
  live_iff : ∀ first last, first ≤ last → (⟨first, last, false⟩ ∈ recorded ↔ live first last)

theorem tracks_nothing : Tracks [] (Live []) := by
  refine ⟨List.Pairwise.nil, fun _ _ _ => ?_⟩
  constructor
  · intro mem
    cases mem
  · rintro ⟨_, mem, _⟩
    cases mem

theorem addModule_eq (image : Option ModuleImage) (recorded : List ModuleCodeRange) :
    addModule image recorded = addModuleRangesToCache (getModuleCodeRanges image) recorded := by
  unfold addModule
  cases getModuleCodeRanges image <;> rfl

theorem removeModule_eq (image : Option ModuleImage) (recorded : List ModuleCodeRange) :
    removeModule image recorded = (getModuleCodeRanges image).foldl
      (fun recorded range => flagFirst range recorded) recorded := by
  unfold removeModule
  cases getModuleCodeRanges image <;> rfl

section Insertion

variable {range other : ModuleCodeRange} {recorded ranges : List ModuleCodeRange}
  {live : Nat → Nat → Prop}

theorem insertRange_eq : insertRange range recorded =
    SortedTable.insertAfter startAddress range recorded := by
  induction recorded with
  | nil => rfl
  | cons head rest ih => rw [insertRange, SortedTable.insertAfter, ih]

theorem pairwise_insertRange (ordered : recorded.Pairwise Follows)
    (fits : FitsIn range recorded) : (insertRange range recorded).Pairwise Follows := by
  rw [insertRange_eq]
  apply SortedTable.pairwise_insertAfter (ordered.imp And.left) ordered
  · intro other mem later
    have clear := fits.nothingInside other mem
    exact ⟨Nat.le_of_lt later, fun _ _ => by omega⟩
  · intro other mem notLater
    refine ⟨notLater, fun live _ => ?_⟩
    have clear := fits.outside other mem live
    simp only [contains, Bool.and_eq_false_iff, decide_eq_false_iff_not] at clear
    omega

theorem Tracks.insertRange (tracks : Tracks recorded live) (fits : FitsIn range recorded)
    (unflagged : range.isRemoved = false) :
    Tracks (insertRange range recorded) fun first last =>
      (range.startAddress = first ∧ range.endAddress = last) ∨ live first last where
  ordered := pairwise_insertRange tracks.ordered fits
  live_iff := by
    intro first last nonEmpty
    rw [insertRange_eq, SortedTable.mem_insertAfter, tracks.live_iff first last nonEmpty]
    apply or_congr_left
    cases range
    simp only at unflagged
    simp [unflagged, eq_comm]

theorem Tracks.addModuleRanges (tracks : Tracks recorded live) (fit : Fit ranges recorded)
    (unflagged : ∀ range ∈ ranges, range.isRemoved = false) :
    Tracks (addModuleRangesToCache ranges recorded) fun first last =>
      live first last ∨ ∃ range ∈ ranges, range.startAddress = first ∧ range.endAddress = last := by
  induction ranges generalizing recorded live with
  | nil => simpa [addModuleRangesToCache] using tracks
  | cons range rest ih =>
    have inserted := tracks.insertRange fit.1 (unflagged range (List.mem_cons_self ..))
    have added := ih inserted fit.2 fun other mem => unflagged other (List.mem_cons_of_mem _ mem)
    refine ⟨added.ordered, ?_⟩
    intro first last nonEmpty
    refine (added.live_iff first last nonEmpty).trans ?_
    simp only [List.mem_cons, exists_eq_or_imp]
    tauto

end Insertion

section Removal

variable {range other : ModuleCodeRange} {recorded ranges : List ModuleCodeRange}
variable {first last : Nat}

theorem startAddress_of_mem_flagFirst (mem : other ∈ flagFirst range recorded) :
    ∃ original ∈ recorded, other.startAddress = original.startAddress := by
  induction recorded with
  | nil => exact nomatch mem
  | cons head rest ih =>
    unfold flagFirst at mem
    split at mem
    · rcases List.mem_cons.mp mem with rfl | inRest
      · exact ⟨head, List.mem_cons_self .., rfl⟩
      · exact ⟨other, List.mem_cons_of_mem _ inRest, rfl⟩
    · rcases List.mem_cons.mp mem with rfl | inRest
      · exact ⟨other, List.mem_cons_self .., rfl⟩
      · rcases ih inRest with ⟨original, inside, sameStart⟩
        exact ⟨original, List.mem_cons_of_mem _ inside, sameStart⟩

theorem pairwise_flagFirst (ordered : recorded.Pairwise Follows) :
    (flagFirst range recorded).Pairwise Follows := by
  induction recorded with
  | nil => exact List.Pairwise.nil
  | cons head rest ih =>
    rcases List.pairwise_cons.mp ordered with ⟨headFirst, restOrdered⟩
    unfold flagFirst
    split
    · apply List.pairwise_cons.mpr ⟨_, restOrdered⟩
      intro other mem
      exact ⟨(headFirst other mem).1, fun unflagged => nomatch unflagged⟩
    · apply List.pairwise_cons.mpr ⟨_, ih restOrdered⟩
      intro other mem
      -- Following a range depends on the start address only, which a flag does not change.
      rcases startAddress_of_mem_flagFirst mem with ⟨original, inRest, sameStart⟩
      simpa only [Follows, sameStart] using headFirst original inRest

theorem mem_of_mem_flagFirst (mem : other ∈ flagFirst range recorded)
    (kept : other.isRemoved = false ∨ other.sameBounds range = false) : other ∈ recorded := by
  induction recorded with
  | nil => exact mem
  | cons head rest ih =>
    unfold flagFirst at mem
    split at mem
    · rename_i same
      rcases List.mem_cons.mp mem with rfl | inRest
      · rcases kept with unflagged | different
        · exact nomatch unflagged
        · exact absurd (different.symm.trans same) Bool.false_ne_true
      · exact List.mem_cons_of_mem _ inRest
    · rcases List.mem_cons.mp mem with rfl | inRest
      · exact List.mem_cons_self ..
      · exact List.mem_cons_of_mem _ (ih inRest)

theorem mem_flagFirst_of_mem (mem : other ∈ recorded) (different : other.sameBounds range = false) :
    other ∈ flagFirst range recorded := by
  induction recorded with
  | nil => exact mem
  | cons head rest ih =>
    unfold flagFirst
    split
    · rename_i same
      rcases List.mem_cons.mp mem with rfl | inRest
      · exact absurd (different.symm.trans same) Bool.false_ne_true
      · exact List.mem_cons_of_mem _ inRest
    · rcases List.mem_cons.mp mem with rfl | inRest
      · exact List.mem_cons_self ..
      · exact List.mem_cons_of_mem _ (ih inRest)

/-- No flagged range hides the recorded range with these bounds from `flagFirst`. -/
def Found (range : ModuleCodeRange) (recorded : List ModuleCodeRange) : Prop :=
  (∀ other ∈ recorded, other.sameBounds range = true → other.isRemoved = false) ∨
    ⟨range.startAddress, range.endAddress, false⟩ ∉ recorded

section

variable (ordered : recorded.Pairwise Follows) (nonEmpty : range.startAddress ≤ range.endAddress)
  (found : Found range recorded)
include ordered nonEmpty found

theorem not_mem_flagFirst :
    ⟨range.startAddress, range.endAddress, false⟩ ∉ flagFirst range recorded := by
  rcases found with unflagged | absent
  case inr => exact fun mem => absent (mem_of_mem_flagFirst mem (.inl rfl))
  induction recorded with
  | nil => exact List.not_mem_nil
  | cons head rest ih =>
    rcases List.pairwise_cons.mp ordered with ⟨headFirst, restOrdered⟩
    unfold flagFirst
    intro mem
    split at mem
    · rename_i same
      rcases List.mem_cons.mp mem with flagged | inRest
      · exact absurd (congrArg isRemoved flagged) Bool.false_ne_true
      · have behind : head.startAddress ≤ head.endAddress →
            head.endAddress < range.startAddress :=
          (headFirst _ inRest).2 (unflagged head (List.mem_cons_self ..) same)
        simp only [sameBounds, Bool.and_eq_true, beq_iff_eq] at same
        omega
    · rename_i different
      rcases List.mem_cons.mp mem with rfl | inRest
      · simp [sameBounds] at different
      · exact ih restOrdered (fun other inside => unflagged other (List.mem_cons_of_mem _ inside))
          inRest

theorem Found.flagFirst : Found range (flagFirst other recorded) := by
  by_cases same : range.sameBounds other = true
  · -- The range itself has just been flagged, so it is not recorded as live any more.
    simp only [sameBounds, Bool.and_eq_true, beq_iff_eq] at same
    have foundOther : Found other recorded := by
      simpa only [Found, sameBounds, same.1, same.2] using found
    have absent := not_mem_flagFirst ordered (by omega) foundOther
    exact .inr (by simpa only [same.1, same.2] using absent)
  · rcases found with unflagged | absent
    · refine .inl fun entry mem sameEntry => ?_
      refine unflagged entry (mem_of_mem_flagFirst mem (.inr ?_)) sameEntry
      simp only [sameBounds, Bool.and_eq_true, beq_iff_eq] at same sameEntry ⊢
      simpa [sameEntry.1, sameEntry.2] using same
    · exact .inr fun mem => absent (mem_of_mem_flagFirst mem (.inl rfl))

end

theorem mem_flagFirst_iff (ordered : recorded.Pairwise Follows) (nonEmpty : first ≤ last)
    (found : range.startAddress ≤ range.endAddress → Found range recorded) :
    ⟨first, last, false⟩ ∈ flagFirst range recorded ↔
      ⟨first, last, false⟩ ∈ recorded ∧
        ¬ (range.startAddress = first ∧ range.endAddress = last) := by
  constructor
  · intro mem
    refine ⟨mem_of_mem_flagFirst mem (.inl rfl), ?_⟩
    rintro ⟨rfl, rfl⟩
    exact not_mem_flagFirst ordered nonEmpty (found nonEmpty) mem
  · rintro ⟨mem, different⟩
    apply mem_flagFirst_of_mem mem
    simp only [sameBounds, Bool.and_eq_false_iff, beq_eq_false_iff_ne]
    omega

theorem Tracks.removeModuleRanges (tracks : Tracks recorded live)
    (found : ∀ range ∈ ranges, range.startAddress ≤ range.endAddress → Found range recorded) :
    Tracks (ranges.foldl (fun recorded range => flagFirst range recorded) recorded)
      fun first last => live first last ∧
        ¬ ∃ range ∈ ranges, range.startAddress = first ∧ range.endAddress = last := by
  induction ranges generalizing recorded live with
  | nil => simpa using tracks
  | cons range rest ih =>
    have flagged : Tracks (CodeCache.flagFirst range recorded) fun first last =>
        live first last ∧ ¬ (range.startAddress = first ∧ range.endAddress = last) := by
      refine ⟨pairwise_flagFirst tracks.ordered, fun first last nonEmpty => ?_⟩
      have isFound := found range (List.mem_cons_self ..)
      refine (mem_flagFirst_iff tracks.ordered nonEmpty isFound).trans ?_
      exact and_congr_left' (tracks.live_iff first last nonEmpty)
    have removed := ih flagged fun other mem nonEmpty =>
      (found other (List.mem_cons_of_mem _ mem) nonEmpty).flagFirst tracks.ordered nonEmpty
    refine ⟨removed.ordered, fun first last nonEmpty => ?_⟩
    refine (removed.live_iff first last nonEmpty).trans ?_
    simp only [List.mem_cons, exists_eq_or_imp, not_or, and_assoc]

end Removal

section Steps

variable {loaded : Loaded} {moduleId : Nat} {image : Option ModuleImage} {state : State}
  {range : ModuleCodeRange}

theorem unflagged_of_mem_getModuleCodeRanges (mem : range ∈ getModuleCodeRanges image) :
    range.isRemoved = false := by
  cases image with
  | none => exact nomatch mem
  | some image =>
    dsimp only [getModuleCodeRanges] at mem
    split at mem
    · exact nomatch mem
    split at mem
    · exact nomatch mem
    split at mem
    · exact nomatch mem
    rcases List.mem_filterMap.mp mem with ⟨header, _, produced⟩
    split at produced
    · cases produced
      rfl
    · exact nomatch produced

theorem contains_start (nonEmpty : range.startAddress ≤ range.endAddress) :
    range.contains range.startAddress = true := by
  simpa [contains] using nonEmpty

theorem live_after_addModule (stable : Stable loaded (.addModule moduleId image))
    (first last : Nat) :
    Live (loaded.after (.addModule moduleId image)) first last ↔
      Live loaded first last ∨ ∃ range ∈ getModuleCodeRanges image,
        range.startAddress = first ∧ range.endAddress = last := by
  constructor
  · rintro ⟨entry, mem, bounds⟩
    rcases List.mem_cons.mp mem with rfl | old
    · exact .inr bounds
    · exact .inl ⟨entry, List.mem_of_mem_filter old, bounds⟩
  · rintro (⟨entry, mem, bounds⟩ | bounds)
    · by_cases same : entry.1 = moduleId
      · refine ⟨(moduleId, getModuleCodeRanges image), List.mem_cons_self .., ?_⟩
        have kept : entry.2 = getModuleCodeRanges image := stable entry mem same
        exact kept ▸ bounds
      · refine ⟨entry, List.mem_cons_of_mem _ ?_, bounds⟩
        exact List.mem_filter.mpr ⟨mem, by simpa using same⟩
    · exact ⟨(moduleId, getModuleCodeRanges image), List.mem_cons_self .., bounds⟩

theorem live_after_removeModule (admissible : Admissible loaded (.removeModule moduleId image))
    (stable : Stable loaded (.removeModule moduleId image)) {first last : Nat}
    (nonEmpty : first ≤ last) :
    Live (loaded.after (.removeModule moduleId image)) first last ↔
      Live loaded first last ∧ ¬ ∃ range ∈ getModuleCodeRanges image,
        range.startAddress = first ∧ range.endAddress = last := by
  constructor
  · rintro ⟨entry, mem, range, inEntry, rfl, rfl⟩
    rcases List.mem_filter.mp mem with ⟨old, kept⟩
    have different : entry.1 ≠ moduleId := by simpa using kept
    refine ⟨⟨entry, old, range, inEntry, rfl, rfl⟩, ?_⟩
    rintro ⟨other, inImage, sameStart, sameEnd⟩
    apply admissible entry old different range inEntry other inImage range.startAddress
    refine ⟨contains_start nonEmpty, ?_⟩
    simpa [contains, sameStart, sameEnd] using nonEmpty
  · rintro ⟨⟨entry, mem, bounds⟩, absent⟩
    refine ⟨entry, List.mem_filter.mpr ⟨mem, ?_⟩, bounds⟩
    have different : entry.1 ≠ moduleId := by
      intro same
      have kept : entry.2 = getModuleCodeRanges image := stable entry mem same
      exact absent (kept ▸ bounds)
    simpa using different

theorem found_of_clear (tracks : Tracks state.modulesCodeRanges (Live state.loaded))
    (admissible : Admissible state.loaded (.removeModule moduleId image))
    (clear : Clear state (.removeModule moduleId image)) (range : ModuleCodeRange)
    (mem : range ∈ getModuleCodeRanges image) (nonEmpty : range.startAddress ≤ range.endAddress) :
    Found range state.modulesCodeRanges := by
  by_cases present : moduleId ∈ state.loaded.map fst
  · exact .inl (clear present range mem nonEmpty)
  · refine .inr fun recorded => ?_
    rcases (tracks.live_iff _ _ nonEmpty).mp recorded with
      ⟨entry, inLoaded, other, inEntry, sameStart, sameEnd⟩
    have different : entry.1 ≠ moduleId :=
      fun same => present (same ▸ List.mem_map_of_mem inLoaded)
    apply admissible entry inLoaded different other inEntry range mem range.startAddress
    refine ⟨?_, contains_start nonEmpty⟩
    simpa [contains, sameStart, sameEnd] using nonEmpty

theorem tracks_step {call : Call} (tracks : Tracks state.modulesCodeRanges (Live state.loaded))
    (admissible : Admissible state.loaded call) (undisturbed : Undisturbed state call) :
    Tracks (step state call).modulesCodeRanges (Live (step state call).loaded) := by
  cases call with
  | addModule moduleId image =>
    have added := tracks.addModuleRanges undisturbed.clear
      fun range mem => unflagged_of_mem_getModuleCodeRanges mem
    have live : Live (step state (.addModule moduleId image)).loaded = _ :=
      funext fun first => funext fun last =>
        propext (live_after_addModule undisturbed.stable first last)
    rw [live]
    simpa only [step, addModule_eq] using added
  | removeModule moduleId image =>
    have removed := tracks.removeModuleRanges (found_of_clear tracks admissible undisturbed.clear)
    refine ⟨by simpa only [step, removeModule_eq] using removed.ordered, ?_⟩
    intro first last nonEmpty
    refine Iff.trans ?_ (live_after_removeModule admissible undisturbed.stable nonEmpty).symm
    simpa only [step, removeModule_eq] using removed.live_iff first last nonEmpty

end Steps

section Lookup

variable {recorded : List ModuleCodeRange} {range : ModuleCodeRange} {ip : Nat}

theorem findRange_eq (ordered : recorded.Pairwise Follows) (mem : range ∈ recorded)
    (unflagged : range.isRemoved = false) (inside : range.contains ip = true) :
    findRange recorded ip = some range := by
  have bounds : range.startAddress ≤ ip ∧ ip ≤ range.endAddress := by
    simpa [contains] using inside
  have sorted : SortedTable.Sorted startAddress recorded := ordered.imp And.left
  rcases SortedTable.exists_lastUpTo sorted ordered mem bounds.1 with
    ⟨candidate, found, rfl | follows⟩
  · rw [SortedTable.lastUpTo] at found
    simp [findRange, found, inside]
  · have apart := follows.2 unflagged (Nat.le_trans bounds.1 bounds.2)
    have upTo := (SortedTable.mem_of_lastUpTo found).2
    omega

theorem mem_of_findRange (found : findRange recorded ip = some range) :
    range ∈ recorded ∧ range.contains ip = true := by
  unfold findRange at found
  split at found
  · exact nomatch found
  · rename_i candidate last
    rcases Option.ite_none_right_eq_some.mp found with ⟨inside, ⟨⟩⟩
    exact ⟨(SortedTable.mem_of_lastUpTo last).1, inside⟩

theorem isCodeInR2RModule_iff (ordered : recorded.Pairwise Follows) :
    isCodeInR2RModule true recorded ip = some true ↔
      ∃ range ∈ recorded, range.isRemoved = false ∧ range.contains ip = true := by
  constructor
  · intro answer
    simp only [isCodeInR2RModule, Bool.not_true, Bool.false_eq_true, if_false] at answer
    split at answer
    · exact nomatch answer
    · rename_i range found
      rcases mem_of_findRange found with ⟨mem, inside⟩
      refine ⟨range, mem, ?_, inside⟩
      cases flag : range.isRemoved with
      | false => rfl
      | true => simp [flag] at answer
  · rintro ⟨range, mem, unflagged, inside⟩
    simp [isCodeInR2RModule, findRange_eq ordered mem unflagged inside, unflagged, inside]

theorem exact_of_tracks (tracks : Tracks state.modulesCodeRanges (Live state.loaded)) :
    Exact state := by
  intro ip
  refine (isCodeInR2RModule_iff tracks.ordered).trans ?_
  constructor
  · rintro ⟨range, mem, unflagged, inside⟩
    have bounds : range.startAddress ≤ ip ∧ ip ≤ range.endAddress := by
      simpa [contains] using inside
    have recorded : ⟨range.startAddress, range.endAddress, false⟩ ∈ state.modulesCodeRanges := by
      simpa only [← unflagged] using mem
    rcases (tracks.live_iff _ _ (Nat.le_trans bounds.1 bounds.2)).mp recorded with
      ⟨entry, inLoaded, other, inEntry, sameStart, sameEnd⟩
    refine ⟨entry, inLoaded, other, inEntry, ?_⟩
    simpa [contains, sameStart, sameEnd] using bounds
  · rintro ⟨entry, inLoaded, range, inEntry, inside⟩
    have bounds : range.startAddress ≤ ip ∧ ip ≤ range.endAddress := by
      simpa [contains] using inside
    have recorded := (tracks.live_iff _ _ (Nat.le_trans bounds.1 bounds.2)).mpr
      ⟨entry, inLoaded, range, inEntry, rfl, rfl⟩
    exact ⟨_, recorded, rfl, inside⟩

end Lookup

/-- Along undisturbed runs the cache knows exactly the code of the loaded modules. -/
theorem lookup_exact {calls : List Call} {state : State}
    (run : (system.restrict Undisturbed).Run system.init calls state) : Exact state := by
  apply exact_of_tracks
  refine run.invariant (fun state => Tracks state.modulesCodeRanges (Live state.loaded)) ?_ ?_
  · exact tracks_nothing
  · rintro state call next tracks ⟨undisturbed, admissible, rfl⟩
    exact tracks_step tracks admissible undisturbed

def smallImage : ModuleImage where
  moduleFlags := corPrfModuleNgen
  baseLoadAddress := 0x1000
  dosMagic := imageDosSignature
  ntSignature := imageNtSignature
  sections := [⟨imageScnMemExecute, 0x100, 0x10⟩]

def smallRange : ModuleCodeRange := ⟨0x1100, 0x110F, false⟩

theorem admissible_of_alone {loaded : Loaded} {call : Call}
    (alone : ∀ entry ∈ loaded, entry.1 = call.moduleId) : Admissible loaded call :=
  fun entry mem different => absurd (alone entry mem) different

theorem lookup_exact_unloaded : Exact (step (step system.init (.addModule 1 (some smallImage)))
    (.removeModule 1 (some smallImage))) := by
  have fit : Fit [smallRange] [] := ⟨⟨nofun, nofun⟩, trivial⟩
  refine lookup_exact (.cons ⟨⟨nofun, ?_⟩, admissible_of_alone nofun, rfl⟩
    (.single ⟨⟨?_, ?_⟩, admissible_of_alone ?_, rfl⟩))
  · exact fit
  · exact fun entry mem _ => congrArg snd (List.mem_singleton.mp mem)
  · intro _ range _ _ other mem _
    have recorded : other ∈ [smallRange] := mem
    simp only [List.mem_singleton] at recorded
    exact recorded ▸ rfl
  · exact fun entry mem => congrArg fst (List.mem_singleton.mp mem)

def reloaded : List Call :=
  [.addModule 1 (some smallImage), .removeModule 1 (some smallImage),
    .addModule 1 (some smallImage), .removeModule 1 (some smallImage)]

theorem unloaded_module_still_found : ∃ state, system.Run system.init reloaded state ∧
    isCodeInR2RModule true state.modulesCodeRanges 0x1100 = some true ∧
      ¬ Covers state.loaded 0x1100 := by
  refine ⟨reloaded.foldl step system.init, ?_, by decide, ?_⟩
  · refine .cons ⟨admissible_of_alone nofun, rfl⟩ (.cons ⟨admissible_of_alone ?_, rfl⟩
      (.cons ⟨admissible_of_alone nofun, rfl⟩ (.single ⟨admissible_of_alone ?_, rfl⟩)))
    · exact fun entry mem => congrArg fst (List.mem_singleton.mp mem)
    · exact fun entry mem => congrArg fst (List.mem_singleton.mp mem)
  · rintro ⟨entry, mem, _⟩
    exact nomatch mem

end Pyroscope.CodeCache
