import Pyroscope.CodeCache.Lookup
import Pyroscope.Lib.Dictionary

/-!
# Function code ranges of the managed code cache

Nothing is ever taken out. A new range is found in all its addresses if no recorded one starts
inside it, and hides the ones which start before it.
-/

namespace Pyroscope.CodeCache

section

open Transition

structure CodeRange where
  startAddress : Nat
  endAddress : Nat
  functionId : Nat
  isDynamic : Bool
  deriving DecidableEq

variable (range : CodeRange)

def CodeRange.contains (ip : Nat) : Bool :=
  range.startAddress ≤ ip && ip ≤ range.endAddress

structure FunctionInfo where
  functionId : Nat
  isDynamic : Bool
  deriving DecidableEq

def CodeRange.info : FunctionInfo := ⟨range.functionId, range.isDynamic⟩

structure CodeInfo where
  startAddress : Nat
  size : Nat
  deriving DecidableEq

inductive Enumeration where
  | failed (insufficientBuffer : Bool) (count : Nat)
  | succeeded (count : Nat) (starts : List Nat)
  deriving DecidableEq

structure NativeCode where
  hasInfo9 : Bool
  /-- The first answer of `GetNativeCodeStartAddresses`, unless it fails. -/
  count : Option Nat
  enumerations : List Enumeration
  codeInfo4 : Nat → Option (List CodeInfo)
  codeInfo2 : Option (List CodeInfo)

def maxCodeInfos : Nat := 8

def maxEnumerationAttempts : Nat := 3

def appendRanges (info : FunctionInfo) (codeInfos : List CodeInfo) : List CodeRange :=
  (codeInfos.take maxCodeInfos).filterMap fun codeInfo =>
    if codeInfo.size ≠ 0 then
      some ⟨codeInfo.startAddress,
        (codeInfo.startAddress + codeInfo.size + (2 ^ 64 - 1)) % 2 ^ 64,
        info.functionId, info.isDynamic⟩
    else none

/-- The loop over the attempts: it goes on only if the buffer was too small. -/
def enumerateStarts : Nat → Nat → List Enumeration → Option (List Nat)
  | 0, _, _ => none
  | _, _, [] => none
  | attempts + 1, size, .failed insufficientBuffer count :: rest =>
    if insufficientBuffer && count > size then enumerateStarts attempts count rest else none
  | _, size, .succeeded count starts :: _ => some (starts.take (min count size))

def getCodeRanges (info : FunctionInfo) (code : NativeCode) : List CodeRange :=
  let starts :=
    match code.hasInfo9, code.count with
    | true, some count =>
      if count ≠ 0 then enumerateStarts maxEnumerationAttempts count code.enumerations else none
    | _, _ => none
  match starts with
  | some starts =>
    starts.flatMap fun start =>
      match code.codeInfo4 start with
      | some codeInfos => appendRanges info codeInfos
      | none => []
  | none =>
    match code.codeInfo2 with
    | some codeInfos => appendRanges info codeInfos
    | none => []

def pageShift : Nat := 16

def getPageNumber (address : Nat) : Nat := address / 2 ^ pageShift

abbrev PagesMap := Dictionary Nat (List CodeRange)

namespace PagesMap

def ranges (pagesMap : PagesMap) (page : Nat) : List CodeRange := (pagesMap.get page).getD []

end PagesMap

def findCodeRange (ranges : List CodeRange) (ip : Nat) : Option CodeRange :=
  match SortedTable.lastUpTo CodeRange.startAddress ip ranges with
  | none => none
  | some range => if range.contains ip then some range else none

/-- `InsertCodeRangeIntoPage` skips a range which is the same as the one before its place. -/
def insertCodeRange (ranges : List CodeRange) : List CodeRange :=
  if SortedTable.lastUpTo CodeRange.startAddress range.startAddress ranges = some range then ranges
  else SortedTable.insertAfter CodeRange.startAddress range ranges

def insertCodeRangeIntoPage (pagesMap : PagesMap) (page : Nat) : PagesMap :=
  pagesMap.set page (insertCodeRange range (pagesMap.ranges page))

def CodeRange.pages : List Nat :=
  List.range' (getPageNumber range.startAddress)
    (getPageNumber range.endAddress + 1 - getPageNumber range.startAddress)

def addRange (pagesMap : PagesMap) (range : CodeRange) : PagesMap :=
  range.pages.foldl (insertCodeRangeIntoPage range) pagesMap

def addFunctionRangesToCache (newRanges : List CodeRange) (pagesMap : PagesMap) : PagesMap :=
  newRanges.foldl addRange pagesMap

def addFunctionImpl (info : FunctionInfo) (code : NativeCode) (pagesMap : PagesMap) : PagesMap :=
  let ranges := getCodeRanges info code
  if ranges.isEmpty then pagesMap else addFunctionRangesToCache ranges pagesMap

def getFunctionInfoImpl (pagesMap : PagesMap) (ip : Nat) : Option FunctionInfo :=
  match pagesMap.get (getPageNumber ip) with
  | none => none
  | some ranges =>
    match findCodeRange ranges ip with
    | some range => some range.info
    | none => none

def isManagedImpl (ownsMapLock ownsPageLock ownsModuleLock : Bool) (pagesMap : PagesMap)
    (modulesCodeRanges : List ModuleCodeRange) (ip : Nat) : Option Bool :=
  if !ownsMapLock then none
  else
    match pagesMap.get (getPageNumber ip) with
    | none => isCodeInR2RModule ownsModuleLock modulesCodeRanges ip
    | some ranges =>
      if !ownsPageLock then none
      else
        match findCodeRange ranges ip with
        | some _ => some true
        | none => isCodeInR2RModule ownsModuleLock modulesCodeRanges ip

structure Registration where
  info : FunctionInfo
  ranges : List CodeRange
  deriving DecidableEq

namespace Registration

def has (registration : Registration) (ip : Nat) : Bool :=
  registration.ranges.any fun range => range.contains ip

end Registration

/-- The function which was registered last with code at an address, the last one coming first. -/
def newestFunction (registered : List Registration) (ip : Nat) : Option FunctionInfo :=
  (registered.find? fun registration => registration.has ip).map Registration.info

inductive CacheCall where
  | addFunction (info : FunctionInfo) (code : NativeCode)
  | module (call : Call)

/-- The whole cache, with the functions which were registered, the last one first. -/
structure Cache where
  pagesMap : PagesMap
  modules : State
  registered : List Registration

def Cache.after (cache : Cache) : CacheCall → Cache
  | .addFunction info code =>
    { cache with
      pagesMap := addFunctionImpl info code cache.pagesMap
      registered := ⟨info, getCodeRanges info code⟩ :: cache.registered }
  | .module call => { cache with modules := step cache.modules call }

def cacheSystem : System Cache CacheCall where
  init := ⟨.empty, system.init, []⟩
  step cache call next := next = cache.after call

end

/-! ## Lookups after code was replaced -/

open SortedTable Transition CodeRange Option

abbrev Owners := Nat → Option FunctionInfo

def Owners.overwrite (owners : Owners) (range : CodeRange) : Owners := fun ip =>
  if range.contains ip then some range.info else owners ip

/-- No recorded range starts inside the new one or goes on behind it, unless another one starts
right there. -/
structure FitsOn (page : Nat) (range : CodeRange) (ranges : List CodeRange) : Prop where
  ordered : range.startAddress ≤ range.endAddress
  nothingInside : ∀ other ∈ ranges,
    ¬(range.startAddress < other.startAddress ∧ other.startAddress ≤ range.endAddress)
  nothingBeyond : ∀ other ∈ ranges, other.startAddress ≤ range.startAddress →
    range.endAddress < other.endAddress → getPageNumber (range.endAddress + 1) = page →
    ∃ next ∈ ranges, next.startAddress = range.endAddress + 1

/-- The range overlaps no other range on any of its pages. -/
def FitsInto (pagesMap : PagesMap) (range : CodeRange) : Prop :=
  ∀ page ∈ range.pages, FitsOn page range (pagesMap.ranges page)

def FitsAll : List CodeRange → PagesMap → Prop
  | [], _ => True
  | range :: rest, pagesMap => FitsInto pagesMap range ∧ FitsAll rest (addRange pagesMap range)

/-- New code is in nobody's way, and modules are only added and removed as the lookup allows. -/
def Cache.Undisturbed (cache : Cache) : CacheCall → Prop
  | .addFunction info code => FitsAll (getCodeRanges info code) cache.pagesMap
  | .module call =>
    Admissible cache.modules.loaded call ∧ CodeCache.Undisturbed cache.modules call

section Pages

variable {range : CodeRange} {ip page : Nat}

theorem contains_iff : range.contains ip = true ↔
    range.startAddress ≤ ip ∧ ip ≤ range.endAddress := by
  simp [contains]

theorem getPageNumber_mono {first second : Nat} (notGreater : first ≤ second) :
    getPageNumber first ≤ getPageNumber second :=
  Nat.div_le_div_right notGreater

theorem mem_pages : page ∈ range.pages ↔
    getPageNumber range.startAddress ≤ page ∧ page ≤ getPageNumber range.endAddress := by
  simp only [pages, List.mem_range'_1]
  omega

theorem page_mem_of_contains (inside : range.contains ip = true) :
    getPageNumber ip ∈ range.pages := by
  rcases contains_iff.mp inside with ⟨lower, upper⟩
  exact mem_pages.mpr ⟨getPageNumber_mono lower, getPageNumber_mono upper⟩

theorem ranges_insertCodeRangeIntoPage (pagesMap : PagesMap) (other : Nat) :
    (insertCodeRangeIntoPage range pagesMap page).ranges other =
      if other = page then insertCodeRange range (pagesMap.ranges page)
      else pagesMap.ranges other := by
  simp only [insertCodeRangeIntoPage, PagesMap.ranges, Dictionary.get_set]
  split <;> rfl

theorem ranges_foldl {pages : List Nat} (distinct : pages.Nodup) (pagesMap : PagesMap) :
    (pages.foldl (insertCodeRangeIntoPage range) pagesMap).ranges page =
      if page ∈ pages then insertCodeRange range (pagesMap.ranges page)
      else pagesMap.ranges page := by
  induction pages generalizing pagesMap with
  | nil => simp
  | cons first rest ih =>
    rcases List.nodup_cons.mp distinct with ⟨notAgain, restDistinct⟩
    rw [List.foldl_cons, ih restDistinct, ranges_insertCodeRangeIntoPage]
    by_cases isFirst : page = first
    · subst isFirst
      simp [notAgain]
    · simp [isFirst]

theorem ranges_addRange (pagesMap : PagesMap) :
    (addRange pagesMap range).ranges page =
      if page ∈ range.pages then insertCodeRange range (pagesMap.ranges page)
      else pagesMap.ranges page :=
  ranges_foldl List.nodup_range' pagesMap

end Pages

/-- A lookup on the page finds the function which owns the address. -/
structure PageSound (owners : Owners) (page : Nat) (ranges : List CodeRange) : Prop where
  sorted : Sorted startAddress ranges
  lookup : ∀ ip, getPageNumber ip = page → (findCodeRange ranges ip).map info = owners ip

def Sound (owners : Owners) (pagesMap : PagesMap) : Prop :=
  ∀ page, PageSound owners page (pagesMap.ranges page)

section Insert

variable {owners : Owners} {range : CodeRange} {ranges : List CodeRange} {ip page : Nat}

theorem findCodeRange_of_lastUpTo (last : lastUpTo startAddress ip ranges = some range) :
    (findCodeRange ranges ip).map info = if range.contains ip then some range.info else none := by
  simp only [findCodeRange, last]
  split <;> rfl

theorem lastUpTo_insertCodeRange (lower : range.startAddress ≤ ip)
    (between : ∀ other ∈ ranges,
      ¬(range.startAddress < other.startAddress ∧ other.startAddress ≤ ip)) :
    lastUpTo startAddress ip (insertCodeRange range ranges) = some range := by
  unfold insertCodeRange
  split
  case isTrue skipped => exact (lastUpTo_congr lower between).trans skipped
  case isFalse => exact lastUpTo_insertAfter lower between

theorem lastUpTo_insertCodeRange_of_hidden (sorted : Sorted startAddress ranges)
    (hidden : ip < range.startAddress ∨
      ∃ other ∈ ranges, range.startAddress < other.startAddress ∧ other.startAddress ≤ ip) :
    lastUpTo startAddress ip (insertCodeRange range ranges) = lastUpTo startAddress ip ranges := by
  unfold insertCodeRange
  split
  case isTrue => rfl
  case isFalse => exact lastUpTo_insertAfter_of_hidden sorted hidden

theorem sorted_insertCodeRange (sorted : Sorted startAddress ranges) :
    Sorted startAddress (insertCodeRange range ranges) := by
  unfold insertCodeRange
  split
  case isTrue => exact sorted
  case isFalse => exact sorted.insertAfter

theorem unowned_of_not_hidden (sound : PageSound owners page ranges)
    (fits : FitsOn page range ranges) (touches : page ∈ range.pages)
    (onPage : getPageNumber ip = page) (beyond : range.endAddress < ip)
    (between : ∀ other ∈ ranges,
      ¬(range.startAddress < other.startAddress ∧ other.startAddress ≤ ip)) :
    owners ip = none := by
  rw [← sound.lookup ip onPage]
  cases last : lastUpTo startAddress ip ranges with
  | none => simp [findCodeRange, last]
  | some other =>
    rcases mem_of_lastUpTo last with ⟨recorded, upTo⟩
    have outside : other.contains ip = false := by
      apply Bool.eq_false_iff.mpr
      intro inside
      rcases contains_iff.mp inside with ⟨-, reaches⟩
      have samePage : getPageNumber (range.endAddress + 1) = page := by
        apply Nat.le_antisymm
        · exact onPage ▸ getPageNumber_mono (by omega)
        · exact Nat.le_trans (mem_pages.mp touches).2 (getPageNumber_mono (by omega))
      have notLater := between other recorded
      rcases fits.nothingBeyond other recorded (by omega) (by omega) samePage with
        ⟨next, isNext, startsThere⟩
      have ordered := fits.ordered
      exact between next isNext ⟨by omega, by omega⟩
    rw [findCodeRange_of_lastUpTo last, outside]
    rfl

theorem PageSound.insert (sound : PageSound owners page ranges) (fits : FitsOn page range ranges)
    (touches : page ∈ range.pages) :
    PageSound (owners.overwrite range) page (insertCodeRange range ranges) := by
  refine ⟨sorted_insertCodeRange sound.sorted, ?_⟩
  intro ip onPage
  simp only [Owners.overwrite]
  by_cases inside : range.contains ip = true
  · rcases contains_iff.mp inside with ⟨lower, upper⟩
    have found : lastUpTo startAddress ip (insertCodeRange range ranges) = some range := by
      apply lastUpTo_insertCodeRange lower
      rintro other recorded ⟨later, upTo⟩
      exact fits.nothingInside other recorded ⟨later, Nat.le_trans upTo upper⟩
    rw [findCodeRange_of_lastUpTo found]
    simp [inside]
  · rw [if_neg inside]
    by_cases hidden : ip < range.startAddress ∨
        ∃ other ∈ ranges, range.startAddress < other.startAddress ∧ other.startAddress ≤ ip
    · have same := lastUpTo_insertCodeRange_of_hidden sound.sorted hidden
      simpa only [findCodeRange, same] using sound.lookup ip onPage
    · have between : ∀ other ∈ ranges,
          ¬(range.startAddress < other.startAddress ∧ other.startAddress ≤ ip) :=
        fun other recorded starts => hidden (.inr ⟨other, recorded, starts⟩)
      have lower : range.startAddress ≤ ip := Nat.le_of_not_lt fun before => hidden (.inl before)
      have beyond : range.endAddress < ip := by
        by_contra upper
        exact inside (contains_iff.mpr ⟨lower, by omega⟩)
      rw [findCodeRange_of_lastUpTo (lastUpTo_insertCodeRange lower between), if_neg inside,
        unowned_of_not_hidden sound fits touches onPage beyond between]

end Insert

section Functions

variable {owners : Owners} {pagesMap : PagesMap} {info : FunctionInfo} {range : CodeRange}
  {registered : List Registration} {ranges : List CodeRange} {code : NativeCode}

theorem Sound.addRange (sound : Sound owners pagesMap) (fits : FitsInto pagesMap range) :
    Sound (owners.overwrite range) (addRange pagesMap range) := by
  intro page
  rw [ranges_addRange]
  split
  case isTrue touches => exact (sound page).insert (fits page touches) touches
  case isFalse apart =>
    refine ⟨(sound page).sorted, ?_⟩
    intro ip onPage
    have outside : ¬range.contains ip = true := fun inside =>
      apart (onPage ▸ page_mem_of_contains inside)
    rw [Owners.overwrite, if_neg outside]
    exact (sound page).lookup ip onPage

theorem Sound.addRanges (sound : Sound owners pagesMap) (fits : FitsAll ranges pagesMap) :
    Sound (ranges.foldl Owners.overwrite owners) (addFunctionRangesToCache ranges pagesMap) := by
  induction ranges generalizing owners pagesMap with
  | nil => exact sound
  | cons range rest ih => exact ih (sound.addRange fits.1) fits.2

theorem info_of_mem_appendRanges {codeInfos : List CodeInfo}
    (isRange : range ∈ appendRanges info codeInfos) : range.info = info := by
  simp only [appendRanges, List.mem_filterMap, ite_none_right_eq_some] at isRange
  rcases isRange with ⟨codeInfo, -, -, same⟩
  cases same
  rfl

theorem info_of_mem_getCodeRanges (isRange : range ∈ getCodeRanges info code) :
    range.info = info := by
  unfold getCodeRanges at isRange
  dsimp only at isRange
  split at isRange
  · rcases List.mem_flatMap.mp isRange with ⟨start, -, here⟩
    split at here
    · exact info_of_mem_appendRanges here
    · cases here
  · split at isRange
    · exact info_of_mem_appendRanges isRange
    · cases isRange

theorem foldl_overwrite (same : ∀ range ∈ ranges, range.info = info) (ip : Nat) :
    ranges.foldl Owners.overwrite owners ip =
      if (ranges.any fun range => range.contains ip) then some info else owners ip := by
  induction ranges generalizing owners with
  | nil => rfl
  | cons range rest ih =>
    rw [List.foldl_cons, ih fun other inRest => same other (List.mem_cons_of_mem _ inRest)]
    simp only [Owners.overwrite, same range (List.mem_cons_self ..), List.any_cons]
    by_cases here : range.contains ip = true
    · simp [here]
    · simp [here]

theorem newestFunction_cons (registration : Registration) (registered : List Registration)
    (ip : Nat) :
    newestFunction (registration :: registered) ip =
      if registration.has ip then some registration.info else newestFunction registered ip := by
  simp only [newestFunction, List.find?_cons]
  cases registration.has ip <;> rfl

theorem addFunctionImpl_eq (info : FunctionInfo) (code : NativeCode) (pagesMap : PagesMap) :
    addFunctionImpl info code pagesMap =
      addFunctionRangesToCache (getCodeRanges info code) pagesMap := by
  unfold addFunctionImpl
  cases getCodeRanges info code <;> rfl

theorem Sound.addFunction (sound : Sound (newestFunction registered) pagesMap)
    (fits : FitsAll (getCodeRanges info code) pagesMap) :
    Sound (newestFunction (⟨info, getCodeRanges info code⟩ :: registered))
      (addFunctionImpl info code pagesMap) := by
  have owned : newestFunction (⟨info, getCodeRanges info code⟩ :: registered) =
      (getCodeRanges info code).foldl Owners.overwrite (newestFunction registered) := by
    funext ip
    rw [newestFunction_cons, foldl_overwrite fun range => info_of_mem_getCodeRanges]
    rfl
  rw [owned, addFunctionImpl_eq]
  exact sound.addRanges fits

theorem getFunctionInfoImpl_eq (pagesMap : PagesMap) (ip : Nat) :
    getFunctionInfoImpl pagesMap ip =
      (findCodeRange (pagesMap.ranges (getPageNumber ip)) ip).map CodeRange.info := by
  rw [getFunctionInfoImpl, PagesMap.ranges]
  cases pagesMap.get (getPageNumber ip) with
  | none => rfl
  | some ranges =>
    simp only [getD_some]
    cases findCodeRange ranges ip <;> rfl

end Functions

section Cache

variable {cache : Cache} {calls : List CacheCall} {ip : Nat} {pagesMap : PagesMap}

/-- The pages know the functions registered last, and the module ranges the loaded modules. -/
structure Cache.Sound (cache : Cache) : Prop where
  functions : CodeCache.Sound (newestFunction cache.registered) cache.pagesMap
  modules : Tracks cache.modules.modulesCodeRanges (Live cache.modules.loaded)

theorem Cache.sound_of_run
    (run : (cacheSystem.restrict Cache.Undisturbed).Run cacheSystem.init calls cache) :
    cache.Sound := by
  apply run.invariant Cache.Sound
  · constructor
    · intro page
      exact ⟨List.Pairwise.nil, fun ip _ => rfl⟩
    · exact tracks_nothing
  · rintro cache call next sound ⟨undisturbed, rfl⟩
    cases call with
    | addFunction info code => exact ⟨sound.functions.addFunction undisturbed, sound.modules⟩
    | module call =>
      exact ⟨sound.functions, tracks_step sound.modules undisturbed.1 undisturbed.2⟩

theorem isManagedImpl_of_found (modulesCodeRanges : List ModuleCodeRange)
    (found : (getFunctionInfoImpl pagesMap ip).isSome = true) :
    isManagedImpl true true true pagesMap modulesCodeRanges ip = some true := by
  simp only [getFunctionInfoImpl] at found
  cases entry : pagesMap.get (getPageNumber ip) with
  | none => simp [entry] at found
  | some ranges =>
    cases range : findCodeRange ranges ip with
    | none => simp [entry, range] at found
    | some range => simp [isManagedImpl, entry, range]

theorem isManagedImpl_of_module {modulesCodeRanges : List ModuleCodeRange}
    (managed : isCodeInR2RModule true modulesCodeRanges ip = some true) :
    isManagedImpl true true true pagesMap modulesCodeRanges ip = some true := by
  cases entry : pagesMap.get (getPageNumber ip) with
  | none => simp [isManagedImpl, entry, managed]
  | some ranges =>
    cases range : findCodeRange ranges ip <;> simp [isManagedImpl, entry, range, managed]

theorem newestFunction_isSome {registration : Registration}
    (isRegistered : registration ∈ registered) (isRange : range ∈ registration.ranges)
    (inside : range.contains ip = true) :
    (newestFunction registered ip).isSome = true := by
  have has : registration.has ip = true := List.any_eq_true.mpr ⟨range, isRange, inside⟩
  simp only [newestFunction, isSome_map, List.find?_isSome]
  exact ⟨registration, isRegistered, has⟩

end Cache

/--
As long as new code and modules are in nobody's way, a lookup finds the function registered
last at an address, and all code of functions and loaded modules is known to be managed.
-/
theorem newest_function_found {calls : List CacheCall} {cache : Cache}
    (run : (cacheSystem.restrict Cache.Undisturbed).Run cacheSystem.init calls cache) (ip : Nat) :
    getFunctionInfoImpl cache.pagesMap ip = newestFunction cache.registered ip ∧
      ((∃ registration ∈ cache.registered, ∃ range ∈ registration.ranges,
          range.contains ip = true) ∨ Covers cache.modules.loaded ip →
        isManagedImpl true true true cache.pagesMap cache.modules.modulesCodeRanges ip =
          some true) := by
  have sound := Cache.sound_of_run run
  have found : getFunctionInfoImpl cache.pagesMap ip = newestFunction cache.registered ip :=
    (getFunctionInfoImpl_eq cache.pagesMap ip).trans ((sound.functions _).lookup ip rfl)
  refine ⟨found, ?_⟩
  rintro (⟨registration, isRegistered, range, isRange, inside⟩ | covered)
  · apply isManagedImpl_of_found
    rw [found]
    exact newestFunction_isSome isRegistered isRange inside
  · exact isManagedImpl_of_module ((exact_of_tracks sound.modules ip).mpr covered)

def plainCode (startAddress size : Nat) : NativeCode where
  hasInfo9 := false
  count := none
  enumerations := []
  codeInfo4 := fun _ => none
  codeInfo2 := some [⟨startAddress, size⟩]

theorem replaced_function_found :
    ∃ cache, (cacheSystem.restrict Cache.Undisturbed).Run cacheSystem.init
        [.addFunction ⟨1, false⟩ (plainCode 0x1000 0x100),
          .addFunction ⟨2, false⟩ (plainCode 0x1000 0x200)] cache ∧
      getFunctionInfoImpl cache.pagesMap 0x1050 = some ⟨2, false⟩ ∧
      isManagedImpl true true true cache.pagesMap cache.modules.modulesCodeRanges 0x1150 =
        some true := by
  have first : FitsAll [⟨0x1000, 0x10FF, 1, false⟩] .empty := by
    refine ⟨?_, trivial⟩
    intro page _
    exact ⟨by decide, by simp [PagesMap.ranges, Dictionary.empty, Dictionary.get],
      by simp [PagesMap.ranges, Dictionary.empty, Dictionary.get]⟩
  have second : FitsAll [⟨0x1000, 0x11FF, 2, false⟩]
      (addRange .empty ⟨0x1000, 0x10FF, 1, false⟩) := by
    refine ⟨?_, trivial⟩
    intro page touches
    cases List.mem_singleton.mp touches
    refine ⟨by decide, ?_, ?_⟩
    · intro other isOther
      cases List.mem_singleton.mp isOther
      decide
    · intro other isOther
      cases List.mem_singleton.mp isOther
      decide
  have run : (cacheSystem.restrict Cache.Undisturbed).Run cacheSystem.init
      [.addFunction ⟨1, false⟩ (plainCode 0x1000 0x100),
        .addFunction ⟨2, false⟩ (plainCode 0x1000 0x200)] _ :=
    .cons ⟨first, rfl⟩ (.single ⟨second, rfl⟩)
  refine ⟨_, run, (newest_function_found run 0x1050).1, (newest_function_found run 0x1150).2 ?_⟩
  exact .inl
    ⟨_, List.mem_cons_self .., ⟨0x1000, 0x11FF, 2, false⟩, List.mem_cons_self .., by decide⟩

theorem stale_function_found :
    ∃ cache, cacheSystem.Run cacheSystem.init
        [.addFunction ⟨1, false⟩ (plainCode 0x1800 0x100),
          .addFunction ⟨2, false⟩ (plainCode 0x1000 0x1000)] cache ∧
      newestFunction cache.registered 0x1850 = some ⟨2, false⟩ ∧
      getFunctionInfoImpl cache.pagesMap 0x1850 = some ⟨1, false⟩ ∧
      newestFunction cache.registered 0x1950 = some ⟨2, false⟩ ∧
      isManagedImpl true true true cache.pagesMap cache.modules.modulesCodeRanges 0x1950 =
        some false := by
  refine ⟨_, .cons rfl (.single rfl), ?_, ?_, ?_, ?_⟩
  all_goals decide

theorem mem_addFunctionRangesToCache {ranges : List CodeRange} {pagesMap : PagesMap} {page : Nat}
    {range : CodeRange} (mem : range ∈ (addFunctionRangesToCache ranges pagesMap).ranges page) :
    range ∈ ranges ∨ range ∈ pagesMap.ranges page := by
  induction ranges generalizing pagesMap with
  | nil => exact .inr mem
  | cons first rest ih =>
    rcases ih mem with inRest | before
    · exact .inl (.tail _ inRest)
    · rw [ranges_addRange, insertCodeRange] at before
      repeat' split at before
      · exact .inr before
      · rcases mem_insertAfter.mp before with rfl | recorded
        · exact .inl (.head _)
        · exact .inr recorded
      · exact .inr before

/-- The pages hold nothing but ranges of registered functions. -/
def Cache.Recorded (cache : Cache) : Prop :=
  ∀ page, ∀ range ∈ cache.pagesMap.ranges page, ∃ registration ∈ cache.registered,
    registration.info = range.info ∧ range ∈ registration.ranges

theorem Cache.recorded_of_run {calls : List CacheCall} {cache : Cache}
    (run : cacheSystem.Run cacheSystem.init calls cache) : cache.Recorded := by
  apply run.invariant Cache.Recorded
  · intro page range mem
    cases mem
  · rintro cache (⟨info, code⟩ | call) _ recorded rfl
    · intro page range mem
      rw [Cache.after, addFunctionImpl_eq] at mem
      rcases mem_addFunctionRangesToCache mem with isNew | before
      · exact ⟨_, .head _, (info_of_mem_getCodeRanges isNew).symm, isNew⟩
      · rcases recorded page range before with ⟨registration, isRegistered, same⟩
        exact ⟨registration, .tail _ isRegistered, same⟩
    · exact recorded

/-- Whatever code is replaced, a lookup finds only functions which had code at the address. -/
theorem found_function_registered {calls : List CacheCall} {cache : Cache}
    (run : cacheSystem.Run cacheSystem.init calls cache) {ip : Nat} {info : FunctionInfo}
    (found : getFunctionInfoImpl cache.pagesMap ip = some info) :
    ∃ registration ∈ cache.registered, registration.info = info ∧ registration.has ip = true := by
  rw [getFunctionInfoImpl_eq, map_eq_some_iff] at found
  rcases found with ⟨range, isFound, rfl⟩
  simp only [findCodeRange] at isFound
  split at isFound
  · cases isFound
  · rcases ite_none_right_eq_some.mp isFound with ⟨inside, ⟨⟩⟩
    rcases Cache.recorded_of_run run _ range (mem_of_lastUpTo ‹_›).1 with
      ⟨registration, isRegistered, same, isRange⟩
    exact ⟨registration, isRegistered, same, List.any_eq_true.mpr ⟨range, isRange, inside⟩⟩

theorem stale_function_registered :
    ∃ cache, cacheSystem.Run cacheSystem.init
        [.addFunction ⟨1, false⟩ (plainCode 0x1800 0x100),
          .addFunction ⟨2, false⟩ (plainCode 0x1000 0x1000)] cache ∧
      ∃ registration ∈ cache.registered,
        registration.info = ⟨1, false⟩ ∧ registration.has 0x1850 = true :=
  ⟨_, .cons rfl (.single rfl), found_function_registered (.cons rfl (.single rfl)) (by decide)⟩

end Pyroscope.CodeCache
