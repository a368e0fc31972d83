import Pyroscope.Lib.Interning
import Pyroscope.Lib.NativeWord
import Pyroscope.Samples.Basic

/-!
# `PprofBuilder` and its profiles

Strings and locations are added to the tables if they are not there yet. The tables only grow at
their ends, so what was resolved before is resolved to the same afterwards.
-/

namespace Pyroscope.Pprof

open Option List

structure ValueType where
  type : Nat
  unit : Nat
  deriving DecidableEq

structure Label where
  key : Nat
  str : Nat
  deriving DecidableEq

structure Sample where
  locationId : List Nat
  value : List Int
  label : List Label
  deriving DecidableEq

structure Line where
  functionId : Nat
  deriving DecidableEq

structure Location where
  id : Nat
  line : List Line
  deriving DecidableEq

structure Function where
  id : Nat
  name : Nat
  filename : Nat
  deriving DecidableEq

structure Profile where
  sampleType : List ValueType
  sample : List Sample
  location : List Location
  function : List Function
  stringTable : List String
  timeNanos : Int
  durationNanos : Int
  periodType : ValueType
  period : Int
  deriving DecidableEq

structure Resolved where
  frames : List (String × String)
  values : List Int
  labels : List (String × String)
  deriving DecidableEq

def Resolved.texts (resolved : Resolved) : List String :=
  resolved.frames.flatMap (fun frame => [frame.1, frame.2]) ++
    resolved.labels.flatMap fun label => [label.1, label.2]

namespace Profile

def empty : Profile where
  sampleType := []
  sample := []
  location := []
  function := []
  stringTable := []
  timeNanos := 0
  durationNanos := 0
  periodType := ⟨0, 0⟩
  period := 0

variable (profile : Profile)

def stringAt (index : Nat) : Option String := profile.stringTable[index]?

def pairAt (first second : Nat) : Option (String × String) :=
  (profile.stringAt first).bind fun one =>
    (profile.stringAt second).map fun other => (one, other)

def namesOf (function : Function) : Option (String × String) :=
  profile.pairAt function.name function.filename

def functionOf (location : Location) : Option Function :=
  match location.line with
  | [line] => profile.function.find? (·.id == line.functionId)
  | _ => none

def frameOf (id : Nat) : Option (String × String) :=
  (profile.location.find? (·.id == id)).bind fun location =>
    (profile.functionOf location).bind profile.namesOf

def labelOf (label : Label) : Option (String × String) := profile.pairAt label.key label.str

def typeOf (valueType : ValueType) : Option (String × String) :=
  profile.pairAt valueType.type valueType.unit

def resolve (sample : Sample) : Option Resolved :=
  (sample.locationId.mapM profile.frameOf).bind fun frames =>
    (sample.label.mapM profile.labelOf).map fun labels => ⟨frames, sample.value, labels⟩

def stringIndices : List Nat :=
  profile.sampleType.flatMap (fun valueType => [valueType.type, valueType.unit]) ++
    [profile.periodType.type, profile.periodType.unit] ++
    profile.function.flatMap (fun function => [function.name, function.filename]) ++
    profile.sample.flatMap fun sample => sample.label.flatMap fun label => [label.key, label.str]

/-- The tables of one profile go on where those of another end. -/
structure Extends (later : Profile) : Prop where
  stringTable : profile.stringTable <+: later.stringTable
  function : profile.function <+: later.function
  location : profile.location <+: later.location

end Profile

section Growth

variable {profile middle later : Profile}

namespace Profile.Extends

theorem refl (profile : Profile) : profile.Extends profile :=
  ⟨prefix_rfl, prefix_rfl, prefix_rfl⟩

theorem trans (first : profile.Extends middle) (second : middle.Extends later) :
    profile.Extends later :=
  ⟨first.stringTable.trans second.stringTable, first.function.trans second.function,
    first.location.trans second.location⟩

variable (grown : profile.Extends later)
include grown

theorem stringAt {index : Nat} {text : String} (defined : profile.stringAt index = some text) :
    later.stringAt index = some text := by
  rcases grown.stringTable with ⟨more, same⟩
  have inside := (List.getElem?_eq_some_iff.mp defined).1
  rw [Profile.stringAt, ← same, List.getElem?_append_left inside]
  exact defined

theorem pairAt {first second : Nat} {pair : String × String}
    (defined : profile.pairAt first second = some pair) :
    later.pairAt first second = some pair := by
  rcases bind_eq_some_iff.mp defined with ⟨one, atFirst, rest⟩
  rcases map_eq_some_iff.mp rest with ⟨other, atSecond, rfl⟩
  simp only [Profile.pairAt, grown.stringAt atFirst, grown.stringAt atSecond, bind_some, map_some]

theorem functionOf {location : Location} {function : Function}
    (defined : profile.functionOf location = some function) :
    later.functionOf location = some function := by
  rcases grown.function with ⟨more, same⟩
  rcases location with ⟨id, _ | ⟨line, _ | _⟩⟩
  · cases defined
  · simp only [Profile.functionOf] at defined ⊢
    rw [← same, find?_append, defined, some_or]
  · cases defined

theorem frameOf {id : Nat} {frame : String × String} (defined : profile.frameOf id = some frame) :
    later.frameOf id = some frame := by
  rcases grown.location with ⟨more, same⟩
  rcases bind_eq_some_iff.mp defined with ⟨location, isLocation, rest⟩
  rcases bind_eq_some_iff.mp rest with ⟨function, isFunction, names⟩
  have found : later.location.find? (·.id == id) = some location := by
    rw [← same, find?_append, isLocation, some_or]
  simp only [Profile.frameOf, found, grown.functionOf isFunction, bind_some]
  exact grown.pairAt names

end Profile.Extends

theorem mapM_mono {α β : Type} {early late : α → Option β} {items : List α} {results : List β}
    (mono : ∀ item result, early item = some result → late item = some result)
    (defined : items.mapM early = some results) : items.mapM late = some results := by
  induction items generalizing results with
  | nil => simpa using defined
  | cons item rest ih =>
    simp only [mapM_cons, bind_eq_bind, bind_eq_some_iff] at defined ⊢
    rcases defined with ⟨result, isResult, others, areOthers, same⟩
    exact ⟨result, mono item result isResult, others, ih areOthers, same⟩

theorem Profile.Extends.resolve (grown : profile.Extends later) {sample : Sample}
    {resolved : Resolved} (defined : profile.resolve sample = some resolved) :
    later.resolve sample = some resolved := by
  rcases bind_eq_some_iff.mp defined with ⟨frames, areFrames, rest⟩
  rcases map_eq_some_iff.mp rest with ⟨labels, areLabels, rfl⟩
  have framesAfter : sample.locationId.mapM later.frameOf = some frames :=
    mapM_mono (fun _ _ found => grown.frameOf found) areFrames
  have labelsAfter : sample.label.mapM later.labelOf = some labels :=
    mapM_mono (fun _ _ found => grown.pairAt found) areLabels
  simp only [Profile.resolve, framesAfter, labelsAfter, bind_some, map_some]

end Growth

/-! ## `PprofBuilder` -/

inductive ProfileType where
  | processCpu
  | cpuSample
  | gcThreadsCpu
  | wallTime
  | alloc
  | allocFramework
  | lock
  | exception
  | network
  | heap
  | gcCpu
  | gcStw
  | threadLifetime
  deriving DecidableEq

structure SampleValueType where
  name : String
  unit : String
  type : ProfileType
  deriving DecidableEq

structure PprofBuilder where
  sampleTypeDefinitions : List SampleValueType
  /-- An `int` of 32 bits, so fewer than `2 ^ 31` samples are added before a `Build`. -/
  samplesCount : Nat
  strings : Dictionary String Nat
  /-- From module and function name to the id of the location. -/
  locations : Dictionary (Nat × Nat) Nat
  profile : Profile
  spanIdStrIndex : Nat
  traceIdStrIndex : Nat

def classLeafPrefix : String := "cls:"

def lut : List Char :=
  ['0', '1', '2', '3', '4', '5', '6', '7', '8', '9', 'a', 'b', 'c', 'd', 'e', 'f']

def hexString (bytes : List UInt8) : String :=
  String.ofList (bytes.flatMap fun (byte : UInt8) =>
    [lut.getD (byte >>> 4).toNat '0', lut.getD (byte &&& 0xf).toNat '0'])

def periodType : List SampleValueType → String × String
  | ⟨_, _, .alloc⟩ :: _ | ⟨_, _, .allocFramework⟩ :: _ | ⟨_, _, .heap⟩ :: _ => ("space", "bytes")
  | _ => ("cpu", "nanoseconds")

namespace PprofBuilder

def addString (text : String) (builder : PprofBuilder) : Nat × PprofBuilder :=
  match builder.strings.get text with
  | some id => (id, builder)
  | none =>
    let id := builder.profile.stringTable.length
    (id,
      { builder with
        strings := builder.strings.set text id
        profile :=
          { builder.profile with stringTable := builder.profile.stringTable ++ [text] } })

def addLocation (functionName moduleName : Nat) (builder : PprofBuilder) : Nat × PprofBuilder :=
  match builder.locations.get (moduleName, functionName) with
  | some id => (id, builder)
  | none =>
    let id := builder.profile.location.length + 1
    (id,
      { builder with
        locations := builder.locations.set (moduleName, functionName) id
        profile :=
          { builder.profile with
            function := builder.profile.function ++ [⟨id, functionName, moduleName⟩]
            location := builder.profile.location ++ [⟨id, [⟨id⟩]⟩] } })

def addFrame (frame : String × String) (builder : PprofBuilder) : Nat × PprofBuilder :=
  let (moduleNameStringId, builder) := builder.addString frame.2
  let (functionNameStringId, builder) := builder.addString frame.1
  builder.addLocation functionNameStringId moduleNameStringId

def addLabel (label : String × String) (builder : PprofBuilder) : Label × PprofBuilder :=
  let (key, builder) := builder.addString label.1
  let (str, builder) := builder.addString label.2
  (⟨key, str⟩, builder)

def addSampleType (sampleType : SampleValueType) (builder : PprofBuilder) :
    ValueType × PprofBuilder :=
  let (unit, builder) := builder.addString sampleType.unit
  let (type, builder) := builder.addString sampleType.name
  (⟨type, unit⟩, builder)

def addAll {α β : Type} (add : α → PprofBuilder → β × PprofBuilder) :
    List α → PprofBuilder → List β × PprofBuilder
  | [], builder => ([], builder)
  | item :: rest, builder =>
    let (result, builder) := add item builder
    let (results, builder) := addAll add rest builder
    (result :: results, builder)

/-- The words of the context are taken as they lie in memory, the trace id as an array of two. -/
def addTraceContext (order : NativeWord.ByteOrder) (context : Samples.TraceContext)
    (builder : PprofBuilder) : List Label × PprofBuilder :=
  if context.currentLocalRootSpanId = 0 then
    ([], builder)
  else
    let spanId := NativeWord.toBytes order 8 context.currentLocalRootSpanId
    let traceId := NativeWord.toBytes order 8 context.currentTraceIdHi ++
      NativeWord.toBytes order 8 context.currentTraceIdLo
    let (spanIdStr, builder) := builder.addString (hexString spanId)
    let (traceIdStr, builder) := builder.addString (hexString traceId)
    ([⟨builder.spanIdStrIndex, spanIdStr⟩, ⟨builder.traceIdStrIndex, traceIdStr⟩], builder)

def addLeafFrame (leafFrame : String) (builder : PprofBuilder) : List Nat × PprofBuilder :=
  if leafFrame = "" then
    ([], builder)
  else
    let (location, builder) := builder.addFrame (classLeafPrefix ++ leafFrame, "")
    ([location], builder)

def stringLabels (labels : List (String × Samples.LabelValue)) : List (String × String) :=
  labels.filterMap fun
    | (key, .string text) => some (key, text)
    | (_, .numeric _) => none

def addSample (order : NativeWord.ByteOrder) (sample : Samples.Sample) (values : List Int)
    (builder : PprofBuilder) : PprofBuilder :=
  let (traceLabels, builder) := builder.addTraceContext order sample.traceContext
  let (leaf, builder) := builder.addLeafFrame sample.leafFrame
  let (frames, builder) := addAll addFrame
    (sample.callstack.map fun frame => (frame.frame, frame.moduleName)) builder
  let (labels, builder) := addAll addLabel (stringLabels sample.allLabels) builder
  { builder with
    samplesCount := builder.samplesCount + 1
    profile :=
      { builder.profile with
        sample := builder.profile.sample ++ [⟨leaf ++ frames, values, traceLabels ++ labels⟩] } }

variable (builder : PprofBuilder)

def cleared : PprofBuilder :=
  { builder with
    samplesCount := 0
    strings := .empty
    locations := .empty
    profile := .empty }

/-- The empty string comes first, and the names of the trace labels are kept by index. -/
def addFixedStrings : PprofBuilder :=
  let (_, builder) := builder.addString ""
  let (spanIdStrIndex, builder) := builder.addString "span_id"
  let (traceIdStrIndex, builder) := builder.addString "trace_id"
  { builder with
    spanIdStrIndex := spanIdStrIndex
    traceIdStrIndex := traceIdStrIndex }

def addTypes : PprofBuilder :=
  let period := periodType builder.sampleTypeDefinitions
  let (sampleType, builder) := addAll addSampleType builder.sampleTypeDefinitions builder
  let (type, builder) := builder.addString period.1
  let (unit, builder) := builder.addString period.2
  { builder with
    profile :=
      { builder.profile with
        sampleType := sampleType
        period := 1
        periodType := ⟨type, unit⟩ } }

def reset : PprofBuilder := builder.cleared.addFixedStrings.addTypes

def new (sampleTypeDefinitions : List SampleValueType) : PprofBuilder :=
  reset ⟨sampleTypeDefinitions, 0, .empty, .empty, .empty, 0, 0⟩

def build (startTime endTime : Int) (builder : PprofBuilder) : Option Profile × PprofBuilder :=
  if builder.samplesCount = 0 then
    (none, builder)
  else
    (some { builder.profile with timeNanos := startTime, durationNanos := endTime - startTime },
      builder.reset)

end PprofBuilder

inductive Call where
  | addSample (sample : Samples.Sample) (values : List Int)
  | build (startTime endTime : Int)
  deriving DecidableEq

def runCalls (order : NativeWord.ByteOrder) : PprofBuilder → List Call → List (Option Profile)
  | _, [] => []
  | builder, .addSample sample values :: calls =>
    runCalls order (builder.addSample order sample values) calls
  | builder, .build startTime endTime :: calls =>
    (builder.build startTime endTime).1 :: runCalls order (builder.build startTime endTime).2 calls

/-! ## How the tables of a builder grow -/

open Interning (Numbers)

namespace PprofBuilder

/-- The maps know the tables, and a location has the id of its function. -/
structure Sound (builder : PprofBuilder) : Prop where
  strings : Numbers 0 builder.strings builder.profile.stringTable
  locations : Numbers 1 builder.locations
    (builder.profile.function.map fun function => (function.filename, function.name))
  functionIds : builder.profile.function.map Function.id =
    range' 1 builder.profile.function.length
  locationLines : builder.profile.location =
    builder.profile.function.map fun function => ⟨function.id, [⟨function.id⟩]⟩
  namesDefined : ∀ function ∈ builder.profile.function, (builder.profile.namesOf function).isSome

/-- Only the tables and the maps of a builder change, and what is new in the tables is known. -/
structure Grows (builder after : PprofBuilder) (texts : List String)
    (frames : List (String × String)) : Prop where
  extends_ : builder.profile.Extends after.profile
  sample : after.profile.sample = builder.profile.sample
  sampleType : after.profile.sampleType = builder.profile.sampleType
  periodType : after.profile.periodType = builder.profile.periodType
  sampleTypeDefinitions : after.sampleTypeDefinitions = builder.sampleTypeDefinitions
  samplesCount : after.samplesCount = builder.samplesCount
  spanIdStrIndex : after.spanIdStrIndex = builder.spanIdStrIndex
  traceIdStrIndex : after.traceIdStrIndex = builder.traceIdStrIndex
  newTexts : ∀ text ∈ after.profile.stringTable, text ∈ builder.profile.stringTable ∨ text ∈ texts
  newFrames : ∀ function ∈ after.profile.function,
    function ∈ builder.profile.function ∨
      ∃ frame ∈ frames, after.profile.namesOf function = some frame

namespace Grows

variable {builder middle after : PprofBuilder} {texts moreTexts : List String}
variable {frames moreFrames : List (String × String)}

theorem refl (builder : PprofBuilder) : builder.Grows builder [] [] where
  extends_ := .refl _
  sample := rfl
  sampleType := rfl
  periodType := rfl
  sampleTypeDefinitions := rfl
  samplesCount := rfl
  spanIdStrIndex := rfl
  traceIdStrIndex := rfl
  newTexts := fun _ isText => .inl isText
  newFrames := fun _ isFunction => .inl isFunction

theorem trans (first : builder.Grows middle texts frames)
    (second : middle.Grows after moreTexts moreFrames) :
    builder.Grows after (texts ++ moreTexts) (frames ++ moreFrames) where
  extends_ := first.extends_.trans second.extends_
  sample := second.sample.trans first.sample
  sampleType := second.sampleType.trans first.sampleType
  periodType := second.periodType.trans first.periodType
  sampleTypeDefinitions := second.sampleTypeDefinitions.trans first.sampleTypeDefinitions
  samplesCount := second.samplesCount.trans first.samplesCount
  spanIdStrIndex := second.spanIdStrIndex.trans first.spanIdStrIndex
  traceIdStrIndex := second.traceIdStrIndex.trans first.traceIdStrIndex
  newTexts := by
    intro text isText
    rcases second.newTexts text isText with inMiddle | isNew
    · rcases first.newTexts text inMiddle with inFirst | isNew
      · exact .inl inFirst
      · exact .inr (mem_append_left _ isNew)
    · exact .inr (mem_append_right _ isNew)
  newFrames := by
    intro function isFunction
    rcases second.newFrames function isFunction with inMiddle | ⟨frame, isNew, names⟩
    · rcases first.newFrames function inMiddle with inFirst | ⟨frame, isNew, names⟩
      · exact .inl inFirst
      · exact .inr ⟨frame, mem_append_left _ isNew, second.extends_.pairAt names⟩
    · exact .inr ⟨frame, mem_append_right _ isNew, names⟩

theorem weaken (grows : builder.Grows after texts frames) (subTexts : texts ⊆ moreTexts)
    (subFrames : frames ⊆ moreFrames) : builder.Grows after moreTexts moreFrames :=
  { grows with
    newTexts := fun text isText => (grows.newTexts text isText).imp_right (subTexts ·)
    newFrames := by
      intro function isFunction
      rcases grows.newFrames function isFunction with inBefore | ⟨frame, isNew, names⟩
      · exact .inl inBefore
      · exact .inr ⟨frame, subFrames isNew, names⟩ }

end Grows

/-- An operation on a builder adds something which is then resolved to the meaning. -/
def Adds {β γ : Type} (add : PprofBuilder → β × PprofBuilder) (resolve : Profile → β → Option γ)
    (meaning : γ) (texts : List String) (frames : List (String × String)) : Prop :=
  ∀ builder : PprofBuilder, builder.Sound →
    (add builder).2.Sound ∧ builder.Grows (add builder).2 texts frames ∧
      resolve (add builder).2.profile (add builder).1 = some meaning

/-- What an entry means stays when the profile grows. -/
def Stable {β γ : Type} (resolve : Profile → β → Option γ) : Prop :=
  ∀ {profile later : Profile}, profile.Extends later → ∀ {item : β} {meaning : γ},
    resolve profile item = some meaning → resolve later item = some meaning

theorem stable_frameOf : Stable Profile.frameOf := fun grown => grown.frameOf

theorem stable_labelOf : Stable Profile.labelOf := fun grown => grown.pairAt

theorem stable_typeOf : Stable Profile.typeOf := fun grown => grown.pairAt

section Locations

theorem find?_eq_some_of_nodup {α : Type} {key : α → Nat} {items : List α} {item : α}
    (distinct : (items.map key).Nodup) (isItem : item ∈ items) :
    items.find? (key · == key item) = some item := by
  induction items with
  | nil => cases isItem
  | cons first rest ih =>
    simp only [map_cons, nodup_cons] at distinct
    rcases mem_cons.mp isItem with rfl | inRest
    · simp
    · have different : key first ≠ key item := by
        intro same
        exact distinct.1 (same ▸ mem_map_of_mem inRest)
      simp [different, ih distinct.2 inRest]

namespace Sound

variable {builder : PprofBuilder} (sound : builder.Sound) {function : Function}
include sound

theorem nodup_functionIds : (builder.profile.function.map Function.id).Nodup := by
  rw [sound.functionIds]
  exact nodup_range'

theorem functionOf_eq (isFunction : function ∈ builder.profile.function) :
    builder.profile.functionOf ⟨function.id, [⟨function.id⟩]⟩ = some function :=
  find?_eq_some_of_nodup sound.nodup_functionIds isFunction

theorem frameOf_eq (isFunction : function ∈ builder.profile.function) :
    builder.profile.frameOf function.id = builder.profile.namesOf function := by
  have isLocation : builder.profile.location.find? (·.id == function.id) =
      some ⟨function.id, [⟨function.id⟩]⟩ := by
    have found := find?_eq_some_of_nodup sound.nodup_functionIds isFunction
    rw [sound.locationLines, find?_map]
    simp only [Function.comp_def, found, map_some]
  simp only [Profile.frameOf, isLocation, sound.functionOf_eq isFunction, bind_some]

theorem length_location : builder.profile.location.length = builder.profile.function.length := by
  rw [sound.locationLines, length_map]

end Sound

end Locations

section Additions

theorem addString_adds (text : String) : Adds (addString text) Profile.stringAt text [text] [] := by
  intro builder sound
  unfold addString
  split
  case h_1 id known =>
    rcases (sound.strings text id).mp known with ⟨position, rfl, entry⟩
    rw [Nat.zero_add]
    exact ⟨sound, (Grows.refl builder).weaken (nil_subset _) (nil_subset _), entry⟩
  case h_2 unknown =>
    have grown : builder.profile.Extends { builder.profile with
        stringTable := builder.profile.stringTable ++ [text] } :=
      ⟨prefix_append _ _, prefix_rfl, prefix_rfl⟩
    refine ⟨?_, ?_, getElem?_concat_length⟩
    · have numbered := sound.strings.add unknown
      rw [Nat.zero_add] at numbered
      refine ⟨numbered, sound.locations, sound.functionIds, sound.locationLines, ?_⟩
      intro function isFunction
      rcases isSome_iff_exists.mp (sound.namesDefined function isFunction) with
        ⟨names, defined⟩
      exact isSome_iff_exists.mpr ⟨names, grown.pairAt defined⟩
    · exact
        { Grows.refl builder with
          extends_ := grown
          newTexts := fun other isText => mem_append.mp isText
          newFrames := fun function isFunction => .inl isFunction }

theorem addLocation_adds {functionName moduleName : Nat} {frame : String × String}
    {builder : PprofBuilder} (sound : builder.Sound)
    (names : builder.profile.pairAt functionName moduleName = some frame) :
    (builder.addLocation functionName moduleName).2.Sound ∧
      builder.Grows (builder.addLocation functionName moduleName).2 [] [frame] ∧
      (builder.addLocation functionName moduleName).2.profile.frameOf
        (builder.addLocation functionName moduleName).1 = some frame := by
  unfold addLocation
  split
  case h_1 id known =>
    rcases (sound.locations (moduleName, functionName) id).mp known with ⟨position, rfl, entry⟩
    rw [getElem?_map, map_eq_some_iff] at entry
    rcases entry with ⟨function, isFunction, same⟩
    simp only [Prod.mk.injEq] at same
    have itsId : function.id = 1 + position := by
      have ids := congrArg (·[position]?) sound.functionIds
      simp only [getElem?_map, isFunction, map_some] at ids
      rcases List.getElem?_eq_some_iff.mp ids.symm with ⟨_, value⟩
      simpa using value.symm
    refine ⟨sound, (Grows.refl builder).weaken (nil_subset _) (nil_subset _), ?_⟩
    rw [← itsId, sound.frameOf_eq (mem_of_getElem? isFunction), Profile.namesOf, same.1,
      same.2, names]
  case h_2 unknown =>
    have grown : builder.profile.Extends { builder.profile with
        function := builder.profile.function ++
          [⟨builder.profile.location.length + 1, functionName, moduleName⟩]
        location := builder.profile.location ++
          [⟨builder.profile.location.length + 1, [⟨builder.profile.location.length + 1⟩]⟩] } :=
      ⟨prefix_rfl, prefix_append _ _, prefix_append _ _⟩
    have newNames := grown.pairAt names
    have soundAfter : Sound (builder.addLocation functionName moduleName).2 := by
      have numbered := sound.locations.add unknown
      rw [length_map, ← sound.length_location, Nat.add_comm] at numbered
      simp only [addLocation, unknown]
      refine ⟨sound.strings, ?_, ?_, ?_, ?_⟩
      · simpa only [map_append, map_cons, map_nil] using numbered
      · simp [sound.functionIds, sound.length_location, range'_1_concat, Nat.add_comm]
      · simp [← sound.locationLines]
      · intro function isFunction
        rcases mem_append.mp isFunction with old | new
        · rcases isSome_iff_exists.mp (sound.namesDefined function old) with ⟨pair, defined⟩
          exact isSome_iff_exists.mpr ⟨pair, grown.pairAt defined⟩
        · cases mem_singleton.mp new
          exact isSome_iff_exists.mpr ⟨frame, newNames⟩
    simp only [addLocation, unknown] at soundAfter
    refine ⟨soundAfter, ?_, ?_⟩
    · exact
        { Grows.refl builder with
          extends_ := grown
          newTexts := fun other isText => .inl isText
          newFrames := by
            intro function isFunction
            rcases mem_append.mp isFunction with old | new
            · exact .inl old
            · cases mem_singleton.mp new
              exact .inr ⟨frame, mem_singleton_self frame, newNames⟩ }
    · exact (soundAfter.frameOf_eq (mem_append_right _ (mem_singleton_self _))).trans
        newNames

end Additions

section Combinations

variable {β γ : Type}

theorem addStrings_spec (one other : String) {builder : PprofBuilder} (sound : builder.Sound) :
    let first := builder.addString one
    let second := first.2.addString other
    second.2.Sound ∧ builder.Grows second.2 [one, other] [] ∧
      second.2.profile.stringAt first.1 = some one ∧
      second.2.profile.stringAt second.1 = some other := by
  intro first second
  rcases addString_adds one builder sound with ⟨soundFirst, growsFirst, resolvedFirst⟩
  rcases addString_adds other first.2 soundFirst with ⟨soundSecond, growsSecond, resolvedSecond⟩
  exact ⟨soundSecond, growsFirst.trans growsSecond, growsSecond.extends_.stringAt resolvedFirst,
    resolvedSecond⟩

theorem pairAt_eq {profile : Profile} {first second : Nat} {one other : String}
    (atFirst : profile.stringAt first = some one)
    (atSecond : profile.stringAt second = some other) :
    profile.pairAt first second = some (one, other) := by
  simp only [Profile.pairAt, atFirst, atSecond, bind_some, map_some]

theorem addLabel_adds (label : String × String) :
    Adds (addLabel label) Profile.labelOf label [label.1, label.2] [] := by
  intro builder sound
  rcases addStrings_spec label.1 label.2 sound with ⟨soundAfter, grows, atKey, atStr⟩
  exact ⟨soundAfter, grows, pairAt_eq atKey atStr⟩

theorem addSampleType_adds (sampleType : SampleValueType) :
    Adds (addSampleType sampleType) Profile.typeOf (sampleType.name, sampleType.unit)
      [sampleType.unit, sampleType.name] [] := by
  intro builder sound
  rcases addStrings_spec sampleType.unit sampleType.name sound with
    ⟨soundAfter, grows, atUnit, atType⟩
  exact ⟨soundAfter, grows, pairAt_eq atType atUnit⟩

theorem addFrame_adds (frame : String × String) :
    Adds (addFrame frame) Profile.frameOf frame [frame.1, frame.2] [frame] := by
  intro builder sound
  rcases addStrings_spec frame.2 frame.1 sound with ⟨soundNames, growsNames, atModule, atFunction⟩
  rcases addLocation_adds soundNames (pairAt_eq atFunction atModule) with
    ⟨soundAfter, grows, resolved⟩
  refine ⟨soundAfter, (growsNames.trans grows).weaken ?_ (List.Subset.refl _), resolved⟩
  simp

theorem addAll_adds {α : Type} {add : α → PprofBuilder → β × PprofBuilder}
    {resolve : Profile → β → Option γ} {meaning : α → γ} {textsOf : α → List String}
    {framesOf : α → List (String × String)} (stable : Stable resolve)
    (adds : ∀ item, Adds (add item) resolve (meaning item) (textsOf item) (framesOf item))
    (items : List α) :
    Adds (addAll add items) (fun profile results => results.mapM (resolve profile))
      (items.map meaning) (items.flatMap textsOf) (items.flatMap framesOf) := by
  induction items with
  | nil => exact fun builder sound => ⟨sound, .refl builder, rfl⟩
  | cons item rest ih =>
    intro builder sound
    rcases adds item builder sound with ⟨soundFirst, growsFirst, resolvedFirst⟩
    rcases ih (add item builder).2 soundFirst with ⟨soundRest, growsRest, resolvedRest⟩
    refine ⟨soundRest, growsFirst.trans growsRest, ?_⟩
    dsimp only at resolvedRest
    simp only [addAll, mapM_cons, map_cons]
    rw [stable growsRest.extends_ resolvedFirst, resolvedRest]
    rfl

end Combinations

end PprofBuilder

end Pyroscope.Pprof
