import Pyroscope.Pprof.Builder

/-!
# What a built profile says

The abstract builder keeps what the samples since the last `Build` say, and the builder of the
source refines it.
-/

namespace Pyroscope.Pprof

open List

section Specification

/-- Two digits for each byte. -/
def hexText (bytes : List UInt8) : String :=
  String.ofList (bytes.flatMap fun (byte : UInt8) =>
    [Nat.digitChar (byte.toNat / 16), Nat.digitChar (byte.toNat % 16)])

def labelText : Samples.LabelValue → Option String
  | .string text => some text
  | .numeric _ => none

/-- The labels of a sample whose values are texts, in their order. -/
def textLabels (labels : List (String × Samples.LabelValue)) : List (String × String) :=
  labels.flatMap fun label => (labelText label.2).toList.map (label.1, ·)

variable (order : NativeWord.ByteOrder)

def traceLabels (context : Samples.TraceContext) : List (String × String) :=
  if context.currentLocalRootSpanId = 0 then
    []
  else
    [("span_id", hexText (NativeWord.toBytes order 8 context.currentLocalRootSpanId)),
      ("trace_id", hexText (NativeWord.toBytes order 8 context.currentTraceIdHi ++
        NativeWord.toBytes order 8 context.currentTraceIdLo))]

def leafFrames (leafFrame : String) : List (String × String) :=
  if leafFrame = "" then [] else [("cls:" ++ leafFrame, "")]

def tell (sample : Samples.Sample) (values : List Int) : Resolved where
  frames := leafFrames sample.leafFrame ++
    sample.callstack.map fun frame => (frame.frame, frame.moduleName)
  values := values
  labels := traceLabels order sample.traceContext ++ textLabels sample.allLabels

/-- What the `Build` calls hand out, from the samples which are pending before the calls. -/
def expected : List Resolved → List Call → List (Option (List Resolved))
  | _, [] => []
  | pending, .addSample sample values :: calls =>
    expected (pending ++ [tell order sample values]) calls
  | pending, .build _ _ :: calls =>
    (if pending = [] then none else some pending) :: expected [] calls

end Specification

section Texts

theorem lut_eq_digitChar {digit : Nat} (small : digit < 16) :
    lut.getD digit '0' = Nat.digitChar digit := by
  have all : ∀ digit < 16, lut.getD digit '0' = Nat.digitChar digit := by decide
  exact all digit small

theorem hexString_eq_hexText (bytes : List UInt8) : hexString bytes = hexText bytes := by
  have digits (byte : UInt8) :
      [lut.getD (byte >>> 4).toNat '0', lut.getD (byte &&& 0xf).toNat '0'] =
        [Nat.digitChar (byte.toNat / 16), Nat.digitChar (byte.toNat % 16)] := by
    have isByte : byte.toNat < 256 := byte.toNat_lt
    have high : (byte >>> 4).toNat = byte.toNat / 16 := by
      simp [Nat.shiftRight_eq_div_pow]
    have low : (byte &&& 0xf).toNat = byte.toNat % 16 := by
      rw [UInt8.toNat_and]
      exact Nat.and_two_pow_sub_one_eq_mod byte.toNat 4
    rw [high, low, lut_eq_digitChar (by omega), lut_eq_digitChar (by omega)]
  simp only [hexString, hexText, digits]

theorem length_hexText (bytes : List UInt8) : (hexText bytes).length = 2 * bytes.length := by
  simp [hexText, length_flatMap, Nat.mul_comm]

theorem stringLabels_eq_textLabels (labels : List (String × Samples.LabelValue)) :
    PprofBuilder.stringLabels labels = textLabels labels := by
  induction labels with
  | nil => rfl
  | cons label rest ih =>
    rcases label with ⟨key, text | number⟩
    · exact congrArg ((key, text) :: ·) ih
    · exact ih

end Texts

def fixedTexts (sampleTypes : List SampleValueType) : List String :=
  ["", "span_id", "trace_id"] ++
    sampleTypes.flatMap (fun sampleType => [sampleType.unit, sampleType.name]) ++
    [(periodType sampleTypes).1, (periodType sampleTypes).2]

/-- A profile says what the samples say, in well-formed tables and without anything else. -/
structure Tells (sampleTypes : List SampleValueType) (profile : Profile)
    (samples : List Resolved) : Prop where
  samplesResolved : profile.sample.mapM profile.resolve = some samples
  typesResolved : profile.sampleType.mapM profile.typeOf =
    some (sampleTypes.map fun sampleType => (sampleType.name, sampleType.unit))
  periodResolved : profile.typeOf profile.periodType = some (periodType sampleTypes)
  emptyFirst : profile.stringTable[0]? = some ""
  stringsDefined : ∀ index ∈ profile.stringIndices, index < profile.stringTable.length
  stringsShared : ∀ i < profile.stringTable.length, ∀ j,
    profile.stringTable[i]? = profile.stringTable[j]? ↔ i = j
  idsDefined : ∀ sample ∈ profile.sample, ∀ id ∈ sample.locationId, (profile.frameOf id).isSome
  functionsDefined : ∀ location ∈ profile.location, (profile.functionOf location).isSome
  idsDistinct : (profile.location.map Location.id).Nodup
  locationsShared : ∀ first ∈ profile.location, ∀ second ∈ profile.location,
    profile.frameOf first.id = profile.frameOf second.id ↔ first = second
  ownTexts : ∀ text ∈ profile.stringTable,
    text ∈ fixedTexts sampleTypes ∨ ∃ sample ∈ samples, text ∈ sample.texts
  ownFrames : ∀ location ∈ profile.location, ∃ sample ∈ samples, ∃ frame ∈ sample.frames,
    profile.frameOf location.id = some frame

namespace PprofBuilder

/-- The builder holds what the pending samples say. -/
structure Holds (sampleTypes : List SampleValueType) (builder : PprofBuilder)
    (pending : List Resolved) : Prop where
  sound : builder.Sound
  definitions : builder.sampleTypeDefinitions = sampleTypes
  count : builder.samplesCount = pending.length
  samplesResolved : builder.profile.sample.mapM builder.profile.resolve = some pending
  typesResolved : builder.profile.sampleType.mapM builder.profile.typeOf =
    some (sampleTypes.map fun sampleType => (sampleType.name, sampleType.unit))
  periodResolved : builder.profile.typeOf builder.profile.periodType = some (periodType sampleTypes)
  emptyFirst : builder.profile.stringAt 0 = some ""
  spanId : builder.profile.stringAt builder.spanIdStrIndex = some "span_id"
  traceId : builder.profile.stringAt builder.traceIdStrIndex = some "trace_id"
  ownTexts : ∀ text ∈ builder.profile.stringTable,
    text ∈ fixedTexts sampleTypes ∨ ∃ sample ∈ pending, text ∈ sample.texts
  ownFrames : ∀ function ∈ builder.profile.function, ∃ sample ∈ pending,
    ∃ frame ∈ sample.frames, builder.profile.namesOf function = some frame

section AddSample

variable {order : NativeWord.ByteOrder} {builder : PprofBuilder} {pending : List Resolved}
  {sampleTypes : List SampleValueType} {frames : List (String × String)} {α β : Type}
  {f : α → Option β} {sample : Sample}

theorem addTraceContext_spec (order : NativeWord.ByteOrder) (context : Samples.TraceContext)
    (sound : builder.Sound)
    (spanId : builder.profile.stringAt builder.spanIdStrIndex = some "span_id")
    (traceId : builder.profile.stringAt builder.traceIdStrIndex = some "trace_id") :
    let after := builder.addTraceContext order context
    after.2.Sound ∧
      builder.Grows after.2
        ((traceLabels order context).flatMap fun label => [label.1, label.2]) [] ∧
      after.1.mapM after.2.profile.labelOf = some (traceLabels order context) := by
  simp only [addTraceContext, traceLabels, hexString_eq_hexText]
  split
  case isTrue => exact ⟨sound, .refl builder, rfl⟩
  case isFalse =>
    rcases addStrings_spec
      (hexText (NativeWord.toBytes order 8 context.currentLocalRootSpanId))
      (hexText (NativeWord.toBytes order 8 context.currentTraceIdHi ++
        NativeWord.toBytes order 8 context.currentTraceIdLo)) sound with
      ⟨soundAfter, grows, atSpan, atTrace⟩
    refine ⟨soundAfter, grows.weaken (by simp) (List.Subset.refl _), ?_⟩
    have spanLabel := pairAt_eq (grows.extends_.stringAt spanId) atSpan
    have traceLabel := pairAt_eq (grows.extends_.stringAt traceId) atTrace
    rw [← grows.spanIdStrIndex] at spanLabel
    rw [← grows.traceIdStrIndex] at traceLabel
    simp only [mapM_cons, mapM_nil, Profile.labelOf, spanLabel, traceLabel]
    rfl

theorem addLeafFrame_adds (leafFrame : String) :
    Adds (addLeafFrame leafFrame) (fun profile ids => ids.mapM profile.frameOf)
      (leafFrames leafFrame) ((leafFrames leafFrame).flatMap fun frame => [frame.1, frame.2])
      (leafFrames leafFrame) := by
  intro builder sound
  unfold addLeafFrame leafFrames
  split
  case isTrue => exact ⟨sound, .refl builder, rfl⟩
  case isFalse =>
    rcases addFrame_adds ("cls:" ++ leafFrame, "") builder sound with
      ⟨soundAfter, grows, resolved⟩
    refine ⟨soundAfter, grows, ?_⟩
    simp only [mapM_cons, mapM_nil, classLeafPrefix, resolved]
    rfl

theorem mapM_append_eq {items rest : List α} {results others : List β}
    (defined : items.mapM f = some results) (restDefined : rest.mapM f = some others) :
    (items ++ rest).mapM f = some (results ++ others) := by
  rw [mapM_append, defined, restDefined]
  rfl

theorem mapM_singleton_eq {item : α} {result : β} (defined : f item = some result) :
    [item].mapM f = some [result] := by
  rw [mapM_cons, defined]
  rfl

theorem resolve_eq {profile : Profile} {ids : List Nat} {labels : List Label}
    {texts : List (String × String)} (values : List Int)
    (areFrames : ids.mapM profile.frameOf = some frames)
    (areLabels : labels.mapM profile.labelOf = some texts) :
    profile.resolve ⟨ids, values, labels⟩ = some ⟨frames, values, texts⟩ := by
  simp only [Profile.resolve, areFrames, areLabels, Option.bind_some, Option.map_some]

theorem Grows.holds {after : PprofBuilder} {told : Resolved} {texts : List String}
    (holds : builder.Holds sampleTypes pending) (grows : builder.Grows after texts frames)
    (sound : after.Sound) (subTexts : texts ⊆ told.texts) (subFrames : frames ⊆ told.frames)
    (resolved : after.profile.resolve sample = some told) :
    Holds sampleTypes
      { after with
        samplesCount := after.samplesCount + 1
        profile := { after.profile with sample := after.profile.sample ++ [sample] } }
      (pending ++ [told]) where
  sound := ⟨sound.strings, sound.locations, sound.functionIds, sound.locationLines,
    sound.namesDefined⟩
  definitions := grows.sampleTypeDefinitions.trans holds.definitions
  count := by simp [grows.samplesCount, holds.count]
  samplesResolved := by
    have earlier : after.profile.sample.mapM after.profile.resolve = some pending := by
      rw [grows.sample]
      exact mapM_mono (fun _ _ defined => grows.extends_.resolve defined) holds.samplesResolved
    exact mapM_append_eq earlier (mapM_singleton_eq resolved)
  typesResolved := by
    have grown : after.profile.sampleType.mapM after.profile.typeOf =
        some (sampleTypes.map fun sampleType => (sampleType.name, sampleType.unit)) := by
      rw [grows.sampleType]
      exact mapM_mono (fun _ _ defined => grows.extends_.pairAt defined) holds.typesResolved
    exact grown
  periodResolved := by
    have grown : after.profile.typeOf after.profile.periodType =
        some (Pprof.periodType sampleTypes) := by
      rw [grows.periodType]
      exact grows.extends_.pairAt holds.periodResolved
    exact grown
  emptyFirst := grows.extends_.stringAt holds.emptyFirst
  spanId := by
    simp only [grows.spanIdStrIndex]
    exact grows.extends_.stringAt holds.spanId
  traceId := by
    simp only [grows.traceIdStrIndex]
    exact grows.extends_.stringAt holds.traceId
  ownTexts := by
    intro text isText
    rcases grows.newTexts text isText with old | new
    · rcases holds.ownTexts text old with fixed | ⟨other, isPending, inOther⟩
      · exact .inl fixed
      · exact .inr ⟨other, mem_append_left _ isPending, inOther⟩
    · exact .inr ⟨told, mem_append_right _ (mem_singleton_self told), subTexts new⟩
  ownFrames := by
    intro function isFunction
    rcases grows.newFrames function isFunction with old | ⟨frame, new, names⟩
    · rcases holds.ownFrames function old with ⟨other, isPending, frame, inOther, names⟩
      exact ⟨other, mem_append_left _ isPending, frame, inOther, grows.extends_.pairAt names⟩
    · exact ⟨told, mem_append_right _ (mem_singleton_self told), frame, subFrames new,
        names⟩

theorem Holds.addSample (holds : builder.Holds sampleTypes pending) (sample : Samples.Sample)
    (values : List Int) :
    Holds sampleTypes (builder.addSample order sample values)
      (pending ++ [tell order sample values]) := by
  rcases addTraceContext_spec order sample.traceContext holds.sound holds.spanId holds.traceId
    with ⟨soundTrace, growsTrace, trace⟩
  rcases addLeafFrame_adds sample.leafFrame _ soundTrace with ⟨soundLeaf, growsLeaf, leaf⟩
  rcases addAll_adds stable_frameOf addFrame_adds
    (sample.callstack.map fun frame => (frame.frame, frame.moduleName)) _ soundLeaf with
    ⟨soundFrames, growsFrames, frames⟩
  rcases addAll_adds stable_labelOf addLabel_adds (textLabels sample.allLabels) _ soundFrames with
    ⟨soundLabels, growsLabels, labels⟩
  rw [PprofBuilder.addSample, stringLabels_eq_textLabels]
  have growsFromLeaf := growsLeaf.trans (growsFrames.trans growsLabels)
  rw [map_id'] at frames labels
  have allFrames := mapM_append_eq
    (mapM_mono (fun _ _ defined => (growsFrames.trans growsLabels).extends_.frameOf defined) leaf)
    (mapM_mono (fun _ _ defined => growsLabels.extends_.frameOf defined) frames)
  have allLabels := mapM_append_eq
    (mapM_mono (fun _ _ defined => growsFromLeaf.extends_.pairAt defined) trace) labels
  apply (growsTrace.trans growsFromLeaf).holds holds soundLabels _ _
    (resolve_eq values allFrames allLabels)
  · intro text isText
    simp only [Resolved.texts, flatMap_append, mem_append] at isText ⊢
    tauto
  · intro frame isFrame
    simpa using isFrame

end AddSample

section Reset

/-- The strings which come first in the table, before anything else is added. -/
structure Fresh (builder : PprofBuilder) : Prop where
  sound : builder.Sound
  count : builder.samplesCount = 0
  sample : builder.profile.sample = []
  function : builder.profile.function = []
  emptyFirst : builder.profile.stringAt 0 = some ""
  spanId : builder.profile.stringAt builder.spanIdStrIndex = some "span_id"
  traceId : builder.profile.stringAt builder.traceIdStrIndex = some "trace_id"
  texts : ∀ text ∈ builder.profile.stringTable, text ∈ ["", "span_id", "trace_id"]

theorem sound_cleared (builder : PprofBuilder) : builder.cleared.Sound where
  strings := Interning.numbers_empty
  locations := Interning.numbers_empty
  functionIds := rfl
  locationLines := rfl
  namesDefined := by
    intro function isFunction
    cases isFunction

theorem addFixedStrings_fresh (builder : PprofBuilder) :
    builder.cleared.addFixedStrings.Fresh ∧
      builder.cleared.addFixedStrings.sampleTypeDefinitions = builder.sampleTypeDefinitions := by
  rcases addString_adds "" _ (sound_cleared builder) with ⟨soundEmpty, growsEmpty, atEmpty⟩
  rcases addStrings_spec "span_id" "trace_id" soundEmpty with ⟨sound, growsIds, atSpan, atTrace⟩
  have grows := growsEmpty.trans growsIds
  refine ⟨⟨?_, grows.samplesCount, grows.sample, ?_, ?_, atSpan, atTrace, ?_⟩,
    grows.sampleTypeDefinitions⟩
  · exact ⟨sound.strings, sound.locations, sound.functionIds, sound.locationLines,
      sound.namesDefined⟩
  · apply eq_nil_iff_forall_not_mem.mpr
    intro function isFunction
    rcases grows.newFrames function isFunction with old | ⟨frame, new, -⟩
    · cases old
    · cases new
  · exact growsIds.extends_.stringAt atEmpty
  · intro text isText
    rcases grows.newTexts text isText with old | new
    · cases old
    · exact new

theorem Fresh.holds {builder after : PprofBuilder} (fresh : builder.Fresh) (sound : after.Sound)
    {texts : List String} (grows : builder.Grows after texts [])
    (own : ∀ text ∈ texts, text ∈ fixedTexts builder.sampleTypeDefinitions)
    {types : List ValueType} {period : ValueType}
    (typesResolved : types.mapM after.profile.typeOf =
      some (builder.sampleTypeDefinitions.map fun sampleType => (sampleType.name, sampleType.unit)))
    (periodResolved : after.profile.typeOf period =
      some (periodType builder.sampleTypeDefinitions)) :
    Holds builder.sampleTypeDefinitions
      { after with
        profile :=
          { after.profile with sampleType := types, period := 1, periodType := period } } [] where
  sound := ⟨sound.strings, sound.locations, sound.functionIds, sound.locationLines,
    sound.namesDefined⟩
  definitions := grows.sampleTypeDefinitions
  count := grows.samplesCount.trans fresh.count
  samplesResolved := by
    have none : after.profile.sample = [] := grows.sample.trans fresh.sample
    simp only [none]
    rfl
  typesResolved := typesResolved
  periodResolved := periodResolved
  emptyFirst := grows.extends_.stringAt fresh.emptyFirst
  spanId := by
    simp only [grows.spanIdStrIndex]
    exact grows.extends_.stringAt fresh.spanId
  traceId := by
    simp only [grows.traceIdStrIndex]
    exact grows.extends_.stringAt fresh.traceId
  ownTexts := by
    intro text isText
    apply Or.inl
    rcases grows.newTexts text isText with old | new
    · exact mem_append_left _ (mem_append_left _ (fresh.texts text old))
    · exact own text new
  ownFrames := by
    intro function isFunction
    rcases grows.newFrames function isFunction with old | ⟨frame, new, -⟩
    · rw [fresh.function] at old
      cases old
    · cases new

theorem addTypes_holds {builder : PprofBuilder} (fresh : builder.Fresh) :
    Holds builder.sampleTypeDefinitions builder.addTypes [] := by
  rcases addAll_adds stable_typeOf addSampleType_adds builder.sampleTypeDefinitions builder
    fresh.sound with ⟨soundTypes, growsTypes, types⟩
  rcases addStrings_spec (periodType builder.sampleTypeDefinitions).1
    (periodType builder.sampleTypeDefinitions).2 soundTypes with
    ⟨sound, growsPeriod, atType, atUnit⟩
  have grows : builder.Grows _ _ [] :=
    (growsTypes.trans growsPeriod).weaken (List.Subset.refl _) (by simp)
  apply fresh.holds sound grows
  · intro text new
    rcases mem_append.mp new with ofType | ofPeriod
    · exact mem_append_left _ (mem_append_right _ ofType)
    · exact mem_append_right _ ofPeriod
  · exact mapM_mono (fun _ _ defined => growsPeriod.extends_.pairAt defined) types
  · exact pairAt_eq atType atUnit

theorem reset_holds (builder : PprofBuilder) :
    Holds builder.sampleTypeDefinitions builder.reset [] := by
  rcases addFixedStrings_fresh builder with ⟨fresh, definitions⟩
  exact definitions ▸ addTypes_holds fresh

end Reset

section Build

theorem exists_of_mapM {items : List α} {results : List β} (defined : items.mapM f = some results) :
    ∀ item ∈ items, ∃ result, f item = some result := by
  induction items generalizing results with
  | nil =>
    intro item isItem
    cases isItem
  | cons first rest ih =>
    simp only [mapM_cons, Option.bind_eq_bind, Option.bind_eq_some_iff] at defined
    rcases defined with ⟨result, isResult, others, areOthers, -⟩
    intro item isItem
    rcases mem_cons.mp isItem with rfl | inRest
    · exact ⟨result, isResult⟩
    · exact ih areOthers item inRest

variable {profile : Profile} {pair : String × String}

theorem pairAt_defined {first second : Nat} (defined : profile.pairAt first second = some pair) :
    profile.stringAt first = some pair.1 ∧ profile.stringAt second = some pair.2 := by
  rcases Option.bind_eq_some_iff.mp defined with ⟨one, atFirst, rest⟩
  rcases Option.map_eq_some_iff.mp rest with ⟨other, atSecond, rfl⟩
  exact ⟨atFirst, atSecond⟩

theorem resolve_defined {resolved : Resolved} (defined : profile.resolve sample = some resolved) :
    sample.locationId.mapM profile.frameOf = some resolved.frames ∧
      sample.label.mapM profile.labelOf = some resolved.labels := by
  rcases Option.bind_eq_some_iff.mp defined with ⟨frames, areFrames, rest⟩
  rcases Option.map_eq_some_iff.mp rest with ⟨labels, areLabels, rfl⟩
  exact ⟨areFrames, areLabels⟩

theorem indices_lt_of_pairAt {first second index : Nat}
    (defined : profile.pairAt first second = some pair) (isIndex : index ∈ [first, second]) :
    index < profile.stringTable.length := by
  rcases pairAt_defined defined with ⟨atFirst, atSecond⟩
  simp only [mem_cons, not_mem_nil, or_false] at isIndex
  rcases isIndex with rfl | rfl
  · exact (List.getElem?_eq_some_iff.mp atFirst).1
  · exact (List.getElem?_eq_some_iff.mp atSecond).1

namespace Sound

variable {builder : PprofBuilder} (sound : builder.Sound)
include sound

theorem exists_function {location : Location} (isLocation : location ∈ builder.profile.location) :
    ∃ function ∈ builder.profile.function, location = ⟨function.id, [⟨function.id⟩]⟩ := by
  rw [sound.locationLines, mem_map] at isLocation
  rcases isLocation with ⟨function, isFunction, same⟩
  exact ⟨function, isFunction, same.symm⟩

/-- Functions with the same names are the same, since names and functions are interned. -/
theorem function_eq_of_names {first second : Function} {names : String × String}
    (isFirst : first ∈ builder.profile.function) (isSecond : second ∈ builder.profile.function)
    (firstNames : builder.profile.namesOf first = some names)
    (secondNames : builder.profile.namesOf second = some names) : first = second := by
  rcases pairAt_defined firstNames with ⟨firstName, firstFile⟩
  rcases pairAt_defined secondNames with ⟨secondName, secondFile⟩
  apply inj_on_of_nodup_map sound.locations.nodup isFirst isSecond
  rw [sound.strings.position_unique firstName secondName,
    sound.strings.position_unique firstFile secondFile]

end Sound

namespace Holds

variable {builder : PprofBuilder} {sampleTypes : List SampleValueType} {pending : List Resolved}
variable (holds : builder.Holds sampleTypes pending)
include holds

theorem stringIndices_lt :
    ∀ index ∈ builder.profile.stringIndices, index < builder.profile.stringTable.length := by
  intro index isIndex
  simp only [Profile.stringIndices, mem_append, mem_flatMap] at isIndex
  rcases isIndex with ((⟨valueType, isType, here⟩ | here) | ⟨function, isFunction, here⟩) |
    ⟨sample, isSample, label, isLabel, here⟩
  · rcases exists_of_mapM holds.typesResolved valueType isType with ⟨pair, defined⟩
    exact indices_lt_of_pairAt defined here
  · exact indices_lt_of_pairAt holds.periodResolved here
  · rcases Option.isSome_iff_exists.mp (holds.sound.namesDefined function isFunction) with
      ⟨pair, defined⟩
    exact indices_lt_of_pairAt defined here
  · rcases exists_of_mapM holds.samplesResolved sample isSample with ⟨resolved, isResolved⟩
    rcases exists_of_mapM (resolve_defined isResolved).2 label isLabel with ⟨pair, defined⟩
    exact indices_lt_of_pairAt defined here

theorem locations_shared {first second : Location} (isFirst : first ∈ builder.profile.location)
    (isSecond : second ∈ builder.profile.location) :
    builder.profile.frameOf first.id = builder.profile.frameOf second.id ↔ first = second := by
  rcases holds.sound.exists_function isFirst with ⟨one, isOne, rfl⟩
  rcases holds.sound.exists_function isSecond with ⟨other, isOther, rfl⟩
  constructor
  · intro same
    rw [holds.sound.frameOf_eq isOne, holds.sound.frameOf_eq isOther] at same
    rcases Option.isSome_iff_exists.mp (holds.sound.namesDefined one isOne) with ⟨names, defined⟩
    rw [holds.sound.function_eq_of_names isOne isOther defined (same.symm.trans defined)]
  · intro same
    rw [same]

theorem tells (timeNanos durationNanos : Int) :
    Tells sampleTypes
      { builder.profile with timeNanos := timeNanos, durationNanos := durationNanos } pending where
  samplesResolved := holds.samplesResolved
  typesResolved := holds.typesResolved
  periodResolved := holds.periodResolved
  emptyFirst := holds.emptyFirst
  stringsDefined := holds.stringIndices_lt
  stringsShared := by
    intro i inside j
    constructor
    · intro same
      have atI := getElem?_eq_getElem inside
      exact holds.sound.strings.position_unique atI (same.symm.trans atI)
    · rintro rfl
      rfl
  idsDefined := by
    intro sample isSample id isId
    rcases exists_of_mapM holds.samplesResolved sample isSample with ⟨resolved, isResolved⟩
    exact Option.isSome_iff_exists.mpr (exists_of_mapM (resolve_defined isResolved).1 id isId)
  functionsDefined := by
    intro location isLocation
    rcases holds.sound.exists_function isLocation with ⟨function, isFunction, rfl⟩
    exact Option.isSome_iff_exists.mpr ⟨function, holds.sound.functionOf_eq isFunction⟩
  idsDistinct := by
    have sameIds : builder.profile.location.map Location.id =
        builder.profile.function.map Function.id := by
      rw [holds.sound.locationLines, map_map]
      rfl
    exact sameIds ▸ holds.sound.nodup_functionIds
  locationsShared := fun _ isFirst _ isSecond => holds.locations_shared isFirst isSecond
  ownTexts := holds.ownTexts
  ownFrames := by
    intro location isLocation
    rcases holds.sound.exists_function isLocation with ⟨function, isFunction, rfl⟩
    rcases holds.ownFrames function isFunction with ⟨sample, isPending, frame, isFrame, names⟩
    exact ⟨sample, isPending, frame, isFrame, (holds.sound.frameOf_eq isFunction).trans names⟩

end Holds

end Build

end PprofBuilder

section Calls

variable {order : NativeWord.ByteOrder} {builder : PprofBuilder}
variable {sampleTypes : List SampleValueType}

/-- Whatever samples are pending, the builder does what the abstract builder does. -/
theorem runCalls_refines (holds : builder.Holds sampleTypes pending) (calls : List Call) :
    List.Forall₂ (Option.Rel (Tells sampleTypes)) (runCalls order builder calls)
      (expected order pending calls) := by
  induction calls generalizing builder pending with
  | nil => exact .nil
  | cons call calls ih =>
    cases call with
    | addSample sample values => exact ih (holds.addSample sample values)
    | build startTime endTime =>
      simp only [runCalls, expected, PprofBuilder.build, holds.count, length_eq_zero_iff]
      split
      case isTrue none => exact .cons .none (ih (none ▸ holds))
      case isFalse =>
        exact .cons (.some (holds.tells _ _)) (ih (holds.definitions ▸ builder.reset_holds))

theorem PprofBuilder.Holds.build (holds : builder.Holds sampleTypes pending)
    (startTime endTime : Int) :
    ∃ rest, (builder.build startTime endTime).2.Holds sampleTypes rest := by
  unfold PprofBuilder.build
  split
  · exact ⟨pending, holds⟩
  · exact ⟨[], holds.definitions ▸ builder.reset_holds⟩

theorem PprofBuilder.Holds.addSamples (order : NativeWord.ByteOrder)
    (holds : builder.Holds sampleTypes pending) (samples : List (Samples.Sample × List Int))
    (calls : List Call) :
    ∃ after : PprofBuilder,
      runCalls order builder (samples.map (fun added => .addSample added.1 added.2) ++ calls) =
        runCalls order after calls ∧
      after.Holds sampleTypes (pending ++ samples.map fun added => tell order added.1 added.2) := by
  induction samples generalizing builder pending with
  | nil => exact ⟨builder, rfl, by simpa using holds⟩
  | cons added rest ih =>
    rcases ih (holds.addSample added.1 added.2) with ⟨after, same, holdsAfter⟩
    exact ⟨after, same, by simpa using holdsAfter⟩

/-- Samples which are added just before a `Build` are the last ones of its profile. -/
theorem exists_built_profile (holds : builder.Holds sampleTypes pending) (earlier : List Call)
    {samples : List (Samples.Sample × List Int)} (nonempty : samples ≠ [])
    (startTime endTime : Int) :
    ∃ profile before,
      (runCalls order builder (earlier ++
        (samples.map (fun added => .addSample added.1 added.2) ++
          [.build startTime endTime]))).getLast? = some (some profile) ∧
      Tells sampleTypes profile
        (before ++ samples.map fun added => tell order added.1 added.2) := by
  induction earlier generalizing builder pending with
  | nil =>
    rcases holds.addSamples order samples [.build startTime endTime] with
      ⟨after, same, holdsAfter⟩
    have counted : after.samplesCount ≠ 0 := by
      rw [holdsAfter.count]
      simp [nonempty]
    refine ⟨_, pending, ?_, holdsAfter.tells startTime (endTime - startTime)⟩
    simp only [nil_append, same, runCalls, PprofBuilder.build, counted, if_false,
      getLast?_singleton]
  | cons call earlier ih =>
    cases call with
    | addSample sample values => exact ih (holds.addSample sample values)
    | build first last =>
      rcases holds.build first last with ⟨rest, holdsAfter⟩
      rcases ih holdsAfter with ⟨profile, before, isLast, tells⟩
      refine ⟨profile, before, ?_, tells⟩
      simp only [cons_append, runCalls, getLast?_cons, isLast, Option.getD_some]

end Calls

/-- For every sequence of calls, the profile of each `Build` says what the samples added since
the `Build` before it say. -/
theorem built_profiles_tell_samples (order : NativeWord.ByteOrder)
    (sampleTypes : List SampleValueType) (calls : List Call) :
    List.Forall₂ (Option.Rel (Tells sampleTypes)) (runCalls order (.new sampleTypes) calls)
      (expected order [] calls) :=
  runCalls_refines (PprofBuilder.reset_holds ⟨sampleTypes, 0, .empty, .empty, .empty, 0, 0⟩) calls

end Pyroscope.Pprof
