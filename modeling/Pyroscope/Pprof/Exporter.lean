import Mathlib.Data.List.Chain
import Pyroscope.Pprof.RoundTrip

/-!
# `PprofExporter`

A sample is added to the builders of those blocks of value types in which it has a value which is
not zero.
-/

namespace Pyroscope.Pprof

open List Option

/-- Value types which follow one another, and have the same profile type. -/
structure Block where
  startIndex : Nat
  profileType : ProfileType
  types : List SampleValueType

def blocks (startIndex : Nat) : List SampleValueType → List Block
  | [] => []
  | first :: rest =>
    let groupTypes := first :: rest.takeWhile (·.type = first.type)
    ⟨startIndex, first.type, groupTypes⟩ ::
      blocks (startIndex + groupTypes.length) (rest.dropWhile (·.type = first.type))
termination_by definitions => definitions.length
decreasing_by exact Nat.lt_succ_of_le (dropWhile_sublist _).length_le

structure ProfileTypeEntry where
  startIndex : Nat
  count : Nat
  profileType : ProfileType
  builder : PprofBuilder

def Block.entry (block : Block) : ProfileTypeEntry :=
  ⟨block.startIndex, block.types.length, block.profileType, .new block.types⟩

def slice (values : List Int) (startIndex count : Nat) : List Int :=
  (values.drop startIndex).take count

def allZero (values : List Int) : Bool := values.all (· = 0)

def ProfileTypeEntry.addSample (order : NativeWord.ByteOrder) (sample : Samples.Sample)
    (entry : ProfileTypeEntry) : ProfileTypeEntry :=
  let values := slice sample.values entry.startIndex entry.count
  if allZero values then entry
  else { entry with builder := entry.builder.addSample order sample values }

def addSampleToEntries (order : NativeWord.ByteOrder) (entries : List ProfileTypeEntry)
    (sample : Samples.Sample) : List ProfileTypeEntry :=
  entries.map (·.addSample order sample)

structure ExportedPprof where
  profile : Profile
  profileType : ProfileType

def ProfileTypeEntry.build (startTime endTime : Int) (entry : ProfileTypeEntry) :
    Option ExportedPprof × ProfileTypeEntry :=
  let (profile, builder) := entry.builder.build startTime endTime
  (profile.map (⟨·, entry.profileType⟩), { entry with builder := builder })

/-- The calls of an exporter without providers for upscaling. The samples of the process come with
the `Export`. -/
inductive ExporterCall where
  | add (sample : Samples.Sample)
  | exportProfiles (processSamples : List Samples.Sample) (startTime endTime : Int)

def ExporterCall.samples : ExporterCall → List Samples.Sample
  | .add sample => [sample]
  | .exportProfiles processSamples _ _ => processSamples

def runExports (order : NativeWord.ByteOrder) :
    List ProfileTypeEntry → List ExporterCall → List (List ExportedPprof)
  | _, [] => []
  | entries, .add sample :: calls =>
    runExports order (addSampleToEntries order entries sample) calls
  | entries, .exportProfiles processSamples startTime endTime :: calls =>
    let entries := processSamples.foldl (addSampleToEntries order) entries
    let built := entries.map (·.build startTime endTime)
    built.filterMap Prod.fst :: runExports order (built.map Prod.snd) calls

section Blocks

variable {definitions : List SampleValueType} {startIndex : Nat}

theorem flatten_blocks (startIndex : Nat) (definitions : List SampleValueType) :
    ((blocks startIndex definitions).map Block.types).flatten = definitions := by
  fun_induction blocks startIndex definitions with
  | case1 => rfl
  | case2 startIndex first rest groupTypes ih =>
    simp only [map_cons, flatten_cons, ih, groupTypes, cons_append, takeWhile_append_dropWhile]

/-- A block is not empty, its value types have its profile type, and the next block has another. -/
theorem isChain_blocks (startIndex : Nat) (definitions : List SampleValueType) :
    (∀ block ∈ blocks startIndex definitions,
      block.types ≠ [] ∧ ∀ type ∈ block.types, type.type = block.profileType) ∧
      (blocks startIndex definitions).IsChain fun block next =>
        block.profileType ≠ next.profileType := by
  fun_induction blocks startIndex definitions with
  | case1 => exact ⟨by simp, .nil⟩
  | case2 startIndex first rest groupTypes ih =>
    rcases ih with ⟨uniform, chain⟩
    refine ⟨forall_mem_cons.mpr ⟨⟨by simp [groupTypes], ?_⟩, uniform⟩, ?_⟩
    · refine forall_mem_cons.mpr ⟨rfl, fun type isTaken => ?_⟩
      exact of_decide_eq_true (all_eq_true.mp all_takeWhile type isTaken)
    · refine isChain_cons.mpr ⟨fun next isNext => ?_, chain⟩
      cases isRest : rest.dropWhile (·.type = first.type) with
      | nil => simp [isRest, blocks] at isNext
      | cons second others =>
        have other : second.type ≠ first.type := by
          have dropped := List.head?_dropWhile_not (·.type = first.type) rest
          simpa [isRest] using dropped
        have isSecond : next.profileType = second.type := by
          rw [isRest, blocks] at isNext
          cases isNext
          rfl
        exact fun same => other (isSecond.symm.trans same.symm)

theorem flatten_slices (values : List Int) (startIndex : Nat) (definitions : List SampleValueType) :
    ((blocks startIndex definitions).map fun block =>
      slice values block.startIndex block.types.length).flatten =
        slice values startIndex definitions.length := by
  fun_induction blocks startIndex definitions with
  | case1 => simp [slice]
  | case2 startIndex first rest groupTypes ih =>
    have length : (first :: rest).length = groupTypes.length +
        (rest.dropWhile (·.type = first.type)).length := by
      rw [← length_append]
      simp only [groupTypes, cons_append, takeWhile_append_dropWhile]
    rw [map_cons, flatten_cons, ih, length]
    simp only [slice, take_add, drop_drop]

end Blocks

/-- A sample has a value which is not zero in the block. -/
def Block.Used (block : Block) (sample : Samples.Sample) : Prop :=
  ∃ value ∈ slice sample.values block.startIndex block.types.length, value ≠ 0

instance (block : Block) (sample : Samples.Sample) : Decidable (block.Used sample) :=
  inferInstanceAs (Decidable (∃ _ ∈ _, _))

theorem allZero_iff {block : Block} {sample : Samples.Sample} :
    allZero (slice sample.values block.startIndex block.types.length) = true ↔
      ¬ block.Used sample := by
  simp [allZero, Block.Used]

/-- What the samples which have values in a block say in its profile. -/
def share (order : NativeWord.ByteOrder) (block : Block) (samples : List Samples.Sample) :
    List Resolved :=
  (samples.filter fun sample => block.Used sample).map fun sample =>
    tell order sample (slice sample.values block.startIndex block.types.length)

theorem share_ne_nil {order : NativeWord.ByteOrder} {block : Block}
    {samples : List Samples.Sample} :
    share order block samples ≠ [] ↔ ∃ sample ∈ samples, block.Used sample := by
  simp [share]

/-- The samples which are handed out by the `Export` calls, from those which are pending. -/
def exportedSamples : List Samples.Sample → List ExporterCall → List (List Samples.Sample)
  | _, [] => []
  | pending, .add sample :: calls => exportedSamples (pending ++ [sample]) calls
  | pending, .exportProfiles processSamples _ _ :: calls =>
    (pending ++ processSamples) :: exportedSamples [] calls

/-- The profile of a block tells the values of the block. -/
structure ExportedPprof.Of (order : NativeWord.ByteOrder) (samples : List Samples.Sample)
    (pprof : ExportedPprof) (block : Block) : Prop where
  profileType : pprof.profileType = block.profileType
  tells : Tells block.types pprof.profile (share order block samples)

/-- The entry of a block holds what the pending samples say in it. -/
structure ProfileTypeEntry.Holds (order : NativeWord.ByteOrder) (pending : List Samples.Sample)
    (entry : ProfileTypeEntry) (block : Block) : Prop where
  startIndex : entry.startIndex = block.startIndex
  count : entry.count = block.types.length
  profileType : entry.profileType = block.profileType
  builder : entry.builder.Holds block.types (share order block pending)

section Dispatch

variable {order : NativeWord.ByteOrder} {pending : List Samples.Sample} {entry : ProfileTypeEntry}
variable {block : Block} {entries : List ProfileTypeEntry} {all : List Block}

theorem ProfileTypeEntry.Holds.addSample (holds : entry.Holds order pending block)
    (sample : Samples.Sample) :
    (entry.addSample order sample).Holds order (pending ++ [sample]) block := by
  rcases holds with ⟨startIndex, count, profileType, builder⟩
  simp only [ProfileTypeEntry.addSample, startIndex, count]
  split
  case isTrue zero =>
    have unused := allZero_iff.mp zero
    refine ⟨startIndex, count, profileType, ?_⟩
    simpa [share, filter_append, unused] using builder
  case isFalse nonzero =>
    have used := not_not.mp (mt allZero_iff.mpr nonzero)
    refine ⟨rfl, rfl, profileType, ?_⟩
    have added := @PprofBuilder.Holds.addSample order _ _ _ builder sample
      (slice sample.values block.startIndex block.types.length)
    simpa [share, filter_append, used] using added

theorem ProfileTypeEntry.Holds.build (holds : entry.Holds order pending block)
    (startTime endTime : Int) :
    Option.Rel (fun pprof block => pprof.Of order pending block) (entry.build startTime endTime).1
        (guard (fun block => ∃ sample ∈ pending, block.Used sample) block) ∧
      (entry.build startTime endTime).2.Holds order [] block := by
  rcases holds with ⟨startIndex, count, profileType, builder⟩
  simp only [ProfileTypeEntry.build, PprofBuilder.build, builder.count, length_eq_zero_iff,
    ← @share_ne_nil order]
  split
  case isTrue none =>
    rw [none] at builder
    exact ⟨by simp [Option.guard, none], startIndex, count, profileType, builder⟩
  case isFalse some =>
    have built : guard (fun block => share order block pending ≠ []) block = .some block := by
      simp [Option.guard, some]
    rw [built]
    exact ⟨.some ⟨profileType, builder.tells _ _⟩, startIndex, count, profileType,
      builder.definitions ▸ entry.builder.reset_holds⟩

theorem addSamples_hold (holds : List.Forall₂ (·.Holds order pending ·) entries all)
    (samples : List Samples.Sample) :
    List.Forall₂ (·.Holds order (pending ++ samples) ·)
      (samples.foldl (addSampleToEntries order) entries) all := by
  induction samples generalizing pending entries with
  | nil => simpa using holds
  | cons sample samples ih =>
    have added : List.Forall₂ (·.Holds order (pending ++ [sample]) ·)
        (addSampleToEntries order entries sample) all :=
      forall₂_map_left_iff.mpr (holds.imp fun _ _ held => held.addSample sample)
    simpa using ih added

/-- Each `Export` hands out the profiles of those blocks in which the samples since the one before
say anything, in the order of the blocks. -/
theorem runExports_hold (holds : List.Forall₂ (·.Holds order pending ·) entries all)
    (calls : List ExporterCall) :
    List.Forall₂
      (fun pprofs samples => List.Forall₂ (·.Of order samples ·) pprofs
        (all.filter fun block => ∃ sample ∈ samples, block.Used sample))
      (runExports order entries calls) (exportedSamples pending calls) := by
  induction calls generalizing pending entries with
  | nil => exact .nil
  | cons call calls ih =>
    cases call with
    | add sample => exact ih (addSamples_hold holds [sample])
    | exportProfiles processSamples startTime endTime =>
      have held := addSamples_hold holds processSamples
      refine .cons ?_ (ih ?_)
      · rw [filterMap_map, ← filterMap_eq_filter]
        exact rel_filterMap (fun _ _ held => (held.build startTime endTime).1) held
      · rw [forall₂_map_left_iff, forall₂_map_left_iff]
        exact held.imp fun _ _ held => (held.build startTime endTime).2

end Dispatch

/-- The entries are those of the maximal blocks of value types with one profile type. The profiles
of an `Export` are those of the blocks in which the samples since the one before have any values,
with exactly these samples, in order and with the values of the block; and the values of the blocks
make up all the values. -/
theorem samples_dispatched_once (order : NativeWord.ByteOrder) (definitions : List SampleValueType)
    (calls : List ExporterCall)
    (fits : ∀ call ∈ calls, ∀ sample ∈ call.samples, sample.values.length = definitions.length) :
    ((blocks 0 definitions).map Block.types).flatten = definitions ∧
      (∀ block ∈ blocks 0 definitions,
        block.types ≠ [] ∧ ∀ type ∈ block.types, type.type = block.profileType) ∧
      (blocks 0 definitions).IsChain (fun block next => block.profileType ≠ next.profileType) ∧
      List.Forall₂
        (fun pprofs samples => List.Forall₂ (·.Of order samples ·) pprofs
          ((blocks 0 definitions).filter fun block => ∃ sample ∈ samples, block.Used sample))
        (runExports order ((blocks 0 definitions).map Block.entry) calls)
        (exportedSamples [] calls) ∧
      ∀ call ∈ calls, ∀ sample ∈ call.samples,
        ((blocks 0 definitions).map fun block =>
          slice sample.values block.startIndex block.types.length).flatten = sample.values := by
  rcases isChain_blocks 0 definitions with ⟨uniform, chain⟩
  refine ⟨flatten_blocks 0 definitions, uniform, chain, runExports_hold ?_ calls, ?_⟩
  · refine forall₂_map_left_iff.mpr (forall₂_same.mpr fun block _ => ?_)
    exact ⟨rfl, rfl, rfl, PprofBuilder.reset_holds ⟨block.types, 0, .empty, .empty, .empty, 0, 0⟩⟩
  · intro call isCall sample isSample
    rw [flatten_slices, slice, drop_zero, ← fits call isCall sample isSample, take_length]

def cpuAndWall : List SampleValueType :=
  [⟨"cpu", "nanoseconds", .cpuSample⟩, ⟨"wall", "nanoseconds", .wallTime⟩]

def fiveWall : Samples.Sample := { Samples.Sample.create 2 0 "" with values := [0, 5] }

/-- The wall time of a sample is exported, and its CPU time of zero is not. -/
theorem wall_time_exported_alone : ∃ pprof,
    runExports .littleEndian ((blocks 0 cpuAndWall).map Block.entry)
        [.add fiveWall, .exportProfiles [] 0 1] = [[pprof]] ∧
      pprof.profileType = .wallTime ∧
      Tells [⟨"wall", "nanoseconds", .wallTime⟩] pprof.profile
        [tell .littleEndian fiveWall [5]] := by
  rcases samples_dispatched_once .littleEndian cpuAndWall [.add fiveWall, .exportProfiles [] 0 1]
    (by simp [ExporterCall.samples, cpuAndWall, fiveWall]) with ⟨_, _, _, exported, _⟩
  have isBlock : ((blocks 0 cpuAndWall).filter fun block =>
      ∃ sample ∈ [fiveWall], block.Used sample) =
        [⟨1, .wallTime, [⟨"wall", "nanoseconds", .wallTime⟩]⟩] := by
    simp [cpuAndWall, blocks, Block.Used, slice, fiveWall]
  rcases forall₂_cons_right_iff.mp exported with ⟨pprofs, rest, first, none, isRun⟩
  cases none
  rw [append_nil, nil_append, isBlock] at first
  rcases forall₂_cons_right_iff.mp first with ⟨pprof, others, ⟨isType, tells⟩, alone, rfl⟩
  cases alone
  exact ⟨pprof, isRun, isType, tells⟩

end Pyroscope.Pprof
