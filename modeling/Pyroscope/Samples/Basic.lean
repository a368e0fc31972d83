import Mathlib.Data.List.Basic

/-!
# Samples and their transformation

An operation which throws also returns what it had done to the sample by then. The stores and the
weights are parameters.
-/

namespace Pyroscope.Samples

open List

structure FrameInfoView where
  moduleName : String
  frame : String
  filename : String
  startLine : Nat
  deriving DecidableEq

structure TraceContext where
  currentLocalRootSpanId : Nat
  currentTraceIdHi : Nat
  currentTraceIdLo : Nat
  deriving DecidableEq

inductive LabelValue where
  | string (text : String)
  | numeric (value : Int)
  deriving DecidableEq

structure Sample where
  timestamp : Int
  callstack : List FrameInfoView
  values : List Int
  allLabels : List (String × LabelValue)
  traceContext : TraceContext
  runtimeId : String
  leafFrame : String
  deriving DecidableEq

structure Mutation where
  sample : Sample
  exception : Option String

namespace Sample

/-- A new sample; `Sample::ValuesCount` is set once, before any sample is created. -/
def create (valuesCount : Nat) (timestamp : Int) (runtimeId : String) : Sample where
  timestamp := timestamp
  callstack := []
  values := replicate valuesCount 0
  allLabels := []
  traceContext := ⟨0, 0, 0⟩
  runtimeId := runtimeId
  leafFrame := ""

def addValue (sample : Sample) (value : Int) (index : Nat) : Mutation :=
  if sample.values.length ≤ index then ⟨sample, some "index"⟩
  else ⟨{ sample with values := sample.values.set index value }, none⟩

def addFrame (sample : Sample) (frame : FrameInfoView) : Sample :=
  { sample with callstack := sample.callstack ++ [frame] }

def addLabel (sample : Sample) (label : String × LabelValue) : Sample :=
  { sample with allLabels := sample.allLabels ++ [label] }

def setLeafFrame (sample : Sample) (frame : String) : Sample :=
  { sample with leafFrame := frame }

/-- `Sample::Reset`, which keeps the trace context. -/
def reset (sample : Sample) : Sample :=
  { sample with
    timestamp := 0
    callstack := []
    runtimeId := ""
    allLabels := []
    leafFrame := ""
    values := sample.values.map fun _ => 0 }

end Sample

/-- A raw sample; `onTransform` is its virtual method `OnTransform`. -/
structure RawSample where
  timestamp : Int
  appDomainId : Nat
  traceContext : TraceContext
  tags : List (String × String)
  stack : List Nat
  onTransform : List Nat → Sample → Mutation

structure Stores where
  runtimeId : Nat → Option String
  frame : Nat → Option FrameInfoView

/-- `RawSampleTransformer::SetStack`: frames which are not resolved are left out. -/
def setStack (stores : Stores) (stack : List Nat) (sample : Sample) : Sample :=
  stack.foldl (fun sample instructionPointer =>
    match stores.frame instructionPointer with
    | some frame => sample.addFrame frame
    | none => sample) sample

def transform (stores : Stores) (rawSample : RawSample) (offsets : List Nat) (sample : Sample) :
    Mutation :=
  let sample := sample.reset
  let sample := { sample with runtimeId := (stores.runtimeId rawSample.appDomainId).getD "" }
  let sample := { sample with timestamp := rawSample.timestamp }
  let sample := { sample with traceContext := rawSample.traceContext }
  let sample := rawSample.tags.foldl
    (fun sample tag => sample.addLabel (tag.1, .string tag.2)) sample
  let sample := setStack stores rawSample.stack sample
  rawSample.onTransform offsets sample

structure UpscalingPoissonInfo where
  offsets : List Nat
  samplingDistance : Nat
  sumOffset : Nat

def scaleValues (scale : Int → Int) : List Nat → Sample → Mutation
  | [], sample => ⟨sample, none⟩
  | index :: rest, sample =>
    let scaled := sample.addValue (scale (sample.values.getD index 0)) index
    match scaled.exception with
    | some text => ⟨scaled.sample, some text⟩
    | none => scaleValues scale rest scaled.sample

/-- The Poisson upscaling of `PprofExporter::Add`, provider by provider. -/
def upscale (computeUpscaleWeight : Nat → Nat → Option (Int → Int)) :
    List UpscalingPoissonInfo → Sample → Mutation
  | [], sample => ⟨sample, none⟩
  | info :: rest, sample =>
    let size := sample.values.getD info.sumOffset 0
    if sample.values.length ≤ info.sumOffset ∨ size ≤ 0 then
      upscale computeUpscaleWeight rest sample
    else
      match computeUpscaleWeight size.toNat info.samplingDistance with
      | none => upscale computeUpscaleWeight rest sample
      | some scale =>
        let scaled := scaleValues scale info.offsets sample
        match scaled.exception with
        | some text => ⟨scaled.sample, some text⟩
        | none => upscale computeUpscaleWeight rest scaled.sample

section Zero

variable {sample : Sample} {index : Nat}

/-- Only the values at the offsets are set. -/
def ZeroOutside (offsets : List Nat) (sample : Sample) : Prop :=
  ∀ index, index ∉ offsets → sample.values.getD index 0 = 0

variable {offsets : List Nat} (zero : ZeroOutside offsets sample)
include zero

theorem ZeroOutside.of_values_eq {other : Sample} (same : other.values = sample.values) :
    ZeroOutside offsets other := by
  intro index outside
  rw [same]
  exact zero index outside

theorem ZeroOutside.addValue (inside : index ∈ offsets) (value : Int) :
    ZeroOutside offsets (sample.addValue value index).sample := by
  unfold Sample.addValue
  split
  · exact zero
  · intro other outside
    have distinct : index ≠ other := by
      rintro rfl
      exact outside inside
    simpa [getD_eq_getElem?_getD, getElem?_set_ne distinct] using zero other outside

/-- The exporter leaves a sample alone when no provider's sum lies at one of its values. -/
theorem upscale_eq_self (computeUpscaleWeight : Nat → Nat → Option (Int → Int))
    {infos : List UpscalingPoissonInfo} (separate : ∀ info ∈ infos, info.sumOffset ∉ offsets) :
    upscale computeUpscaleWeight infos sample = ⟨sample, none⟩ := by
  induction infos with
  | nil => rfl
  | cons info rest ih =>
    have noSum := zero info.sumOffset (separate info (mem_cons_self ..))
    have skipped : sample.values.length ≤ info.sumOffset ∨
        sample.values.getD info.sumOffset 0 ≤ 0 := Or.inr (by omega)
    simp only [upscale, if_pos skipped]
    exact ih fun other mem => separate other (mem_cons_of_mem _ mem)

end Zero

end Pyroscope.Samples
