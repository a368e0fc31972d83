import Pyroscope.Pprof.RoundTrip
import Pyroscope.Tracing.SpanProcessor

/-!
# From span contexts to trace labels

A context is written by five stores. While the guard is set, the profiler takes it as zero.
-/

namespace Pyroscope.Tracing

open NativeWord List
open Pprof (hexText length_hexText)

/-- `Marshal.WriteInt64` to an offset in the structure. -/
structure Store where
  offset : Nat
  word : Nat
  deriving DecidableEq

def SpanContext.write (context : SpanContext) : List Store :=
  [⟨0, 1⟩, ⟨8, context.localRootSpanId⟩, ⟨16, context.traceIdHi⟩, ⟨24, context.traceIdLo⟩, ⟨0, 0⟩]

/-- The words of a `TraceContextTrackingInfo` by their offsets. -/
abbrev TraceContextTrackingInfo := Nat → Nat

namespace TraceContextTrackingInfo

variable (info : TraceContextTrackingInfo)

def initial : TraceContextTrackingInfo := fun _ => 0

def store (store : Store) : TraceContextTrackingInfo :=
  Function.update info store.offset store.word

def context : SpanContext := ⟨info 8, info 16, info 24⟩

def canReadTraceContext : Bool := info 0 == 0

def getTracingContext : Samples.TraceContext :=
  if canReadTraceContext info then ⟨info 8, info 16, info 24⟩ else ⟨0, 0, 0⟩

end TraceContextTrackingInfo

def writes (order : ByteOrder) (contexts : List ActivityIds) : List Store :=
  contexts.flatMap fun ids => (convertSpanId order ids).write

/-- The structure of a thread which was stopped after some stores. -/
def stoppedAfter (order : ByteOrder) (contexts : List ActivityIds) (stores : Nat) :
    TraceContextTrackingInfo :=
  ((writes order contexts).take stores).foldl TraceContextTrackingInfo.store .initial

/-- The context which was completely written last, each with five stores. -/
def lastWritten (contexts : List ActivityIds) (stores : Nat) : Option ActivityIds :=
  (contexts.take (stores / 5)).getLast?

def ActivityIds.labels (ids : ActivityIds) : List (String × String) :=
  [("span_id", hexText ids.spanId.toList), ("trace_id", hexText ids.traceId.toList)]

section Stops

variable {order : ByteOrder}

theorem lastWritten_cons (ids : ActivityIds) (rest : List ActivityIds) (stores : Nat) :
    lastWritten (ids :: rest) (stores + 5) = some ((lastWritten rest stores).getD ids) := by
  have rounds : (stores + 5) / 5 = stores / 5 + 1 := by omega
  simp only [lastWritten, rounds, take_succ_cons, getLast?_cons]

theorem writes_cons (ids : ActivityIds) (rest : List ActivityIds) :
    writes order (ids :: rest) = (convertSpanId order ids).write ++ writes order rest := rfl

theorem guard_in_write (context : SpanContext) (info : TraceContextTrackingInfo) {stores : Nat}
    (begun : 0 < stores) (unfinished : stores < 5) :
    (context.write.take stores).foldl TraceContextTrackingInfo.store info 0 = 1 := by
  have rounds : stores = 1 ∨ stores = 2 ∨ stores = 3 ∨ stores = 4 := by omega
  rcases rounds with rfl | rfl | rfl | rfl <;>
    simp [SpanContext.write, TraceContextTrackingInfo.store]

theorem write_completed (context : SpanContext) (info : TraceContextTrackingInfo) :
    let written := context.write.foldl TraceContextTrackingInfo.store info
    written 0 = 0 ∧ written.context = context := by
  simp [SpanContext.write, TraceContextTrackingInfo.store, TraceContextTrackingInfo.context]

/-- A thread is stopped in the middle of a write, with the guard set, or its structure holds
the context which was completely written last. -/
theorem stop_cases (order : ByteOrder) (contexts : List ActivityIds) (stores : Nat)
    (info : TraceContextTrackingInfo) (unguarded : info 0 = 0) :
    let stopped := ((writes order contexts).take stores).foldl TraceContextTrackingInfo.store info
    (stopped 0 = 1 ∧ stores % 5 ≠ 0) ∨
      (stopped 0 = 0 ∧ stopped.context =
        ((lastWritten contexts stores).map (convertSpanId order)).getD info.context) := by
  induction contexts generalizing stores info with
  | nil => exact .inr ⟨by simpa [writes] using unguarded, by simp [writes, lastWritten]⟩
  | cons ids rest ih =>
    have size : (convertSpanId order ids).write.length = 5 := rfl
    simp only [writes_cons, take_append, size, foldl_append]
    by_cases unfinished : stores < 5
    · have none : stores - 5 = 0 := by omega
      simp only [none, take_zero, foldl_nil]
      rcases Nat.eq_zero_or_pos stores with rfl | begun
      · exact .inr ⟨unguarded, rfl⟩
      · exact .inl ⟨guard_in_write _ info begun unfinished, by omega⟩
    · obtain ⟨later, rfl⟩ : ∃ later, stores = later + 5 := ⟨stores - 5, by omega⟩
      rcases write_completed (convertSpanId order ids) info with ⟨reset, holds⟩
      have whole : (convertSpanId order ids).write.take (later + 5) =
          (convertSpanId order ids).write := take_of_length_le (by omega)
      simp only [whole, Nat.add_sub_cancel, lastWritten_cons]
      rcases ih later _ reset with ⟨guarded, inside⟩ | ⟨unguarded, last⟩
      · exact .inl ⟨guarded, by omega⟩
      · refine .inr ⟨unguarded, last.trans ?_⟩
        rw [holds]
        cases lastWritten rest later <;> rfl

end Stops

section Labels

variable {order : ByteOrder} {info : TraceContextTrackingInfo}

theorem traceLabels_convertSpanId {ids : ActivityIds} (nonzero : ids.spanId ≠ .replicate 8 0)
    {context : Samples.TraceContext}
    (read : context = ⟨(convertSpanId order ids).localRootSpanId,
      (convertSpanId order ids).traceIdHi, (convertSpanId order ids).traceIdLo⟩) :
    Pprof.traceLabels order context = ids.labels := by
  have names := convertSpanId_names order ids
  have isSpan : (convertSpanId order ids).localRootSpanId ≠ 0 := by
    intro zero
    apply nonzero
    have bytes := eq_replicate_of_ofBytes_eq_zero order _ zero
    apply Vector.toList_inj.mp
    simpa using bytes
  subst read
  simp only [Pprof.traceLabels, isSpan, if_false, names.spanId, names.traceId, ActivityIds.labels]

theorem getTracingContext_of_guard (guarded : info 0 = 1) : info.getTracingContext = ⟨0, 0, 0⟩ := by
  simp [TraceContextTrackingInfo.getTracingContext, TraceContextTrackingInfo.canReadTraceContext,
    guarded]

theorem getTracingContext_of_context {context : SpanContext} (unguarded : info 0 = 0)
    (holds : info.context = context) :
    info.getTracingContext = ⟨context.localRootSpanId, context.traceIdHi, context.traceIdLo⟩ := by
  subst holds
  simp [TraceContextTrackingInfo.getTracingContext, TraceContextTrackingInfo.canReadTraceContext,
    TraceContextTrackingInfo.context, unguarded]

theorem traceLabels_stoppedAfter (order : ByteOrder) {contexts : List ActivityIds}
    (nonzero : ∀ ids ∈ contexts, ids.spanId ≠ .replicate 8 0) (stores : Nat) :
    let trace := Pprof.traceLabels order (stoppedAfter order contexts stores).getTracingContext
    (trace = [] ∧ (stores % 5 = 0 → lastWritten contexts stores = none)) ∨
      ∃ ids, lastWritten contexts stores = some ids ∧ trace = ids.labels := by
  rcases stop_cases order contexts stores .initial rfl with
    ⟨guarded, inside⟩ | ⟨unguarded, holds⟩
  · refine .inl ⟨?_, fun between => absurd between inside⟩
    simp only [stoppedAfter, getTracingContext_of_guard guarded]
    rfl
  · cases last : lastWritten contexts stores with
    | none =>
      rw [last] at holds
      refine .inl ⟨?_, fun _ => rfl⟩
      simp only [stoppedAfter, getTracingContext_of_context unguarded holds]
      rfl
    | some ids =>
      rw [last] at holds
      have isContext : ids ∈ contexts :=
        mem_of_mem_take (mem_of_getLast? last)
      exact .inr ⟨ids, rfl, traceLabels_convertSpanId (nonzero ids isContext)
        (getTracingContext_of_context unguarded holds)⟩

end Labels

/-- Whenever a thread is stopped while it writes contexts, a sample with the context which is
read then has no trace labels in the profile, or those of the context completely written last.
Between two writes it has these labels as soon as there is such a context. -/
theorem sample_labelled_by_last_written (order : ByteOrder) (contexts : List ActivityIds)
    (nonzero : ∀ ids ∈ contexts, ids.spanId ≠ .replicate 8 0) (stores : Nat)
    (sampleTypes : List Pprof.SampleValueType) (earlier : List Pprof.Call)
    (sample : Samples.Sample)
    (read : sample.traceContext = (stoppedAfter order contexts stores).getTracingContext)
    (values : List Int) (later : List (Samples.Sample × List Int)) (startTime endTime : Int) :
    ∃ profile before told after trace,
      (Pprof.runCalls order (.new sampleTypes) (earlier ++
        (((sample, values) :: later).map (fun added => .addSample added.1 added.2) ++
          [.build startTime endTime]))).getLast? = some (some profile) ∧
      profile.sample.mapM profile.resolve = some (before ++ told :: after) ∧
      after.length = later.length ∧
      told.labels = trace ++ Pprof.textLabels sample.allLabels ∧
      ((trace = [] ∧ (stores % 5 = 0 → lastWritten contexts stores = none)) ∨
        ∃ ids, lastWritten contexts stores = some ids ∧
          trace = [("span_id", hexText ids.spanId.toList),
            ("trace_id", hexText ids.traceId.toList)] ∧
          (hexText ids.spanId.toList).length = 16 ∧
          (hexText ids.traceId.toList).length = 32) := by
  have holds := Pprof.PprofBuilder.reset_holds ⟨sampleTypes, 0, .empty, .empty, .empty, 0, 0⟩
  rcases Pprof.exists_built_profile holds earlier (cons_ne_nil (sample, values) later)
    startTime endTime with ⟨profile, before, built, tells⟩
  refine ⟨profile, before, Pprof.tell order sample values, _, _, built, tells.samplesResolved,
    length_map _, rfl, ?_⟩
  rw [read]
  rcases traceLabels_stoppedAfter order nonzero stores with none | ⟨ids, last, labels⟩
  · exact .inl none
  · exact .inr ⟨ids, last, labels, by simp [length_hexText], by simp [length_hexText]⟩

/-- Stopped between two writes, a thread has the labels of the first. -/
theorem sample_labelled_by_first_of_two : let contexts : List ActivityIds :=
      [⟨.replicate 8 0xa7, .replicate 16 0x3c⟩, ⟨.replicate 8 1, .replicate 16 2⟩]
    let sample := { Samples.Sample.create 1 0 "" with
      traceContext := (stoppedAfter .littleEndian contexts 5).getTracingContext }
    ∃ profile before told after,
      (Pprof.runCalls .littleEndian (.new []) [.addSample sample [1], .build 0 1]).getLast? =
        some (some profile) ∧
      profile.sample.mapM profile.resolve = some (before ++ told :: after) ∧
      told.labels =
        [("span_id", "a7a7a7a7a7a7a7a7"), ("trace_id", "3c3c3c3c3c3c3c3c3c3c3c3c3c3c3c3c")] := by
  intro contexts sample
  rcases sample_labelled_by_last_written .littleEndian contexts (by decide) 5 [] [] sample rfl
    [1] [] 0 1 with ⟨profile, before, told, after, trace, built, resolved, -, labels, kind⟩
  refine ⟨profile, before, told, after, built, resolved, labels.trans ?_⟩
  rcases kind with ⟨-, none⟩ | ⟨ids, last, rfl, -⟩
  · exact absurd (none rfl) (by decide)
  · cases last
    decide

end Pyroscope.Tracing
