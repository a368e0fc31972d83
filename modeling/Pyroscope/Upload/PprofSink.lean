import Pyroscope.Lib.Fairness

/-!
# `PyroscopePprofSink`

Every access is one step. Once the flag is reset, the worker takes another request only if it was
already past the look at the flag.
-/

namespace Pyroscope.Upload

section

section

open Transition

variable {Pprof : Type}

structure PyroscopeRequest (Pprof : Type) where
  pprofs : List Pprof
  deriving DecidableEq

/-- Where a call of `Export` is: before `size`, before `push` and before `notify_one`. -/
inductive ExportPc (Pprof : Type) where
  | sizing (pprofs : List Pprof)
  | pushing (pprofs : List Pprof)
  | notifying
  | finished
  deriving DecidableEq

def ExportPc.isFinished : ExportPc Pprof → Bool
  | .finished => true
  | _ => false

/-- Where `work` is, with the profiles of a request which are left to upload. -/
inductive WorkerPc (Pprof : Type) where
  | checking
  | popping
  | waiting
  | uploading (pprofs : List Pprof)
  | finished
  deriving DecidableEq

/-- How far the destructor is: after `store`, after the push, after `notify_one`, after `join`. -/
inductive DestructorPc where
  | idle
  | stored
  | pushed
  | notified
  | returned
  deriving DecidableEq

structure PyroscopePprofSink (Pprof : Type) where
  running : Bool
  queue : List (PyroscopeRequest Pprof)
  exports : List (ExportPc Pprof)
  worker : WorkerPc Pprof
  destructor : DestructorPc
  uploaded : List Pprof
  exported : List (PyroscopeRequest Pprof)
  deriving DecidableEq

inductive Event (Pprof : Type) where
  | exportCalled (pprofs : List Pprof)
  | exportSized (call : Nat)
  | exportPushed (call : Nat)
  | exportNotified (call : Nat)
  | workerChecked
  | workerPopped
  | workerWoken
  | workerUploaded
  | runningStored
  | wakeUpPushed
  | wakeUpNotified
  | workerJoined
  deriving DecidableEq

def WorkerPc.notified : WorkerPc Pprof → WorkerPc Pprof
  | .waiting => .popping
  | pc => pc

namespace PyroscopePprofSink

def initial : PyroscopePprofSink Pprof where
  running := true
  queue := []
  exports := []
  worker := .checking
  destructor := .idle
  uploaded := []
  exported := []

variable (sink : PyroscopePprofSink Pprof)

def exportCalled (uploadDisabled : Bool) (pprofs : List Pprof) :
    Option (PyroscopePprofSink Pprof) :=
  match sink.destructor with
  | .idle =>
    some (if uploadDisabled then sink
      else { sink with exports := sink.exports ++ [.sizing pprofs] })
  | _ => none

def exportSized (call : Nat) : Option (PyroscopePprofSink Pprof) :=
  match sink.exports[call]? with
  | some (.sizing pprofs) =>
    some { sink with
      exports := sink.exports.set call
        (if sink.queue.length ≥ 3 then .finished else .pushing pprofs) }
  | _ => none

def exportPushed (call : Nat) : Option (PyroscopePprofSink Pprof) :=
  match sink.exports[call]? with
  | some (.pushing pprofs) =>
    some { sink with
      queue := sink.queue ++ [⟨pprofs⟩]
      exported := sink.exported ++ [⟨pprofs⟩]
      exports := sink.exports.set call .notifying }
  | _ => none

def exportNotified (call : Nat) : Option (PyroscopePprofSink Pprof) :=
  match sink.exports[call]? with
  | some .notifying =>
    some { sink with
      worker := sink.worker.notified
      exports := sink.exports.set call .finished }
  | _ => none

def workerChecked : Option (PyroscopePprofSink Pprof) :=
  match sink.worker with
  | .checking => some { sink with worker := if sink.running then .popping else .finished }
  | _ => none

def workerPopped : Option (PyroscopePprofSink Pprof) :=
  match sink.worker, sink.queue with
  | .popping, [] => some { sink with worker := .waiting }
  | .popping, request :: rest =>
    some { sink with queue := rest, worker := .uploading request.pprofs }
  | _, _ => none

def workerWoken : Option (PyroscopePprofSink Pprof) :=
  match sink.worker with
  | .waiting => some { sink with worker := .popping }
  | _ => none

def workerUploaded : Option (PyroscopePprofSink Pprof) :=
  match sink.worker with
  | .uploading [] => some { sink with worker := .checking }
  | .uploading (pprof :: rest) =>
    some { sink with uploaded := sink.uploaded ++ [pprof], worker := .uploading rest }
  | _ => none

def runningStored : Option (PyroscopePprofSink Pprof) :=
  match sink.destructor, sink.exports.all ExportPc.isFinished with
  | .idle, true => some { sink with running := false, destructor := .stored }
  | _, _ => none

def wakeUpPushed : Option (PyroscopePprofSink Pprof) :=
  match sink.destructor with
  | .stored => some { sink with queue := sink.queue ++ [⟨[]⟩], destructor := .pushed }
  | _ => none

def wakeUpNotified : Option (PyroscopePprofSink Pprof) :=
  match sink.destructor with
  | .pushed => some { sink with worker := sink.worker.notified, destructor := .notified }
  | _ => none

def workerJoined : Option (PyroscopePprofSink Pprof) :=
  match sink.destructor, sink.worker with
  | .notified, .finished => some { sink with destructor := .returned }
  | _, _ => none

def next (uploadDisabled : Bool) (sink : PyroscopePprofSink Pprof) :
    Event Pprof → Option (PyroscopePprofSink Pprof)
  | .exportCalled pprofs => sink.exportCalled uploadDisabled pprofs
  | .exportSized call => sink.exportSized call
  | .exportPushed call => sink.exportPushed call
  | .exportNotified call => sink.exportNotified call
  | .workerChecked => sink.workerChecked
  | .workerPopped => sink.workerPopped
  | .workerWoken => sink.workerWoken
  | .workerUploaded => sink.workerUploaded
  | .runningStored => sink.runningStored
  | .wakeUpPushed => sink.wakeUpPushed
  | .wakeUpNotified => sink.wakeUpNotified
  | .workerJoined => sink.workerJoined

end PyroscopePprofSink

def sinkSystem (uploadDisabled : Bool) : System (PyroscopePprofSink Pprof) (Event Pprof) :=
  .ofFunction .initial (PyroscopePprofSink.next uploadDisabled)

end

/-! ## From `Export` to the worker -/

open Transition List

variable {Pprof : Type}

def profiles (requests : List (PyroscopeRequest Pprof)) : List Pprof :=
  requests.flatMap PyroscopeRequest.pprofs

@[simp]
theorem profiles_nil : profiles ([] : List (PyroscopeRequest Pprof)) = [] := by
  simp [profiles]

@[simp]
theorem profiles_cons (request : PyroscopeRequest Pprof) (rest : List (PyroscopeRequest Pprof)) :
    profiles (request :: rest) = request.pprofs ++ profiles rest := by
  simp [profiles]

@[simp]
theorem profiles_append (first second : List (PyroscopeRequest Pprof)) :
    profiles (first ++ second) = profiles first ++ profiles second :=
  flatMap_append

namespace WorkerPc

def remaining : WorkerPc Pprof → List Pprof
  | .uploading pprofs => pprofs
  | _ => []

/-- The worker takes one more request whatever the flag is. -/
def isTaking : WorkerPc Pprof → Bool
  | .popping | .waiting => true
  | _ => false

@[simp]
theorem remaining_notified (pc : WorkerPc Pprof) : pc.notified.remaining = pc.remaining := by
  cases pc <;> rfl

@[simp]
theorem isTaking_notified (pc : WorkerPc Pprof) : pc.notified.isTaking = pc.isTaking := by
  cases pc <;> rfl

theorem notified_ne_waiting (pc : WorkerPc Pprof) : pc.notified ≠ .waiting := by
  cases pc <;> simp [notified]

end WorkerPc

/-- The wake-up request has been put into the queue. -/
def DestructorPc.hasPushed : DestructorPc → Bool
  | .pushed | .notified | .returned => true
  | .idle | .stored => false

namespace PyroscopePprofSink

/-- The steps of the sink, with what they require and what they change. -/
inductive Taken (sink : PyroscopePprofSink Pprof) : Event Pprof → PyroscopePprofSink Pprof → Prop
  | exportIgnored {pprofs : List Pprof} (idle : sink.destructor = .idle) :
      Taken sink (.exportCalled pprofs) sink
  | exportCalled {pprofs : List Pprof} (idle : sink.destructor = .idle) :
      Taken sink (.exportCalled pprofs) { sink with exports := sink.exports ++ [.sizing pprofs] }
  | exportSized {call : Nat} {pprofs : List Pprof}
      (here : sink.exports[call]? = some (.sizing pprofs)) :
      Taken sink (.exportSized call)
        { sink with
          exports := sink.exports.set call
            (if sink.queue.length ≥ 3 then .finished else .pushing pprofs) }
  | exportPushed {call : Nat} {pprofs : List Pprof}
      (here : sink.exports[call]? = some (.pushing pprofs)) :
      Taken sink (.exportPushed call)
        { sink with
          queue := sink.queue ++ [⟨pprofs⟩]
          exported := sink.exported ++ [⟨pprofs⟩]
          exports := sink.exports.set call .notifying }
  | exportNotified {call : Nat} (here : sink.exports[call]? = some .notifying) :
      Taken sink (.exportNotified call)
        { sink with
          worker := sink.worker.notified
          exports := sink.exports.set call .finished }
  | workerContinued (here : sink.worker = .checking) (running : sink.running = true) :
      Taken sink .workerChecked { sink with worker := .popping }
  | workerFinished (here : sink.worker = .checking) (stopped : sink.running = false) :
      Taken sink .workerChecked { sink with worker := .finished }
  | workerWaited (here : sink.worker = .popping) (empty : sink.queue = []) :
      Taken sink .workerPopped { sink with worker := .waiting }
  | workerPopped {request : PyroscopeRequest Pprof} {rest : List (PyroscopeRequest Pprof)}
      (here : sink.worker = .popping) (first : sink.queue = request :: rest) :
      Taken sink .workerPopped { sink with queue := rest, worker := .uploading request.pprofs }
  | workerWoken (here : sink.worker = .waiting) :
      Taken sink .workerWoken { sink with worker := .popping }
  | workerReady (here : sink.worker = .uploading []) :
      Taken sink .workerUploaded { sink with worker := .checking }
  | workerUploaded {pprof : Pprof} {rest : List Pprof}
      (here : sink.worker = .uploading (pprof :: rest)) :
      Taken sink .workerUploaded
        { sink with uploaded := sink.uploaded ++ [pprof], worker := .uploading rest }
  | runningStored (idle : sink.destructor = .idle)
      (finished : ∀ call ∈ sink.exports, call.isFinished = true) :
      Taken sink .runningStored { sink with running := false, destructor := .stored }
  | wakeUpPushed (stored : sink.destructor = .stored) :
      Taken sink .wakeUpPushed { sink with queue := sink.queue ++ [⟨[]⟩], destructor := .pushed }
  | wakeUpNotified (pushed : sink.destructor = .pushed) :
      Taken sink .wakeUpNotified
        { sink with worker := sink.worker.notified, destructor := .notified }
  | workerJoined (notified : sink.destructor = .notified) (finished : sink.worker = .finished) :
      Taken sink .workerJoined { sink with destructor := .returned }

variable {uploadDisabled : Bool} {sink later : PyroscopePprofSink Pprof} {event : Event Pprof}
  {pc : ExportPc Pprof}

theorem taken_of_next (step : sink.next uploadDisabled event = some later) :
    sink.Taken event later := by
  cases event with
  | exportCalled pprofs =>
    simp only [next, exportCalled] at step
    split at step
    case h_1 idle =>
      cases uploadDisabled with
      | true =>
        cases step
        exact .exportIgnored idle
      | false =>
        cases step
        exact .exportCalled idle
    case h_2 => cases step
  | exportSized call =>
    simp only [next, exportSized] at step
    split at step
    case h_1 pprofs here =>
      cases step
      exact .exportSized here
    case h_2 => cases step
  | exportPushed call =>
    simp only [next, exportPushed] at step
    split at step
    case h_1 pprofs here =>
      cases step
      exact .exportPushed here
    case h_2 => cases step
  | exportNotified call =>
    simp only [next, exportNotified] at step
    split at step
    case h_1 here =>
      cases step
      exact .exportNotified here
    case h_2 => cases step
  | workerChecked =>
    simp only [next, workerChecked] at step
    split at step
    case h_1 here =>
      by_cases isRunning : sink.running = true
      · rw [if_pos isRunning] at step
        cases step
        exact .workerContinued here isRunning
      · rw [if_neg isRunning] at step
        cases step
        exact .workerFinished here (Bool.eq_false_iff.mpr isRunning)
    case h_2 => cases step
  | workerPopped =>
    simp only [next, workerPopped] at step
    split at step
    case h_1 here empty =>
      cases step
      exact .workerWaited here empty
    case h_2 request rest here first =>
      cases step
      exact .workerPopped here first
    case h_3 => cases step
  | workerWoken =>
    simp only [next, workerWoken] at step
    split at step
    case h_1 here =>
      cases step
      exact .workerWoken here
    case h_2 => cases step
  | workerUploaded =>
    simp only [next, workerUploaded] at step
    split at step
    case h_1 here =>
      cases step
      exact .workerReady here
    case h_2 pprof rest here =>
      cases step
      exact .workerUploaded here
    case h_3 => cases step
  | runningStored =>
    simp only [next, runningStored] at step
    split at step
    case h_1 idle finished =>
      cases step
      exact .runningStored idle (all_eq_true.mp finished)
    case h_2 => cases step
  | wakeUpPushed =>
    simp only [next, wakeUpPushed] at step
    split at step
    case h_1 stored =>
      cases step
      exact .wakeUpPushed stored
    case h_2 => cases step
  | wakeUpNotified =>
    simp only [next, wakeUpNotified] at step
    split at step
    case h_1 pushed =>
      cases step
      exact .wakeUpNotified pushed
    case h_2 => cases step
  | workerJoined =>
    simp only [next, workerJoined] at step
    split at step
    case h_1 notified finished =>
      cases step
      exact .workerJoined notified finished
    case h_2 => cases step

/-- Every profile which was exported is uploaded, at hand or in the queue, in this order. -/
def Conserved (sink : PyroscopePprofSink Pprof) : Prop :=
  sink.uploaded ++ sink.worker.remaining ++ profiles sink.queue = profiles sink.exported

theorem Conserved.step (conserved : sink.Conserved) (taken : sink.Taken event later) :
    later.Conserved := by
  unfold Conserved at conserved ⊢
  cases taken with
  | exportIgnored | exportCalled | exportSized | runningStored | workerJoined => exact conserved
  | exportPushed => simp [← conserved]
  | exportNotified | wakeUpNotified => simpa using conserved
  | workerContinued here | workerFinished here | workerWaited here | workerWoken here
  | workerReady here | workerUploaded here =>
    simpa [here, WorkerPc.remaining] using conserved
  | workerPopped here first => simpa [here, first, WorkerPc.remaining] using conserved
  | wakeUpPushed => simpa using conserved

structure Begun (sink : PyroscopePprofSink Pprof) : Prop where
  stopped : sink.running = false
  finished : ∀ call ∈ sink.exports, call.isFinished = true

theorem Begun.isFinished (begun : sink.Begun) {call : Nat} (here : sink.exports[call]? = some pc) :
    pc.isFinished = true :=
  begun.finished pc (mem_of_getElem? here)

theorem begun_step (begun : sink.destructor ≠ .idle → sink.Begun)
    (taken : sink.Taken event later) (started : later.destructor ≠ .idle) : later.Begun := by
  cases taken with
  | exportIgnored => exact begun started
  | workerContinued | workerFinished | workerWaited | workerPopped | workerWoken | workerReady
  | workerUploaded =>
    rcases begun started with ⟨stopped, finished⟩
    exact ⟨stopped, finished⟩
  | exportCalled idle => exact absurd idle started
  | exportSized here | exportPushed here | exportNotified here =>
    cases (begun started).isFinished here
  | runningStored _ finished => exact ⟨rfl, finished⟩
  | wakeUpPushed before | wakeUpNotified before | workerJoined before =>
    rcases begun (by simp [before]) with ⟨stopped, finished⟩
    exact ⟨stopped, finished⟩

theorem joined_step (joined : sink.destructor = .returned → sink.worker = .finished)
    (taken : sink.Taken event later) (returned : later.destructor = .returned) :
    later.worker = .finished := by
  cases taken with
  | exportIgnored | exportCalled | exportSized | exportPushed => exact joined returned
  | exportNotified => simp [joined returned, WorkerPc.notified]
  | workerContinued here | workerFinished here | workerWaited here | workerPopped here
  | workerWoken here | workerReady here | workerUploaded here =>
    cases here.symm.trans (joined returned)
  | runningStored | wakeUpPushed | wakeUpNotified => cases returned
  | workerJoined _ finished => exact finished

theorem notifying_mem_set {calls : List (ExportPc Pprof)} {call : Nat} (mem : .notifying ∈ calls)
    (other : calls[call]? ≠ some .notifying) :
    .notifying ∈ calls.set call pc := by
  rcases mem_iff_getElem?.mp mem with ⟨index, here⟩
  apply mem_iff_getElem?.mpr
  refine ⟨index, ?_⟩
  rw [getElem?_set_ne (by rintro rfl; exact other here)]
  exact here

/-- Whoever has put a request into the queue is going to notify a waiting worker. -/
def Awaited (sink : PyroscopePprofSink Pprof) : Prop :=
  sink.worker = .waiting → sink.queue = [] ∨ .notifying ∈ sink.exports ∨ sink.destructor = .pushed

theorem Awaited.step (awaited : sink.Awaited) (taken : sink.Taken event later) : later.Awaited := by
  intro waiting
  cases taken with
  | exportIgnored => exact awaited waiting
  | exportCalled =>
    rcases awaited waiting with empty | notifying | pushed
    · exact .inl empty
    · exact .inr (.inl (mem_append_left _ notifying))
    · exact .inr (.inr pushed)
  | exportSized here =>
    rcases awaited waiting with empty | notifying | pushed
    · exact .inl empty
    · exact .inr (.inl (notifying_mem_set notifying (by simp [here])))
    · exact .inr (.inr pushed)
  | exportPushed here =>
    rcases List.getElem?_eq_some_iff.mp here with ⟨inside, -⟩
    exact .inr (.inl (mem_set inside .notifying))
  | exportNotified | wakeUpNotified => exact absurd waiting sink.worker.notified_ne_waiting
  | workerWaited _ empty => exact .inl empty
  | workerContinued | workerFinished | workerPopped | workerWoken | workerReady
  | workerUploaded => cases waiting
  | runningStored idle =>
    rcases awaited waiting with empty | notifying | pushed
    · exact .inl empty
    · exact .inr (.inl notifying)
    · cases idle.symm.trans pushed
  | wakeUpPushed => exact .inr (.inr rfl)
  | workerJoined _ finished => cases waiting.symm.trans finished

/-- From its push on, the wake-up request is there for a worker which takes one more request. -/
def WakesUp (sink : PyroscopePprofSink Pprof) : Prop :=
  sink.destructor.hasPushed = true → sink.worker.isTaking = true → sink.queue ≠ []

theorem WakesUp.step (wakesUp : sink.WakesUp) (begun : sink.destructor ≠ .idle → sink.Begun)
    (taken : sink.Taken event later) : later.WakesUp := by
  intro pushed taking
  cases taken with
  | exportIgnored | exportCalled | exportSized => exact wakesUp pushed taking
  | exportPushed | wakeUpPushed => simp
  | exportNotified => exact wakesUp pushed (by simpa using taking)
  | workerContinued _ running =>
    have started : sink.destructor ≠ .idle := by
      intro idle
      simp [idle, DestructorPc.hasPushed] at pushed
    cases running.symm.trans (begun started).stopped
  | workerWaited here empty | workerWoken here =>
    exact wakesUp pushed (by simp [here, WorkerPc.isTaking])
  | workerFinished | workerPopped | workerReady | workerUploaded => cases taking
  | runningStored => cases pushed
  | wakeUpNotified before =>
    exact wakesUp (by simp [before, DestructorPc.hasPushed]) (by simpa using taking)
  | workerJoined before =>
    exact wakesUp (by simp [before, DestructorPc.hasPushed]) taking

/-- No profile is lost, and a waiting thread is woken up. -/
structure Valid (sink : PyroscopePprofSink Pprof) : Prop where
  conserved : sink.Conserved
  begun : sink.destructor ≠ .idle → sink.Begun
  joined : sink.destructor = .returned → sink.worker = .finished
  awaited : sink.Awaited
  wakesUp : sink.WakesUp

theorem valid_initial : (initial : PyroscopePprofSink Pprof).Valid where
  conserved := rfl
  begun := fun started => absurd rfl started
  joined := fun returned => by cases returned
  awaited := fun waiting => by cases waiting
  wakesUp := fun pushed => by cases pushed

theorem Valid.step (valid : sink.Valid) (taken : sink.Taken event later) : later.Valid where
  conserved := valid.conserved.step taken
  begun := begun_step valid.begun taken
  joined := joined_step valid.joined taken
  awaited := valid.awaited.step taken
  wakesUp := valid.wakesUp.step valid.begun taken

theorem Valid.not_waiting (valid : sink.Valid) (notified : sink.destructor = .notified) :
    sink.worker ≠ .waiting := by
  intro waiting
  rcases valid.awaited waiting with empty | notifying | pushed
  · exact valid.wakesUp (by simp [notified, DestructorPc.hasPushed])
      (by simp [waiting, WorkerPc.isTaking]) empty
  · cases (valid.begun (by simp [notified])).finished _ notifying
  · cases notified.symm.trans pushed

end PyroscopePprofSink

section Runs

variable {uploadDisabled : Bool} {sink : PyroscopePprofSink Pprof} {events : List (Event Pprof)}

theorem valid_of_run (run : (sinkSystem uploadDisabled).Run .initial events sink) : sink.Valid := by
  apply run.invariant PyroscopePprofSink.Valid PyroscopePprofSink.valid_initial
  intro sink event later valid step
  exact valid.step (PyroscopePprofSink.taken_of_next step)

end Runs

end

/-! ## What is uploaded before the destructor returns -/

open Transition PyroscopePprofSink

variable {Pprof : Type}

/-- The threads, and what wakes up a waiting thread without a notification. -/
inductive Thread where
  | exporter
  | worker
  | destructor
  | system
  deriving DecidableEq

def Event.thread : Event Pprof → Thread
  | .exportCalled _ | .exportSized _ | .exportPushed _ | .exportNotified _ => .exporter
  | .workerChecked | .workerPopped | .workerUploaded => .worker
  | .workerWoken => .system
  | .runningStored | .wakeUpPushed | .wakeUpNotified | .workerJoined => .destructor

namespace PyroscopePprofSink

variable {uploadDisabled : Bool} {sink later : PyroscopePprofSink Pprof} {event : Event Pprof}

section Abandoned

def abandoned (sink : PyroscopePprofSink Pprof) : List (PyroscopeRequest Pprof) :=
  if sink.worker.isTaking then sink.queue.tail else sink.queue

/-- When the flag is reset, no profiles are in the requests which the worker does not take. -/
def Drained (sink : PyroscopePprofSink Pprof) : Event Pprof → Prop
  | .runningStored => profiles sink.abandoned = []
  | _ => True

theorem profiles_tail_append (queue : List (PyroscopeRequest Pprof)) :
    profiles (queue ++ [(⟨[]⟩ : PyroscopeRequest Pprof)]).tail = profiles queue.tail := by
  cases queue <;> simp

/-- Nobody takes or adds a profile behind the requests which the worker still takes. -/
theorem abandoned_step (begun : sink.Begun) (started : sink.destructor ≠ .idle)
    (taken : sink.Taken event later) : profiles later.abandoned = profiles sink.abandoned := by
  cases taken with
  | exportIgnored idle | exportCalled idle | runningStored idle => exact absurd idle started
  | exportSized here | exportPushed here | exportNotified here => cases begun.isFinished here
  | workerContinued _ running => cases running.symm.trans begun.stopped
  | workerFinished here | workerWaited here | workerWoken here | workerReady here
  | workerUploaded here => simp [abandoned, here, WorkerPc.isTaking]
  | workerPopped here first => simp [abandoned, here, first, WorkerPc.isTaking]
  | wakeUpPushed =>
    simp only [abandoned]
    split
    · exact profiles_tail_append sink.queue
    · simp
  | wakeUpNotified => simp [abandoned]
  | workerJoined => rfl

/-- Since the destructor has begun, nothing is left for nobody. -/
def NothingAbandoned (sink : PyroscopePprofSink Pprof) : Prop :=
  sink.destructor ≠ .idle → profiles sink.abandoned = []

theorem started_step (started : sink.destructor ≠ .idle) (taken : sink.Taken event later) :
    later.destructor ≠ .idle ∧ sink.Drained event := by
  cases taken with
  | exportIgnored idle | exportCalled idle | runningStored idle => exact absurd idle started
  | wakeUpPushed | wakeUpNotified | workerJoined => exact ⟨by simp, trivial⟩
  | _ => exact ⟨started, trivial⟩

theorem nothingAbandoned_step (valid : sink.Valid) (taken : sink.Taken event later) :
    later.NothingAbandoned ↔ sink.NothingAbandoned ∧ sink.Drained event := by
  by_cases idle : sink.destructor = .idle
  · have before : sink.NothingAbandoned := fun started => absurd idle started
    cases taken with
    | runningStored => exact ⟨fun after => ⟨before, after (by simp)⟩, fun met _ => met.2⟩
    | wakeUpPushed other | wakeUpNotified other | workerJoined other =>
      cases idle.symm.trans other
    | _ => exact ⟨fun _ => ⟨before, trivial⟩, fun _ started => absurd idle started⟩
  · rcases started_step idle taken with ⟨started, drained⟩
    have same := abandoned_step (valid.begun idle) idle taken
    exact ⟨fun after => ⟨fun _ => same ▸ after started, drained⟩,
      fun before _ => same.trans (before.1 idle)⟩

theorem Valid.uploaded_iff (valid : sink.Valid) (returned : sink.destructor = .returned) :
    sink.uploaded = profiles sink.exported ↔ sink.NothingAbandoned := by
  have finished := valid.joined returned
  have all := valid.conserved
  simp only [Conserved, finished, WorkerPc.remaining, List.append_nil] at all
  simp [NothingAbandoned, returned, abandoned, finished, WorkerPc.isTaking, ← all]

end Abandoned

section Return

def workLeft (sink : PyroscopePprofSink Pprof) : Nat :=
  match sink.worker with
  | .popping | .waiting => 3 + (sink.queue.head?.elim 0 fun request => request.pprofs.length)
  | .uploading pprofs => 2 + pprofs.length
  | .checking => 1
  | .finished => 0

def rank (sink : PyroscopePprofSink Pprof) : Nat × Nat :=
  match sink.destructor with
  | .idle => (4, 0)
  | .stored => (3, 0)
  | .pushed => (2, 0)
  | .notified => (1, sink.workLeft)
  | .returned => (0, 0)

def helper (sink : PyroscopePprofSink Pprof) : Thread :=
  match sink.destructor, sink.worker with
  | .notified, .finished => .destructor
  | .notified, _ => .worker
  | _, _ => .destructor

theorem helper_cases (sink : PyroscopePprofSink Pprof) :
    sink.helper = .worker ∨ sink.helper = .destructor := by
  unfold helper
  split
  · exact .inr rfl
  · exact .inl rfl
  · exact .inr rfl

theorem helper_enabled (valid : sink.Valid) (started : sink.destructor ≠ .idle)
    (waits : sink.destructor ≠ .returned) :
    (sinkSystem uploadDisabled).Enabled Event.thread sink.helper sink := by
  cases stage : sink.destructor with
  | idle => exact absurd stage started
  | returned => exact absurd stage waits
  | stored =>
    exact System.enabled_of_isSome .wakeUpPushed (by simp [helper, stage, Event.thread])
      (by simp [next, wakeUpPushed, stage])
  | pushed =>
    exact System.enabled_of_isSome .wakeUpNotified (by simp [helper, stage, Event.thread])
      (by simp [next, wakeUpNotified, stage])
  | notified =>
    cases pc : sink.worker with
    | finished =>
      exact System.enabled_of_isSome .workerJoined (by simp [helper, stage, pc, Event.thread])
        (by simp [next, workerJoined, stage, pc])
    | checking =>
      exact System.enabled_of_isSome .workerChecked (by simp [helper, stage, pc, Event.thread])
        (by simp [next, workerChecked, pc])
    | waiting => exact absurd pc (valid.not_waiting stage)
    | popping =>
      apply System.enabled_of_isSome .workerPopped (by simp [helper, stage, pc, Event.thread])
      cases items : sink.queue <;> simp [next, workerPopped, pc, items]
    | uploading pprofs =>
      apply System.enabled_of_isSome .workerUploaded (by simp [helper, stage, pc, Event.thread])
      cases pprofs <;> simp [next, workerUploaded, pc]

theorem workLeft_step (valid : sink.Valid) (notified : sink.destructor = .notified)
    (taken : sink.Taken event later) :
    later.destructor = .returned ∨
      (later.destructor = .notified ∧ later.workLeft < sink.workLeft) := by
  have started : sink.destructor ≠ .idle := by simp [notified]
  have begun := valid.begun started
  cases taken with
  | exportIgnored idle | exportCalled idle | runningStored idle => exact absurd idle started
  | exportSized here | exportPushed here | exportNotified here => cases begun.isFinished here
  | workerContinued _ running => cases running.symm.trans begun.stopped
  | workerWaited here empty =>
    exact absurd empty (valid.wakesUp (by simp [notified, DestructorPc.hasPushed])
      (by simp [here, WorkerPc.isTaking]))
  | workerWoken here => exact absurd here (valid.not_waiting notified)
  | workerFinished here | workerReady here | workerUploaded here =>
    exact .inr ⟨notified, by simp [workLeft, here]⟩
  | workerPopped here first => exact .inr ⟨notified, by simp [workLeft, here, first]⟩
  | wakeUpPushed other | wakeUpNotified other => cases notified.symm.trans other
  | workerJoined => exact .inl rfl

theorem destructor_step (started : sink.destructor ≠ .idle)
    (unnotified : sink.destructor ≠ .notified) (taken : sink.Taken event later) :
    (later.destructor = sink.destructor ∧ event.thread ≠ .destructor) ∨
      (sink.destructor = .stored ∧ later.destructor = .pushed) ∨
      (sink.destructor = .pushed ∧ later.destructor = .notified) := by
  cases taken with
  | runningStored idle => exact absurd idle started
  | wakeUpPushed stored => exact .inr (.inl ⟨stored, rfl⟩)
  | wakeUpNotified pushed => exact .inr (.inr ⟨pushed, rfl⟩)
  | workerJoined notified => exact absurd notified unnotified
  | _ => exact .inl ⟨rfl, by simp [Event.thread]⟩

theorem rank_eq (same : later.destructor = sink.destructor)
    (unnotified : sink.destructor ≠ .notified) :
    later.rank = sink.rank ∧ later.helper = sink.helper ∧ sink.helper = .destructor := by
  cases stage : sink.destructor with
  | notified => exact absurd stage unnotified
  | _ => simp [rank, helper, same, stage]

theorem rank_step (valid : sink.Valid) (started : sink.destructor ≠ .idle)
    (taken : sink.Taken event later) :
    later.destructor = .returned ∨ Prod.Lex (· < ·) (· < ·) later.rank sink.rank ∨
      (later.rank = sink.rank ∧ later.helper = sink.helper ∧ event.thread ≠ sink.helper) := by
  by_cases notified : sink.destructor = .notified
  · rcases workLeft_step valid notified taken with returned | ⟨stays, less⟩
    · exact .inl returned
    · refine .inr (.inl ?_)
      simp only [rank, notified, stays]
      exact .right 1 less
  · rcases destructor_step started notified taken with ⟨same, other⟩ | ⟨stored, pushed⟩ |
      ⟨pushed, after⟩
    · rcases rank_eq same notified with ⟨sameRank, sameHelper, isHelper⟩
      exact .inr (.inr ⟨sameRank, sameHelper, isHelper ▸ other⟩)
    · refine .inr (.inl ?_)
      simp only [rank, stored, pushed]
      exact .left 0 0 (by decide)
    · refine .inr (.inl ?_)
      simp only [rank, pushed, after]
      exact .left _ 0 (by decide)

def ranking (uploadDisabled : Bool) :
    (sinkSystem uploadDisabled : System (PyroscopePprofSink Pprof) _).Ranking Event.thread
      (Nat × Nat) where
  lower := Prod.Lex (· < ·) (· < ·)
  wellFounded := (Prod.lex Nat.lt_wfRel Nat.lt_wfRel).wf
  rank := rank
  helper := helper
  invariant sink := sink.Valid ∧ sink.destructor ≠ .idle
  goal sink := sink.destructor = .returned
  enabled _ holds waits := helper_enabled holds.1 holds.2 waits
  progress _ _ _ holds _ step :=
    have taken := taken_of_next step
    ⟨⟨holds.1.step taken, (started_step holds.2 taken).1⟩, rank_step holds.1 holds.2 taken⟩

end Return

end PyroscopePprofSink

section Runs

variable {uploadDisabled : Bool} {sink : PyroscopePprofSink Pprof} {events : List (Event Pprof)}

theorem nothingAbandoned_iff (run : (sinkSystem uploadDisabled).Run .initial events sink) :
    sink.NothingAbandoned ↔
      ((sinkSystem uploadDisabled).restrict PyroscopePprofSink.Drained).Run .initial events
        sink := by
  apply run.restrict_iff PyroscopePprofSink.Valid PyroscopePprofSink.NothingAbandoned valid_initial
  · intro started
    exact absurd rfl started
  · intro sink event later valid step
    have taken := taken_of_next step
    exact ⟨valid.step taken, nothingAbandoned_step valid taken⟩

end Runs

/-- In every run, what is uploaded is what was exported first, each profile once and in order. -/
theorem uploaded_in_order (run : (sinkSystem uploadDisabled).Run .initial events sink) :
    sink.uploaded <+: profiles sink.exported := by
  have conserved := (valid_of_run run).conserved
  rw [Conserved, List.append_assoc] at conserved
  exact ⟨_, conserved⟩

theorem first_profile_uploaded : ∃ sink : PyroscopePprofSink Nat,
    (sinkSystem false).Run .initial [.exportCalled [1, 2], .exportSized 0, .exportPushed 0,
      .workerChecked, .workerPopped, .workerUploaded] sink ∧
    sink.uploaded = [1] ∧ sink.uploaded <+: profiles sink.exported :=
  System.exists_run_of_exec rfl fun run => ⟨rfl, uploaded_in_order run⟩

/-- The destructor always returns. By then, all that was exported is uploaded once and in order
just in those runs where no profiles are left to requests behind the last one of the worker. -/
theorem exports_uploaded_at_return_iff (uploadDisabled : Bool) :
    (∀ (events : List (Event Pprof)) (sink : PyroscopePprofSink Pprof),
      (sinkSystem uploadDisabled).Run .initial events sink → sink.destructor = .returned →
      (sink.uploaded = profiles sink.exported ↔
        ((sinkSystem uploadDisabled).restrict PyroscopePprofSink.Drained).Run .initial events
          sink)) ∧
    (∀ execution : (sinkSystem uploadDisabled : System (PyroscopePprofSink Pprof) _).Execution,
      execution.Fair Event.thread .worker → execution.Fair Event.thread .destructor →
      ∀ time, (execution.state time).destructor ≠ .idle →
      ∃ later ≥ time, (execution.state later).destructor = .returned) := by
  constructor
  · intro events sink run returned
    exact ((valid_of_run run).uploaded_iff returned).trans (nothingAbandoned_iff run)
  · intro execution worker destructor time started
    rcases execution.exists_run time with ⟨events, run⟩
    apply (ranking uploadDisabled).reaches execution ?_ ⟨valid_of_run run, started⟩
    intro sink
    have fair : execution.Fair Event.thread sink.helper := by
      rcases sink.helper_cases with isWorker | isDestructor
      · exact isWorker ▸ worker
      · exact isDestructor ▸ destructor
    exact fair

/-- The flag is reset while the worker is busy with the only request. -/
theorem taken_export_uploaded_at_return : let events : List (Event Nat) :=
      [.exportCalled [1, 2], .exportSized 0, .exportPushed 0, .exportNotified 0, .workerChecked,
        .workerPopped, .runningStored, .wakeUpPushed, .wakeUpNotified, .workerUploaded,
        .workerUploaded, .workerUploaded, .workerChecked, .workerJoined]
    (∃ sink, (sinkSystem false).Run .initial events sink ∧ sink.destructor = .returned ∧
      sink.uploaded = [1, 2] ∧ sink.uploaded = profiles sink.exported) ∧
    ∃ later ≥ 7, ((System.replay (next false) .initial events).state
      later).destructor = .returned := by
  intro events
  have meets : System.MeetsAlong (next false) PyroscopePprofSink.Drained .initial events := by
    repeat' constructor
  have blocked (thread : Thread) (other : thread ≠ .exporter) :
      ¬(sinkSystem false).Enabled Event.thread thread
        (⟨false, [⟨[]⟩], [.finished], .finished, .returned, [1, 2], [⟨[1, 2]⟩]⟩ :
          PyroscopePprofSink Nat) := by
    rintro ⟨event, later, moves, step⟩
    cases event with
    | exportCalled | exportSized | exportPushed | exportNotified => exact other moves.symm
    | _ => cases step
  constructor
  · refine ⟨_, System.run_of_exec rfl, rfl, rfl, ?_⟩
    exact ((exports_uploaded_at_return_iff false).1 events _ (System.run_of_exec rfl) rfl).mpr
      (System.run_restrict_of_exec rfl meets)
  · exact (exports_uploaded_at_return_iff false).2
      (System.replay (next false) .initial events)
      (System.replay_fair rfl (blocked .worker (by decide)))
      (System.replay_fair rfl (blocked .destructor (by decide))) 7 (by decide)

/-- The flag is reset before the worker looks at it for the first time. -/
theorem export_lost_at_return :
    ∃ (events : List (Event Nat)) (sink : PyroscopePprofSink Nat),
      (sinkSystem false).Run .initial events sink ∧ sink.destructor = .returned ∧
      sink.exported = [⟨[1, 2]⟩] ∧ sink.uploaded = [] :=
  ⟨[.exportCalled [1, 2], .exportSized 0, .exportPushed 0, .exportNotified 0, .runningStored,
      .workerChecked, .wakeUpPushed, .wakeUpNotified, .workerJoined], _,
    System.run_of_exec rfl, rfl, rfl, rfl⟩

end Pyroscope.Upload
