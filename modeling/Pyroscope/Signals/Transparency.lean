import Pyroscope.Signals.WrappedCalls

/-!
# Transparency of wrapped calls

The flag tells the truth if every handler marks the call which the signal has interrupted, and
nothing else is marked.
-/

namespace Pyroscope.Signals

open Transition ThreadState Function Option

namespace CallPc

def usesFlag : CallPc → Bool
  | .calling | .inside | .testing => true
  | _ => false

@[simp] theorem usesFlag_afterSharing (withdraws : Bool) :
    (afterSharing withdraws).usesFlag = false := by
  cases withdraws <;> rfl

def finishes : CallPc → Bool
  | .loadFunction withdraws | .loadInstance withdraws | .setSharedMemory withdraws => withdraws
  | .returning => true
  | _ => false

@[simp] theorem finishes_afterSharing (withdraws : Bool) :
    (afterSharing withdraws).finishes = withdraws := by
  cases withdraws <;> rfl

end CallPc

/-- The call on top if it is inside of its underlying call, which a signal then interrupts. -/
def underlyingCall : List Frame → Option Call
  | .call call :: _ => if call.pc = .inside then some call else none
  | _ => none

def Process.callToMark (process : Process) (thread : Thread) : Option Call :=
  match process.collector.handlers thread with
  | some ⟨.profiler, _⟩ => underlyingCall (process.threads thread).interrupted
  | _ => none

/-- The flag belongs to the call which the handler has interrupted, where it is not used. -/
def Harmless (process : Process) (thread : Thread) (flag : CallId) : Prop :=
  flag.thread = thread ∧ ∃ call rest, (process.threads thread).interrupted = .call call :: rest ∧
    call.number = flag.number ∧ call.pc.usesFlag = false

/--
A handler which has to mark a call finds the collector and the flag of that call, and any other
handler finds no flag in use; a profiler's signal which has interrupted an underlying call does
not end in another handler.
-/
def Attributed (process : Process) : ProcessEvent → Prop
  | .collector (.handler thread .loadInstance) | .collector (.handler thread .reloadInstance) =>
    process.callToMark thread = none ∨ process.collector.instanceSet = true
  | .collector (.handler thread .readMemoryArea) =>
    match process.callToMark thread with
    | some call => process.currentMemoryArea = some ⟨thread, call.number⟩
    | none => ∀ flag, process.currentMemoryArea = some flag → Harmless process thread flag
  | .collector (.discard thread) =>
    process.collector.pending thread = some .profiler →
      underlyingCall (process.threads thread).frames = none
  | _ => True

/-- A call fails only if another signal has interrupted it. -/
def ReturnsTruthfully (call : Call) : Prop :=
  call.pc = .returning → call.failed = true → ∃ origin ∈ call.signals, origin ≠ .profiler

/-- A call restarts only if the profiler has interrupted it. -/
def RestartsTruthfully (state : ThreadState) (call : Call) : Prop :=
  call.pc = .testing → call.failed = true → state.interruptedByProfiler call.number = true →
    .profiler ∈ call.signals

/-- The flag of a call agrees with the signals which have interrupted its underlying call. -/
structure Settled (flags : Nat → Bool) (call : Call) : Prop where
  reset : call.pc = .calling → flags call.number = false
  flagged : call.pc = .inside ∨ call.pc = .testing →
    (flags call.number = true ↔ .profiler ∈ call.signals)
  caused : call.failed = true → call.signals ≠ []
  finished : call.failed = true → call.pc.finishes = true →
    ∃ origin ∈ call.signals, origin ≠ .profiler

/-- The handler is about to mark the call. -/
def Due (handler : Option Handler) (state : ThreadState) (call : Call) : Prop :=
  (∃ pc, handler = some ⟨.profiler, pc⟩ ∧ pc.unmarked = true) ∧
    underlyingCall state.interrupted = some call

def ThreadState.numbers (state : ThreadState) : List Nat :=
  state.activeCalls.map Prod.fst

structure Attributable (handler : Option Handler) (thread : Thread) (state : ThreadState) :
    Prop where
  nodup : state.numbers.Nodup
  fresh : ∀ number ∈ state.numbers, number < state.calls
  frames : ∀ call, .call call ∈ state.frames → Settled state.interruptedByProfiler call
  interrupted : ∀ call, .call call ∈ state.interrupted →
    Settled state.interruptedByProfiler call ∨ Due handler state call
  due : ∀ call, Due handler state call → .profiler ∈ call.signals
  marking : ∀ call, handler = some ⟨.profiler, .marking⟩ →
    underlyingCall state.interrupted = some call → state.memoryArea = some ⟨thread, call.number⟩
  read : ∀ flag, state.memoryArea = some flag → flag.thread = thread ∧
    (∃ origin, handler = some ⟨origin, .marking⟩) ∧
    ∃ call rest, state.interrupted = .call call :: rest ∧ call.number = flag.number ∧
      (Due handler state call ∨ call.pc.usesFlag = false)
  unhandled : handler = none → state.interrupted = []

section Calls

variable {flags flags' : Nat → Bool} {call : Call}

theorem Settled.congr (settled : Settled flags call)
    (same : flags' call.number = flags call.number) : Settled flags' call := by
  refine ⟨?_, ?_, settled.caused, settled.finished⟩
  · rw [same]
    exact settled.reset
  · rw [same]
    exact settled.flagged

theorem Settled.of_unused (settled : Settled flags call) (unused : call.pc.usesFlag = false) :
    Settled flags' call := by
  refine ⟨?_, ?_, settled.caused, settled.finished⟩
  · intro pc
    rw [pc] at unused
    exact nomatch unused
  · rintro (pc | pc) <;> rw [pc] at unused <;> exact nomatch unused

theorem settled_of_marked (inside : call.pc = .inside) (signals : .profiler ∈ call.signals)
    (marked : flags call.number = true) : Settled flags call := by
  refine ⟨?_, fun _ => ?_, fun _ => List.ne_nil_of_mem signals, ?_⟩
  · simp [inside]
  · simp [marked, signals]
  · simp [inside, CallPc.finishes]

variable (settled : Settled flags call) {origin : Origin}
include settled

theorem Settled.goto {pc : CallPc} (unused : pc.usesFlag = false)
    (finished : call.failed = true → pc.finishes = true →
      ∃ origin ∈ call.signals, origin ≠ .profiler) : Settled flags { call with pc := pc } := by
  have reached : Settled (fun _ => false) { call with pc := pc } := by
    refine ⟨fun _ => rfl, ?_, settled.caused, finished⟩
    rintro (rfl | rfl) <;> exact nomatch unused
  exact reached.of_unused unused

theorem Settled.continue {before pc : CallPc} (start : call.pc = before)
    (unused : pc.usesFlag = false) (finishes : pc.finishes = before.finishes) :
    Settled flags { call with pc := pc } := by
  refine settled.goto unused fun failed finishing => settled.finished failed ?_
  rw [start, ← finishes]
  exact finishing

theorem Settled.finish (pc : call.pc = .testing) (failed : call.failed = true)
    (unset : flags call.number ≠ true) : ∃ origin ∈ call.signals, origin ≠ .profiler := by
  rcases List.exists_mem_of_ne_nil _ (settled.caused failed) with ⟨origin, member⟩
  refine ⟨origin, member, ?_⟩
  rintro rfl
  exact unset ((settled.flagged (.inr pc)).mpr member)

theorem Settled.returnsTruthfully : ReturnsTruthfully call := by
  intro pc failed
  apply settled.finished failed
  rw [pc]
  rfl

theorem Settled.addSignal (inside : call.pc = .inside) (application : origin ≠ .profiler) :
    Settled flags { call with signals := call.signals ++ [origin] } := by
  refine ⟨settled.reset, fun pc => ?_, fun _ => by simp, ?_⟩
  · simpa [Ne.symm application] using settled.flagged pc
  · simp [inside, CallPc.finishes]

end Calls

section Thread

variable {handler : Option Handler} {thread : Thread} {state later : ThreadState}
  {frames : List Frame} {before after : Handler}

theorem number_mem_positions {call : Call} (member : .call call ∈ frames) :
    call.number ∈ (positions frames).map Prod.fst := by
  refine List.mem_map.mpr ⟨(call.number, call.pc), ?_, rfl⟩
  exact List.mem_filterMap.mpr ⟨.call call, member, rfl⟩

theorem attributable_initial (thread : Thread) : Attributable none thread .initial where
  nodup := List.nodup_nil
  fresh := nofun
  frames := nofun
  interrupted := nofun
  due _ due := nomatch due.1.choose_spec.1
  marking := nofun
  read := nofun
  unhandled _ := rfl

section

variable (attributable : Attributable handler thread state) {sharedMemoryArea : Option CallId}
  {flags : Nat → Bool} {rest : List Frame}
include attributable

theorem Attributable.keepNumbers (numbers : later.numbers = state.numbers)
    (calls : later.calls = state.calls) :
    later.numbers.Nodup ∧ ∀ number ∈ later.numbers, number < later.calls := by
  rw [numbers, calls]
  exact ⟨attributable.nodup, attributable.fresh⟩

theorem Attributable.top {call : Call} (top : state.frames = .call call :: rest) :
    Settled state.interruptedByProfiler call := by
  apply attributable.frames
  rw [top]
  exact List.mem_cons_self

theorem Attributable.unread (elsewhere : ∀ origin, handler ≠ some ⟨origin, .marking⟩) :
    state.memoryArea = none := by
  refine eq_none_iff_forall_not_mem.mpr fun flag read => ?_
  rcases attributable.read flag read with ⟨_, ⟨origin, handles⟩, _⟩
  exact elsewhere origin handles

theorem Attributable.setFrames {calls : Nat}
    (nodup : (numbers { state with frames }).Nodup)
    (fresh : ∀ number ∈ numbers { state with frames }, number < calls)
    (settled : ∀ call, .call call ∈ frames → Settled flags call)
    (same : ∀ call, .call call ∈ state.interrupted →
      flags call.number = state.interruptedByProfiler call.number) :
    Attributable handler thread { state with
      frames, sharedMemoryArea, interruptedByProfiler := flags, calls } := by
  refine { attributable with nodup, fresh, frames := settled, interrupted := ?_ }
  intro call member
  exact (attributable.interrupted call member).imp_left fun settled =>
    settled.congr (same call member)

theorem Attributable.goto {call moved : Call} (top : state.frames = .call call :: rest)
    (number : moved.number = call.number)
    (same : ∀ other, other ≠ call.number → flags other = state.interruptedByProfiler other)
    (settled : Settled flags moved) :
    Attributable handler thread { state with
      frames := .call moved :: rest, sharedMemoryArea, interruptedByProfiler := flags } := by
  have numbers : ThreadState.numbers { state with frames := .call moved :: rest } =
      state.numbers := by
    simp [ThreadState.numbers, ThreadState.activeCalls, top, number]
  have distinct := attributable.nodup
  simp only [ThreadState.numbers, ThreadState.activeCalls, top, positions_call, List.cons_append,
    List.map_cons, List.map_append, List.nodup_cons, List.mem_append, not_or] at distinct
  have kept := attributable.keepNumbers numbers rfl
  refine attributable.setFrames kept.1 kept.2 ?_ ?_
  · intro other member
    rcases List.mem_cons.mp member with isMoved | deeper
    · cases isMoved
      exact settled
    · refine (attributable.frames other ?_).congr (same _ fun isCall => ?_)
      · rw [top]
        exact List.mem_cons_of_mem _ deeper
      · exact distinct.1.1 (isCall ▸ number_mem_positions deeper)
  · intro other member
    refine same _ fun isCall => ?_
    exact distinct.1.2 (isCall ▸ number_mem_positions member)

theorem Attributable.callStep {shield : Shield} {step : CallStep}
    (taken : state.callStep shield thread step = some later) :
    Attributable handler thread later := by
  unfold ThreadState.callStep at taken
  split at taken
  case h_2 => cases taken
  rename_i call rest top
  have settled := attributable.top top
  split at taken
  case h_1 withdraws pc | h_2 withdraws pc =>
    cases taken
    refine attributable.goto top rfl (fun _ _ => rfl) ?_
    apply settled.continue pc
    · split
      · rfl
      · exact CallPc.usesFlag_afterSharing withdraws
    · split
      · rfl
      · exact CallPc.finishes_afterSharing withdraws
  case h_3 withdraws pc =>
    cases taken
    refine attributable.goto top rfl (fun _ _ => rfl) ?_
    exact settled.continue pc (CallPc.usesFlag_afterSharing withdraws)
      (CallPc.finishes_afterSharing withdraws)
  case h_4 pc =>
    cases taken
    refine attributable.goto top rfl ?_ ?_
    · exact fun other different => update_of_ne different ..
    · refine ⟨fun _ => update_self .., ?_, settled.caused, ?_⟩ <;> simp [CallPc.finishes]
  case h_5 pc =>
    cases taken
    refine attributable.goto top rfl (fun _ _ => rfl) ?_
    have unset := settled.reset pc
    refine ⟨?_, ?_, ?_, ?_⟩ <;> simp [unset]
  case h_6 failed pc =>
    split at taken <;> cases taken
    rename_i interrupted
    refine attributable.goto top rfl (fun _ _ => rfl) ?_
    refine ⟨?_, fun _ => settled.flagged (.inl pc), ?_, ?_⟩
    · simp
    · exact fun isFailed none => interrupted ⟨isFailed, none⟩
    · simp [CallPc.finishes]
  case h_7 pc =>
    cases taken
    refine attributable.goto top rfl (fun _ _ => rfl) ?_
    apply settled.goto
    · split <;> rfl
    · split
      · simp [CallPc.finishes]
      · rename_i passed
        exact fun failed _ => settled.finish pc failed fun flag => passed ⟨failed, flag⟩
  case h_8 pc =>
    cases taken
    have numbers : state.numbers =
        call.number :: ThreadState.numbers { state with frames := rest } := by
      simp [ThreadState.numbers, ThreadState.activeCalls, top]
    have nodup := attributable.nodup
    have fresh := attributable.fresh
    rw [numbers] at nodup fresh
    refine attributable.setFrames (List.nodup_cons.mp nodup).2 ?_ ?_ (fun _ _ => rfl)
    · exact fun number member => fresh number (List.mem_cons_of_mem _ member)
    · intro other member
      apply attributable.frames
      rw [top]
      exact List.mem_cons_of_mem _ member
  case h_9 => cases taken

end

theorem underlyingCall_eq_some {call : Call} (found : underlyingCall frames = some call) :
    call.pc = .inside ∧ ∃ rest, frames = .call call :: rest := by
  unfold underlyingCall at found
  split at found
  · rename_i top rest
    split at found <;> cases found
    rename_i inside
    exact ⟨inside, rest, rfl⟩
  · cases found

/-- A signal changes no call but the one whose underlying call it interrupts. -/
theorem mem_recordSignal {call : Call} (member : .call call ∈ recordSignal origin frames) :
    .call call ∈ frames ∨ ∃ before, underlyingCall frames = some before ∧
      call = { before with signals := before.signals ++ [origin] } ∧
      underlyingCall (recordSignal origin frames) = some call := by
  unfold recordSignal at member ⊢
  split at member
  · rename_i top rest
    split at member
    · rename_i inside
      rcases List.mem_cons.mp member with same | deeper
      · cases same
        right
        exact ⟨top, by simp [underlyingCall, inside], rfl, by simp [underlyingCall, inside]⟩
      · exact .inl (List.mem_cons_of_mem _ deeper)
    · exact .inl member
  · exact .inl member

theorem mem_signals_recordSignal {call : Call}
    (found : underlyingCall (recordSignal origin frames) = some call) :
    origin ∈ call.signals := by
  unfold recordSignal at found
  split at found
  · split at found
    · rename_i inside
      simp only [underlyingCall, inside, if_true, some.injEq] at found
      simp [← found]
    · rename_i outside
      simp [underlyingCall, outside] at found
  · rename_i frames noCall
    rcases underlyingCall_eq_some found with ⟨_, rest, rfl⟩
    exact absurd rfl (noCall call rest)

theorem Attributable.applicationSignal (attributable : Attributable handler thread state)
    (application : origin = .profiler → underlyingCall state.frames = none) :
    Attributable handler thread (state.applicationSignal origin) := by
  have numbers : (state.applicationSignal origin).numbers = state.numbers := by
    simp [ThreadState.numbers, ThreadState.activeCalls, ThreadState.applicationSignal]
  have kept := attributable.keepNumbers numbers rfl
  refine attributable.setFrames kept.1 kept.2 ?_ (fun _ _ => rfl)
  intro call member
  have recorded : .call call ∈ recordSignal origin state.frames := by
    simpa [ThreadState.applicationSignal] using member
  rcases mem_recordSignal recorded with unchanged | ⟨before, found, rfl, _⟩
  · exact attributable.frames call unchanged
  · rcases underlyingCall_eq_some found with ⟨inside, rest, top⟩
    refine (attributable.top top).addSignal inside ?_
    rintro rfl
    exact nomatch (application rfl).symm.trans found

theorem Attributable.call (attributable : Attributable handler thread state) :
    Attributable handler thread state.call := by
  have unused : state.calls ∉ state.numbers := fun member =>
    Nat.lt_irrefl _ (attributable.fresh _ member)
  have flags {call : Call} (known : call.number ∈ state.numbers) :
      state.call.interruptedByProfiler call.number = state.interruptedByProfiler call.number := by
    refine update_of_ne ?_ ..
    intro same
    exact unused (same ▸ known)
  refine attributable.setFrames ?_ ?_ ?_ ?_
  · exact List.nodup_cons.mpr ⟨unused, attributable.nodup⟩
  · intro number member
    rcases List.mem_cons.mp member with rfl | known
    · exact Nat.lt_succ_self _
    · exact Nat.lt_succ_of_lt (attributable.fresh number known)
  · intro call member
    rcases List.mem_cons.mp member with same | known
    · cases same
      refine ⟨?_, ?_, ?_, ?_⟩ <;> simp
    · refine (attributable.frames call known).congr (flags ?_)
      simpa [numbers, activeCalls] using Or.inl (number_mem_positions known)
  · intro call member
    apply flags
    simpa [numbers, activeCalls] using Or.inr (number_mem_positions member)

theorem Attributable.deliver (attributable : Attributable none thread state) (origin : Origin) :
    Attributable (some ⟨origin, .entered⟩) thread (state.deliver origin) := by
  have idle := attributable.unhandled rfl
  have numbers : (state.deliver origin).numbers = state.numbers := by
    simp [ThreadState.numbers, ThreadState.activeCalls, ThreadState.deliver, idle]
  have unread := attributable.unread nofun
  have kept := attributable.keepNumbers numbers rfl
  refine ⟨kept.1, kept.2, nofun, ?_, ?_, ?_, ?_, nofun⟩
  · intro call member
    rcases mem_recordSignal member with unchanged | ⟨before, found, rfl, top⟩
    · exact .inl (attributable.frames call unchanged)
    · by_cases profiler : origin = .profiler
      · subst origin
        exact .inr ⟨⟨.entered, rfl, rfl⟩, top⟩
      · left
        rcases underlyingCall_eq_some found with ⟨inside, rest, isTop⟩
        exact (attributable.top isTop).addSignal inside profiler
  · rintro call ⟨⟨pc, ⟨⟩, _⟩, found⟩
    exact mem_signals_recordSignal found
  · simp
  · intro flag read
    exact nomatch unread.symm.trans read

theorem Attributable.advance (attributable : Attributable (some before) thread state)
    (before_ne : before.pc ≠ .marking) (after_ne : after.pc ≠ .marking)
    (due : ∀ call, Due (some before) state call ↔ Due (some after) state call) :
    Attributable (some after) thread state := by
  have unread : state.memoryArea = none := by
    refine attributable.unread fun origin handles => ?_
    cases handles
    exact before_ne rfl
  refine { attributable with
    interrupted := ?_
    due := fun call isDue => attributable.due call ((due call).mpr isDue)
    marking := ?_
    read := fun flag read => nomatch unread.symm.trans read
    unhandled := nofun }
  · intro call member
    rw [← due]
    exact attributable.interrupted call member
  · rintro call ⟨⟩
    exact absurd rfl after_ne

theorem Attributable.readFlag {memoryArea : Option CallId}
    (attributable : Attributable (some ⟨origin, .interrupting⟩) thread state)
    (expected : ∀ call, origin = .profiler → underlyingCall state.interrupted = some call →
      memoryArea = some ⟨thread, call.number⟩)
    (harmless : origin ≠ .profiler ∨ underlyingCall state.interrupted = none →
      ∀ flag, memoryArea = some flag → flag.thread = thread ∧
        ∃ call rest, state.interrupted = .call call :: rest ∧ call.number = flag.number ∧
          call.pc.usesFlag = false) :
    Attributable (some ⟨origin, .marking⟩) thread { state with memoryArea := memoryArea } := by
  have due (call : Call) : Due (some ⟨origin, .marking⟩) { state with memoryArea } call ↔
      Due (some ⟨origin, .interrupting⟩) state call := by
    simp [Due, HandlerPc.unmarked]
  refine { attributable with
    interrupted := ?_
    due := fun call isDue => attributable.due call ((due call).mp isDue)
    marking := ?_
    read := ?_
    unhandled := by simp }
  · intro call member
    rw [due]
    exact attributable.interrupted call member
  · rintro call ⟨⟩ found
    exact expected call rfl found
  · intro flag read
    by_cases profiler : origin = .profiler ∧ ∃ call, underlyingCall state.interrupted = some call
    · rcases profiler with ⟨rfl, call, found⟩
      rcases underlyingCall_eq_some found with ⟨_, rest, top⟩
      cases (expected call rfl found).symm.trans read
      exact ⟨rfl, ⟨_, rfl⟩, call, rest, top, rfl, .inl ⟨⟨_, rfl, rfl⟩, found⟩⟩
    · have other : origin ≠ .profiler ∨ underlyingCall state.interrupted = none := by
        by_cases same : origin = .profiler
        · right
          refine eq_none_iff_forall_not_mem.mpr fun call found => ?_
          exact profiler ⟨same, call, found⟩
        · exact .inl same
      rcases harmless other flag read with ⟨own, call, rest, top, number, unused⟩
      exact ⟨own, ⟨_, rfl⟩, call, rest, top, number, .inr unused⟩

theorem Attributable.mark (attributable : Attributable (some ⟨origin, .marking⟩) thread state)
    (top : state.frames = []) :
    Attributable (some ⟨origin, .checking⟩) thread { state with
      memoryArea := none
      interruptedByProfiler := state.markFlags thread state.memoryArea } := by
  have settled (call : Call) (member : .call call ∈ state.interrupted) :
      Settled (state.markFlags thread state.memoryArea) call := by
    have before := attributable.interrupted call member
    cases read : state.memoryArea with
    | none =>
      refine before.resolve_right ?_
      rintro ⟨⟨pc, ⟨⟩, _⟩, found⟩
      cases read.symm.trans (attributable.marking call rfl found)
    | some flag =>
      rcases attributable.read flag read with ⟨own, _, marked, rest, isTop, number, reason⟩
      have flags : state.markFlags thread (some flag) =
          update state.interruptedByProfiler marked.number true := by
        simp [markFlags, own, number]
      rw [flags]
      have isMarked (due : Due (some ⟨origin, .marking⟩) state marked) :
          Settled (update state.interruptedByProfiler marked.number true) marked :=
        settled_of_marked (underlyingCall_eq_some due.2).1 (attributable.due marked due)
          (update_self ..)
      have distinct := attributable.nodup
      simp only [numbers, activeCalls, top, isTop, positions_nil,
        positions_call, List.nil_append, List.map_cons, List.nodup_cons] at distinct
      rw [isTop] at member
      rcases List.mem_cons.mp member with same | deeper
      · cases same
        rcases reason with due | unused
        · exact isMarked due
        · rcases before with known | due
          · exact known.of_unused unused
          · exact isMarked due
      · rcases before with known | due
        · refine known.congr (update_of_ne ?_ ..)
          intro same
          exact distinct.1 (same ▸ number_mem_positions deeper)
        · rcases underlyingCall_eq_some due.2 with ⟨_, _, isTopToo⟩
          cases isTop.symm.trans isTopToo
          exact isMarked due
  refine ⟨attributable.nodup, attributable.fresh, ?_, ?_, ?_, by simp, by simp, by simp⟩
  · intro call member
    simp [top] at member
  · exact fun call member => .inl (settled call member)
  · rintro call ⟨⟨pc, ⟨⟩, unmarked⟩, _⟩
    cases unmarked

theorem Attributable.resume {before : Handler}
    (attributable : Attributable (some before) thread state) (top : state.frames = [])
    (marked : before.pc.unmarked = false) : Attributable none thread state.resume := by
  have numbers : state.resume.numbers = state.numbers := by
    simp [ThreadState.numbers, ThreadState.activeCalls, ThreadState.resume, top]
  have kept := attributable.keepNumbers numbers rfl
  refine ⟨kept.1, kept.2, ?_, nofun, ?_, nofun, ?_, fun _ => rfl⟩
  · intro call member
    refine (attributable.interrupted call member).resolve_right ?_
    rintro ⟨⟨pc, ⟨⟩, unmarked⟩, _⟩
    exact absurd (marked.symm.trans unmarked) Bool.false_ne_true
  · rintro call ⟨⟨pc, isNone, _⟩, _⟩
    cases isNone
  · intro flag read
    rcases attributable.read flag read with ⟨_, ⟨_, ⟨⟩⟩, _⟩
    exact nomatch marked

end Thread

section Process

variable {process later : Process} {event : ProcessEvent} {thread : Thread}

theorem due_advance {step : HandlerStep} (found : process.collector.handlers thread = some before)
    (advances : Advances process.collector step before after)
    (attributed : Attributed process (.collector (.handler thread step))) (call : Call) :
    Due (some before) (process.threads thread) call ↔
      Due (some after) (process.threads thread) call := by
  constructor
  · rintro ⟨⟨pc, ⟨⟩, unmarked⟩, isTop⟩
    have due : process.callToMark thread = some call := by
      simp only [Process.callToMark, found, isTop]
    refine ⟨⟨after.pc, ?_, ?_⟩, isTop⟩
    · have origin : after.origin = .profiler := advances.origin
      rw [← origin]
    · refine (advances.unmarked unmarked).resolve_right ?_
      rintro ⟨unset, rfl | rfl⟩ <;> simp [Attributed, due, unset] at attributed
  · rintro ⟨⟨pc, ⟨⟩, unmarked⟩, isTop⟩
    refine ⟨⟨before.pc, ?_, ?_⟩, isTop⟩
    · have origin : before.origin = .profiler := advances.origin.symm
      rw [← origin]
    · by_contra marked
      have := advances.marked (by simpa using marked)
      exact absurd (this.symm.trans unmarked) Bool.false_ne_true

theorem Attributable.move {handler : Option Handler} {state : ThreadState}
    (attributable : ∀ thread, Attributable (process.collector.handlers thread) thread
      (process.threads thread))
    (attributed : Attributed process event)
    (move : ThreadMove process thread event handler state) : Attributable handler thread state := by
  have here := attributable thread
  cases move with
  | stay => exact here
  | call runs => exact here.call
  | callStep taken => exact here.callStep taken
  | signal application => exact here.applicationSignal fun same => absurd same application
  | discard pending =>
    apply here.applicationSignal
    rintro rfl
    exact attributed pending
  | @applicationReturn rest handles =>
    have numbers : numbers { process.threads thread with frames := rest } =
        (process.threads thread).numbers := by
      simp [numbers, activeCalls, handles]
    have kept := here.keepNumbers numbers rfl
    refine here.setFrames kept.1 kept.2 ?_ (fun _ _ => rfl)
    intro call member
    apply here.frames
    rw [handles]
    exact List.mem_cons_of_mem _ member
  | register idle unhandled =>
    rw [unhandled] at here
    exact { here with }
  | deliver unhandled =>
    rw [unhandled] at here
    exact here.deliver _
  | advance found advances =>
    rw [found] at here
    refine here.advance advances.before_ne advances.after_ne fun call => ?_
    exact due_advance found advances attributed call
  | read top found =>
    rw [found] at here
    apply here.readFlag
    · rintro call rfl isTop
      have due : process.callToMark thread = some call := by
        simp only [Process.callToMark, found, isTop]
      simpa only [Attributed, due] using attributed
    · intro other
      have none : process.callToMark thread = none := by
        simp only [Process.callToMark, found]
        rcases other with application | outside
        · split
          · simp_all
          · rfl
        · split
          · exact outside
          · rfl
      simpa only [Attributed, none, Harmless] using attributed
  | mark top found =>
    rw [found] at here
    exact here.mark top
  | marked different read =>
    rcases (attributable _).read _ read with ⟨own, _⟩
    exact absurd own.symm different
  | exit top found marked =>
    rw [found] at here
    exact here.resume top marked

end Process

/--
As long as the marks are attributed, the wrapped calls of a thread pass on `EINTR` only if the
application has caused it, and make an underlying call again only if the profiler has
interrupted it.
-/
theorem wrapped_calls_transparent {isEnabled : Bool} {events : List ProcessEvent}
    {process : Process}
    (run : ((processSystem isEnabled).restrict Attributed).Run (.initial isEnabled) events process)
    {thread : Thread} {call : Call} {rest : List Frame}
    (top : (process.threads thread).frames = .call call :: rest) :
    ReturnsTruthfully call ∧ RestartsTruthfully (process.threads thread) call := by
  have attributable : ∀ thread, Attributable (process.collector.handlers thread) thread
      (process.threads thread) := by
    refine run.invariant (fun process => ∀ thread, Attributable (process.collector.handlers thread)
      thread (process.threads thread)) ?_ ?_
    · exact attributable_initial
    · rintro process event later attributable ⟨attributed, taken⟩ thread
      exact Attributable.move attributable attributed (Process.threadMove taken thread)
  have settled := (attributable thread).top top
  exact ⟨settled.returnsTruthfully, fun pc _ flag => (settled.flagged (.inr pc)).mp flag⟩

def markAndExit (thread : Thread) : List ProcessEvent :=
  [.collector (.handler thread .mark), .collector (.handler thread (.canCollect false)),
    .collector (.handler thread (.collectCallStack 0)), .collector (.handler thread .unlock),
    .collector (.handler thread .storeErrorCode), .collector (.handler thread .notify),
    .collector (.handler thread .exit)]

/-- The signal of a collection interrupts the wrapped call of its target, which is restarted. -/
theorem transparent_when_marked : ∃ process call,
    (processSystem true).Run (.initial true)
      (startShield 1 ++ ((startCollection 1).map .collector ++ (enterCall 1 ++
        (readMemoryArea 1 ++ (markAndExit 1 ++ [.callStep 1 (.leave true)]))))) process ∧
    (process.threads 1).frames = [.call call] ∧ call.pc = .testing ∧ call.failed = true ∧
    (process.threads 1).interruptedByProfiler call.number = true ∧
    ReturnsTruthfully call ∧ RestartsTruthfully (process.threads 1) call := by
  have meets : System.MeetsAlong Process.next Attributed (.initial true)
      (startShield 1 ++ ((startCollection 1).map .collector ++ (enterCall 1 ++
        (readMemoryArea 1 ++ (markAndExit 1 ++ [.callStep 1 (.leave true)]))))) := by
    repeat' first | exact .inr rfl | constructor
  exact ⟨_, _, System.run_of_exec rfl, rfl, rfl, rfl, rfl,
    wrapped_calls_transparent (System.run_restrict_of_exec rfl meets) rfl⟩

def timeOut (target : Thread) : List CollectorEvent :=
  [.sampler (.wake true false), .sampler .relock, .sampler .abort,
    .sampler (.checkSignalHandler true), .sampler .readErrorCode, .sampler .unpublish,
    .sampler .unlock, .sampler (.finish target .eFail)]

def handleLate (thread : Thread) : List ProcessEvent :=
  [.collector (.deliver thread), .collector (.handler thread .loadInstance),
    .collector (.handler thread .exit), .collector (.handler thread .exitOriginal)]

def failCall (thread : Thread) : List ProcessEvent :=
  [.callStep thread (.leave true), .callStep thread .test, .callStep thread .loadFunction,
    .callStep thread .loadInstance, .callStep thread .setSharedMemory]

/--
The signal of a collection which has timed out reaches the thread inside of a wrapped call, which
is about to return `EINTR` although the profiler alone has interrupted it.
-/
theorem late_signal_noticed : ∃ process call,
    (processSystem true).Run (.initial true)
      (startShield 1 ++ ((startCollection 1 ++ timeOut 1).map .collector ++ (enterCall 1 ++
        (handleLate 1 ++ failCall 1)))) process ∧
    (process.threads 1).frames = [.call call] ∧ call.pc = .returning ∧ call.failed = true ∧
    call.signals = [.profiler] ∧ ¬ ReturnsTruthfully call := by
  refine ⟨_, _, System.run_of_exec rfl, rfl, rfl, rfl, rfl, fun truthful => ?_⟩
  rcases truthful rfl rfl with ⟨origin, member, application⟩
  exact application (List.mem_singleton.mp member)

end Pyroscope.Signals
