import Pyroscope.Signals.WrappedCalls

/-!
# Who owns the flag that is marked

A thread withdraws its address through the shield, and the handler looks for it at the target of the
collection.
-/

namespace Pyroscope.Signals

open Transition ThreadState List Option Bool Prod

namespace CallPc

def shares : CallPc → Bool
  | .resetting | .calling | .inside | .testing => true
  | .loadFunction withdraws | .loadInstance withdraws | .setSharedMemory withdraws => withdraws
  | .returning => false

def connects : CallPc → Bool
  | .loadInstance withdraws | .setSharedMemory withdraws => !withdraws
  | _ => false

@[simp] theorem connects_afterSharing (withdraws : Bool) :
    (afterSharing withdraws).connects = false := by
  cases withdraws <;> rfl

end CallPc

def Active (process : Process) (thread : Thread) (flag : CallId) : Prop :=
  flag.thread = thread ∧ ∃ pc, (flag.number, pc) ∈ (process.threads thread).activeCalls

/-- The flag which a step of `MarkAsInterrupted` sets, and the thread which takes the step. -/
def Process.marks (process : Process) : ProcessEvent → Option (Thread × CallId)
  | .collector (.handler thread .mark) =>
    (process.threads thread).memoryArea.map fun flag => (thread, flag)
  | _ => none

/-- No call of the thread shares a flag. -/
def Withdrawn (state : ThreadState) : Prop :=
  state.sharedMemoryArea = none ∧
    ∀ number pc, (number, pc) ∈ state.activeCalls → pc.connects = false

/--
The handler does not find the flag of another thread, and the shield is stopped while no
address is shared.
-/
def Guarded (process : Process) : ProcessEvent → Prop
  | .collector (.handler thread .readMemoryArea) =>
    ∀ target, process.collector.currentThread = some target →
      target = thread ∨ (process.threads target).sharedMemoryArea = none
  | .shield .clearFunction => ∀ thread, Withdrawn (process.threads thread)
  | _ => True

structure Shield.Connected (shield : Shield) : Prop where
  function : shield.functionSet = true → shield.instanceSet = true
  setting : shield.pc = .settingFunction → shield.instanceSet = true
  clearing : shield.pc = .clearingInstance → shield.functionSet = false

/-- The flags which a thread shares are those of its own calls. -/
structure Owned (shield : Shield) (handler : Option Handler) (thread : Thread)
    (state : ThreadState) : Prop where
  shared : ∀ flag, state.sharedMemoryArea = some flag → flag.thread = thread ∧
    ∃ pc, (flag.number, pc) ∈ state.activeCalls ∧ pc.shares = true
  registered : state.sharedMemoryArea = none ∨ state.registered = true
  connected : Withdrawn state ∨ shield.functionSet = true
  read : ∀ flag, state.memoryArea = some flag → flag.thread = thread ∧
    ∃ pc, (flag.number, pc) ∈ positions state.interrupted
  marking : state.memoryArea = none ∨ ∃ origin, handler = some ⟨origin, .marking⟩
  unhandled : handler = none → state.interrupted = []

theorem Shield.Connected.next {shield later : Shield} {step : ShieldStep}
    (connected : shield.Connected) (taken : shield.next step = some later) : later.Connected := by
  rcases connected with ⟨function, setting, clearing⟩
  cases step <;> simp only [Shield.next] at taken <;> repeat' split at taken
  all_goals cases taken
  all_goals constructor
  all_goals simp_all

section Thread

variable {shield : Shield} {handler : Option Handler} {thread : Thread} {state later : ThreadState}
  {rest : List Frame} {call : Call}

theorem owned_initial (shield : Shield) (thread : Thread) : Owned shield none thread .initial where
  shared := nofun
  registered := .inl rfl
  connected := .inl ⟨rfl, nofun⟩
  read := nofun
  marking := .inl rfl
  unhandled _ := rfl

theorem activeCalls_of_top (top : state.frames = .call call :: rest) :
    state.activeCalls =
      (call.number, call.pc) :: (positions rest ++ positions state.interrupted) := by
  rw [activeCalls, top]
  rfl

section

variable (owned : Owned shield handler thread state)
include owned

theorem Owned.withdrawn (off : shield.functionSet = false) : Withdrawn state :=
  owned.connected.resolve_right (by simp [off])

theorem Owned.frame (sharedMemoryArea : later.sharedMemoryArea = state.sharedMemoryArea)
    (registered : later.registered = state.registered)
    (memoryArea : later.memoryArea = state.memoryArea)
    (frames : positions later.frames = positions state.frames)
    (interrupted : later.interrupted = state.interrupted) : Owned shield handler thread later := by
  have active : later.activeCalls = state.activeCalls := by
    simp only [activeCalls, frames, interrupted]
  rcases owned with ⟨shared, isRegistered, connected, read, marking, unhandled⟩
  refine ⟨?_, ?_, ?_, ?_, ?_, ?_⟩
  · rwa [sharedMemoryArea, active]
  · rwa [sharedMemoryArea, registered]
  · rwa [Withdrawn, sharedMemoryArea, active]
  · rwa [memoryArea, interrupted]
  · rwa [memoryArea]
  · rwa [interrupted]

theorem Owned.goto {pc : CallPc} (top : state.frames = .call call :: rest)
    (frames : positions later.frames = (call.number, pc) :: positions rest)
    (sharedMemoryArea : later.sharedMemoryArea = state.sharedMemoryArea)
    (registered : later.registered = state.registered)
    (memoryArea : later.memoryArea = state.memoryArea)
    (interrupted : later.interrupted = state.interrupted)
    (shares : state.sharedMemoryArea = none ∨ (call.pc.shares = true → pc.shares = true))
    (connects : pc.connects = true → shield.functionSet = true) :
    Owned shield handler thread later := by
  have active := activeCalls_of_top top
  have activeLater : later.activeCalls =
      (call.number, pc) :: (positions rest ++ positions state.interrupted) := by
    simp [activeCalls, frames, interrupted]
  refine ⟨?_, ?_, ?_, ?_, ?_, ?_⟩
  · intro flag isShared
    rw [sharedMemoryArea] at isShared
    rcases owned.shared flag isShared with ⟨own, before, member, sharesBefore⟩
    refine ⟨own, ?_⟩
    rw [active] at member
    rw [activeLater]
    rcases mem_cons.mp member with same | deeper
    · rcases mk.inj same with ⟨number, rfl⟩
      have keeps := shares.resolve_left (by simp [isShared])
      exact ⟨pc, number ▸ mem_cons_self, keeps sharesBefore⟩
    · exact ⟨before, mem_cons_of_mem _ deeper, sharesBefore⟩
  · rw [sharedMemoryArea, registered]
    exact owned.registered
  · by_cases on : shield.functionSet = true
    · exact .inr on
    · left
      have withdrawn := owned.withdrawn (by simpa using on)
      refine ⟨sharedMemoryArea.trans withdrawn.1, ?_⟩
      intro number other member
      rw [activeLater] at member
      rcases mem_cons.mp member with same | deeper
      · rcases mk.inj same with ⟨_, rfl⟩
        exact eq_false_iff.mpr fun connecting => on (connects connecting)
      · apply withdrawn.2 number
        rw [active]
        exact mem_cons_of_mem _ deeper
  · rw [memoryArea, interrupted]
    exact owned.read
  · rw [memoryArea]
    exact owned.marking
  · rw [interrupted]
    exact owned.unhandled

theorem Owned.withdraw (sharedMemoryArea : later.sharedMemoryArea = none)
    (memoryArea : later.memoryArea = state.memoryArea)
    (interrupted : later.interrupted = state.interrupted)
    (connects : ∀ number pc, (number, pc) ∈ later.activeCalls → pc.connects = true →
      (number, pc) ∈ state.activeCalls) : Owned shield handler thread later := by
  refine ⟨?_, .inl sharedMemoryArea, ?_, ?_, ?_, ?_⟩
  · intro flag isShared
    exact nomatch sharedMemoryArea.symm.trans isShared
  · refine owned.connected.imp_left fun withdrawn => ⟨sharedMemoryArea, ?_⟩
    intro number pc member
    refine eq_false_iff.mpr fun connecting => ?_
    have idle := withdrawn.2 number pc (connects number pc member connecting)
    exact absurd (idle.symm.trans connecting) false_ne_true
  · rw [memoryArea, interrupted]
    exact owned.read
  · rw [memoryArea]
    exact owned.marking
  · rw [interrupted]
    exact owned.unhandled

theorem Owned.setSharedMemory {withdraws : Bool} (top : state.frames = .call call :: rest)
    (pc : call.pc = .setSharedMemory withdraws) :
    Owned shield handler thread { state with
      sharedMemoryArea :=
        if state.registered then if withdraws then none else some ⟨thread, call.number⟩
        else state.sharedMemoryArea
      frames := .call { call with pc := .afterSharing withdraws } :: rest } := by
  have active := activeCalls_of_top top
  cases withdraws with
  | true =>
    refine owned.withdraw ?_ rfl rfl ?_
    · rcases owned.registered with none | registered
      · simp [none]
      · simp [registered]
    · intro number other member connecting
      rw [active]
      rcases mem_cons.mp member with same | deeper
      · rcases mk.inj same with ⟨_, rfl⟩
        exact nomatch connecting
      · exact mem_cons_of_mem _ deeper
  | false =>
    have on : shield.functionSet = true := by
      refine owned.connected.resolve_left fun withdrawn => ?_
      have connecting := withdrawn.2 call.number call.pc (by simp [active])
      rw [pc] at connecting
      exact nomatch connecting
    by_cases registered : state.registered = true
    · simp only [registered, if_true]
      refine ⟨?_, .inr rfl, .inr on, owned.read, owned.marking, owned.unhandled⟩
      rintro flag ⟨⟩
      exact ⟨rfl, .resetting, mem_cons_self, rfl⟩
    · simp only [registered]
      refine owned.goto top rfl rfl (by simp [registered]) rfl rfl ?_ ?_
      · exact .inl (owned.registered.resolve_right registered)
      · exact fun _ => on

theorem Owned.callStep {step : CallStep} (connected : shield.Connected)
    (taken : state.callStep shield thread step = some later) :
    Owned shield handler thread later := by
  have off (unset : shield.instanceSet = false) : state.sharedMemoryArea = none := by
    refine (owned.withdrawn ?_).1
    refine eq_false_iff.mpr fun on => ?_
    exact absurd (connected.function on) (by simp [unset])
  unfold ThreadState.callStep at taken
  split at taken
  case h_2 => cases taken
  rename_i call rest top
  have active := activeCalls_of_top top
  split at taken
  case h_1 withdraws pc =>
    cases taken
    refine owned.goto top rfl rfl rfl rfl rfl ?_ ?_
    · split
      · exact .inr fun shares => by rwa [pc] at shares
      · rename_i unset
        exact .inl (owned.withdrawn (by simpa using unset)).1
    · split
      · exact fun _ => by assumption
      · simp
  case h_2 withdraws pc =>
    cases taken
    refine owned.goto top rfl rfl rfl rfl rfl ?_ ?_
    · split
      · exact .inr fun shares => by rwa [pc] at shares
      · rename_i unset
        exact .inl (off (by simpa using unset))
    · split
      · intro connects
        refine owned.connected.resolve_left fun withdrawn => ?_
        have idle := withdrawn.2 call.number call.pc (by simp [ThreadState.activeCalls, top])
        rw [pc] at idle
        exact absurd (idle.symm.trans connects) false_ne_true
      · simp
  case h_3 withdraws pc =>
    cases taken
    exact owned.setSharedMemory top pc
  case h_4 pc | h_5 pc =>
    cases taken
    exact owned.goto top rfl rfl rfl rfl rfl (.inr fun _ => rfl) nofun
  case h_6 failed pc =>
    split at taken <;> cases taken
    exact owned.goto top rfl rfl rfl rfl rfl (.inr fun _ => rfl) nofun
  case h_7 pc =>
    cases taken
    refine owned.goto top rfl rfl rfl rfl rfl (.inr fun _ => ?_) ?_
    · split <;> rfl
    · split <;> nofun
  case h_8 pc =>
    cases taken
    refine ⟨?_, owned.registered, ?_, owned.read, owned.marking, owned.unhandled⟩
    · intro flag isShared
      rcases owned.shared flag isShared with ⟨own, other, member, shares⟩
      refine ⟨own, other, ?_, shares⟩
      rw [active] at member
      rcases mem_cons.mp member with same | deeper
      · rcases mk.inj same with ⟨_, rfl⟩
        rw [pc] at shares
        exact nomatch shares
      · exact deeper
    · refine owned.connected.imp_left fun withdrawn => ⟨withdrawn.1, ?_⟩
      intro number other member
      apply withdrawn.2 number
      rw [active]
      exact mem_cons_of_mem _ member
  case h_9 => cases taken

theorem Owned.of_shield {later : Shield} {step : ShieldStep} (taken : shield.next step = some later)
    (withdrawn : step = .clearFunction → Withdrawn state) : Owned later handler thread state := by
  have connected : Withdrawn state ∨ later.functionSet = true := by
    have before := owned.connected
    cases step <;> simp only [Shield.next] at taken <;> repeat' split at taken
    all_goals cases taken
    all_goals simp_all
  exact { owned with connected := connected }

end

theorem Owned.deliver (owned : Owned shield none thread state) (origin : Origin) :
    Owned shield (some ⟨origin, .entered⟩) thread (state.deliver origin) := by
  have active : (state.deliver origin).activeCalls = state.activeCalls := by
    simp [ThreadState.activeCalls, ThreadState.deliver, owned.unhandled rfl]
  have unread : state.memoryArea = none :=
    owned.marking.resolve_right fun ⟨_, marking⟩ => nomatch marking
  refine ⟨?_, owned.registered, ?_, ?_, .inl unread, nofun⟩
  · rw [active]
    exact owned.shared
  · rw [Withdrawn, active]
    exact owned.connected
  · intro flag read
    exact nomatch unread.symm.trans read

theorem Owned.resume {before : Handler} (owned : Owned shield (some before) thread state)
    (top : state.frames = []) (marked : before.pc.unmarked = false) :
    Owned shield none thread state.resume := by
  have active : state.resume.activeCalls = state.activeCalls := by
    simp [ThreadState.activeCalls, ThreadState.resume, top]
  have unread : state.memoryArea = none := by
    refine owned.marking.resolve_right ?_
    rintro ⟨origin, ⟨⟩⟩
    exact nomatch marked
  refine ⟨?_, owned.registered, ?_, ?_, .inl unread, fun _ => rfl⟩
  · rw [active]
    exact owned.shared
  · rw [Withdrawn, active]
    exact owned.connected
  · intro flag read
    exact nomatch unread.symm.trans read

theorem Owned.setHandler {before after : Handler} (owned : Owned shield (some before) thread state)
    (marking : before.pc ≠ .marking) : Owned shield (some after) thread state := by
  have unread : state.memoryArea = none := by
    refine owned.marking.resolve_right ?_
    rintro ⟨origin, ⟨⟩⟩
    exact marking rfl
  exact { owned with marking := .inl unread, unhandled := nofun }

end Thread

section Process

variable {process later : Process} {event : ProcessEvent} {thread : Thread}

theorem Owned.move {handler : Option Handler} {state : ThreadState}
    (owned : Owned process.shield (process.collector.handlers thread) thread
      (process.threads thread))
    (connected : process.shield.Connected) (guarded : Guarded process event)
    (move : ThreadMove process thread event handler state) :
    Owned process.shield handler thread state := by
  cases move with
  | stay => exact owned
  | call runs =>
    refine ⟨?_, owned.registered, ?_, owned.read, owned.marking, owned.unhandled⟩
    · intro flag isShared
      rcases owned.shared flag isShared with ⟨own, pc, member, shares⟩
      exact ⟨own, pc, mem_cons_of_mem _ member, shares⟩
    · refine owned.connected.imp_left fun withdrawn => ⟨withdrawn.1, ?_⟩
      intro number pc member
      rcases mem_cons.mp member with same | deeper
      · cases same
        rfl
      · exact withdrawn.2 number pc deeper
  | callStep taken => exact owned.callStep connected taken
  | signal application | discard pending =>
    exact owned.frame rfl rfl rfl (by simp [applicationSignal]) rfl
  | applicationReturn handles => exact owned.frame rfl rfl rfl (by simp [handles]) rfl
  | register idle unhandled =>
    rw [unhandled] at owned
    have interrupted := owned.unhandled rfl
    have unshared : (process.threads thread).sharedMemoryArea = none := by
      refine eq_none_iff_forall_not_mem.mpr fun flag isShared => ?_
      rcases owned.shared flag isShared with ⟨_, pc, member, _⟩
      simp [activeCalls, idle, interrupted] at member
    exact { owned with registered := .inl unshared }
  | deliver unhandled =>
    rw [unhandled] at owned
    exact owned.deliver _
  | advance found advances =>
    rw [found] at owned
    exact owned.setHandler advances.before_ne
  | read top found =>
    refine { owned with read := ?_, marking := .inr ⟨_, rfl⟩, unhandled := nofun }
    intro flag read
    rcases bind_eq_some_iff.mp read with ⟨target, current, isShared⟩
    rcases guarded target current with rfl | unshared
    · rcases owned.shared flag isShared with ⟨own, pc, member, _⟩
      refine ⟨own, pc, ?_⟩
      simpa [activeCalls, top] using member
    · exact nomatch unshared.symm.trans isShared
  | mark top found =>
    exact { owned with read := nofun, marking := .inl rfl, unhandled := nofun }
  | marked different read => exact owned.frame rfl rfl rfl rfl rfl
  | exit top found marked =>
    rw [found] at owned
    exact owned.resume top marked

structure FlagsOwned (process : Process) : Prop where
  shield : process.shield.Connected
  threads : ∀ thread, Owned process.shield (process.collector.handlers thread) thread
    (process.threads thread)

theorem FlagsOwned.next (flags : FlagsOwned process) (guarded : Guarded process event)
    (taken : process.next event = some later) : FlagsOwned later := by
  rcases Process.shieldMove taken with same | ⟨step, rfl, stepped⟩
  · refine ⟨same ▸ flags.shield, fun thread => ?_⟩
    rw [same]
    exact (flags.threads thread).move flags.shield guarded (Process.threadMove taken thread)
  · refine ⟨flags.shield.next stepped, fun thread => ?_⟩
    simp only [Process.next, map_eq_some_iff] at taken
    rcases taken with ⟨shield, stepped, rfl⟩
    apply (flags.threads thread).of_shield stepped
    rintro rfl
    exact guarded thread

end Process

/-- A mark always goes to a call in progress on the thread whose handler makes it. -/
theorem marks_own_call {isEnabled : Bool} {events : List ProcessEvent} {process : Process}
    (run : ((processSystem isEnabled).restrict Guarded).Run (.initial isEnabled) events process)
    (event : ProcessEvent) {thread : Thread} {flag : CallId}
    (marks : process.marks event = some (thread, flag)) : Active process thread flag := by
  have flags : FlagsOwned process := by
    refine run.invariant FlagsOwned ?_ ?_
    · exact ⟨⟨nofun, nofun, nofun⟩, owned_initial _⟩
    · rintro process event later flags ⟨guarded, taken⟩
      exact flags.next guarded taken
  unfold Process.marks at marks
  split at marks
  · rename_i acting
    simp only [map_eq_some_iff, Prod.mk.injEq] at marks
    rcases marks with ⟨_, read, rfl, rfl⟩
    rcases (flags.threads acting).read _ read with ⟨own, pc, member⟩
    exact ⟨own, pc, mem_append_right _ member⟩
  · cases marks

theorem marks_own_call_of_target : ∃ process,
    (processSystem true).Run (.initial true)
      (startShield 1 ++ ((startCollection 1).map .collector ++ (enterCall 1 ++ readMemoryArea 1)))
      process ∧
    process.marks (.collector (.handler 1 .mark)) = some (1, ⟨1, 0⟩) ∧ Active process 1 ⟨1, 0⟩ := by
  have meets : System.MeetsAlong Process.next Guarded (.initial true)
      (startShield 1 ++ ((startCollection 1).map .collector ++
        (enterCall 1 ++ readMemoryArea 1))) := by
    repeat' constructor
    rintro target ⟨⟩
    exact .inl rfl
  exact ⟨_, System.run_of_exec rfl, rfl,
    marks_own_call (System.run_restrict_of_exec rfl meets) (.collector (.handler 1 .mark)) rfl⟩

/--
Somebody sends the signal to thread 2 while thread 1 is the target of a collection and in a
wrapped call: the handler on thread 2 is about to write to the stack of thread 1.
-/
theorem foreign_flag_marked : ∃ process,
    (processSystem true).Run (.initial true)
      (startShield 1 ++ ((startCollection 1).map .collector ++
        (enterCall 1 ++ .collector (.send 2 .sameProcess) :: readMemoryArea 2))) process ∧
    process.marks (.collector (.handler 2 .mark)) = some (2, ⟨1, 0⟩) ∧
    ¬ Active process 2 ⟨1, 0⟩ :=
  ⟨_, System.run_of_exec rfl, rfl, fun active => nomatch active.1⟩

end Pyroscope.Signals
