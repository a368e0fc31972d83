import Pyroscope.Lib.Transition

/-!
# Keeping the profiler's signal handler installed

`CheckSignalHandler` restores the profiler's handler once. The flag is tested before the handler
itself.
-/

namespace Pyroscope.Signals.Restoration

open Transition List

variable {Function Custom : Type}

/-- What `sa_handler` and `sa_sigaction`, which share their place, can hold. -/
inductive Disposition (Function : Type) where
  | sigDfl
  | sigIgn
  | signalHandler
  /-- A function of the application or of one of its libraries. -/
  | function (function : Function)
  deriving DecidableEq

structure Action (Function : Type) where
  saSigaction : Disposition Function
  /-- The flags have `SA_SIGINFO`. -/
  saSiginfo : Bool
  deriving DecidableEq

structure ProfilerSignalManager (Function Custom : Type) where
  canReplaceSignalHandler : Bool
  handler : Option Custom
  isHandlerInPlace : Bool
  previousAction : Action Function
  currentAction : Action Function
  deriving DecidableEq

namespace ProfilerSignalManager

variable {manager : ProfilerSignalManager Function Custom} {succeeds : Bool}
  {handler : Option Custom}

def initial : ProfilerSignalManager Function Custom where
  canReplaceSignalHandler := true
  handler := none
  isHandlerInPlace := false
  previousAction := ⟨.sigDfl, false⟩
  currentAction := ⟨.sigDfl, false⟩

section

variable [DecidableEq Function]

def isProfilerSignalHandlerInstalled (manager : ProfilerSignalManager Function Custom) : Bool :=
  manager.currentAction.saSiginfo && manager.currentAction.saSigaction == .signalHandler

/-- The calls below are given whether the `sigaction` they make succeeds. -/
def setupSignalHandler (manager : ProfilerSignalManager Function Custom) (succeeds : Bool) :
    Bool × ProfilerSignalManager Function Custom :=
  if succeeds then
    let oldAction := manager.currentAction
    (true,
      { manager with
        currentAction := ⟨.signalHandler, true⟩
        previousAction :=
          if oldAction.saSigaction = .sigIgn then manager.previousAction else oldAction })
  else (false, manager)

def registerHandler [DecidableEq Custom] (manager : ProfilerSignalManager Function Custom)
    (handler : Option Custom) (succeeds : Bool) : Bool × ProfilerSignalManager Function Custom :=
  if manager.handler ≠ none ∧ manager.isHandlerInPlace then (manager.handler == handler, manager)
  else
    let setup := manager.setupSignalHandler succeeds
    (setup.1,
      { setup.2 with
        isHandlerInPlace := setup.1
        handler := if setup.1 then handler else manager.handler })

def unRegisterHandler (manager : ProfilerSignalManager Function Custom) (succeeds : Bool) :
    Bool × ProfilerSignalManager Function Custom :=
  if manager.isProfilerSignalHandlerInstalled && succeeds then
    (true, { manager with currentAction := manager.previousAction, isHandlerInPlace := false })
  else (false, manager)

def checkSignalHandler (manager : ProfilerSignalManager Function Custom) (succeeds : Bool) :
    Bool × ProfilerSignalManager Function Custom :=
  if manager.canReplaceSignalHandler = false then
    (false, { manager with isHandlerInPlace := false })
  else if manager.isProfilerSignalHandlerInstalled then (true, manager)
  else
    let setup := manager.setupSignalHandler succeeds
    (setup.1, { setup.2 with isHandlerInPlace := setup.1, canReplaceSignalHandler := false })

end

def ignoreSignal (manager : ProfilerSignalManager Function Custom) (succeeds : Bool) :
    Bool × ProfilerSignalManager Function Custom :=
  if succeeds then
    (true, { manager with currentAction := ⟨.sigIgn, false⟩, isHandlerInPlace := false })
  else (false, manager)

/-- An action which names the profiler's handler has the flag with which it was installed. -/
structure Flagged (manager : ProfilerSignalManager Function Custom) : Prop where
  current : manager.currentAction.saSigaction = .signalHandler →
    manager.currentAction.saSiginfo = true
  previous : manager.previousAction.saSigaction = .signalHandler →
    manager.previousAction.saSiginfo = true

theorem Flagged.ignoreSignal (flagged : manager.Flagged) :
    (manager.ignoreSignal succeeds).2.Flagged := by
  rw [ProfilerSignalManager.ignoreSignal]
  split
  · exact ⟨nofun, flagged.previous⟩
  · exact flagged

theorem previousAction_ignoreSignal :
    (manager.ignoreSignal succeeds).2.previousAction = manager.previousAction := by
  rw [ignoreSignal]
  split <;> rfl

variable [DecidableEq Function]

theorem Flagged.installed_iff (flagged : manager.Flagged) :
    manager.isProfilerSignalHandlerInstalled = true ↔
      manager.currentAction.saSigaction = .signalHandler := by
  rw [isProfilerSignalHandlerInstalled, Bool.and_eq_true, beq_iff_eq]
  exact and_iff_right_of_imp flagged.current

theorem Flagged.setupSignalHandler (flagged : manager.Flagged) :
    (manager.setupSignalHandler succeeds).2.Flagged := by
  rw [ProfilerSignalManager.setupSignalHandler]
  split
  · refine ⟨fun _ => rfl, ?_⟩
    simp only
    split
    · exact flagged.previous
    · exact flagged.current
  · exact flagged

/-- Setting the handler up saves the profiler's own action exactly where it is installed. -/
theorem Flagged.previous_setupSignalHandler (flagged : manager.Flagged)
    (before : manager.previousAction.saSigaction ≠ .signalHandler) :
    (manager.setupSignalHandler succeeds).2.previousAction.saSigaction ≠ .signalHandler ↔
      (manager.isProfilerSignalHandlerInstalled = true → succeeds = false) := by
  rw [flagged.installed_iff, ProfilerSignalManager.setupSignalHandler]
  cases succeeds with
  | false => simpa using before
  | true =>
    simp only [if_true, Bool.true_eq_false, imp_false]
    split
    case isTrue ignored =>
      rw [ignored]
      exact iff_of_true before nofun
    case isFalse => rfl

theorem setupSignalHandler_fst : (manager.setupSignalHandler succeeds).1 = succeeds := by
  cases succeeds <;> rfl

theorem Flagged.unRegisterHandler (flagged : manager.Flagged) :
    (manager.unRegisterHandler succeeds).2.Flagged := by
  rw [ProfilerSignalManager.unRegisterHandler]
  split
  · exact ⟨flagged.previous, flagged.previous⟩
  · exact flagged

theorem previousAction_unRegisterHandler :
    (manager.unRegisterHandler succeeds).2.previousAction = manager.previousAction := by
  rw [unRegisterHandler]
  split <;> rfl

theorem Flagged.checkSignalHandler (flagged : manager.Flagged) :
    (manager.checkSignalHandler succeeds).2.Flagged := by
  simp only [ProfilerSignalManager.checkSignalHandler]
  split
  · exact ⟨flagged.current, flagged.previous⟩
  · split
    · exact flagged
    · exact ⟨flagged.setupSignalHandler.current, flagged.setupSignalHandler.previous⟩

theorem Flagged.previous_checkSignalHandler (flagged : manager.Flagged)
    (before : manager.previousAction.saSigaction ≠ .signalHandler) :
    (manager.checkSignalHandler succeeds).2.previousAction.saSigaction ≠ .signalHandler := by
  simp only [ProfilerSignalManager.checkSignalHandler]
  split
  · exact before
  · split
    case isTrue => exact before
    case isFalse missing =>
      apply (flagged.previous_setupSignalHandler before).mpr
      exact fun installed => absurd installed missing

theorem checkSignalHandler_fst :
    (manager.checkSignalHandler succeeds).1 = true ↔ manager.canReplaceSignalHandler = true ∧
      (manager.isProfilerSignalHandlerInstalled = true ∨ succeeds = true) := by
  simp only [checkSignalHandler, setupSignalHandler_fst]
  split
  case isTrue spent => simp [spent]
  case isFalse able =>
    split
    case isTrue installed => simp [able, installed]
    case isFalse missing => simp [able, missing]

variable [DecidableEq Custom]

theorem Flagged.registerHandler (flagged : manager.Flagged) :
    (manager.registerHandler handler succeeds).2.Flagged := by
  simp only [ProfilerSignalManager.registerHandler]
  split
  · exact flagged
  · exact ⟨flagged.setupSignalHandler.current, flagged.setupSignalHandler.previous⟩

theorem Flagged.previous_registerHandler (flagged : manager.Flagged)
    (before : manager.previousAction.saSigaction ≠ .signalHandler) :
    (manager.registerHandler handler succeeds).2.previousAction.saSigaction ≠ .signalHandler ↔
      (manager.isProfilerSignalHandlerInstalled = true →
        manager.handler ≠ none ∧ manager.isHandlerInPlace = true ∨ succeeds = false) := by
  simp only [ProfilerSignalManager.registerHandler]
  split
  case isTrue placed => exact iff_of_true before fun _ => .inl placed
  case isFalse free =>
    refine (flagged.previous_setupSignalHandler before).trans ?_
    rw [or_iff_right free]

end ProfilerSignalManager

structure Check where
  installed : Bool
  replacements : Nat
  answer : Bool
  deriving DecidableEq

structure History (Function Custom : Type) where
  manager : ProfilerSignalManager Function Custom
  replacements : Nat
  checks : List Check
  previousActions : List (Action Function)
  deriving DecidableEq

inductive Event (Function Custom : Type) where
  | registerHandler (handler : Option Custom) (succeeds : Bool)
  | unRegisterHandler (succeeds : Bool)
  | ignoreSignal (succeeds : Bool)
  | checkSignalHandler (succeeds : Bool)
  /-- The application installs an action which is not the profiler's. -/
  | install (action : Action Function)
  deriving DecidableEq

namespace History

variable {history after : History Function Custom} {event : Event Function Custom}
  {events : List (Event Function Custom)} {manager : ProfilerSignalManager Function Custom}

def initial : History Function Custom where
  manager := .initial
  replacements := 0
  checks := []
  previousActions := [⟨.sigDfl, false⟩]

def record (history : History Function Custom) (manager : ProfilerSignalManager Function Custom) :
    History Function Custom :=
  { history with manager, previousActions := manager.previousAction :: history.previousActions }

section

variable [DecidableEq Function]

def install (history : History Function Custom) (action : Action Function) :
    History Function Custom :=
  { history.record { history.manager with currentAction := action } with
    replacements :=
      if history.manager.isProfilerSignalHandlerInstalled then history.replacements + 1
      else history.replacements }

def check (history : History Function Custom) (succeeds : Bool) : History Function Custom :=
  let result := history.manager.checkSignalHandler succeeds
  { history.record result.2 with
    checks :=
      ⟨history.manager.isProfilerSignalHandlerInstalled, history.replacements, result.1⟩ ::
        history.checks }

variable [DecidableEq Custom]

def next (history : History Function Custom) :
    Event Function Custom → Option (History Function Custom)
  | .registerHandler handler succeeds =>
    some (history.record (history.manager.registerHandler handler succeeds).2)
  | .unRegisterHandler succeeds =>
    some (history.record (history.manager.unRegisterHandler succeeds).2)
  | .ignoreSignal succeeds => some (history.record (history.manager.ignoreSignal succeeds).2)
  | .checkSignalHandler succeeds => some (history.check succeeds)
  | .install action =>
    if action.saSigaction = .signalHandler then none else some (history.install action)

def system (Function Custom : Type) [DecidableEq Function] [DecidableEq Custom] :
    System (History Function Custom) (Event Function Custom) :=
  .ofFunction .initial next

/--
A check which finds the profiler's handler installed can still restore it, one which does not
find it restores it unless the application has replaced it twice, and a registration sets the
handler up only where it is not installed.
-/
def Orderly (history : History Function Custom) : Event Function Custom → Prop
  | .registerHandler _ succeeds =>
    history.manager.isProfilerSignalHandlerInstalled →
      history.manager.handler ≠ none ∧ history.manager.isHandlerInPlace ∨ succeeds = false
  | .checkSignalHandler succeeds =>
    if history.manager.isProfilerSignalHandlerInstalled then
      history.manager.canReplaceSignalHandler = true
    else
      history.manager.canReplaceSignalHandler = true ∧ succeeds = true ∨ 2 ≤ history.replacements
  | .unRegisterHandler _ | .ignoreSignal _ | .install _ => True

end

@[mk_iff]
structure Kept (history : History Function Custom) : Prop where
  /-- `CheckSignalHandler` returns true whenever the profiler's handler is installed. -/
  installed : ∀ check ∈ history.checks, check.installed = true → check.answer = true
  /-- It refuses only after two replacements. -/
  refused : ∀ check ∈ history.checks, check.answer = false → 2 ≤ check.replacements
  /-- The saved previous action has never been the profiler's own. -/
  previous : ∀ action ∈ history.previousActions, action.saSigaction ≠ .signalHandler

structure Standing (history : History Function Custom) : Prop where
  flagged : history.manager.Flagged
  noted : history.manager.previousAction ∈ history.previousActions

theorem Kept.previousAction (kept : history.Kept) (standing : history.Standing) :
    history.manager.previousAction.saSigaction ≠ .signalHandler :=
  kept.previous _ standing.noted

theorem Standing.record (flagged : manager.Flagged) : (history.record manager).Standing :=
  ⟨flagged, mem_cons_self⟩

theorem kept_record : (history.record manager).Kept ↔
    history.Kept ∧ manager.previousAction.saSigaction ≠ .signalHandler := by
  simp only [kept_iff, record, forall_mem_cons]
  tauto

theorem Standing.kept_record (standing : history.Standing)
    (same : manager.previousAction = history.manager.previousAction) :
    (history.record manager).Kept ↔ history.Kept := by
  rw [History.kept_record, same]
  exact and_iff_left_of_imp fun kept => kept.previousAction standing

section

variable [DecidableEq Function] {succeeds : Bool} {action : Action Function}

theorem Standing.kept_install (standing : history.Standing) :
    (history.install action).Kept ↔ history.Kept := by
  have same : (history.record { history.manager with currentAction := action }).Kept ↔
      history.Kept := standing.kept_record rfl
  rw [← same]
  simp only [kept_iff, install]

theorem Standing.kept_check (standing : history.Standing) :
    (history.check succeeds).Kept ↔ history.Kept ∧
      (history.manager.isProfilerSignalHandlerInstalled = true →
        (history.manager.checkSignalHandler succeeds).1 = true) ∧
      ((history.manager.checkSignalHandler succeeds).1 = false → 2 ≤ history.replacements) := by
  constructor
  · intro kept
    rcases forall_mem_cons.mp kept.installed with ⟨installed, earlierInstalled⟩
    rcases forall_mem_cons.mp kept.refused with ⟨refused, earlierRefused⟩
    rcases forall_mem_cons.mp kept.previous with ⟨-, previous⟩
    exact ⟨⟨earlierInstalled, earlierRefused, previous⟩, installed, refused⟩
  · rintro ⟨kept, installed, refused⟩
    refine ⟨forall_mem_cons.mpr ⟨installed, kept.installed⟩,
      forall_mem_cons.mpr ⟨refused, kept.refused⟩,
      forall_mem_cons.mpr ⟨?_, kept.previous⟩⟩
    exact standing.flagged.previous_checkSignalHandler (kept.previousAction standing)

theorem orderly_check :
    history.Orderly (.checkSignalHandler succeeds) ↔
      (history.manager.isProfilerSignalHandlerInstalled = true →
        (history.manager.checkSignalHandler succeeds).1 = true) ∧
      ((history.manager.checkSignalHandler succeeds).1 = false → 2 ≤ history.replacements) := by
  rw [← Bool.not_eq_true, ProfilerSignalManager.checkSignalHandler_fst]
  simp only [Orderly]
  split
  case isTrue installed =>
    simp only [installed, true_or, and_true, true_imp_iff]
    exact ⟨fun able => ⟨able, fun spent => absurd able spent⟩, And.left⟩
  case isFalse missing =>
    simp only [missing, Bool.false_eq_true, false_or, false_imp_iff, true_and]
    exact or_iff_not_imp_left

variable [DecidableEq Custom]

theorem kept_step (standing : history.Standing)
    (taken : (system Function Custom).step history event after) :
    after.Standing ∧ (after.Kept ↔ history.Kept ∧ history.Orderly event) := by
  have result : history.next event = some after := taken
  cases event with
  | registerHandler handler succeeds =>
    cases result
    refine ⟨.record standing.flagged.registerHandler, ?_⟩
    rw [kept_record]
    apply and_congr_right
    intro kept
    exact standing.flagged.previous_registerHandler (kept.previousAction standing)
  | unRegisterHandler succeeds =>
    cases result
    refine ⟨.record standing.flagged.unRegisterHandler, ?_⟩
    refine Iff.trans ?_ (and_iff_left trivial).symm
    exact standing.kept_record ProfilerSignalManager.previousAction_unRegisterHandler
  | ignoreSignal succeeds =>
    cases result
    refine ⟨.record standing.flagged.ignoreSignal, ?_⟩
    refine Iff.trans ?_ (and_iff_left trivial).symm
    exact standing.kept_record ProfilerSignalManager.previousAction_ignoreSignal
  | checkSignalHandler succeeds =>
    cases result
    refine ⟨⟨standing.flagged.checkSignalHandler, mem_cons_self⟩, ?_⟩
    rw [standing.kept_check, orderly_check]
  | install action =>
    rcases Option.ite_none_left_eq_some.mp result with ⟨other, ⟨⟩⟩
    refine ⟨⟨⟨?_, standing.flagged.previous⟩, mem_cons_self⟩, ?_⟩
    · exact fun own => absurd own other
    · exact standing.kept_install.trans (and_iff_left trivial).symm

/-- The handler is kept as it should be after exactly the orderly runs. -/
theorem handler_kept_iff (run : (system Function Custom).Run .initial events history) :
    history.Kept ↔ ((system Function Custom).restrict Orderly).Run .initial events history := by
  refine System.Run.restrict_iff Standing Kept ?_ ?_ ?_ run
  · exact ⟨⟨nofun, nofun⟩, mem_cons_self⟩
  · refine ⟨nofun, nofun, ?_⟩
    exact forall_mem_singleton.mpr nofun
  · intro history event after standing taken
    exact kept_step standing taken

instance (history : History Function Custom) : ∀ event, Decidable (history.Orderly event)
  | .registerHandler _ _ => inferInstanceAs (Decidable (_ → _ ∨ _))
  | .checkSignalHandler _ => inferInstanceAs (Decidable (ite _ _ _))
  | .unRegisterHandler _ | .ignoreSignal _ | .install _ => inferInstanceAs (Decidable True)

end

/--
The application replaces the handler, the check restores it, the application replaces it again
and the check gives up.
-/
theorem second_replacement_refused : ∃ history : History Unit Unit,
    (system Unit Unit).Run .initial [.install ⟨.function (), true⟩, .registerHandler (some ()) true,
      .checkSignalHandler true, .install ⟨.function (), true⟩, .checkSignalHandler true,
      .install ⟨.sigDfl, false⟩, .checkSignalHandler true] history ∧
    history.checks = [⟨false, 2, false⟩, ⟨false, 1, true⟩, ⟨true, 0, true⟩] ∧ history.Kept := by
  refine System.exists_run_of_restricted_exec Orderly rfl (by decide +kernel) ?_
  intro run
  exact ⟨rfl, (handler_kept_iff run.of_restrict).mpr run⟩

/--
After one replacement and its restoration the next check refuses although the profiler's handler
is installed, and a registration after it saves the profiler's own action.
-/
theorem installed_handler_refused : ∃ history : History Unit Unit,
    (system Unit Unit).Run .initial [.registerHandler (some ()) true,
      .install ⟨.function (), true⟩, .checkSignalHandler true, .checkSignalHandler true,
      .registerHandler (some ()) true] history ∧
    history.checks = [⟨true, 1, false⟩, ⟨false, 1, true⟩] ∧
    history.manager.previousAction = ⟨.signalHandler, true⟩ :=
  ⟨_, System.run_of_exec rfl, rfl, rfl⟩

end History

end Pyroscope.Signals.Restoration
