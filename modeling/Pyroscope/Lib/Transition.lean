import Mathlib.Data.List.Basic

/-!
# Labelled transition systems and their runs

Runs grow at their end, so facts about the whole history of a run follow from one induction.
-/

namespace Pyroscope.Transition

open List Option

universe u v

structure System (State : Type u) (Event : Type v) where
  init : State
  step : State → Event → State → Prop

namespace System

variable {State : Type u} {Event : Type v} {next : State → Event → Option State}
  {init first last : State}

/-- `Run first events last` holds when the events lead from `first` to `last`. -/
inductive Run (system : System State Event) : State → List Event → State → Prop where
  | nil (state : State) : Run system state [] state
  | snoc {first middle last : State} {events : List Event} {event : Event}
      (run : Run system first events middle) (taken : system.step middle event last) :
      Run system first (events ++ [event]) last

def restrict (system : System State Event) (condition : State → Event → Prop) :
    System State Event where
  init := system.init
  step state event next := condition state event ∧ system.step state event next

/-- The system of a guarded step function: an event without a successor is disabled. -/
def ofFunction (init : State) (next : State → Event → Option State) : System State Event where
  init := init
  step state event state' := next state event = some state'

def exec (next : State → Event → Option State) : State → List Event → Option State
  | state, [] => some state
  | state, event :: events => (next state event).bind fun state' => exec next state' events

/-- Every event of a replay meets the condition in the state before it. -/
def MeetsAlong (next : State → Event → Option State) (condition : State → Event → Prop) :
    State → List Event → Prop
  | _, [] => True
  | state, event :: events =>
    condition state event ∧
      match next state event with
      | none => False
      | some state' => MeetsAlong next condition state' events

instance decidableMeetsAlong (next : State → Event → Option State)
    (condition : State → Event → Prop) [∀ state event, Decidable (condition state event)] :
    ∀ state events, Decidable (MeetsAlong next condition state events)
  | _, [] => .isTrue trivial
  | state, event :: events =>
    @instDecidableAnd _ _ inferInstance <|
      match next state event with
      | none => .isFalse id
      | some state' => decidableMeetsAlong next condition state' events

namespace Run

variable {system : System State Event} {events : List Event} {condition : State → Event → Prop}
  {state : State} {event : Event} {first middle last : State} {before after : List Event}
  {first last : State}

theorem single (taken : system.step first event last) : system.Run first [event] last :=
  .snoc (.nil first) taken

theorem append (run : system.Run first before middle) (rest : system.Run middle after last) :
    system.Run first (before ++ after) last := by
  induction rest with
  | nil => simpa using run
  | snoc rest taken ih =>
    rw [← append_assoc]
    exact .snoc ih taken

theorem cons (taken : system.step first event middle) (rest : system.Run middle events last) :
    system.Run first (event :: events) last :=
  append (single taken) rest

theorem of_restrict (run : (system.restrict condition).Run first events last) :
    system.Run first events last := by
  induction run with
  | nil => exact .nil _
  | snoc run taken ih => exact .snoc ih taken.2

/--
A relation between the history and the state holds along every run once it
holds initially and each step extends it.
-/
theorem history_invariant (invariant : List Event → State → Prop)
    (initial : invariant [] system.init)
    (preserved : ∀ events state event next, invariant events state →
      system.step state event next → invariant (events ++ [event]) next)
    (run : system.Run system.init events state) :
    invariant events state := by
  induction run with
  | nil => exact initial
  | snoc run taken ih => exact preserved _ _ _ _ ih taken

theorem invariant (invariant : State → Prop) (initial : invariant system.init)
    (preserved : ∀ state event next, invariant state → system.step state event next →
      invariant next) (run : system.Run system.init events state) :
    invariant state :=
  history_invariant (fun _ state => invariant state) initial
    (fun _ state event next holds taken => preserved state event next holds taken) run

/--
A property to which every step adds a condition holds after exactly the runs
whose steps all meet the condition.
-/
theorem restrict_iff (kept property : State → Prop) (initialKept : kept system.init)
    (initial : property system.init)
    (extended : ∀ state event next, kept state → system.step state event next →
      kept next ∧ (property next ↔ property state ∧ condition state event))
    (run : system.Run system.init events state) :
    property state ↔ (system.restrict condition).Run system.init events state := by
  constructor
  · have both : kept state ∧
        (property state → (system.restrict condition).Run system.init events state) := by
      refine history_invariant (fun events state => kept state ∧ (property state →
        (system.restrict condition).Run system.init events state)) ?_ ?_ run
      · exact ⟨initialKept, fun _ => .nil _⟩
      · rintro events state event next ⟨keptBefore, earlier⟩ taken
        rcases extended state event next keptBefore taken with ⟨keptAfter, adds⟩
        refine ⟨keptAfter, ?_⟩
        intro holds
        rcases adds.mp holds with ⟨before, met⟩
        exact .snoc (earlier before) ⟨met, taken⟩
    exact both.2
  · intro restricted
    have both : kept state ∧ property state := by
      refine restricted.invariant (fun state => kept state ∧ property state) ?_ ?_
      · exact ⟨initialKept, initial⟩
      · rintro state event next ⟨keptBefore, before⟩ ⟨met, taken⟩
        rcases extended state event next keptBefore taken with ⟨keptAfter, adds⟩
        exact ⟨keptAfter, adds.mpr ⟨before, met⟩⟩
    exact both.2

/-- What an invariant implies about a step holds of every event of a run and its history. -/
theorem each_step (invariant : List Event → State → Prop) (property : List Event → Event → Prop)
    (initial : invariant [] system.init)
    (preserved : ∀ events state event next, invariant events state →
      system.step state event next → invariant (events ++ [event]) next)
    (holds : ∀ events state event next, invariant events state →
      system.step state event next → property events event)
    (run : system.Run system.init events state) (split : events = before ++ event :: after) :
    property before event := by
  have both : invariant events state ∧
      ∀ before event after, events = before ++ event :: after → property before event := by
    refine history_invariant (fun events state => invariant events state ∧
      ∀ before event after, events = before ++ event :: after → property before event) ?_ ?_ run
    · exact ⟨initial, fun before event after split => absurd split (by simp)⟩
    · rintro events state event next ⟨holdsBefore, earlier⟩ taken
      refine ⟨preserved events state event next holdsBefore taken, ?_⟩
      intro before other after split
      rcases eq_nil_or_concat after with rfl | ⟨after, last, rfl⟩
      · rcases append_inj' split rfl with ⟨rfl, same⟩
        cases same
        exact holds events state event next holdsBefore taken
      · rw [concat_eq_append, ← cons_append, ← append_assoc] at split
        exact earlier before other after (append_inj' split rfl).1
  exact both.2 before event after split

end Run

theorem run_of_exec (replay : exec next first events = some last) :
    (ofFunction init next).Run first events last := by
  induction events generalizing first with
  | nil =>
    simp only [exec, some.injEq] at replay
    subst last
    exact .nil first
  | cons event events ih =>
    simp only [exec, bind_eq_some_iff] at replay
    rcases replay with ⟨middle, taken, rest⟩
    exact .cons taken (ih rest)

theorem run_restrict_of_exec (replay : exec next first events = some last)
    (meets : MeetsAlong next condition first events) :
    ((ofFunction init next).restrict condition).Run first events last := by
  induction events generalizing first with
  | nil =>
    simp only [exec, some.injEq] at replay
    subst last
    exact .nil first
  | cons event events ih =>
    simp only [exec, bind_eq_some_iff] at replay
    rcases replay with ⟨middle, taken, rest⟩
    simp only [MeetsAlong, taken] at meets
    exact .cons ⟨meets.1, taken⟩ (ih rest meets.2)

section

variable {events : List Event} {property : State → Prop}

theorem exists_run_of_exec (replay : exec next first events = some last)
    (holds : (ofFunction init next).Run first events last → property last) :
    ∃ state, (ofFunction init next).Run first events state ∧ property state :=
  ⟨last, run_of_exec replay, holds (run_of_exec replay)⟩

theorem exists_run_of_restricted_exec (condition : State → Event → Prop)
    (replay : exec next first events = some last) (meets : MeetsAlong next condition first events)
    (holds : ((ofFunction init next).restrict condition).Run first events last → property last) :
    ∃ state, (ofFunction init next).Run first events state ∧ property state :=
  have run := run_restrict_of_exec replay meets
  ⟨last, run.of_restrict, holds run⟩

end

end System

end Pyroscope.Transition
