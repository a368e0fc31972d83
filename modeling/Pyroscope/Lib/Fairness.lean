import Pyroscope.Lib.Transition
import Mathlib.Order.WellFounded

/-!
# Fair executions

To reach a goal, name a thread in every state which is not blocked there and whose moves lower a
well-founded rank.
-/

namespace Pyroscope.Transition

open Option

universe u v w

namespace System

variable {State : Type u} {Event : Type v} {Thread : Type w} {thread : Event → Thread}

def Moves (system : System State Event) (state : State) : Option Event → State → Prop
  | none, next => next = state
  | some event, next => system.step state event next

/-- The thread can take a step. -/
def Enabled (system : System State Event) (thread : Event → Thread) (mover : Thread)
    (state : State) : Prop :=
  ∃ event next, thread event = mover ∧ system.step state event next

theorem enabled_of_isSome {init state : State} {next : State → Event → Option State}
    {mover : Thread} (event : Event) (moves : thread event = mover)
    (possible : (next state event).isSome = true) :
    (ofFunction init next).Enabled thread mover state :=
  ⟨event, (next state event).get possible, moves, (some_get possible).symm⟩

structure Execution (system : System State Event) where
  state : Nat → State
  event : Nat → Option Event
  starts : state 0 = system.init
  moves : ∀ time, system.Moves (state time) (event time) (state (time + 1))

namespace Execution

variable {system : System State Event} (execution : system.Execution)

/-- A thread which is not blocked from some time on moves after this time. -/
def Fair (thread : Event → Thread) (mover : Thread) : Prop :=
  ∀ start, (∀ time ≥ start, system.Enabled thread mover (execution.state time)) →
    ∃ time ≥ start, ∃ event, execution.event time = some event ∧ thread event = mover

theorem exists_run (time : Nat) :
    ∃ events, system.Run system.init events (execution.state time) := by
  induction time with
  | zero => exact ⟨[], execution.starts ▸ .nil _⟩
  | succ time ih =>
    rcases ih with ⟨events, run⟩
    have moves := execution.moves time
    cases happens : execution.event time with
    | none =>
      rw [happens] at moves
      exact ⟨events, moves ▸ run⟩
    | some event =>
      rw [happens] at moves
      exact ⟨events ++ [event], .snoc run moves⟩

end Execution

structure Ranking (system : System State Event) (thread : Event → Thread) (Rank : Type*) where
  lower : Rank → Rank → Prop
  wellFounded : WellFounded lower
  rank : State → Rank
  helper : State → Thread
  invariant : State → Prop
  goal : State → Prop
  enabled : ∀ state, invariant state → ¬goal state → system.Enabled thread (helper state) state
  progress : ∀ state event next, invariant state → ¬goal state → system.step state event next →
    invariant next ∧ (goal next ∨ lower (rank next) (rank state) ∨
      (rank next = rank state ∧ helper next = helper state ∧ thread event ≠ helper state))

namespace Ranking

variable {system : System State Event} {thread : Event → Thread} {Rank : Type*}
variable (ranking : system.Ranking thread Rank) (execution : system.Execution)

/-- The state is as far from the goal as the first one, with the same thread named. -/
structure Alike (first state : State) : Prop where
  invariant : ranking.invariant state
  rank : ranking.rank state = ranking.rank first
  helper : ranking.helper state = ranking.helper first

theorem alike_or_closer {first : State} {time : Nat}
    (alike : ranking.Alike first (execution.state time))
    (waits : ¬ranking.goal (execution.state time)) :
    ranking.goal (execution.state (time + 1)) ∨
      (ranking.invariant (execution.state (time + 1)) ∧
        ranking.lower (ranking.rank (execution.state (time + 1))) (ranking.rank first)) ∨
      (ranking.Alike first (execution.state (time + 1)) ∧
        ∀ event, execution.event time = some event → thread event ≠ ranking.helper first) := by
  have moves := execution.moves time
  cases happens : execution.event time with
  | none =>
    rw [happens] at moves
    rw [moves]
    refine .inr (.inr ⟨alike, ?_⟩)
    intro event isEvent
    cases isEvent
  | some event =>
    rw [happens] at moves
    rcases ranking.progress _ _ _ alike.invariant waits moves with
      ⟨inside, isGoal | lowered | ⟨sameRank, sameHelper, other⟩⟩
    · exact .inl isGoal
    · exact .inr (.inl ⟨inside, alike.rank ▸ lowered⟩)
    · refine .inr (.inr ⟨⟨inside, sameRank.trans alike.rank, sameHelper.trans alike.helper⟩, ?_⟩)
      intro moved isEvent
      cases isEvent
      exact alike.helper ▸ other

/-- An execution which is fair to the named threads reaches the goal. -/
theorem reaches (fair : ∀ state, execution.Fair thread (ranking.helper state)) {start : Nat}
    (holds : ranking.invariant (execution.state start)) :
    ∃ time ≥ start, ranking.goal (execution.state time) := by
  generalize isRank : ranking.rank (execution.state start) = value
  induction value using ranking.wellFounded.induction generalizing start with
  | _ value ih =>
    by_contra never
    -- Without the goal the rank is never lowered, so the same thread is named forever.
    have waits (time : Nat) (later : time ≥ start) : ¬ranking.goal (execution.state time) :=
      fun isGoal => never ⟨time, later, isGoal⟩
    have stays (time : Nat) (later : time ≥ start)
        (alike : ranking.Alike (execution.state start) (execution.state time)) :
        ranking.Alike (execution.state start) (execution.state (time + 1)) ∧
          ∀ event, execution.event time = some event →
            thread event ≠ ranking.helper (execution.state start) := by
      rcases ranking.alike_or_closer execution alike (waits time later) with
        isGoal | ⟨inside, lowered⟩ | stays
      · exact absurd isGoal (waits (time + 1) (by omega))
      · rcases ih _ (isRank ▸ lowered) inside rfl with ⟨reached, after, isGoal⟩
        exact absurd isGoal (waits reached (by omega))
      · exact stays
    have always (time : Nat) (later : time ≥ start) :
        ranking.Alike (execution.state start) (execution.state time) := by
      induction time, later using Nat.le_induction with
      | base => exact ⟨holds, rfl, rfl⟩
      | succ time later alike => exact (stays time later alike).1
    have ready (time : Nat) (later : time ≥ start) :
        system.Enabled thread (ranking.helper (execution.state start)) (execution.state time) :=
      (always time later).helper ▸
        ranking.enabled _ (always time later).invariant (waits time later)
    rcases fair (execution.state start) start ready with ⟨time, later, event, happens, moved⟩
    exact (stays time later (always time later)).2 event happens moved

end Ranking

section Replay

variable (next : State → Event → Option State) (init : State) (events : List Event)

def replayState : Nat → State
  | 0 => init
  | time + 1 =>
    ((events[time]?).bind (next (replayState time))).getD (replayState time)

def replayEvent (time : Nat) : Option Event :=
  (events[time]?).filter fun event => (next (replayState next init events time) event).isSome

def replay : (ofFunction init next).Execution where
  state := replayState next init events
  event := replayEvent next init events
  starts := rfl
  moves := by
    intro time
    simp only [replayEvent, replayState]
    cases events[time]? with
    | none => rfl
    | some event =>
      cases taken : next (replayState next init events time) event with
      | none => simp [Option.filter, taken, Moves]
      | some after => simp [Option.filter, taken, Moves, ofFunction]

variable {next init events}

theorem replayState_rests {time : Nat} (later : time ≥ events.length) :
    replayState next init events time = replayState next init events events.length := by
  induction time, later using Nat.le_induction with
  | base => rfl
  | succ time later same =>
    simp only [replayState, List.getElem?_eq_none later, bind_none, getD_none, same]

theorem replayState_cons {event : Event} {first : State} (taken : next init event = some first)
    (time : Nat) :
    replayState next init (event :: events) (time + 1) = replayState next first events time := by
  induction time with
  | zero => simp [replayState, taken]
  | succ time ih =>
    simp only [replayState, List.getElem?_cons_succ] at ih ⊢
    rw [ih]

theorem replayState_of_exec {last : State} (replayed : exec next init events = some last) :
    replayState next init events events.length = last := by
  induction events generalizing init with
  | nil =>
    cases replayed
    rfl
  | cons event events ih =>
    simp only [exec, bind_eq_some_iff] at replayed
    rcases replayed with ⟨first, taken, rest⟩
    exact (replayState_cons taken events.length).trans (ih rest)

/-- A replay is fair to a thread which is blocked at its end. -/
theorem replay_fair {mover : Thread} {last : State} (replayed : exec next init events = some last)
    (blocked : ¬(ofFunction init next).Enabled thread mover last) :
    (replay next init events).Fair thread mover := by
  intro start enabled
  have atEnd := enabled (max start events.length) (le_max_left _ _)
  have rests : (replay next init events).state (max start events.length) = last :=
    (replayState_rests (le_max_right _ _)).trans (replayState_of_exec replayed)
  exact absurd (rests ▸ atEnd) blocked

end Replay

end System

end Pyroscope.Transition
