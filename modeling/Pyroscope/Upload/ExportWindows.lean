import Mathlib.Data.List.Pairwise
import Mathlib.Data.PNat.Basic
import Pyroscope.Lib.Transition

/-!
# Windows of the exports

Windows begin at multiples of the upload interval. `StopImpl` does not round an early wake-up as
`ExportWork` does.
-/

namespace Pyroscope.Upload.ExportWindows

open Transition List Option

/-- The beginning of the interval of a time, in milliseconds since the epoch. -/
def truncate (time period : Nat) : Nat := time - time % period

structure Window where
  start : Nat
  stop : Nat
deriving DecidableEq

def windowOf (time period : Nat) : Window :=
  ⟨truncate time period, truncate time period + period⟩

/-- The window after an export: if the time is nearer to the end, it is the next one. -/
def nextWindow (time period : Nat) : Window :=
  let startTime := truncate time period
  let endTime := startTime + period
  let startTime := if time - startTime > endTime - time then endTime else startTime
  ⟨startTime, startTime + period⟩

inductive Phase where
  | waiting
  | exporting
  | stopping
  | stopped
deriving DecidableEq

/-- The exporter, with the windows and the sleeps computed after an export so far. The newest ones
come first. -/
structure Exporter where
  clock : Nat
  phase : Phase
  window : Window
  windows : List Window
  sleeps : List Nat

/-- The clock goes on; a wait runs out or is interrupted; an export of the loop is over; and the
leftover samples are exported. -/
inductive ExportEvent where
  | elapse (milliseconds : Nat)
  | timeout
  | interrupt
  | exported
  | finalExport

namespace Exporter

def initial (period clock : Nat) : Exporter := ⟨clock, .waiting, windowOf clock period, [], []⟩

def next (period : Nat) (state : Exporter) : ExportEvent → Option Exporter
  | .elapse milliseconds => some { state with clock := state.clock + milliseconds }
  | .timeout =>
    if state.phase = .waiting then
      some { state with phase := .exporting, windows := state.window :: state.windows }
    else none
  | .interrupt => if state.phase = .waiting then some { state with phase := .stopping } else none
  | .exported =>
    if state.phase = .exporting then
      let window := nextWindow state.clock period
      some { state with
        phase := .waiting
        window := window
        sleeps := (window.stop - state.clock) :: state.sleeps }
    else none
  | .finalExport =>
    if state.phase = .stopping then
      some { state with
        phase := .stopped, windows := windowOf state.clock period :: state.windows }
    else none

end Exporter

def system (uploadInterval : ℕ+) (clock : Nat) : System Exporter ExportEvent :=
  .ofFunction (.initial (1000 * uploadInterval) clock) (Exporter.next (1000 * uploadInterval))

/-- A timed wait ends less than half an interval before the end of its window, or later. -/
def Punctual (period : Nat) (state : Exporter) : ExportEvent → Prop
  | .timeout => 2 * state.window.stop < 2 * state.clock + period
  | _ => True

/-- The leftover samples are not exported before the end of a window which has been exported. -/
def StopsLate (state : Exporter) : ExportEvent → Prop
  | .finalExport => ∀ window ∈ state.windows, window.stop ≤ state.clock
  | _ => True

instance (period : Nat) (state : Exporter) : ∀ event, Decidable (Punctual period state event)
  | .timeout => inferInstanceAs (Decidable (_ < _))
  | .elapse _ | .interrupt | .exported | .finalExport => inferInstanceAs (Decidable True)

instance (state : Exporter) : ∀ event, Decidable (StopsLate state event)
  | .finalExport => inferInstanceAs (Decidable (∀ _ ∈ _, _))
  | .elapse _ | .timeout | .interrupt | .exported => inferInstanceAs (Decidable True)

section

variable {period : Nat}

theorem dvd_truncate (time period : Nat) : period ∣ truncate time period :=
  Nat.dvd_sub_mod time

theorem truncate_le (time period : Nat) : truncate time period ≤ time := Nat.sub_le _ _

theorem lt_truncate_add (positive : 0 < period) (time : Nat) :
    time < truncate time period + period := by
  have remainder := Nat.mod_lt time positive
  have whole := Nat.mod_le time period
  simp only [truncate]
  omega

theorem le_of_dvd_of_lt_add {first second : Nat} (isFirst : period ∣ first)
    (isSecond : period ∣ second) (near : first < second + period) : first ≤ second := by
  rcases isFirst with ⟨firstIndex, rfl⟩
  rcases isSecond with ⟨secondIndex, rfl⟩
  have before : firstIndex < secondIndex + 1 := Nat.lt_of_mul_lt_mul_left (Nat.mul_succ _ _ ▸ near)
  exact Nat.mul_le_mul_left period (Nat.le_of_lt_succ before)

def Window.Aligned (period : Nat) (window : Window) : Prop :=
  period ∣ window.start ∧ window.stop = window.start + period

theorem windowOf_aligned (time period : Nat) : (windowOf time period).Aligned period :=
  ⟨dvd_truncate time period, rfl⟩

theorem nextWindow_aligned (time period : Nat) : (nextWindow time period).Aligned period := by
  refine ⟨?_, rfl⟩
  simp only [nextWindow]
  split
  · exact Nat.dvd_add (dvd_truncate time period) (Nat.dvd_refl period)
  · exact dvd_truncate time period

theorem nextWindow_sleep (positive : 0 < period) (time : Nat) :
    period ≤ 2 * ((nextWindow time period).stop - time) ∧
      2 * ((nextWindow time period).stop - time) ≤ 3 * period := by
  have below := truncate_le time period
  have above := lt_truncate_add positive time
  simp only [nextWindow]
  split <;> omega

theorem le_nextWindow_start (positive : 0 < period) {time stop : Nat} (aligned : period ∣ stop)
    (near : 2 * stop < 2 * time + period) : stop ≤ (nextWindow time period).start := by
  have above := lt_truncate_add positive time
  refine le_of_dvd_of_lt_add aligned (nextWindow_aligned time period).1 ?_
  simp only [nextWindow]
  split <;> omega

end

/-- Each window begins after the ends of the ones before. -/
def Exporter.Apart (state : Exporter) : Prop :=
  state.windows.Pairwise fun later earlier => earlier.stop ≤ later.start

/-- The windows of the loop are apart. The one it has computed follows those which it has exported
as soon as the export which is going on is over. -/
def Exporter.Ahead (period : Nat) (state : Exporter) : Phase → Prop
  | .waiting => state.Apart ∧ state.window.Aligned period ∧
      ∀ window ∈ state.windows, window.stop ≤ state.window.start
  | .exporting => state.Apart ∧ period ∣ state.window.stop ∧
      2 * state.window.stop < 2 * state.clock + period ∧
      ∀ window ∈ state.windows, window.stop ≤ state.window.stop
  | .stopping | .stopped => True

/-- All windows are whole periods. -/
structure Exporter.Sound (period : Nat) (state : Exporter) : Prop where
  aligned : ∀ window ∈ state.windows, window.Aligned period
  sleeps : ∀ sleep ∈ state.sleeps, period ≤ 2 * sleep ∧ 2 * sleep ≤ 3 * period
  ahead : state.Ahead period state.phase

namespace Exporter.Sound

variable {period : Nat} {state after : Exporter}

theorem initial (period clock : Nat) : (Exporter.initial period clock).Sound period :=
  ⟨by simp [Exporter.initial], by simp [Exporter.initial], .nil, windowOf_aligned clock period,
    by simp [Exporter.initial]⟩

theorem elapse (sound : state.Sound period) (milliseconds : Nat) :
    Exporter.Sound period { state with clock := state.clock + milliseconds } := by
  rcases sound with ⟨aligned, sleeps, ahead⟩
  refine ⟨aligned, sleeps, ?_⟩
  rcases state with ⟨clock, phase, window, windows, sleeps⟩
  cases phase with
  | exporting =>
    rcases ahead with ⟨apart, divides, near, before⟩
    exact ⟨apart, divides, by dsimp only at near ⊢; omega, before⟩
  | waiting | stopping | stopped => exact ahead

theorem next (positive : 0 < period) (sound : state.Sound period) (event : ExportEvent)
    (punctual : Punctual period state event) (taken : state.next period event = some after) :
    after.Sound period ∧ (after.Apart ↔ state.Apart ∧ StopsLate state event) := by
  cases event with
  | elapse milliseconds =>
    cases taken
    exact ⟨sound.elapse milliseconds, (and_iff_left trivial).symm⟩
  | timeout =>
    rcases sound with ⟨aligned, sleeps, ahead⟩
    rcases ite_none_right_eq_some.mp taken with ⟨isWaiting, ⟨⟩⟩
    rw [isWaiting] at ahead
    rcases ahead with ⟨apart, isAligned, before⟩
    have apartAfter := List.Pairwise.cons before apart
    refine ⟨⟨forall_mem_cons.mpr ⟨isAligned, aligned⟩, sleeps, apartAfter, ?_, punctual,
      forall_mem_cons.mpr ⟨le_rfl, fun window isWindow => ?_⟩⟩,
      iff_of_true apartAfter ⟨apart, trivial⟩⟩
    · exact isAligned.2 ▸ Nat.dvd_add isAligned.1 (Nat.dvd_refl period)
    · exact (before window isWindow).trans (isAligned.2 ▸ Nat.le_add_right _ _)
  | interrupt =>
    rcases ite_none_right_eq_some.mp taken with ⟨-, ⟨⟩⟩
    exact ⟨⟨sound.aligned, sound.sleeps, trivial⟩, (and_iff_left trivial).symm⟩
  | exported =>
    rcases sound with ⟨aligned, sleeps, ahead⟩
    rcases ite_none_right_eq_some.mp taken with ⟨isExporting, ⟨⟩⟩
    rw [isExporting] at ahead
    rcases ahead with ⟨apart, divides, near, before⟩
    refine ⟨⟨aligned, forall_mem_cons.mpr ⟨nextWindow_sleep positive _, sleeps⟩, apart,
      nextWindow_aligned _ _, fun window isWindow => ?_⟩, (and_iff_left trivial).symm⟩
    exact (before window isWindow).trans (le_nextWindow_start positive divides near)
  | finalExport =>
    rcases ite_none_right_eq_some.mp taken with ⟨-, ⟨⟩⟩
    refine ⟨⟨forall_mem_cons.mpr ⟨windowOf_aligned _ _, sound.aligned⟩, sound.sleeps,
      trivial⟩, ?_⟩
    rw [Apart, pairwise_cons, and_comm]
    refine and_congr_right' (forall₂_congr fun window isWindow => ?_)
    rcases sound.aligned window isWindow with ⟨divides, isStop⟩
    constructor
    · intro before
      exact before.trans (truncate_le _ _)
    · -- both are multiples of the interval
      intro early
      refine le_of_dvd_of_lt_add ?_ (dvd_truncate _ _)
        (early.trans_lt (lt_truncate_add positive state.clock))
      exact isStop ▸ Nat.dvd_add divides (Nat.dvd_refl period)

end Exporter.Sound

/-- All the windows are aligned, and each one begins after the ends of the ones before, exactly if
the leftover samples are not exported before the last of these ends. -/
theorem export_windows_increase (uploadInterval : ℕ+) (clock : Nat) (events : List ExportEvent)
    (state : Exporter)
    (run : ((system uploadInterval clock).restrict (Punctual (1000 * uploadInterval))).Run
      (system uploadInterval clock).init events state) :
    ((∀ window ∈ state.windows, 1000 * (uploadInterval : Nat) ∣ window.start ∧
        window.stop = window.start + 1000 * uploadInterval) ∧
      state.windows.Pairwise (fun later earlier => earlier.stop ≤ later.start) ∧
      ∀ sleep ∈ state.sleeps, 1000 * (uploadInterval : Nat) ≤ 2 * sleep ∧
        2 * sleep ≤ 3 * (1000 * uploadInterval)) ↔
      (((system uploadInterval clock).restrict (Punctual (1000 * uploadInterval))).restrict
        StopsLate).Run (system uploadInterval clock).init events state := by
  have positive : 0 < 1000 * (uploadInterval : Nat) := Nat.mul_pos (by decide) uploadInterval.pos
  have sound : state.Sound (1000 * uploadInterval) := by
    refine run.invariant (Exporter.Sound (1000 * uploadInterval)) (.initial _ _) ?_
    rintro state event next holds ⟨punctual, taken⟩
    exact (holds.next positive event punctual taken).1
  refine Iff.trans (b := state.Apart) ?_ (System.Run.restrict_iff
    (Exporter.Sound (1000 * uploadInterval)) Exporter.Apart (.initial _ _) .nil ?_ run)
  · exact ⟨fun all => all.2.1, fun increase => ⟨sound.aligned, increase, sound.sleeps⟩⟩
  · rintro state event next holds ⟨punctual, taken⟩
    exact holds.next positive event punctual taken

/-- A wake-up which is 400 milliseconds early, and a stop at the beginning of a later window. -/
theorem early_wake_up_exported : ∃ state,
    (system 1 0).Run (system 1 0).init [.elapse 600, .timeout, .exported, .elapse 1100, .interrupt,
      .elapse 500, .finalExport] state ∧
      state.windows = [⟨2000, 3000⟩, ⟨0, 1000⟩] ∧ state.sleeps = [1400] ∧
      state.windows.Pairwise (fun later earlier => earlier.stop ≤ later.start) := by
  have run : (((system 1 0).restrict (Punctual (1000 * (1 : ℕ+)))).restrict StopsLate).Run
      (system 1 0).init [.elapse 600, .timeout, .exported, .elapse 1100, .interrupt,
        .elapse 500, .finalExport] _ :=
    .cons ⟨trivial, trivial, rfl⟩ <| .cons ⟨trivial, by decide +kernel, rfl⟩ <|
      .cons ⟨trivial, trivial, rfl⟩ <| .cons ⟨trivial, trivial, rfl⟩ <|
      .cons ⟨trivial, trivial, rfl⟩ <| .cons ⟨trivial, trivial, rfl⟩ <|
      .single ⟨by decide +kernel, trivial, rfl⟩
  refine ⟨_, run.of_restrict.of_restrict, by decide +kernel, by decide +kernel, ?_⟩
  exact ((export_windows_increase 1 0 _ _ run.of_restrict).mpr run).2.1

/-- A wake-up is 100 milliseconds early, and the stop comes before the window has ended. -/
theorem stop_exports_window_again : ∃ state,
    ((system 1 0).restrict (Punctual 1000)).Run (system 1 0).init
      [.elapse 900, .timeout, .exported, .interrupt, .finalExport] state ∧
      state.windows = [⟨0, 1000⟩, ⟨0, 1000⟩] :=
  ⟨_, System.run_restrict_of_exec rfl (by decide +kernel), by decide +kernel⟩

end Pyroscope.Upload.ExportWindows
