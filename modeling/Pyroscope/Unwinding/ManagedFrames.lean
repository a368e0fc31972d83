import Pyroscope.Lib.Transition
import Pyroscope.Unwinding.Reporting

/-!
# The chain of frame records

A frame pointer within the last two words of the address space passes the check. The walk ends
behind more than eight addresses in a row which are not managed.
-/

namespace Pyroscope.Unwinding

section

open Transition List

variable {fp prevFp stackBase stackEnd : Nat}

theorem isValidFp_iff :
    isValidFp fp prevFp stackBase stackEnd = true ↔
      fp ≠ 0 ∧ fp % 8 = 0 ∧ stackBase ≤ fp ∧ word (fp + 2 * 8) ≤ stackEnd ∧
        (prevFp = 0 ∨ prevFp < fp) := by
  simp only [isValidFp]
  repeat' split
  all_goals simp only [reduceCtorEq, true_iff, false_iff]
  all_goals omega

namespace Walk

variable {machine : Machine} {walk after : Walk} {frame : CursorFrame} {callstack : Callstack}
  {ip : Nat} {events : List Unit}

/-- The passes of the loop, from the state in which `Unwind` enters it. -/
def system (machine : Machine) (frame : CursorFrame) (callstack : Callstack) : System Walk Unit :=
  .ofFunction
    (if machine.stackBase = 0 ∨ machine.stackEnd = 0 then (machine.enter frame callstack).stop
      else machine.enter frame callstack)
    fun walk _ => if walk.active then some (walk.iterate machine) else none

/--
Every word which has been read lies within the stack, the frame pointers go up, and there are no
more of them than words of the stack.
-/
structure Contained (machine : Machine) (walk : Walk) : Prop where
  reads : ∀ address ∈ walk.reads, machine.stackBase ≤ address ∧ address + 8 ≤ machine.stackEnd
  increasing : walk.frames.Pairwise (· < ·)
  short : walk.frames.length ≤ (machine.stackEnd - machine.stackBase) / 8

/-- The end of the frame record does not wrap. -/
def Unwrapped (walk : Walk) (_ : Unit) : Prop := walk.fp + 16 < 2 ^ 64

instance (walk : Walk) (event : Unit) : Decidable (walk.Unwrapped event) :=
  inferInstanceAs (Decidable (_ < _))

/-- What the check of a frame pointer has established. -/
structure Ready (machine : Machine) (walk : Walk) : Prop where
  base : machine.stackBase ≠ 0
  fp_lt : walk.fp < 2 ^ 64
  aligned : walk.fp % 8 = 0
  above : machine.stackBase ≤ walk.fp
  below : word (walk.fp + 2 * 8) ≤ machine.stackEnd
  behind : ∀ frame ∈ walk.frames, frame < walk.fp
  room : machine.stackBase + 8 * walk.frames.length ≤ walk.fp

/-- The addresses of the frame records increase. -/
structure Sound (machine : Machine) (walk : Walk) : Prop where
  increasing : walk.frames.Pairwise (· < ·)
  ready : walk.active = true → walk.Ready machine

/-! ## One pass -/

theorem addFrame_eq : ∃ active consecutiveNativeFrames callstack,
    walk.addFrame machine ip = { walk with
      active := active, consecutiveNativeFrames := consecutiveNativeFrames
      callstack := callstack } := by
  simp only [addFrame]
  split
  · split <;> exact ⟨_, _, _, rfl⟩
  · exact ⟨_, _, _, rfl⟩
  · split <;> exact ⟨_, _, _, rfl⟩

theorem frames_iterate : (walk.iterate machine).frames = walk.frames ++ [walk.fp] := by
  simp only [iterate]
  split
  · rfl
  · rcases addFrame_eq with ⟨active, count, callstack, result⟩
    rw [result]
    split <;> rfl

theorem reads_iterate (machine : Machine) (walk : Walk) :
    (walk.iterate machine).reads = walk.reads ++ [word (walk.fp + 8)] ∧
        (walk.iterate machine).active = false ∨
      (walk.iterate machine).reads = walk.reads ++ [word (walk.fp + 8)] ++ [walk.fp] ∧
        (walk.iterate machine).fp = machine.read walk.fp ∧
        (walk.iterate machine).active =
          isValidFp (machine.read walk.fp) walk.fp machine.stackBase machine.stackEnd := by
  simp only [iterate]
  split
  · exact .inl ⟨rfl, rfl⟩
  · rcases addFrame_eq with ⟨active, count, callstack, result⟩
    rw [result]
    cases active with
    | false => exact .inl ⟨rfl, rfl⟩
    | true => exact .inr ⟨rfl, rfl, rfl⟩

theorem Sound.iterate (sound : walk.Sound machine) (active : walk.active = true) :
    (walk.iterate machine).Sound machine := by
  rcases sound.ready active with ⟨base, fp_lt, aligned, above, below, behind, room⟩
  refine ⟨?_, ?_⟩
  · rw [frames_iterate, pairwise_append]
    refine ⟨sound.increasing, pairwise_singleton _ _, ?_⟩
    intro frame member other last
    rw [mem_singleton.mp last]
    exact behind frame member
  · intro goesOn
    rcases reads_iterate machine walk with ⟨-, stopped⟩ | ⟨-, fp, valid⟩
    · rw [stopped] at goesOn
      exact absurd goesOn Bool.false_ne_true
    · rw [valid, isValidFp_iff] at goesOn
      rcases goesOn with ⟨-, alignedNext, aboveNext, belowNext, up⟩
      have higher : walk.fp < machine.read walk.fp := by omega
      refine ⟨base, ?_, ?_, ?_, ?_, ?_, ?_⟩
      · rw [fp]
        exact Nat.mod_lt _ (by decide)
      · rwa [fp]
      · rwa [fp]
      · rwa [fp]
      · intro frame member
        rw [frames_iterate, mem_append, mem_singleton] at member
        rw [fp]
        rcases member with old | rfl
        · exact Nat.lt_trans (behind frame old) higher
        · exact higher
      · rw [frames_iterate, fp, length_append, length_singleton]
        omega

/-- A pass stays within the stack unless the end of the frame record has wrapped. -/
theorem contained_iterate (sound : walk.Sound machine) (active : walk.active = true) :
    (walk.iterate machine).Contained machine ↔ walk.Contained machine ∧ walk.Unwrapped () := by
  rcases sound.ready active with ⟨base, fp_lt, aligned, above, below, behind, room⟩
  have stackEnd_lt := machine.stackEnd_lt
  constructor
  · rintro ⟨reads, increasing, short⟩
    have first : word (walk.fp + 8) ∈ (walk.iterate machine).reads := by
      rcases reads_iterate machine walk with ⟨all, -⟩ | ⟨all, -, -⟩ <;> simp [all]
    have earlier : ∀ address ∈ walk.reads, address ∈ (walk.iterate machine).reads := by
      intro address member
      rcases reads_iterate machine walk with ⟨all, -⟩ | ⟨all, -, -⟩ <;> simp [all, member]
    rw [frames_iterate, length_append, length_singleton] at short
    refine ⟨⟨fun address member => reads address (earlier address member), sound.increasing,
      by omega⟩, ?_⟩
    have within := reads _ first
    simp only [word, Unwrapped] at within ⊢
    omega
  · rintro ⟨⟨reads, increasing, short⟩, unwrapped⟩
    simp only [Unwrapped] at unwrapped
    simp only [word] at below
    have inside : walk.fp + 16 ≤ machine.stackEnd := by omega
    refine ⟨?_, (sound.iterate active).increasing, ?_⟩
    · intro address member
      have cases : address ∈ walk.reads ∨ address = walk.fp + 8 ∨ address = walk.fp := by
        have exact : word (walk.fp + 8) = walk.fp + 8 := Nat.mod_eq_of_lt (by omega)
        rcases reads_iterate machine walk with ⟨all, -⟩ | ⟨all, -, -⟩ <;>
          simp only [all, exact, mem_append, mem_singleton] at member <;> tauto
      rcases cases with old | rfl | rfl
      · exact reads address old
      · omega
      · omega
    · rw [frames_iterate, length_append, length_singleton,
        Nat.le_div_iff_mul_le (by decide)]
      omega

/-! ## The whole walk -/

theorem enter_cases (machine : Machine) (frame : CursorFrame) (callstack : Callstack) :
    ∃ active added, machine.enter frame callstack = ⟨active, word frame.fp, 0, added, [], []⟩ ∧
      (active = true → isValidFp (word frame.fp) 0 machine.stackBase machine.stackEnd = true) := by
  simp only [Machine.enter]
  split
  · exact ⟨_, _, rfl, (absurd · Bool.false_ne_true)⟩
  · split
    · exact ⟨_, _, rfl, (absurd · Bool.false_ne_true)⟩
    · split
      · exact ⟨_, _, rfl, (absurd · Bool.false_ne_true)⟩
      · refine ⟨_, _, rfl, ?_⟩
        simp_all

theorem init_cases (machine : Machine) (frame : CursorFrame) (callstack : Callstack) :
    ∃ active added,
      (system machine frame callstack).init = ⟨active, word frame.fp, 0, added, [], []⟩ ∧
      (active = true → machine.stackBase ≠ 0 ∧
        isValidFp (word frame.fp) 0 machine.stackBase machine.stackEnd = true) := by
  rcases enter_cases machine frame callstack with ⟨active, added, result, valid⟩
  simp only [system, System.ofFunction, result]
  split
  · exact ⟨_, _, rfl, fun on => absurd on Bool.false_ne_true⟩
  · next bounds => exact ⟨_, _, rfl, fun on => ⟨fun zero => bounds (.inl zero), valid on⟩⟩

theorem sound_init : (system machine frame callstack).init.Sound machine := by
  rcases init_cases machine frame callstack with ⟨active, added, result, valid⟩
  rw [result]
  refine ⟨List.Pairwise.nil, ?_⟩
  intro on
  rcases valid on with ⟨base, valid⟩
  rcases isValidFp_iff.mp valid with ⟨-, aligned, above, below, -⟩
  exact ⟨base, Nat.mod_lt _ (by decide), aligned, above, below, nofun, above⟩

theorem contained_init : (system machine frame callstack).init.Contained machine := by
  rcases init_cases machine frame callstack with ⟨active, added, result, -⟩
  rw [result]
  exact ⟨nofun, List.Pairwise.nil, Nat.zero_le _⟩

/--
The walk stays within the stack, goes up and is short if and only if no pass starts with a frame
record whose end wraps; and a pass can always be made until the loop is left.
-/
theorem walk_contained_iff
    (run : (system machine frame callstack).Run (system machine frame callstack).init events walk) :
    (walk.Contained machine ↔ ((system machine frame callstack).restrict Unwrapped).Run
      (system machine frame callstack).init events walk) ∧
    (walk.active = true → ∃ after, (system machine frame callstack).step walk () after) := by
  constructor
  · refine System.Run.restrict_iff (Sound machine) (Contained machine) sound_init contained_init
      ?_ run
    intro walk _ after sound taken
    have result : (if walk.active then some (walk.iterate machine) else none) = some after := taken
    rcases Option.ite_none_right_eq_some.mp result with ⟨active, ⟨⟩⟩
    exact ⟨sound.iterate active, contained_iterate sound active⟩
  · intro active
    exact ⟨walk.iterate machine, if_pos active⟩

def pageStack (memory : Nat → Nat) : Machine where
  memory := memory
  isManaged _ := some true
  cursor _ := ⟨0, 0x5000, 0, 0x1000, 1, false⟩
  stackBase := 0x1000
  stackEnd := 0x2000
  ordered := by decide
  stackEnd_lt := by decide

def twoRecords : Machine :=
  pageStack fun address => if address = 0x1000 then 0x1010 else if address = 0x1008 then 1 else 0

theorem two_records_contained : ∃ walk,
    (system twoRecords (twoRecords.cursor 0) (.empty 4 (by decide))).Run
      (system twoRecords (twoRecords.cursor 0) (.empty 4 (by decide))).init [(), ()] walk ∧
    walk.active = false ∧ walk.reads = [0x1008, 0x1000, 0x1018] ∧ walk.Contained twoRecords := by
  refine System.exists_run_of_restricted_exec Unwrapped rfl (by decide +kernel) ?_
  intro run
  exact ⟨rfl, rfl, (walk_contained_iff run.of_restrict).1.mpr run⟩

/-- A frame pointer 16 bytes below the end of the address space is followed. -/
theorem wrapped_record_followed : ∃ walk,
    (system (pageStack fun _ => 1) ⟨0, 0x5000, 0, 2 ^ 64 - 16, 1, false⟩
      (.empty 4 (by decide))).Run
        (system (pageStack fun _ => 1) ⟨0, 0x5000, 0, 2 ^ 64 - 16, 1, false⟩
          (.empty 4 (by decide))).init [()] walk ∧
    (pageStack fun _ => 1).stackEnd = 0x2000 ∧ walk.reads = [2 ^ 64 - 8, 2 ^ 64 - 16] :=
  ⟨_, System.run_of_exec rfl, rfl, rfl⟩

end Walk

end

/-! ## Frames of a chain -/

open Machine List Option

namespace Machine

/-- The return addresses of the chain from a frame pointer to one which is not valid, or to a null
address. -/
inductive Chain (machine : Machine) : Nat → Nat → List Nat → Prop where
  | invalid {prevFp fp : Nat}
      (invalid : isValidFp fp prevFp machine.stackBase machine.stackEnd = false) :
      Chain machine prevFp fp []
  | bottom {prevFp fp : Nat}
      (valid : isValidFp fp prevFp machine.stackBase machine.stackEnd = true)
      (null : machine.read (word (fp + 8)) = 0) : Chain machine prevFp fp []
  | link {prevFp fp : Nat} {ips : List Nat}
      (valid : isValidFp fp prevFp machine.stackBase machine.stackEnd = true)
      (call : machine.read (word (fp + 8)) ≠ 0)
      (rest : Chain machine fp (machine.read fp) ips) :
      Chain machine prevFp fp (machine.read (word (fp + 8)) :: ips)

def frameOf (machine : Machine) (ip : Nat) : Option Nat :=
  match machine.isManaged ip with
  | some true => some ip
  | some false => none
  | none => some fakeUnknownIP

/-- The return addresses up to the ninth in a row which counts, with `count` such ones before. -/
def untilNine (counts : Nat → Bool) : Nat → List Nat → List Nat
  | _, [] => []
  | count, ip :: ips =>
    if counts ip then
      if maxConsecutiveNativeFrames < count + 1 then [ip]
      else ip :: untilNine counts (count + 1) ips
    else ip :: untilNine counts 0 ips

/-- An address is known not to be managed, or is not known to be managed. -/
def isNative (machine : Machine) (ip : Nat) : Bool := machine.isManaged ip = some false

def isNotManaged (machine : Machine) (ip : Nat) : Bool := machine.isManaged ip ≠ some true

/-- The frames of the chain if an address counts as native only where it is known to be. -/
def expectedFrames (machine : Machine) (ips : List Nat) : List Nat :=
  (untilNine machine.isNative 0 ips).filterMap machine.frameOf

/-- The frames up to the ninth address in a row which is native or cannot be identified. -/
def countedFrames (machine : Machine) (count : Nat) (ips : List Nat) : List Nat :=
  (untilNine machine.isNotManaged count ips).filterMap machine.frameOf

/-- The addresses between the two places where a walk is given up. -/
def passedOver (machine : Machine) (ips : List Nat) : List Nat :=
  (untilNine machine.isNative 0 ips).drop (untilNine machine.isNotManaged 0 ips).length

theorem frameOf_eq_none {machine : Machine} {ip : Nat} :
    machine.frameOf ip = none ↔ machine.isNative ip = true := by
  cases kind : machine.isManaged ip with
  | none => simp [frameOf, isNative, kind]
  | some isManaged => cases isManaged <;> simp [frameOf, isNative, kind]

theorem length_countedFrames (machine : Machine) (count : Nat) (ips : List Nat) :
    (machine.countedFrames count ips).length =
      (untilNine machine.isNotManaged count ips).countP (!machine.isNative ·) := by
  rw [countedFrames, length_filterMap_eq_countP]
  congr
  funext ip
  rw [Bool.eq_iff_iff, isSome_iff_ne_none, Ne, frameOf_eq_none]
  simp

theorem countedFrames_cons (machine : Machine) (count ip : Nat) (ips : List Nat) :
    machine.countedFrames count (ip :: ips) = (machine.frameOf ip).toList ++
      if machine.isNotManaged ip then
        if 8 < count + 1 then [] else machine.countedFrames (count + 1) ips
      else machine.countedFrames 0 ips := by
  simp only [countedFrames, untilNine, maxConsecutiveNativeFrames]
  split_ifs <;> cases isFrame : machine.frameOf ip <;> simp [*]

end Machine

namespace Walk

variable {machine : Machine} {walk : Walk} {fuel ip : Nat}

def Follows (machine : Machine) (walk : Walk) (count : Nat) : Prop :=
  (walk.iterate machine).fp = machine.read walk.fp ∧
    (walk.iterate machine).active =
      isValidFp (machine.read walk.fp) walk.fp machine.stackBase machine.stackEnd ∧
    (walk.iterate machine).consecutiveNativeFrames = count

theorem addFrame_cases (active : walk.active = true) :
    (walk.addFrame machine ip).fp = walk.fp ∧
    ((∃ frame, machine.frameOf ip = some frame) ∧ walk.callstack.capacity ≤ walk.callstack.count ∧
        walk.addFrame machine ip = walk.stop ∨
      (walk.addFrame machine ip).callstack.written =
          walk.callstack.written ++ (machine.frameOf ip).toList ∧
        (walk.addFrame machine ip).callstack.capacity = walk.callstack.capacity ∧
        (walk.addFrame machine ip).callstack.count =
          walk.callstack.count + (machine.frameOf ip).toList.length ∧
        if machine.isNotManaged ip then
          (walk.addFrame machine ip).consecutiveNativeFrames = walk.consecutiveNativeFrames + 1 ∧
            ((walk.addFrame machine ip).active = true ↔ walk.consecutiveNativeFrames + 1 ≤ 8)
        else (walk.addFrame machine ip).consecutiveNativeFrames = 0 ∧
          (walk.addFrame machine ip).active = true) := by
  cases kind : machine.isManaged ip with
  | none =>
    simp only [addFrame, frameOf, isNotManaged, kind]
    cases added : walk.callstack.add fakeUnknownIP with
    | none => simp_all [stop, Callstack.add]
    | some after =>
      rcases ite_none_left_eq_some.mp added with ⟨room, ⟨⟩⟩
      simp [countNative, maxConsecutiveNativeFrames]
  | some isManaged =>
    cases isManaged with
    | false => simp [addFrame, frameOf, isNotManaged, kind, countNative,
        maxConsecutiveNativeFrames]
    | true =>
      simp only [addFrame, frameOf, isNotManaged, kind]
      cases added : walk.callstack.add ip with
      | none => simp_all [stop, Callstack.add]
      | some after =>
        rcases ite_none_left_eq_some.mp added with ⟨room, ⟨⟩⟩
        simp [active]

theorem iterate_cases (active : walk.active = true)
    (call : machine.read (word (walk.fp + 8)) ≠ 0) :
    (∃ frame, machine.frameOf (machine.read (word (walk.fp + 8))) = some frame) ∧
        walk.callstack.capacity ≤ walk.callstack.count ∧
        (walk.iterate machine).callstack.written = walk.callstack.written ∧
        (walk.iterate machine).active = false ∨
      (walk.iterate machine).callstack.written = walk.callstack.written ++
          (machine.frameOf (machine.read (word (walk.fp + 8)))).toList ∧
        (walk.iterate machine).callstack.capacity = walk.callstack.capacity ∧
        (walk.iterate machine).callstack.count = walk.callstack.count +
          (machine.frameOf (machine.read (word (walk.fp + 8)))).toList.length ∧
        if machine.isNotManaged (machine.read (word (walk.fp + 8))) then
          if 8 < walk.consecutiveNativeFrames + 1 then (walk.iterate machine).active = false
          else walk.Follows machine (walk.consecutiveNativeFrames + 1)
        else walk.Follows machine 0 := by
  let visited : Walk :=
    { walk with
      frames := walk.frames ++ [walk.fp], reads := walk.reads ++ [word (walk.fp + 8)] }
  let after := visited.addFrame machine (machine.read (word (walk.fp + 8)))
  have step : walk.iterate machine = if after.active then after.follow machine else after :=
    if_neg call
  rcases @addFrame_cases machine visited (machine.read (word (walk.fp + 8))) active with
    ⟨sameFp, ⟨isFrame, full, stopped⟩ | ⟨written, capacity, count, goesOn⟩⟩
  · have isStopped : after = visited.stop := stopped
    refine .inl ⟨isFrame, full, ?_⟩
    rw [step, isStopped]
    exact ⟨rfl, rfl⟩
  · have sameCallstack : (walk.iterate machine).callstack = after.callstack := by
      rw [step]
      split <;> rfl
    have follows (goes : after.active = true) :
        walk.Follows machine after.consecutiveNativeFrames := by
      have isFp : after.fp = walk.fp := sameFp
      rw [Follows, step, if_pos goes, ← isFp]
      exact ⟨rfl, rfl, rfl⟩
    refine .inr ⟨by rw [sameCallstack]; exact written, by rw [sameCallstack]; exact capacity,
      by rw [sameCallstack]; exact count, ?_⟩
    split at goesOn
    case isTrue notManaged =>
      rcases goesOn with ⟨counted, goes⟩
      rw [if_pos notManaged]
      split
      case isTrue many =>
        have inactive : after.active = false :=
          Bool.eq_false_iff.mpr fun isActive => absurd (goes.mp isActive) (Nat.not_le.mpr many)
        rw [step, if_neg (by simp [inactive])]
        exact inactive
      case isFalse few => exact counted ▸ follows (goes.mpr (Nat.not_lt.mp few))
    case isFalse managed =>
      rcases goesOn with ⟨reset, goes⟩
      rw [if_neg managed]
      exact reset ▸ follows goes

/-- The loop adds the frames up to the ninth address in a row which is not known to be managed, as
far as there is room for them. -/
theorem written_run {prevFp fp : Nat} {ips : List Nat} (chain : machine.Chain prevFp fp ips)
    (isFp : walk.fp = fp)
    (isActive : walk.active = isValidFp fp prevFp machine.stackBase machine.stackEnd)
    (filled : walk.callstack.Filled) (few : walk.consecutiveNativeFrames ≤ 8)
    (enough : walk.active = true → walk.passes < fuel) :
    (walk.run machine fuel).callstack.written = walk.callstack.written ++
      (machine.countedFrames walk.consecutiveNativeFrames ips).take
        (walk.callstack.capacity - walk.callstack.count) := by
  induction chain generalizing walk fuel with
  | invalid invalid =>
    rw [run_of_inactive (isActive.trans invalid)]
    simp [countedFrames, untilNine]
  | bottom valid null =>
    cases fuel with
    | zero => exact absurd (enough (isActive.trans valid)) (Nat.not_lt_zero _)
    | succ fuel =>
      have stopped : (walk.iterate machine).active = false := by
        simp [iterate, isFp, null, stop]
      rw [run, if_pos (isActive.trans valid), run_of_inactive stopped]
      simp [iterate, isFp, null, stop, countedFrames, untilNine]
  | @link prevFp fp ips valid call rest ih =>
    cases fuel with
    | zero => exact absurd (enough (isActive.trans valid)) (Nat.not_lt_zero _)
    | succ fuel =>
      subst isFp
      have active := isActive.trans valid
      rcases @shorter_iterate machine walk filled few with ⟨filledAfter, shorter⟩
      rw [run, if_pos active, countedFrames_cons]
      rcases iterate_cases active call with
        ⟨⟨frame, isFrame⟩, full, written, inactive⟩ | ⟨written, capacity, count, goesOn⟩
      · rw [run_of_inactive inactive, written, Nat.sub_eq_zero_of_le full, take_zero,
          append_nil]
      · have room := filledAfter.room
        have added : (machine.frameOf (machine.read (word (walk.fp + 8)))).toList.length ≤
            walk.callstack.capacity - walk.callstack.count := by omega
        have left : walk.callstack.capacity - walk.callstack.count -
            (machine.frameOf (machine.read (word (walk.fp + 8)))).toList.length =
              (walk.iterate machine).callstack.capacity -
                (walk.iterate machine).callstack.count := by omega
        rw [take_append, take_of_length_le added, left, ← append_assoc, ← written]
        have goesOnAt (counts : Nat) (few : counts ≤ 8) (follows : walk.Follows machine counts) :
            ((walk.iterate machine).run machine fuel).callstack.written =
              (walk.iterate machine).callstack.written ++ (machine.countedFrames counts ips).take
                ((walk.iterate machine).callstack.capacity -
                  (walk.iterate machine).callstack.count) := by
          rcases follows with ⟨isFp, isValid, rfl⟩
          exact ih isFp isValid filledAfter few fun goes =>
            Nat.lt_of_lt_of_le (shorter goes).2 (Nat.le_of_lt_succ (enough active))
        split at goesOn
        case isTrue notManaged =>
          rw [if_pos notManaged]
          split at goesOn
          case isTrue many => rw [run_of_inactive goesOn, if_pos many, take_nil,
            append_nil]
          case isFalse few =>
            rw [if_neg few]
            exact goesOnAt _ (Nat.not_lt.mp few) goesOn
        case isFalse managed =>
          rw [if_neg managed]
          exact goesOnAt 0 (Nat.zero_le _) goesOn

end Walk

namespace Machine

variable {machine : Machine} {frame : CursorFrame} {callstack : Callstack} {ips : List Nat}

theorem untilNine_isPrefix (machine : Machine) {native counted : Nat} (fewer : native ≤ counted)
    (ips : List Nat) :
    untilNine machine.isNotManaged counted ips <+: untilNine machine.isNative native ips := by
  induction ips generalizing native counted with
  | nil => exact prefix_rfl
  | cons ip ips ih =>
    have implies (native : machine.isNative ip = true) : machine.isNotManaged ip = true := by
      simp only [isNative, isNotManaged, decide_eq_true_eq] at native ⊢
      simp [native]
    rw [untilNine, untilNine]
    split_ifs with notManaged many isNative manyNative isNative manyNative isNative
    · exact prefix_rfl
    · exact prefix_append [ip] _
    · exact prefix_append [ip] _
    · omega
    · exact (prefix_cons_inj ip).mpr (ih (Nat.succ_le_succ fewer))
    · exact (prefix_cons_inj ip).mpr (ih (Nat.zero_le _))
    · exact absurd (implies isNative) notManaged
    · exact absurd (implies isNative) notManaged
    · exact (prefix_cons_inj ip).mpr (ih (Nat.le_refl 0))

theorem enter_of_active (entered : (machine.enter frame callstack).active = true) :
    callstack.add frame.ip = some (machine.enter frame callstack).callstack ∧
      machine.enter frame callstack =
        ⟨true, word frame.fp, 0, (machine.enter frame callstack).callstack, [], []⟩ ∧
      isValidFp (word frame.fp) 0 machine.stackBase machine.stackEnd = true := by
  simp only [enter] at entered ⊢
  split at entered
  · cases entered
  · split at entered
    · cases entered
    case h_2 added =>
      split at entered
      · cases entered
      case isFalse valid => simp_all

/-- Behind the first frame, the frames of the chain are the expected ones exactly if there is room
for no more addresses than the walk has seen which are managed or cannot be identified, or if all
those which it has passed over are native. -/
theorem managed_frames_expected_iff (filled : callstack.Filled)
    (entered : (machine.enter frame callstack).active = true)
    (chain : machine.Chain 0 (word frame.fp) ips) :
    (machine.unwindManagedFrames frame callstack).written = callstack.written ++ frame.ip ::
        (machine.expectedFrames ips).take (callstack.capacity - (callstack.count + 1)) ↔
      callstack.capacity - (callstack.count + 1) ≤
          (untilNine machine.isNotManaged 0 ips).countP (!machine.isNative ·) ∨
        ∀ ip ∈ machine.passedOver ips, machine.isNative ip = true := by
  rcases enter_of_active entered with ⟨added, isWalk, valid⟩
  rcases filled.add added with ⟨filledAfter, capacity, count⟩
  have first : (machine.enter frame callstack).callstack.written =
      callstack.written ++ [frame.ip] := by
    simp only [Callstack.add, ite_none_left_eq_some, some.injEq] at added
    rw [← added.2]
  have written : (machine.unwindManagedFrames frame callstack).written =
      callstack.written ++ frame.ip ::
        (machine.countedFrames 0 ips).take (callstack.capacity - (callstack.count + 1)) := by
    have native : (machine.enter frame callstack).consecutiveNativeFrames = 0 := by rw [isWalk]
    have run := @Walk.written_run machine (machine.enter frame callstack)
      (9 * (callstack.capacity + 1)) 0 (word frame.fp) ips chain (by rw [isWalk])
      (entered.trans valid.symm) filledAfter (by omega) (by simp only [Walk.passes]; omega)
    rw [unwindManagedFrames, run, first, native, capacity, count, append_assoc, singleton_append]
  rw [written, append_cancel_left_eq, cons.injEq, and_iff_right rfl]
  rcases machine.untilNine_isPrefix (Nat.le_refl 0) ips with ⟨between, more⟩
  have isMore : machine.expectedFrames ips =
      machine.countedFrames 0 ips ++ between.filterMap machine.frameOf := by
    rw [expectedFrames, ← more, filterMap_append, countedFrames]
  have passed : machine.passedOver ips = between := by
    rw [passedOver, ← more, drop_left]
  rw [isMore, take_append, eq_comm, append_right_eq_self, take_eq_nil_iff, Nat.sub_eq_zero_iff_le,
    length_countedFrames, passed, filterMap_eq_nil_iff]
  simp only [frameOf_eq_none]

/-- Linked records with these return addresses. Address 5 cannot be identified, and address 7 is
managed. -/
def linkedRecords (ips : List Nat) : Machine where
  memory address :=
    if address % 16 = 0 then address + 16 else ips.getD ((address - 0x1008) / 16) 0
  isManaged ip := if ip = 5 then none else some (ip = 7)
  cursor _ := ⟨0, 0x5000, 0, 0x1000, 1, false⟩
  stackBase := 0x1000
  stackEnd := 0x1800
  ordered := by decide
  stackEnd_lt := by decide

theorem native_address_skipped :
    (linkedRecords [7, 6, 5]).Chain 0 0x1000 [7, 6, 5] ∧
      ((linkedRecords [7, 6, 5]).unwindManagedFrames ⟨0, 0x5000, 0, 0x1000, 1, false⟩
        (.empty 4 (by decide))).written = [0x5000, 7, 0] := by
  have chain : (linkedRecords [7, 6, 5]).Chain 0 0x1000 [7, 6, 5] :=
    .link (by decide) (by decide) <| .link (by decide) (by decide) <|
      .link (by decide) (by decide) <| .bottom (by decide) (by decide)
  have expected := @managed_frames_expected_iff (linkedRecords [7, 6, 5])
    ⟨0, 0x5000, 0, 0x1000, 1, false⟩ (.empty 4 (by decide)) [7, 6, 5] Callstack.filled_empty
    (by decide) chain
  exact ⟨chain, expected.mpr (.inr (by decide))⟩

/-- Behind nine addresses which cannot be identified, a managed one is lost. -/
theorem unidentified_end_walk : ∃ ips,
    (linkedRecords ips).Chain 0 0x1000 ips ∧
      (linkedRecords ips).expectedFrames ips = replicate 9 0 ++ [7] ∧
      ((linkedRecords ips).unwindManagedFrames ⟨0, 0x5000, 0, 0x1000, 1, false⟩
        (.empty 1024 (by decide))).written = 0x5000 :: replicate 9 0 := by
  refine ⟨[5, 5, 5, 5, 5, 5, 5, 5, 5, 7], ?_, by decide, by decide +kernel⟩
  iterate 10 refine .link (by decide) (by decide) ?_
  exact .bottom (by decide) (by decide)

end Machine

end Pyroscope.Unwinding
