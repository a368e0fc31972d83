import Mathlib.Algebra.BigOperators.Ring.Finset
import Mathlib.Algebra.Order.BigOperators.Group.Finset
import Pyroscope.Lib.JsonTexts
import Pyroscope.Lib.Transition

/-!
# CPU time of Linux threads

`GetCpuInfo` reads the clock ticks from a line. A native thread whose CPU time cannot be read counts
as if it had not run at all.
-/

namespace Pyroscope.CpuTime

section

open Json (decimal isDigit ofDigits)
open List

/-!
### Scanning
-/

def space : UInt8 := 0x20
def openParenthesis : UInt8 := 0x28
def closeParenthesis : UInt8 := 0x29
def newline : UInt8 := 0x0A

def strchr (byte : UInt8) : List UInt8 → Option (List UInt8)
  | [] => none
  | first :: rest => if first = byte then some (first :: rest) else strchr byte rest

def strrchr (byte : UInt8) : List UInt8 → Option (List UInt8)
  | [] => none
  | first :: rest =>
    (strrchr byte rest).or (if first = byte then some (first :: rest) else none)

def isBlank (byte : UInt8) : Bool := byte == space || (0x09 ≤ byte && byte ≤ 0x0D)

/-- `atoi`, which is undefined if the number does not fit into 32 bits. -/
def atoi (text : List UInt8) : Option Int :=
  let number := text.dropWhile isBlank
  let magnitude : Int :=
    ofDigits ((if number.head? = some 0x2B ∨ number.head? = some 0x2D then number.tail
      else number).takeWhile isDigit)
  let value := if number.head? = some 0x2D then -magnitude else magnitude
  if -2 ^ 31 ≤ value ∧ value < 2 ^ 31 then some value else none

structure ThreadInfo where
  state : UInt8
  userTime : Int
  kernelTime : Int

/-- The fields 3, 14 and 15 are stored and counted. -/
def ThreadInfo.store (info : ThreadInfo) (nbElement currentIdx : Nat) (pos : List UInt8) :
    Option (ThreadInfo × Nat) :=
  if currentIdx = 3 then some ({ info with state := pos.headD 0 }, nbElement + 1)
  else if currentIdx = 14 then
    (atoi pos).map fun ticks => ({ info with userTime := ticks }, nbElement + 1)
  else if currentIdx = 15 then
    (atoi pos).map fun ticks => ({ info with kernelTime := ticks }, nbElement + 1)
  else some (info, nbElement)

/-- There is no result if the behaviour is undefined, or if the rounds do not suffice. -/
def scanFields : Nat → List UInt8 → Nat → Nat → ThreadInfo → Option (Bool × ThreadInfo)
  | 0, _, _, _, _ => none
  | rounds + 1, pos, currentIdx, nbElement, info =>
    if nbElement = 3 then some (true, info)
    else
      match strchr space pos with
      | none => some (false, info)
      | some found =>
        let pos := found.dropWhile (· == space)
        if pos = [] then some (false, info)
        else do
          let (info, nbElement) ← info.store nbElement (currentIdx + 1) pos
          scanFields rounds pos (currentIdx + 1) nbElement info

/-- The last field it looks for is the 15th, so there are 13 rounds at most. -/
def parseThreadInfo (line : List UInt8) (info : ThreadInfo) : Option (Bool × ThreadInfo) :=
  match strrchr closeParenthesis line with
  | none => some (false, info)
  | some pos => scanFields 14 pos 2 0 info

/-- One call of `read` into a buffer of 1024 bytes, of which the last one stays zero. -/
def readLine (content : List UInt8) : List UInt8 := (content.take 1023).takeWhile (· != 0)

/-- Whether the thread runs and its milliseconds, or that it fails. The outer option is about
undefined behaviour. -/
def getCpuInfo (ticksPerSecond : Nat) (content : List UInt8) : Option (Option (Bool × Nat)) :=
  if content = [] then some none
  else do
    let (success, info) ← parseThreadInfo (readLine content) ⟨space, 0, 0⟩
    if success = false then some none
    else
      let product := (info.userTime + info.kernelTime) * 1000
      if -2 ^ 31 ≤ product ∧ product < 2 ^ 31 then
        let cpuTime := (product.tdiv ticksPerSecond % 2 ^ 64).toNat
        some (some (info.state == 0x52 || info.state == 0x44 || info.state == 0x57, cpuTime))
      else none

/-!
### Well-formed lines
-/

/-- The milliseconds of so many ticks. The product is one of 32-bit integers with a sign, and
undefined if it overflows. -/
def cpuTimeMs (ticksPerSecond ticks : Nat) : Option Nat :=
  if ticks * 1000 < 2 ^ 31 then some (ticks * 1000 / ticksPerSecond) else none

/-- A word which cannot be mistaken for the end of a field, of the name or of the line. -/
def IsField (text : List UInt8) : Prop :=
  text ≠ [] ∧ ∀ byte ∈ text, byte ≠ space ∧ byte ≠ closeParenthesis ∧ byte ≠ 0

/-- The line of a thread. Ten fields stand between its state and its times. -/
structure StatLine where
  tid : Nat
  name : List UInt8
  state : UInt8
  between : List (List UInt8)
  userTime : Nat
  kernelTime : Nat
  others : List (List UInt8)
  name_terminates : ∀ byte ∈ name, byte ≠ 0
  state_field : IsField [state]
  between_length : between.length = 10
  fields : ∀ field ∈ between ++ others, IsField field

def spaced (fields : List (List UInt8)) : List UInt8 := fields.flatMap (space :: ·)

namespace StatLine

def values (line : StatLine) : List (List UInt8) :=
  [line.state] :: (line.between ++ decimal line.userTime :: decimal line.kernelTime :: line.others)

def valuesText (line : StatLine) : List UInt8 := spaced line.values ++ [newline]

def text (line : StatLine) : List UInt8 :=
  decimal line.tid ++ space :: openParenthesis :: line.name ++ closeParenthesis :: line.valuesText

/-- The states in which the source takes a thread to be running: `R`, `D` and `W`. -/
def runs (line : StatLine) : Bool :=
  line.state == 0x52 || line.state == 0x44 || line.state == 0x57

end StatLine

/-!
### Reading a line
-/

section Scanning

variable {byte : UInt8} {word rest text tail : List UInt8} {fields : List (List UInt8)}
variable {rounds currentIdx nbElement : Nat} {info : ThreadInfo} {field : List UInt8}

theorem strchr_append (absent : byte ∉ word) :
    strchr byte (word ++ byte :: rest) = some (byte :: rest) := by
  induction word with
  | nil => rw [nil_append, strchr, if_pos rfl]
  | cons first word ih =>
    rw [mem_cons, not_or] at absent
    rw [cons_append, strchr, if_neg (Ne.symm absent.1), ih absent.2]

theorem strrchr_eq_none (absent : byte ∉ text) : strrchr byte text = none := by
  induction text with
  | nil => rfl
  | cons first text ih =>
    rw [mem_cons, not_or] at absent
    rw [strrchr, ih absent.2, if_neg (Ne.symm absent.1), Option.none_or]

theorem strrchr_append (absent : byte ∉ rest) :
    strrchr byte (text ++ byte :: rest) = some (byte :: rest) := by
  induction text with
  | nil => rw [nil_append, strrchr, strrchr_eq_none absent, if_pos rfl, Option.none_or]
  | cons first text ih => rw [cons_append, strrchr, ih, Option.some_or]

theorem isField_decimal (value : Nat) : IsField (decimal value) := by
  have isDecimal := Json.decimal_spec value
  refine ⟨isDecimal.nonempty, fun byte mem => ?_⟩
  have digit := isDecimal.digits byte mem
  refine ⟨?_, ?_, ?_⟩ <;> rintro rfl <;> revert digit <;> decide

theorem atoi_decimal {value : Nat} (small : value < 2 ^ 31) (delimits : Json.Delimits rest) :
    atoi (decimal value ++ rest) = some (value : Int) := by
  have isDecimal := Json.decimal_spec value
  cases shape : decimal value with
  | nil => exact absurd shape isDecimal.nonempty
  | cons first others =>
    rw [shape] at isDecimal
    have digit := isDecimal.digits first mem_cons_self
    have notBlank : isBlank first = false := by
      simp only [isDigit] at digit
      simp only [isBlank, space]
      grind
    have noSign : first ≠ 0x2B ∧ first ≠ 0x2D := by
      refine ⟨?_, ?_⟩ <;> rintro rfl <;> revert digit <;> decide
    have digits : (first :: others ++ rest).takeWhile isDigit = first :: others := by
      have read := Json.digits_append isDecimal.digits isDecimal.nonempty delimits
      rw [Json.digits] at read
      split at read
      · cases read
      · exact (Prod.mk.inj (Option.some.inj read)).1
    rw [cons_append] at digits ⊢
    simp only [atoi, dropWhile_cons_of_neg (Bool.eq_false_iff.mp notBlank), List.head?_cons,
      Option.some.injEq, noSign, or_self, if_false, digits, isDecimal.value]
    rw [if_pos (by omega)]

theorem spaced_cons (field : List UInt8) :
    spaced (field :: fields) ++ tail = space :: (field ++ (spaced fields ++ tail)) := by
  rw [spaced, flatMap_cons, ← spaced, append_assoc, cons_append]

theorem scanFields_cons (solid : space ∉ word) (isField : IsField field) (more : nbElement ≠ 3) :
    scanFields (rounds + 1) (word ++ (spaced (field :: fields) ++ tail)) currentIdx nbElement info =
      (info.store nbElement (currentIdx + 1) (field ++ (spaced fields ++ tail))).bind
        fun stored => scanFields rounds (field ++ (spaced fields ++ tail)) (currentIdx + 1) stored.2
          stored.1 := by
  cases field with
  | nil => exact absurd rfl isField.1
  | cons first others =>
    have solidFirst : (first == space) = false := by
      simpa using (isField.2 first mem_cons_self).1
    rw [scanFields, if_neg more, spaced_cons, strchr_append solid]
    simp only [cons_append, dropWhile_cons, beq_self_eq_true, if_true, solidFirst,
      Bool.false_eq_true, if_false, cons_ne_nil]
    rfl

theorem scanFields_skip {skipped : List (List UInt8)} (currentIdx nbElement : Nat)
    (solid : space ∉ word) (areFields : ∀ field ∈ skipped, IsField field) (more : nbElement ≠ 3)
    (low : 3 ≤ currentIdx) (high : currentIdx + skipped.length < 14) :
    ∃ last, space ∉ last ∧
      scanFields (rounds + skipped.length) (word ++ (spaced (skipped ++ fields) ++ tail)) currentIdx
          nbElement info =
        scanFields rounds (last ++ (spaced fields ++ tail)) (currentIdx + skipped.length) nbElement
          info := by
  induction skipped generalizing word currentIdx with
  | nil => exact ⟨word, solid, rfl⟩
  | cons field skipped ih =>
    have isField := areFields field mem_cons_self
    rw [length_cons] at high
    rcases ih (currentIdx + 1) (fun mem => (isField.2 space mem).1 rfl)
      (fun other mem => areFields other (mem_cons_of_mem _ mem)) (by omega) (by omega)
      with ⟨last, solidLast, rest⟩
    refine ⟨last, solidLast, ?_⟩
    have passed : info.store nbElement (currentIdx + 1)
        (field ++ (spaced (skipped ++ fields) ++ tail)) = some (info, nbElement) := by
      rw [ThreadInfo.store, if_neg (by omega), if_neg (by omega), if_neg (by omega)]
    rw [length_cons, ← Nat.add_assoc, cons_append,
      scanFields_cons solid isField more, passed, Option.bind_some, rest]
    rw [Nat.add_right_comm, Nat.add_assoc]

theorem delimits_spaced (fields : List (List UInt8)) :
    Json.Delimits (spaced fields ++ [newline]) := by
  intro byte first
  cases fields with
  | nil =>
    cases first
    decide
  | cons field fields =>
    cases first
    decide

end Scanning

namespace StatLine

variable (line : StatLine)

theorem isField_of_mem (mem : field ∈ line.values) : IsField field := by
  simp only [values, mem_append, mem_cons] at mem
  rcases mem with rfl | mem | rfl | rfl | mem
  · exact line.state_field
  · exact line.fields field (mem_append_left _ mem)
  · exact isField_decimal _
  · exact isField_decimal _
  · exact line.fields field (mem_append_right _ mem)

theorem ne_of_mem_valuesText {byte : UInt8} (mem : byte ∈ line.valuesText) :
    byte ≠ closeParenthesis ∧ byte ≠ 0 := by
  simp only [valuesText, spaced, mem_append, mem_flatMap, mem_cons, not_mem_nil, or_false] at mem
  rcases mem with ⟨field, isField, rfl | mem⟩ | rfl
  · decide
  · exact ((line.isField_of_mem isField).2 byte mem).2
  · decide

theorem ne_zero_of_mem_text {byte : UInt8} (mem : byte ∈ line.text) : byte ≠ 0 := by
  simp only [text, mem_append, mem_cons] at mem
  rcases mem with (mem | rfl | rfl | mem) | rfl | mem
  · exact ((isField_decimal line.tid).2 byte mem).2.2
  · decide
  · decide
  · exact line.name_terminates byte mem
  · decide
  · exact (line.ne_of_mem_valuesText mem).2

variable {line}

/-- The name is skipped, whatever it contains, and the three fields are found. -/
theorem parseThreadInfo_text (info : ThreadInfo)
    (small : line.userTime + line.kernelTime < 2 ^ 31) :
    parseThreadInfo line.text info = some (true, ⟨line.state, line.userTime, line.kernelTime⟩) := by
  have skipName : strrchr closeParenthesis line.text = some (closeParenthesis :: line.valuesText) :=
    strrchr_append fun mem => (line.ne_of_mem_valuesText mem).1 rfl
  have storeUser := atoi_decimal (show line.userTime < 2 ^ 31 by omega)
    (delimits_spaced (decimal line.kernelTime :: line.others))
  have storeKernel := atoi_decimal (show line.kernelTime < 2 ^ 31 by omega)
    (delimits_spaced line.others)
  have between : ∀ field ∈ line.between, IsField field :=
    fun field mem => line.fields field (mem_append_left _ mem)
  have solidState : space ∉ [line.state] := fun mem => (line.state_field.2 space mem).1 rfl
  rw [parseThreadInfo, skipName]
  change scanFields 14 ([closeParenthesis] ++ line.valuesText) 2 0 info = _
  rw [valuesText, values, scanFields_cons (by decide) line.state_field (by decide)]
  change scanFields 13 _ 3 1 { info with state := line.state } = _
  rw [show 13 = 3 + line.between.length by rw [line.between_length]]
  rcases scanFields_skip 3 1 solidState between (by decide) (by decide)
    (by rw [line.between_length]; decide) with ⟨last, solid, skipped⟩
  rw [skipped, line.between_length, scanFields_cons solid (isField_decimal _) (by decide),
    ThreadInfo.store, if_neg (by decide), if_pos rfl, storeUser, Option.map_some, Option.bind_some,
    scanFields_cons (fun mem => ((isField_decimal _).2 space mem).1 rfl) (isField_decimal _)
      (show 2 ≠ 3 by decide),
    ThreadInfo.store, if_neg (by decide), if_neg (by decide), if_pos rfl, storeKernel,
    Option.map_some, Option.bind_some, scanFields, if_pos rfl]

/-- The line of a thread gives its milliseconds, if the product does not overflow. -/
theorem getCpuInfo_text (ticksPerSecond : Nat) (fits : line.text.length ≤ 1023)
    (small : line.userTime + line.kernelTime < 2 ^ 31) :
    getCpuInfo ticksPerSecond line.text =
      (cpuTimeMs ticksPerSecond (line.userTime + line.kernelTime)).map fun milliseconds =>
        some (line.runs, milliseconds) := by
  have isWhole : readLine line.text = line.text := by
    rw [readLine, take_of_length_le fits, takeWhile_eq_self_iff]
    intro byte mem
    simpa using line.ne_zero_of_mem_text mem
  have parsed := parseThreadInfo_text ⟨space, 0, 0⟩ small
  have nonempty : line.text ≠ [] := by
    intro empty
    simp [text] at empty
  rw [getCpuInfo, if_neg nonempty, isWhole, parsed, Option.bind_eq_bind, Option.bind_some]
  dsimp only
  have product : ((line.userTime : Int) + line.kernelTime) * 1000 =
      ((line.userTime + line.kernelTime) * 1000 : Nat) := by omega
  rw [if_neg (by decide), product, ← Int.ofNat_tdiv, cpuTimeMs]
  have below := Nat.div_le_self ((line.userTime + line.kernelTime) * 1000) ticksPerSecond
  generalize (line.userTime + line.kernelTime) * 1000 / ticksPerSecond = milliseconds at below ⊢
  split
  case isTrue inRange =>
    rw [if_pos (by omega), Int.emod_eq_of_lt (by omega) (by omega), Int.toNat_natCast]
    rfl
  case isFalse outOfRange =>
    rw [if_neg (by omega)]
    rfl

end StatLine

/-- Whatever the name of the thread, its state is found, and its CPU time is exact if a thousand
times the clock ticks fit into 32 bits. Otherwise the product overflows. -/
theorem cpu_info_exact_iff (line : StatLine) (ticksPerSecond : Nat) (_positive : 0 < ticksPerSecond)
    (fits : line.text.length ≤ 1023) (small : line.userTime + line.kernelTime < 2 ^ 31) :
    getCpuInfo ticksPerSecond line.text = some (some
        (line.runs, (line.userTime + line.kernelTime) * 1000 / ticksPerSecond)) ↔
      (line.userTime + line.kernelTime) * 1000 < 2 ^ 31 := by
  rw [StatLine.getCpuInfo_text ticksPerSecond fits small, cpuTimeMs]
  constructor
  · intro found
    by_contra overflows
    rw [if_neg overflows] at found
    cases found
  · intro below
    rw [if_pos below, Option.map_some]

def runningLine (userTime : Nat) : StatLine where
  tid := 7
  name := Json.ascii ['a', ')', ' ', '(', 'b']
  state := 0x52
  between := List.replicate 10 [0x30]
  userTime := userTime
  kernelTime := 50
  others := [[0x31]]
  name_terminates := by simp [Json.ascii]
  state_field := by simp [IsField, space, closeParenthesis]
  between_length := rfl
  fields := by
    intro field mem
    rcases mem_append.mp mem with mem | mem
    · rw [eq_of_mem_replicate mem]
      exact isField_decimal 0
    · rw [mem_singleton.mp mem]
      exact isField_decimal 1

theorem running_line_read : getCpuInfo 100 (runningLine 250).text = some (some (true, 3000)) :=
  (cpu_info_exact_iff (runningLine 250) 100 (by decide) (by decide) (by decide)).mpr (by decide)

/-- At 100 ticks per second the product overflows after six hours of CPU time. -/
theorem long_running_line_overflows :
    (runningLine 2147434).userTime + (runningLine 2147434).kernelTime < 2 ^ 31 ∧
      (runningLine 2147434).text.length ≤ 1023 ∧
      getCpuInfo 100 (runningLine 2147434).text = none := by
  decide +kernel

end

/-! ## CPU time of native threads -/

open Transition Finset

variable {Thread : Type} [DecidableEq Thread]

structure NativeThreads (Thread : Type) where
  consumed : Thread → Nat
  previousTotalCpuTime : Int
  emitted : List Int
  seen : Finset Thread
  /-- Those whose CPU time has ever been read, and was read in the last call. -/
  read : Finset Thread
  last : Finset Thread

inductive NativeEvent (Thread : Type) where
  | consume (thread : Thread) (ticks : Nat)
  /-- The reads of some of the threads fail. What an overflow yields is arbitrary. -/
  | getSamples (threads failed : Finset Thread) (overflowed : Thread → Int)

namespace NativeThreads

def initial : NativeThreads Thread := ⟨fun _ => 0, 0, [], ∅, ∅, ∅⟩

def getThreadCpuTime (ticksPerSecond : Nat) (overflowed : Thread → Int)
    (threads : NativeThreads Thread) (thread : Thread) : Int :=
  match cpuTimeMs ticksPerSecond (threads.consumed thread) with
  | some milliseconds => milliseconds
  | none => overflowed thread

def next (ticksPerSecond : Nat) (state : NativeThreads Thread) :
    NativeEvent Thread → Option (NativeThreads Thread)
  | .consume thread ticks =>
    some { state with
      consumed := Function.update state.consumed thread (state.consumed thread + ticks) }
  | .getSamples threads failed overflowed =>
    let currentTotalCpuTime :=
      ∑ thread ∈ threads \ failed, state.getThreadCpuTime ticksPerSecond overflowed thread
    let cpuTime :=
      if currentTotalCpuTime ≥ state.previousTotalCpuTime then
        currentTotalCpuTime - state.previousTotalCpuTime
      else 0
    some { state with
      previousTotalCpuTime := currentTotalCpuTime
      emitted := if cpuTime = 0 then state.emitted else cpuTime :: state.emitted
      seen := state.seen ∪ threads
      read := state.read ∪ threads \ failed
      last := threads \ failed }

end NativeThreads

def nativeSystem (Thread : Type) [DecidableEq Thread] (ticksPerSecond : Nat) :
    System (NativeThreads Thread) (NativeEvent Thread) :=
  .ofFunction .initial (NativeThreads.next ticksPerSecond)

/-- Nothing overflows, and a thread which has been missed is not read again. -/
def Lasting (state : NativeThreads Thread) : NativeEvent Thread → Prop
  | .consume _ _ => True
  | .getSamples threads failed _ =>
    ∀ thread ∈ threads \ failed, state.consumed thread * 1000 < 2 ^ 31 ∧
      (thread ∈ state.read → thread ∈ state.last)

instance (state : NativeThreads Thread) : ∀ event, Decidable (Lasting state event)
  | .consume _ _ => inferInstanceAs (Decidable True)
  | .getSamples threads failed _ => inferInstanceAs (Decidable (∀ thread ∈ threads \ failed, _))

/-- `level` is what the last successful read of each thread has said. -/
structure Bounded (ticksPerSecond : Nat) (state : NativeThreads Thread) (level : Thread → Nat) :
    Prop where
  total : state.previousTotalCpuTime = ∑ thread ∈ state.last, (level thread : Int)
  emitted : state.emitted.sum ≤ ∑ thread ∈ state.read, (level thread : Int)
  last : state.last ⊆ state.read
  read : state.read ⊆ state.seen
  below : ∀ thread, level thread ≤ state.consumed thread * 1000 / ticksPerSecond

namespace Bounded

variable {ticksPerSecond : Nat} {state next : NativeThreads Thread} {level : Thread → Nat}

theorem consume (bounded : Bounded ticksPerSecond state level) (thread : Thread) (ticks : Nat) :
    Bounded ticksPerSecond
      { state with
        consumed := Function.update state.consumed thread (state.consumed thread + ticks) }
      level where
  total := bounded.total
  emitted := bounded.emitted
  last := bounded.last
  read := bounded.read
  below other := by
    refine (bounded.below other).trans (Nat.div_le_div_right (Nat.mul_le_mul_right _ ?_))
    dsimp only
    rw [Function.update_apply]
    split
    case isTrue same => exact same ▸ Nat.le_add_right _ _
    case isFalse => exact le_rfl

/-- The new readings cover what is emitted: a thread which was read before was read in the last
call, so the total before contains what it had consumed then. -/
theorem getSamples (bounded : Bounded ticksPerSecond state level) {threads failed : Finset Thread}
    {overflowed : Thread → Int} (lasting : Lasting state (.getSamples threads failed overflowed))
    (taken : state.next ticksPerSecond (.getSamples threads failed overflowed) = some next) :
    ∃ level, Bounded ticksPerSecond next level := by
  rcases bounded with ⟨total, emitted, last, read, below⟩
  let readings := threads \ failed
  let current (thread : Thread) : Nat := state.consumed thread * 1000 / ticksPerSecond
  have isCurrent : ∑ thread ∈ readings,
      state.getThreadCpuTime ticksPerSecond overflowed thread =
        ∑ thread ∈ readings, (current thread : Int) := by
    refine sum_congr rfl fun thread isRead => ?_
    rw [NativeThreads.getThreadCpuTime, cpuTimeMs, if_pos (lasting thread isRead).1]
  have earlier : ∑ thread ∈ state.read ∩ readings, (level thread : Int) ≤
      ∑ thread ∈ state.last, (level thread : Int) := by
    refine sum_le_sum_of_subset_of_nonneg ?_ fun _ _ _ => Int.natCast_nonneg _
    intro thread isBoth
    rw [mem_inter] at isBoth
    exact (lasting thread isBoth.2).2 isBoth.1
  have grown : ∑ thread ∈ state.read ∩ readings, (level thread : Int) ≤
      ∑ thread ∈ readings, (current thread : Int) :=
    (sum_le_sum fun thread _ => Int.ofNat_le.mpr (below thread)).trans
      (sum_le_sum_of_subset_of_nonneg inter_subset_right fun _ _ _ => Int.natCast_nonneg _)
  have split : ∑ thread ∈ state.read, (level thread : Int) =
      ∑ thread ∈ state.read ∩ readings, (level thread : Int) +
        ∑ thread ∈ state.read \ readings, (level thread : Int) :=
    (sum_inter_add_sum_sdiff _ _ _).symm
  let after (thread : Thread) : Nat := if thread ∈ readings then current thread else level thread
  have afterRead : ∑ thread ∈ readings, (after thread : Int) =
      ∑ thread ∈ readings, (current thread : Int) :=
    sum_congr rfl fun thread isRead => by simp only [after, if_pos isRead]
  have afterRest : ∑ thread ∈ state.read \ readings, (after thread : Int) =
      ∑ thread ∈ state.read \ readings, (level thread : Int) :=
    sum_congr rfl fun thread isRest => by
      simp only [after, if_neg (mem_sdiff.mp isRest).2]
  have afterAll : ∑ thread ∈ state.read ∪ readings, (after thread : Int) =
      ∑ thread ∈ state.read \ readings, (level thread : Int) +
        ∑ thread ∈ readings, (current thread : Int) := by
    rw [← afterRead, ← afterRest, ← sum_union sdiff_disjoint, sdiff_union_self_eq_union]
  cases taken
  refine ⟨after, isCurrent.trans afterRead.symm, ?_, subset_union_right, ?_, ?_⟩
  · rw [afterAll]
    change List.sum (if _ = 0 then _ else _) ≤ _
    rw [isCurrent, total]
    split_ifs <;> (try rw [List.sum_cons]) <;> omega
  · exact union_subset (read.trans subset_union_left)
      (sdiff_subset.trans subset_union_right)
  · intro thread
    simp only [after]
    split
    · exact le_rfl
    · exact below thread

end Bounded

/-- If no product overflows and no thread is read again after it has been missed, the durations of
the samples add up to the CPU time which the threads have consumed at most. -/
theorem native_samples_bounded (ticksPerSecond : Nat) (events : List (NativeEvent Thread))
    (state : NativeThreads Thread)
    (run : ((nativeSystem Thread ticksPerSecond).restrict Lasting).Run
      (nativeSystem Thread ticksPerSecond).init events state) :
    state.emitted.sum * ticksPerSecond ≤
      1000 * ∑ thread ∈ state.seen, (state.consumed thread : Int) := by
  have bounded : ∃ level, Bounded ticksPerSecond state level := by
    refine run.invariant (fun state => ∃ level, Bounded ticksPerSecond state level) ?_ ?_
    · exact ⟨fun _ => 0, rfl, le_rfl, Finset.Subset.refl _, Finset.Subset.refl _,
        fun _ => Nat.zero_le _⟩
    · rintro state event next ⟨level, bounded⟩ ⟨lasting, taken⟩
      cases event with
      | consume thread ticks =>
        cases taken
        exact ⟨level, bounded.consume thread ticks⟩
      | getSamples threads failed overflowed => exact bounded.getSamples lasting taken
  rcases bounded with ⟨level, bounded⟩
  calc state.emitted.sum * ticksPerSecond
      ≤ (∑ thread ∈ state.read, (level thread : Int)) * ticksPerSecond :=
        Int.mul_le_mul_of_nonneg_right bounded.emitted (Int.natCast_nonneg _)
    _ ≤ (∑ thread ∈ state.seen, (level thread : Int)) * ticksPerSecond := by
        refine Int.mul_le_mul_of_nonneg_right ?_ (Int.natCast_nonneg _)
        exact sum_le_sum_of_subset_of_nonneg bounded.read fun _ _ _ => Int.natCast_nonneg _
    _ ≤ 1000 * ∑ thread ∈ state.seen, (state.consumed thread : Int) := by
        rw [sum_mul, mul_sum]
        refine sum_le_sum fun thread _ => ?_
        have ticks :=
          (Nat.mul_le_mul_right _ (bounded.below thread)).trans (Nat.div_mul_le_self _ _)
        rw [mul_comm (1000 : Int)]
        exact_mod_cast ticks

/-- A thread which dies and another one which starts. -/
theorem dead_thread_bounded : ∃ state,
    (nativeSystem Nat 100).Run (nativeSystem Nat 100).init
      [.consume 0 100, .getSamples {0} ∅ 0, .consume 1 250, .getSamples {1} ∅ 0] state ∧
      state.emitted = [1500, 1000] ∧
      state.emitted.sum * (100 : Nat) ≤
        1000 * ∑ thread ∈ state.seen, (state.consumed thread : Int) := by
  refine System.exists_run_of_restricted_exec Lasting rfl (by decide +kernel) ?_
  intro run
  exact ⟨by decide +kernel, native_samples_bounded 100 _ _ run⟩

/-- One thread has run for a second, and a read between two others fails: two samples of a second
are emitted. -/
theorem failed_read_counted_again : ∃ state,
    (nativeSystem Nat 100).Run (nativeSystem Nat 100).init
      [.consume 0 100, .getSamples {0} ∅ 0, .getSamples {0} {0} 0, .getSamples {0} ∅ 0] state ∧
      state.emitted = [1000, 1000] ∧ state.seen = {0} ∧ state.consumed 0 = 100 :=
  ⟨_, System.run_of_exec rfl, by decide +kernel, by decide +kernel, by decide +kernel⟩

end Pyroscope.CpuTime
